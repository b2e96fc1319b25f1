import ServiceHub.Schema
import ServiceHub.Lib.Guard
import ServiceHub.Lib.Machine
import ServiceHub.Lib.Rows
import ServiceHub.Lib.Threads
import ServiceHub.Catalog.Names

/-! # Administration of the categories

`createManagedCategory` and `updateManagedCategory` look for an equivalent category under an advisory lock
on the hash of the concept. The state is what is committed; a call runs statement by statement and keeps
its locks to the end of its transaction.
-/

namespace ServiceHub

open Guard Threads

structure Category where
  id : Nat
  name : Text
  isActive : Bool
  deriving Repr, DecidableEq

structure CategoryInput where
  name : Option Text := none
  isActive : Option Bool := none
  deriving Repr, DecidableEq

/-- A transaction before its next statement. -/
inductive CategoryCall where
  | lockCategory (categoryId : Nat) (input : CategoryInput)
  | readCategory (categoryId : Nat) (input : CategoryInput)
  | lockConcept (current next : Category)
  | compare (current next : Category)
  | count (current next : Category)
  | write (current next : Category)
  | lockName (name : Text)
  | compareName (name : Text)
  | create (name : Text)
  deriving Repr, DecidableEq

structure CategorySystem where
  categories : List Category
  calls : List CategoryCall := []
  deriving Repr, DecidableEq

/-- What `resume` reads outside of the categories: the dependent rows, and the id of a new row. -/
structure Dependents where
  listingCount : Nat := 0
  openRequestCount : Nat := 0
  newId : Nat := 0
  deriving Repr, DecidableEq

/-- The change takes the lock of its concept: a new name, or a category that becomes active. -/
def Category.needsConcept (current next : Category) : Bool :=
  next.name != current.name || (!current.isActive && next.isActive)

def categoryLock (categoryId : Nat) : Text := "category:".toList ++ (toString categoryId).toList

section Source

variable (u : Unicode)

/-- The locks a transaction holds. -/
def CategoryCall.held : CategoryCall → List Text
  | .lockCategory _ _ | .lockName _ => []
  | .readCategory categoryId _ => [categoryLock categoryId]
  | .lockConcept current _ => [categoryLock current.id]
  | .compare current next => [categoryLock current.id, categoryConceptKey u next.name]
  | .count current next | .write current next =>
      categoryLock current.id :: if current.needsConcept next then [categoryConceptKey u next.name] else []
  | .compareName name | .create name => [categoryConceptKey u name]

/-- The lock that the next statement takes. -/
def CategoryCall.wanted : CategoryCall → Option Text
  | .lockCategory categoryId _ => some (categoryLock categoryId)
  | .lockConcept _ next => some (categoryConceptKey u next.name)
  | .lockName name => some (categoryConceptKey u name)
  | _ => none

/-- `updateManagedCategory` between its two locks. -/
def planUpdate (categories : List Category) (categoryId : Nat) (input : CategoryInput) : Except HttpError CategoryCall := do
  let current ← orThrow (categories.find? (·.id == categoryId)) (httpError "Category not found" 404)
  let nextName := canonicalCategoryName u (input.name.getD current.name)
  let nextIsActive := input.isActive.getD current.isActive
  rejectIf (isFallbackCategory u current.name = true ∧ (nextName ≠ otherServicesCategory ∨ nextIsActive = false))
    (httpError "Other Services is the system fallback and must keep its name and remain active." 409)
  rejectIf (nextName = current.name ∧ nextIsActive = current.isActive)
    (httpError "No category changes were provided" 400)
  let next := { current with name := nextName, isActive := nextIsActive }
  return if current.needsConcept next then .lockConcept current next else .count current next

/-- The search for a duplicate. Another inactive category does not count for a name that changes only in case. -/
def compareConcepts (categories : List Category) (current next : Category) : Except HttpError CategoryCall := do
  let concept := categoryConceptKey u next.name
  rejectIf ((categories.filter (·.id != current.id)).any (fun category => categoryConceptKey u category.name == concept
      && (category.isActive || normalizedCategoryName u current.name != normalizedCategoryName u next.name
        || normalizedCategoryName u category.name == normalizedCategoryName u next.name)) = true)
    (httpError "An equivalent category already exists" 409)
  return .count current next

def countDependents (current next : Category) (dependents : Dependents) : Except HttpError CategoryCall := do
  let listingCount := dependents.listingCount
  let openRequestCount := dependents.openRequestCount
  rejectIf (current.isActive = true ∧ next.isActive = false ∧ (0 < listingCount ∨ 0 < openRequestCount))
    (httpError s!"Category cannot be deactivated while {listingCount} marketplace listing(s) or {openRequestCount} open request(s) depend on it" 409)
  return .write current next

def writeCategory (categories : List Category) (next : Category) : Except HttpError (List Category) := do
  rejectIf (categories.any (·.id == next.id) = false) recordNotFound
  rejectIf (categories.any (fun category => category.id != next.id && category.name == next.name) = true) uniqueViolation
  return Rows.updateWhere (·.id == next.id) (fun category => { category with name := next.name, isActive := next.isActive }) categories

def compareNew (categories : List Category) (name : Text) : Except HttpError CategoryCall :=
  match categories.find? fun category => categoryConceptKey u category.name == categoryConceptKey u name with
  | some existing =>
      let official := String.ofList (canonicalCategoryName u existing.name)
      .error (httpError s!"An equivalent category already exists: {official}. Use that category instead." 409)
  | none => .ok (.create name)

def createCategory (categories : List Category) (newId : Nat) (name : Text) : Except HttpError (List Category) := do
  rejectIf (categories.any (fun category => category.id == newId || category.name == name) = true) uniqueViolation
  return categories ++ [{ id := newId, name, isActive := true }]

/-- The next statement: a rejected call rolls back, and the write is the commit. -/
def CategoryCall.resume (categories : List Category) (dependents : Dependents) :
    CategoryCall → Except HttpError (List Category × Option CategoryCall)
  | .lockCategory categoryId input => .ok (categories, some (.readCategory categoryId input))
  | .readCategory categoryId input => do return (categories, some (← planUpdate u categories categoryId input))
  | .lockConcept current next => .ok (categories, some (.compare current next))
  | .compare current next => do return (categories, some (← compareConcepts u categories current next))
  | .count current next => do return (categories, some (← countDependents current next dependents))
  | .write _ next => do return (← writeCategory categories next, none)
  | .lockName name => .ok (categories, some (.compareName name))
  | .compareName name => do return (categories, some (← compareNew u categories name))
  | .create name => do return (← createCategory categories dependents.newId name, none)

end Source

inductive CategoryAction where
  | updateManagedCategory (categoryId : Nat) (input : CategoryInput)
  | createManagedCategory (name : Text)
  | resume (k : Nat) (dependents : Dependents)
  /-- A lost connection, a timeout. -/
  | abort (k : Nat)
  deriving Repr, DecidableEq

section Machine

variable (u : Unicode) (hashtext : Text → Int)

/-- The call holds a lock with the hash. -/
def CategoryCall.holds (hash : Int) (call : CategoryCall) : Bool :=
  (call.held u).any (hashtext · == hash)

/-- Another transaction holds the lock that the call wants. -/
def CategorySystem.waits (s : CategorySystem) (k : Nat) (call : CategoryCall) : Bool :=
  (call.wanted u).any fun key => (s.calls.eraseIdx k).any (·.holds u hashtext (hashtext key))

def CategorySystem.step (s : CategorySystem) : CategoryAction → Option CategorySystem
  | .updateManagedCategory categoryId input => some { s with calls := s.calls ++ [.lockCategory categoryId input] }
  | .createManagedCategory name => some { s with calls := s.calls ++ [.lockName (canonicalCategoryName u name)] }
  | .resume k dependents =>
      (s.calls[k]?).bind fun call =>
        if s.waits u hashtext k call then none
        else match call.resume u s.categories dependents with
          | .ok (categories, next) => some { categories, calls := proceed s.calls k next }
          | .error _ => some { s with calls := proceed s.calls k none }
  | .abort k => if k < s.calls.length then some { s with calls := proceed s.calls k none } else none

/-- No two active categories have one concept. -/
def UniqueConcepts (categories : List Category) : Prop :=
  ∀ a ∈ categories, ∀ b ∈ categories, a.isActive = true → b.isActive = true →
    categoryConceptKey u a.name = categoryConceptKey u b.name → a.id = b.id

def categoryMachine : Machine CategorySystem CategoryAction where
  initial s := s.calls = [] ∧ (s.categories.map Category.id).Nodup ∧ UniqueConcepts u s.categories
  next := CategorySystem.step u hashtext

end Machine

end ServiceHub
