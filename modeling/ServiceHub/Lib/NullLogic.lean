import Mathlib.Logic.Basic

/-! # Conditions over nullable columns

A condition of a query is true, false or unknown, and a comparison with NULL is unknown. A query
selects the rows whose condition is true.
-/

namespace NullLogic

/-- `none` is unknown. -/
abbrev Truth := Option Bool

namespace Truth

def and : Truth → Truth → Truth
  | some false, _ => some false
  | _, some false => some false
  | some true, some true => some true
  | _, _ => none

def or : Truth → Truth → Truth
  | some true, _ => some true
  | _, some true => some true
  | some false, some false => some false
  | _, _ => none

def all (conditions : List Truth) : Truth := conditions.foldr and (some true)

def any (conditions : List Truth) : Truth := conditions.foldr or (some false)

@[simp] theorem and_true {a b : Truth} : a.and b = some true ↔ a = some true ∧ b = some true := by
  rcases a with _ | _ | _ <;> rcases b with _ | _ | _ <;> simp [and]

@[simp] theorem or_true {a b : Truth} : a.or b = some true ↔ a = some true ∨ b = some true := by
  rcases a with _ | _ | _ <;> rcases b with _ | _ | _ <;> simp [or]

theorem all_true {conditions : List Truth} : all conditions = some true ↔ ∀ c ∈ conditions, c = some true := by
  induction conditions with
  | nil => simp [all]
  | cons c conditions ih =>
      unfold all at ih ⊢
      simp only [List.foldr_cons, and_true, ih, List.mem_cons, forall_eq_or_imp]

theorem any_true {conditions : List Truth} : any conditions = some true ↔ ∃ c ∈ conditions, c = some true := by
  induction conditions with
  | nil => simp [any]
  | cons c conditions ih =>
      unfold any at ih ⊢
      simp only [List.foldr_cons, or_true, ih, List.mem_cons, exists_eq_or_imp]

end Truth

/-- A comparison of a nullable column. -/
def compare {α : Type} (holds : α → Bool) (column : Option α) : Truth := column.map holds

theorem compare_true {α : Type} {holds : α → Bool} {column : Option α} :
    compare holds column = some true ↔ column.any holds = true := by
  cases column <;> simp [compare]

end NullLogic
