import Mathlib.Logic.Basic

/-! # Guarded transactions

A transaction body is a chain of guards, lookups and one result. Its successful
runs are read off by the `_ok` lemmas below, so a proof about a transaction
never unfolds the monad.
-/

namespace Guard

variable {ε α β : Type}

/-- Abort with `e` when the condition holds. -/
def rejectIf (c : Prop) [Decidable c] (e : ε) : Except ε Unit :=
  if c then .error e else .ok ()

/-- Abort with `e` when the row is missing. -/
def orThrow (row : Option α) (e : ε) : Except ε α :=
  match row with
  | some a => .ok a
  | none => .error e

@[simp] theorem rejectIf_ok {c : Prop} [Decidable c] {e : ε} {u : Unit} :
    rejectIf c e = .ok u ↔ ¬ c := by
  by_cases h : c <;> simp [rejectIf, h]

@[simp] theorem orThrow_ok {row : Option α} {e : ε} {a : α} :
    orThrow row e = .ok a ↔ row = some a := by
  cases row <;> simp [orThrow]

@[simp] theorem bind_ok {x : Except ε α} {f : α → Except ε β} {b : β} :
    (x >>= f) = .ok b ↔ ∃ a, x = .ok a ∧ f a = .ok b := by
  cases x <;> simp [bind, Except.bind]

@[simp] theorem pure_ok {a b : α} : (pure a : Except ε α) = .ok b ↔ a = b := by
  simp [pure, Except.pure]

@[simp] theorem throw_ok {e : ε} {b : α} : (throw e : Except ε α) = .ok b ↔ False := by
  simp [throw, throwThe, MonadExceptOf.throw]

theorem rejectIf_bind_ok {c : Prop} [Decidable c] {e : ε} {f : Unit → Except ε β} {b : β} :
    (rejectIf c e >>= f) = .ok b ↔ ¬ c ∧ f () = .ok b := by
  by_cases h : c <;> simp [rejectIf, h, bind, Except.bind]

theorem orThrow_bind_ok {row : Option α} {e : ε} {f : α → Except ε β} {b : β} :
    (orThrow row e >>= f) = .ok b ↔ ∃ a, row = some a ∧ f a = .ok b := by
  simp

/-- A check without a result. -/
theorem check_bind_ok {x : Except ε Unit} {f : Unit → Except ε β} {b : β} :
    (x >>= f) = .ok b ↔ x = .ok () ∧ f () = .ok b := by
  cases x <;> simp [bind, Except.bind]

theorem pure_error {a : α} {e : ε} : (pure a : Except ε α) = .error e ↔ False := by
  simp [pure, Except.pure]

theorem rejectIf_error {c : Prop} [Decidable c] {e e' : ε} : rejectIf c e = .error e' ↔ c ∧ e = e' := by
  by_cases h : c <;> simp [rejectIf, h]

/-- A failed check ends the body with its error. -/
theorem check_bind_error {x : Except ε Unit} {f : Unit → Except ε β} {e : ε} :
    (x >>= f) = .error e ↔ x = .error e ∨ (x = .ok () ∧ f () = .error e) := by
  cases x <;> simp [bind, Except.bind]

theorem ite_ok {c : Prop} [Decidable c] {x y : Except ε α} {a : α} :
    (if c then x else y) = .ok a ↔ (c ∧ x = .ok a) ∨ (¬ c ∧ y = .ok a) := by
  by_cases h : c <;> simp [h]

theorem toOption_some {x : Except ε α} {a : α} : x.toOption = some a ↔ x = .ok a := by
  cases x <;> simp [Except.toOption]

end Guard
