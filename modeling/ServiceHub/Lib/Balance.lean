import Mathlib.Algebra.Group.Defs

/-! # Running balances

A history of entries, each with the balance before it, the balance after it and the amount
it adds. `Carries` says that the history leads from one balance to another without a gap.
-/

namespace Balance

variable {α G : Type} [Add G] (before after delta : α → G)

/-- The entries lead from the balance `s` to the balance `t`. -/
def Carries (s : G) : List α → G → Prop
  | [], t => s = t
  | e :: es, t => before e = s ∧ after e = before e + delta e ∧ Carries (after e) es t

variable {before after delta}

theorem Carries.append {s t : G} {es : List α} {e : α} (h : Carries before after delta s es t)
    (from_ : before e = t) (adds : after e = before e + delta e) :
    Carries before after delta s (es ++ [e]) (after e) := by
  induction es generalizing s with
  | nil =>
      obtain rfl : s = t := h
      exact ⟨from_, adds, rfl⟩
  | cons d es ih =>
      obtain ⟨start, sum, rest⟩ := h
      exact ⟨start, sum, ih rest⟩

end Balance
