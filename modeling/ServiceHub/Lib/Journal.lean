import Mathlib.Data.List.Basic

/-! # Journals with cancellations

A journal only grows. An entry may cancel an earlier one by its number, and an entry is appended only
when every earlier entry that blocks it has been cancelled before.
-/

namespace Journal

variable {ε : Type} {cancels : ε → Option Nat} {blocks blocks' : ε → ε → Prop} {log log' : List ε}
  {e e' : ε} {i j : Nat}

/-- An entry of the journal cancels the one with number `i`. -/
def Cancelled (cancels : ε → Option Nat) (log : List ε) (i : Nat) : Prop :=
  ∃ c ∈ log, cancels c = some i

/-- Every entry that blocks the new one has been cancelled. -/
def Admits (cancels : ε → Option Nat) (blocks : ε → ε → Prop) (log : List ε) (e' : ε) : Prop :=
  ∀ i e, log[i]? = some e → blocks e e' → Cancelled cancels log i

/-- Every entry was admitted by the journal before it. -/
def Guarded (cancels : ε → Option Nat) (blocks : ε → ε → Prop) (log : List ε) : Prop :=
  ∀ i j e e', i < j → log[i]? = some e → log[j]? = some e' → blocks e e' → Cancelled cancels (log.take j) i

theorem Cancelled.mono (h : Cancelled cancels log i) (kept : log ⊆ log') : Cancelled cancels log' i := by
  obtain ⟨c, listed, reverses⟩ := h
  exact ⟨c, kept listed, reverses⟩

theorem Guarded.nil : Guarded cancels blocks [] := by
  intro i j e e' before found
  simp at found

theorem Guarded.append (h : Guarded cancels blocks log) (admits : Admits cancels blocks log e') :
    Guarded cancels blocks (log ++ [e']) := by
  intro i j e x before found found' blocked
  have bound := (List.getElem?_eq_some_iff.mp found').1
  simp only [List.length_append, List.length_singleton] at bound
  have early : i < log.length := by omega
  rw [List.getElem?_append_left early] at found
  rcases Nat.lt_or_ge j log.length with old | last
  · rw [List.getElem?_append_left old] at found'
    rw [List.take_append_of_le_length (by omega)]
    exact h i j e x before found found' blocked
  · obtain rfl : j = log.length := by omega
    simp only [List.getElem?_concat_length, Option.some.injEq] at found'
    subst found'
    rw [List.take_append_of_le_length (Nat.le_refl _), List.take_length]
    exact admits i e found blocked

/-- A relation that blocks less on the entries of the journal. -/
theorem Guarded.weaken (h : Guarded cancels blocks log)
    (less : ∀ e ∈ log, ∀ e' ∈ log, blocks' e e' → blocks e e') : Guarded cancels blocks' log := by
  intro i j e e' before found found' blocked
  refine h i j e e' before found found' (less e ?_ e' ?_ blocked)
  · exact List.mem_of_getElem? found
  · exact List.mem_of_getElem? found'

/-- An entry that still stands blocks no later one. -/
theorem Guarded.standing (h : Guarded cancels blocks log) (stands : ¬ Cancelled cancels log i)
    (before : i < j) (found : log[i]? = some e) (found' : log[j]? = some e') : ¬ blocks e e' := by
  intro blocked
  apply stands
  exact (h i j e e' before found found' blocked).mono (List.take_subset j log)

end Journal
