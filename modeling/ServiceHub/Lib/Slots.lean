import Mathlib.Data.List.Basic
import Mathlib.Logic.Function.Basic

/-! # Slots under a unique index

Rows hold slots that a unique index keeps apart, checked at every single update. Rows in increasing
order can be moved down to consecutive slots one after the other, and no intermediate update meets
an occupied slot.
-/

namespace Slots

variable {ι : Type} {rows rest : List ι} {slot slot' : ι → Nat} {i : ι} {k : Nat}

/-- The remaining rows stand in order at the slots from `k` on, all others before. -/
structure Ahead (rows : List ι) (k : Nat) (rest : List ι) (slot : ι → Nat) : Prop where
  sorted : rest.Pairwise fun i j => slot i < slot j
  above : ∀ i ∈ rest, k ≤ slot i
  below : ∀ i ∈ rows, i ∉ rest → slot i < k

theorem Ahead.free (h : Ahead rows k (i :: rest) slot) : ∀ j ∈ rows, j ≠ i → slot j ≠ k := by
  intro j listed other
  by_cases later : j ∈ rest
  · have low := h.above i List.mem_cons_self
    have high := (List.pairwise_cons.mp h.sorted).1 j later
    omega
  · have low := h.below j listed (by simp [other, later])
    omega

theorem Ahead.notMem (h : Ahead rows k (i :: rest) slot) : i ∉ rest := by
  intro again
  exact Nat.lt_irrefl _ ((List.pairwise_cons.mp h.sorted).1 i again)

variable [DecidableEq ι]

/-- The row takes the slot unless another row holds it. -/
def move (rows : List ι) (i : ι) (k : Nat) (slot : ι → Nat) : Option (ι → Nat) :=
  if ∃ j ∈ rows, j ≠ i ∧ slot j = k then none else some (Function.update slot i k)

/-- The rows take consecutive slots from `k` on. -/
def compact (rows : List ι) : Nat → List ι → (ι → Nat) → Option (ι → Nat)
  | _, [], slot => some slot
  | k, i :: rest, slot => (move rows i k slot).bind (compact rows (k + 1) rest)

theorem move_ok (h : move rows i k slot = some slot') :
    (∀ j ∈ rows, j ≠ i → slot j ≠ k) ∧ slot' = Function.update slot i k := by
  simp only [move] at h
  split at h
  · cases h
  · rename_i free
    refine ⟨fun j listed other taken => free ⟨j, listed, other, taken⟩, ?_⟩
    exact (Option.some.inj h).symm

theorem Ahead.moved (h : Ahead rows k (i :: rest) slot) :
    Ahead rows (k + 1) rest (Function.update slot i k) := by
  have fresh := h.notMem
  obtain ⟨high, sorted⟩ := List.pairwise_cons.mp h.sorted
  have kept : ∀ j ∈ rest, Function.update slot i k j = slot j := by
    intro j later
    apply Function.update_of_ne
    rintro rfl
    exact fresh later
  constructor
  · refine sorted.imp_of_mem fun {a b} ha hb lt => ?_
    rw [kept a ha, kept b hb]
    exact lt
  · intro j later
    have low := h.above i List.mem_cons_self
    have := high j later
    rw [kept j later]
    omega
  · intro j listed early
    by_cases here : j = i
    · subst here
      rw [Function.update_self]
      omega
    · rw [Function.update_of_ne here]
      have := h.below j listed (by simp [here, early])
      omega

/-- Rows in order are compacted without a violation. -/
theorem Ahead.compacted (h : Ahead rows k rest slot) :
    ∃ slot', compact rows k rest slot = some slot' ∧ rest.map slot' = List.range' k rest.length
      ∧ ∀ j, j ∉ rest → slot' j = slot j := by
  induction rest generalizing k slot with
  | nil => exact ⟨slot, rfl, rfl, fun _ _ => rfl⟩
  | cons i rest ih =>
      have fresh := h.notMem
      obtain ⟨slot', run, slots, others⟩ := ih h.moved
      refine ⟨slot', ?_, ?_, fun j absent => ?_⟩
      · have free : ¬ ∃ j ∈ rows, j ≠ i ∧ slot j = k := by
          rintro ⟨j, listed, other, taken⟩
          exact h.free j listed other taken
        simp only [compact, move, if_neg free, Option.bind_some]
        exact run
      · have first : slot' i = k := by
          rw [others i fresh, Function.update_self]
        rw [List.map_cons, slots, first, List.length_cons, List.range'_succ]
      · simp only [List.mem_cons, not_or] at absent
        obtain ⟨here, later⟩ := absent
        rw [others j later, Function.update_of_ne here]

end Slots
