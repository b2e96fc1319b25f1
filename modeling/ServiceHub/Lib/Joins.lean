import Mathlib.Algebra.BigOperators.Group.List.Basic

/-! # Left joins

Every row of the left table with each of its partners in the right table, or alone. What is summed over the joined
rows may be summed over the right table instead.
-/

namespace Joins

variable {α β M : Type*} {on : α → β → Bool} {l : List α} {r : List β}

/-- `l LEFT JOIN r ON on`. -/
def leftJoin (on : α → β → Bool) (l : List α) (r : List β) : List (α × Option β) :=
  l.flatMap fun a => match r.filter (on a) with
    | [] => [(a, none)]
    | rows => rows.map fun b => (a, some b)

/-- No left row has two partners. -/
def Single (on : α → β → Bool) (l : List α) (r : List β) : Prop := ∀ a ∈ l, r.countP (on a) ≤ 1

theorem filter_of_countP_le_one {p : β → Bool} (single : r.countP p ≤ 1) : r.filter p = (r.find? p).toList := by
  induction r with
  | nil => rfl
  | cons b r ih =>
      by_cases here : p b = true
      · have none : r.countP p = 0 := by
          rw [List.countP_cons_of_pos here] at single
          omega
        have rest : r.filter p = [] := List.filter_eq_nil_iff.mpr (List.countP_eq_zero.mp none)
        simp [here, rest]
      · rw [List.countP_cons_of_neg here] at single
        simp [here, ih single]

/-- The numbered row with a given number. -/
theorem filter_zipIdx (l : List α) (a : Nat) :
    (l.zipIdx.filter fun row => row.2 == a) = ((l[a]?).map fun x => (x, a)).toList := by
  suffices shifted : ∀ n, ((l.zipIdx n).filter fun row => row.2 == n + a) = ((l[a]?).map fun x => (x, n + a)).toList by
    simpa using shifted 0
  induction l generalizing a with
  | nil => simp
  | cons x l ih =>
      intro n
      rw [List.zipIdx_cons]
      cases a with
      | zero =>
          have later : (l.zipIdx (n + 1)).filter (fun row => row.2 == n) = [] := by
            refine List.filter_eq_nil_iff.mpr fun row listed => ?_
            have bound := (List.mem_zipIdx (x := row.1) (i := row.2) listed).1
            simp only [beq_iff_eq]
            omega
          simp [later]
      | succ a =>
          have next := ih a (n + 1)
          have shift : n + 1 + a = n + (a + 1) := by omega
          rw [shift] at next
          simp [next]

/-- Without two partners, every left row is joined once. -/
theorem leftJoin_single (single : Single on l r) : leftJoin on l r = l.map fun a => (a, r.find? (on a)) := by
  induction l with
  | nil => rfl
  | cons a l ih =>
      obtain ⟨first, rest⟩ := List.forall_mem_cons.mp single
      have others := ih rest
      rw [leftJoin] at others ⊢
      rw [List.flatMap_cons, others, List.map_cons, filter_of_countP_le_one first]
      cases r.find? (on a) <;> rfl

section Sums

variable [AddCommMonoid M] {w : α → β → M}

theorem sum_filter (p : β → Bool) (f : β → M) (r : List β) :
    ((r.filter p).map f).sum = (r.map fun b => if p b then f b else 0).sum := by
  rw [List.sum_map_ite]
  simp

/-- The pairs of a left and a right row are summed from either side. -/
theorem sum_exchange (on : α → β → Bool) (w : α → β → M) (l : List α) (r : List β) :
    (l.map fun a => ((r.filter (on a)).map (w a)).sum).sum
      = (r.map fun b => ((l.filter (on · b)).map (w · b)).sum).sum := by
  induction l with
  | nil => simp
  | cons a l ih =>
      have split : ∀ b, (((a :: l).filter (on · b)).map (w · b)).sum
          = (if on a b then w a b else 0) + ((l.filter (on · b)).map (w · b)).sum := by
        intro b
        by_cases here : on a b = true
        · simp [here]
        · simp [here]
      rw [List.map_cons, List.sum_cons, ih, sum_filter, ← List.sum_map_add]
      simp only [split]

/-- A row without a partner adds nothing. -/
theorem sum_leftJoin (on : α → β → Bool) (w : α → β → M) (l : List α) (r : List β) :
    ((leftJoin on l r).map fun row => row.2.elim 0 (w row.1)).sum
      = (r.map fun b => ((l.filter (on · b)).map (w · b)).sum).sum := by
  rw [← sum_exchange]
  induction l with
  | nil => rfl
  | cons a l ih =>
      rw [leftJoin] at ih ⊢
      rw [List.flatMap_cons, List.map_append, List.sum_append, ih, List.map_cons, List.sum_cons]
      congr 1
      cases r.filter (on a) with
      | nil => simp
      | cons b rows => simp [Function.comp_def]

end Sums

end Joins
