import Mathlib.Data.List.Sort

/-! # Pages of a merged list

Two sorted lists are merged and cut into pages of a fixed size. A page needs no more of either list than a
prefix that reaches its end, and the pages in a row are the whole list, also when every item is looked up again.
-/

namespace Pages

variable {α : Type*} {limit page : Nat} {items : List α}

/-- The page with the given number, the first being 1. -/
def slice (limit page : Nat) (items : List α) : List α :=
  (items.take (page * limit)).drop ((page - 1) * limit)

/-- How many pages a list of the given length fills. -/
def count (limit total : Nat) : Nat := (total + limit - 1) / limit

section Slices

theorem take_next : items.take ((page + 1) * limit) = items.take (page * limit) ++ slice limit (page + 1) items := by
  have le : page * limit ≤ (page + 1) * limit := Nat.mul_le_mul_right limit (Nat.le_succ page)
  have front : items.take (page * limit) = (items.take ((page + 1) * limit)).take (page * limit) := by
    rw [List.take_take, Nat.min_eq_left le]
  rw [front]
  exact (List.take_append_drop _ _).symm

/-- The first pages in a row. -/
theorem slices_flatten (n : Nat) :
    ((List.range' 1 n).flatMap fun page => slice limit page items) = items.take (n * limit) := by
  induction n with
  | zero => simp
  | succ n ih =>
      rw [List.range'_concat, List.flatMap_append, ih, take_next]
      simp [Nat.add_comm]

theorem lt_count_iff (positive : 0 < limit) {total : Nat} : page < count limit total ↔ page * limit < total := by
  have next : (page + 1) * limit = page * limit + limit := Nat.succ_mul page limit
  rw [count, Nat.lt_iff_add_one_le, Nat.le_div_iff_mul_le positive, next]
  omega

theorem le_count_mul (positive : 0 < limit) (total : Nat) : total ≤ count limit total * limit :=
  Nat.not_lt.mp fun short => Nat.lt_irrefl _ ((lt_count_iff positive).mpr short)

/-- All pages in a row are the list. -/
theorem all_slices (positive : 0 < limit) :
    ((List.range' 1 (count limit items.length)).flatMap fun page => slice limit page items) = items := by
  rw [slices_flatten]
  exact List.take_of_length_le (le_count_mul positive _)

theorem slice_length : (slice limit page items).length
    = min (page * limit) items.length - (page - 1) * limit := by
  simp [slice]

theorem slice_full (positive : 0 < limit) (first : 0 < page) (more : page < count limit items.length) :
    (slice limit page items).length = limit := by
  obtain ⟨before, rfl⟩ := Nat.exists_eq_add_one_of_ne_zero (Nat.ne_of_gt first)
  have reached := (lt_count_iff positive).mp more
  have next : (before + 1) * limit = before * limit + limit := Nat.succ_mul before limit
  rw [slice_length, Nat.min_eq_left (Nat.le_of_lt reached), Nat.add_sub_cancel]
  omega

/-- Exactly the counted pages hold something. -/
theorem slice_nonempty_iff (positive : 0 < limit) (first : 0 < page) :
    slice limit page items ≠ [] ↔ page ≤ count limit items.length := by
  obtain ⟨before, rfl⟩ := Nat.exists_eq_add_one_of_ne_zero (Nat.ne_of_gt first)
  have next : (before + 1) * limit = before * limit + limit := Nat.succ_mul before limit
  rw [← Nat.lt_iff_add_one_le, lt_count_iff positive, ne_eq, ← List.length_eq_zero_iff, slice_length,
    Nat.add_sub_cancel]
  omega

theorem count_mono {total more : Nat} (le : total ≤ more) : count limit total ≤ count limit more :=
  Nat.div_le_div_right (Nat.sub_le_sub_right (Nat.add_le_add_right le limit) 1)

/-- An item is on the page that its position fills. -/
theorem mem_slice_of_getElem? (positive : 0 < limit) {i : Nat} {x : α} (found : items[i]? = some x) :
    x ∈ slice limit (count limit (i + 1)) items := by
  have reached := le_count_mul positive (i + 1)
  have before : (count limit (i + 1) - 1) * limit ≤ i := by
    refine Nat.not_lt.mp fun past => ?_
    rcases Nat.eq_zero_or_pos (count limit (i + 1)) with none | some
    · simp [none] at past
    · have fewer : (count limit (i + 1) - 1) * limit < i + 1 := (lt_count_iff positive).mp (by omega)
      omega
  refine List.mem_iff_getElem?.mpr ⟨i - (count limit (i + 1) - 1) * limit, ?_⟩
  rw [slice, List.getElem?_drop, Nat.add_sub_cancel' before, List.getElem?_take_of_lt reached, found]

end Slices

section Merges

variable {r : α → α → Prop} [DecidableRel r] {xs ys : List α} {n : Nat}

/-- The beginning of a merge comes from the beginnings of the merged lists. -/
theorem take_merge {le : α → α → Bool} {i j : Nat} (hi : n ≤ i) (hj : n ≤ j) :
    ((xs.take i).merge (ys.take j) le).take n = (xs.merge ys le).take n := by
  induction n generalizing xs ys i j with
  | zero => simp
  | succ n ih =>
      obtain ⟨i, rfl⟩ := Nat.exists_eq_add_one_of_ne_zero (Nat.ne_of_gt (Nat.lt_of_lt_of_le n.succ_pos hi))
      obtain ⟨j, rfl⟩ := Nat.exists_eq_add_one_of_ne_zero (Nat.ne_of_gt (Nat.lt_of_lt_of_le n.succ_pos hj))
      cases xs with
      | nil => simp [List.take_take, Nat.min_eq_left hj]
      | cons x xs =>
          cases ys with
          | nil => simp [List.take_take, Nat.min_eq_left (Nat.le_of_succ_le_succ hi)]
          | cons y ys =>
              simp only [List.take_succ_cons]
              by_cases first : le x y = true
              · rw [List.cons_merge_cons_pos _ _ _ first, List.cons_merge_cons_pos _ _ _ first]
                have rest : ((xs.take i).merge ((y :: ys).take (j + 1)) le).take n
                    = (xs.merge (y :: ys) le).take n := ih (Nat.le_of_succ_le_succ hi) (Nat.le_of_succ_le hj)
                rw [List.take_succ_cons] at rest
                simp only [List.take_succ_cons, rest]
              · rw [List.cons_merge_cons_neg _ _ _ first, List.cons_merge_cons_neg _ _ _ first]
                have rest : (((x :: xs).take (i + 1)).merge (ys.take j) le).take n
                    = ((x :: xs).merge ys le).take n := ih (Nat.le_of_succ_le hi) (Nat.le_of_succ_le_succ hj)
                rw [List.take_succ_cons] at rest
                simp only [List.take_succ_cons, rest]

theorem orderedInsert_least {x : α} (least : ∀ y ∈ ys, r x y) : ys.orderedInsert r x = x :: ys := by
  cases ys with
  | nil => rfl
  | cons y ys => exact List.orderedInsert_cons_of_le _ _ (least y List.mem_cons_self)

variable [IsTrans α r]

/-- An item goes before everything of its own list and before the equal items of the other. -/
theorem orderedInsert_merge {x : α} (hx : (x :: xs).Pairwise r) (hy : ys.Pairwise r) :
    (xs.merge ys fun a b => decide (r a b)).orderedInsert r x = (x :: xs).merge ys fun a b => decide (r a b) := by
  obtain ⟨least, -⟩ := List.pairwise_cons.mp hx
  induction ys with
  | nil =>
      rw [List.merge_right, List.merge_right]
      exact orderedInsert_least least
  | cons y ys ih =>
      obtain ⟨smallest, sorted⟩ := List.pairwise_cons.mp hy
      by_cases before : r x y
      · rw [List.cons_merge_cons_pos _ _ _ (decide_eq_true before)]
        refine orderedInsert_least fun z member => ?_
        obtain left | right := List.mem_merge.mp member
        · exact least z left
        · obtain rfl | later := List.mem_cons.mp right
          · exact before
          · exact IsTrans.trans _ _ _ before (smallest z later)
      · -- what follows `x` in its list does not come before `y` either
        have head : (xs.merge (y :: ys) fun a b => decide (r a b))
            = y :: xs.merge ys fun a b => decide (r a b) := by
          cases xs with
          | nil => rw [List.nil_merge, List.nil_merge]
          | cons x' xs =>
              refine List.cons_merge_cons_neg _ _ _ fun next => before ?_
              exact IsTrans.trans _ _ _ (least x' List.mem_cons_self) (of_decide_eq_true next)
        rw [head, List.orderedInsert_of_not_le _ _ before, ih sorted,
          List.cons_merge_cons_neg _ _ _ fun first => before (of_decide_eq_true first)]

/-- Sorting two sorted lists together is merging them. -/
theorem insertionSort_append (hx : xs.Pairwise r) (hy : ys.Pairwise r) :
    (xs ++ ys).insertionSort r = xs.merge ys fun a b => decide (r a b) := by
  induction xs with
  | nil => rw [List.nil_append, hy.insertionSort_eq, List.nil_merge]
  | cons x xs ih =>
      obtain ⟨-, sorted⟩ := List.pairwise_cons.mp hx
      rw [List.cons_append, List.insertionSort_cons, ih sorted, orderedInsert_merge hx hy]

/-- The prefixes of two sorted lists contain the prefix of their merge. -/
theorem take_insertionSort (hx : xs.Pairwise r) (hy : ys.Pairwise r) :
    ((xs.take n ++ ys.take n).insertionSort r).take n = ((xs ++ ys).insertionSort r).take n := by
  rw [insertionSort_append hx hy, insertionSort_append hx.take hy.take]
  exact take_merge (Nat.le_refl n) (Nat.le_refl n)

end Merges

section Lookups

variable {ε β : Type*} {ys : List β}

/-- What every item is read from is a list of its own. -/
theorem exists_map {f : β → α} {p : β → Prop} (h : ∀ x ∈ items, ∃ y, p y ∧ f y = x) :
    ∃ ys : List β, ys.map f = items ∧ ∀ y ∈ ys, p y := by
  induction items with
  | nil => exact ⟨[], rfl, by simp⟩
  | cons x items ih =>
      obtain ⟨y, first, rfl⟩ := h x List.mem_cons_self
      obtain ⟨ys, rfl, rest⟩ := ih fun z member => h z (List.mem_cons_of_mem _ member)
      exact ⟨y :: ys, rfl, List.forall_mem_cons.mpr ⟨first, rest⟩⟩

theorem slice_map (f : β → α) : slice limit page (ys.map f) = (slice limit page ys).map f := by
  rw [slice, slice, ← List.map_take, ← List.map_drop]

theorem mem_of_mem_slice {x : α} (h : x ∈ slice limit page items) : x ∈ items :=
  List.mem_of_mem_take (List.mem_of_mem_drop h)

theorem mapM_ok {f : β → Except ε α} {g : β → α} (h : ∀ y ∈ ys, f y = .ok (g y)) :
    ys.mapM f = .ok (ys.map g) := by
  induction ys with
  | nil => rfl
  | cons y ys ih =>
      obtain ⟨first, rest⟩ := List.forall_mem_cons.mp h
      rw [List.mapM_cons, first, ih rest]
      rfl

end Lookups

end Pages
