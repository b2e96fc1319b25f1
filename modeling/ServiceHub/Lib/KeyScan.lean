import Mathlib.Data.List.Pairwise
import Mathlib.Data.List.Sort

/-! # Scans in pages by key

A table that others change is read in pages of limited length, each in the order of the keys and after the
last key of the page before. A row that stands in the table throughout the scan is visited once.
-/

namespace KeyScan

variable {α : Type} {key : α → Nat} {after cursor : Option Nat} {limit k x : Nat} {rows rest : List α} {r q : α}
  {visited pending : List Nat} {more : Bool}

/-- The first rows after the cursor. -/
def page (key : α → Nat) (after : Option Nat) (limit : Nat) (rows : List α) : List α :=
  ((rows.filter fun r => after.all (· < key r)).insertionSort fun a b => key a ≤ key b).take limit

/-- All rows after the cursor in order; the page is a prefix of them. -/
theorem ordered_sorted (key : α → Nat) (after : Option Nat) (rows : List α) :
    ((rows.filter fun r => after.all (· < key r)).insertionSort fun a b => key a ≤ key b).Pairwise
      fun a b => key a ≤ key b :=
  letI : Std.Total fun a b : α => key a ≤ key b := ⟨fun a b => Nat.le_total (key a) (key b)⟩
  letI : IsTrans α fun a b => key a ≤ key b := ⟨fun _ _ _ => Nat.le_trans⟩
  List.pairwise_insertionSort _ _

theorem mem_page (listed : r ∈ page key after limit rows) : r ∈ rows ∧ after.all (· < key r) = true := by
  have sorted := List.mem_of_mem_take listed
  rw [List.mem_insertionSort, List.mem_filter] at sorted
  exact sorted

theorem page_sorted (distinct : (rows.map key).Nodup) :
    ((page key after limit rows).map key).Pairwise (· < ·) := by
  have kept : ((rows.filter fun r => after.all (· < key r)).map key).Nodup :=
    (List.filter_sublist.map key).nodup distinct
  have apart := ((List.perm_insertionSort (fun a b => key a ≤ key b) _).map key).nodup_iff.mpr kept
  have strict := (List.pairwise_map.mp apart).and (ordered_sorted key after rows)
  rw [List.pairwise_map]
  refine (strict.sublist (List.take_sublist limit _)).imp fun both => ?_
  have ne := both.1
  have le := both.2
  omega

/-- A row after the cursor that the page leaves out comes after a full page. -/
theorem page_complete (distinct : (rows.map key).Nodup) (listed : r ∈ rows) (later : after.all (· < key r) = true)
    (left_ : r ∉ page key after limit rows) :
    (page key after limit rows).length = limit ∧ ∀ q ∈ page key after limit rows, key q < key r := by
  let all := (rows.filter fun r => after.all (· < key r)).insertionSort fun a b => key a ≤ key b
  have there : r ∈ all := by
    rw [List.mem_insertionSort, List.mem_filter]
    exact ⟨listed, later⟩
  have split : r ∈ all.take limit ++ all.drop limit := by
    rw [List.take_append_drop]
    exact there
  have dropped : r ∈ all.drop limit := (List.mem_append.mp split).resolve_left left_
  constructor
  · have long : limit < all.length := by
      by_contra short
      rw [List.drop_eq_nil_of_le (by omega)] at dropped
      simp at dropped
    rw [page, List.length_take]
    exact Nat.min_eq_left (Nat.le_of_lt long)
  · intro q inPage
    have sorted : (all.take limit ++ all.drop limit).Pairwise fun a b => key a ≤ key b := by
      rw [List.take_append_drop]
      exact ordered_sorted key after rows
    have le := (List.pairwise_append.mp sorted).2.2 q inPage r dropped
    have ne : key q ≠ key r := by
      intro same
      have equal := List.inj_on_of_nodup_map distinct (mem_page inPage).1 listed same
      exact left_ (equal ▸ inPage)
    omega

/-- The keys visited and still pending, in order and up to the cursor. -/
structure Visits (cursor : Option Nat) (visited pending : List Nat) : Prop where
  sorted : (visited ++ pending).Pairwise (· < ·)
  bounded : ∀ k ∈ visited ++ pending, cursor.any (k ≤ ·) = true

theorem Visits.start : Visits none [] [] := ⟨.nil, by simp⟩

/-- The next page. -/
theorem Visits.fetch (h : Visits cursor visited []) (distinct : (rows.map key).Nodup)
    (nonempty : (page key cursor limit rows).map key ≠ []) :
    Visits (((page key cursor limit rows).map key).getLast?) visited ((page key cursor limit rows).map key) := by
  have sorted : ((page key cursor limit rows).map key).Pairwise (· < ·) := page_sorted distinct
  have above : ∀ k ∈ (page key cursor limit rows).map key, ∀ v ∈ visited, v < k := by
    intro k listed v seen
    obtain ⟨r, inPage, rfl⟩ := List.mem_map.mp listed
    have low := h.bounded v (List.mem_append_left _ seen)
    have high := (mem_page inPage).2
    cases cursor with
    | none => simp at low
    | some c =>
        simp only [Option.any_some, Option.all_some, decide_eq_true_eq] at low high
        omega
  have last : ∀ k ∈ (page key cursor limit rows).map key, k ≤ ((page key cursor limit rows).map key).getLast nonempty := by
    intro k listed
    exact (sorted.imp fun lt => Nat.le_of_lt lt).rel_getLast listed
  constructor
  · rw [List.pairwise_append]
    refine ⟨(List.pairwise_append.mp h.sorted).1, sorted, fun v seen k listed => above k listed v seen⟩
  · intro k listed
    rw [List.getLast?_eq_some_getLast nonempty, Option.any_some, decide_eq_true_eq]
    rcases List.mem_append.mp listed with seen | fresh
    · have first := List.getLast_mem nonempty
      exact Nat.le_of_lt (above _ first k seen)
    · exact last k fresh

/-- The first pending key is visited. -/
theorem Visits.visit (h : Visits cursor visited (k :: pending)) : Visits cursor (visited ++ [k]) pending := by
  obtain ⟨sorted, bounded⟩ := h
  constructor
  · simpa using sorted
  · simpa using bounded

theorem Visits.nodup (h : Visits cursor visited pending) : visited.Nodup :=
  (List.pairwise_append.mp h.sorted).1.imp fun lt => Nat.ne_of_lt lt

/-- The key has been fetched, or a later page reaches it. -/
def Covers (x : Nat) (cursor : Option Nat) (visited pending : List Nat) (more : Bool) : Prop :=
  x ∈ visited ++ pending ∨ (more = true ∧ cursor.all (· < x) = true)

theorem Covers.visit (h : Covers x cursor visited (k :: pending) more) : Covers x cursor (visited ++ [k]) pending more := by
  simpa [Covers] using h

/-- A row that stands in the table is in the next page, or the page is full and ends before it. -/
theorem Covers.fetch (h : Covers (key r) cursor visited [] true) (distinct : (rows.map key).Nodup) (listed : r ∈ rows) :
    Covers (key r) (((page key cursor limit rows).map key).getLast?) visited ((page key cursor limit rows).map key)
      ((page key cursor limit rows).length == limit) := by
  rcases h with seen | ⟨-, later⟩
  · left
    simpa using .inl (by simpa using seen)
  · by_cases inPage : r ∈ page key cursor limit rows
    · left
      exact List.mem_append_right _ (List.mem_map_of_mem inPage)
    · right
      obtain ⟨full, before⟩ := page_complete distinct listed later inPage
      refine ⟨by simp [full], ?_⟩
      rw [Option.all_eq_true]
      intro c last
      obtain ⟨q, there, rfl⟩ := List.mem_map.mp (List.mem_of_getLast? last)
      simpa using before q there

theorem Covers.finished (h : Covers x cursor visited [] false) (visits : Visits cursor visited []) : visited.count x = 1 := by
  rcases h with seen | ⟨again, -⟩
  · exact List.count_eq_one_of_mem visits.nodup (by simpa using seen)
  · simp at again

end KeyScan
