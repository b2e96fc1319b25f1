import Mathlib.Data.List.Induction
import Mathlib.Data.List.Nodup

/-! # Tables as lists of rows

`updateWhere` is the `updateMany` of a table: every row that satisfies the
predicate is rewritten, the others and the order stay.
-/

namespace Rows

variable {α : Type}

def updateWhere (p : α → Bool) (g : α → α) (rows : List α) : List α :=
  rows.map fun r => if p r then g r else r

theorem mem_updateWhere {p : α → Bool} {g : α → α} {rows : List α} {r' : α} :
    r' ∈ updateWhere p g rows ↔ ∃ r ∈ rows, r' = if p r then g r else r := by
  simp only [updateWhere, List.mem_map, eq_comm]

@[simp] theorem length_updateWhere (p : α → Bool) (g : α → α) (rows : List α) :
    (updateWhere p g rows).length = rows.length := by
  simp [updateWhere]

/-- An update that keeps the key is found under the same key. -/
theorem find_updateWhere {κ : Type} [DecidableEq κ] {p : α → Bool} {g : α → α} (key : α → κ)
    (hg : ∀ r, key (g r) = key r) (k : κ) (rows : List α) :
    (updateWhere p g rows).find? (fun r => key r == k) =
      (rows.find? (fun r => key r == k)).map fun r => if p r then g r else r := by
  induction rows with
  | nil => rfl
  | cons r rows ih =>
      have same : key (if p r then g r else r) = key r := by split <;> simp [hg]
      simp only [updateWhere, List.map_cons, List.find?_cons, same] at ih ⊢
      cases key r == k <;> simp [ih]

theorem map_updateWhere {β : Type} {p : α → Bool} {g : α → α} {key : α → β}
    (hk : ∀ r, key (g r) = key r) (rows : List α) :
    (updateWhere p g rows).map key = rows.map key := by
  simp only [updateWhere, List.map_map]
  refine List.map_congr_left fun r _ => ?_
  simp only [Function.comp_apply]
  split <;> simp [hk]

/-- An update outside of a filter does not show in it. -/
theorem filter_updateWhere {p q : α → Bool} {g : α → α} {rows : List α}
    (outside : ∀ r ∈ rows, p r = true → q r = false ∧ q (g r) = false) :
    (updateWhere p g rows).filter q = rows.filter q := by
  induction rows with
  | nil => rfl
  | cons r rows ih =>
      have rest := ih fun r' listed => outside r' (List.mem_cons_of_mem _ listed)
      simp only [updateWhere, List.map_cons, List.filter_cons] at rest ⊢
      rw [rest]
      by_cases written : p r = true
      · obtain ⟨before, after⟩ := outside r List.mem_cons_self written
        simp [written, before, after]
      · simp [written]

/-- What is read from the first row with a property depends on these two columns only. -/
theorem find_columns {β : Type} {p : α → Bool} {value : α → β} {rows rows' : List α}
    (same : rows'.map (fun r => (p r, value r)) = rows.map fun r => (p r, value r)) :
    (rows'.find? p).map value = (rows.find? p).map value := by
  have through : ∀ rows : List α,
      (rows.find? p).map value = ((rows.map fun r => (p r, value r)).find? Prod.fst).map Prod.snd := by
    intro rows
    rw [List.find?_map, Option.map_map]
    rfl
  rw [through, through, same]

/-- The first row with a property, when no other row has it. -/
theorem find_only {p : α → Bool} {rows : List α} {r : α} (listed : r ∈ rows) (hr : p r = true)
    (only : ∀ q ∈ rows, p q = true → q = r) : rows.find? p = some r := by
  cases found : rows.find? p with
  | none => exact absurd hr (List.find?_eq_none.mp found r listed)
  | some q => rw [only q (List.mem_of_find?_eq_some found) (List.find?_some found)]

/-- A row without the property is passed over. -/
theorem find_set {p : α → Bool} {rows : List α} {i : Nat} {r : α} (hr : p r = false) :
    (rows.set i r).find? p = (rows.eraseIdx i).find? p := by
  induction rows generalizing i with
  | nil => rfl
  | cons q rows ih =>
      cases i with
      | zero => simp [hr]
      | succ i => simp only [List.set_cons_succ, List.eraseIdx_cons_succ, List.find?_cons, ih]

/-- Rows of which no two have the property. -/
theorem countP_le_one {p : α → Bool} {rows : List α}
    (h : ∀ (i j : Nat) (r q : α), rows[i]? = some r → rows[j]? = some q → p r = true → p q = true → i = j) :
    rows.countP p ≤ 1 := by
  induction rows with
  | nil => simp
  | cons r rows ih =>
      have rest := ih fun i j q q' found found' hq hq' => by
        have same := h (i + 1) (j + 1) q q' (by simpa using found) (by simpa using found') hq hq'
        omega
      rw [List.countP_cons]
      split
      · rename_i here
        have none_left : rows.countP p = 0 := by
          rw [List.countP_eq_zero]
          intro q listed hq
          obtain ⟨j, found⟩ := List.mem_iff_getElem?.mp listed
          have same := h 0 (j + 1) r q (by simp) (by simpa using found) here hq
          omega
        omega
      · omega

/-- The indices of the rows with the property, counted. -/
theorem length_filter_range (p : α → Bool) (rows : List α) :
    ((List.range rows.length).filter fun i => (rows[i]?).any p).length = rows.countP p := by
  induction rows using List.reverseRecOn with
  | nil => rfl
  | append_singleton rows r ih =>
      have before : ∀ i ∈ List.range rows.length, ((rows ++ [r])[i]?).any p = (rows[i]?).any p := by
        intro i listed
        rw [List.getElem?_append_left (List.mem_range.mp listed)]
      rw [List.length_append, List.length_singleton, List.range_succ, List.filter_append,
        List.filter_congr before, List.length_append, ih, List.countP_append]
      cases hr : p r <;> simp [hr]

/-- Every row with the property leaves a row with the same key and the property. -/
def Keeps {κ : Type} (key : α → κ) (p : α → Bool) (rows rows' : List α) : Prop :=
  ∀ r ∈ rows, p r = true → ∃ r' ∈ rows', key r' = key r ∧ p r' = true

namespace Keeps

variable {κ : Type} {key : α → κ} {p : α → Bool} {rows rows' rows'' : List α}

theorem refl (rows : List α) : Keeps key p rows rows := fun r listed hr => ⟨r, listed, rfl, hr⟩

theorem trans (h : Keeps key p rows rows') (h' : Keeps key p rows' rows'') :
    Keeps key p rows rows'' := by
  intro r listed hr
  obtain ⟨r', listed', same, hr'⟩ := h r listed hr
  obtain ⟨r'', listed'', same', hr''⟩ := h' r' listed' hr'
  exact ⟨r'', listed'', same'.trans same, hr''⟩

theorem append (new : List α) : Keeps key p rows (rows ++ new) :=
  fun r listed hr => ⟨r, List.mem_append_left _ listed, rfl, hr⟩

theorem update {q : α → Bool} {g : α → α}
    (hg : ∀ r, q r = true → p r = true → key (g r) = key r ∧ p (g r) = true) :
    Keeps key p rows (updateWhere q g rows) := by
  intro r listed hr
  refine ⟨_, mem_updateWhere.mpr ⟨r, listed, rfl⟩, ?_⟩
  cases hq : q r with
  | false => exact ⟨rfl, hr⟩
  | true => exact hg r hq hr

theorem any (h : Keeps key p rows rows') (some_row : rows.any p = true) : rows'.any p = true := by
  obtain ⟨r, listed, hr⟩ := List.any_eq_true.mp some_row
  obtain ⟨r', listed', -, hr'⟩ := h r listed hr
  exact List.any_eq_true.mpr ⟨r', listed', hr'⟩

end Keeps

section Columns

variable {σ : Type} {key : α → Nat} {column : α → σ} {value : σ} {p : α → Bool} {g : α → α} {rows rows' : List α}

/-- An update that keeps a column where it has the value. -/
theorem stays_of_update (keys : ∀ r, key (g r) = key r)
    (stays : ∀ r ∈ rows, p r = true → column r = value → column (g r) = value) :
    ∀ r ∈ rows, column r = value → ∃ r' ∈ updateWhere p g rows, key r' = key r ∧ column r' = value := by
  intro r listed here
  refine ⟨_, mem_updateWhere.mpr ⟨r, listed, rfl⟩, ?_⟩
  split
  · exact ⟨keys r, stays r listed (by assumption) here⟩
  · exact ⟨rfl, here⟩

theorem stays_of_eq (h : rows' = rows) :
    ∀ r ∈ rows, column r = value → ∃ r' ∈ rows', key r' = key r ∧ column r' = value :=
  fun r listed here => ⟨r, h ▸ listed, rfl, here⟩

end Columns

/-- The keys are distinct and below the next one. -/
structure Numbered (key : α → Nat) (next : Nat) (rows : List α) : Prop where
  unique : (rows.map key).Nodup
  below : ∀ r ∈ rows, key r < next

/-- Rows are rewritten under their keys, and at most one is added under the next key. -/
structure Written (key : α → Nat) (move : α → α → Prop) (new : α → Prop) (next next' : Nat)
    (rows rows' : List α) : Prop where
  le : next ≤ next'
  back : ∀ r' ∈ rows', (∃ r ∈ rows, key r' = key r ∧ move r r') ∨ (key r' = next ∧ new r')
  forth : ∀ r ∈ rows, ∃ r' ∈ rows', key r' = key r ∧ move r r'
  keys : rows'.map key = rows.map key ∨ (next < next' ∧ rows'.map key = rows.map key ++ [next])

section Numbered

variable {key : α → Nat} {move : α → α → Prop} {new : α → Prop} {next next' : Nat}
  {rows rows' : List α}

theorem Numbered.written (h : Numbered key next rows) (w : Written key move new next next' rows rows') :
    Numbered key next' rows' := by
  have old : ∀ k ∈ rows.map key, k < next := by
    intro k listed
    obtain ⟨r, hr, rfl⟩ := List.mem_map.mp listed
    exact h.below r hr
  rcases w.keys with kept | ⟨lt, added⟩
  · refine ⟨kept ▸ h.unique, fun r listed => ?_⟩
    have keyed : key r ∈ rows.map key := kept ▸ List.mem_map_of_mem listed
    exact Nat.lt_of_lt_of_le (old _ keyed) w.le
  · refine ⟨?_, fun r listed => ?_⟩
    · rw [added]
      refine List.nodup_append.mpr ⟨h.unique, by simp, fun k listed l last same => ?_⟩
      have bound := old k listed
      simp only [List.mem_singleton] at last
      omega
    · have keyed : key r ∈ rows.map key ++ [next] := added ▸ List.mem_map_of_mem listed
      rcases List.mem_append.mp keyed with listed | last
      · have bound := old _ listed
        omega
      · simp only [List.mem_singleton] at last
        omega

/-- No row was added under an unchanged counter. -/
theorem Written.unopened (h : Written key move new next next rows rows') (numbered : Numbered key next rows) :
    ∀ r' ∈ rows', ∃ r ∈ rows, key r' = key r ∧ move r r' := by
  intro r' listed
  rcases h.back r' listed with kept | ⟨last, -⟩
  · exact kept
  · rcases h.keys with same | ⟨lt, -⟩
    · have keyed : key r' ∈ rows.map key := same ▸ List.mem_map_of_mem listed
      obtain ⟨r, member, there⟩ := List.mem_map.mp keyed
      have bound := numbered.below r member
      omega
    · omega

theorem Numbered.inj (h : Numbered key next rows) {r q : α} (hr : r ∈ rows) (hq : q ∈ rows)
    (same : key r = key q) : r = q :=
  List.inj_on_of_nodup_map h.unique hr hq same

theorem Written.same (refl : ∀ r, move r r) (le : next ≤ next') :
    Written key move new next next' rows rows where
  le
  back r listed := .inl ⟨r, listed, rfl, refl r⟩
  forth r listed := ⟨r, listed, rfl, refl r⟩
  keys := .inl rfl

theorem Written.update {p : α → Bool} {g : α → α} (refl : ∀ r, move r r) (le : next ≤ next')
    (hk : ∀ r, key (g r) = key r) (moves : ∀ r ∈ rows, p r = true → move r (g r)) :
    Written key move new next next' rows (updateWhere p g rows) := by
  have moved : ∀ r ∈ rows, key (if p r then g r else r) = key r ∧ move r (if p r then g r else r) := by
    intro r listed
    split
    · exact ⟨hk r, moves r listed (by assumption)⟩
    · exact ⟨rfl, refl r⟩
  refine ⟨le, fun r' listed => ?_, fun r listed => ?_, .inl (map_updateWhere hk rows)⟩
  · obtain ⟨r, old, rfl⟩ := mem_updateWhere.mp listed
    exact .inl ⟨r, old, moved r old⟩
  · exact ⟨_, mem_updateWhere.mpr ⟨r, listed, rfl⟩, moved r listed⟩

theorem Written.append {r : α} (refl : ∀ r, move r r) (lt : next < next') (keyed : key r = next)
    (fresh : new r) : Written key move new next next' rows (rows ++ [r]) where
  le := Nat.le_of_lt lt
  back r' listed := by
    rcases List.mem_append.mp listed with old | last
    · exact .inl ⟨r', old, rfl, refl r'⟩
    · obtain rfl : r' = r := by simpa using last
      exact .inr ⟨keyed, fresh⟩
  forth r listed := ⟨r, List.mem_append_left _ listed, rfl, refl r⟩
  keys := .inr ⟨lt, by simp [keyed]⟩

end Numbered

end Rows
