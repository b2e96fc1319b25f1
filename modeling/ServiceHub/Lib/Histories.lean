import ServiceHub.Lib.Rows

/-! # Histories of submissions

The rows of a table in the order of their creation, each with an owner. Every row of an owner but the last is closed,
so an open row is the last of its owner, and a new row follows closed rows only.
-/

namespace Rows

variable {α : Type}

/-- `updateMany` with a condition on the ids too, the id of a row being its number. -/
def updateMany (p : Nat → α → Bool) (g : α → α) (rows : List α) : List α :=
  rows.mapIdx fun i r => if p i r then g r else r

variable {p : Nat → α → Bool} {q : α → Bool} {g : α → α} {rows : List α} {i : Nat} {r : α}

theorem updateMany_eq_updateWhere (same : ∀ (i : Nat) r, rows[i]? = some r → p i r = q r) :
    updateMany p g rows = updateWhere q g rows := by
  refine List.ext_getElem? fun i => ?_
  rw [updateMany, updateWhere, List.getElem?_mapIdx, List.getElem?_map]
  cases found : rows[i]? with
  | none => rfl
  | some r => simp [same i r found]

theorem updateMany_eq_self (none : ∀ (i : Nat) r, rows[i]? = some r → p i r = false) : updateMany p g rows = rows := by
  refine List.ext_getElem? fun i => ?_
  rw [updateMany, List.getElem?_mapIdx]
  cases found : rows[i]? with
  | none => rfl
  | some r => simp [none i r found]

theorem getElem?_updateMany (i : Nat) :
    (updateMany p g rows)[i]? = rows[i]?.map fun r => if p i r then g r else r := by
  rw [updateMany, List.getElem?_mapIdx]

end Rows

namespace Histories

variable {α κ : Type} [DecidableEq κ] {owner : α → κ} {k : κ} {rows : List α} {closed : α → Prop} {r r' : α} {i j : Nat}
  {q : α → Bool} {g : α → α}

/-- The rows of an owner. -/
def ofOwner (owner : α → κ) (k : κ) (rows : List α) : List α := rows.filter fun r => owner r == k

/-- Every row but the last is closed. -/
def Settled (closed : α → Prop) (rows : List α) : Prop := ∀ r ∈ rows.dropLast, closed r

theorem ofOwner_append_own (own : owner r = k) : ofOwner owner k (rows ++ [r]) = ofOwner owner k rows ++ [r] := by
  simp [ofOwner, List.filter_append, own]

theorem ofOwner_append_other (other : owner r ≠ k) : ofOwner owner k (rows ++ [r]) = ofOwner owner k rows := by
  simp [ofOwner, List.filter_append, other]

theorem mem_ofOwner : r ∈ ofOwner owner k rows ↔ r ∈ rows ∧ owner r = k := by
  simp [ofOwner]

theorem ofOwner_updateWhere (keeps : ∀ r, owner (g r) = owner r) :
    ofOwner owner k (Rows.updateWhere q g rows) = Rows.updateWhere q g (ofOwner owner k rows) := by
  induction rows with
  | nil => rfl
  | cons r rows ih =>
      have same : owner (if q r = true then g r else r) = owner r := by split <;> simp [keeps]
      simp only [ofOwner, Rows.updateWhere, List.map_cons, List.filter_cons, same] at ih ⊢
      by_cases own : owner r = k <;> simp [own, ih]

theorem Settled.append (all : ∀ r ∈ rows, closed r) : Settled closed (rows ++ [r]) := by
  rw [Settled, List.dropLast_concat]
  exact all

/-- Rows of which the last is closed too. -/
theorem Settled.all (h : Settled closed rows) (last : ∀ r, rows.getLast? = some r → closed r) : ∀ r ∈ rows, closed r := by
  intro r listed
  have some : rows ≠ [] := List.ne_nil_of_mem listed
  rw [← List.dropLast_append_getLast some] at listed
  rcases List.mem_append.mp listed with early | late
  · exact h r early
  · exact last r (by rw [List.mem_singleton.mp late, List.getLast?_eq_some_getLast some])

/-- An open row is the last one. -/
theorem Settled.last (h : Settled closed rows) (listed : r ∈ rows) (still : ¬ closed r) :
    rows = rows.dropLast ++ [r] := by
  have some : rows ≠ [] := List.ne_nil_of_mem listed
  have ends := List.dropLast_append_getLast some
  rw [← ends] at listed
  rcases List.mem_append.mp listed with early | late
  · exact absurd (h r early) still
  · rw [List.mem_singleton.mp late, ends]

/-- An owner has one open row. -/
theorem Settled.only (h : Settled closed (ofOwner owner k rows)) (found : rows[i]? = some r) (found' : rows[j]? = some r')
    (own : owner r = k) (own' : owner r' = k) (still : ¬ closed r) (still' : ¬ closed r') : i = j := by
  have early : ∀ {i j : Nat} {r r' : α}, rows[i]? = some r → rows[j]? = some r' → owner r = k → owner r' = k →
      ¬ closed r → i < j → False := by
    intro i j r r' found found' own own' still before
    have bound := (List.getElem?_eq_some_iff.mp found').1
    have split : ofOwner owner k rows = ofOwner owner k (rows.take j) ++ ofOwner owner k (rows.drop j) := by
      rw [ofOwner, ofOwner, ofOwner, ← List.filter_append, List.take_append_drop]
    have later : ofOwner owner k (rows.drop j) ≠ [] := by
      refine List.ne_nil_of_mem (mem_ofOwner.mpr ⟨?_, own'⟩) (a := r')
      refine List.mem_of_getElem? (i := 0) ?_
      rw [List.getElem?_drop, Nat.add_zero]
      exact found'
    refine still (h r ?_)
    rw [split, List.dropLast_append_of_ne_nil later]
    refine List.mem_append_left _ (mem_ofOwner.mpr ⟨?_, own⟩)
    refine List.mem_of_getElem? (i := i) ?_
    rw [List.getElem?_take_of_lt before]
    exact found
  rcases Nat.lt_trichotomy i j with before | same | after
  · exact (early found found' own own' still before).elim
  · exact same
  · exact (early found' found own' own still' after).elim

/-- Only the last row is rewritten. -/
theorem Settled.updateWhere (h : Settled closed rows) (listed : r ∈ rows) (still : ¬ closed r) (hr : q r = true)
    (others : ∀ r ∈ rows, closed r → q r = false) : Rows.updateWhere q g rows = rows.dropLast ++ [g r] := by
  have ends := h.last listed still
  have front : ∀ x ∈ rows.dropLast, q x = false := fun x early =>
    others x (List.dropLast_subset _ early) (h x early)
  generalize rows.dropLast = before at ends front
  subst ends
  rw [Rows.updateWhere, List.map_append, List.map_singleton, hr, if_pos rfl]
  congr 1
  refine (List.map_congr_left fun x early => ?_).trans (List.map_id _)
  simp [front x early]

end Histories
