import Mathlib.Data.List.Nodup

/-! # Tables with foreign keys

The rows of all tables under unique ids. A column is known by the ids that occur in it, whether it
is a key, a composite id or a text. A delete statement removes the rows that match, cascades,
refuses to leave a restricted reference behind, and clears the other references.
-/

namespace Relational

inductive OnDelete where
  | cascade | restrict | setNull
  deriving Repr, DecidableEq

structure ForeignKey (T C : Type) where
  table : T
  column : C
  target : T
  onDelete : OnDelete

structure Row (T C : Type) where
  table : T
  id : Nat
  ids : C → List Nat

/-- `id in ..` or one of several `column in ..`. -/
structure Where (C : Type) where
  id : List Nat := []
  columns : List (C × List Nat) := []

structure Statement (T C : Type) where
  table : T
  scope : Where C

structure Database (T C : Type) where
  rows : List (Row T C)
  distinct : (rows.map (·.id)).Nodup

variable {T C : Type}

def Where.holds (w : Where C) (r : Row T C) : Bool :=
  w.id.contains r.id || w.columns.any fun (c, xs) => (r.ids c).any (xs.contains ·)

/-- The id occurs in the column. -/
def Row.has (r : Row T C) (c : C) (x : Nat) : Bool := (r.ids c).contains x

/-- The same row, later: some references may have been cleared. -/
structure Row.Below (r' r : Row T C) : Prop where
  table : r'.table = r.table
  id : r'.id = r.id
  ids : ∀ c x, x ∈ r'.ids c → x ∈ r.ids c

section Rows

variable {rows : List (Row T C)} {r r' r'' : Row T C} {w : Where C} {db : Database T C}

theorem Row.Below.refl (r : Row T C) : r.Below r := ⟨rfl, rfl, fun _ _ h => h⟩

theorem Row.Below.trans (h : r''.Below r') (h' : r'.Below r) : r''.Below r :=
  ⟨h.table.trans h'.table, h.id.trans h'.id, fun c x listed => h'.ids c x (h.ids c x listed)⟩

theorem Where.holds_iff : w.holds r = true ↔ r.id ∈ w.id ∨ ∃ c xs x, (c, xs) ∈ w.columns ∧ x ∈ r.ids c ∧ x ∈ xs := by
  simp only [Where.holds, Bool.or_eq_true, List.contains_iff_mem, List.any_eq_true, Prod.exists]
  constructor
  · rintro (h | ⟨c, xs, listed, x, here, there⟩)
    · exact .inl h
    · exact .inr ⟨c, xs, x, listed, here, there⟩
  · rintro (h | ⟨c, xs, x, listed, here, there⟩)
    · exact .inl h
    · exact .inr ⟨c, xs, listed, x, here, there⟩

/-- A row that is matched after some references have been cleared was matched before. -/
theorem Where.holds_below (h : w.holds r' = true) (below : r'.Below r) : w.holds r = true := by
  rw [Where.holds_iff] at h ⊢
  rcases h with h | ⟨c, xs, x, listed, here, there⟩
  · exact .inl (below.id ▸ h)
  · exact .inr ⟨c, xs, x, listed, below.ids c x here, there⟩

theorem Database.same_row (listed : r ∈ db.rows) (listed' : r' ∈ db.rows) (same : r.id = r'.id) : r = r' :=
  List.inj_on_of_nodup_map db.distinct listed listed' same

end Rows

section Cascades

variable [DecidableEq T]

/-- `child` references `parent` by a key with this rule. -/
def references (keys : List (ForeignKey T C)) (rule : OnDelete) (child parent : Row T C) : Bool :=
  keys.any fun k => k.onDelete = rule && k.table = child.table && k.target = parent.table
    && (child.ids k.column).contains parent.id

/-- The rows outside of `gone` that reference a row in it by a cascading key. -/
def spread (keys : List (ForeignKey T C)) (rows : List (Row T C)) (gone : List Nat) : List Nat :=
  (rows.filter fun r => !gone.contains r.id
    && rows.any fun p => gone.contains p.id && references keys .cascade r p).map (·.id)

def cascaded (keys : List (ForeignKey T C)) (rows : List (Row T C)) : Nat → List Nat → List Nat
  | 0, gone => gone
  | n + 1, gone => match spread keys rows gone with
    | [] => gone
    | x :: xs => cascaded keys rows n (gone ++ x :: xs)

/-- `findMany({ where, select: { id: true } })`. -/
def Database.find (db : Database T C) (table : T) (scope : Where C) : List Nat :=
  (db.rows.filter fun r => r.table = table && scope.holds r).map (·.id)

/-- The statement names every row with `x` in the column `c`, or every row that had it in `db`. -/
def Statement.Covers (db : Database T C) (st : Statement T C) (c : C) (x : Nat) : Prop :=
  (∃ xs, (c, xs) ∈ st.scope.columns ∧ x ∈ xs)
    ∨ ∃ w xs, st.scope.id = db.find st.table w ∧ (c, xs) ∈ w.columns ∧ x ∈ xs

/-- The rows that a delete statement removes, with the cascades. -/
def Database.gone (keys : List (ForeignKey T C)) (st : Statement T C) (db : Database T C) : List Nat :=
  cascaded keys db.rows db.rows.length (db.find st.table st.scope)

variable {keys : List (ForeignKey T C)} {rows : List (Row T C)} {gone : List Nat} {r r' p p' : Row T C}
  {rule : OnDelete} {w : Where C} {db : Database T C}

theorem references_iff : references keys rule r p = true ↔ ∃ k ∈ keys, k.onDelete = rule ∧ k.table = r.table
    ∧ k.target = p.table ∧ p.id ∈ r.ids k.column := by
  simp only [references, List.any_eq_true, Bool.and_eq_true, decide_eq_true_eq, List.contains_iff_mem, and_assoc]

theorem references_below (h : references keys rule r' p' = true) (child : r'.Below r) (parent : p'.Below p) :
    references keys rule r p = true := by
  rw [references_iff] at h ⊢
  obtain ⟨k, listed, rule_, table, target, here⟩ := h
  exact ⟨k, listed, rule_, table.trans child.table, target.trans parent.table,
    parent.id ▸ child.ids k.column p'.id here⟩

theorem Database.mem_find {table : T} (listed : r ∈ db.rows) :
    r.id ∈ db.find table w ↔ r.table = table ∧ w.holds r = true := by
  simp only [Database.find, List.mem_map, List.mem_filter, Bool.and_eq_true, decide_eq_true_eq]
  constructor
  · rintro ⟨r', ⟨listed', found⟩, same⟩
    exact db.same_row listed' listed same ▸ found
  · intro found
    exact ⟨r, ⟨listed, found⟩, rfl⟩

/-- What is true of the rows that a statement names and passes along the cascading keys is true of all that it deletes. -/
theorem cascaded_induction {Q : Row T C → Prop} (distinct : (rows.map (·.id)).Nodup)
    (spreads : ∀ r ∈ rows, ∀ p ∈ rows, references keys .cascade r p = true → Q p → Q r) (n : Nat)
    (start : ∀ r ∈ rows, r.id ∈ gone → Q r) : ∀ r ∈ rows, r.id ∈ cascaded keys rows n gone → Q r := by
  induction n generalizing gone with
  | zero => exact start
  | succ n ih =>
      simp only [cascaded]
      split
      · exact start
      · rename_i x xs more
        refine ih fun r listed dies => ?_
        rw [← more, List.mem_append] at dies
        rcases dies with old | new
        · exact start r listed old
        · simp only [spread, List.mem_map, List.mem_filter, Bool.and_eq_true, List.any_eq_true,
            List.contains_iff_mem] at new
          obtain ⟨r', ⟨listed', -, p, parent, dead, refers⟩, same⟩ := new
          obtain rfl := List.inj_on_of_nodup_map distinct listed' listed same
          exact spreads r' listed p parent refers (start p parent dead)

theorem mem_cascaded {n x : Nat} (h : x ∈ gone) : x ∈ cascaded keys rows n gone := by
  induction n generalizing gone with
  | zero => exact h
  | succ n ih =>
      simp only [cascaded]
      split
      · exact h
      · exact ih (List.mem_append_left _ h)

theorem Database.gone_induction {Q : Row T C → Prop} {st : Statement T C}
    (spreads : ∀ r ∈ db.rows, ∀ p ∈ db.rows, references keys .cascade r p = true → Q p → Q r)
    (start : ∀ r ∈ db.rows, r.table = st.table → st.scope.holds r = true → Q r) :
    ∀ r ∈ db.rows, r.id ∈ db.gone keys st → Q r := by
  refine cascaded_induction db.distinct spreads _ fun r listed found => ?_
  obtain ⟨table, holds⟩ := (db.mem_find listed).mp found
  exact start r listed table holds

end Cascades

section Deletes

variable [DecidableEq T] [DecidableEq C]

/-- The row without its references to the rows that are gone. -/
def Row.cleared (keys : List (ForeignKey T C)) (rows : List (Row T C)) (gone : List Nat) (r : Row T C) : Row T C :=
  { r with ids := fun c => (r.ids c).filter fun x => !rows.any fun p => p.id == x && gone.contains x
      && keys.any fun k => k.onDelete = .setNull && k.table = r.table && k.column = c && k.target = p.table }

variable {keys : List (ForeignKey T C)} {rows : List (Row T C)} {gone : List Nat} {r r' p : Row T C}
  {db db' : Database T C} {st : Statement T C} {sts : List (Statement T C)}

theorem Row.cleared_below (r : Row T C) : (r.cleared keys rows gone).Below r :=
  ⟨rfl, rfl, fun _ _ listed => (List.mem_filter.mp listed).1⟩

/-- A column that no clearing key is on stays. -/
theorem Row.cleared_ids {c : C} (kept : ∀ k ∈ keys, k.onDelete = .setNull → k.table = r.table → k.column ≠ c) :
    (r.cleared keys rows gone).ids c = r.ids c := by
  refine List.filter_eq_self.mpr fun x _ => ?_
  simp only [Bool.not_eq_true', List.any_eq_false, Bool.and_eq_true, decide_eq_true_eq, not_and, List.any_eq_true]
  rintro p - - ⟨k, listed, ⟨⟨setNull, table⟩, column⟩, -⟩
  exact kept k listed setNull table column

/-- A row that references nothing that is gone stays as it is. -/
theorem Row.cleared_eq (kept : ∀ p ∈ rows, p.id ∈ gone → references keys .setNull r p = false) :
    r.cleared keys rows gone = r := by
  have same : (r.cleared keys rows gone).ids = r.ids := by
    funext c
    refine List.filter_eq_self.mpr fun x here => ?_
    simp only [Bool.not_eq_true', List.any_eq_false, Bool.and_eq_true, decide_eq_true_eq, not_and, List.any_eq_true,
      beq_iff_eq, List.contains_iff_mem]
    rintro p listed ⟨rfl, dead⟩ ⟨k, key, ⟨⟨setNull, table⟩, column⟩, target⟩
    have refers : references keys .setNull r p = true :=
      references_iff.mpr ⟨k, key, setNull, table, target, column ▸ here⟩
    rw [kept p listed dead] at refers
    cases refers
  unfold Row.cleared at same ⊢
  simp only at same
  rw [same]

theorem cleared_distinct (distinct : (rows.map (·.id)).Nodup) :
    (((rows.filter fun r => !gone.contains r.id).map (·.cleared keys rows gone)).map (·.id)).Nodup := by
  rw [List.map_map]
  exact distinct.sublist (List.filter_sublist.map _)

namespace Database

/-- A delete statement, or nothing when a restricted reference forbids it. -/
def delete (keys : List (ForeignKey T C)) (db : Database T C) (st : Statement T C) : Option (Database T C) :=
  let gone := db.gone keys st
  if db.rows.any fun r => db.rows.any fun p => gone.contains p.id && references keys .restrict r p then none
  else some {
    rows := (db.rows.filter fun r => !gone.contains r.id).map (·.cleared keys db.rows gone)
    distinct := cleared_distinct db.distinct }

def run (keys : List (ForeignKey T C)) : List (Statement T C) → Database T C → Option (Database T C)
  | [], db => some db
  | st :: sts, db => (db.delete keys st).bind (run keys sts)

/-- A statement that leaves no restricted reference behind is executed. -/
theorem delete_isSome (free : ∀ r ∈ db.rows, ∀ p ∈ db.rows, p.id ∈ db.gone keys st → references keys .restrict r p = false) :
    (db.delete keys st).isSome = true := by
  unfold delete
  dsimp only
  split
  · rename_i violated
    simp only [List.any_eq_true, Bool.and_eq_true, List.contains_iff_mem] at violated
    obtain ⟨r, listed, p, parent, dead, refers⟩ := violated
    rw [free r listed p parent dead] at refers
    cases refers
  · rfl

theorem delete_rows (h : db.delete keys st = some db') : ∀ r', r' ∈ db'.rows ↔
    ∃ r ∈ db.rows, r.id ∉ db.gone keys st ∧ r' = r.cleared keys db.rows (db.gone keys st) := by
  unfold delete at h
  dsimp only at h
  split at h
  · cases h
  · obtain rfl := Option.some.inj h
    intro r'
    simp only [List.mem_map, List.mem_filter, Bool.not_eq_true', List.contains_eq_mem, decide_eq_false_iff_not]
    constructor
    · rintro ⟨r, ⟨listed, alive⟩, rfl⟩
      exact ⟨r, listed, alive, rfl⟩
    · rintro ⟨r, listed, alive, rfl⟩
      exact ⟨r, ⟨listed, alive⟩, rfl⟩

theorem delete_below (h : db.delete keys st = some db') (listed : r' ∈ db'.rows) : ∃ r ∈ db.rows, r'.Below r := by
  obtain ⟨r, before, -, rfl⟩ := (delete_rows h r').mp listed
  exact ⟨r, before, r.cleared_below⟩

/-- The rows that a statement names are gone after it. -/
theorem delete_absent (h : db.delete keys st = some db') (listed : r' ∈ db'.rows) (table : r'.table = st.table) :
    st.scope.holds r' = false := by
  obtain ⟨r, before, alive, rfl⟩ := (delete_rows h r').mp listed
  rw [Bool.eq_false_iff]
  intro holds
  exact alive (mem_cascaded ((db.mem_find before).mpr ⟨table, Where.holds_below holds r.cleared_below⟩))

theorem run_below (h : run keys sts db = some db') (listed : r' ∈ db'.rows) : ∃ r ∈ db.rows, r'.Below r := by
  induction sts generalizing db with
  | nil => exact Option.some.inj h ▸ ⟨r', listed, .refl r'⟩
  | cons st sts ih =>
      obtain ⟨mid, first, rest⟩ := Option.bind_eq_some_iff.mp h
      obtain ⟨r, before, below⟩ := ih rest
      obtain ⟨r₀, listed₀, below₀⟩ := delete_below first before
      exact ⟨r₀, listed₀, below.trans below₀⟩

/-- A column that no clearing key is on stays in the rows that are left. -/
theorem run_ids {c : C} (h : run keys sts db = some db') (listed : r' ∈ db'.rows)
    (kept : ∀ k ∈ keys, k.onDelete = .setNull → k.table = r'.table → k.column ≠ c) :
    ∃ r ∈ db.rows, r'.Below r ∧ r'.ids c = r.ids c := by
  induction sts generalizing db with
  | nil => exact Option.some.inj h ▸ ⟨r', listed, .refl r', rfl⟩
  | cons st sts ih =>
      obtain ⟨mid, first, rest⟩ := Option.bind_eq_some_iff.mp h
      obtain ⟨r, before, below, same⟩ := ih rest
      obtain ⟨r₀, listed₀, -, rfl⟩ := (delete_rows first r).mp before
      exact ⟨r₀, listed₀, below.trans r₀.cleared_below, same.trans (Row.cleared_ids fun k key clears table =>
        kept k key clears (table.trans below.table.symm))⟩

/-- What a statement of a run has deleted does not come back. -/
theorem run_absent (h : run keys sts db = some db') (some_ : st ∈ sts) (listed : r' ∈ db'.rows)
    (table : r'.table = st.table) : st.scope.holds r' = false := by
  induction sts generalizing db with
  | nil => cases some_
  | cons st' sts ih =>
      obtain ⟨mid, first, rest⟩ := Option.bind_eq_some_iff.mp h
      rcases List.mem_cons.mp some_ with rfl | later
      · obtain ⟨r, before, below⟩ := run_below rest listed
        have gone := delete_absent first before (below.table ▸ table)
        rw [Bool.eq_false_iff]
        intro holds
        rw [Where.holds_below holds below] at gone
        cases gone
      · exact ih rest later

/-- What a statement of a run covers is in no row after it. -/
theorem run_uncovered {c : C} {x : Nat} (h : run keys sts db = some db') (some_ : st ∈ sts) (covers : st.Covers db c x)
    (listed : r' ∈ db'.rows) (table : r'.table = st.table) : x ∉ r'.ids c := by
  intro here
  have absent := run_absent h some_ listed table
  rw [Bool.eq_false_iff] at absent
  refine absent (Where.holds_iff.mpr ?_)
  rcases covers with ⟨xs, named, among⟩ | ⟨w, xs, found, named, among⟩
  · exact .inr ⟨c, xs, x, named, here, among⟩
  · obtain ⟨r, before, below⟩ := run_below h listed
    left
    rw [found, below.id]
    exact (db.mem_find before).mpr
      ⟨below.table ▸ table, Where.holds_iff.mpr (.inr ⟨c, xs, x, named, below.ids c x here, among⟩)⟩

/-- A run comes to its end when each of its statements can be executed after the ones before it. -/
theorem run_isSome (free : ∀ (i : Nat) (st : Statement T C), sts[i]? = some st → ∀ mid,
    run keys (sts.take i) db = some mid → (mid.delete keys st).isSome = true) : (run keys sts db).isSome = true := by
  induction sts generalizing db with
  | nil => rfl
  | cons st sts ih =>
      obtain ⟨mid, first⟩ := Option.isSome_iff_exists.mp (free 0 st rfl db rfl)
      simp only [run, first, Option.bind_some]
      refine ih fun i st' found last before => free (i + 1) st' found last ?_
      simp only [List.take_succ_cons, run, first, Option.bind_some]
      exact before

/-- Rows outside of `Q` survive a run whose statements name only rows in `Q`, when `Q` passes along the cascading
    keys; and those that reference no row in `Q` are left as they are. -/
theorem run_frame {Q : Row T C → Prop} (h : run keys sts db = some db')
    (roots : ∀ st ∈ sts, ∀ r ∈ db.rows, r.table = st.table → st.scope.holds r = true → Q r)
    (spreads : ∀ r ∈ db.rows, ∀ p ∈ db.rows, references keys .cascade r p = true → Q p → Q r)
    (listed : r ∈ db.rows) (outside : ¬ Q r) :
    (∃ r' ∈ db'.rows, r'.Below r)
      ∧ ((∀ p ∈ db.rows, Q p → references keys .setNull r p = false) → r ∈ db'.rows) := by
  induction sts generalizing db Q r with
  | nil => exact Option.some.inj h ▸ ⟨⟨r, listed, .refl r⟩, fun _ => listed⟩
  | cons st sts ih =>
      obtain ⟨mid, first, rest⟩ := Option.bind_eq_some_iff.mp h
      have gone : ∀ p ∈ db.rows, p.id ∈ db.gone keys st → Q p :=
        db.gone_induction spreads fun p before table holds => roots st (List.mem_cons_self ..) p before table holds
      have alive : r.id ∉ db.gone keys st := fun dead => outside (gone r listed dead)
      have kept : r.cleared keys db.rows (db.gone keys st) ∈ mid.rows := (delete_rows first _).mpr ⟨r, listed, alive, rfl⟩
      -- The rows in between are in `Q` when they have been.
      have next := ih (Q := fun p => ∃ p₀ ∈ db.rows, p.Below p₀ ∧ Q p₀) rest
        (fun st' later p before table holds => by
          obtain ⟨p₀, before₀, below⟩ := delete_below first before
          exact ⟨p₀, before₀, below, roots st' (List.mem_cons_of_mem _ later) p₀ before₀
            (below.table.symm.trans table) (Where.holds_below holds below)⟩)
        (fun child before parent before' refers ⟨p₀, listed₀, below₀, inQ⟩ => by
          obtain ⟨c₀, listed₁, below₁⟩ := delete_below first before
          exact ⟨c₀, listed₁, below₁, spreads c₀ listed₁ p₀ listed₀ (references_below refers below₁ below₀) inQ⟩)
        kept (by
          rintro ⟨p₀, listed₀, below₀, inQ⟩
          exact outside (db.same_row listed₀ listed below₀.id.symm ▸ inQ))
      obtain ⟨⟨r', last, below⟩, same⟩ := next
      refine ⟨⟨r', last, below.trans r.cleared_below⟩, fun unrelated => ?_⟩
      have fixed : r.cleared keys db.rows (db.gone keys st) = r :=
        Row.cleared_eq fun p before dead => unrelated p before (gone p before dead)
      rw [fixed] at same
      refine same fun p before ⟨p₀, listed₀, below₀, inQ⟩ => ?_
      rw [Bool.eq_false_iff]
      intro refers
      have refers₀ := references_below refers (.refl r) below₀
      rw [unrelated p₀ listed₀ inQ] at refers₀
      cases refers₀

end Database

end Deletes

end Relational
