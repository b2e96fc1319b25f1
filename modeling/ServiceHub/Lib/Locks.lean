import Mathlib.Data.List.Basic
import Mathlib.Logic.Relation
import Mathlib.Order.Basic
import ServiceHub.Lib.Machine

/-! # Transactions that take exclusive locks

A transaction takes the locks of its plan one after the other and gives all of them up when
it ends. A lock it already holds costs nothing; for a lock that another transaction in flight
holds it waits. A deadlock is a cycle of waiting transactions.

Acyclicity is shown with two ranks: `held t l` is the rank of a lock in the hands of `t`, and
`wanted t l` the rank at which `t` asks for it. Every plan has to climb, and no transaction may
ask for a lock above the rank at which another one in flight can hold it.
-/

namespace Locks

variable {T L α : Type}

/-- A transaction in flight, the locks it holds and the locks it has still to take. -/
structure Flight (T L : Type) where
  tx : T
  held : List L
  todo : List L
  deriving Repr, DecidableEq

abbrev Flights (T L : Type) := List (Flight T L)

inductive Action (T : Type) where
  | start (t : T)
  | acquire (k : Nat)
  /-- Commit or roll back. -/
  | leave (k : Nat)
  deriving Repr, DecidableEq

def next [DecidableEq L] (plan : T → List L) (s : Flights T L) :
    Action T → Option (Flights T L)
  | .start t => some (s ++ [⟨t, [], plan t⟩])
  | .acquire k =>
    match s[k]? with
    | some ⟨t, held, l :: todo⟩ =>
      if ∀ f ∈ s.eraseIdx k, l ∉ f.held then some (s.set k ⟨t, l :: held, todo⟩) else none
    | _ => none
  | .leave k => if k < s.length then some (s.eraseIdx k) else none

/-- No transaction is in flight at the start. -/
def machine [DecidableEq L] (plan : T → List L) : Machine (Flights T L) (Action T) where
  initial s := s = []
  next := next plan

/-- Transaction `i`, in flight as `f`, waits for the lock `l` that transaction `j` holds. -/
structure WaitsFor (s : Flights T L) (i : Nat) (f : Flight T L) (l : L) (j : Nat) : Prop where
  flight : s[i]? = some f
  wants : f.todo.head? = some l
  holder : ∃ g, s[j]? = some g ∧ l ∈ g.held
  other : i ≠ j

def Waits (s : Flights T L) (i j : Nat) : Prop := ∃ f l, WaitsFor s i f l j

def Deadlocked (s : Flights T L) : Prop := ∃ i, Relation.TransGen (Waits s) i i

/-! ## Waiting uphill -/

theorem WaitsFor.same {s : Flights T L} {i j k : Nat} {f g : Flight T L} {l m : L}
    (h : WaitsFor s i f l j) (h' : WaitsFor s i g m k) : f = g ∧ l = m := by
  have flights : f = g := Option.some.inj (h.flight.symm.trans h'.flight)
  subst flights
  exact ⟨rfl, Option.some.inj (h.wants.symm.trans h'.wants)⟩

/-- Along a chain of waits the wanted rank rises, when it rises along each pair of them. -/
theorem rises [Preorder α] {wanted : T → L → α} {s : Flights T L}
    (step : ∀ (i j k : Nat) (f g : Flight T L) (l m : L), WaitsFor s i f l j →
      WaitsFor s j g m k → wanted f.tx l < wanted g.tx m)
    {i j : Nat} (chain : Relation.TransGen (Waits s) i j) {f g : Flight T L} {l m : L}
    {j' k : Nat} (first : WaitsFor s i f l j') (last : WaitsFor s j g m k) :
    wanted f.tx l < wanted g.tx m := by
  induction chain generalizing g m k with
  | single edge =>
      obtain ⟨f', l', waits⟩ := edge
      obtain ⟨rfl, rfl⟩ := first.same waits
      exact step _ _ _ _ _ _ _ waits last
  | tail _ edge ih =>
      obtain ⟨f', l', waits⟩ := edge
      exact (ih waits).trans (step _ _ _ _ _ _ _ waits last)

theorem not_deadlocked [Preorder α] (wanted : T → L → α) {s : Flights T L}
    (step : ∀ (i j k : Nat) (f g : Flight T L) (l m : L), WaitsFor s i f l j →
      WaitsFor s j g m k → wanted f.tx l < wanted g.tx m) : ¬ Deadlocked s := by
  rintro ⟨i, cycle⟩
  obtain ⟨j, ⟨f, l, waits⟩, -⟩ := (Relation.TransGen.head'_iff).1 cycle
  exact lt_irrefl _ (rises step cycle waits waits)

/-! ## Climbing plans -/

/-- From the locks held so far, every lock to come is held already or wanted above all of them. -/
def Climbs [LT α] (held wanted : L → α) : List L → List L → Prop
  | _, [] => True
  | taken, l :: todo =>
    (l ∈ taken ∨ ∀ h ∈ taken, held h < wanted l) ∧ Climbs held wanted (l :: taken) todo

@[simp] theorem climbs_nil [LT α] {held wanted : L → α} {taken : List L} :
    Climbs held wanted taken [] := trivial

@[simp] theorem climbs_cons [LT α] {held wanted : L → α} {taken todo : List L} {l : L} :
    Climbs held wanted taken (l :: todo) ↔
      (l ∈ taken ∨ ∀ h ∈ taken, held h < wanted l) ∧ Climbs held wanted (l :: taken) todo :=
  Iff.rfl

/-- Only which locks are taken matters, not when. -/
theorem climbs_congr [LT α] {held wanted : L → α} {taken taken' todo : List L}
    (same : ∀ l, l ∈ taken ↔ l ∈ taken') :
    Climbs held wanted taken todo ↔ Climbs held wanted taken' todo := by
  induction todo generalizing taken taken' with
  | nil => exact Iff.rfl
  | cons l todo ih =>
      have rest : Climbs held wanted (l :: taken) todo ↔ Climbs held wanted (l :: taken') todo :=
        ih fun m => by simp [same m]
      simp only [climbs_cons, same, rest]

@[simp] theorem climbs_ite [LT α] {held wanted : L → α} {taken xs ys : List L} {c : Prop}
    [Decidable c] : Climbs held wanted taken (if c then xs else ys) ↔
      (c → Climbs held wanted taken xs) ∧ (¬ c → Climbs held wanted taken ys) := by
  split <;> simp [*]

@[simp] theorem climbs_ite_append [LT α] {held wanted : L → α} {taken xs ys todo : List L}
    {c : Prop} [Decidable c] : Climbs held wanted taken ((if c then xs else ys) ++ todo) ↔
      (c → Climbs held wanted taken (xs ++ todo)) ∧
        (¬ c → Climbs held wanted taken (ys ++ todo)) := by
  split <;> simp [*]

/-- A plan climbs by ranks that are lower for what is held and higher for what is wanted. -/
theorem Climbs.mono [Preorder α] {held wanted held' wanted' : L → α} {taken todo : List L}
    (lower : ∀ l, held' l ≤ held l) (higher : ∀ l, wanted l ≤ wanted' l)
    (h : Climbs held wanted taken todo) : Climbs held' wanted' taken todo := by
  induction todo generalizing taken with
  | nil => exact climbs_nil
  | cons l todo ih =>
      refine ⟨h.1.imp_right fun below m hm => ?_, ih h.2⟩
      exact ((lower m).trans_lt (below m hm)).trans_le (higher l)

/-- A plan that lists its locks in rising order climbs. -/
theorem climbs_of_pairwise [LT α] {held wanted : L → α} {taken todo : List L}
    (rising : (taken.reverse ++ todo).Pairwise fun h l => held h < wanted l) :
    Climbs held wanted taken todo := by
  induction todo generalizing taken with
  | nil => exact climbs_nil
  | cons l todo ih =>
      have below : ∀ h ∈ taken, held h < wanted l := fun h hh =>
        (List.pairwise_append.1 rising).2.2 h (List.mem_reverse.2 hh) l (by simp)
      exact climbs_cons.2 ⟨.inr below, ih (by simpa using rising)⟩

/-- What holds of the transactions in flight when the plans climb and `Apart` transactions only
are in flight together. -/
structure Sound [LT α] (held wanted : T → L → α) (Apart : T → T → Prop) (s : Flights T L) :
    Prop where
  climbing : ∀ f ∈ s, Climbs (held f.tx) (wanted f.tx) f.held f.todo
  exclusive : s.Pairwise fun f g => List.Disjoint f.held g.held
  apart : (s.map (·.tx)).Pairwise Apart

theorem disjoint_held_symm (f g : Flight T L) (h : List.Disjoint f.held g.held) :
    List.Disjoint g.held f.held :=
  fun _ inG inF => h inF inG

theorem pairwise_of_ne {R : α → α → Prop} (symm : ∀ a b, R a b → R b a) {s : List α}
    (h : s.Pairwise R) {i j : Nat} {x y : α} (hx : s[i]? = some x) (hy : s[j]? = some y)
    (ne : i ≠ j) : R x y := by
  obtain ⟨hi, rfl⟩ := List.getElem?_eq_some_iff.1 hx
  obtain ⟨hj, rfl⟩ := List.getElem?_eq_some_iff.1 hy
  rw [List.pairwise_iff_getElem] at h
  rcases Nat.lt_or_gt_of_ne ne with lt | gt
  · exact h i j hi hj lt
  · exact symm _ _ (h j i hj hi gt)

theorem pairwise_set {R : α → α → Prop} (symm : ∀ a b, R a b → R b a) {s : List α} {k : Nat}
    {x : α} (h : s.Pairwise R) (new : ∀ y ∈ s.eraseIdx k, R x y) : (s.set k x).Pairwise R := by
  rw [List.pairwise_iff_getElem]
  intro i j hi hj lt
  rw [List.length_set] at hi hj
  have other : ∀ {n : Nat} (hn : n < s.length), n ≠ k → R x s[n] := fun hn ne =>
    new _ (List.mem_eraseIdx_iff_getElem?.2 ⟨_, ne, List.getElem?_eq_getElem hn⟩)
  rw [List.getElem_set, List.getElem_set]
  split
  · rename_i same
    rw [if_neg (by omega)]
    exact other hj (by omega)
  · split
    · exact symm _ _ (other hi (by omega))
    · exact List.pairwise_iff_getElem.1 h i j hi hj lt

section Runs

variable [Preorder α] {held wanted : T → L → α} {Apart : T → T → Prop}

theorem Sound.nil : Sound held wanted Apart [] := ⟨by simp, .nil, .nil⟩

theorem Sound.started {s : Flights T L} (h : Sound held wanted Apart s) {t : T}
    {todo : List L} (climbs : Climbs (held t) (wanted t) [] todo)
    (admitted : ∀ f ∈ s, Apart f.tx t) : Sound held wanted Apart (s ++ [⟨t, [], todo⟩]) where
  climbing f hf := by
    rcases List.mem_append.1 hf with old | new
    · exact h.climbing f old
    · rw [List.mem_singleton.1 new]
      exact climbs
  exclusive := by
    refine List.pairwise_append.2 ⟨h.exclusive, List.pairwise_singleton _ _, ?_⟩
    intro f _ g hg
    rw [List.mem_singleton.1 hg]
    exact List.disjoint_nil_right _
  apart := by
    rw [List.map_append]
    refine List.pairwise_append.2 ⟨h.apart, List.pairwise_singleton _ _, ?_⟩
    intro u hu v hv
    obtain ⟨f, hf, rfl⟩ := List.mem_map.1 hu
    rw [List.mem_singleton.1 hv]
    exact admitted f hf

theorem Sound.acquired {s : Flights T L} (h : Sound held wanted Apart s) {k : Nat} {t : T}
    {taken todo : List L} {l : L} (at_ : s[k]? = some ⟨t, taken, l :: todo⟩)
    (free : ∀ f ∈ s.eraseIdx k, l ∉ f.held) :
    Sound held wanted Apart (s.set k ⟨t, l :: taken, todo⟩) where
  climbing f hf := by
    rcases List.mem_or_eq_of_mem_set hf with old | rfl
    · exact h.climbing f old
    · exact (h.climbing _ (List.mem_of_getElem? at_)).2
  exclusive := by
    refine pairwise_set disjoint_held_symm h.exclusive ?_
    intro g hg
    obtain ⟨n, ne, atN⟩ := List.mem_eraseIdx_iff_getElem?.1 hg
    have before : List.Disjoint taken g.held :=
      pairwise_of_ne disjoint_held_symm h.exclusive at_ atN ne.symm
    exact List.disjoint_cons_left.2 ⟨free g hg, before⟩
  apart := by
    obtain ⟨hk, here⟩ := List.getElem?_eq_some_iff.1 at_
    have same : (s.set k ⟨t, l :: taken, todo⟩).map (·.tx) = s.map (·.tx) := by
      rw [List.map_set]
      refine List.ext_getElem? fun n => ?_
      rw [List.getElem?_set]
      split
      · rename_i at_
        subst at_
        simp [hk, here]
      · rfl
    rw [same]
    exact h.apart

theorem Sound.left {s : Flights T L} (h : Sound held wanted Apart s) (k : Nat) :
    Sound held wanted Apart (s.eraseIdx k) where
  climbing f hf := h.climbing f (List.mem_of_mem_eraseIdx hf)
  exclusive := h.exclusive.sublist (List.eraseIdx_sublist s k)
  apart := h.apart.sublist ((List.eraseIdx_sublist s k).map _)

/-- A transaction may start only apart from all that are in flight. -/
def Admitted (Apart : T → T → Prop) (s : Flights T L) (a : Action T) : Prop :=
  ∀ t, a = .start t → ∀ f ∈ s, Apart f.tx t

/-- The admission check of a computed run. -/
def admits (Apart : T → T → Prop) [DecidableRel Apart] (s : Flights T L) : Action T → Bool
  | .start t => s.all fun f => decide (Apart f.tx t)
  | _ => true

theorem admitted_of_admits [DecidableRel Apart] {s : Flights T L} {a : Action T}
    (h : admits Apart s a = true) : Admitted Apart s a := by
  rintro t rfl f hf
  simp only [admits, List.all_eq_true, decide_eq_true_eq] at h
  exact h f hf

section Plans

variable [DecidableEq L] {plan : T → List L}

theorem Sound.next (climbs : ∀ t, Climbs (held t) (wanted t) [] (plan t))
    {s s' : Flights T L} {a : Action T} (h : Sound held wanted Apart s)
    (admitted : Admitted Apart s a) (step : (machine plan).next s a = some s') :
    Sound held wanted Apart s' := by
  cases a with
  | start t =>
      simp only [machine, Locks.next, Option.some.injEq] at step
      subst step
      exact h.started (climbs t) (admitted t rfl)
  | acquire k =>
      simp only [machine, Locks.next] at step
      split at step
      · rename_i at_
        split at step
        · rename_i free
          simp only [Option.some.injEq] at step
          subst step
          exact h.acquired at_ free
        · simp at step
      · simp at step
  | leave k =>
      simp only [machine, Locks.next] at step
      split at step
      · simp only [Option.some.injEq] at step
        subst step
        exact h.left k
      · simp at step

theorem sound_reachable (climbs : ∀ t, Climbs (held t) (wanted t) [] (plan t))
    {s : Flights T L} (h : (machine plan).ReachableUnder (Admitted Apart) s) :
    Sound held wanted Apart s := by
  refine h.invariant ?_ fun _ _ _ sound admitted step => sound.next climbs admitted step
  intro s empty
  simp only [machine] at empty
  rw [empty]
  exact Sound.nil

end Plans

/-- The rule: two transactions apart never wait for each other above the rank at which the
lock is held, so no chain of waits comes back to where it began. -/
theorem Sound.not_deadlocked (symm : ∀ t u, Apart t u → Apart u t)
    (below : ∀ t u l, Apart t u → wanted t l ≤ held u l) {s : Flights T L}
    (h : Sound held wanted Apart s) : ¬ Deadlocked s := by
  apply Locks.not_deadlocked wanted
  intro i j k f g l m first last
  obtain ⟨g', atJ, holds⟩ := first.holder
  obtain rfl : g' = g := Option.some.inj (atJ.symm.trans last.flight)
  obtain ⟨e, atK, taken⟩ := last.holder
  have foreign : m ∉ g'.held := by
    have apart := pairwise_of_ne disjoint_held_symm h.exclusive last.flight atK last.other
    exact fun own => apart own taken
  have climbing := h.climbing g' (List.mem_of_getElem? last.flight)
  obtain ⟨rest, todo⟩ : ∃ rest, g'.todo = m :: rest := by
    have wants := last.wants
    cases eq : g'.todo with
    | nil => simp [eq] at wants
    | cons n rest =>
        simp only [eq, List.head?_cons, Option.some.injEq] at wants
        exact ⟨rest, by rw [wants]⟩
  rw [todo] at climbing
  have above : held g'.tx l < wanted g'.tx m := by
    rcases climbing.1 with own | all
    · exact absurd own foreign
    · exact all l holds
  have kept : Apart f.tx g'.tx :=
    pairwise_of_ne symm h.apart (by rw [List.getElem?_map, first.flight]; rfl)
      (by rw [List.getElem?_map, last.flight]; rfl) first.other
  exact (below f.tx g'.tx l kept).trans_lt above

end Runs

end Locks
