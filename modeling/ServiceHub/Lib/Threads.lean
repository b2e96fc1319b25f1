import Mathlib.Data.List.Perm.Basic

/-! # Calls over a shared state

A system of calls in flight that take turns on a shared state. One step writes the
state on behalf of one call, which then goes on or returns. An invariant of the state
and of every call in flight is preserved when the written state, the waiting calls and
the continuing call keep it.
-/

namespace Threads

variable {σ κ : Type}

/-- The call at index `k` goes on at `c`, or has returned. -/
def proceed (calls : List κ) (k : Nat) : Option κ → List κ
  | some c => calls.set k c
  | none => calls.eraseIdx k

theorem mem_proceed {calls : List κ} {k : Nat} {next : Option κ} {c : κ}
    (h : c ∈ proceed calls k next) : c ∈ calls ∨ next = some c := by
  cases next with
  | none => exact .inl (List.mem_of_mem_eraseIdx h)
  | some d =>
      obtain listed | rfl := List.mem_or_eq_of_mem_set h
      · exact .inl listed
      · exact .inr rfl

/-- A call that goes on under its key leaves the keys as they are. -/
theorem map_set_same {ι : Type} {key : κ → ι} {calls : List κ} {k : Nat} {c c' : κ} (found : calls[k]? = some c)
    (same : key c' = key c) : (calls.set k c').map key = calls.map key := by
  refine List.ext_getElem? fun n => ?_
  rw [List.map_set, List.getElem?_set]
  split
  · rename_i at_
    subst at_
    obtain ⟨bound, here⟩ := List.getElem?_eq_some_iff.mp found
    simp [same, bound, here]
  · rfl

/-- The calls after a step are the other calls and the one that goes on. -/
theorem proceed_perm {calls : List κ} {k : Nat} {c : κ} {next : Option κ} (found : calls[k]? = some c) :
    (proceed calls k next).Perm (next.toList ++ calls.eraseIdx k) := by
  cases next with
  | none => exact .refl _
  | some d =>
      obtain ⟨bound, -⟩ := List.getElem?_eq_some_iff.mp found
      exact List.set_perm_cons_eraseIdx bound d

theorem mem_proceed_others {calls : List κ} {k : Nat} {c d : κ} {next : Option κ} (found : calls[k]? = some c)
    (h : d ∈ proceed calls k next) : d ∈ calls.eraseIdx k ∨ next = some d := by
  rcases List.mem_append.mp ((proceed_perm found).mem_iff.mp h) with going | other
  · exact .inr (by simpa using going)
  · exact .inl other

/-- At most one call is in its critical section. -/
def Exclusive (critical : κ → Bool) (calls : List κ) : Prop :=
  calls.countP critical ≤ 1

section Exclusion

variable {critical : κ → Bool} {calls : List κ} {k : Nat} {c : κ} {next : Option κ}

theorem countP_split (found : calls[k]? = some c) :
    calls.countP critical = (if critical c then 1 else 0) + (calls.eraseIdx k).countP critical := by
  obtain ⟨bound, rfl⟩ := List.getElem?_eq_some_iff.mp found
  rw [← List.Perm.countP_eq _ (List.getElem_cons_eraseIdx_perm bound), List.countP_cons]
  exact Nat.add_comm _ _

/-- No other call is critical. -/
theorem Exclusive.others (h : Exclusive critical calls) (found : calls[k]? = some c)
    (holding : critical c = true) : ∀ d ∈ calls.eraseIdx k, critical d = false := by
  have split : calls.countP critical = _ := countP_split found
  simp only [holding, if_true] at split
  have none_ : (calls.eraseIdx k).countP critical = 0 := by
    unfold Exclusive at h
    omega
  intro d listed
  simpa using List.countP_eq_zero.mp none_ d listed

theorem Exclusive.sublist {calls' : List κ} (h : Exclusive critical calls) (fewer : calls'.Sublist calls) :
    Exclusive critical calls' :=
  Nat.le_trans fewer.countP_le h

/-- A call enters its critical section when no other call is in it. -/
theorem Exclusive.proceed (h : Exclusive critical calls) (found : calls[k]? = some c)
    (free : critical c = true ∨ calls.any critical = false) : Exclusive critical (proceed calls k next) := by
  have split : calls.countP critical = _ := countP_split found
  unfold Exclusive at h ⊢
  rw [List.Perm.countP_eq _ (proceed_perm found), List.countP_append]
  have one : next.toList.countP critical ≤ 1 := by
    cases next with
    | none => simp
    | some d => simpa using List.countP_le_length (p := critical) (l := [d])
  rcases free with holding | free
  · simp only [holding, if_true] at split
    omega
  · have none_ : calls.countP critical = 0 := List.countP_eq_zero.mpr (by simpa using free)
    omega

/-- A call that ends, or goes on outside of the section. -/
theorem Exclusive.leave (h : Exclusive critical calls) (found : calls[k]? = some c)
    (outside : ∀ d, next = some d → critical d = false) : Exclusive critical (Threads.proceed calls k next) := by
  have split : calls.countP critical = _ := countP_split found
  unfold Exclusive at h ⊢
  rw [List.Perm.countP_eq _ (proceed_perm found), List.countP_append]
  have none_ : next.toList.countP critical = 0 := by
    cases next with
    | none => rfl
    | some d => simp [outside d rfl]
  omega

theorem Exclusive.returns (h : Exclusive critical calls) :
    Exclusive critical (calls.eraseIdx k) :=
  h.sublist (List.eraseIdx_sublist _ _)

end Exclusion

/-- The state has the invariant, and every call in flight agrees with it. -/
structure Coupled (I : σ → Prop) (P : σ → κ → Prop) (s : σ) (calls : List κ) : Prop where
  shared : I s
  calls : ∀ c ∈ calls, P s c

/-- One step from `s` to `s'` on behalf of a call that goes on at `next`. -/
structure Preserves (I : σ → Prop) (P : σ → κ → Prop) (s s' : σ) (calls : List κ)
    (next : Option κ) : Prop where
  shared : I s'
  others : ∀ c ∈ calls, P s c → P s' c
  next : ∀ c, next = some c → P s' c

theorem Coupled.preserved {I : σ → Prop} {P : σ → κ → Prop} {s s' : σ} {calls calls' : List κ}
    {next : Option κ} (h : Coupled I P s calls) (step : Preserves I P s s' calls next)
    (left : ∀ c ∈ calls', c ∈ calls ∨ next = some c) : Coupled I P s' calls' where
  shared := step.shared
  calls c hc := by
    obtain listed | going := left c hc
    · exact step.others c listed (h.calls c listed)
    · exact step.next c going

end Threads
