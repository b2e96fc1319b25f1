import Mathlib.Logic.Basic

/-! # Machines and their runs

A machine has initial states and a partial step function on labelled actions.
`ReachableUnder C` are the states of the runs whose every step meets the
condition `C`; an invariant is proved once at the start and once per step.
-/

structure Machine (σ α : Type) where
  initial : σ → Prop
  next : σ → α → Option σ

namespace Machine

variable {σ α τ β : Type} {M : Machine σ α} {C D : σ → α → Prop}

/-- Execute a list of actions. -/
def exec (M : Machine σ α) : σ → List α → Option σ
  | s, [] => some s
  | s, a :: as => (M.next s a).bind fun s' => M.exec s' as

/-- A run whose steps all meet the condition. -/
inductive RunUnder (M : Machine σ α) (C : σ → α → Prop) : σ → σ → Prop where
  | refl {s} : RunUnder M C s s
  | step {s t u a} : RunUnder M C s t → C t a → M.next t a = some u → RunUnder M C s u

def ReachableUnder (M : Machine σ α) (C : σ → α → Prop) (s : σ) : Prop :=
  ∃ s₀, M.initial s₀ ∧ RunUnder M C s₀ s

def Reachable (M : Machine σ α) (s : σ) : Prop :=
  M.ReachableUnder (fun _ _ => True) s

theorem RunUnder.trans {s t u} (h : RunUnder M C s t) (h' : RunUnder M C t u) :
    RunUnder M C s u := by
  induction h' with
  | refl => exact h
  | step _ hc hn ih => exact .step ih hc hn

theorem RunUnder.weaken {s t} (hw : ∀ s a, C s a → D s a) (h : RunUnder M C s t) :
    RunUnder M D s t := by
  induction h with
  | refl => exact .refl
  | step _ hc hn ih => exact .step ih (hw _ _ hc) hn

theorem RunUnder.invariant {I : σ → Prop} {s t}
    (preserved : ∀ s a s', I s → C s a → M.next s a = some s' → I s')
    (h : RunUnder M C s t) (hs : I s) : I t := by
  induction h with
  | refl => exact hs
  | step _ hc hn ih => exact preserved _ _ _ ih hc hn

theorem RunUnder.of_exec {s t : σ} {as : List α}
    (h : M.exec s as = some t) : RunUnder M (fun _ _ => True) s t := by
  induction as generalizing s with
  | nil =>
      simp only [exec, Option.some.injEq] at h
      exact h ▸ .refl
  | cons a as ih =>
      simp only [exec, Option.bind_eq_some_iff] at h
      obtain ⟨u, hu, rest⟩ := h
      exact (RunUnder.step .refl trivial hu).trans (ih rest)

/-- The condition checked along an execution, for runs that are computed. -/
def execUnder (M : Machine σ α) (c : σ → α → Bool) : σ → List α → Option σ
  | s, [] => some s
  | s, a :: as => if c s a then (M.next s a).bind fun s' => M.execUnder c s' as else none

theorem RunUnder.of_execUnder {c : σ → α → Bool} (hc : ∀ s a, c s a = true → C s a)
    {s t : σ} {as : List α} (h : M.execUnder c s as = some t) : RunUnder M C s t := by
  induction as generalizing s with
  | nil =>
      simp only [execUnder, Option.some.injEq] at h
      exact h ▸ .refl
  | cons a as ih =>
      simp only [execUnder] at h
      split at h
      · rename_i met
        simp only [Option.bind_eq_some_iff] at h
        obtain ⟨u, hu, rest⟩ := h
        exact (RunUnder.step .refl (hc s a met) hu).trans (ih rest)
      · simp at h

theorem exec_of_execUnder {c : σ → α → Bool} {s t : σ} {as : List α} (h : M.execUnder c s as = some t) :
    M.exec s as = some t := by
  induction as generalizing s with
  | nil => exact h
  | cons a as ih =>
      simp only [execUnder] at h
      split at h
      · obtain ⟨u, hu, rest⟩ := Option.bind_eq_some_iff.mp h
        exact Option.bind_eq_some_iff.mpr ⟨u, hu, ih rest⟩
      · cases h

namespace ReachableUnder

theorem start {s} (h : M.initial s) : M.ReachableUnder C s := ⟨s, h, .refl⟩

theorem next {s a t} (h : M.ReachableUnder C s) (hc : C s a) (hn : M.next s a = some t) :
    M.ReachableUnder C t := by
  obtain ⟨s₀, h₀, run⟩ := h
  exact ⟨s₀, h₀, .step run hc hn⟩

theorem weaken {s} (hw : ∀ s a, C s a → D s a) (h : M.ReachableUnder C s) :
    M.ReachableUnder D s := by
  obtain ⟨s₀, h₀, run⟩ := h
  exact ⟨s₀, h₀, run.weaken hw⟩

theorem reachable {s} (h : M.ReachableUnder C s) : M.Reachable s := h.weaken fun _ _ _ => trivial

/-- A condition on the steps that happen may be replaced by one that follows from it in reachable states. -/
theorem strengthen {s} (hw : ∀ s a s', M.Reachable s → M.next s a = some s' → C s a → D s a)
    (h : M.ReachableUnder C s) : M.ReachableUnder D s := by
  obtain ⟨s₀, h₀, run⟩ := h
  induction run with
  | refl => exact start h₀
  | step before hc hn ih =>
      have reached : M.Reachable _ := reachable ⟨s₀, h₀, before⟩
      exact ih.next (hw _ _ _ reached hn hc) hn

/-- The invariant rule. -/
theorem invariant {I : σ → Prop} {s}
    (initially : ∀ s, M.initial s → I s)
    (preserved : ∀ s a s', I s → C s a → M.next s a = some s' → I s')
    (h : M.ReachableUnder C s) : I s := by
  obtain ⟨s₀, h₀, run⟩ := h
  exact run.invariant preserved (initially s₀ h₀)

/-- A second invariant may use a first one that is already established. -/
theorem invariant_with {J I : σ → Prop} {s}
    (known : ∀ s, M.ReachableUnder C s → J s)
    (initially : ∀ s, M.initial s → I s)
    (preserved : ∀ s a s', J s → I s → C s a → M.next s a = some s' → I s')
    (h : M.ReachableUnder C s) : I s := by
  have both : M.ReachableUnder C s ∧ I s := by
    obtain ⟨s₀, h₀, run⟩ := h
    induction run with
    | refl => exact ⟨start h₀, initially _ h₀⟩
    | step _ hc hn ih => exact ⟨ih.1.next hc hn, preserved _ _ _ (known _ ih.1) ih.2 hc hn⟩
  exact both.2

/-- A relation that every step has holds between the ends of a run. -/
theorem related {R : σ → σ → Prop} {s t} (refl : ∀ s, M.ReachableUnder C s → R s s)
    (trans : ∀ s t u, R s t → R t u → R s u)
    (step : ∀ s a s', M.ReachableUnder C s → C s a → M.next s a = some s' → R s s')
    (h : M.ReachableUnder C s) (run : RunUnder M C s t) : R s t := by
  have both : M.ReachableUnder C t ∧ R s t := by
    induction run with
    | refl => exact ⟨h, refl s h⟩
    | step _ hc hn ih => exact ⟨ih.1.next hc hn, trans _ _ _ ih.2 (step _ _ _ ih.1 hc hn)⟩
  exact both.2

end ReachableUnder

namespace Reachable

theorem invariant {I : σ → Prop} {s}
    (initially : ∀ s, M.initial s → I s)
    (preserved : ∀ s a s', I s → M.next s a = some s' → I s')
    (h : M.Reachable s) : I s :=
  ReachableUnder.invariant initially (fun s a s' hi _ => preserved s a s' hi) h

theorem of_exec {s₀ s : σ} {as : List α} (h₀ : M.initial s₀) (h : M.exec s₀ as = some s) :
    M.Reachable s :=
  ⟨s₀, h₀, .of_exec h⟩

end Reachable

end Machine
