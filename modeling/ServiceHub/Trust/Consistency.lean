import Mathlib.Logic.Relation
import ServiceHub.Lib.Balance
import ServiceHub.Booking.Coupling
import ServiceHub.Trust.Ledger

/-! # The trust ledger is consistent

Every transaction appends events one after the other, each with the score that it found and
the clamped score that it left. So the events of an account lead from its baseline to its
score, whatever transactions of other accounts stand between them.
-/

namespace ServiceHub

open Guard

/-- The score stays between 0 and 100. -/
def clampScore (score : Int) : Int := min 100 (max 0 score)

theorem clampScore_bounds (score : Int) : 0 ≤ clampScore score ∧ clampScore score ≤ 100 := by
  unfold clampScore
  omega

namespace TrustEventInput

/-- The event that the input appends to a ledger with the given score. -/
def event (now : Millis) (scoreBefore : Int) (input : TrustEventInput) : TrustScoreEvent where
  userId := input.userId
  delta := clampScore (scoreBefore + input.delta) - scoreBefore
  requestedDelta := some (input.requestedDelta.getD input.delta)
  reason := input.reason
  scoreBefore := scoreBefore
  scoreAfter := clampScore (scoreBefore + input.delta)
  actorAdminId := input.actorAdminId
  eventKey := input.eventKey
  createdAt := now
  bookingId := input.bookingId
  category := input.category
  penaltyKey := input.penaltyKey
  reversesEventId := input.reversesEventId

/-- What the services guarantee about the input: a penalty carries its key, and a correction takes
    back what an original event of the account has applied. -/
structure Justified (l : TrustLedger) (input : TrustEventInput) : Prop where
  penalty : input.category.isPenalty = true →
    ∃ b, input.bookingId = some b ∧ input.penaltyKey = some (b, input.userId)
  correction : ∀ i, input.reversesEventId = some i → input.category = .correction
    ∧ ∃ original, l.events[i]? = some original ∧ original.userId = input.userId
      ∧ original.reversesEventId = none ∧ input.delta = -original.delta

end TrustEventInput

/-- The event can be appended: its unique columns are not taken. -/
structure Fresh (l : TrustLedger) (e : TrustScoreEvent) : Prop where
  key : ∀ x ∈ l.events, x.eventKey ≠ e.eventKey
  penalty : ∀ x ∈ l.events, x.penaltyKey.isSome = true → x.penaltyKey ≠ e.penaltyKey
  reversal : ∀ x ∈ l.events, x.reversesEventId.isSome = true → x.reversesEventId ≠ e.reversesEventId

/-- The ledger with one more event, which sets the score of its account. -/
def TrustLedger.record (l : TrustLedger) (e : TrustScoreEvent) : TrustLedger :=
  { l with
    trustScore := Function.update l.trustScore e.userId (some e.scoreAfter)
    events := l.events ++ [e] }

/-- The baseline of an account. -/
def baselineEvent (now : Millis) (userId : UserId) : TrustScoreEvent where
  userId := userId
  delta := 50
  reason := "Initial Account Base Trust Score Baseline"
  scoreBefore := 0
  scoreAfter := 50
  eventKey := .accountBaseline userId
  createdAt := now

/-- What a transaction writes to scores and events, one event at a time. -/
inductive LedgerStep (l : TrustLedger) : TrustLedger → Prop where
  | opened {now u} (new : l.trustScore u = none) (fresh : Fresh l (baselineEvent now u)) :
      LedgerStep l (l.record (baselineEvent now u))
  | applied {now before} {input : TrustEventInput} (score : l.trustScore input.userId = some before)
      (fresh : Fresh l (input.event now before)) (justified : input.Justified l) :
      LedgerStep l (l.record (input.event now before))

section Transactions

variable {l l' : TrustLedger} {now : Millis} {ctx : TrustContext}

theorem findKey_none {key : EventKey} (h : l.findKey key = none) :
    ∀ x ∈ l.events, x.eventKey ≠ key := by
  intro x listed same
  have absent := List.find?_eq_none.mp h x listed
  simp [same] at absent

theorem createEvent_ok {e : TrustScoreEvent} (h : l.createEvent e = .ok l')
    (key : ∀ x ∈ l.events, x.eventKey ≠ e.eventKey) :
    Fresh l e ∧ l' = { l with events := l.events ++ [e] } := by
  simp only [TrustLedger.createEvent, check_bind_ok, rejectIf_ok, pure_ok, Bool.not_eq_true,
    List.any_eq_false, Bool.and_eq_true, beq_iff_eq, not_and] at h
  obtain ⟨penalty, reversal, rfl⟩ := h
  exact ⟨⟨key, penalty, reversal⟩, rfl⟩

theorem createAccount_ok {u : UserId} (h : createAccount now u l = .ok l') :
    l.trustScore u = none ∧ Fresh l (baselineEvent now u) ∧ l' = l.record (baselineEvent now u) := by
  simp only [createAccount, check_bind_ok, rejectIf_ok, Bool.not_eq_true, Option.isSome_eq_false_iff,
    Option.isNone_iff_eq_none] at h
  obtain ⟨new, unused, h⟩ := h
  simp only [bind_ok, pure_ok] at h
  obtain ⟨created, create, rfl⟩ := h
  obtain ⟨fresh, rfl⟩ := createEvent_ok create (findKey_none unused)
  exact ⟨new, fresh, rfl⟩

/-- An event is applied once: a retry leaves the ledger as it is. -/
theorem applyTrustEventInTransaction_ok {input : TrustEventInput} {applied : Bool}
    (h : applyTrustEventInTransaction now input l = .ok (l', applied)) :
    l' = l ∨ ∃ before, l.trustScore input.userId = some before ∧ Fresh l (input.event now before)
      ∧ l' = l.record (input.event now before) := by
  obtain ⟨before, score, h⟩ := orThrow_bind_ok.mp h
  split at h
  · simp only [check_bind_ok, pure_ok, Prod.mk.injEq] at h
    exact .inl h.2.1.symm
  · rename_i unused
    obtain ⟨written, create, h⟩ := bind_ok.mp h
    simp only [pure_ok, Prod.mk.injEq] at h
    obtain ⟨rfl, -⟩ := h
    obtain ⟨fresh, rfl⟩ := createEvent_ok create (findKey_none unused)
    exact .inr ⟨before, score, fresh, rfl⟩

/-- The events that a transaction appends. -/
abbrev LedgerSteps : TrustLedger → TrustLedger → Prop := Relation.ReflTransGen LedgerStep

theorem applyTrustEventInTransaction_steps {input : TrustEventInput} {applied : Bool}
    (h : applyTrustEventInTransaction now input l = .ok (l', applied)) (justified : input.Justified l) :
    LedgerSteps l l' := by
  obtain rfl | ⟨before, score, fresh, rfl⟩ := applyTrustEventInTransaction_ok h
  · exact .refl
  · exact .single (.applied score fresh justified)

/-- An input that is neither a penalty nor a correction. -/
theorem TrustEventInput.Justified.plain {input : TrustEventInput}
    (category : input.category.isPenalty = false) (original : input.reversesEventId = none) :
    input.Justified l :=
  ⟨by simp [category], by simp [original]⟩

/-- A transaction that applies at most one event, which is no reward. -/
inductive Applies (now : Millis) (l : TrustLedger) : TrustLedger → Prop where
  | nothing : Applies now l l
  | event {input : TrustEventInput} {applied l'} (justified : input.Justified l)
      (category : input.category ≠ .completion)
      (run : applyTrustEventInTransaction now input l = .ok (l', applied)) : Applies now l l'

theorem Applies.steps (h : Applies now l l') : LedgerSteps l l' := by
  cases h with
  | nothing => exact .refl
  | event justified _ run => exact applyTrustEventInTransaction_steps run justified

theorem applyTrustEvent_applies {u : UserId} {delta : Int} {reason : String} {admin : Option UserId}
    {key : EventKey} (h : applyTrustEvent now u delta reason admin key l = .ok l') : Applies now l l' := by
  simp only [applyTrustEvent, bind_ok, pure_ok, Prod.exists] at h
  obtain ⟨after, applied, run, rfl⟩ := h
  exact .event (.plain rfl rfl) (by simp) run

theorem approveVerificationTrust_applies {u admin : UserId}
    (h : approveVerificationTrust now u admin l = .ok l') : Applies now l l' := by
  simp only [approveVerificationTrust, bind_ok, pure_ok, Prod.exists] at h
  obtain ⟨after, applied, run, rfl⟩ := h
  exact .event (.plain rfl rfl) (by simp) run

/-- The reward of a participant without a standing penalty on the booking. -/
structure Rewarded (ctx : TrustContext) (b : BookingId) (booking : Booking) (u : UserId)
    (l l' : TrustLedger) : Prop where
  unpenalised : l.standing.any (fun e => e.bookingId == some b && e.userId == u && e.category.isPenalty) = false
  run : ∃ applied, applyTrustEventInTransaction ctx.now {
    userId := u, delta := 3, bookingId := some b, category := .completion
    reason := "Eligible booking completed and payment settled"
    eventKey := .bookingCompletion b (if u = booking.providerId then .provider else .seeker) } l = .ok (l', applied)

theorem awardParticipant_ok {b : BookingId} {booking : Booking} {u : UserId}
    (h : awardParticipant ctx b booking l u = .ok l') : l' = l ∨ Rewarded ctx b booking u l l' := by
  simp only [awardParticipant, ite_ok, pure_ok] at h
  obtain ⟨-, rfl⟩ | ⟨-, ⟨-, rfl⟩ | ⟨unpenalised, h⟩⟩ := h
  · exact .inl rfl
  · exact .inl rfl
  · simp only [bind_ok, pure_ok, Prod.exists] at h
    obtain ⟨after, applied, run, rfl⟩ := h
    exact .inr ⟨by simpa using unpenalised, applied, run⟩

theorem awardParticipant_steps {b : BookingId} {booking : Booking} {u : UserId}
    (h : awardParticipant ctx b booking l u = .ok l') : LedgerSteps l l' := by
  obtain rfl | rewarded := awardParticipant_ok h
  · exact .refl
  · obtain ⟨applied, run⟩ := rewarded.run
    exact applyTrustEventInTransaction_steps run (.plain rfl rfl)

/-- A booking is rewarded that qualifies, and of a pair that has not been rewarded recently. -/
theorem awardBookingCompletionTrust_ok {b : BookingId}
    (h : awardBookingCompletionTrust ctx b l = .ok l') :
    l' = l ∨ ∃ f l₁, ctx.booking b = some f ∧ f.rewardable ctx = true
      ∧ l.recentlyRewarded ctx b f.booking = false
      ∧ awardParticipant ctx b f.booking l (min f.booking.providerId f.booking.seekerId) = .ok l₁
      ∧ awardParticipant ctx b f.booking l₁ (max f.booking.providerId f.booking.seekerId) = .ok l' := by
  unfold awardBookingCompletionTrust at h
  split at h
  · obtain rfl := pure_ok.mp h
    exact .inl rfl
  rename_i f found
  simp only [ite_ok, pure_ok, List.foldlM_cons, List.foldlM_nil, bind_ok] at h
  obtain ⟨-, rfl⟩ | ⟨rewardable, ⟨-, rfl⟩ | ⟨unrewarded, l₁, first, l₂, second, rfl⟩⟩ := h
  · exact .inl rfl
  · exact .inl rfl
  · exact .inr ⟨f, l₁, found, by simpa using rewardable, by simpa using unrewarded, first, second⟩

theorem awardBookingCompletionTrust_steps {b : BookingId}
    (h : awardBookingCompletionTrust ctx b l = .ok l') : LedgerSteps l l' := by
  obtain rfl | ⟨f, l₁, -, -, -, first, second⟩ := awardBookingCompletionTrust_ok h
  · exact .refl
  · exact (awardParticipant_steps first).trans (awardParticipant_steps second)

theorem applyBookingTrustPenalty_applies {input : TrustPenalty} (penalty : input.category ≠ .completion)
    (h : applyBookingTrustPenalty ctx input l = .ok l') : Applies ctx.now l l' := by
  simp only [applyBookingTrustPenalty, check_bind_ok, orThrow_bind_ok, ite_ok, pure_ok] at h
  obtain ⟨-, f, -, -, -, -, ⟨-, rfl⟩ | ⟨-, h⟩⟩ := h
  · exact .nothing
  · simp only [bind_ok, pure_ok, Prod.exists] at h
    obtain ⟨after, applied, run, rfl⟩ := h
    exact .event ⟨fun _ => ⟨_, rfl, rfl⟩, by simp⟩ penalty run

theorem applyManualTrustAdjustment_applies {u admin : UserId} {i : Nat} {reason : String} {operation : Nat}
    (h : applyManualTrustAdjustment now u admin i reason operation l = .ok l') : Applies now l l' := by
  simp only [applyManualTrustAdjustment, check_bind_ok, orThrow_bind_ok, rejectIf_ok, not_or, not_not] at h
  obtain ⟨-, original, found, ⟨own, -, uncorrected, -⟩, -, h⟩ := h
  simp only [bind_ok, pure_ok, Prod.exists] at h
  obtain ⟨after, applied, run, rfl⟩ := h
  refine .event ⟨by simp [TrustCategory.isPenalty], fun j reverses => ?_⟩ (by simp) run
  obtain rfl := Option.some.inj reverses
  exact ⟨rfl, original, found, own, uncorrected, rfl⟩

end Transactions

/-- The events of an account, in the order in which their transactions committed. -/
def TrustLedger.eventsOf (l : TrustLedger) (u : UserId) : List TrustScoreEvent :=
  l.events.filter (·.userId == u)

/-- The events of an account lead from its baseline to its score. -/
structure TrustLedger.History (l : TrustLedger) (u : UserId) (score : Int) : Prop where
  baseline : ∃ now rest, l.eventsOf u = baselineEvent now u :: rest
  carries : Balance.Carries TrustScoreEvent.scoreBefore TrustScoreEvent.scoreAfter TrustScoreEvent.delta
    0 (l.eventsOf u) score

/-- The event is a correction of the event with number `i`: it takes back the delta that the event
    applied, within the bounds of the score. -/
structure TrustLedger.Corrects (l : TrustLedger) (i : Nat) (c : TrustScoreEvent) : Prop where
  original : ∃ e, l.events[i]? = some e ∧ e.userId = c.userId ∧ e.reversesEventId = none
    ∧ c.scoreAfter = clampScore (c.scoreBefore - e.delta)

structure TrustLedger.Consistent (l : TrustLedger) : Prop where
  history : ∀ u score, l.trustScore u = some score → l.History u score
  scores : ∀ u score, l.trustScore u = some score → 0 ≤ score ∧ score ≤ 100
  bounds : ∀ e ∈ l.events, (0 ≤ e.scoreBefore ∧ e.scoreBefore ≤ 100) ∧ 0 ≤ e.scoreAfter ∧ e.scoreAfter ≤ 100
  /-- An event key is applied at most once. -/
  keys : l.events.Pairwise fun e e' => e.eventKey ≠ e'.eventKey
  /-- A booking penalises a participant at most once. -/
  penalties : l.events.Pairwise fun e e' => ¬ (e.category.isPenalty = true ∧ e'.category.isPenalty = true
    ∧ e.bookingId = e'.bookingId ∧ e.userId = e'.userId)
  /-- An event has at most one correction. -/
  reversals : l.events.Pairwise fun e e' => e.reversesEventId.isSome = true →
    e.reversesEventId ≠ e'.reversesEventId
  corrections : ∀ c ∈ l.events, ∀ i, c.reversesEventId = some i → l.Corrects i c
  accounts : ∀ e ∈ l.events, (l.trustScore e.userId).isSome = true
  keyed : ∀ e ∈ l.events, e.category.isPenalty = true →
    ∃ b, e.bookingId = some b ∧ e.penaltyKey = some (b, e.userId)
  corrective : ∀ e ∈ l.events, e.reversesEventId.isSome = true → e.category = .correction

section Steps

variable {l l' : TrustLedger} {e : TrustScoreEvent} {u : UserId}

theorem eventsOf_record_self : (l.record e).eventsOf e.userId = l.eventsOf e.userId ++ [e] := by
  simp [TrustLedger.eventsOf, TrustLedger.record]

theorem eventsOf_record_other (other : e.userId ≠ u) : (l.record e).eventsOf u = l.eventsOf u := by
  simp [TrustLedger.eventsOf, TrustLedger.record, other]

theorem pairwise_append_one {α : Type} {R : α → α → Prop} {rows : List α} {r : α} (h : rows.Pairwise R)
    (last : ∀ x ∈ rows, R x r) : (rows ++ [r]).Pairwise R := by
  rw [List.pairwise_append]
  refine ⟨h, List.pairwise_singleton R r, fun x listed y only => ?_⟩
  obtain rfl := List.mem_singleton.mp only
  exact last x listed

theorem TrustLedger.Corrects.append {i : Nat} {c : TrustScoreEvent} (h : l.Corrects i c) :
    (l.record e).Corrects i c := by
  obtain ⟨o, found, rest⟩ := h.original
  refine ⟨o, ?_, rest⟩
  have listed := (List.getElem?_eq_some_iff.mp found).1
  simpa only [TrustLedger.record, List.getElem?_append_left listed] using found

/-- Appending an event preserves the ledger, whatever account it is for. -/
theorem TrustLedger.Consistent.record (h : l.Consistent) (fresh : Fresh l e)
    (own : (l.record e).History e.userId e.scoreAfter)
    (bounds : (0 ≤ e.scoreBefore ∧ e.scoreBefore ≤ 100) ∧ 0 ≤ e.scoreAfter ∧ e.scoreAfter ≤ 100)
    (keyed : e.category.isPenalty = true → ∃ b, e.bookingId = some b ∧ e.penaltyKey = some (b, e.userId))
    (corrects : ∀ i, e.reversesEventId = some i → e.category = .correction ∧ (l.record e).Corrects i e) :
    (l.record e).Consistent := by
  have member : ∀ x ∈ (l.record e).events, x ∈ l.events ∨ x = e := by simp [TrustLedger.record]
  refine ⟨?_, ?_, ?_, ?_, ?_, ?_, ?_, ?_, ?_, ?_⟩
  · intro u score known
    by_cases same : e.userId = u
    · subst same
      obtain rfl : e.scoreAfter = score := by simpa [TrustLedger.record] using known
      exact own
    · have before : l.trustScore u = some score := by
        simpa [TrustLedger.record, Function.update_of_ne (Ne.symm same)] using known
      have events : (l.record e).eventsOf u = l.eventsOf u := eventsOf_record_other same
      exact ⟨events ▸ (h.history u score before).baseline, events ▸ (h.history u score before).carries⟩
  · intro u score known
    by_cases same : e.userId = u
    · subst same
      obtain rfl : e.scoreAfter = score := by simpa [TrustLedger.record] using known
      exact bounds.2
    · refine h.scores u score ?_
      simpa [TrustLedger.record, Function.update_of_ne (Ne.symm same)] using known
  · intro x listed
    obtain old | rfl := member x listed
    · exact h.bounds x old
    · exact bounds
  · exact pairwise_append_one h.keys fresh.key
  · refine pairwise_append_one h.penalties fun x listed => ?_
    rintro ⟨penalty, penalty', booking, user⟩
    obtain ⟨b, of, key⟩ := h.keyed x listed penalty
    obtain ⟨b', of', key'⟩ := keyed penalty'
    obtain rfl : b = b' := Option.some.inj (of.symm.trans (booking.trans of'))
    exact fresh.penalty x listed (by simp [key]) (by rw [key, key', user])
  · exact pairwise_append_one h.reversals fresh.reversal
  · intro c listed i reverses
    obtain old | rfl := member c listed
    · exact (h.corrections c old i reverses).append
    · exact (corrects i reverses).2
  · intro x listed
    by_cases same : x.userId = e.userId
    · simp [TrustLedger.record, same]
    · obtain old | rfl := member x listed
      · simpa [TrustLedger.record, Function.update_of_ne same] using h.accounts x old
      · exact absurd rfl same
  · intro x listed
    obtain old | rfl := member x listed
    · exact h.keyed x old
    · exact keyed
  · intro x listed reverses
    obtain old | rfl := member x listed
    · exact h.corrective x old reverses
    · obtain ⟨i, original⟩ := Option.isSome_iff_exists.mp reverses
      exact (corrects i original).1

theorem TrustLedger.Consistent.step (h : l.Consistent) (step : LedgerStep l l') : l'.Consistent := by
  cases step with
  | @opened now u new fresh =>
      have empty : l.eventsOf u = [] := by
        refine List.filter_eq_nil_iff.mpr fun x listed owner => ?_
        have known := h.accounts x listed
        rw [beq_iff_eq.mp owner, new] at known
        cases known
      have events : (l.record (baselineEvent now u)).eventsOf u = [baselineEvent now u] := by
        have appended := eventsOf_record_self (l := l) (e := baselineEvent now u)
        rwa [show (baselineEvent now u).userId = u from rfl, empty] at appended
      refine h.record fresh ⟨⟨now, [], events⟩, ?_⟩ (by simp [baselineEvent]) (by simp [baselineEvent, TrustCategory.isPenalty])
        (by simp [baselineEvent])
      rw [show (baselineEvent now u).userId = u from rfl, events]
      exact ⟨rfl, rfl, rfl⟩
  | @applied now before input score fresh justified =>
      have known := h.history _ before score
      have adds : (input.event now before).scoreAfter
          = (input.event now before).scoreBefore + (input.event now before).delta := by
        simp only [TrustEventInput.event]
        omega
      refine h.record fresh ?_ ⟨h.scores _ before score, clampScore_bounds _⟩ justified.penalty ?_
      · refine ⟨?_, ?_⟩
        · obtain ⟨start, rest, first⟩ := known.baseline
          refine ⟨start, rest ++ [input.event now before], ?_⟩
          rw [eventsOf_record_self]
          exact congrArg (· ++ [input.event now before]) first
        · rw [eventsOf_record_self]
          exact known.carries.append rfl adds
      · intro i reverses
        obtain ⟨category, original, found, own, first, delta⟩ := justified.correction i reverses
        have listed := (List.getElem?_eq_some_iff.mp found).1
        refine ⟨category, original, ?_, own, first, ?_⟩
        · simpa only [TrustLedger.record, List.getElem?_append_left listed] using found
        · simp only [TrustEventInput.event, delta, Int.sub_eq_add_neg]

theorem TrustLedger.Consistent.steps (h : l.Consistent) (steps : LedgerSteps l l') : l'.Consistent := by
  induction steps with
  | refl => exact h
  | tail _ step ih => exact ih.step step

end Steps

/-- The case is an appeal of the account about an original event of its own. -/
def TrustLedger.Filed (l : TrustLedger) (c : TrustCase) : Prop :=
  ∃ e, l.events[c.trustEventId]? = some e ∧ e.userId = c.userId ∧ e.reversesEventId = none

section Runs

variable {l l' : TrustLedger} {ctx : TrustContext}

theorem LedgerSteps.events_prefix (h : LedgerSteps l l') : l.events <+: l'.events := by
  induction h with
  | refl => exact List.prefix_refl _
  | tail _ step ih => cases step <;> exact ih.trans (List.prefix_append _ _)

theorem LedgerSteps.cases_eq (h : LedgerSteps l l') : l'.cases = l.cases := by
  induction h with
  | refl => rfl
  | tail _ step ih => cases step <;> exact ih

theorem TrustLedger.Filed.later {c : TrustCase} (h : l.Filed c) (events : l.events <+: l'.events) :
    l'.Filed c := by
  obtain ⟨e, found, rest⟩ := h
  obtain ⟨more, same⟩ := events
  have listed := (List.getElem?_eq_some_iff.mp found).1
  refine ⟨e, ?_, rest⟩
  rw [← same, List.getElem?_append_left listed]
  exact found

theorem submitTrustCase_filed {u : UserId} {i : Nat} {description : String} (h : l.Consistent)
    (run : submitTrustCase u i description l = .ok l') :
    ∃ c, l.Filed c ∧ l' = { l with cases := l.cases ++ [c] } := by
  simp only [submitTrustCase, orThrow_bind_ok, check_bind_ok, rejectIf_ok, pure_ok, not_or, not_not,
    Bool.not_eq_false, Bool.not_eq_true] at run
  obtain ⟨event, found, ⟨own, -, penalty⟩, -, rfl⟩ := run
  refine ⟨_, ⟨event, found, own, ?_⟩, rfl⟩
  -- a correction is no penalty
  by_contra corrective
  rw [h.corrective event (List.mem_of_getElem? found) (Option.isSome_iff_ne_none.mpr corrective)] at penalty
  cases penalty

theorem decideTrustCase_applies {i : Nat} {admin : UserId} {uphold : Bool} {reason : String}
    (filed : ∀ c ∈ l.cases, l.Filed c) (h : decideTrustCase ctx i admin uphold reason l = .ok l') :
    ∃ after, Applies ctx.now l after ∧ l' = { after with
      cases := after.cases.modify i ({ · with upheld := some uphold, adminId := some admin }) } := by
  simp only [decideTrustCase, check_bind_ok, orThrow_bind_ok] at h
  obtain ⟨item, listed, -, -, original, found, -, h⟩ := h
  obtain ⟨e, found', own, uncorrected⟩ := filed item (List.mem_of_getElem? listed)
  obtain rfl := Option.some.inj (found.symm.trans found')
  simp only [bind_ok, ite_ok, pure_ok, Prod.exists] at h
  obtain ⟨-, corrected, applied, run, _, rfl, rfl⟩ | ⟨-, _, rfl, rfl⟩ := h
  · refine ⟨corrected, ?_, rfl⟩
    refine .event ⟨by simp [TrustCategory.isPenalty], fun j reverses => ?_⟩ (by simp) run
    obtain rfl := Option.some.inj reverses
    exact ⟨rfl, original, found, own, uncorrected, rfl⟩
  · exact ⟨l, .nothing, rfl⟩

/-- A transaction appends events one after the other, and files or decides an appeal. -/
theorem run_steps {a : TrustAction} (h : l.Consistent) (filed : ∀ c ∈ l.cases, l.Filed c)
    (run : l.run ctx a = .ok l') : ∃ after, LedgerSteps l after ∧ l' = { after with cases := l'.cases }
      ∧ ∀ c ∈ l'.cases, l.Filed c := by
  have unfiled : LedgerSteps l l' → ∃ after, LedgerSteps l after ∧ l' = { after with cases := l'.cases }
      ∧ ∀ c ∈ l'.cases, l.Filed c := fun steps => ⟨l', steps, rfl, steps.cases_eq ▸ filed⟩
  cases a with
  | createAccount =>
      obtain ⟨new, fresh, rfl⟩ := createAccount_ok run
      exact unfiled (.single (.opened new fresh))
  | approveVerification => exact unfiled (approveVerificationTrust_applies run).steps
  | applyTrustEvent => exact unfiled (applyTrustEvent_applies run).steps
  | awardCompletion => exact unfiled (awardBookingCompletionTrust_steps run)
  | penalizeReport => exact unfiled (applyBookingTrustPenalty_applies (by simp) run).steps
  | penalizeCancellation => exact unfiled (applyBookingTrustPenalty_applies (by simp) run).steps
  | adjust => exact unfiled (applyManualTrustAdjustment_applies run).steps
  | submitCase =>
      obtain ⟨c, new, rfl⟩ := submitTrustCase_filed h run
      refine ⟨l, .refl, rfl, fun d listed => ?_⟩
      rcases List.mem_append.mp listed with old | last
      · exact filed d old
      · exact List.mem_singleton.mp last ▸ new
  | decideCase i =>
      obtain ⟨after, applies, rfl⟩ := decideTrustCase_applies filed run
      have steps := applies.steps
      refine ⟨after, steps, rfl, fun d listed => ?_⟩
      obtain ⟨k, bound, rfl⟩ := List.mem_iff_getElem.mp listed
      simp only [List.getElem_modify, steps.cases_eq]
      have known : ∀ (k : Nat) (bound : k < l.cases.length), l.Filed l.cases[k] := fun k bound =>
        filed _ (List.getElem_mem bound)
      split
      · exact known k _
      · exact known k _

theorem TrustLedger.Consistent.with_cases (h : l.Consistent) (cases : List TrustCase) :
    ({ l with cases } : TrustLedger).Consistent where
  history u score known := ⟨(h.history u score known).baseline, (h.history u score known).carries⟩
  scores := h.scores
  bounds := h.bounds
  keys := h.keys
  penalties := h.penalties
  reversals := h.reversals
  corrections c listed i reverses := ⟨(h.corrections c listed i reverses).original⟩
  accounts := h.accounts
  keyed := h.keyed
  corrective := h.corrective

theorem ledger_consistent_filed (h : trustMachine.Reachable l) :
    l.Consistent ∧ ∀ c ∈ l.cases, l.Filed c := by
  refine h.invariant (I := fun l => l.Consistent ∧ ∀ c ∈ l.cases, l.Filed c) ?_ ?_
  · rintro l ⟨scores, events, cases⟩
    refine ⟨⟨?_, ?_, ?_, ?_, ?_, ?_, ?_, ?_, ?_, ?_⟩, by simp [cases]⟩
    all_goals simp [scores, events]
  · rintro l ⟨ctx, a⟩ l' ⟨consistent, filed⟩ next
    obtain ⟨after, steps, written, filed'⟩ := run_steps consistent filed (toOption_some.mp next)
    have kept : ({ after with cases := l'.cases } : TrustLedger).Consistent :=
      (consistent.steps steps).with_cases l'.cases
    rw [← written] at kept
    have events : l.events <+: l'.events := by
      rw [written]
      exact steps.events_prefix
    exact ⟨kept, fun c listed => (filed' c listed).later events⟩

/-- The scores, events and corrections of every account agree in every reachable state. -/
theorem trust_ledger_consistent (h : trustMachine.Reachable l) : l.Consistent :=
  (ledger_consistent_filed h).1

end Runs

/-- A started booking of seeker 1 with provider 2. -/
def sampleTrustContext : TrustContext where
  now := 1000
  user := fun _ => some {}
  booking := fun _ => some { booking := {
    seekerId := 1, providerId := 2, serviceId := none, offerId := none, paymentAttemptId := none
    paymentMethod := .onsiteCash, agreedAmount := some 50000, estimatedDurationMins := none
    paymentStatus := .unpaid, status := .canceled, started := true } }

/-- Provider 2 is verified and penalised, and his appeal is upheld; the penalty is retried. -/
def sampleTrustRun : List TrustAction :=
  [.createAccount 1, .createAccount 2, .approveVerification 2 9,
    .penalizeCancellation 0 0 true 2 9 "left the site", .submitCase 2 3 "the seeker locked the site",
    .decideCase 0 8 true "confirmed by the seeker", .penalizeCancellation 0 0 true 2 9 "left the site"]

theorem trust_ledger_consistent_appealed : ∃ l,
    trustMachine.exec { trustScore := fun _ => none } (sampleTrustRun.map fun a => (sampleTrustContext, a))
      = some l
    ∧ l.trustScore 2 = some 55 ∧ (l.eventsOf 2).map (·.delta) = [50, 5, -5, 5] ∧ l.Consistent := by
  obtain ⟨l, run, score, deltas⟩ := sample_any
    (o := trustMachine.exec { trustScore := fun _ => none }
      (sampleTrustRun.map fun a => (sampleTrustContext, a)))
    (p := fun l => l.trustScore 2 = some 55 ∧ (l.eventsOf 2).map (·.delta) = [50, 5, -5, 5]) (by decide)
  exact ⟨l, run, score, deltas, trust_ledger_consistent (.of_exec ⟨fun _ => rfl, rfl, rfl⟩ run)⟩

end ServiceHub
