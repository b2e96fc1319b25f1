import ServiceHub.Booking.RequestStatus
import ServiceHub.Booking.Reservations

/-! # What each transaction does to the reserved decisions

A transaction opens a case only while no decision is reserved, a reservation requires that no other case is open, and
a decision that leaves the booking as it is closes a case only when no other one is reserved.
-/

namespace ServiceHub

open Guard

section Requests

variable {ctx : Context} {f f' : BookingFile} {c : Commit} {ref : CaseRef} {o op : AdminResolutionOperation}
  {l : Lifecycle} {who : Option Caller} {caller : Caller}

/-- A booking that has not ended had not ended before. -/
theorem Refines.live (e : Encodes f l) (h : Refines l f') (live : f'.booking.status.terminal = false) :
    f.booking.status.terminal = false := by
  rw [e.terminal]
  cases terminal : l.terminal with
  | false => rfl
  | true =>
      rw [(h.terminal terminal).terminal, terminal] at live
      cases live

theorem requestTransaction_frozen {r : Request} (h : requestTransaction ctx r f = .ok c)
    (live : c.file.booking.status.terminal = false) (frozen : f.booking.status.frozen = true) :
    c.file.booking.status.frozen = true := by
  cases requestTransaction_status h with
  | kept same =>
      rw [same.1]
      exact frozen
  | advanced before =>
      obtain status | status | status | status := before <;> rw [status] at frozen <;> cases frozen
  | held _ after => exact after
  | settled run =>
      obtain ⟨-, -, ⟨-, rfl⟩ | ⟨-, -, -, -, _, -, rfl⟩⟩ := settleCompletedBooking_ok run
      · exact frozen
      · cases live

/-- The row of the decision is reserved, and its case is the only open one. -/
theorem Reservations.reserve (h : Reservations f) (reports : f'.reports = f.reports)
    (cancellations : f'.cancellationRequests = f.cancellationRequests)
    (escalations : f'.completionEscalations = f.completionEscalations)
    (lookup : ∀ r, f'.findOperation r = if r = ref then some op else f.findOperation r)
    (decided : f.decision ref = some op.requestedOutcome) (financial : op.requestedOutcome.reaches ≠ none)
    (running : ¬ op.finished) (stage : op.stage = .financialEffectReserved)
    (frozen : f.booking.status.frozen = true → f'.booking.status.frozen = true)
    (exclusive : f'.Exclusive ref) : Reservations f' := by
  have decision : ∀ r, f'.decision r = f.decision r := by
    intro r
    by_cases own : r = ref
    · rw [own, decided, BookingFile.decision, lookup, if_pos rfl, Option.map_some]
    · rw [BookingFile.decision, BookingFile.decision, lookup, if_neg own]
  have other : ∀ r, r ≠ ref → f'.reserves r = f.reserves r := by
    intro r other
    rw [BookingFile.reserves, BookingFile.reserves, lookup, if_neg other]
  constructor
  · rw [reports]
    exact fun r listed active type => frozen (h.held r listed active type)
  · intro id found
    rw [decision] at found
    obtain ⟨r, listed, same⟩ := h.reported id found
    exact ⟨r, reports ▸ listed, same⟩
  · intro id outcome found
    rw [decision] at found
    exact h.cancels id outcome found
  · intro r o found financial
    rw [lookup] at found
    split at found
    · obtain rfl := Option.some.inj found
      exact ⟨running, by simp [stage]⟩
    · exact h.running r o found financial
  · intro r reserved
    rw [decision]
    by_cases own : r = ref
    · rw [own]
      exact ⟨_, decided, financial⟩
    · rw [other r own] at reserved
      exact h.financial r reserved
  · intro r reserved
    by_cases own : r = ref
    · rw [own]
      exact exclusive
    · rw [other r own] at reserved
      have before : CasesBefore f f' := by
        refine ⟨fun r listed active => ⟨r, reports ▸ listed, rfl, active, rfl⟩,
          fun q listed active => ⟨q, cancellations ▸ listed, rfl, active⟩,
          fun e listed active => ⟨e, escalations ▸ listed, rfl, active⟩⟩
      have known := h.exclusive r reserved
      exact known.kept before ((ReviewsStay.of_eq reports cancellations escalations).underReview known.own)
        fun held => .inr (frozen held)

theorem claimAdminBooking_reservations {adminId : UserId} {outcome : AdminBookingOutcome} {banned : Bool}
    (h : claimAdminBooking ctx adminId outcome banned f = .ok c) (live : f.booking.status.terminal = false)
    (unique : (f.operations.map (·.caseRef)).Nodup) (ids : CasesNumbered f) (holds : Reservations f) :
    Reservations c.file := by
  obtain rfl | ⟨claimed, op, claim, written⟩ := claimAdminBooking_ok h
  · exact holds
  have begun : Reservations claimed := by
    have fits : f.Fits .adminBooking outcome.requested := ⟨by simp, by simp⟩
    have decisions := DecisionsOpen.claimed claim live fits
    have forward := claim.forward
    have cases_ : CasesWrite none f claimed := claim.written.cases
    obtain ⟨ops, rfl⟩ := claim.written.rows
    exact holds.kept forward unique ids cases_ rfl decisions (fun _ _ exclusive => exclusive.own) .inl
      fun _ _ _ frozen => .inr frozen
  obtain ⟨-, rfl⟩ | ⟨-, rfl⟩ | ⟨-, -, -, -, rfl⟩ | ⟨-, -, only, -, reserved, op', marked, rfl, rfl⟩ := written
  · exact begun
  · exact begun
  · exact begun
  obtain ⟨o, found, -, written, -⟩ := markAdminResolutionStageInTransaction_ok (by decide) marked
  have lookup := written.lookup
  have running : ¬ op.finished := by
    have here : claimed.findOperation .adminBooking = some op := claim.found
    exact (begun.running _ op here (by rw [claim.outcome_eq]; cases outcome <;> simp [AdminBookingOutcome.requested,
      RequestedOutcome.reaches])).1
  have decided : claimed.decision .adminBooking = some op.requestedOutcome := by
    simp [BookingFile.decision, claim.found]
  obtain ⟨ops, rfl⟩ := written.rows
  refine begun.reserve rfl rfl rfl lookup decided ?_ ?_ rfl (fun _ => rfl) ⟨trivial, ?_, ?_, ?_, .inr rfl⟩
  · rw [claim.outcome_eq]
    cases outcome <;> simp [AdminBookingOutcome.requested, RequestedOutcome.reaches]
  · simp only [AdminResolutionOperation.finished, not_or] at running ⊢
    simp
  · intro r listed active
    cases only.reports r listed active
  · intro q listed active
    cases only.cancellations q listed active
  · intro e listed active
    cases only.escalations e listed active

theorem requestTransaction_reservations {r : Request} (h : requestTransaction ctx r f = .ok c)
    (e : Encodes f l) (ids : CasesNumbered f) (unique : (f.operations.map (·.caseRef)).Nodup)
    (live' : c.file.booking.status.terminal = false) (holds : Reservations f) : Reservations c.file := by
  have live := (requestTransaction_refines e h).live e live'
  have cases_ : CasesWrite none f c.file := requestTransaction_cases ids h
  have kept : c.file.nextId = f.nextId → DecisionsOpen f c.file → ReviewsStay f c.file → Reservations c.file :=
    fun same decisions stay => holds.kept (requestTransaction_forward h) unique ids cases_ same decisions
      (fun ref _ exclusive => stay.underReview exclusive.own) (fun frozen => .inl (requestTransaction_frozen h live' frozen))
      fun _ _ _ frozen => .inr (requestTransaction_frozen h live' frozen)
  cases r with
  | respondToDirectBooking =>
      obtain ⟨-, _, rfl | rfl⟩ := respondToDirectBookingService_ok h <;>
        exact kept rfl (.of_eq rfl) (.of_eq rfl rfl rfl)
  | providerStartJob =>
      obtain ⟨-, ⟨-, -, -, rfl⟩ | ⟨_, -, -, -, -, -, -, rfl⟩⟩ := providerStartJob_ok h <;>
        exact kept rfl (.of_eq rfl) (.of_eq rfl rfl rfl)
  | markJobComplete =>
      obtain rfl | ⟨-, rfl⟩ := markJobComplete_ok h <;> exact kept rfl (.of_eq rfl) (.of_eq rfl rfl rfl)
  | confirmCompletion =>
      obtain ⟨-, -, ⟨-, rfl⟩ | ⟨-, -, -, -, _, -, rfl⟩⟩ := settleCompletedBooking_ok h
      · exact holds
      · cases live'
  | disputeJob =>
      obtain ⟨-, free, _, _, -, -, -, -, rfl⟩ := disputeJobService_ok h
      exact holds.opened free rfl cases_ fun _ _ _ _ => rfl
  | createSafetyReport =>
      obtain ⟨eligible, free, rfl | ⟨_, -, -, -, ⟨stay, rfl⟩ | ⟨-, rfl⟩⟩⟩ := createSafetyReport_ok h
      · exact holds
      · refine holds.opened free rfl cases_ fun _ _ _ _ => ?_
        cases status : f.booking.status <;> simp_all [BookingStatus.eligibleForSafetyReport, BookingStatus.pausable,
          BookingStatus.terminal, BookingStatus.frozen]
      · exact holds.opened free rfl cases_ fun _ _ _ _ => rfl
  | createCompletionEscalation =>
      obtain ⟨-, -, free, rfl | ⟨-, rfl⟩⟩ := createCompletionEscalation_ok h
      · exact holds
      · exact holds.opened free rfl cases_ holds.held
  | startModerationReview =>
      obtain ⟨_, _, _, rfl, same | ⟨id, rfl, pending, rfl, rfl⟩ | ⟨id, rfl, pending, rfl, rfl⟩⟩ :=
        startModerationReview_ok h
      · rw [same]
        exact holds
      · exact kept rfl (.of_eq rfl) ⟨Rows.stays_of_update (fun _ => rfl) fun _ _ _ _ => rfl,
          Rows.stays_of_update (fun _ => rfl) fun _ _ _ _ => rfl, Rows.stays_of_eq rfl⟩
      · exact kept rfl (.of_eq rfl) ⟨Rows.stays_of_eq rfl, Rows.stays_of_eq rfl,
          Rows.stays_of_update (fun _ => rfl) fun _ _ _ _ => rfl⟩
  | requestCancellation =>
      obtain ⟨-, ⟨_, -, -, -, rfl⟩ | rfl | ⟨-, -, -, free, _, -, -, -, ⟨-, -, -, rfl⟩ | ⟨-, -, -, rfl⟩⟩⟩ :=
        requestCancellation_ok h
      · exact holds
      · exact holds
      · exact holds.opened free rfl cases_ fun _ _ _ _ => rfl
      · exact holds.opened free rfl cases_ holds.held
  | declineCancellation =>
      obtain ⟨⟨q, found, pending⟩, rfl⟩ := declineCancellationRequest_ok h
      refine kept rfl (.of_eq rfl) ⟨Rows.stays_of_eq rfl, ?_, Rows.stays_of_eq rfl⟩
      refine Rows.stays_of_update (fun _ => rfl) fun r listed own review => ?_
      obtain rfl := ids.cancellation found listed (by simpa using own)
      simp [pending] at review
  | approveCancellation id =>
      obtain rfl | ⟨request, claimed, op, -, -, -, claim, written⟩ := approveCancellationRequest_ok h
      · exact holds
      have fits : f.Fits (.cancellation id) .participantApprove := ⟨by simp, by simp [RequestedOutcome.reaches]⟩
      have decisions := DecisionsOpen.claimed claim live fits
      obtain ⟨ops, rfl⟩ := claim.written.rows
      obtain ⟨-, rfl⟩ | ⟨-, rfl⟩ := written
      · exact kept rfl decisions (.of_eq rfl rfl rfl)
      · exact kept rfl (decisions.then_eq rfl) ⟨Rows.stays_of_eq rfl,
          Rows.stays_of_update (fun _ => rfl) fun _ _ _ _ => rfl, Rows.stays_of_eq rfl⟩
  | escalateCancellation =>
      obtain rfl | ⟨free, -, report, -, -, type, rfl⟩ := escalateCancellationRequest_ok h
      · exact holds
      · refine holds.opened free rfl cases_ fun r listed active other => ?_
        obtain old | rfl : r ∈ f.reports ∨ r = report := by simpa using listed
        · exact holds.held r old active other
        · exact absurd type other
  | adminResolveCancellation id approve =>
      obtain rfl | ⟨request, claimed, op, -, -, claim, written⟩ := claimAdminCancellation_ok h
      · exact holds
      have fits : f.Fits (.cancellation id) (if approve then .adminApprove else .adminDeny) :=
        ⟨by simp, fun _ _ => by cases approve <;> simp [RequestedOutcome.reaches]⟩
      have decisions := DecisionsOpen.claimed claim live fits
      obtain ⟨ops, rfl⟩ := claim.written.rows
      obtain ⟨-, rfl⟩ | ⟨-, _, -, -, rfl⟩ := written
      · exact kept rfl decisions (.of_eq rfl rfl rfl)
      · exact kept rfl (decisions.then_eq rfl) ⟨Rows.stays_of_update (fun _ => rfl) fun _ _ _ _ => rfl,
          Rows.stays_of_update (fun _ => rfl) fun _ _ _ _ => rfl, Rows.stays_of_eq rfl⟩
  | resolveAdminReport id _ outcome =>
      obtain rfl | ⟨report, claimed, op, found, -, other, claim, written⟩ := claimReport_ok h
      · exact holds
      obtain ⟨listed, rfl⟩ := BookingFile.findReport_id found
      have fits : f.Fits (.report report.id) outcome.requested :=
        ⟨fun id same => by cases same; exact ⟨report, listed, rfl, other⟩, by simp⟩
      have decisions := DecisionsOpen.claimed claim live fits
      obtain ⟨ops, rfl⟩ := claim.written.rows
      obtain ⟨-, rfl⟩ | ⟨-, rfl⟩ := written
      · exact kept rfl decisions (.of_eq rfl rfl rfl)
      · exact kept rfl (decisions.then_eq rfl) ⟨Rows.stays_of_update (fun _ => rfl) fun _ _ _ _ => rfl,
          Rows.stays_of_eq rfl, Rows.stays_of_eq rfl⟩
  | resolveCompletionEscalation id _ action =>
      obtain rfl | ⟨escalation, claimed, op, -, -, claim, written⟩ := claimEscalation_ok h
      · exact holds
      have fits : f.Fits (.completionEscalation id) action.requested := ⟨by simp, by simp⟩
      have decisions := DecisionsOpen.claimed claim live fits
      obtain ⟨ops, rfl⟩ := claim.written.rows
      obtain ⟨-, rfl⟩ | ⟨-, rfl⟩ := written
      · exact kept rfl decisions (.of_eq rfl rfl rfl)
      · exact kept rfl (decisions.then_eq rfl) ⟨Rows.stays_of_eq rfl, Rows.stays_of_eq rfl,
          Rows.stays_of_update (fun _ => rfl) fun _ _ _ _ => rfl⟩
  | resolveAdminBooking => exact claimAdminBooking_reservations h live unique ids holds

end Requests

section Calls

variable {ctx : Context} {f f' : BookingFile} {c : Commit} {ref : CaseRef} {op : AdminResolutionOperation}
  {l : Lifecycle} {caller : Caller} {outcome : RequestedOutcome}

theorem Caller.cancels_reaches (cancels : caller.cancels = true) (h : caller.fixes = some (ref, outcome)) :
    outcome.reaches = some .canceled := by
  cases caller with
  | resolveAdminReport _ _ o _ | resolveCompletionEscalation _ _ o | resolveAdminBooking _ o =>
      cases o <;> simp [Caller.cancels] at cancels
      obtain ⟨-, rfl⟩ : _ ∧ _ := by simpa [Caller.fixes] using h
      rfl
  | adminResolveCancellationRequest _ approve =>
      obtain rfl : approve = true := cancels
      obtain ⟨-, rfl⟩ : _ ∧ _ := by simpa [Caller.fixes] using h
      rfl
  | respondToCancellationRequest =>
      obtain ⟨-, rfl⟩ : _ ∧ _ := by simpa [Caller.fixes] using h
      rfl
  | refundBookingPayment | requestCancellation => cases h

theorem Caller.releases_reaches (releases : caller.releases = true) (h : caller.fixes = some (ref, outcome)) :
    outcome.reaches = some .completed := by
  cases caller with
  | resolveAdminReport _ _ o _ | resolveCompletionEscalation _ _ o | resolveAdminBooking _ o =>
      cases o <;> simp [Caller.releases] at releases
      obtain ⟨-, rfl⟩ : _ ∧ _ := by simpa [Caller.fixes] using h
      rfl
  | _ => cases releases

/-- The reservation of a decision that its call carries out. -/
theorem Reservations.reserved (h : Reservations f) {held : BookingFile} (reports : held.reports = f.reports)
    (cancellations : held.cancellationRequests = f.cancellationRequests)
    (escalations : held.completionEscalations = f.completionEscalations) (operations : held.operations = f.operations)
    (frozen : f.booking.status.frozen = true → held.booking.status.frozen = true)
    (marked : markAdminResolutionStageInTransaction held ref .financialEffectReserved = .ok (f', op))
    (decided : f.decision ref = some outcome) (financial : outcome.reaches ≠ none) (exclusive : held.Exclusive ref) :
    Reservations f' ∧ f'.reserves ref = true := by
  have lookup : ∀ r, held.findOperation r = f.findOperation r := fun r => by
    rw [BookingFile.findOperation, BookingFile.findOperation, operations]
  obtain ⟨o, found, -, written, stays⟩ := markAdminResolutionStageInTransaction_ok (by decide) marked
  rw [lookup] at found
  obtain rfl : o.requestedOutcome = outcome := by simpa [BookingFile.decision, found] using decided
  obtain ⟨running, unestablished⟩ := h.running ref o found financial
  obtain ⟨-, -, finished | further⟩ | ⟨-, -, rfl⟩ := stays
  · exact absurd finished running
  · simp only [AdminResolutionOperation.finished, not_or] at running
    cases stage : o.stage <;> simp_all [OperationStage.rank]
  have written_lookup := written.lookup
  simp only [lookup] at written_lookup
  have reserves : f'.reserves ref = true := by
    simp [BookingFile.reserves, written.found, AdminResolutionOperation.reserved, AdminResolutionOperation.retryable]
  obtain ⟨ops, rfl⟩ := written.rows
  refine ⟨h.reserve reports cancellations escalations written_lookup decided financial ?_ rfl frozen ?_, reserves⟩
  · simp [AdminResolutionOperation.finished]
  · exact ⟨exclusive.own, exclusive.reports, exclusive.cancellations, exclusive.escalations, exclusive.held⟩

theorem reserveOutcome_reservations (h : reserveOutcome caller f = .ok c) (ids : CasesNumbered f)
    (route : caller.cancels = true ∨ caller.releases = true)
    (decided : ∀ ref outcome, caller.fixes = some (ref, outcome) → f.decision ref = some outcome)
    (holds : Reservations f) : Reservations c.file
      ∧ ∀ ref outcome, caller.fixes = some (ref, outcome) → c.file.reserves ref = true := by
  have financial : ∀ ref outcome, caller.fixes = some (ref, outcome) → outcome.reaches ≠ none := by
    intro ref outcome fixes
    obtain cancels | releases := route
    · simp [Caller.cancels_reaches cancels fixes]
    · simp [Caller.releases_reaches releases fixes]
  -- a decision at its end would have ended the booking
  have unended : ∀ ref outcome o, caller.fixes = some (ref, outcome) → f.findOperation ref = some o →
      ¬ (o.status = .completed ∨ o.hasEstablishedFinancialEffect = true) := by
    intro ref outcome o fixes found ended
    obtain rfl : o.requestedOutcome = outcome := by
      simpa [BookingFile.decision, found] using decided ref outcome fixes
    obtain ⟨running, unestablished⟩ := holds.running ref o found (financial _ _ fixes)
    simp only [AdminResolutionOperation.finished, not_or] at running
    simp_all [AdminResolutionOperation.hasEstablishedFinancialEffect]
  cases caller with
  | refundBookingPayment | requestCancellation | resolveAdminBooking => simp [reserveOutcome] at h
  | respondToCancellationRequest id | adminResolveCancellationRequest id =>
      obtain ⟨q, o, found, review, operation, ⟨ended, rfl⟩ | ⟨_, _, only, marked, rfl⟩⟩ :=
        reserveCancellationFinancialOutcome_ok h
      · exact absurd ended (unended _ _ o rfl operation)
      obtain ⟨listed, own⟩ := BookingFile.findCancellation_id found
      have known := holds.reserved rfl rfl rfl rfl (fun frozen => frozen) marked (decided _ _ rfl) (financial _ _ rfl)
        ⟨⟨q, listed, own, review⟩, fun _ _ _ => .inr ⟨id, rfl⟩,
          fun q listed active => congrArg _ (Option.some.inj (only.cancellations q listed active)),
          fun e listed active => (by cases only.escalations e listed active), .inl ⟨id, rfl⟩⟩
      refine ⟨known.1, fun ref outcome fixes => ?_⟩
      obtain ⟨rfl, -⟩ : _ ∧ _ := by simpa [Caller.fixes] using fixes
      exact known.2
  | resolveAdminReport id =>
      obtain ⟨r, o, found, review, operation, ⟨ended, rfl⟩ | ⟨_, _, only, marked, rfl⟩⟩ :=
        reserveReportFinancialOutcome_ok h
      · exact absurd ended (unended _ _ o rfl operation)
      obtain ⟨listed, own⟩ := BookingFile.findReport_id found
      have frozen : f.booking.status.frozen = true := by
        obtain ⟨r', listed', same, other⟩ := holds.reported id (by rw [decided _ _ rfl]; simp)
        obtain rfl := ids.report found listed' same
        exact holds.held r' listed (by rw [review]; rfl) other
      have known := holds.reserved rfl rfl rfl rfl (fun frozen => frozen) marked (decided _ _ rfl) (financial _ _ rfl)
        ⟨⟨r, listed, own, review⟩,
          fun r listed active => .inl (congrArg _ (Option.some.inj (only.reports r listed active))),
          fun q listed active => (by cases only.cancellations q listed active),
          fun e listed active => (by cases only.escalations e listed active), .inr frozen⟩
      refine ⟨known.1, fun ref outcome fixes => ?_⟩
      obtain ⟨rfl, -⟩ : _ ∧ _ := by simpa [Caller.fixes] using fixes
      exact known.2
  | resolveCompletionEscalation id =>
      obtain ⟨x, o, found, review, operation, ⟨ended, rfl⟩ | ⟨held, _, _, only, hold, marked, rfl⟩⟩ :=
        reserveCompletionFinancialOutcome_ok h
      · exact absurd (.inr ended) (unended _ _ o rfl operation)
      obtain ⟨listed, own⟩ := BookingFile.findEscalation_id found
      obtain ⟨reports, cancellations, escalations, operations, frozen⟩ : held.reports = f.reports
          ∧ held.cancellationRequests = f.cancellationRequests ∧ held.completionEscalations = f.completionEscalations
          ∧ held.operations = f.operations ∧ held.booking.status.frozen = true := by
        obtain ⟨status, -, rfl⟩ | ⟨-, rfl⟩ := hold
        · exact ⟨rfl, rfl, rfl, rfl, by rw [status]; rfl⟩
        · exact ⟨rfl, rfl, rfl, rfl, rfl⟩
      have known := holds.reserved reports cancellations escalations operations (fun _ => frozen) marked
        (decided _ _ rfl) (financial _ _ rfl)
        ⟨⟨x, escalations ▸ listed, own, review⟩,
          fun r listed active => (by cases only.reports r (reports ▸ listed) active),
          fun q listed active => (by cases only.cancellations q (cancellations ▸ listed) active),
          fun e listed active => congrArg _ (Option.some.inj (only.escalations e (escalations ▸ listed) active)),
          .inr frozen⟩
      refine ⟨known.1, fun ref outcome fixes => ?_⟩
      obtain ⟨rfl, -⟩ : _ ∧ _ := by simpa [Caller.fixes] using fixes
      exact known.2

end Calls

section Transactions

variable {ctx : Context} {f f' : BookingFile} {c : Commit} {l : Lifecycle} {caller : Caller} {call : Call}

theorem Reservations.frame (h : Reservations f) (reports : f'.reports = f.reports)
    (cancellations : f'.cancellationRequests = f.cancellationRequests)
    (escalations : f'.completionEscalations = f.completionEscalations) (operations : f'.operations = f.operations)
    (status : f'.booking.status = f.booking.status) : Reservations f' := by
  have lookup : ∀ ref, f'.findOperation ref = f.findOperation ref := fun ref => by
    rw [BookingFile.findOperation, BookingFile.findOperation, operations]
  have before : CasesBefore f f' := by
    refine ⟨fun r listed active => ⟨r, reports ▸ listed, rfl, active, rfl⟩,
      fun q listed active => ⟨q, cancellations ▸ listed, rfl, active⟩,
      fun e listed active => ⟨e, escalations ▸ listed, rfl, active⟩⟩
  refine ⟨?_, fun id decided => ?_, fun id outcome found => ?_, fun ref o found => ?_, fun ref reserved => ?_,
    fun ref reserved => ?_⟩
  · rw [reports, status]
    exact h.held
  · rw [BookingFile.decision, lookup] at decided
    obtain ⟨r, listed, same⟩ := h.reported id decided
    exact ⟨r, reports ▸ listed, same⟩
  · rw [BookingFile.decision, lookup] at found
    exact h.cancels id outcome found
  · rw [lookup] at found
    exact h.running ref o found
  · rw [BookingFile.reserves, lookup] at reserved
    rw [BookingFile.decision, lookup]
    exact h.financial ref reserved
  · rw [BookingFile.reserves, lookup] at reserved
    have known := h.exclusive ref reserved
    exact known.kept before ((ReviewsStay.of_eq reports cancellations escalations).underReview known.own)
      fun frozen => .inr (by rw [status]; exact frozen)

/-- A decision that does not end the booking closes its case. -/
theorem finalizeCase_reservations (h : finalizeCase ctx caller f = .ok c) (ids : CasesNumbered f)
    (unique : (f.operations.map (·.caseRef)).Nodup) (live : f.booking.status.terminal = false)
    (decided : ∀ ref outcome, caller.fixes = some (ref, outcome) → f.decision ref = some outcome)
    (unfinancial : ∀ ref outcome, caller.fixes = some (ref, outcome) → outcome.reaches = none)
    (holds : Reservations f) : Reservations c.file := by
  have forward := finalizeCase_forward h
  have cases_ : CasesWrite (some caller) f c.file := finalizeCase_cases ids h
  -- the decision is not reserved
  have idle : ∀ ref outcome, caller.fixes = some (ref, outcome) → f.reserves ref ≠ true := by
    intro ref outcome fixes reserved
    obtain ⟨outcome', found, reaches⟩ := holds.financial ref reserved
    rw [decided ref outcome fixes, Option.some.injEq] at found
    exact reaches (found ▸ unfinancial ref outcome fixes)
  cases caller with
  | refundBookingPayment => simp [finalizeCase] at h
  | requestCancellation =>
      obtain ⟨canceled, -⟩ := finalizeImmediateCancellation_ok h
      rw [canceled] at live
      cases live
  | respondToCancellationRequest => cases unfinancial _ _ rfl
  | resolveAdminBooking _ outcome =>
      have financial := unfinancial _ _ rfl
      cases outcome <;> cases financial
  | adminResolveCancellationRequest id approve =>
      obtain rfl | ⟨reportId, closed, restored, rfl, ⟨rfl, -⟩ | ⟨rfl, back⟩, ⟨request, found, review, -⟩, rfl⟩ :=
        finalizeAdminCancellation_ok h
      · exact holds
      · cases unfinancial _ _ rfl
      obtain ⟨listed, own⟩ := BookingFile.findCancellation_id found
      have free : ∀ ref, f.reserves ref = true → ¬ f.Exclusive ref := by
        intro ref reserved exclusive
        obtain rfl := exclusive.cancellations request listed (by rw [review]; rfl)
        exact idle _ _ rfl (own ▸ reserved)
      have operations := restoreBookingIfNoBlockingCases_operations back
      have next : restored.nextId = f.nextId := (restoreBookingIfNoBlockingCases_cases back).2.2.2
      refine holds.kept forward unique ids cases_ next ((DecisionsOpen.completed (decided _ _ rfl)
        (unfinancial _ _ rfl)).then_eq ?_) (fun ref reserved exclusive => absurd exclusive (free ref reserved))
        (fun frozen => ?_) fun ref reserved exclusive => absurd exclusive (free ref reserved)
      · simp only [completeOperation, BookingFile.updateOperation, operations]
        rfl
      · obtain ⟨rfl, -⟩ | ⟨_, unblocked, -, -, rfl⟩ := restoreBookingIfNoBlockingCases_ok back
        · exact .inl frozen
        · exact .inr unblocked.reports
  | resolveAdminReport id _ outcome =>
      obtain rfl | ⟨report, closed, restored, _, found, review, -, rfl, outcomes, rfl⟩ := finalizeReport_ok h
      · exact holds
      obtain ⟨rfl, -⟩ | ⟨rfl, -⟩ | ⟨-, back⟩ := outcomes
      · cases unfinancial _ _ rfl
      · cases unfinancial _ _ rfl
      obtain ⟨listed, rfl⟩ := BookingFile.findReport_id found
      have linked : ∀ ref, f.reserves ref = true → f.Exclusive ref → ∃ id, ref = .cancellation id := by
        intro ref reserved exclusive
        obtain rfl | linked := exclusive.reports report listed (by rw [review]; rfl)
        · exact absurd reserved (idle _ _ rfl)
        · exact linked
      have operations := restoreBookingIfNoBlockingCases_operations back
      obtain ⟨-, cancellations, -, next⟩ := restoreBookingIfNoBlockingCases_cases back
      refine holds.kept forward unique ids cases_ next ((DecisionsOpen.completed (decided _ _ rfl)
        (unfinancial _ _ rfl)).then_eq ?_) (fun ref reserved exclusive => ?_) (fun frozen => ?_)
        fun ref reserved exclusive _ => .inl (linked ref reserved exclusive)
      · simp only [completeOperation, BookingFile.updateOperation, operations]
        rfl
      · obtain ⟨id, rfl⟩ := linked ref reserved exclusive
        obtain ⟨q, member, own⟩ := exclusive.own
        exact ⟨q, cancellations ▸ member, own⟩
      · obtain ⟨rfl, -⟩ | ⟨_, unblocked, -, -, rfl⟩ := restoreBookingIfNoBlockingCases_ok back
        · exact .inl frozen
        · exact .inr unblocked.reports
  | resolveCompletionEscalation id _ action =>
      obtain rfl | ⟨⟨escalation, found, review⟩, -, -, -, rfl⟩ := finalizeEscalation_ok h
      · exact holds
      obtain ⟨listed, own⟩ := BookingFile.findEscalation_id found
      have free : ∀ ref, f.reserves ref = true → ¬ f.Exclusive ref := by
        intro ref reserved exclusive
        obtain rfl := exclusive.escalations escalation listed (by rw [review]; rfl)
        exact idle _ _ rfl (own ▸ reserved)
      exact holds.kept forward unique ids cases_ rfl ((DecisionsOpen.completed (decided _ _ rfl)
        (unfinancial _ _ rfl)).then_eq rfl) (fun ref reserved exclusive => absurd exclusive (free ref reserved)) .inl
        fun ref reserved exclusive => absurd exclusive (free ref reserved)

theorem settleCancellation_terminal {held : Bool} (h : settleCancellation caller held f = .ok c)
    (read : held = true → f.booking.status = .canceled) : c.file.booking.status.terminal = true := by
  obtain ⟨-, -, _, ⟨-, -, -, rfl⟩ | ⟨settled, rfl⟩⟩ := settleCancellation_ok h
  · rfl
  · obtain held | canceled := settled
    · change f.booking.status.terminal = true
      rw [read held]
      rfl
    · change f.booking.status.terminal = true
      rw [canceled]
      rfl

theorem settleByAdmin_terminal (h : settleByAdmin ctx caller f = .ok c) : c.file.booking.status.terminal = true := by
  obtain ⟨_, settled, rfl⟩ := settleByAdmin_ok h
  obtain ⟨-, -, ⟨completed, rfl⟩ | ⟨-, -, -, -, _, -, rfl⟩⟩ := settleCompletedBooking_ok settled
  · change f.booking.status.terminal = true
    rw [completed]
    rfl
  · rfl

theorem transaction_reservations {answer : Answer} (h : call.transaction ctx answer f = .ok c) (on : call.OnRoute)
    (ids : CasesNumbered f) (unique : (f.operations.map (·.caseRef)).Nodup)
    (live : f.booking.status.terminal = false) (live' : c.file.booking.status.terminal = false)
    (read : call.stage.readCanceled → f.booking.status = .canceled) (own : call.Reserves f) (holds : Reservations f) :
    Reservations c.file := by
  obtain ⟨caller, stage⟩ := call
  cases stage with
  | reserve => exact (reserveOutcome_reservations h ids (on.reserves rfl) own.decided holds).1
  | cancelRead => obtain ⟨-, rfl | rfl⟩ := readCancelBooking_ok h <;> exact holds
  | preStartCheck =>
      obtain ⟨-, -, rfl⟩ := checkPreStart_ok h
      exact holds
  | refundRead =>
      obtain ⟨_, -, rfl⟩ := readRefundBooking_ok h
      exact holds
  | refundExisting => obtain ⟨-, -, rfl⟩ | rfl := readExistingRefund_ok h <;> exact holds
  | refundIntent =>
      cases answer with
      | intent =>
          obtain ⟨_, -, rfl⟩ := checkRefundIntent_ok h
          exact holds
      | _ => simp [Call.transaction] at h
  | refundReserve =>
      obtain ⟨-, -, ⟨_, _, -, -, rfl⟩ | ⟨-, rfl⟩ | ⟨-, -, rfl⟩⟩ := reserveRefund_ok h
      · exact holds
      · exact holds
      · exact holds.frame rfl rfl rfl rfl rfl
  | refundFinalize =>
      obtain ⟨-, -, rfl⟩ | ⟨-, -, -, -, rfl⟩ := finalizeRefund_ok h
      · exact holds
      · cases live'
  | refundCreate | refundCaught | markFailed => simp [Call.transaction] at h
  | cancelSettle =>
      rw [settleCancellation_terminal h read] at live'
      cases live'
  | settle =>
      rw [settleByAdmin_terminal h] at live'
      cases live'
  | markEstablished => exact absurd rfl own.unsettled
  | markDecisionReady =>
      obtain ⟨_, _, _, -, marked, rfl⟩ := markStage_ok h
      have decisions := DecisionsOpen.decisionReady marked
      have forward := markStage_forward (by decide) marked
      have cases_ : CasesWrite none f _ := markStage_cases (by decide) marked
      obtain ⟨_, -, -, written, -⟩ := markAdminResolutionStageInTransaction_ok (by decide) marked
      obtain ⟨ops, rfl⟩ := written.rows
      exact holds.kept forward unique ids cases_ rfl decisions (fun _ _ exclusive => exclusive.own) .inl
        fun _ _ _ frozen => .inr frozen
  | finalize =>
      exact finalizeCase_reservations h ids unique live own.decided (own.early (.inr rfl)) holds

end Transactions

end ServiceHub
