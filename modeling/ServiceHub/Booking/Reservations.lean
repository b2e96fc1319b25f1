import ServiceHub.Booking.RefundHolds

/-! # Reserved decisions

The operation row of a decision reserves its outcome before the booking ends. From then on the case of the
decision is the only open one: no service opens another, and its own call closes it.
-/

namespace ServiceHub

open Guard

/-- The booking has reached a terminal status. -/
def BookingStatus.terminal : BookingStatus → Bool
  | .completed | .canceled | .declined | .removed => true
  | _ => false

/-- The terminal status that a decision leads to. -/
def RequestedOutcome.reaches : RequestedOutcome → Option BookingStatus
  | .participantApprove | .adminApprove | .cancelBooking | .refundSeeker => some .canceled
  | .releaseProviderAndComplete => some .completed
  | .adminDeny | .dismiss | .resolveSafety | .keepAwaiting => none

/-- The decision that the claim of the caller has fixed. -/
def Caller.fixes : Caller → Option (CaseRef × RequestedOutcome)
  | .refundBookingPayment _ | .requestCancellation _ _ => none
  | .respondToCancellationRequest id _ _ => some (.cancellation id, .participantApprove)
  | .adminResolveCancellationRequest id approve _ _ =>
      some (.cancellation id, if approve then .adminApprove else .adminDeny)
  | .resolveAdminReport id _ outcome _ => some (.report id, outcome.requested)
  | .resolveCompletionEscalation id _ action => some (.completionEscalation id, action.requested)
  | .resolveAdminBooking _ outcome => some (.adminBooking, outcome.requested)

namespace BookingFile

/-- The case of a decision is under review. -/
def underReview (f : BookingFile) : CaseRef → Prop
  | .report id => ∃ r ∈ f.reports, r.id = id ∧ r.status = .underReview
  | .cancellation id => ∃ q ∈ f.cancellationRequests, q.id = id ∧ q.status = .underReview
  | .completionEscalation id => ∃ e ∈ f.completionEscalations, e.id = id ∧ e.status = .underReview
  | .adminBooking => True

/-- A report of the booking itself, not of an escalated cancellation request. -/
def reported (f : BookingFile) (id : Nat) : Prop :=
  ∃ r ∈ f.reports, r.id = id ∧ r.reportType ≠ .cancellationEscalation

/-- No other case is open than the one of the decision. Besides a cancellation request its report may
    be open, and the booking need not be on hold. -/
structure Exclusive (f : BookingFile) (ref : CaseRef) : Prop where
  own : f.underReview ref
  reports : ∀ r ∈ f.reports, r.status.active = true → ref = .report r.id ∨ ∃ id, ref = .cancellation id
  cancellations : ∀ q ∈ f.cancellationRequests, q.status.active = true → ref = .cancellation q.id
  escalations : ∀ e ∈ f.completionEscalations, e.status.active = true → ref = .completionEscalation e.id
  held : (∃ id, ref = .cancellation id) ∨ f.booking.status.frozen = true

end BookingFile

/-- The decisions about a booking that has not ended. -/
structure Reservations (f : BookingFile) : Prop where
  held : ∀ r ∈ f.reports, r.status.active = true → r.reportType ≠ .cancellationEscalation →
    f.booking.status.frozen = true
  reported : ∀ id, f.decision (.report id) ≠ none → f.reported id
  cancels : ∀ id outcome, f.decision (.cancellation id) = some outcome → outcome.reaches ≠ some .completed
  running : ∀ ref o, f.findOperation ref = some o → o.requestedOutcome.reaches ≠ none →
    ¬ o.finished ∧ o.stage ≠ .financialEffectEstablished
  financial : ∀ ref, f.reserves ref = true → ∃ outcome, f.decision ref = some outcome ∧ outcome.reaches ≠ none
  exclusive : ∀ ref, f.reserves ref = true → f.Exclusive ref

/-- A call about a booking that has not ended carries out its decision, and ends the booking only on a
    reservation. -/
structure Call.Reserves (f : BookingFile) (c : Call) : Prop where
  decided : ∀ ref outcome, c.caller.fixes = some (ref, outcome) → f.decision ref = some outcome
  effect : ∀ ref outcome, c.caller.fixes = some (ref, outcome) → c.stage.cancelling = true ∨ c.stage = .settle →
    f.reserves ref = true
  early : c.stage = .markDecisionReady ∨ c.stage = .finalize → ∀ ref outcome,
    c.caller.fixes = some (ref, outcome) → outcome.reaches = none
  unsettled : c.stage ≠ .markEstablished

section Rows

variable {f f' : BookingFile} {ref : CaseRef} {o op : AdminResolutionOperation} {l : Lifecycle}

theorem Encodes.terminal (e : Encodes f l) : f.booking.status.terminal = l.terminal := by
  rw [e.status]
  cases l with
  | active w => cases w <;> rfl
  | _ => rfl

theorem AdminResolutionOperation.reserved_iff : o.reserved = true ↔
    (o.status = .processing ∨ o.status = .failedRetryable)
      ∧ (o.stage = .financialEffectReserved ∨ o.stage = .financialEffectEstablished) := by
  simp [AdminResolutionOperation.reserved, AdminResolutionOperation.retryable]

theorem BookingFile.reserves_iff : f.reserves ref = true ↔ ∃ o, f.findOperation ref = some o ∧ o.reserved = true :=
  Option.any_eq_true _ _

/-- Two decisions cannot both be reserved. -/
theorem BookingFile.Exclusive.unique {ref' : CaseRef} (h : f.Exclusive ref) (h' : f.Exclusive ref') : ref = ref' := by
  -- an open case of the one is the case of the other
  have own : ∀ {ref ref' : CaseRef}, f.Exclusive ref → f.Exclusive ref' → ref' = ref
      ∨ (∃ id, ref = .report id) ∧ (∃ id, ref' = .cancellation id) ∨ ref = .adminBooking := by
    intro ref ref' h h'
    cases ref with
    | report id =>
        obtain ⟨r, listed, rfl, review⟩ := h.own
        obtain same | linked := h'.reports r listed (by rw [review]; rfl)
        · exact .inl same
        · exact .inr (.inl ⟨⟨_, rfl⟩, linked⟩)
    | cancellation id =>
        obtain ⟨q, listed, rfl, review⟩ := h.own
        exact .inl (h'.cancellations q listed (by rw [review]; rfl))
    | completionEscalation id =>
        obtain ⟨e, listed, rfl, review⟩ := h.own
        exact .inl (h'.escalations e listed (by rw [review]; rfl))
    | adminBooking => exact .inr (.inr rfl)
  obtain same | ⟨⟨_, rfl⟩, ⟨_, rfl⟩⟩ | rfl := own h h'
  · exact same.symm
  · obtain same | ⟨⟨_, same⟩, -⟩ | same := own h' h <;> cases same
  · obtain same | ⟨-, ⟨_, same⟩⟩ | rfl := own h' h
    · exact same
    · cases same
    · rfl

/-- A running decision keeps its reservation. -/
theorem Reservations.keeps_reserved (h : Reservations f') (forward : f.Forward f')
    (unique : (f.operations.map (·.caseRef)).Nodup) (reserved : f.reserves ref = true)
    (financial : ∃ outcome, f.decision ref = some outcome ∧ outcome.reaches ≠ none) : f'.reserves ref = true := by
  obtain ⟨o, found, reserved⟩ := BookingFile.reserves_iff.mp reserved
  have ahead := forward unique
  obtain ⟨o', listed', evolves⟩ := ahead.rows o (List.mem_of_find?_eq_some found)
  have here := find_caseRef ahead.unique listed'
  rw [evolves.caseRef, BookingFile.findOperation_caseRef found] at here
  obtain ⟨outcome, decided, reaches⟩ := financial
  obtain rfl : o.requestedOutcome = outcome := by simpa [BookingFile.decision, found] using decided
  obtain ⟨running, unestablished⟩ := h.running ref o' here (by rw [evolves.outcome]; exact reaches)
  refine BookingFile.reserves_iff.mpr ⟨o', here, AdminResolutionOperation.reserved_iff.mpr ⟨?_, ?_⟩⟩
  · simp only [AdminResolutionOperation.finished, not_or] at running
    cases status : o'.status <;> simp_all
  · have rank := evolves.stage
    simp only [AdminResolutionOperation.finished, not_or] at running
    obtain ⟨-, reserved | established⟩ := AdminResolutionOperation.reserved_iff.mp reserved
    · cases stage : o'.stage <;> simp_all [OperationStage.rank]
    · cases stage : o'.stage <;> simp_all [OperationStage.rank]

end Rows

section Decisions

variable {f f' f'' : BookingFile} {ref : CaseRef} {o op : AdminResolutionOperation} {who : Option Caller}

theorem Claimed.stage {outcome : RequestedOutcome} {penalty : RequestedPenalty}
    (h : Claimed f ref outcome penalty f' op) (live : f.booking.status.terminal = false)
    (found : f.findOperation ref = some o) : op.stage = o.stage := by
  obtain same | completed | canceled := h.resumed o found
  · exact same
  · rw [completed] at live
    cases live
  · rw [canceled] at live
    cases live

/-- The decision is one about its case. -/
structure BookingFile.Fits (f : BookingFile) (ref : CaseRef) (outcome : RequestedOutcome) : Prop where
  reported : ∀ id, ref = .report id → f.reported id
  cancels : ∀ id, ref = .cancellation id → outcome.reaches ≠ some .completed

/-- No decision is newly reserved or at its end, and a new one fits its case. -/
structure DecisionsOpen (f f' : BookingFile) : Prop where
  decided : ∀ ref outcome, f'.decision ref = some outcome → f.decision ref = some outcome ∨ f.Fits ref outcome
  running : ∀ ref o', f'.findOperation ref = some o' → o'.requestedOutcome.reaches ≠ none →
    o'.finished ∨ o'.stage = .financialEffectEstablished → ∃ o, f.findOperation ref = some o
      ∧ o.requestedOutcome = o'.requestedOutcome ∧ (o.finished ∨ o.stage = .financialEffectEstablished)
  reserves : ∀ ref, f'.reserves ref = true → f.reserves ref = true

namespace DecisionsOpen

theorem of_eq (h : f'.operations = f.operations) : DecisionsOpen f f' := by
  have lookup : ∀ ref, f'.findOperation ref = f.findOperation ref := fun ref => by
    rw [BookingFile.findOperation, BookingFile.findOperation, h]
  refine ⟨fun ref outcome decided => .inl ?_, fun ref o' found _ ended => ⟨o', ?_, rfl, ended⟩,
    fun ref reserved => ?_⟩
  · rw [← decided, BookingFile.decision, BookingFile.decision, lookup]
  · rw [← lookup, found]
  · rw [← reserved, BookingFile.reserves, BookingFile.reserves, lookup]

theorem then_eq (h : DecisionsOpen f f') (same : f''.operations = f'.operations) : DecisionsOpen f f'' := by
  have next : DecisionsOpen f' f'' := .of_eq same
  have lookup : ∀ ref, f''.findOperation ref = f'.findOperation ref := fun ref => by
    rw [BookingFile.findOperation, BookingFile.findOperation, same]
  refine ⟨fun ref outcome decided => ?_, fun ref o' found => ?_,
    fun ref reserved => h.reserves ref (next.reserves ref reserved)⟩
  · rw [BookingFile.decision, lookup] at decided
    exact h.decided ref outcome decided
  · rw [lookup] at found
    exact h.running ref o' found

/-- One row is written. -/
theorem of_row (lookup : ∀ r, f'.findOperation r = if r = ref then some op else f.findOperation r)
    (decided : f.decision ref = some op.requestedOutcome ∨ f.Fits ref op.requestedOutcome)
    (running : op.requestedOutcome.reaches ≠ none → op.finished ∨ op.stage = .financialEffectEstablished →
      ∃ o, f.findOperation ref = some o ∧ o.requestedOutcome = op.requestedOutcome
        ∧ (o.finished ∨ o.stage = .financialEffectEstablished))
    (reserves : op.reserved = true → f.reserves ref = true) : DecisionsOpen f f' := by
  constructor
  · intro r outcome found
    by_cases own : r = ref
    · subst own
      obtain rfl : op.requestedOutcome = outcome := by simpa [BookingFile.decision, lookup] using found
      exact decided
    · simp only [BookingFile.decision, lookup, own, if_false] at found
      exact .inl found
  · intro r o' found
    rw [lookup] at found
    split at found
    · rename_i own
      subst own
      obtain rfl := Option.some.inj found
      exact running
    · exact fun _ ended => ⟨o', found, rfl, ended⟩
  · intro r reserved
    by_cases own : r = ref
    · subst own
      exact reserves (by simpa [BookingFile.reserves, lookup] using reserved)
    · simpa only [BookingFile.reserves, lookup, own, if_false] using reserved

theorem claimed {outcome : RequestedOutcome} {penalty : RequestedPenalty}
    (claim : Claimed f ref outcome penalty f' op) (live : f.booking.status.terminal = false) (fits : f.Fits ref outcome) :
    DecisionsOpen f f' := by
  have same := claim.outcome_eq
  refine .of_row claim.written.lookup (.inr (by rw [same]; exact fits)) (fun financial ended => ?_) fun reserved => ?_
  · obtain ⟨-, rfl⟩ | ⟨o, found, advances⟩ := claim.origin
    · simp [AdminResolutionOperation.finished] at ended
    · have stage := claim.stage live found
      refine ⟨o, found, advances.keys.2.1.symm, ?_⟩
      cases advances with
      | same => exact ended
      | forward =>
          simp only [AdminResolutionOperation.finished, reduceCtorEq, false_or] at ended stage ⊢
          rw [← stage]
          exact ended.imp_left fun final => .inr (.inr final)
  · obtain ⟨-, rfl⟩ | ⟨o, found, advances⟩ := claim.origin
    · simp [AdminResolutionOperation.reserved] at reserved
    · have stage := claim.stage live found
      refine BookingFile.reserves_iff.mpr ⟨o, found, AdminResolutionOperation.reserved_iff.mpr ?_⟩
      obtain ⟨status, reserved⟩ := AdminResolutionOperation.reserved_iff.mp reserved
      rw [stage] at reserved
      refine ⟨?_, reserved⟩
      cases advances with
      | same => exact status
      | forward running =>
          simp only [AdminResolutionOperation.finished, not_or] at running
          cases h : o.status <;> simp_all

end DecisionsOpen

end Decisions

section Writes

variable {ctx : Context} {f f' : BookingFile} {c : Commit} {ref : CaseRef} {o op : AdminResolutionOperation}
  {l : Lifecycle} {who : Option Caller}

namespace DecisionsOpen

theorem update {g : AdminResolutionOperation → AdminResolutionOperation} (keys : ∀ o, (g o).caseRef = o.caseRef)
    (same : ∀ o, (g o).requestedOutcome = o.requestedOutcome)
    (running : ∀ o, f.findOperation ref = some o → o.requestedOutcome.reaches ≠ none →
      (g o).finished ∨ (g o).stage = .financialEffectEstablished → o.finished ∨ o.stage = .financialEffectEstablished)
    (reserves : ∀ o, (g o).reserved = true → o.reserved = true) : DecisionsOpen f (f.updateOperation ref g) := by
  have lookup := @BookingFile.findOperation_update f ref g keys
  cases found : f.findOperation ref with
  | none =>
      have unchanged : ∀ r, (f.updateOperation ref g).findOperation r = f.findOperation r := by
        intro r
        rw [lookup]
        split
        · rename_i own
          rw [own, found]
          rfl
        · rfl
      refine ⟨fun r outcome decided => .inl ?_, fun r o' here _ ended => ⟨o', ?_, rfl, ended⟩, fun r reserved => ?_⟩
      · rw [← decided, BookingFile.decision, BookingFile.decision, unchanged]
      · rw [← unchanged, here]
      · rw [← reserved, BookingFile.reserves, BookingFile.reserves, unchanged]
  | some o =>
      refine @of_row f _ ref (g o) (fun r => ?_) (.inl ?_) (fun financial ended => ?_) fun reserved => ?_
      · rw [lookup]
        split
        · rename_i own
          rw [own, found]
          rfl
        · rfl
      · simp [BookingFile.decision, found, same]
      · rw [same] at financial
        exact ⟨o, found, (same o).symm, running o found financial ended⟩
      · exact BookingFile.reserves_iff.mpr ⟨o, found, reserves o reserved⟩

theorem failed (f : BookingFile) (ref : CaseRef) : DecisionsOpen f (markAdminResolutionFailed f ref) := by
  refine .update (fun o => by split <;> rfl) (fun o => by split <;> rfl) (fun o _ _ ended => ?_) fun o reserved => ?_
  · split at ended
    · simp only [AdminResolutionOperation.finished, reduceCtorEq, false_or] at ended ⊢
      exact ended.imp_left fun final => .inr (.inr final)
    · exact ended
  · split at reserved
    · rename_i open_
      simp only [Bool.and_eq_true] at open_
      simp only [AdminResolutionOperation.reserved, Bool.and_eq_true] at reserved ⊢
      exact ⟨open_.1, reserved.2⟩
    · exact reserved

/-- The completed decision does not end the booking. -/
theorem completed {outcome : RequestedOutcome} (decided : f.decision ref = some outcome)
    (unfinancial : outcome.reaches = none) : DecisionsOpen f (completeOperation f ref) := by
  refine .update (fun _ => rfl) (fun _ => rfl) (fun o found financial => ?_) fun o reserved => ?_
  · obtain rfl : o.requestedOutcome = outcome := by simpa [BookingFile.decision, found] using decided
    exact absurd unfinancial financial
  · simp [AdminResolutionOperation.reserved, AdminResolutionOperation.retryable] at reserved

theorem decisionReady (h : markAdminResolutionStageInTransaction f ref .decisionReady = .ok (f', op)) :
    DecisionsOpen f f' := by
  obtain ⟨o, found, -, written, ⟨rfl, -, -⟩ | ⟨running, -, rfl⟩⟩ :=
    markAdminResolutionStageInTransaction_ok (by decide) h
  · exact .of_eq rfl
  · refine .of_row written.lookup (.inl ?_) (fun _ ended => ?_) fun reserved => ?_
    · simp [BookingFile.decision, found]
    · simp [AdminResolutionOperation.finished] at ended
    · simp [AdminResolutionOperation.reserved] at reserved

end DecisionsOpen

/-- The cases under review stay so. -/
structure ReviewsStay (f f' : BookingFile) : Prop where
  reports : ∀ r ∈ f.reports, r.status = .underReview → ∃ r' ∈ f'.reports, r'.id = r.id ∧ r'.status = .underReview
  cancellations : ∀ q ∈ f.cancellationRequests, q.status = .underReview →
    ∃ q' ∈ f'.cancellationRequests, q'.id = q.id ∧ q'.status = .underReview
  escalations : ∀ e ∈ f.completionEscalations, e.status = .underReview →
    ∃ e' ∈ f'.completionEscalations, e'.id = e.id ∧ e'.status = .underReview

theorem ReviewsStay.underReview (h : ReviewsStay f f') (own : f.underReview ref) : f'.underReview ref := by
  cases ref with
  | report id =>
      obtain ⟨r, listed, rfl, review⟩ := own
      exact h.reports r listed review
  | cancellation id =>
      obtain ⟨q, listed, rfl, review⟩ := own
      exact h.cancellations q listed review
  | completionEscalation id =>
      obtain ⟨e, listed, rfl, review⟩ := own
      exact h.escalations e listed review
  | adminBooking => trivial

theorem ReviewsStay.of_eq (reports : f'.reports = f.reports)
    (cancellations : f'.cancellationRequests = f.cancellationRequests)
    (escalations : f'.completionEscalations = f.completionEscalations) : ReviewsStay f f' :=
  ⟨Rows.stays_of_eq reports, Rows.stays_of_eq cancellations, Rows.stays_of_eq escalations⟩

/-- An open case was open before, when none was opened. -/
structure CasesBefore (f f' : BookingFile) : Prop where
  reports : ∀ r' ∈ f'.reports, r'.status.active = true → ∃ r ∈ f.reports, r.id = r'.id ∧ r.status.active = true
    ∧ r.reportType = r'.reportType
  cancellations : ∀ q' ∈ f'.cancellationRequests, q'.status.active = true →
    ∃ q ∈ f.cancellationRequests, q.id = q'.id ∧ q.status.active = true
  escalations : ∀ e' ∈ f'.completionEscalations, e'.status.active = true →
    ∃ e ∈ f.completionEscalations, e.id = e'.id ∧ e.status.active = true

theorem CasesWrite.before (h : CasesWrite who f f') (ids : CasesNumbered f) (same : f'.nextId = f.nextId) :
    CasesBefore f f' := by
  obtain ⟨reports, cancellations, escalations⟩ := h
  rw [same] at reports cancellations escalations
  refine ⟨fun r' listed active => ?_, fun q' listed active => ?_, fun e' listed active => ?_⟩
  · obtain ⟨r, member, keyed, move⟩ := reports.unopened ids.reports r' listed
    refine ⟨r, member, keyed.symm, ?_⟩
    cases move with
    | same => exact ⟨active, rfl⟩
    | reviewed before => exact ⟨before, rfl⟩
    | closed closed => obtain rfl | rfl := closed <;> simp [ReportStatus.active] at active
  · obtain ⟨q, member, keyed, move⟩ := cancellations.unopened ids.cancellations q' listed
    refine ⟨q, member, keyed.symm, ?_⟩
    cases move with
    | same => exact active
    | declined before | escalated before => rw [before]; rfl
    | reviewed before => obtain before | before | before := before <;> rw [before] <;> rfl
    | settled _ closed => obtain rfl | rfl := closed <;> simp [CancellationStatus.active] at active
    | denied => simp [CancellationStatus.active] at active
  · obtain ⟨e, member, keyed, move⟩ := escalations.unopened ids.escalations e' listed
    refine ⟨e, member, keyed.symm, ?_⟩
    cases move with
    | same => exact active
    | reviewed before => exact before
    | closed closed => obtain rfl | rfl := closed <;> simp [EscalationStatus.active] at active

theorem BookingFile.reported.kept {id : Nat} (h : f.reported id) (cases_ : CasesWrite who f f') : f'.reported id := by
  obtain ⟨r, listed, rfl, own⟩ := h
  obtain ⟨r', listed', keyed, move⟩ := cases_.reports.forth r listed
  refine ⟨r', listed', keyed, ?_⟩
  cases move with
  | same | reviewed | closed => exact own

theorem BookingFile.Exclusive.kept (h : f.Exclusive ref) (before : CasesBefore f f') (own : f'.underReview ref)
    (frozen : f.booking.status.frozen = true → (∃ id, ref = .cancellation id) ∨ f'.booking.status.frozen = true) :
    f'.Exclusive ref where
  own := own
  reports r' listed active := by
    obtain ⟨r, member, same, active, -⟩ := before.reports r' listed active
    rw [← same]
    exact h.reports r member active
  cancellations q' listed active := by
    obtain ⟨q, member, same, active⟩ := before.cancellations q' listed active
    rw [← same]
    exact h.cancellations q member active
  escalations e' listed active := by
    obtain ⟨e, member, same, active⟩ := before.escalations e' listed active
    rw [← same]
    exact h.escalations e member active
  held := h.held.elim .inl frozen

/-- A transaction that opens no case and reserves no decision. -/
theorem Reservations.kept (h : Reservations f) (forward : f.Forward f') (unique : (f.operations.map (·.caseRef)).Nodup)
    (ids : CasesNumbered f) (cases_ : CasesWrite who f f') (same : f'.nextId = f.nextId) (decisions : DecisionsOpen f f')
    (own : ∀ ref, f.reserves ref = true → f.Exclusive ref → f'.underReview ref)
    (held : f.booking.status.frozen = true →
      f'.booking.status.frozen = true ∨ ∀ r ∈ f'.reports, r.status.active = false)
    (frozen : ∀ ref, f.reserves ref = true → f.Exclusive ref → f.booking.status.frozen = true →
      (∃ id, ref = .cancellation id) ∨ f'.booking.status.frozen = true) : Reservations f' := by
  have before := cases_.before ids same
  constructor
  · intro r' listed active other
    obtain ⟨r, member, -, active', type⟩ := before.reports r' listed active
    obtain frozen | closed := held (h.held r member active' (by rw [type]; exact other))
    · exact frozen
    · rw [closed r' listed] at active
      cases active
  · intro id decided
    obtain ⟨outcome, found⟩ := Option.ne_none_iff_exists'.mp decided
    obtain found | fits := decisions.decided _ _ found
    · exact (h.reported id (by rw [found]; simp)).kept cases_
    · exact (fits.reported id rfl).kept cases_
  · intro id outcome found
    obtain found | fits := decisions.decided _ _ found
    · exact h.cancels id outcome found
    · exact fits.cancels id rfl
  · intro ref o' found financial
    by_contra ended
    rw [not_and_or, not_not, not_not] at ended
    obtain ⟨o, found, outcome, ended⟩ := decisions.running ref o' found financial ended
    obtain ⟨running, unestablished⟩ := h.running ref o found (by rw [outcome]; exact financial)
    exact ended.elim running unestablished
  · intro ref reserved
    obtain ⟨outcome, decided, reaches⟩ := h.financial ref (decisions.reserves ref reserved)
    exact ⟨outcome, forward.decision unique decided, reaches⟩
  · intro ref reserved
    have reserved := decisions.reserves ref reserved
    have exclusive := h.exclusive ref reserved
    exact exclusive.kept before (own ref reserved exclusive) (frozen ref reserved exclusive)

/-- A transaction that may open a case, while no decision is reserved. -/
theorem Reservations.opened (h : Reservations f) (free : ∀ o ∈ f.operations, o.reserved = false)
    (operations : f'.operations = f.operations) (cases_ : CasesWrite who f f')
    (held : ∀ r ∈ f'.reports, r.status.active = true → r.reportType ≠ .cancellationEscalation →
      f'.booking.status.frozen = true) : Reservations f' := by
  have lookup : ∀ ref, f'.findOperation ref = f.findOperation ref := fun ref => by
    rw [BookingFile.findOperation, BookingFile.findOperation, operations]
  have unreserved : ∀ ref, f'.reserves ref ≠ true := by
    intro ref reserved
    obtain ⟨o, found, reserved⟩ := BookingFile.reserves_iff.mp reserved
    rw [lookup] at found
    rw [free o (List.mem_of_find?_eq_some found)] at reserved
    cases reserved
  refine ⟨held, fun id decided => ?_, fun id outcome found => ?_, fun ref o found => ?_,
    fun ref reserved => absurd reserved (unreserved ref), fun ref reserved => absurd reserved (unreserved ref)⟩
  · rw [BookingFile.decision, lookup] at decided
    exact (h.reported id decided).kept cases_
  · rw [BookingFile.decision, lookup] at found
    exact h.cancels id outcome found
  · rw [lookup] at found
    exact h.running ref o found

end Writes

end ServiceHub
