import ServiceHub.Booking.Consent
import ServiceHub.Booking.OperationStages

/-! # A refund before the start keeps its booking on hold

The refund of an unstarted paid booking belongs to an immediate cancellation or to a decision of an
administrator. Either one is still open while the refund is in progress, and an open one keeps the
booking on hold, so it cannot be started.
-/

namespace ServiceHub

open Guard

namespace BookingFile

/-- The outcome that the first call of a decision has fixed. -/
def decision (f : BookingFile) (ref : CaseRef) : Option RequestedOutcome :=
  (f.findOperation ref).map (·.requestedOutcome)

def reserves (f : BookingFile) (ref : CaseRef) : Bool :=
  (f.findOperation ref).any (·.reserved)

/-- An active report under this number. -/
def reportActive (f : BookingFile) (id : Nat) : Prop :=
  ∃ r ∈ f.reports, r.id = id ∧ r.status.active = true

/-- An administrator has decided to cancel the booking, or to resolve it as a whole. -/
def cancelDecided (f : BookingFile) : Prop :=
  (∃ id, f.decision (.report id) = some .cancelBooking) ∨ f.decision .adminBooking ≠ none

end BookingFile

/-- A paid booking whose work has not begun and that no participant has asked to cancel. -/
structure BeforeWork (f : BookingFile) : Prop where
  held : f.booking.paymentStatus.held = true
  unstarted : f.booking.started = false
  unrequested : f.cancellationRequests = []

/-- An open report, a decision to cancel and a refund keep the booking on hold. -/
structure RefundHolds (f : BookingFile) : Prop where
  unescalated : f.completionEscalations = []
  reported : ∀ r ∈ f.reports, r.status.active = true → f.booking.status.frozen = true
  cancelled : ∀ id, f.decision (.report id) = some .cancelBooking → f.reportActive id
  decided : f.decision .adminBooking ≠ none → f.reserves .adminBooking = true
    ∧ f.booking.status.frozen = true ∧ ∀ r ∈ f.reports, r.status.active = false
  refunding : f.refund.map (·.status) = some .processing → f.cancelDecided

/-- The call carries out a decision about a report or the booking itself. -/
def Caller.decided (f : BookingFile) : Caller → Prop
  | .resolveAdminReport id _ outcome _ => f.decision (.report id) = some outcome.requested
  | .resolveAdminBooking _ _ => f.decision .adminBooking ≠ none
  | _ => False

/-- No decision is taken back, and no reservation. -/
structure DecisionsKept (f f' : BookingFile) : Prop where
  decision : ∀ ref, f'.decision ref = f.decision ref
  reserves : ∀ ref, f.reserves ref = true → f'.reserves ref = true

section Decisions

variable {f f' f'' : BookingFile} {ref : CaseRef} {o op : AdminResolutionOperation}

theorem DecisionsKept.of_eq (h : f'.operations = f.operations) : DecisionsKept f f' where
  decision ref := by simp only [BookingFile.decision, BookingFile.findOperation, h]
  reserves ref reserved := by simpa only [BookingFile.reserves, BookingFile.findOperation, h] using reserved

theorem AdminResolutionOperation.Advances.reserved (h : o.Advances op) (reserved : o.reserved = true) :
    op.reserved = true := by
  cases h with
  | same => exact reserved
  | @forward stage running ahead unfinished =>
      simp only [AdminResolutionOperation.reserved, Bool.and_eq_true, Bool.or_eq_true, beq_iff_eq] at reserved ⊢
      refine ⟨rfl, ?_⟩
      obtain ⟨-, at_ | at_⟩ := reserved <;> cases stage <;>
        simp_all [OperationStage.rank]

/-- The one written row has advanced. -/
theorem OperationWritten.decisionsKept (h : OperationWritten f ref f' op) (found : f.findOperation ref = some o)
    (advances : o.Advances op) : DecisionsKept f f' := by
  constructor
  · intro r
    simp only [BookingFile.decision, h.lookup r]
    by_cases same : r = ref
    · subst same
      simp [found, advances.keys.2.1]
    · simp [same]
  · intro r reserved
    simp only [BookingFile.reserves, h.lookup r] at reserved ⊢
    by_cases same : r = ref
    · subst same
      simp only [found, Option.any_some] at reserved
      simpa using advances.reserved reserved
    · simpa [same] using reserved

theorem markStage_decisionsKept {stage : OperationStage} (unfinished : stage ≠ .caseFinalized)
    (h : markAdminResolutionStageInTransaction f ref stage = .ok (f', op)) : DecisionsKept f f' := by
  obtain ⟨_, found, advances, written, -⟩ := markAdminResolutionStageInTransaction_ok unfinished h
  exact written.decisionsKept found advances

theorem markFailed_decisionsKept (f : BookingFile) (ref : CaseRef) :
    DecisionsKept f (markAdminResolutionFailed f ref) := by
  have keys : ∀ o : AdminResolutionOperation, (if o.retryable && o.stage != .caseFinalized then
      { o with status := .failedRetryable } else o).caseRef = o.caseRef := fun o => by split <;> rfl
  constructor
  · intro r
    simp only [BookingFile.decision, markAdminResolutionFailed, BookingFile.findOperation_update keys]
    split
    · rw [Option.map_map]
      congr 1
      funext o
      simp only [Function.comp_apply]
      split <;> rfl
    · rfl
  · intro r reserved
    simp only [BookingFile.reserves, markAdminResolutionFailed, BookingFile.findOperation_update keys] at reserved ⊢
    split
    · obtain ⟨o, found, reserved⟩ := (Option.any_eq_true _ _).mp reserved
      simp only [AdminResolutionOperation.reserved, Bool.and_eq_true] at reserved
      rw [found, Option.map_some, Option.any_some]
      split
      · simp [AdminResolutionOperation.reserved, AdminResolutionOperation.retryable, reserved.2]
      · simp [AdminResolutionOperation.reserved, reserved]
    · exact reserved

theorem completeOperation_decision (f : BookingFile) (ref r : CaseRef) :
    (completeOperation f ref).decision r = f.decision r := by
  have keys : ∀ o : AdminResolutionOperation,
      ({ o with status := .completed, stage := .caseFinalized } : AdminResolutionOperation).caseRef = o.caseRef :=
    fun _ => rfl
  simp only [BookingFile.decision, completeOperation, BookingFile.findOperation_update keys]
  split
  · rw [Option.map_map]
    rfl
  · rfl

theorem BookingFile.Forward.decision {outcome : RequestedOutcome} (h : f.Forward f')
    (unique : (f.operations.map (·.caseRef)).Nodup) (found : f.decision ref = some outcome) :
    f'.decision ref = some outcome := by
  obtain ⟨o, listed, rfl⟩ := Option.map_eq_some_iff.mp found
  have forward := h unique
  obtain ⟨o', listed', evolves⟩ := forward.rows o (List.mem_of_find?_eq_some listed)
  have here := find_caseRef forward.unique listed'
  rw [evolves.caseRef, BookingFile.findOperation_caseRef listed] at here
  simp only [BookingFile.decision, BookingFile.findOperation, here, Option.map_some, evolves.outcome]

end Decisions

/-- The same reports are active. -/
structure ReportsStay (f f' : BookingFile) : Prop where
  back : ∀ r' ∈ f'.reports, r'.status.active = true → ∃ r ∈ f.reports, r.id = r'.id ∧ r.status.active = true
  forth : ∀ id, f.reportActive id → f'.reportActive id

section Transactions

variable {ctx : Context} {f f' : BookingFile} {c : Commit} {caller : Caller} {l : Lifecycle}

theorem ReportsStay.of_eq (h : f'.reports = f.reports) : ReportsStay f f' where
  back r listed active := ⟨r, h ▸ listed, rfl, active⟩
  forth id active := by simpa only [BookingFile.reportActive, h] using active

/-- Active reports are taken under review. -/
theorem ReportsStay.review {p : Report → Bool} (active : ∀ r ∈ f.reports, p r = true → r.status.active = true)
    (h : f'.reports = Rows.updateWhere p ({ · with status := .underReview }) f.reports) : ReportsStay f f' := by
  constructor
  · intro r' listed active'
    rw [h] at listed
    obtain ⟨r, member, rfl⟩ := Rows.mem_updateWhere.mp listed
    by_cases chosen : p r = true
    · exact ⟨r, member, by simp [chosen], active r member chosen⟩
    · exact ⟨r, member, by simp [chosen], by simpa [chosen] using active'⟩
  · rintro id ⟨r, listed, same, active'⟩
    refine ⟨_, h ▸ Rows.mem_updateWhere.mpr ⟨r, listed, rfl⟩, ?_, ?_⟩
    · split <;> exact same
    · split
      · rfl
      · exact active'

theorem DecisionsKept.cancelDecided (h : DecisionsKept f f') (decided : f.cancelDecided) : f'.cancelDecided := by
  unfold BookingFile.cancelDecided
  simp only [h.decision]
  exact decided

/-- A transaction that keeps the reports and decisions keeps the hold. -/
theorem RefundHolds.kept (h : RefundHolds f) (reports : ReportsStay f f') (decisions : DecisionsKept f f')
    (escalations : f'.completionEscalations = f.completionEscalations)
    (status : f'.booking.status = f.booking.status)
    (refund : f'.refund.map (·.status) = some .processing → f.refund.map (·.status) = some .processing) :
    RefundHolds f' where
  unescalated := escalations.trans h.unescalated
  reported r' listed active := by
    obtain ⟨r, listed, -, active⟩ := reports.back r' listed active
    rw [status]
    exact h.reported r listed active
  cancelled id cancel := by
    rw [decisions.decision] at cancel
    exact reports.forth id (h.cancelled id cancel)
  decided booking := by
    rw [decisions.decision] at booking
    obtain ⟨reserved, frozen, quiet⟩ := h.decided booking
    refine ⟨decisions.reserves _ reserved, by rw [status]; exact frozen, fun r' listed => ?_⟩
    by_contra active
    obtain ⟨r, listed, -, active⟩ := reports.back r' listed (by simpa using active)
    simp [quiet r listed] at active
  refunding processing := decisions.cancelDecided (h.refunding (refund processing))

theorem RefundHolds.frame (h : RefundHolds f) (reports : f'.reports = f.reports)
    (operations : f'.operations = f.operations) (escalations : f'.completionEscalations = f.completionEscalations)
    (status : f'.booking.status = f.booking.status) (refund : f'.refund = f.refund) : RefundHolds f' :=
  h.kept (.of_eq reports) (.of_eq operations) escalations status (by rw [refund]; exact id)

/-- The decision about an active report is claimed. -/
theorem RefundHolds.claimed {id : Nat} {outcome : RequestedOutcome} {penalty : RequestedPenalty}
    {op : AdminResolutionOperation} (h : RefundHolds f) (active : f.reportActive id)
    (claim : Claimed f (.report id) outcome penalty f' op) : RefundHolds f' := by
  have lookup : ∀ r, r ≠ .report id → f'.findOperation r = f.findOperation r := fun r other => by
    rw [claim.written.lookup r, if_neg other]
  have decision : ∀ r, r ≠ .report id → f'.decision r = f.decision r := fun r other => by
    rw [BookingFile.decision, BookingFile.decision, lookup r other]
  have booking : f'.reserves .adminBooking = f.reserves .adminBooking := by
    rw [BookingFile.reserves, BookingFile.reserves, lookup .adminBooking (by simp)]
  obtain ⟨absent, -⟩ | ⟨o, found, advances⟩ := claim.origin
  · obtain ⟨ops, rfl⟩ := claim.written.rows
    refine ⟨h.unescalated, h.reported, fun id' cancel => ?_, fun decided => ?_, fun processing => ?_⟩
    · by_cases same : id' = id
      · subst same
        exact active
      · rw [decision _ (by simpa using same)] at cancel
        exact h.cancelled id' cancel
    · rw [decision _ (by simp)] at decided
      rw [booking]
      exact h.decided decided
    · obtain ⟨id', cancel⟩ | decided := h.refunding processing
      · have other : id' ≠ id := by
          rintro rfl
          simp [BookingFile.decision, absent] at cancel
        exact .inl ⟨id', by rw [decision _ (by simpa using other), cancel]⟩
      · exact .inr (by rw [decision _ (by simp)]; exact decided)
  · have kept := claim.written.decisionsKept found advances
    obtain ⟨ops, rfl⟩ := claim.written.rows
    exact h.kept (.of_eq rfl) kept rfl rfl fun processing => processing

theorem Encodes.beforeWork (e : Encodes f l) (before : BeforeWork f) :
    f.booking.paymentMethod = .gcash ∧ l.work = some .accepted := by
  obtain ⟨paid, live⟩ := e.held before.held
  refine ⟨paid, ?_⟩
  have unrequested := (e.allowed paid).1
  cases work : l.work with
  | none => cases l <;> simp [Lifecycle.work, Lifecycle.terminal] at work live
  | some w =>
      have unstarted := before.unstarted.symm.trans (e.started w work)
      cases w with
      | accepted => rfl
      | requested => exact absurd work unrequested
      | ongoing | awaiting => cases unstarted

theorem Encodes.heldBack (e : Encodes f l) (before : BeforeWork f) :
    f.booking.status = .accepted ∨ f.booking.status.frozen = true := by
  obtain ⟨-, work⟩ := e.beforeWork before
  rw [e.status]
  cases l with
  | active w =>
      obtain rfl := Option.some.inj work
      exact .inl rfl
  | disputed | underReview => exact .inr rfl
  | completed | canceled | declined => cases work

/-- What has not begun after a step had not begun before it. -/
theorem Refines.beforeWork (e : Encodes f l) (h : Refines l f') (terms : SameTerms f f') {who : Option Caller}
    (cases_ : CasesWrite who f f') (after : BeforeWork f') : BeforeWork f := by
  obtain ⟨l', e', moved⟩ := h
  obtain ⟨paid', work'⟩ := e'.beforeWork after
  have paid := terms.paymentMethod.symm.trans paid'
  have work : l.work = some .accepted := by
    obtain rfl | step := moved
    · exact work'
    · cases step with
      | accept => exact absurd rfl (e.allowed paid).1
      | start | finish | decline | confirm | cancel => cases work'
      | dispute | review | restoreDisputed | restoreReviewed => exact work'
  have live : l.terminal = false := by
    cases l with
    | active | disputed | underReview => rfl
    | completed | canceled | declined => cases work
  refine ⟨e.paid_held paid live, e.started _ work, ?_⟩
  refine List.eq_nil_iff_forall_not_mem.mpr fun q listed => ?_
  obtain ⟨q', listed', -⟩ := cases_.cancellations.forth q listed
  rw [after.unrequested] at listed'
  cases listed'

theorem createSafetyReport_refundHolds {reporterId : UserId} {reason : ReportReason} {description : Nat}
    {folder : Option UserId} (h : createSafetyReport ctx reporterId reason description folder f = .ok c)
    (e : Encodes f l) (before : BeforeWork f) (holds : RefundHolds f) : RefundHolds c.file := by
  obtain ⟨-, free, rfl | ⟨report, -, -, -, written⟩⟩ := createSafetyReport_ok h
  · exact holds
  have undecided : ¬ f.decision .adminBooking ≠ none := fun decided => by
    obtain ⟨o, found, reserved⟩ := (Option.any_eq_true _ _).mp (holds.decided decided).1
    rw [free o (List.mem_of_find?_eq_some found)] at reserved
    cases reserved
  obtain ⟨reports, operations, escalations, refund, frozen⟩ : c.file.reports = f.reports ++ [report]
      ∧ c.file.operations = f.operations ∧ c.file.completionEscalations = f.completionEscalations
      ∧ c.file.refund = f.refund ∧ c.file.booking.status.frozen = true := by
    obtain ⟨stay, rfl⟩ | ⟨-, rfl⟩ := written
    · refine ⟨rfl, rfl, rfl, rfl, (e.heldBack before).resolve_left fun accepted => ?_⟩
      rw [accepted] at stay
      cases stay
    · exact ⟨rfl, rfl, rfl, rfl, rfl⟩
  have kept : DecisionsKept f c.file := .of_eq operations
  refine ⟨escalations.trans holds.unescalated, fun _ _ _ => frozen, fun id cancel => ?_, fun decided => ?_,
    fun processing => ?_⟩
  · rw [kept.decision] at cancel
    obtain ⟨r, listed, same, active⟩ := holds.cancelled id cancel
    exact ⟨r, reports ▸ List.mem_append_left _ listed, same, active⟩
  · rw [kept.decision] at decided
    exact absurd decided undecided
  · rw [refund] at processing
    exact kept.cancelDecided (holds.refunding processing)

theorem claimReport_refundHolds {id : Nat} {adminId : UserId} {outcome : ReportOutcome}
    {penalty : ReportPenalty} {notes : Nat} (ids : CasesNumbered f)
    (h : claimReport ctx id adminId outcome penalty notes f = .ok c) (holds : RefundHolds f) :
    RefundHolds c.file := by
  obtain rfl | ⟨report, claimed, _, found, active, -, claim, written⟩ := claimReport_ok h
  · exact holds
  obtain ⟨listed, same⟩ := BookingFile.findReport_id found
  have decided := holds.claimed ⟨report, listed, same, active⟩ claim
  obtain ⟨-, rfl⟩ | ⟨-, rfl⟩ := written
  · exact decided
  · refine decided.kept (.review (fun r listed own => ?_) rfl) (.of_eq rfl) rfl rfl fun processing => processing
    obtain ⟨ops, rfl⟩ := claim.written.rows
    obtain rfl := ids.report found listed (by simpa using own)
    exact active

/-- The decision about the whole booking is taken without an open case. -/
theorem claimAdminBooking_refundHolds {adminId : UserId} {outcome : AdminBookingOutcome} {banned : Bool}
    (h : claimAdminBooking ctx adminId outcome banned f = .ok c) (holds : RefundHolds f) :
    RefundHolds c.file := by
  obtain rfl | ⟨claimed, op, claim, written⟩ := claimAdminBooking_ok h
  · exact holds
  -- a decision that goes on was reserved before
  have resumed : op.stage ≠ .claimed ∨ op.status ≠ .processing → RefundHolds claimed := by
    intro further
    obtain ⟨-, rfl⟩ | ⟨o, found, advances⟩ := claim.origin
    · simp at further
    · have kept := claim.written.decisionsKept found advances
      obtain ⟨ops, rfl⟩ := claim.written.rows
      exact holds.kept (.of_eq rfl) kept rfl rfl fun processing => processing
  obtain ⟨done, rfl⟩ | ⟨established, rfl⟩ | ⟨-, reserved, -, -, rfl⟩ |
    ⟨-, -, only, -, reserved, op', marked, rfl, rfl⟩ := written
  · exact resumed (.inr (by simp [done]))
  · refine resumed (.inl fun stage => ?_)
    simp [AdminResolutionOperation.hasEstablishedFinancialEffect, stage] at established
  · exact resumed (.inl (by simp [reserved]))
  have quiet : ∀ r ∈ f.reports, r.status.active = false := by
    obtain ⟨ops, rfl⟩ := claim.written.rows
    intro r listed
    by_contra active
    cases only.reports r listed (by simpa using active)
  have written : OperationWritten claimed.heldForAdmin .adminBooking reserved _ :=
    (markAdminResolutionStageInTransaction_ok (by decide) marked).choose_spec.2.2.1
  have found := written.found
  have reports : ∀ id, reserved.decision (.report id) = f.decision (.report id) := by
    intro id
    have before : claimed.heldForAdmin.findOperation (.report id) = f.findOperation (.report id) :=
      (claim.written.lookup (.report id)).trans (if_neg (by simp))
    simp only [BookingFile.decision, written.lookup, before, reduceCtorEq, if_false]
  obtain ⟨_, rfl⟩ := written.rows
  obtain ⟨_, rfl⟩ := claim.written.rows
  refine ⟨holds.unescalated, fun _ _ _ => rfl, fun id cancel => ?_, fun _ => ⟨?_, rfl, quiet⟩, fun _ => .inr ?_⟩
  · rw [reports] at cancel
    exact holds.cancelled id cancel
  · simp [BookingFile.reserves, found, AdminResolutionOperation.reserved, AdminResolutionOperation.retryable]
  · simp [BookingFile.decision, found]

theorem requestTransaction_refundHolds {r : Request} (ids : CasesNumbered f)
    (h : requestTransaction ctx r f = .ok c) (e : Encodes f l) (before : BeforeWork f) (after : BeforeWork c.file)
    (holds : RefundHolds f) : RefundHolds c.file := by
  have begun := e.heldBack before
  have unrequested := before.unrequested
  cases r with
  | respondToDirectBooking =>
      obtain ⟨requested, -⟩ := respondToDirectBookingService_ok h
      simp [requested, BookingStatus.frozen] at begun
  | providerStartJob =>
      have unstarted := after.unstarted
      obtain ⟨-, ⟨-, -, -, rfl⟩ | ⟨_, -, -, -, -, -, -, rfl⟩⟩ := providerStartJob_ok h <;> cases unstarted
  | markJobComplete =>
      obtain rfl | ⟨ongoing, -⟩ := markJobComplete_ok h
      · exact holds
      · simp [ongoing, BookingStatus.frozen] at begun
  | confirmCompletion =>
      obtain ⟨-, -, ⟨-, rfl⟩ | ⟨awaiting, -⟩⟩ := settleCompletedBooking_ok h
      · exact holds
      · cases status : f.booking.status <;> simp_all [SettlementActor.allows, BookingStatus.frozen]
  | disputeJob =>
      obtain ⟨awaiting, -⟩ := disputeJobService_ok h
      simp [awaiting, BookingStatus.frozen] at begun
  | createSafetyReport => exact createSafetyReport_refundHolds h e before holds
  | createCompletionEscalation =>
      obtain ⟨awaiting, -⟩ := createCompletionEscalation_ok h
      simp [awaiting, BookingStatus.frozen] at begun
  | startModerationReview =>
      obtain ⟨_, _, _, rfl, same | ⟨id, rfl, pending, rfl, rfl⟩ | ⟨id, -, pending, -, -⟩⟩ :=
        startModerationReview_ok h
      · rw [same]
        exact holds
      · obtain ⟨q, found, status⟩ := Option.map_eq_some_iff.mp pending
        refine holds.kept (.review (fun r listed own => ?_) rfl) (.of_eq rfl) rfl rfl fun processing => processing
        obtain rfl := ids.report found listed (by simpa using own)
        rw [status]
        rfl
      · simp [BookingFile.findEscalation, holds.unescalated] at pending
  | requestCancellation =>
      have unrequested' := after.unrequested
      obtain ⟨-, ⟨_, -, -, -, rfl⟩ | rfl | ⟨-, -, -, -, _, -, -, -, ⟨-, -, -, rfl⟩ | ⟨-, -, -, rfl⟩⟩⟩ :=
        requestCancellation_ok h
      · exact holds
      · exact holds
      all_goals simp at unrequested'
  | declineCancellation =>
      obtain ⟨⟨_, found, -⟩, -⟩ := declineCancellationRequest_ok h
      simp [BookingFile.findCancellation, unrequested] at found
  | approveCancellation =>
      obtain rfl | ⟨_, _, _, found, -⟩ := approveCancellationRequest_ok h
      · exact holds
      · simp [BookingFile.findCancellation, unrequested] at found
  | escalateCancellation =>
      obtain rfl | ⟨-, ⟨_, found, -⟩, -⟩ := escalateCancellationRequest_ok h
      · exact holds
      · simp [BookingFile.findCancellation, unrequested] at found
  | adminResolveCancellation =>
      obtain rfl | ⟨_, _, _, found, -⟩ := claimAdminCancellation_ok h
      · exact holds
      · simp [BookingFile.findCancellation, unrequested] at found
  | resolveAdminReport => exact claimReport_refundHolds ids h holds
  | resolveCompletionEscalation =>
      obtain rfl | ⟨_, _, _, found, -⟩ := claimEscalation_ok h
      · exact holds
      · simp [BookingFile.findEscalation, holds.unescalated] at found
  | resolveAdminBooking => exact claimAdminBooking_refundHolds h holds

/-- A report that is closed without a cancellation takes no decision to cancel with it. -/
theorem finalizeReport_refundHolds {id : Nat} {adminId : UserId} {outcome : ReportOutcome}
    {penalty : ReportPenalty} (h : finalizeReport ctx id adminId outcome penalty f = .ok c)
    (begun : f.booking.status = .accepted ∨ f.booking.status.frozen = true)
    (own : f.decision (.report id) = some outcome.requested) (holds : RefundHolds f) : RefundHolds c.file := by
  obtain rfl | ⟨report, closed, restored, _, found, review, -, rfl, outcomes, rfl⟩ := finalizeReport_ok h
  · exact holds
  have ended : f.booking.status ≠ .canceled ∧ f.booking.status ≠ .completed := by
    constructor <;> intro status <;> simp [status, BookingStatus.frozen] at begun
  obtain ⟨-, valid, -⟩ | ⟨-, settled, -⟩ | ⟨unfinancial, back⟩ := outcomes
  · simp [Booking.cancellationValid, ended.1] at valid
  · simp [Booking.completionSettled, ended.2] at settled
  obtain ⟨listed, same⟩ := BookingFile.findReport_id found
  have undecided : ¬ f.decision .adminBooking ≠ none := fun decided => by
    have quiet := (holds.decided decided).2.2 report listed
    rw [review] at quiet
    cases quiet
  have other : ∀ id', f.decision (.report id') = some .cancelBooking → id' ≠ id := by
    rintro id' cancel rfl
    rw [own] at cancel
    cases outcome <;> simp [ReportOutcome.requested, ReportOutcome.financial] at cancel unfinancial
  obtain ⟨reports, -, escalations, -⟩ := restoreBookingIfNoBlockingCases_cases back
  have operations := restoreBookingIfNoBlockingCases_operations back
  have decision : ∀ ref, (completeOperation restored (.report id)).decision ref = f.decision ref := by
    intro ref
    rw [completeOperation_decision]
    exact (DecisionsKept.of_eq operations).decision ref
  have remaining : ∀ r ∈ restored.reports, r.status.active = true → r ∈ f.reports := by
    intro r listed active
    rw [reports] at listed
    obtain ⟨r, member, rfl⟩ := Rows.mem_updateWhere.mp listed
    by_cases chosen : (r.id == id) = true
    · rw [if_pos chosen] at active
      cases outcome <;> simp [ReportStatus.active] at active
    · simpa [chosen] using member
  constructor
  · exact escalations.trans holds.unescalated
  · intro r listed active
    have frozen := holds.reported r (remaining r listed active) active
    obtain ⟨rfl, -⟩ | ⟨_, unblocked, -, -, rfl⟩ := restoreBookingIfNoBlockingCases_ok back
    · exact frozen
    · rw [unblocked.reports r listed] at active
      cases active
  · intro id' cancel
    rw [decision] at cancel
    obtain ⟨r, listed, rfl, active⟩ := holds.cancelled id' cancel
    refine ⟨r, ?_, rfl, active⟩
    change r ∈ restored.reports
    rw [reports]
    exact Rows.mem_updateWhere.mpr ⟨r, listed, by simp [other r.id cancel]⟩
  · intro decided
    rw [decision] at decided
    exact absurd decided undecided
  · intro processing
    have before : f.refund.map (·.status) = some .processing := by
      obtain ⟨rfl, -⟩ | ⟨_, -, -, -, rfl⟩ := restoreBookingIfNoBlockingCases_ok back <;> exact processing
    unfold BookingFile.cancelDecided
    simp only [decision]
    exact holds.refunding before

theorem reserveOutcome_refundHolds (h : reserveOutcome caller f = .ok c) (own : caller.decided f)
    (holds : RefundHolds f) : RefundHolds c.file := by
  cases caller with
  | resolveAdminReport =>
      obtain ⟨_, _, -, -, -, ⟨-, rfl⟩ | ⟨_, _, -, marked, rfl⟩⟩ := reserveReportFinancialOutcome_ok h
      · exact holds
      · have kept := markStage_decisionsKept (by decide) marked
        obtain ⟨_, -, -, written, -⟩ := markAdminResolutionStageInTransaction_ok (by decide) marked
        obtain ⟨ops, rfl⟩ := written.rows
        exact holds.kept (.of_eq rfl) kept rfl rfl fun processing => processing
  | resolveAdminBooking => simp [reserveOutcome] at h
  | _ => exact own.elim

theorem finalizeCase_refundHolds (h : finalizeCase ctx caller f = .ok c) (own : caller.decided f)
    (begun : f.booking.status = .accepted ∨ f.booking.status.frozen = true) (holds : RefundHolds f) :
    RefundHolds c.file := by
  cases caller with
  | resolveAdminReport => exact finalizeReport_refundHolds h begun own holds
  | resolveAdminBooking _ outcome =>
      obtain rfl | ⟨canceled, completed, -⟩ := finalizeAdminBooking_ok h
      · exact holds
      · cases outcome with
        | cancelBooking =>
            have status : f.booking.status = .canceled := by
              have valid := canceled rfl
              simp only [Booking.cancellationValid, Bool.and_eq_true, beq_iff_eq] at valid
              exact valid.1
            simp [status, BookingStatus.frozen] at begun
        | releaseProviderAndComplete => simp [completed rfl, BookingStatus.frozen] at begun
  | _ => exact own.elim

/-- A call that asks for the refund has decided to cancel. -/
theorem Caller.decided.cancels (own : caller.decided f) (cancels : caller.cancels = true) : f.cancelDecided := by
  cases caller with
  | resolveAdminReport id _ outcome =>
      obtain rfl : outcome = .cancelBooking := by simpa [Caller.cancels] using cancels
      exact .inl ⟨id, own⟩
  | resolveAdminBooking => exact .inr own
  | _ => exact own.elim

theorem transaction_refundHolds {answer : Answer} {call : Call} (h : call.transaction ctx answer f = .ok c)
    (on : call.OnRoute) (own : call.caller.decided f)
    (before : f.booking.status = .accepted ∨ f.booking.status.frozen = true)
    (after : c.file.booking.status = .accepted ∨ c.file.booking.status.frozen = true)
    (holds : RefundHolds f) : RefundHolds c.file := by
  obtain ⟨caller, stage⟩ := call
  cases stage with
  | reserve => exact reserveOutcome_refundHolds h own holds
  | cancelRead =>
      obtain ⟨-, rfl | rfl⟩ := readCancelBooking_ok h <;> exact holds
  | preStartCheck =>
      obtain ⟨-, -, rfl⟩ := checkPreStart_ok h
      exact holds
  | refundRead =>
      obtain ⟨_, -, rfl⟩ := readRefundBooking_ok h
      exact holds
  | refundExisting => obtain ⟨-, -, rfl⟩ | rfl := readExistingRefund_ok h <;> exact holds
  | refundIntent =>
      cases answer with
      | intent =>
          obtain ⟨_, -, rfl⟩ := checkRefundIntent_ok h
          exact holds
      | _ => simp [Call.transaction] at h
  | refundReserve =>
      have decided := own.cancels (on.cancels rfl)
      obtain ⟨-, -, ⟨_, _, -, -, rfl⟩ | ⟨-, rfl⟩ | ⟨-, -, rfl⟩⟩ := reserveRefund_ok h
      · exact holds
      · exact holds
      · exact ⟨holds.unescalated, holds.reported, holds.cancelled, holds.decided, fun _ => decided⟩
  | refundFinalize =>
      obtain ⟨-, -, rfl⟩ | ⟨-, -, -, -, rfl⟩ := finalizeRefund_ok h
      · exact holds
      · simp [BookingFile.refunded, BookingStatus.frozen] at after
  | refundCreate | refundCaught | markFailed => simp [Call.transaction] at h
  | cancelSettle =>
      obtain ⟨-, -, _, ⟨-, -, -, rfl⟩ | ⟨-, rfl⟩⟩ := settleCancellation_ok h
      · simp [BookingStatus.frozen] at after
      · exact holds.frame rfl rfl rfl rfl rfl
  | settle =>
      obtain ⟨_, settled, rfl⟩ := settleByAdmin_ok h
      obtain ⟨-, -, ⟨-, rfl⟩ | ⟨-, -, -, -, _, -, rfl⟩⟩ := settleCompletedBooking_ok settled
      · exact holds
      · simp [BookingFile.settled, BookingStatus.frozen] at after
  | markEstablished | markDecisionReady =>
      obtain ⟨_, _, _, -, marked, rfl⟩ := markStage_ok h
      have kept := markStage_decisionsKept (by decide) marked
      obtain ⟨_, -, -, written, -⟩ := markAdminResolutionStageInTransaction_ok (by decide) marked
      obtain ⟨ops, rfl⟩ := written.rows
      exact holds.kept (.of_eq rfl) kept rfl rfl fun processing => processing
  | finalize => exact finalizeCase_refundHolds h own before holds

end Transactions

section Runs

variable {s : BookingSystem} {a : Action} {f' : BookingFile} {g' : Option GatewayRefund} {next : Option Call}
  {l : Lifecycle} {C : BookingSystem → Action → Prop}

theorem Claimed.decision {f f' : BookingFile} {ref : CaseRef} {outcome : RequestedOutcome}
    {penalty : RequestedPenalty} {op : AdminResolutionOperation} (h : Claimed f ref outcome penalty f' op) :
    f'.decision ref = some outcome := by
  rw [BookingFile.decision, h.found, Option.map_some, h.outcome_eq]

/-- The decision that a request has claimed for the call it opens. -/
theorem requestTransaction_decided {ctx : Context} {f : BookingFile} {c : Commit} {r : Request} {call : Call}
    (h : requestTransaction ctx r f = .ok c) (opened : c.continues = some call) (before : BeforeWork f)
    (after : BeforeWork c.file) (holds : RefundHolds f) : call.caller.decided c.file := by
  have unrequested := before.unrequested
  obtain ⟨opens, -⟩ := requestTransaction_opens h opened
  generalize call.caller = caller at opens
  cases opens with
  | immediate listed => simp [after.unrequested] at listed
  | approval found => simp [BookingFile.findCancellation, unrequested] at found
  | cancellation =>
      obtain rfl | ⟨_, _, _, found, -⟩ := claimAdminCancellation_ok h
      · cases opened
      · simp [BookingFile.findCancellation, unrequested] at found
  | report =>
      obtain rfl | ⟨_, claimed, _, -, -, -, claim, ⟨-, rfl⟩ | ⟨-, rfl⟩⟩ := claimReport_ok h
      · cases opened
      · cases opened
      · exact claim.decision
  | escalation =>
      obtain rfl | ⟨_, _, _, found, -⟩ := claimEscalation_ok h
      · cases opened
      · simp [BookingFile.findEscalation, holds.unescalated] at found
  | booking =>
      obtain rfl | ⟨claimed, _, claim, h⟩ := claimAdminBooking_ok h
      · cases opened
      have decided : claimed.decision .adminBooking ≠ none := by simp [claim.decision]
      obtain ⟨-, rfl⟩ | ⟨-, rfl⟩ | ⟨-, -, -, -, rfl⟩ | ⟨-, -, -, -, _, _, marked, -, rfl⟩ := h
      · cases opened
      · exact decided
      · exact decided
      · have kept := markStage_decisionsKept (by decide) marked
        change _ ≠ none
        rw [kept.decision]
        exact decided

theorem Event.beforeWork (reached : refundMachine.ReachableUnder C s) (h : Event s a f' g' next)
    (after : BeforeWork f') : BeforeWork s.file := by
  obtain ⟨l, e, refines⟩ := h.reachable_refines reached
  exact refines.beforeWork e h.sameTerms (h.cases (reachable_numbered reached)) after

theorem Event.refundHolds (reached : refundMachine.ReachableUnder C s) (h : Event s a f' g' next)
    (after : BeforeWork f') (holds : RefundHolds s.file) (own : ∀ c ∈ s.calls, c.caller.decided s.file) :
    RefundHolds f' := by
  have before := h.beforeWork reached after
  obtain ⟨l, e, l', e', -⟩ := h.reachable_refines reached
  cases h with
  | requested run => exact requestTransaction_refundHolds (reachable_numbered reached) run e before after holds
  | committed found run =>
      have listed := List.mem_of_getElem? found
      exact transaction_refundHolds run (reachable_onRoute reached _ listed) (own _ listed) (e.heldBack before)
        (e'.heldBack after) holds
  | refundCaught =>
      refine holds.kept (.of_eq rfl) (.of_eq rfl) rfl rfl fun processing => ?_
      simp [recordRefundFailure] at processing
  | markedFailed =>
      exact holds.kept (.of_eq rfl) (markFailed_decisionsKept _ _) rfl rfl fun processing => processing
  | refundCalled | aborted | refundExecuted | refundTimedOut | refundFailed | stopped => exact holds
  | renumbered => exact holds.frame rfl rfl rfl rfl rfl

theorem Caller.decided.forward {f : BookingFile} {caller : Caller} (h : caller.decided f) (forward : f.Forward f')
    (unique : (f.operations.map (·.caseRef)).Nodup) : caller.decided f' := by
  cases caller with
  | resolveAdminReport => exact forward.decision unique h
  | resolveAdminBooking =>
      obtain ⟨outcome, found⟩ := Option.ne_none_iff_exists'.mp h
      change _ ≠ none
      simp [forward.decision unique found]
  | _ => exact h.elim

/-- Before the work begins, every call in flight carries out a decision that the file records. -/
theorem reachable_refundHolds (h : bookingMachine.Reachable s) :
    Coupled (fun f _ => BeforeWork f → RefundHolds f) (fun f _ c => BeforeWork f → c.caller.decided f) s := by
  refine Coupled.reachableUnder (fun f created _ => ?_) ?_ (bookingMachine_reachableUnder h)
  · obtain ⟨operations, reports, -, escalations⟩ := created.caseless
    have undecided : ∀ ref, f.decision ref = none := fun ref => by
      simp [BookingFile.decision, BookingFile.findOperation, operations]
    refine ⟨escalations, by simp [reports], by simp [undecided], by simp [undecided], ?_⟩
    cases created <;> simp [Terms.cashRequest, Terms.cashOffer, Terms.paidCapture]
  intro s a f' g' next reached hs bare event
  have own : BeforeWork s.file → ∀ c ∈ s.calls, c.caller.decided s.file :=
    fun before c listed => hs.calls c listed before
  have file : BeforeWork f' → RefundHolds f' := fun after =>
    have before := event.beforeWork reached after
    event.refundHolds reached after (hs.file before) (own before)
  have forward : BeforeWork f' → ∀ c ∈ s.calls, c.caller.decided f' := fun after c listed =>
    (own (event.beforeWork reached after) c listed).forward event.forward (operations_unique reached.reachable)
  refine ⟨file, fun c listed _ after => forward after c listed, fun c hc after => ?_⟩
  obtain ⟨_, r, rfl, -⟩ | ⟨_, _, rfl, -⟩ | ⟨call, found, same⟩ := event.next_opened hc
  · have before := event.beforeWork reached after
    cases event with
    | requested run => exact requestTransaction_decided run hc before after (hs.file before)
    | stopped => cases hc
  · exact absurd rfl (bare.2 _ _)
  · rw [same]
    exact forward after call (BookingSystem.resumed_listed found)

/-- Work that was started stays so. -/
theorem StatusWritten.stays_started (written : StatusWritten s a f') (e : Encodes s.file l) (refines : Refines l f')
    (started : s.file.booking.started = true) : f'.booking.started = true := by
  cases written with
  | kept same => exact same.2.2.trans started
  | held _ _ _ same | restored _ _ _ same | canceled _ _ _ same => exact same.trans started
  | settled _ run same =>
      rw [same]
      obtain ⟨-, -, ⟨-, rfl⟩ | ⟨-, -, -, -, _, -, rfl⟩⟩ := settleCompletedBooking_ok run <;> exact started
  | advanced before after =>
      -- only ongoing work is started and advances
      have ongoing : s.file.booking.status = .ongoing := by
        obtain status | status | status | status := before
        · obtain rfl := e.of_work (w := .requested) status
          cases started.symm.trans (e.started _ rfl)
        · exact absurd status e.not_waiting
        · obtain rfl := e.of_work (w := .accepted) status
          cases started.symm.trans (e.started _ rfl)
        · exact status
      obtain rfl := e.of_work (w := .ongoing) ongoing
      obtain ⟨l', e', rfl | step⟩ := refines
      · exact e'.started _ rfl
      · rw [e'.status] at after
        cases step with
        | finish => exact e'.started _ rfl
        | dispute | review | cancel => cases after
        | confirm awaiting => cases awaiting

/-- A booking with a request to cancel it is started, or on hold for it. -/
theorem reachable_requested (h : refundMachine.ReachableUnder C s) :
    ∀ q ∈ s.file.cancellationRequests, s.file.booking.started = true ∨ HeldForCancel s.file q.id := by
  refine (Coupled.reachableUnder (P := fun _ _ _ => True) (I := fun f _ => ∀ q ∈ f.cancellationRequests,
    f.booking.started = true ∨ HeldForCancel f q.id) (fun f created => ?_) ?_ h).file
  · obtain ⟨-, -, requests, -⟩ := created.caseless
    simp [requests]
  intro s a f' g' next reached hs _ event
  obtain ⟨l, e, refines⟩ := event.reachable_refines reached
  have cases_ := event.cases (reachable_numbered reached)
  refine ⟨fun q' listed' => ?_, fun _ _ _ => trivial, fun _ _ => trivial⟩
  obtain ⟨q, listed, keyed, -⟩ | ⟨-, new⟩ := cases_.cancellations.back q' listed'
  · obtain started | held := hs.file q listed
    · exact .inl (event.status_written.stays_started e refines started)
    · rw [keyed]
      exact .inr (held.kept e refines event.status_written cases_)
  · obtain ⟨unstarted, review, status, pending⟩ | ⟨started, -⟩ := new.state
    · exact .inr ⟨new.started.trans unstarted, .inr ⟨review, q', listed', rfl, status, pending, new.unlinked⟩⟩
    · exact .inl (new.started.trans started)

/-- No refund is in progress for a paid booking that waits for its start. -/
theorem accepted_not_refunding (h : bookingMachine.Reachable s) (paid : s.file.booking.paymentMethod = .gcash)
    (accepted : s.file.booking.status = .accepted) :
    s.file.refund.map (·.status) ≠ some .processing := by
  have reached := bookingMachine_reachableUnder h
  obtain ⟨l, e⟩ := (reachable_encodes reached).file
  obtain rfl := e.of_work (w := .accepted) accepted
  have unstarted := e.started _ rfl
  have unrequested : s.file.cancellationRequests = [] := by
    refine List.eq_nil_iff_forall_not_mem.mpr fun q listed => ?_
    obtain started | held := reachable_requested reached q listed
    · simp [Work.started, started] at unstarted
    · obtain canceled | ⟨review, -⟩ := held.holds
      · cases accepted.symm.trans canceled
      · cases accepted.symm.trans review
  have holds := (reachable_refundHolds h).file ⟨e.paid_held paid rfl, unstarted, unrequested⟩
  intro processing
  have frozen : s.file.booking.status.frozen = true := by
    obtain ⟨id, cancel⟩ | decided := holds.refunding processing
    · obtain ⟨r, listed, -, active⟩ := holds.cancelled id cancel
      exact holds.reported r listed active
    · exact (holds.decided decided).2.1
  simp [accepted, BookingStatus.frozen] at frozen

end Runs

end ServiceHub
