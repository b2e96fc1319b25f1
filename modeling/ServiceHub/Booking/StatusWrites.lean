import ServiceHub.Booking.Events

/-! # Which transactions write the booking status

A request either leaves the status columns, advances the work, puts the booking on hold or
settles it. The transactions of a call hold, restore, settle or cancel it, each at one
stage.
-/

namespace ServiceHub

open Guard

/-- The status columns are unchanged. -/
def SameStatus (f f' : BookingFile) : Prop :=
  f'.booking.status = f.booking.status
    ∧ f'.booking.statusBeforeDispute = f.booking.statusBeforeDispute
    ∧ f'.booking.started = f.booking.started

/-- Statuses that a request of a participant leads to without a case. -/
def BookingStatus.advanced : BookingStatus → Bool
  | .accepted | .declined | .ongoing | .awaitingConfirmation => true
  | _ => false

inductive Request.StatusWrite (ctx : Context) (f : BookingFile) (c : Commit) : Request → Prop where
  | kept {r} (same : SameStatus f c.file) : StatusWrite ctx f c r
  | advanced {r} (before : f.booking.status = .pendingApproval ∨ f.booking.status = .waiting
        ∨ f.booking.status = .accepted ∨ f.booking.status = .ongoing)
      (after : c.file.booking.status.advanced = true) : StatusWrite ctx f c r
  | held {r} (open_ : f.booking.status.frozen = false)
      (after : c.file.booking.status.frozen = true)
      (saved : c.file.booking.statusBeforeDispute = some f.booking.status)
      (started : c.file.booking.started = f.booking.started) : StatusWrite ctx f c r
  | settled {seekerId} (run : settleCompletedBooking ctx (.seeker seekerId) f = .ok c) :
      StatusWrite ctx f c (.confirmCompletion seekerId)

inductive Call.StatusWrite (ctx : Context) (f : BookingFile) (c : Commit) (caller : Caller) :
    Stage → Prop where
  | kept {stage} (same : SameStatus f c.file) : StatusWrite ctx f c caller stage
  | held (before : f.booking.status = .awaitingConfirmation)
      (after : c.file.booking.status = .underReview)
      (saved : c.file.booking.statusBeforeDispute = some .awaitingConfirmation)
      (started : c.file.booking.started = f.booking.started) : StatusWrite ctx f c caller .reserve
  | restored {before} (frozen : f.booking.status.frozen = true)
      (saved : f.booking.statusBeforeDispute = some before)
      (after : c.file.booking.status = before)
      (cleared : c.file.booking.statusBeforeDispute = none)
      (started : c.file.booking.started = f.booking.started) (unblocked : Unblocked c.file) :
      StatusWrite ctx f c caller .finalize
  | refunded {resumed id status amount} (held : f.booking.paymentStatus.held = true)
      (after : c.file.booking.status = .canceled)
      (started : c.file.booking.started = f.booking.started) :
      StatusWrite ctx f c caller (.refundFinalize resumed id status amount)
  | canceled (live : f.booking.status.uncancellable = false)
      (after : c.file.booking.status = .canceled)
      (started : c.file.booking.started = f.booking.started) :
      StatusWrite ctx f c caller (.cancelSettle false)
  | settled {settled} (run : settleCompletedBooking ctx .admin f = .ok settled)
      (same : c = { settled with continues := some ⟨caller, .markEstablished⟩ }) :
      StatusWrite ctx f c caller .settle

section Transactions

variable {ctx : Context} {f f' : BookingFile} {c : Commit} {caller : Caller}

theorem SameStatus.refl (f : BookingFile) : SameStatus f f := ⟨rfl, rfl, rfl⟩

theorem OperationWritten.sameStatus {ref : CaseRef} {op : AdminResolutionOperation}
    (h : OperationWritten f ref f' op) : SameStatus f f' := by
  obtain ⟨ops, rfl⟩ := h.rows
  exact .refl f

theorem markStage_sameStatus {ref : CaseRef} {stage : OperationStage} {op : AdminResolutionOperation}
    (unfinished : stage ≠ .caseFinalized)
    (h : markAdminResolutionStageInTransaction f ref stage = .ok (f', op)) : SameStatus f f' := by
  obtain ⟨_, -, -, written, -⟩ := markAdminResolutionStageInTransaction_ok unfinished h
  exact written.sameStatus

theorem requestTransaction_status {r : Request} (h : requestTransaction ctx r f = .ok c) :
    r.StatusWrite ctx f c := by
  cases r with
  | respondToDirectBooking =>
      obtain ⟨requested, _, rfl | rfl⟩ := respondToDirectBookingService_ok h <;>
        exact .advanced (.inl requested) rfl
  | providerStartJob =>
      obtain ⟨-, ⟨-, accepted, -, rfl⟩ | ⟨_, -, -, -, accepted, -, -, rfl⟩⟩ := providerStartJob_ok h
      · exact .advanced (.inr (.inr (.inl accepted))) rfl
      · refine .advanced ?_ rfl
        obtain accepted | waiting := accepted
        · exact .inr (.inr (.inl accepted))
        · exact .inr (.inl waiting)
  | markJobComplete =>
      obtain rfl | ⟨ongoing, rfl⟩ := markJobComplete_ok h
      · exact .kept (.refl _)
      · exact .advanced (.inr (.inr (.inr ongoing))) rfl
  | confirmCompletion => exact .settled h
  | disputeJob =>
      obtain ⟨awaiting, -, _, _, -, -, -, -, rfl⟩ := disputeJobService_ok h
      refine .held ?_ rfl ?_ rfl
      · rw [awaiting]
        rfl
      · rw [awaiting]
  | createSafetyReport =>
      obtain ⟨-, -, rfl | ⟨_, -, -, -, ⟨-, rfl⟩ | ⟨pausable, rfl⟩⟩⟩ := createSafetyReport_ok h
      · exact .kept (.refl _)
      · exact .kept (.refl _)
      · refine .held ?_ rfl rfl rfl
        cases status : f.booking.status <;> simp_all [BookingStatus.pausable, BookingStatus.frozen]
  | createCompletionEscalation =>
      obtain ⟨-, -, -, rfl | ⟨-, rfl⟩⟩ := createCompletionEscalation_ok h <;> exact .kept (.refl _)
  | startModerationReview =>
      obtain ⟨_, _, _, rfl, -⟩ := startModerationReview_ok h
      exact .kept (.refl _)
  | requestCancellation =>
      obtain ⟨-, ⟨_, -, -, -, rfl⟩ | rfl | ⟨-, -, refuses, -, _, -, -, -, ⟨-, -, -, rfl⟩ |
        ⟨-, -, -, rfl⟩⟩⟩ := requestCancellation_ok h
      · exact .kept (.refl _)
      · exact .kept (.refl _)
      · refine .held ?_ rfl rfl rfl
        cases status : f.booking.status <;>
          simp_all [BookingStatus.refusesCancellation, BookingStatus.frozen]
      · exact .kept (.refl _)
  | declineCancellation =>
      obtain ⟨-, rfl⟩ := declineCancellationRequest_ok h
      exact .kept (.refl _)
  | approveCancellation =>
      obtain rfl | ⟨_, _, _, -, -, -, claim, ⟨-, rfl⟩ | ⟨-, rfl⟩⟩ := approveCancellationRequest_ok h
      · exact .kept (.refl _)
      · exact .kept claim.written.sameStatus
      · exact .kept claim.written.sameStatus
  | escalateCancellation =>
      obtain rfl | ⟨-, -, _, -, -, -, rfl⟩ := escalateCancellationRequest_ok h <;>
        exact .kept (.refl _)
  | adminResolveCancellation =>
      obtain rfl | ⟨_, _, _, -, -, claim, ⟨-, rfl⟩ | ⟨-, _, -, -, rfl⟩⟩ := claimAdminCancellation_ok h
      · exact .kept (.refl _)
      · exact .kept claim.written.sameStatus
      · exact .kept claim.written.sameStatus
  | resolveAdminReport =>
      obtain rfl | ⟨_, _, _, -, -, -, claim, ⟨-, rfl⟩ | ⟨-, rfl⟩⟩ := claimReport_ok h
      · exact .kept (.refl _)
      · exact .kept claim.written.sameStatus
      · exact .kept claim.written.sameStatus
  | resolveCompletionEscalation =>
      obtain rfl | ⟨_, _, _, -, -, claim, ⟨-, rfl⟩ | ⟨-, rfl⟩⟩ := claimEscalation_ok h
      · exact .kept (.refl _)
      · exact .kept claim.written.sameStatus
      · exact .kept claim.written.sameStatus
  | resolveAdminBooking =>
      obtain rfl | ⟨claimed, _, claim, h⟩ := claimAdminBooking_ok h
      · exact .kept (.refl _)
      obtain ⟨-, rfl⟩ | ⟨-, rfl⟩ | ⟨-, -, -, -, rfl⟩ | ⟨-, ⟨_, allowed⟩, -, -, _, _, marked, -, rfl⟩ :=
        h
      · exact .kept claim.written.sameStatus
      · exact .kept claim.written.sameStatus
      · exact .kept claim.written.sameStatus
      · obtain ⟨status, before, started⟩ := markStage_sameStatus (by decide) marked
        obtain ⟨same, -, same_started⟩ := claim.written.sameStatus
        refine .held (adminBookingOutcomeAllowed_open allowed) ?_ ?_ (started.trans same_started)
        · rw [status]
          rfl
        · rw [before, ← same]
          rfl

theorem restoreBookingIfNoBlockingCases_status (h : restoreBookingIfNoBlockingCases ctx f = .ok f') :
    SameStatus f f' ∨ ∃ before, f.booking.status.frozen = true
      ∧ f.booking.statusBeforeDispute = some before
      ∧ f'.booking.status = before ∧ f'.booking.statusBeforeDispute = none
      ∧ f'.booking.started = f.booking.started ∧ Unblocked f' := by
  obtain ⟨rfl, -⟩ | ⟨before, unblocked, frozen, saved, rfl⟩ := restoreBookingIfNoBlockingCases_ok h
  · exact .inl (.refl _)
  · exact .inr ⟨before, frozen, saved, rfl, rfl, rfl, unblocked.reports, unblocked.cancellations⟩

theorem finalizeCase_status (h : finalizeCase ctx caller f = .ok c) :
    Call.StatusWrite ctx f c caller .finalize := by
  cases caller with
  | refundBookingPayment => simp [finalizeCase] at h
  | requestCancellation =>
      obtain ⟨-, rfl⟩ := finalizeImmediateCancellation_ok h
      exact .kept (.refl _)
  | respondToCancellationRequest =>
      obtain rfl | ⟨-, rfl⟩ := finalizeParticipantApproval_ok h <;> exact .kept (.refl _)
  | adminResolveCancellationRequest =>
      obtain rfl | ⟨_, closed, restored, rfl, ⟨-, -, rfl⟩ | ⟨-, back⟩, -, rfl⟩ :=
        finalizeAdminCancellation_ok h
      · exact .kept (.refl _)
      · exact .kept (.refl _)
      · obtain same | ⟨before, frozen, saved, after, cleared, started, unblocked⟩ :=
          restoreBookingIfNoBlockingCases_status back
        · exact .kept same
        · exact .restored frozen saved after cleared started ⟨unblocked.reports, unblocked.cancellations⟩
  | resolveAdminReport =>
      obtain rfl | ⟨_, _, _, _, -, -, -, rfl, ⟨-, -, rfl⟩ | ⟨-, -, rfl⟩ | ⟨-, back⟩, rfl⟩ :=
        finalizeReport_ok h
      · exact .kept (.refl _)
      · exact .kept (.refl _)
      · exact .kept (.refl _)
      · obtain same | ⟨before, frozen, saved, after, cleared, started, unblocked⟩ :=
          restoreBookingIfNoBlockingCases_status back
        · exact .kept same
        · exact .restored frozen saved after cleared started ⟨unblocked.reports, unblocked.cancellations⟩
  | resolveCompletionEscalation =>
      obtain rfl | ⟨-, -, -, -, rfl⟩ := finalizeEscalation_ok h <;> exact .kept (.refl _)
  | resolveAdminBooking =>
      obtain rfl | ⟨-, -, rfl⟩ := finalizeAdminBooking_ok h <;> exact .kept (.refl _)

theorem reserveOutcome_status (h : reserveOutcome caller f = .ok c) :
    Call.StatusWrite ctx f c caller .reserve := by
  cases caller with
  | refundBookingPayment | requestCancellation | resolveAdminBooking => simp [reserveOutcome] at h
  | respondToCancellationRequest | adminResolveCancellationRequest =>
      obtain ⟨_, _, -, -, -, ⟨-, rfl⟩ | ⟨_, _, -, marked, rfl⟩⟩ :=
        reserveCancellationFinancialOutcome_ok h
      · exact .kept (.refl _)
      · exact .kept (markStage_sameStatus (by decide) marked)
  | resolveAdminReport =>
      obtain ⟨_, _, -, -, -, ⟨-, rfl⟩ | ⟨_, _, -, marked, rfl⟩⟩ := reserveReportFinancialOutcome_ok h
      · exact .kept (.refl _)
      · exact .kept (markStage_sameStatus (by decide) marked)
  | resolveCompletionEscalation =>
      obtain ⟨_, _, -, -, -, ⟨-, rfl⟩ | ⟨_, _, _, -, ⟨-, -, rfl⟩ | ⟨awaiting, rfl⟩, marked, rfl⟩⟩ :=
        reserveCompletionFinancialOutcome_ok h
      · exact .kept (.refl _)
      · exact .kept (markStage_sameStatus (by decide) marked)
      · obtain ⟨status, before, started⟩ := markStage_sameStatus (by decide) marked
        exact .held awaiting status before started

theorem transaction_status {answer : Answer} {call : Call}
    (h : call.transaction ctx answer f = .ok c) :
    Call.StatusWrite ctx f c call.caller call.stage := by
  obtain ⟨caller, stage⟩ := call
  cases stage with
  | reserve => exact reserveOutcome_status h
  | cancelRead => obtain ⟨-, rfl | rfl⟩ := readCancelBooking_ok h <;> exact .kept (.refl _)
  | preStartCheck =>
      obtain ⟨-, -, rfl⟩ := checkPreStart_ok h
      exact .kept (.refl _)
  | refundRead =>
      obtain ⟨_, -, rfl⟩ := readRefundBooking_ok h
      exact .kept (.refl _)
  | refundExisting => obtain ⟨-, -, rfl⟩ | rfl := readExistingRefund_ok h <;> exact .kept (.refl _)
  | refundIntent =>
      cases answer with
      | intent =>
          obtain ⟨_, -, rfl⟩ := checkRefundIntent_ok h
          exact .kept (.refl _)
      | _ => simp [Call.transaction] at h
  | refundReserve =>
      obtain ⟨-, -, ⟨_, _, -, -, rfl⟩ | ⟨-, rfl⟩ | ⟨-, -, rfl⟩⟩ := reserveRefund_ok h <;>
        exact .kept (.refl _)
  | refundFinalize =>
      obtain ⟨-, -, rfl⟩ | ⟨-, -, held, -, rfl⟩ := finalizeRefund_ok h
      · exact .kept (.refl _)
      · exact .refunded held rfl rfl
  | refundCreate | refundCaught | markFailed => simp [Call.transaction] at h
  | cancelSettle =>
      obtain ⟨-, cancellable, _, ⟨rfl, -, -, rfl⟩ | ⟨-, rfl⟩⟩ := settleCancellation_ok h
      · exact .canceled cancellable rfl rfl
      · exact .kept (.refl _)
  | settle =>
      obtain ⟨_, settled, same⟩ := settleByAdmin_ok h
      exact .settled settled same
  | markEstablished | markDecisionReady =>
      obtain ⟨_, _, _, -, marked, rfl⟩ := markStage_ok h
      exact .kept (markStage_sameStatus (by decide) marked)
  | finalize => exact finalizeCase_status h

end Transactions

end ServiceHub
