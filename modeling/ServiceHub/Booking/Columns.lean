import ServiceHub.Booking.Events

/-! # What a transaction writes to the booking, its queue row and its books

Every transaction of the booking services leaves these columns alone and works on cases,
operations and the refund row, or makes one of nine writes. An invariant of the columns is
proved once per write.
-/

namespace ServiceHub

open Guard

/-- Only cases, operations, progress and the refund row are written. -/
structure SameColumns (f f' : BookingFile) : Prop where
  booking : f'.booking = f.booking
  queue : f'.queue = f.queue
  completedService : f'.completedService = f.completedService
  transactions : f'.transactions = f.transactions

/-- What `providerStartJob` has checked in other rows. -/
structure StartAdmitted (ctx : Context) (f : BookingFile) : Prop where
  idle : ctx.otherOngoing = 0
  cash : f.queue = none → f.booking.paymentMethod = .onsiteCash ∧ ctx.paidWaiting = 0
  paid : ∀ q, f.queue = some q → f.booking.paymentMethod = .gcash ∧ q.status = .waiting
    ∧ ctx.firstWaiting = true ∧ ctx.serving = 0

inductive ColumnsWritten (ctx : Context) (f : BookingFile) (c : Commit) : Prop where
  | aside (same : SameColumns f c.file)
  | answered {status : BookingStatus} {started : Bool} (requested : f.booking.status = .pendingApproval)
      (answer : status = .accepted ∧ started = false ∨ status = .declined ∧ started = f.booking.started)
      (same : SameColumns { f with booking := { f.booking with status, started } } c.file)
  | startedCash (admitted : StartAdmitted ctx f) (unqueued : f.queue = none)
      (accepted : f.booking.status = .accepted) (unstarted : f.booking.started = false)
      (same : SameColumns
        { f with booking := { f.booking with status := .ongoing, started := true } } c.file)
  | startedPaid {q : Queue} (admitted : StartAdmitted ctx f) (queued : f.queue = some q)
      (ready : f.booking.status = .accepted ∨ f.booking.status = .waiting)
      (unstarted : f.booking.started = false) (recalculates : c.recalculates = true)
      (same : SameColumns { f with
        queue := some { q with status := .serving, position := 1, estimatedWait := 0 }
        booking := { f.booking with
          status := .ongoing, started := true, queuePosition := some 1 } } c.file)
  | finished (ongoing : f.booking.status = .ongoing) (recalculates : c.recalculates = true)
      (same : SameColumns { f with
        booking := { f.booking with status := .awaitingConfirmation }
        queue := f.queue.map ({ · with status := .done }) } c.file)
  | held {status : BookingStatus} {g : Queue → Queue} (payment : PaymentStatus)
      (open_ : f.booking.status.frozen = false) (frozen : status.frozen = true)
      (row : ∀ q, ∃ paymentStatus, g q = { q with paymentStatus })
      (same : SameColumns { f with
        booking := { f.booking with
          status, statusBeforeDispute := some f.booking.status, paymentStatus := payment }
        queue := f.queue.map g } c.file)
  | restored {before : BookingStatus} (frozen : f.booking.status.frozen = true)
      (saved : f.booking.statusBeforeDispute = some before)
      (same : SameColumns (f.restored before) c.file)
  | settled {actor : SettlementActor} {d : Commit} (run : settleCompletedBooking ctx actor f = .ok d)
      (file : c.file = d.file) (recalculates : c.recalculates = d.recalculates)
  | refunded {refundId : GatewayId} {status : RefundStatus} {amount : Centavos}
      (held : f.booking.paymentStatus.held = true) (recalculates : c.recalculates = true)
      (same : SameColumns { f.refunded refundId status with
        transactions := f.transactions ++ f.refundLedger refundId amount } c.file)
  | canceled (live : f.booking.status.uncancellable = false) (open_ : f.booking.status ≠ .canceled)
      (recalculates : c.recalculates = f.queue.isSome)
      (same : SameColumns { f with
        booking := { f.booking with status := .canceled, statusBeforeDispute := none }
        queue := f.queue.map ({ · with status := .cancelled }) } c.file)

section Transactions

variable {ctx : Context} {f f' : BookingFile} {c : Commit} {caller : Caller}

theorem SameColumns.refl (f : BookingFile) : SameColumns f f := ⟨rfl, rfl, rfl, rfl⟩

theorem SameColumns.trans {f'' : BookingFile} (h : SameColumns f f') (h' : SameColumns f' f'') :
    SameColumns f f'' :=
  ⟨h'.booking.trans h.booking, h'.queue.trans h.queue, h'.completedService.trans h.completedService,
    h'.transactions.trans h.transactions⟩

theorem OperationWritten.sameColumns {ref : CaseRef} {op : AdminResolutionOperation}
    (h : OperationWritten f ref f' op) : SameColumns f f' := by
  obtain ⟨ops, rfl⟩ := h.rows
  exact ⟨rfl, rfl, rfl, rfl⟩

theorem markStage_sameColumns {ref : CaseRef} {stage : OperationStage} {op : AdminResolutionOperation}
    (unfinished : stage ≠ .caseFinalized)
    (h : markAdminResolutionStageInTransaction f ref stage = .ok (f', op)) : SameColumns f f' := by
  obtain ⟨_, -, -, written, -⟩ := markAdminResolutionStageInTransaction_ok unfinished h
  exact written.sameColumns

/-- A hold that leaves the payment as it is. -/
theorem ColumnsWritten.reviewed {status : BookingStatus} (open_ : f.booking.status.frozen = false)
    (frozen : status.frozen = true)
    (same : SameColumns { f with
      booking := { f.booking with status, statusBeforeDispute := some f.booking.status } } c.file) :
    ColumnsWritten ctx f c := by
  refine .held (g := id) f.booking.paymentStatus open_ frozen (fun q => ⟨q.paymentStatus, rfl⟩) ⟨same.booking, ?_, ?_, ?_⟩
  · rw [same.queue, Option.map_id_fun, id]
  · exact same.completedService
  · exact same.transactions

/-- A hold that freezes the payment when it is held, as safety reports and cancellations do. -/
theorem ColumnsWritten.frozen {status : BookingStatus} (open_ : f.booking.status.frozen = false)
    (frozen : status.frozen = true)
    (same : SameColumns { f with
      booking := { f.booking with
        status, statusBeforeDispute := some f.booking.status
        paymentStatus :=
          if f.booking.paymentStatus = .paidHeld then .frozenHeld else f.booking.paymentStatus }
      queue :=
        if f.booking.paymentStatus = .paidHeld then
          f.queue.map ({ · with paymentStatus := .frozenHeld })
        else f.queue } c.file) : ColumnsWritten ctx f c := by
  by_cases held : f.booking.paymentStatus = .paidHeld
  · simp only [held, if_true] at same
    exact .held .frozenHeld open_ frozen (fun q => ⟨.frozenHeld, rfl⟩) same
  · simp only [held, if_false] at same
    exact .reviewed open_ frozen same

theorem providerStartJob_admitted {providerId : UserId} (h : providerStartJob ctx providerId f = .ok c) :
    StartAdmitted ctx f := by
  have start := providerStartJob_ok h
  simp only [providerStartJob, check_bind_ok, rejectIf_ok, Nat.not_lt, Nat.le_zero_eq, gt_iff_lt] at h
  obtain ⟨-, -, -, -, idle, h⟩ := h
  obtain ⟨-, ⟨unqueued, -, method, -⟩ | ⟨q, queued, method, waiting, -, first, serving, -⟩⟩ := start
  · simp only [unqueued, check_bind_ok, rejectIf_ok, Nat.not_lt, Nat.le_zero_eq] at h
    exact ⟨idle, fun _ => ⟨method, h.1⟩, fun q queued => by simp [unqueued] at queued⟩
  · refine ⟨idle, fun unqueued => by simp [queued] at unqueued, fun q' queued' => ?_⟩
    obtain rfl := Option.some.inj (queued.symm.trans queued')
    exact ⟨method, waiting, first, serving⟩

theorem requestTransaction_columns {r : Request} (h : requestTransaction ctx r f = .ok c) :
    ColumnsWritten ctx f c := by
  cases r with
  | respondToDirectBooking =>
      obtain ⟨requested, _, rfl | rfl⟩ := respondToDirectBookingService_ok h
      · exact .answered requested (.inl ⟨rfl, rfl⟩) ⟨rfl, rfl, rfl, rfl⟩
      · exact .answered requested (.inr ⟨rfl, rfl⟩) ⟨rfl, rfl, rfl, rfl⟩
  | providerStartJob =>
      have admitted := providerStartJob_admitted h
      obtain ⟨unstarted, ⟨unqueued, accepted, -, rfl⟩ | ⟨q, queued, -, -, ready, -, -, rfl⟩⟩ :=
        providerStartJob_ok h
      · exact .startedCash admitted unqueued accepted unstarted (.refl _)
      · exact .startedPaid admitted queued ready unstarted rfl (.refl _)
  | markJobComplete =>
      obtain rfl | ⟨ongoing, rfl⟩ := markJobComplete_ok h
      · exact .aside (.refl f)
      · exact .finished ongoing rfl ⟨rfl, rfl, rfl, rfl⟩
  | confirmCompletion => exact .settled h rfl rfl
  | disputeJob =>
      obtain ⟨awaiting, -, _, _, -, -, -, -, rfl⟩ := disputeJobService_ok h
      have open_ : f.booking.status.frozen = false := by
        rw [awaiting]
        rfl
      have frozen : BookingStatus.disputed.frozen = true := rfl
      refine .held (f.booking.paymentMethod.paid .frozenHeld) open_ frozen (fun q => ⟨_, rfl⟩)
        ⟨?_, rfl, rfl, rfl⟩
      rw [awaiting]
  | createSafetyReport =>
      obtain ⟨-, -, rfl | ⟨_, -, -, -, ⟨-, rfl⟩ | ⟨pausable, rfl⟩⟩⟩ := createSafetyReport_ok h
      · exact .aside (.refl f)
      · exact .aside ⟨rfl, rfl, rfl, rfl⟩
      · refine .frozen ?_ rfl ⟨rfl, rfl, rfl, rfl⟩
        cases status : f.booking.status <;> simp_all [BookingStatus.pausable, BookingStatus.frozen]
  | createCompletionEscalation =>
      obtain ⟨-, -, -, rfl | ⟨-, rfl⟩⟩ := createCompletionEscalation_ok h <;>
        exact .aside ⟨rfl, rfl, rfl, rfl⟩
  | startModerationReview =>
      obtain ⟨_, _, _, rfl, -⟩ := startModerationReview_ok h
      exact .aside ⟨rfl, rfl, rfl, rfl⟩
  | requestCancellation =>
      obtain ⟨-, ⟨_, -, -, -, rfl⟩ | rfl | ⟨-, -, refuses, -, _, -, -, -, ⟨-, -, -, rfl⟩ |
        ⟨-, -, -, rfl⟩⟩⟩ := requestCancellation_ok h
      · exact .aside (.refl f)
      · exact .aside (.refl f)
      · refine .frozen ?_ rfl ⟨rfl, rfl, rfl, rfl⟩
        cases status : f.booking.status <;>
          simp_all [BookingStatus.refusesCancellation, BookingStatus.frozen]
      · exact .aside ⟨rfl, rfl, rfl, rfl⟩
  | declineCancellation =>
      obtain ⟨-, rfl⟩ := declineCancellationRequest_ok h
      exact .aside ⟨rfl, rfl, rfl, rfl⟩
  | approveCancellation =>
      obtain rfl | ⟨_, _, _, -, -, -, claim, ⟨-, rfl⟩ | ⟨-, rfl⟩⟩ := approveCancellationRequest_ok h
      · exact .aside (.refl f)
      · exact .aside claim.written.sameColumns
      · exact .aside (claim.written.sameColumns.trans ⟨rfl, rfl, rfl, rfl⟩)
  | escalateCancellation =>
      obtain rfl | ⟨-, -, _, -, -, -, rfl⟩ := escalateCancellationRequest_ok h <;>
        exact .aside ⟨rfl, rfl, rfl, rfl⟩
  | adminResolveCancellation =>
      obtain rfl | ⟨_, _, _, -, -, claim, ⟨-, rfl⟩ | ⟨-, _, -, -, rfl⟩⟩ := claimAdminCancellation_ok h
      · exact .aside (.refl f)
      · exact .aside claim.written.sameColumns
      · exact .aside (claim.written.sameColumns.trans ⟨rfl, rfl, rfl, rfl⟩)
  | resolveAdminReport =>
      obtain rfl | ⟨_, _, _, -, -, -, claim, ⟨-, rfl⟩ | ⟨-, rfl⟩⟩ := claimReport_ok h
      · exact .aside (.refl f)
      · exact .aside claim.written.sameColumns
      · exact .aside (claim.written.sameColumns.trans ⟨rfl, rfl, rfl, rfl⟩)
  | resolveCompletionEscalation =>
      obtain rfl | ⟨_, _, _, -, -, claim, ⟨-, rfl⟩ | ⟨-, rfl⟩⟩ := claimEscalation_ok h
      · exact .aside (.refl f)
      · exact .aside claim.written.sameColumns
      · exact .aside (claim.written.sameColumns.trans ⟨rfl, rfl, rfl, rfl⟩)
  | resolveAdminBooking =>
      obtain rfl | ⟨claimed, _, claim, h⟩ := claimAdminBooking_ok h
      · exact .aside (.refl f)
      obtain ⟨-, rfl⟩ | ⟨-, rfl⟩ | ⟨-, -, -, -, rfl⟩ | ⟨-, ⟨_, allowed⟩, -, -, _, _, marked, -, rfl⟩ := h
      · exact .aside claim.written.sameColumns
      · exact .aside claim.written.sameColumns
      · exact .aside claim.written.sameColumns
      · have claimed_same := claim.written.sameColumns
        have held_same := markStage_sameColumns (by decide) marked
        have frozen : BookingStatus.underReview.frozen = true := rfl
        refine .reviewed (adminBookingOutcomeAllowed_open allowed) frozen ⟨?_, ?_, ?_, ?_⟩
        · rw [held_same.booking, BookingFile.heldForAdmin, claimed_same.booking]
        · exact held_same.queue.trans claimed_same.queue
        · exact held_same.completedService.trans claimed_same.completedService
        · exact held_same.transactions.trans claimed_same.transactions

theorem restoreBookingIfNoBlockingCases_columns (h : restoreBookingIfNoBlockingCases ctx f = .ok f') :
    SameColumns f f' ∨ ∃ before, f.booking.status.frozen = true
      ∧ f.booking.statusBeforeDispute = some before ∧ SameColumns (f.restored before) f' := by
  obtain ⟨rfl, -⟩ | ⟨before, -, frozen, saved, rfl⟩ := restoreBookingIfNoBlockingCases_ok h
  · exact .inl (.refl f')
  · exact .inr ⟨before, frozen, saved, .refl _⟩

/-- A case is closed and the booking restored if it was the last one. -/
theorem ColumnsWritten.closing {closed restored : BookingFile} {ref : CaseRef}
    (h : restoreBookingIfNoBlockingCases ctx closed = .ok restored) (same : SameColumns f closed)
    (file : c.file = completeOperation restored ref) : ColumnsWritten ctx f c := by
  have completed : SameColumns restored c.file := by
    rw [file]
    exact ⟨rfl, rfl, rfl, rfl⟩
  obtain kept | ⟨before, frozen, saved, back⟩ := restoreBookingIfNoBlockingCases_columns h
  · exact .aside (same.trans (kept.trans completed))
  · obtain ⟨booking, queue, completedService, transactions⟩ := same
    refine .restored (booking ▸ frozen) (booking ▸ saved) (.trans ?_ (back.trans completed))
    constructor <;> simp [BookingFile.restored, booking, queue, completedService, transactions]

theorem reserveOutcome_columns (h : reserveOutcome caller f = .ok c) : ColumnsWritten ctx f c := by
  cases caller with
  | refundBookingPayment | requestCancellation | resolveAdminBooking => simp [reserveOutcome] at h
  | respondToCancellationRequest | adminResolveCancellationRequest =>
      obtain ⟨_, _, -, -, -, ⟨-, rfl⟩ | ⟨_, _, -, marked, rfl⟩⟩ :=
        reserveCancellationFinancialOutcome_ok h
      · exact .aside (.refl f)
      · exact .aside (markStage_sameColumns (by decide) marked)
  | resolveAdminReport =>
      obtain ⟨_, _, -, -, -, ⟨-, rfl⟩ | ⟨_, _, -, marked, rfl⟩⟩ := reserveReportFinancialOutcome_ok h
      · exact .aside (.refl f)
      · exact .aside (markStage_sameColumns (by decide) marked)
  | resolveCompletionEscalation =>
      obtain ⟨_, _, -, -, -, ⟨-, rfl⟩ | ⟨_, _, _, -, ⟨-, -, rfl⟩ | ⟨awaiting, rfl⟩, marked, rfl⟩⟩ :=
        reserveCompletionFinancialOutcome_ok h
      · exact .aside (.refl f)
      · exact .aside (markStage_sameColumns (by decide) marked)
      · have open_ : f.booking.status.frozen = false := by
          rw [awaiting]
          rfl
        have held := markStage_sameColumns (by decide) marked
        have frozen : BookingStatus.underReview.frozen = true := rfl
        refine .reviewed open_ frozen ⟨?_, held.queue, held.completedService, held.transactions⟩
        rw [held.booking, BookingFile.heldForEscalation, awaiting]

theorem finalizeCase_columns (h : finalizeCase ctx caller f = .ok c) : ColumnsWritten ctx f c := by
  cases caller with
  | refundBookingPayment => simp [finalizeCase] at h
  | requestCancellation =>
      obtain ⟨-, rfl⟩ := finalizeImmediateCancellation_ok h
      exact .aside ⟨rfl, rfl, rfl, rfl⟩
  | respondToCancellationRequest =>
      obtain rfl | ⟨-, rfl⟩ := finalizeParticipantApproval_ok h <;> exact .aside ⟨rfl, rfl, rfl, rfl⟩
  | adminResolveCancellationRequest =>
      obtain rfl | ⟨_, closed, restored, rfl, ⟨-, -, rfl⟩ | ⟨-, back⟩, -, rfl⟩ :=
        finalizeAdminCancellation_ok h
      · exact .aside (.refl f)
      · exact .aside ⟨rfl, rfl, rfl, rfl⟩
      · exact .closing back ⟨rfl, rfl, rfl, rfl⟩ rfl
  | resolveAdminReport =>
      obtain rfl | ⟨_, _, _, _, -, -, -, rfl, ⟨-, -, rfl⟩ | ⟨-, -, rfl⟩ | ⟨-, back⟩, rfl⟩ :=
        finalizeReport_ok h
      · exact .aside (.refl f)
      · exact .aside ⟨rfl, rfl, rfl, rfl⟩
      · exact .aside ⟨rfl, rfl, rfl, rfl⟩
      · exact .closing back ⟨rfl, rfl, rfl, rfl⟩ rfl
  | resolveCompletionEscalation =>
      obtain rfl | ⟨-, -, -, -, rfl⟩ := finalizeEscalation_ok h <;> exact .aside ⟨rfl, rfl, rfl, rfl⟩
  | resolveAdminBooking =>
      obtain rfl | ⟨-, -, rfl⟩ := finalizeAdminBooking_ok h <;> exact .aside ⟨rfl, rfl, rfl, rfl⟩

theorem transaction_columns {answer : Answer} {call : Call}
    (h : call.transaction ctx answer f = .ok c) : ColumnsWritten ctx f c := by
  obtain ⟨caller, stage⟩ := call
  cases stage with
  | reserve => exact reserveOutcome_columns h
  | cancelRead => obtain ⟨-, rfl | rfl⟩ := readCancelBooking_ok h <;> exact .aside (.refl f)
  | preStartCheck =>
      obtain ⟨-, -, rfl⟩ := checkPreStart_ok h
      exact .aside (.refl f)
  | refundRead =>
      obtain ⟨_, -, rfl⟩ := readRefundBooking_ok h
      exact .aside (.refl f)
  | refundExisting => obtain ⟨-, -, rfl⟩ | rfl := readExistingRefund_ok h <;> exact .aside (.refl f)
  | refundIntent =>
      cases answer with
      | intent =>
          obtain ⟨_, -, rfl⟩ := checkRefundIntent_ok h
          exact .aside (.refl f)
      | _ => simp [Call.transaction] at h
  | refundReserve =>
      obtain ⟨-, -, ⟨_, _, -, -, rfl⟩ | ⟨-, rfl⟩ | ⟨-, -, rfl⟩⟩ := reserveRefund_ok h <;>
        exact .aside ⟨rfl, rfl, rfl, rfl⟩
  | refundFinalize =>
      obtain ⟨-, -, rfl⟩ | ⟨-, -, held, -, rfl⟩ := finalizeRefund_ok h
      · exact .aside (.refl f)
      · exact .refunded held rfl (.refl _)
  | refundCreate | refundCaught | markFailed => simp [Call.transaction] at h
  | cancelSettle =>
      obtain ⟨-, live, _, ⟨-, open_, -, rfl⟩ | ⟨-, rfl⟩⟩ := settleCancellation_ok h
      · exact .canceled live open_ rfl ⟨rfl, rfl, rfl, rfl⟩
      · exact .aside ⟨rfl, rfl, rfl, rfl⟩
  | settle =>
      obtain ⟨_, settled, rfl⟩ := settleByAdmin_ok h
      exact .settled settled rfl rfl
  | markEstablished | markDecisionReady =>
      obtain ⟨_, _, _, -, marked, rfl⟩ := markStage_ok h
      exact .aside (markStage_sameColumns (by decide) marked)
  | finalize => exact finalizeCase_columns h

end Transactions

/-- A step of a booking is one write to its columns, with the effects of its transaction. -/
theorem BookingSystem.step_columns {ctx : Context} {s s' : BookingSystem} {st : Step} {effects : Effects}
    (h : s.step ctx st = some (s', effects)) :
    ∃ c : Commit, ColumnsWritten ctx s.file c ∧ s'.file = c.file ∧ effects = c.effects := by
  have quiet : ∀ f : BookingFile, SameColumns s.file f → s'.file = f → effects = {} →
      ∃ c : Commit, ColumnsWritten ctx s.file c ∧ s'.file = c.file ∧ effects = c.effects :=
    fun f same file none => ⟨{ file := f }, .aside same, file, none⟩
  cases st with
  | request r =>
      simp only [BookingSystem.step, BookingSystem.request] at h
      split at h
      · rename_i c run
        obtain ⟨rfl, rfl⟩ := Prod.mk.inj (Option.some.inj h)
        exact ⟨c, requestTransaction_columns run, rfl, rfl⟩
      · cases h
  | refund =>
      obtain ⟨rfl, rfl⟩ := Prod.mk.inj (Option.some.inj h)
      exact quiet s.file (.refl _) rfl rfl
  | crash k =>
      simp only [BookingSystem.step] at h
      split at h
      · obtain ⟨rfl, rfl⟩ := Prod.mk.inj (Option.some.inj h)
        exact quiet s.file (.refl _) rfl rfl
      · cases h
  | resume k answer =>
      simp only [BookingSystem.step, BookingSystem.resume, Option.bind_eq_some_iff] at h
      obtain ⟨⟨caller, stage⟩, -, h⟩ := h
      cases stage with
      | refundCreate =>
          cases answer with
          | refunded | timedOut | failed =>
              obtain ⟨rfl, rfl⟩ := Prod.mk.inj (Option.some.inj h)
              exact quiet s.file (.refl _) rfl rfl
          | none | intent => simp at h
      | refundCaught =>
          obtain ⟨rfl, rfl⟩ := Prod.mk.inj (Option.some.inj h)
          exact quiet (recordRefundFailure s.file) ⟨rfl, rfl, rfl, rfl⟩ rfl rfl
      | markFailed =>
          obtain ⟨rfl, rfl⟩ := Prod.mk.inj (Option.some.inj h)
          refine quiet _ ?_ rfl rfl
          cases caller.operation <;> exact ⟨rfl, rfl, rfl, rfl⟩
      | _ =>
          simp only at h
          split at h
          · rename_i c run
            obtain ⟨rfl, rfl⟩ := Prod.mk.inj (Option.some.inj h)
            exact ⟨c, transaction_columns run, rfl, rfl⟩
          · obtain ⟨rfl, rfl⟩ := Prod.mk.inj (Option.some.inj h)
            exact quiet s.file (.refl _) rfl rfl

end ServiceHub
