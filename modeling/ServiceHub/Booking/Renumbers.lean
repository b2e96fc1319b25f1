import ServiceHub.Booking.RefundProtocol
import ServiceHub.Booking.Starts

/-! # Which transactions renumber the queue

A start, the end of the work and a confirmation do, and of the statements of a call those that settle a
completion, a refund or a cancellation. The end of the work does so for a cash job too, a cancellation only
for a booking that has a queue row.
-/

namespace ServiceHub

open Guard

/-- The request renumbers the queue when it commits. -/
def Request.renumbers (f : BookingFile) : Request → Prop
  | .providerStartJob _ => f.queue.isSome = true ∧ f.booking.started = false
  | .markJobComplete _ => f.booking.status = .ongoing
  | .confirmCompletion _ => f.queue.isSome = true ∧ f.booking.status = .awaitingConfirmation
  | _ => False

def Stage.renumbers (f : BookingFile) : Stage → Prop
  | .refundFinalize _ _ _ _ => f.queue.isSome = true ∧ f.booking.paymentStatus.held = true ∧ f.refund.isSome = true
  | .cancelSettle held => held = false ∧ f.queue.isSome = true ∧ f.booking.status ≠ .canceled
      ∧ f.refund.map (·.status) ≠ some .processing
  | .settle => f.queue.isSome = true ∧ f.refund.map (·.status) ≠ some .processing
      ∧ (f.booking.status = .awaitingConfirmation ∨ f.booking.status.frozen = true)
  | _ => False

def BookingSystem.renumbers (x : BookingSystem) : Step → Prop
  | .request r => r.renumbers x.file
  | .resume k _ => ∃ call, x.calls[k]? = some call ∧ call.stage.renumbers x.file
  | _ => False

/-- The booking neither waits nor is at work for cash. -/
structure BookingFile.OffQueue (f : BookingFile) : Prop where
  row : ∀ q, f.queue = some q → q.status ≠ .waiting
  cash : f.booking.paymentMethod = .onsiteCash →
    f.booking.status ≠ .ongoing ∧ f.booking.status.frozen = false

theorem BookingFile.OffQueue.of_map {f : BookingFile} {g : Queue → Queue} {queue : Option Queue}
    (row : f.queue = queue.map g) (gone : ∀ q, (g q).status ≠ .waiting)
    (idle : f.booking.status ≠ .ongoing ∧ f.booking.status.frozen = false) : f.OffQueue := by
  refine ⟨fun q queued => ?_, fun _ => idle⟩
  rw [row, Option.map_eq_some_iff] at queued
  obtain ⟨q, -, rfl⟩ := queued
  exact gone q

section Transactions

variable {ctx : Context} {f : BookingFile} {c : Commit} {caller : Caller}

theorem settleCompletedBooking_renumbers {actor : SettlementActor} (h : settleCompletedBooking ctx actor f = .ok c)
    (renumbers : c.recalculates = true) : (f.queue.isSome = true ∧ f.refund.map (·.status) ≠ some .processing
      ∧ actor.allows f.booking.status = true) ∧ c.file.OffQueue := by
  obtain ⟨idle, -, ⟨-, rfl⟩ | ⟨allowed, -, -, -, _, -, rfl⟩⟩ := settleCompletedBooking_ok h
  · cases renumbers
  · exact ⟨⟨renumbers, idle, allowed⟩, .of_map rfl (by simp) ⟨BookingStatus.noConfusion, rfl⟩⟩

/-- The transaction leaves the rows of the queue and of the request alone. -/
structure Commit.Quiet (c : Commit) : Prop where
  recalculates : c.recalculates = false
  requestStatus : c.requestStatus = none

theorem Commit.Quiet.not_renumbers (h : c.Quiet) : ¬ c.recalculates = true := by simp [h.recalculates]

/-- A request that neither starts, ends nor confirms the work writes its booking only. -/
theorem requestTransaction_quiet {r : Request} (h : requestTransaction ctx r f = .ok c) :
    c.Quiet ∨ (∃ providerId, r = .providerStartJob providerId) ∨ (∃ providerId, r = .markJobComplete providerId)
      ∨ ∃ seekerId, r = .confirmCompletion seekerId := by
  cases r with
  | providerStartJob => exact .inr (.inl ⟨_, rfl⟩)
  | markJobComplete => exact .inr (.inr (.inl ⟨_, rfl⟩))
  | confirmCompletion => exact .inr (.inr (.inr ⟨_, rfl⟩))
  | respondToDirectBooking =>
      obtain ⟨-, _, rfl | rfl⟩ := respondToDirectBookingService_ok h <;> exact .inl ⟨rfl, rfl⟩
  | disputeJob =>
      obtain ⟨-, -, _, _, -, -, -, -, rfl⟩ := disputeJobService_ok h
      exact .inl ⟨rfl, rfl⟩
  | createSafetyReport =>
      obtain ⟨-, -, rfl | ⟨_, -, -, -, ⟨-, rfl⟩ | ⟨-, rfl⟩⟩⟩ := createSafetyReport_ok h <;> exact .inl ⟨rfl, rfl⟩
  | createCompletionEscalation =>
      obtain ⟨-, -, -, rfl | ⟨-, rfl⟩⟩ := createCompletionEscalation_ok h <;> exact .inl ⟨rfl, rfl⟩
  | startModerationReview =>
      obtain ⟨_, _, _, rfl, -⟩ := startModerationReview_ok h
      exact .inl ⟨rfl, rfl⟩
  | requestCancellation =>
      obtain ⟨-, ⟨_, -, -, -, rfl⟩ | rfl | ⟨-, -, -, -, _, -, -, -, ⟨-, -, -, rfl⟩ | ⟨-, -, -, rfl⟩⟩⟩ :=
        requestCancellation_ok h <;> exact .inl ⟨rfl, rfl⟩
  | declineCancellation =>
      obtain ⟨-, rfl⟩ := declineCancellationRequest_ok h
      exact .inl ⟨rfl, rfl⟩
  | approveCancellation =>
      obtain rfl | ⟨_, _, _, -, -, -, -, ⟨-, rfl⟩ | ⟨-, rfl⟩⟩ := approveCancellationRequest_ok h <;>
        exact .inl ⟨rfl, rfl⟩
  | escalateCancellation =>
      obtain rfl | ⟨-, -, _, -, -, -, rfl⟩ := escalateCancellationRequest_ok h <;> exact .inl ⟨rfl, rfl⟩
  | adminResolveCancellation =>
      obtain rfl | ⟨_, _, _, -, -, -, ⟨-, rfl⟩ | ⟨-, _, -, -, rfl⟩⟩ := claimAdminCancellation_ok h <;>
        exact .inl ⟨rfl, rfl⟩
  | resolveAdminReport =>
      obtain rfl | ⟨_, _, _, -, -, -, -, ⟨-, rfl⟩ | ⟨-, rfl⟩⟩ := claimReport_ok h <;> exact .inl ⟨rfl, rfl⟩
  | resolveCompletionEscalation =>
      obtain rfl | ⟨_, _, _, -, -, -, ⟨-, rfl⟩ | ⟨-, rfl⟩⟩ := claimEscalation_ok h <;> exact .inl ⟨rfl, rfl⟩
  | resolveAdminBooking =>
      obtain rfl | ⟨_, _, -, ⟨-, rfl⟩ | ⟨-, rfl⟩ | ⟨-, -, -, -, rfl⟩ | ⟨-, -, -, -, _, _, -, -, rfl⟩⟩ :=
        claimAdminBooking_ok h <;> exact .inl ⟨rfl, rfl⟩

theorem requestTransaction_renumbers {r : Request} (h : requestTransaction ctx r f = .ok c)
    (renumbers : c.recalculates = true) : r.renumbers f ∧ c.file.OffQueue := by
  obtain quiet | ⟨providerId, rfl⟩ | ⟨providerId, rfl⟩ | ⟨seekerId, rfl⟩ := requestTransaction_quiet h
  · exact absurd renumbers quiet.not_renumbers
  · obtain ⟨unstarted, ⟨-, -, -, rfl⟩ | ⟨q, queued, paid, -, -, -, -, rfl⟩⟩ := providerStartJob_ok h
    · cases renumbers
    · refine ⟨⟨by simp [queued], unstarted⟩, ?_, fun cash => ?_⟩
      · rintro row served
        obtain rfl := Option.some.inj served
        simp
      · simp [paid] at cash
  · obtain rfl | ⟨ongoing, rfl⟩ := markJobComplete_ok h
    · cases renumbers
    · exact ⟨ongoing, .of_map rfl (by simp) ⟨BookingStatus.noConfusion, rfl⟩⟩
  · obtain ⟨⟨queued, -, allowed⟩, off⟩ := settleCompletedBooking_renumbers h renumbers
    exact ⟨⟨queued, by simpa [SettlementActor.allows] using allowed⟩, off⟩

theorem reserveOutcome_quiet (h : reserveOutcome caller f = .ok c) : c.Quiet := by
  cases caller with
  | refundBookingPayment | requestCancellation | resolveAdminBooking => simp [reserveOutcome] at h
  | respondToCancellationRequest | adminResolveCancellationRequest =>
      obtain ⟨_, _, -, -, -, ⟨-, rfl⟩ | ⟨_, _, -, -, rfl⟩⟩ := reserveCancellationFinancialOutcome_ok h <;>
        exact ⟨rfl, rfl⟩
  | resolveAdminReport =>
      obtain ⟨_, _, -, -, -, ⟨-, rfl⟩ | ⟨_, _, -, -, rfl⟩⟩ := reserveReportFinancialOutcome_ok h <;>
        exact ⟨rfl, rfl⟩
  | resolveCompletionEscalation =>
      obtain ⟨_, _, -, -, -, ⟨-, rfl⟩ | ⟨_, _, _, -, -, -, rfl⟩⟩ := reserveCompletionFinancialOutcome_ok h <;>
        exact ⟨rfl, rfl⟩

theorem finalizeCase_quiet (h : finalizeCase ctx caller f = .ok c) : c.Quiet := by
  cases caller with
  | refundBookingPayment => simp [finalizeCase] at h
  | requestCancellation =>
      obtain ⟨-, rfl⟩ := finalizeImmediateCancellation_ok h
      exact ⟨rfl, rfl⟩
  | respondToCancellationRequest =>
      obtain rfl | ⟨-, rfl⟩ := finalizeParticipantApproval_ok h <;> exact ⟨rfl, rfl⟩
  | adminResolveCancellationRequest =>
      obtain rfl | ⟨_, _, _, rfl, -, -, rfl⟩ := finalizeAdminCancellation_ok h <;> exact ⟨rfl, rfl⟩
  | resolveAdminReport =>
      obtain rfl | ⟨_, _, _, _, -, -, -, rfl, -, rfl⟩ := finalizeReport_ok h <;> exact ⟨rfl, rfl⟩
  | resolveCompletionEscalation =>
      obtain rfl | ⟨-, -, -, -, rfl⟩ := finalizeEscalation_ok h <;> exact ⟨rfl, rfl⟩
  | resolveAdminBooking =>
      obtain rfl | ⟨-, -, rfl⟩ := finalizeAdminBooking_ok h <;> exact ⟨rfl, rfl⟩

/-- Of the statements of a call, those that settle a refund, a cancellation or a completion write other rows. -/
def Stage.settles : Stage → Bool
  | .refundFinalize _ _ _ _ | .cancelSettle _ | .settle => true
  | _ => false

theorem transaction_quiet {answer : Answer} {call : Call} (h : call.transaction ctx answer f = .ok c) :
    c.Quiet ∨ call.stage.settles = true := by
  obtain ⟨caller, stage⟩ := call
  cases stage with
  | refundFinalize | cancelSettle | settle => exact .inr rfl
  | reserve => exact .inl (reserveOutcome_quiet h)
  | finalize => exact .inl (finalizeCase_quiet h)
  | cancelRead => obtain ⟨-, rfl | rfl⟩ := readCancelBooking_ok h <;> exact .inl ⟨rfl, rfl⟩
  | preStartCheck =>
      obtain ⟨-, -, rfl⟩ := checkPreStart_ok h
      exact .inl ⟨rfl, rfl⟩
  | refundRead =>
      obtain ⟨_, -, rfl⟩ := readRefundBooking_ok h
      exact .inl ⟨rfl, rfl⟩
  | refundExisting => obtain ⟨-, -, rfl⟩ | rfl := readExistingRefund_ok h <;> exact .inl ⟨rfl, rfl⟩
  | refundIntent =>
      cases answer with
      | intent =>
          obtain ⟨_, -, rfl⟩ := checkRefundIntent_ok h
          exact .inl ⟨rfl, rfl⟩
      | _ => simp [Call.transaction] at h
  | refundReserve =>
      obtain ⟨-, -, ⟨_, _, -, -, rfl⟩ | ⟨-, rfl⟩ | ⟨-, -, rfl⟩⟩ := reserveRefund_ok h <;> exact .inl ⟨rfl, rfl⟩
  | refundCreate | refundCaught | markFailed => simp [Call.transaction] at h
  | markEstablished | markDecisionReady =>
      obtain ⟨_, _, _, -, -, rfl⟩ := markStage_ok h
      exact .inl ⟨rfl, rfl⟩

theorem transaction_renumbers {answer : Answer} {call : Call} (h : call.transaction ctx answer f = .ok c)
    (renumbers : c.recalculates = true) : call.stage.renumbers f ∧ c.file.OffQueue := by
  obtain quiet | settles := transaction_quiet h
  · exact absurd renumbers quiet.not_renumbers
  obtain ⟨caller, stage⟩ := call
  cases stage with
  | refundFinalize =>
      obtain ⟨-, -, rfl⟩ | ⟨queued, -, held, ⟨r, row, -⟩, rfl⟩ := finalizeRefund_ok h
      · cases renumbers
      · exact ⟨⟨queued, held, by simp [row]⟩, .of_map rfl (by simp) ⟨BookingStatus.noConfusion, rfl⟩⟩
  | cancelSettle =>
      obtain ⟨-, -, _, ⟨unheld, live, idle, rfl⟩ | ⟨-, rfl⟩⟩ := settleCancellation_ok h
      · exact ⟨⟨unheld, renumbers, live, idle⟩, .of_map rfl (by simp) ⟨BookingStatus.noConfusion, rfl⟩⟩
      · cases renumbers
  | settle =>
      obtain ⟨settled, run, rfl⟩ := settleByAdmin_ok h
      obtain ⟨⟨queued, idle, allowed⟩, off⟩ := settleCompletedBooking_renumbers run renumbers
      exact ⟨⟨queued, idle, by simpa [SettlementActor.allows] using allowed⟩, off⟩
  | _ => cases settles

end Transactions

theorem BookingSystem.step_renumbers {ctx : Context} {x x' : BookingSystem} {st : Step} {effects : Effects}
    (h : x.step ctx st = some (x', effects)) (renumbers : effects.recalculates = true) :
    x.renumbers st ∧ x'.file.OffQueue := by
  cases st with
  | request r =>
      simp only [BookingSystem.step, BookingSystem.request] at h
      split at h
      · rename_i c run
        obtain ⟨rfl, rfl⟩ := Prod.mk.inj (Option.some.inj h)
        exact requestTransaction_renumbers run renumbers
      · cases h
  | refund =>
      obtain ⟨rfl, rfl⟩ := Prod.mk.inj (Option.some.inj h)
      cases renumbers
  | crash k =>
      simp only [BookingSystem.step] at h
      split at h
      · obtain ⟨rfl, rfl⟩ := Prod.mk.inj (Option.some.inj h)
        cases renumbers
      · cases h
  | resume k answer =>
      simp only [BookingSystem.step, BookingSystem.resume, Option.bind_eq_some_iff] at h
      obtain ⟨⟨caller, stage⟩, found, h⟩ := h
      cases stage with
      | refundCreate =>
          cases answer with
          | refunded | timedOut | failed =>
              obtain ⟨rfl, rfl⟩ := Prod.mk.inj (Option.some.inj h)
              cases renumbers
          | none | intent => simp at h
      | refundCaught | markFailed =>
          obtain ⟨rfl, rfl⟩ := Prod.mk.inj (Option.some.inj h)
          cases renumbers
      | _ =>
          simp only at h
          split at h
          · rename_i c run
            obtain ⟨rfl, rfl⟩ := Prod.mk.inj (Option.some.inj h)
            obtain ⟨stage, off⟩ := transaction_renumbers run renumbers
            exact ⟨⟨_, found, stage⟩, off⟩
          · obtain ⟨rfl, rfl⟩ := Prod.mk.inj (Option.some.inj h)
            cases renumbers

section Cash

variable {ctx : Context} {f f' : BookingFile} {c : Commit} {caller : Caller} {l : Lifecycle}

/-- What a transaction without a renumbering does to the job in progress. -/
inductive JobMoved (ctx : Context) (f f' : BookingFile) : Prop where
  | kept (same : f'.booking.inProgress = f.booking.inProgress)
  | begun (alone : ctx.paidWaiting = 0)
  | dropped (unqueued : f.queue = none) (busy : f.booking.inProgress = true)
      (canceled : f'.booking.status = .canceled)

theorem BookingStatus.frozen_ne_ongoing {status : BookingStatus} (h : status.frozen = true) : status ≠ .ongoing := by
  rintro rfl
  cases h

theorem ColumnsWritten.jobMoved (h : ColumnsWritten ctx f c) (unnumbered : c.recalculates = false) :
    JobMoved ctx f c.file := by
  cases h with
  | aside same => exact .kept (by rw [same.booking])
  | answered requested answer same =>
      refine .kept ?_
      rw [same.booking]
      obtain ⟨rfl, -⟩ | ⟨rfl, -⟩ := answer <;> simp [Booking.inProgress, requested, BookingStatus.frozen]
  | startedCash admitted unqueued => exact .begun (admitted.cash unqueued).2
  | startedPaid _ _ _ _ renumbers | finished _ renumbers | refunded _ renumbers =>
      rw [unnumbered] at renumbers
      cases renumbers
  | held _ open_ frozen _ same =>
      refine .kept ?_
      rw [same.booking]
      simp [Booking.inProgress, open_, frozen, BookingStatus.frozen_ne_ongoing frozen]
  | restored frozen saved same =>
      refine .kept ?_
      rw [same.booking]
      simp [BookingFile.restored, Booking.inProgress, frozen, saved, BookingStatus.frozen_ne_ongoing frozen]
  | canceled _ _ renumbers same =>
      have unqueued : f.queue = none := by simpa [unnumbered] using renumbers.symm
      cases busy : f.booking.inProgress with
      | true => exact .dropped unqueued busy (by rw [same.booking])
      | false =>
          refine .kept ?_
          rw [same.booking, busy]
          rfl
  | @settled actor d run file =>
      rw [file]
      obtain ⟨-, -, ⟨-, rfl⟩ | ⟨allowed, disputed, -, -, _, -, rfl⟩⟩ := settleCompletedBooking_ok run
      · exact .kept rfl
      · refine .kept ?_
        have awaiting : f.booking.inProgress = false := by
          cases actor with
          | seeker => simp_all [SettlementActor.allows, Booking.inProgress, BookingStatus.frozen]
          | admin =>
              simp only [SettlementActor.allows, Bool.or_eq_true, beq_iff_eq] at allowed
              obtain awaiting | frozen := allowed
              · simp [Booking.inProgress, awaiting, BookingStatus.frozen]
              · have before := disputed rfl frozen
                simp [Booking.inProgress, before, BookingStatus.frozen_ne_ongoing frozen]
        rw [awaiting]
        rfl

theorem Encodes.cash_of_unqueued (e : Encodes f l) (unqueued : f.queue = none) :
    f.booking.paymentMethod = .onsiteCash := by
  cases method : f.booking.paymentMethod with
  | onsiteCash => rfl
  | gcash =>
      obtain ⟨q, queued, -⟩ := e.queued method
      simp [unqueued] at queued

/-- A cash job is cancelled by the settlement of a cancellation. -/
theorem Event.cancelsJob {x : BookingSystem} {st : Step} {g' : Option GatewayRefund} {next : Option Call}
    (h : Event x (.step ctx st) f' g' next) (e : Encodes x.file l) (unqueued : x.file.queue = none)
    (busy : x.file.booking.inProgress = true) (canceled : f'.booking.status = .canceled) :
    ∃ k answer caller, st = .resume k answer ∧ x.calls[k]? = some ⟨caller, .cancelSettle false⟩
      ∧ caller.preStartRequest = none := by
  have live : x.file.booking.status ≠ .canceled := by
    intro was
    simp [Booking.inProgress, was, BookingStatus.frozen] at busy
  have started : x.file.booking.started = true := e.started _ (e.inProgress_iff.mp busy)
  have cash := e.cash_of_unqueued unqueued
  cases h with
  | requested run =>
      cases requestTransaction_status run with
      | kept same => exact absurd (same.1.symm.trans canceled) live
      | advanced _ after => simp [canceled, BookingStatus.advanced] at after
      | held _ after => simp [canceled, BookingStatus.frozen] at after
      | settled run =>
          obtain ⟨-, -, ⟨-, rfl⟩ | ⟨-, -, -, -, _, -, rfl⟩⟩ := settleCompletedBooking_ok run
          · exact absurd canceled live
          · simp [BookingFile.settled] at canceled
  | @committed _ k answer call c found run =>
      have write := transaction_status run
      obtain ⟨caller, stage⟩ := call
      cases write with
      | kept same => exact absurd (same.1.symm.trans canceled) live
      | held _ after => simp [canceled] at after
      | restored frozen saved after =>
          obtain ⟨w, rfl⟩ := e.saved saved
          exact absurd (after.symm.trans canceled) w.status_live.2
      | refunded held =>
          have payment := e.payment
          rw [cash] at payment
          cases l with
          | underReview w b => cases b <;> simp_all [Lifecycle.payment, PaymentMethod.paid, PaymentStatus.held]
          | _ => simp_all [Lifecycle.payment, PaymentMethod.paid, PaymentStatus.held]
      | canceled =>
          refine ⟨k, answer, caller, rfl, found, ?_⟩
          have settle : settleCancellation caller false x.file = .ok c := run
          simp only [settleCancellation, check_bind_ok, rejectIf_ok, not_and, not_or] at settle
          obtain ⟨-, stale, -⟩ := settle
          by_contra present
          have participant : caller.preStartRequest.isSome = true := Option.isSome_iff_ne_none.mpr present
          exact (stale participant live).1 started
      | settled run' same =>
          rw [same] at canceled
          obtain ⟨-, -, ⟨-, rfl⟩ | ⟨-, -, -, -, _, -, rfl⟩⟩ := settleCompletedBooking_ok run'
          · exact absurd canceled live
          · simp [BookingFile.settled] at canceled
  | _ => exact absurd canceled live

end Cash

end ServiceHub
