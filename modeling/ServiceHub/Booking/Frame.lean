import ServiceHub.Booking.Events

/-! # What the transactions leave alone

The parties and terms of a booking and of its queue row are written at creation only,
and the refund row only by the reservation and finalization of a refund.
-/

namespace ServiceHub

open Guard

/-- The columns of a booking that are set at its creation. -/
def Booking.terms (b : Booking) : Booking :=
  { b with
    paymentStatus := .unpaid, status := .pendingApproval, statusBeforeDispute := none
    queuePosition := none, started := false }

def Queue.terms (q : Queue) : Queue :=
  { q with paymentStatus := .unpaid, position := 0, status := .waiting, estimatedWait := 0 }

structure SameTerms (f f' : BookingFile) : Prop where
  booking : f'.booking.terms = f.booking.terms
  queue : f'.queue.map Queue.terms = f.queue.map Queue.terms

/-- The terms and the refund row are unchanged. -/
structure Framed (f f' : BookingFile) : Prop where
  terms : SameTerms f f'
  refund : f'.refund = f.refund

namespace SameTerms

variable {f f' f'' : BookingFile}

theorem refl (f : BookingFile) : SameTerms f f := ⟨rfl, rfl⟩

theorem trans (h : SameTerms f f') (h' : SameTerms f' f'') : SameTerms f f'' :=
  ⟨h'.booking.trans h.booking, h'.queue.trans h.queue⟩

/-- A column set at creation keeps its value. -/
theorem column {β : Type} (h : SameTerms f f') (column : Booking → β)
    (fixed : ∀ b : Booking, column b.terms = column b) : column f'.booking = column f.booking := by
  rw [← fixed f'.booking, h.booking, fixed]

theorem paymentMethod (h : SameTerms f f') : f'.booking.paymentMethod = f.booking.paymentMethod :=
  h.column Booking.paymentMethod fun _ => rfl

end SameTerms

/-- The queue row is written in its changing columns only. -/
theorem SameTerms.of_map {f f' : BookingFile} {g : Queue → Queue}
    (booking : f'.booking.terms = f.booking.terms) (queue : f'.queue = f.queue.map g)
    (kept : ∀ q, (g q).terms = q.terms) : SameTerms f f' := by
  refine ⟨booking, ?_⟩
  rw [queue]
  cases f.queue with
  | none => rfl
  | some q => simp [kept]

section Transactions

variable {ctx : Context} {f f' : BookingFile} {c : Commit} {caller : Caller}

theorem Framed.refl (f : BookingFile) : Framed f f := ⟨.refl f, rfl⟩

theorem Framed.trans {f'' : BookingFile} (h : Framed f f') (h' : Framed f' f'') : Framed f f'' :=
  ⟨h.terms.trans h'.terms, h'.refund.trans h.refund⟩

/-- Only cases, operations or other rows are written. -/
theorem Framed.of_eq (booking : f'.booking.terms = f.booking.terms) (queue : f'.queue = f.queue)
    (refund : f'.refund = f.refund) : Framed f f' :=
  ⟨⟨booking, by rw [queue]⟩, refund⟩

theorem OperationWritten.framed {ref : CaseRef} {op : AdminResolutionOperation}
    (h : OperationWritten f ref f' op) : Framed f f' := by
  obtain ⟨ops, rfl⟩ := h.rows
  exact .of_eq rfl rfl rfl

theorem markStage_framed {ref : CaseRef} {stage : OperationStage} {op : AdminResolutionOperation}
    (unfinished : stage ≠ .caseFinalized)
    (h : markAdminResolutionStageInTransaction f ref stage = .ok (f', op)) : Framed f f' := by
  obtain ⟨_, -, -, written, -⟩ := markAdminResolutionStageInTransaction_ok unfinished h
  exact written.framed

theorem restored_framed (before : BookingStatus) : Framed f (f.restored before) :=
  ⟨.of_map rfl rfl fun _ => rfl, rfl⟩

theorem restoreBookingIfNoBlockingCases_framed
    (h : restoreBookingIfNoBlockingCases ctx f = .ok f') : Framed f f' := by
  obtain ⟨rfl, -⟩ | ⟨before, -, -, -, rfl⟩ := restoreBookingIfNoBlockingCases_ok h
  · exact .refl _
  · exact restored_framed before

theorem settleCompletedBooking_framed {actor : SettlementActor}
    (h : settleCompletedBooking ctx actor f = .ok c) : Framed f c.file := by
  obtain ⟨-, -, ⟨-, rfl⟩ | ⟨-, -, -, -, completed, -, rfl⟩⟩ := settleCompletedBooking_ok h
  · exact .refl _
  · exact ⟨.of_map rfl rfl fun _ => rfl, rfl⟩

theorem requestTransaction_framed {r : Request} (h : requestTransaction ctx r f = .ok c) :
    Framed f c.file := by
  cases r with
  | respondToDirectBooking =>
      obtain ⟨-, _, rfl | rfl⟩ := respondToDirectBookingService_ok h <;> exact .of_eq rfl rfl rfl
  | providerStartJob =>
      obtain ⟨-, ⟨-, -, -, rfl⟩ | ⟨q, queued, -, -, -, -, -, rfl⟩⟩ := providerStartJob_ok h
      · exact .of_eq rfl rfl rfl
      · exact ⟨⟨rfl, by rw [queued]; rfl⟩, rfl⟩
  | markJobComplete =>
      obtain rfl | ⟨-, rfl⟩ := markJobComplete_ok h
      · exact .refl _
      · exact ⟨.of_map rfl rfl fun _ => rfl, rfl⟩
  | confirmCompletion => exact settleCompletedBooking_framed h
  | disputeJob =>
      obtain ⟨-, -, _, _, -, -, -, -, rfl⟩ := disputeJobService_ok h
      exact ⟨.of_map rfl rfl fun _ => rfl, rfl⟩
  | createSafetyReport =>
      obtain ⟨-, -, rfl | ⟨_, -, -, -, ⟨-, rfl⟩ | ⟨-, rfl⟩⟩⟩ := createSafetyReport_ok h
      · exact .refl _
      · exact .of_eq rfl rfl rfl
      · by_cases held : f.booking.paymentStatus = .paidHeld
        · exact ⟨.of_map rfl (if_pos held) fun _ => rfl, rfl⟩
        · exact .of_eq rfl (if_neg held) rfl
  | createCompletionEscalation =>
      obtain ⟨-, -, -, rfl | ⟨-, rfl⟩⟩ := createCompletionEscalation_ok h
      · exact .refl _
      · exact .of_eq rfl rfl rfl
  | startModerationReview =>
      obtain ⟨_, _, _, rfl, -⟩ := startModerationReview_ok h
      exact .of_eq rfl rfl rfl
  | requestCancellation =>
      obtain ⟨-, ⟨_, -, -, -, rfl⟩ | rfl | ⟨-, -, -, -, _, -, -, -, ⟨-, -, -, rfl⟩ | ⟨-, -, -, rfl⟩⟩⟩ :=
        requestCancellation_ok h
      · exact .refl _
      · exact .refl _
      · by_cases held : f.booking.paymentStatus = .paidHeld
        · exact ⟨.of_map rfl (if_pos held) fun _ => rfl, rfl⟩
        · exact .of_eq rfl (if_neg held) rfl
      · exact .of_eq rfl rfl rfl
  | declineCancellation =>
      obtain ⟨-, rfl⟩ := declineCancellationRequest_ok h
      exact .of_eq rfl rfl rfl
  | approveCancellation =>
      obtain rfl | ⟨_, _, _, -, -, -, claim, ⟨-, rfl⟩ | ⟨-, rfl⟩⟩ := approveCancellationRequest_ok h
      · exact .refl _
      · exact claim.written.framed
      · exact claim.written.framed.trans (.of_eq rfl rfl rfl)
  | escalateCancellation =>
      obtain rfl | ⟨-, -, _, -, -, -, rfl⟩ := escalateCancellationRequest_ok h
      · exact .refl _
      · exact .of_eq rfl rfl rfl
  | adminResolveCancellation =>
      obtain rfl | ⟨_, _, _, -, -, claim, ⟨-, rfl⟩ | ⟨-, _, -, -, rfl⟩⟩ :=
        claimAdminCancellation_ok h
      · exact .refl _
      · exact claim.written.framed
      · refine claim.written.framed.trans ?_
        exact .of_eq rfl rfl rfl
  | resolveAdminReport =>
      obtain rfl | ⟨_, _, _, -, -, -, claim, ⟨-, rfl⟩ | ⟨-, rfl⟩⟩ := claimReport_ok h
      · exact .refl _
      · exact claim.written.framed
      · exact claim.written.framed.trans (.of_eq rfl rfl rfl)
  | resolveCompletionEscalation =>
      obtain rfl | ⟨_, _, _, -, -, claim, ⟨-, rfl⟩ | ⟨-, rfl⟩⟩ := claimEscalation_ok h
      · exact .refl _
      · exact claim.written.framed
      · exact claim.written.framed.trans (.of_eq rfl rfl rfl)
  | resolveAdminBooking =>
      obtain rfl | ⟨claimed, _, claim, h⟩ := claimAdminBooking_ok h
      · exact .refl _
      obtain ⟨-, rfl⟩ | ⟨-, rfl⟩ | ⟨-, -, -, -, rfl⟩ | ⟨-, -, -, -, _, _, marked, -, rfl⟩ := h
      · exact claim.written.framed
      · exact claim.written.framed
      · exact claim.written.framed
      · have held : Framed claimed claimed.heldForAdmin := .of_eq rfl rfl rfl
        exact claim.written.framed.trans (held.trans (markStage_framed (by decide) marked))

theorem reserveOutcome_framed (h : reserveOutcome caller f = .ok c) : Framed f c.file := by
  cases caller with
  | refundBookingPayment | requestCancellation | resolveAdminBooking => simp [reserveOutcome] at h
  | respondToCancellationRequest | adminResolveCancellationRequest =>
      obtain ⟨_, _, -, -, -, ⟨-, rfl⟩ | ⟨_, _, -, marked, rfl⟩⟩ :=
        reserveCancellationFinancialOutcome_ok h
      · exact .refl _
      · exact markStage_framed (by decide) marked
  | resolveAdminReport =>
      obtain ⟨_, _, -, -, -, ⟨-, rfl⟩ | ⟨_, _, -, marked, rfl⟩⟩ := reserveReportFinancialOutcome_ok h
      · exact .refl _
      · exact markStage_framed (by decide) marked
  | resolveCompletionEscalation =>
      obtain ⟨_, _, -, -, -, ⟨-, rfl⟩ | ⟨_, _, _, -, ⟨-, -, rfl⟩ | ⟨-, rfl⟩, marked, rfl⟩⟩ :=
        reserveCompletionFinancialOutcome_ok h
      · exact .refl _
      · exact markStage_framed (by decide) marked
      · have held : Framed f f.heldForEscalation := .of_eq rfl rfl rfl
        exact held.trans (markStage_framed (by decide) marked)

theorem finalizeCase_framed (h : finalizeCase ctx caller f = .ok c) : Framed f c.file := by
  cases caller with
  | refundBookingPayment => simp [finalizeCase] at h
  | requestCancellation =>
      obtain ⟨-, rfl⟩ := finalizeImmediateCancellation_ok h
      exact .of_eq rfl rfl rfl
  | respondToCancellationRequest =>
      obtain rfl | ⟨-, rfl⟩ := finalizeParticipantApproval_ok h
      · exact .refl _
      · exact .of_eq rfl rfl rfl
  | adminResolveCancellationRequest =>
      obtain rfl | ⟨_, closed, restored, rfl, ⟨-, -, rfl⟩ | ⟨-, back⟩, -, rfl⟩ :=
        finalizeAdminCancellation_ok h
      · exact .refl _
      · exact .of_eq rfl rfl rfl
      · have restored := restoreBookingIfNoBlockingCases_framed back
        exact ⟨⟨restored.terms.booking, restored.terms.queue⟩, restored.refund⟩
  | resolveAdminReport =>
      obtain rfl | ⟨_, _, _, _, -, -, -, rfl, ⟨-, -, rfl⟩ | ⟨-, -, rfl⟩ | ⟨-, back⟩, rfl⟩ :=
        finalizeReport_ok h
      · exact .refl _
      · exact .of_eq rfl rfl rfl
      · exact .of_eq rfl rfl rfl
      · have restored := restoreBookingIfNoBlockingCases_framed back
        exact ⟨⟨restored.terms.booking, restored.terms.queue⟩, restored.refund⟩
  | resolveCompletionEscalation =>
      obtain rfl | ⟨-, -, -, -, rfl⟩ := finalizeEscalation_ok h
      · exact .refl _
      · exact .of_eq rfl rfl rfl
  | resolveAdminBooking =>
      obtain rfl | ⟨-, -, rfl⟩ := finalizeAdminBooking_ok h
      · exact .refl _
      · exact .of_eq rfl rfl rfl

/-- The transactions of a call that write the refund row. -/
def Stage.writesRefund : Stage → Bool
  | .refundReserve _ _ | .refundFinalize _ _ _ _ => true
  | _ => false

theorem transaction_framed {answer : Answer} {call : Call}
    (h : call.transaction ctx answer f = .ok c) (other : call.stage.writesRefund = false) :
    Framed f c.file := by
  obtain ⟨caller, stage⟩ := call
  cases stage with
  | reserve => exact reserveOutcome_framed h
  | cancelRead =>
      obtain ⟨-, rfl | rfl⟩ := readCancelBooking_ok h <;> exact .refl _
  | preStartCheck =>
      obtain ⟨-, -, rfl⟩ := checkPreStart_ok h
      exact .refl _
  | refundRead =>
      obtain ⟨_, -, rfl⟩ := readRefundBooking_ok h
      exact .refl _
  | refundExisting =>
      obtain ⟨-, -, rfl⟩ | rfl := readExistingRefund_ok h <;> exact .refl _
  | refundIntent =>
      cases answer with
      | intent =>
          obtain ⟨_, -, rfl⟩ := checkRefundIntent_ok h
          exact .refl _
      | _ => simp [Call.transaction] at h
  | refundReserve | refundFinalize => simp [Stage.writesRefund] at other
  | refundCreate | refundCaught | markFailed => simp [Call.transaction] at h
  | cancelSettle =>
      obtain ⟨-, -, _, ⟨-, -, -, rfl⟩ | ⟨-, rfl⟩⟩ := settleCancellation_ok h
      · exact ⟨.of_map rfl rfl fun _ => rfl, rfl⟩
      · exact .of_eq rfl rfl rfl
  | settle =>
      obtain ⟨_, settled, rfl⟩ := settleByAdmin_ok h
      have kept := settleCompletedBooking_framed settled
      exact kept
  | markEstablished | markDecisionReady =>
      obtain ⟨_, _, _, -, marked, rfl⟩ := markStage_ok h
      exact markStage_framed (by decide) marked
  | finalize => exact finalizeCase_framed h

theorem reserveRefund_sameTerms {paymentId : GatewayId} {amount : Centavos}
    (h : reserveRefund caller paymentId amount f = .ok c) : SameTerms f c.file := by
  obtain ⟨-, -, ⟨_, _, -, -, rfl⟩ | ⟨-, rfl⟩ | ⟨-, -, rfl⟩⟩ := reserveRefund_ok h <;>
    exact ⟨rfl, rfl⟩

theorem finalizeRefund_sameTerms {resumed : Bool} {refundId : GatewayId} {status : RefundStatus}
    {amount : Centavos} (h : finalizeRefund caller resumed refundId status amount f = .ok c) :
    SameTerms f c.file := by
  obtain ⟨-, -, rfl⟩ | ⟨-, -, -, -, rfl⟩ := finalizeRefund_ok h
  · exact .refl _
  · exact .of_map rfl rfl fun _ => rfl

theorem transaction_sameTerms {answer : Answer} {call : Call}
    (h : call.transaction ctx answer f = .ok c) : SameTerms f c.file := by
  cases writes : call.stage.writesRefund with
  | false => exact (transaction_framed h writes).terms
  | true =>
      obtain ⟨caller, stage⟩ := call
      cases stage with
      | refundReserve => exact reserveRefund_sameTerms h
      | refundFinalize => exact finalizeRefund_sameTerms h
      | _ => simp [Stage.writesRefund] at writes

end Transactions

theorem Event.sameTerms {s : BookingSystem} {a : Action} {f' : BookingFile}
    {g' : Option GatewayRefund} {next : Option Call} (h : Event s a f' g' next) :
    SameTerms s.file f' := by
  cases h with
  | requested run => exact (requestTransaction_framed run).terms
  | committed _ run => exact transaction_sameTerms run
  | renumbered => exact .of_map rfl rfl fun _ => rfl
  | refundCaught | markedFailed => exact ⟨rfl, rfl⟩
  | _ => exact .refl _

end ServiceHub
