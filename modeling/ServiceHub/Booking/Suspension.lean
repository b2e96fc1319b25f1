import ServiceHub.Booking.Frame
import ServiceHub.Booking.Refinement
import ServiceHub.Booking.StatusWrites

/-! # Unstarted work and account suspensions

Which step of a booking brings unstarted work back into force, and which one suspends an account.
-/

namespace ServiceHub

open Guard

/-- The decision leaves the booking in force and closes its last open report or cancellation request. -/
def Call.closesLastCase (c : Call) (f : BookingFile) : Bool :=
  match c.caller with
  | .resolveAdminReport id _ outcome _ =>
      !outcome.financial && f.blockingReports (some id) + f.blockingCancellations none == 0
  | .adminResolveCancellationRequest id approve _ _ =>
      !approve && f.blockingReports ((f.findCancellation id).bind (·.reportId))
        + f.blockingCancellations (some id) == 0
  | _ => false

/-- The next transaction of the call lifts the hold of a booking whose work has not started. -/
def Call.reopens (c : Call) (f : BookingFile) : Bool :=
  c.stage == .finalize && (c.caller.operation.bind f.findOperation).all (·.status != .completed)
    && f.booking.status.frozen && !f.booking.started && c.closesLastCase f

/-- The decision of the call suspends the account. -/
def Call.suspends (c : Call) (f : BookingFile) (userId : UserId) (account : Option User) : Bool :=
  match c.caller with
  | .resolveAdminReport id adminId _ .suspend =>
      (f.findReport id).any (·.reportedUserId == userId)
        && .suspend ∈ allowedReportPenalties account (userId == adminId)
  | _ => false

section Transactions

variable {ctx : Context} {f : BookingFile} {c : Commit} {caller : Caller} {userId : UserId}

theorem Booking.blocksSuspension_iff {b : Booking} : b.blocksSuspension userId = true ↔
    b.providerId = userId ∧ b.started = false
      ∧ (b.status = .pendingApproval ∨ b.status = .waiting ∨ b.status = .accepted) := by
  simp [Booking.blocksSuspension, and_assoc, or_assoc]

theorem finalizeCase_completed (h : finalizeCase ctx caller f = .ok c)
    (restores : ∃ id adminId, (∃ outcome penalty, caller = .resolveAdminReport id adminId outcome penalty)
      ∨ ∃ approve fault, caller = .adminResolveCancellationRequest id approve adminId fault)
    (completed : (caller.operation.bind f.findOperation).any (·.status == .completed) = true) :
    c = { file := f } := by
  obtain ⟨id, adminId, ⟨outcome, penalty, rfl⟩ | ⟨approve, fault, rfl⟩⟩ := restores
  · obtain ⟨operation, found, done⟩ := (Option.any_eq_true _ _).mp completed
    simp only [Caller.operation, Option.bind_some] at found
    simp only [beq_iff_eq] at done
    simp only [finalizeCase, finalizeReport, orThrow_bind_ok, found, Option.some.injEq] at h
    obtain ⟨_, rfl, h⟩ := h
    simp only [done, if_true, pure_ok] at h
    exact h.symm
  · simp only [Caller.operation, Option.bind_some] at completed
    simp only [finalizeCase, finalizeAdminCancellation, completed, if_true, pure_ok] at h
    exact h.symm

/-- Apart from the closed report no case is open. -/
theorem Unblocked.reports_before {id : Nat} {g : Report → Report}
    (h : Unblocked (f.updateReport id g)) : f.blockingReports (some id) = 0 := by
  refine blockingReports_zero.mpr fun r listed active => ?_
  by_contra other
  have kept : r ∈ (f.updateReport id g).reports :=
    Rows.mem_updateWhere.mpr ⟨r, listed, by simp [Ne.symm (fun same => other (congrArg some same))]⟩
  simp [h.reports r kept] at active

theorem Unblocked.cancellations_before {id : Nat} {g : CancellationRequest → CancellationRequest}
    (h : ∀ q ∈ (f.updateCancellation id g).cancellationRequests, q.status.active = false) :
    f.blockingCancellations (some id) = 0 := by
  refine blockingCancellations_zero.mpr fun q listed active => ?_
  by_contra other
  have kept : q ∈ (f.updateCancellation id g).cancellationRequests :=
    Rows.mem_updateWhere.mpr ⟨q, listed, by simp [Ne.symm (fun same => other (congrArg some same))]⟩
  simp [h q kept] at active

/-- A finalization that lifts the hold of unstarted work is a decision that `reopens` it. -/
theorem finalizeCase_reopens (h : finalizeCase ctx caller f = .ok c) (frozen : f.booking.status.frozen = true)
    (unstarted : f.booking.started = false) (lifted : c.file.booking.status.frozen = false) :
    Call.reopens ⟨caller, .finalize⟩ f = true := by
  have changed : ¬ SameStatus f c.file := by
    intro same
    rw [same.1, frozen] at lifted
    cases lifted
  -- a replayed decision writes nothing
  have running (restores : ∃ id adminId, (∃ outcome penalty, caller = .resolveAdminReport id adminId outcome penalty)
      ∨ ∃ approve fault, caller = .adminResolveCancellationRequest id approve adminId fault) :
      (caller.operation.bind f.findOperation).all (·.status != .completed) = true := by
    by_contra done
    have completed : (caller.operation.bind f.findOperation).any (·.status == .completed) = true := by
      cases row : caller.operation.bind f.findOperation <;> simp_all
    rw [finalizeCase_completed h restores completed] at changed
    exact changed (.refl f)
  cases caller with
  | refundBookingPayment => simp [finalizeCase] at h
  | requestCancellation =>
      obtain ⟨-, rfl⟩ := finalizeImmediateCancellation_ok h
      exact absurd (.refl f) changed
  | respondToCancellationRequest =>
      obtain rfl | ⟨-, rfl⟩ := finalizeParticipantApproval_ok h <;> exact absurd (.refl f) changed
  | resolveCompletionEscalation =>
      obtain rfl | ⟨-, -, -, -, rfl⟩ := finalizeEscalation_ok h <;> exact absurd (.refl f) changed
  | resolveAdminBooking =>
      obtain rfl | ⟨-, -, rfl⟩ := finalizeAdminBooking_ok h <;> exact absurd (.refl f) changed
  | adminResolveCancellationRequest id approve adminId fault =>
      have open_ := running ⟨id, adminId, .inr ⟨approve, fault, rfl⟩⟩
      obtain rfl | ⟨reportId, closed, restored, rfl, ⟨-, -, rfl⟩ | ⟨denied, back⟩, ⟨request, found, -, linked⟩, rfl⟩ :=
        finalizeAdminCancellation_ok h
      · exact absurd (.refl f) changed
      · exact absurd (.refl f) changed
      obtain ⟨rfl, -⟩ | ⟨before, unblocked, -⟩ := restoreBookingIfNoBlockingCases_ok back
      · exact absurd (.refl f) changed
      have reports : f.blockingReports (some reportId) = 0 := unblocked.reports_before
      have cancellations : f.blockingCancellations (some id) = 0 :=
        Unblocked.cancellations_before unblocked.cancellations
      subst denied
      simp [Call.reopens, Call.closesLastCase, open_, frozen, unstarted, found, linked, reports, cancellations]
  | resolveAdminReport id adminId outcome penalty =>
      have open_ := running ⟨id, adminId, .inl ⟨outcome, penalty, rfl⟩⟩
      obtain rfl | ⟨report, closed, restored, applied, -, -, -, rfl, ⟨-, -, rfl⟩ | ⟨-, -, rfl⟩ | ⟨kept, back⟩, rfl⟩ :=
        finalizeReport_ok h
      · exact absurd (.refl f) changed
      · exact absurd (.refl f) changed
      · exact absurd (.refl f) changed
      obtain ⟨rfl, -⟩ | ⟨before, unblocked, -⟩ := restoreBookingIfNoBlockingCases_ok back
      · exact absurd (.refl f) changed
      have reports := unblocked.reports_before
      have cancellations : f.blockingCancellations none = 0 :=
        blockingCancellations_zero.mpr fun q listed active => by simp [unblocked.cancellations q listed] at active
      simp [Call.reopens, Call.closesLastCase, open_, frozen, unstarted, kept, reports, cancellations]

theorem requestTransaction_moderation {r : Request} (h : requestTransaction ctx r f = .ok c) :
    c.moderation = none := by
  cases r with
  | respondToDirectBooking => obtain ⟨-, -, rfl | rfl⟩ := respondToDirectBookingService_ok h <;> rfl
  | providerStartJob =>
      obtain ⟨-, ⟨-, -, -, rfl⟩ | ⟨_, -, -, -, -, -, -, rfl⟩⟩ := providerStartJob_ok h <;> rfl
  | markJobComplete => obtain rfl | ⟨-, rfl⟩ := markJobComplete_ok h <;> rfl
  | confirmCompletion =>
      obtain ⟨-, -, ⟨-, rfl⟩ | ⟨-, -, -, -, _, -, rfl⟩⟩ := settleCompletedBooking_ok h <;> rfl
  | disputeJob =>
      obtain ⟨-, -, _, _, -, -, -, -, rfl⟩ := disputeJobService_ok h
      rfl
  | createSafetyReport =>
      obtain ⟨-, -, rfl | ⟨_, -, -, -, ⟨-, rfl⟩ | ⟨-, rfl⟩⟩⟩ := createSafetyReport_ok h <;> rfl
  | createCompletionEscalation =>
      obtain ⟨-, -, -, rfl | ⟨-, rfl⟩⟩ := createCompletionEscalation_ok h <;> rfl
  | startModerationReview =>
      obtain ⟨_, _, _, rfl, -⟩ := startModerationReview_ok h
      rfl
  | requestCancellation =>
      obtain ⟨-, ⟨_, -, -, -, rfl⟩ | rfl | ⟨-, -, -, -, _, -, -, -, ⟨-, -, -, rfl⟩ | ⟨-, -, -, rfl⟩⟩⟩ :=
        requestCancellation_ok h <;> rfl
  | declineCancellation =>
      obtain ⟨-, rfl⟩ := declineCancellationRequest_ok h
      rfl
  | approveCancellation =>
      obtain rfl | ⟨_, _, _, -, -, -, -, ⟨-, rfl⟩ | ⟨-, rfl⟩⟩ := approveCancellationRequest_ok h <;> rfl
  | escalateCancellation =>
      obtain rfl | ⟨-, -, _, -, -, -, rfl⟩ := escalateCancellationRequest_ok h <;> rfl
  | adminResolveCancellation =>
      obtain rfl | ⟨_, _, _, -, -, -, ⟨-, rfl⟩ | ⟨-, _, -, -, rfl⟩⟩ := claimAdminCancellation_ok h <;> rfl
  | resolveAdminReport =>
      obtain rfl | ⟨_, _, _, -, -, -, -, ⟨-, rfl⟩ | ⟨-, rfl⟩⟩ := claimReport_ok h <;> rfl
  | resolveCompletionEscalation =>
      obtain rfl | ⟨_, _, _, -, -, -, ⟨-, rfl⟩ | ⟨-, rfl⟩⟩ := claimEscalation_ok h <;> rfl
  | resolveAdminBooking =>
      obtain rfl | ⟨_, _, -, h⟩ := claimAdminBooking_ok h
      · rfl
      obtain ⟨-, rfl⟩ | ⟨-, rfl⟩ | ⟨-, -, -, -, rfl⟩ | ⟨-, -, -, -, _, _, -, -, rfl⟩ := h <;> rfl

theorem reserveOutcome_moderation (h : reserveOutcome caller f = .ok c) : c.moderation = none := by
  cases caller with
  | refundBookingPayment | requestCancellation | resolveAdminBooking => simp [reserveOutcome] at h
  | respondToCancellationRequest | adminResolveCancellationRequest =>
      obtain ⟨_, _, -, -, -, ⟨-, rfl⟩ | ⟨_, _, -, -, rfl⟩⟩ := reserveCancellationFinancialOutcome_ok h <;> rfl
  | resolveAdminReport =>
      obtain ⟨_, _, -, -, -, ⟨-, rfl⟩ | ⟨_, _, -, -, rfl⟩⟩ := reserveReportFinancialOutcome_ok h <;> rfl
  | resolveCompletionEscalation =>
      obtain ⟨_, _, -, -, -, ⟨-, rfl⟩ | ⟨_, _, _, -, -, -, rfl⟩⟩ := reserveCompletionFinancialOutcome_ok h <;> rfl

/-- What a report decision has checked when it restricts an account. -/
structure Restricts (ctx : Context) (f : BookingFile) (call : Call) (userId : UserId)
    (status : AccountModerationStatus) : Prop where
  stage : call.stage = .finalize
  checked : ∃ id adminId outcome penalty report applied,
    call.caller = .resolveAdminReport id adminId outcome penalty ∧ f.findReport id = some report
      ∧ report.reportedUserId = userId
      ∧ checkReportPenalty ctx f userId adminId penalty true false = .ok applied
      ∧ applied.moderation userId = some (userId, status)

theorem transaction_moderation {answer : Answer} {call : Call} {status : AccountModerationStatus}
    (h : call.transaction ctx answer f = .ok c) (restricts : c.moderation = some (userId, status)) :
    Restricts ctx f call userId status := by
  have quiet (none_ : c.moderation = none) : Restricts ctx f call userId status := by
    rw [none_] at restricts
    cases restricts
  obtain ⟨caller, stage⟩ := call
  cases stage with
  | reserve => exact quiet (reserveOutcome_moderation h)
  | cancelRead => obtain ⟨-, rfl | rfl⟩ := readCancelBooking_ok h <;> exact quiet rfl
  | preStartCheck =>
      obtain ⟨-, -, rfl⟩ := checkPreStart_ok h
      exact quiet rfl
  | refundRead =>
      obtain ⟨_, -, rfl⟩ := readRefundBooking_ok h
      exact quiet rfl
  | refundExisting => obtain ⟨-, -, rfl⟩ | rfl := readExistingRefund_ok h <;> exact quiet rfl
  | refundIntent =>
      cases answer with
      | intent =>
          obtain ⟨_, -, rfl⟩ := checkRefundIntent_ok h
          exact quiet rfl
      | _ => simp [Call.transaction] at h
  | refundReserve =>
      obtain ⟨-, -, ⟨_, _, -, -, rfl⟩ | ⟨-, rfl⟩ | ⟨-, -, rfl⟩⟩ := reserveRefund_ok h <;> exact quiet rfl
  | refundFinalize =>
      obtain ⟨-, -, rfl⟩ | ⟨-, -, -, -, rfl⟩ := finalizeRefund_ok h <;> exact quiet rfl
  | refundCreate | refundCaught | markFailed => simp [Call.transaction] at h
  | cancelSettle =>
      obtain ⟨-, -, _, ⟨-, -, -, rfl⟩ | ⟨-, rfl⟩⟩ := settleCancellation_ok h <;> exact quiet rfl
  | settle =>
      obtain ⟨_, settled, rfl⟩ := settleByAdmin_ok h
      obtain ⟨-, -, ⟨-, rfl⟩ | ⟨-, -, -, -, _, -, rfl⟩⟩ := settleCompletedBooking_ok settled <;> exact quiet rfl
  | markEstablished | markDecisionReady =>
      obtain ⟨_, _, _, -, -, rfl⟩ := markStage_ok h
      exact quiet rfl
  | finalize =>
      cases caller with
      | refundBookingPayment => simp [Call.transaction, finalizeCase] at h
      | requestCancellation =>
          obtain ⟨-, rfl⟩ := finalizeImmediateCancellation_ok h
          exact quiet rfl
      | respondToCancellationRequest =>
          obtain rfl | ⟨-, rfl⟩ := finalizeParticipantApproval_ok h <;> exact quiet rfl
      | resolveCompletionEscalation =>
          obtain rfl | ⟨-, -, -, -, rfl⟩ := finalizeEscalation_ok h <;> exact quiet rfl
      | resolveAdminBooking =>
          obtain rfl | ⟨-, -, rfl⟩ := finalizeAdminBooking_ok h <;> exact quiet rfl
      | adminResolveCancellationRequest =>
          obtain rfl | ⟨_, _, _, -, -, -, rfl⟩ := finalizeAdminCancellation_ok h <;> exact quiet rfl
      | resolveAdminReport id adminId outcome penalty =>
          obtain rfl | ⟨report, _, _, applied, found, -, checked, -, -, rfl⟩ := finalizeReport_ok h
          · exact quiet rfl
          have reported : report.reportedUserId = userId := by
            cases applied <;> simp_all [ReportPenalty.moderation]
          subst reported
          exact ⟨rfl, id, adminId, outcome, penalty, report, applied, rfl, found, rfl, checked, restricts⟩

end Transactions

section Steps

variable {ctx : Context} {x x' : BookingSystem} {st : Step} {effects : Effects} {userId : UserId}

/-- A hold is lifted by the finalization of a decision. -/
theorem Event.lifts {s : BookingSystem} {a : Action} {f' : BookingFile} {g' : Option GatewayRefund}
    {next : Option Call} (h : Event s a f' g' next) (frozen : s.file.booking.status.frozen = true)
    (lifted : f'.booking.status.frozen = false) 
    (live : f'.booking.status ≠ .completed ∧ f'.booking.status ≠ .canceled) :
    ∃ ctx k answer caller c, a = .step ctx (.resume k answer) ∧ s.calls[k]? = some ⟨caller, .finalize⟩
      ∧ finalizeCase ctx caller s.file = .ok c ∧ c.file = f' := by
  have changed (same : f'.booking.status = s.file.booking.status) {P : Prop} : P := by
    rw [same, frozen] at lifted
    cases lifted
  have unsettled {ctx : Context} {actor : SettlementActor} {c : Commit}
      (run : settleCompletedBooking ctx actor s.file = .ok c) (same : f' = c.file) {P : Prop} : P := by
    obtain ⟨-, -, ⟨-, rfl⟩ | ⟨-, -, -, -, _, -, rfl⟩⟩ := settleCompletedBooking_ok run
    · exact changed (by rw [same])
    · rw [same] at live
      exact absurd rfl live.1
  cases h with
  | requested run =>
      cases requestTransaction_status run with
      | kept same => exact changed same.1
      | advanced before =>
          rcases before with status | status | status | status <;> simp [status, BookingStatus.frozen] at frozen
      | held open_ => simp [open_] at frozen
      | settled settled => exact unsettled settled rfl
  | @committed ctx k answer call c found run =>
      obtain ⟨caller, stage⟩ := call
      cases transaction_status run with
      | kept same => exact changed same.1
      | held _ after => simp [after, BookingStatus.frozen] at lifted
      | restored => exact ⟨ctx, k, answer, caller, c, rfl, found, run, rfl⟩
      | refunded _ after | canceled _ after => exact absurd after live.2
      | settled settled same => exact unsettled settled (by rw [same])
  | _ => exact changed rfl

/-- An unstarted booking in force was so before the step, or the step has lifted its hold. -/
theorem BookingSystem.step_blocks (reached : bookingMachine.Reachable x) (h : x.step ctx st = some (x', effects))
    (blocks : x'.file.booking.blocksSuspension userId = true) :
    x.file.booking.blocksSuspension userId = true ∨ (x.file.booking.providerId = userId
      ∧ ∃ k answer call, st = .resume k answer ∧ x.calls[k]? = some call ∧ call.reopens x.file = true) := by
  have next : bookingNext x (.step ctx st) = some x' := by simp [bookingNext, h]
  obtain ⟨_, event, -⟩ := BookingSystem.next_event next
  obtain ⟨provider, unstarted, status⟩ := Booking.blocksSuspension_iff.mp blocks
  have own : x.file.booking.providerId = userId :=
    (event.sameTerms.column Booking.providerId fun _ => rfl).symm.trans provider
  obtain ⟨l, e, l', e', moved⟩ := event.reachable_refines (bookingMachine_reachableUnder reached)
  -- the work is requested or accepted
  obtain ⟨w, rfl, before⟩ : ∃ w : Work, l' = .active w ∧ (w = .requested ∨ w = .accepted) := by
    rw [e'.status] at status
    cases l' with
    | active w => cases w <;> simp_all [Lifecycle.status, Work.status]
    | _ => simp [Lifecycle.status] at status
  have waiting (same : l = .active .requested ∨ l = .active .accepted) :
      x.file.booking.blocksSuspension userId = true := by
    refine Booking.blocksSuspension_iff.mpr ⟨own, ?_⟩
    obtain rfl | rfl := same
    · exact ⟨e.started .requested rfl, .inl e.status⟩
    · exact ⟨e.started .accepted rfl, .inr (.inr e.status)⟩
  have held (work : l.work = some w) (frozen : x.file.booking.status.frozen = true) :
      ∃ k answer call, st = .resume k answer ∧ x.calls[k]? = some call ∧ call.reopens x.file = true := by
    have idle : x.file.booking.started = false := by
      rw [e.started w work]
      obtain rfl | rfl := before <;> rfl
    have lifted : x'.file.booking.status.frozen = false := by
      rw [e'.status]
      obtain rfl | rfl := before <;> rfl
    have live : x'.file.booking.status ≠ .completed ∧ x'.file.booking.status ≠ .canceled := by
      rw [e'.status]
      obtain rfl | rfl := before <;> simp [Lifecycle.status, Work.status]
    obtain ⟨_, k, answer, caller, c, same, found, run, file⟩ := event.lifts frozen lifted live
    obtain ⟨-, rfl⟩ := Action.step.inj same
    exact ⟨k, answer, _, rfl, found, finalizeCase_reopens run frozen idle (file ▸ lifted)⟩
  rcases moved with rfl | step
  · exact .inl (waiting (by rcases before with rfl | rfl <;> simp))
  · cases step with
    | accept => exact .inl (waiting (.inl rfl))
    | restoreDisputed | restoreReviewed =>
        refine .inr ⟨own, held rfl ?_⟩
        rw [e.status]
        rfl
    | start | finish => simp at before

/-- An account is restricted by the finalization of a report decision. -/
theorem BookingSystem.step_restricts {status : AccountModerationStatus} (h : x.step ctx st = some (x', effects))
    (restricts : effects.moderation = some (userId, status)) :
    ∃ k answer call c, st = .resume k answer ∧ x.calls[k]? = some call
      ∧ call.transaction ctx answer x.file = .ok c ∧ x'.file = c.file
      ∧ Restricts ctx x.file call userId status := by
  cases st with
  | request r =>
      simp only [BookingSystem.step, BookingSystem.request] at h
      split at h
      · rename_i c run
        obtain ⟨rfl, rfl⟩ := Prod.mk.inj (Option.some.inj h)
        rw [Commit.effects, requestTransaction_moderation run] at restricts
        cases restricts
      · cases h
  | refund =>
      obtain ⟨rfl, rfl⟩ := Prod.mk.inj (Option.some.inj h)
      cases restricts
  | crash k =>
      simp only [BookingSystem.step] at h
      split at h
      · obtain ⟨rfl, rfl⟩ := Prod.mk.inj (Option.some.inj h)
        cases restricts
      · cases h
  | resume k answer =>
      simp only [BookingSystem.step, BookingSystem.resume, Option.bind_eq_some_iff] at h
      obtain ⟨⟨caller, stage⟩, found, h⟩ := h
      cases stage with
      | refundCreate =>
          cases answer with
          | refunded | timedOut | failed =>
              obtain ⟨rfl, rfl⟩ := Prod.mk.inj (Option.some.inj h)
              cases restricts
          | none | intent => simp at h
      | refundCaught | markFailed =>
          obtain ⟨rfl, rfl⟩ := Prod.mk.inj (Option.some.inj h)
          cases restricts
      | _ =>
          simp only at h
          split at h
          · rename_i c run
            obtain ⟨rfl, rfl⟩ := Prod.mk.inj (Option.some.inj h)
            exact ⟨k, answer, _, c, rfl, found, run, rfl, transaction_moderation run restricts⟩
          · obtain ⟨rfl, rfl⟩ := Prod.mk.inj (Option.some.inj h)
            cases restricts

/-- The suspension of a report decision meets no unstarted booking. -/
theorem Restricts.suspended {call : Call} (h : Restricts ctx x.file call userId .suspended) :
    ctx.unstartedElsewhere userId = 0 ∧ x.file.booking.blocksSuspension userId = false
      ∧ call.suspends x.file userId (ctx.user userId) = true := by
  obtain ⟨-, id, adminId, outcome, penalty, report, applied, caller, found, reported, checked, status⟩ := h
  obtain rfl : applied = .suspend := by cases applied <;> simp_all [ReportPenalty.moderation]
  simp only [checkReportPenalty, ite_ok, pure_ok, check_bind_ok, rejectIf_ok, reduceCtorEq, and_false, false_or,
    not_and, Nat.not_lt, gt_iff_lt, not_not, Nat.le_zero_eq, if_true] at checked
  obtain ⟨-, allowed, idle, rfl⟩ := checked
  have none_ := idle rfl
  refine ⟨by omega, ?_, ?_⟩
  · by_contra blocks
    simp only [Bool.not_eq_false] at blocks
    simp [blocks] at none_
  · simp [Call.suspends, caller, found, reported, allowed]

end Steps

end ServiceHub
