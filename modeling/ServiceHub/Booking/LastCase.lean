import ServiceHub.Booking.OpenCases
import ServiceHub.Booking.Suspension

/-! # Closing the last case of a completed booking

Settlement, a report decision and an escalation decision attempt the completion reward in the
transaction that commits them. A declined and a denied cancellation request close a case as well.
-/

namespace ServiceHub

open Guard

/-- A case that defers the completion reward, besides the closed ones. -/
def BookingFile.caseOpen (f : BookingFile) (x : Closing) : Bool :=
  f.reports.any x.leavesReport || f.cancellationRequests.any x.leavesCancellation
    || f.completionEscalations.any (·.status.active)

/-- The transaction finalizes a report or an escalation that is not finalized yet. -/
def Call.attemptsReward (c : Call) (f : BookingFile) : Bool :=
  c.stage == .finalize
    && (match c.caller with
      | .resolveAdminReport _ _ _ _ | .resolveCompletionEscalation _ _ _ => true
      | _ => false)
    && (c.caller.operation.bind f.findOperation).all (·.status != .completed)

namespace BookingSystem

/-- The committed transaction calls `awardBookingCompletionTrust`. -/
def attemptsReward (ctx : Context) (x : BookingSystem) (st : Step) (x' : BookingSystem) : Bool :=
  (x.file.booking.status != .completed && x'.file.booking.status == .completed)
    || match st with
      | .resume k answer => (x.calls[k]?).any fun c =>
          c.attemptsReward x.file && (c.transaction ctx answer x.file).toOption.isSome
      | _ => false

/-- A decline or a denial that closes the last case of a completed booking. -/
def closesUnrewarded (x : BookingSystem) (st : Step) : Bool :=
  x.file.booking.status == .completed && x.file.caseOpen {}
    && match st with
      | .request (.declineCancellation id _ _) => !x.file.caseOpen { cancellation := some id }
      | .resume k _ => (x.calls[k]?).any fun c => c.stage == .finalize && match c.caller with
          | .adminResolveCancellationRequest id false _ _ => !x.file.caseOpen {
              cancellation := some id, report := (x.file.findCancellation id).bind (·.reportId) }
          | _ => false
      | _ => false

end BookingSystem

section Transactions

variable {ctx : Context} {f f' : BookingFile} {c : Commit} {x : Closing} {caller : Caller}

theorem BookingFile.caseOpen_weaken (h : f.caseOpen x = true) : f.caseOpen {} = true := by
  have report (r : Report) (leaves : x.leavesReport r = true) : Closing.leavesReport {} r = true := by
    simp_all [Closing.leavesReport]
  have cancellation (q : CancellationRequest) (leaves : x.leavesCancellation q = true) :
      Closing.leavesCancellation {} q = true := by
    simp_all [Closing.leavesCancellation]
  simp only [BookingFile.caseOpen, Bool.or_eq_true, List.any_eq_true] at h ⊢
  rcases h with (⟨r, listed, leaves⟩ | ⟨q, listed, leaves⟩) | escalation
  · exact .inl (.inl ⟨r, listed, report r leaves⟩)
  · exact .inl (.inr ⟨q, listed, cancellation q leaves⟩)
  · exact .inr escalation

theorem KeepsOpen.caseOpen (h : KeepsOpen x f f') (open_ : f.caseOpen x = true) : f'.caseOpen {} = true := by
  refine BookingFile.caseOpen_weaken (x := x) ?_
  simp only [BookingFile.caseOpen, Bool.or_eq_true] at open_ ⊢
  exact open_.imp (Or.imp h.reports.any h.cancellations.any) h.escalations.any

/-- What a request to a completed booking leaves open. -/
theorem requestTransaction_keepsOpen {r : Request} (h : requestTransaction ctx r f = .ok c)
    (completed : f.booking.status = .completed) : KeepsOpen r.closing f c.file := by
  cases r with
  | respondToDirectBooking =>
      obtain ⟨pending, -⟩ := respondToDirectBookingService_ok h
      simp [completed] at pending
  | providerStartJob =>
      obtain ⟨-, ⟨-, -, -, rfl⟩ | ⟨_, -, -, -, -, -, -, rfl⟩⟩ := providerStartJob_ok h <;>
        exact .of_eq rfl rfl rfl rfl
  | markJobComplete =>
      obtain rfl | ⟨-, rfl⟩ := markJobComplete_ok h <;> exact .of_eq rfl rfl rfl rfl
  | confirmCompletion =>
      obtain ⟨-, -, ⟨-, rfl⟩ | ⟨allowed, -⟩⟩ := settleCompletedBooking_ok h
      · exact .refl f
      · simp [completed, SettlementActor.allows] at allowed
  | disputeJob =>
      obtain ⟨awaiting, -⟩ := disputeJobService_ok h
      simp [completed] at awaiting
  | createSafetyReport =>
      obtain ⟨-, -, rfl | ⟨report, -, -, -, ⟨-, rfl⟩ | ⟨-, rfl⟩⟩⟩ := createSafetyReport_ok h
      · exact .refl f
      · exact ⟨.append _, .refl _, .refl _, .refl _⟩
      · exact ⟨.append _, .refl _, .refl _, .refl _⟩
  | createCompletionEscalation =>
      obtain ⟨awaiting, -⟩ := createCompletionEscalation_ok h
      simp [completed] at awaiting
  | startModerationReview =>
      obtain ⟨_, _, _, rfl, same | ⟨id, rfl, -, rfl, rfl⟩ | ⟨id, rfl, -, rfl, rfl⟩⟩ :=
        startModerationReview_ok h
      · rw [same]
        exact .refl f
      · exact ⟨.update fun _ _ _ => ⟨rfl, rfl⟩, .update fun _ _ _ => ⟨rfl, rfl⟩, .refl _, .refl _⟩
      · exact ⟨.refl _, .refl _, .update fun _ _ _ => ⟨rfl, rfl⟩, .refl _⟩
  | requestCancellation =>
      obtain ⟨-, ⟨_, -, -, -, rfl⟩ | rfl | ⟨-, -, refuses, -⟩⟩ := requestCancellation_ok h
      · exact .refl f
      · exact .refl f
      · simp [completed, BookingStatus.refusesCancellation] at refuses
  | declineCancellation id =>
      obtain ⟨-, rfl⟩ := declineCancellationRequest_ok h
      exact updateCancellation_keepsOpen fun q same leaves => by
        simp [Closing.leavesCancellation, Request.closing, same] at leaves
  | approveCancellation id =>
      obtain rfl | ⟨_, claimed, _, -, -, -, claim, ⟨-, rfl⟩ | ⟨-, rfl⟩⟩ := approveCancellationRequest_ok h
      · exact .refl f
      · exact claim.written.keepsOpen
      · exact claim.written.keepsOpen.trans (updateCancellation_keepsOpen fun _ _ _ => ⟨rfl, rfl⟩)
  | escalateCancellation id =>
      obtain rfl | ⟨-, ⟨request, found, declined⟩, report, -, -, -, rfl⟩ := escalateCancellationRequest_ok h
      · exact .refl f
      · refine ⟨.append _, .update fun q same leaves => ⟨rfl, ?_⟩, .refl _, .refl _⟩
        simp [Closing.leavesCancellation, Request.closing, CancellationStatus.undecided]
  | adminResolveCancellation id =>
      obtain rfl | ⟨_, claimed, _, -, -, claim, ⟨-, rfl⟩ | ⟨-, reportId, -, -, rfl⟩⟩ :=
        claimAdminCancellation_ok h
      · exact .refl f
      · exact claim.written.keepsOpen
      · have reviewed : KeepsOpen {} claimed
            { claimed.updateCancellation id ({ · with status := .underReview }) with
              reports := Rows.updateWhere (fun r => r.id == reportId && r.status.active)
                ({ · with status := .underReview }) claimed.reports } :=
          ⟨.update fun _ _ _ => ⟨rfl, rfl⟩, .update fun _ _ _ => ⟨rfl, rfl⟩, .refl _, .refl _⟩
        exact claim.written.keepsOpen.trans reviewed
  | resolveAdminReport id =>
      obtain rfl | ⟨_, claimed, _, -, -, -, claim, ⟨-, rfl⟩ | ⟨-, rfl⟩⟩ := claimReport_ok h
      · exact .refl f
      · exact claim.written.keepsOpen
      · have reviewed : KeepsOpen {} claimed (claimed.updateReport id ({ · with status := .underReview })) :=
          ⟨.update fun _ _ _ => ⟨rfl, rfl⟩, .refl _, .refl _, .refl _⟩
        exact claim.written.keepsOpen.trans reviewed
  | resolveCompletionEscalation id _ action =>
      obtain rfl | ⟨_, claimed, _, -, -, claim, ⟨-, rfl⟩ | ⟨-, rfl⟩⟩ := claimEscalation_ok h
      · exact .refl f
      · exact claim.written.keepsOpen
      · have reviewed : KeepsOpen {} claimed (claimed.updateEscalation id
            ({ · with status := .underReview, resolution := some action.code })) :=
          ⟨.refl _, .refl _, .update fun _ _ _ => ⟨rfl, rfl⟩, .refl _⟩
        exact claim.written.keepsOpen.trans reviewed
  | resolveAdminBooking =>
      obtain rfl | ⟨claimed, _, claim, h⟩ := claimAdminBooking_ok h
      · exact .refl f
      obtain ⟨-, rfl⟩ | ⟨-, rfl⟩ | ⟨-, -, -, -, rfl⟩ | ⟨-, -, -, -, reserved, _, marked, -, rfl⟩ := h
      · exact claim.written.keepsOpen
      · exact claim.written.keepsOpen
      · exact claim.written.keepsOpen
      · have held : KeepsOpen {} claimed claimed.heldForAdmin := .of_eq rfl rfl rfl rfl
        have reserves : KeepsOpen {} claimed.heldForAdmin reserved := markStage_keepsOpen (by decide) marked
        exact claim.written.keepsOpen.trans (held.trans reserves)

theorem markFailed_caseOpen {ref : CaseRef} : (markAdminResolutionFailed f ref).caseOpen x = f.caseOpen x := rfl

theorem reserveOutcome_keepsOpen (h : reserveOutcome caller f = .ok c)
    (completed : f.booking.status = .completed) : KeepsOpen {} f c.file := by
  cases caller with
  | refundBookingPayment | requestCancellation | resolveAdminBooking => simp [reserveOutcome] at h
  | respondToCancellationRequest | adminResolveCancellationRequest =>
      obtain ⟨_, _, -, -, -, ⟨-, rfl⟩ | ⟨reserved, _, -, marked, rfl⟩⟩ := reserveCancellationFinancialOutcome_ok h
      · exact .refl f
      · have reserves : KeepsOpen {} f reserved := markStage_keepsOpen (by decide) marked
        exact reserves
  | resolveAdminReport =>
      obtain ⟨_, _, -, -, -, ⟨-, rfl⟩ | ⟨reserved, _, -, marked, rfl⟩⟩ := reserveReportFinancialOutcome_ok h
      · exact .refl f
      · have reserves : KeepsOpen {} f reserved := markStage_keepsOpen (by decide) marked
        exact reserves
  | resolveCompletionEscalation =>
      obtain ⟨_, _, -, -, -, ⟨-, rfl⟩ | ⟨_, _, _, -, ⟨review, -⟩ | ⟨awaiting, -⟩, -⟩⟩ :=
        reserveCompletionFinancialOutcome_ok h
      · exact .refl f
      · simp [completed] at review
      · simp [completed] at awaiting

theorem restore_completed (h : restoreBookingIfNoBlockingCases ctx f = .ok f')
    (completed : f.booking.status = .completed) : f' = f := by
  obtain ⟨same, -⟩ | ⟨_, -, frozen, -⟩ := restoreBookingIfNoBlockingCases_ok h
  · exact same
  · simp [completed, BookingStatus.frozen] at frozen

/-- A finalization on a completed booking that closes the last case attempts the reward, or denies a
    cancellation request. -/
theorem finalizeCase_last (h : finalizeCase ctx caller f = .ok c) (completed : f.booking.status = .completed)
    (open_ : f.caseOpen {} = true) (closed : c.file.caseOpen {} = false) :
    Call.attemptsReward ⟨caller, .finalize⟩ f = true
      ∨ ∃ id adminId fault, caller = .adminResolveCancellationRequest id false adminId fault
        ∧ f.caseOpen { cancellation := some id, report := (f.findCancellation id).bind (·.reportId) } = false := by
  have changed (same : c.file.caseOpen {} = f.caseOpen {}) {P : Prop} : P := by
    rw [same, open_] at closed
    cases closed
  -- a replayed decision writes nothing
  have running (replayed : (caller.operation.bind f.findOperation).any (·.status == .completed) = true → c.file = f) :
      (caller.operation.bind f.findOperation).all (·.status != .completed) = true := by
    by_contra done
    refine changed (congrArg (·.caseOpen {}) (replayed ?_))
    cases row : caller.operation.bind f.findOperation <;> simp_all
  cases caller with
  | refundBookingPayment => simp [finalizeCase] at h
  | requestCancellation =>
      obtain ⟨canceled, -⟩ := finalizeImmediateCancellation_ok h
      simp [completed] at canceled
  | respondToCancellationRequest =>
      obtain rfl | ⟨canceled, -⟩ := finalizeParticipantApproval_ok h
      · exact changed rfl
      · simp [completed] at canceled
  | resolveAdminBooking =>
      obtain rfl | ⟨-, -, rfl⟩ := finalizeAdminBooking_ok h <;> exact changed rfl
  | resolveCompletionEscalation id adminId action =>
      have open_ := running fun done => by
        obtain ⟨operation, found, status⟩ := (Option.any_eq_true _ _).mp done
        simp only [Caller.operation, Option.bind_some] at found
        simp only [finalizeCase, finalizeEscalation, orThrow_bind_ok, found, Option.some.injEq] at h
        obtain ⟨_, rfl, h⟩ := h
        simp only [beq_iff_eq] at status
        simp only [status, if_true, pure_ok] at h
        rw [← h]
      exact .inl (by simp [Call.attemptsReward, open_])
  | resolveAdminReport id adminId outcome penalty =>
      have open_ := running fun done => by
        rw [finalizeCase_completed h ⟨id, adminId, .inl ⟨outcome, penalty, rfl⟩⟩ done]
      exact .inl (by simp [Call.attemptsReward, open_])
  | adminResolveCancellationRequest id approve adminId fault =>
      obtain rfl | ⟨reportId, closing, restored, rfl, ⟨-, canceled, -⟩ | ⟨denied, back⟩, ⟨request, found, -, linked⟩,
        rfl⟩ := finalizeAdminCancellation_ok h
      · exact changed rfl
      · simp [completed] at canceled
      refine .inr ⟨id, adminId, fault, by rw [denied], ?_⟩
      by_contra others
      simp only [Bool.not_eq_false] at others
      obtain rfl := restore_completed back completed
      have keeps : KeepsOpen { cancellation := some id, report := some reportId } f
          ((f.updateCancellation id fun q => { q with
              status := .resolved, resolutionOutcome := some (if approve then .approved else .denied) }).updateReport
            reportId fun r => { r with status := if approve then .resolved else .dismissed }) := by
        refine ⟨.update fun r same leaves => ?_, .update fun q same leaves => ?_, .refl _, .refl _⟩
        · simp_all [Closing.leavesReport]
        · simp_all [Closing.leavesCancellation]
      simp only [found, Option.bind_some, linked] at others
      exact absurd ((keeps.caseOpen others).symm.trans closed) (by decide)

theorem transaction_last {answer : Answer} {call : Call} (h : call.transaction ctx answer f = .ok c)
    (completed : f.booking.status = .completed) (open_ : f.caseOpen {} = true)
    (closed : c.file.caseOpen {} = false) :
    call.attemptsReward f = true ∨ (call.stage = .finalize ∧ ∃ id adminId fault,
      call.caller = .adminResolveCancellationRequest id false adminId fault
        ∧ f.caseOpen { cancellation := some id, report := (f.findCancellation id).bind (·.reportId) } = false) := by
  have still (keeps : KeepsOpen {} f c.file) {P : Prop} : P := by
    rw [keeps.caseOpen open_] at closed
    cases closed
  obtain ⟨caller, stage⟩ := call
  cases stage with
  | reserve => exact still (reserveOutcome_keepsOpen h completed)
  | cancelRead => obtain ⟨-, rfl | rfl⟩ := readCancelBooking_ok h <;> exact still (.refl f)
  | preStartCheck =>
      obtain ⟨-, -, rfl⟩ := checkPreStart_ok h
      exact still (.refl f)
  | refundRead =>
      obtain ⟨_, -, rfl⟩ := readRefundBooking_ok h
      exact still (.refl f)
  | refundExisting => obtain ⟨-, -, rfl⟩ | rfl := readExistingRefund_ok h <;> exact still (.refl f)
  | refundIntent =>
      cases answer with
      | intent =>
          obtain ⟨_, -, rfl⟩ := checkRefundIntent_ok h
          exact still (.refl f)
      | _ => simp [Call.transaction] at h
  | refundReserve =>
      obtain ⟨uncompleted, -⟩ := reserveRefund_ok h
      exact absurd completed uncompleted
  | refundFinalize =>
      obtain ⟨-, -, rfl⟩ | ⟨-, uncompleted, -⟩ := finalizeRefund_ok h
      · exact still (.refl f)
      · exact absurd completed uncompleted
  | refundCreate | refundCaught | markFailed => simp [Call.transaction] at h
  | cancelSettle =>
      obtain ⟨-, cancellable, -⟩ := settleCancellation_ok h
      simp [completed, BookingStatus.uncancellable] at cancellable
  | settle =>
      obtain ⟨_, settled, rfl⟩ := settleByAdmin_ok h
      obtain ⟨-, -, ⟨-, rfl⟩ | ⟨allowed, -⟩⟩ := settleCompletedBooking_ok settled
      · exact still (.refl f)
      · simp [completed, SettlementActor.allows, BookingStatus.frozen] at allowed
  | markEstablished | markDecisionReady =>
      obtain ⟨_, _, _, -, marked, rfl⟩ := markStage_ok h
      exact still (markStage_keepsOpen (by decide) marked)
  | finalize =>
      rcases finalizeCase_last h completed open_ closed with attempts | denies
      · exact .inl attempts
      · exact .inr ⟨rfl, denies⟩

end Transactions

/-- The transaction that closes the last case of a completed booking, or completes it without one,
    attempts the reward; a decline and a denial do not. -/
theorem BookingSystem.step_closes {ctx : Context} {x x' : BookingSystem} {st : Step} {effects : Effects}
    (h : x.step ctx st = some (x', effects)) (completed : x'.file.booking.status = .completed)
    (closed : x'.file.caseOpen {} = false)
    (before : x.file.booking.status ≠ .completed ∨ x.file.caseOpen {} = true) :
    x.attemptsReward ctx st x' = true ∨ x.closesUnrewarded st = true := by
  by_cases was : x.file.booking.status = .completed
  · have open_ := before.resolve_left (not_not.mpr was)
    have still (keeps : KeepsOpen {} x.file x'.file) {P : Prop} : P := by
      rw [keeps.caseOpen open_] at closed
      cases closed
    cases st with
    | request r =>
        simp only [BookingSystem.step, BookingSystem.request] at h
        split at h
        · rename_i c run
          obtain ⟨rfl, -⟩ := Prod.mk.inj (Option.some.inj h)
          have keeps := requestTransaction_keepsOpen run was
          cases r with
          | declineCancellation id =>
              right
              have last : x.file.caseOpen { cancellation := some id } = false := by
                by_contra others
                simp only [Bool.not_eq_false] at others
                exact absurd ((keeps.caseOpen others).symm.trans closed) (by decide)
              simp [BookingSystem.closesUnrewarded, was, open_, last]
          | _ => exact still keeps
        · cases h
    | refund id =>
        obtain ⟨rfl, -⟩ := Prod.mk.inj (Option.some.inj h)
        exact still (.refl _)
    | crash k =>
        simp only [BookingSystem.step] at h
        split at h
        · obtain ⟨rfl, -⟩ := Prod.mk.inj (Option.some.inj h)
          exact still (.refl _)
        · cases h
    | resume k answer =>
        simp only [BookingSystem.step, BookingSystem.resume, Option.bind_eq_some_iff] at h
        obtain ⟨⟨caller, stage⟩, found, h⟩ := h
        cases stage with
        | refundCreate =>
            cases answer with
            | refunded | timedOut | failed =>
                obtain ⟨rfl, -⟩ := Prod.mk.inj (Option.some.inj h)
                exact still (.refl _)
            | none | intent => simp at h
        | refundCaught =>
            obtain ⟨rfl, -⟩ := Prod.mk.inj (Option.some.inj h)
            exact still (.of_eq rfl rfl rfl rfl)
        | markFailed =>
            obtain ⟨rfl, -⟩ := Prod.mk.inj (Option.some.inj h)
            simp only at closed
            split at closed
            · rw [markFailed_caseOpen, open_] at closed
              cases closed
            · rw [open_] at closed
              cases closed
        | _ =>
            simp only at h
            split at h
            · rename_i c run
              obtain ⟨rfl, -⟩ := Prod.mk.inj (Option.some.inj h)
              rcases transaction_last run was open_ closed with attempts | ⟨final, id, adminId, fault, denies, last⟩
              · left
                simp [BookingSystem.attemptsReward, found, attempts, run, Except.toOption]
              · right
                simp only at final denies
                simp [BookingSystem.closesUnrewarded, was, open_, found, final, denies, last]
            · obtain ⟨rfl, -⟩ := Prod.mk.inj (Option.some.inj h)
              exact still (.refl _)
  · left
    simp [BookingSystem.attemptsReward, was, completed]

end ServiceHub
