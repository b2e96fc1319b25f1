import ServiceHub.Booking.System

/-! # What one step does

A step commits one write to the file, on behalf of a request or of one call, and the
call goes on or returns. An invariant of the file and of every call in flight is
proved once per event.
-/

namespace ServiceHub

open Guard

/-- The file, the gateway's refund and the continuing call after an action. -/
inductive Event (s : BookingSystem) :
    Action → BookingFile → Option GatewayRefund → Option Call → Prop where
  | requested {ctx r c} (run : requestTransaction ctx r s.file = .ok c) :
      Event s (.step ctx (.request r)) c.file s.gatewayRefund c.continues
  | refundCalled {ctx id} : Event s (.step ctx (.refund id)) s.file s.gatewayRefund
      (some ⟨.refundBookingPayment id, .refundRead⟩)
  | committed {ctx k answer call c} (found : s.calls[k]? = some call)
      (run : call.transaction ctx answer s.file = .ok c) :
      Event s (.step ctx (.resume k answer)) c.file s.gatewayRefund c.continues
  | aborted {ctx k answer call} (found : s.calls[k]? = some call) :
      Event s (.step ctx (.resume k answer)) s.file s.gatewayRefund call.unwound
  | refundExecuted {ctx k caller paymentId amount refund}
      (found : s.calls[k]? = some ⟨caller, .refundCreate paymentId amount⟩) :
      Event s (.step ctx (.resume k (.refunded refund))) s.file
        (some (s.gatewayRefund.getD refund))
        (some ⟨caller, .refundFinalize false (s.gatewayRefund.getD refund).id
          (s.gatewayRefund.getD refund).status amount⟩)
  | refundTimedOut {ctx k caller paymentId amount refund}
      (found : s.calls[k]? = some ⟨caller, .refundCreate paymentId amount⟩) :
      Event s (.step ctx (.resume k (.timedOut refund))) s.file
        (some (s.gatewayRefund.getD refund)) (some ⟨caller, .refundCaught⟩)
  | refundFailed {ctx k caller paymentId amount}
      (found : s.calls[k]? = some ⟨caller, .refundCreate paymentId amount⟩) :
      Event s (.step ctx (.resume k .failed)) s.file s.gatewayRefund (some ⟨caller, .refundCaught⟩)
  | refundCaught {ctx k answer call} (found : s.calls[k]? = some call)
      (stage : call.stage = .refundCaught) :
      Event s (.step ctx (.resume k answer)) (recordRefundFailure s.file) s.gatewayRefund call.unwound
  | markedFailed {ctx k answer call ref} (found : s.calls[k]? = some call)
      (stage : call.stage = .markFailed) (operation : call.caller.operation = some ref) :
      Event s (.step ctx (.resume k answer)) (markAdminResolutionFailed s.file ref) s.gatewayRefund none
  | stopped {ctx st} : Event s (.step ctx st) s.file s.gatewayRefund none
  | renumbered {position wait waiting} : Event s (.renumber position wait waiting)
      (s.file.renumbered position wait waiting) s.gatewayRefund none

namespace BookingSystem

variable {s s' : BookingSystem}

theorem mem_proceed {k : Nat} {next : Option Call} {c : Call} (h : c ∈ s.proceed k next) :
    c ∈ s.calls ∨ next = some c := by
  cases next with
  | none => exact .inl (List.mem_of_mem_eraseIdx h)
  | some d =>
      obtain listed | rfl := List.mem_or_eq_of_mem_set h
      · exact .inl listed
      · exact .inr rfl

theorem resume_event {ctx : Context} {k : Nat} {answer : Answer} {effects : Effects}
    (h : s.resume ctx k answer = some (s', effects)) :
    ∃ next, Event s (.step ctx (.resume k answer)) s'.file s'.gatewayRefund next
      ∧ s'.calls = s.proceed k next := by
  simp only [resume, Option.bind_eq_some_iff] at h
  obtain ⟨⟨caller, stage⟩, found, h⟩ := h
  cases stage with
  | refundCreate paymentId amount =>
      cases answer with
      | refunded refund =>
          simp only [Option.some.injEq, Prod.mk.injEq] at h
          obtain ⟨rfl, -⟩ := h
          exact ⟨_, .refundExecuted found, rfl⟩
      | timedOut refund =>
          simp only [Option.some.injEq, Prod.mk.injEq] at h
          obtain ⟨rfl, -⟩ := h
          exact ⟨_, .refundTimedOut found, rfl⟩
      | failed =>
          simp only [Option.some.injEq, Prod.mk.injEq] at h
          obtain ⟨rfl, -⟩ := h
          exact ⟨_, .refundFailed found, rfl⟩
      | none | intent => simp at h
  | refundCaught =>
      simp only [Option.some.injEq, Prod.mk.injEq] at h
      obtain ⟨rfl, -⟩ := h
      exact ⟨_, .refundCaught found rfl, rfl⟩
  | markFailed =>
      simp only [Option.some.injEq, Prod.mk.injEq] at h
      obtain ⟨rfl, -⟩ := h
      cases operation : caller.operation with
      | none => exact ⟨none, .stopped, rfl⟩
      | some ref => exact ⟨none, .markedFailed found rfl operation, rfl⟩
  | _ =>
      simp only at h
      split at h
      · rename_i commit run
        simp only [Option.some.injEq, Prod.mk.injEq] at h
        obtain ⟨rfl, -⟩ := h
        exact ⟨_, .committed found run, rfl⟩
      · simp only [Option.some.injEq, Prod.mk.injEq] at h
        obtain ⟨rfl, -⟩ := h
        exact ⟨_, .aborted found, rfl⟩

theorem next_event {a : Action} (h : bookingNext s a = some s') :
    ∃ next, Event s a s'.file s'.gatewayRefund next ∧ ∀ c ∈ s'.calls, c ∈ s.calls ∨ next = some c := by
  cases a with
  | renumber position wait waiting =>
      simp only [bookingNext, Option.some.injEq] at h
      subst h
      exact ⟨none, .renumbered, fun c hc => .inl hc⟩
  | step ctx st =>
      simp only [bookingNext, Option.map_eq_some_iff] at h
      obtain ⟨⟨t, effects⟩, h, rfl⟩ := h
      cases st with
      | request r =>
          simp only [BookingSystem.step, request] at h
          split at h
          · rename_i commit run
            simp only [Option.some.injEq, Prod.mk.injEq] at h
            obtain ⟨rfl, -⟩ := h
            refine ⟨_, .requested run, fun c hc => ?_⟩
            simpa using hc
          · simp at h
      | refund id =>
          simp only [BookingSystem.step, Option.some.injEq, Prod.mk.injEq] at h
          obtain ⟨rfl, -⟩ := h
          refine ⟨_, .refundCalled, fun c hc => ?_⟩
          simpa [eq_comm] using hc
      | resume k answer =>
          obtain ⟨next, event, calls⟩ := resume_event h
          exact ⟨next, event, fun c hc => mem_proceed (calls ▸ hc)⟩
      | crash k =>
          simp only [BookingSystem.step] at h
          split at h
          · simp only [Option.some.injEq, Prod.mk.injEq] at h
            obtain ⟨rfl, -⟩ := h
            exact ⟨none, .stopped, fun c hc => mem_proceed hc⟩
          · simp at h

end BookingSystem

/-- A property of the file and the gateway, and one of both and each call in flight. -/
structure Coupled (I : BookingFile → Option GatewayRefund → Prop)
    (P : BookingFile → Option GatewayRefund → Call → Prop) (s : BookingSystem) : Prop where
  file : I s.file s.gatewayRefund
  calls : ∀ c ∈ s.calls, P s.file s.gatewayRefund c

section Rules

variable {I : BookingFile → Option GatewayRefund → Prop}
  {P : BookingFile → Option GatewayRefund → Call → Prop}
  {C : BookingSystem → Action → Prop} {s s' : BookingSystem}

/-- What an event has to preserve. -/
structure Event.Preserves (I : BookingFile → Option GatewayRefund → Prop)
    (P : BookingFile → Option GatewayRefund → Call → Prop) (s : BookingSystem) (f' : BookingFile)
    (g' : Option GatewayRefund) (next : Option Call) : Prop where
  file : I f' g'
  others : ∀ c ∈ s.calls, P s.file s.gatewayRefund c → P f' g' c
  next : ∀ c, next = some c → P f' g' c

theorem Coupled.next {a : Action}
    (preserved : ∀ f' g' next, Event s a f' g' next → Event.Preserves I P s f' g' next)
    (h : Coupled I P s) (hn : bookingNext s a = some s') : Coupled I P s' := by
  obtain ⟨next, event, calls⟩ := BookingSystem.next_event hn
  have kept := preserved _ _ _ event
  refine ⟨kept.file, fun c hc => ?_⟩
  obtain old | new := calls c hc
  · exact kept.others c old (h.calls c old)
  · exact kept.next c new

theorem Coupled.reachableUnder
    (created : ∀ f, f.Created → I f none)
    (preserved : ∀ s a f' g' next, refundMachine.ReachableUnder C s → Coupled I P s → C s a →
      Event s a f' g' next → Event.Preserves I P s f' g' next)
    (h : refundMachine.ReachableUnder C s) : Coupled I P s := by
  refine h.invariant_with (fun s hs => hs) (fun s hs => ?_) (fun s a s' reached hs hc hn => ?_)
  · obtain ⟨new, idle, fresh⟩ := hs
    exact ⟨by rw [fresh]; exact created _ new, by simp [idle]⟩
  · exact hs.next (fun f' g' next => preserved s a f' g' next reached hs hc) hn

theorem bookingNext_of_next {s t : BookingSystem} {a : Action} (h : bookingMachine.next s a = some t) :
    bookingNext s a = some t := by
  cases a with
  | renumber => exact h
  | step _ st =>
      cases st with
      | refund => simp [bookingMachine] at h
      | _ => exact h

/-- A run of the application is a run in which no bare refund is called. -/
theorem bookingMachine_reachableUnder (h : bookingMachine.ReachableUnder C s) :
    refundMachine.ReachableUnder (fun s a => C s a ∧ ∀ ctx id, a ≠ .step ctx (.refund id)) s := by
  obtain ⟨s₀, h₀, run⟩ := h
  refine ⟨s₀, h₀, ?_⟩
  induction run with
  | refl => exact .refl
  | @step t u a _ hc hn ih =>
      have bare : ∀ ctx id, a ≠ .step ctx (.refund id) := by
        rintro ctx id rfl
        simp [bookingMachine] at hn
      exact .step ih ⟨hc, bare⟩ (bookingNext_of_next hn)

end Rules

/-- A booking starts without cases and decisions. -/
theorem BookingFile.Created.caseless {f : BookingFile} (h : f.Created) :
    f.operations = [] ∧ f.reports = [] ∧ f.cancellationRequests = [] ∧ f.completionEscalations = [] := by
  cases h <;> exact ⟨rfl, rfl, rfl, rfl⟩

/-- The points at which a request leaves its call. -/
def Stage.opening : Stage → Bool
  | .reserve | .cancelRead | .settle | .markDecisionReady | .finalize => true
  | _ => false

/-- The control flow of a call whose transaction commits on the file `f`. -/
inductive Stage.Next (f : BookingFile) : Stage → Stage → Prop where
  | reserved {effect} (opening : effect.opening = true) : Next f .reserve effect
  | cancelChecked : Next f .cancelRead (.preStartCheck f.booking)
  | cancelHeld : Next f .cancelRead .refundRead
  | cancelUnheld (unheld : f.booking.paymentStatus.held = false) :
      Next f .cancelRead (.cancelSettle false)
  | preStartHeld {b} : Next f (.preStartCheck b) .refundRead
  | preStartUnheld {b : Booking} (unheld : b.paymentStatus.held = false) :
      Next f (.preStartCheck b) (.cancelSettle false)
  | refundRead {q} : Next f .refundRead (.refundExisting f.booking q)
  | refundReturned {b : Booking} {q} (canceled : b.status = .canceled)
      (refunded : b.paymentStatus = .refunded) : Next f (.refundExisting b q) (.cancelSettle true)
  | refundOpen {b q} : Next f (.refundExisting b q) (.refundIntent q)
  | refundIntent {q paymentId amount} : Next f (.refundIntent q) (.refundReserve paymentId amount)
  | refundResumed {paymentId amount id status} :
      Next f (.refundReserve paymentId amount) (.refundFinalize true id status amount)
  | refundReserved {paymentId amount} :
      Next f (.refundReserve paymentId amount) (.refundCreate paymentId amount)
  | refundFinalized {resumed id status amount} :
      Next f (.refundFinalize resumed id status amount) (.cancelSettle true)
  | cancelSettled {held} : Next f (.cancelSettle held) .markEstablished
  | immediateSettled {held} : Next f (.cancelSettle held) .finalize
  | settled : Next f .settle .markEstablished
  | established : Next f .markEstablished .finalize
  | decided : Next f .markDecisionReady .finalize

section Inversion

variable {ctx : Context} {f : BookingFile} {c : Commit} {caller : Caller}

theorem settleByAdmin_ok (h : settleByAdmin ctx caller f = .ok c) :
    ∃ settled, settleCompletedBooking ctx .admin f = .ok settled
      ∧ c = { settled with continues := some ⟨caller, .markEstablished⟩ } := by
  simp only [settleByAdmin, bind_ok, pure_ok] at h
  obtain ⟨settled, hs, rfl⟩ := h
  exact ⟨settled, hs, rfl⟩

theorem markStage_ok {stage : OperationStage} (h : markStage caller stage f = .ok c) :
    ∃ ref marked op, caller.operation = some ref
      ∧ markAdminResolutionStageInTransaction f ref stage = .ok (marked, op)
      ∧ c = { file := marked, continues := some ⟨caller, .finalize⟩ } := by
  simp only [markStage, orThrow_bind_ok] at h
  obtain ⟨ref, operation, h⟩ := h
  simp only [bind_ok, pure_ok, Prod.exists] at h
  obtain ⟨marked, op, hm, rfl⟩ := h
  exact ⟨ref, marked, op, operation, hm, rfl⟩

theorem requestTransaction_opening {r : Request} {next : Call}
    (h : requestTransaction ctx r f = .ok c) (hn : c.continues = some next) :
    next.stage.opening = true := by
  cases r with
  | respondToDirectBooking =>
      obtain ⟨-, _, rfl | rfl⟩ := respondToDirectBookingService_ok h <;> simp at hn
  | providerStartJob =>
      obtain ⟨-, ⟨-, -, -, rfl⟩ | ⟨_, -, -, -, -, -, -, rfl⟩⟩ := providerStartJob_ok h <;> simp at hn
  | markJobComplete => obtain rfl | ⟨-, rfl⟩ := markJobComplete_ok h <;> simp at hn
  | confirmCompletion =>
      obtain ⟨-, -, ⟨-, rfl⟩ | ⟨-, -, -, -, _, -, rfl⟩⟩ := settleCompletedBooking_ok h <;> simp at hn
  | disputeJob =>
      obtain ⟨-, -, _, _, -, -, -, -, rfl⟩ := disputeJobService_ok h
      simp at hn
  | createSafetyReport =>
      obtain ⟨-, -, rfl | ⟨_, -, -, -, ⟨-, rfl⟩ | ⟨-, rfl⟩⟩⟩ := createSafetyReport_ok h <;> simp at hn
  | createCompletionEscalation =>
      obtain ⟨-, -, -, rfl | ⟨-, rfl⟩⟩ := createCompletionEscalation_ok h <;> simp at hn
  | startModerationReview =>
      obtain ⟨_, _, _, rfl, -⟩ := startModerationReview_ok h
      simp at hn
  | requestCancellation =>
      obtain ⟨-, ⟨_, -, -, -, rfl⟩ | rfl | ⟨-, -, -, -, _, -, -, -, ⟨-, -, -, rfl⟩ | ⟨-, -, -, rfl⟩⟩⟩ :=
        requestCancellation_ok h
      · cases hn; rfl
      · simp at hn
      · cases hn; rfl
      · simp at hn
  | declineCancellation =>
      obtain ⟨-, rfl⟩ := declineCancellationRequest_ok h
      simp at hn
  | approveCancellation =>
      obtain rfl | ⟨_, _, op, -, -, -, -, ⟨-, rfl⟩ | ⟨-, rfl⟩⟩ := approveCancellationRequest_ok h
      · simp at hn
      · simp at hn
      · cases hn
        by_cases established : op.hasEstablishedFinancialEffect = true <;>
          simp [established, Stage.opening]
  | escalateCancellation =>
      obtain rfl | ⟨-, -, _, -, -, -, rfl⟩ := escalateCancellationRequest_ok h <;> simp at hn
  | adminResolveCancellation =>
      obtain rfl | ⟨_, _, _, -, -, -, ⟨-, rfl⟩ | ⟨-, _, -, -, rfl⟩⟩ := claimAdminCancellation_ok h
      · simp at hn
      · simp at hn
      · cases hn
        dsimp only
        split <;> rfl
  | resolveAdminReport =>
      obtain rfl | ⟨_, _, _, -, -, -, -, ⟨-, rfl⟩ | ⟨-, rfl⟩⟩ := claimReport_ok h
      · simp at hn
      · simp at hn
      · cases hn
        dsimp only
        split <;> rfl
  | resolveCompletionEscalation =>
      obtain rfl | ⟨_, _, _, -, -, -, ⟨-, rfl⟩ | ⟨-, rfl⟩⟩ := claimEscalation_ok h
      · simp at hn
      · simp at hn
      · cases hn
        dsimp only
        split <;> rfl
  | resolveAdminBooking _ outcome =>
      obtain rfl | ⟨_, _, -, h⟩ := claimAdminBooking_ok h
      · simp at hn
      obtain ⟨-, rfl⟩ | ⟨-, rfl⟩ | ⟨-, -, -, -, rfl⟩ | ⟨-, -, -, -, _, _, -, -, rfl⟩ := h
      · simp at hn
      · cases hn; rfl
      · cases hn
        cases outcome <;> rfl
      · cases hn
        cases outcome <;> rfl

theorem reserveOutcome_opening {next : Call} (h : reserveOutcome caller f = .ok c)
    (hn : c.continues = some next) : next.caller = caller ∧ next.stage.opening = true := by
  cases caller with
  | refundBookingPayment | requestCancellation | resolveAdminBooking => simp [reserveOutcome] at h
  | respondToCancellationRequest | adminResolveCancellationRequest =>
      obtain ⟨_, _, -, -, -, ⟨-, rfl⟩ | ⟨_, _, -, -, rfl⟩⟩ := reserveCancellationFinancialOutcome_ok h <;>
        cases hn <;> exact ⟨rfl, rfl⟩
  | resolveAdminReport _ _ outcome =>
      obtain ⟨_, _, -, -, -, ⟨-, rfl⟩ | ⟨_, _, -, -, rfl⟩⟩ := reserveReportFinancialOutcome_ok h <;>
        cases hn <;> exact ⟨rfl, by cases outcome <;> rfl⟩
  | resolveCompletionEscalation _ _ action =>
      obtain ⟨_, _, -, -, -, ⟨-, rfl⟩ | ⟨_, _, _, -, -, -, rfl⟩⟩ :=
        reserveCompletionFinancialOutcome_ok h <;>
        cases hn <;> exact ⟨rfl, by cases action <;> rfl⟩

theorem finalizeCase_returns (h : finalizeCase ctx caller f = .ok c) : c.continues = none := by
  cases caller with
  | refundBookingPayment => simp [finalizeCase] at h
  | requestCancellation =>
      obtain ⟨-, rfl⟩ := finalizeImmediateCancellation_ok h
      rfl
  | respondToCancellationRequest => obtain rfl | ⟨-, rfl⟩ := finalizeParticipantApproval_ok h <;> rfl
  | adminResolveCancellationRequest =>
      obtain rfl | ⟨_, _, _, -, -, -, rfl⟩ := finalizeAdminCancellation_ok h <;> rfl
  | resolveAdminReport =>
      obtain rfl | ⟨_, _, _, _, -, -, -, -, -, rfl⟩ := finalizeReport_ok h <;> rfl
  | resolveCompletionEscalation => obtain rfl | ⟨-, -, -, -, rfl⟩ := finalizeEscalation_ok h <;> rfl
  | resolveAdminBooking => obtain rfl | ⟨-, -, rfl⟩ := finalizeAdminBooking_ok h <;> rfl

theorem afterRefund_eq {next : Call} (h : caller.afterRefund = some next) :
    next = ⟨caller, .cancelSettle true⟩ := by
  cases caller <;> simp_all [Caller.afterRefund]

/-- A call keeps its caller and moves along the control flow. -/
theorem transaction_next {answer : Answer} {call next : Call}
    (h : call.transaction ctx answer f = .ok c) (hn : c.continues = some next) :
    next.caller = call.caller ∧ Stage.Next f call.stage next.stage := by
  obtain ⟨caller, stage⟩ := call
  cases stage with
  | reserve =>
      obtain ⟨same, opening⟩ := reserveOutcome_opening h hn
      exact ⟨same, .reserved opening⟩
  | cancelRead =>
      obtain ⟨-, rfl | rfl⟩ := readCancelBooking_ok h
      · cases hn
        exact ⟨rfl, .cancelChecked⟩
      · cases hn
        cases held : f.booking.paymentStatus.held
        · simp only [cancelRoute, held, Bool.false_eq_true, if_false]
          exact ⟨trivial, .cancelUnheld held⟩
        · simp only [cancelRoute, held, if_true]
          exact ⟨trivial, .cancelHeld⟩
  | preStartCheck b =>
      obtain ⟨-, -, rfl⟩ := checkPreStart_ok h
      cases hn
      cases held : b.paymentStatus.held
      · simp only [cancelRoute, held, Bool.false_eq_true, if_false]
        exact ⟨trivial, .preStartUnheld held⟩
      · simp only [cancelRoute, held, if_true]
        exact ⟨trivial, .preStartHeld⟩
  | refundRead =>
      obtain ⟨_, -, rfl⟩ := readRefundBooking_ok h
      cases hn
      exact ⟨rfl, .refundRead⟩
  | refundExisting =>
      obtain ⟨canceled, refunded, rfl⟩ | rfl := readExistingRefund_ok h
      · rw [afterRefund_eq hn]
        exact ⟨rfl, .refundReturned canceled refunded⟩
      · cases hn
        exact ⟨rfl, .refundOpen⟩
  | refundIntent =>
      cases answer with
      | intent =>
          obtain ⟨_, -, rfl⟩ := checkRefundIntent_ok h
          cases hn
          exact ⟨rfl, .refundIntent⟩
      | _ => simp [Call.transaction] at h
  | refundReserve =>
      obtain ⟨-, -, ⟨_, _, -, -, rfl⟩ | ⟨-, rfl⟩ | ⟨-, -, rfl⟩⟩ := reserveRefund_ok h <;> cases hn
      · exact ⟨rfl, .refundResumed⟩
      · exact ⟨rfl, .refundReserved⟩
      · exact ⟨rfl, .refundReserved⟩
  | refundFinalize =>
      obtain ⟨-, -, rfl⟩ | ⟨-, -, -, -, rfl⟩ := finalizeRefund_ok h <;>
        rw [afterRefund_eq hn] <;> exact ⟨rfl, .refundFinalized⟩
  | refundCreate | refundCaught | markFailed => simp [Call.transaction] at h
  | cancelSettle =>
      have route : caller.afterCancel = some next := by
        obtain ⟨-, -, _, ⟨-, -, -, rfl⟩ | ⟨-, rfl⟩⟩ := settleCancellation_ok h <;> exact hn
      cases caller <;> simp only [Caller.afterCancel, Option.some.injEq, reduceCtorEq] at route <;>
        subst route
      · exact ⟨rfl, .immediateSettled⟩
      all_goals exact ⟨rfl, .cancelSettled⟩
  | settle =>
      obtain ⟨_, -, rfl⟩ := settleByAdmin_ok h
      cases hn
      exact ⟨rfl, .settled⟩
  | markEstablished =>
      obtain ⟨_, _, _, -, -, rfl⟩ := markStage_ok h
      cases hn
      exact ⟨rfl, .established⟩
  | markDecisionReady =>
      obtain ⟨_, _, _, -, -, rfl⟩ := markStage_ok h
      cases hn
      exact ⟨rfl, .decided⟩
  | finalize => simp [finalizeCase_returns h] at hn

theorem unwound_eq {call next : Call} (h : call.unwound = some next) :
    next = ⟨call.caller, .markFailed⟩ := by
  simp only [Call.unwound, Option.map_eq_some_iff] at h
  obtain ⟨_, -, rfl⟩ := h
  rfl

end Inversion

end ServiceHub
