import ServiceHub.Booking.Routes

/-! # Started work is cancelled by consent

A cancellation before the start holds the booking until it is cancelled, so no start comes
between. Every other cancellation is carried out by a call that the responder's approval or an
administrator's decision has opened.
-/

namespace ServiceHub

/-- The reservation of an immediate pre-start cancellation. -/
def CancellationRequest.immediate (c : CancellationRequest) : Bool :=
  c.resolutionOutcome == some .immediateCancelPending || c.resolutionOutcome == some .immediateCancel

/-- The reservation still holds the unstarted booking, or the booking is cancelled. -/
structure HeldForCancel (f : BookingFile) (requestId : Nat) : Prop where
  unstarted : f.booking.started = false
  holds : f.booking.status = .canceled ∨ (f.booking.status = .underReview
    ∧ ∃ q ∈ f.cancellationRequests, q.id = requestId ∧ q.status = .underReview
      ∧ q.resolutionOutcome = some .immediateCancelPending ∧ q.reportId = none)

/-- The booking is cancelled or refunded. -/
def BookingFile.calledOff (f : BookingFile) : Prop :=
  f.booking.status = .canceled ∨ f.booking.paymentStatus = .refunded

instance (f : BookingFile) : Decidable f.calledOff :=
  inferInstanceAs (Decidable (_ ∨ _))

/-- An immediate cancellation is recorded or in flight. -/
def BookingSystem.cancelsImmediately (s : BookingSystem) : Prop :=
  (∃ q ∈ s.file.cancellationRequests, q.immediate = true)
    ∨ ∃ call ∈ s.calls, call.caller.preStartRequest.isSome = true

/-- A decision to cancel: the approval of the responder, or one of an administrator. -/
inductive CancelDecision where
  | approval (requestId : Nat) (responderId : UserId)
  | cancellation (requestId : Nat) (adminId : UserId)
  | report (reportId : Nat) (adminId : UserId)
  | escalation (escalationId : Nat) (adminId : UserId)
  | booking (adminId : UserId)
  deriving Repr, DecidableEq

/-- The decision that a call carries out. -/
def Caller.cancelDecision : Caller → Option CancelDecision
  | .respondToCancellationRequest id responderId _ => some (.approval id responderId)
  | .adminResolveCancellationRequest id true adminId _ => some (.cancellation id adminId)
  | .resolveAdminReport id adminId .cancelBooking _ => some (.report id adminId)
  | .resolveCompletionEscalation id adminId .refundSeeker => some (.escalation id adminId)
  | .resolveAdminBooking adminId .cancelBooking => some (.booking adminId)
  | _ => none

/-- The action is the request that makes the decision; an approval is one of the other
    participant. -/
inductive CancelDecision.MadeBy (s : BookingSystem) : CancelDecision → Action → Prop where
  | approval {ctx id responderId q} (found : s.file.findCancellation id = some q)
      (between : q.Between s.file.booking) (responder : q.responderId = responderId)
      (other : q.requestedBy ≠ responderId) :
      MadeBy s (.approval id responderId) (.step ctx (.request (.approveCancellation id responderId)))
  | cancellation {ctx id adminId fault note} : MadeBy s (.cancellation id adminId)
      (.step ctx (.request (.adminResolveCancellation id true adminId fault note)))
  | report {ctx id adminId penalty notes} : MadeBy s (.report id adminId)
      (.step ctx (.request (.resolveAdminReport id adminId .cancelBooking penalty notes)))
  | escalation {ctx id adminId} : MadeBy s (.escalation id adminId)
      (.step ctx (.request (.resolveCompletionEscalation id adminId .refundSeeker)))
  | booking {ctx adminId banned} : MadeBy s (.booking adminId)
      (.step ctx (.request (.resolveAdminBooking adminId .cancelBooking banned)))

section Steps

variable {s : BookingSystem} {a : Action} {f f' : BookingFile} {g' : Option GatewayRefund}
  {next : Option Call} {l : Lifecycle} {C : BookingSystem → Action → Prop}

/-- A booking is started only from a status in which the work can advance. -/
theorem StatusWritten.started (h : StatusWritten s a f') :
    f'.booking.started = s.file.booking.started ∨ (s.file.booking.status = .pendingApproval
      ∨ s.file.booking.status = .waiting ∨ s.file.booking.status = .accepted
      ∨ s.file.booking.status = .ongoing) := by
  cases h with
  | kept same => exact .inl same.2.2
  | advanced before => exact .inr before
  | held _ _ _ started | restored _ _ _ started | canceled _ _ _ started => exact .inl started
  | settled _ run same =>
      left
      rw [same]
      obtain ⟨-, -, ⟨-, rfl⟩ | ⟨-, -, -, -, _, -, rfl⟩⟩ := settleCompletedBooking_ok run <;> rfl

/-- Work is completed only after it was started. -/
theorem Refines.confirmed (e : Encodes f l) (h : Refines l f') (live : f.booking.status ≠ .completed)
    (completed : f'.booking.status = .completed) : f.booking.started = true := by
  obtain ⟨l', e', rfl | step⟩ := h
  · obtain rfl := e'.of_completed completed
    exact absurd e.status live
  · obtain rfl := e'.of_completed completed
    cases step with
    | confirm awaiting => exact e.started _ awaiting

/-- The reservation keeps its booking until it is cancelled. -/
theorem HeldForCancel.kept {id : Nat} (h : HeldForCancel s.file id) (e : Encodes s.file l)
    (refines : Refines l f') (written : StatusWritten s a f') {who : Option Caller}
    (cases_ : CasesWrite who s.file f') : HeldForCancel f' id := by
  have unstarted : f'.booking.started = false := by
    obtain same | before := written.started
    · exact same.trans h.unstarted
    · obtain canceled | ⟨review, -⟩ := h.holds <;> simp_all
  obtain canceled | ⟨review, q, listed, keyed, pending, outcome, unlinked⟩ := h.holds
  · exact ⟨unstarted, .inl (refines.canceled e canceled)⟩
  obtain ⟨q', listed', keyed', move⟩ := cases_.cancellations.forth q listed
  -- the reservation can neither be declined, escalated nor denied
  have same : q'.status = .underReview ∧ q'.resolutionOutcome = some .immediateCancelPending
      ∧ q'.reportId = none := by
    cases move with
    | same => exact ⟨pending, outcome, unlinked⟩
    | reviewed => exact ⟨rfl, outcome, unlinked⟩
    | declined declined => simp [pending] at declined
    | escalated escalated => simp [pending] at escalated
    | settled canceled => simp [review] at canceled
    | denied _ linked => simp [unlinked] at linked
  refine ⟨unstarted, ?_⟩
  cases written with
  | kept unchanged => exact .inr ⟨unchanged.1.trans review, q', listed', keyed'.trans keyed, same⟩
  | advanced before => simp [review] at before
  | held open_ => simp [review, BookingStatus.frozen] at open_
  | restored _ _ _ _ unblocked =>
      have inactive := unblocked.cancellations q' listed'
      simp [same.1, CancellationStatus.active] at inactive
  | canceled _ _ after => exact .inl after
  | settled _ run settled =>
      -- only started work is settled
      obtain ⟨-, -, ⟨completed, -⟩ | ⟨-, -, -, -, _, -, rfl⟩⟩ := settleCompletedBooking_ok run
      · simp [review] at completed
      · have started := refines.confirmed e (by simp [review]) (by rw [settled]; rfl)
        simp [h.unstarted] at started

/-- Every reservation on the file and every call of an immediate cancellation holds the
    booking. -/
theorem reachable_heldForCancel (h : refundMachine.ReachableUnder C s) :
    Coupled (fun f _ => ∀ q ∈ f.cancellationRequests, q.immediate = true → HeldForCancel f q.id)
      (fun f _ c => ∀ id, c.caller.preStartRequest = some id → HeldForCancel f id) s := by
  refine Coupled.reachableUnder (fun f created => ?_) ?_ h
  · obtain ⟨-, -, requests, -⟩ := created.caseless
    simp [requests]
  intro s a f' g' next reached hs _ event
  obtain ⟨l, e, refines⟩ := event.reachable_refines reached
  have cases_ := event.cases (reachable_numbered reached)
  have kept : ∀ id, HeldForCancel s.file id → HeldForCancel f' id :=
    fun id held => held.kept e refines event.status_written cases_
  have file : ∀ q ∈ f'.cancellationRequests, q.immediate = true → HeldForCancel f' q.id := by
    intro q' listed' immediate
    obtain ⟨q, listed, keyed, move⟩ | ⟨-, new⟩ := cases_.cancellations.back q' listed'
    · cases move with
      | same => exact kept _ (hs.file _ listed immediate)
      | declined | reviewed | escalated => exact kept _ (hs.file q listed immediate)
      | @settled _ outcome canceled _ final own =>
          obtain pending | settled : outcome = .immediateCancelPending ∨ outcome = .immediateCancel := by
            simpa [CancellationRequest.immediate] using immediate
          · exact absurd pending final
          · obtain ⟨userId, caller⟩ := own settled
            obtain ⟨call, listed, same⟩ := a.caller_listed caller
            exact kept _ (hs.calls call listed q.id (by rw [same]; rfl))
      | denied => simp [CancellationRequest.immediate] at immediate
    · obtain ⟨unstarted, review, status, pending⟩ | ⟨-, -, none⟩ := new.state
      · exact ⟨new.started.trans unstarted, .inr ⟨review, q', listed', rfl, status, pending, new.unlinked⟩⟩
      · simp [CancellationRequest.immediate, none] at immediate
  refine ⟨file, fun c _ held id own => kept id (held id own), fun c hc id own => ?_⟩
  obtain ⟨_, r, -, opens⟩ | ⟨_, _, -, same⟩ | ⟨call, found, same⟩ := event.next_opened hc
  · generalize c.caller = caller at opens own
    cases opens with
    | @immediate userId q listed pending =>
        obtain rfl : q.id = id := by simpa [Caller.preStartRequest] using own
        exact file q listed (by simp [CancellationRequest.immediate, pending])
    | _ => simp [Caller.preStartRequest] at own
  · simp [same, Caller.preStartRequest] at own
  · rw [same] at own
    exact kept id (hs.calls call (BookingSystem.resumed_listed found) id own)

/-- The participants of a cancellation request are those of the booking. -/
theorem reachable_between (h : refundMachine.ReachableUnder C s) :
    ∀ q ∈ s.file.cancellationRequests, q.Between s.file.booking := by
  refine (Coupled.reachableUnder (I := fun f _ => ∀ q ∈ f.cancellationRequests, q.Between f.booking)
    (P := fun _ _ _ => True) (fun f created => ?_) ?_ h).file
  · obtain ⟨-, -, requests, -⟩ := created.caseless
    simp [requests]
  intro s a f' g' next reached hs _ event
  have cases_ := event.cases (reachable_numbered reached)
  have seeker := event.sameTerms.column Booking.seekerId fun _ => rfl
  have provider := event.sameTerms.column Booking.providerId fun _ => rfl
  refine ⟨fun q' listed' => ?_, fun _ _ _ => trivial, fun _ _ => trivial⟩
  unfold CancellationRequest.Between
  rw [seeker, provider]
  obtain ⟨q, listed, -, move⟩ | ⟨-, new⟩ := cases_.cancellations.back q' listed'
  · cases move with
    | same => exact hs.file _ listed
    | _ => exact hs.file q listed
  · exact new.between

/-- The request that opens a call makes the decision that the call carries out. -/
theorem Request.Opens.decision {ctx : Context} {r : Request} {caller : Caller} {d : CancelDecision}
    (h : r.Opens s.file f' caller) (between : ∀ q ∈ s.file.cancellationRequests, q.Between s.file.booking)
    (decides : caller.cancelDecision = some d) : d.MadeBy s (.step ctx (.request r)) := by
  cases h with
  | immediate => simp [Caller.cancelDecision] at decides
  | approval found responder other =>
      cases decides
      exact .approval found (between _ (BookingFile.findCancellation_id found).1) responder other
  | @cancellation _ approve =>
      cases approve with
      | false => simp [Caller.cancelDecision] at decides
      | true =>
          cases decides
          exact .cancellation
  | @report _ _ outcome =>
      cases outcome with
      | cancelBooking =>
          cases decides
          exact .report
      | _ => simp [Caller.cancelDecision] at decides
  | @escalation _ _ action =>
      cases action with
      | refundSeeker =>
          cases decides
          exact .escalation
      | _ => simp [Caller.cancelDecision] at decides
  | @booking _ outcome =>
      cases outcome with
      | cancelBooking =>
          cases decides
          exact .booking
      | _ => simp [Caller.cancelDecision] at decides

/-- No call carries out a decision that has not been made. -/
theorem undecided_calls {d : CancelDecision}
    (h : refundMachine.ReachableUnder (fun s a => ¬ d.MadeBy s a) s) :
    ∀ call ∈ s.calls, call.caller.cancelDecision ≠ some d := by
  refine (Coupled.reachableUnder (I := fun _ _ => True)
    (P := fun _ _ c => c.caller.cancelDecision ≠ some d) (fun _ _ => trivial) ?_ h).calls
  intro s a f' g' next reached hs undecided event
  refine ⟨trivial, fun _ _ known => known, fun c hc decides => ?_⟩
  obtain ⟨_, r, rfl, opens⟩ | ⟨_, _, -, same⟩ | ⟨call, found, same⟩ := event.next_opened hc
  · exact undecided (opens.decision (reachable_between reached) decides)
  · simp [same, Caller.cancelDecision] at decides
  · exact hs.calls call (BookingSystem.resumed_listed found) (same ▸ decides)

theorem Caller.cancels_decision {caller : Caller} (h : caller.cancels = true)
    (refund : ∀ id, caller ≠ .refundBookingPayment id) :
    caller.preStartRequest.isSome = true ∨ ∃ d, caller.cancelDecision = some d := by
  cases caller with
  | refundBookingPayment id => exact absurd rfl (refund id)
  | requestCancellation => exact .inl rfl
  | respondToCancellationRequest => exact .inr ⟨_, rfl⟩
  | adminResolveCancellationRequest _ approve =>
      obtain rfl : approve = true := h
      exact .inr ⟨_, rfl⟩
  | resolveAdminReport _ _ outcome =>
      obtain rfl : outcome = .cancelBooking := by simpa [Caller.cancels] using h
      exact .inr ⟨_, rfl⟩
  | resolveCompletionEscalation _ _ action =>
      obtain rfl : action = .refundSeeker := by simpa [Caller.cancels] using h
      exact .inr ⟨_, rfl⟩
  | resolveAdminBooking _ outcome =>
      obtain rfl : outcome = .cancelBooking := by simpa [Caller.cancels] using h
      exact .inr ⟨_, rfl⟩

/-- Without bare refunds, no call in flight is one. -/
theorem no_bare_refund
    (h : refundMachine.ReachableUnder (fun s a => C s a ∧ ∀ ctx id, a ≠ .step ctx (.refund id)) s) :
    ∀ call ∈ s.calls, ∀ id, call.caller ≠ .refundBookingPayment id := by
  refine (Coupled.reachableUnder (I := fun _ _ => True)
    (P := fun _ _ c => ∀ id, c.caller ≠ .refundBookingPayment id) (fun _ _ => trivial) ?_ h).calls
  intro s a f' g' next _ hs bare event
  refine ⟨trivial, fun _ _ known => known, fun c hc id refund => ?_⟩
  obtain ⟨_, r, rfl, opens⟩ | ⟨ctx, id, rfl, -⟩ | ⟨call, found, same⟩ := event.next_opened hc
  · rw [refund] at opens
    cases opens
  · exact bare.2 ctx id rfl
  · exact hs.calls call (BookingSystem.resumed_listed found) id (same ▸ refund)

theorem Encodes.canceled_of_calledOff (e : Encodes f l) (h : f.calledOff) :
    f.booking.status = .canceled := by
  obtain canceled | refunded := h
  · exact canceled
  · have payment := e.payment.symm.trans refunded
    have allowed := e.allowed
    rw [e.status]
    cases method : f.booking.paymentMethod <;> cases l with
    | underReview w b => cases b <;> simp_all [Lifecycle.payment, PaymentMethod.paid]
    | _ => simp_all [Lifecycle.payment, PaymentMethod.paid, Lifecycle.status, Lifecycle.allowed]

/-- A booking is cancelled by a call at a stage of a cancellation. -/
theorem StatusWritten.cancels (h : StatusWritten s a f') (e : Encodes s.file l)
    (live : s.file.booking.status ≠ .canceled) (canceled : f'.booking.status = .canceled) :
    ∃ call, s.resumed a = some call ∧ call.stage.cancelling = true := by
  cases h with
  | kept same => exact absurd (same.1.symm.trans canceled) live
  | advanced _ after => simp [canceled, BookingStatus.advanced] at after
  | held _ after => simp [canceled, BookingStatus.frozen] at after
  | restored _ saved after =>
      obtain ⟨w, rfl⟩ := e.saved saved
      exact absurd (after.symm.trans canceled) w.status_live.2
  | canceled resumes stage => exact ⟨_, resumes, stage⟩
  | settled _ run same =>
      rw [same] at canceled
      obtain ⟨-, -, ⟨-, rfl⟩ | ⟨-, -, -, -, _, -, rfl⟩⟩ := settleCompletedBooking_ok run
      · exact absurd canceled live
      · simp [BookingFile.settled] at canceled

end Steps

/-- Started work is called off only by a call whose decision to cancel the responder or an
    administrator has made in every run to its state. While an immediate cancellation exists the
    booking is not started and no step starts it, and a booking that was called off stays so. -/
theorem started_cancelled_by_consent {s s' : BookingSystem} {a : Action}
    (h : bookingMachine.Reachable s) (hn : bookingMachine.next s a = some s') :
    (s.file.booking.started = true → ¬ s.file.calledOff → s'.file.calledOff →
        ∃ call d, s.resumed a = some call ∧ call.caller.cancelDecision = some d
          ∧ ¬ bookingMachine.ReachableUnder (fun s a => ¬ d.MadeBy s a) s)
      ∧ (s.cancelsImmediately → s.file.booking.started = false ∧ s'.file.booking.started = false)
      ∧ (s.file.calledOff → s'.file.calledOff ∧ s'.file.booking.started = s.file.booking.started) := by
  have reached := bookingMachine_reachableUnder h
  obtain ⟨_, event, -⟩ := BookingSystem.next_event (bookingNext_of_next hn)
  obtain ⟨l, e, refines⟩ := event.reachable_refines reached
  obtain ⟨l', e', -⟩ := id refines
  have held := reachable_heldForCancel reached
  have written := event.status_written
  refine ⟨fun started live off => ?_, fun immediate => ?_, fun off => ?_⟩
  · obtain ⟨call, resumes, stage⟩ := written.cancels e (fun canceled => live (.inl canceled))
      (e'.canceled_of_calledOff off)
    have listed := BookingSystem.resumed_listed resumes
    have cancels := (reachable_onRoute reached call listed).cancels stage
    obtain prestart | ⟨d, decides⟩ := call.caller.cancels_decision cancels (no_bare_refund reached call listed)
    · obtain ⟨id, own⟩ := Option.isSome_iff_exists.mp prestart
      have unstarted := (held.calls call listed id own).unstarted
      simp [started] at unstarted
    · refine ⟨call, d, resumes, decides, fun undecided => ?_⟩
      have unmade := (bookingMachine_reachableUnder undecided).weaken (fun _ _ both => both.1)
      exact undecided_calls unmade call listed decides
  · have holds : ∃ id, HeldForCancel s.file id := by
      obtain ⟨q, listed, immediate⟩ | ⟨call, listed, prestart⟩ := immediate
      · exact ⟨_, held.file q listed immediate⟩
      · obtain ⟨id, own⟩ := Option.isSome_iff_exists.mp prestart
        exact ⟨id, held.calls call listed id own⟩
    obtain ⟨id, hold⟩ := holds
    exact ⟨hold.unstarted,
      (hold.kept e refines written (event.cases (reachable_numbered reached))).unstarted⟩
  · have canceled := e.canceled_of_calledOff off
    refine ⟨.inl (refines.canceled e canceled), ?_⟩
    obtain same | before := written.started
    · exact same
    · simp [canceled] at before

/-- A started cash job whose cancellation the provider has approved, before its settlement. -/
def sampleApproved : Option BookingSystem :=
  bookingMachine.exec { file := sampleTerms.cashOffer } ([.request (.providerStartJob 2),
    .request (.requestCancellation 1), .request (.approveCancellation 0 2), .resume 0 .none,
    .resume 0 .none].map (.step sampleContext))

theorem started_cancelled_by_consent_approved : ∃ s call d, sampleApproved = some s
    ∧ s.file.booking.started = true ∧ s.resumed (.step sampleContext (.resume 0 .none)) = some call
    ∧ call.caller.cancelDecision = some d
    ∧ ¬ bookingMachine.ReachableUnder (fun s a => ¬ d.MadeBy s a) s := by
  obtain ⟨s, run, started, live, off⟩ := sample_any (o := sampleApproved)
    (p := fun s => s.file.booking.started = true ∧ ¬ s.file.calledOff
      ∧ ((bookingMachine.next s (.step sampleContext (.resume 0 .none))).any
        fun s' => decide s'.file.calledOff) = true) (by decide)
  obtain ⟨s', step, off⟩ := sample_any off
  have reached : bookingMachine.Reachable s := .of_exec ⟨.cashOffer _, rfl, rfl⟩ run
  obtain ⟨call, d, resumes, decides, before⟩ := (started_cancelled_by_consent reached step).1 started live off
  exact ⟨s, call, d, run, started, resumes, decides, before⟩

end ServiceHub
