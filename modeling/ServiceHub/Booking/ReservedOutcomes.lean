import ServiceHub.Booking.ReservationWrites

/-! # Reserved outcomes

A call ends the booking on a reservation of its own decision, and there is at most one. So a reserved
outcome is the only end that the booking can reach, but for the seeker's confirmation, which does not look
at the operations.
-/

namespace ServiceHub

open Guard

section Runs

variable {ctx : Context} {f f' : BookingFile} {c : Commit} {l : Lifecycle} {call next : Call}
  {s : BookingSystem} {a : Action} {g' : Option GatewayRefund} {cont : Option Call}
  {C : BookingSystem → Action → Prop}

theorem Call.Reserves.kept (h : call.Reserves f) (holds : Reservations f) (holds' : Reservations f')
    (forward : f.Forward f') (unique : (f.operations.map (·.caseRef)).Nodup) : call.Reserves f' where
  decided ref outcome fixes := forward.decision unique (h.decided ref outcome fixes)
  effect ref outcome fixes stage :=
    have reserved := h.effect ref outcome fixes stage
    holds'.keeps_reserved forward unique reserved (holds.financial ref reserved)
  early := h.early
  unsettled := h.unsettled

/-- A call at a stage that does not end the booking. -/
theorem Call.Reserves.waiting {caller : Caller} {stage : Stage}
    (decided : ∀ ref outcome, caller.fixes = some (ref, outcome) → f.decision ref = some outcome)
    (h : stage = .reserve ∨ stage = .markFailed) : Call.Reserves f ⟨caller, stage⟩ := by
  refine ⟨decided, fun _ _ _ effect => ?_, fun early => ?_, ?_⟩ <;> obtain rfl | rfl := h
  · simp [Stage.cancelling] at effect
  · simp [Stage.cancelling] at effect
  · simp at early
  · simp at early
  · simp
  · simp

/-- A decision that leaves the booking as it is. -/
theorem Call.Reserves.deciding {caller : Caller}
    (decided : ∀ ref outcome, caller.fixes = some (ref, outcome) → f.decision ref = some outcome)
    (unfinancial : ∀ ref outcome, caller.fixes = some (ref, outcome) → outcome.reaches = none) :
    Call.Reserves f ⟨caller, .markDecisionReady⟩ :=
  ⟨decided, fun _ _ _ effect => by simp [Stage.cancelling] at effect, fun _ => unfinancial, by simp⟩

theorem Reservations.unestablished {ref : CaseRef} {o : AdminResolutionOperation} (h : Reservations f)
    (found : f.findOperation ref = some o) (financial : o.requestedOutcome.reaches ≠ none) :
    o.hasEstablishedFinancialEffect = false := by
  obtain ⟨running, unestablished⟩ := h.running ref o found financial
  simp only [AdminResolutionOperation.finished, not_or] at running
  simp_all [AdminResolutionOperation.hasEstablishedFinancialEffect]

/-- The decision of a claim is the one that its call carries out. -/
theorem Claimed.decides {claimed : BookingFile} {ref : CaseRef} {outcome : RequestedOutcome} {penalty : RequestedPenalty}
    {op : AdminResolutionOperation} {caller : Caller} (claim : Claimed f ref outcome penalty claimed op)
    (operations : f'.operations = claimed.operations) (fixes : caller.fixes = some (ref, outcome)) :
    ∀ ref' outcome', caller.fixes = some (ref', outcome') → f'.decision ref' = some outcome' := by
  intro ref' outcome' same
  obtain ⟨rfl, rfl⟩ : ref = ref' ∧ outcome = outcome' := by simpa [fixes] using same
  rw [BookingFile.decision, BookingFile.findOperation, operations]
  exact claim.decision

theorem requestTransaction_reserves {r : Request} (h : requestTransaction ctx r f = .ok c) (hn : c.continues = some next)
    (holds : Reservations c.file) : next.Reserves c.file := by
  have unfixed : ∀ {caller : Caller} {stage : Stage}, caller.fixes = none → stage ≠ .markEstablished →
      Call.Reserves c.file ⟨caller, stage⟩ := by
    intro caller stage none stage_
    exact ⟨fun _ _ fixes => by simp [none] at fixes, fun _ _ fixes => by simp [none] at fixes,
      fun _ _ _ fixes => by simp [none] at fixes, stage_⟩
  cases r with
  | respondToDirectBooking =>
      obtain ⟨-, _, rfl | rfl⟩ := respondToDirectBookingService_ok h <;> cases hn
  | providerStartJob =>
      obtain ⟨-, ⟨-, -, -, rfl⟩ | ⟨_, -, -, -, -, -, -, rfl⟩⟩ := providerStartJob_ok h <;> cases hn
  | markJobComplete => obtain rfl | ⟨-, rfl⟩ := markJobComplete_ok h <;> cases hn
  | confirmCompletion =>
      obtain ⟨-, -, ⟨-, rfl⟩ | ⟨-, -, -, -, _, -, rfl⟩⟩ := settleCompletedBooking_ok h <;> cases hn
  | disputeJob =>
      obtain ⟨-, -, _, _, -, -, -, -, rfl⟩ := disputeJobService_ok h
      cases hn
  | createSafetyReport =>
      obtain ⟨-, -, rfl | ⟨_, -, -, -, ⟨-, rfl⟩ | ⟨-, rfl⟩⟩⟩ := createSafetyReport_ok h <;> cases hn
  | createCompletionEscalation =>
      obtain ⟨-, -, -, rfl | ⟨-, rfl⟩⟩ := createCompletionEscalation_ok h <;> cases hn
  | startModerationReview =>
      obtain ⟨_, _, _, rfl, -⟩ := startModerationReview_ok h
      cases hn
  | requestCancellation =>
      obtain ⟨-, ⟨_, -, -, -, rfl⟩ | rfl | ⟨-, -, -, -, _, -, -, -, ⟨-, -, -, rfl⟩ | ⟨-, -, -, rfl⟩⟩⟩ :=
        requestCancellation_ok h
      · cases hn
        exact unfixed rfl (by simp)
      · cases hn
      · cases hn
        exact unfixed rfl (by simp)
      · cases hn
  | declineCancellation =>
      obtain ⟨-, rfl⟩ := declineCancellationRequest_ok h
      cases hn
  | approveCancellation =>
      obtain rfl | ⟨_, _, op, -, -, -, claim, ⟨-, rfl⟩ | ⟨-, rfl⟩⟩ := approveCancellationRequest_ok h
      · cases hn
      · cases hn
      cases hn
      have early := holds.unestablished claim.found (by simp [claim.outcome_eq, RequestedOutcome.reaches])
      simp only [early, Bool.false_eq_true, if_false]
      exact .waiting (claim.decides rfl rfl) (.inl rfl)
  | escalateCancellation =>
      obtain rfl | ⟨-, -, _, -, -, -, rfl⟩ := escalateCancellationRequest_ok h <;> cases hn
  | adminResolveCancellation id approve =>
      obtain rfl | ⟨_, _, op, -, -, claim, ⟨-, rfl⟩ | ⟨-, _, -, -, rfl⟩⟩ := claimAdminCancellation_ok h
      · cases hn
      · cases hn
      cases hn
      cases approve with
      | true =>
          have early := holds.unestablished claim.found (by simp [claim.outcome_eq, RequestedOutcome.reaches])
          simp only [early, and_self, if_true]
          exact .waiting (claim.decides rfl rfl) (.inl rfl)
      | false =>
          refine .deciding (claim.decides rfl rfl) fun ref outcome fixes => ?_
          obtain ⟨-, rfl⟩ : _ ∧ _ := by simpa [Caller.fixes] using fixes
          rfl
  | resolveAdminReport id _ outcome =>
      obtain rfl | ⟨_, _, op, -, -, -, claim, ⟨-, rfl⟩ | ⟨-, rfl⟩⟩ := claimReport_ok h
      · cases hn
      · cases hn
      cases hn
      cases financial : outcome.financial with
      | true =>
          have early := holds.unestablished claim.found (by
            rw [claim.outcome_eq]
            cases outcome <;> simp_all [ReportOutcome.requested, RequestedOutcome.reaches, ReportOutcome.financial])
          simp only [early, and_self, if_true]
          exact .waiting (claim.decides rfl rfl) (.inl rfl)
      | false =>
          simp only [Bool.false_eq_true, false_and, if_false]
          refine .deciding (claim.decides rfl rfl) fun ref o fixes => ?_
          obtain ⟨-, rfl⟩ : _ ∧ _ := by simpa [Caller.fixes] using fixes
          cases outcome <;> simp_all [ReportOutcome.requested, RequestedOutcome.reaches, ReportOutcome.financial]
  | resolveCompletionEscalation id _ action =>
      obtain rfl | ⟨_, _, op, -, -, claim, ⟨-, rfl⟩ | ⟨-, rfl⟩⟩ := claimEscalation_ok h
      · cases hn
      · cases hn
      cases hn
      by_cases keeps : action = .keepAwaiting
      · subst keeps
        simp only [ne_eq, not_true_eq_false, false_and, if_false]
        refine .deciding (claim.decides rfl rfl) fun ref o fixes => ?_
        obtain ⟨-, rfl⟩ : _ ∧ _ := by simpa [Caller.fixes] using fixes
        rfl
      · have early := holds.unestablished claim.found (by
          rw [claim.outcome_eq]
          cases action <;> simp_all [EscalationAction.requested, RequestedOutcome.reaches])
        simp only [early, ne_eq, keeps, not_false_eq_true, and_self, if_true]
        exact .waiting (claim.decides rfl rfl) (.inl rfl)
  | resolveAdminBooking _ outcome =>
      have financial : outcome.requested.reaches ≠ none := by
        cases outcome <;> simp [AdminBookingOutcome.requested, RequestedOutcome.reaches]
      have reserving : c.file.decision .adminBooking = some outcome.requested → c.file.reserves .adminBooking = true →
          ∀ adminId, Call.Reserves c.file ⟨.resolveAdminBooking adminId outcome, outcome.effect⟩ := by
        intro decided reserves adminId
        refine ⟨fun ref o fixes => ?_, fun ref o fixes _ => ?_, fun early => ?_, ?_⟩
        · obtain ⟨rfl, rfl⟩ : _ ∧ _ := by simpa [Caller.fixes] using fixes
          exact decided
        · obtain ⟨rfl, -⟩ : _ ∧ _ := by simpa [Caller.fixes] using fixes
          exact reserves
        · cases outcome <;> simp [AdminBookingOutcome.effect] at early
        · cases outcome <;> simp [AdminBookingOutcome.effect]
      obtain rfl | ⟨claimed, op, claim, h⟩ := claimAdminBooking_ok h
      · cases hn
      obtain ⟨-, rfl⟩ | ⟨established, rfl⟩ | ⟨-, reserved, -, -, rfl⟩ | ⟨-, -, -, -, marked, op', mark, rfl, rfl⟩ := h
      · cases hn
      · rw [holds.unestablished claim.found (by rw [claim.outcome_eq]; exact financial)] at established
        cases established
      · cases hn
        refine reserving claim.decision (BookingFile.reserves_iff.mpr ⟨op, claim.found, ?_⟩) _
        have running := (holds.running _ op claim.found (by rw [claim.outcome_eq]; exact financial)).1
        simp only [AdminResolutionOperation.finished, not_or] at running
        refine AdminResolutionOperation.reserved_iff.mpr ⟨?_, .inl reserved⟩
        cases status : op.status <;> simp_all
      · cases hn
        have found := (markAdminResolutionStageInTransaction_ok (by decide) mark).choose_spec.2.2.1.found
        refine reserving ?_ (BookingFile.reserves_iff.mpr ⟨_, found, ?_⟩) _
        · rw [BookingFile.decision, found, Option.map_some]
          exact congrArg _ claim.outcome_eq
        · simp [AdminResolutionOperation.reserved, AdminResolutionOperation.retryable]

theorem transaction_reserves {answer : Answer} (h : call.transaction ctx answer f = .ok c) (hn : c.continues = some next)
    (on : call.OnRoute) (ids : CasesNumbered f) (unique : (f.operations.map (·.caseRef)).Nodup)
    (live' : c.file.booking.status.terminal = false) (read : call.stage.readCanceled → f.booking.status = .canceled)
    (own : call.Reserves f) (holds : Reservations f) (holds' : Reservations c.file) : next.Reserves c.file := by
  obtain ⟨same, flow⟩ := transaction_next h hn
  have kept := own.kept holds holds' (transaction_forward h) unique
  obtain ⟨caller, stage⟩ := call
  obtain ⟨caller', stage'⟩ := next
  obtain rfl : caller' = caller := same
  -- a call that goes on to end the booking
  have ending : stage'.cancelling = true ∨ stage' = .settle → (∀ ref outcome, caller'.fixes = some (ref, outcome) →
      c.file.reserves ref = true) → Call.Reserves c.file ⟨caller', stage'⟩ := by
    intro effect reserved
    refine ⟨kept.decided, fun ref outcome fixes _ => reserved ref outcome fixes, fun early => ?_, ?_⟩
    · obtain cancelling | rfl := effect
      · obtain rfl | rfl := early <;> cases cancelling
      · simp at early
    · rintro rfl
      simp [Stage.cancelling] at effect
  cases flow with
  | reserved =>
      obtain rfl : stage' = caller'.effect := by simpa using hn.symm.trans (reserveOutcome_effect h)
      have route := Caller.effect_route (on.reserves rfl)
      refine ending ?_ (reserveOutcome_reservations h ids (on.reserves rfl) own.decided holds).2
      cases caller' with
      | resolveAdminReport _ _ outcome => cases outcome <;> simp [Caller.effect, ReportOutcome.effect, Stage.cancelling]
      | resolveCompletionEscalation _ _ action =>
          cases action <;> simp [Caller.effect, EscalationAction.effect, Stage.cancelling]
      | resolveAdminBooking _ outcome => cases outcome <;> simp [Caller.effect, AdminBookingOutcome.effect, Stage.cancelling]
      | _ => exact .inl rfl
  | cancelSettled | immediateSettled =>
      rw [settleCancellation_terminal h read] at live'
      cases live'
  | settled =>
      rw [settleByAdmin_terminal h] at live'
      cases live'
  | established => exact absurd rfl own.unsettled
  | decided =>
      exact ⟨kept.decided, fun _ _ _ effect => by simp [Stage.cancelling] at effect,
        fun _ => own.early (.inl rfl), by simp⟩
  | _ => exact ending (.inl rfl) fun ref outcome fixes => kept.effect ref outcome fixes (.inl rfl)

theorem Event.reservations (reached : refundMachine.ReachableUnder C s) (h : Event s a f' g' cont)
    (holds : s.file.booking.status.terminal = false → Reservations s.file)
    (own : ∀ c ∈ s.calls, s.file.booking.status.terminal = false → c.Reserves s.file)
    (live' : f'.booking.status.terminal = false) : Reservations f' := by
  obtain ⟨l, e, refines⟩ := h.reachable_refines reached
  have live := refines.live e live'
  have ids := reachable_numbered reached
  have unique := operations_unique reached.reachable
  cases h with
  | requested run => exact requestTransaction_reservations run e ids unique live' (holds live)
  | @committed _ _ _ call _ found run =>
      have listed := List.mem_of_getElem? found
      exact transaction_reservations run (reachable_onRoute reached call listed) ids unique live live'
        (reachable_readCanceled reached call listed) (own call listed live) (holds live)
  | refundCaught | renumbered => exact (holds live).frame rfl rfl rfl rfl rfl
  | @markedFailed _ _ _ _ ref =>
      have cases_ : CasesWrite none s.file (markAdminResolutionFailed s.file ref) := .of_eq rfl rfl rfl rfl
      exact (holds live).kept (markAdminResolutionFailed_forward _ _) unique ids cases_ rfl (.failed _ _)
        (fun _ _ exclusive => exclusive.own) .inl fun _ _ _ frozen => .inr frozen
  | refundCalled | aborted | refundExecuted | refundTimedOut | refundFailed | stopped => exact holds live

theorem Event.next_reserves (reached : refundMachine.ReachableUnder C s) (h : Event s a f' g' (some next))
    (holds : s.file.booking.status.terminal = false → Reservations s.file)
    (own : ∀ c ∈ s.calls, s.file.booking.status.terminal = false → c.Reserves s.file)
    (live' : f'.booking.status.terminal = false) : next.Reserves f' := by
  obtain ⟨l, e, refines⟩ := h.reachable_refines reached
  have live := refines.live e live'
  have unique := operations_unique reached.reachable
  have holds' := h.reservations reached holds own live'
  have forward := h.forward
  generalize some : some next = cont at h
  cases h with
  | requested run => exact requestTransaction_reserves run some.symm holds'
  | refundCalled =>
      cases some
      exact ⟨fun _ _ fixes => (by cases fixes), fun _ _ fixes => (by cases fixes), fun _ _ _ fixes => (by cases fixes),
        by simp⟩
  | @committed _ _ _ call _ found run =>
      have listed := List.mem_of_getElem? found
      exact transaction_reserves run some.symm (reachable_onRoute reached call listed) (reachable_numbered reached) unique
        live' (reachable_readCanceled reached call listed) (own call listed live) (holds live) holds'
  | @aborted _ _ _ call found | @refundCaught _ _ _ call found =>
      have kept := (own call (List.mem_of_getElem? found) live).kept (holds live) holds' forward unique
      rw [unwound_eq some.symm]
      exact .waiting kept.decided (.inr rfl)
  | refundExecuted found | refundTimedOut found | refundFailed found =>
      have kept := (own _ (List.mem_of_getElem? found) live).kept (holds live) holds' forward unique
      cases some
      exact ⟨kept.decided, fun ref outcome fixes _ => kept.effect ref outcome fixes (.inl rfl),
        fun early => by simp at early, by simp⟩
  | markedFailed | stopped | renumbered => cases some

/-- While the booking has not ended, every reserved decision has the only open case, and every call that
    ends the booking has a reserved one. -/
theorem reachable_reservations (h : refundMachine.ReachableUnder C s) :
    Coupled (fun f _ => f.booking.status.terminal = false → Reservations f)
      (fun f _ c => f.booking.status.terminal = false → c.Reserves f) s := by
  refine Coupled.reachableUnder (fun f created live => ?_) (fun s a f' g' next reached hs _ event => ?_) h
  · obtain ⟨operations, reports, cancellations, escalations⟩ := created.caseless
    have none : ∀ ref, f.findOperation ref = none := fun ref => by simp [BookingFile.findOperation, operations]
    exact ⟨by simp [reports], by simp [BookingFile.decision, none], by simp [BookingFile.decision, none], by simp [none],
      by simp [BookingFile.reserves, none], by simp [BookingFile.reserves, none]⟩
  · obtain ⟨l, e, refines⟩ := event.reachable_refines reached
    refine ⟨event.reservations reached hs.file hs.calls, fun c listed own live' => ?_, fun c hc live' => ?_⟩
    · have live := refines.live e live'
      exact (own live).kept (hs.file live) (event.reservations reached hs.file hs.calls live') event.forward
        (operations_unique reached.reachable)
    · subst hc
      exact event.next_reserves reached hs.file hs.calls live'

theorem BookingSystem.settler_seeker {userId : UserId} (h : s.settler a = some (.seeker userId)) :
    ∃ ctx, a = .step ctx (.request (.confirmCompletion userId)) := by
  unfold BookingSystem.settler at h
  split at h
  · cases h
    exact ⟨_, rfl⟩
  · obtain ⟨call, -, settles⟩ := Option.bind_eq_some_iff.mp h
    split at settles <;> cases settles
  · cases h

theorem BookingSystem.settler_admin (h : s.settler a = some .admin) : ∃ call ∈ s.calls, call.stage = .settle := by
  unfold BookingSystem.settler at h
  split at h
  · cases h
  · obtain ⟨call, found, settles⟩ := Option.bind_eq_some_iff.mp h
    exact ⟨call, List.mem_of_getElem? found, by simpa using settles⟩
  · cases h

/-- Only a booking that waits for its approval is declined. -/
theorem Refines.declined (e : Encodes f l) (h : Refines l f') (live : f.booking.status.terminal = false)
    (declined : f'.booking.status = .declined) : l = .active .requested := by
  obtain ⟨l', e', moved⟩ := h
  have status := e'.status.symm.trans declined
  have ended : l' = .declined := by
    cases l' with
    | declined => rfl
    | active w => cases w <;> cases status
    | disputed | underReview | completed | canceled => cases status
  subst ended
  obtain rfl | step := moved
  · rw [e.terminal] at live
    cases live
  · cases step
    rfl

/-- The seeker confirms a booking whose cancellation is reserved. -/
def confirmsReserved (s : BookingSystem) : Action → Bool
  | .step _ (.request (.confirmCompletion _)) => s.file.booking.status == .awaitingConfirmation
      && s.file.operations.any fun o => o.reserved && o.requestedOutcome.reaches == some .canceled
  | _ => false

/-- What a step does to a booking with a reserved decision. -/
theorem Event.reaches (h : Event s a f' g' cont) (reached : refundMachine.ReachableUnder C s)
    (bare : ∀ call ∈ s.calls, ∀ id, call.caller ≠ .refundBookingPayment id)
    (unconfirmed : confirmsReserved s a = false) {o : AdminResolutionOperation} {target : BookingStatus}
    (listed : o ∈ s.file.operations) (reserved : o.reserved = true) (reaches : o.requestedOutcome.reaches = some target)
    (live : s.file.booking.status.terminal = false) (ended : f'.booking.status.terminal = true) :
    f'.booking.status = target := by
  obtain ⟨l, e, refines⟩ := h.reachable_refines reached
  have known := reachable_reservations reached
  have holds := known.file live
  have found : s.file.findOperation o.caseRef = some o := find_caseRef (operations_unique reached.reachable) listed
  have exclusive := holds.exclusive o.caseRef (BookingFile.reserves_iff.mpr ⟨o, found, reserved⟩)
  -- the call that ends the booking has the same decision
  have own : ∀ call ∈ s.calls, ∀ ref outcome, call.caller.fixes = some (ref, outcome) →
      call.stage.cancelling = true ∨ call.stage = .settle → outcome = o.requestedOutcome := by
    intro call member ref outcome fixes effect
    have reserves := known.calls call member live
    obtain rfl := exclusive.unique (holds.exclusive ref (reserves.effect ref outcome fixes effect))
    have decided := reserves.decided _ outcome fixes
    simpa [BookingFile.decision, found] using decided.symm
  have requested : ∀ id, o.caseRef = .cancellation id → target = .canceled := by
    intro id cancellation
    have open_ := holds.cancels id o.requestedOutcome (by simp [BookingFile.decision, ← cancellation, found])
    cases outcome : o.requestedOutcome <;> simp_all [RequestedOutcome.reaches]
  cases h.status_written with
  | kept same =>
      rw [same.1, live] at ended
      cases ended
  | held _ after =>
      cases status : f'.booking.status <;> simp_all [BookingStatus.frozen, BookingStatus.terminal]
  | restored _ saved after =>
      obtain ⟨w, rfl⟩ := e.saved saved
      rw [after] at ended
      cases w <;> cases ended
  | advanced before after =>
      have declined : f'.booking.status = .declined := by
        cases status : f'.booking.status <;> simp_all [BookingStatus.advanced, BookingStatus.terminal]
      obtain rfl := refines.declined e live declined
      obtain ⟨id, cancellation⟩ | frozen := exclusive.held
      · -- a cancellation request on work that has not begun holds the booking
        have case_ := exclusive.own
        rw [cancellation] at case_
        obtain ⟨q, member, -⟩ := case_
        obtain started | held := reachable_requested reached q member
        · rw [e.started _ rfl] at started
          cases started
        · obtain canceled | ⟨review, -⟩ := held.holds
          · cases e.status.symm.trans canceled
          · cases e.status.symm.trans review
      · rw [e.status] at frozen
        cases frozen
  | @canceled call resumes stage after =>
      have member := BookingSystem.resumed_listed resumes
      have cancels := (reachable_onRoute reached call member).cancels stage
      rw [after]
      cases fixes : call.caller.fixes with
      | some fixed =>
          rw [← own call member _ _ fixes (.inl stage)] at reaches
          exact Option.some.inj ((Caller.cancels_reaches cancels fixes).symm.trans reaches)
      | none =>
          obtain ⟨id, prestart⟩ : ∃ id, call.caller.preStartRequest = some id := by
            cases caller : call.caller <;> simp_all [Caller.fixes, Caller.preStartRequest]
          have held := (reachable_heldForCancel reached).calls call member id prestart
          obtain canceled | ⟨-, q, listed, -, review, -⟩ := held.holds
          · rw [canceled] at live
            cases live
          · exact (requested _ (exclusive.cancellations q listed (by rw [review]; rfl))).symm
  | @settled _ actor _ settler run same =>
      obtain ⟨-, -, ⟨completed, -⟩ | ⟨allowed, -, -, -, _, -, rfl⟩⟩ := settleCompletedBooking_ok run
      · rw [completed] at live
        cases live
      rw [same]
      change .completed = target
      cases actor with
      | seeker userId =>
          obtain ⟨ctx, rfl⟩ := BookingSystem.settler_seeker settler
          have awaiting : s.file.booking.status = .awaitingConfirmation := by simpa [SettlementActor.allows] using allowed
          obtain ⟨id, cancellation⟩ | frozen := exclusive.held
          · have target_ := requested id cancellation
            simp only [confirmsReserved, awaiting, beq_self_eq_true, Bool.true_and, List.any_eq_false] at unconfirmed
            exact absurd (by simp [reserved, reaches, target_]) (unconfirmed o listed)
          · rw [awaiting] at frozen
            cases frozen
      | admin =>
          obtain ⟨call, member, stage⟩ := BookingSystem.settler_admin settler
          have releases := (reachable_onRoute reached call member).releases stage
          obtain ⟨fixed, fixes⟩ : ∃ fixed, call.caller.fixes = some fixed := by
            cases caller : call.caller <;> simp_all [Caller.fixes, Caller.releases]
          rw [← own call member _ _ fixes (.inr stage)] at reaches
          exact Option.some.inj ((Caller.releases_reaches releases fixes).symm.trans reaches)

end Runs

section Outcomes

variable {s t : BookingSystem}

/-- A released payment belongs to a completed booking, a refunded one to a cancelled one. -/
theorem Encodes.paid_terminal {f : BookingFile} {l : Lifecycle} (e : Encodes f l) :
    (f.booking.paymentStatus = .released → f.booking.status = .completed)
      ∧ (f.booking.paymentStatus = .refunded → f.booking.status = .canceled) := by
  rw [e.payment, e.status]
  cases method : f.booking.paymentMethod <;> cases l with
  | underReview w frozen => cases frozen <;> simp [Lifecycle.payment, PaymentMethod.paid]
  | declined =>
      have allowed := e.allowed
      simp_all [Lifecycle.payment, PaymentMethod.paid, Lifecycle.allowed, Lifecycle.status]
  | _ => simp [Lifecycle.payment, PaymentMethod.paid, Lifecycle.status]

/-- Once the outcome of a decision is reserved, the booking ends in no other way, in any run in which
    the seeker does not confirm the completion of a booking whose cancellation is reserved. A booking that
    had ended before the reservation stays as it was. -/
theorem reserved_outcome_reached (h : bookingMachine.Reachable s)
    (run : bookingMachine.RunUnder (fun s a => confirmsReserved s a = false) s t) {o : AdminResolutionOperation}
    (listed : o ∈ s.file.operations) (reserved : o.reserved = true) {target : BookingStatus}
    (reaches : o.requestedOutcome.reaches = some target) :
    (t.file.booking.status.terminal = true → t.file.booking.status = target
        ∨ s.file.booking.status.terminal = true ∧ t.file.booking.status = s.file.booking.status)
      ∧ (t.file.booking.paymentStatus = .released → target = .completed ∨ s.file.booking.paymentStatus = .released)
      ∧ (t.file.booking.paymentStatus = .refunded → target = .canceled ∨ s.file.booking.paymentStatus = .refunded) := by
  -- the reservation stays until the booking has ended
  have stays : bookingMachine.Reachable t
      ∧ (t.file.booking.status.terminal = false → t.file.reserves o.caseRef = true
        ∧ t.file.decision o.caseRef = some o.requestedOutcome)
      ∧ (t.file.booking.status.terminal = true → t.file.booking.status = target
        ∨ s.file.booking.status.terminal = true ∧ t.file.booking.status = s.file.booking.status
          ∧ t.file.booking.paymentStatus = s.file.booking.paymentStatus) := by
    induction run with
    | refl =>
        have found := find_caseRef (operations_unique (bookingMachine_reachableUnder h).reachable) listed
        exact ⟨h, fun _ => ⟨BookingFile.reserves_iff.mpr ⟨o, found, reserved⟩, by
          rw [BookingFile.decision, BookingFile.findOperation, found]
          rfl⟩, fun ended => .inr ⟨ended, rfl, rfl⟩⟩
    | @step t u a _ unconfirmed hn ih =>
        obtain ⟨reached, waits, ended⟩ := ih
        have known := bookingMachine_reachableUnder reached
        have unique := operations_unique known.reachable
        obtain ⟨_, event, -⟩ := BookingSystem.next_event (bookingNext_of_next hn)
        obtain ⟨l, e, refines⟩ := event.reachable_refines known
        refine ⟨.next reached trivial hn, fun live' => ?_, fun ended' => ?_⟩
        · obtain ⟨reserves, decided⟩ := waits (refines.live e live')
          have coupled := reachable_reservations known
          have holds' := event.reservations known coupled.file coupled.calls live'
          exact ⟨holds'.keeps_reserved event.forward unique reserves
            ((coupled.file (refines.live e live')).financial _ reserves), event.forward.decision unique decided⟩
        · cases live : t.file.booking.status.terminal with
          | false =>
              obtain ⟨reserves, decided⟩ := waits live
              obtain ⟨o', found, reserved'⟩ := BookingFile.reserves_iff.mp reserves
              obtain same : o'.requestedOutcome = o.requestedOutcome := by simpa [BookingFile.decision, found] using decided
              exact .inl (event.reaches known (no_bare_refund known) unconfirmed (List.mem_of_find?_eq_some found) reserved'
                (same ▸ reaches) live ended')
          | true =>
              rw [e.terminal] at live
              have e' := refines.terminal live
              have status : u.file.booking.status = t.file.booking.status := e'.status.trans e.status.symm
              have payment : u.file.booking.paymentStatus = t.file.booking.paymentStatus := by
                rw [e'.payment, e.payment, event.sameTerms.paymentMethod]
              rw [status, payment]
              exact ended (by rw [e.terminal]; exact live)
  obtain ⟨reached, -, ended⟩ := stays
  obtain ⟨l, e⟩ := (reachable_encodes (bookingMachine_reachableUnder reached)).file
  refine ⟨fun finished => (ended finished).imp id fun before => ⟨before.1, before.2.1⟩, fun paid => ?_, fun paid => ?_⟩
  · have status := e.paid_terminal.1 paid
    obtain same | ⟨-, -, same⟩ := ended (by rw [status]; rfl)
    · exact .inl (same.symm.trans status)
    · exact .inr (same.symm.trans paid)
  · have status := e.paid_terminal.2 paid
    obtain same | ⟨-, -, same⟩ := ended (by rw [status]; rfl)
    · exact .inl (same.symm.trans status)
    · exact .inr (same.symm.trans paid)

/-- The provider approves the seeker's cancellation of finished work, and the refund is reserved. -/
def sampleReservedCancellation : List Action :=
  [.request (.providerStartJob 2), .request (.markJobComplete 2), .request (.requestCancellation 1),
    .request (.approveCancellation 0 2), .resume 0 .none].map (.step sampleContext)

/-- The call stops and the approval is repeated, until the refund is recorded. -/
def sampleRetriedCancellation : List Action :=
  [.resume 0 .none, .crash 0, .request (.approveCancellation 0 2), .resume 0 .none, .resume 0 .none, .resume 0 .none,
    .resume 0 .none, .resume 0 (.intent ⟨true, some 200, 50000⟩), .resume 0 .none,
    .resume 0 (.refunded ⟨900, .succeeded⟩), .resume 0 .none].map (.step sampleContext)

theorem reserved_outcome_reached_retried : ∃ s t o, bookingMachine.exec samplePaid sampleReservedCancellation = some s
    ∧ s.file.booking.status = .awaitingConfirmation ∧ o ∈ s.file.operations ∧ o.stage = .financialEffectReserved
    ∧ o.requestedOutcome = .participantApprove ∧ bookingMachine.exec s sampleRetriedCancellation = some t
    ∧ t.file.booking.status = .canceled ∧ t.file.booking.paymentStatus ≠ .released := by
  obtain ⟨s, run, ⟨awaiting, held⟩, reserved, retried⟩ := sample_any
    (o := bookingMachine.exec samplePaid sampleReservedCancellation)
    (p := fun s => (s.file.booking.status = .awaitingConfirmation ∧ s.file.booking.paymentStatus = .paidHeld)
      ∧ s.file.operations.any (fun o => o.reserved && o.stage == .financialEffectReserved
        && o.requestedOutcome == .participantApprove) = true
      ∧ (bookingMachine.execUnder (fun s a => !confirmsReserved s a) s sampleRetriedCancellation).any
        (fun t => t.file.booking.status.terminal) = true) (by decide)
  obtain ⟨o, listed, reserved⟩ := List.any_eq_true.mp reserved
  simp only [Bool.and_eq_true, beq_iff_eq] at reserved
  obtain ⟨⟨open_, stage⟩, outcome⟩ := reserved
  obtain ⟨t, retry, ended⟩ := (Option.any_eq_true _ _).mp retried
  obtain ⟨status, released, -⟩ := reserved_outcome_reached (.of_exec ⟨.paidCapture .., rfl, rfl⟩ run)
    (.of_execUnder (by simp) retry) listed open_ (by rw [outcome]; rfl)
  obtain canceled | ⟨finished, -⟩ := status ended
  · refine ⟨s, t, o, run, awaiting, listed, stage, outcome, Machine.exec_of_execUnder retry, canceled, fun paid => ?_⟩
    obtain same | before := released paid
    · cases same
    · rw [held] at before
      cases before
  · rw [awaiting] at finished
    cases finished

/-- The seeker's confirmation completes a booking whose refund is reserved. -/
theorem reserved_cancellation_completed : ∃ s t o, bookingMachine.exec samplePaid sampleReservedCancellation = some s
    ∧ o ∈ s.file.operations ∧ o.stage = .financialEffectReserved ∧ o.requestedOutcome = .participantApprove
    ∧ s.file.booking.status = .awaitingConfirmation
    ∧ bookingMachine.exec s [.step sampleContext (.request (.confirmCompletion 1))] = some t
    ∧ o ∈ t.file.operations ∧ o.status ≠ .completed
    ∧ t.file.booking.status = .completed ∧ t.file.booking.paymentStatus = .released := by
  obtain ⟨s, run, awaiting, confirmed⟩ := sample_any (o := bookingMachine.exec samplePaid sampleReservedCancellation)
    (p := fun s => s.file.booking.status = .awaitingConfirmation
      ∧ (bookingMachine.exec s [.step sampleContext (.request (.confirmCompletion 1))]).any (fun t =>
        s.file.operations.any (fun o => o.stage == .financialEffectReserved && o.requestedOutcome == .participantApprove
          && o.status != .completed && t.file.operations.contains o)
        && t.file.booking.status == .completed && t.file.booking.paymentStatus == .released) = true) (by decide)
  obtain ⟨t, confirm, reached⟩ := (Option.any_eq_true _ _).mp confirmed
  simp only [Bool.and_eq_true, beq_iff_eq] at reached
  obtain ⟨⟨reserved, completed⟩, released⟩ := reached
  obtain ⟨o, listed, reserved⟩ := List.any_eq_true.mp reserved
  simp only [Bool.and_eq_true, beq_iff_eq, bne_iff_ne, List.contains_iff_mem] at reserved
  obtain ⟨⟨⟨stage, outcome⟩, unfinished⟩, kept⟩ := reserved
  exact ⟨s, t, o, run, listed, stage, outcome, awaiting, confirm, kept, unfinished, completed, released⟩

end Outcomes

end ServiceHub
