import ServiceHub.Booking.CaseRows
import ServiceHub.Booking.RefundProtocol

/-! # Which calls cancel, settle or restore a booking

A call belongs to the request that opened it and keeps to the route of its outcome: only a
decision to cancel reaches the stages of a cancellation. The status of a booking is written
by a request, or at one stage of a call.
-/

namespace ServiceHub

open Guard

/-- The stages of `performImmediateCancel` and of the refund inside it. -/
def Stage.cancelling : Stage → Bool
  | .cancelRead | .preStartCheck _ | .refundRead | .refundExisting _ _ | .refundIntent _
  | .refundReserve _ _ | .refundCreate _ _ | .refundCaught | .refundFinalize _ _ _ _
  | .cancelSettle _ => true
  | _ => false

/-- The caller cancels the booking when it succeeds. -/
def Caller.cancels : Caller → Bool
  | .refundBookingPayment _ | .requestCancellation _ _ | .respondToCancellationRequest _ _ _ => true
  | .adminResolveCancellationRequest _ approve _ _ => approve
  | .resolveAdminReport _ _ outcome _ => outcome == .cancelBooking
  | .resolveCompletionEscalation _ _ action => action == .refundSeeker
  | .resolveAdminBooking _ outcome => outcome == .cancelBooking

/-- The caller settles the booking when it succeeds. -/
def Caller.releases : Caller → Bool
  | .resolveAdminReport _ _ outcome _ => outcome == .releaseProviderAndComplete
  | .resolveCompletionEscalation _ _ action => action == .releaseProviderAndComplete
  | .resolveAdminBooking _ outcome => outcome == .releaseProviderAndComplete
  | _ => false

/-- The call is on the route of its caller's outcome. -/
structure Call.OnRoute (c : Call) : Prop where
  cancels : c.stage.cancelling = true → c.caller.cancels = true
  releases : c.stage = .settle → c.caller.releases = true
  reserves : c.stage = .reserve → c.caller.cancels = true ∨ c.caller.releases = true

/-- The caller that a request opens a call for. -/
inductive Request.Opens (f f' : BookingFile) : Request → Caller → Prop where
  | immediate {userId q} (listed : q ∈ f'.cancellationRequests)
      (pending : q.resolutionOutcome = some .immediateCancelPending) :
      Opens f f' (.requestCancellation userId) (.requestCancellation q.id userId)
  | approval {id responderId q} (found : f.findCancellation id = some q)
      (responder : q.responderId = responderId) (other : q.requestedBy ≠ responderId) :
      Opens f f' (.approveCancellation id responderId)
        (.respondToCancellationRequest id responderId q.reportId)
  | cancellation {id approve adminId fault note} :
      Opens f f' (.adminResolveCancellation id approve adminId fault note)
        (.adminResolveCancellationRequest id approve adminId fault)
  | report {id adminId outcome penalty notes} :
      Opens f f' (.resolveAdminReport id adminId outcome penalty notes)
        (.resolveAdminReport id adminId outcome penalty)
  | escalation {id adminId action} : Opens f f' (.resolveCompletionEscalation id adminId action)
      (.resolveCompletionEscalation id adminId action)
  | booking {adminId outcome banned} :
      Opens f f' (.resolveAdminBooking adminId outcome banned) (.resolveAdminBooking adminId outcome)

section Transactions

variable {ctx : Context} {f : BookingFile} {c : Commit} {caller : Caller} {call next : Call}

theorem Call.OnRoute.finishing {stage : Stage} (cancelling : stage.cancelling = false)
    (settle : stage ≠ .settle) (reserve : stage ≠ .reserve) : (Call.mk caller stage).OnRoute :=
  ⟨fun h => by simp [cancelling] at h, fun h => absurd h settle, fun h => absurd h reserve⟩

theorem Call.OnRoute.cancelling {stage : Stage} (cancels : caller.cancels = true)
    (settle : stage ≠ .settle) : (Call.mk caller stage).OnRoute :=
  ⟨fun _ => cancels, fun h => absurd h settle, fun _ => .inl cancels⟩

theorem Call.OnRoute.settling (releases : caller.releases = true) :
    (Call.mk caller .settle).OnRoute :=
  ⟨fun h => by simp [Stage.cancelling] at h, fun _ => releases, fun h => by simp at h⟩

theorem requestTransaction_opens {r : Request} (h : requestTransaction ctx r f = .ok c)
    (hn : c.continues = some next) : r.Opens f c.file next.caller ∧ next.OnRoute := by
  cases r with
  | respondToDirectBooking =>
      obtain ⟨-, _, rfl | rfl⟩ := respondToDirectBookingService_ok h <;> simp at hn
  | providerStartJob =>
      obtain ⟨-, ⟨-, -, -, rfl⟩ | ⟨_, -, -, -, -, -, -, rfl⟩⟩ := providerStartJob_ok h <;> simp at hn
  | markJobComplete => obtain rfl | ⟨-, rfl⟩ := markJobComplete_ok h <;> simp at hn
  | confirmCompletion =>
      obtain ⟨-, -, ⟨-, rfl⟩ | ⟨-, -, -, -, _, -, rfl⟩⟩ := settleCompletedBooking_ok h <;> simp at hn
  | disputeJob =>
      obtain ⟨-, -, _, _, -, -, -, -, rfl⟩ := disputeJobService_ok h
      simp at hn
  | createSafetyReport =>
      obtain ⟨-, -, rfl | ⟨_, -, -, -, ⟨-, rfl⟩ | ⟨-, rfl⟩⟩⟩ := createSafetyReport_ok h <;> simp at hn
  | createCompletionEscalation =>
      obtain ⟨-, -, -, rfl | ⟨-, rfl⟩⟩ := createCompletionEscalation_ok h <;> simp at hn
  | startModerationReview =>
      obtain ⟨_, _, _, rfl, -⟩ := startModerationReview_ok h
      simp at hn
  | requestCancellation =>
      obtain ⟨-, ⟨active, listed, -, pending, rfl⟩ | rfl | ⟨-, -, -, -, request, -, -, -,
        ⟨-, -, pending, rfl⟩ | ⟨-, -, -, rfl⟩⟩⟩ := requestCancellation_ok h
      · cases hn
        exact ⟨.immediate listed pending, .cancelling rfl (by simp)⟩
      · simp at hn
      · cases hn
        exact ⟨.immediate (q := request) (by simp) pending, .cancelling rfl (by simp)⟩
      · simp at hn
  | declineCancellation =>
      obtain ⟨-, rfl⟩ := declineCancellationRequest_ok h
      simp at hn
  | approveCancellation =>
      obtain rfl | ⟨request, _, op, found, -, ⟨responder, other⟩, -, ⟨-, rfl⟩ | ⟨-, rfl⟩⟩ :=
        approveCancellationRequest_ok h
      · simp at hn
      · simp at hn
      · cases hn
        refine ⟨.approval found responder other, .cancelling rfl ?_⟩
        split <;> simp
  | escalateCancellation =>
      obtain rfl | ⟨-, -, _, -, -, -, rfl⟩ := escalateCancellationRequest_ok h <;> simp at hn
  | adminResolveCancellation _ approve =>
      obtain rfl | ⟨_, _, _, -, -, -, ⟨-, rfl⟩ | ⟨-, _, -, -, rfl⟩⟩ := claimAdminCancellation_ok h
      · simp at hn
      · simp at hn
      · cases hn
        refine ⟨.cancellation, ?_⟩
        split
        · rename_i approved
          exact .cancelling approved.1 (by simp)
        · exact .finishing rfl (by simp) (by simp)
  | resolveAdminReport _ _ outcome =>
      obtain rfl | ⟨_, _, _, -, -, -, -, ⟨-, rfl⟩ | ⟨-, rfl⟩⟩ := claimReport_ok h
      · simp at hn
      · simp at hn
      · cases hn
        refine ⟨.report, ?_⟩
        split
        · rename_i financial
          refine ⟨by simp [Stage.cancelling], by simp, fun _ => ?_⟩
          cases outcome <;> simp_all [ReportOutcome.financial, Caller.cancels, Caller.releases]
        · exact .finishing rfl (by simp) (by simp)
  | resolveCompletionEscalation _ _ action =>
      obtain rfl | ⟨_, _, _, -, -, -, ⟨-, rfl⟩ | ⟨-, rfl⟩⟩ := claimEscalation_ok h
      · simp at hn
      · simp at hn
      · cases hn
        refine ⟨.escalation, ?_⟩
        split
        · rename_i financial
          refine ⟨by simp [Stage.cancelling], by simp, fun _ => ?_⟩
          cases action <;> simp_all [Caller.cancels, Caller.releases]
        · exact .finishing rfl (by simp) (by simp)
  | resolveAdminBooking _ outcome =>
      obtain rfl | ⟨_, _, -, h⟩ := claimAdminBooking_ok h
      · simp at hn
      have route : (Call.mk (.resolveAdminBooking ‹_› outcome) outcome.effect).OnRoute := by
        cases outcome with
        | cancelBooking => exact .cancelling rfl (by simp [AdminBookingOutcome.effect])
        | releaseProviderAndComplete => exact .settling rfl
      obtain ⟨-, rfl⟩ | ⟨-, rfl⟩ | ⟨-, -, -, -, rfl⟩ | ⟨-, -, -, -, _, _, -, -, rfl⟩ := h
      · simp at hn
      · cases hn
        exact ⟨.booking, .finishing rfl (by simp) (by simp)⟩
      · cases hn
        exact ⟨.booking, route⟩
      · cases hn
        exact ⟨.booking, route⟩

/-- Where a reservation leads. -/
def Caller.effect : Caller → Stage
  | .resolveAdminReport _ _ outcome _ => outcome.effect
  | .resolveCompletionEscalation _ _ action => action.effect
  | .resolveAdminBooking _ outcome => outcome.effect
  | _ => .cancelRead

theorem reserveOutcome_effect (h : reserveOutcome caller f = .ok c) :
    c.continues = some ⟨caller, caller.effect⟩ := by
  cases caller with
  | refundBookingPayment | requestCancellation | resolveAdminBooking => simp [reserveOutcome] at h
  | respondToCancellationRequest | adminResolveCancellationRequest =>
      obtain ⟨_, _, -, -, -, ⟨-, rfl⟩ | ⟨_, _, -, -, rfl⟩⟩ := reserveCancellationFinancialOutcome_ok h <;>
        rfl
  | resolveAdminReport =>
      obtain ⟨_, _, -, -, -, ⟨-, rfl⟩ | ⟨_, _, -, -, rfl⟩⟩ := reserveReportFinancialOutcome_ok h <;> rfl
  | resolveCompletionEscalation =>
      obtain ⟨_, _, -, -, -, ⟨-, rfl⟩ | ⟨_, _, _, -, -, -, rfl⟩⟩ :=
        reserveCompletionFinancialOutcome_ok h <;> rfl

theorem Caller.effect_route (h : caller.cancels = true ∨ caller.releases = true) :
    (Call.mk caller caller.effect).OnRoute := by
  cases caller with
  | resolveAdminReport _ _ outcome =>
      cases outcome with
      | releaseProviderAndComplete => exact .settling rfl
      | cancelBooking => exact .cancelling rfl (by simp [Caller.effect, ReportOutcome.effect])
      | dismiss | resolveSafety => simp [Caller.cancels, Caller.releases] at h
  | resolveCompletionEscalation _ _ action =>
      cases action with
      | releaseProviderAndComplete => exact .settling rfl
      | refundSeeker => exact .cancelling rfl (by simp [Caller.effect, EscalationAction.effect])
      | keepAwaiting => simp [Caller.cancels, Caller.releases] at h
  | resolveAdminBooking _ outcome =>
      cases outcome with
      | releaseProviderAndComplete => exact .settling rfl
      | cancelBooking => exact .cancelling rfl (by simp [Caller.effect, AdminBookingOutcome.effect])
  | adminResolveCancellationRequest =>
      simp only [Caller.releases, Bool.false_eq_true, or_false] at h
      exact .cancelling h (by simp [Caller.effect])
  | refundBookingPayment | requestCancellation | respondToCancellationRequest =>
      exact .cancelling rfl (by simp [Caller.effect])

/-- A call goes on along its route. -/
theorem Call.OnRoute.continued {answer : Answer} (on : call.OnRoute)
    (h : call.transaction ctx answer f = .ok c) (hn : c.continues = some next) : next.OnRoute := by
  obtain ⟨same, flow⟩ := transaction_next h hn
  obtain ⟨caller, stage⟩ := call
  obtain ⟨caller', stage'⟩ := next
  obtain rfl : caller' = caller := same
  cases flow with
  | reserved =>
      obtain rfl : stage' = caller'.effect := by
        have effect := hn.symm.trans (reserveOutcome_effect h)
        simpa using effect
      exact Caller.effect_route (on.reserves rfl)
  | cancelSettled | immediateSettled | settled | established | decided =>
      exact .finishing rfl (by simp) (by simp)
  | _ => exact .cancelling (on.cancels rfl) (by simp)

end Transactions

/-- How an action writes the status of the booking. -/
inductive StatusWritten (s : BookingSystem) (a : Action) (f' : BookingFile) : Prop where
  | kept (same : SameStatus s.file f')
  | advanced (before : s.file.booking.status = .pendingApproval ∨ s.file.booking.status = .waiting
        ∨ s.file.booking.status = .accepted ∨ s.file.booking.status = .ongoing)
      (after : f'.booking.status.advanced = true)
  | held (open_ : s.file.booking.status.frozen = false) (after : f'.booking.status.frozen = true)
      (saved : f'.booking.statusBeforeDispute = some s.file.booking.status)
      (started : f'.booking.started = s.file.booking.started)
  | restored {before} (frozen : s.file.booking.status.frozen = true)
      (saved : s.file.booking.statusBeforeDispute = some before) (after : f'.booking.status = before)
      (started : f'.booking.started = s.file.booking.started) (unblocked : Unblocked f')
  | canceled {call} (resumes : s.resumed a = some call) (stage : call.stage.cancelling = true)
      (after : f'.booking.status = .canceled) (started : f'.booking.started = s.file.booking.started)
  | settled {ctx actor c} (settler : s.settler a = some actor)
      (run : settleCompletedBooking ctx actor s.file = .ok c) (same : f' = c.file)

section Runs

variable {s : BookingSystem} {a : Action} {f' : BookingFile} {g' : Option GatewayRefund}
  {next : Option Call} {C : BookingSystem → Action → Prop}

theorem Event.status_written (h : Event s a f' g' next) : StatusWritten s a f' := by
  cases h with
  | requested run =>
      cases requestTransaction_status run with
      | kept same => exact .kept same
      | advanced before after => exact .advanced before after
      | held open_ after saved started => exact .held open_ after saved started
      | settled run => exact .settled rfl run rfl
  | @committed ctx k answer call c found run =>
      have write := transaction_status run
      obtain ⟨caller, stage⟩ := call
      cases write with
      | kept same => exact .kept same
      | held before after saved started =>
          refine .held ?_ ?_ (before ▸ saved) started
          · rw [before]
            rfl
          · rw [after]
            rfl
      | restored frozen saved after _ started unblocked =>
          exact .restored frozen saved after started unblocked
      | refunded _ after started => exact .canceled found rfl after started
      | canceled _ after started => exact .canceled found rfl after started
      | @settled settled run' same =>
          have settler : s.settler (.step ctx (.resume k answer)) = some .admin := by
            simp [BookingSystem.settler, found]
          exact .settled settler run' (by rw [same])
  | _ => exact .kept (.refl _)

/-- The call that an event leaves in flight was opened by its request, or is a call that goes on. -/
theorem Event.next_opened (h : Event s a f' g' next) {c : Call} (hc : next = some c) :
    (∃ ctx r, a = .step ctx (.request r) ∧ r.Opens s.file f' c.caller)
      ∨ (∃ ctx id, a = .step ctx (.refund id) ∧ c.caller = .refundBookingPayment id)
      ∨ ∃ call, s.resumed a = some call ∧ c.caller = call.caller := by
  cases h with
  | requested run => exact .inl ⟨_, _, rfl, (requestTransaction_opens run hc).1⟩
  | refundCalled =>
      cases hc
      exact .inr (.inl ⟨_, _, rfl, rfl⟩)
  | committed found run => exact .inr (.inr ⟨_, found, (transaction_next run hc).1⟩)
  | aborted found => exact .inr (.inr ⟨_, found, by rw [unwound_eq hc]⟩)
  | refundCaught found => exact .inr (.inr ⟨_, found, by rw [unwound_eq hc]⟩)
  | refundExecuted found | refundTimedOut found | refundFailed found =>
      cases hc
      exact .inr (.inr ⟨_, found, rfl⟩)
  | markedFailed | stopped | renumbered => cases hc

theorem BookingSystem.resumed_listed {call : Call} (h : s.resumed a = some call) : call ∈ s.calls := by
  unfold BookingSystem.resumed at h
  split at h
  · exact List.mem_of_getElem? h
  · cases h

theorem Action.caller_listed {caller : Caller} (h : a.caller s = some caller) :
    ∃ call ∈ s.calls, call.caller = caller := by
  unfold Action.caller at h
  split at h
  · obtain ⟨call, found, same⟩ := Option.map_eq_some_iff.mp h
    exact ⟨call, List.mem_of_getElem? found, same⟩
  · cases h

theorem Event.next_onRoute (h : Event s a f' g' next) (on : ∀ call ∈ s.calls, call.OnRoute) {c : Call}
    (hc : next = some c) : c.OnRoute := by
  cases h with
  | requested run => exact (requestTransaction_opens run hc).2
  | refundCalled =>
      cases hc
      exact .cancelling rfl (by simp)
  | committed found run => exact (on _ (List.mem_of_getElem? found)).continued run hc
  | aborted =>
      rw [unwound_eq hc]
      exact .finishing rfl (by simp) (by simp)
  | refundCaught =>
      rw [unwound_eq hc]
      exact .finishing rfl (by simp) (by simp)
  | refundExecuted found | refundTimedOut found | refundFailed found =>
      cases hc
      exact .cancelling ((on _ (List.mem_of_getElem? found)).cancels rfl) (by simp)
  | markedFailed | stopped | renumbered => cases hc

/-- Every call in flight is on the route of its outcome. -/
theorem reachable_onRoute (h : refundMachine.ReachableUnder C s) : ∀ call ∈ s.calls, call.OnRoute := by
  refine (Coupled.reachableUnder (I := fun _ _ => True) (P := fun _ _ c => c.OnRoute)
    (fun _ _ => trivial) ?_ h).calls
  intro s a f' g' next _ hs _ event
  exact ⟨trivial, fun _ _ on => on, fun c hc => event.next_onRoute hs.calls hc⟩

end Runs

end ServiceHub
