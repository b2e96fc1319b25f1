import ServiceHub.Booking.Coupling
import ServiceHub.Booking.StatusWrites

/-! # The refund protocol

A refund is reserved, executed at the gateway and finalized by calls that may share one
row. A PROCESSING row keeps settlements away from a refund whose outcome is unknown;
the catch block of `createRefund` takes that protection back.
-/

namespace ServiceHub

namespace BookingSystem

/-- The call that an action resumes. -/
def resumed (s : BookingSystem) : Action → Option Call
  | .step _ (.resume k _) => s.calls[k]?
  | _ => none

/-- On whose behalf an action settles the booking. -/
def settler (s : BookingSystem) : Action → Option SettlementActor
  | .step _ (.request (.confirmCompletion seekerId)) => some (.seeker seekerId)
  | .step _ (.resume k _) => (s.calls[k]?).bind fun c => if c.stage = .settle then some .admin else none
  | _ => none

end BookingSystem

section Endings

variable {s : BookingSystem} {a : Action} {f' : BookingFile} {g' : Option GatewayRefund}
  {next : Option Call} {l : Lifecycle}

/-- A booking that has ended stays as it ended. -/
theorem Refines.terminal (h : Refines l f') (ended : l.terminal = true) : Encodes f' l := by
  obtain ⟨l', e', rfl | step⟩ := h
  · exact e'
  · simp [step.from_live] at ended

theorem Refines.canceled {f : BookingFile} (e : Encodes f l) (h : Refines l f')
    (canceled : f.booking.status = .canceled) : f'.booking.status = .canceled := by
  obtain rfl := e.of_canceled canceled
  exact (h.terminal rfl).status

/-- A saved status is one of a live booking. -/
theorem Encodes.saved {f : BookingFile} {before : BookingStatus} (e : Encodes f l)
    (h : f.booking.statusBeforeDispute = some before) : ∃ w : Work, before = w.status := by
  have saved := e.before.symm.trans h
  cases l with
  | disputed w | underReview w =>
      simp only [Lifecycle.before, Option.some.injEq] at saved
      exact ⟨w, saved.symm⟩
  | _ => simp [Lifecycle.before] at saved

theorem Work.status_live (w : Work) : w.status ≠ .completed ∧ w.status ≠ .canceled := by
  cases w <;> exact ⟨by decide, by decide⟩

/-- Only a settlement completes a booking. -/
theorem Event.completes (e : Encodes s.file l) (h : Event s a f' g' next)
    (live : s.file.booking.status ≠ .completed) (completed : f'.booking.status = .completed) :
    ∃ ctx actor c, s.settler a = some actor ∧ settleCompletedBooking ctx actor s.file = .ok c := by
  cases h with
  | @requested ctx r c run =>
      cases requestTransaction_status run with
      | kept same => exact absurd (same.1.symm.trans completed) live
      | advanced _ after => simp [completed, BookingStatus.advanced] at after
      | held _ after => simp [completed, BookingStatus.frozen] at after
      | settled run => exact ⟨ctx, _, c, rfl, run⟩
  | @committed ctx k answer call c found run =>
      have write := transaction_status run
      obtain ⟨caller, stage⟩ := call
      cases write with
      | kept same => exact absurd (same.1.symm.trans completed) live
      | held _ after => simp [completed] at after
      | restored frozen saved after =>
          obtain ⟨w, rfl⟩ := e.saved saved
          exact absurd (after.symm.trans completed) w.status_live.1
      | refunded _ after => simp [completed] at after
      | canceled _ after => simp [completed] at after
      | settled settled =>
          exact ⟨ctx, .admin, _, by simp [BookingSystem.settler, found], settled⟩
  | _ => exact absurd completed live

end Endings

/-- The refund row keeps settlements out, or the booking has been refunded. -/
def BookingFile.refundGuarded (f : BookingFile) : Prop :=
  f.refund.map (·.status) = some .processing ∨ f.booking.status = .canceled

/-- The call is about to execute the refund at the gateway. -/
def Stage.creatingRefund : Stage → Bool
  | .refundCreate _ _ => true
  | _ => false

/-- A catch block marks the refund FAILED only when nothing was executed at the gateway and no
    other call is about to execute it, or after the booking was refunded. -/
def failureIsCertain (s : BookingSystem) (a : Action) : Bool :=
  (s.resumed a).all fun c => c.stage != .refundCaught || s.file.booking.status == .canceled
    || (s.gatewayRefund.isNone && s.calls.all fun d => !d.stage.creatingRefund)

section Exclusion

variable {s : BookingSystem} {a : Action} {f' : BookingFile} {g' : Option GatewayRefund}
  {next : Option Call} {C : BookingSystem → Action → Prop}

/-- The writes to the refund row: a reservation, a finalization, a recorded failure. -/
inductive RefundWritten (s : BookingSystem) (a : Action) (f' : BookingFile) : Prop where
  | kept (same : f'.refund = s.file.refund)
  | reserved {r : PaymentRefund} (row : f'.refund = some r) (processing : r.status = .processing)
      (blank : r.paymongoRefundId = none)
      (unrecorded : s.file.refund.bind (·.paymongoRefundId) = none)
      (live : s.file.booking.status ≠ .completed)
      (held : s.file.booking.paymentStatus.held = true) (booking : f'.booking = s.file.booking)
  | finalized {k : Nat} {caller resumed id status amount} {r : PaymentRefund}
      (found : s.calls[k]? = some ⟨caller, .refundFinalize resumed id status amount⟩)
      (row : s.file.refund = some r)
      (written : f'.refund = some { r with status, paymongoRefundId := some id })
      (held : s.file.booking.paymentStatus.held = true)
      (canceled : f'.booking.status = .canceled)
  | failed {c : Call} (resumed : s.resumed a = some c) (caught : c.stage = .refundCaught)
      (file : f' = recordRefundFailure s.file)

theorem Event.refund_write (h : Event s a f' g' next) : RefundWritten s a f' := by
  cases h with
  | requested run => exact .kept (requestTransaction_framed run).refund
  | @committed ctx k answer call c found run =>
      cases writes : call.stage.writesRefund with
      | false => exact .kept (transaction_framed run writes).refund
      | true =>
          obtain ⟨caller, stage⟩ := call
          cases stage with
          | refundReserve =>
              obtain ⟨live, -, ⟨_, _, -, -, rfl⟩ | ⟨-, rfl⟩ | ⟨unrecorded, held, rfl⟩⟩ :=
                reserveRefund_ok run
              · exact .kept rfl
              · exact .kept rfl
              · exact .reserved rfl rfl rfl unrecorded live held rfl
          | refundFinalize =>
              obtain ⟨-, -, rfl⟩ | ⟨-, -, held, ⟨r, row, -⟩, rfl⟩ := finalizeRefund_ok run
              · exact .kept rfl
              · refine .finalized found row ?_ held rfl
                simp [BookingFile.refunded, row]
          | _ => simp [Stage.writesRefund] at writes
  | refundCaught found stage => exact .failed found stage rfl
  | _ => exact .kept rfl

/-- A guarded refund stays guarded unless a failure is recorded on a live booking. -/
theorem Event.keeps_guard (reached : refundMachine.ReachableUnder C s) (h : Event s a f' g' next)
    (guarded : s.file.refundGuarded)
    (certain : ∀ c, s.resumed a = some c → c.stage = .refundCaught →
      s.file.booking.status = .canceled) : f'.refundGuarded := by
  obtain ⟨l, e, refines⟩ := h.reachable_refines reached
  obtain processing | canceled := guarded
  · cases h.refund_write with
    | kept same => exact .inl (by rw [same, processing])
    | reserved row status => exact .inl (by simp [row, status])
    | finalized _ _ _ _ canceled => exact .inr canceled
    | failed resumed caught =>
        exact .inr (refines.canceled e (certain _ resumed caught))
  · exact .inr (refines.canceled e canceled)

/-- What the gateway has executed guards the booking; a completed booking has no refund in
    progress. -/
structure RefundGuard (f : BookingFile) (g : Option GatewayRefund) : Prop where
  executed : g.isSome = true → f.refundGuarded
  completed : f.booking.status = .completed → f.refund.map (·.status) ≠ some .processing

/-- Only a failure recorded in doubt breaks the guard. -/
theorem guard_or_certain (h : failureIsCertain s a = true)
    (doubt : s.gatewayRefund.isSome = true ∨ ∃ c ∈ s.calls, c.stage.creatingRefund = true) :
    ∀ c, s.resumed a = some c → c.stage = .refundCaught → s.file.booking.status = .canceled := by
  intro c resumed caught
  simp only [failureIsCertain, resumed, Option.all_some, caught, bne_self_eq_false, Bool.false_or,
    Bool.or_eq_true, beq_iff_eq, Bool.and_eq_true, List.all_eq_true, Bool.not_eq_true',
    Option.isNone_iff_eq_none] at h
  obtain canceled | ⟨unexecuted, idle⟩ := h
  · exact canceled
  · obtain executed | ⟨d, listed, creating⟩ := doubt
    · simp [unexecuted] at executed
    · simp [idle d listed] at creating

theorem Event.next_creating (h : Event s a f' g' next) {c : Call} (hc : next = some c)
    (creating : c.stage.creatingRefund = true) : f'.refundGuarded := by
  cases h with
  | requested run =>
      have opening := requestTransaction_opening run hc
      obtain ⟨caller, stage⟩ := c
      cases stage <;> simp [Stage.opening, Stage.creatingRefund] at opening creating
  | @committed _ _ _ call _ found run =>
      obtain ⟨-, flow⟩ := transaction_next run hc
      obtain ⟨caller, stage⟩ := call
      obtain ⟨_, stage'⟩ := c
      cases flow with
      | reserved opening => cases stage' <;> simp [Stage.opening, Stage.creatingRefund] at opening creating
      | refundReserved =>
          obtain ⟨-, -, ⟨_, _, -, -, rfl⟩ | ⟨processing, rfl⟩ | ⟨-, -, rfl⟩⟩ := reserveRefund_ok run
          · cases hc
          · exact .inl processing
          · exact .inl rfl
      | _ => simp [Stage.creatingRefund] at creating
  | aborted | refundCaught =>
      rw [unwound_eq hc] at creating
      simp [Stage.creatingRefund] at creating
  | refundCalled | refundExecuted | refundTimedOut | refundFailed =>
      cases hc
      simp [Stage.creatingRefund] at creating
  | markedFailed | stopped | renumbered => cases hc

/-- A completed booking is left without a refund in progress. -/
theorem Event.completed_idle (reached : refundMachine.ReachableUnder C s) (h : Event s a f' g' next)
    (idle : s.file.booking.status = .completed → s.file.refund.map (·.status) ≠ some .processing)
    (completed : f'.booking.status = .completed) : f'.refund.map (·.status) ≠ some .processing := by
  obtain ⟨l, e, -⟩ := h.reachable_refines reached
  cases h.refund_write with
  | kept same =>
      rw [same]
      by_cases before : s.file.booking.status = .completed
      · exact idle before
      · obtain ⟨ctx, actor, c, -, settled⟩ := h.completes e before completed
        exact (settleCompletedBooking_ok settled).1
  | reserved _ _ _ _ live _ booking => exact absurd (booking ▸ completed) live
  | finalized _ _ _ _ canceled => simp [canceled] at completed
  | failed _ _ file =>
      subst file
      cases row : s.file.refund <;> simp [recordRefundFailure, row]

theorem refund_guarded (h : refundMachine.ReachableUnder (fun s a => failureIsCertain s a = true) s) :
    Coupled RefundGuard (fun f _ c => c.stage.creatingRefund = true → f.refundGuarded) s := by
  refine Coupled.reachableUnder (fun f new => ⟨by simp, fun completed => ?_⟩) ?_ h
  · cases new <;> simp [Terms.cashRequest, Terms.cashOffer, Terms.paidCapture] at completed
  intro s a f' g' next reached hs certain event
  have kept : s.gatewayRefund.isSome = true → f'.refundGuarded := fun executed =>
    event.keeps_guard reached (hs.file.executed executed) (guard_or_certain certain (.inl executed))
  constructor
  · refine ⟨fun executed => ?_, event.completed_idle reached hs.file.completed⟩
    cases event with
    | refundExecuted found | refundTimedOut found =>
        exact hs.calls _ (List.mem_of_getElem? found) rfl
    | _ => exact kept executed
  · intro c listed guarded creating
    exact event.keeps_guard reached (guarded creating)
      (guard_or_certain certain (.inr ⟨c, listed, creating⟩))
  · exact fun c hc creating => event.next_creating hc creating

/-- The proceeds of a booking are released to the provider. -/
def BookingFile.paidOut (f : BookingFile) : Prop :=
  f.booking.paymentStatus = .released ∨ ∃ t ∈ f.transactions, t.type = .earning

theorem Encodes.paidOut {f : BookingFile} {l : Lifecycle} (e : Encodes f l) (h : f.paidOut) :
    f.booking.status = .completed := by
  obtain released | ⟨t, listed, earning⟩ := h
  · have payment := e.payment
    rw [released] at payment
    cases l with
    | completed => exact e.status
    | underReview w frozen =>
        cases frozen <;> cases method : f.booking.paymentMethod <;>
          simp [method, Lifecycle.payment, PaymentMethod.paid] at payment
    | _ =>
        cases method : f.booking.paymentMethod <;>
          simp [method, Lifecycle.payment, PaymentMethod.paid] at payment
  · have row : TransactionType.earning ∈ l.ledger f.booking.paymentMethod := by
      rw [← e.ledger, ← earning]
      exact List.mem_map_of_mem listed
    cases l with
    | completed => exact e.status
    | _ => cases method : f.booking.paymentMethod <;> simp [method, Lifecycle.ledger] at row

/-- While failures are recorded only when they are certain, a booking is not both refunded at the
    gateway and paid out. -/
theorem refund_excludes_release
    (h : refundMachine.ReachableUnder (fun s a => failureIsCertain s a = true) s) :
    ¬ (s.gatewayRefund.isSome = true ∧ s.file.paidOut) := by
  rintro ⟨executed, out⟩
  obtain ⟨l, e⟩ := (reachable_encodes h).file
  have guard := (refund_guarded h).file
  have completed := e.paidOut out
  obtain processing | canceled := guard.executed executed
  · exact guard.completed completed processing
  · simp [completed] at canceled

/-- The gateway's refund of the captured payment in the runs below. -/
def sampleRefund : GatewayRefund := ⟨300, .succeeded⟩

/-- The responder approves the cancellation of a finished job, and the call runs until it asks the
    gateway for the refund. -/
def sampleApproval : List Step :=
  [.request (.providerStartJob 2), .request (.markJobComplete 2), .request (.requestCancellation 1),
    .request (.approveCancellation 0 2), .resume 0 .none, .resume 0 .none, .resume 0 .none,
    .resume 0 .none, .resume 0 (.intent ⟨true, some 200, 50000⟩), .resume 0 .none]

/-- The gateway refuses the refund, and the seeker confirms the completion instead. -/
def sampleRefusal : List Step :=
  sampleApproval ++ [.resume 0 .failed, .resume 0 .none, .request (.confirmCompletion 1)]

theorem refund_excludes_release_refused : ∃ s,
    refundMachine.execUnder failureIsCertain samplePaid (sampleRefusal.map (.step sampleContext))
      = some s
    ∧ s.file.booking.paymentStatus = .released
    ∧ ¬ (s.gatewayRefund.isSome = true ∧ s.file.paidOut) := by
  obtain ⟨s, run, released⟩ := sample_any (o := refundMachine.execUnder failureIsCertain samplePaid
    (sampleRefusal.map (.step sampleContext)))
    (p := fun s => s.file.booking.paymentStatus = .released) (by decide)
  exact ⟨s, run, released,
    refund_excludes_release ⟨_, samplePaid_initial, .of_execUnder (fun _ _ h => h) run⟩⟩

/-- The refund is executed but its answer is lost: the row becomes FAILED, and the seeker confirms
    the completion. -/
def sampleDoublePayout : List Step :=
  sampleApproval ++
    [.resume 0 (.timedOut sampleRefund), .resume 0 .none, .request (.confirmCompletion 1)]

theorem timedOut_refund_paid_out : ∃ s, sampleRun sampleDoublePayout = some s
    ∧ refundMachine.Reachable s ∧ s.gatewayRefund = some sampleRefund
    ∧ s.file.booking.paymentStatus = .released ∧ s.file.countTransactions .earning = 1 := by
  obtain ⟨s, run, double⟩ := sample_any (o := sampleRun sampleDoublePayout)
    (p := fun s => s.gatewayRefund = some sampleRefund ∧ s.file.booking.paymentStatus = .released
      ∧ s.file.countTransactions .earning = 1) (by decide)
  exact ⟨s, run, sampleRun_reachable run, double⟩

end Exclusion

end ServiceHub
