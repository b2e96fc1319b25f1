import ServiceHub.Booking.RefundProtocol

/-! # Convergence of repeated refunds

Calls of `refundBookingPayment` on one booking share its refund row. While no failure is
written over a recorded refund and no settlement overtakes an executed one, the recorded
refund stays, and a further call records whatever the gateway has executed.
-/

namespace ServiceHub

/-- The gateway's answer to `createRefund` leaves an executed refund behind. -/
def Answer.executes : Answer → Bool
  | .refunded _ | .timedOut _ => true
  | _ => false

def Action.answer : Action → Answer
  | .step _ (.resume _ answer) => answer
  | _ => .none

/-- The guards of `settleCompletedBooking` on the status, the refund and the payment. -/
def settlementOpen (actor : SettlementActor) (f : BookingFile) : Bool :=
  f.refund.map (·.status) != some .processing && actor.allows f.booking.status
    && (actor.isSeeker || !f.booking.status.frozen
      || f.booking.statusBeforeDispute == some .awaitingConfirmation)
    && validSettlementPaymentState actor f.booking

/-- No failure is written over a recorded refund, no settlement overtakes an executed refund, and
    no refund is executed for a completed booking. -/
def refundUndisturbed (s : BookingSystem) (a : Action) : Bool :=
  ((s.resumed a).all fun c => c.stage != .refundCaught
      || (s.file.refund.bind (·.paymongoRefundId)).isNone)
    && ((s.settler a).all fun actor => s.gatewayRefund.isNone || !settlementOpen actor s.file)
    && ((s.resumed a).all fun c => !c.stage.creatingRefund || !a.answer.executes
      || s.file.booking.status != .completed)

/-- The refund of the gateway is recorded, and the booking is refunded. -/
structure RefundRecorded (f : BookingFile) (g : GatewayRefund) : Prop where
  row : ∃ r, f.refund = some r ∧ r.paymongoRefundId = some g.id ∧ r.status = g.status
  canceled : f.booking.status = .canceled
  refunded : f.booking.paymentStatus = .refunded

/-- Only paid bookings have a refund row. An executed refund has one and meets a booking that is
    not completed; a recorded one is the gateway's and belongs to a cancelled booking, as a
    cancelled paid booking has one. -/
structure RefundAgrees (f : BookingFile) (g : Option GatewayRefund) : Prop where
  paid : f.refund.isSome = true → f.booking.paymentMethod = .gcash
  reserved : g.isSome = true → f.refund.isSome = true
  executed : g.isSome = true → f.booking.status ≠ .completed
  recorded : ∀ r id, f.refund = some r → r.paymongoRefundId = some id →
    f.booking.status = .canceled ∧ g = some ⟨id, r.status⟩
  canceled : f.booking.paymentMethod = .gcash → f.booking.status = .canceled →
    (f.refund.bind (·.paymongoRefundId)).isSome = true

/-- A call has its row when it asks the gateway, and carries the gateway's refund to its
    finalization, or a recorded one. -/
def Stage.carries (f : BookingFile) (g : Option GatewayRefund) : Stage → Prop
  | .refundCreate _ _ => f.refund.isSome = true
  | .refundFinalize false id status _ => g = some ⟨id, status⟩
  | .refundFinalize true _ _ _ => f.booking.status = .canceled
  | _ => True

theorem BookingSystem.resumed_mem {s : BookingSystem} {a : Action} {c : Call}
    (h : s.resumed a = some c) : c ∈ s.calls := by
  cases a with
  | renumber => simp [BookingSystem.resumed] at h
  | step ctx st =>
      cases st with
      | resume k => exact List.mem_of_getElem? h
      | _ => simp [BookingSystem.resumed] at h

section Preservation

variable {s : BookingSystem} {a : Action} {f' : BookingFile} {g' : Option GatewayRefund}
  {next : Option Call} {C : BookingSystem → Action → Prop}

/-- The gateway keeps its refund. -/
theorem Event.gateway (h : Event s a f' g' next) (executed : s.gatewayRefund.isSome = true) :
    g' = s.gatewayRefund := by
  obtain ⟨g, hg⟩ := Option.isSome_iff_exists.mp executed
  cases h <;> simp [hg]

/-- The gateway executes a refund for a call that asks for it. -/
theorem Event.executes (h : Event s a f' g' next) (new : g' ≠ s.gatewayRefund) :
    f' = s.file ∧ ∃ c, s.resumed a = some c ∧ c.stage.creatingRefund = true
      ∧ a.answer.executes = true := by
  cases h with
  | refundExecuted found => exact ⟨rfl, _, found, rfl, rfl⟩
  | refundTimedOut found => exact ⟨rfl, _, found, rfl, rfl⟩
  | _ => exact absurd rfl new

/-- A paid booking is cancelled by a refund. -/
theorem Event.cancels (reached : refundMachine.ReachableUnder C s) (h : Event s a f' g' next)
    (paid : s.file.booking.paymentMethod = .gcash) (live : s.file.booking.status ≠ .canceled)
    (canceled : f'.booking.status = .canceled) :
    ∃ (k : Nat) (caller : Caller) (resumed : Bool) (id : GatewayId) (status : RefundStatus)
        (amount : Centavos),
      s.calls[k]? = some ⟨caller, .refundFinalize resumed id status amount⟩
      ∧ ∃ r, f'.refund = some r ∧ r.paymongoRefundId = some id ∧ r.status = status := by
  have known := reachable_encodes reached
  obtain ⟨l, e⟩ := known.file
  cases h with
  | requested run =>
      cases requestTransaction_status run with
      | kept same => exact absurd (same.1.symm.trans canceled) live
      | advanced _ after => simp [canceled, BookingStatus.advanced] at after
      | held _ after => simp [canceled, BookingStatus.frozen] at after
      | settled run =>
          obtain ⟨-, -, ⟨-, rfl⟩ | ⟨-, -, -, -, _, -, rfl⟩⟩ := settleCompletedBooking_ok run
          · exact absurd canceled live
          · simp [BookingFile.settled] at canceled
  | @committed ctx k answer call c found run =>
      have write := transaction_status run
      have unheld := known.calls _ (List.mem_of_getElem? found)
      obtain ⟨caller, stage⟩ := call
      cases write with
      | kept same => exact absurd (same.1.symm.trans canceled) live
      | held _ after => simp [canceled] at after
      | restored _ saved after =>
          obtain ⟨w, rfl⟩ := e.saved saved
          exact absurd (after.symm.trans canceled) w.status_live.2
      | @refunded resumed id status amount held after =>
          obtain ⟨already, -, -⟩ | ⟨-, -, -, ⟨r, row, -⟩, rfl⟩ := finalizeRefund_ok run
          · exact absurd already live
          · refine ⟨k, caller, resumed, id, status, amount, found,
              { r with status, paymongoRefundId := some id }, ?_, rfl, rfl⟩
            simp [BookingFile.refunded, row]
      | canceled cancellable after =>
          obtain cash | ended := e.unheld (unheld rfl)
          · simp [paid] at cash
          · have status := e.status
            have undeclined := (e.allowed paid).2
            cases l <;> simp_all [Lifecycle.terminal, Lifecycle.status, BookingStatus.uncancellable]
      | settled settled same =>
          subst same
          obtain ⟨-, -, ⟨-, rfl⟩ | ⟨-, -, -, -, _, -, rfl⟩⟩ := settleCompletedBooking_ok settled
          · exact absurd canceled live
          · simp [BookingFile.settled] at canceled
  | _ => exact absurd canceled live

/-- A settlement that completes a booking was open to its actor. -/
theorem settleCompletedBooking_open {ctx : Context} {actor : SettlementActor} {f : BookingFile}
    {c : Commit} (h : settleCompletedBooking ctx actor f = .ok c)
    (live : f.booking.status ≠ .completed) : settlementOpen actor f = true := by
  obtain ⟨idle, -, ⟨completed, -⟩ | ⟨allowed, disputed, valid, -⟩⟩ := settleCompletedBooking_ok h
  · exact absurd completed live
  simp only [settlementOpen, allowed, valid, Bool.and_true, Bool.and_eq_true, bne_iff_ne, ne_eq,
    Bool.or_eq_true, Bool.not_eq_true', beq_iff_eq]
  refine ⟨idle, ?_⟩
  cases actor with
  | seeker => exact .inl (.inl rfl)
  | admin =>
      cases frozen : f.booking.status.frozen with
      | false => exact .inl (.inr rfl)
      | true => exact .inr (disputed rfl frozen)

/-- The three parts of an undisturbed step. -/
theorem refundUndisturbed_iff : refundUndisturbed s a = true ↔
    (∀ c, s.resumed a = some c → c.stage = .refundCaught →
        s.file.refund.bind (·.paymongoRefundId) = none)
      ∧ (∀ actor, s.settler a = some actor → s.gatewayRefund.isSome = true →
        settlementOpen actor s.file = false)
      ∧ (∀ c, s.resumed a = some c → c.stage.creatingRefund = true → a.answer.executes = true →
        s.file.booking.status ≠ .completed) := by
  simp only [refundUndisturbed]
  cases s.gatewayRefund <;> cases s.resumed a <;> cases s.settler a <;> simp <;> grind

theorem Event.keeps_recorded (h : Event s a f' g' next) (undisturbed : refundUndisturbed s a = true)
    {r : PaymentRefund} {id : GatewayId} (row : s.file.refund = some r)
    (recorded : r.paymongoRefundId = some id)
    (unheld : s.file.booking.paymentStatus.held = false) : f'.refund = some r := by
  obtain ⟨certain, -, -⟩ := refundUndisturbed_iff.mp undisturbed
  cases h.refund_write with
  | kept same => rw [same, row]
  | reserved _ _ _ unrecorded => simp [row, recorded] at unrecorded
  | finalized _ _ _ held => simp [held] at unheld
  | failed resumed caught =>
      have := certain _ resumed caught
      simp [row, recorded] at this

theorem Encodes.canceled_unheld {f : BookingFile} {l : Lifecycle} (e : Encodes f l)
    (canceled : f.booking.status = .canceled) : f.booking.paymentStatus.held = false := by
  by_contra held
  obtain ⟨-, live⟩ := e.held (by simpa using held)
  obtain rfl := e.of_canceled canceled
  simp [Lifecycle.terminal] at live

theorem Event.keeps_row (h : Event s a f' g' next) (row : s.file.refund.isSome = true) :
    f'.refund.isSome = true := by
  cases h.refund_write with
  | kept same => rw [same, row]
  | reserved written => simp [written]
  | finalized _ _ written => simp [written]
  | failed _ _ file =>
      subst file
      simpa [recordRefundFailure] using row

theorem Event.next_carries (h : Event s a f' g' next) (agrees : RefundAgrees s.file s.gatewayRefund)
    {c : Call} (hc : next = some c) : c.stage.carries f' g' := by
  cases h with
  | requested run =>
      have opening := requestTransaction_opening run hc
      obtain ⟨caller, stage⟩ := c
      cases stage <;> simp [Stage.opening, Stage.carries] at opening ⊢
  | @committed _ _ _ call _ found run =>
      obtain ⟨-, flow⟩ := transaction_next run hc
      obtain ⟨caller, stage⟩ := call
      obtain ⟨_, stage'⟩ := c
      cases flow with
      | reserved opening => cases stage' <;> simp [Stage.opening, Stage.carries] at opening ⊢
      | refundResumed =>
          obtain ⟨-, -, ⟨r, id, row, recorded, rfl⟩ | ⟨-, rfl⟩ | ⟨-, -, rfl⟩⟩ := reserveRefund_ok run
          · exact (agrees.recorded r id row recorded).1
          · cases hc
          · cases hc
      | refundReserved =>
          obtain ⟨-, -, ⟨_, _, -, -, rfl⟩ | ⟨processing, rfl⟩ | ⟨-, -, rfl⟩⟩ := reserveRefund_ok run
          · cases hc
          · cases row : s.file.refund <;> simp [row] at processing
            simp [Stage.carries, row]
          · rfl
      | _ => trivial
  | aborted | refundCaught =>
      rw [unwound_eq hc]
      trivial
  | refundExecuted =>
      cases hc
      rfl
  | refundCalled | refundTimedOut | refundFailed =>
      cases hc
      trivial
  | markedFailed | stopped | renumbered => cases hc

theorem refund_agrees (h : refundMachine.ReachableUnder (fun s a => refundUndisturbed s a = true) s) :
    Coupled RefundAgrees (fun f g c => c.stage.carries f g) s := by
  refine Coupled.reachableUnder (fun f new => ?_) ?_ h
  · cases new <;> exact ⟨by simp [Terms.cashRequest, Terms.cashOffer, Terms.paidCapture], by simp,
      by simp, by simp [Terms.cashRequest, Terms.cashOffer, Terms.paidCapture],
      by simp [Terms.cashRequest, Terms.cashOffer, Terms.paidCapture]⟩
  intro s a f' g' next reached hs undisturbed event
  obtain ⟨l, e, refines⟩ := event.reachable_refines reached
  obtain ⟨certain, unsettled, incomplete⟩ := refundUndisturbed_iff.mp undisturbed
  have canceled : s.file.booking.status = .canceled → f'.booking.status = .canceled :=
    refines.canceled e
  constructor
  · constructor
    · intro stored
      rw [event.sameTerms.paymentMethod]
      cases event.refund_write with
      | kept same => exact hs.file.paid (same ▸ stored)
      | reserved _ _ _ _ _ held => exact (e.held held).1
      | finalized _ row => exact hs.file.paid (by simp [row])
      | failed _ _ file =>
          subst file
          exact hs.file.paid (by simpa [recordRefundFailure] using stored)
    · intro executed
      by_cases new : g' = s.gatewayRefund
      · exact event.keeps_row (hs.file.reserved (new ▸ executed))
      · obtain ⟨rfl, c, resumed, creating, -⟩ := event.executes new
        have carries := hs.calls c (BookingSystem.resumed_mem resumed)
        obtain ⟨caller, stage⟩ := c
        cases stage with
        | refundCreate => exact carries
        | _ => simp [Stage.creatingRefund] at creating
    · intro executed completed
      by_cases new : g' = s.gatewayRefund
      · rw [new] at executed
        obtain ⟨ctx, actor, c, settler, settled⟩ :=
          event.completes e (hs.file.executed executed) completed
        have open_ := settleCompletedBooking_open settled (hs.file.executed executed)
        simp [unsettled actor settler executed] at open_
      · obtain ⟨rfl, c, resumed, creating, executes⟩ := event.executes new
        exact incomplete c resumed creating executes completed
    · intro r id row recorded
      cases event.refund_write with
      | kept same =>
          obtain ⟨before, stored⟩ := hs.file.recorded r id (same ▸ row) recorded
          exact ⟨canceled before, (event.gateway (by simp [stored])).trans stored⟩
      | reserved written _ blank =>
          obtain rfl := Option.some.inj (written.symm.trans row)
          simp [blank] at recorded
      | @finalized k caller resumed id' status amount r' found _ written held after =>
          obtain rfl := Option.some.inj (written.symm.trans row)
          obtain rfl : id' = id := by simpa using recorded
          have carries := hs.calls _ (List.mem_of_getElem? found)
          cases resumed with
          | true => simp [e.canceled_unheld carries] at held
          | false => exact ⟨after, (event.gateway (by rw [carries]; rfl)).trans carries⟩
      | failed resumed caught file =>
          have unrecorded := certain _ resumed caught
          subst file
          cases before : s.file.refund with
          | none => simp [recordRefundFailure, before] at row
          | some r' =>
              simp only [recordRefundFailure, before, Option.map_some, Option.some.injEq] at row
              simp [before, ← row] at unrecorded recorded
              simp [unrecorded] at recorded
    · intro paid after
      rw [event.sameTerms.paymentMethod] at paid
      by_cases before : s.file.booking.status = .canceled
      · have some_id := hs.file.canceled paid before
        cases row : s.file.refund with
        | none => simp [row] at some_id
        | some r =>
            obtain ⟨id, recorded⟩ : ∃ id, r.paymongoRefundId = some id := by
              simpa [row, Option.isSome_iff_exists] using some_id
            rw [event.keeps_recorded undisturbed row recorded (e.canceled_unheld before)]
            simp [recorded]
      · obtain ⟨_, _, _, id, _, _, -, r, row, recorded, -⟩ := event.cancels reached paid before after
        simp [row, recorded]
  · intro c _ carries
    obtain ⟨caller, stage⟩ := c
    cases stage with
    | refundCreate => exact event.keeps_row carries
    | refundFinalize resumed =>
        cases resumed with
        | true => exact canceled carries
        | false => exact (event.gateway (by rw [carries]; rfl)).trans carries
    | _ => trivial
  · exact fun c hc => event.next_carries hs.file hc

/-- Once recorded, the refund row is never written again and the booking stays refunded. -/
theorem recorded_refund_stays {t : BookingSystem} {r : PaymentRefund} {id : GatewayId}
    (reached : refundMachine.ReachableUnder (fun s a => refundUndisturbed s a = true) s)
    (row : s.file.refund = some r) (recorded : r.paymongoRefundId = some id)
    (run : refundMachine.RunUnder (fun s a => refundUndisturbed s a = true) s t) :
    t.file.refund = some r ∧ t.file.booking.status = .canceled
      ∧ t.file.booking.paymentStatus = .refunded ∧ t.gatewayRefund = some ⟨id, r.status⟩ := by
  have stays : refundMachine.ReachableUnder (fun s a => refundUndisturbed s a = true) t
      ∧ t.file.refund = some r := by
    induction run with
    | refl => exact ⟨reached, row⟩
    | step _ undisturbed hn ih =>
        obtain ⟨reached, row⟩ := ih
        obtain ⟨next, event, -⟩ := BookingSystem.next_event hn
        obtain ⟨l, e⟩ := (reachable_encodes reached).file
        have canceled := ((refund_agrees reached).file.recorded r id row recorded).1
        exact ⟨reached.next undisturbed hn,
          event.keeps_recorded undisturbed row recorded (e.canceled_unheld canceled)⟩
  obtain ⟨reached, row⟩ := stays
  obtain ⟨canceled, stored⟩ := (refund_agrees reached).file.recorded r id row recorded
  refine ⟨row, canceled, ?_, stored⟩
  obtain ⟨l, e⟩ := (reachable_encodes reached).file
  obtain rfl := e.of_canceled canceled
  rw [e.payment, (refund_agrees reached).file.paid (by simp [row])]
  rfl

end Preservation

section Retry

variable {f : BookingFile} {g : Option GatewayRefund} {cs : List Call}

/-- The last call commits its transaction and goes on. -/
theorem resume_last {ctx : Context} {answer : Answer} {c next : Call} {commit : Commit}
    (run : c.transaction ctx answer f = .ok commit) (goes : commit.continues = some next) :
    bookingNext ⟨f, cs ++ [c], g⟩ (.step ctx (.resume cs.length answer))
      = some ⟨commit.file, cs ++ [next], g⟩ := by
  obtain ⟨caller, stage⟩ := c
  cases stage with
  | refundCreate | refundCaught | markFailed => simp [Call.transaction] at run
  | _ => simp [bookingNext, BookingSystem.step, BookingSystem.resume, run, goes,
      BookingSystem.proceed]

theorem resume_last_returns {ctx : Context} {answer : Answer} {c : Call} {commit : Commit}
    (run : c.transaction ctx answer f = .ok commit) (returns : commit.continues = none) :
    bookingNext ⟨f, cs ++ [c], g⟩ (.step ctx (.resume cs.length answer))
      = some ⟨commit.file, cs, g⟩ := by
  obtain ⟨caller, stage⟩ := c
  cases stage with
  | refundCreate | refundCaught | markFailed => simp [Call.transaction] at run
  | _ => simp [bookingNext, BookingSystem.step, BookingSystem.resume, run, returns,
      BookingSystem.proceed, List.eraseIdx_append_of_length_le]

/-- A further call of `refundBookingPayment` that runs alone; the gateway answers. -/
def furtherRefund (ctx : Context) (requestedById : UserId) (intent : Intent) (answer : GatewayRefund)
    (k : Nat) : List Action :=
  [.step ctx (.refund requestedById), .step ctx (.resume k .none), .step ctx (.resume k .none),
    .step ctx (.resume k (.intent intent)), .step ctx (.resume k .none),
    .step ctx (.resume k (.refunded answer)), .step ctx (.resume k .none)]

/-- The reservation of a live paid booking without a recorded refund leads to the gateway. -/
theorem reserveRefund_open (caller : Caller) (paymentId : GatewayId) (amount : Centavos)
    {l : Lifecycle} (e : Encodes f l) (live : l.terminal = false) (paid : f.booking.paymentMethod = .gcash)
    (unrecorded : f.refund.bind (·.paymongoRefundId) = none) :
    ∃ r, r.status = .processing ∧ r.paymongoRefundId = none
      ∧ reserveRefund caller paymentId amount f = .ok {
        file := { f with refund := some r }
        continues := some ⟨caller, .refundCreate paymentId amount⟩ } := by
  have held := e.paid_held paid live
  have fresh : f.completedService.isSome = false := by
    rw [e.completedService]
    cases l <;> simp [Lifecycle.isCompleted, Lifecycle.terminal] at live ⊢
  have status : f.booking.status ≠ .completed := by
    intro completed
    rw [e.of_completed completed] at live
    simp [Lifecycle.terminal] at live
  have open_ : f.booking.paymentStatus ≠ .released ∧ f.booking.paymentStatus ≠ .cashConfirmed := by
    constructor <;> intro h <;> simp [h, PaymentStatus.held] at held
  cases row : f.refund with
  | none =>
      refine ⟨⟨paymentId, none, amount, .processing⟩, rfl, rfl, ?_⟩
      simp [reserveRefund, Guard.rejectIf, fresh, status, open_, row, held, bind, Except.bind, pure,
        Except.pure]
  | some r =>
      have blank : r.paymongoRefundId = none := by simpa [row] using unrecorded
      by_cases processing : r.status = .processing
      · have same : ({ f with refund := some r } : BookingFile) = f := by rw [← row]
        refine ⟨r, processing, blank, ?_⟩
        simp [same, reserveRefund, Guard.rejectIf, fresh, status, open_, row, blank, processing, bind,
          Except.bind, pure, Except.pure]
      · refine ⟨⟨paymentId, none, amount, .processing⟩, rfl, rfl, ?_⟩
        simp [reserveRefund, Guard.rejectIf, fresh, status, open_, row, blank, processing, held, bind,
          Except.bind, pure, Except.pure]

theorem finalizeRefund_open (caller : Caller) (id : GatewayId) (status : RefundStatus)
    (amount : Centavos) {l : Lifecycle} {r : PaymentRefund} (e : Encodes f l)
    (live : l.terminal = false) (paid : f.booking.paymentMethod = .gcash)
    (row : f.refund = some r) (processing : r.status = .processing) :
    ∃ c, finalizeRefund caller false id status amount f = .ok c ∧ c.continues = caller.afterRefund
      ∧ RefundRecorded c.file ⟨id, status⟩ := by
  have held := e.paid_held paid live
  obtain ⟨q, queued, -, -⟩ := e.queued paid
  have fresh : f.completedService.isSome = false := by
    rw [e.completedService]
    cases l <;> simp [Lifecycle.isCompleted, Lifecycle.terminal] at live ⊢
  have empty : f.transactions = [] := by
    have ledger := e.ledger
    cases l <;> simp_all [Lifecycle.ledger, Lifecycle.terminal]
  have status_live : f.booking.status ≠ .completed ∧ f.booking.status ≠ .canceled := by
    constructor <;> intro h
    · rw [e.of_completed h] at live
      simp [Lifecycle.terminal] at live
    · rw [e.of_canceled h] at live
      simp [Lifecycle.terminal] at live
  refine ⟨{
    file := { f.refunded id status with transactions := f.refundLedger id amount }
    continues := caller.afterRefund
    recalculates := true
    requestStatus := some .canceled }, ?_, rfl, ?_⟩
  · simp [finalizeRefund, Guard.rejectIf, queued, status_live, fresh, held, row, processing, empty,
      BookingFile.createTransaction, BookingFile.refunded, BookingFile.refundLedger, bind, Except.bind,
      pure, Except.pure]
  · exact ⟨⟨{ r with status, paymongoRefundId := some id }, by simp [BookingFile.refunded, row], rfl,
      rfl⟩, rfl, rfl⟩

/-- Whenever the gateway has executed the refund, it is recorded or a further call records it. -/
theorem executed_refund_converges {s : BookingSystem} {executed : GatewayRefund}
    (reached : refundMachine.ReachableUnder (fun s a => refundUndisturbed s a = true) s)
    (stored : s.gatewayRefund = some executed) (ctx : Context) (requestedById : UserId)
    (intent : Intent) (captured : intent.succeeded = true ∧ intent.paymentId.isSome = true)
    (answer : GatewayRefund) :
    RefundRecorded s.file executed
      ∨ ∃ t, refundMachine.exec s (furtherRefund ctx requestedById intent answer s.calls.length) = some t
        ∧ RefundRecorded t.file executed := by
  obtain ⟨l, e⟩ := (reachable_encodes reached).file
  have agrees := (refund_agrees reached).file
  obtain ⟨f, cs, g⟩ := s
  dsimp only at e agrees stored
  subst stored
  have paid := agrees.paid (agrees.reserved rfl)
  by_cases canceled : f.booking.status = .canceled
  · refine .inl ?_
    have recorded := agrees.canceled paid canceled
    cases row : f.refund with
    | none => simp [row] at recorded
    | some r =>
        obtain ⟨id, recorded⟩ : ∃ id, r.paymongoRefundId = some id := by
          simpa [row, Option.isSome_iff_exists] using recorded
        have stored := (agrees.recorded r id row recorded).2
        simp only [Option.some.injEq] at stored
        subst stored
        refine ⟨⟨r, row, recorded, rfl⟩, canceled, ?_⟩
        obtain rfl := e.of_canceled canceled
        rw [e.payment, paid]
        rfl
  refine .inr ?_
  have live : l.terminal = false := by
    have completed := agrees.executed rfl
    have undeclined := (e.allowed paid).2
    have status := e.status
    cases l <;> simp_all [Lifecycle.terminal, Lifecycle.status]
  have unrecorded : f.refund.bind (·.paymongoRefundId) = none := by
    cases row : f.refund with
    | none => rfl
    | some r =>
        cases recorded : r.paymongoRefundId with
        | none => exact recorded
        | some id => exact absurd (agrees.recorded r id row recorded).1 canceled
  obtain ⟨q, queued, -, -⟩ := e.queued paid
  have held := e.paid_held paid live
  obtain ⟨succeeded, present⟩ := captured
  obtain ⟨paymentId, known⟩ : ∃ p, q.paymongoPaymentId.or intent.paymentId = some p := by
    obtain ⟨p, hp⟩ := Option.isSome_iff_exists.mp present
    cases q.paymongoPaymentId <;> simp [hp]
  let caller := Caller.refundBookingPayment requestedById
  have read : readRefundBooking caller f
      = .ok { file := f, continues := some ⟨caller, .refundExisting f.booking q⟩ } := by
    simp [readRefundBooking, Guard.orThrow, queued, bind, Except.bind, pure, Except.pure]
  have existing : readExistingRefund caller f.booking q f
      = .ok { file := f, continues := some ⟨caller, .refundIntent q⟩ } := by
    have unsubmitted : f.refund.any (·.paymongoRefundId.isSome) = false := by
      cases row : f.refund <;> simp_all
    simp [readExistingRefund, unsubmitted, held, Guard.rejectIf, bind, Except.bind, pure, Except.pure]
  have checked : Call.transaction ctx (.intent intent) ⟨caller, .refundIntent q⟩ f
      = .ok { file := f, continues := some ⟨caller, .refundReserve paymentId intent.amount⟩ } := by
    simp [Call.transaction, checkRefundIntent, Guard.orThrow, Guard.rejectIf, known, succeeded, bind, Except.bind, pure,
      Except.pure]
  obtain ⟨r, processing, blank, reserved⟩ :=
    reserveRefund_open caller paymentId intent.amount e live paid unrecorded
  have e' : Encodes { f with refund := some r } l := e.same ⟨rfl, rfl, rfl, rfl⟩
  obtain ⟨commit, finalized, returns, recorded⟩ :=
    finalizeRefund_open caller executed.id executed.status intent.amount e' live paid rfl processing
  refine ⟨⟨commit.file, cs, some executed⟩, ?_, recorded⟩
  let at_ (f : BookingFile) (stage : Stage) : BookingSystem :=
    ⟨f, cs ++ [⟨caller, stage⟩], some executed⟩
  have called : bookingNext ⟨f, cs, some executed⟩ (.step ctx (.refund requestedById))
      = some (at_ f .refundRead) := rfl
  have s₁ : bookingNext (at_ f .refundRead) (.step ctx (.resume cs.length .none))
      = some (at_ f (.refundExisting f.booking q)) := resume_last (c := ⟨caller, .refundRead⟩) read rfl
  have s₂ : bookingNext (at_ f (.refundExisting f.booking q)) (.step ctx (.resume cs.length .none))
      = some (at_ f (.refundIntent q)) :=
    resume_last (c := ⟨caller, .refundExisting f.booking q⟩) existing rfl
  have s₃ : bookingNext (at_ f (.refundIntent q)) (.step ctx (.resume cs.length (.intent intent)))
      = some (at_ f (.refundReserve paymentId intent.amount)) :=
    resume_last (c := ⟨caller, .refundIntent q⟩) checked rfl
  have s₄ : bookingNext (at_ f (.refundReserve paymentId intent.amount))
      (.step ctx (.resume cs.length .none))
      = some (at_ { f with refund := some r } (.refundCreate paymentId intent.amount)) :=
    resume_last (c := ⟨caller, .refundReserve paymentId intent.amount⟩) reserved rfl
  have s₅ : bookingNext (at_ { f with refund := some r } (.refundCreate paymentId intent.amount))
      (.step ctx (.resume cs.length (.refunded answer)))
      = some (at_ { f with refund := some r }
        (.refundFinalize false executed.id executed.status intent.amount)) := by
    simp [at_, bookingNext, BookingSystem.step, BookingSystem.resume, BookingSystem.proceed]
  have s₆ : bookingNext (at_ { f with refund := some r }
      (.refundFinalize false executed.id executed.status intent.amount))
      (.step ctx (.resume cs.length .none)) = some ⟨commit.file, cs, some executed⟩ :=
    resume_last_returns
      (c := ⟨caller, .refundFinalize false executed.id executed.status intent.amount⟩)
      finalized returns
  simp only [furtherRefund, Machine.exec, refundMachine, called, s₁, s₂, s₃, s₄, s₅, s₆,
    Option.bind_some]

end Retry

end ServiceHub
