import ServiceHub.Lib.Threads
import ServiceHub.Payment.Attempt
import ServiceHub.Booking.RefundConvergence

/-! # Repeated refunds of a captured attempt

Any number of calls of `refundCapturedAttempt` on one attempt. They converge as the
refunds of a booking do: while no failure is written over a refunded attempt, the
recorded refund stays and a further call records what the gateway has executed.
-/

namespace ServiceHub

structure AttemptRefunds where
  file : AttemptFile
  calls : List AttemptRefundStage := []
  gatewayRefund : Option GatewayRefund := none
  deriving Repr, DecidableEq

inductive AttemptRefundStep where
  | call
  | resume (k : Nat) (answer : Answer)
  | crash (k : Nat)
  deriving Repr, DecidableEq

def AttemptRefunds.step (s : AttemptRefunds) : AttemptRefundStep → Option AttemptRefunds
  | .call => some { s with calls := s.calls ++ [.read] }
  | .resume k answer =>
      (s.calls[k]?).bind fun stage =>
        (stage.resume answer s.gatewayRefund s.file).map fun (file, gatewayRefund, next) =>
          { file, gatewayRefund, calls := Threads.proceed s.calls k next }
  | .crash k =>
      if k < s.calls.length then some { s with calls := Threads.proceed s.calls k none } else none

/-- The calls on an attempt that a finalization left to be refunded. -/
def attemptRefundMachine : Machine AttemptRefunds AttemptRefundStep where
  initial s := s.file.attempt.status = .refundRequired ∧ s.file.refund = none ∧ s.calls = []
    ∧ s.gatewayRefund = none
  next := AttemptRefunds.step

/-- The call that the step resumes. -/
def AttemptRefunds.resumed (s : AttemptRefunds) : AttemptRefundStep → Option AttemptRefundStage
  | .resume k _ => s.calls[k]?
  | _ => none

/-- No failure is written over a refunded attempt. -/
def attemptUndisturbed (s : AttemptRefunds) (a : AttemptRefundStep) : Bool :=
  (s.resumed a).all fun stage => stage != .caught || s.file.attempt.status != .refunded

structure AttemptRefundRecorded (f : AttemptFile) (g : GatewayRefund) : Prop where
  row : ∃ r, f.refund = some r ∧ r.paymongoRefundId = some g.id ∧ r.status = g.status
  refunded : f.attempt.status = .refunded

/-- The attempt is refunded exactly when its row holds the gateway's refund; a row that holds none
    is reserved or failed. -/
structure AttemptAgrees (f : AttemptFile) (g : Option GatewayRefund) : Prop where
  status : f.attempt.status = .refundRequired ∨ f.attempt.status = .refunded
  captured : f.refund.isSome = true → f.attempt.providerPaymentId.isSome = true
  reserved : g.isSome = true → f.refund.isSome = true
  recorded : ∀ r id, f.refund = some r → r.paymongoRefundId = some id →
    f.attempt.status = .refunded ∧ g = some ⟨id, r.status⟩
  unrecorded : ∀ r, f.refund = some r → r.paymongoRefundId = none →
    f.attempt.status = .refundRequired ∧ r.status.done = false
  refunded : f.attempt.status = .refunded → f.refund.isSome = true

def AttemptRefundStage.carries (f : AttemptFile) (g : Option GatewayRefund) :
    AttemptRefundStage → Prop
  | .reserve _ _ => f.attempt.providerPaymentId.isSome = true
  | .create _ _ => f.refund.isSome = true
  | .record refund => g = some refund ∧ f.refund.isSome = true
  | .read | .caught => True

/-- An attempt whose row and calls agree with the gateway. -/
structure AttemptRefunds.Agrees (s : AttemptRefunds) : Prop where
  file : AttemptAgrees s.file s.gatewayRefund
  calls : ∀ stage ∈ s.calls, stage.carries s.file s.gatewayRefund

section Preservation

variable {s s' : AttemptRefunds} {a : AttemptRefundStep} {f f' : AttemptFile}
  {g g' : Option GatewayRefund} {stage : AttemptRefundStage} {next : Option AttemptRefundStage}

/-- One statement keeps the row's agreement, what other calls carry, and says what the call
    carries on. -/
theorem AttemptRefundStage.resume_agrees {answer : Answer}
    (h : stage.resume answer g f = some (f', g', next)) (agrees : AttemptAgrees f g)
    (carries : stage.carries f g)
    (certain : stage = .caught → f.attempt.status ≠ .refunded) :
    AttemptAgrees f' g' ∧ (∀ other : AttemptRefundStage, other.carries f g → other.carries f' g')
      ∧ ∀ c, next = some c → c.carries f' g' := by
  cases stage with
  | read =>
      simp only [resume, Option.some.injEq, Prod.mk.injEq] at h
      obtain ⟨rfl, rfl, rfl⟩ := h
      refine ⟨agrees, fun _ h => h, fun c hc => ?_⟩
      simp only [readCapturedAttempt] at hc
      split at hc
      · cases hc
      split at hc
      · cases hc
      obtain ⟨paymentId, known, rfl⟩ := Option.map_eq_some_iff.mp hc
      simp [AttemptRefundStage.carries, known]
  | reserve paymentId amount =>
      simp only [resume, reserveAttemptRefund, Option.some.injEq, Prod.mk.injEq] at h
      obtain ⟨rfl, rfl, rfl⟩ := h
      have going : ∀ c, (if (f.refund.getD ⟨paymentId, none, amount, .pending⟩).status.done = true then none
          else some (AttemptRefundStage.create paymentId amount)) = some c →
          c = .create paymentId amount := by
        intro c hc
        split at hc
        · cases hc
        · exact (Option.some.inj hc).symm
      rcases row : f.refund with _ | r
      case some =>
          have same : ({ f with refund := some r } : AttemptFile) = f := by rw [← row]
          simp only [row, Option.getD_some] at going ⊢
          rw [same]
          refine ⟨agrees, fun _ h => h, fun c hc => ?_⟩
          rw [going c hc]
          simp [AttemptRefundStage.carries, row]
      case none =>
          simp only [row, Option.getD_none] at going ⊢
          have pending : f.attempt.status = .refundRequired := by
            refine agrees.status.resolve_right fun refunded => ?_
            simpa [row] using agrees.refunded refunded
          have unexecuted : g = none := by
            cases g with
            | none => rfl
            | some _ => simpa [row] using agrees.reserved rfl
          subst unexecuted
          refine ⟨⟨.inl pending, fun _ => carries, fun _ => rfl, ?_, ?_, fun _ => rfl⟩, ?_, ?_⟩
          · rintro r id row recorded
            cases row
            cases recorded
          · rintro r row -
            cases row
            exact ⟨pending, rfl⟩
          · intro other h
            cases other <;> simp_all [AttemptRefundStage.carries]
          · intro c hc
            rw [going c hc]
            rfl
  | create paymentId amount =>
      have row : f.refund.isSome = true := carries
      have grown (refund : GatewayRefund) : AttemptAgrees f (some (g.getD refund)) := by
        refine ⟨agrees.status, agrees.captured, fun _ => row, ?_, agrees.unrecorded, agrees.refunded⟩
        intro r id hr recorded
        obtain ⟨refunded, stored⟩ := agrees.recorded r id hr recorded
        exact ⟨refunded, by simp [stored]⟩
      have kept (refund : GatewayRefund) (other : AttemptRefundStage) (h : other.carries f g) :
          other.carries f (some (g.getD refund)) := by
        cases other with
        | record => exact ⟨by simp [h.1], h.2⟩
        | _ => exact h
      cases answer with
      | refunded refund =>
          simp only [resume, Option.some.injEq, Prod.mk.injEq] at h
          obtain ⟨rfl, rfl, rfl⟩ := h
          refine ⟨grown refund, kept refund, ?_⟩
          rintro c ⟨⟩
          exact ⟨rfl, row⟩
      | timedOut refund =>
          simp only [resume, Option.some.injEq, Prod.mk.injEq] at h
          obtain ⟨rfl, rfl, rfl⟩ := h
          refine ⟨grown refund, kept refund, ?_⟩
          rintro c ⟨⟩
          trivial
      | failed =>
          simp only [resume, Option.some.injEq, Prod.mk.injEq] at h
          obtain ⟨rfl, rfl, rfl⟩ := h
          refine ⟨agrees, fun _ h => h, ?_⟩
          rintro c ⟨⟩
          trivial
      | none | intent => simp [resume] at h
  | record refund =>
      simp only [resume, Option.some.injEq, Prod.mk.injEq] at h
      obtain ⟨rfl, rfl, rfl⟩ := h
      obtain ⟨rfl, row⟩ := carries
      obtain ⟨r, hr⟩ := Option.isSome_iff_exists.mp row
      have captured := agrees.captured row
      refine ⟨⟨.inr rfl, fun _ => captured, by simp [recordAttemptRefund, row], ?_, ?_,
        by simp [recordAttemptRefund, row]⟩, ?_, by simp⟩
      · intro r' id row' recorded
        obtain rfl : _ = r' := by simpa [recordAttemptRefund, hr] using row'
        obtain rfl := Option.some.inj recorded
        exact ⟨rfl, rfl⟩
      · intro r' row' blank
        obtain rfl : _ = r' := by simpa [recordAttemptRefund, hr] using row'
        cases blank
      · intro other h
        cases other <;> simp_all [AttemptRefundStage.carries, recordAttemptRefund]
  | caught =>
      simp only [resume, Option.some.injEq, Prod.mk.injEq] at h
      obtain ⟨rfl, rfl, rfl⟩ := h
      have pending := agrees.status.resolve_right (certain rfl)
      refine ⟨⟨.inl pending, by simpa [recordAttemptRefundFailure] using agrees.captured,
        by simpa [recordAttemptRefundFailure] using agrees.reserved, ?_, ?_,
        fun refunded => absurd refunded (certain rfl)⟩, ?_, by simp⟩
      · intro r id row recorded
        obtain ⟨r', row', rfl⟩ := Option.map_eq_some_iff.mp row
        exact absurd (agrees.recorded r' id row' recorded).1 (certain rfl)
      · intro r row blank
        obtain ⟨r', row', rfl⟩ := Option.map_eq_some_iff.mp row
        exact ⟨pending, rfl⟩
      · intro other h
        cases other <;> simp_all [AttemptRefundStage.carries, recordAttemptRefundFailure]

theorem attemptUndisturbed_certain {k : Nat} {answer : Answer}
    (undisturbed : attemptUndisturbed s (.resume k answer) = true)
    (found : s.calls[k]? = some .caught) : s.file.attempt.status ≠ .refunded := by
  simpa [attemptUndisturbed, AttemptRefunds.resumed, found] using undisturbed

theorem AttemptRefunds.Agrees.preserved (h : s.Agrees) (undisturbed : attemptUndisturbed s a = true)
    (hn : s.step a = some s') : s'.Agrees := by
  cases a with
  | call =>
      simp only [AttemptRefunds.step, Option.some.injEq] at hn
      subst hn
      refine ⟨h.file, fun stage listed => ?_⟩
      obtain listed | rfl := by simpa using listed
      · exact h.calls stage listed
      · trivial
  | crash k =>
      simp only [AttemptRefunds.step] at hn
      split at hn
      · simp only [Option.some.injEq] at hn
        subst hn
        exact ⟨h.file, fun stage listed => h.calls stage (List.mem_of_mem_eraseIdx listed)⟩
      · cases hn
  | resume k answer =>
      simp only [AttemptRefunds.step, Option.bind_eq_some_iff, Option.map_eq_some_iff] at hn
      obtain ⟨stage, found, ⟨f', g', next⟩, run, rfl⟩ := hn
      obtain ⟨file, others, going⟩ := AttemptRefundStage.resume_agrees run h.file
        (h.calls stage (List.mem_of_getElem? found))
        (fun caught => attemptUndisturbed_certain undisturbed (caught ▸ found))
      refine ⟨file, fun c listed => ?_⟩
      obtain listed | hc := Threads.mem_proceed listed
      · exact others c (h.calls c listed)
      · exact going c hc

theorem attempt_refund_agrees
    (h : attemptRefundMachine.ReachableUnder (fun s a => attemptUndisturbed s a = true) s) :
    s.Agrees := by
  refine h.invariant (fun s start => ?_) fun s a s' agrees undisturbed hn => agrees.preserved undisturbed hn
  obtain ⟨pending, fresh, idle, unexecuted⟩ := start
  refine ⟨⟨.inl pending, ?_, ?_, ?_, ?_, ?_⟩, ?_⟩ <;> simp [pending, fresh, idle, unexecuted]

/-- A recorded refund is not rewritten. -/
theorem AttemptRefundStage.keeps_recorded {answer : Answer} {r : PaymentRefund} {id : GatewayId}
    (h : stage.resume answer g f = some (f', g', next)) (carries : stage.carries f g)
    (row : f.refund = some r) (recorded : r.paymongoRefundId = some id)
    (stored : g = some ⟨id, r.status⟩) (uncaught : stage ≠ .caught) : f'.refund = some r := by
  cases stage with
  | read =>
      simp only [resume, Option.some.injEq, Prod.mk.injEq] at h
      obtain ⟨rfl, -, -⟩ := h
      exact row
  | reserve =>
      simp only [resume, reserveAttemptRefund, Option.some.injEq, Prod.mk.injEq] at h
      obtain ⟨rfl, -, -⟩ := h
      simp [row]
  | create =>
      simp only [resume] at h
      split at h
      all_goals
        simp only [Option.some.injEq, Prod.mk.injEq, reduceCtorEq] at h
      all_goals
        obtain ⟨rfl, -, -⟩ := h
        exact row
  | record refund =>
      simp only [resume, Option.some.injEq, Prod.mk.injEq] at h
      obtain ⟨rfl, -, -⟩ := h
      obtain ⟨same, -⟩ := carries
      obtain rfl : refund = ⟨id, r.status⟩ := Option.some.inj (same.symm.trans stored)
      simp [recordAttemptRefund, row, ← recorded]
  | caught => exact absurd rfl uncaught

/-- Once recorded, the refund row is never written again and the attempt stays refunded. -/
theorem recorded_attempt_refund_stays {t : AttemptRefunds} {r : PaymentRefund} {id : GatewayId}
    (reached : attemptRefundMachine.ReachableUnder (fun s a => attemptUndisturbed s a = true) s)
    (row : s.file.refund = some r) (recorded : r.paymongoRefundId = some id)
    (run : attemptRefundMachine.RunUnder (fun s a => attemptUndisturbed s a = true) s t) :
    t.file.refund = some r ∧ t.file.attempt.status = .refunded
      ∧ t.gatewayRefund = some ⟨id, r.status⟩ := by
  have stays : attemptRefundMachine.ReachableUnder (fun s a => attemptUndisturbed s a = true) t
      ∧ t.file.refund = some r := by
    induction run with
    | refl => exact ⟨reached, row⟩
    | @step t u a _ undisturbed hn ih =>
        obtain ⟨reached, row⟩ := ih
        refine ⟨reached.next undisturbed hn, ?_⟩
        have agrees := attempt_refund_agrees reached
        obtain ⟨refunded, stored⟩ := agrees.file.recorded r id row recorded
        cases a with
        | call =>
            simp only [attemptRefundMachine, AttemptRefunds.step, Option.some.injEq] at hn
            subst hn
            exact row
        | crash k =>
            simp only [attemptRefundMachine, AttemptRefunds.step] at hn
            split at hn
            · simp only [Option.some.injEq] at hn
              subst hn
              exact row
            · cases hn
        | resume k answer =>
            simp only [attemptRefundMachine, AttemptRefunds.step, Option.bind_eq_some_iff,
              Option.map_eq_some_iff] at hn
            obtain ⟨stage, found, ⟨f', g', next⟩, run, rfl⟩ := hn
            refine stage.keeps_recorded run (agrees.calls stage (List.mem_of_getElem? found)) row
              recorded stored ?_
            rintro rfl
            exact attemptUndisturbed_certain undisturbed found refunded
  obtain ⟨reached, row⟩ := stays
  exact ⟨row, (attempt_refund_agrees reached).file.recorded r id row recorded⟩

/-- A further call of `refundCapturedAttempt` that runs alone; the gateway answers. -/
def furtherAttemptRefund (answer : GatewayRefund) (k : Nat) : List AttemptRefundStep :=
  [.call, .resume k .none, .resume k .none, .resume k (.refunded answer), .resume k .none]

/-- Whenever the gateway has executed the refund, it is recorded or a further call records it. -/
theorem executed_attempt_refund_converges {executed : GatewayRefund}
    (reached : attemptRefundMachine.ReachableUnder (fun s a => attemptUndisturbed s a = true) s)
    (stored : s.gatewayRefund = some executed) (answer : GatewayRefund) :
    AttemptRefundRecorded s.file executed
      ∨ ∃ t, attemptRefundMachine.exec s (furtherAttemptRefund answer s.calls.length) = some t
        ∧ AttemptRefundRecorded t.file executed := by
  have agrees := (attempt_refund_agrees reached).file
  obtain ⟨r, row⟩ := Option.isSome_iff_exists.mp (agrees.reserved (by simp [stored]))
  cases recorded : r.paymongoRefundId with
  | some id =>
      obtain ⟨refunded, same⟩ := agrees.recorded r id row recorded
      obtain rfl := Option.some.inj (stored.symm.trans same)
      exact .inl ⟨⟨r, row, recorded, rfl⟩, refunded⟩
  | none =>
      obtain ⟨pending, unfinished⟩ := agrees.unrecorded r row recorded
      obtain ⟨paymentId, captured⟩ := Option.isSome_iff_exists.mp (agrees.captured (by simp [row]))
      obtain ⟨f, calls, g⟩ := s
      dsimp only at stored row pending captured
      subst stored
      refine .inr ⟨⟨recordAttemptRefund executed f, calls, some executed⟩, ?_,
        ⟨⟨{ r with paymongoRefundId := some executed.id, status := executed.status },
          by simp [recordAttemptRefund, row], rfl, rfl⟩, rfl⟩⟩
      have reserved : reserveAttemptRefund paymentId f.attempt.amount f
          = (f, some (.create paymentId f.attempt.amount)) := by
        have same : ({ f with refund := some r } : AttemptFile) = f := by rw [← row]
        simp [reserveAttemptRefund, row, unfinished, same]
      simp [furtherAttemptRefund, Machine.exec, attemptRefundMachine, AttemptRefunds.step,
        AttemptRefundStage.resume, Threads.proceed, readCapturedAttempt, pending, captured,
        reserved, List.eraseIdx_append_of_length_le]

end Preservation

/-- Repeated refunds converge: of a booking while its refunds are undisturbed, and of a captured
    attempt while no failure is written over its refund. -/
theorem concurrent_refunds_converge {b b' : BookingSystem} {a a' : AttemptRefunds}
    (booking : refundMachine.ReachableUnder (fun s a => refundUndisturbed s a = true) b)
    (bookingRun : refundMachine.RunUnder (fun s a => refundUndisturbed s a = true) b b')
    (attempt : attemptRefundMachine.ReachableUnder (fun s a => attemptUndisturbed s a = true) a)
    (attemptRun : attemptRefundMachine.RunUnder (fun s a => attemptUndisturbed s a = true) a a') :
    (∀ r id, b.file.refund = some r → r.paymongoRefundId = some id →
      b'.file.refund = some r ∧ b'.file.booking.status = .canceled
        ∧ b'.file.booking.paymentStatus = .refunded)
    ∧ (∀ executed, b.gatewayRefund = some executed →
      ∀ (ctx : Context) (requestedById : UserId) (intent : Intent) (answer : GatewayRefund),
        intent.succeeded = true ∧ intent.paymentId.isSome = true →
        RefundRecorded b.file executed
          ∨ ∃ t, refundMachine.exec b (furtherRefund ctx requestedById intent answer b.calls.length)
              = some t ∧ RefundRecorded t.file executed)
    ∧ (∀ r id, a.file.refund = some r → r.paymongoRefundId = some id →
      a'.file.refund = some r ∧ a'.file.attempt.status = .refunded)
    ∧ (∀ executed, a.gatewayRefund = some executed → ∀ answer : GatewayRefund,
        AttemptRefundRecorded a.file executed
          ∨ ∃ t, attemptRefundMachine.exec a (furtherAttemptRefund answer a.calls.length) = some t
            ∧ AttemptRefundRecorded t.file executed) := by
  refine ⟨fun r id row recorded => ?_, fun executed stored ctx requestedById intent answer captured => ?_,
    fun r id row recorded => ?_, fun executed stored answer => ?_⟩
  · obtain ⟨kept, canceled, refunded, -⟩ := recorded_refund_stays booking row recorded bookingRun
    exact ⟨kept, canceled, refunded⟩
  · exact executed_refund_converges booking stored ctx requestedById intent captured answer
  · obtain ⟨kept, refunded, -⟩ := recorded_attempt_refund_stays attempt row recorded attemptRun
    exact ⟨kept, refunded⟩
  · exact executed_attempt_refund_converges attempt stored answer

/-- A call of `refundBookingPayment` until it asks the gateway for the refund. -/
def sampleRefundCall (k : Nat) : List Step :=
  [.refund 1, .resume k .none, .resume k .none, .resume k (.intent ⟨true, some 200, 50000⟩),
    .resume k .none]

def sampleAttempt : AttemptRefunds where
  file := { attempt := {
    seekerId := 1, providerId := 2, serviceId := some 1, quantity := 1, offerId := none
    amount := 50000, commissionRateBps := 1000, platformFeeAmount := 5000
    providerNetAmount := some 45000, transportationFee := none, estimatedDurationMins := some 60
    expiresAt := 900, status := .refundRequired, providerIntentId := some 100
    providerPaymentId := some 200 } }

theorem sampleAttempt_initial : attemptRefundMachine.initial sampleAttempt := ⟨rfl, rfl, rfl, rfl⟩

/-- One call of `refundBookingPayment` that records the gateway's refund. -/
def sampleRecording : List Step :=
  sampleRefundCall 0 ++ [.resume 0 (.refunded sampleRefund), .resume 0 .none]

/-- Two calls share the refund row; the second one loses the gateway's answer before the first
    one records it. -/
def sampleSharedAttempt : List AttemptRefundStep :=
  [.call, .call, .resume 0 .none, .resume 1 .none, .resume 0 .none, .resume 1 .none,
    .resume 1 (.timedOut sampleRefund), .resume 1 .none, .resume 0 (.refunded sampleRefund),
    .resume 0 .none]

/-- A further call on each of them, after the refunds are recorded. -/
theorem concurrent_refunds_converge_later : ∃ b b' a a',
    refundMachine.execUnder refundUndisturbed samplePaid (sampleRecording.map (.step sampleContext))
      = some b
    ∧ refundMachine.execUnder refundUndisturbed b
        ([.refund 1, .resume 0 .none, .resume 0 .none].map (.step sampleContext)) = some b'
    ∧ attemptRefundMachine.execUnder attemptUndisturbed sampleAttempt sampleSharedAttempt = some a
    ∧ attemptRefundMachine.execUnder attemptUndisturbed a [.call, .resume 0 .none] = some a'
    ∧ b'.file.refund = b.file.refund ∧ b'.file.booking.paymentStatus = .refunded
    ∧ a'.file.refund = a.file.refund ∧ a'.file.attempt.status = .refunded := by
  obtain ⟨b, booking, row, again⟩ := sample_any (o := refundMachine.execUnder refundUndisturbed samplePaid
    (sampleRecording.map (.step sampleContext)))
    (p := fun b => b.file.refund = some ⟨200, some 300, 50000, .succeeded⟩
      ∧ (refundMachine.execUnder refundUndisturbed b
        ([.refund 1, .resume 0 .none, .resume 0 .none].map (.step sampleContext))).isSome = true) (by decide)
  obtain ⟨a, attempt, recorded, repeated⟩ := sample_any
    (o := attemptRefundMachine.execUnder attemptUndisturbed sampleAttempt sampleSharedAttempt)
    (p := fun a => a.file.refund = some ⟨200, some 300, 50000, .succeeded⟩
      ∧ (attemptRefundMachine.execUnder attemptUndisturbed a [.call, .resume 0 .none]).isSome = true) (by decide)
  obtain ⟨b', bookingRun⟩ := Option.isSome_iff_exists.mp again
  obtain ⟨a', attemptRun⟩ := Option.isSome_iff_exists.mp repeated
  obtain ⟨keptBooking, -, keptAttempt, -⟩ := concurrent_refunds_converge
    ⟨_, samplePaid_initial, .of_execUnder (fun _ _ h => h) booking⟩ (.of_execUnder (fun _ _ h => h) bookingRun)
    ⟨_, sampleAttempt_initial, .of_execUnder (fun _ _ h => h) attempt⟩ (.of_execUnder (fun _ _ h => h) attemptRun)
  obtain ⟨sameBooking, -, refunded⟩ := keptBooking _ _ row rfl
  obtain ⟨sameAttempt, returned⟩ := keptAttempt _ _ recorded rfl
  exact ⟨b, b', a, a', booking, bookingRun, attempt, attemptRun, sameBooking.trans row.symm, refunded,
    sameAttempt.trans recorded.symm, returned⟩

/-- Two calls share the reserved row: the first one records the gateway's success, and the catch
    block of the second, whose answer was lost, overwrites it. -/
def sampleOverwrite : List Step :=
  sampleRefundCall 0 ++ sampleRefundCall 1
    ++ [.resume 1 (.timedOut sampleRefund), .resume 0 (.refunded sampleRefund), .resume 0 .none]

theorem recorded_refund_overwritten : ∃ s t, sampleRun sampleOverwrite = some s
    ∧ refundMachine.Reachable s ∧ s.file.refund = some ⟨200, some 300, 50000, .succeeded⟩
    ∧ refundMachine.next s (.step sampleContext (.resume 0 .none)) = some t
    ∧ t.file.booking.status = .canceled
    ∧ t.file.refund = some ⟨200, some 300, 50000, .failed⟩ := by
  obtain ⟨s, run, recorded, overwritten⟩ := sample_any (o := sampleRun sampleOverwrite)
    (p := fun s => s.file.refund = some ⟨200, some 300, 50000, .succeeded⟩
      ∧ (refundMachine.next s (.step sampleContext (.resume 0 .none))).map
          (fun t => (t.file.booking.status, t.file.refund))
        = some (.canceled, some ⟨200, some 300, 50000, .failed⟩)) (by decide)
  obtain ⟨t, next, written⟩ := Option.map_eq_some_iff.mp overwritten
  obtain ⟨canceled, failed⟩ := Prod.mk.inj written
  exact ⟨s, t, run, sampleRun_reachable run, recorded, next, canceled, failed⟩

end ServiceHub
