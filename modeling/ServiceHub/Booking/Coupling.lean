import ServiceHub.Booking.Refinement

/-! # Booking, payment, queue and ledger of a paid booking

The redundant columns of a booking paid online agree in every reachable state, because
they encode one lifecycle state.
-/

namespace ServiceHub

/-- The status, or the saved one while the booking is on hold. -/
def Booking.effectiveStatus (b : Booking) : Option BookingStatus :=
  if b.status.frozen then b.statusBeforeDispute else some b.status

def BookingFile.countTransactions (f : BookingFile) (t : TransactionType) : Nat :=
  (f.transactions.map (·.type)).count t

/-- What the tables of a paid booking say about each other. -/
structure PaidColumns (f : BookingFile) (q : Queue) : Prop where
  payment : f.booking.paymentStatus = q.paymentStatus
  working : f.booking.status = .accepted ∨ f.booking.status = .ongoing
      ∨ f.booking.status = .awaitingConfirmation → f.booking.paymentStatus = .paidHeld
  disputed : f.booking.status = .disputed → f.booking.paymentStatus = .frozenHeld
  underReview : f.booking.status = .underReview →
    f.booking.paymentStatus = .paidHeld ∨ f.booking.paymentStatus = .frozenHeld
  completed : f.booking.status = .completed ↔ f.booking.paymentStatus = .released
  canceled : f.booking.status = .canceled ↔ f.booking.paymentStatus = .refunded
  waiting : q.status = .waiting ↔ f.booking.effectiveStatus = some .accepted
  serving : q.status = .serving ↔ f.booking.effectiveStatus = some .ongoing
  done : q.status = .done ↔ f.booking.effectiveStatus = some .awaitingConfirmation
    ∨ f.booking.effectiveStatus = some .completed
  cancelled : q.status = .cancelled ↔ f.booking.status = .canceled
  completedService : f.completedService.isSome = true ↔ f.booking.status = .completed
  earning : f.countTransactions .earning = if f.booking.paymentStatus = .released then 1 else 0
  refund : f.countTransactions .refund = if f.booking.paymentStatus = .refunded then 1 else 0

/-- A paid booking has its queue row, whose columns are those of the lifecycle. -/
theorem Encodes.queued {f : BookingFile} {l : Lifecycle} (e : Encodes f l)
    (paid : f.booking.paymentMethod = .gcash) :
    ∃ q, f.queue = some q ∧ q.paymentStatus = l.payment .gcash ∧ q.status = l.queueStatus := by
  have row := e.queue
  simp only [paid, Lifecycle.queueRow, Option.map_eq_some_iff, Prod.mk.injEq] at row
  exact row

theorem Encodes.paidColumns {f : BookingFile} {l : Lifecycle} (e : Encodes f l)
    (paid : f.booking.paymentMethod = .gcash) : ∃ q, f.queue = some q ∧ PaidColumns f q := by
  obtain ⟨q, queued, qpayment, qstatus⟩ := e.queued paid
  obtain ⟨unrequested, undeclined⟩ := e.allowed paid
  have status := e.status
  have before := e.before
  have payment := e.payment
  have ledger := e.ledger
  have completedService := e.completedService
  rw [paid] at payment ledger
  refine ⟨q, queued, ?_⟩
  cases l with
  | active w | disputed w =>
      cases w with
      | requested => simp [Lifecycle.work] at unrequested
      | accepted | ongoing | awaiting =>
          constructor <;> simp [status, before, payment, ledger, completedService, qpayment, qstatus,
            Lifecycle.status, Lifecycle.before, Lifecycle.payment, Lifecycle.ledger,
            Lifecycle.isCompleted, Lifecycle.queueStatus, Work.status, Work.queueStatus,
            PaymentMethod.paid, Booking.effectiveStatus, BookingStatus.frozen,
            BookingFile.countTransactions]
  | underReview w frozen =>
      cases w with
      | requested => simp [Lifecycle.work] at unrequested
      | accepted | ongoing | awaiting =>
          cases frozen <;> constructor <;> simp [status, before, payment, ledger, completedService,
            qpayment, qstatus, Lifecycle.status, Lifecycle.before, Lifecycle.payment,
            Lifecycle.ledger, Lifecycle.isCompleted, Lifecycle.queueStatus, Work.status,
            Work.queueStatus, PaymentMethod.paid, Booking.effectiveStatus, BookingStatus.frozen,
            BookingFile.countTransactions]
  | completed | canceled =>
      constructor <;> simp [status, payment, ledger, completedService, qpayment, qstatus,
        Lifecycle.status, Lifecycle.payment, Lifecycle.ledger, Lifecycle.isCompleted,
        Lifecycle.queueStatus, PaymentMethod.paid, Booking.effectiveStatus,
        BookingStatus.frozen, BookingFile.countTransactions]
  | declined => exact absurd rfl undeclined

/-- The tables of a paid booking agree in every reachable state. -/
theorem paid_columns_coupled {s : BookingSystem} (h : refundMachine.Reachable s)
    (paid : s.file.booking.paymentMethod = .gcash) :
    ∃ q, s.file.queue = some q ∧ PaidColumns s.file q := by
  obtain ⟨l, e⟩ := (reachable_encodes h).file
  exact e.paidColumns paid

/-- Terms of a paid booking of seeker 1 with provider 2. -/
def sampleTerms : Terms where
  seekerId := 1
  providerId := 2
  distinct := by decide
  serviceId := some 1
  offerId := none
  amount := 50000
  estimatedDurationMins := some 60

/-- Every account is an eligible one and the booking is first in the queue. -/
def sampleContext : Context := { now := 1000, user := fun _ => some {}, firstWaiting := true }

def samplePaid : BookingSystem := { file := sampleTerms.paidCapture 7 100 (some 200) 1 }

theorem samplePaid_initial : refundMachine.initial samplePaid :=
  ⟨.paidCapture .., rfl, rfl⟩

/-- Run the steps from the captured payment, all in the sample context. -/
def sampleRun (steps : List Step) : Option BookingSystem :=
  refundMachine.exec samplePaid (steps.map (.step sampleContext))

theorem sampleRun_reachable {steps : List Step} {s : BookingSystem} (h : sampleRun steps = some s) :
    refundMachine.Reachable s :=
  .of_exec samplePaid_initial h

/-- A run that ends, in a state with the property. -/
theorem sample_any {σ : Type} {o : Option σ} {p : σ → Prop} [DecidablePred p]
    (h : o.any (fun s => decide (p s)) = true) : ∃ s, o = some s ∧ p s := by
  cases o with
  | none => simp at h
  | some s => exact ⟨s, rfl, by simpa using h⟩

/-- A job that is started, finished and confirmed. -/
def sampleCompletion : List Step :=
  [.request (.providerStartJob 2), .request (.markJobComplete 2), .request (.confirmCompletion 1)]

theorem paid_columns_coupled_completed : ∃ s, sampleRun sampleCompletion = some s
    ∧ s.file.booking.status = .completed ∧ ∃ q, s.file.queue = some q ∧ PaidColumns s.file q := by
  obtain ⟨s, run, completed, paid⟩ := sample_any (o := sampleRun sampleCompletion)
    (p := fun s => s.file.booking.status = .completed ∧ s.file.booking.paymentMethod = .gcash)
    (by decide)
  exact ⟨s, run, completed, paid_columns_coupled (sampleRun_reachable run) paid⟩

end ServiceHub
