import ServiceHub.Booking.System

/-! # The lifecycle that the columns encode

What a booking is about, without its redundant columns: how far the work is, whether
it is on hold, or how it ended. Every column of the booking, its queue row, its
completed service and its ledger rows is a function of this state, and every
transaction of the services is one of its transitions or leaves it as it is.
-/

namespace ServiceHub

/-- How far the work of a live booking is. -/
inductive Work where
  | requested | accepted | ongoing | awaiting
  deriving Repr, DecidableEq

inductive Lifecycle where
  | active (w : Work)
  | disputed (w : Work)
  /-- On hold for a cancellation or an administrator; `frozen` when the payment is frozen too. -/
  | underReview (w : Work) (frozen : Bool)
  | completed
  | canceled
  | declined
  deriving Repr, DecidableEq

namespace Work

def status : Work → BookingStatus
  | requested => .pendingApproval
  | accepted => .accepted
  | ongoing => .ongoing
  | awaiting => .awaitingConfirmation

def started : Work → Bool
  | requested | accepted => false
  | ongoing | awaiting => true

def queueStatus : Work → QueueStatus
  | requested | accepted => .waiting
  | ongoing => .serving
  | awaiting => .done

end Work

namespace Lifecycle

def status : Lifecycle → BookingStatus
  | active w => w.status
  | disputed _ => .disputed
  | underReview _ _ => .underReview
  | completed => .completed
  | canceled => .canceled
  | declined => .declined

/-- The work of a live booking. -/
def work : Lifecycle → Option Work
  | active w | disputed w | underReview w _ => some w
  | completed | canceled | declined => none

def before : Lifecycle → Option BookingStatus
  | disputed w | underReview w _ => some w.status
  | _ => none

def payment (m : PaymentMethod) : Lifecycle → PaymentStatus
  | active _ | underReview _ false => m.paid .paidHeld
  | disputed _ | underReview _ true => m.paid .frozenHeld
  | completed => match m with
    | .onsiteCash => .cashConfirmed
    | .gcash => .released
  | canceled | declined => m.paid .refunded

def queueStatus : Lifecycle → QueueStatus
  | active w | disputed w | underReview w _ => w.queueStatus
  | completed => .done
  | canceled | declined => .cancelled

/-- Payment and queue status of the queue row, which only paid bookings have. -/
def queueRow (m : PaymentMethod) (l : Lifecycle) : Option (PaymentStatus × QueueStatus) :=
  match m with
  | .onsiteCash => none
  | .gcash => some (l.payment .gcash, l.queueStatus)

def isCompleted : Lifecycle → Bool
  | completed => true
  | _ => false

/-- The ledger rows: paid bookings end in one earning or one refund. -/
def ledger (m : PaymentMethod) (l : Lifecycle) : List TransactionType :=
  match m, l with
  | .gcash, completed => [.earning]
  | .gcash, canceled => [.refund]
  | _, _ => []

/-- Paid bookings are created accepted, so they are never requested or declined. -/
def allowed (m : PaymentMethod) (l : Lifecycle) : Prop :=
  m = .gcash → l.work ≠ some .requested ∧ l ≠ declined

def terminal : Lifecycle → Bool
  | completed | canceled | declined => true
  | _ => false

/-- The transitions of a booking. -/
inductive Step : Lifecycle → Lifecycle → Prop where
  | accept : Step (active .requested) (active .accepted)
  | decline : Step (active .requested) declined
  | start : Step (active .accepted) (active .ongoing)
  | finish : Step (active .ongoing) (active .awaiting)
  | dispute {w} : Step (active w) (disputed w)
  | review {w frozen} : Step (active w) (underReview w frozen)
  | restoreDisputed {w} : Step (disputed w) (active w)
  | restoreReviewed {w frozen} : Step (underReview w frozen) (active w)
  | confirm {l} : l.work = some .awaiting → Step l completed
  | cancel {l} : l.terminal = false → Step l canceled

theorem Step.from_live {l l'} (h : Step l l') : l.terminal = false := by
  cases h with
  | confirm awaiting => cases ‹Lifecycle› <;> simp_all [work, terminal]
  | cancel live => exact live
  | _ => rfl

end Lifecycle

/-- The columns of the file are those of the lifecycle state. -/
structure Encodes (f : BookingFile) (l : Lifecycle) : Prop where
  allowed : l.allowed f.booking.paymentMethod
  status : f.booking.status = l.status
  before : f.booking.statusBeforeDispute = l.before
  payment : f.booking.paymentStatus = l.payment f.booking.paymentMethod
  started : ∀ w, l.work = some w → f.booking.started = w.started
  queue : f.queue.map (fun q => (q.paymentStatus, q.status)) = l.queueRow f.booking.paymentMethod
  completedService : f.completedService.isSome = l.isCompleted
  ledger : f.transactions.map (·.type) = l.ledger f.booking.paymentMethod

/-- The columns that encode the lifecycle are unchanged. -/
structure SameLifecycle (f f' : BookingFile) : Prop where
  booking : (f'.booking.paymentMethod, f'.booking.status, f'.booking.statusBeforeDispute,
      f'.booking.paymentStatus, f'.booking.started)
    = (f.booking.paymentMethod, f.booking.status, f.booking.statusBeforeDispute,
      f.booking.paymentStatus, f.booking.started)
  queue : f'.queue.map (fun q => (q.paymentStatus, q.status))
    = f.queue.map (fun q => (q.paymentStatus, q.status))
  completedService : f'.completedService.isSome = f.completedService.isSome
  transactions : f'.transactions = f.transactions

theorem SameLifecycle.refl (f : BookingFile) : SameLifecycle f f := ⟨rfl, rfl, rfl, rfl⟩

theorem Encodes.same {f f' : BookingFile} {l : Lifecycle} (e : Encodes f l)
    (h : SameLifecycle f f') : Encodes f' l := by
  obtain ⟨booking, queue, completedService, transactions⟩ := h
  simp only [Prod.mk.injEq] at booking
  obtain ⟨method, status, before, payment, started⟩ := booking
  constructor
  · rw [method]; exact e.allowed
  · rw [status]; exact e.status
  · rw [before]; exact e.before
  · rw [payment, method]; exact e.payment
  · rw [started]; exact e.started
  · rw [queue, method]; exact e.queue
  · rw [completedService]; exact e.completedService
  · rw [transactions, method]; exact e.ledger

/-- A transaction either keeps the lifecycle state or makes one of its transitions. -/
def Refines (l : Lifecycle) (f' : BookingFile) : Prop :=
  ∃ l', Encodes f' l' ∧ (l' = l ∨ Lifecycle.Step l l')

theorem Encodes.stutter {f f' : BookingFile} {l : Lifecycle} (e : Encodes f l)
    (h : SameLifecycle f f') : Refines l f' :=
  ⟨l, e.same h, .inl rfl⟩

section States

variable {f : BookingFile} {l : Lifecycle}

theorem Encodes.of_work {w : Work} (e : Encodes f l) (h : f.booking.status = w.status) :
    l = .active w := by
  have hs := e.status.symm.trans h
  cases l with
  | active v => cases v <;> cases w <;> simp_all [Lifecycle.status, Work.status]
  | _ => cases w <;> simp [Lifecycle.status, Work.status] at hs

theorem Encodes.not_waiting (e : Encodes f l) : f.booking.status ≠ .waiting := by
  intro h
  have hs := e.status.symm.trans h
  cases l with
  | active w => cases w <;> simp [Lifecycle.status, Work.status] at hs
  | _ => simp [Lifecycle.status] at hs

theorem Encodes.of_canceled (e : Encodes f l) (h : f.booking.status = .canceled) :
    l = .canceled := by
  have hs := e.status.symm.trans h
  cases l with
  | active w => cases w <;> simp [Lifecycle.status, Work.status] at hs
  | canceled => rfl
  | _ => simp [Lifecycle.status] at hs

theorem Encodes.of_completed (e : Encodes f l) (h : f.booking.status = .completed) :
    l = .completed := by
  have hs := e.status.symm.trans h
  cases l with
  | active w => cases w <;> simp [Lifecycle.status, Work.status] at hs
  | completed => rfl
  | _ => simp [Lifecycle.status] at hs

theorem Encodes.frozen (e : Encodes f l) (h : f.booking.status.frozen = true) :
    (∃ w, l = .disputed w) ∨ ∃ w b, l = .underReview w b := by
  rw [e.status] at h
  cases l with
  | active w => cases w <;> simp [Lifecycle.status, Work.status, BookingStatus.frozen] at h
  | disputed w => exact .inl ⟨w, rfl⟩
  | underReview w b => exact .inr ⟨w, b, rfl⟩
  | _ => simp [Lifecycle.status, BookingStatus.frozen] at h

/-- A held payment belongs to a live paid booking. -/
theorem Encodes.held (e : Encodes f l) (h : f.booking.paymentStatus.held = true) :
    f.booking.paymentMethod = .gcash ∧ l.terminal = false := by
  rw [e.payment] at h
  cases method : f.booking.paymentMethod <;> cases l with
  | underReview w b => cases b <;> simp_all [Lifecycle.payment, PaymentMethod.paid,
      PaymentStatus.held, Lifecycle.terminal]
  | _ => simp_all [Lifecycle.payment, PaymentMethod.paid, PaymentStatus.held, Lifecycle.terminal]

theorem Encodes.paid_held (e : Encodes f l) (method : f.booking.paymentMethod = .gcash)
    (live : l.terminal = false) : f.booking.paymentStatus.held = true := by
  rw [e.payment, method]
  cases l with
  | underReview w b => cases b <;> rfl
  | active | disputed => rfl
  | completed | canceled | declined => simp [Lifecycle.terminal] at live

end States

end ServiceHub
