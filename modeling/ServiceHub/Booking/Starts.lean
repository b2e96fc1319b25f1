import ServiceHub.Booking.Columns
import ServiceHub.Booking.Coupling

/-! # Which transaction starts a job

Only `providerStartJob` brings a booking to its work. A booking in progress stays one while it is on
hold, and the checks of a start count it among the jobs of the provider, by its status, by its queue
row or, for a cash job, by its started flag.
-/

namespace ServiceHub

open Guard

/-- The work is going on, or was when the booking was put on hold. -/
def Booking.inProgress (b : Booking) : Bool :=
  b.status == .ongoing || (b.status.frozen && b.statusBeforeDispute == some .ongoing)

/-- The rows that `otherOngoing` counts. -/
def BookingFile.countsAsOngoing (f : BookingFile) : Bool :=
  f.booking.status == .ongoing
    || (f.booking.started && f.booking.paymentMethod == .onsiteCash && f.booking.status.frozen)
    || f.queue.any (·.status == .serving)

section Transactions

variable {ctx : Context} {f : BookingFile} {c : Commit} {l : Lifecycle}

/-- A transaction that brings an accepted booking to its work has passed the checks of a start. -/
theorem ColumnsWritten.started (h : ColumnsWritten ctx f c) (before : f.booking.status = .accepted)
    (after : c.file.booking.status = .ongoing) : StartAdmitted ctx f := by
  cases h with
  | startedCash admitted => exact admitted
  | startedPaid admitted => exact admitted
  | aside same => simp [same.booking, before] at after
  | answered requested => simp [before] at requested
  | finished ongoing => simp [before] at ongoing
  | held _ _ frozen _ same => simp_all [same.booking, BookingStatus.frozen]
  | restored frozen => simp [before, BookingStatus.frozen] at frozen
  | refunded _ _ same => simp [same.booking, BookingFile.refunded] at after
  | canceled _ _ _ same => simp [same.booking] at after
  | settled run file =>
      rw [file] at after
      obtain ⟨-, -, ⟨-, rfl⟩ | ⟨-, -, -, -, _, -, rfl⟩⟩ := settleCompletedBooking_ok run
      · simp [before] at after
      · simp [BookingFile.settled] at after

/-- A booking comes to its work by a start. -/
theorem Event.started {s : BookingSystem} {st : Step} {f' : BookingFile} {g' : Option GatewayRefund}
    {next : Option Call} (h : Event s (.step ctx st) f' g' next)
    (before : s.file.booking.status = .accepted) (after : f'.booking.status = .ongoing) :
    StartAdmitted ctx s.file := by
  cases h with
  | requested run => exact (requestTransaction_columns run).started before after
  | committed _ run => exact (transaction_columns run).started before after
  | refundCaught | markedFailed => exact absurd (before.symm.trans after) (by decide)
  | _ => exact absurd (before.symm.trans after) (by decide)

/-- A booking is in progress when its lifecycle is at the work. -/
theorem Encodes.inProgress_iff (e : Encodes f l) :
    f.booking.inProgress = true ↔ l.work = some .ongoing := by
  simp only [Booking.inProgress, e.status, e.before]
  cases l with
  | active w | disputed w =>
      cases w <;> simp [Lifecycle.status, Lifecycle.before, Lifecycle.work, Work.status, BookingStatus.frozen]
  | underReview w =>
      cases w <;> simp [Lifecycle.status, Lifecycle.before, Lifecycle.work, Work.status, BookingStatus.frozen]
  | _ => simp [Lifecycle.status, Lifecycle.work, BookingStatus.frozen]

/-- The queue row of a paid job in progress is served. -/
theorem Encodes.serves (e : Encodes f l) (paid : f.booking.paymentMethod = .gcash)
    (busy : f.booking.inProgress = true) : ∃ row, f.queue = some row ∧ row.status = .serving := by
  obtain ⟨row, queued, -, status⟩ := e.queued paid
  have work := e.inProgress_iff.mp busy
  refine ⟨row, queued, status.trans ?_⟩
  cases l <;> simp_all [Lifecycle.work, Lifecycle.queueStatus, Work.queueStatus]

/-- Frozen or not, a booking in progress is counted by a start of another one. -/
theorem Encodes.countsAsOngoing (e : Encodes f l) (busy : f.booking.inProgress = true) :
    f.countsAsOngoing = true := by
  have work := e.inProgress_iff.mp busy
  have started := e.started _ work
  cases method : f.booking.paymentMethod with
  | onsiteCash =>
      simp only [Booking.inProgress, Bool.or_eq_true, Bool.and_eq_true] at busy
      simp only [BookingFile.countsAsOngoing, started, Work.started, method, beq_self_eq_true,
        Bool.true_and, Bool.or_eq_true]
      tauto
  | gcash =>
      obtain ⟨q, queued, serving⟩ := e.serves method busy
      simp [BookingFile.countsAsOngoing, queued, serving]

/-- Only the queue row of a booking in progress is served. -/
theorem Encodes.served (e : Encodes f l) {q : Queue} (queued : f.queue = some q)
    (serving : q.status = .serving) : f.booking.inProgress = true := by
  rw [e.inProgress_iff]
  cases method : f.booking.paymentMethod with
  | onsiteCash => simpa [queued, method, Lifecycle.queueRow] using e.queue
  | gcash =>
      obtain ⟨row, queued', -, status⟩ := e.queued method
      obtain rfl := Option.some.inj (queued.symm.trans queued')
      have served : QueueStatus.serving = l.queueStatus := serving.symm.trans status
      cases l with
      | active w | disputed w | underReview w =>
          cases w <;> simp [Lifecycle.queueStatus, Work.queueStatus, Lifecycle.work] at served ⊢
      | _ => simp [Lifecycle.queueStatus] at served

/-- The only transition to the work is the start of an accepted job. -/
theorem Lifecycle.Step.starts {l' : Lifecycle} (h : Lifecycle.Step l l') (before : l.work ≠ some .ongoing)
    (after : l'.work = some .ongoing) : l = .active .accepted ∧ l' = .active .ongoing := by
  cases h with
  | start => exact ⟨rfl, rfl⟩
  | accept | decline | finish | confirm | cancel => simp [Lifecycle.work] at after
  | dispute | review | restoreDisputed | restoreReviewed => exact absurd after before

/-- A step that brings a reachable booking to its work has passed the checks of a start. -/
theorem Event.begun {C : BookingSystem → Action → Prop} {s : BookingSystem} {st : Step} {f' : BookingFile}
    {g' : Option GatewayRefund} {next : Option Call} (reached : refundMachine.ReachableUnder C s)
    (h : Event s (.step ctx st) f' g' next) (before : s.file.booking.inProgress = false)
    (after : f'.booking.inProgress = true) : StartAdmitted ctx s.file := by
  obtain ⟨l, e, l', e', change⟩ := h.reachable_refines reached
  have idle : l.work ≠ some .ongoing := by
    rw [ne_eq, ← e.inProgress_iff, before]
    simp
  have busy := e'.inProgress_iff.mp after
  obtain rfl | step := change
  · exact absurd busy idle
  · obtain ⟨rfl, rfl⟩ := step.starts idle busy
    exact h.started e.status e'.status

end Transactions

end ServiceHub
