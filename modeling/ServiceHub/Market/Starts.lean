import ServiceHub.Market.OneJob

/-! # Which jobs stop a start

A start counts the other jobs of the provider. The row of a paid job is served only while its work is
going on, but a cash job is recognised by its started flag and its hold, which it also has after its
work was finished.
-/

namespace ServiceHub

open Guard

variable {s : MarketSystem} {m : Market} {p : UserId} {b : BookingId} {x : BookingSystem} {updatedAt : Millis}

/-- The checks of `providerStartJob` before it counts the other jobs. -/
structure Startable (ctx : Context) (providerId : UserId) (f : BookingFile) : Prop where
  own : f.booking.providerId = providerId
  unrefunded : assertNoRefundInProgress f = .ok ()
  eligible : (ctx.user providerId).any User.eligibleProvider = true
  ready : startReadiness f.booking f.queue = .ok ()

def rejectedAsOngoing (start : Except HttpError Commit) : Prop :=
  ∃ e, start = .error e ∧ e.code = some "PROVIDER_ALREADY_ONGOING"

/-- A booking of the provider other than `b`. -/
def Market.jobElsewhere (m : Market) (p : UserId) (b : BookingId) (job : Booking → Bool) : Prop :=
  ∃ (c : Nat) (y : BookingSystem), m.bookings[c]? = some y ∧ c ≠ b ∧ y.file.booking.providerId = p
    ∧ job y.file.booking = true

/-- A cash job that was put on hold after its work was marked complete. -/
def Booking.finishedOnHold (b : Booking) : Bool :=
  b.paymentMethod == .onsiteCash && b.status.frozen && b.statusBeforeDispute == some .awaitingConfirmation

section Counting

variable {f : BookingFile} {l : Lifecycle}

/-- A booking on hold keeps its work in two columns. -/
theorem Encodes.onHold (e : Encodes f l) (frozen : f.booking.status.frozen = true) :
    ∃ w : Work, f.booking.started = w.started ∧ f.booking.statusBeforeDispute = some w.status := by
  obtain ⟨w, rfl⟩ | ⟨w, held, rfl⟩ := e.frozen frozen
  · exact ⟨w, e.started w rfl, e.before⟩
  · exact ⟨w, e.started w rfl, e.before⟩

/-- Besides the jobs in progress, the finished cash jobs on hold are counted. -/
theorem Encodes.countsAsOngoing_iff (e : Encodes f l) :
    f.countsAsOngoing = true ↔ f.booking.inProgress = true ∨ f.booking.finishedOnHold = true := by
  constructor
  · intro counted
    simp only [BookingFile.countsAsOngoing, Bool.or_eq_true, Bool.and_eq_true, beq_iff_eq] at counted
    rcases counted with (ongoing | ⟨⟨started, cash⟩, frozen⟩) | served
    · left
      simp [Booking.inProgress, ongoing]
    · obtain ⟨w, same, before⟩ := e.onHold frozen
      rw [started] at same
      cases w with
      | requested | accepted => cases same
      | ongoing =>
          left
          simp [Booking.inProgress, frozen, before, Work.status]
      | awaiting =>
          right
          simp [Booking.finishedOnHold, cash, frozen, before, Work.status]
    · left
      obtain ⟨q, queued, serving⟩ := (Option.any_eq_true _ _).mp served
      exact e.served queued (by simpa using serving)
  · rintro (busy | finished)
    · exact e.countsAsOngoing busy
    · simp only [Booking.finishedOnHold, Bool.and_eq_true, beq_iff_eq] at finished
      obtain ⟨⟨cash, frozen⟩, awaiting⟩ := finished
      obtain ⟨w, started, before⟩ := e.onHold frozen
      rw [awaiting] at before
      have finished : w = .awaiting := by
        cases w <;> simp [Work.status] at before ⊢
      rw [finished] at started
      simp [BookingFile.countsAsOngoing, started, Work.started, cash, frozen]

/-- A cash job that a start counts has been started. -/
theorem Encodes.cashStarted (e : Encodes f l) (cash : f.booking.paymentMethod = .onsiteCash)
    (job : f.booking.inProgress = true ∨ f.booking.finishedOnHold = true) :
    f.booking.started = true ∧ (f.booking.status = .ongoing ∨ f.booking.status.frozen = true) := by
  have counted := e.countsAsOngoing_iff.mpr job
  have unqueued : f.queue = none := by simpa [cash, Lifecycle.queueRow] using e.queue
  simp only [BookingFile.countsAsOngoing, unqueued, Option.any_none, Bool.or_false, cash, beq_self_eq_true,
    Bool.and_true, Bool.or_eq_true, Bool.and_eq_true, beq_iff_eq] at counted
  rcases counted with ongoing | held
  · have busy : f.booking.inProgress = true := by simp [Booking.inProgress, ongoing]
    exact ⟨e.started _ (e.inProgress_iff.mp busy), .inl ongoing⟩
  · exact ⟨held.1, .inr held.2⟩

theorem otherOngoing_pos : 0 < (m.context b x updatedAt).otherOngoing ↔
    ∃ (c : Nat) (y : BookingSystem), m.bookings[c]? = some y ∧ c ≠ b
      ∧ y.file.booking.providerId = x.file.booking.providerId ∧ y.file.countsAsOngoing = true := by
  simp only [Market.context, List.countP_pos_iff, List.mem_eraseIdx_iff_getElem?, Bool.and_eq_true, beq_iff_eq]
  constructor
  · rintro ⟨y, ⟨c, other, found⟩, own, counted⟩
    exact ⟨c, y, found, other, own, counted⟩
  · rintro ⟨c, y, found, other, own, counted⟩
    exact ⟨y, ⟨c, other, found⟩, own, counted⟩

end Counting

/-- Of the checks of a startable booking only the count of the other jobs answers with this code. -/
theorem rejectedAsOngoing_iff {ctx : Context} {f : BookingFile} (startable : Startable ctx p f) :
    rejectedAsOngoing (providerStartJob ctx p f) ↔ 0 < ctx.otherOngoing := by
  obtain ⟨own, unrefunded, eligible, ready⟩ := startable
  simp only [rejectedAsOngoing, providerStartJob, check_bind_error, rejectIf_error, rejectIf_ok, unrefunded, ready, own,
    eligible, not_true_eq_false, false_and, false_or, ne_eq, not_false_eq_true, true_and, reduceCtorEq]
  constructor
  · rintro ⟨e, ⟨busy, -⟩ | ⟨idle, rejected⟩, code⟩
    · exact busy
    · split at rejected
      · simp only [check_bind_error, rejectIf_error, pure_error, and_false, or_false] at rejected
        obtain ⟨-, rfl⟩ | ⟨-, ⟨-, rfl⟩ | ⟨-, -, rfl⟩⟩ := rejected
        all_goals simp [conflict, recordNotFound, uniqueViolation, httpError] at code
      · simp only [check_bind_error, rejectIf_error, pure_error, and_false, or_false] at rejected
        obtain ⟨-, rfl⟩ | ⟨-, ⟨-, rfl⟩ | ⟨-, -, rfl⟩⟩ := rejected
        all_goals simp [recordNotFound, uniqueViolation, httpError] at code
  · intro busy
    exact ⟨_, .inl ⟨busy, rfl⟩, rfl⟩

/-- A start meets the jobs in progress and the finished cash jobs on hold. -/
theorem rejectedAsOngoing_reachable (h : marketMachine.Reachable s)
    (startable : Startable (s.market.context b x updatedAt) p x.file) :
    rejectedAsOngoing (providerStartJob (s.market.context b x updatedAt) p x.file) ↔
      s.market.jobElsewhere p b Booking.inProgress ∨ s.market.jobElsewhere p b Booking.finishedOnHold := by
  have known := fun (i : Nat) (y : BookingSystem) => booking_reachable h (b := i) (x := y)
  rw [rejectedAsOngoing_iff startable, otherOngoing_pos, startable.own]
  constructor
  · rintro ⟨c, y, found, other, own, counted⟩
    obtain ⟨l, e⟩ := (reachable_encodes (bookingMachine_reachableUnder (known c y found))).file
    rcases e.countsAsOngoing_iff.mp counted with busy | finished
    · exact .inl ⟨c, y, found, other, own, busy⟩
    · exact .inr ⟨c, y, found, other, own, finished⟩
  · intro jobs
    obtain ⟨c, y, found, other, own, job⟩ : s.market.jobElsewhere p b fun job =>
        job.inProgress || job.finishedOnHold := by
      rcases jobs with ⟨c, y, found, other, own, job⟩ | ⟨c, y, found, other, own, job⟩
      all_goals exact ⟨c, y, found, other, own, by simp [job]⟩
    obtain ⟨l, e⟩ := (reachable_encodes (bookingMachine_reachableUnder (known c y found))).file
    exact ⟨c, y, found, other, own, e.countsAsOngoing_iff.mpr (by simpa using job)⟩

/-- A start of a booking that passes the earlier checks is rejected exactly for the jobs in progress if and only if
    no finished cash job on hold stops it alone. -/
theorem start_rejected_for_jobs (h : marketMachine.Reachable s)
    (startable : Startable (s.market.context b x updatedAt) p x.file) :
    (rejectedAsOngoing (providerStartJob (s.market.context b x updatedAt) p x.file) ↔
        s.market.jobElsewhere p b Booking.inProgress)
      ↔ (s.market.jobElsewhere p b Booking.finishedOnHold → s.market.jobElsewhere p b Booking.inProgress) := by
  rw [rejectedAsOngoing_reachable h startable]
  tauto

/-- A cash booking of provider 2 for the listing, up to the end of its work. -/
def sampleAcceptedCash (b : BookingId) (seekerId : UserId) : List MarketAction :=
  [.createDirectRequest seekerId 2 1 1, .booking b (.request (.respondToDirectBooking 2 true)) 0]

/-- Seeker 1 disputes a finished cash job, while the one of seeker 3 is accepted. -/
def sampleFinishedOnHold : List MarketAction :=
  sampleAcceptedCash 0 1 ++ sampleAcceptedCash 1 3 ++ [.booking 0 (.request (.providerStartJob 2)) 0,
    .booking 0 (.request (.markJobComplete 2)) 0, .booking 0 (.request (.disputeJob 1 none)) 0]

/-- The second booking is ready for its start, and only the first one, which is finished, is on hold. -/
def Market.stoppedByFinished (m : Market) : Bool :=
  (m.user 2).any User.eligibleProvider && m.bookings.all (fun y => !y.file.booking.inProgress)
    && (m.bookings[0]?).any (fun y => y.file.booking.providerId == 2 && y.file.booking.finishedOnHold)
    && (m.bookings[1]?).any fun x => x.file.booking.providerId == 2 && x.file.refund.isNone && x.file.queue.isNone
      && x.file.booking == { Terms.cashRequest ⟨3, 2, by decide, some 1, none, 50000, some 60⟩ |>.booking with
        status := .accepted }

theorem sampleFinishedOnHold_stops : ∃ t x, marketMachine.exec sampleMarket sampleFinishedOnHold = some t
    ∧ t.market.bookings[1]? = some x ∧ Startable (t.market.context 1 x 0) 2 x.file
    ∧ t.market.jobElsewhere 2 1 Booking.finishedOnHold ∧ ¬ t.market.jobElsewhere 2 1 Booking.inProgress := by
  obtain ⟨t, run, stopped⟩ := (Option.any_eq_true (fun t => t.market.stoppedByFinished)
    (marketMachine.exec sampleMarket sampleFinishedOnHold)).mp (by decide)
  simp only [Market.stoppedByFinished, Bool.and_eq_true, List.all_eq_true, Bool.not_eq_true', Option.any_eq_true] at stopped
  obtain ⟨⟨⟨eligible, idle⟩, y, held, own, finished⟩, x, found, ready⟩ := stopped
  simp only [beq_iff_eq, Option.isNone_iff_eq_none] at own ready
  obtain ⟨⟨⟨provider, unrefunded⟩, unqueued⟩, booking⟩ := ready
  refine ⟨t, x, run, found, ⟨provider, ?_, (Option.any_eq_true _ _).mpr eligible, ?_⟩, ?_, ?_⟩
  · simp [assertNoRefundInProgress_ok, unrefunded]
  · rw [unqueued, startReadiness_none_ok, booking]
    simp [Terms.cashRequest]
  · exact ⟨0, y, held, by decide, own, finished⟩
  · rintro ⟨c, z, listed, -, -, busy⟩
    rw [idle z (List.mem_of_getElem? listed)] at busy
    cases busy

theorem finished_job_stops_start : ∃ t x, marketMachine.exec sampleMarket sampleFinishedOnHold = some t
    ∧ t.market.bookings[1]? = some x ∧ Startable (t.market.context 1 x 0) 2 x.file
    ∧ ¬ (rejectedAsOngoing (providerStartJob (t.market.context 1 x 0) 2 x.file)
      ↔ t.market.jobElsewhere 2 1 Booking.inProgress) := by
  obtain ⟨t, x, run, found, startable, finished, idle⟩ := sampleFinishedOnHold_stops
  refine ⟨t, x, run, found, startable, fun same => idle (same.mp ?_)⟩
  exact (rejectedAsOngoing_reachable (.of_exec sampleMarket_initial run) startable).mpr (.inr finished)

theorem start_rejected_for_jobs_finished : ∃ t x, marketMachine.exec sampleMarket sampleFinishedOnHold = some t
    ∧ t.market.bookings[1]? = some x
    ∧ ((rejectedAsOngoing (providerStartJob (t.market.context 1 x 0) 2 x.file)
        ↔ t.market.jobElsewhere 2 1 Booking.inProgress)
      ↔ (t.market.jobElsewhere 2 1 Booking.finishedOnHold → t.market.jobElsewhere 2 1 Booking.inProgress)) := by
  obtain ⟨t, x, run, found, startable, -, -⟩ := sampleFinishedOnHold_stops
  exact ⟨t, x, run, found, start_rejected_for_jobs (.of_exec sampleMarket_initial run) startable⟩

end ServiceHub
