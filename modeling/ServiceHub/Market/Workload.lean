import ServiceHub.Booking.RefundHolds
import ServiceHub.Market.QueueRuns
import ServiceHub.Market.Starts

/-! # The workload of a provider

`getProviderWorkload` shows for every paid job whether it can be started. It reads the same columns as
the start itself, except the refund of the booking, which is never in progress while the job can start.
-/

namespace ServiceHub

open Guard

variable {s : MarketSystem} {m : Market} {p : UserId} {b : BookingId} {x : BookingSystem} {q : Queue}
  {updatedAt : Millis}

/-- A paid job as the provider sees it. -/
structure VisiblePaidJob where
  bookingId : BookingId
  startBlockedReason : Option String
  deriving Repr, DecidableEq

def VisiblePaidJob.canStart (job : VisiblePaidJob) : Bool := job.startBlockedReason.isNone

structure Workload where
  onlineQueueLimit : Nat
  paidJobs : List VisiblePaidJob
  cashJobs : List Booking
  deriving Repr, DecidableEq

/-- The cash jobs that a workload lists. -/
def BookingStatus.inWorkload : BookingStatus → Bool
  | .pendingApproval | .accepted | .ongoing | .disputed | .underReview | .awaitingConfirmation => true
  | .waiting | .declined | .canceled | .removed | .completed => false

namespace Market

/-- The active rows, `orderBy: { position: "asc" }`. -/
def paidJobs (m : Market) (p : UserId) : List BookingId :=
  ((List.range m.bookings.length).filter fun b =>
    (m.bookings[b]?).any fun x => x.file.queue.any fun q => q.providerId == p && q.status.active)
    |>.insertionSort fun a b => m.position a ≤ m.position b

def cashJobs (m : Market) (p : UserId) : List Booking :=
  (m.bookings.map (·.file.booking)).filter fun booking =>
    booking.providerId == p && booking.paymentMethod == .onsiteCash && booking.status.inWorkload

def currentJob (m : Market) (p : UserId) : Bool :=
  (m.paidJobs p).any (fun b => (m.bookings[b]?).any (·.inQueue p .serving))
    || (m.cashJobs p).any fun job => job.started && (job.status == .ongoing || job.status.frozen)

def firstWaitingId (m : Market) (p : UserId) : Option BookingId :=
  (m.paidJobs p).find? fun b => (m.bookings[b]?).any (·.inQueue p .waiting)

/-- Every queue row belongs to a booking. -/
def startBlockedReason (m : Market) (p : UserId) (b : BookingId) (booking : Booking) (queue : Queue) :
    Option String :=
  if queue.status ≠ .waiting ∨ m.firstWaitingId p ≠ some b then
    some "Earlier paid work must finish before this booking can start."
  else if m.currentJob p then some "Finish your current job before starting another one."
  else paidStartBlockReason booking queue

def getProviderWorkload (m : Market) (p : UserId) : Workload where
  onlineQueueLimit := ((m.user p).map (·.onlineQueueLimit)).getD 5
  paidJobs := (m.paidJobs p).filterMap fun b => (m.bookings[b]?).bind fun x => x.file.queue.map fun q =>
    { bookingId := b, startBlockedReason := m.startBlockedReason p b x.file.booking q }
  cashJobs := m.cashJobs p

/-- The workload offers the start of the paid booking. -/
def showsStart (m : Market) (p : UserId) (b : BookingId) : Prop :=
  ∃ job ∈ (m.getProviderWorkload p).paidJobs, job.bookingId = b ∧ job.canStart = true

end Market

section Listing

/-- The active rows are listed in the order of the queue. -/
theorem QueueSorted.paidJobs (h : QueueSorted m p) : m.paidJobs p = m.activeEntries p := by
  have total : Std.Total fun a c : BookingId => m.position a ≤ m.position c := ⟨fun _ _ => Nat.le_total _ _⟩
  have order : IsTrans BookingId fun a c => m.position a ≤ m.position c := ⟨fun _ _ _ => Nat.le_trans⟩
  have nodup : (m.activeEntries p).Nodup := h.sorted.imp fun before same => by
    rw [same] at before
    exact Nat.lt_irrefl _ before
  have listed : ∀ c, c ∈ m.paidJobs p ↔ c ∈ m.activeEntries p := by
    intro c
    rw [mem_activeEntries, Market.paidJobs, List.mem_insertionSort]
    simp only [List.mem_filter, List.mem_range, Option.any_eq_true, Bool.and_eq_true, beq_iff_eq]
    constructor
    · rintro ⟨-, y, found, row, queued, own, active⟩
      exact ⟨y, row, found, queued, own, active⟩
    · rintro ⟨y, row, found, queued, own, active⟩
      exact ⟨(List.getElem?_eq_some_iff.mp found).1, y, found, row, queued, own, active⟩
  have permuted : (m.paidJobs p).Perm (m.activeEntries p) := by
    refine (List.perm_ext_iff_of_nodup ?_ nodup).mpr listed
    exact (List.perm_insertionSort _ _).nodup_iff.mpr (List.nodup_range.filter _)
  refine permuted.eq_of_pairwise ?_ (List.pairwise_insertionSort _ _) (h.sorted.imp Nat.le_of_lt)
  intro a c first second early late
  have apart : ((m.activeEntries p).map m.position).Nodup := List.pairwise_map.mpr (h.sorted.imp Nat.ne_of_lt)
  exact List.inj_on_of_nodup_map apart ((listed a).mp first) second (Nat.le_antisymm early late)

theorem QueueSorted.firstWaitingId (h : QueueSorted m p) :
    m.firstWaitingId p = (m.waitingEntries p).head? := by
  have skipped : ∀ c ∈ m.entries p .serving, (m.bookings[c]?).any (·.inQueue p .waiting) = false := by
    intro c served
    obtain ⟨y, found, serving⟩ := mem_entries.mp served
    simp only [BookingSystem.inQueue, Option.any_eq_true, Bool.and_eq_true, beq_iff_eq] at serving
    obtain ⟨row, queued, own, status⟩ := serving
    simp [found, BookingSystem.inQueue, queued, status]
  have waits : ∀ c ∈ m.entries p .waiting, (m.bookings[c]?).any (·.inQueue p .waiting) = true := by
    intro c waiting
    obtain ⟨y, found, waiting⟩ := mem_entries.mp waiting
    simp [found, waiting]
  rw [Market.firstWaitingId, h.paidJobs, h.waitingEntries, Market.activeEntries, List.find?_append]
  rw [List.find?_eq_none.mpr fun c served => by simp [skipped c served], Option.none_or]
  cases entries : m.entries p .waiting with
  | nil => rfl
  | cons c rest => simp [waits c (by simp [entries])]

theorem QueueSorted.shown (h : QueueSorted m p) (shown : m.showsStart p b) :
    ∃ x q, m.bookings[b]? = some x ∧ x.file.queue = some q ∧ q.providerId = p := by
  obtain ⟨job, listed, rfl, -⟩ := shown
  obtain ⟨c, active, row⟩ := List.mem_filterMap.mp listed
  rw [h.paidJobs, mem_activeEntries] at active
  obtain ⟨x, q, found, queued, own, -⟩ := active
  simp only [found, queued, Option.bind_some, Option.map_some, Option.some.injEq] at row
  subst row
  exact ⟨x, q, found, queued, own⟩

/-- What the workload checks before it offers a start. -/
theorem QueueSorted.showsStart_iff (h : QueueSorted m p) (found : m.bookings[b]? = some x)
    (queued : x.file.queue = some q) (own : q.providerId = p) : m.showsStart p b ↔
      (m.waitingEntries p).head? = some b ∧ m.currentJob p = false
        ∧ paidStartBlockReason x.file.booking q = none := by
  have reason : m.startBlockedReason p b x.file.booking q = none ↔ (m.waitingEntries p).head? = some b
      ∧ m.currentJob p = false ∧ paidStartBlockReason x.file.booking q = none := by
    simp only [Market.startBlockedReason, h.firstWaitingId]
    constructor
    · intro open_
      split at open_
      · cases open_
      · rename_i first
        split at open_
        · cases open_
        · rename_i idle
          push Not at first
          exact ⟨first.2, by simpa using idle, open_⟩
    · rintro ⟨first, idle, ready⟩
      have waiting := (paidStartBlockReason_none.mp ready).1
      simp [first, idle, ready, waiting]
  rw [← reason]
  simp only [Market.showsStart, Market.getProviderWorkload, List.mem_filterMap, Option.bind_eq_some_iff,
    Option.map_eq_some_iff, VisiblePaidJob.canStart]
  constructor
  · rintro ⟨job, ⟨c, -, y, found', row, queued', rfl⟩, rfl, shown⟩
    obtain rfl := Option.some.inj (found.symm.trans found')
    obtain rfl := Option.some.inj (queued.symm.trans queued')
    simpa using shown
  · intro open_
    have waiting := (paidStartBlockReason_none.mp (reason.mp open_).2.2).1
    refine ⟨_, ⟨b, ?_, x, found, q, queued, rfl⟩, rfl, by simp [open_]⟩
    rw [h.paidJobs, mem_activeEntries]
    exact ⟨x, q, found, queued, own, by rw [waiting]; rfl⟩

end Listing

section Agreement

variable {f : BookingFile} {l : Lifecycle}

/-- The busy state of the workload counts what a start counts. -/
theorem currentJob_iff (sorted : QueueSorted m p)
    (reached : ∀ (i : Nat) (y : BookingSystem), m.bookings[i]? = some y → bookingMachine.Reachable y) :
    m.currentJob p = true ↔ ∃ (c : Nat) (y : BookingSystem), m.bookings[c]? = some y
      ∧ y.file.booking.providerId = p ∧ y.file.countsAsOngoing = true := by
  simp only [Market.currentJob, Bool.or_eq_true, List.any_eq_true, sorted.paidJobs]
  constructor
  · rintro (⟨c, -, served⟩ | ⟨job, listed, busy⟩)
    · obtain ⟨y, found, serving⟩ := (Option.any_eq_true _ _).mp served
      have own := (inProgress_of_serving (reached c y found) serving).2
      refine ⟨c, y, found, own, ?_⟩
      simp only [BookingSystem.inQueue, Option.any_eq_true, Bool.and_eq_true, beq_iff_eq] at serving
      obtain ⟨row, queued, -, status⟩ := serving
      simp [BookingFile.countsAsOngoing, queued, status]
    · simp only [Market.cashJobs, List.mem_filter, List.mem_map, Bool.and_eq_true, beq_iff_eq] at listed
      obtain ⟨⟨y, member, rfl⟩, ⟨own, cash⟩, -⟩ := listed
      obtain ⟨c, found⟩ := List.getElem?_of_mem member
      simp only [Bool.and_eq_true, Bool.or_eq_true, beq_iff_eq] at busy
      refine ⟨c, y, found, own, ?_⟩
      simp only [BookingFile.countsAsOngoing, busy.1, cash, beq_self_eq_true, Bool.and_true, Bool.true_and,
        Bool.or_eq_true, beq_iff_eq]
      exact .inl busy.2
  · rintro ⟨c, y, found, own, counted⟩
    obtain ⟨l, e⟩ := (reachable_encodes (bookingMachine_reachableUnder (reached c y found))).file
    have job := e.countsAsOngoing_iff.mp counted
    cases method : y.file.booking.paymentMethod with
    | gcash =>
        left
        have busy : y.file.booking.inProgress = true := by
          simpa [Booking.finishedOnHold, method] using job
        obtain ⟨row, queued, serving⟩ := e.serves method busy
        have queue := BookingSystem.queuedForProvider (reached c y found)
        simp only [BookingFile.queuedForProvider, queued, Option.all_some, beq_iff_eq] at queue
        refine ⟨c, mem_activeEntries.mpr ⟨y, row, found, queued, queue.trans own, ?_⟩, ?_⟩
        · rw [serving]
          rfl
        · simp [found, BookingSystem.inQueue, queued, queue, own, serving]
    | onsiteCash =>
        right
        obtain ⟨started, status⟩ := e.cashStarted method job
        refine ⟨y.file.booking, ?_, by simpa [started] using status⟩
        simp only [Market.cashJobs, List.mem_filter, List.mem_map, Bool.and_eq_true, beq_iff_eq]
        refine ⟨⟨y, List.mem_of_getElem? found, rfl⟩, ⟨own, method⟩, ?_⟩
        cases now : y.file.booking.status <;> simp_all [BookingStatus.inWorkload, BookingStatus.frozen]

/-- A paid job starts when nothing of this stands against it. -/
theorem providerStartJob_paid_iff {ctx : Context} (own : f.booking.providerId = p) (queued : f.queue = some q)
    (eligible : (ctx.user p).any User.eligibleProvider = true) :
    (∃ c, providerStartJob ctx p f = .ok c) ↔ f.refund.map (·.status) ≠ some .processing
      ∧ f.booking.paymentMethod = .gcash ∧ paidStartBlockReason f.booking q = none ∧ ctx.otherOngoing = 0
      ∧ ctx.firstWaiting = true ∧ ctx.serving = 0 ∧ ctx.ongoingElsewhere = false := by
  simp only [providerStartJob, check_bind_ok, rejectIf_ok, assertNoRefundInProgress_ok, queued, startReadiness_some_ok,
    pure_ok, own, eligible, ne_eq, not_true_eq_false, not_false_eq_true, true_and, gt_iff_lt, Nat.not_lt,
    Nat.le_zero_eq, not_or, Bool.not_eq_false, Bool.not_eq_true]
  constructor
  · rintro ⟨c, unrefunded, ⟨paid, ready⟩, idle, ⟨first, unserved⟩, -, alone, -⟩
    exact ⟨unrefunded, paid, ready, idle, first, unserved, alone⟩
  · rintro ⟨unrefunded, paid, ready, idle, first, unserved, alone⟩
    obtain ⟨-, unstarted, accepted, -, -⟩ := paidStartBlockReason_none.mp ready
    refine ⟨_, unrefunded, ⟨paid, ready⟩, idle, ⟨first, unserved⟩, ⟨?_, unstarted⟩, alone, rfl⟩
    tauto

/-- The counts of a start are zero when the provider has no current job. -/
theorem idle_iff (sorted : QueueSorted m p)
    (reached : ∀ (i : Nat) (y : BookingSystem), m.bookings[i]? = some y → bookingMachine.Reachable y)
    (found : m.bookings[b]? = some x) (own : x.file.booking.providerId = p) (uncounted : x.file.countsAsOngoing = false) :
    m.currentJob p = false ↔ (m.context b x updatedAt).otherOngoing = 0
      ∧ (m.context b x updatedAt).serving = 0 ∧ (m.context b x updatedAt).ongoingElsewhere = false := by
  have current := currentJob_iff sorted reached
  have other : 0 < (m.context b x updatedAt).otherOngoing ↔ _ := otherOngoing_pos
  constructor
  · intro idle
    rw [Bool.eq_false_iff, ne_eq, current] at idle
    refine ⟨?_, ?_, ?_⟩
    · by_contra busy
      obtain ⟨c, y, found', -, provider, counted⟩ := other.mp (Nat.pos_of_ne_zero busy)
      exact idle ⟨c, y, found', provider.trans own, counted⟩
    · simp only [Market.context, own, Market.countQueue, List.countP_eq_zero]
      intro y member serving
      obtain ⟨c, found'⟩ := List.getElem?_of_mem member
      obtain ⟨busy, provider⟩ := inProgress_of_serving (reached c y found') serving
      obtain ⟨l, e⟩ := (reachable_encodes (bookingMachine_reachableUnder (reached c y found'))).file
      exact idle ⟨c, y, found', provider, e.countsAsOngoing busy⟩
    · simp only [Market.context, List.any_eq_false, List.mem_eraseIdx_iff_getElem?, Bool.and_eq_true, beq_iff_eq]
      rintro y ⟨c, -, found'⟩ ⟨provider, ongoing⟩
      exact idle ⟨c, y, found', provider.trans own, by simp [BookingFile.countsAsOngoing, ongoing]⟩
  · rintro ⟨none_other, -, -⟩
    rw [Bool.eq_false_iff, ne_eq, current]
    rintro ⟨c, y, found', provider, counted⟩
    have apart : c ≠ b := by
      rintro rfl
      obtain rfl := Option.some.inj (found.symm.trans found')
      rw [uncounted] at counted
      cases counted
    have busy := other.mpr ⟨c, y, found', apart, provider.trans own.symm, counted⟩
    omega

theorem queued_paid (h : bookingMachine.Reachable x) (queued : x.file.queue = some q) :
    x.file.booking.paymentMethod = .gcash := by
  obtain ⟨l, e⟩ := (reachable_encodes (bookingMachine_reachableUnder h)).file
  have row := e.queue
  cases method : x.file.booking.paymentMethod with
  | gcash => rfl
  | onsiteCash => simp [method, queued, Lifecycle.queueRow] at row

/-- A booking that the workload offers to start has no refund in progress. -/
theorem ready_not_refunding (h : bookingMachine.Reachable x) (queued : x.file.queue = some q)
    (ready : paidStartBlockReason x.file.booking q = none) : x.file.refund.map (·.status) ≠ some .processing := by
  obtain ⟨l, e⟩ := (reachable_encodes (bookingMachine_reachableUnder h)).file
  obtain ⟨-, -, accepted, -, -⟩ := paidStartBlockReason_none.mp ready
  exact accepted_not_refunding h (queued_paid h queued) (accepted.resolve_right e.not_waiting)

/-- A start of a paid row succeeds when its booking has no refund in progress and the workload offers it. -/
theorem start_succeeds_iff (h : marketMachine.Reachable s)
    (eligible : (s.market.user p).any User.eligibleProvider = true) (found : s.market.bookings[b]? = some x)
    (queued : x.file.queue = some q) (own : q.providerId = p) :
    (s.market.stepBooking b (.request (.providerStartJob p)) updatedAt).isSome = true ↔
      x.file.refund.map (·.status) ≠ some .processing ∧ s.market.showsStart p b := by
  have ordered := queues_ordered h
  have sorted := (ordered.numbered p).sorted
  have known := fun (i : Nat) (y : BookingSystem) => booking_reachable h (b := i) (x := y)
  have reached := known b x found
  have provider : x.file.booking.providerId = p := by
    have queue := BookingSystem.queuedForProvider reached
    simp only [BookingFile.queuedForProvider, queued, Option.all_some, beq_iff_eq] at queue
    exact queue.symm.trans own
  have paid := queued_paid reached queued
  have admitted : (s.market.stepBooking b (.request (.providerStartJob p)) updatedAt).isSome = true ↔
      ∃ c, providerStartJob (s.market.context b x updatedAt) p x.file = .ok c := by
    rw [ordered.committed found reached rfl]
    simp only [BookingSystem.step, BookingSystem.request, requestTransaction]
    cases providerStartJob (s.market.context b x updatedAt) p x.file <;> simp
  rw [admitted, providerStartJob_paid_iff provider queued eligible, sorted.showsStart_iff found queued own]
  have first : (s.market.context b x updatedAt).firstWaiting = true ↔ (s.market.waitingEntries p).head? = some b := by
    simp [Market.context, provider]
  rw [first]
  by_cases ready : paidStartBlockReason x.file.booking q = none
  · obtain ⟨waiting, unstarted, accepted, -, -⟩ := paidStartBlockReason_none.mp ready
    have uncounted : x.file.countsAsOngoing = false := by
      rcases accepted with accepted | accepted <;>
        simp [BookingFile.countsAsOngoing, unstarted, accepted, queued, waiting]
    have idle : _ ↔ (s.market.context b x updatedAt).otherOngoing = 0 ∧ _ :=
      idle_iff sorted known found provider uncounted
    rw [idle]
    tauto
  · tauto

/-- For a provider who may start jobs, the workload offers the start of a paid row exactly when the start succeeds
    on the same state, and it offers at most one start. -/
theorem workload_predicts_start (h : marketMachine.Reachable s)
    (eligible : (s.market.user p).any User.eligibleProvider = true) :
    (∀ (b : BookingId) (x : BookingSystem) (q : Queue) (updatedAt : Millis), s.market.bookings[b]? = some x →
        x.file.queue = some q → q.providerId = p →
        (s.market.showsStart p b ↔
          (s.market.stepBooking b (.request (.providerStartJob p)) updatedAt).isSome = true))
      ∧ ∀ b c, s.market.showsStart p b → s.market.showsStart p c → b = c := by
  have sorted := ((queues_ordered h).numbered p).sorted
  have first : ∀ b, s.market.showsStart p b → (s.market.waitingEntries p).head? = some b := by
    intro b shown
    obtain ⟨x, q, found, queued, own⟩ := sorted.shown shown
    exact ((sorted.showsStart_iff found queued own).mp shown).1
  constructor
  · intro b x q updatedAt found queued own
    rw [start_succeeds_iff h eligible found queued own]
    constructor
    · intro shown
      have ready := ((sorted.showsStart_iff found queued own).mp shown).2.2
      exact ⟨ready_not_refunding (booking_reachable h found) queued ready, shown⟩
    · exact And.right
  · intro b c shown shown'
    exact Option.some.inj ((first b shown).symm.trans (first c shown'))

end Agreement

theorem workload_predicts_start_paid : ∃ t, marketMachine.exec sampleMarket samplePurchase = some t
    ∧ t.market.showsStart 2 0 ∧ (t.market.stepBooking 0 (.request (.providerStartJob 2)) 0).isSome = true := by
  obtain ⟨t, run, eligible, row, starts⟩ := sample_any (o := marketMachine.exec sampleMarket samplePurchase)
    (p := fun t => (t.market.user 2).any User.eligibleProvider = true
      ∧ ((t.market.bookings[0]?).bind (·.file.queue)).any (·.providerId == 2) = true
      ∧ (t.market.stepBooking 0 (.request (.providerStartJob 2)) 0).isSome = true) (by decide)
  obtain ⟨q, queued, own⟩ := (Option.any_eq_true _ _).mp row
  obtain ⟨x, found, queued⟩ := Option.bind_eq_some_iff.mp queued
  have predicts := workload_predicts_start (.of_exec sampleMarket_initial run) eligible
  exact ⟨t, run, (predicts.1 0 x q 0 found queued (by simpa using own)).mpr starts, starts⟩

end ServiceHub
