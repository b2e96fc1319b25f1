import ServiceHub.Booking.Starts
import ServiceHub.Market.Settlement

/-! # One job at a time

A provider works on one booking at a time, on hold or not, because a start counts every other
booking in progress. The served queue row is that of the booking in progress, and a hold can be
lifted without two jobs going on.
-/

namespace ServiceHub

open Guard

variable {s : MarketSystem} {m t : Market} {p : UserId} {b : BookingId} {x x' : BookingSystem}

/-- No two bookings of a provider are in progress. -/
def Market.OneJob (m : Market) : Prop :=
  ∀ (i j : Nat) (x y : BookingSystem), m.bookings[i]? = some x → m.bookings[j]? = some y →
    x.file.booking.providerId = y.file.booking.providerId →
    x.file.booking.inProgress = true → y.file.booking.inProgress = true → i = j

/-- The queue row stands in the queue of the booking's provider. -/
def BookingFile.queuedForProvider (f : BookingFile) : Bool :=
  f.queue.all (·.providerId == f.booking.providerId)

theorem BookingSystem.queuedForProvider (h : bookingMachine.Reachable x) :
    x.file.queuedForProvider = true := by
  refine h.invariant (I := fun x : BookingSystem => x.file.queuedForProvider = true) ?_ ?_
  · rintro ⟨f, _, _⟩ ⟨created, -, -⟩
    cases created with
    | cashRequest | cashOffer => rfl
    | paidCapture => simp [BookingFile.queuedForProvider]
  · intro x a x' queued hn
    obtain ⟨next, event, -⟩ := BookingSystem.next_event (bookingNext_of_next hn)
    have terms := event.sameTerms
    have provider := terms.column Booking.providerId fun _ => rfl
    have row := congrArg (Option.map Queue.providerId) terms.queue
    simp only [Option.map_map] at row
    have fixed : Queue.providerId ∘ Queue.terms = Queue.providerId := rfl
    rw [fixed] at row
    simp only [BookingFile.queuedForProvider] at queued ⊢
    cases before : x.file.queue <;> cases after : x'.file.queue <;> simp_all

/-- What a start counts are the bookings of the provider in progress. -/
theorem other_idle {updatedAt : Millis} (idle : (m.context b x updatedAt).otherOngoing = 0)
    {j : Nat} {y : BookingSystem} (found : m.bookings[j]? = some y) (other : j ≠ b)
    (same : y.file.booking.providerId = x.file.booking.providerId) : y.file.countsAsOngoing = false := by
  simp only [Market.context, List.countP_eq_zero, List.mem_eraseIdx_iff_getElem?] at idle
  have uncounted := idle y ⟨j, other, found⟩
  simpa [BookingFile.countsAsOngoing, same] using uncounted

theorem Renumbered.booking {y : BookingSystem} (h : Renumbered x y) :
    y.file.booking.inProgress = x.file.booking.inProgress
      ∧ y.file.booking.providerId = x.file.booking.providerId :=
  ⟨h.column (·.file.booking.inProgress) fun _ _ _ _ => rfl,
    h.column (·.file.booking.providerId) fun _ _ _ _ => rfl⟩

/-- A step of a booking that has brought it to its work. -/
structure JobBegun (m : Market) (b : BookingId) (x : BookingSystem) (t : Market) : Prop where
  stepped : ∃ u, BookingStepped m b x u t
  before : x.file.booking.inProgress = false
  admitted : ∃ updatedAt, StartAdmitted (m.context b x updatedAt) x.file

theorem BookingStepped.begun {u : BookingSystem} (h : BookingStepped m b x u t)
    (reached : bookingMachine.Reachable x) (before : x.file.booking.inProgress = false)
    (after : u.file.booking.inProgress = true) : JobBegun m b x t := by
  refine ⟨⟨u, h⟩, before, ?_⟩
  obtain ⟨updatedAt, st, effects, -, step, -⟩ := h.run
  have next : bookingNext x (.step (m.context b x updatedAt) st) = some u := by
    simp [bookingNext, step]
  obtain ⟨_, event, -⟩ := BookingSystem.next_event next
  exact ⟨updatedAt, event.begun (bookingMachine_reachableUnder reached) before after⟩

/-- A booking in progress was in progress before the step, or has been started by it. -/
theorem BookingRow.inProgress
    (reached : ∀ (i : Nat) (x : BookingSystem), s.market.bookings[i]? = some x → bookingMachine.Reachable x)
    (h : BookingRow s t b x') (busy : x'.file.booking.inProgress = true) :
    ∃ x, s.market.bookings[b]? = some x
      ∧ x'.file.booking.providerId = x.file.booking.providerId
      ∧ (x.file.booking.inProgress = true ∨ JobBegun s.market b x t) := by
  cases h with
  | @kept x found run =>
      obtain ⟨same, provider⟩ := run.booking
      exact ⟨x, found, provider, .inl (same ▸ busy)⟩
  | @stepped x u step run =>
      obtain ⟨same, provider⟩ := run.booking
      refine ⟨x, step.found, provider.trans (step.sameTerms.column Booking.providerId fun _ => rfl), ?_⟩
      cases before : x.file.booking.inProgress with
      | true => exact .inl rfl
      | false => exact .inr (step.begun (reached _ _ step.found) before (same ▸ busy))
  | cash _ cash run =>
      rw [run.booking.1] at busy
      rcases cash with rfl | rfl <;>
        simp [Terms.cashRequest, Terms.cashOffer, Booking.inProgress, BookingStatus.frozen] at busy
  | paid _ _ _ _ _ run =>
      rw [run.booking.1] at busy
      simp [PaymentAttempt.paidBooking, Booking.inProgress, BookingStatus.frozen] at busy

/-- Another booking of the provider is not in progress after a start. -/
theorem JobBegun.alone
    (reached : ∀ (i : Nat) (x : BookingSystem), m.bookings[i]? = some x → bookingMachine.Reachable x)
    (h : JobBegun m b x t) {j : Nat} {y' : BookingSystem} (found : t.bookings[j]? = some y')
    (same : y'.file.booking.providerId = x.file.booking.providerId)
    (busy : y'.file.booking.inProgress = true) : j = b := by
  obtain ⟨⟨u, step⟩, -, updatedAt, admitted⟩ := h
  obtain ⟨rfl, -⟩ | ⟨y, before, run⟩ := step.row found
  · rfl
  by_contra other
  obtain ⟨progress, provider⟩ := run.booking
  obtain ⟨l, e⟩ := (reachable_encodes (bookingMachine_reachableUnder (reached j y before))).file
  have counted := e.countsAsOngoing (progress ▸ busy)
  rw [other_idle admitted.idle before other (provider.symm.trans same)] at counted
  cases counted

theorem one_job {C : MarketSystem → MarketAction → Prop} (h : marketMachine.ReachableUnder C s) :
    s.market.OneJob := by
  refine h.invariant_with (J := marketMachine.ReachableUnder C) (I := fun s => s.market.OneJob)
    (fun _ h => h) ?_ ?_
  · rintro s ⟨-, -, -, empty, -⟩ i j x y found
    simp [empty] at found
  · intro s a s' reached one _ stepped i j x' y' found found' provider busy busy'
    have known := fun (i : Nat) (x : BookingSystem) => booking_reachable reached (b := i) (x := x)
    obtain ⟨next, event, -⟩ := MarketSystem.step_event stepped
    obtain ⟨x, old, same, was⟩ := (event.booking_row found).inProgress known busy
    obtain ⟨y, old', same', was'⟩ := (event.booking_row found').inProgress known busy'
    rcases was with was | begun
    · rcases was' with was' | begun'
      · exact one i j x y old old' (same.symm.trans (provider.trans same')) was was'
      · exact begun'.alone known found (provider.trans same') busy
    · exact (begun.alone known found' (provider.symm.trans same) busy').symm

/-- Only the queue row of the booking in progress is served. -/
theorem inProgress_of_serving (reached : bookingMachine.Reachable x) (serving : x.inQueue p .serving = true) :
    x.file.booking.inProgress = true ∧ x.file.booking.providerId = p := by
  have own := BookingSystem.queuedForProvider reached
  simp only [BookingSystem.inQueue, Option.any_eq_true, Bool.and_eq_true, beq_iff_eq] at serving
  obtain ⟨q, queued, provider, status⟩ := serving
  obtain ⟨l, e⟩ := (reachable_encodes (bookingMachine_reachableUnder reached)).file
  refine ⟨e.served queued status, ?_⟩
  simp only [BookingFile.queuedForProvider, queued, Option.all_some, beq_iff_eq] at own
  exact own.symm.trans provider

/-- The first entry of the queue by position. -/
structure Market.FirstWaiting (m : Market) (p : UserId) (b : BookingId) : Prop where
  waiting : ∃ x, m.bookings[b]? = some x ∧ x.inQueue p .waiting = true
  first : ∀ (c : Nat) (y : BookingSystem), m.bookings[c]? = some y → y.inQueue p .waiting = true →
    m.position b ≤ m.position c

theorem mem_entries {status : QueueStatus} : b ∈ m.entries p status ↔
    ∃ x, m.bookings[b]? = some x ∧ x.inQueue p status = true := by
  simp only [Market.entries, List.mem_filter, List.mem_range, Option.any_eq_true]
  constructor
  · rintro ⟨-, listed⟩
    exact listed
  · rintro ⟨x, found, queued⟩
    exact ⟨(List.getElem?_eq_some_iff.mp found).1, x, found, queued⟩

theorem waitingEntries_head (h : (m.waitingEntries p).head? = some b) : m.FirstWaiting p b := by
  have total : Std.Total fun a c : BookingId => m.position a ≤ m.position c := ⟨fun _ _ => Nat.le_total _ _⟩
  have order : IsTrans BookingId fun a c => m.position a ≤ m.position c := ⟨fun _ _ _ => Nat.le_trans⟩
  have sorted := List.pairwise_insertionSort (fun a c : BookingId => m.position a ≤ m.position c)
    (m.entries p .waiting)
  have listed : ∀ c, c ∈ m.waitingEntries p ↔ c ∈ m.entries p .waiting := fun c =>
    List.mem_insertionSort _
  have here := List.mem_of_mem_head? h
  refine ⟨mem_entries.mp ((listed b).mp here), fun c y found queued => ?_⟩
  have member := (listed c).mpr (mem_entries.mpr ⟨y, found, queued⟩)
  change (m.waitingEntries p).Pairwise _ at sorted
  cases entries : m.waitingEntries p with
  | nil => simp [entries] at h
  | cons b' rest =>
      obtain rfl : b' = b := by simpa [entries] using h
      rw [entries] at member sorted
      obtain rfl | later := List.mem_cons.mp member
      · exact Nat.le_refl _
      · exact (List.pairwise_cons.mp sorted).1 c later

/-- The hold of a booking can be lifted. -/
theorem restorable (one : m.OneJob) (found : m.bookings[b]? = some x) {updatedAt : Millis} {f : BookingFile}
    (same : f.booking = x.file.booking) :
    ∃ f', restoreBookingIfNoBlockingCases (m.context b x updatedAt) f = .ok f' := by
  simp only [restoreBookingIfNoBlockingCases]
  split
  · exact ⟨f, rfl⟩
  split
  · exact ⟨f, rfl⟩
  rename_i frozen
  split
  · exact ⟨f, rfl⟩
  rename_i before saved
  refine ⟨f.restored before, ?_⟩
  have alone : ¬ (before = .ongoing ∧ (m.context b x updatedAt).ongoingElsewhere = true) := by
    rintro ⟨rfl, elsewhere⟩
    simp only [Market.context, List.any_eq_true, List.mem_eraseIdx_iff_getElem?] at elsewhere
    obtain ⟨y, ⟨j, other, listed⟩, ongoing⟩ := elsewhere
    simp only [Bool.and_eq_true, beq_iff_eq] at ongoing
    refine other (one j b y x listed found ongoing.1 ?_ ?_)
    · simp [Booking.inProgress, ongoing.2]
    · rw [same] at frozen saved
      simp only [not_not] at frozen
      simp [Booking.inProgress, frozen, saved]
  simp only [Guard.rejectIf, if_neg alone]
  rfl

/-- A provider works on one booking at a time and serves one queue row; a paid job starts as the first
    of his waiting rows while none is served, a cash job while none waits; and lifting a hold never
    meets another ongoing job. -/
theorem one_job_at_a_time (h : marketMachine.Reachable s) :
    s.market.bookings.countP (fun x => x.file.booking.providerId == p && x.file.booking.inProgress) ≤ 1
      ∧ s.market.countQueue p .serving ≤ 1
      ∧ (∀ (a : MarketAction) (s' : MarketSystem) (b : Nat) (x x' : BookingSystem),
        s.step a = some s' → s.market.bookings[b]? = some x → s'.market.bookings[b]? = some x' →
        x.file.booking.providerId = p →
        x.file.booking.inProgress = false → x'.file.booking.inProgress = true →
        match x.file.booking.paymentMethod with
        | .gcash => s.market.FirstWaiting p b ∧ s.market.countQueue p .serving = 0
        | .onsiteCash => s.market.countQueue p .waiting = 0)
      ∧ (∀ (b : Nat) (x : BookingSystem) (updatedAt : Millis) (f : BookingFile),
        s.market.bookings[b]? = some x → f.booking = x.file.booking →
        ∃ f', restoreBookingIfNoBlockingCases (s.market.context b x updatedAt) f = .ok f') := by
  have one := one_job h
  have known := fun (i : Nat) (x : BookingSystem) => booking_reachable h (b := i) (x := x)
  refine ⟨Rows.countP_le_one ?_, Rows.countP_le_one ?_, ?_, fun b x updatedAt f found same =>
    restorable one found same⟩
  · intro i j x y found found' busy busy'
    simp only [Bool.and_eq_true, beq_iff_eq] at busy busy'
    exact one i j x y found found' (busy.1.trans busy'.1.symm) busy.2 busy'.2
  · intro i j x y found found' serving serving'
    obtain ⟨busy, own⟩ := inProgress_of_serving (known i x found) serving
    obtain ⟨busy', own'⟩ := inProgress_of_serving (known j y found') serving'
    exact one i j x y found found' (own.trans own'.symm) busy busy'
  · intro a s' b x x' stepped found found' provider before after
    obtain ⟨next, event, -⟩ := MarketSystem.step_event stepped
    obtain ⟨x₀, old, -, was⟩ := (event.booking_row found').inProgress known after
    obtain rfl := Option.some.inj (found.symm.trans old)
    obtain ⟨-, -, updatedAt, admitted⟩ := was.resolve_left (by simp [before])
    subst provider
    obtain ⟨l, e⟩ := (reachable_encodes (bookingMachine_reachableUnder (known b x found))).file
    cases method : x.file.booking.paymentMethod with
    | gcash =>
        obtain ⟨q, queued, -, -⟩ := e.queued method
        obtain ⟨-, -, first, serving⟩ := admitted.paid q queued
        exact ⟨waitingEntries_head (by simpa [Market.context] using first), serving⟩
    | onsiteCash =>
        have unqueued : x.file.queue = none := by simpa [method, Lifecycle.queueRow] using e.queue
        exact (admitted.cash unqueued).2

/-- A paid job is started and put on hold by a safety report. -/
def sampleHeldJob : List MarketAction :=
  samplePurchase ++ [.booking 0 (.request (.providerStartJob 2)) 0,
    .booking 0 (.request (.createSafetyReport 1 .noShow 0 none)) 0]

theorem one_job_at_a_time_held : ∃ t, marketMachine.exec sampleMarket sampleHeldJob = some t
    ∧ (∃ x, t.market.bookings[0]? = some x ∧ x.file.booking.status = .disputed)
    ∧ t.market.bookings.countP
        (fun x => x.file.booking.providerId == 2 && x.file.booking.inProgress) ≤ 1
    ∧ t.market.countQueue 2 .serving ≤ 1 := by
  obtain ⟨t, run, held⟩ := sample_any (o := marketMachine.exec sampleMarket sampleHeldJob)
    (p := fun t => (t.market.bookings[0]?).any (·.file.booking.status == .disputed) = true) (by decide)
  obtain ⟨x, found, disputed⟩ := (Option.any_eq_true _ _).mp held
  have one := one_job_at_a_time (p := 2) (.of_exec sampleMarket_initial run)
  exact ⟨t, run, ⟨x, found, by simpa using disputed⟩, one.1, one.2.1⟩

end ServiceHub
