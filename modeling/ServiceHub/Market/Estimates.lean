import Mathlib.Algebra.GroupWithZero.Nat
import Mathlib.Data.List.Find
import ServiceHub.Booking.Renumbers
import ServiceHub.Market.QueueRuns
import ServiceHub.Market.Starts

/-! # Wait estimates

A renumbering writes to each waiting row the minutes of the work before it. The estimates are those of
the job in progress and of the rows before, until a cash job ends without a renumbering, or a renumbering
counts a finished cash job on hold.
-/

namespace ServiceHub

open Guard

variable {s : MarketSystem} {m t : Market} {p : UserId} {b : BookingId} {x x' : BookingSystem}
  {wait position : Nat} {rows : List BookingId}

/-- `estimatedWait` of the queue row. -/
def Market.estimate (m : Market) (b : BookingId) : Nat :=
  (((m.bookings[b]?).bind (·.file.queue)).map (·.estimatedWait)).getD 0

/-- `estimatedDurationMins ?? 60`. -/
def Market.minutes (m : Market) (b : BookingId) : Nat := (m.duration b).getD 60

/-- The duration of the served job, or else of the cash job that is in progress. -/
def Market.workAhead (m : Market) (p : UserId) : Nat :=
  match (m.entries p .serving).head? with
  | some b => (m.duration b).getD 0
  | none => ((m.bookings.find? fun x => x.file.booking.providerId == p
      && x.file.booking.paymentMethod == .onsiteCash && x.file.booking.inProgress).bind
        (·.file.booking.estimatedDurationMins)).getD 0

/-- The wait that a renumbering begins with. -/
def Market.waitBefore (m : Market) (p : UserId) : Nat :=
  match (m.entries p .serving).head? with
  | some b => (m.duration b).getD 0
  | none => ((m.bookings.find? (·.file.booking.cashInProgress p)).bind
      (·.file.booking.estimatedDurationMins)).getD 0

/-- Each row is estimated at the wait and the minutes of the rows before it. -/
def Market.Estimated (m : Market) (wait : Nat) (rows : List BookingId) : Prop :=
  ∀ (i : Nat) (b : BookingId), rows[i]? = some b → m.estimate b = wait + ((rows.take i).map m.minutes).sum

section Rows

theorem estimated_nil : m.Estimated wait [] := fun i b found => by simp at found

theorem estimated_cons :
    m.Estimated wait (b :: rows) ↔ m.estimate b = wait ∧ m.Estimated (wait + m.minutes b) rows := by
  constructor
  · intro h
    refine ⟨by simpa using h 0 b rfl, fun i c found => ?_⟩
    have later := h (i + 1) c found
    rw [List.take_succ_cons, List.map_cons, List.sum_cons] at later
    omega
  · rintro ⟨first, later⟩ i c found
    cases i with
    | zero =>
        obtain rfl := Option.some.inj found
        simpa using first
    | succ i =>
        have rest := later i c found
        rw [List.take_succ_cons, List.map_cons, List.sum_cons]
        omega

theorem Market.Estimated.congr (h : m.Estimated wait rows) (estimates : ∀ c ∈ rows, t.estimate c = m.estimate c)
    (minutes : ∀ c ∈ rows, t.minutes c = m.minutes c) : t.Estimated wait rows := by
  intro i c found
  have before : (rows.take i).map t.minutes = (rows.take i).map m.minutes :=
    List.map_congr_left fun d listed => minutes d (List.mem_of_mem_take listed)
  rw [estimates c (List.mem_of_getElem? found), before]
  exact h i c found

theorem duration_renumbered (h : BookingsRenumbered m t) : t.duration = m.duration := by
  funext c
  have same := h.map (·.file.booking.estimatedDurationMins) fun _ _ _ _ => rfl
  have row := congrArg (fun column => column[c]?) same
  simp only [List.getElem?_map] at row
  have read : ∀ n : Market,
      n.duration c = ((n.bookings[c]?).map (·.file.booking.estimatedDurationMins)).bind id := by
    intro n
    rw [Option.bind_map]
    rfl
  rw [read, read, row]

theorem minutes_renumbered (h : BookingsRenumbered m t) : t.minutes = m.minutes := by
  funext c
  rw [Market.minutes, duration_renumbered h, Market.minutes]

theorem estimate_moved {waiting : Bool} (queued : ∃ y q, m.bookings[b]? = some y ∧ y.file.queue = some q) :
    (m.updateFile b (·.renumbered position wait waiting)).estimate = Function.update m.estimate b wait := by
  funext c
  simp only [Market.estimate, Market.updateFile, List.getElem?_modify]
  by_cases here : b = c
  · subst here
    obtain ⟨y, q, found, queued⟩ := queued
    simp [found, BookingFile.renumbered, queued]
  · rw [Function.update_of_ne (Ne.symm here)]
    cases found : m.bookings[c]? <;> simp [Market.estimate, found, here]

/-- The loop writes the estimates of its rows and of no other. -/
theorem renumberWaiting_estimates (nodup : rows.Nodup) (listed : ∀ c ∈ rows, c ∈ m.entries p .waiting)
    (h : Market.renumberWaiting p position wait rows m = .ok t) :
    t.Estimated wait rows ∧ ∀ c, c ∉ rows → t.estimate c = m.estimate c := by
  induction rows generalizing m position wait with
  | nil =>
      obtain rfl := pure_ok.mp h
      exact ⟨estimated_nil, fun _ _ => rfl⟩
  | cons b rest ih =>
      simp only [Market.renumberWaiting, bind_ok] at h
      obtain ⟨moved, move, loop⟩ := h
      rw [moved_numbered move] at loop
      obtain ⟨apart, nodup⟩ := List.nodup_cons.mp nodup
      have renumbered : BookingsRenumbered m (m.updateFile b (·.renumbered position wait true)) :=
        updateFile_renumbered
      have later : ∀ c ∈ rest, c ∈ (m.updateFile b (·.renumbered position wait true)).entries p .waiting := by
        intro c member
        rw [entries_renumbered renumbered]
        exact listed c (List.mem_cons_of_mem _ member)
      obtain ⟨estimated, others⟩ := ih nodup later loop
      obtain ⟨y, q, found, queued, -, -⟩ :=
        mem_activeEntries.mp (List.mem_append_right _ (listed b List.mem_cons_self))
      have written : (m.updateFile b (·.renumbered position wait true)).estimate = Function.update m.estimate b wait :=
        estimate_moved ⟨y, q, found, queued⟩
      have minutes := minutes_renumbered (renumberWaiting_renumbered loop)
      rw [minutes_renumbered renumbered] at minutes
      constructor
      · refine estimated_cons.mpr ⟨?_, ?_⟩
        · rw [others b apart, written, Function.update_self]
        · rw [minutes]
          exact estimated
      · intro c absent
        have other : c ≠ b := fun same => absent (List.mem_cons.mpr (.inl same))
        rw [others c fun member => absent (List.mem_cons_of_mem _ member), written, Function.update_of_ne other]

/-- A renumbering writes the estimates of its provider from the wait it begins with. -/
theorem recalculateQueue_estimates (sorted : QueueSorted m p) (h : m.recalculateQueue p = .ok t) :
    t.Estimated (m.waitBefore p) (m.entries p .waiting)
      ∧ ∀ c, c ∉ m.activeEntries p → t.estimate c = m.estimate c := by
  have nodup : (m.entries p .waiting).Nodup := List.nodup_range.filter _
  simp only [Market.recalculateQueue, sorted.waitingEntries] at h
  obtain unserved | ⟨b, served⟩ := sorted.served_cases
  · simp only [unserved, List.head?_nil] at h
    obtain ⟨estimated, others⟩ := renumberWaiting_estimates nodup (fun _ listed => listed) h
    constructor
    · simpa only [Market.waitBefore, unserved, List.head?_nil] using estimated
    · exact fun c inactive => others c fun waits => inactive (List.mem_append_right _ waits)
  · simp only [served, List.head?_cons, bind_ok] at h
    obtain ⟨u, move, loop⟩ := h
    have here : b ∈ m.entries p .serving := by simp [served]
    obtain ⟨y, q, found, queued, -, -⟩ := mem_activeEntries.mp (List.mem_append_left _ here)
    have renumbered : BookingsRenumbered m u := by
      rw [moveEntry_renumbered move]
      exact updateFile_renumbered
    have listed : ∀ c ∈ m.entries p .waiting, c ∈ u.entries p .waiting := by
      intro c waits
      rw [entries_renumbered renumbered]
      exact waits
    obtain ⟨estimated, others⟩ := renumberWaiting_estimates nodup listed loop
    constructor
    · simpa only [Market.waitBefore, served, List.head?_cons] using estimated
    · intro c inactive
      have other : c ≠ b := fun same => inactive (same ▸ List.mem_append_left _ here)
      rw [others c fun waits => inactive (List.mem_append_right _ waits), moveEntry_renumbered move,
        estimate_moved ⟨y, q, found, queued⟩, Function.update_of_ne other]

end Rows

section Jobs

def Booking.worksFor (p : UserId) (b : Booking) : Bool := b.providerId == p && b.inProgress

theorem Market.OneJob.same (one : m.OneJob) {y : BookingSystem} (listed : x ∈ m.bookings) (listed' : y ∈ m.bookings)
    (provider : x.file.booking.providerId = y.file.booking.providerId) (busy : x.file.booking.inProgress = true)
    (busy' : y.file.booking.inProgress = true) : x = y := by
  obtain ⟨i, found⟩ := List.getElem?_of_mem listed
  obtain ⟨j, found'⟩ := List.getElem?_of_mem listed'
  obtain rfl := one i j x y found found' provider busy busy'
  exact Option.some.inj (found.symm.trans found')

/-- The work ahead is that of the one booking in progress. -/
theorem workAhead_eq (one : m.OneJob) (sorted : QueueSorted m p)
    (reached : ∀ (i : Nat) (y : BookingSystem), m.bookings[i]? = some y → bookingMachine.Reachable y) :
    m.workAhead p = ((m.bookings.find? (·.file.booking.worksFor p)).bind
      (·.file.booking.estimatedDurationMins)).getD 0 := by
  rw [Market.workAhead]
  obtain unserved | ⟨b, served⟩ := sorted.served_cases
  · simp only [unserved, List.head?_nil]
    congr 2
    refine List.find?_congr fun x listed => ?_
    obtain ⟨i, found⟩ := List.getElem?_of_mem listed
    obtain ⟨l, e⟩ := (reachable_encodes (bookingMachine_reachableUnder (reached i x found))).file
    have own := BookingSystem.queuedForProvider (reached i x found)
    by_cases here : x.file.booking.providerId = p ∧ x.file.booking.inProgress = true
    · cases method : x.file.booking.paymentMethod with
      | onsiteCash => simp [Booking.worksFor, here]
      | gcash =>
          obtain ⟨q, queued, serving⟩ := e.serves method here.2
          have provider : q.providerId = p := by
            simp only [BookingFile.queuedForProvider, queued, Option.all_some, beq_iff_eq] at own
            exact own.trans here.1
          have member : i ∈ m.entries p .serving :=
            mem_entries.mpr ⟨x, found, by simp [BookingSystem.inQueue, queued, provider, serving]⟩
          simp [unserved] at member
    · have absent : x.file.booking.worksFor p = false := by simpa [Booking.worksFor] using here
      rw [Bool.and_right_comm, absent]
      rw [Booking.worksFor] at absent
      rw [absent, Bool.false_and]
  · obtain ⟨x, found, serving⟩ := mem_entries.mp (show b ∈ m.entries p .serving by simp [served])
    obtain ⟨busy, own⟩ := inProgress_of_serving (reached b x found) serving
    have job : m.bookings.find? (·.file.booking.worksFor p) = some x := by
      refine Rows.find_only (List.mem_of_getElem? found) (by simp [Booking.worksFor, own, busy]) fun y listed is => ?_
      simp only [Booking.worksFor, Bool.and_eq_true, beq_iff_eq] at is
      exact one.same listed (List.mem_of_getElem? found) (is.1.trans own.symm) is.2 busy
    simp [served, job, Market.duration, found]

/-- A finished cash job on hold may stand in the place of the one in progress; the query has no order. -/
def misled (rows : List BookingSystem) (p : UserId) : Prop :=
  ∃ y ∈ rows, y.file.booking.cashInProgress p = true ∧ y.file.booking.finishedOnHold = true

theorem Encodes.cashInProgress_iff {f : BookingFile} {l : Lifecycle} (e : Encodes f l) :
    f.booking.cashInProgress p = true ↔ f.booking.providerId = p ∧ f.booking.paymentMethod = .onsiteCash
      ∧ (f.booking.inProgress = true ∨ f.booking.finishedOnHold = true) := by
  simp only [Booking.cashInProgress, Bool.and_eq_true, Bool.or_eq_true, beq_iff_eq]
  constructor
  · rintro ⟨⟨⟨own, cash⟩, started⟩, status⟩
    refine ⟨own, cash, e.countsAsOngoing_iff.mp ?_⟩
    rcases status with ongoing | frozen
    · simp [BookingFile.countsAsOngoing, ongoing]
    · simp [BookingFile.countsAsOngoing, started, cash, frozen]
  · rintro ⟨own, cash, job⟩
    obtain ⟨started, status⟩ := e.cashStarted cash job
    exact ⟨⟨⟨own, cash⟩, started⟩, status⟩

/-- A renumbering begins with the work ahead, unless it is misled. -/
theorem waitBefore_eq (one : m.OneJob)
    (reached : ∀ (i : Nat) (y : BookingSystem), m.bookings[i]? = some y → bookingMachine.Reachable y)
    (right : m.entries p .serving = [] → ¬ misled m.bookings p) : m.waitBefore p = m.workAhead p := by
  have encoded : ∀ y ∈ m.bookings, ∃ l, Encodes y.file l := by
    intro y listed
    obtain ⟨i, found⟩ := List.getElem?_of_mem listed
    exact (reachable_encodes (bookingMachine_reachableUnder (reached i y found))).file
  rw [Market.waitBefore, Market.workAhead]
  cases served : m.entries p .serving with
  | cons b rest => rfl
  | nil =>
      simp only [List.head?_nil]
      congr 2
      cases found : m.bookings.find? (·.file.booking.cashInProgress p) with
      | none =>
          symm
          refine List.find?_eq_none.mpr fun y listed job => List.find?_eq_none.mp found y listed ?_
          obtain ⟨l, e⟩ := encoded y listed
          simp only [Bool.and_eq_true, beq_iff_eq] at job
          exact e.cashInProgress_iff.mpr ⟨job.1.1, job.1.2, .inl job.2⟩
      | some y =>
          have listed := List.mem_of_find?_eq_some found
          obtain ⟨l, e⟩ := encoded y listed
          have first := List.find?_some found
          obtain ⟨own, cash, busy | finished⟩ := e.cashInProgress_iff.mp first
          · symm
            refine Rows.find_only listed (by simp [own, cash, busy]) fun z listed' job => ?_
            simp only [Bool.and_eq_true, beq_iff_eq] at job
            exact one.same listed' listed (job.1.1.trans own.symm) job.2 busy
          · exact absurd ⟨y, listed, first, finished⟩ (right served)

end Jobs

/-- The estimates of the provider are those of the work ahead. -/
abbrev Market.Current (m : Market) (p : UserId) : Prop := m.Estimated (m.workAhead p) (m.entries p .waiting)

/-- What is known of the tables between transactions. -/
structure Market.Sound (m : Market) : Prop where
  one : m.OneJob
  ordered : QueuesOrdered m
  reached : ∀ (i : Nat) (y : BookingSystem), m.bookings[i]? = some y → bookingMachine.Reachable y

theorem market_sound {C : MarketSystem → MarketAction → Prop} (h : marketMachine.ReachableUnder C s) :
    s.market.Sound :=
  ⟨one_job h, queues_ordered h, fun _ _ found => booking_reachable h found⟩

section Writes

/-- The column pair from which the job in progress of the provider is read. -/
abbrev jobColumns (p : UserId) (x : BookingSystem) : Bool × Option Nat :=
  (x.file.booking.worksFor p, x.file.booking.estimatedDurationMins)

theorem workAhead_columns (sound : m.Sound) : m.workAhead p =
    (((m.bookings.find? (·.file.booking.worksFor p)).map (·.file.booking.estimatedDurationMins)).bind id).getD 0 := by
  rw [workAhead_eq sound.one (sound.ordered.numbered p).sorted sound.reached, Option.bind_map]
  rfl

theorem workAhead_same (sound : m.Sound) (sound' : t.Sound)
    (same : t.bookings.map (jobColumns p) = m.bookings.map (jobColumns p)) : t.workAhead p = m.workAhead p := by
  rw [workAhead_columns sound', workAhead_columns sound, Rows.find_columns same]

theorem Market.Current.same (h : m.Current p) (ahead : t.workAhead p = m.workAhead p)
    (entries : t.entries p .waiting = m.entries p .waiting)
    (estimates : ∀ c ∈ m.entries p .waiting, t.estimate c = m.estimate c)
    (minutes : ∀ c ∈ m.entries p .waiting, t.minutes c = m.minutes c) : t.Current p := by
  rw [Market.Current, ahead, entries]
  exact Market.Estimated.congr h estimates minutes

theorem estimate_of_bookings (same : t.bookings = m.bookings) : t.estimate = m.estimate := by
  funext c
  simp only [Market.estimate, same]

theorem minutes_of_bookings (same : t.bookings = m.bookings) : t.minutes = m.minutes := by
  funext c
  simp only [Market.minutes, Market.duration, same]

theorem Market.Current.of_bookings (h : m.Current p) (same : t.bookings = m.bookings) : t.Current p := by
  refine h.same ?_ (entries_of_bookings same) (fun _ _ => by rw [estimate_of_bookings same])
    fun _ _ => by rw [minutes_of_bookings same]
  simp only [Market.workAhead, entries_of_bookings same, Market.duration, same]

theorem misled_renumbered (h : BookingsRenumbered m t) : misled t.bookings p ↔ misled m.bookings p := by
  have columns := h.map (fun x => x.file.booking.cashInProgress p && x.file.booking.finishedOnHold) fun _ _ _ _ => rfl
  have read : ∀ rows : List BookingSystem, misled rows p ↔
      true ∈ rows.map fun x => x.file.booking.cashInProgress p && x.file.booking.finishedOnHold := by
    intro rows
    simp [misled]
  rw [read, read, columns]

theorem waitBefore_renumbered (h : BookingsRenumbered m t) : t.waitBefore p = m.waitBefore p := by
  have columns := h.map (fun x => (x.file.booking.cashInProgress p, x.file.booking.estimatedDurationMins))
    fun _ _ _ _ => rfl
  have first := congrArg (Option.bind · id) (Rows.find_columns columns)
  simp only [Option.bind_map] at first
  simp only [Market.waitBefore, entries_renumbered h, duration_renumbered h]
  split
  · rfl
  · exact congrArg (Option.getD · 0) first

/-- After a renumbering that is not misled the estimates are those of the work ahead. -/
theorem recalculateQueue_current (sorted : QueueSorted m p) (run : m.recalculateQueue p = .ok t) (sound : t.Sound)
    (right : m.entries p .serving = [] → ¬ misled m.bookings p) : t.Current p := by
  have renumbered := recalculateQueue_renumbered run
  have begins : m.waitBefore p = t.workAhead p := by
    rw [← waitBefore_renumbered renumbered]
    apply waitBefore_eq sound.one sound.reached
    rw [entries_renumbered renumbered, misled_renumbered renumbered]
    exact right
  rw [Market.Current, entries_renumbered renumbered, ← begins]
  exact (recalculateQueue_estimates sorted run).1

/-- The estimates of the other providers are not written. -/
theorem recalculateQueue_others {p' : UserId} (h : m.Current p') (sorted : QueueSorted m p)
    (run : m.recalculateQueue p = .ok t) (ahead : t.workAhead p' = m.workAhead p')
    (other : p' ≠ p) : t.Current p' := by
  have renumbered := recalculateQueue_renumbered run
  refine h.same ahead (entries_renumbered renumbered) (fun c listed => ?_) fun c _ => ?_
  · apply (recalculateQueue_estimates sorted run).2
    exact activeEntries_disjoint other (List.mem_append_right _ listed)
  · rw [minutes_renumbered renumbered]

/-- A step after which an estimate can differ from the work ahead: a cash job in progress is cancelled, or a
    renumbering is misled, while a paid booking waits. -/
inductive Misestimates (s : MarketSystem) : MarketAction → Prop where
  | cancels {b k answer updatedAt x caller} (found : s.market.bookings[b]? = some x)
      (settles : x.calls[k]? = some ⟨caller, .cancelSettle false⟩) (participant : caller.preStartRequest = none)
      (cash : x.file.booking.paymentMethod = .onsiteCash) (busy : x.file.booking.inProgress = true)
      (waited : s.market.entries x.file.booking.providerId .waiting ≠ []) :
      Misestimates s (.booking b (.resume k answer) updatedAt)
  | renumbers {b st updatedAt x} (found : s.market.bookings[b]? = some x) (renumbers : x.renumbers st)
      (unserved : ∀ c ∈ s.market.entries x.file.booking.providerId .serving, c = b)
      (waited : ∃ c ∈ s.market.entries x.file.booking.providerId .waiting, c ≠ b)
      (finished : misled (s.market.bookings.eraseIdx b) x.file.booking.providerId) :
      Misestimates s (.booking b st updatedAt)
  | resizes {p limit} (unserved : s.market.entries p .serving = []) (waited : s.market.entries p .waiting ≠ [])
      (finished : misled s.market.bookings p) : Misestimates s (.setCapacity p limit)
  | books {k reply origin payment a fresh} (found : s.calls[k]? = some (.finalize origin payment))
      (registered : s.market.findIntent payment.paymentIntentId = some a)
      (open_ : Unsettled a payment s.market fresh) (bookable : Bookable fresh (markPaid a s.market))
      (unserved : s.market.entries fresh.providerId .serving = [])
      (finished : misled s.market.bookings fresh.providerId) : Misestimates s (.resume k reply)

theorem minutes_written (found : m.bookings[b]? = some x) (terms : SameTerms x.file x'.file) :
    (m.written b x').minutes = m.minutes := by
  funext c
  have same := terms.column Booking.estimatedDurationMins fun _ => rfl
  simp only [Market.minutes, Market.duration, written_row found]
  split
  · rename_i here
    subst here
    simp [found, same]
  · rfl

theorem estimate_written {c : BookingId} (other : c ≠ b) : (m.written b x').estimate c = m.estimate c := by
  simp [Market.estimate, Ne.symm other]

/-- What a transaction of a booking leaves of the estimates. -/
theorem applyEffects_estimates {effects : Effects} (sorted : QueueSorted (m.written b x') x.file.booking.providerId)
    (applied : (m.written b x').applyEffects x.file.booking effects = .ok t) {c : BookingId}
    (kept : effects.recalculates = false ∨ c ∉ (m.written b x').activeEntries x.file.booking.providerId) :
    t.estimate c = (m.written b x').estimate c := by
  obtain ⟨requests, user, frame⟩ := writeEffects_frame x.file.booking effects (m.written b x')
  have same : ((m.written b x').writeEffects x.file.booking effects).bookings = (m.written b x').bookings := by
    rw [frame]
  simp only [Market.applyEffects, ite_ok, pure_ok] at applied
  rw [← estimate_of_bookings same]
  obtain ⟨recalculates, run⟩ | ⟨-, rfl⟩ := applied
  · have inactive : c ∉ (m.written b x').activeEntries x.file.booking.providerId := by
      rcases kept with quiet | inactive
      · rw [recalculates] at quiet
        cases quiet
      · exact inactive
    refine (recalculateQueue_estimates (sorted.of_bookings same) run).2 c ?_
    simpa only [Market.activeEntries, entries_of_bookings same] using inactive
  · rfl

section Step

variable {st : Step} {updatedAt : Millis} {effects : Effects}

/-- A step of a booking of another provider. -/
theorem stepped_others (sound : m.Sound) (sound' : t.Sound) (current : m.Current p) (found : m.bookings[b]? = some x)
    (provider : SameProvider x x') (terms : SameTerms x.file x'.file)
    (sorted : QueueSorted (m.written b x') x.file.booking.providerId)
    (applied : (m.written b x').applyEffects x.file.booking effects = .ok t)
    (other : p ≠ x.file.booking.providerId) : t.Current p := by
  have renumbered := applyEffects_renumbered applied
  obtain ⟨requests, user, frame⟩ := writeEffects_frame x.file.booking effects (m.written b x')
  rw [frame] at renumbered
  have own := terms.column Booking.providerId fun _ => rfl
  have minutes := terms.column Booking.estimatedDurationMins fun _ => rfl
  have away : ∀ status, (m.written b x').entries p status = m.entries p status := by
    intro status
    apply entries_written found
    obtain ⟨before, after⟩ := provider.not_inQueue other status
    rw [before, after]
  have entries : t.entries p .waiting = m.entries p .waiting := (entries_renumbered renumbered).trans (away .waiting)
  have elsewhere : x.file.booking.worksFor p = false := by simp [Booking.worksFor, Ne.symm other]
  have elsewhere' : x'.file.booking.worksFor p = false := by simp [Booking.worksFor, own, Ne.symm other]
  refine current.same (workAhead_same sound sound' ?_) entries (fun c listed => ?_) fun c _ => ?_
  · rw [renumbered.map (jobColumns p) fun _ _ _ _ => rfl]
    apply Threads.map_set_same found
    simp only [jobColumns, elsewhere, elsewhere', minutes]
  · have apart : c ∉ (m.written b x').activeEntries x.file.booking.providerId := by
      apply activeEntries_disjoint other
      rw [Market.activeEntries, away, away]
      exact List.mem_append_right _ listed
    rw [applyEffects_estimates sorted applied (.inr apart), estimate_written]
    intro here
    subst here
    obtain ⟨y, listed, waits⟩ := mem_entries.mp listed
    obtain rfl := Option.some.inj (found.symm.trans listed)
    rw [(provider.not_inQueue other .waiting).1] at waits
    cases waits
  · rw [minutes_renumbered renumbered]
    exact congrFun (minutes_written found terms) c

theorem Market.Current.of_idle (none_waits : m.entries p .waiting = []) : m.Current p := by
  rw [Market.Current, none_waits]
  exact estimated_nil

/-- A step that renumbers the queue of its provider. -/
theorem stepped_renumbered (sound' : t.Sound) (found : m.bookings[b]? = some x)
    (sorted : QueueSorted (m.written b x') x.file.booking.providerId) (off : x'.file.OffQueue)
    (recalculates : effects.recalculates = true)
    (applied : (m.written b x').applyEffects x.file.booking effects = .ok t)
    (right : (∀ c ∈ m.entries x.file.booking.providerId .serving, c = b) →
      (∃ c ∈ m.entries x.file.booking.providerId .waiting, c ≠ b) →
      ¬ misled (m.bookings.eraseIdx b) x.file.booking.providerId) : t.Current x.file.booking.providerId := by
  obtain ⟨requests, user, frame⟩ := writeEffects_frame x.file.booking effects (m.written b x')
  have same : ((m.written b x').writeEffects x.file.booking effects).bookings = (m.written b x').bookings := by
    rw [frame]
  have unread : ∀ status c, c ∈ (m.written b x').entries x.file.booking.providerId status → c ≠ b →
      c ∈ m.entries x.file.booking.providerId status := by
    intro status c listed other
    obtain ⟨y, row, queued⟩ := mem_entries.mp listed
    rw [written_row found, if_neg other] at row
    exact mem_entries.mpr ⟨y, row, queued⟩
  have kept : ∀ status c, c ∈ m.entries x.file.booking.providerId status → c ≠ b →
      c ∈ (m.written b x').entries x.file.booking.providerId status := by
    intro status c listed other
    obtain ⟨y, row, queued⟩ := mem_entries.mp listed
    refine mem_entries.mpr ⟨y, ?_, queued⟩
    rw [written_row found, if_neg other, row]
  simp only [Market.applyEffects, if_pos recalculates] at applied
  cases waited : (m.written b x').entries x.file.booking.providerId .waiting with
  | nil =>
      apply Market.Current.of_idle
      rw [entries_renumbered (recalculateQueue_renumbered applied), entries_of_bookings same, waited]
  | cons c rest =>
      apply recalculateQueue_current (sorted.of_bookings same) applied sound'
      intro unserved finished
      rw [entries_of_bookings same] at unserved
      rw [same] at finished
      have listed : c ∈ (m.written b x').entries x.file.booking.providerId .waiting := by simp [waited]
      have other : c ≠ b := by
        intro here
        subst here
        obtain ⟨y, row, waits⟩ := mem_entries.mp listed
        rw [written_row found, if_pos rfl] at row
        obtain rfl := Option.some.inj row
        simp only [BookingSystem.inQueue, Option.any_eq_true, Bool.and_eq_true, beq_iff_eq] at waits
        obtain ⟨q, queued, -, status⟩ := waits
        exact off.row q queued status
      refine right (fun d served => ?_) ⟨c, unread _ c listed other, other⟩ ?_
      · by_contra apart
        have still := kept _ d served apart
        simp [unserved] at still
      · have idle : x'.file.booking.cashInProgress x.file.booking.providerId = false := by
          by_contra busy
          simp only [Booking.cashInProgress, Bool.and_eq_true, Bool.or_eq_true, beq_iff_eq, Bool.not_eq_false] at busy
          obtain ⟨⟨⟨-, cash⟩, -⟩, status⟩ := busy
          obtain ⟨paused, thawed⟩ := off.cash cash
          rcases status with ongoing | frozen
          · exact paused ongoing
          · rw [thawed] at frozen
            cases frozen
        let counted : BookingSystem → Bool := fun y =>
          y.file.booking.cashInProgress x.file.booking.providerId && y.file.booking.finishedOnHold
        have passed : (m.bookings.set b x').find? counted = (m.bookings.eraseIdx b).find? counted :=
          Rows.find_set (by simp [counted, idle])
        have held : ((m.bookings.set b x').find? counted).isSome = true := by
          obtain ⟨y, listed, first, job⟩ := finished
          exact List.find?_isSome.mpr ⟨y, listed, by simp [counted, first, job]⟩
        rw [passed, List.find?_isSome] at held
        obtain ⟨y, listed, both⟩ := held
        exact ⟨y, listed, Bool.and_eq_true_iff.mp both⟩

/-- A step that leaves the queue of its provider alone. -/
theorem stepped_quiet (sound : m.Sound) (sound' : t.Sound) (current : m.Current x.file.booking.providerId)
    (found : m.bookings[b]? = some x) (step : x.step (m.context b x updatedAt) st = some (x', effects))
    (provider : SameProvider x x') (terms : SameTerms x.file x'.file)
    (sorted : QueueSorted (m.written b x') x.file.booking.providerId) (quiet : effects.recalculates = false)
    (applied : (m.written b x').applyEffects x.file.booking effects = .ok t)
    (right : x.file.queue = none → x.file.booking.inProgress = true → x'.file.booking.status = .canceled →
      m.entries x.file.booking.providerId .waiting = []) : t.Current x.file.booking.providerId := by
  obtain ⟨c, columns, file, same⟩ := BookingSystem.step_columns step
  have unnumbered : c.recalculates = false := by
    rw [same] at quiet
    exact quiet
  have renumbered := applyEffects_renumbered applied
  obtain ⟨requests, user, frame⟩ := writeEffects_frame x.file.booking effects (m.written b x')
  rw [frame] at renumbered
  have moved := columns.queueMoved
  rw [unnumbered, ← file] at moved
  obtain ⟨status, places⟩ : x'.file.queue.map (·.status) = x.file.queue.map (·.status)
      ∧ x'.file.places = x.file.places := by
    cases moved with
    | kept status places => exact ⟨status, places⟩
    | started _ _ _ _ _ _ _ _ renumbers => cases renumbers
    | left _ renumbers => cases renumbers
  have entries : t.entries x.file.booking.providerId .waiting = m.entries x.file.booking.providerId .waiting := by
    refine (entries_renumbered renumbered).trans (entries_written found ?_)
    have queue := provider.queue
    simp only [BookingSystem.inQueue]
    cases before : x.file.queue <;> cases after : x'.file.queue <;> simp_all
  have job := columns.jobMoved unnumbered
  rw [← file] at job
  cases job with
  | begun alone =>
      apply Market.Current.of_idle
      rw [entries, ← List.length_eq_zero_iff, ← countQueue_eq]
      exact alone
  | dropped unqueued busy canceled =>
      apply Market.Current.of_idle
      rw [entries]
      exact right unqueued busy canceled
  | kept busy =>
      have own := terms.column Booking.providerId fun _ => rfl
      have minutes := terms.column Booking.estimatedDurationMins fun _ => rfl
      refine current.same (workAhead_same sound sound' ?_) entries (fun d _ => ?_) fun d _ => ?_
      · rw [renumbered.map (jobColumns _) fun _ _ _ _ => rfl]
        apply Threads.map_set_same found
        simp only [jobColumns, Booking.worksFor, own, busy, minutes]
      · rw [applyEffects_estimates sorted applied (.inl quiet)]
        by_cases here : d = b
        · subst here
          have waits := congrArg (Option.map Prod.snd) (congrArg Prod.snd places)
          simp only [BookingFile.places, Option.map_map, Function.comp_def] at waits
          simp only [Market.estimate, written_row found, if_true, found, Option.bind_some, waits]
        · exact estimate_written here
      · rw [minutes_renumbered renumbered]
        exact congrFun (minutes_written found terms) d

theorem stepped_current (sound : s.market.Sound) (sound' : t.Sound) (current : ∀ p, s.market.Current p)
    (found : s.market.bookings[b]? = some x)
    (step : x.step (s.market.context b x updatedAt) st = some (x', effects))
    (applied : (s.market.written b x').applyEffects x.file.booking effects = .ok t)
    (right : ¬ Misestimates s (.booking b st updatedAt)) (p : UserId) : t.Current p := by
  have reached := sound.reached b x found
  have next : bookingNext x (.step (s.market.context b x updatedAt) st) = some x' := by simp [bookingNext, step]
  obtain ⟨_, event, -⟩ := BookingSystem.next_event next
  have terms := event.sameTerms
  have provider : SameProvider x x' := by
    refine ⟨BookingSystem.queuedForProvider reached, ?_⟩
    have row := congrArg (Option.map Queue.providerId) terms.queue
    rw [Option.map_map, Option.map_map] at row
    exact row
  have sorted : QueueSorted (s.market.written b x') x.file.booking.providerId := by
    obtain ordered | ⟨-, ready⟩ := sound.ordered.step found reached step
    · exact (ordered.numbered _).sorted
    · exact ready.sorted
  by_cases own : p = x.file.booking.providerId
  · subst own
    cases recalculates : effects.recalculates with
    | true =>
        obtain ⟨renumbers, off⟩ := BookingSystem.step_renumbers step recalculates
        refine stepped_renumbered sound' found sorted off recalculates applied fun unserved waited finished => ?_
        exact right (.renumbers found renumbers unserved waited finished)
    | false =>
        refine stepped_quiet sound sound' (current _) found step provider terms sorted recalculates applied ?_
        intro unqueued busy canceled
        obtain ⟨l, e⟩ := (reachable_encodes (bookingMachine_reachableUnder reached)).file
        obtain ⟨k, answer, caller, rfl, settles, participant⟩ := event.cancelsJob e unqueued busy canceled
        by_contra waited
        have cash : x.file.booking.paymentMethod = .onsiteCash := e.cash_of_unqueued unqueued
        exact right (.cancels found settles participant cash busy waited)
  · exact stepped_others sound sound' (current p) found provider terms sorted applied own

end Step

theorem Market.Sound.of_bookings (sound : m.Sound) (same : t.bookings = m.bookings) : t.Sound where
  one := by
    unfold Market.OneJob
    rw [same]
    exact sound.one
  ordered := sound.ordered.of_bookings same
  reached := by
    rw [same]
    exact sound.reached

section Created

variable {y : BookingSystem}

theorem estimate_joined {c : BookingId} {status : QueueStatus} (listed : c ∈ m.entries p status) :
    (m.joined y).estimate c = m.estimate c := by
  obtain ⟨x, found, -⟩ := mem_entries.mp listed
  simp only [Market.estimate]
  rw [List.getElem?_append_left (List.getElem?_eq_some_iff.mp found).1]

theorem minutes_joined {c : BookingId} {status : QueueStatus} (listed : c ∈ m.entries p status) :
    (m.joined y).minutes c = m.minutes c := by
  obtain ⟨x, found, -⟩ := mem_entries.mp listed
  simp only [Market.minutes, Market.duration]
  rw [List.getElem?_append_left (List.getElem?_eq_some_iff.mp found).1]

/-- A created booking is no work ahead. -/
theorem workAhead_joined (sound : m.Sound) (sound' : t.Sound) (idle : y.file.booking.worksFor p = false)
    (same : t.bookings.map (jobColumns p) = (m.joined y).bookings.map (jobColumns p)) :
    t.workAhead p = m.workAhead p := by
  rw [workAhead_columns sound', workAhead_columns sound, Rows.find_columns same]
  simp [List.find?_append, idle]

/-- A cash booking joins no queue. -/
theorem joined_current (sound : m.Sound) (sound' : (m.joined y).Sound) (current : m.Current p)
    (idle : y.file.booking.worksFor p = false) (unqueued : y.file.queue = none) : (m.joined y).Current p := by
  have entries : (m.joined y).entries p .waiting = m.entries p .waiting := by
    simp [entries_joined, BookingSystem.inQueue, unqueued]
  apply current.same (workAhead_joined sound sound' idle rfl) entries
  · exact fun c listed => estimate_joined listed
  · exact fun c listed => minutes_joined listed

/-- A paid booking joins the queue of its provider, which is renumbered. -/
theorem paid_current {a : AttemptId} {payment : CapturedPayment} {fresh : PaymentAttempt} {booked numbered : Market}
    (sound : m.Sound) (sound' : t.Sound) (current : ∀ p, m.Current p)
    (paid : PaidBooking a payment fresh m t booked numbered)
    (right : m.entries fresh.providerId .serving = [] → ¬ misled m.bookings fresh.providerId) (p : UserId) :
    t.Current p := by
  suffices numbered.Current p from this.of_bookings paid.bookings
  have sound_numbered : numbered.Sound := sound'.of_bookings paid.bookings.symm
  have run := paid.renumber
  obtain ⟨-, -, -, rfl⟩ := createBooking_ok paid.create
  let position := m.countQueue fresh.providerId .serving + m.countQueue fresh.providerId .waiting + 1
  let y : BookingSystem := { file := fresh.paidBooking a (m.estimatedDuration fresh) payment position }
  have ready : QueuesReady (m.joined y) fresh.providerId := sound.ordered.queued rfl rfl rfl rfl rfl
  have idle : ∀ p, y.file.booking.worksFor p = false := fun p => Bool.and_false _
  have columns : numbered.bookings.map (jobColumns p) = (m.joined y).bookings.map (jobColumns p) :=
    (recalculateQueue_renumbered run).map _ fun _ _ _ _ => rfl
  by_cases own : p = fresh.providerId
  · subst own
    refine recalculateQueue_current ready.sorted run sound_numbered fun unserved finished => right ?_ ?_
    · have joined : (m.joined y).entries fresh.providerId .serving = _ := entries_joined
      rw [unserved] at joined
      exact (List.append_eq_nil_iff.mp joined.symm).1
    · obtain ⟨z, listed, first, job⟩ := finished
      have uncounted : y.file.booking.cashInProgress fresh.providerId = false := by
        simp [y, PaymentAttempt.paidBooking, Booking.cashInProgress]
      rcases List.mem_append.mp listed with old | new
      · exact ⟨z, old, first, job⟩
      · rw [List.mem_singleton.mp new, uncounted] at first
        cases first
  · have absent : y.inQueue p .waiting = false := by
      simp [y, BookingSystem.inQueue, PaymentAttempt.paidBooking, Ne.symm own]
    have entries : (m.joined y).entries p .waiting = m.entries p .waiting := by simp [entries_joined, absent]
    have renumbered := recalculateQueue_renumbered run
    have ahead := workAhead_joined sound sound_numbered (idle p) columns
    refine (current p).same ahead ((entries_renumbered renumbered).trans entries) (fun c listed => ?_) fun c listed => ?_
    · rw [← estimate_joined listed]
      apply (recalculateQueue_estimates ready.sorted run).2
      apply activeEntries_disjoint own
      rw [← entries] at listed
      exact List.mem_append_right _ listed
    · rw [minutes_renumbered renumbered]
      exact minutes_joined listed

end Created

theorem MarketEvent.current {a : MarketAction} {next : Option PaymentCall} (sound : s.market.Sound)
    (sound' : t.Sound) (current : ∀ p, s.market.Current p) (right : ¬ Misestimates s a)
    (event : MarketEvent s a t next) (p : UserId) : t.Current p := by
  cases event with
  | called | stopped | passed | intentStored | intentSaved | refunded => exact (current p).of_bookings rfl
  | prepared _ run => exact (current p).of_bookings (run.bookings.trans expireStale_bookings)
  | initiationFailed => exact (current p).of_bookings (by simp [recordInitiationFailure])
  | markedFailed => exact (current p).of_bookings markAttemptFailed_bookings
  | expired => exact (current p).of_bookings expireCandidate_bookings
  | @finalized _ _ _ _ a _ _ call registered run =>
      cases run with
      | settled => exact current p
      | refunded _ branch => exact (current p).of_bookings (branch.bookings.trans rfl)
      | created open_ bookable paid =>
          have same : (markPaid a s.market).bookings = s.market.bookings := rfl
          refine paid_current (sound.of_bookings same) sound' (fun p => (current p).of_bookings same) paid ?_ p
          intro unserved finished
          rw [entries_of_bookings same] at unserved
          exact right (.books call registered open_ bookable unserved finished)
  | acted run =>
      cases act_write run with
      | same bookings => exact (current p).of_bookings bookings
      | stepped found _ step applied => exact stepped_current sound sound' current found step applied right p
      | cash cash before create =>
          obtain ⟨-, -, -, rfl⟩ := createBooking_ok create
          refine joined_current (sound.of_bookings before) sound' ((current p).of_bookings before) ?_ ?_
          · rcases cash with rfl | rfl <;> exact Bool.and_false _
          · rcases cash with rfl | rfl <;> rfl
      | @resized p' limit row account renumber =>
          let resized : Market := { s.market with
            user := Function.update s.market.user p' (some { row with onlineQueueLimit := limit }) }
          have same : resized.bookings = s.market.bookings := rfl
          have sorted : QueueSorted resized p' := (sound.ordered.numbered p').sorted.of_bookings same
          have renumbered := recalculateQueue_renumbered renumber
          by_cases own : p = p'
          · subst own
            cases waits : s.market.entries p .waiting with
            | nil =>
                apply Market.Current.of_idle
                rw [entries_renumbered renumbered, entries_of_bookings same, waits]
            | cons c rest =>
                refine recalculateQueue_current sorted renumber sound' fun unserved finished => ?_
                rw [entries_of_bookings same] at unserved
                exact right (.resizes unserved (by simp [waits]) finished)
          · refine recalculateQueue_others ((current p).of_bookings same) sorted renumber ?_ own
            exact workAhead_same (sound.of_bookings same) sound' (renumbered.map _ fun _ _ _ _ => rfl)

end Writes

/-- In every run without a step that misestimates, the estimate of a waiting row is the minutes of the job in
    progress and of the waiting rows before it. -/
theorem estimates_current (h : marketMachine.ReachableUnder (fun s a => ¬ Misestimates s a) s) (p : UserId) :
    s.market.Estimated (s.market.workAhead p) (s.market.waitingEntries p) := by
  rw [((queues_ordered h).numbered p).sorted.waitingEntries]
  refine h.invariant_with (J := marketMachine.ReachableUnder fun s a => ¬ Misestimates s a)
    (I := fun s => ∀ p, s.market.Current p) (fun _ h => h) ?_ ?_ p
  · rintro s ⟨-, -, -, empty, -⟩ p
    apply Market.Current.of_idle
    simp [Market.entries, empty]
  · intro s a s' reached current right stepped
    obtain ⟨next, event, -⟩ := MarketSystem.step_event stepped
    exact event.current (market_sound reached) (market_sound (reached.next right stepped)) current right

/-- Where no booking is paid in cash, every renumbering is right. -/
theorem paid_not_misestimates {a : MarketAction}
    (paid : s.market.bookings.all (·.file.booking.paymentMethod == .gcash) = true) : ¬ Misestimates s a := by
  have no_cash : ∀ y ∈ s.market.bookings, y.file.booking.paymentMethod ≠ .onsiteCash := by
    intro y listed cash
    have method := List.all_eq_true.mp paid y listed
    simp [cash] at method
  have unfinished : ∀ rows : List BookingSystem, (∀ y ∈ rows, y ∈ s.market.bookings) → ∀ p, ¬ misled rows p := by
    rintro rows known p ⟨y, listed, -, finished⟩
    simp only [Booking.finishedOnHold, Bool.and_eq_true, beq_iff_eq] at finished
    exact no_cash y (known y listed) finished.1.1
  intro h
  cases h with
  | cancels found _ _ cash => exact no_cash _ (List.mem_of_getElem? found) cash
  | renumbers _ _ _ _ finished => exact unfinished _ (fun _ listed => List.mem_of_mem_eraseIdx listed) _ finished
  | resizes _ _ finished | books _ _ _ _ _ finished => exact unfinished _ (fun _ listed => listed) _ finished

theorem estimates_current_two : ∃ t, marketMachine.exec sampleMarket sampleQueue = some t
    ∧ t.market.waitingEntries 2 = [1] ∧ t.market.workAhead 2 = 60
    ∧ t.market.Estimated (t.market.workAhead 2) (t.market.waitingEntries 2) := by
  let paid : MarketSystem → MarketAction → Bool := fun s _ =>
    s.market.bookings.all (·.file.booking.paymentMethod == .gcash)
  obtain ⟨t, run, waiting, ahead⟩ := sample_any (o := marketMachine.execUnder paid sampleMarket sampleQueue)
    (p := fun t => t.market.waitingEntries 2 = [1] ∧ t.market.workAhead 2 = 60) (by decide)
  have right : marketMachine.ReachableUnder (fun s a => ¬ Misestimates s a) t :=
    ⟨sampleMarket, sampleMarket_initial, .of_execUnder (fun _ _ paid => paid_not_misestimates paid) run⟩
  exact ⟨t, Machine.exec_of_execUnder run, waiting, ahead, estimates_current right 2⟩

/-- Seeker 3 pays and waits while the cash job of seeker 1 is in progress, which is then cancelled by consent. -/
def sampleCancelledJob : List MarketAction :=
  sampleAcceptedCash 0 1 ++ [MarketAction.booking 0 (.request (.providerStartJob 2)) 0]
    ++ sampleCall 0 (.initiateOnlinePayment { seekerId := 3, serviceId := some 1 })
      [.none, .none, .ok, .ok, .redirect none, .none]
    ++ [MarketAction.intent 0 .succeeded] ++ sampleCall 0 (.paidWebhook 0) [.ok, .none]
    ++ [MarketAction.booking 0 (.request (.requestCancellation 1)) 0, .booking 0 (.request (.approveCancellation 0 2)) 0]
    ++ List.replicate 5 (MarketAction.booking 0 (.resume 0 .none) 0)

theorem cancelled_cash_job_estimated : ∃ t, marketMachine.exec sampleMarket sampleCancelledJob = some t
    ∧ ¬ t.market.Estimated (t.market.workAhead 2) (t.market.waitingEntries 2) := by
  obtain ⟨t, run, waiting, ahead, estimate⟩ := sample_any (o := marketMachine.exec sampleMarket sampleCancelledJob)
    (p := fun t => t.market.waitingEntries 2 = [1] ∧ t.market.workAhead 2 = 0 ∧ t.market.estimate 1 = 60) (by decide)
  refine ⟨t, run, fun current => ?_⟩
  rw [waiting, ahead, estimated_cons, estimate] at current
  exact absurd current.1 (by decide)

end ServiceHub
