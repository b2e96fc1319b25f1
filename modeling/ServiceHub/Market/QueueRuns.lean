import ServiceHub.Market.QueueOrder

/-! # Paid queues over whole runs

Every transaction that takes a row out of a queue, starts its first one or adds a last one renumbers
it, so the queues of all providers are numbered in every state, and the unique index on their
positions never stands against a transaction.
-/

namespace ServiceHub

open Guard

variable {s : MarketSystem} {m t : Market} {p : UserId} {b : BookingId} {x x' : BookingSystem}
  {ctx : Context} {f f' : BookingFile}

/-- What a transaction of a booking does to its queue row. -/
inductive QueueMoved (ctx : Context) (f f' : BookingFile) (recalculates : Bool) : Prop where
  | kept (status : f'.queue.map (·.status) = f.queue.map (·.status)) (places : f'.places = f.places)
  | started {q q' : Queue} (queued : f.queue = some q) (waiting : q.status = .waiting)
      (first : ctx.firstWaiting = true) (idle : ctx.serving = 0) (row : f'.queue = some q')
      (serving : q'.status = .serving) (place : q'.position = 1)
      (booking : f'.booking.queuePosition = some 1) (renumbers : recalculates = true)
  | left (inactive : ∀ q, f'.queue = some q → q.status.active = false) (renumbers : recalculates = true)

/-- A row that is taken out. -/
theorem QueueMoved.ended (status : QueueStatus) {recalculates : Bool}
    (row : f'.queue.map (·.status) = f.queue.map fun _ => status) (inactive : status.active = false)
    (places : f'.places = f.places) (renumbers : recalculates = f.queue.isSome) :
    QueueMoved ctx f f' recalculates := by
  cases queued : f.queue with
  | none =>
      rw [queued] at row
      exact .kept (by rw [row, queued]; rfl) places
  | some q =>
      rw [queued] at row renumbers
      refine .left (fun q' queued' => ?_) renumbers
      rw [queued'] at row
      have same : q'.status = status := Option.some.inj row
      rw [same]
      exact inactive

theorem ColumnsWritten.queueMoved {c : Commit} (h : ColumnsWritten ctx f c) :
    QueueMoved ctx f c.file c.recalculates := by
  have books := h.books
  cases h with
  | aside same => exact .kept (by rw [same.queue]) same.sameBooks.places
  | answered _ _ same | startedCash _ _ _ _ same => exact .kept (by rw [same.queue]) same.sameBooks.places
  | startedPaid admitted queued _ _ renumbers same =>
      obtain ⟨-, waiting, first, idle⟩ := admitted.paid _ queued
      exact .started queued waiting first idle same.queue rfl rfl (by rw [same.booking]) renumbers
  | held _ _ _ row same =>
      refine .kept ?_ (same.sameBooks.places.trans ?_)
      · rw [same.queue]
        cases f.queue with
        | none => rfl
        | some q =>
            obtain ⟨paymentStatus, written⟩ := row q
            simp [written]
      · simp only [BookingFile.places, Option.map_map]
        cases f.queue with
        | none => rfl
        | some q =>
            obtain ⟨paymentStatus, written⟩ := row q
            simp [written]
  | restored _ _ same =>
      refine .kept ?_ (same.sameBooks.places.trans ?_)
      · rw [same.queue]
        simp only [BookingFile.restored, Option.map_map, Function.comp_def]
      · simp only [BookingFile.places, BookingFile.restored, Option.map_map, Function.comp_def]
  | finished _ renumbers same =>
      refine .left (fun q queued => ?_) renumbers
      rw [same.queue, Option.map_eq_some_iff] at queued
      obtain ⟨_, -, rfl⟩ := queued
      rfl
  | refunded _ renumbers same =>
      refine .left (fun q queued => ?_) renumbers
      rw [same.queue, BookingFile.refunded, Option.map_eq_some_iff] at queued
      obtain ⟨_, -, rfl⟩ := queued
      rfl
  | canceled _ _ renumbers same =>
      refine .ended .cancelled ?_ rfl (same.sameBooks.places.trans ?_) renumbers
      · rw [same.queue, Option.map_map]
        rfl
      · simp only [BookingFile.places, Option.map_map, Function.comp_def]
  | @settled _ d run file renumbers =>
      rw [file, renumbers]
      obtain ⟨-, -, ⟨-, rfl⟩ | ⟨-, -, -, -, _, -, rfl⟩⟩ := settleCompletedBooking_ok run
      · exact .kept rfl rfl
      · refine .ended .done ?_ rfl ?_ rfl
        · simp only [BookingFile.settled, Option.map_map, Function.comp_def]
        · simp only [BookingFile.places, BookingFile.settled, Option.map_map, Function.comp_def]

/-- The queues of all providers, between transactions. -/
structure QueuesOrdered (m : Market) : Prop where
  numbered : ∀ p, QueueNumbered m p
  placed : ∀ x ∈ m.bookings, x.Placed

/-- The queues before the renumbering of one of them. -/
structure QueuesReady (m : Market) (p : UserId) : Prop where
  others : ∀ p', p' ≠ p → QueueNumbered m p'
  sorted : QueueSorted m p
  placed : ∀ x ∈ m.bookings, x.Placed

theorem QueuesOrdered.ready (h : QueuesOrdered m) (p : UserId) : QueuesReady m p :=
  ⟨fun p' _ => h.numbered p', (h.numbered p).sorted, h.placed⟩

/-- A queue whose rows and positions are the same. -/
theorem QueueNumbered.same (h : QueueNumbered m p)
    (entries : ∀ status, t.entries p status = m.entries p status)
    (positions : ∀ c ∈ m.activeEntries p, t.position c = m.position c) : QueueNumbered t p := by
  have active : t.activeEntries p = m.activeEntries p := by
    simp only [Market.activeEntries, entries]
  constructor
  · rw [active, ← h.positions]
    exact List.map_congr_left positions
  · intro c served
    rw [entries] at served
    rw [positions c (List.mem_append_left _ served)]
    exact h.served c served

theorem QueuesOrdered.of_bookings (h : QueuesOrdered m) (same : t.bookings = m.bookings) :
    QueuesOrdered t where
  numbered p := (h.numbered p).same (fun _ => entries_of_bookings same)
    fun _ _ => by rw [position_of_bookings same]
  placed := by
    rw [same]
    exact h.placed

theorem QueuesReady.of_bookings (h : QueuesReady m p) (same : t.bookings = m.bookings) :
    QueuesReady t p where
  others p' other := (h.others p' other).same (fun _ => entries_of_bookings same)
    fun _ _ => by rw [position_of_bookings same]
  sorted := h.sorted.of_bookings same
  placed := by
    rw [same]
    exact h.placed

theorem QueuesReady.recalculated (h : QueuesReady m p) :
    ∃ t, m.recalculateQueue p = .ok t ∧ QueuesOrdered t := by
  obtain ⟨t, run, numbered, placed, kept⟩ := recalculateQueue_numbered h.sorted h.placed
  refine ⟨t, run, fun p' => ?_, placed⟩
  by_cases here : p' = p
  · subst here
    exact numbered
  · exact (h.others p' here).same (fun _ => entries_renumbered (recalculateQueue_renumbered run))
      fun c listed => kept c (activeEntries_disjoint here listed)

section Written

/-- The tables with the row of one booking written. -/
abbrev Market.written (m : Market) (b : BookingId) (x : BookingSystem) : Market :=
  { m with bookings := m.bookings.set b x }

theorem written_row (found : m.bookings[b]? = some x) (c : BookingId) :
    (m.written b x').bookings[c]? = if c = b then some x' else m.bookings[c]? := by
  have listed := (List.getElem?_eq_some_iff.mp found).1
  by_cases here : c = b
  · subst here
    simp [listed]
  · simp [here, Ne.symm here]

theorem mem_written {y : BookingSystem} (listed : y ∈ (m.written b x').bookings) : y = x' ∨ y ∈ m.bookings := by
  obtain old | rfl := List.mem_or_eq_of_mem_set listed
  · exact .inr old
  · exact .inl rfl

theorem position_written {c : BookingId} (other : c ≠ b) :
    (m.written b x').position c = m.position c := by
  simp [Market.position, Ne.symm other]

theorem entries_written {status : QueueStatus} (found : m.bookings[b]? = some x)
    (same : x'.inQueue p status = x.inQueue p status) :
    (m.written b x').entries p status = m.entries p status := by
  simp only [Market.entries, List.length_set]
  refine List.filter_congr fun c _ => ?_
  rw [written_row found]
  split
  · rename_i here
    subst here
    simp [found, same]
  · rfl

theorem entries_written_sublist {status : QueueStatus} (found : m.bookings[b]? = some x)
    (gone : x'.inQueue p status = false) :
    ((m.written b x').entries p status).Sublist (m.entries p status)
      ∧ b ∉ (m.written b x').entries p status := by
  constructor
  · simp only [Market.entries, List.length_set]
    refine List.monotone_filter_right _ fun c queued => ?_
    rw [written_row found] at queued
    split at queued
    · simp [gone] at queued
    · exact queued
  · rw [mem_entries]
    rintro ⟨y, listed, queued⟩
    rw [written_row found, if_pos rfl] at listed
    obtain rfl := Option.some.inj listed
    simp [gone] at queued

end Written

/-- A queue without some of its rows is in order. -/
theorem QueueSorted.sublist (h : QueueSorted m p)
    (serving : (t.entries p .serving).Sublist (m.entries p .serving))
    (waiting : (t.entries p .waiting).Sublist (m.entries p .waiting))
    (positions : ∀ c ∈ t.activeEntries p, t.position c = m.position c) : QueueSorted t p := by
  refine ⟨?_, fun c listed => ?_, fun c listed => ?_⟩
  · refine (h.sorted.sublist (serving.append waiting)).imp_of_mem fun {a c} ha hc lt => ?_
    rw [positions a ha, positions c hc]
    exact lt
  · rw [positions c (List.mem_append_left _ listed)]
    exact h.served c (serving.subset listed)
  · rw [positions c (List.mem_append_right _ listed)]
    exact h.waiting c (waiting.subset listed)

/-- The queue row of the booking stands with its provider, as before. -/
structure SameProvider (x x' : BookingSystem) : Prop where
  own : x.file.queuedForProvider = true
  queue : x'.file.queue.map (·.providerId) = x.file.queue.map (·.providerId)

theorem SameProvider.not_inQueue (h : SameProvider x x') (other : p ≠ x.file.booking.providerId)
    (status : QueueStatus) : x.inQueue p status = false ∧ x'.inQueue p status = false := by
  have own := h.own
  have same := h.queue
  simp only [BookingFile.queuedForProvider, Option.all_eq_true, beq_iff_eq] at own
  simp only [BookingSystem.inQueue, Option.any_eq_false]
  constructor
  · intro q queued
    have away : q.providerId ≠ p := fun provider => other (provider.symm.trans (own q queued))
    simp [away]
  · intro q' queued'
    rw [queued', Option.map_some, eq_comm, Option.map_eq_some_iff] at same
    obtain ⟨q, queued, same⟩ := same
    have away : q'.providerId ≠ p := fun provider =>
      other (provider.symm.trans (same.symm.trans (own q queued)))
    simp [away]

/-- The queues of other providers do not see the booking. -/
theorem QueuesOrdered.others (h : QueuesOrdered m) (found : m.bookings[b]? = some x)
    (provider : SameProvider x x') (other : p ≠ x.file.booking.providerId) :
    QueueNumbered (m.written b x') p := by
  refine (h.numbered p).same (fun status => ?_) fun c listed => ?_
  · apply entries_written found
    obtain ⟨before, after⟩ := provider.not_inQueue other status
    rw [before, after]
  · apply position_written
    rintro rfl
    obtain ⟨y, q, listed, queued, own, active⟩ := mem_activeEntries.mp listed
    obtain rfl := Option.some.inj (found.symm.trans listed)
    obtain ⟨away, -⟩ := provider.not_inQueue other q.status
    simp [BookingSystem.inQueue, queued, own] at away

theorem countQueue_eq {status : QueueStatus} : m.countQueue p status = (m.entries p status).length :=
  (Rows.length_filter_range _ _).symm

/-- The row keeps its status and its place. -/
theorem QueuesOrdered.kept (h : QueuesOrdered m) (found : m.bookings[b]? = some x)
    (provider : SameProvider x x')
    (status : x'.file.queue.map (·.status) = x.file.queue.map (·.status))
    (places : x'.file.places = x.file.places) : QueuesOrdered (m.written b x') := by
  obtain ⟨queuePosition, row⟩ := Prod.mk.inj places
  have position : x'.file.queue.map (·.position) = x.file.queue.map (·.position) := by
    have first := congrArg (Option.map Prod.fst) row
    simpa only [Option.map_map, Function.comp_def] using first
  refine ⟨fun p => (h.numbered p).same (fun st => ?_) fun c _ => ?_, fun y listed => ?_⟩
  · apply entries_written found
    have same := provider.queue
    simp only [BookingSystem.inQueue]
    cases before : x.file.queue <;> cases after : x'.file.queue <;> simp_all
  · by_cases here : c = b
    · subst here
      simp only [Market.position, written_row found, if_true, found, Option.bind_some, position]
    · exact position_written here
  · obtain rfl | old := mem_written listed
    · intro q' queued' active
      have placed := h.placed x (List.mem_of_getElem? found)
      rw [queued', Option.map_some, eq_comm, Option.map_eq_some_iff] at position status
      obtain ⟨q, queued, same⟩ := position
      obtain ⟨q₀, queued₀, same₀⟩ := status
      obtain rfl := Option.some.inj (queued.symm.trans queued₀)
      rw [queuePosition, placed q queued (same₀ ▸ active), same]
    · exact h.placed y old

/-- The row is taken out of the queue. -/
theorem QueuesOrdered.left (h : QueuesOrdered m) (found : m.bookings[b]? = some x)
    (provider : SameProvider x x') (inactive : ∀ q, x'.file.queue = some q → q.status.active = false) :
    QueuesReady (m.written b x') x.file.booking.providerId := by
  have gone : ∀ st, st.active = true → x'.inQueue x.file.booking.providerId st = false := by
    intro st active
    simp only [BookingSystem.inQueue, Option.any_eq_false]
    intro q queued
    have other : q.status ≠ st := by
      rintro rfl
      simp [inactive q queued] at active
    simp [other]
  obtain ⟨serving, unserved⟩ := entries_written_sublist found (gone .serving rfl)
  obtain ⟨waiting, unwaited⟩ := entries_written_sublist found (gone .waiting rfl)
  refine ⟨fun p other => h.others found provider other, ?_, fun y listed => ?_⟩
  · refine (h.numbered _).sorted.sublist serving waiting fun c listed => ?_
    apply position_written
    rintro rfl
    obtain here | here := List.mem_append.mp listed
    · exact unserved here
    · exact unwaited here
  · obtain rfl | old := mem_written listed
    · intro q queued active
      simp [inactive q queued] at active
    · exact h.placed y old

/-- The first waiting row is served. -/
theorem QueuesOrdered.started (h : QueuesOrdered m) (found : m.bookings[b]? = some x)
    (provider : SameProvider x x') {q' : Queue} (first : m.FirstWaiting x.file.booking.providerId b)
    (idle : m.countQueue x.file.booking.providerId .serving = 0) (row : x'.file.queue = some q')
    (serving : q'.status = .serving) (place : q'.position = 1)
    (booking : x'.file.booking.queuePosition = some 1) :
    QueuesReady (m.written b x') x.file.booking.providerId := by
  have numbered := h.numbered x.file.booking.providerId
  have sorted := numbered.sorted
  have unserved : m.entries x.file.booking.providerId .serving = [] := by
    rwa [countQueue_eq, List.length_eq_zero_iff] at idle
  have gone : x'.inQueue x.file.booking.providerId .waiting = false := by
    simp [BookingSystem.inQueue, row, serving]
  obtain ⟨waiting, unwaited⟩ := entries_written_sublist found gone
  have here : (m.written b x').position b = 1 := by
    rw [position_eq (by rw [written_row found, if_pos rfl]) row, place]
  have served : ∀ c ∈ (m.written b x').entries x.file.booking.providerId .serving, c = b := by
    intro c listed
    obtain ⟨y, listed, queued⟩ := mem_entries.mp listed
    rw [written_row found] at listed
    split at listed
    · assumption
    · have old : c ∈ m.entries x.file.booking.providerId .serving := mem_entries.mpr ⟨y, listed, queued⟩
      simp [unserved] at old
  have after : ∀ c ∈ (m.written b x').entries x.file.booking.providerId .waiting,
      (m.written b x').position c = m.position c ∧ 1 < m.position c := by
    intro c listed
    have other : c ≠ b := by
      rintro rfl
      exact unwaited listed
    have before := waiting.subset listed
    refine ⟨position_written other, ?_⟩
    obtain ⟨y, found', queued'⟩ := mem_entries.mp before
    have low := first.first c y found' queued'
    have least := sorted.waiting b (mem_entries.mpr first.waiting)
    have apart : m.position c ≠ m.position b := by
      intro same
      have distinct := (List.pairwise_append.mp sorted.sorted).2.1.imp Nat.ne_of_lt
      have nodup : ((m.entries x.file.booking.providerId .waiting).map m.position).Nodup :=
        List.pairwise_map.mpr distinct
      exact other (List.inj_on_of_nodup_map nodup before (mem_entries.mpr first.waiting) same)
    omega
  refine ⟨fun p other => h.others found provider other, ⟨?_, fun c listed => ?_, fun c listed => ?_⟩,
    fun y listed => ?_⟩
  · refine List.pairwise_append.mpr ⟨?_, ?_, fun c served' a waiting' => ?_⟩
    · have nodup : ((m.written b x').entries x.file.booking.providerId .serving).Nodup :=
        List.nodup_range.filter _
      refine nodup.imp_of_mem fun {a c} ha hc different => ?_
      exact absurd ((served a ha).trans (served c hc).symm) different
    · refine ((List.pairwise_append.mp sorted.sorted).2.1.sublist waiting).imp_of_mem fun {a c} ha hc lt => ?_
      rw [(after a ha).1, (after c hc).1]
      exact lt
    · rw [served c served', here, (after a waiting').1]
      exact (after a waiting').2
  · rw [served c listed, here]
  · rw [(after c listed).1]
    exact Nat.le_of_lt (after c listed).2
  · obtain rfl | old := mem_written listed
    · intro q queued _
      obtain rfl := Option.some.inj (row.symm.trans queued)
      rw [booking, place]
    · exact h.placed y old

section Created

variable {y : BookingSystem} {position : Nat}

/-- The tables with one more booking. -/
abbrev Market.joined (m : Market) (y : BookingSystem) : Market :=
  { m with bookings := m.bookings ++ [y] }

theorem entries_joined {status : QueueStatus} : (m.joined y).entries p status
    = m.entries p status ++ if y.inQueue p status then [m.bookings.length] else [] := by
  have before : ∀ c ∈ List.range m.bookings.length,
      ((m.bookings ++ [y])[c]?).any (·.inQueue p status) = (m.bookings[c]?).any (·.inQueue p status) := by
    intro c listed
    rw [List.getElem?_append_left (List.mem_range.mp listed)]
  simp only [Market.entries, List.length_append, List.length_singleton, List.range_succ, List.filter_append,
    List.filter_congr before]
  cases queued : y.inQueue p status <;> simp [queued]

theorem position_joined {c : BookingId} (listed : c ∈ m.activeEntries p) :
    (m.joined y).position c = m.position c := by
  obtain ⟨x, -, found, -⟩ := mem_activeEntries.mp listed
  simp only [Market.position]
  rw [List.getElem?_append_left (List.getElem?_eq_some_iff.mp found).1]

theorem QueuesOrdered.joined_other (h : QueuesOrdered m) (absent : ∀ status, y.inQueue p status = false) :
    QueueNumbered (m.joined y) p :=
  (h.numbered p).same (fun status => by simp [entries_joined, absent]) fun _ listed => position_joined listed

/-- A cash booking has no queue row. -/
theorem QueuesOrdered.unqueued (h : QueuesOrdered m) (unqueued : y.file.queue = none) :
    QueuesOrdered (m.joined y) where
  numbered p := h.joined_other fun status => by simp [BookingSystem.inQueue, unqueued]
  placed x listed := by
    obtain old | rfl := List.mem_append.mp listed |>.imp_right List.mem_singleton.mp
    · exact h.placed x old
    · intro q queued
      simp [unqueued] at queued

/-- The positions of a numbered queue are those up to its length. -/
theorem QueueNumbered.position_le (h : QueueNumbered m p) {c : BookingId} (listed : c ∈ m.activeEntries p) :
    m.position c < m.countQueue p .serving + m.countQueue p .waiting + 1 := by
  have place : m.position c ∈ (m.activeEntries p).map m.position := List.mem_map_of_mem listed
  rw [h.positions, List.mem_range'_1, Market.activeEntries, List.length_append] at place
  rw [countQueue_eq, countQueue_eq]
  omega

/-- A paid booking joins at the end of the queue. -/
theorem QueuesOrdered.queued (h : QueuesOrdered m) {q : Queue} (row : y.file.queue = some q)
    (own : q.providerId = p) (waiting : q.status = .waiting)
    (last : q.position = m.countQueue p .serving + m.countQueue p .waiting + 1)
    (booking : y.file.booking.queuePosition = some q.position) : QueuesReady (m.joined y) p := by
  have numbered := h.numbered p
  have sorted := numbered.sorted
  have serving : (m.joined y).entries p .serving = m.entries p .serving := by
    simp [entries_joined, BookingSystem.inQueue, row, waiting]
  have waits : (m.joined y).entries p .waiting = m.entries p .waiting ++ [m.bookings.length] := by
    simp [entries_joined, BookingSystem.inQueue, row, waiting, own]
  have place : (m.joined y).position m.bookings.length = q.position := by
    simp [Market.position, row]
  have old : ∀ c ∈ m.activeEntries p, (m.joined y).position c = m.position c := fun c => position_joined
  refine ⟨fun p' other => h.joined_other fun status => ?_, ⟨?_, fun c listed => ?_, fun c listed => ?_⟩,
    fun x listed => ?_⟩
  · have away : q.providerId ≠ p' := fun same => other (same.symm.trans own)
    simp [BookingSystem.inQueue, row, away]
  · rw [Market.activeEntries, serving, waits, ← List.append_assoc]
    refine List.pairwise_append.mpr ⟨?_, List.pairwise_singleton _ _, fun c listed a single => ?_⟩
    · refine sorted.sorted.imp_of_mem fun {a c} ha hc lt => ?_
      rw [old a ha, old c hc]
      exact lt
    · obtain rfl := List.mem_singleton.mp single
      rw [old c listed, place, last]
      exact numbered.position_le listed
  · rw [serving] at listed
    rw [old c (List.mem_append_left _ listed)]
    exact numbered.served c listed
  · rw [waits] at listed
    obtain before | single := List.mem_append.mp listed
    · rw [old c (List.mem_append_right _ before)]
      exact sorted.waiting c before
    · obtain rfl := List.mem_singleton.mp single
      rw [place, last]
      omega
  · obtain before | single := List.mem_append.mp listed
    · exact h.placed x before
    · obtain rfl := List.mem_singleton.mp single
      intro q' queued _
      obtain rfl := Option.some.inj (row.symm.trans queued)
      exact booking

end Created

section Steps

variable {st : Step} {updatedAt : Millis} {effects : Effects}

/-- What a step of a booking leaves for the renumbering. -/
theorem QueuesOrdered.step (h : QueuesOrdered m) (found : m.bookings[b]? = some x)
    (reached : bookingMachine.Reachable x)
    (step : x.step (m.context b x updatedAt) st = some (x', effects)) :
    QueuesOrdered (m.written b x')
      ∨ effects.recalculates = true ∧ QueuesReady (m.written b x') x.file.booking.providerId := by
  obtain ⟨c, written, file, same⟩ := BookingSystem.step_columns step
  have next : bookingNext x (.step (m.context b x updatedAt) st) = some x' := by
    simp [bookingNext, step]
  obtain ⟨_, event, -⟩ := BookingSystem.next_event next
  have provider : SameProvider x x' := by
    refine ⟨BookingSystem.queuedForProvider reached, ?_⟩
    have terms := congrArg (Option.map Queue.providerId) event.sameTerms.queue
    rw [Option.map_map, Option.map_map] at terms
    exact terms
  have moved := written.queueMoved
  rw [← file] at moved
  have renumbers : effects.recalculates = c.recalculates := by
    rw [same]
    rfl
  cases moved with
  | kept status places => exact .inl (h.kept found provider status places)
  | started queued waiting first idle row serving place booking recalculates =>
      have head : m.FirstWaiting x.file.booking.providerId b :=
        waitingEntries_head (by simpa [Market.context] using first)
      exact .inr ⟨renumbers.trans recalculates,
        h.started found provider head idle row serving place booking⟩
  | left inactive recalculates =>
      exact .inr ⟨renumbers.trans recalculates, h.left found provider inactive⟩

/-- The transaction goes through, and its queues are in order. -/
theorem QueuesOrdered.applied (h : QueuesOrdered m) (found : m.bookings[b]? = some x)
    (reached : bookingMachine.Reachable x)
    (step : x.step (m.context b x updatedAt) st = some (x', effects)) :
    ∃ t, (m.written b x').applyEffects x.file.booking effects = .ok t ∧ QueuesOrdered t := by
  obtain ⟨requests, user, frame⟩ := writeEffects_frame x.file.booking effects (m.written b x')
  have same : ((m.written b x').writeEffects x.file.booking effects).bookings
      = (m.written b x').bookings := by rw [frame]
  simp only [Market.applyEffects]
  obtain ordered | ⟨recalculates, ready⟩ := h.step found reached step
  · split
    · exact ((ordered.of_bookings same).ready _).recalculated
    · exact ⟨_, rfl, ordered.of_bookings same⟩
  · rw [if_pos recalculates]
    exact (ready.of_bookings same).recalculated

/-- The row that the step has written stands at a position of its own. -/
theorem QueuesOrdered.rowFree (h : QueuesOrdered m) (found : m.bookings[b]? = some x)
    (reached : bookingMachine.Reachable x)
    (step : x.step (m.context b x updatedAt) st = some (x', effects)) : m.queueRowFree b x' = true := by
  have sorted : ∀ p, QueueSorted (m.written b x') p := by
    intro p
    obtain ordered | ⟨-, ready⟩ := h.step found reached step
    · exact (ordered.numbered p).sorted
    · by_cases here : p = x.file.booking.providerId
      · subst here
        exact ready.sorted
      · exact (ready.others p here).sorted
  simp only [Market.queueRowFree, Option.all_eq_true, Bool.or_eq_true, Bool.not_eq_true']
  intro q row
  by_cases active : q.status.active = true
  · refine .inr ?_
    rw [Market.positionTaken, List.any_eq_false]
    intro c _ taken
    simp only [Bool.and_eq_true, bne_iff_ne, Option.any_eq_true, beq_iff_eq] at taken
    obtain ⟨other, y, listed, q', queued, ⟨provider, active'⟩, held⟩ := taken
    have here : (m.written b x').bookings[b]? = some x' := by rw [written_row found, if_pos rfl]
    have there : (m.written b x').bookings[c]? = some y := by rw [written_row found, if_neg other, listed]
    have nodup : (((m.written b x').activeEntries q.providerId).map (m.written b x').position).Nodup :=
      List.pairwise_map.mpr ((sorted q.providerId).sorted.imp Nat.ne_of_lt)
    refine other (List.inj_on_of_nodup_map nodup ?_ ?_ ?_)
    · exact mem_activeEntries.mpr ⟨y, q', there, queued, provider, active'⟩
    · exact mem_activeEntries.mpr ⟨x', q, here, row, rfl, active⟩
    · rw [position_eq there queued, position_eq here row, held]
  · exact .inl (by simpa using active)

/-- A step of a booking commits in the marketplace whenever the booking can take it. -/
theorem QueuesOrdered.committed (h : QueuesOrdered m) (found : m.bookings[b]? = some x)
    (reached : bookingMachine.Reachable x) (own : st.isRefund = false) :
    (m.stepBooking b st updatedAt).isSome = true ↔ (x.step (m.context b x updatedAt) st).isSome = true := by
  simp only [Market.stepBooking, found, Option.bind_some, own, Bool.false_eq_true, if_false]
  cases step : x.step (m.context b x updatedAt) st with
  | none => rfl
  | some done =>
      obtain ⟨x', effects⟩ := done
      obtain ⟨t, applied, -⟩ := h.applied found reached step
      simp [h.rowFree found reached step, applied, Except.toOption]

theorem QueuesOrdered.paid {a : AttemptId} {attempt : PaymentAttempt} {payment : CapturedPayment}
    {booked : Market} {minutes : Nat} (h : QueuesOrdered m)
    (create : m.createBooking (attempt.paidBooking a minutes payment
      (m.countQueue attempt.providerId .serving + m.countQueue attempt.providerId .waiting + 1)) = .ok booked) :
    ∃ t, booked.recalculateQueue attempt.providerId = .ok t ∧ QueuesOrdered t := by
  obtain ⟨-, -, -, rfl⟩ := createBooking_ok create
  let position := m.countQueue attempt.providerId .serving + m.countQueue attempt.providerId .waiting + 1
  let y : BookingSystem := { file := attempt.paidBooking a minutes payment position }
  exact (h.queued (y := y) rfl rfl rfl rfl rfl).recalculated

end Steps

theorem BookingsWrite.queuesOrdered (h : QueuesOrdered m)
    (reached : ∀ (i : Nat) (x : BookingSystem), m.bookings[i]? = some x → bookingMachine.Reachable x)
    (write : BookingsWrite m t) : QueuesOrdered t := by
  cases write with
  | same bookings => exact h.of_bookings bookings
  | stepped step =>
      obtain ⟨updatedAt, st, effects, -, run, applied⟩ := step.run
      obtain ⟨t', applied', ordered⟩ := h.applied step.found (reached _ _ step.found) run
      obtain rfl := Except.ok.inj (applied.symm.trans applied')
      exact ordered
  | @cash terms f u cash before create =>
      obtain ⟨-, -, -, rfl⟩ := createBooking_ok create
      refine (h.of_bookings before).unqueued ?_
      rcases cash with rfl | rfl <;> rfl
  | @resized p user renumber =>
      have same : ({ m with user } : Market).bookings = m.bookings := rfl
      obtain ⟨t', run, ordered⟩ := ((h.of_bookings same).ready p).recalculated
      obtain rfl := Except.ok.inj (renumber.symm.trans run)
      exact ordered

theorem MarketEvent.queuesOrdered {a : MarketAction} {next : Option PaymentCall}
    (h : QueuesOrdered s.market)
    (reached : ∀ (i : Nat) (x : BookingSystem), s.market.bookings[i]? = some x → bookingMachine.Reachable x)
    (event : MarketEvent s a t next) : QueuesOrdered t := by
  cases event with
  | called | stopped | passed | intentStored | intentSaved | refunded => exact h.of_bookings rfl
  | prepared _ run => exact h.of_bookings (run.bookings.trans expireStale_bookings)
  | initiationFailed => exact h.of_bookings (by simp [recordInitiationFailure])
  | markedFailed => exact h.of_bookings markAttemptFailed_bookings
  | expired => exact h.of_bookings expireCandidate_bookings
  | acted run => exact (act_bookings run).queuesOrdered h reached
  | @finalized _ _ _ _ a _ _ _ _ run =>
      cases run with
      | settled => exact h
      | refunded _ branch => exact h.of_bookings (branch.bookings.trans rfl)
      | created _ _ paid =>
          have marked : QueuesOrdered (markPaid a s.market) := h.of_bookings rfl
          obtain ⟨t', run, ordered⟩ := marked.paid paid.create
          obtain rfl := Except.ok.inj (paid.renumber.symm.trans run)
          exact ordered.of_bookings paid.bookings

theorem queues_ordered {C : MarketSystem → MarketAction → Prop} (h : marketMachine.ReachableUnder C s) :
    QueuesOrdered s.market := by
  refine h.invariant_with (J := marketMachine.ReachableUnder C) (I := fun s => QueuesOrdered s.market)
    (fun _ h => h) ?_ ?_
  · rintro s ⟨-, -, -, empty, -⟩
    have none_queued : ∀ p status, s.market.entries p status = [] := by
      intro p status
      simp [Market.entries, empty]
    refine ⟨fun p => ⟨?_, fun b listed => ?_⟩, fun x listed => ?_⟩
    · simp [Market.activeEntries, none_queued]
    · simp [none_queued] at listed
    · simp [empty] at listed
  · intro s a s' reached ordered _ stepped
    obtain ⟨next, event, -⟩ := MarketSystem.step_event stepped
    exact event.queuesOrdered ordered fun i x => booking_reachable reached

/-- In every state the served row and then the waiting rows, in order of arrival, stand at the positions
    1, 2, 3 and so on, which are those of their bookings; and no transaction that renumbers a queue is
    rejected by the unique index. -/
theorem queue_positions (h : marketMachine.Reachable s) (p : UserId) :
    (s.market.activeEntries p).map s.market.position = List.range' 1 (s.market.activeEntries p).length
      ∧ (s.market.entries p .serving).length ≤ 1
      ∧ (∀ c ∈ s.market.entries p .waiting, ∀ d ∈ s.market.entries p .waiting,
        c < d → s.market.position c < s.market.position d)
      ∧ (∀ (b : Nat) (x : BookingSystem) (q : Queue), s.market.bookings[b]? = some x →
        x.file.queue = some q → q.status.active = true → x.file.booking.queuePosition = some q.position)
      ∧ (∀ (b : Nat) (x : BookingSystem) (st : Step) (updatedAt : Millis),
        s.market.bookings[b]? = some x → st.isRefund = false →
        (x.step (s.market.context b x updatedAt) st).isSome = true →
        (s.market.stepBooking b st updatedAt).isSome = true)
      ∧ (∀ user : UserId → Option User, ∃ t, ({ s.market with user } : Market).recalculateQueue p = .ok t)
      ∧ (∀ (a : AttemptId) (attempt : PaymentAttempt) (payment : CapturedPayment) (minutes : Nat)
        (booked : Market), attempt.providerId = p →
        (markPaid a s.market).createBooking (attempt.paidBooking a minutes payment
          ((markPaid a s.market).countQueue p .serving + (markPaid a s.market).countQueue p .waiting + 1))
          = .ok booked →
        ∃ t, booked.recalculateQueue p = .ok t) := by
  have ordered := queues_ordered h
  have numbered := ordered.numbered p
  refine ⟨numbered.positions, ?_, fun c hc d hd lt => ?_, fun b x q found => ?_, fun b x st updatedAt found own step => ?_,
    fun user => ?_, fun a attempt payment minutes booked provider create => ?_⟩
  · obtain none_served | ⟨b, one_served⟩ := numbered.sorted.served_cases
    · simp [none_served]
    · simp [one_served]
  · have sorted := (List.pairwise_append.mp numbered.sorted.sorted).2.1
    have arrival : (s.market.entries p .waiting).Pairwise (· < ·) := List.pairwise_lt_range.filter _
    rw [List.pairwise_iff_getElem] at sorted arrival
    obtain ⟨i, hi, rfl⟩ := List.getElem_of_mem hc
    obtain ⟨j, hj, rfl⟩ := List.getElem_of_mem hd
    rcases Nat.lt_trichotomy i j with before | rfl | after
    · exact sorted i j hi hj before
    · exact absurd lt (Nat.lt_irrefl _)
    · exact absurd lt (Nat.lt_asymm (arrival j i hj hi after))
  · exact ordered.placed x (List.mem_of_getElem? found) q
  · exact (ordered.committed found (booking_reachable h found) own).mpr step
  · have same : ({ s.market with user } : Market).bookings = s.market.bookings := rfl
    obtain ⟨t, run, -⟩ := ((ordered.of_bookings same).ready p).recalculated
    exact ⟨t, run⟩
  · subst provider
    have marked : QueuesOrdered (markPaid a s.market) := ordered.of_bookings rfl
    obtain ⟨t, run, -⟩ := marked.paid create
    exact ⟨t, run⟩

/-- Seekers 1 and 3 pay for the listing, and the first job is started. -/
def sampleQueue : List MarketAction :=
  samplePurchase
    ++ sampleCall 0 (.initiateOnlinePayment { seekerId := 3, serviceId := some 1 })
      [.none, .none, .ok, .ok, .redirect none, .none]
    ++ [.intent 1 .succeeded] ++ sampleCall 0 (.paidWebhook 1) [.ok, .none]
    ++ [.booking 0 (.request (.providerStartJob 2)) 0]

theorem queue_positions_two : ∃ t, marketMachine.exec sampleMarket sampleQueue = some t
    ∧ t.market.activeEntries 2 = [0, 1]
    ∧ (t.market.activeEntries 2).map t.market.position = [1, 2] := by
  obtain ⟨t, run, active⟩ := sample_any (o := marketMachine.exec sampleMarket sampleQueue)
    (p := fun t => t.market.activeEntries 2 = [0, 1]) (by decide)
  refine ⟨t, run, active, ?_⟩
  have positions := (queue_positions (.of_exec sampleMarket_initial run) 2).1
  rw [active] at positions ⊢
  exact positions

end ServiceHub
