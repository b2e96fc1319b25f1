import ServiceHub.Lib.Slots
import ServiceHub.Market.OneJob

/-! # The order of a paid queue

The active rows of a provider stand at the positions 1, 2, 3 and so on: the served row, then the
waiting rows in order of arrival. A transaction that takes a row out, starts the first one or adds a
last one leaves the others in order, so the renumbering that follows compacts them without meeting a
taken position.
-/

namespace ServiceHub

open Guard

variable {s : MarketSystem} {m t : Market} {p : UserId} {b : BookingId} {x x' : BookingSystem}

/-- The served row, then the waiting rows in order of arrival. -/
def Market.activeEntries (m : Market) (p : UserId) : List BookingId :=
  m.entries p .serving ++ m.entries p .waiting

/-- The booking stands at the position of its active queue row. -/
def BookingSystem.Placed (x : BookingSystem) : Prop :=
  ∀ q, x.file.queue = some q → q.status.active = true → x.file.booking.queuePosition = some q.position

/-- The queue of a provider, before a renumbering. -/
structure QueueSorted (m : Market) (p : UserId) : Prop where
  sorted : (m.activeEntries p).Pairwise fun a b => m.position a < m.position b
  served : ∀ b ∈ m.entries p .serving, m.position b = 1
  waiting : ∀ b ∈ m.entries p .waiting, 1 ≤ m.position b

/-- The queue of a provider, after a renumbering. -/
structure QueueNumbered (m : Market) (p : UserId) : Prop where
  positions : (m.activeEntries p).map m.position = List.range' 1 (m.activeEntries p).length
  served : ∀ b ∈ m.entries p .serving, m.position b = 1

theorem QueueNumbered.sorted (h : QueueNumbered m p) : QueueSorted m p where
  sorted := by
    have increasing := List.pairwise_lt_range' (s := 1) (n := (m.activeEntries p).length)
    rw [← h.positions] at increasing
    exact List.pairwise_map.mp increasing
  served := h.served
  waiting b listed := by
    have place : m.position b ∈ (m.activeEntries p).map m.position :=
      List.mem_map_of_mem (List.mem_append_right _ listed)
    rw [h.positions] at place
    exact (List.mem_range'_1.mp place).1

section Tables

theorem mem_activeEntries : b ∈ m.activeEntries p ↔ ∃ x q, m.bookings[b]? = some x
    ∧ x.file.queue = some q ∧ q.providerId = p ∧ q.status.active = true := by
  simp only [Market.activeEntries, List.mem_append, mem_entries, BookingSystem.inQueue, Option.any_eq_true,
    Bool.and_eq_true, beq_iff_eq]
  constructor
  · rintro (⟨x, found, q, queued, provider, status⟩ | ⟨x, found, q, queued, provider, status⟩) <;>
      exact ⟨x, q, found, queued, provider, by rw [status]; rfl⟩
  · rintro ⟨x, q, found, queued, provider, active⟩
    cases status : q.status with
    | serving => exact .inl ⟨x, found, q, queued, provider, status⟩
    | waiting => exact .inr ⟨x, found, q, queued, provider, status⟩
    | _ => simp [status, QueueStatus.active] at active

theorem position_eq {q : Queue} (found : m.bookings[b]? = some x) (queued : x.file.queue = some q) :
    m.position b = q.position := by
  simp [Market.position, found, queued]

/-- Two providers have no queue row in common. -/
theorem activeEntries_disjoint {p' : UserId} (other : p' ≠ p) (listed : b ∈ m.activeEntries p') :
    b ∉ m.activeEntries p := by
  intro again
  obtain ⟨x, q, found, queued, rfl, -⟩ := mem_activeEntries.mp listed
  obtain ⟨x', q', found', queued', provider, -⟩ := mem_activeEntries.mp again
  obtain rfl := Option.some.inj (found.symm.trans found')
  obtain rfl := Option.some.inj (queued.symm.trans queued')
  exact other provider

theorem entries_of_bookings (same : t.bookings = m.bookings) {status : QueueStatus} :
    t.entries p status = m.entries p status := by
  simp only [Market.entries, same]

theorem position_of_bookings (same : t.bookings = m.bookings) : t.position = m.position := by
  funext c
  simp only [Market.position, same]

theorem QueueSorted.of_bookings (h : QueueSorted m p) (same : t.bookings = m.bookings) : QueueSorted t p := by
  constructor
  · simp only [Market.activeEntries, entries_of_bookings same, position_of_bookings same]
    exact h.sorted
  · simp only [entries_of_bookings same, position_of_bookings same]
    exact h.served
  · simp only [entries_of_bookings same, position_of_bookings same]
    exact h.waiting

theorem entries_renumbered (h : BookingsRenumbered m t) {status : QueueStatus} :
    t.entries p status = m.entries p status := by
  simp only [Market.entries, h.length]
  refine List.filter_congr fun c listed => ?_
  obtain ⟨x, found⟩ : ∃ x, m.bookings[c]? = some x :=
    ⟨_, List.getElem?_eq_getElem (List.mem_range.mp listed)⟩
  obtain ⟨x', found'⟩ : ∃ x', t.bookings[c]? = some x' :=
    ⟨_, List.getElem?_eq_getElem (h.length ▸ List.mem_range.mp listed)⟩
  have row := (h.rows c x x' found found').column (fun s => s.inQueue p status) fun s position wait waiting => by
    simp only [BookingSystem.inQueue, BookingFile.renumbered]
    cases s.file.queue <;> rfl
  simp [found, found', row]

theorem activeEntries_renumbered (h : BookingsRenumbered m t) : t.activeEntries p = m.activeEntries p := by
  simp only [Market.activeEntries, entries_renumbered h]

end Tables

section Renumber

variable {position wait : Nat} {entries : List BookingId}

theorem position_moved {waiting : Bool} (queued : ∃ x q, m.bookings[b]? = some x ∧ x.file.queue = some q) :
    (m.updateFile b (·.renumbered position wait waiting)).position
      = Function.update m.position b position := by
  funext c
  simp only [Market.position, Market.updateFile, List.getElem?_modify]
  by_cases here : b = c
  · subst here
    obtain ⟨x, q, found, queued⟩ := queued
    simp [found, BookingFile.renumbered, queued]
  · rw [Function.update_of_ne (Ne.symm here)]
    cases found : m.bookings[c]? <;> simp [Market.position, found, here]

/-- The unique index lets a row move where the slots do. -/
theorem moveEntry_free {slot : BookingId → Nat}
    (h : Slots.move (m.activeEntries p) b position m.position = some slot) :
    m.moveEntry p b position wait = .ok (m.updateFile b (·.renumbered position wait false)) := by
  obtain ⟨free, -⟩ := Slots.move_ok h
  have untaken : m.positionTaken p b position = false := by
    rw [Market.positionTaken, List.any_eq_false]
    intro c _ taken
    simp only [Bool.and_eq_true, bne_iff_ne, Option.any_eq_true, beq_iff_eq] at taken
    obtain ⟨other, y, found, q, queued, ⟨provider, active⟩, held⟩ := taken
    refine free c (mem_activeEntries.mpr ⟨y, q, found, queued, provider, active⟩) other ?_
    rw [position_eq found queued, held]
  cases run : m.moveEntry p b position wait with
  | ok t => rw [moveEntry_renumbered run]
  | error e =>
      simp only [Market.moveEntry, untaken] at run
      split at run <;> cases run

theorem placed_moved (placed : ∀ x ∈ m.bookings, x.Placed) {waiting : Bool}
    (kept : waiting = false → m.position b = position) :
    ∀ x ∈ (m.updateFile b (·.renumbered position wait waiting)).bookings, x.Placed := by
  intro x' listed
  obtain ⟨c, found⟩ := List.mem_iff_getElem?.mp listed
  simp only [Market.updateFile, List.getElem?_modify] at found
  cases old : m.bookings[c]? with
  | none => simp [old] at found
  | some x =>
  rw [old] at found
  obtain rfl := Option.some.inj found
  have before := placed x (List.mem_of_getElem? old)
  split
  · rename_i here
    subst here
    intro q' queued' active
    simp only [BookingFile.renumbered, Option.map_eq_some_iff] at queued'
    obtain ⟨q, queued, rfl⟩ := queued'
    have place := before q queued active
    cases waiting with
    | true => simp [BookingFile.renumbered, place]
    | false =>
        have same := (position_eq old queued).symm.trans (kept rfl)
        simp [BookingFile.renumbered, place, same]
  · exact before

/-- The loop over the waiting entries moves the slots, in the same order. -/
theorem renumberWaiting_refines (wait : Nat) {slot : BookingId → Nat} (listed : ∀ b ∈ entries, b ∈ m.entries p .waiting)
    (placed : ∀ x ∈ m.bookings, x.Placed)
    (h : Slots.compact (m.activeEntries p) position entries m.position = some slot) :
    ∃ t, Market.renumberWaiting p position wait entries m = .ok t ∧ t.position = slot
      ∧ ∀ x ∈ t.bookings, x.Placed := by
  induction entries generalizing m position wait with
  | nil =>
      obtain rfl := Option.some.inj h
      exact ⟨m, rfl, rfl, placed⟩
  | cons b rest ih =>
      simp only [Slots.compact, Option.bind_eq_some_iff] at h
      obtain ⟨moved, move, run⟩ := h
      have waiting := listed b List.mem_cons_self
      have active : b ∈ m.activeEntries p := List.mem_append_right _ waiting
      have step : m.moveEntry p b position wait = .ok (m.updateFile b (·.renumbered position wait false)) :=
        moveEntry_free move
      have renumbered : BookingsRenumbered m (m.updateFile b (·.renumbered position wait true)) :=
        updateFile_renumbered
      obtain ⟨x, q, found, queued, -, -⟩ := mem_activeEntries.mp active
      have slots : (m.updateFile b (·.renumbered position wait true)).position = moved := by
        rw [position_moved ⟨x, q, found, queued⟩, (Slots.move_ok move).2]
      have later : ∀ c ∈ rest, c ∈ (m.updateFile b (·.renumbered position wait true)).entries p .waiting :=
        fun c later => entries_renumbered renumbered ▸ listed c (List.mem_cons_of_mem _ later)
      rw [← activeEntries_renumbered renumbered, ← slots] at run
      obtain ⟨t, loop, done, placed'⟩ := ih (wait + (m.duration b).getD 60) later
        (placed_moved placed (by simp)) run
      refine ⟨t, ?_, done, placed'⟩
      simp only [Market.renumberWaiting, step, bind_ok]
      refine ⟨_, rfl, ?_⟩
      rw [moved_numbered step]
      exact loop

/-- At most one row of an ordered queue is served. -/
theorem QueueSorted.served_cases (h : QueueSorted m p) :
    m.entries p .serving = [] ∨ ∃ b, m.entries p .serving = [b] := by
  cases serving : m.entries p .serving with
  | nil => exact .inl rfl
  | cons b rest =>
      refine .inr ⟨b, ?_⟩
      cases rest with
      | nil => rfl
      | cons c rest =>
          have sorted := h.sorted
          simp only [Market.activeEntries, serving, List.cons_append, List.pairwise_cons] at sorted
          have first := h.served b (by simp [serving])
          have second := h.served c (by simp [serving])
          have apart := sorted.1 c List.mem_cons_self
          omega

theorem QueueSorted.waitingEntries (h : QueueSorted m p) : m.waitingEntries p = m.entries p .waiting := by
  apply List.Pairwise.insertionSort_eq
  exact (List.pairwise_append.mp h.sorted).2.1.imp Nat.le_of_lt

/-- The place where the waiting rows begin. -/
theorem QueueSorted.ahead (h : QueueSorted m p) :
    Slots.Ahead (m.activeEntries p) ((m.entries p .serving).length + 1) (m.entries p .waiting) m.position := by
  obtain ⟨-, sorted, apart⟩ := List.pairwise_append.mp h.sorted
  refine ⟨sorted, fun c waiting => ?_, fun c listed early => ?_⟩
  · have low := h.waiting c waiting
    obtain none_served | ⟨b, one_served⟩ := h.served_cases
    · simpa [none_served] using low
    · have served : b ∈ m.entries p .serving := by simp [one_served]
      have first := h.served b served
      have later := apart b served c waiting
      rw [one_served, List.length_singleton]
      omega
  · obtain served | waiting := List.mem_append.mp listed
    · rw [h.served c served]
      have nonempty := List.length_pos_of_mem served
      omega
    · exact absurd waiting early

/-- The served row is in its place already. -/
theorem QueueSorted.serve (h : QueueSorted m p) (placed : ∀ x ∈ m.bookings, x.Placed)
    (serving : m.entries p .serving = [b]) :
    ∃ t, m.moveEntry p b 1 0 = .ok t ∧ BookingsRenumbered m t ∧ t.position = m.position
      ∧ ∀ x ∈ t.bookings, x.Placed := by
  have served : b ∈ m.entries p .serving := by simp [serving]
  have first := h.served b served
  have ahead := h.ahead
  rw [serving] at ahead
  have free : ¬ ∃ c ∈ m.activeEntries p, c ≠ b ∧ m.position c = 1 := by
    rintro ⟨c, listed, other, taken⟩
    have waiting : c ∈ m.entries p .waiting := by
      obtain again | waiting := List.mem_append.mp listed
      · simp [serving, other] at again
      · exact waiting
    have low := ahead.above c waiting
    rw [List.length_singleton] at low
    omega
  have move : Slots.move (m.activeEntries p) b 1 m.position = some (Function.update m.position b 1) := by
    simp only [Slots.move, if_neg free]
  obtain ⟨x, q, found, queued, -, -⟩ := mem_activeEntries.mp (List.mem_append_left _ served)
  refine ⟨_, moveEntry_free move, updateFile_renumbered, ?_, placed_moved placed fun _ => first⟩
  rw [position_moved ⟨x, q, found, queued⟩, ← first, Function.update_eq_self]

/-- A renumbering of an ordered queue meets no taken position, and numbers it. -/
theorem recalculateQueue_numbered (h : QueueSorted m p) (placed : ∀ x ∈ m.bookings, x.Placed) :
    ∃ t, m.recalculateQueue p = .ok t ∧ QueueNumbered t p ∧ (∀ x ∈ t.bookings, x.Placed)
      ∧ ∀ c, c ∉ m.activeEntries p → t.position c = m.position c := by
  obtain ⟨slot, run, slots, others⟩ := h.ahead.compacted
  have waiting : ∀ u, BookingsRenumbered m u → ∀ b ∈ m.entries p .waiting, b ∈ u.entries p .waiting :=
    fun u renumbered b listed => (entries_renumbered renumbered).symm ▸ listed
  have finish : ∀ t, m.recalculateQueue p = .ok t → t.position = slot →
      ((m.entries p .serving).map slot = List.range' 1 (m.entries p .serving).length) →
      QueueNumbered t p ∧ ∀ c, c ∉ m.activeEntries p → t.position c = m.position c := by
    intro t loop done served
    have renumbered := recalculateQueue_renumbered loop
    refine ⟨⟨?_, fun b listed => ?_⟩, fun c absent => ?_⟩
    · rw [activeEntries_renumbered renumbered, done, Market.activeEntries, List.map_append, slots, served,
        List.length_append, Nat.add_comm _ 1, List.range'_append_1]
    · rw [entries_renumbered renumbered] at listed
      have apart := (List.pairwise_append.mp h.sorted).2.2 b listed
      rw [done, others b fun waits => Nat.lt_irrefl _ (apart b waits)]
      exact h.served b listed
    · rw [done, others c fun waits => absent (List.mem_append_right _ waits)]
  obtain none_served | ⟨b, one_served⟩ := h.served_cases
  · rw [none_served] at run
    let estimatedWait := ((m.bookings.find? (·.file.booking.cashInProgress p)).bind
      (·.file.booking.estimatedDurationMins)).getD 0
    obtain ⟨t, loop, done, placed'⟩ := renumberWaiting_refines estimatedWait (waiting m (.refl m)) placed run
    have whole : m.recalculateQueue p = .ok t := by
      simp only [Market.recalculateQueue, none_served, List.head?_nil, h.waitingEntries]
      exact loop
    obtain ⟨numbered, kept⟩ := finish t whole done (by simp [none_served])
    exact ⟨t, whole, numbered, placed', kept⟩
  · rw [one_served] at run
    obtain ⟨u, move, renumbered, same, placed_u⟩ := h.serve placed one_served
    rw [← activeEntries_renumbered renumbered, ← same] at run
    obtain ⟨t, loop, done, placed'⟩ :=
      renumberWaiting_refines ((m.duration b).getD 0) (waiting u renumbered) placed_u run
    have whole : m.recalculateQueue p = .ok t := by
      simp only [Market.recalculateQueue, one_served, List.head?_cons, h.waitingEntries, bind_ok]
      exact ⟨u, move, loop⟩
    have served : b ∈ m.entries p .serving := by simp [one_served]
    have apart := (List.pairwise_append.mp h.sorted).2.2 b served
    have first : slot b = 1 := by
      rw [others b fun waits => Nat.lt_irrefl _ (apart b waits)]
      exact h.served b served
    obtain ⟨numbered, kept⟩ := finish t whole done (by simp [one_served, first])
    exact ⟨t, whole, numbered, placed', kept⟩

end Renumber

end ServiceHub
