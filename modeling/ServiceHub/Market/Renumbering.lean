import ServiceHub.Market.Writes

/-! # The queue renumbered

`recalculateQueueInTransaction` writes the places of queue rows and nothing else: every
booking runs through renumbering steps of its own machine.
-/

namespace ServiceHub

open Guard

/-- The booking after renumberings of its queue row. -/
abbrev Renumbered (x y : BookingSystem) : Prop :=
  bookingMachine.RunUnder (fun _ a => ∃ position wait waiting, a = .renumber position wait waiting) x y

/-- A column that no renumbering writes. -/
theorem Renumbered.column {β : Type} {x y : BookingSystem} (h : Renumbered x y)
    (column : BookingSystem → β)
    (fixed : ∀ (s : BookingSystem) position wait waiting,
      column { s with file := s.file.renumbered position wait waiting } = column s) :
    column y = column x := by
  induction h with
  | refl => rfl
  | step _ renumber next ih =>
      obtain ⟨position, wait, waiting, rfl⟩ := renumber
      obtain rfl := Option.some.inj next
      exact (fixed _ position wait waiting).trans ih

/-- The bookings after renumberings of queue rows; no other table is written. -/
structure BookingsRenumbered (m t : Market) : Prop where
  tables : t = { m with bookings := t.bookings }
  length : t.bookings.length = m.bookings.length
  rows : ∀ (i : Nat) (x y : BookingSystem), m.bookings[i]? = some x → t.bookings[i]? = some y →
    Renumbered x y

section Renumbering

variable {m t : Market} {p : UserId} {b : BookingId} {position wait : Nat}
  {g g' : BookingFile → BookingFile}

theorem BookingsRenumbered.refl (m : Market) : BookingsRenumbered m m := by
  refine ⟨rfl, rfl, fun i x y found found' => ?_⟩
  obtain rfl := Option.some.inj (found.symm.trans found')
  exact .refl

theorem BookingsRenumbered.trans {u : Market} (h : BookingsRenumbered m t) (h' : BookingsRenumbered t u) :
    BookingsRenumbered m u := by
  refine ⟨by rw [h'.tables, h.tables], h'.length.trans h.length, fun i x z found found' => ?_⟩
  have listed := (List.getElem?_eq_some_iff.mp found).1
  obtain ⟨y, between⟩ : ∃ y, t.bookings[i]? = some y :=
    ⟨_, List.getElem?_eq_getElem (h.length ▸ listed)⟩
  exact (h.rows i x y found between).trans (h'.rows i y z between found')

/-- A column that a renumbering does not write. -/
theorem BookingsRenumbered.map {β : Type} (h : BookingsRenumbered m t) (column : BookingSystem → β)
    (fixed : ∀ (s : BookingSystem) position wait waiting,
      column { s with file := s.file.renumbered position wait waiting } = column s) :
    t.bookings.map column = m.bookings.map column := by
  refine List.ext_getElem? fun i => ?_
  rw [List.getElem?_map, List.getElem?_map]
  cases found : m.bookings[i]? with
  | none =>
      have absent : t.bookings[i]? = none := by
        rw [List.getElem?_eq_none_iff] at found ⊢
        rw [h.length]
        exact found
      rw [absent]
  | some x =>
      have listed := (List.getElem?_eq_some_iff.mp found).1
      obtain ⟨y, found'⟩ : ∃ y, t.bookings[i]? = some y := ⟨_, List.getElem?_eq_getElem (h.length ▸ listed)⟩
      rw [found', Option.map_some, Option.map_some, (h.rows i x y found found').column column fixed]

theorem BookingsRenumbered.row (h : BookingsRenumbered m t) {i : Nat} {y : BookingSystem}
    (found : t.bookings[i]? = some y) : ∃ x, m.bookings[i]? = some x ∧ Renumbered x y := by
  have listed := (List.getElem?_eq_some_iff.mp found).1
  obtain ⟨x, before⟩ : ∃ x, m.bookings[i]? = some x :=
    ⟨_, List.getElem?_eq_getElem (h.length ▸ listed)⟩
  exact ⟨x, before, h.rows i x y before found⟩

theorem updateFile_self (same : ∀ s, m.bookings[b]? = some s → g s.file = s.file) :
    m.updateFile b g = m := by
  have rows : m.bookings.modify b (fun s => { s with file := g s.file }) = m.bookings := by
    apply List.ext_getElem?
    intro i
    simp only [List.getElem?_modify]
    cases found : m.bookings[i]? with
    | none => rfl
    | some s =>
        by_cases here : b = i
        · subst here
          simp [same s found]
        · simp [here]
  simp only [Market.updateFile, rows]

theorem updateFile_updateFile :
    (m.updateFile b g).updateFile b g' = m.updateFile b fun f => g' (g f) := by
  simp only [Market.updateFile, List.modify_modify_eq]
  rfl

theorem renumbered_self {f : BookingFile} {q : Queue} (queued : f.queue = some q) :
    f.renumbered q.position q.estimatedWait false = f := by
  cases f
  simp only at queued
  subst queued
  rfl

theorem moveEntry_ok (h : m.moveEntry p b position wait = .ok t) :
    ((m.bookings[b]?).any (fun s => s.file.queue.any fun q =>
        q.position == position && q.estimatedWait == wait) = true ∧ t = m)
      ∨ (m.positionTaken p b position = false
        ∧ t = m.updateFile b (·.updateQueue ({ · with position, estimatedWait := wait }))) := by
  simp only [Market.moveEntry, ite_ok, pure_ok, check_bind_ok, rejectIf_ok, Bool.not_eq_true] at h
  obtain ⟨placed, rfl⟩ | ⟨-, free, rfl⟩ := h
  · exact .inl ⟨placed, rfl⟩
  · exact .inr ⟨free, rfl⟩

/-- Whether the row moves or is in its place, it is renumbered. -/
theorem moveEntry_renumbered (h : m.moveEntry p b position wait = .ok t) :
    t = m.updateFile b (·.renumbered position wait false) := by
  obtain ⟨placed, rfl⟩ | ⟨-, rfl⟩ := moveEntry_ok h
  · refine (updateFile_self fun s found => ?_).symm
    simp only [found, Option.any_some, Option.any_eq_true, Bool.and_eq_true, beq_iff_eq] at placed
    obtain ⟨q, queued, rfl, rfl⟩ := placed
    exact renumbered_self queued
  · rfl

/-- A waiting entry moves together with its booking. -/
theorem moved_numbered {moved : Market} (h : m.moveEntry p b position wait = .ok moved) :
    (moved.updateFile b fun f =>
        f.updateBooking ({ · with queuePosition := f.booking.queuePosition.map fun _ => position }))
      = m.updateFile b (·.renumbered position wait true) := by
  rw [moveEntry_renumbered h, updateFile_updateFile]
  rfl

theorem updateFile_renumbered {waiting : Bool} :
    BookingsRenumbered m (m.updateFile b (·.renumbered position wait waiting)) := by
  refine ⟨rfl, by simp [Market.updateFile], fun i x y found found' => ?_⟩
  simp only [Market.updateFile, List.getElem?_modify, found] at found'
  obtain rfl := Option.some.inj found'
  split
  · exact .step .refl ⟨position, wait, waiting, rfl⟩ rfl
  · exact .refl

theorem renumberWaiting_renumbered {entries : List BookingId}
    (h : Market.renumberWaiting p position wait entries m = .ok t) : BookingsRenumbered m t := by
  induction entries generalizing m position wait with
  | nil =>
      obtain rfl := pure_ok.mp h
      exact .refl _
  | cons b rest ih =>
      simp only [Market.renumberWaiting, bind_ok] at h
      obtain ⟨moved, move, renumber⟩ := h
      rw [moved_numbered move] at renumber
      exact updateFile_renumbered.trans (ih renumber)

theorem recalculateQueue_renumbered (h : m.recalculateQueue p = .ok t) : BookingsRenumbered m t := by
  simp only [Market.recalculateQueue] at h
  split at h
  · obtain ⟨moved, move, renumber⟩ := bind_ok.mp h
    rw [moveEntry_renumbered move] at renumber
    exact updateFile_renumbered.trans (renumberWaiting_renumbered renumber)
  · exact renumberWaiting_renumbered h

end Renumbering

end ServiceHub
