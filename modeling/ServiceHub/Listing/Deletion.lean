import ServiceHub.Booking.Coupling
import ServiceHub.Booking.Frame
import ServiceHub.Booking.Refinement
import ServiceHub.Listing.Capacity

/-! # Deleted listings

`deleteService` takes no lock, so a transaction that has read the listing before can write it
afterwards, and a booking can be created between its check and its commit. Deletions of listings that
nothing works on are final.
-/

namespace ServiceHub

theorem Lifecycle.status_active (l : Lifecycle) : l.status.active = !l.terminal := by
  cases l with
  | active w => cases w <;> rfl
  | _ => rfl

theorem bookingMachine_next {x x' : BookingSystem} {a : Action} (step : bookingMachine.next x a = some x') :
    bookingNext x a = some x' := by
  cases a with
  | renumber => exact step
  | step ctx st =>
      cases st with
      | refund id => simp [bookingMachine] at step
      | _ => exact step

/-- A booking that has ended does not become active again. -/
theorem BookingSystem.active_before {x x' : BookingSystem} {a : Action} (reached : bookingMachine.Reachable x)
    (step : bookingMachine.next x a = some x') (active : x'.file.booking.status.active = true) :
    x.file.booking.status.active = true := by
  obtain ⟨next, event, -⟩ := BookingSystem.next_event (bookingMachine_next step)
  obtain ⟨l, e, l', e', same | moved⟩ := event.reachable_refines (bookingMachine_reachableUnder reached)
  · rw [e.status, ← same, ← e'.status]
    exact active
  · rw [e.status, Lifecycle.status_active, moved.from_live]
    rfl

theorem BookingSystem.same_service {x x' : BookingSystem} {a : Action}
    (step : bookingMachine.next x a = some x') : x'.file.booking.serviceId = x.file.booking.serviceId := by
  obtain ⟨next, event, -⟩ := BookingSystem.next_event (bookingMachine_next step)
  exact event.sameTerms.column Booking.serviceId fun _ => rfl

/-- The listing is deleted. -/
def DeletedAt (listings : List Listing) (i : ServiceId) : Prop :=
  ∃ row, listings[i]? = some row ∧ row.status = .deleted

/-- What the call commits next concerns the listing. -/
def ListingCall.touches (i : ServiceId) : ListingCall → Bool
  | .count j _ _ _ | .write _ (.set j _) => j == i
  | .write _ (.pause order) => (pausedBy order).contains i
  | .book f => f.booking.serviceId == some i
  | .lock _ | .write _ .nothing | .write _ (.create _) | .deleteCommit _ => false

/-- A deletion commits while no other transaction works on the listing and no booking of it is active;
    a captured offer is booked while its listing is not deleted. -/
structure DeletesIdle (s : ListingSystem) (a : ListingAction) : Prop where
  deletion : ∀ k i, a = .resume k → s.calls[k]? = some (.deleteCommit i) →
    s.hasActiveBooking i = false ∧ ∀ call ∈ s.calls, call.touches i = false
  offer : ∀ k f i, a = .resume k → s.calls[k]? = some (.book f) → f.booking.offerId ≠ none →
    f.booking.serviceId = some i → ¬ DeletedAt s.listings i

/-- The deleted listings have no live work. -/
structure ListingSystem.DeletedQuiet (s : ListingSystem) : Prop where
  bookings : ∀ x ∈ s.bookings, bookingMachine.Reachable x
  deleted : ∀ (i : ServiceId) row, s.listings[i]? = some row → row.status = .deleted →
    row.isAvailable = false ∧ s.hasActiveBooking i = false

/-- What a call in flight will commit leaves the deleted listings alone. -/
def ListingCall.Spares (listings : List Listing) : ListingCall → Prop
  | .count i row _ _ | .write _ (.set i row) => ¬ DeletedAt listings i ∧ row.status ≠ .deleted
  | .write _ (.create row) => row.status ≠ .deleted
  | .write _ (.pause order) => ∀ i ∈ pausedBy order, ¬ DeletedAt listings i
  | .book f => bookingMachine.Reachable { file := f } ∧ (f.booking.offerId = none →
      ∀ i, f.booking.serviceId = some i → ¬ DeletedAt listings i)
  | .lock _ | .write _ .nothing | .deleteCommit _ => True

/-- No listing is deleted that was not, and the deleted ones keep their rows. -/
structure SameDeleted (l l' : List Listing) : Prop where
  none : ∀ i, DeletedAt l' i → DeletedAt l i
  rows : ∀ (i : ServiceId) row, l[i]? = some row → row.status = .deleted → l'[i]? = some row

section Rows

variable {l l' : List Listing} {i : ServiceId} {row : Listing} {call : ListingCall}

theorem SameDeleted.refl (l : List Listing) : SameDeleted l l := ⟨fun _ => id, fun _ _ found _ => found⟩

theorem ListingCall.Spares.same (h : call.Spares l) (same : ∀ i, DeletedAt l' i → DeletedAt l i) :
    call.Spares l' := by
  cases call with
  | count i row => exact ⟨fun deleted => h.1 (same i deleted), h.2⟩
  | write p w =>
      cases w with
      | set i row => exact ⟨fun deleted => h.1 (same i deleted), h.2⟩
      | pause order => exact fun i paused deleted => h i paused (same i deleted)
      | create => exact h
      | nothing => trivial
  | book f => exact ⟨h.1, fun direct i listed deleted => h.2 direct i listed (same i deleted)⟩
  | lock | deleteCommit => trivial

/-- A listing is deleted that the call does not touch. -/
theorem ListingCall.Spares.untouched (h : call.Spares l) (untouched : call.touches i = false)
    (same : ∀ j, j ≠ i → DeletedAt l' j → DeletedAt l j) : call.Spares l' := by
  cases call with
  | count j row =>
      have other : j ≠ i := by simpa [ListingCall.touches] using untouched
      exact ⟨fun deleted => h.1 (same j other deleted), h.2⟩
  | write p w =>
      cases w with
      | set j row =>
          have other : j ≠ i := by simpa [ListingCall.touches] using untouched
          exact ⟨fun deleted => h.1 (same j other deleted), h.2⟩
      | pause order =>
          intro j paused deleted
          have other : j ≠ i := by
            rintro rfl
            simp [ListingCall.touches, paused] at untouched
          exact h j paused (same j other deleted)
      | create => exact h
      | nothing => trivial
  | book f =>
      refine ⟨h.1, fun direct j listed deleted => ?_⟩
      have other : j ≠ i := by
        rintro rfl
        simp [ListingCall.touches, listed] at untouched
      exact h.2 direct j listed (same j other deleted)
  | lock | deleteCommit => trivial

theorem SameDeleted.set (spared : ¬ DeletedAt l i) (live : row.status ≠ .deleted) : SameDeleted l (l.set i row) := by
  constructor
  · rintro j ⟨row', written, deleted⟩
    rw [List.getElem?_set] at written
    split at written
    · split at written
      · obtain rfl := Option.some.inj written
        exact absurd deleted live
      · cases written
    · exact ⟨row', written, deleted⟩
  · intro j row' found deleted
    have other : i ≠ j := by
      rintro rfl
      exact spared ⟨row', found, deleted⟩
    rw [List.getElem?_set_ne other]
    exact found

theorem SameDeleted.append (live : row.status ≠ .deleted) : SameDeleted l (l ++ [row]) := by
  constructor
  · rintro j ⟨row', written, deleted⟩
    rw [List.getElem?_append] at written
    split at written
    · exact ⟨row', written, deleted⟩
    · obtain rfl := List.mem_singleton.mp (List.mem_of_getElem? written)
      exact absurd deleted live
  · intro j row' found _
    obtain ⟨bound, -⟩ := List.getElem?_eq_some_iff.mp found
    rw [List.getElem?_append_left bound]
    exact found

theorem SameDeleted.pause {order : List ServiceId} (spared : ∀ i ∈ pausedBy order, ¬ DeletedAt l i) :
    SameDeleted l ((ListingWrite.pause order).apply l) := by
  constructor
  · rintro j ⟨row', written, deleted⟩
    simp only [ListingWrite.apply, List.getElem?_mapIdx, Option.map_eq_some_iff] at written
    obtain ⟨row, found, rfl⟩ := written
    split at deleted
    · cases deleted
    · exact ⟨row, found, deleted⟩
  · intro j row found deleted
    have unpaused : j ∉ pausedBy order := fun paused => spared j paused ⟨row, found, deleted⟩
    simp [ListingWrite.apply, found, unpaused]

theorem SameDeleted.write {p : Provider} {w : ListingWrite} (h : (ListingCall.write p w).Spares l) :
    SameDeleted l (w.apply l) := by
  cases w with
  | nothing => exact .refl l
  | create row => exact .append h
  | set i row => exact .set h.1 h.2
  | pause order => exact .pause h

/-- The deletion of another listing, or once more of the same one. -/
theorem deletion_keeps {j : ServiceId} (found : l[j]? = some row) (deleted : row.status = .deleted)
    (unavailable : row.isAvailable = false) :
    (l.modify i ({ · with status := .deleted, isAvailable := false }))[j]? = some row := by
  rw [List.getElem?_modify, found]
  split
  · obtain ⟨_, _, _, _, _⟩ := row
    simp only at deleted unavailable
    subst deleted unavailable
    rfl
  · rfl

theorem deletion_only {j : ServiceId} (other : j ≠ i)
    (h : DeletedAt (l.modify i ({ · with status := .deleted, isAvailable := false })) j) : DeletedAt l j := by
  obtain ⟨row, written, deleted⟩ := h
  simp only [List.getElem?_modify, Ne.symm other, if_false, id_map'] at written
  exact ⟨row, written, deleted⟩

end Rows

section Runs

variable {start : ListingSystem → Prop} {s s' t : ListingSystem} {a : ListingAction}

theorem hasActiveBooking_false {i : ServiceId} : s.hasActiveBooking i = false ↔
    ∀ x ∈ s.bookings, x.file.booking.serviceId = some i → x.file.booking.status.active = false := by
  simp [ListingSystem.hasActiveBooking]

/-- Every call in flight leaves the deleted listings alone. -/
structure ListingSystem.DeletionFinal (s : ListingSystem) : Prop where
  quiet : s.DeletedQuiet
  calls : ∀ call ∈ s.calls, call.Spares s.listings

theorem ListingRead.spares {call : ListingCall} (h : ListingRead s call) : call.Spares s.listings := by
  have spared {i : ServiceId} {old : Listing} (found : s.listings[i]? = some old) (before : old.status ≠ .deleted) :
      ¬ DeletedAt s.listings i := by
    rintro ⟨row, found', deleted⟩
    obtain rfl := Option.some.inj (found.symm.trans found')
    exact before deleted
  cases h with
  | created _ _ live => exact live
  | kept | pro => trivial
  | basic =>
      rintro i paused
      obtain ⟨row, found, active⟩ := mem_oldestActive.mp (List.mem_of_mem_drop paused)
      exact spared found (by simp [active])
  | set found before after => exact ⟨spared found before, after⟩
  | counting found before after => exact ⟨spared found before, after⟩
  | booking listed =>
      refine ⟨.start ⟨.paidCapture .., rfl, rfl⟩, fun direct i same => ?_⟩
      obtain ⟨j, row, listed, found, active⟩ := listed direct
      obtain rfl : j = i := Option.some.inj (listed.symm.trans same)
      exact spared found (by simp [active])

/-- Listings stay deleted, and no booking of a deleted one is created or revived. -/
theorem ListingSystem.DeletedQuiet.kept (h : s.DeletedQuiet)
    (same : SameDeleted s.listings s'.listings)
    (bookings : ∀ x' ∈ s'.bookings, (bookingMachine.Reachable x') ∧ ((∃ x ∈ s.bookings,
        x'.file.booking.serviceId = x.file.booking.serviceId
          ∧ (x'.file.booking.status.active = true → x.file.booking.status.active = true))
      ∨ ∀ i, x'.file.booking.serviceId = some i → ¬ DeletedAt s.listings i)) : s'.DeletedQuiet := by
  refine ⟨fun x' listed => (bookings x' listed).1, fun i row found deleted => ?_⟩
  obtain ⟨old, found', deleted'⟩ := same.none i ⟨row, found, deleted⟩
  obtain rfl := Option.some.inj ((same.rows i old found' deleted').symm.trans found)
  obtain ⟨unavailable, idle⟩ := h.deleted i old found' deleted'
  refine ⟨unavailable, hasActiveBooking_false.mpr fun x' listed service => ?_⟩
  obtain ⟨-, ⟨x, among, service', active⟩ | new⟩ := bookings x' listed
  · have ended := hasActiveBooking_false.mp idle x among (service'.symm.trans service)
    rw [Bool.eq_false_iff]
    intro again
    rw [active again] at ended
    cases ended
  · exact absurd ⟨old, found', deleted'⟩ (new i service)

theorem ListingSystem.DeletedQuiet.same_bookings (h : s.DeletedQuiet)
    (same : SameDeleted s.listings s'.listings) (bookings : s'.bookings = s.bookings) : s'.DeletedQuiet :=
  h.kept same fun x' listed => ⟨h.bookings x' (bookings ▸ listed), .inl ⟨x', bookings ▸ listed, rfl, id⟩⟩

theorem ListingSystem.DeletedQuiet.booked {f : BookingFile} (h : s.DeletedQuiet)
    (created : bookingMachine.Reachable { file := f })
    (service : ∀ i, f.booking.serviceId = some i → ¬ DeletedAt s.listings i)
    (listings : s'.listings = s.listings) (bookings : s'.bookings = s.bookings ++ [{ file := f }]) :
    s'.DeletedQuiet := by
  refine h.kept (listings ▸ .refl _) fun x' listed => ?_
  rw [bookings] at listed
  rcases List.mem_append.mp listed with old | new
  · exact ⟨h.bookings x' old, .inl ⟨x', old, rfl, id⟩⟩
  · obtain rfl := List.mem_singleton.mp new
    exact ⟨created, .inr service⟩

theorem ListingSystem.DeletionFinal.step (h : s.DeletionFinal) (idle : DeletesIdle s a) (event : ListingEvent s a s') :
    s'.DeletionFinal ∧ ∀ (i : ServiceId) row, s.listings[i]? = some row → row.status = .deleted →
      s'.listings[i]? = some row := by
  obtain ⟨quiet, calls⟩ := h
  cases event with
  | called =>
      refine ⟨⟨quiet.same_bookings (.refl _) rfl, fun call listed => ?_⟩, fun _ _ found _ => found⟩
      rcases List.mem_append.mp listed with old | new
      · exact calls call old
      · obtain rfl := List.mem_singleton.mp new
        trivial
  | stopped =>
      refine ⟨⟨quiet.same_bookings (.refl _) rfl, fun call listed => ?_⟩, fun _ _ found _ => found⟩
      exact calls call (List.mem_of_mem_eraseIdx listed)
  | deletionChecked found =>
      refine ⟨⟨quiet.same_bookings (.refl _) rfl, fun call listed => ?_⟩, fun _ _ found _ => found⟩
      rcases goes_on listed with old | rfl
      · exact calls call old
      · trivial
  | entered found free read =>
      refine ⟨⟨quiet.same_bookings (.refl _) rfl, fun call listed => ?_⟩, fun _ _ found _ => found⟩
      rcases goes_on listed with old | rfl
      · exact calls call old
      · exact read.spares
  | counted found =>
      have counting := calls _ (List.mem_of_getElem? found)
      refine ⟨⟨quiet.same_bookings (.refl _) rfl, fun call listed => ?_⟩, fun _ _ found _ => found⟩
      rcases goes_on listed with old | rfl
      · exact calls call old
      · exact counting
  | @written k p w found =>
      have same : SameDeleted s.listings (w.apply s.listings) := .write (calls _ (List.mem_of_getElem? found))
      refine ⟨⟨quiet.same_bookings same rfl, fun call listed => ?_⟩, same.rows⟩
      exact (calls call (List.mem_of_mem_eraseIdx listed)).same same.none
  | @booked k f found =>
      obtain ⟨created, direct⟩ := calls _ (List.mem_of_getElem? found)
      have service : ∀ i, f.booking.serviceId = some i → ¬ DeletedAt s.listings i := by
        intro i listed
        by_cases offered : f.booking.offerId = none
        · exact direct offered i listed
        · exact idle.offer k f i rfl found offered listed
      refine ⟨⟨quiet.booked created service rfl rfl, fun call listed => ?_⟩, fun _ _ found _ => found⟩
      exact calls call (List.mem_of_mem_eraseIdx listed)
  | @deleted k i found =>
      obtain ⟨unbooked, untouched⟩ := idle.deletion k i rfl found
      have rows : ∀ (j : ServiceId) row, s.listings[j]? = some row → row.status = .deleted →
          (s.listings.modify i ({ · with status := .deleted, isAvailable := false }))[j]? = some row :=
        fun j row found' deleted => deletion_keeps found' deleted (quiet.deleted j row found' deleted).1
      refine ⟨⟨⟨quiet.bookings, fun j row written deleted => ?_⟩, fun call listed => ?_⟩, rows⟩
      · simp only [List.getElem?_modify, Option.map_eq_map, Option.map_eq_some_iff] at written
        obtain ⟨old, found', rfl⟩ := written
        split at deleted
        · rename_i same
          subst same
          exact ⟨by simp, unbooked⟩
        · rename_i other
          obtain ⟨unavailable, ended⟩ := quiet.deleted j old found' deleted
          exact ⟨by simpa [other] using unavailable, ended⟩
      · have other := List.mem_of_mem_eraseIdx listed
        exact (calls call other).untouched (untouched call other) fun j => deletion_only
  | @requested terms user plan listed =>
      obtain ⟨i, row, service, found, active⟩ := listed
      have live : ∀ j, terms.serviceId = some j → ¬ DeletedAt s.listings j := by
        rintro j same ⟨row', found', deleted⟩
        obtain rfl : i = j := Option.some.inj (service.symm.trans same)
        obtain rfl := Option.some.inj (found.symm.trans found')
        simp [active] at deleted
      have created : bookingMachine.Reachable { file := terms.cashRequest } := .start ⟨.cashRequest _, rfl, rfl⟩
      exact ⟨⟨quiet.booked created live rfl rfl, calls⟩, fun _ _ found _ => found⟩
  | @bookingStepped b a x x' found step =>
      have among := List.mem_of_getElem? found
      refine ⟨⟨quiet.kept (.refl _) fun y listed => ?_, calls⟩, fun _ _ found _ => found⟩
      rcases List.mem_or_eq_of_mem_set listed with old | rfl
      · exact ⟨quiet.bookings y old, .inl ⟨y, old, rfl, id⟩⟩
      · exact ⟨(quiet.bookings x among).next trivial step, .inl ⟨x, among, BookingSystem.same_service step,
          BookingSystem.active_before (quiet.bookings x among) step⟩⟩
  | membership | waited => exact ⟨⟨quiet.same_bookings (.refl _) rfl, calls⟩, fun _ _ found _ => found⟩

theorem deletions_final (h : (listingMachine ListingSystem.DeletedQuiet).ReachableUnder DeletesIdle s) :
    s.DeletionFinal := by
  refine h.invariant (I := ListingSystem.DeletionFinal) ?_ ?_
  · rintro s ⟨idle, quiet⟩
    exact ⟨quiet, by simp [idle]⟩
  · intro s a s' final idle stepped
    exact (final.step idle (ListingSystem.step_event stepped)).1

/-- While deletions commit only for idle listings, they are final and leave no live work. -/
theorem deleted_listing_stays (h : (listingMachine ListingSystem.DeletedQuiet).ReachableUnder DeletesIdle s)
    {i : ServiceId} {row : Listing} (found : s.listings[i]? = some row) (deleted : row.status = .deleted) :
    s.hasActiveBooking i = false ∧ ∀ t, (listingMachine ListingSystem.DeletedQuiet).RunUnder DeletesIdle s t →
      t.listings[i]? = some row ∧ row.isAvailable = false ∧ t.hasActiveBooking i = false := by
  have always : ∀ t, (listingMachine ListingSystem.DeletedQuiet).RunUnder DeletesIdle s t →
      t.listings[i]? = some row := by
    intro t run
    refine (h.related (R := fun u v => u.listings[i]? = some row → v.listings[i]? = some row) (fun _ _ => id)
      (fun _ _ _ first second => second ∘ first) ?_ run) found
    intro u a v reached idle stepped found'
    exact ((deletions_final reached).step idle (ListingSystem.step_event stepped)).2 i row found' deleted
  have quiet := (deletions_final h).quiet.deleted i row found deleted
  refine ⟨quiet.2, fun t run => ?_⟩
  have reached : (listingMachine ListingSystem.DeletedQuiet).ReachableUnder DeletesIdle t := by
    obtain ⟨s₀, start, before⟩ := h
    exact ⟨s₀, start, before.trans run⟩
  have later := (deletions_final reached).quiet.deleted i row (always t run) deleted
  exact ⟨always t run, later⟩

/-- A paused listing of a provider on the Free plan. -/
def pausedListing : ListingSystem where
  now := 100
  provider := { subscriptionUpdatedAt := 0, freePlanStartedAt := some 0, freePlanExpiresAt := some 1000 }
  listings := [{ cuid := 0, status := .inactive, isAvailable := false, publishedAt := some 9 }]

def shownListing : ListingSystem where
  __ := pausedListing
  listings := [{ cuid := 0, publishedAt := some 9 }]

def listingTerms : Terms where
  seekerId := 1
  providerId := 2
  distinct := sampleTerms.distinct
  serviceId := some 0
  offerId := none
  amount := 50000
  estimatedDurationMins := none

theorem pausedListing_quiet : pausedListing.DeletedQuiet where
  bookings x listed := by cases listed
  deleted i row found deleted := by
    have listed := List.mem_singleton.mp (List.mem_of_getElem? found)
    simp [listed] at deleted

theorem shownListing_quiet : shownListing.DeletedQuiet where
  bookings x listed := by cases listed
  deleted i row found deleted := by
    have listed := List.mem_singleton.mp (List.mem_of_getElem? found)
    simp [listed] at deleted

def deletesIdle (s : ListingSystem) : ListingAction → Bool
  | .resume k => match s.calls[k]? with
      | some (.deleteCommit i) => !s.hasActiveBooking i && s.calls.all (!·.touches i)
      | some (.book f) => f.booking.offerId.isNone
      | _ => true
  | _ => true

theorem deletesIdle_sound (s : ListingSystem) (a : ListingAction) (h : deletesIdle s a = true) : DeletesIdle s a := by
  constructor
  · rintro k i rfl found
    simp only [deletesIdle, found, Bool.and_eq_true, Bool.not_eq_true', List.all_eq_true] at h
    exact h
  · rintro k f i rfl found offer
    simp only [deletesIdle, found, Option.isNone_iff_eq_none] at h
    exact absurd h offer

/-- A booking of the listing is declined, and the listing is deleted while a call waits to pause it. -/
def sampleDeletion : List ListingAction :=
  [.createDirectRequest listingTerms, .booking 0 (.step sampleContext (.request (.respondToDirectBooking 2 false))),
    .call (.deleteService 0), .resume 0, .call (.toggleServiceAvailability 0), .resume 0]

theorem deleted_listing_stays_paused : ∃ s t row,
    (listingMachine ListingSystem.DeletedQuiet).execUnder deletesIdle shownListing sampleDeletion = some s
    ∧ s.bookings.length = 1 ∧ s.calls.length = 1 ∧ s.listings[0]? = some row ∧ row.status = .deleted
    ∧ (listingMachine ListingSystem.DeletedQuiet).execUnder deletesIdle s [.resume 0, .wait 5] = some t
    ∧ s.hasActiveBooking 0 = false
    ∧ t.listings[0]? = some row ∧ row.isAvailable = false ∧ t.hasActiveBooking 0 = false := by
  have sample : ∃ s t row,
      (listingMachine ListingSystem.DeletedQuiet).execUnder deletesIdle shownListing sampleDeletion = some s
      ∧ s.bookings.length = 1 ∧ s.calls.length = 1 ∧ s.listings[0]? = some row ∧ row.status = .deleted
      ∧ (listingMachine ListingSystem.DeletedQuiet).execUnder deletesIdle s [.resume 0, .wait 5] = some t :=
    ⟨_, _, _, rfl, rfl, rfl, rfl, rfl, rfl⟩
  obtain ⟨s, t, row, run, booked, waits, found, deleted, later⟩ := sample
  have reached : (listingMachine ListingSystem.DeletedQuiet).ReachableUnder DeletesIdle s :=
    ⟨shownListing, ⟨rfl, shownListing_quiet⟩, .of_execUnder deletesIdle_sound run⟩
  obtain ⟨idle, stays⟩ := deleted_listing_stays reached found deleted
  exact ⟨s, t, row, run, booked, waits, found, deleted, later, idle, stays t (.of_execUnder deletesIdle_sound later)⟩

/-- A listing is resumed by a transaction that read it before its deletion; another one is booked
    between the check and the commit of its deletion. -/
theorem deleted_listing_comes_back :
    (∃ s t, (listingMachine ListingSystem.DeletedQuiet).Reachable s
        ∧ (listingMachine ListingSystem.DeletedQuiet).RunUnder (fun _ _ => True) s t
        ∧ DeletedAt s.listings 0 ∧ ActiveAt t.listings 0)
      ∧ ∃ s, (listingMachine ListingSystem.DeletedQuiet).Reachable s
        ∧ DeletedAt s.listings 0 ∧ s.hasActiveBooking 0 = true := by
  constructor
  · have before : ∃ s, (listingMachine ListingSystem.DeletedQuiet).exec pausedListing [
        .call (.toggleServiceAvailability 0), .resume 0, .call (.deleteService 0), .resume 1, .resume 1] = some s
        ∧ DeletedAt s.listings 0 ∧ ∃ t, (listingMachine ListingSystem.DeletedQuiet).exec s [.resume 0, .resume 0]
          = some t ∧ ActiveAt t.listings 0 :=
      ⟨_, rfl, ⟨_, rfl, rfl⟩, _, rfl, _, rfl, rfl⟩
    obtain ⟨s, run, deleted, t, later, active⟩ := before
    exact ⟨s, t, .of_exec ⟨rfl, pausedListing_quiet⟩ run, .of_exec later, deleted, active⟩
  · have booked : ∃ s, (listingMachine ListingSystem.DeletedQuiet).exec shownListing [
        .call (.deleteService 0), .resume 0, .createDirectRequest listingTerms, .resume 0] = some s
        ∧ DeletedAt s.listings 0 ∧ s.hasActiveBooking 0 = true :=
      ⟨_, rfl, ⟨_, rfl, rfl⟩, rfl⟩
    obtain ⟨s, run, deleted, live⟩ := booked
    exact ⟨s, .of_exec ⟨rfl, shownListing_quiet⟩ run, deleted, live⟩

end Runs

end ServiceHub
