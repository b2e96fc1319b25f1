import ServiceHub.Listing.Deletion

/-! # Removed listings

A listing that an administrator has removed comes back by a restoration only, whatever its provider does: every other
transaction reads the listing under the account lock and refuses it, and the deletion, which takes no lock, ends it.
-/

namespace ServiceHub

open Guard

/-- The call goes on to write the row of the listing. -/
def ListingCall.writes (i : ServiceId) : ListingCall → Bool
  | .count j _ _ _ | .write _ (.set j _) => j == i
  | .write _ (.pause order) => (pausedBy order).contains i
  | .lock _ | .write _ .nothing | .write _ (.create _) | .book _ | .deleteCommit _ => false

/-- A restoration of the listing that has not read yet. -/
def ListingCall.restores (i : ServiceId) : ListingCall → Bool
  | .lock (.restoreListing j _) => j == i
  | _ => false

/-- In this step a restoration of the listing reads. -/
def ListingSystem.restores (i : ServiceId) (s : ListingSystem) : ListingAction → Bool
  | .resume k => (s.calls[k]?).any (·.restores i)
  | _ => false

/-- The listing is hidden by an administrator, or deleted. -/
def Listing.gone (row : Listing) : Prop := row.status = .suspended ∨ row.status = .deleted

/-- The row that a call goes on with: only a removal writes a suspended one. -/
def ListingCall.Backed (listings : List Listing) : ListingCall → Prop
  | .count i row _ _ => i < listings.length ∧ row.status ≠ .suspended
  | .write _ (.set i row) =>
      i < listings.length ∧ (row.status = .suspended → row.isAvailable = false ∧ row.adminRemoved = true)
  | .lock _ | .write _ .nothing | .write _ (.create _) | .write _ (.pause _) | .book _ | .deleteCommit _ => True

/-- What every run keeps of the calls. -/
structure ListingSystem.Guarded (s : ListingSystem) : Prop where
  exclusive : Threads.Exclusive ListingCall.locked s.calls
  backed : ∀ call ∈ s.calls, call.Backed s.listings

/-- The listing is gone, and no call in flight brings it back. -/
structure ListingSystem.Removed (i : ServiceId) (row : Listing) (s : ListingSystem) : Prop where
  stands : s.listings[i]? = some row ∨ DeletedAt s.listings i
  unwritten : ∀ call ∈ s.calls, call.writes i = false

section Reads

variable {s s' : ListingSystem} {request : ListingRequest} {call : ListingCall} {i : ServiceId} {k : Nat}

theorem ListingCall.Backed.longer {l l' : List Listing} (h : call.Backed l) (longer : l.length ≤ l'.length) :
    call.Backed l' := by
  cases call with
  | count j row => exact ⟨Nat.lt_of_lt_of_le h.1 longer, h.2⟩
  | write p w =>
      cases w with
      | set j row => exact ⟨Nat.lt_of_lt_of_le h.1 longer, h.2⟩
      | nothing | create | pause => trivial
  | lock | book | deleteCommit => trivial

theorem lt_length {l : List Listing} {old : Listing} (found : l[i]? = some old) : i < l.length :=
  (List.getElem?_eq_some_iff.mp found).1

/-- Only a restoration goes on to write a listing that is gone. -/
theorem read_writes (h : s.read request = .ok call) (writes : call.writes i = true) :
    (∃ old, s.listings[i]? = some old ∧ ¬ old.gone) ∨ ∃ passes, request = .restoreListing i passes := by
  cases request with
  | createService cuid passes =>
      simp only [ListingSystem.read, bind_ok, pure_ok] at h
      obtain ⟨-, -, user, -, -, -, -, -, rfl⟩ := h
      cases writes
  | updateService j changed passes =>
      simp only [ListingSystem.read, bind_ok, orThrow_ok, rejectIf_ok, ite_ok, pure_ok] at h
      obtain ⟨-, -, service, found, -, live, -, shown, h⟩ := h
      have present : ¬ service.gone := fun gone => gone.elim shown live
      have same : j = i := by
        obtain ⟨-, rfl⟩ | ⟨-, -, -, ⟨-, rfl⟩ | ⟨-, h⟩⟩ := h
        · cases writes
        · simpa [ListingCall.writes] using writes
        · split at h
          all_goals
            subst h
            simpa [ListingCall.writes] using writes
      subst same
      exact .inl ⟨service, found, present⟩
  | toggleServiceAvailability j =>
      simp only [ListingSystem.read, bind_ok, orThrow_ok, ite_ok, pure_ok, Option.filter_eq_some_iff] at h
      obtain ⟨-, -, service, ⟨found, shown⟩, h⟩ := h
      have present : ¬ service.gone := by
        rintro (hidden | hidden) <;> simp [hidden] at shown
      have same : j = i := by
        obtain ⟨-, rfl⟩ | ⟨-, rfl⟩ := h
        all_goals simpa [ListingCall.writes] using writes
      subst same
      exact .inl ⟨service, found, present⟩
  | removeListing j =>
      simp only [ListingSystem.read, bind_ok, orThrow_ok, rejectIf_ok, pure_ok] at h
      obtain ⟨content, found, -, shown, rfl⟩ := h
      obtain rfl : j = i := by simpa [ListingCall.writes] using writes
      refine .inl ⟨content, found, ?_⟩
      rintro (hidden | hidden) <;> simp [hidden] at shown
  | restoreListing j passes =>
      simp only [ListingSystem.read, bind_ok, orThrow_ok, rejectIf_ok, pure_ok] at h
      obtain ⟨content, -, -, -, -, -, -, -, rfl⟩ := h
      obtain rfl : j = i := by simpa [ListingCall.writes] using writes
      exact .inr ⟨passes, rfl⟩
  | finalizeSubscription current paymentId =>
      simp only [ListingSystem.read, ite_ok, pure_ok] at h
      obtain ⟨-, rfl⟩ | ⟨-, rfl⟩ := h
      · cases writes
      · split at writes
        · -- the pause writes listings that are active under the lock
          have paused : i ∈ pausedBy (oldestActive s.listings) := by simpa [ListingCall.writes] using writes
          obtain ⟨row, found, active⟩ := mem_oldestActive.mp (List.mem_of_mem_drop paused)
          refine .inl ⟨row, found, ?_⟩
          rintro (hidden | hidden) <;> simp [hidden] at active
        · cases writes
  | finalizeSuccessfulPayment terms attemptId intentId paymentId position =>
      simp only [ListingSystem.read, bind_ok] at h
      obtain ⟨-, -, h⟩ := h
      split at h
      · simp only [bind_ok, orThrow_ok, rejectIf_ok, pure_ok] at h
        obtain ⟨service, -, -, -, rfl⟩ := h
        cases writes
      · obtain rfl := pure_ok.mp h
        cases writes
  | deleteService j =>
      simp only [ListingSystem.read, bind_ok, pure_ok] at h
      obtain ⟨-, -, -, -, rfl⟩ := h
      cases writes

theorem read_backed (h : s.read request = .ok call) : call.Backed s.listings := by
  cases request with
  | createService cuid passes =>
      simp only [ListingSystem.read, bind_ok, pure_ok] at h
      obtain ⟨-, -, user, -, -, -, -, -, rfl⟩ := h
      trivial
  | updateService j changed passes =>
      simp only [ListingSystem.read, bind_ok, orThrow_ok, rejectIf_ok, ite_ok, pure_ok] at h
      obtain ⟨-, -, service, found, -, live, -, shown, h⟩ := h
      obtain ⟨-, rfl⟩ | ⟨-, -, -, ⟨-, rfl⟩ | ⟨-, h⟩⟩ := h
      · trivial
      · exact ⟨lt_length found, fun hidden => absurd hidden shown⟩
      · split at h
        all_goals
          subst h
          exact ⟨lt_length found, by simp⟩
  | toggleServiceAvailability j =>
      simp only [ListingSystem.read, bind_ok, orThrow_ok, ite_ok, pure_ok, Option.filter_eq_some_iff] at h
      obtain ⟨-, -, service, ⟨found, shown⟩, ⟨-, rfl⟩ | ⟨-, rfl⟩⟩ := h
      all_goals exact ⟨lt_length found, by simp⟩
  | removeListing j =>
      simp only [ListingSystem.read, bind_ok, orThrow_ok, rejectIf_ok, pure_ok] at h
      obtain ⟨content, found, -, -, rfl⟩ := h
      exact ⟨lt_length found, fun _ => ⟨rfl, rfl⟩⟩
  | restoreListing j passes =>
      simp only [ListingSystem.read, bind_ok, orThrow_ok, rejectIf_ok, pure_ok] at h
      obtain ⟨content, found, -, -, -, -, -, -, rfl⟩ := h
      exact ⟨lt_length found, by simp⟩
  | finalizeSubscription current paymentId =>
      simp only [ListingSystem.read, ite_ok, pure_ok] at h
      obtain ⟨-, rfl⟩ | ⟨-, rfl⟩ := h
      · trivial
      · split <;> trivial
  | finalizeSuccessfulPayment terms attemptId intentId paymentId position =>
      simp only [ListingSystem.read, bind_ok] at h
      obtain ⟨-, -, h⟩ := h
      split at h
      · simp only [bind_ok, orThrow_ok, rejectIf_ok, pure_ok] at h
        obtain ⟨service, -, -, -, rfl⟩ := h
        trivial
      · obtain rfl := pure_ok.mp h
        trivial
  | deleteService j =>
      simp only [ListingSystem.read, bind_ok, pure_ok] at h
      obtain ⟨-, -, -, -, rfl⟩ := h
      trivial

/-- A waiting call goes on with what its reads answer, the deletion without the lock. -/
theorem step_lock (found : s.calls[k]? = some (.lock request)) (h : s.step (.resume k) = some s') :
    ∃ next, s' = { s with calls := Threads.proceed s.calls k next } ∧ next = (s.read request).toOption
      ∧ (s.isLocked = false ∨ ∀ call, next = some call → call.locked = false) := by
  simp only [ListingSystem.step, found, Option.bind_some, Option.map_eq_some_iff, Prod.exists] at h
  obtain ⟨after, next, run, rfl⟩ := h
  by_cases deletes : ∃ j, request = .deleteService j
  · obtain ⟨j, rfl⟩ := deletes
    simp only [ListingSystem.resume, Option.some.injEq, Prod.mk.injEq] at run
    obtain ⟨rfl, rfl⟩ := run
    refine ⟨_, rfl, rfl, .inr fun call reads => ?_⟩
    have reads := toOption_some.mp reads
    simp only [ListingSystem.read, bind_ok, pure_ok] at reads
    obtain ⟨-, -, -, -, rfl⟩ := reads
    rfl
  · have locked : (if s.isLocked then none else some (s, (s.read request).toOption)) = some (after, next) := by
      cases request with
      | deleteService j => exact absurd ⟨j, rfl⟩ deletes
      | _ => exact run
    split at locked
    · cases locked
    · rename_i free
      obtain ⟨rfl, rfl⟩ := Prod.mk.inj (Option.some.inj locked)
      exact ⟨_, rfl, rfl, .inl (by simpa using free)⟩

end Reads

section Steps

variable {start : ListingSystem → Prop} {s s' t : ListingSystem} {a : ListingAction} {i : ServiceId} {row : Listing}
  {w : ListingWrite} {p : Provider} {k : Nat}

theorem length_apply (l : List Listing) (w : ListingWrite) : l.length ≤ (w.apply l).length := by
  cases w <;> simp [ListingWrite.apply]

/-- A write of other listings keeps the row. -/
theorem apply_unwritten {l : List Listing} (other : (ListingCall.write p w).writes i = false) (found : l[i]? = some row) :
    (w.apply l)[i]? = some row := by
  cases w with
  | nothing => exact found
  | create row' =>
      rw [ListingWrite.apply, List.getElem?_append_left (lt_length found)]
      exact found
  | set j row' =>
      have apart : j ≠ i := by simpa [ListingCall.writes] using other
      rw [ListingWrite.apply, List.getElem?_set_ne apart]
      exact found
  | pause order =>
      have unpaused : i ∉ pausedBy order := by simpa [ListingCall.writes] using other
      simp [ListingWrite.apply, found, unpaused]

theorem ListingSystem.Guarded.step (h : s.Guarded) (next : s.step a = some s') : s'.Guarded := by
  obtain ⟨exclusive, backed⟩ := h
  by_cases waits : ∃ k request, a = .resume k ∧ s.calls[k]? = some (.lock request)
  · obtain ⟨k, request, rfl, found⟩ := waits
    obtain ⟨call?, rfl, reads, free⟩ := step_lock found next
    constructor
    · rcases free with free | outside
      · exact exclusive.proceed found (.inr free)
      · exact exclusive.leave found outside
    · intro call listed
      rcases Threads.mem_proceed listed with old | goes
      · exact backed call old
      · exact read_backed (toOption_some.mp (reads.symm.trans goes))
  · cases ListingSystem.step_event next with
    | called =>
        refine ⟨?_, fun call listed => ?_⟩
        · simpa [Threads.Exclusive, List.countP_append, ListingCall.locked] using exclusive
        · rcases List.mem_append.mp listed with old | new
          · exact backed call old
          · obtain rfl := List.mem_singleton.mp new
            trivial
    | stopped => exact ⟨exclusive.returns, fun call listed => backed call (List.mem_of_mem_eraseIdx listed)⟩
    | deletionChecked found => exact absurd ⟨_, _, rfl, found⟩ waits
    | entered found => exact absurd ⟨_, _, rfl, found⟩ waits
    | @counted k i row own restores user found =>
        have exclusive' : Threads.Exclusive ListingCall.locked
            (Threads.proceed s.calls k (some (.write user (.set i row)))) := exclusive.proceed found (.inl rfl)
        refine ⟨exclusive', fun call listed => ?_⟩
        rcases goes_on listed with old | rfl
        · exact backed call old
        · obtain ⟨bound, shown⟩ := backed _ (List.mem_of_getElem? found)
          exact ⟨bound, fun hidden => absurd hidden shown⟩
    | @written k p w =>
        refine ⟨exclusive.returns, fun call listed => ?_⟩
        exact (backed call (List.mem_of_mem_eraseIdx listed)).longer (length_apply s.listings w)
    | booked => exact ⟨exclusive.returns, fun call listed => backed call (List.mem_of_mem_eraseIdx listed)⟩
    | deleted =>
        refine ⟨exclusive.returns, fun call listed => ?_⟩
        exact (backed call (List.mem_of_mem_eraseIdx listed)).longer (by simp)
    | requested | bookingStepped | membership | waited => exact ⟨exclusive, backed⟩

theorem guarded_reachable (h : (listingMachine start).Reachable s) : s.Guarded := by
  refine h.invariant (fun s initial => ?_) fun s a s' guarded next => guarded.step next
  have idle : s.calls = [] := initial.1
  exact ⟨by simp [Threads.Exclusive, idle], by simp [idle]⟩

/-- A step that restores nothing leaves the listing gone. -/
theorem ListingSystem.Removed.step (h : s.Removed i row) (hidden : row.status = .suspended)
    (next : s.step a = some s') (spared : s.restores i a = false) : s'.Removed i row := by
  obtain ⟨stands, unwritten⟩ := h
  have gone : ∀ old, s.listings[i]? = some old → old.gone := by
    intro old found
    rcases stands with same | ⟨deleted, found', ended⟩
    · obtain rfl := Option.some.inj (same.symm.trans found)
      exact .inl hidden
    · obtain rfl := Option.some.inj (found'.symm.trans found)
      exact .inr ended
  by_cases waits : ∃ k request, a = .resume k ∧ s.calls[k]? = some (.lock request)
  · obtain ⟨k, request, rfl, found⟩ := waits
    obtain ⟨call?, rfl, reads, -⟩ := step_lock found next
    refine ⟨stands, fun call listed => ?_⟩
    rcases Threads.mem_proceed listed with old | goes
    · exact unwritten call old
    · by_contra writes
      obtain ⟨old, present, shown⟩ | ⟨passes, rfl⟩ :=
        read_writes (toOption_some.mp (reads.symm.trans goes)) (by simpa using writes)
      · exact shown (gone old present)
      · simp [ListingSystem.restores, found, ListingCall.restores] at spared
  · have fewer : ∀ k, ∀ call ∈ s.calls.eraseIdx k, call.writes i = false :=
      fun k call listed => unwritten call (List.mem_of_mem_eraseIdx listed)
    cases ListingSystem.step_event next with
    | called =>
        refine ⟨stands, fun call listed => ?_⟩
        rcases List.mem_append.mp listed with old | new
        · exact unwritten call old
        · obtain rfl := List.mem_singleton.mp new
          rfl
    | stopped => exact ⟨stands, fewer _⟩
    | deletionChecked found => exact absurd ⟨_, _, rfl, found⟩ waits
    | entered found => exact absurd ⟨_, _, rfl, found⟩ waits
    | counted found =>
        refine ⟨stands, fun call listed => ?_⟩
        rcases goes_on listed with old | rfl
        · exact unwritten call old
        · have other := unwritten _ (List.mem_of_getElem? found)
          exact other
    | written found =>
        have other := unwritten _ (List.mem_of_getElem? found)
        refine ⟨?_, fewer _⟩
        rcases stands with same | ⟨old, found', ended⟩
        · exact .inl (apply_unwritten other same)
        · exact .inr ⟨old, apply_unwritten other found', ended⟩
    | booked => exact ⟨stands, fewer _⟩
    | @deleted k j found =>
        refine ⟨?_, fewer _⟩
        obtain ⟨old, present⟩ : ∃ old, s.listings[i]? = some old := by
          rcases stands with same | ⟨old, found', -⟩
          · exact ⟨row, same⟩
          · exact ⟨old, found'⟩
        by_cases own : j = i
        · subst own
          exact .inr ⟨{ old with status := .deleted, isAvailable := false }, by simp [present], rfl⟩
        · have kept : (s.listings.modify j ({ · with status := .deleted, isAvailable := false }))[i]? = s.listings[i]? := by
            simp [own]
          rcases stands with same | ⟨old, found', ended⟩
          · exact .inl (kept.trans same)
          · exact .inr ⟨old, kept.trans found', ended⟩
    | requested | bookingStepped | membership | waited => exact ⟨stands, unwritten⟩

/-- Once a removal has committed, the listing is hidden or deleted after every run in which no restoration of it reads. -/
theorem listing_removal_stands (h : (listingMachine start).Reachable s)
    (removal : s.calls[k]? = some (.write p (.set i row))) (hidden : row.status = .suspended)
    (commits : (listingMachine start).next s (.resume k) = some s')
    (run : (listingMachine start).RunUnder (fun u a => u.restores i a = false) s' t) :
    (t.listings[i]? = some row ∨ DeletedAt t.listings i) ∧ row.isAvailable = false ∧ row.adminRemoved = true
      ∧ ¬ ActiveAt t.listings i := by
  have guarded := guarded_reachable h
  obtain ⟨bound, removes⟩ := guarded.backed _ (List.mem_of_getElem? removal)
  have removed : s'.Removed i row := by
    simp only [listingMachine, ListingSystem.step, removal, Option.bind_some, ListingSystem.resume, Option.map_some,
      Option.some.injEq] at commits
    subst commits
    refine ⟨.inl (by simp [ListingWrite.apply, bound]), fun call listed => ?_⟩
    -- the removal has held the lock, and only a call under the lock goes on to write
    have unlocked := guarded.exclusive.others removal rfl call listed
    cases call with
    | count | write | book => cases unlocked
    | lock | deleteCommit => rfl
  have later : t.Removed i row :=
    run.invariant (I := ListingSystem.Removed i row) (fun u a u' known spared next => known.step hidden next spared) removed
  refine ⟨later.stands, (removes hidden).1, (removes hidden).2, ?_⟩
  rintro ⟨old, found, active⟩
  rcases later.stands with same | ⟨old', found', ended⟩
  · obtain rfl := Option.some.inj (same.symm.trans found)
    rw [hidden] at active
    cases active
  · obtain rfl := Option.some.inj (found'.symm.trans found)
    rw [ended] at active
    cases active

/-- A removed listing that its provider tries to resume and to edit, and then deletes. -/
theorem listing_removal_stands_sample : ∃ s s' t,
    (listingMachine ListingSystem.DeletedQuiet).exec shownListing [.call (.removeListing 0), .resume 0] = some s
      ∧ (listingMachine ListingSystem.DeletedQuiet).next s (.resume 0) = some s'
      ∧ (listingMachine ListingSystem.DeletedQuiet).execUnder (fun u a => !u.restores 0 a) s' [
        .call (.toggleServiceAvailability 0), .resume 0, .call (.updateService 0 true true), .resume 0,
        .call (.deleteService 0), .resume 0, .resume 0] = some t
      ∧ ¬ ActiveAt t.listings 0 := by
  have sample : ∃ s s' t p row,
      (listingMachine ListingSystem.DeletedQuiet).exec shownListing [.call (.removeListing 0), .resume 0] = some s
        ∧ s.calls[0]? = some (.write p (.set 0 row)) ∧ row.status = .suspended
        ∧ (listingMachine ListingSystem.DeletedQuiet).next s (.resume 0) = some s'
        ∧ (listingMachine ListingSystem.DeletedQuiet).execUnder (fun u a => !u.restores 0 a) s' [
          .call (.toggleServiceAvailability 0), .resume 0, .call (.updateService 0 true true), .resume 0,
          .call (.deleteService 0), .resume 0, .resume 0] = some t :=
    ⟨_, _, _, _, _, rfl, rfl, rfl, rfl, rfl⟩
  obtain ⟨s, s', t, p, row, before, removal, hidden, commits, run⟩ := sample
  have later := Machine.RunUnder.of_execUnder (C := fun u a => u.restores 0 a = false) (by simp) run
  have stands := listing_removal_stands (.of_exec ⟨rfl, shownListing_quiet⟩ before) removal hidden commits later
  exact ⟨s, s', t, before, commits, run, stands.2.2.2⟩

end Steps

end ServiceHub
