import ServiceHub.Listing.Listings

/-! # What a step does to the listings

A call reads under the account lock, counts, and writes what it has decided; the deletion writes
without the lock.
-/

namespace ServiceHub

open Guard

/-- What a transaction goes on with after its first reads. -/
inductive ListingRead (s : ListingSystem) : ListingCall → Prop where
  | created {user row} (plan : user.subscriptionPlan = s.provider.subscriptionPlan)
      (room : s.provider.subscriptionPlan.allows (activeCount s.listings + 1))
      (live : row.status ≠ .deleted) : ListingRead s (.write user (.create row))
  | kept : ListingRead s (.write s.provider .nothing)
  | pro {user} (plan : user.subscriptionPlan = .pro) : ListingRead s (.write user .nothing)
  | basic {user} (plan : user.subscriptionPlan = .basic) :
      ListingRead s (.write user (.pause (oldestActive s.listings)))
  | set {i old row} (found : s.listings[i]? = some old) (before : old.status ≠ .deleted)
      (after : row.status ≠ .deleted) (active : row.status = .active → old.status = .active) :
      ListingRead s (.write s.provider (.set i row))
  | counting {i old row own restores} (found : s.listings[i]? = some old) (before : old.status ≠ .deleted)
      (after : row.status ≠ .deleted) : ListingRead s (.count i row own restores)
  | booking {terms : Terms} {attemptId intentId paymentId position}
      (listed : terms.offerId = none → ∃ i row, terms.serviceId = some i ∧ s.listings[i]? = some row
        ∧ row.status = .active) :
      ListingRead s (.book (terms.paidCapture attemptId intentId paymentId position))

section Reads

variable {s : ListingSystem} {p user : Provider} {now : Millis} {n : Nat}

theorem ensureProviderTrial_plan (h : p.ensureProviderTrial now = .ok user) :
    user.subscriptionPlan = p.subscriptionPlan := by
  simp only [Provider.ensureProviderTrial, bind_ok, ite_ok, pure_ok] at h
  obtain ⟨-, -, ⟨-, rfl⟩ | ⟨-, rfl⟩⟩ := h <;> rfl

theorem assertNewProviderBusiness_plan (h : p.assertNewProviderBusiness now = .ok user) :
    user.subscriptionPlan = p.subscriptionPlan := by
  simp only [Provider.assertNewProviderBusiness, bind_ok, pure_ok] at h
  obtain ⟨_, trial, -, -, rfl⟩ := h
  exact ensureProviderTrial_plan trial

theorem cancelProviderSubscription_plan (h : p.cancelProviderSubscription now = .ok user) :
    user.subscriptionPlan = p.subscriptionPlan := by
  simp only [Provider.cancelProviderSubscription, bind_ok, pure_ok] at h
  obtain ⟨-, -, -, -, rfl⟩ := h
  rfl

theorem maintainMembership_plan {plan : ProviderPlan} {expiresAt : Millis} :
    (p.maintainMembership now plan expiresAt).subscriptionPlan = p.subscriptionPlan := by
  unfold Provider.maintainMembership
  split
  · rfl
  split
  · rfl
  split <;> rfl

theorem updateProvider_ok {s' : ListingSystem} {run : Except HttpError Provider}
    (h : s.updateProvider run = some s') : ∃ p, run = .ok p ∧ s' = { s with provider := p } := by
  unfold ListingSystem.updateProvider at h
  split at h
  · cases h
  · obtain ⟨p, ran, rfl⟩ := Option.map_eq_some_iff.mp h
    exact ⟨p, toOption_some.mp ran, rfl⟩

/-- A listing more is within the plan. -/
theorem assertListingCapacity_room (h : p.assertListingCapacity n now = .ok ()) :
    p.subscriptionPlan.allows (n + 1) := by
  simp only [Provider.assertListingCapacity, bind_ok] at h
  obtain ⟨-, -, h⟩ := h
  intro limit limited
  rw [limited] at h
  have below := rejectIf_ok.mp h
  omega

theorem ListingSystem.read_kind {request : ListingRequest} {call : ListingCall}
    (h : s.read request = .ok call) (locked : ∀ i, request ≠ .deleteService i) : ListingRead s call := by
  cases request with
  | createService cuid passes =>
      simp only [ListingSystem.read, bind_ok, pure_ok] at h
      obtain ⟨_, -, user, business, _, room, _, -, rfl⟩ := h
      have plan := assertNewProviderBusiness_plan business
      exact .created plan (plan ▸ assertListingCapacity_room room) (by simp)
  | updateService i changed passes =>
      simp only [ListingSystem.read, bind_ok, orThrow_ok, rejectIf_ok, ite_ok, pure_ok] at h
      obtain ⟨-, -, service, found, -, live, -, -, ⟨-, rfl⟩ | ⟨-, -, -, ⟨paused, rfl⟩ | ⟨-, h⟩⟩⟩ := h
      · exact .kept
      · exact .set found live (by simp [paused]) (by simp [paused])
      · split at h
        · rename_i active
          subst h
          exact .set found live (by simp) fun _ => active
        · subst h
          exact .counting found live (by simp)
  | toggleServiceAvailability i =>
      simp only [ListingSystem.read, bind_ok, orThrow_ok, ite_ok, pure_ok, Option.filter_eq_some_iff] at h
      obtain ⟨-, -, service, ⟨found, shown⟩, ⟨-, rfl⟩ | ⟨-, rfl⟩⟩ := h
      · refine .counting found (fun deleted => ?_) (by simp)
        simp [deleted] at shown
      · refine .set found (fun deleted => ?_) (by simp) (by simp)
        simp [deleted] at shown
  | removeListing i =>
      simp only [ListingSystem.read, bind_ok, orThrow_ok, rejectIf_ok, pure_ok] at h
      obtain ⟨content, found, -, shown, rfl⟩ := h
      refine .set found (fun deleted => ?_) (by simp) (by simp)
      simp [deleted] at shown
  | restoreListing i passes =>
      simp only [ListingSystem.read, bind_ok, orThrow_ok, rejectIf_ok, pure_ok] at h
      obtain ⟨content, found, -, removed, -, -, -, -, rfl⟩ := h
      refine .counting found (fun deleted => ?_) (by simp)
      simp [deleted] at removed
  | finalizeSubscription current paymentId =>
      simp only [ListingSystem.read, ite_ok, pure_ok] at h
      obtain ⟨-, rfl⟩ | ⟨-, rfl⟩ := h
      · exact .kept
      · cases plan : current.plan with
        | basic =>
            simp only [if_true]
            exact .basic (by simp [SubscriptionPayment.grant, plan, PaidProviderPlan.plan])
        | pro =>
            simp only [reduceCtorEq, if_false]
            exact .pro (by simp [SubscriptionPayment.grant, plan, PaidProviderPlan.plan])
  | finalizeSuccessfulPayment terms attemptId intentId paymentId position =>
      simp only [ListingSystem.read, bind_ok] at h
      obtain ⟨-, -, h⟩ := h
      split at h
      · simp only [bind_ok, orThrow_ok, rejectIf_ok, pure_ok] at h
        obtain ⟨service, found, _, open_, rfl⟩ := h
        refine .booking fun _ => ?_
        obtain ⟨i, listed, row⟩ := Option.bind_eq_some_iff.mp found
        exact ⟨i, service, listed, row, by tauto⟩
      · rename_i offered
        obtain rfl := pure_ok.mp h
        exact .booking fun direct => absurd direct offered
  | deleteService i => exact absurd rfl (locked i)

theorem countCapacity_ok {i : ServiceId} {row : Listing} {own restores : Bool} {call : ListingCall}
    (h : s.countCapacity i row own restores = .ok call) : ∃ user, call = .write user (.set i row)
      ∧ user.subscriptionPlan = s.provider.subscriptionPlan
      ∧ s.provider.subscriptionPlan.allows
        (activeCount (if own then s.listings.eraseIdx i else s.listings) + 1) := by
  simp only [ListingSystem.countCapacity, bind_ok, pure_ok] at h
  obtain ⟨user, business, _, room, rfl⟩ := h
  have plan : user.subscriptionPlan = s.provider.subscriptionPlan := by
    simp only [ite_ok, Except.ok.injEq] at business
    obtain ⟨-, rfl⟩ | ⟨-, business⟩ := business
    · rfl
    · exact assertNewProviderBusiness_plan business
  exact ⟨user, rfl, plan, plan ▸ assertListingCapacity_room room⟩

end Reads

inductive ListingEvent (s : ListingSystem) : ListingAction → ListingSystem → Prop where
  | called {request} : ListingEvent s (.call request) { s with calls := s.calls ++ [.lock request] }
  | stopped {a k} (ends : a = .resume k ∨ a = .crash k) :
      ListingEvent s a { s with calls := Threads.proceed s.calls k none }
  | deletionChecked {k i} (found : s.calls[k]? = some (.lock (.deleteService i))) :
      ListingEvent s (.resume k) { s with calls := Threads.proceed s.calls k (some (.deleteCommit i)) }
  | entered {k request call} (found : s.calls[k]? = some (.lock request)) (free : s.isLocked = false)
      (read : ListingRead s call) :
      ListingEvent s (.resume k) { s with calls := Threads.proceed s.calls k (some call) }
  | counted {k i row own restores user} (found : s.calls[k]? = some (.count i row own restores))
      (plan : user.subscriptionPlan = s.provider.subscriptionPlan)
      (room : s.provider.subscriptionPlan.allows
        (activeCount (if own then s.listings.eraseIdx i else s.listings) + 1)) :
      ListingEvent s (.resume k) { s with
        calls := Threads.proceed s.calls k (some (.write user (.set i row))) }
  | written {k user w} (found : s.calls[k]? = some (.write user w)) :
      ListingEvent s (.resume k) { s with
        provider := s.provider.writtenOver user
        listings := w.apply s.listings, calls := Threads.proceed s.calls k none }
  | booked {k f} (found : s.calls[k]? = some (.book f)) :
      ListingEvent s (.resume k) { s with
        bookings := s.bookings ++ [{ file := f }], calls := Threads.proceed s.calls k none }
  | deleted {k i} (found : s.calls[k]? = some (.deleteCommit i)) :
      ListingEvent s (.resume k) { s with
        listings := s.listings.modify i ({ · with status := .deleted, isAvailable := false })
        calls := Threads.proceed s.calls k none }
  | requested {terms : Terms} {user}
      (plan : user.subscriptionPlan = s.provider.subscriptionPlan)
      (listed : ∃ i row, terms.serviceId = some i ∧ s.listings[i]? = some row ∧ row.status = .active) :
      ListingEvent s (.createDirectRequest terms) { s with
        provider := user, bookings := s.bookings ++ [{ file := terms.cashRequest }] }
  | bookingStepped {b a x x'} (found : s.bookings[b]? = some x) (step : bookingMachine.next x a = some x') :
      ListingEvent s (.booking b a) { s with bookings := s.bookings.set b x' }
  | membership {a provider} (plan : provider.subscriptionPlan = s.provider.subscriptionPlan) :
      ListingEvent s a { s with provider }
  | waited {time} : ListingEvent s (.wait time) { s with now := s.now + time }

theorem ListingSystem.step_event {s s' : ListingSystem} {a : ListingAction} (h : s.step a = some s') :
    ListingEvent s a s' := by
  cases a with
  | call =>
      obtain rfl := Option.some.inj h
      exact .called
  | resume k =>
      simp only [ListingSystem.step, Option.bind_eq_some_iff, Option.map_eq_some_iff] at h
      obtain ⟨call, found, ⟨after, next⟩, run, rfl⟩ := h
      cases call with
      | lock request =>
          by_cases deletes : ∃ i, request = .deleteService i
          · obtain ⟨i, rfl⟩ := deletes
            simp only [ListingSystem.resume, Option.some.injEq, Prod.mk.injEq] at run
            obtain ⟨rfl, rfl⟩ := run
            cases checked : s.read (.deleteService i) with
            | error => exact .stopped (.inl rfl)
            | ok call =>
                simp only [ListingSystem.read, bind_ok, pure_ok] at checked
                obtain ⟨-, -, -, -, rfl⟩ := checked
                exact .deletionChecked found
          · have locked : ∀ i, request ≠ .deleteService i := fun i same => deletes ⟨i, same⟩
            have run : (if s.isLocked then none else some (s, (s.read request).toOption)) = some (after, next) := by
              cases request with
              | deleteService i => exact absurd rfl (locked i)
              | _ => exact run
            split at run
            · cases run
            · rename_i free
              obtain ⟨rfl, rfl⟩ := Prod.mk.inj (Option.some.inj run)
              cases reads : s.read request with
              | error => exact .stopped (.inl rfl)
              | ok call => exact .entered found (by simpa using free) (ListingSystem.read_kind reads locked)
      | count i row own restores =>
          simp only [ListingSystem.resume, Option.some.injEq, Prod.mk.injEq] at run
          obtain ⟨rfl, rfl⟩ := run
          cases counts : s.countCapacity i row own restores with
          | error => exact .stopped (.inl rfl)
          | ok call =>
              obtain ⟨user, rfl, plan, room⟩ := countCapacity_ok counts
              exact .counted found plan room
      | write provider w =>
          simp only [ListingSystem.resume, Option.some.injEq, Prod.mk.injEq] at run
          obtain ⟨rfl, rfl⟩ := run
          exact .written found
      | book f =>
          simp only [ListingSystem.resume, Option.some.injEq, Prod.mk.injEq] at run
          obtain ⟨rfl, rfl⟩ := run
          exact .booked found
      | deleteCommit i =>
          simp only [ListingSystem.resume, Option.some.injEq, Prod.mk.injEq] at run
          obtain ⟨rfl, rfl⟩ := run
          exact .deleted found
  | crash k =>
      simp only [ListingSystem.step] at h
      split at h
      · obtain rfl := Option.some.inj h
        exact .stopped (.inr rfl)
      · cases h
  | createDirectRequest terms =>
      simp only [ListingSystem.step] at h
      split at h
      · cases h
      · have run := toOption_some.mp h
        simp only [ListingSystem.createDirectRequest, bind_ok, orThrow_ok, rejectIf_ok, pure_ok] at run
        obtain ⟨user, business, -, -, service, found, -, open_, rfl⟩ := run
        obtain ⟨i, listed, row⟩ := Option.bind_eq_some_iff.mp found
        exact .requested (assertNewProviderBusiness_plan business)
          ⟨i, service, listed, row, by tauto⟩
  | booking b a =>
      simp only [ListingSystem.step, Option.bind_eq_some_iff, Option.map_eq_some_iff] at h
      obtain ⟨x, found, x', step, rfl⟩ := h
      exact .bookingStepped found step
  | enroll =>
      obtain ⟨p, run, rfl⟩ := updateProvider_ok h
      exact .membership (ensureProviderTrial_plan run)
  | cancelMembership =>
      obtain ⟨p, run, rfl⟩ := updateProvider_ok h
      exact .membership (cancelProviderSubscription_plan run)
  | maintain scannedAt plan expiresAt =>
      simp only [ListingSystem.step] at h
      split at h
      · obtain ⟨p, run, rfl⟩ := updateProvider_ok h
        obtain rfl := Except.ok.inj run
        exact .membership maintainMembership_plan
      · cases h
  | moderate =>
      obtain rfl := Option.some.inj h
      exact .membership rfl
  | wait =>
      obtain rfl := Option.some.inj h
      exact .waited

end ServiceHub
