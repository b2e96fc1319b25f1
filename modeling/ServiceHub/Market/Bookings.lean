import ServiceHub.Market.Events
import ServiceHub.Market.Renumbering

/-! # What a step of the marketplace does to the bookings

One booking takes a step of its own machine, one is created, or rows are renumbered; no
other step writes a booking.
-/

namespace ServiceHub

open Guard

variable {m t : Market} {b : BookingId} {s s' : BookingSystem}

/-- A step of one booking, with the rows it reads elsewhere, and its effects. -/
structure BookingStepped (m : Market) (b : BookingId) (s s' : BookingSystem) (t : Market) : Prop where
  found : m.bookings[b]? = some s
  run : ∃ updatedAt st effects, st.isRefund = false
    ∧ s.step (m.context b s updatedAt) st = some (s', effects)
    ∧ ({ m with bookings := m.bookings.set b s' }).applyEffects s.file.booking effects = .ok t
  free : m.queueRowFree b s' = true

/-- A transaction of a booking reads the other rows, writes its own and applies its effects. -/
theorem stepBooking_run {st : Step} {updatedAt : Millis} (h : m.stepBooking b st updatedAt = some t) :
    ∃ x x' effects, m.bookings[b]? = some x ∧ st.isRefund = false
      ∧ x.step (m.context b x updatedAt) st = some (x', effects)
      ∧ ({ m with bookings := m.bookings.set b x' }).applyEffects x.file.booking effects = .ok t
      ∧ m.queueRowFree b x' = true := by
  simp only [Market.stepBooking, Option.bind_eq_some_iff] at h
  obtain ⟨x, found, h⟩ := h
  split at h
  · cases h
  · rename_i own
    obtain ⟨⟨x', effects⟩, step, h⟩ := Option.bind_eq_some_iff.mp h
    split at h
    · rename_i free
      exact ⟨x, x', effects, found, by simpa using own, step, toOption_some.mp h, free⟩
    · cases h

theorem stepBooking_ok {st : Step} {updatedAt : Millis}
    (h : m.stepBooking b st updatedAt = some t) : ∃ s s', BookingStepped m b s s' t := by
  obtain ⟨x, x', effects, found, own, step, applied, free⟩ := stepBooking_run h
  exact ⟨x, x', found, ⟨updatedAt, st, effects, own, step, applied⟩, free⟩

theorem writeEffects_frame (booking : Booking) (effects : Effects) (m : Market) : ∃ requests user,
    m.writeEffects booking effects = { m with requests, user } := by
  simp only [Market.writeEffects]
  split <;> split
  all_goals exact ⟨_, _, rfl⟩

theorem applyEffects_renumbered {booking : Booking} {effects : Effects}
    (h : m.applyEffects booking effects = .ok t) :
    BookingsRenumbered (m.writeEffects booking effects) t := by
  simp only [Market.applyEffects, ite_ok, pure_ok] at h
  obtain ⟨-, h⟩ | ⟨-, rfl⟩ := h
  · exact recalculateQueue_renumbered h
  · exact .refl _

namespace BookingStepped

/-- The step is one of the booking's own machine. -/
theorem next (h : BookingStepped m b s s' t) : ∃ ctx st, Step.isRefund st = false
    ∧ bookingNext s (.step ctx st) = some s' := by
  obtain ⟨updatedAt, st, effects, own, step, -⟩ := h.run
  exact ⟨m.context b s updatedAt, st, own, by simp [bookingNext, step]⟩

theorem sameTerms (h : BookingStepped m b s s' t) : SameTerms s.file s'.file := by
  obtain ⟨ctx, st, -, step⟩ := h.next
  obtain ⟨next, event, -⟩ := BookingSystem.next_event step
  exact event.sameTerms

/-- Only the request of the booking and accounts are written besides the bookings. -/
theorem renumbered (h : BookingStepped m b s s' t) : ∃ requests user,
    BookingsRenumbered { m with requests, user, bookings := m.bookings.set b s' } t := by
  obtain ⟨updatedAt, st, effects, -, -, run⟩ := h.run
  obtain ⟨requests, user, frame⟩ := writeEffects_frame s.file.booking effects
    { m with bookings := m.bookings.set b s' }
  have renumbered := applyEffects_renumbered run
  rw [frame] at renumbered
  exact ⟨requests, user, renumbered⟩

theorem tables (h : BookingStepped m b s s' t) : ∃ requests user bookings,
    t = { m with requests, user, bookings } := by
  obtain ⟨requests, user, renumbered⟩ := h.renumbered
  exact ⟨requests, user, t.bookings, renumbered.tables⟩

theorem length (h : BookingStepped m b s s' t) : t.bookings.length = m.bookings.length := by
  obtain ⟨requests, user, renumbered⟩ := h.renumbered
  simpa using renumbered.length

theorem row (h : BookingStepped m b s s' t) {i : BookingId} {x' : BookingSystem}
    (found : t.bookings[i]? = some x') :
    (i = b ∧ Renumbered s' x') ∨ ∃ x, m.bookings[i]? = some x ∧ Renumbered x x' := by
  obtain ⟨requests, user, renumbered⟩ := h.renumbered
  obtain ⟨x, before, run⟩ := renumbered.row found
  simp only [List.getElem?_set] at before
  split at before
  · rename_i stepped
    subst stepped
    split at before
    · obtain rfl := Option.some.inj before
      exact .inl ⟨rfl, run⟩
    · cases before
  · exact .inr ⟨x, before, run⟩

end BookingStepped

/-- What a step outside the payment calls does to the bookings. -/
inductive BookingsWrite (m : Market) (t : Market) : Prop where
  | same (bookings : t.bookings = m.bookings)
  | stepped {b : BookingId} {s s' : BookingSystem} (h : BookingStepped m b s s' t)
  | cash {terms : Terms} {f : BookingFile} {u : Market} (cash : f = terms.cashRequest ∨ f = terms.cashOffer)
      (before : u.bookings = m.bookings) (create : u.createBooking f = .ok t)
  | resized {p : UserId} {user : UserId → Option User}
      (renumber : ({ m with user } : Market).recalculateQueue p = .ok t)

theorem createDirectRequest_ok {seekerId providerId : UserId} {serviceId : ServiceId} {quantity : Nat}
    (h : createDirectRequest seekerId providerId serviceId quantity m = .ok t) :
    ∃ terms : Terms, terms.offerId = none ∧ m.createBooking terms.cashRequest = .ok t := by
  simp only [createDirectRequest] at h
  split at h
  · simp at h
  · simp only [orThrow_bind_ok, check_bind_ok] at h
    obtain ⟨service, -, -, h⟩ := h
    obtain ⟨terms, -, h⟩ := bind_ok.mp h
    simp only [check_bind_ok] at h
    exact ⟨_, rfl, h.2.2.2.2.2⟩

/-- A cash booking of an offer: the offer was pending on an open request and is selected. -/
theorem createDirectFromOfferService_ok {o : OfferId} {seekerId : UserId}
    (h : createDirectFromOfferService o seekerId m = .ok t) :
    ∃ (offer : Offer) (request : ServiceRequest) (terms : Terms), m.offers[o]? = some offer
      ∧ m.requests[offer.requestId]? = some request ∧ offer.status = .pending ∧ request.status = .open
      ∧ m.selectedElsewhere offer.requestId o = false ∧ terms.offerId = some o
      ∧ (selectOffer o m).createBooking terms.cashOffer = .ok t := by
  simp only [createDirectFromOfferService, orThrow_bind_ok, check_bind_ok] at h
  obtain ⟨offer, found, request, requested, -, h⟩ := h
  split at h
  · simp at h
  · simp only [check_bind_ok, rejectIf_ok, not_or, not_not, Bool.not_eq_true] at h
    obtain ⟨⟨pending, opened⟩, -, -, -, -, -, -, -, alone, create⟩ := h
    exact ⟨offer, request, _, found, requested, pending, opened, alone, rfl, create⟩

/-- What an action outside the payment calls does to the bookings. -/
inductive ActWrite (m : Market) (t : Market) : MarketAction → Prop where
  | same {a} (bookings : t.bookings = m.bookings) : ActWrite m t a
  | stepped {b st updatedAt x x' effects} (found : m.bookings[b]? = some x) (own : Step.isRefund st = false)
      (step : x.step (m.context b x updatedAt) st = some (x', effects))
      (applied : ({ m with bookings := m.bookings.set b x' }).applyEffects x.file.booking effects = .ok t)
      (free : m.queueRowFree b x' = true) : ActWrite m t (.booking b st updatedAt)
  | cash {a} {terms : Terms} {f : BookingFile} {u : Market} (cash : f = terms.cashRequest ∨ f = terms.cashOffer)
      (before : u.bookings = m.bookings) (create : u.createBooking f = .ok t) : ActWrite m t a
  | resized {p limit} {row : User} (account : m.user p = some row)
      (renumber : ({ m with
        user := Function.update m.user p (some { row with onlineQueueLimit := limit }) } : Market).recalculateQueue p
          = .ok t) : ActWrite m t (.setCapacity p limit)

theorem act_write {a : MarketAction} (h : m.act a = some t) : ActWrite m t a := by
  cases a with
  | pay | resume | crash => simp [Market.act] at h
  | booking b st updatedAt =>
      obtain ⟨x, x', effects, found, own, step, applied, free⟩ := stepBooking_run h
      exact .stepped found own step applied free
  | setCapacity p limit =>
      have run := toOption_some.mp h
      simp only [Market.setProviderWorkloadCapacity, check_bind_ok, orThrow_bind_ok] at run
      obtain ⟨-, user, account, renumber⟩ := run
      exact .resized account renumber
  | createDirectRequest =>
      obtain ⟨terms, -, create⟩ := createDirectRequest_ok (toOption_some.mp h)
      exact .cash (.inl rfl) rfl create
  | createDirectFromOffer =>
      obtain ⟨offer, request, terms, -, -, -, -, -, -, create⟩ :=
        createDirectFromOfferService_ok (toOption_some.mp h)
      exact .cash (.inr rfl) selectOffer_bookings create
  | submitOffer =>
      have run := toOption_some.mp h
      simp only [submitOffer, orThrow_bind_ok, check_bind_ok, pure_ok] at run
      obtain ⟨request, -, -, -, -, -, -, -, rfl⟩ := run
      exact .same rfl
  | rejectOffer =>
      have run := toOption_some.mp h
      simp only [rejectOffer, orThrow_bind_ok, check_bind_ok, pure_ok] at run
      obtain ⟨offer, -, request, -, -, -, rfl⟩ := run
      refine .same ?_
      split <;> rfl
  | updateRequest =>
      have run := toOption_some.mp h
      simp only [updateServiceRequest, orThrow_bind_ok, check_bind_ok, pure_ok] at run
      obtain ⟨request, -, -, -, -, -, -, rfl⟩ := run
      exact .same rfl
  | cancelRequest =>
      have run := toOption_some.mp h
      simp only [cancelRequest, orThrow_bind_ok, check_bind_ok, pure_ok] at run
      obtain ⟨request, -, -, rfl⟩ := run
      exact .same rfl
  | publicContentAction =>
      have run := toOption_some.mp h
      simp only [applyPublicContentAction, orThrow_bind_ok, check_bind_ok, ite_ok, pure_ok] at run
      obtain ⟨request, -, -, -, ⟨-, -, rfl⟩ | ⟨-, -, rfl⟩⟩ := run <;> exact .same rfl
  | updateService =>
      simp only [Market.act] at h
      split at h
      · obtain rfl := Option.some.inj h
        exact .same rfl
      · cases h
  | _ =>
      obtain rfl := Option.some.inj h
      exact .same rfl

theorem act_bookings {a : MarketAction} (h : m.act a = some t) : BookingsWrite m t := by
  cases act_write h with
  | same bookings => exact .same bookings
  | stepped found own step applied free => exact .stepped ⟨found, ⟨_, _, _, own, step, applied⟩, free⟩
  | cash cash before create => exact .cash cash before create
  | resized _ renumber => exact .resized renumber

theorem createBooking_row {f : BookingFile} (h : m.createBooking f = .ok t) {i : Nat}
    {x' : BookingSystem} (found : t.bookings[i]? = some x') :
    m.bookings[i]? = some x' ∨ (i = m.bookings.length ∧ x' = { file := f }) := by
  obtain ⟨-, -, -, rfl⟩ := createBooking_ok h
  simp only [List.getElem?_append] at found
  split at found
  · exact .inl found
  · rename_i beyond
    obtain ⟨last, rfl⟩ := List.getElem?_eq_some_iff.mp found
    simp only [List.length_singleton] at last
    exact .inr ⟨by omega, by simp⟩

theorem PaidBooking.bookings {a : AttemptId} {payment : CapturedPayment} {fresh : PaymentAttempt}
    {booked numbered : Market} (h : PaidBooking a payment fresh m t booked numbered) :
    t.bookings = numbered.bookings := by
  rw [h.settled]
  cases fresh.offerId <;> simp

/-- The bookings that a created booking joins, after a renumbering. -/
theorem PaidBooking.booking_row {a : AttemptId} {payment : CapturedPayment} {fresh : PaymentAttempt}
    {booked numbered : Market} (h : PaidBooking a payment fresh m t booked numbered) {x' : BookingSystem}
    (found : t.bookings[b]? = some x') :
    (∃ x, m.bookings[b]? = some x ∧ Renumbered x x')
      ∨ (b = m.bookings.length ∧ ∃ position, Renumbered
        { file := fresh.paidBooking a (m.estimatedDuration fresh) payment position } x') := by
  rw [h.bookings] at found
  obtain ⟨x, found, run⟩ := (recalculateQueue_renumbered h.renumber).row found
  obtain old | ⟨last, rfl⟩ := createBooking_row h.create found
  · exact .inl ⟨x, old, run⟩
  · exact .inr ⟨last, _, run⟩

/-- Where a booking comes from in the step that led to it. -/
inductive BookingRow (s : MarketSystem) (t : Market) (b : BookingId) (x' : BookingSystem) : Prop where
  | kept {x} (found : s.market.bookings[b]? = some x) (run : Renumbered x x')
  | stepped {x u} (step : BookingStepped s.market b x u t) (run : Renumbered u x')
  | cash {terms : Terms} {f : BookingFile} (last : b = s.market.bookings.length)
      (cash : f = terms.cashRequest ∨ f = terms.cashOffer) (run : Renumbered { file := f } x')
  | paid {origin payment a fresh duration position} (last : b = s.market.bookings.length)
      (call : .finalize origin payment ∈ s.calls)
      (registered : s.market.findIntent payment.paymentIntentId = some a)
      (open_ : Unsettled a payment s.market fresh) (bookable : Bookable fresh (markPaid a s.market))
      (run : Renumbered { file := fresh.paidBooking a duration payment position } x')

theorem BookingRow.of_eq {s : MarketSystem} {x' : BookingSystem} (same : t.bookings = s.market.bookings)
    (found : t.bookings[b]? = some x') : BookingRow s t b x' :=
  .kept (same ▸ found) .refl

theorem BookingsWrite.row {s : MarketSystem} (h : BookingsWrite s.market t) {x' : BookingSystem}
    (found : t.bookings[b]? = some x') : BookingRow s t b x' := by
  cases h with
  | same bookings => exact .of_eq bookings found
  | stepped step =>
      obtain ⟨rfl, run⟩ | ⟨x, old, run⟩ := step.row found
      · exact .stepped step run
      · exact .kept old run
  | cash cash before create =>
      obtain old | ⟨last, rfl⟩ := createBooking_row create found
      · exact .kept (before ▸ old) .refl
      · exact .cash (before ▸ last) cash .refl
  | resized renumber =>
      obtain ⟨x, old, run⟩ := (recalculateQueue_renumbered renumber).row found
      exact .kept old run

theorem RefundBranch.bookings {a : AttemptId} {fresh : PaymentAttempt} {after : Market → Market} {n u : Market}
    (h : RefundBranch a fresh n after) : (after u).bookings = u.bookings := by
  cases h with
  | released => exact releaseOfferHold_bookings
  | invalid => rfl
  | sibling => rfl

theorem PreparedOn.bookings {params : PaymentParams} {target : PaymentTarget} {a : AttemptId}
    (h : PreparedOn params target m t a) : t.bookings = m.bookings := by
  cases h with
  | reused => rfl
  | created _ _ _ _ _ _ _ on =>
      cases on with
      | listing => rfl
      | offer _ _ _ _ _ _ _ _ held =>
          obtain ⟨_, _, _, rfl⟩ := holdOffer_ok held
          rfl

theorem expireStale_bookings {params : PaymentParams} {target : PaymentTarget} :
    (expireStale params target m).bookings = m.bookings := by
  obtain ⟨_, _, _, h⟩ := expireStale_frame params target m
  rw [h]

theorem markAttemptFailed_bookings {a : AttemptId} {reason : String} :
    (markAttemptFailed a reason m).bookings = m.bookings := by
  simp only [markAttemptFailed]
  split
  · rfl
  · split <;> simp

theorem expireCandidate_bookings {a : AttemptId} : (expireCandidate a m).bookings = m.bookings := by
  simp only [expireCandidate, expireAttempt]
  split
  · rfl
  · split <;> simp

theorem MarketEvent.booking_row {s : MarketSystem} {a : MarketAction} {next : Option PaymentCall}
    (h : MarketEvent s a t next) {x' : BookingSystem} (found : t.bookings[b]? = some x') :
    BookingRow s t b x' := by
  cases h with
  | called | stopped | passed | intentStored | intentSaved => exact .of_eq rfl found
  | prepared _ run => exact .of_eq (run.bookings.trans expireStale_bookings) found
  | initiationFailed => exact .of_eq (by simp [recordInitiationFailure]) found
  | refunded => exact .of_eq rfl found
  | markedFailed => exact .of_eq markAttemptFailed_bookings found
  | expired => exact .of_eq expireCandidate_bookings found
  | acted run => exact (act_bookings run).row found
  | finalized call registered run =>
      cases run with
      | settled => exact .of_eq rfl found
      | refunded _ branch => exact .of_eq (branch.bookings.trans rfl) found
      | created open_ bookable paid =>
          obtain ⟨x, old, run⟩ | ⟨last, position, run⟩ := paid.booking_row found
          · exact .kept old run
          · exact .paid last (List.mem_of_getElem? call) registered open_ bookable run

theorem BookingsWrite.length_le (h : BookingsWrite m t) : m.bookings.length ≤ t.bookings.length := by
  cases h with
  | same bookings => rw [bookings]
  | stepped step => rw [step.length]
  | cash _ before create =>
      obtain ⟨-, -, -, rfl⟩ := createBooking_ok create
      simp [before]
  | resized renumber => rw [(recalculateQueue_renumbered renumber).length]

/-- A booking is never deleted. -/
theorem MarketEvent.bookings_le {s : MarketSystem} {a : MarketAction} {next : Option PaymentCall}
    (h : MarketEvent s a t next) : s.market.bookings.length ≤ t.bookings.length := by
  cases h with
  | called | stopped | passed | intentStored | intentSaved | refunded => exact Nat.le_refl _
  | prepared _ run => rw [run.bookings, expireStale_bookings]
  | initiationFailed => simp [recordInitiationFailure]
  | markedFailed => rw [markAttemptFailed_bookings]
  | expired => rw [expireCandidate_bookings]
  | acted run => exact (act_bookings run).length_le
  | finalized _ _ run =>
      cases run with
      | settled => exact Nat.le_refl _
      | refunded _ branch =>
          rw [branch.bookings]
          exact Nat.le_refl _
      | created open_ bookable paid =>
          rw [paid.bookings, (recalculateQueue_renumbered paid.renumber).length]
          obtain ⟨-, -, -, created⟩ := createBooking_ok paid.create
          rw [created]
          simp [markPaid]

theorem Bookable.distinct {fresh : PaymentAttempt} {m : Market} (h : Bookable fresh m) :
    fresh.seekerId ≠ fresh.providerId := by
  have eligible := h.available
  simp only [Market.unavailable, Bool.or_eq_false_iff, Bool.not_eq_false', marketplaceParticipantsEligible,
    Bool.and_eq_true, bne_iff_ne] at eligible
  tauto

theorem Renumbered.reachable {x y : BookingSystem} (h : Renumbered x y) (reached : bookingMachine.Reachable x) :
    bookingMachine.Reachable y := by
  obtain ⟨x₀, start, run⟩ := reached
  exact ⟨x₀, start, run.trans (h.weaken fun _ _ _ => trivial)⟩

theorem BookingRow.reachable {s : MarketSystem} {t : Market} {b : BookingId} {x' : BookingSystem}
    (known : ∀ (i : Nat) (x : BookingSystem), s.market.bookings[i]? = some x → bookingMachine.Reachable x)
    (h : BookingRow s t b x') : bookingMachine.Reachable x' := by
  cases h with
  | kept found run => exact run.reachable (known _ _ found)
  | @stepped x u step run =>
      obtain ⟨ctx, st, own, next⟩ := step.next
      have moved : bookingMachine.next x (.step ctx st) = some u := by
        cases st with
        | refund => cases own
        | _ => exact next
      exact run.reachable ((known _ _ step.found).next trivial moved)
  | cash _ cash run =>
      refine run.reachable (.start ⟨?_, rfl, rfl⟩)
      rcases cash with rfl | rfl
      · exact .cashRequest _
      · exact .cashOffer _
  | @paid _ payment a fresh duration position _ _ _ _ bookable run =>
      refine run.reachable (.start ⟨?_, rfl, rfl⟩)
      let terms : Terms := {
        seekerId := fresh.seekerId, providerId := fresh.providerId, distinct := bookable.distinct
        serviceId := fresh.serviceId, offerId := fresh.offerId, amount := fresh.amount
        estimatedDurationMins := some duration }
      exact .paidCapture terms a payment.paymentIntentId payment.paymentId position

/-- Every booking of the marketplace is a reachable state of its own machine. -/
theorem booking_reachable {C : MarketSystem → MarketAction → Prop} {s : MarketSystem}
    (h : marketMachine.ReachableUnder C s) {b : Nat} {x : BookingSystem}
    (found : s.market.bookings[b]? = some x) : bookingMachine.Reachable x := by
  suffices all : ∀ (b : Nat) (x : BookingSystem), s.market.bookings[b]? = some x → bookingMachine.Reachable x from
    all b x found
  refine h.invariant (I := fun s : MarketSystem => ∀ (b : Nat) (x : BookingSystem),
    s.market.bookings[b]? = some x → bookingMachine.Reachable x) ?_ ?_
  · rintro s ⟨-, -, -, empty, -⟩ b x found
    simp [empty] at found
  · intro s a s' known _ stepped b x found
    obtain ⟨next, event, -⟩ := MarketSystem.step_event stepped
    exact (event.booking_row found).reachable known

end ServiceHub
