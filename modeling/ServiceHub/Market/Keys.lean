import ServiceHub.Market.Attempts

/-! # The columns that name other rows

No transaction rewrites the request, the provider or the listing of an offer, or the seeker of a request, and
no row of these tables is deleted while the marketplace runs.
-/

namespace ServiceHub

open Guard

variable {s : MarketSystem} {m t u : Market} {act : MarketAction} {next : Option PaymentCall} {o : OfferId} {r : RequestId}

def Offer.keys (x : Offer) : RequestId × UserId × Option ServiceId := (x.requestId, x.providerId, x.serviceId)

def Market.offerKeys (m : Market) : List (RequestId × UserId × Option ServiceId) := m.offers.map Offer.keys

def Market.seekers (m : Market) : List UserId := m.requests.map (·.seekerId)

/-- Listings, offers and requests name the same rows. -/
structure Market.SameKeys (m t : Market) : Prop where
  service : t.service = m.service
  offers : t.offerKeys = m.offerKeys
  seekers : t.seekers = m.seekers

/-- The listings stay, and a new offer is made on a request and for a listing that exist. -/
structure Market.Lists (m t : Market) : Prop where
  services : ∀ l, (m.service l).isSome = true → (t.service l).isSome = true
  offers : ∃ new, t.offerKeys = m.offerKeys ++ new
    ∧ ∀ key ∈ new, ∀ l, key.2.2 = some l → (m.service l).isSome = true
  seekers : ∃ new, t.seekers = m.seekers ++ new

section Same

theorem Market.SameKeys.refl (m : Market) : m.SameKeys m := ⟨rfl, rfl, rfl⟩

theorem Market.SameKeys.trans (h : m.SameKeys t) (h' : t.SameKeys u) : m.SameKeys u :=
  ⟨h'.service.trans h.service, h'.offers.trans h.offers, h'.seekers.trans h.seekers⟩

theorem Market.SameKeys.lists (h : m.SameKeys t) : m.Lists t :=
  ⟨fun l => by rw [h.service]; exact id, ⟨[], by simp [h.offers]⟩, ⟨[], by simp [h.seekers]⟩⟩

/-- A write to other tables. -/
theorem Market.SameKeys.of_tables (service : t.service = m.service) (offers : t.offers = m.offers)
    (requests : t.requests = m.requests) : m.SameKeys t :=
  ⟨service, by simp only [Market.offerKeys, offers], by simp only [Market.seekers, requests]⟩

theorem updateAttempt_keys (a : AttemptId) (g : PaymentAttempt → PaymentAttempt) : m.SameKeys (m.updateAttempt a g) :=
  .of_tables rfl rfl rfl

theorem updateOffer_keys {g : Offer → Offer} (own : ∀ offer, (g offer).keys = offer.keys) :
    m.SameKeys (m.updateOffer o g) := by
  refine ⟨rfl, List.ext_getElem? fun i => ?_, rfl⟩
  simp only [Market.offerKeys, Market.updateOffer, List.getElem?_map, List.getElem?_modify]
  cases m.offers[i]? with
  | none => rfl
  | some offer =>
      by_cases here : o = i <;> simp [here, own]

theorem updateRequest_keys {g : ServiceRequest → ServiceRequest} (own : ∀ x, (g x).seekerId = x.seekerId) :
    m.SameKeys (m.updateRequest r g) := by
  refine ⟨rfl, rfl, List.ext_getElem? fun i => ?_⟩
  simp only [Market.seekers, Market.updateRequest, List.getElem?_map, List.getElem?_modify]
  cases m.requests[i]? with
  | none => rfl
  | some request =>
      by_cases here : r = i <;> simp [here, own]

theorem rejectSiblingOffers_keys : m.SameKeys (rejectSiblingOffers r o m) := by
  refine ⟨rfl, List.ext_getElem? fun i => ?_, rfl⟩
  simp only [Market.offerKeys, rejectSiblingOffers, List.getElem?_map, List.getElem?_mapIdx]
  cases m.offers[i]? with
  | none => rfl
  | some offer =>
      simp only [Option.map_some]
      split <;> rfl

theorem rejectPendingOffers_keys : m.SameKeys (rejectPendingOffers r m) := by
  refine ⟨rfl, List.ext_getElem? fun i => ?_, rfl⟩
  simp only [Market.offerKeys, rejectPendingOffers, Rows.updateWhere, List.getElem?_map]
  cases m.offers[i]? with
  | none => rfl
  | some offer =>
      simp only [Option.map_some]
      split <;> rfl

theorem releaseOfferHold_keys {offerId : Option OfferId} : m.SameKeys (releaseOfferHold offerId m) := by
  simp only [releaseOfferHold]
  split
  · exact .refl m
  split
  · exact .refl m
  split
  · exact .refl m
  · refine (updateOffer_keys ?_).trans (updateRequest_keys fun x => ?_)
    · exact fun _ => rfl
    · split <;> rfl

theorem selectOffer_keys : m.SameKeys (selectOffer o m) := by
  simp only [selectOffer]
  split
  · exact .refl m
  · refine ((updateOffer_keys ?_).trans rejectSiblingOffers_keys).trans (updateRequest_keys ?_)
    · exact fun _ => rfl
    · exact fun _ => rfl

theorem writeEffects_seekers {booking : Booking} {effects : Effects} :
    (m.writeEffects booking effects).seekers = m.seekers := by
  have requested : ∀ status offerRequest, (m.updateRequest offerRequest fun x => { x with status }).seekers = m.seekers :=
    fun status offerRequest => (updateRequest_keys (m := m) (r := offerRequest) (g := fun x => { x with status })
      fun _ => rfl).seekers
  simp only [Market.writeEffects]
  split <;> split
  · exact requested _ _
  · rfl
  · exact requested _ _
  · rfl

theorem applyEffects_keys {booking : Booking} {effects : Effects} (h : m.applyEffects booking effects = .ok t) :
    m.SameKeys t := by
  have written : m.SameKeys (m.writeEffects booking effects) := by
    obtain ⟨requests, user, frame⟩ := writeEffects_frame booking effects m
    have seekers : requests.map (·.seekerId) = m.seekers := by
      have rows : (m.writeEffects booking effects).requests = requests := by rw [frame]
      rw [← rows]
      exact writeEffects_seekers
    rw [frame]
    exact ⟨rfl, rfl, seekers⟩
  refine written.trans ?_
  rw [(applyEffects_renumbered h).tables]
  exact .of_tables rfl rfl rfl

theorem createBooking_keys {f : BookingFile} (h : m.createBooking f = .ok t) : m.SameKeys t := by
  obtain ⟨-, -, -, rfl⟩ := createBooking_ok h
  exact .of_tables rfl rfl rfl

theorem expireStale_keys {params : PaymentParams} {target : PaymentTarget} :
    m.SameKeys (expireStale params target m) := by
  obtain ⟨attempts, swept⟩ := expireStale_eq params target m
  rw [swept]
  split
  · exact .of_tables rfl rfl rfl
  · exact releaseOfferHold_keys.trans (.of_tables rfl rfl rfl)

theorem holdOffer_keys {expiresAt : Millis} (h : holdOffer o expiresAt m = .ok t) : m.SameKeys t := by
  obtain ⟨offer, -, -, rfl⟩ := holdOffer_ok h
  refine (updateOffer_keys ?_).trans (updateRequest_keys ?_)
  · exact fun _ => rfl
  · exact fun _ => rfl

theorem PreparedOn.keys {params : PaymentParams} {target : PaymentTarget} {a : AttemptId}
    (h : PreparedOn params target m t a) : m.SameKeys t := by
  cases h with
  | reused => exact .refl m
  | created _ _ _ _ _ _ _ on =>
      cases on with
      | listing => exact .of_tables rfl rfl rfl
      | offer _ _ _ _ _ _ _ _ held =>
          exact (holdOffer_keys held).trans (.of_tables rfl rfl rfl)

theorem FinalizedOn.keys {a : AttemptId} {payment : CapturedPayment} {result : Finalized}
    (h : FinalizedOn a payment m t result) : m.SameKeys t := by
  have required : ∀ reason, m.SameKeys (requireRefund a payment reason (markPaid a m)) :=
    fun reason => .of_tables rfl rfl rfl
  cases h with
  | settled => exact .refl m
  | refunded _ branch =>
      cases branch with
      | released => exact (required _).trans releaseOfferHold_keys
      | invalid => exact required _
      | sibling =>
          refine (required _).trans (updateOffer_keys fun offer => ?_)
          split <;> rfl
  | @created fresh _ booked numbered _ _ paid =>
      have marked : m.SameKeys (markPaid a m) := .of_tables rfl rfl rfl
      have joined : m.SameKeys booked := marked.trans (createBooking_keys paid.create)
      have queued : m.SameKeys numbered := by
        rw [(recalculateQueue_renumbered paid.renumber).tables]
        exact joined.trans (.of_tables rfl rfl rfl)
      have succeeded := queued.trans (u := numbered.updateAttempt a ({ · with
        status := .succeeded, providerPaymentId := payment.paymentId })) (.of_tables rfl rfl rfl)
      rw [paid.settled]
      cases fresh.offerId with
      | none => exact succeeded
      | some o => exact succeeded.trans selectOffer_keys

theorem markAttemptFailed_keys {a : AttemptId} {reason : String} : m.SameKeys (markAttemptFailed a reason m) := by
  simp only [markAttemptFailed]
  split
  · exact .refl m
  · split
    · exact .refl m
    · exact (updateAttempt_keys _ _).trans releaseOfferHold_keys

theorem expireCandidate_keys {a : AttemptId} : m.SameKeys (expireCandidate a m) := by
  simp only [expireCandidate, expireAttempt]
  split
  · exact .refl m
  · split
    · exact .refl m
    · exact (updateAttempt_keys _ _).trans releaseOfferHold_keys

end Same

section Steps

theorem submitOffer_lists {providerId : UserId} {serviceId : Option ServiceId} {offeredPrice : Centavos}
    {estimatedDuration : Nat} (h : submitOffer providerId r serviceId offeredPrice estimatedDuration m = .ok t) :
    m.Lists t := by
  simp only [submitOffer, orThrow_bind_ok, check_bind_ok, rejectIf_ok, pure_ok] at h
  obtain ⟨request, -, -, -, -, -, listed, -, rfl⟩ := h
  refine ⟨fun _ => id, ⟨[(r, providerId, serviceId)], by simp [Market.offerKeys, Offer.keys], ?_⟩,
    ⟨[], by simp [Market.seekers]⟩⟩
  intro key new l named
  obtain rfl := List.mem_singleton.mp new
  have present : serviceId = some l := named
  rw [present] at listed
  cases found : m.service l with
  | none => simp [found] at listed
  | some service => rfl

theorem act_lists (h : m.act act = some t) : m.Lists t := by
  cases act with
  | pay | resume | crash => simp [Market.act] at h
  | booking b st updatedAt =>
      obtain ⟨x, x', effects, -, -, -, applied, -⟩ := stepBooking_run h
      have set : m.SameKeys { m with bookings := m.bookings.set b x' } := .of_tables rfl rfl rfl
      exact (set.trans (applyEffects_keys applied)).lists
  | setCapacity p limit =>
      have run := toOption_some.mp h
      simp only [Market.setProviderWorkloadCapacity, check_bind_ok, orThrow_bind_ok] at run
      obtain ⟨-, user, -, renumber⟩ := run
      rw [(recalculateQueue_renumbered renumber).tables]
      exact Market.SameKeys.lists (.of_tables rfl rfl rfl)
  | createDirectRequest =>
      obtain ⟨terms, -, create⟩ := createDirectRequest_ok (toOption_some.mp h)
      exact (createBooking_keys create).lists
  | createDirectFromOffer =>
      obtain ⟨offer, request, terms, -, -, -, -, -, -, create⟩ := createDirectFromOfferService_ok (toOption_some.mp h)
      exact (selectOffer_keys.trans (createBooking_keys create)).lists
  | createRequest =>
      obtain rfl := Option.some.inj h
      exact ⟨fun _ => id, ⟨[], by simp [createRequest, Market.offerKeys]⟩, ⟨_, by simp [createRequest, Market.seekers]; rfl⟩⟩
  | submitOffer => exact submitOffer_lists (toOption_some.mp h)
  | rejectOffer o userId =>
      have run := toOption_some.mp h
      simp only [rejectOffer, orThrow_bind_ok, check_bind_ok, pure_ok] at run
      obtain ⟨offer, -, request, -, -, -, rfl⟩ := run
      split
      · refine ((updateOffer_keys ?_).trans (updateRequest_keys ?_)).lists <;> exact fun _ => rfl
      · exact Market.SameKeys.lists (updateOffer_keys fun _ => rfl)
  | updateRequest =>
      have run := toOption_some.mp h
      simp only [updateServiceRequest, orThrow_bind_ok, check_bind_ok, pure_ok] at run
      obtain ⟨request, -, -, -, -, -, -, rfl⟩ := run
      exact Market.SameKeys.lists (updateRequest_keys fun _ => rfl)
  | cancelRequest =>
      have run := toOption_some.mp h
      simp only [cancelRequest, orThrow_bind_ok, check_bind_ok, pure_ok] at run
      obtain ⟨request, -, -, rfl⟩ := run
      refine ((updateRequest_keys ?_).trans rejectPendingOffers_keys).lists
      exact fun _ => rfl
  | publicContentAction =>
      have run := toOption_some.mp h
      simp only [applyPublicContentAction, orThrow_bind_ok, check_bind_ok, ite_ok, pure_ok] at run
      obtain ⟨request, -, -, -, ⟨-, -, rfl⟩ | ⟨-, -, rfl⟩⟩ := run
      · exact Market.SameKeys.lists (updateRequest_keys fun _ => rfl)
      · refine ((updateRequest_keys ?_).trans rejectPendingOffers_keys).lists
        exact fun _ => rfl
  | updateService listed service =>
      simp only [Market.act] at h
      split at h
      · obtain rfl := Option.some.inj h
        refine ⟨fun l found => ?_, ⟨[], by simp [Market.offerKeys]⟩, ⟨[], by simp [Market.seekers]⟩⟩
        by_cases here : l = listed
        · subst here
          simp
        · simpa [Function.update_of_ne here] using found
      · cases h
  | _ =>
      obtain rfl := Option.some.inj h
      exact Market.SameKeys.lists (.of_tables rfl rfl rfl)

theorem MarketEvent.lists (h : MarketEvent s act t next) : s.market.Lists t := by
  cases h with
  | called | stopped | passed | intentStored | intentSaved | refunded =>
      exact Market.SameKeys.lists (.of_tables rfl rfl rfl)
  | prepared _ run => exact (expireStale_keys.trans run.keys).lists
  | initiationFailed => exact ((updateAttempt_keys _ _).trans releaseOfferHold_keys).lists
  | finalized _ _ run => exact run.keys.lists
  | markedFailed => exact markAttemptFailed_keys.lists
  | expired => exact expireCandidate_keys.lists
  | acted run => exact act_lists run

/-- Attempts are created by `initiateOnlinePayment` alone. -/
theorem MarketEvent.prepares_or_length (h : MarketEvent s act t next) :
    (∃ params target a, PreparedOn params target (expireStale params target s.market) t a)
      ∨ t.attempts.length = s.market.attempts.length := by
  cases h with
  | prepared _ run => exact .inl ⟨_, _, _, run⟩
  | called | stopped | passed => exact .inr rfl
  | intentStored | intentSaved | refunded => exact .inr (by simp [Market.storeIntent])
  | initiationFailed => exact .inr (by simp [recordInitiationFailure])
  | finalized _ _ run =>
      refine .inr ?_
      cases run with
      | settled => rfl
      | refunded _ branch => simp [branch.attempts, requireRefund, markPaid]
      | created _ _ paid => simp [paid.attempts, markPaid]
  | markedFailed =>
      refine .inr ?_
      unfold markAttemptFailed
      split
      · rfl
      · split <;> simp
  | expired =>
      refine .inr ?_
      unfold expireCandidate
      split
      · rfl
      · split <;> simp [expireAttempt]
  | acted run =>
      obtain same | ⟨b, status, -, written⟩ := act_attempts run
      · exact .inr (by rw [same])
      · exact .inr (by simp [written])

end Steps

end ServiceHub
