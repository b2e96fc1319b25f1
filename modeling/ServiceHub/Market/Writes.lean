import ServiceHub.Booking.Frame
import ServiceHub.Market.System

/-! # What the transactions of the marketplace write

For every table the transactions that leave it alone, and for every payment
transaction the rows it wrote.
-/

namespace ServiceHub

open Guard

namespace Market

variable {m t : Market}

section Tables

variable {a : AttemptId} {o : OfferId} {r : RequestId} {b : BookingId}
  {g : PaymentAttempt → PaymentAttempt} {go : Offer → Offer} {gr : ServiceRequest → ServiceRequest}

@[simp] theorem updateAttempt_offers : (m.updateAttempt a g).offers = m.offers := rfl
@[simp] theorem updateAttempt_requests : (m.updateAttempt a g).requests = m.requests := rfl
@[simp] theorem updateAttempt_bookings : (m.updateAttempt a g).bookings = m.bookings := rfl
@[simp] theorem updateAttempt_now : (m.updateAttempt a g).now = m.now := rfl
@[simp] theorem updateAttempt_user : (m.updateAttempt a g).user = m.user := rfl
@[simp] theorem updateAttempt_service : (m.updateAttempt a g).service = m.service := rfl
@[simp] theorem updateOffer_attempts : (m.updateOffer o go).attempts = m.attempts := rfl
@[simp] theorem updateOffer_requests : (m.updateOffer o go).requests = m.requests := rfl
@[simp] theorem updateOffer_bookings : (m.updateOffer o go).bookings = m.bookings := rfl
@[simp] theorem updateOffer_now : (m.updateOffer o go).now = m.now := rfl
@[simp] theorem updateOffer_user : (m.updateOffer o go).user = m.user := rfl
@[simp] theorem updateOffer_service : (m.updateOffer o go).service = m.service := rfl
@[simp] theorem updateRequest_attempts : (m.updateRequest r gr).attempts = m.attempts := rfl
@[simp] theorem updateRequest_offers : (m.updateRequest r gr).offers = m.offers := rfl
@[simp] theorem updateRequest_bookings : (m.updateRequest r gr).bookings = m.bookings := rfl
@[simp] theorem updateRequest_now : (m.updateRequest r gr).now = m.now := rfl
@[simp] theorem updateRequest_user : (m.updateRequest r gr).user = m.user := rfl
@[simp] theorem updateRequest_service : (m.updateRequest r gr).service = m.service := rfl

theorem findAttempt_eq_some {x : PaymentAttempt} :
    m.findAttempt a = some x ↔ ∃ s, m.attempts[a]? = some s ∧ s.file.attempt = x := by
  simp [findAttempt]

@[simp] theorem findAttempt_update (a' : AttemptId) :
    (m.updateAttempt a g).findAttempt a' =
      if a = a' then (m.findAttempt a').map g else m.findAttempt a' := by
  simp only [findAttempt, updateAttempt, List.getElem?_modify]
  cases m.attempts[a']? with
  | none => simp
  | some s => by_cases same : a = a' <;> simp [same]

end Tables

theorem findAttempt_congr (h : t.attempts = m.attempts) : t.findAttempt = m.findAttempt := by
  funext a
  simp [findAttempt, h]

theorem mem_attemptsWhere {p : PaymentAttempt → Bool} {a : AttemptId} :
    a ∈ m.attemptsWhere p ↔ ∃ x, m.findAttempt a = some x ∧ p x = true := by
  simp only [attemptsWhere, List.mem_filter, List.mem_range, Option.any_eq_true, findAttempt]
  constructor
  · rintro ⟨-, h⟩
    exact h
  · rintro ⟨x, found, hx⟩
    refine ⟨?_, x, found, hx⟩
    obtain ⟨s, hs, -⟩ := Option.map_eq_some_iff.mp found
    exact (List.getElem?_eq_some_iff.mp hs).1

theorem findIntent_some {i : GatewayId} {a : AttemptId} (h : m.findIntent i = some a) :
    ∃ x, m.findAttempt a = some x ∧ x.providerIntentId = some i := by
  obtain ⟨listed, intent, -⟩ := List.findIdx?_eq_some_iff_getElem.mp h
  refine ⟨m.attempts[a].file.attempt, ?_, by simpa using intent⟩
  simp [findAttempt, List.getElem?_eq_getElem listed]

end Market

section Holds

variable {m t : Market} {offerId : Option OfferId} {o : OfferId} {a : AttemptId}

theorem releaseOfferHold_frame (offerId : Option OfferId) (m : Market) : ∃ offers requests,
    releaseOfferHold offerId m = { m with offers, requests } := by
  simp only [releaseOfferHold]
  split
  · exact ⟨m.offers, m.requests, rfl⟩
  split
  · exact ⟨m.offers, m.requests, rfl⟩
  split
  · exact ⟨m.offers, m.requests, rfl⟩
  · exact ⟨_, _, rfl⟩

@[simp] theorem releaseOfferHold_attempts : (releaseOfferHold offerId m).attempts = m.attempts := by
  obtain ⟨_, _, h⟩ := releaseOfferHold_frame offerId m
  rw [h]

@[simp] theorem releaseOfferHold_bookings : (releaseOfferHold offerId m).bookings = m.bookings := by
  obtain ⟨_, _, h⟩ := releaseOfferHold_frame offerId m
  rw [h]

@[simp] theorem releaseOfferHold_now : (releaseOfferHold offerId m).now = m.now := by
  obtain ⟨_, _, h⟩ := releaseOfferHold_frame offerId m
  rw [h]

@[simp] theorem releaseOfferHold_user : (releaseOfferHold offerId m).user = m.user := by
  obtain ⟨_, _, h⟩ := releaseOfferHold_frame offerId m
  rw [h]

@[simp] theorem releaseOfferHold_service : (releaseOfferHold offerId m).service = m.service := by
  obtain ⟨_, _, h⟩ := releaseOfferHold_frame offerId m
  rw [h]

@[simp] theorem selectOffer_attempts : (selectOffer o m).attempts = m.attempts := by
  simp only [selectOffer]
  split <;> rfl

@[simp] theorem selectOffer_bookings : (selectOffer o m).bookings = m.bookings := by
  simp only [selectOffer]
  split <;> rfl

@[simp] theorem selectOffer_now : (selectOffer o m).now = m.now := by
  simp only [selectOffer]
  split <;> rfl

@[simp] theorem selectOffer_user : (selectOffer o m).user = m.user := by
  simp only [selectOffer]
  split <;> rfl

@[simp] theorem selectOffer_service : (selectOffer o m).service = m.service := by
  simp only [selectOffer]
  split <;> rfl

end Holds

section Expiry

variable {m t : Market} {offerId : Option OfferId} {a : AttemptId} {reason : Option String}
  {params : PaymentParams} {target : PaymentTarget}

theorem releaseOfferHold_updateAttempt {g : PaymentAttempt → PaymentAttempt} :
    releaseOfferHold offerId (m.updateAttempt a g) = (releaseOfferHold offerId m).updateAttempt a g := by
  cases offerId with
  | none => rfl
  | some o =>
      simp only [releaseOfferHold, Market.updateAttempt_offers]
      cases m.offers[o]? with
      | none => rfl
      | some offer =>
          by_cases held : offer.status = .pendingPayment
          · simp only [held, ne_eq, not_true_eq_false, if_false]
            rfl
          · simp only [ne_eq, held, not_false_eq_true, if_true]

theorem releaseOfferHold_released :
    releaseOfferHold offerId (releaseOfferHold offerId m) = releaseOfferHold offerId m := by
  cases offerId with
  | none => rfl
  | some o =>
      simp only [releaseOfferHold]
      cases found : m.offers[o]? with
      | none => simp [found]
      | some offer =>
          by_cases held : offer.status = .pendingPayment
          · simp [held, Market.updateOffer, Market.updateRequest, found]
          · simp [held, found]

/-- Expired attempts, one after the other: their rows, and one release of the hold. -/
theorem expireAttempts_eq (l : List AttemptId) : ∃ attempts,
    l.foldl (fun m a => expireAttempt a offerId reason m) m =
      { (if l = [] then m else releaseOfferHold offerId m) with attempts } := by
  induction l generalizing m with
  | nil => exact ⟨m.attempts, rfl⟩
  | cons a l ih =>
      obtain ⟨attempts, h⟩ := ih (m := expireAttempt a offerId reason m)
      refine ⟨attempts, ?_⟩
      rw [List.foldl_cons, h, if_neg (List.cons_ne_nil a l)]
      split
      · rw [expireAttempt, releaseOfferHold_updateAttempt]
        rfl
      · rw [expireAttempt, releaseOfferHold_released, releaseOfferHold_updateAttempt]
        rfl

theorem findAttempt_expireAttempts (l : List AttemptId) :
    (l.foldl (fun m a => expireAttempt a offerId none m) m).findAttempt a =
      (m.findAttempt a).map fun x => if a ∈ l then { x with status := .expired } else x := by
  induction l generalizing m with
  | nil => simp
  | cons b l ih =>
      rw [List.foldl_cons, ih, expireAttempt,
        Market.findAttempt_congr releaseOfferHold_attempts, Market.findAttempt_update]
      by_cases same : b = a
      · subst same
        cases m.findAttempt b <;> simp
      · cases m.findAttempt a <;> simp [same, Ne.symm same]

/-- The attempt is swept at the start of the transaction. -/
def PaymentAttempt.stale (params : PaymentParams) (target : PaymentTarget) (now : Millis)
    (x : PaymentAttempt) : Bool :=
  x.pendingFor params target && x.expiresAt ≤ now

theorem findAttempt_expireStale :
    (expireStale params target m).findAttempt a =
      (m.findAttempt a).map fun x =>
        if x.stale params target m.now then { x with status := .expired } else x := by
  rw [expireStale, findAttempt_expireAttempts]
  cases found : m.findAttempt a with
  | none => rfl
  | some x => simp [Market.mem_attemptsWhere, found, PaymentAttempt.stale]

/-- The sweep releases the hold when it expires an attempt, and writes nothing else. -/
theorem expireStale_eq (params : PaymentParams) (target : PaymentTarget) (m : Market) : ∃ attempts,
    expireStale params target m =
      { (if m.attemptsWhere (·.stale params target m.now) = [] then m
        else releaseOfferHold params.offerId m) with attempts } :=
  expireAttempts_eq _

theorem expireStale_frame (params : PaymentParams) (target : PaymentTarget) (m : Market) :
    ∃ attempts offers requests,
    expireStale params target m = { m with attempts, offers, requests } := by
  obtain ⟨attempts, h⟩ := expireStale_eq params target m
  obtain ⟨offers, requests, released⟩ := releaseOfferHold_frame params.offerId m
  rw [h]
  split
  · exact ⟨attempts, m.offers, m.requests, rfl⟩
  · exact ⟨attempts, offers, requests, by rw [released]⟩

end Expiry

section Transactions

variable {m t : Market} {a : AttemptId} {payment : CapturedPayment} {attempt : PaymentAttempt}
  {params : PaymentParams} {target : PaymentTarget}

theorem createBooking_ok {f : BookingFile} (h : m.createBooking f = .ok t) :
    (∀ s, f.booking.serviceId = some s → (m.service s).isSome = true)
      ∧ (∀ s ∈ m.bookings, s.file.booking.clashes f.booking = false)
      ∧ (∀ s ∈ m.bookings, ∀ q q', s.file.queue = some q → f.queue = some q' → q.clashes q' = false)
      ∧ t = { m with bookings := m.bookings ++ [{ file := f }] } := by
  simp only [Market.createBooking, check_bind_ok, rejectIf_ok, pure_ok, Bool.not_eq_true,
    List.any_eq_false, Option.any_eq_false] at h
  obtain ⟨present, distinct, queues, rfl⟩ := h
  refine ⟨fun s hs => ?_, fun s hs => by simpa using distinct s hs, fun s hs q q' hq hq' => ?_, rfl⟩
  · simpa [Option.isSome_iff_ne_none] using present s hs
  · simpa using queues s hs q hq q' hq'

theorem directTerms_isSome {terms : Option ListingTerms} {service : Option Service}
    (h : directTerms params service = .ok terms) : terms.isSome = service.isSome := by
  cases service with
  | none =>
      obtain rfl := pure_ok.mp h
      rfl
  | some s =>
      simp only [directTerms, bind_ok, pure_ok] at h
      obtain ⟨_, -, _, -, rfl⟩ := h
      rfl

theorem directService_ok {service : Option Service} (h : directService params target m = .ok service) :
    (params.offerId.isSome = true ∧ service = none)
      ∨ (params.offerId = none ∧ ∃ s x, service = some x ∧ target.serviceId = some s
        ∧ m.service s = some x ∧ x.providerId = target.providerId) := by
  simp only [directService, ite_ok, pure_ok, orThrow_bind_ok, check_bind_ok, rejectIf_ok, not_not] at h
  obtain ⟨offered, rfl⟩ | ⟨direct, x, found, provider, rfl⟩ := h
  · exact .inl ⟨offered, rfl⟩
  · obtain ⟨s, target, found⟩ := Option.bind_eq_some_iff.mp found
    exact .inr ⟨by simpa using direct, s, x, rfl, target, found, provider⟩

theorem offerTerms_ok {o : OfferId} {terms : ListingTerms}
    (h : offerTerms params target o m = .ok terms) : ∃ offer request,
      m.offers[o]? = some offer ∧ m.requests[offer.requestId]? = some request
        ∧ offer.status = .pending ∧ request.status = .open ∧ request.seekerId = params.seekerId
        ∧ offer.providerId = target.providerId ∧ offer.serviceId = target.serviceId := by
  simp only [offerTerms, orThrow_bind_ok, check_bind_ok, rejectIf_ok, not_or, not_not] at h
  obtain ⟨offer, found, request, requested, ⟨pending, opened, seeker, provider, service⟩, -⟩ := h
  exact ⟨offer, request, found, requested, pending, opened, seeker, provider, service⟩

theorem createAttempt_ok (h : createAttempt attempt m = .ok t) :
    t = { m with attempts := m.attempts ++ [{ file := { attempt } }] } := by
  simp only [createAttempt, check_bind_ok, pure_ok] at h
  exact h.2.symm

theorem holdOffer_ok {o : OfferId} {expiresAt : Millis} (h : holdOffer o expiresAt m = .ok t) :
    ∃ offer, m.offers[o]? = some offer ∧ m.selectedElsewhere offer.requestId o = false
      ∧ t = (m.updateOffer o ({ · with
          status := .pendingPayment, paymentHoldExpiresAt := some expiresAt })).updateRequest
        offer.requestId ({ · with status := .paymentPending }) := by
  simp only [holdOffer, orThrow_bind_ok, check_bind_ok, rejectIf_ok, pure_ok, Bool.not_eq_true] at h
  obtain ⟨offer, found, alone, rfl⟩ := h
  exact ⟨offer, found, alone, rfl⟩

/-- What a new attempt is created on: the listing, or the offer that is held for it. -/
inductive HeldFor (params : PaymentParams) (target : PaymentTarget) (m : Market) : Market → Prop where
  | listing {s : ServiceId} {service : Service} (direct : params.offerId = none)
      (listed : target.serviceId = some s) (found : m.service s = some service)
      (provider : service.providerId = target.providerId) : HeldFor params target m m
  | offer {o : OfferId} {offer : Offer} {request : ServiceRequest} {t : Market}
      (offered : params.offerId = some o) (found : m.offers[o]? = some offer)
      (requested : m.requests[offer.requestId]? = some request) (pending : offer.status = .pending)
      (opened : request.status = .open) (seeker : request.seekerId = params.seekerId)
      (provider : offer.providerId = target.providerId) (service : offer.serviceId = target.serviceId)
      (held : holdOffer o target.expiresAt m = .ok t) : HeldFor params target m t

/-- The amount is within the bounds of a booking, and the split is the one of its commission rate. -/
structure PaymentAttempt.Priced (x : PaymentAttempt) : Prop where
  least : 5000 ≤ x.amount
  most : x.amount ≤ 5000000
  split : ∃ net, x.providerNetAmount = some net
    ∧ paymentCommission x.amount x.commissionRateBps = .ok (x.platformFeeAmount, net)

/-- The transaction of `initiateOnlinePayment` after its sweep: it reuses a pending attempt, or
    creates one where none is pending. -/
inductive PreparedOn (params : PaymentParams) (target : PaymentTarget) (m : Market) :
    Market → AttemptId → Prop where
  | reused {a : AttemptId} {existing : PaymentAttempt} (found : m.findAttempt a = some existing)
      (pending : existing.pendingFor params target = true) : PreparedOn params target m m a
  | created {held : Market} {attempt : PaymentAttempt}
      (fresh : attempt.pendingFor params target = true)
      (provider : attempt.providerId = target.providerId)
      (distinct : attempt.seekerId ≠ attempt.providerId)
      (unregistered : attempt.providerIntentId = none) (unpaid : attempt.providerPaymentId = none)
      (priced : attempt.Priced)
      (alone : ∀ a x, m.findAttempt a = some x →
        ¬ (x.pendingFor params target = true ∧ m.now < x.expiresAt))
      (on : HeldFor params target m held) :
      PreparedOn params target m { held with attempts := held.attempts ++ [{ file := { attempt } }] }
        m.attempts.length

theorem preparePayment_ok {prepared : Prepared}
    (h : preparePayment params target m = .ok (t, prepared)) :
    PreparedOn params target (expireStale params target m) t prepared.attempt := by
  simp only [preparePayment, check_bind_ok] at h
  obtain ⟨-, h⟩ := h
  generalize expireStale params target m = swept at *
  split at h
  · rename_i a first
    simp only [orThrow_bind_ok, check_bind_ok, pure_ok, Prod.mk.injEq] at h
    obtain ⟨existing, found, -, rfl, rfl⟩ := h
    obtain ⟨x, found', pending⟩ := Market.mem_attemptsWhere.mp (List.mem_of_mem_head? first)
    obtain rfl := Option.some.inj (found.symm.trans found')
    simp only [Bool.and_eq_true] at pending
    exact .reused found pending.1
  · rename_i none_pending
    obtain ⟨service, listed, h⟩ := bind_ok.mp h
    obtain ⟨-, h⟩ := check_bind_ok.mp h
    obtain ⟨distinct, h⟩ := rejectIf_bind_ok.mp h
    obtain ⟨direct, terms, h⟩ := bind_ok.mp h
    obtain ⟨provider, -, h⟩ := orThrow_bind_ok.mp h
    obtain ⟨-, h⟩ := check_bind_ok.mp h
    obtain ⟨-, h⟩ := check_bind_ok.mp h
    obtain ⟨-, h⟩ := check_bind_ok.mp h
    obtain ⟨-, h⟩ := check_bind_ok.mp h
    obtain ⟨⟨held, price⟩, hold, h⟩ := bind_ok.mp h
    obtain ⟨bounds, h⟩ := rejectIf_bind_ok.mp h
    obtain ⟨⟨fee, net⟩, commission, h⟩ := bind_ok.mp h
    obtain ⟨created, create, h⟩ := bind_ok.mp h
    simp only [pure_ok, Prod.mk.injEq] at h
    obtain ⟨rfl, rfl⟩ := h
    have alone : ∀ a x, swept.findAttempt a = some x →
        ¬ (x.pendingFor params target = true ∧ swept.now < x.expiresAt) := by
      rintro a x found ⟨pending, unexpired⟩
      have listed : a ∈ swept.attemptsWhere
          (fun x => x.pendingFor params target && decide (swept.now < x.expiresAt)) :=
        Market.mem_attemptsWhere.mpr ⟨x, found, by simp [pending, unexpired]⟩
      rw [List.head?_eq_none_iff.mp none_pending] at listed
      cases listed
    have on : HeldFor params target swept held := by
      obtain ⟨offered, rfl⟩ | ⟨direct', s, x, rfl, target, found, same⟩ := directService_ok listed
      · obtain rfl : direct = none := by simpa using directTerms_isSome terms
        simp only [holdTerms, orThrow_ok, bind_ok, pure_ok, Prod.mk.injEq] at hold
        obtain ⟨o, offer, _, terms', held', run, rfl, -⟩ := hold
        obtain ⟨offer', request, found, requested, pending, opened, seeker, provider, service⟩ :=
          offerTerms_ok terms'
        exact .offer offer found requested pending opened seeker provider service run
      · obtain ⟨terms', rfl⟩ := Option.isSome_iff_exists.mp (directTerms_isSome terms)
        simp only [holdTerms, pure_ok, Prod.mk.injEq] at hold
        obtain ⟨rfl, -⟩ := hold
        exact .listing direct' target found same
    rw [createAttempt_ok create]
    refine .created (by simp [PaymentAttempt.pendingFor]) rfl (fun same => distinct same.symm) rfl rfl
      ⟨?_, ?_, net, rfl, commission⟩ alone on
    · exact Nat.not_lt.mp (not_or.mp bounds).1
    · exact Nat.not_lt.mp (not_or.mp bounds).2

/-- A captured payment that the transaction still has to settle. -/
structure Unsettled (a : AttemptId) (payment : CapturedPayment) (m : Market) (fresh : PaymentAttempt) :
    Prop where
  found : m.findAttempt a = some fresh
  unbooked : ¬ (fresh.status = .succeeded
    ∧ m.bookings.any (·.file.booking.paymentAttemptId == some a) = true)
  unrefunded : fresh.status ≠ .refundRequired ∧ fresh.status ≠ .refunded
  valid : payment.matches a fresh = true

/-- The branches of `finalizeSuccessfulPayment` that require a refund, with what they do to the
    offer. -/
inductive RefundBranch (a : AttemptId) (fresh : PaymentAttempt) (m : Market) :
    (Market → Market) → Prop where
  | released (gone : fresh.expiresAt ≤ m.now ∨ m.unavailable fresh = true) :
      RefundBranch a fresh m (releaseOfferHold fresh.offerId)
  | invalid {o : OfferId} (offered : fresh.offerId = some o) (invalid : m.holdValid fresh o = false) :
      RefundBranch a fresh m id
  | sibling {o : OfferId} {offer : Offer} (offered : fresh.offerId = some o)
      (found : m.offers[o]? = some offer) (selected : m.selectedElsewhere offer.requestId o = true)
      (held : m.holdValid fresh o = true) :
      RefundBranch a fresh m fun m => m.updateOffer o fun offer =>
        if offer.status = .pendingPayment then
          { offer with status := .rejected, paymentHoldExpiresAt := none }
        else offer

/-- The attempt can be booked. -/
structure Bookable (fresh : PaymentAttempt) (m : Market) : Prop where
  unexpired : m.now < fresh.expiresAt
  available : m.unavailable fresh = false
  held : ∀ o, fresh.offerId = some o → m.holdValid fresh o = true
    ∧ ∀ offer, m.offers[o]? = some offer → m.selectedElsewhere offer.requestId o = false

/-- The booking with its place in the queue, and the attempt and offer that it settles. -/
structure PaidBooking (a : AttemptId) (payment : CapturedPayment) (fresh : PaymentAttempt)
    (m t booked numbered : Market) : Prop where
  create : m.createBooking (fresh.paidBooking a (m.estimatedDuration fresh) payment
    (m.countQueue fresh.providerId .serving + m.countQueue fresh.providerId .waiting + 1)) = .ok booked
  renumber : booked.recalculateQueue fresh.providerId = .ok numbered
  unrecorded : m.paymentRecordedElsewhere a payment.paymentId = false
  settled : t = fresh.offerId.elim id selectOffer (numbered.updateAttempt a ({ · with
    status := .succeeded, providerPaymentId := payment.paymentId }))

/-- The transaction of `finalizeSuccessfulPayment`. -/
inductive FinalizedOn (a : AttemptId) (payment : CapturedPayment) (m : Market) :
    Market → Finalized → Prop where
  | settled {fresh : PaymentAttempt} {result : Finalized} (found : m.findAttempt a = some fresh)
      (booked : fresh.status = .succeeded ∧ m.bookings.any (·.file.booking.paymentAttemptId == some a) = true
        ∨ fresh.status = .refundRequired ∨ fresh.status = .refunded)
      (attempt : result.attempt = none ∨ result.attempt = some a) :
      FinalizedOn a payment m m result
  | refunded {fresh : PaymentAttempt} {reason : String} {after : Market → Market}
      (open_ : Unsettled a payment m fresh) (branch : RefundBranch a fresh (markPaid a m) after)
      (unrecorded : (markPaid a m).paymentRecordedElsewhere a payment.paymentId = false) :
      FinalizedOn a payment m (after (requireRefund a payment reason (markPaid a m)))
        { refundRequired := true, attempt := some a }
  | created {fresh : PaymentAttempt} {u booked numbered : Market}
      (open_ : Unsettled a payment m fresh) (bookable : Bookable fresh (markPaid a m))
      (paid : PaidBooking a payment fresh (markPaid a m) u booked numbered) :
      FinalizedOn a payment m u { created := true }

theorem createPaidBooking_ok {result : Finalized}
    (h : createPaidBooking a attempt payment m = .ok (t, result)) :
    ∃ booked numbered, PaidBooking a payment attempt m t booked numbered
      ∧ result = { created := true } := by
  simp only [createPaidBooking, bind_ok, rejectIf_ok, pure_ok, Prod.mk.injEq, Bool.not_eq_true] at h
  obtain ⟨booked, create, numbered, renumber, _, unrecorded, rfl, rfl⟩ := h
  refine ⟨booked, numbered, ⟨create, renumber, unrecorded, ?_⟩, rfl⟩
  cases attempt.offerId <;> rfl

theorem finalizeAttempt_ok {result : Finalized}
    (h : finalizeAttempt a payment m = .ok (t, result)) : FinalizedOn a payment m t result := by
  obtain ⟨fresh, found, h⟩ := orThrow_bind_ok.mp h
  simp only [ite_ok, pure_ok, Prod.mk.injEq] at h
  obtain ⟨booked, rfl, rfl⟩ | ⟨unbooked, ⟨unpaid, rfl, rfl⟩ | ⟨unrefunded, h⟩⟩ := h
  · exact .settled found (.inl booked) (.inl rfl)
  · exact .settled found (.inr unpaid) (.inr rfl)
  obtain ⟨valid, h⟩ := rejectIf_bind_ok.mp h
  have open_ : Unsettled a payment m fresh :=
    ⟨found, unbooked, not_or.mp unrefunded, by simpa using valid⟩
  simp only [ite_ok] at h
  obtain ⟨expired, h⟩ | ⟨unexpired, ⟨gone, h⟩ | ⟨available, h⟩⟩ := h
  · obtain ⟨unrecorded, h⟩ := rejectIf_bind_ok.mp h
    obtain ⟨rfl, rfl⟩ := by simpa only [pure_ok, Prod.mk.injEq] using h
    exact .refunded open_ (.released (.inl expired)) (by simpa using unrecorded)
  · obtain ⟨unrecorded, h⟩ := rejectIf_bind_ok.mp h
    obtain ⟨rfl, rfl⟩ := by simpa only [pure_ok, Prod.mk.injEq] using h
    exact .refunded open_ (.released (.inr gone)) (by simpa using unrecorded)
  · have unexpired : (markPaid a m).now < fresh.expiresAt := by simpa using unexpired
    have available : (markPaid a m).unavailable fresh = false := by simpa using available
    cases offered : fresh.offerId with
    | none =>
        rw [offered] at h
        obtain ⟨booked, numbered, paid, rfl⟩ := createPaidBooking_ok h
        exact .created open_ ⟨unexpired, available, by simp [offered]⟩ paid
    | some o =>
        rw [offered] at h
        simp only [ite_ok] at h
        obtain ⟨invalid, h⟩ | ⟨held, ⟨sibling, h⟩ | ⟨alone, h⟩⟩ := h
        · obtain ⟨unrecorded, h⟩ := rejectIf_bind_ok.mp h
          obtain ⟨rfl, rfl⟩ := by simpa only [pure_ok, Prod.mk.injEq] using h
          exact .refunded open_ (.invalid offered invalid) (by simpa using unrecorded)
        · obtain ⟨unrecorded, h⟩ := rejectIf_bind_ok.mp h
          obtain ⟨rfl, rfl⟩ := by simpa only [pure_ok, Prod.mk.injEq] using h
          obtain ⟨offer, listed, selected⟩ := Option.any_eq_true _ _ |>.mp sibling
          exact .refunded open_ (.sibling offered listed selected (by simpa using held))
            (by simpa using unrecorded)
        · obtain ⟨booked, numbered, paid, rfl⟩ := createPaidBooking_ok h
          refine .created open_ ⟨unexpired, available, fun o' same => ?_⟩ paid
          obtain rfl := Option.some.inj (offered.symm.trans same)
          refine ⟨by simpa using held, fun offer listed => ?_⟩
          simpa [listed] using alone

end Transactions

end ServiceHub
