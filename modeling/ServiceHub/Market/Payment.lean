import ServiceHub.Market.Queue

/-! # The payment services

The transactions of `initiateOnlinePayment`, `finalizeSuccessfulPayment`,
`markPaymentAttemptFailed` and `expireStalePaymentAttempts` on the marketplace. Each of
them takes the advisory locks of the rows it writes and is one step.
-/

namespace ServiceHub

open Guard

def attemptTtlMs : Millis := 15 * 60 * 1000

/-- `releaseOfferHold`. -/
def releaseOfferHold (offerId : Option OfferId) (m : Market) : Market :=
  match offerId with
  | none => m
  | some o =>
      match m.offers[o]? with
      | none => m
      | some offer =>
          if offer.status ≠ .pendingPayment then m
          else (m.updateOffer o ({ · with status := .pending, paymentHoldExpiresAt := none }))
            |>.updateRequest offer.requestId fun r =>
              if r.status = .paymentPending then { r with status := .open } else r

/-- `rejectSiblingOffersAndNotify`. -/
def rejectSiblingOffers (requestId : RequestId) (selectedOfferId : OfferId) (m : Market) : Market :=
  { m with offers := m.offers.mapIdx fun o offer =>
      if o ≠ selectedOfferId ∧ offer.requestId = requestId ∧ offer.status = .pending then
        { offer with status := .rejected, paymentHoldExpiresAt := none }
      else offer }

/-- Another active booking of the seeker: for the offer, or for the listing. -/
def Market.conflictingBooking (m : Market) (seekerId : UserId) (offerId : Option OfferId)
    (serviceId : Option ServiceId) : Bool :=
  m.bookings.any fun s => s.file.booking.seekerId == seekerId
    && (if offerId.isSome then s.file.booking.offerId == offerId
      else s.file.booking.serviceId == serviceId)
    && s.file.booking.status.active

/-- The lookups of `initiateOnlinePayment` before its transaction. -/
def readPaymentTarget (params : PaymentParams) (m : Market) : Except HttpError PaymentTarget := do
  match params.retryPaymentIntentId with
  | none => pure ()
  | some intentId => do
      let previous ← orThrow ((m.findIntent intentId).bind m.findAttempt)
        (httpError "Previous payment attempt not found" 404)
      rejectIf (previous.seekerId ≠ params.seekerId ∨ previous.offerId ≠ params.offerId
          ∨ (params.offerId = none ∧ previous.serviceId ≠ params.serviceId))
        (httpError "Previous payment attempt not found" 404)
      rejectIf (previous.status ≠ .failed ∧ previous.status ≠ .expired)
        (httpError "Check the previous payment before trying again" 409)
  let target ← match params.offerId with
    | some o => do
        let offer ← orThrow (m.offers[o]?) (httpError "Offer not found" 404)
        pure { expiresAt := m.now + attemptTtlMs, requestId := some offer.requestId
               providerId := offer.providerId, serviceId := offer.serviceId }
    | none => do
        let s ← orThrow params.serviceId (httpError "Choose a service or offer" 400)
        let service ← orThrow (m.service s) (httpError "Service not found" 404)
        pure { expiresAt := m.now + attemptTtlMs, requestId := none
               providerId := service.providerId, serviceId := some s }
  rejectIf (params.quantity < 1 ∨ params.quantity > 40
      ∨ (params.offerId.isSome = true ∧ params.quantity ≠ 1))
    (httpError "Choose a valid number of hours or days" 400)
  return target

/-- A pending attempt of the seeker for the same listing and offer. -/
def PaymentAttempt.pendingFor (params : PaymentParams) (target : PaymentTarget)
    (attempt : PaymentAttempt) : Bool :=
  attempt.seekerId == params.seekerId && attempt.serviceId == target.serviceId
    && attempt.offerId == params.offerId && attempt.status == .pending

def Market.attemptsWhere (m : Market) (p : PaymentAttempt → Bool) : List AttemptId :=
  (List.range m.attempts.length).filter fun a => (m.findAttempt a).any p

def expireAttempt (a : AttemptId) (offerId : Option OfferId) (reason : Option String) (m : Market) :
    Market :=
  releaseOfferHold offerId (m.updateAttempt a fun attempt =>
    { attempt with status := .expired, failureReason := reason.or attempt.failureReason })

/-- The sweep of stale attempts at the start of the transaction. -/
def expireStale (params : PaymentParams) (target : PaymentTarget) (m : Market) : Market :=
  (m.attemptsWhere fun x => x.pendingFor params target && x.expiresAt ≤ m.now).foldl
    (fun m a => expireAttempt a params.offerId none m) m

/-- The attempt that the transaction returns, with the columns that decide how the call goes on. -/
structure Prepared where
  attempt : AttemptId
  reused : Bool
  providerIntentId : Option GatewayId := none
  redirectUrl : Option String := none
  deriving Repr, DecidableEq

/-- The amount and duration of an offer, after the checks that it can be paid. -/
def offerTerms (params : PaymentParams) (target : PaymentTarget) (o : OfferId) (m : Market) :
    Except HttpError ListingTerms := do
  let unpayable := httpError "The offer is no longer payable" 409 (some "OFFER_NOT_PAYABLE")
  let offer ← orThrow (m.offers[o]?) unpayable
  let request ← orThrow (m.requests[offer.requestId]?) unpayable
  rejectIf (offer.status ≠ .pending ∨ request.status ≠ .open
      ∨ request.seekerId ≠ params.seekerId ∨ offer.providerId ≠ target.providerId
      ∨ offer.serviceId ≠ target.serviceId) unpayable
  rejectIf ((getRequestPaymentMethods request).gcash = false)
    (httpError "Choose a payment method selected on this request." 409
      (some "REQUEST_PAYMENT_METHOD_UNAVAILABLE"))
  match request.targetServiceId with
  | none => pure ()
  | some listed => do
      rejectIf (request.preferredPaymentMethod.any (· ≠ .gcash) ∨ offer.serviceId ≠ some listed)
        (httpError "This inquiry was requested with a different payment method or listing" 409)
      rejectIf (¬ (m.service listed).any (·.paymentMethods.gcash))
        (httpError "This listing no longer accepts GCash" 409)
  return { amount := offer.offeredPrice, estimatedDurationMins := offer.estimatedDuration }

/-- The offer and its request held for the payment. The unique index allows one selected offer of
    a request. -/
def holdOffer (o : OfferId) (expiresAt : Millis) (m : Market) : Except HttpError Market := do
  let offer ← orThrow (m.offers[o]?) recordNotFound
  rejectIf (m.selectedElsewhere offer.requestId o) uniqueViolation
  return (m.updateOffer o ({ · with
      status := .pendingPayment, paymentHoldExpiresAt := some expiresAt }))
    |>.updateRequest offer.requestId ({ · with status := .paymentPending })

/-- `paymentAttempt.create`, with the unique index on the pending attempts of a listing (rows
    without a listing are all distinct to it). -/
def createAttempt (attempt : PaymentAttempt) (m : Market) : Except HttpError Market := do
  rejectIf (attempt.serviceId.isSome = true ∧ m.attempts.any fun s =>
      s.file.attempt.status == .pending && s.file.attempt.seekerId == attempt.seekerId
        && s.file.attempt.serviceId == attempt.serviceId
        && s.file.attempt.offerId == attempt.offerId) uniqueViolation
  return { m with attempts := m.attempts ++ [{ file := { attempt } }] }

/-- The listing of a direct booking. -/
def directService (params : PaymentParams) (target : PaymentTarget) (m : Market) :
    Except HttpError (Option Service) :=
  if params.offerId.isSome then return none
  else do
    let service ← orThrow (target.serviceId.bind m.service) (httpError "Service not found" 404)
    rejectIf (service.providerId ≠ target.providerId)
      (httpError "Service provider changed during payment preparation" 409)
    return some service

/-- The terms of a direct booking, from a listing that is available. -/
def directTerms (params : PaymentParams) :
    Option Service → Except HttpError (Option ListingTerms)
  | none => return none
  | some service => do
      let terms ← calculateDirectListingTerms service params.quantity
      rejectIf (service.status ≠ .active ∨ service.isAvailable = false)
        (httpError "This service is not available" 409)
      return some terms

/-- The terms that are paid, with the offer held for the payment. -/
def holdTerms (params : PaymentParams) (target : PaymentTarget) (m : Market) :
    Option ListingTerms → Except HttpError (Market × ListingTerms)
  | some terms => return (m, terms)
  | none => do
      let o ← orThrow params.offerId recordNotFound
      let terms ← offerTerms params target o m
      let held ← holdOffer o target.expiresAt m
      return (held, terms)

/-- The transaction of `initiateOnlinePayment`. -/
def preparePayment (params : PaymentParams) (target : PaymentTarget) (m : Market) :
    Except HttpError (Market × Prepared) := do
  assertNewProviderBusiness m target.providerId
  let m := expireStale params target m
  match (m.attemptsWhere fun x => x.pendingFor params target && m.now < x.expiresAt).head? with
  | some a => do
      let existing ← orThrow (m.findAttempt a) recordNotFound
      rejectIf (existing.quantity ≠ params.quantity)
        (httpError "A payment is already pending for a different quantity" 409)
      return (m, {
        attempt := a, reused := true, providerIntentId := existing.providerIntentId
        redirectUrl := existing.redirectUrl })
  | none => do
      let service ← directService params target m
      rejectIf (marketplaceParticipantsEligible m params.seekerId target.providerId = false)
        (httpError "Both participants must be eligible for a new payment" 409
          (some "PARTICIPANT_INELIGIBLE"))
      rejectIf (target.providerId = params.seekerId)
        (httpError "You cannot book your own offer or service" 403
          (some "SELF_TRANSACTION_NOT_ALLOWED"))
      let direct ← directTerms params service
      let unavailable := httpError "The provider is not currently eligible to accept a new booking" 409
        (some "PROVIDER_UNAVAILABLE")
      let provider ← orThrow (m.user target.providerId) unavailable
      rejectIf (provider.eligibleProvider = false) unavailable
      rejectIf (m.conflictingBooking params.seekerId params.offerId target.serviceId)
        (httpError "You already have an active booking for this service" 409
          (some "ACTIVE_BOOKING_EXISTS"))
      rejectIf (service.any fun s => !s.paymentMethods.gcash)
        (httpError "This payment method is not accepted for the service" 400)
      rejectIf (m.countQueue target.providerId .waiting ≥ provider.onlineQueueLimit)
        (httpError "The provider's paid work queue is full" 409 (some "QUEUE_FULL"))
      let (held, terms) ← holdTerms params target m direct
      rejectIf (terms.amount < 5000 ∨ terms.amount > 5000000)
        (httpError "The booking amount is invalid" 400)
      let (fee, net) ← paymentCommission terms.amount provider.commissionRateBps
      let prepared ← createAttempt {
        seekerId := params.seekerId, providerId := target.providerId
        serviceId := target.serviceId, quantity := params.quantity, offerId := params.offerId
        amount := terms.amount, commissionRateBps := provider.commissionRateBps
        platformFeeAmount := fee, providerNetAmount := some net
        transportationFee := service.bind (·.transportationFee)
        estimatedDurationMins := some terms.estimatedDurationMins, expiresAt := target.expiresAt } held
      return (prepared, { attempt := m.attempts.length, reused := false })

/-- The catch block of `initiateOnlinePayment`, which then rethrows. -/
def recordInitiationFailure (a : AttemptId) (code : String) (m : Market) : Market :=
  releaseOfferHold ((m.findAttempt a).bind (·.offerId)) (m.updateAttempt a fun attempt =>
    { attempt with status := .failed, failureReason := some code })

/-- The transaction of `markPaymentAttemptFailed`. -/
def markAttemptFailed (a : AttemptId) (reason : String) (m : Market) : Market :=
  match m.findAttempt a with
  | none => m
  | some attempt =>
      if attempt.status ≠ .pending then m
      else releaseOfferHold attempt.offerId (m.updateAttempt a fun attempt =>
        { attempt with status := .failed, failureReason := some reason })

/-- The transaction of `expireStalePaymentAttempts` for one candidate. -/
def expireCandidate (a : AttemptId) (m : Market) : Market :=
  match m.findAttempt a with
  | none => m
  | some attempt =>
      if attempt.status ≠ .pending ∨ attempt.expiresAt > m.now then m
      else expireAttempt a attempt.offerId (some "PAYMENT_WINDOW_EXPIRED") m

/-- What `finalizeSuccessfulPayment` returns. -/
structure Finalized where
  created : Bool := false
  refundRequired : Bool := false
  attempt : Option AttemptId := none
  deriving Repr, DecidableEq

/-- `metadataValid`. -/
def CapturedPayment.matches (payment : CapturedPayment) (a : AttemptId) (attempt : PaymentAttempt) :
    Bool :=
  payment.currency == "PHP" && payment.amount == attempt.amount
    && payment.metadata.attemptId == a && payment.metadata.seekerId == attempt.seekerId
    && payment.metadata.serviceId == attempt.serviceId && payment.metadata.offerId == attempt.offerId
    && payment.metadata.expectedAmount == attempt.amount && payment.metadata.paymentMethod == "gcash"

/-- `paidAt` is written once. -/
def markPaid (a : AttemptId) (m : Market) : Market :=
  m.updateAttempt a fun attempt => { attempt with paidAt := attempt.paidAt.or (some m.now) }

def requireRefund (a : AttemptId) (payment : CapturedPayment) (reason : String) (m : Market) :
    Market :=
  m.updateAttempt a ({ · with
    status := .refundRequired, providerPaymentId := payment.paymentId, failureReason := some reason })

/-- The unique column `providerPaymentId`. -/
def Market.paymentRecordedElsewhere (m : Market) (a : AttemptId) (paymentId : Option GatewayId) :
    Bool :=
  paymentId.isSome && (List.range m.attempts.length).any fun other =>
    other != a && (m.findAttempt other).any (·.providerPaymentId == paymentId)

/-- The condition under which a captured payment is refunded because the participants, the
    listing, the provider or his queue are no longer available. -/
def Market.unavailable (m : Market) (attempt : PaymentAttempt) : Bool :=
  let service := if attempt.offerId.isSome then none else attempt.serviceId.bind m.service
  (attempt.offerId.isNone && service.isNone)
    || !marketplaceParticipantsEligible m attempt.seekerId attempt.providerId
    || (m.user attempt.providerId).any (fun u => !u.marketplaceAccess)
    || service.any (fun s => s.providerId != attempt.providerId || s.status != .active
      || !s.isAvailable)
    || !(m.user attempt.providerId).any User.eligibleProvider
    || (m.user attempt.providerId).any (fun u =>
      u.onlineQueueLimit ≤ m.countQueue attempt.providerId .waiting)
    || m.conflictingBooking attempt.seekerId attempt.offerId attempt.serviceId

def Market.unavailableReason (m : Market) (attempt : PaymentAttempt) : String :=
  if m.conflictingBooking attempt.seekerId attempt.offerId attempt.serviceId then
    "ACTIVE_BOOKING_CREATED_BEFORE_PAYMENT_CAPTURE"
  else if !marketplaceParticipantsEligible m attempt.seekerId attempt.providerId then
    "PARTICIPANT_INELIGIBLE_AFTER_CAPTURE"
  else "PROVIDER_OR_QUEUE_UNAVAILABLE_AFTER_CAPTURE"

/-- The hold that the attempt needs on its offer. -/
def Market.holdValid (m : Market) (attempt : PaymentAttempt) (o : OfferId) : Bool :=
  (m.offers[o]?).any fun offer => (m.requests[offer.requestId]?).any fun request =>
    offer.providerId == attempt.providerId && offer.serviceId == attempt.serviceId
      && request.seekerId == attempt.seekerId && offer.status == .pendingPayment
      && request.status == .paymentPending && offer.paymentHoldExpiresAt.isSome

/-- The booking and queue row of a captured payment. -/
def PaymentAttempt.paidBooking (attempt : PaymentAttempt) (a : AttemptId)
    (estimatedDurationMins : Nat) (payment : CapturedPayment) (position : Nat) : BookingFile :=
  { booking := {
      seekerId := attempt.seekerId, providerId := attempt.providerId
      serviceId := attempt.serviceId, offerId := attempt.offerId, paymentAttemptId := some a
      paymentMethod := .gcash, agreedAmount := some attempt.amount
      estimatedDurationMins := some estimatedDurationMins
      paymentStatus := .paidHeld, status := .accepted, queuePosition := some position }
    queue := some {
      providerId := attempt.providerId, seekerId := attempt.seekerId
      serviceId := attempt.serviceId, offerId := attempt.offerId
      paymentId := payment.paymentIntentId, paymongoPaymentId := payment.paymentId
      paymentStatus := .paidHeld, position, status := .waiting, estimatedWait := 0 } }

/-- `fresh.estimatedDurationMins ?? offerTerms?.estimatedDuration ?? ...`. -/
def Market.estimatedDuration (m : Market) (attempt : PaymentAttempt) : Nat :=
  let service := if attempt.offerId.isSome then none else attempt.serviceId.bind m.service
  attempt.estimatedDurationMins.getD <|
    ((attempt.offerId.bind (m.offers[·]?)).map (·.estimatedDuration)).getD <|
      match service with
      | none => 60
      | some s =>
          match s.priceType with
          | .perHour => 60 * attempt.quantity
          | .perDay => 480 * attempt.quantity
          | _ => s.estimatedDurationMins

/-- The offer accepted, its siblings rejected and the request in progress. -/
def selectOffer (o : OfferId) (m : Market) : Market :=
  match m.offers[o]? with
  | none => m
  | some offer =>
      (rejectSiblingOffers offer.requestId o
        (m.updateOffer o ({ · with status := .accepted, paymentHoldExpiresAt := none })))
      |>.updateRequest offer.requestId ({ · with status := .inProgress })

/-- The end of the transaction: the booking with its place in the queue. -/
def createPaidBooking (a : AttemptId) (attempt : PaymentAttempt) (payment : CapturedPayment)
    (m : Market) : Except HttpError (Market × Finalized) := do
  let p := attempt.providerId
  let position := m.countQueue p .serving + m.countQueue p .waiting + 1
  let booked ← m.createBooking
    (attempt.paidBooking a (m.estimatedDuration attempt) payment position)
  let numbered ← booked.recalculateQueue p
  rejectIf (m.paymentRecordedElsewhere a payment.paymentId) uniqueViolation
  let succeeded := numbered.updateAttempt a ({ · with
    status := .succeeded, providerPaymentId := payment.paymentId })
  return (attempt.offerId.elim succeeded (selectOffer · succeeded), { created := true })

/-- The transaction of `finalizeSuccessfulPayment` on the attempt that the intent is registered
    for. -/
def finalizeAttempt (a : AttemptId) (payment : CapturedPayment) (m : Market) :
    Except HttpError (Market × Finalized) := do
  let fresh ← orThrow (m.findAttempt a) (httpError "Payment attempt not found" 404)
  let existingBooking := m.bookings.any (·.file.booking.paymentAttemptId == some a)
  if fresh.status = .succeeded ∧ existingBooking = true then
    return (m, {})
  else if fresh.status = .refundRequired ∨ fresh.status = .refunded then
    return (m, { refundRequired := fresh.status == .refundRequired, attempt := some a })
  else do
    rejectIf (payment.matches a fresh = false)
      (httpError "Captured payment metadata does not match the local attempt" 409
        (some "PAYMENT_MISMATCH"))
    let m := markPaid a m
    let refund (reason : String) (after : Market → Market) :
        Except HttpError (Market × Finalized) := do
      rejectIf (m.paymentRecordedElsewhere a payment.paymentId) uniqueViolation
      return (after (requireRefund a payment reason m), { refundRequired := true, attempt := some a })
    if fresh.expiresAt ≤ m.now then
      refund "PAYMENT_CONFIRMED_AFTER_ATTEMPT_EXPIRED" (releaseOfferHold fresh.offerId)
    else if m.unavailable fresh then
      refund (m.unavailableReason fresh) (releaseOfferHold fresh.offerId)
    else match fresh.offerId with
      | none => createPaidBooking a fresh payment m
      | some o =>
          if m.holdValid fresh o = false then
            refund "OFFER_HOLD_INVALID_AFTER_CAPTURE" id
          else if (m.offers[o]?).any fun offer => m.selectedElsewhere offer.requestId o then
            refund "SIBLING_OFFER_ALREADY_SELECTED" fun m => m.updateOffer o fun offer =>
              if offer.status = .pendingPayment then
                { offer with status := .rejected, paymentHoldExpiresAt := none }
              else offer
          else createPaidBooking a fresh payment m

end ServiceHub
