import ServiceHub.Market.Payment

/-! # Requests, offers and cash bookings

The other services that write requests, offers and bookings. Each of them is one
transaction under the lock of the request or of the accounts; a check that a service
makes before its transaction and again inside stands once.
-/

namespace ServiceHub

open Guard

/-- The error of `assertDistinctAccounts`. -/
def selfTransaction (actionName : String) : HttpError :=
  httpError ("Self-transaction forbidden: You cannot perform \"" ++ actionName
    ++ "\" on your own account.") 403 (some "SELF_TRANSACTION_NOT_ALLOWED")

/-- `createDirectRequest`. The list of statuses inside the transaction lacks UNDER_REVIEW; there the
    unique index rejects the second booking. -/
def createDirectRequest (seekerId providerId : UserId) (serviceId : ServiceId) (quantity : Nat)
    (m : Market) : Except HttpError Market :=
  if distinct : seekerId = providerId then throw (selfTransaction "book service")
  else do
    let paused := httpError
      "This service listing is currently paused by the provider and is not accepting bookings" 400
    let service ← orThrow (m.service serviceId) paused
    rejectIf (service.providerId ≠ providerId ∨ service.status ≠ .active
      ∨ service.isAvailable = false) paused
    let terms ← calculateDirectListingTerms service quantity
    rejectIf (¬ (m.user providerId).any User.eligibleProvider)
      (httpError "The provider is not currently eligible to accept a new booking" 409)
    rejectIf (service.paymentMethods.cash = false)
      (httpError "This provider does not accept cash payments" 400)
    rejectIf (m.conflictingBooking seekerId none (some serviceId))
      (httpError "You already have an active booking for this service in progress. Please check your Activity tab."
        400)
    assertNewProviderBusiness m providerId
    rejectIf (marketplaceParticipantsEligible m seekerId providerId = false)
      (httpError "Both participants must be eligible for a booking" 409)
    let request : Terms := {
      seekerId, providerId, distinct, serviceId := some serviceId, offerId := none
      amount := terms.amount, estimatedDurationMins := some terms.estimatedDurationMins }
    m.createBooking request.cashRequest

/-- `createDirectFromOfferService`; for a second booking of the offer see `createDirectRequest`. -/
def createDirectFromOfferService (o : OfferId) (seekerId : UserId) (m : Market) :
    Except HttpError Market := do
  let missing := httpError "Offer not found or access denied" 404
  let offer ← orThrow (m.offers[o]?) missing
  let request ← orThrow (m.requests[offer.requestId]?) missing
  rejectIf (request.seekerId ≠ seekerId) missing
  if distinct : seekerId = offer.providerId then throw (selfTransaction "accept offer")
  else do
    rejectIf (offer.status ≠ .pending ∨ request.status ≠ .open)
      (httpError "This offer is no longer available" 409)
    assertNewProviderBusiness m offer.providerId
    rejectIf (marketplaceParticipantsEligible m seekerId offer.providerId = false)
      (httpError "Both participants must be eligible for a booking" 409)
    rejectIf ((getRequestPaymentMethods request).cash = false)
      (httpError "Choose a payment method selected on this request." 409
        (some "REQUEST_PAYMENT_METHOD_UNAVAILABLE"))
    rejectIf (request.targetServiceId.any fun listed =>
        request.preferredPaymentMethod.any (· != .onsiteCash) || offer.serviceId != some listed)
      (httpError "This inquiry was requested with a different payment method or listing" 409)
    rejectIf (request.targetServiceId.any fun listed =>
        !(m.service listed).any (·.paymentMethods.cash))
      (httpError "This listing no longer accepts on-site cash" 409)
    rejectIf (m.conflictingBooking seekerId (some o) none)
      (httpError "You already have an active booking for this offer" 409
        (some "ACTIVE_BOOKING_EXISTS"))
    rejectIf (¬ (m.user offer.providerId).any User.eligibleProvider)
      (httpError "The provider is no longer eligible for a cash booking" 409)
    rejectIf (m.selectedElsewhere offer.requestId o) uniqueViolation
    let booking : Terms := {
      seekerId, providerId := offer.providerId, distinct, serviceId := offer.serviceId
      offerId := some o, amount := offer.offeredPrice
      estimatedDurationMins := some offer.estimatedDuration }
    (selectOffer o m).createBooking booking.cashOffer

/-- The booking that a request led to, other than a declined, cancelled or removed one. -/
def Market.matched (m : Market) (r : RequestId) : Bool :=
  m.bookings.any fun s =>
    (s.file.booking.offerId.any fun o => (m.offers[o]?).any (·.requestId == r))
      && s.file.booking.status != .declined && s.file.booking.status != .canceled
      && s.file.booking.status != .removed

/-- A payment for an offer of the request in `protectedRequestPaymentStatuses`. -/
def Market.protectedPayment (m : Market) (r : RequestId) : Bool :=
  m.attempts.any fun s =>
    (s.file.attempt.offerId.any fun o => (m.offers[o]?).any (·.requestId == r))
      && (s.file.attempt.status == .pending || s.file.attempt.status == .succeeded
        || s.file.attempt.status == .refundRequired)

/-- `createRequest`, and the inquiry about a listing. -/
def createRequest (seekerId : UserId) (targetServiceId : Option ServiceId)
    (paymentMethods : Option PaymentMethods) (m : Market) : Market :=
  { m with requests := m.requests ++ [{
    seekerId, status := .open, targetServiceId, preferredPaymentMethod := none, paymentMethods }] }

/-- `submitOffer`. -/
def submitOffer (providerId : UserId) (requestId : RequestId) (serviceId : Option ServiceId)
    (offeredPrice : Centavos) (estimatedDuration : Nat) (m : Market) : Except HttpError Market := do
  let request ← orThrow (m.requests[requestId]?)
    (httpError "This service request is no longer available." 404)
  rejectIf (providerId = request.seekerId) (selfTransaction "submit offer")
  assertNewProviderBusiness m providerId
  rejectIf (m.matched requestId)
    (httpError "This request already led to a booking. Ask the seeker to post a new request for more work."
      409 (some "REQUEST_ALREADY_MATCHED"))
  rejectIf (request.status ≠ .open)
    (httpError "This service request is currently paused or closed by the seeker and is no longer accepting new offers."
      400)
  rejectIf (serviceId.any fun s => !(m.service s).any fun service =>
      service.providerId == providerId && service.status == .active && service.isAvailable)
    (httpError "The requested listing is no longer available." 400 (some "OFFER_LISTING_UNAVAILABLE"))
  rejectIf (m.offers.any fun x => x.requestId == requestId && x.providerId == providerId
      && (x.status == .pending || x.status.selected))
    (httpError "You have already submitted an offer for this request" 409 (some "DUPLICATE_OFFER"))
  return { m with offers := m.offers ++ [
    { requestId, providerId, serviceId, offeredPrice, estimatedDuration }] }

/-- `rejectOffer`: the withdrawal by the provider, or the rejection by the seeker. -/
def rejectOffer (o : OfferId) (userId : UserId) (m : Market) : Except HttpError Market := do
  let missing := httpError "Offer not found" 404
  let offer ← orThrow (m.offers[o]?) missing
  let request ← orThrow (m.requests[offer.requestId]?) missing
  rejectIf (request.seekerId ≠ userId ∧ offer.providerId ≠ userId) (httpError "Not authorized" 403)
  rejectIf (offer.status ≠ .pending ∨ request.status ≠ .open)
    (httpError "Only an open, pending unpaid offer can be withdrawn or rejected" 409)
  let ended := m.updateOffer o ({ · with
    status := if offer.providerId = userId then .withdrawn else .rejected })
  return if request.targetServiceId.isSome ∧ request.preferredPaymentMethod = none
    then ended.updateRequest offer.requestId ({ · with status := .canceled })
    else ended

/-- `updateRequest`: the edit, pause or reopening of a request by the seeker. -/
def updateServiceRequest (r : RequestId) (status : Option RequestStatus)
    (paymentMethods : Option PaymentMethods) (m : Market) : Except HttpError Market := do
  let request ← orThrow (m.requests[r]?) (httpError "Request not found or access denied" 404)
  rejectIf (request.targetServiceId.isSome = true ∧ paymentMethods.isSome = true)
    (httpError "The payment method for a direct service inquiry cannot be changed here." 409)
  rejectIf (request.status ≠ .open ∧ request.status ≠ .closed)
    (httpError "A matched, payment-pending, or completed request cannot be edited or reopened" 409)
  rejectIf (request.status = .closed ∧ (status ≠ some .open ∨ paymentMethods.isSome = true))
    (httpError "A paused request must be reopened before its details can be edited" 409)
  rejectIf (request.status = .closed ∧ (m.matched r = true ∨ m.protectedPayment r = true))
    (httpError "A fulfilled or payment-pending request cannot be reopened" 409)
  rejectIf (status.any fun x => x != .open && x != .closed) (httpError "Invalid status" 400)
  return m.updateRequest r fun request => { request with
    status := status.getD request.status
    paymentMethods := paymentMethods.or request.paymentMethods }

/-- The pending offers of a request that is closed. -/
def rejectPendingOffers (r : RequestId) (m : Market) : Market :=
  { m with
    offers := Rows.updateWhere (fun x => x.requestId == r && x.status == .pending)
      ({ · with status := .rejected }) m.offers }

/-- `cancelRequest`, with the conditions of `requestDeletionEligibility` that can fail for an open
    request. -/
def cancelRequest (r : RequestId) (m : Market) : Except HttpError Market := do
  let request ← orThrow (m.requests[r]?) (httpError "Request not found or access denied" 404)
  rejectIf (m.matched r = true ∨ m.protectedPayment r = true
      ∨ m.offers.any (fun x => x.requestId == r && x.status.selected) ∨ request.status ≠ .open)
    (httpError "This request can’t be deleted in its current state." 409
      (some "REQUEST_DELETE_BLOCKED"))
  return rejectPendingOffers r (m.updateRequest r ({ · with status := .canceled }))

/-- `applyPublicContentAction` on a request. -/
def applyPublicContentAction (r : RequestId) (restore : Bool) (m : Market) :
    Except HttpError Market := do
  let request ← orThrow (m.requests[r]?) (httpError "This service request no longer exists." 404)
  rejectIf (request.targetServiceId.isSome)
    (httpError "A private booking inquiry must be handled through its booking flow." 409)
  rejectIf (m.matched r = true ∨ m.protectedPayment r = true)
    (httpError "This request has a booking or payment that needs handling in Disputes & Reports first."
      409)
  if restore then do
    rejectIf (request.status ≠ .canceled ∨ request.adminRemoved = false)
      (httpError "Only a request removed by an admin can be restored." 409)
    return m.updateRequest r ({ · with status := .open, adminRemoved := false })
  else do
    rejectIf (request.status ≠ .open ∧ request.status ≠ .closed)
      (httpError "Only an open or paused public request can be removed." 409)
    return rejectPendingOffers r (m.updateRequest r ({ · with
      status := .canceled, adminRemoved := true }))

end ServiceHub
