import ServiceHub.Payment.Attempt

/-! # The marketplace

The tables that the payment, offer and queue services share: accounts, listings,
requests, offers, payment attempts and bookings. Rows are never deleted, so an
identifier is the index of the row; the gateway's intent of an attempt carries the
attempt's number, because it was created under the attempt's idempotency key.
-/

namespace ServiceHub

open Guard

inductive ServiceStatus where
  | pendingReview | active | inactive | suspended | rejected | deleted
  deriving Repr, DecidableEq

inductive PriceType where
  | fixed | startsAt | perHour | perSession | perDay | perProject | custom | byAgreement
  deriving Repr, DecidableEq

structure PaymentMethods where
  cash : Bool
  gcash : Bool
  deriving Repr, DecidableEq

structure Service where
  providerId : UserId
  priceType : PriceType
  price : Option Centavos
  estimatedDurationMins : Nat
  /-- Of the arrangement that is booked. -/
  transportationFee : Option Centavos
  paymentMethods : PaymentMethods
  status : ServiceStatus
  isAvailable : Bool
  deriving Repr, DecidableEq

structure ServiceRequest where
  seekerId : UserId
  status : RequestStatus
  targetServiceId : Option ServiceId
  preferredPaymentMethod : Option PaymentMethod
  paymentMethods : Option PaymentMethods
  /-- `moderationReasonCode === "ADMIN_REMOVED"`. -/
  adminRemoved : Bool := false
  deriving Repr, DecidableEq

structure Offer where
  requestId : RequestId
  providerId : UserId
  serviceId : Option ServiceId
  offeredPrice : Centavos
  estimatedDuration : Nat
  status : OfferStatus := .pending
  paymentHoldExpiresAt : Option Millis := none
  deriving Repr, DecidableEq

/-- `metadata` of a payment intent. -/
structure PaymentMetadata where
  attemptId : AttemptId
  seekerId : UserId
  serviceId : Option ServiceId
  offerId : Option OfferId
  expectedAmount : Centavos
  paymentMethod : String
  deriving Repr, DecidableEq

inductive IntentStatus where
  | awaitingPaymentMethod | awaitingNextAction | processing | succeeded | failed | canceled | expired
  deriving Repr, DecidableEq

/-- A payment intent as the gateway stores it. -/
structure PaymentIntent where
  status : IntentStatus
  paymentId : Option GatewayId := none
  amount : Centavos
  currency : String
  metadata : PaymentMetadata
  deriving Repr, DecidableEq

/-- An attempt, and what the gateway stores under its idempotency keys. -/
structure AttemptSystem where
  file : AttemptFile
  intent : Option PaymentIntent := none
  gatewayRefund : Option GatewayRefund := none
  deriving Repr, DecidableEq

/-- The parameters of `initiateOnlinePayment`. -/
structure PaymentParams where
  seekerId : UserId
  serviceId : Option ServiceId := none
  offerId : Option OfferId := none
  quantity : Nat := 1
  retryPaymentIntentId : Option GatewayId := none
  deriving Repr, DecidableEq

/-- What `initiateOnlinePayment` looks up before its transaction. -/
structure PaymentTarget where
  expiresAt : Millis
  requestId : Option RequestId
  providerId : UserId
  serviceId : Option ServiceId
  deriving Repr, DecidableEq

/-- The parameters of `finalizeSuccessfulPayment`. -/
structure CapturedPayment where
  paymentIntentId : GatewayId
  paymentId : Option GatewayId
  amount : Centavos
  currency : String
  metadata : PaymentMetadata
  deriving Repr, DecidableEq

structure Market where
  now : Millis
  user : UserId → Option User
  service : ServiceId → Option Service
  requests : List ServiceRequest := []
  offers : List Offer := []
  attempts : List AttemptSystem := []
  bookings : List BookingSystem := []

/-- `["PENDING_APPROVAL", "ACCEPTED", "WAITING", "ONGOING", "AWAITING_CONFIRMATION",
    "UNDER_REVIEW", "DISPUTED"].includes(status)`. -/
def BookingStatus.active : BookingStatus → Bool
  | .pendingApproval | .accepted | .waiting | .ongoing | .awaitingConfirmation | .underReview
  | .disputed => true
  | .declined | .canceled | .removed | .completed => false

def QueueStatus.active : QueueStatus → Bool
  | .waiting | .serving => true
  | .done | .cancelled | .removed => false

/-- An offer that holds its request: `["PENDING_PAYMENT", "ACCEPTED"].includes(status)`. -/
def OfferStatus.selected : OfferStatus → Bool
  | .pendingPayment | .accepted => true
  | .pending | .rejected | .withdrawn => false

/-- Two booking rows that the unique indexes do not allow together: one booking per offer and per
    payment attempt, one active booking per seeker and service, one ongoing job per provider. -/
def Booking.clashes (a b : Booking) : Bool :=
  (a.offerId.isSome && a.offerId == b.offerId)
    || (a.paymentAttemptId.isSome && a.paymentAttemptId == b.paymentAttemptId)
    || (a.serviceId.isSome && a.seekerId == b.seekerId && a.serviceId == b.serviceId
      && a.status.active && b.status.active)
    || (a.providerId == b.providerId && a.status == .ongoing && b.status == .ongoing)

/-- Two queue rows that the unique indexes do not allow together. -/
def Queue.clashes (a b : Queue) : Bool :=
  (a.offerId.isSome && a.offerId == b.offerId)
    || a.paymentId == b.paymentId
    || (a.paymongoPaymentId.isSome && a.paymongoPaymentId == b.paymongoPaymentId)
    || (a.providerId == b.providerId && a.position == b.position && a.status.active
      && b.status.active)
    || (a.providerId == b.providerId && a.status == .serving && b.status == .serving)

/-- The queue row of the booking, in the queue of the provider. -/
def BookingSystem.inQueue (p : UserId) (status : QueueStatus) (s : BookingSystem) : Bool :=
  s.file.queue.any fun q => q.providerId == p && q.status == status

namespace Market

def updateAttempt (a : AttemptId) (g : PaymentAttempt → PaymentAttempt) (m : Market) : Market :=
  { m with attempts := m.attempts.modify a fun s =>
      { s with file := { s.file with attempt := g s.file.attempt } } }

def updateOffer (o : OfferId) (g : Offer → Offer) (m : Market) : Market :=
  { m with offers := m.offers.modify o g }

def updateRequest (r : RequestId) (g : ServiceRequest → ServiceRequest) (m : Market) : Market :=
  { m with requests := m.requests.modify r g }

def updateFile (b : BookingId) (g : BookingFile → BookingFile) (m : Market) : Market :=
  { m with bookings := m.bookings.modify b fun s => { s with file := g s.file } }

def findAttempt (m : Market) (a : AttemptId) : Option PaymentAttempt :=
  (m.attempts[a]?).map (·.file.attempt)

/-- `findUnique({ where: { providerIntentId } })`. -/
def findIntent (m : Market) (intentId : GatewayId) : Option AttemptId :=
  m.attempts.findIdx? fun s => s.file.attempt.providerIntentId == some intentId

def countQueue (m : Market) (p : UserId) (status : QueueStatus) : Nat :=
  m.bookings.countP (·.inQueue p status)

/-- `booking.create`, with the queue row that the same transaction creates for it. -/
def createBooking (f : BookingFile) (m : Market) : Except HttpError Market := do
  rejectIf (f.booking.serviceId.any fun s => (m.service s).isNone)
    (httpError "Foreign key constraint failed" 500 (some "P2003"))
  rejectIf (m.bookings.any fun s => s.file.booking.clashes f.booking) uniqueViolation
  rejectIf (m.bookings.any fun s => s.file.queue.any fun q => f.queue.any q.clashes) uniqueViolation
  return { m with bookings := m.bookings ++ [{ file := f }] }

/-- The unique index `offers_one_selected_per_request_key` when the offer becomes selected. -/
def selectedElsewhere (m : Market) (requestId : RequestId) (offerId : OfferId) : Bool :=
  (List.range m.offers.length).any fun o =>
    o != offerId && (m.offers[o]?).any fun x => x.requestId == requestId && x.status.selected

end Market

/-- `marketplaceParticipantsEligible` for two accounts. -/
def marketplaceParticipantsEligible (m : Market) (seekerId providerId : UserId) : Bool :=
  seekerId != providerId && (m.user seekerId).any User.eligibleParticipant
    && (m.user providerId).any User.eligibleParticipant

/-- `assertNewProviderBusiness`. -/
def assertNewProviderBusiness (m : Market) (providerId : UserId) : Except HttpError Unit := do
  rejectIf (¬ (m.user providerId).any User.activeMarketplaceAccount)
    (httpError "This account is no longer eligible for marketplace changes." 403)
  rejectIf (¬ (m.user providerId).any User.marketplaceAccess)
    (httpError "Your provider membership has ended. Choose Basic or Pro to accept new customers. Existing bookings remain available."
      403 (some "PROVIDER_MEMBERSHIP_EXPIRED"))

structure ListingTerms where
  amount : Centavos
  estimatedDurationMins : Nat
  deriving Repr, DecidableEq

/-- `calculateDirectListingTerms`, in centavos. -/
def calculateDirectListingTerms (service : Service) (quantity : Nat) :
    Except HttpError ListingTerms := do
  let invalid := httpError "Choose a valid number of hours or days for this listing" 400
  rejectIf (service.priceType ∉ [.fixed, .perHour, .perDay, .perProject])
    (httpError "This listing needs a provider price confirmation before booking" 400)
  let maxQuantity := match service.priceType with
    | .perDay => 7
    | .perHour => 40
    | _ => 1
  rejectIf (quantity < 1 ∨ quantity > maxQuantity) invalid
  let price ← orThrow service.price (httpError "This listing is missing a valid price" 409)
  let travel := service.transportationFee.getD 0
  rejectIf (travel > 500000) (httpError "The transportation fee is invalid" 400)
  let amount := price * quantity + travel
  rejectIf (amount < 5000 ∨ amount > 5000000)
    (httpError "The booking total must be between ₱50 and ₱50,000" 400)
  return {
    amount
    estimatedDurationMins := match service.priceType with
      | .perHour => 60 * quantity
      | .perDay => 480 * quantity
      | _ => service.estimatedDurationMins }

/-- `getRequestPaymentMethods`. -/
def getRequestPaymentMethods (request : ServiceRequest) : PaymentMethods :=
  let methods := request.paymentMethods.getD ⟨true, true⟩
  { cash := methods.cash && request.preferredPaymentMethod.all (· == .onsiteCash)
    gcash := methods.gcash && request.preferredPaymentMethod.all (· == .gcash) }

/-- `paymentCommission`: the fee, rounded half up to a centavo, and what remains. -/
def paymentCommission (amount : Centavos) (rateBps : Nat) : Except HttpError (Centavos × Centavos) := do
  rejectIf (amount = 0 ∨ rateBps > 10000) (httpError "Invalid commission terms" 500)
  let platformFeeAmount := (amount * rateBps + 5000) / 10000
  return (platformFeeAmount, amount - platformFeeAmount)

end ServiceHub
