import ServiceHub.Lib.Threads
import ServiceHub.Market.Offers

/-! # The marketplace as a machine

A step is a service that commits its one transaction, a step of a booking with the rows
it reads elsewhere, one statement of a call of the payment services, the gateway's own
progress on an intent, or a change of an account, a listing or the clock.
-/

namespace ServiceHub

open Guard

/-- Who reads the outcome of an intent: a webhook, the return page, or a payment that reused a
    pending attempt. -/
inductive Origin where
  | webhook
  | returnPage (seekerId : UserId)
  | initiate (params : PaymentParams)
  deriving Repr, DecidableEq

/-- The next statement or transaction of a call of the payment services. -/
inductive PaymentCall where
  | initiate (params : PaymentParams)
  | prepare (params : PaymentParams) (target : PaymentTarget)
  | createIntent (attempt : AttemptId)
  | createMethod (attempt : AttemptId)
  | attach (attempt : AttemptId)
  | saveIntent (attempt : AttemptId) (redirectUrl : Option String)
  | initiateFailed (attempt : AttemptId) (code : String)
  | reconcile (origin : Origin) (intentId : GatewayId)
  | retrieve (origin : Origin) (intentId : GatewayId)
  | finalize (origin : Origin) (payment : CapturedPayment)
  | refund (origin : Origin) (intentId : GatewayId) (attempt : AttemptId)
      (stage : AttemptRefundStage)
  | markFailed (origin : Origin) (intentId : GatewayId) (reason : String)
  | commitFailed (origin : Origin) (intentId : GatewayId) (attempt : AttemptId) (reason : String)
  | reconciled (origin : Origin) (intentId : GatewayId)
  | expire (candidates : List AttemptId)
  deriving Repr, DecidableEq

/-- The tables and the calls of the payment services in flight. -/
structure MarketSystem where
  market : Market
  calls : List PaymentCall := []

/-- What the gateway answers to a statement of a payment call. -/
inductive Reply where
  | none
  | ok
  | redirect (url : Option String)
  | failed
  /-- Executed, but the server sees an error. -/
  | timedOut
  | refund (answer : Answer)
  deriving Repr, DecidableEq

namespace Market

/-- What a transaction of the booking reads in other rows. -/
def context (m : Market) (b : BookingId) (s : BookingSystem) (updatedAt : Millis) : Context where
  now := m.now
  updatedAt
  user := m.user
  otherOngoing := (m.bookings.eraseIdx b).countP fun other =>
    other.file.booking.providerId == s.file.booking.providerId
      && (other.file.booking.status == .ongoing
        || (other.file.booking.started && other.file.booking.paymentMethod == .onsiteCash
          && other.file.booking.status.frozen)
        || other.file.queue.any (·.status == .serving))
  paidWaiting := m.countQueue s.file.booking.providerId .waiting
  firstWaiting := (m.waitingEntries s.file.booking.providerId).head? == some b
  serving := m.countQueue s.file.booking.providerId .serving
  ongoingElsewhere := (m.bookings.eraseIdx b).any fun other =>
    other.file.booking.providerId == s.file.booking.providerId
      && other.file.booking.status == .ongoing
  unstartedElsewhere userId := (m.bookings.eraseIdx b).countP (·.file.booking.blocksSuspension userId)
  paymentTerms := (s.file.booking.paymentAttemptId.bind m.findAttempt).map fun attempt =>
    (attempt.commissionRateBps, attempt.platformFeeAmount, attempt.providerNetAmount)

/-- The unique indexes on the queue row that a step of the booking has written. -/
def queueRowFree (m : Market) (b : BookingId) (s : BookingSystem) : Bool :=
  s.file.queue.all fun q => !q.status.active || !m.positionTaken q.providerId b q.position

/-- The rows outside the booking that a commit writes: its request, and a moderated account. -/
def writeEffects (booking : Booking) (effects : Effects) (m : Market) : Market :=
  let requested := match effects.requestStatus, booking.offerId.bind (m.offers[·]?) with
    | some status, some offer => m.updateRequest offer.requestId ({ · with status })
    | _, _ => m
  match effects.moderation with
  | some (userId, status) => { requested with
      user := Function.update requested.user userId
        ((requested.user userId).map ({ · with moderationStatus := status })) }
  | none => requested

def applyEffects (booking : Booking) (effects : Effects) (m : Market) : Except HttpError Market :=
  let written := m.writeEffects booking effects
  if effects.recalculates then written.recalculateQueue booking.providerId else return written

/-- A step of the booking; a transaction that violates an index is not committed. -/
def stepBooking (b : BookingId) (st : Step) (updatedAt : Millis) (m : Market) : Option Market :=
  (m.bookings[b]?).bind fun s =>
    if st.isRefund then none
    else (s.step (m.context b s updatedAt) st).bind fun (s', effects) =>
      if m.queueRowFree b s' then
        ({ m with bookings := m.bookings.set b s' }.applyEffects s.file.booking effects).toOption
      else none

/-- `setProviderWorkloadCapacity`. -/
def setProviderWorkloadCapacity (p : UserId) (limit : Nat) (m : Market) : Except HttpError Market := do
  rejectIf (limit < 1 ∨ limit > 10) (httpError "Invalid capacity" 400)
  let user ← orThrow (m.user p) recordNotFound
  { m with user := Function.update m.user p (some { user with onlineQueueLimit := limit }) }.recalculateQueue p

end Market

/-- How `initiateOnlinePayment` goes on after its transaction. -/
def Prepared.next (params : PaymentParams) (prepared : Prepared) : Option PaymentCall :=
  match prepared.reused, prepared.providerIntentId, prepared.redirectUrl with
  | true, some intentId, _ => some (.reconcile (.initiate params) intentId)
  | true, none, some _ => none
  | _, _, _ => some (.createIntent prepared.attempt)

/-- The status is read again after a reconciliation. -/
def Origin.after (intentId : GatewayId) : Origin → Option PaymentCall
  | .webhook => none
  | origin => some (.reconciled origin intentId)

/-- The seeker of `getPaymentAttemptStatus`. -/
def Origin.seeker : Origin → Option UserId
  | .webhook => none
  | .returnPage seekerId => some seekerId
  | .initiate params => some params.seekerId

/-- `getPaymentAttemptStatus`. -/
def getPaymentAttemptStatus (origin : Origin) (intentId : GatewayId) (m : Market) :
    Option PaymentAttemptStatus :=
  ((m.findIntent intentId).bind m.findAttempt).bind fun attempt =>
    if origin.seeker = some attempt.seekerId then some attempt.status else none

/-- `["awaiting_payment_method", "failed", "canceled", "cancelled", "expired"].includes(status)`. -/
def IntentStatus.unpaid : IntentStatus → Bool
  | .awaitingPaymentMethod | .failed | .canceled | .expired => true
  | .awaitingNextAction | .processing | .succeeded => false

/-- Where the answer of `getPaymentIntent` leads. -/
def retrieved (origin : Origin) (intentId : GatewayId) (intent : PaymentIntent) : Option PaymentCall :=
  if intent.status = .succeeded then
    some (.finalize origin {
      paymentIntentId := intentId, paymentId := intent.paymentId, amount := intent.amount
      currency := intent.currency, metadata := intent.metadata })
  else if origin = .webhook then none
  else if intent.status.unpaid then
    some (.markFailed origin intentId "PAYMENT_METHOD_FAILED_OR_EXPIRED")
  else origin.after intentId

/-- Where a finalization leads. -/
def Finalized.next (origin : Origin) (intentId : GatewayId) (result : Finalized) :
    Option PaymentCall :=
  match result.refundRequired, result.attempt with
  | true, some a => some (.refund origin intentId a .read)
  | _, _ => origin.after intentId

/-- The intent that `createPaymentIntent` creates under the attempt's key. -/
def PaymentAttempt.newIntent (a : AttemptId) (attempt : PaymentAttempt) : PaymentIntent where
  status := .awaitingPaymentMethod
  amount := attempt.amount
  currency := "PHP"
  metadata := {
    attemptId := a, seekerId := attempt.seekerId, serviceId := attempt.serviceId
    offerId := attempt.offerId, expectedAmount := attempt.amount, paymentMethod := "gcash" }

namespace Market

/-- The gateway returns the same intent for the same idempotency key. -/
def storeIntent (a : AttemptId) (m : Market) : Market :=
  { m with attempts := m.attempts.modify a fun s =>
      { s with intent := some (s.intent.getD (s.file.attempt.newIntent a)) } }

/-- A transaction of a call; an exception ends the call. -/
def commit (run : Except HttpError (Market × Option PaymentCall)) (m : Market) :
    Market × Option PaymentCall :=
  match run with
  | .ok done => done
  | .error _ => (m, none)

/-- Execute one statement of `refundCapturedAttempt`. -/
def resumeRefund (origin : Origin) (intentId : GatewayId) (a : AttemptId)
    (stage : AttemptRefundStage) (answer : Answer) (m : Market) :
    Option (Market × Option PaymentCall) :=
  (m.attempts[a]?).bind fun s =>
    (stage.resume answer s.gatewayRefund s.file).map fun (file, gatewayRefund, next) =>
      ({ m with attempts := m.attempts.set a { s with file, gatewayRefund } },
        match next with
        | some stage => some (.refund origin intentId a stage)
        | none => if stage = AttemptRefundStage.caught then none else origin.after intentId)

/-- Execute the next statement of a payment call: the tables and where the call goes on. -/
def resume (reply : Reply) (m : Market) : PaymentCall → Option (Market × Option PaymentCall)
  | .initiate params => some (m.commit do
      let target ← readPaymentTarget params m
      return (m, some (.prepare params target)))
  | .prepare params target => some (m.commit do
      let (after, prepared) ← preparePayment params target m
      return (after, prepared.next params))
  | .createIntent a =>
      match reply with
      | .ok => some (m.storeIntent a, some (.createMethod a))
      | .timedOut => some (m.storeIntent a, some (.initiateFailed a "PAYMONGO_UNAVAILABLE"))
      | .failed => some (m, some (.initiateFailed a "PAYMONGO_API_ERROR"))
      | _ => none
  | .createMethod a =>
      match reply with
      | .ok => some (m, some (.attach a))
      | .failed => some (m, some (.initiateFailed a "PAYMONGO_API_ERROR"))
      | _ => none
  | .attach a =>
      match reply with
      | .redirect url => some (m, some (.saveIntent a url))
      | .failed => some (m, some (.initiateFailed a "PAYMONGO_API_ERROR"))
      | _ => none
  | .saveIntent a redirectUrl => some (m.updateAttempt a fun attempt =>
      { attempt with providerIntentId := some a
                     redirectUrl := redirectUrl.or attempt.redirectUrl }, none)
  | .initiateFailed a code => some (recordInitiationFailure a code m, none)
  | .reconcile origin intentId => some (m,
      (getPaymentAttemptStatus origin intentId m).bind fun status =>
        if status = .pending ∨ status = .expired ∨ status = .failed then
          some (.retrieve origin intentId)
        else origin.after intentId)
  | .retrieve origin intentId =>
      match reply with
      | .ok => ((m.attempts[intentId]?).bind (·.intent)).map fun intent =>
          (m, retrieved origin intentId intent)
      | .failed => some (m, none)
      | _ => none
  | .finalize origin payment => some (m.commit do
      let a ← orThrow (m.findIntent payment.paymentIntentId)
        (httpError "Payment attempt is not registered" 409 (some "UNREGISTERED_PAYMENT"))
      let (after, result) ← finalizeAttempt a payment m
      return (after, result.next origin payment.paymentIntentId))
  | .refund origin intentId a stage =>
      m.resumeRefund origin intentId a stage (match reply with
        | .refund answer => answer
        | _ => .none)
  | .markFailed origin intentId reason => some (m,
      match (m.findIntent intentId).filter fun a => (m.findAttempt a).any (·.status == .pending) with
      | some a => some (.commitFailed origin intentId a reason)
      | none => origin.after intentId)
  | .commitFailed origin intentId a reason =>
      some (markAttemptFailed a reason m, origin.after intentId)
  | .reconciled origin intentId => some (m,
      match origin, getPaymentAttemptStatus origin intentId m with
      | .initiate params, some .failed | .initiate params, some .expired => some (.initiate params)
      | _, _ => none)
  | .expire [] => some (m, none)
  | .expire (a :: rest) => some (expireCandidate a m, some (.expire rest))

end Market

/-- The entry points of the payment services. -/
inductive PaymentEntry where
  | initiateOnlinePayment (params : PaymentParams)
  | reconcileOnlinePaymentReturn (seekerId : UserId) (intentId : GatewayId)
  /-- `payment_intent.succeeded` and `payment.paid`. -/
  | paidWebhook (intentId : GatewayId)
  /-- `payment_intent.payment_failed` and `payment.failed`. -/
  | failedWebhook (intentId : GatewayId) (eventType : String)
  | expireStalePaymentAttempts
  deriving Repr, DecidableEq

def PaymentEntry.first (m : Market) : PaymentEntry → PaymentCall
  | .initiateOnlinePayment params => .initiate params
  | .reconcileOnlinePaymentReturn seekerId intentId => .reconcile (.returnPage seekerId) intentId
  | .paidWebhook intentId => .retrieve .webhook intentId
  | .failedWebhook intentId eventType => .markFailed .webhook intentId eventType
  | .expireStalePaymentAttempts => .expire <|
      (m.attemptsWhere fun x => x.status == .pending && x.expiresAt ≤ m.now).take 100

inductive MarketAction where
  | pay (entry : PaymentEntry)
  | resume (k : Nat) (reply : Reply)
  | crash (k : Nat)
  /-- The gateway's own progress on an intent. -/
  | intent (a : AttemptId) (status : IntentStatus)
  | booking (b : BookingId) (st : Step) (updatedAt : Millis)
  | setCapacity (p : UserId) (limit : Nat)
  | createDirectRequest (seekerId providerId : UserId) (serviceId : ServiceId) (quantity : Nat)
  | createDirectFromOffer (o : OfferId) (seekerId : UserId)
  | createRequest (seekerId : UserId) (targetServiceId : Option ServiceId)
      (paymentMethods : Option PaymentMethods)
  | submitOffer (providerId : UserId) (requestId : RequestId) (serviceId : Option ServiceId)
      (offeredPrice : Centavos) (estimatedDuration : Nat)
  | rejectOffer (o : OfferId) (userId : UserId)
  | updateRequest (r : RequestId) (status : Option RequestStatus)
      (paymentMethods : Option PaymentMethods)
  | cancelRequest (r : RequestId)
  | publicContentAction (r : RequestId) (restore : Bool)
  | updateUser (userId : UserId) (user : User)
  | updateService (serviceId : ServiceId) (service : Service)
  | wait (time : Millis)

/-- The gateway executes a payment or gives it up; a captured payment stays captured and is listed
    under the intent. -/
def PaymentIntent.progress (a : AttemptId) (status : IntentStatus) (intent : PaymentIntent) :
    PaymentIntent :=
  if intent.status = .succeeded then intent
  else { intent with
    status, paymentId := if status = .succeeded then some a else intent.paymentId }

/-- The steps that are one transaction, or a change outside the modelled services. -/
def Market.act (m : Market) : MarketAction → Option Market
  | .pay _ | .resume _ _ | .crash _ => none
  | .intent a status => some { m with
      attempts := m.attempts.modify a fun s => { s with intent := s.intent.map (·.progress a status) } }
  | .booking b st updatedAt => m.stepBooking b st updatedAt
  | .setCapacity p limit => (m.setProviderWorkloadCapacity p limit).toOption
  | .createDirectRequest seekerId providerId serviceId quantity =>
      (createDirectRequest seekerId providerId serviceId quantity m).toOption
  | .createDirectFromOffer o seekerId => (createDirectFromOfferService o seekerId m).toOption
  | .createRequest seekerId targetServiceId paymentMethods =>
      some (createRequest seekerId targetServiceId paymentMethods m)
  | .submitOffer providerId requestId serviceId offeredPrice estimatedDuration =>
      (submitOffer providerId requestId serviceId offeredPrice estimatedDuration m).toOption
  | .rejectOffer o userId => (rejectOffer o userId m).toOption
  | .updateRequest r status paymentMethods =>
      (updateServiceRequest r status paymentMethods m).toOption
  | .cancelRequest r => (cancelRequest r m).toOption
  | .publicContentAction r restore => (applyPublicContentAction r restore m).toOption
  | .updateUser userId user => some { m with user := Function.update m.user userId (some user) }
  | .updateService serviceId service =>
      -- the provider of a listing never changes
      if (m.service serviceId).all (·.providerId == service.providerId) then
        some { m with service := Function.update m.service serviceId (some service) }
      else none
  | .wait time => some { m with now := m.now + time }

def MarketSystem.step (s : MarketSystem) : MarketAction → Option MarketSystem
  | .pay entry => some { s with calls := s.calls ++ [entry.first s.market] }
  | .resume k reply =>
      (s.calls[k]?).bind fun call =>
        (s.market.resume reply call).map fun (market, next) =>
          { market, calls := Threads.proceed s.calls k next }
  | .crash k => if k < s.calls.length then some { s with calls := Threads.proceed s.calls k none } else none
  | a => (s.market.act a).map ({ s with market := · })

/-- The marketplace from empty tables of requests, offers, attempts and bookings. -/
def marketMachine : Machine MarketSystem MarketAction where
  initial s := s.market.requests = [] ∧ s.market.offers = [] ∧ s.market.attempts = []
    ∧ s.market.bookings = [] ∧ s.calls = []
  next := MarketSystem.step

end ServiceHub
