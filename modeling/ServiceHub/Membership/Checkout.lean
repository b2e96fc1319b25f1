import ServiceHub.Lib.Machine
import ServiceHub.Lib.Threads
import ServiceHub.Membership.Policy

/-! # Subscription checkouts

The subscription payments of one provider, the quotes that were signed for it, and the gateway's
intents. A checkout and a reconciliation are calls of several statements; the calls in flight, the
provider's other requests, maintenance and moderation take turns. What a grant does to listings is
left out here.
-/

namespace ServiceHub

open Guard

/-- The statuses of a payment intent that the subscription service distinguishes. -/
inductive SubscriptionIntentStatus where
  | awaitingPaymentMethod | cancelled | succeeded | other
  deriving Repr, DecidableEq

structure SubscriptionMetadata where
  subscriptionPaymentId : Nat
  providerId : UserId
  purpose : String
  deriving Repr, DecidableEq

/-- An intent as the gateway stores it under the payment's idempotency key. -/
structure SubscriptionIntent where
  status : SubscriptionIntentStatus := .awaitingPaymentMethod
  paymentId : Option GatewayId := none
  amount : Centavos
  currency : String := "PHP"
  metadata : SubscriptionMetadata
  deriving Repr, DecidableEq

structure QuotePayload where
  plan : PaidProviderPlan
  amount : Centavos
  billingAction : BillingAction
  membershipUpdatedAt : Millis
  periodExpiresAt : Option Millis
  validUntil : Millis
  deriving Repr, DecidableEq

/-- A payment, known by its number, and its intent. -/
structure Checkout where
  payment : SubscriptionPayment
  intent : Option SubscriptionIntent := none
  deriving Repr, DecidableEq

structure Subscriptions where
  now : Millis
  providerId : UserId := 0
  isTestMode : Bool := true
  provider : Provider
  /-- The payloads that carry a valid signature. -/
  quotes : List QuotePayload := []
  checkouts : List Checkout := []
  deriving Repr

/-- Who asked for a reconciliation. -/
inductive ReconcileOrigin where
  | checkout | returnPage | webhook | cancel
  deriving Repr, DecidableEq

/-- The next statement of a call; `i` is the payment. -/
inductive SubscriptionCall where
  | enroll (startedAt : Millis)
  | checkout (plan : PaidProviderPlan) (quoteToken : Option QuotePayload) (startedAt : Millis)
  | intent (i : Nat)
  | saveIntent (i : Nat) (status : SubscriptionIntentStatus) (restored : Bool)
  | route (i : Nat) (status : SubscriptionIntentStatus) (restored : Bool)
  | expire (i : Nat)
  | attach (i : Nat)
  | saveRedirect (i : Nat)
  | caught (i : Nat)
  | reconcile (origin : ReconcileOrigin) (i : Nat)
  | retrieve (origin : ReconcileOrigin) (i : Nat) (owned : SubscriptionPayment)
  | finalize (origin : ReconcileOrigin) (i : Nat) (intent : SubscriptionIntent)
  | unpaid (origin : ReconcileOrigin) (i : Nat) (status : SubscriptionPaymentStatus)
  | reread (origin : ReconcileOrigin) (i : Nat)
  | refund (origin : ReconcileOrigin) (i : Nat)
  | refunded (origin : ReconcileOrigin) (i : Nat)
  | cancelPending (i : Nat)
  deriving Repr, DecidableEq

inductive SubscriptionRefundStatus where
  | succeeded | simulatedTestMode | other
  deriving Repr, DecidableEq

/-- What the gateway answers to a statement. -/
inductive SubscriptionReply where
  | none
  | ok
  /-- The intent with the redirect of its next action. -/
  | redirect
  | refund (status : SubscriptionRefundStatus)
  | failed
  /-- Executed, but the server sees an error. -/
  | timedOut
  deriving Repr, DecidableEq

def quoteValidMs : Millis := 15 * 60000

def SubscriptionPayment.intentOf (providerId : UserId) (i : Nat) (payment : SubscriptionPayment) : SubscriptionIntent where
  amount := payment.amount
  metadata := {
    subscriptionPaymentId := i, providerId, purpose := "provider_subscription" }

namespace Subscriptions

def find (s : Subscriptions) (i : Nat) : Option SubscriptionPayment := (s.checkouts[i]?).map (·.payment)

def update (i : Nat) (g : SubscriptionPayment → SubscriptionPayment) (s : Subscriptions) : Subscriptions :=
  { s with checkouts := s.checkouts.modify i fun c => { c with payment := g c.payment } }

/-- `updateMany({ where: { id, paymentStatus: 'PENDING' }, data })`. -/
def updatePending (i : Nat) (g : SubscriptionPayment → SubscriptionPayment) (s : Subscriptions) : Subscriptions :=
  s.update i fun p => if p.paymentStatus = .pending then g p else p

/-- The pending payment that was created last. -/
def pending (s : Subscriptions) : Option Nat :=
  ((s.checkouts.zipIdx.filter fun (c, _) => c.payment.paymentStatus == .pending).getLast?).map (·.2)

def fail (message : String) (status : Nat) : HttpError := httpError message status

/-- `quoteProviderMembership`, with the signed payload. -/
def quoteProviderMembership (plan : PaidProviderPlan) (s : Subscriptions) : Except HttpError Subscriptions := do
  s.provider.assertActiveMarketplaceAccount
  rejectIf (s.provider.freePlanStartedAt = none)
    (fail "Enter the Provider workspace to start your Free plan before choosing a membership." 403)
  let quote ← membershipQuote s.now plan s.provider
  return { s with quotes := s.quotes ++ [{
    plan, amount := quote.amount, billingAction := quote.billingAction
    membershipUpdatedAt := s.provider.subscriptionUpdatedAt, periodExpiresAt := quote.quotedPeriodExpiresAt
    validUntil := s.now + quoteValidMs }] }

/-- `parseQuote`. -/
def parseQuote (plan : PaidProviderPlan) (s : Subscriptions) : Option QuotePayload → Except HttpError (Option QuotePayload)
  | none => return none
  | some quote => do
      rejectIf (quote ∉ s.quotes) (fail "Refresh the price before continuing." 409)
      rejectIf (quote.plan ≠ plan ∨ quote.validUntil ≤ s.now)
        (fail "This price expired. Review your membership again." 409)
      return some quote

/-- The transaction of `startSubscriptionCheckout`, with the payment and whether its redirect can be used. -/
def startCheckout (plan : PaidProviderPlan) (quoteToken : Option QuotePayload) (startedAt : Millis) (s : Subscriptions) :
    Except HttpError (Subscriptions × Nat × Bool) := do
  s.provider.assertActiveMarketplaceAccount
  rejectIf (s.provider.freePlanStartedAt = none)
    (fail "Start your Free Provider plan before choosing a membership." 403)
  let signed ← s.parseQuote plan quoteToken
  let quote ← membershipQuote startedAt plan s.provider
  rejectIf (signed.any (·.membershipUpdatedAt != s.provider.subscriptionUpdatedAt))
    (fail "Your membership changed. Review the price again." 409)
  match s.pending.bind fun i => (s.find i).map (i, ·) with
  | some (i, existing) => do
      rejectIf (existing.plan ≠ plan)
        (fail "Finish or cancel your pending membership payment before choosing another plan." 409)
      if existing.redirectUrl = true ∧ startedAt < existing.checkoutExpiresAt then return (s, i, true)
      else do
        rejectIf (existing.checkoutClaimedAt.any (startedAt < · + 60000))
          (fail "Your checkout is being prepared. Please try again in a moment." 409)
        return (s.update i ({ · with checkoutClaimedAt := some startedAt }), i, false)
  | none =>
      return ({ s with checkouts := s.checkouts ++ [{ payment := {
        plan, amount := (signed.map (·.amount)).getD quote.amount
        billingAction := (signed.map (·.billingAction)).getD quote.billingAction
        quotedMembershipUpdatedAt := some s.provider.subscriptionUpdatedAt
        quotedPeriodExpiresAt := (signed.bind (·.periodExpiresAt)).or quote.quotedPeriodExpiresAt
        checkoutExpiresAt := startedAt + quoteValidMs, checkoutClaimedAt := some startedAt
        isTestMode := s.isTestMode } }] }, s.checkouts.length, false)

/-- `finalizeSubscriptionPayment` of a succeeded intent, with the payment that it returns. -/
def finalizeSubscriptionPayment (i : Nat) (intent : SubscriptionIntent) (s : Subscriptions) :
    Except HttpError (Subscriptions × SubscriptionPayment) := do
  let current ← orThrow ((s.find i).filter (·.providerIntentId == some i)) (fail "Subscription payment not found." 404)
  let mismatch := fail "Subscription payment details do not match." 409
  let paymentId ← orThrow intent.paymentId mismatch
  rejectIf (intent.amount ≠ current.amount ∨ intent.currency ≠ "PHP"
    ∨ intent.metadata ≠ {
        subscriptionPaymentId := i, providerId := s.providerId, purpose := "provider_subscription" }) mismatch
  if current.paymentStatus.settled = true then return (s, current)
  else if current.applicable s.now s.provider = true then
    let (provider, payment) := current.grant s.now paymentId s.provider
    return ({ s.update i fun _ => payment with provider }, payment)
  else
    let payment := current.refuse s.now paymentId
    return (s.update i fun _ => payment, payment)

end Subscriptions

/-- Where the end of a reconciliation leads. -/
def ReconcileOrigin.returned (i : Nat) (status : SubscriptionPaymentStatus) : ReconcileOrigin → Option SubscriptionCall
  | .cancel => if status = .pending then some (.cancelPending i) else none
  | .checkout | .returnPage | .webhook => none

/-- Where an exception in a reconciliation leads. -/
def ReconcileOrigin.thrown (i : Nat) : ReconcileOrigin → Option SubscriptionCall
  | .checkout => some (.caught i)
  | .returnPage | .webhook | .cancel => none

/-- The refund of a payment that was captured and not applied. -/
def ReconcileOrigin.refunding (i : Nat) (payment : SubscriptionPayment) (origin : ReconcileOrigin) :
    Option SubscriptionCall :=
  if payment.paymentStatus = .refundRequired ∧ payment.paymentReference.isSome = true then some (.refund origin i)
  else origin.returned i payment.paymentStatus

/-- `reconcileSubscriptionPayment` after the intent has been retrieved. -/
def ReconcileOrigin.retrieved (now : Millis) (i : Nat) (owned : SubscriptionPayment) (intent : SubscriptionIntent)
    (origin : ReconcileOrigin) : Option SubscriptionCall :=
  if intent.status = .succeeded then some (.finalize origin i intent)
  else if owned.paymentStatus = .pending ∧ (intent.status = .awaitingPaymentMethod ∨ intent.status = .cancelled
      ∨ owned.checkoutExpiresAt ≤ now) then
    some (.unpaid origin i (match intent.status with
      | .awaitingPaymentMethod => .failed
      | .cancelled => .cancelled
      | _ => .expired))
  else origin.refunding i owned

namespace Subscriptions

/-- The gateway returns the same intent for the same idempotency key. -/
def storeIntent (i : Nat) (s : Subscriptions) : Subscriptions :=
  { s with checkouts := s.checkouts.modify i fun c =>
      { c with intent := some (c.intent.getD (c.payment.intentOf s.providerId i)) } }

def intentStatus (s : Subscriptions) (i : Nat) : Option SubscriptionIntentStatus :=
  ((s.checkouts[i]?).bind (·.intent)).map (·.status)

/-- Execute the next statement of a call. -/
def resume (reply : SubscriptionReply) (s : Subscriptions) :
    SubscriptionCall → Option (Subscriptions × Option SubscriptionCall)
  | .enroll startedAt => some (match s.provider.ensureProviderTrial startedAt with
      | .ok provider => ({ s with provider }, none)
      | .error _ => (s, none))
  | .checkout plan quoteToken startedAt => some (match s.startCheckout plan quoteToken startedAt with
      | .ok (after, i, usable) => (after, if usable then none else some (.intent i))
      | .error _ => (s, none))
  | .intent i =>
      match (s.find i).bind (·.providerIntentId), reply with
      | some _, .ok => (s.intentStatus i).map fun status => (s, some (.saveIntent i status false))
      | some _, .redirect => (s.intentStatus i).map fun status => (s, some (.saveIntent i status true))
      | none, .ok =>
          let stored := s.storeIntent i
          (stored.intentStatus i).map fun status => (stored, some (.saveIntent i status false))
      | none, .timedOut => some (s.storeIntent i, some (.caught i))
      | _, .failed => some (s, some (.caught i))
      | _, _ => none
  | .saveIntent i status restored =>
      some (s.update i ({ · with providerIntentId := some i }), some (.route i status restored))
  | .route i status restored => (s.find i).map fun payment => (s,
      if status = .succeeded then some (.reconcile .checkout i)
      else if payment.checkoutExpiresAt ≤ s.now then some (.expire i)
      else if restored then some (.saveRedirect i) else some (.attach i))
  | .expire i => some (s.updatePending i ({ · with paymentStatus := .expired, checkoutClaimedAt := none }),
      some (.caught i))
  | .attach i =>
      match reply with
      | .ok => some (s, some (.saveRedirect i))
      | .failed => some (s, some (.caught i))
      | _ => none
  | .saveRedirect i => (s.find i).map fun payment =>
      (s.updatePending i ({ · with redirectUrl := true, checkoutClaimedAt := none, failureReason := none }),
        if payment.paymentStatus = .pending then none else some (.caught i))
  | .caught i => some (s.updatePending i
      ({ · with checkoutClaimedAt := none, failureReason := some "CHECKOUT_UNAVAILABLE" }), none)
  | .reconcile origin i => some (s,
      match (s.find i).filter (·.providerIntentId == some i) with
      | none => origin.thrown i
      | some owned =>
          if owned.paymentStatus = .succeeded ∨ owned.paymentStatus = .refunded then
            origin.returned i owned.paymentStatus
          else some (.retrieve origin i owned))
  | .retrieve origin i owned =>
      match reply with
      | .ok => ((s.checkouts[i]?).bind (·.intent)).map fun intent => (s, origin.retrieved s.now i owned intent)
      | .failed => some (s, origin.thrown i)
      | _ => none
  | .finalize origin i intent => some (match s.finalizeSubscriptionPayment i intent with
      | .ok (after, payment) => (after, origin.refunding i payment)
      | .error _ => (s, origin.thrown i))
  | .unpaid origin i status => some (s.updatePending i ({ · with paymentStatus := status }), some (.reread origin i))
  | .reread origin i => (s.find i).map fun payment => (s, origin.refunding i payment)
  | .refund origin i =>
      match reply with
      | .refund status => (s.find i).map fun payment => (s,
          if status = .succeeded ∨ (payment.isTestMode = true ∧ status = .simulatedTestMode) then
            some (.refunded origin i)
          else origin.returned i .refundRequired)
      | .failed => some (s, origin.thrown i)
      | _ => none
  | .refunded origin i => some (s.update i ({ · with paymentStatus := .refunded, refundedAt := some s.now }),
      origin.returned i .refunded)
  | .cancelPending i => some (s.updatePending i (fun p =>
      if p.providerIntentId = some i then { p with paymentStatus := .cancelled } else p), none)

end Subscriptions

structure SubscriptionSystem where
  tables : Subscriptions
  calls : List SubscriptionCall := []

inductive SubscriptionAction where
  | enroll
  | quote (plan : PaidProviderPlan)
  | checkout (plan : PaidProviderPlan) (quoteToken : Option QuotePayload)
  /-- By the return page, the webhook or `cancelSubscriptionCheckout`. -/
  | reconcile (origin : ReconcileOrigin) (i : Nat)
  | resume (k : Nat) (reply : SubscriptionReply)
  | crash (k : Nat)
  | cancelMembership
  /-- `maintainProviderMemberships` on the scanned plan and period. -/
  | maintain (scannedAt : Millis) (plan : ProviderPlan) (expiresAt : Millis)
  | moderate (isActive : Bool) (deactivatedAt : Option Millis) (moderationStatus : AccountModerationStatus)
  /-- The gateway's own progress on an intent. -/
  | gateway (i : Nat) (status : SubscriptionIntentStatus)
  | wait (time : Millis)
  deriving Repr, DecidableEq

/-- A captured payment stays captured and is listed under the intent. -/
def SubscriptionIntent.progress (i : Nat) (status : SubscriptionIntentStatus) (intent : SubscriptionIntent) :
    SubscriptionIntent :=
  if intent.status = .succeeded then intent
  else { intent with status, paymentId := if status = .succeeded then some i else intent.paymentId }

namespace SubscriptionSystem

/-- The steps that are one transaction, or happen outside of the service. -/
def act (s : Subscriptions) : SubscriptionAction → Option Subscriptions
  | .quote plan => (s.quoteProviderMembership plan).toOption
  | .cancelMembership => (s.provider.cancelProviderSubscription s.now).toOption.map fun provider => { s with provider }
  | .maintain scannedAt plan expiresAt =>
      if scannedAt ≤ s.now then
        some { s with provider := s.provider.maintainMembership scannedAt plan expiresAt }
      else none
  | .moderate isActive deactivatedAt moderationStatus =>
      some { s with provider := { s.provider with isActive, deactivatedAt, moderationStatus } }
  | .gateway i status => some { s with
      checkouts := s.checkouts.modify i fun c => { c with intent := c.intent.map (·.progress i status) } }
  | .wait time => some { s with now := s.now + time }
  | _ => none

def step (s : SubscriptionSystem) : SubscriptionAction → Option SubscriptionSystem
  | .enroll => some { s with calls := s.calls ++ [.enroll s.tables.now] }
  | .checkout plan quoteToken => some { s with calls := s.calls ++ [.checkout plan quoteToken s.tables.now] }
  | .reconcile origin i =>
      if origin = .checkout then none else some { s with calls := s.calls ++ [.reconcile origin i] }
  | .resume k reply => (s.calls[k]?).bind fun call =>
      (s.tables.resume reply call).map fun (tables, next) => { tables, calls := Threads.proceed s.calls k next }
  | .crash k => if k < s.calls.length then some { s with calls := s.calls.eraseIdx k } else none
  | a => (act s.tables a).map ({ s with tables := · })

end SubscriptionSystem

/-- A new account, before its free period. -/
def subscriptionMachine : Machine SubscriptionSystem SubscriptionAction where
  initial s := s.tables.provider.subscriptionPlan = .free ∧ s.tables.provider.freePlanStartedAt = none
    ∧ s.tables.provider.subscriptionUpdatedAt ≤ s.tables.now ∧ s.tables.quotes = [] ∧ s.tables.checkouts = []
    ∧ s.calls = []
  next := SubscriptionSystem.step

end ServiceHub
