import ServiceHub.Lib.Guard
import ServiceHub.Schema

/-! # Provider memberships

The membership columns of a provider, what they entitle to at a given time, the quote of a
membership, and what a captured subscription payment does to both. Amounts are centavos.
-/

namespace ServiceHub

open Guard

inductive ProviderPlan where
  | free | basic | pro
  deriving Repr, DecidableEq

inductive PaidProviderPlan where
  | basic | pro
  deriving Repr, DecidableEq

def PaidProviderPlan.plan : PaidProviderPlan → ProviderPlan
  | .basic => .basic
  | .pro => .pro

inductive SubscriptionStatus where
  | active | expired | cancelled
  deriving Repr, DecidableEq

/-- `SubscriptionPayment.billingAction`. -/
inductive BillingAction where
  | new | renewal | downgrade | upgrade
  deriving Repr, DecidableEq

inductive SubscriptionPaymentStatus where
  | pending | succeeded | failed | expired | cancelled | refundRequired | refunded
  deriving Repr, DecidableEq

/-- The columns of `User` that the membership services read. -/
structure Provider where
  role : Role := .user
  isActive : Bool := true
  deactivatedAt : Option Millis := none
  moderationStatus : AccountModerationStatus := .active
  subscriptionPlan : ProviderPlan := .free
  subscriptionStatus : SubscriptionStatus := .active
  subscriptionStartedAt : Option Millis := none
  subscriptionExpiresAt : Option Millis := none
  subscriptionUpdatedAt : Millis
  freePlanStartedAt : Option Millis := none
  freePlanExpiresAt : Option Millis := none
  deriving Repr, DecidableEq

structure SubscriptionPayment where
  plan : PaidProviderPlan := .pro
  amount : Centavos
  paymentReference : Option GatewayId := none
  providerIntentId : Option GatewayId := none
  /-- A redirect that `validRedirect` accepts. -/
  redirectUrl : Bool := false
  paymentStatus : SubscriptionPaymentStatus := .pending
  isTestMode : Bool := true
  checkoutExpiresAt : Millis
  checkoutClaimedAt : Option Millis := none
  failureReason : Option String := none
  billingAction : BillingAction := .new
  quotedMembershipUpdatedAt : Option Millis := none
  quotedPeriodExpiresAt : Option Millis := none
  subscriptionStartedAt : Option Millis := none
  subscriptionExpiresAt : Option Millis := none
  paidAt : Option Millis := none
  refundedAt : Option Millis := none
  deriving Repr, DecidableEq

namespace ProviderPlan

/-- `monthlyPrice`, in centavos. -/
def monthlyPrice : ProviderPlan → Centavos
  | .free => 0
  | .basic => 9900
  | .pro => 19900

def activeListingLimit : ProviderPlan → Option Nat
  | .free => some 1
  | .basic => some 3
  | .pro => none

/-- The number of active listings is within the limit. -/
def allows (plan : ProviderPlan) (active : Nat) : Prop :=
  ∀ limit, plan.activeListingLimit = some limit → active ≤ limit

end ProviderPlan

namespace Provider

def freePeriodMs : Millis := 30 * 24 * 60 * 60 * 1000

def startsAt (p : Provider) : Option Millis :=
  if p.subscriptionPlan = .free then p.freePlanStartedAt else p.subscriptionStartedAt

def expiresAt (p : Provider) : Option Millis :=
  if p.subscriptionPlan = .free then p.freePlanExpiresAt else p.subscriptionExpiresAt

/-- `subscriptionBenefits(state, now).marketplaceAccess`. -/
def marketplaceAccess (now : Millis) (p : Provider) : Bool :=
  (p.subscriptionPlan == .free || p.subscriptionStatus == .active || p.subscriptionStatus == .cancelled)
    && p.startsAt.any (· ≤ now) && p.expiresAt.any (now < ·)

/-- `assertActiveMarketplaceAccount`. -/
def assertActiveMarketplaceAccount (p : Provider) : Except HttpError Unit :=
  rejectIf (p.role ≠ .user ∨ p.isActive = false ∨ p.deactivatedAt.isSome = true ∨ p.moderationStatus ≠ .active)
    (httpError "This account is no longer eligible for marketplace changes." 403)

def assertMembershipAccess (now : Millis) (p : Provider) : Except HttpError Unit :=
  rejectIf (p.marketplaceAccess now = false)
    (httpError "Your provider membership has ended. Choose Basic or Pro to accept new customers. Existing bookings remain available."
      403 (some "PROVIDER_MEMBERSHIP_EXPIRED"))

def listingLimitReached (plan : ProviderPlan) (limit : Nat) : HttpError :=
  let name := if plan = .free then "Free" else "Basic"
  let noun := if limit = 1 then "listing" else "listings"
  httpError s!"Your {name} plan allows {limit} active {noun}. Choose a higher plan to publish more."
    422 (some "PROVIDER_LISTING_LIMIT")

def assertListingCapacity (activeCount : Nat) (now : Millis) (p : Provider) : Except HttpError Unit := do
  p.assertMembershipAccess now
  match p.subscriptionPlan.activeListingLimit with
  | some limit => rejectIf (limit ≤ activeCount) (listingLimitReached p.subscriptionPlan limit)
  | none => return

/-- `ensureProviderTrial`, under the lock of the account. -/
def ensureProviderTrial (now : Millis) (p : Provider) : Except HttpError Provider := do
  p.assertActiveMarketplaceAccount
  if p.freePlanStartedAt.isSome then return p
  else return { p with
    freePlanStartedAt := some now, freePlanExpiresAt := some (now + freePeriodMs), subscriptionUpdatedAt := now }

def assertNewProviderBusiness (now : Millis) (p : Provider) : Except HttpError Provider := do
  let user ← p.ensureProviderTrial now
  user.assertMembershipAccess now
  return user

/-- The transaction of `cancelProviderSubscription`. -/
def cancelProviderSubscription (now : Millis) (p : Provider) : Except HttpError Provider := do
  p.assertActiveMarketplaceAccount
  rejectIf (p.marketplaceAccess now = false ∨ p.subscriptionPlan = .free)
    (httpError "There is no active paid membership to cancel." 409)
  return { p with subscriptionStatus := .cancelled, subscriptionUpdatedAt := now }

/-- The transaction of `maintainProviderMemberships` for a provider whose plan and period have been
    scanned at `scannedAt`. -/
def maintainMembership (scannedAt : Millis) (plan : ProviderPlan) (expiresAt : Millis) (p : Provider) : Provider :=
  if p.role ≠ .user ∨ p.isActive = false ∨ p.deactivatedAt.isSome ∨ p.moderationStatus ≠ .active then p
  else if p.subscriptionPlan ≠ plan ∨ p.expiresAt ≠ some expiresAt then p
  else if expiresAt ≤ scannedAt then { p with subscriptionStatus := .expired }
  else p

/-- The row after a transaction has written its membership columns; the columns of the moderation stay. -/
def writtenOver (current user : Provider) : Provider :=
  { user with
    isActive := current.isActive, deactivatedAt := current.deactivatedAt
    moderationStatus := current.moderationStatus }

end Provider

section Calendar

/-- The number of days from 1970-01-01 to the first day of the month, March being month 0. -/
def daysToMonth (year month : Nat) : Nat :=
  365 * year + year / 4 - year / 100 + year / 400 + (153 * month + 2) / 5 - 719468

/-- Year and month of a day, counted from March, and the day of the month from 0. -/
def civilDate (days : Nat) : Nat × Nat × Nat :=
  let z := days + 719468
  let doe := z % 146097
  let yoe := (doe - doe / 1460 + doe / 36524 - doe / 146096) / 365
  let doy := doe - (365 * yoe + yoe / 4 - yoe / 100)
  let month := (5 * doy + 2) / 153
  (yoe + 400 * (z / 146097), month, doy - (153 * month + 2) / 5)

def dayMs : Millis := 86400000

/-- The first day of the month, `ahead` months after the one of the date. -/
def firstOfMonth (year month ahead : Nat) : Nat :=
  daysToMonth (year + (month + ahead) / 12) ((month + ahead) % 12)

/-- `oneCalendarMonthFrom`: the same day of the next month in Philippine time, or its last day. -/
def oneCalendarMonthFrom (start : Millis) : Millis :=
  let offset := 8 * 60 * 60 * 1000
  let local_ := start + offset
  let (year, month, day) := civilDate (local_ / dayMs)
  let first := firstOfMonth year month 1
  let last := firstOfMonth year month 2 - first - 1
  (first + min day last) * dayMs + local_ % dayMs - offset

end Calendar

structure MembershipQuote where
  plan : PaidProviderPlan
  amount : Centavos
  billingAction : BillingAction
  quotedPeriodExpiresAt : Option Millis
  quotedMembershipUpdatedAt : Millis
  deriving Repr, DecidableEq

/-- The price of an upgrade for the rest of the period, rounded half up to centavos. -/
def upgradeAmount (remaining duration : Millis) : Centavos :=
  let scaled := (ProviderPlan.pro.monthlyPrice - ProviderPlan.basic.monthlyPrice) * remaining
  (2 * scaled + duration) / (2 * duration)

/-- `membershipQuote`. -/
def membershipQuote (now : Millis) (target : PaidProviderPlan) (p : Provider) :
    Except HttpError MembershipQuote := do
  let access := p.marketplaceAccess now
  rejectIf (access = true ∧ p.subscriptionPlan = target.plan)
    (httpError "This plan is already active. Renew after it expires." 409)
  rejectIf (access = true ∧ p.subscriptionPlan = .pro ∧ target = .basic)
    (httpError "Your Pro benefits stay active until expiry. Choose Basic after that date." 409)
  if access = true ∧ p.subscriptionPlan = .basic ∧ target = .pro then do
    let expiresAt := p.subscriptionExpiresAt.getD 0
    let amount := upgradeAmount (expiresAt - now) (expiresAt - p.subscriptionStartedAt.getD 0)
    rejectIf (amount < 100)
      (httpError "Your Basic month is nearly over. Choose Pro after it expires to start a new month." 409)
    return {
      plan := target, amount, billingAction := .upgrade, quotedPeriodExpiresAt := p.subscriptionExpiresAt
      quotedMembershipUpdatedAt := p.subscriptionUpdatedAt }
  else return {
    plan := target, amount := target.plan.monthlyPrice
    billingAction := if p.subscriptionPlan = target.plan then .renewal
      else if p.subscriptionPlan = .pro ∧ target = .basic then .downgrade else .new
    quotedPeriodExpiresAt := none, quotedMembershipUpdatedAt := p.subscriptionUpdatedAt }

/-- `["SUCCEEDED", "REFUNDED", "REFUND_REQUIRED"].includes(paymentStatus)`. -/
def SubscriptionPaymentStatus.settled : SubscriptionPaymentStatus → Bool
  | .succeeded | .refunded | .refundRequired => true
  | .pending | .failed | .expired | .cancelled => false

/-- The captured payment still buys what it was quoted for. -/
def SubscriptionPayment.applicable (now : Millis) (user : Provider) (current : SubscriptionPayment) : Bool :=
  let access := user.marketplaceAccess now
  let sameQuote := current.quotedMembershipUpdatedAt.all (· == user.subscriptionUpdatedAt)
  let validUpgrade := access && user.subscriptionPlan == .basic && current.plan == .pro
    && current.quotedPeriodExpiresAt == user.subscriptionExpiresAt
  current.paymentStatus != .cancelled && user.role == .user && user.isActive && user.deactivatedAt.isNone
    && user.moderationStatus == .active && sameQuote
    && (if current.billingAction = .upgrade then validUpgrade else !(access && user.subscriptionPlan != .free))

/-- The period that the payment buys. -/
def SubscriptionPayment.period (now : Millis) (user : Provider) (current : SubscriptionPayment) :
    Option Millis × Option Millis :=
  if current.billingAction = .upgrade then (user.subscriptionStartedAt, current.quotedPeriodExpiresAt)
  else (some now, some (oneCalendarMonthFrom now))

/-- The grant of `finalizeSubscriptionPayment`. -/
def SubscriptionPayment.grant (now : Millis) (paymentId : GatewayId) (user : Provider)
    (current : SubscriptionPayment) : Provider × SubscriptionPayment :=
  let (startsAt, expiresAt) := current.period now user
  ({ user with
      subscriptionPlan := current.plan.plan, subscriptionStatus := .active, subscriptionStartedAt := startsAt
      subscriptionExpiresAt := expiresAt, subscriptionUpdatedAt := now },
    { current with
      paymentStatus := .succeeded, paymentReference := some paymentId, paidAt := some now
      subscriptionStartedAt := startsAt, subscriptionExpiresAt := expiresAt, failureReason := none
      checkoutClaimedAt := none })

/-- A captured payment that is not applied is to be refunded. -/
def SubscriptionPayment.refuse (now : Millis) (paymentId : GatewayId) (current : SubscriptionPayment) :
    SubscriptionPayment :=
  { current with
    paymentStatus := .refundRequired, paymentReference := some paymentId, paidAt := some now
    failureReason := some "PAID_SUBSCRIPTION_NOT_APPLIED" }

end ServiceHub
