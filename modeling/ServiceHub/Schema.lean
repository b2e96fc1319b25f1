/-! # Columns of the database schema

The enumerations of the Prisma schema, the string columns with a fixed set of
values as enumerations of their own, and the error the services throw. Identifiers
are numbers, amounts are centavos, instants and durations are milliseconds unless a
name says minutes.
-/

namespace ServiceHub

abbrev UserId := Nat
abbrev ServiceId := Nat
abbrev RequestId := Nat
abbrev OfferId := Nat
abbrev AttemptId := Nat
abbrev BookingId := Nat
abbrev Centavos := Nat
abbrev Millis := Nat
/-- Identifiers handed out by the gateway: intents, payments, refunds. -/
abbrev GatewayId := Nat

structure HttpError where
  message : String
  status : Nat
  code : Option String
  deriving Repr, DecidableEq

def httpError (message : String) (status : Nat) (code : Option String := none) : HttpError :=
  ⟨message, status, code⟩

/-- A write that the database rejects on a unique index. -/
def uniqueViolation : HttpError :=
  httpError "Unique constraint failed" 500 (some "P2002")

/-- An update or `findUniqueOrThrow` of a row that does not exist. -/
def recordNotFound : HttpError :=
  httpError "Record to update not found" 500 (some "P2025")

inductive BookingStatus where
  | pendingApproval | waiting | ongoing | accepted | awaitingConfirmation | underReview
  | disputed | declined | canceled | removed | completed
  deriving Repr, DecidableEq

inductive PaymentStatus where
  | unpaid | paidHeld | frozenHeld | cashConfirmed | released | refunded
  deriving Repr, DecidableEq

inductive QueueStatus where
  | waiting | serving | done | cancelled | removed
  deriving Repr, DecidableEq

/-- `Booking.paymentMethod`. -/
inductive PaymentMethod where
  | gcash | onsiteCash
  deriving Repr, DecidableEq

inductive RequestStatus where
  | open | paymentPending | inProgress | closed | canceled
  deriving Repr, DecidableEq

inductive OfferStatus where
  | pending | pendingPayment | accepted | rejected | withdrawn
  deriving Repr, DecidableEq

inductive DirectRequestStatus where
  | pendingApproval | accepted | declined
  deriving Repr, DecidableEq

inductive PaymentAttemptStatus where
  | pending | succeeded | failed | expired | refundRequired | refunded
  deriving Repr, DecidableEq

/-- `PaymentRefund.status`: the reservation states and the gateway's own, upper-cased. -/
inductive RefundStatus where
  | pending | processing | failed | succeeded | simulatedTestMode
  deriving Repr, DecidableEq

inductive TransactionType where
  | earning | withdrawal | refund
  deriving Repr, DecidableEq

inductive ReportReason where
  | poorServiceQuality | incompleteService | scamOrFraud | inappropriateBehavior | overpricing | noShow
  deriving Repr, DecidableEq

inductive ReportType where
  | safety | completionDispute | cancellationEscalation
  deriving Repr, DecidableEq

inductive ReportStatus where
  | pending | underReview | resolved | dismissed
  deriving Repr, DecidableEq

inductive CancellationStatus where
  | pending | approved | declined | escalated | underReview | resolved
  deriving Repr, DecidableEq

/-- `CancellationRequest.resolutionOutcome`. -/
inductive CancellationOutcome where
  | immediateCancelPending | immediateCancel | participantApproved | approved | denied
  deriving Repr, DecidableEq

inductive EscalationStatus where
  | pending | underReview | resolved | dismissed
  deriving Repr, DecidableEq

/-- `CompletionEscalation.resolution`. -/
inductive EscalationResolution where
  | releaseProviderAndComplete | refundSeeker | keepAwaiting | seekerConfirmed | supersededBySeekerDispute
  deriving Repr, DecidableEq

inductive OperationStatus where
  | processing | failedRetryable | failedNonretryable | completed
  deriving Repr, DecidableEq

/-- `ADMIN_RESOLUTION_STAGE_ORDER`. -/
inductive OperationStage where
  | claimed | decisionReady | financialEffectReserved | financialEffectEstablished | caseFinalized
  deriving Repr, DecidableEq

def OperationStage.rank : OperationStage → Nat
  | .claimed => 0
  | .decisionReady => 1
  | .financialEffectReserved => 2
  | .financialEffectEstablished => 3
  | .caseFinalized => 4

/-- `AdminResolutionOperation.requestedOutcome`, over all four case types. -/
inductive RequestedOutcome where
  | participantApprove | adminApprove | adminDeny
  | dismiss | resolveSafety | cancelBooking | releaseProviderAndComplete
  | refundSeeker | keepAwaiting
  deriving Repr, DecidableEq

/-- `AdminResolutionOperation.requestedPenalty`, with `none` for both null and "none". -/
inductive RequestedPenalty where
  | none | warn | trustDeduct | suspend | ban | cancellationFaultSeeker | cancellationFaultProvider
  deriving Repr, DecidableEq

inductive AccountModerationStatus where
  | active | suspended | banned
  deriving Repr, DecidableEq

inductive VerificationStatus where
  | unverified | pendingReview | approved | rejected
  deriving Repr, DecidableEq

inductive Role where
  | user | admin
  deriving Repr, DecidableEq

/-- The columns of `User` that the booking and payment services read. -/
structure User where
  role : Role := .user
  isActive : Bool := true
  deactivatedAt : Option Millis := none
  moderationStatus : AccountModerationStatus := .active
  emailVerified : Bool := true
  verificationStatus : VerificationStatus := .approved
  onlineQueueLimit : Nat := 5
  /-- `subscriptionBenefits(user).marketplaceAccess`, evaluated at the time of the read. -/
  marketplaceAccess : Bool := true
  commissionRateBps : Nat := 0
  deriving Repr, DecidableEq

/-- The check that every service repeats on the provider of new work. -/
def User.eligibleProvider (u : User) : Bool :=
  u.isActive && u.moderationStatus == .active && u.emailVerified && u.verificationStatus == .approved

/-- One account of `marketplaceParticipantsEligible`. -/
def User.eligibleParticipant (u : User) : Bool :=
  u.role == .user && u.isActive && u.moderationStatus == .active && u.emailVerified
    && u.verificationStatus == .approved

/-- `assertActiveMarketplaceAccount`. -/
def User.activeMarketplaceAccount (u : User) : Bool :=
  u.role == .user && u.isActive && u.deactivatedAt.isNone && u.moderationStatus == .active

end ServiceHub
