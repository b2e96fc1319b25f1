import Mathlib.Data.List.Dedup
import Mathlib.Data.List.Sort
import ServiceHub.Booking.Commit

/-! # The advisory locks of every transaction

Each `pg_advisory_xact_lock` of the services and controllers is a `Lock`, named by the text it
is hashed from. `DbTransaction.locks` is the order in which a transaction asks for them when no
check stops it; a check that fails is a rollback somewhere along the way. What a transaction
reads before it decides whether to lock is a parameter of its constructor. Transactions
without an advisory lock are not listed: they neither wait nor make another one wait.
-/

namespace ServiceHub

/-- `offerId || serviceId` of a payment. -/
inductive PaymentKey where
  | offer (offerId : OfferId)
  | service (serviceId : ServiceId)
  deriving Repr, DecidableEq

/-- `directRequest?.id || targetBooking?.id`. -/
inductive ResponseTarget where
  | directRequest (id : Nat)
  | booking (bookingId : BookingId)
  deriving Repr, DecidableEq

inductive Lock where
  | contentCaseDecision (caseId : Nat)
  | contentCase (userId : UserId)
  | trustCase (caseId : Nat)
  | verification (userId : UserId)
  | review (reviewId : Nat)
  | announcement (announcementId : Nat)
  | request (requestId : RequestId)
  | bookingLifecycle (bookingId : BookingId)
  /-- `account-deletion:`, the account lifecycle lock. -/
  | account (userId : UserId)
  | authSession (userId : UserId)
  | aiReviewSummaryCommit
  | providerListings (userId : UserId)
  | seekerRequests (userId : UserId)
  | listingPhotos (userId : UserId)
  | directBooking (seekerId : UserId) (serviceId : ServiceId)
  | providerStart (providerId : UserId)
  | directResponse (target : ResponseTarget)
  | paymentAttempt (attemptId : AttemptId)
  | payment (seekerId : UserId) (target : PaymentKey)
  | offerSelection (offerId : OfferId)
  | offerBooking (offerId : OfferId)
  | providerQueue (providerId : UserId)
  /-- The two identifiers in sorted order. -/
  | trustPair (first second : UserId)
  | trust (userId : UserId)
  | category (categoryId : Nat)
  /-- A category concept; the default categories are numbered first, in the order of their
  sorted names. -/
  | categoryConcept (concept : Nat)
  deriving Repr, DecidableEq

/-! ## Helpers that lock -/

@[simp] def optional (present : Bool) (locks : List Lock) : List Lock := if present then locks else []

@[simp] def lockBookingLifecycle (bookingId : BookingId) : List Lock := [.bookingLifecycle bookingId]

/-- Every distinct user once, in sorted order. -/
def lockAccountLifecycle (userIds : List UserId) : List Lock :=
  (userIds.dedup.insertionSort (· ≤ ·)).map .account

@[simp] def lockProviderQueue (providerId : UserId) : List Lock := [.providerQueue providerId]

@[simp] def recalculateQueueLocks (providerId : UserId) : List Lock := lockProviderQueue providerId

@[simp] def notifyWaitlistLocks (providerId : UserId) : List Lock := lockProviderQueue providerId

/-- `assertNewProviderBusiness`, where `ensureProviderTrial` locks the account again. -/
@[simp] def newProviderBusinessLocks (providerId : UserId) : List Lock :=
  lockAccountLifecycle [providerId]

@[simp] def lockListingPhotos (ownerId : UserId) : List Lock := [.listingPhotos ownerId]

@[simp] def applyTrustEventLocks (userId : UserId) : List Lock := [.trust userId]

/-- A booking's two participants in sorted order. -/
def sortedPair (a b : UserId) : UserId × UserId := if a ≤ b then (a, b) else (b, a)

/-- What `awardBookingCompletionTrust` finds: nothing to reward, or a settled booking whose
participants other than the `rewarded` ones are skipped. -/
inductive Award where
  | skipped
  | settled (rewarded : List UserId)
  deriving Repr, DecidableEq

def awardLocks (providerId seekerId : UserId) : Award → List Lock
  | .skipped => []
  | .settled rewarded =>
    let ids := sortedPair providerId seekerId
    .trustPair ids.1 ids.2 ::
      ([ids.1, ids.2].filter (· ∈ rewarded)).flatMap applyTrustEventLocks

/-- `applyBookingTrustPenalty`; a penalty already recorded stops it under the user's lock. -/
def penaltyLocks (userId : UserId) (recorded : Bool) : List Lock :=
  .trust userId :: if recorded then [] else applyTrustEventLocks userId

/-- `checkReportPenalty`. -/
def checkReportPenaltyLocks (userId : UserId) (penalty : ReportPenalty) : List Lock :=
  if penalty = .none then [] else lockAccountLifecycle [userId]

@[simp] def requestLock (requestId : RequestId) : List Lock := [.request requestId]

def responseLock (directRequest : Option Nat) (targetBooking : Option BookingId) : List Lock :=
  match directRequest, targetBooking with
  | some id, _ => [.directResponse (.directRequest id)]
  | none, some bookingId => [.directResponse (.booking bookingId)]
  | none, none => []

/-- `applyPublicContentAction` on a listing. -/
@[simp] def listingActionLocks (ownerId : UserId) : List Lock :=
  lockAccountLifecycle [ownerId] ++ [.providerListings ownerId]

/-- `applyPublicContentAction` on a request. -/
@[simp] def requestActionLocks (requestId : RequestId) (ownerId : UserId) : List Lock :=
  requestLock requestId ++ lockAccountLifecycle [ownerId]

/-! ## Families of transactions with the same locks -/

/-- Transactions that take one booking's lifecycle lock and no other. -/
inductive BookingTransaction where
  | reserveRefund | requestCancellation | settleImmediateCancellation
  | respondToCancellationRequest | claimCancellationResponse | settleCancellationResponse
  | escalateCancellationRequest | claimAdminCancellation
  | reserveCancellationFinancialOutcome | repairCompletedParticipantCancellationReport
  | disputeJob | createCompletionEscalation | claimCompletionEscalation
  | reserveCompletionFinancialOutcome | reserveReportFinancialOutcome | claimAdminBooking
  | finalizeAdminBooking | startModerationReview
  deriving Repr, DecidableEq

/-- Transactions that take one account's lock and no other. -/
inductive AccountTransaction where
  | suspendUser | banUser | restoreUser | restorePostingPrivilege | submitBanAppeal
  | decideBanAppeal | startProviderTrial | requireProviderOpportunities
  | maintainProviderMemberships | cancelProviderSubscription | quoteProviderMembership
  | startSubscriptionCheckout | finalizeSubscriptionPayment | cancelSubscriptionCheckout
  | uploadListingPhoto | getAccountDeletionEligibility
  deriving Repr, DecidableEq

/-- Transactions that take an account's lock and then its session lock. -/
inductive SessionTransaction where
  | updateUserProfile | changeUserPassword | updateOwnGCashNumber | startPasswordSetup
  | verifyPasswordSetup | setUserPassword | resetPassword | issueTokens | googleLoginUser
  deriving Repr, DecidableEq

/-- Transactions that take one provider's queue lock and no other. -/
inductive QueueTransaction where
  | setProviderWorkloadCapacity | recalculateQueue | notifyWaitlist
  deriving Repr, DecidableEq

/-- Transactions that take one request's lock and no other. -/
inductive RequestTransaction where
  | cancelRequest | rejectOffer | failInitiatedPayment
  deriving Repr, DecidableEq

/-! ## The transactions -/

inductive DbTransaction where
  | onBooking (name : BookingTransaction) (bookingId : BookingId)
  | onAccount (name : AccountTransaction) (userId : UserId)
  | onSession (name : SessionTransaction) (userId : UserId)
  | onQueue (name : QueueTransaction) (providerId : UserId)
  | onRequest (name : RequestTransaction) (requestId : RequestId)
  -- payments
  | initiateOnlinePayment (request : Option RequestId) (seekerId providerId : UserId)
      (target : PaymentKey)
  | markPaymentAttemptFailed (request : Option RequestId) (attemptId : AttemptId)
  | expireStalePaymentAttempt (request : Option RequestId) (attemptId : AttemptId)
  | finalizeSuccessfulPayment (request : Option RequestId) (seekerId providerId : UserId)
      (attemptId : AttemptId) (target : PaymentKey)
  | settleRefund (bookingId : BookingId) (providerId : UserId)
  -- bookings
  | createDirectRequest (seekerId providerId : UserId) (serviceId : ServiceId)
  | acceptDirectBooking (providerId : UserId) (directRequest : Option Nat)
      (targetBooking : Option BookingId)
  | declineDirectBooking (directRequest : Option Nat) (targetBooking : Option BookingId)
  | createDirectFromOffer (requestId : RequestId) (seekerId providerId : UserId)
      (offerId : OfferId)
  /-- `queued` where the booking has a queue entry, which a cash booking has not. -/
  | providerStartJob (bookingId : BookingId) (providerId : UserId) (queued : Bool)
  | markJobComplete (bookingId : BookingId) (providerId : UserId) (queued : Bool)
  | settleCompletedBooking (bookingId : BookingId) (providerId seekerId : UserId)
      (queued : Bool) (award : Award)
  | performImmediateCancel (bookingId : BookingId) (providerId : UserId) (queued : Bool)
  | joinWaitlist (providerId : UserId)
  -- cases
  | createSafetyReport (bookingId : BookingId) (seekerId providerId : UserId)
  | claimAdminReport (bookingId : BookingId) (reportedUserId : UserId) (penalty : ReportPenalty)
  /-- `allowed` is the answer of `checkReportPenalty`, `recorded` whether the booking has
  charged the reported user already. -/
  | finalizeAdminReport (bookingId : BookingId) (providerId seekerId : UserId)
      (providerReported : Bool) (penalty : ReportPenalty) (allowed recorded : Bool)
      (award : Award)
  | finalizeAdminCancellation (bookingId : BookingId) (faultUserId : Option UserId)
      (recorded : Bool)
  | finalizeCompletionEscalation (bookingId : BookingId) (providerId seekerId : UserId)
      (award : Award)
  | decideTrustCase (caseId : Nat) (review : Option Nat) (bookingId : Option BookingId)
      (userId : Option UserId)
  | applyTrustEvent (userId : UserId)
  | applyManualTrustAdjustment (userId : UserId)
  | submitVerification (userId : UserId)
  | reviewVerification (userId : UserId) (approve : Bool)
  -- requests, offers and listings
  | createRequest (seekerId : UserId)
  | updateRequest (requestId : RequestId) (seekerId : UserId) (photos : Bool)
  | archiveCompletedRequest (requestId : RequestId) (seekerId : UserId)
  | submitOffer (requestId : RequestId) (providerId seekerId : UserId)
  | createListingInquiry (seekerId providerId : UserId)
  | declineListingInquiry (requestId : RequestId) (providerId seekerId : UserId)
  | createService (providerId : UserId)
  | updateService (providerId : UserId) (newBusiness photos : Bool)
  | toggleServiceAvailability (providerId : UserId) (resume : Bool)
  | saveListing (userId owner : UserId) (isRequest : Bool)
  | changeUnusedPhoto (ownerId : UserId)
  -- content moderation
  | submitContentCase (submitterId : UserId) (owner : Option UserId) (photos : Option UserId)
  /-- `listed` when the listing is still there, `acts` when the decision removes or restores. -/
  | decideListingCase (caseId : Nat) (ownerId : Option UserId) (listed acts : Bool)
  | decideRequestCase (caseId : Nat) (requestId : RequestId) (ownerId : Option UserId)
      (acts : Bool)
  /-- A case on a publication that was never stored. -/
  | decidePublicationCase (caseId : Nat) (ownerId : Option UserId)
  | changeListingContent (ownerId : UserId)
  | changeRequestContent (requestId : RequestId) (ownerId : UserId)
  | moderateListing (ownerId : UserId)
  | moderateRequest (requestId : RequestId) (ownerId : UserId)
  -- accounts and the rest
  | purgeAccount (userId : UserId)
  | commitReviewSummary
  | updateReview (reviewId : Nat)
  | changeAnnouncement (announcementId : Nat)
  | updateManagedCategory (categoryId : Nat) (concept : Option Nat)
  | createManagedCategory (concept : Nat)
  | ensureDefaultServiceCategories (defaults : Nat)
  deriving Repr, DecidableEq

namespace DbTransaction

def locks : DbTransaction → List Lock
  | onBooking _ bookingId => lockBookingLifecycle bookingId
  | onAccount _ userId => lockAccountLifecycle [userId]
  | onSession _ userId => lockAccountLifecycle [userId] ++ [.authSession userId]
  | onQueue _ providerId => lockProviderQueue providerId
  | onRequest _ requestId => requestLock requestId
  | initiateOnlinePayment request seekerId providerId target =>
    request.toList.flatMap requestLock ++ lockAccountLifecycle [seekerId, providerId] ++
      newProviderBusinessLocks providerId ++ [.payment seekerId target] ++
      match target with
      | .offer offerId => [.offerSelection offerId]
      | .service _ => []
  | markPaymentAttemptFailed request attemptId =>
    request.toList.flatMap requestLock ++ [.paymentAttempt attemptId]
  | expireStalePaymentAttempt request attemptId =>
    request.toList.flatMap requestLock ++ [.paymentAttempt attemptId]
  | finalizeSuccessfulPayment request seekerId providerId attemptId target =>
    request.toList.flatMap requestLock ++ lockAccountLifecycle [seekerId, providerId] ++
      [.paymentAttempt attemptId, .payment seekerId target] ++ lockProviderQueue providerId ++
      recalculateQueueLocks providerId
  | settleRefund bookingId providerId =>
    lockBookingLifecycle bookingId ++ lockProviderQueue providerId ++
      recalculateQueueLocks providerId ++ notifyWaitlistLocks providerId
  | createDirectRequest seekerId providerId serviceId =>
    lockAccountLifecycle [seekerId, providerId] ++ newProviderBusinessLocks providerId ++
      [.directBooking seekerId serviceId]
  | acceptDirectBooking providerId directRequest targetBooking =>
    lockAccountLifecycle [providerId] ++ targetBooking.toList.flatMap lockBookingLifecycle ++
      responseLock directRequest targetBooking ++ newProviderBusinessLocks providerId
  | declineDirectBooking directRequest targetBooking =>
    targetBooking.toList.flatMap lockBookingLifecycle ++ responseLock directRequest targetBooking
  | createDirectFromOffer requestId seekerId providerId offerId =>
    requestLock requestId ++ lockAccountLifecycle [seekerId, providerId] ++
      newProviderBusinessLocks providerId ++ [.offerSelection offerId, .offerBooking offerId]
  | providerStartJob bookingId providerId queued =>
    lockBookingLifecycle bookingId ++ [.providerStart providerId] ++
      lockProviderQueue providerId ++ optional queued (recalculateQueueLocks providerId)
  | markJobComplete bookingId providerId queued =>
    lockBookingLifecycle bookingId ++ optional queued (lockProviderQueue providerId) ++
      recalculateQueueLocks providerId ++ optional queued (notifyWaitlistLocks providerId)
  | settleCompletedBooking bookingId providerId seekerId queued award =>
    lockBookingLifecycle bookingId ++ optional queued (lockProviderQueue providerId ++
      recalculateQueueLocks providerId) ++ awardLocks providerId seekerId award
  | performImmediateCancel bookingId providerId queued =>
    lockBookingLifecycle bookingId ++ optional queued (lockProviderQueue providerId ++
      recalculateQueueLocks providerId ++ notifyWaitlistLocks providerId)
  | joinWaitlist providerId =>
    newProviderBusinessLocks providerId ++ lockProviderQueue providerId
  | createSafetyReport bookingId seekerId providerId =>
    lockBookingLifecycle bookingId ++ lockAccountLifecycle [seekerId, providerId]
  | claimAdminReport bookingId reportedUserId penalty =>
    lockBookingLifecycle bookingId ++ checkReportPenaltyLocks reportedUserId penalty
  | finalizeAdminReport bookingId providerId seekerId providerReported penalty allowed recorded
      award =>
    let reportedUserId := if providerReported then providerId else seekerId
    lockBookingLifecycle bookingId ++ checkReportPenaltyLocks reportedUserId penalty ++
      optional (allowed && penalty == .trustDeduct) (penaltyLocks reportedUserId recorded) ++
      awardLocks providerId seekerId award
  | finalizeAdminCancellation bookingId faultUserId recorded =>
    lockBookingLifecycle bookingId ++ faultUserId.toList.flatMap (penaltyLocks · recorded)
  | finalizeCompletionEscalation bookingId providerId seekerId award =>
    lockBookingLifecycle bookingId ++ awardLocks providerId seekerId award
  | decideTrustCase caseId review bookingId userId =>
    [.trustCase caseId] ++ review.toList.map .review ++
      bookingId.toList.flatMap lockBookingLifecycle ++
      userId.toList.flatMap fun userId => .trust userId :: applyTrustEventLocks userId
  | applyTrustEvent userId => applyTrustEventLocks userId
  | applyManualTrustAdjustment userId => .trust userId :: applyTrustEventLocks userId
  | submitVerification userId => [.verification userId]
  | reviewVerification userId approve =>
    .verification userId :: optional approve (applyTrustEventLocks userId)
  | createRequest seekerId =>
    lockAccountLifecycle [seekerId] ++ [.seekerRequests seekerId] ++ lockListingPhotos seekerId
  | updateRequest requestId seekerId photos =>
    requestLock requestId ++ lockAccountLifecycle [seekerId] ++
      optional photos (lockListingPhotos seekerId)
  | archiveCompletedRequest requestId seekerId =>
    requestLock requestId ++ lockAccountLifecycle [seekerId]
  | submitOffer requestId providerId seekerId =>
    requestLock requestId ++ lockAccountLifecycle [providerId, seekerId] ++
      newProviderBusinessLocks providerId
  | createListingInquiry seekerId providerId =>
    lockAccountLifecycle [seekerId, providerId] ++ newProviderBusinessLocks providerId ++
      lockListingPhotos seekerId
  | declineListingInquiry requestId providerId seekerId =>
    requestLock requestId ++ lockAccountLifecycle [providerId, seekerId]
  | createService providerId =>
    lockAccountLifecycle [providerId] ++ [.providerListings providerId] ++
      newProviderBusinessLocks providerId ++ lockListingPhotos providerId
  | updateService providerId newBusiness photos =>
    lockAccountLifecycle [providerId] ++ [.providerListings providerId] ++
      optional newBusiness (newProviderBusinessLocks providerId) ++
      optional photos (lockListingPhotos providerId)
  | toggleServiceAvailability providerId resume =>
    lockAccountLifecycle [providerId] ++ [.providerListings providerId] ++
      optional resume (newProviderBusinessLocks providerId)
  | saveListing userId owner isRequest =>
    lockAccountLifecycle [userId, owner] ++ optional isRequest (newProviderBusinessLocks userId)
  | changeUnusedPhoto ownerId => lockListingPhotos ownerId
  | submitContentCase submitterId owner photos =>
    [.contentCase submitterId] ++ lockAccountLifecycle (submitterId :: owner.toList) ++
      photos.toList.flatMap lockListingPhotos
  | decideListingCase caseId ownerId listed acts =>
    [.contentCaseDecision caseId] ++ ownerId.toList.flatMap fun ownerId =>
      lockAccountLifecycle [ownerId] ++
        optional listed ([.providerListings ownerId] ++ optional acts (listingActionLocks ownerId))
  | decideRequestCase caseId requestId ownerId acts =>
    [.contentCaseDecision caseId] ++ requestLock requestId ++
      ownerId.toList.flatMap fun ownerId =>
        lockAccountLifecycle [ownerId] ++ optional acts (requestActionLocks requestId ownerId)
  | decidePublicationCase caseId ownerId =>
    [.contentCaseDecision caseId] ++
      ownerId.toList.flatMap fun ownerId => lockAccountLifecycle [ownerId]
  | changeListingContent ownerId =>
    lockAccountLifecycle [ownerId] ++ [.providerListings ownerId] ++ listingActionLocks ownerId
  | changeRequestContent requestId ownerId =>
    requestLock requestId ++ lockAccountLifecycle [ownerId] ++
      requestActionLocks requestId ownerId
  | moderateListing ownerId => listingActionLocks ownerId
  | moderateRequest requestId ownerId => requestActionLocks requestId ownerId
  | purgeAccount userId =>
    lockAccountLifecycle [userId] ++ [.authSession userId, .aiReviewSummaryCommit]
  | commitReviewSummary => [.aiReviewSummaryCommit]
  | updateReview reviewId => [.review reviewId]
  | changeAnnouncement announcementId => [.announcement announcementId]
  | updateManagedCategory categoryId concept =>
    .category categoryId :: concept.toList.map .categoryConcept
  | createManagedCategory concept => [.categoryConcept concept]
  | ensureDefaultServiceCategories defaults => (List.range defaults).map .categoryConcept

end DbTransaction

end ServiceHub
