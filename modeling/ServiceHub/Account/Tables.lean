import ServiceHub.Lib.Relational

/-! # The tables and their references

The tables of the schema with the columns that hold ids, and the foreign keys with their delete
rules. A required reference without a rule restricts, an optional one is cleared.
-/

namespace ServiceHub

open Relational

inductive Table where
  | user | subscriptionPayment | refreshToken | securityEvent | emailVerificationToken | passwordResetToken
  | serviceVerification | verificationProof | category | service | serviceRequest | savedListing | listingPhoto
  | serviceListingPhoto | requestListingPhoto | contentModerationEvent | contentModerationCase | offer | directRequest
  | queue | queueNotify | booking | bookingProgressEvent | completedService | review | report | message | transaction
  | notification | announcement | trustScoreEvent | trustCase | aiReviewSummary | cancellationRequest | adminAuditLog
  | banAppeal | accountDeletionRequest | paymentRefund | paymentAttempt | processedWebhookEvent
  | completionEscalation | adminResolutionOperation
  deriving Repr, DecidableEq

/-- `key` is a primary key that is composed of other ids; `text` are the texts and JSON values that no service reads
    ids from. -/
inductive Column where
  | key | text
  | userId | providerId | seekerId | ownerId | adminId | categoryId | serviceId | requestId | offerId | directRequestId
  | bookingId | queueId | completedServiceId | reviewId | reportId | photoId | verificationId | paymentAttemptId
  | targetProviderId | targetServiceId | reviewedById | moderatedById | submitterId | contentOwnerId | resourceId
  | authorId | targetId | reporterId | reportedUserId | senderId | receiverId | walletOwnerId | relatedBookingId
  | link | actorAdminId | eventKey | reversesEventId | respondentId | trustEventId | requestedBy | responderId
  | actorId | targetUserId | metadata | decidedById | banAuditLogId | requestedById | requestedByAdminId | caseId
  deriving Repr, DecidableEq

namespace Table

def cascades (table : Table) (column : Column) (target : Table) : ForeignKey Table Column :=
  { table, column, target, onDelete := .cascade }

def restricts (table : Table) (column : Column) (target : Table) : ForeignKey Table Column :=
  { table, column, target, onDelete := .restrict }

def clears (table : Table) (column : Column) (target : Table) : ForeignKey Table Column :=
  { table, column, target, onDelete := .setNull }

end Table

open Table in
def foreignKeys : List (ForeignKey Table Column) := [
  restricts .subscriptionPayment .providerId .user,
  cascades .refreshToken .userId .user,
  cascades .securityEvent .userId .user,
  cascades .emailVerificationToken .userId .user,
  cascades .passwordResetToken .userId .user,
  cascades .serviceVerification .userId .user, clears .serviceVerification .adminId .user,
  cascades .verificationProof .verificationId .serviceVerification,
  cascades .service .providerId .user, restricts .service .categoryId .category, clears .service .reviewedById .user,
  cascades .serviceRequest .seekerId .user, restricts .serviceRequest .categoryId .category,
  cascades .savedListing .userId .user, cascades .savedListing .serviceId .service,
  cascades .savedListing .requestId .serviceRequest,
  clears .listingPhoto .ownerId .user,
  cascades .serviceListingPhoto .serviceId .service, cascades .serviceListingPhoto .photoId .listingPhoto,
  cascades .requestListingPhoto .requestId .serviceRequest, cascades .requestListingPhoto .photoId .listingPhoto,
  cascades .contentModerationCase .submitterId .user,
  cascades .offer .requestId .serviceRequest, cascades .offer .providerId .user,
  cascades .directRequest .seekerId .user, cascades .directRequest .providerId .user,
  restricts .directRequest .serviceId .service,
  cascades .queue .providerId .user, clears .queue .serviceId .service, cascades .queue .seekerId .user,
  clears .queue .bookingId .booking,
  cascades .queueNotify .serviceId .service, cascades .queueNotify .seekerId .user,
  cascades .booking .seekerId .user, cascades .booking .providerId .user, clears .booking .serviceId .service,
  clears .booking .offerId .offer, clears .booking .directRequestId .directRequest,
  cascades .bookingProgressEvent .bookingId .booking,
  clears .completedService .queueId .queue, clears .completedService .directRequestId .directRequest,
  clears .completedService .offerId .offer, clears .completedService .bookingId .booking,
  restricts .completedService .seekerId .user, restricts .completedService .providerId .user,
  cascades .review .completedServiceId .completedService, restricts .review .authorId .user,
  restricts .review .targetId .user,
  cascades .report .bookingId .booking, restricts .report .reporterId .user, restricts .report .reportedUserId .user,
  clears .report .adminId .user,
  cascades .message .bookingId .booking, restricts .message .senderId .user, restricts .message .receiverId .user,
  cascades .transaction .walletOwnerId .user,
  cascades .notification .userId .user,
  cascades .announcement .authorId .user,
  cascades .trustScoreEvent .userId .user, clears .trustScoreEvent .actorAdminId .user,
  clears .trustScoreEvent .bookingId .booking, clears .trustScoreEvent .reversesEventId .trustScoreEvent,
  cascades .trustCase .userId .user, clears .trustCase .respondentId .user, cascades .trustCase .reviewId .review,
  cascades .trustCase .trustEventId .trustScoreEvent, clears .trustCase .adminId .user,
  cascades .cancellationRequest .bookingId .booking, clears .cancellationRequest .responderId .user,
  clears .cancellationRequest .adminId .user, clears .cancellationRequest .reportId .report,
  restricts .adminAuditLog .actorId .user, clears .adminAuditLog .targetUserId .user,
  restricts .banAppeal .userId .user, clears .banAppeal .decidedById .user,
  restricts .accountDeletionRequest .userId .user,
  restricts .paymentRefund .bookingId .booking, restricts .paymentRefund .requestedById .user,
  cascades .completionEscalation .bookingId .booking]

abbrev Record := Row Table Column

abbrev Tables := Database Table Column

end ServiceHub
