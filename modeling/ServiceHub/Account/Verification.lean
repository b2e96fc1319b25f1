import Mathlib.Data.List.Sort
import ServiceHub.Lib.Histories
import ServiceHub.Lib.Runs
import ServiceHub.Trust.Consistency

/-! # Residency verification

The submissions of the members, the decisions of the administrators and the trust ledger that they share with the other
trust transactions. A transaction takes the advisory lock of the account and is one step; what is read before it is an
argument.
-/

namespace ServiceHub

open Guard

def verificationPrivacyNoticeVersion : String := "2026-10-09-v3"

/-- `VERIFICATION_DOCUMENT_RETENTION_DAYS`. -/
def verificationDocumentRetentionDays : Nat := 365

def verificationRetentionDeadline (from_ : Millis) : Millis :=
  from_ + verificationDocumentRetentionDays * 24 * 60 * 60 * 1000

/-- A key in the folder `servicehub/verification/<folder>/`, or in no such folder. -/
structure StorageKey where
  folder : Option UserId
  name : String
  deriving Repr, DecidableEq

structure VerificationProof where
  storageKey : Option StorageKey
  documentType : String
  deriving Repr, DecidableEq

structure VerificationProofInput where
  storageKey : StorageKey
  documentType : String
  deriving Repr, DecidableEq

structure ServiceVerification where
  userId : UserId
  status : VerificationStatus := .pendingReview
  submittedAt : Millis
  reviewedAt : Option Millis := none
  adminId : Option UserId := none
  adminNotes : Option String := none
  privacyNoticeVersion : String
  privacyAcknowledgedAt : Millis
  privacyAcknowledgedBy : UserId
  retentionUntil : Millis
  proofs : List VerificationProof
  deriving Repr, DecidableEq

structure VerifiedAccount where
  emailVerified : Bool
  verificationStatus : VerificationStatus := .unverified
  deriving Repr, DecidableEq

inductive VerificationAuditAction where
  | approved | rejected | documentViewed | documentDownloaded
  deriving Repr, DecidableEq

/-- The rows of `adminAuditLog` about verifications; `proofId` is set for a document. -/
structure VerificationAudit where
  actorId : UserId
  targetUserId : UserId
  action : VerificationAuditAction
  verificationId : Nat
  proofId : Option Nat := none
  reason : String
  deriving Repr, DecidableEq

/-- The tables; a verification is known by its number, and a proof by its number in the verification. -/
structure VerificationTables where
  user : UserId → Option VerifiedAccount
  verifications : List ServiceVerification := []
  ledger : TrustLedger
  audit : List VerificationAudit := []

/-- The later submission, and of two at one time the one with the higher id. -/
def ServiceVerification.later (r r' : ServiceVerification × Nat) : Prop :=
  r'.1.submittedAt < r.1.submittedAt ∨ (r.1.submittedAt = r'.1.submittedAt ∧ r'.2 ≤ r.2)

instance : DecidableRel ServiceVerification.later := fun _ _ => inferInstanceAs (Decidable (_ ∨ _))

def ServiceVerification.pendingOf (userId : UserId) (v : ServiceVerification) : Bool :=
  v.userId == userId && v.status == .pendingReview

namespace VerificationTables

/-- `findFirst({ where: { userId, status: "PENDING_REVIEW" }, orderBy: [{ submittedAt: "desc" }, { id: "desc" }] })`. -/
def latestPending (t : VerificationTables) (userId : UserId) : Option Nat :=
  ((t.verifications.zipIdx.filter fun row => row.1.pendingOf userId).insertionSort ServiceVerification.later).head?.map
    (·.2)

/-- `user.update` of the status. -/
def updateStatus (t : VerificationTables) (userId : UserId) (verificationStatus : VerificationStatus) :
    Except HttpError VerificationTables := do
  let account ← orThrow (t.user userId) recordNotFound
  return { t with user := Function.update t.user userId (some { account with verificationStatus }) }

end VerificationTables

/-- `redactVerification`. -/
def redactVerification (v : ServiceVerification) : ServiceVerification :=
  { v with proofs := v.proofs.map ({ · with storageKey := none }) }

/-- The `data` of the `create` in `submitVerification`, which stores the row at `now`. -/
def ServiceVerification.submitted (now acknowledgedAt : Millis) (userId : UserId) (privacyNoticeVersion : String)
    (proofs : List VerificationProofInput) : ServiceVerification where
  userId := userId
  submittedAt := now
  privacyNoticeVersion := privacyNoticeVersion
  privacyAcknowledgedAt := acknowledgedAt
  privacyAcknowledgedBy := userId
  retentionUntil := verificationRetentionDeadline acknowledgedAt
  proofs := proofs.map fun p => { storageKey := some p.storageKey, documentType := p.documentType }

/-- `submitVerification`, with the verification that it returns. -/
def submitVerification (now acknowledgedAt : Millis) (userId : UserId) (proofs : List VerificationProofInput)
    (privacyNoticeVersion : String) (privacyAcknowledged : Bool) (t : VerificationTables) :
    Except HttpError (VerificationTables × ServiceVerification) := do
  rejectIf (privacyAcknowledged = false ∨ privacyNoticeVersion ≠ verificationPrivacyNoticeVersion)
    (httpError "You must acknowledge the current verification privacy notice" 400 (some "PRIVACY_NOTICE_REQUIRED"))
  rejectIf (proofs = []) (httpError "At least one document is required" 400)
  rejectIf (proofs.any (·.storageKey.folder != some userId))
    (httpError "Verification document does not belong to this user" 403)
  let user ← orThrow (t.user userId) (httpError "User not found" 404)
  rejectIf (user.emailVerified = false)
    (httpError "Verify your email before submitting residency documents" 403 (some "EMAIL_NOT_VERIFIED"))
  rejectIf (user.verificationStatus = .approved) (httpError "Your account is already verified" 409)
  match (t.latestPending userId).bind (t.verifications[·]?) with
  | some pending => return (t, redactVerification pending)
  | none => do
      let verification := ServiceVerification.submitted now acknowledgedAt userId privacyNoticeVersion proofs
      let created := { t with verifications := t.verifications ++ [verification] }
      let submitted ← created.updateStatus userId .pendingReview
      return (submitted, redactVerification verification)

/-- `accessVerificationProof`, with the key that the answer gives access to. -/
def accessVerificationProof (verificationId proofId : Nat) (adminId : UserId) (download : Bool)
    (t : VerificationTables) : Except HttpError (VerificationTables × StorageKey) := do
  let missing := httpError "Verification proof not found" 404
  let verification ← orThrow (t.verifications[verificationId]?) missing
  let proof ← orThrow (verification.proofs[proofId]?) missing
  let storageKey ← orThrow proof.storageKey missing
  return ({ t with audit := t.audit ++ [{
    actorId := adminId, targetUserId := verification.userId
    action := if download then .documentDownloaded else .documentViewed
    verificationId, proofId := some proofId
    reason := if download then "Administrator downloaded a private verification document"
      else "Administrator viewed a private verification document" }] }, storageKey)

/-- `adminNotes?.trim() || null`. -/
def decisionMessage (adminNotes : Option String) : Option String :=
  adminNotes.bind fun notes =>
    match Runs.trim isSpace notes.toList with
    | [] => none
    | text => some (String.ofList text)

/-- What a decision writes into a verification. -/
def ServiceVerification.decide (now : Millis) (status : VerificationStatus) (adminId : UserId)
    (adminNotes : Option String) (v : ServiceVerification) : ServiceVerification :=
  { v with
    status, adminId := some adminId, adminNotes, reviewedAt := some now
    retentionUntil := verificationRetentionDeadline now }

/-- The transaction of `reviewVerification`; `initialUserId` was read before it. -/
def reviewVerification (now : Millis) (initialUserId : UserId) (verificationId : Nat) (adminId : UserId)
    (approve : Bool) (adminNotes : Option String) (t : VerificationTables) : Except HttpError VerificationTables := do
  let newStatus := if approve then VerificationStatus.approved else .rejected
  let message := decisionMessage adminNotes
  let missing := httpError "Verification not found" 404
  let current ← orThrow (t.verifications[verificationId]?) missing
  rejectIf (current.userId ≠ initialUserId) missing
  let user ← orThrow (t.user current.userId) recordNotFound
  rejectIf (t.latestPending current.userId ≠ some verificationId ∨ user.verificationStatus = .approved)
    (httpError "A newer verification decision superseded this submission" 409 (some "STALE_VERIFICATION"))
  let claims := fun (i : Nat) (v : ServiceVerification) => i == verificationId && v.status == .pendingReview
  rejectIf ((t.verifications.zipIdx.countP fun row => claims row.2 row.1) ≠ 1)
    (httpError "Verification has already been reviewed" 409)
  let claimed := { t with
    verifications := Rows.updateMany claims (·.decide now newStatus adminId message) t.verifications }
  let updated ← claimed.updateStatus current.userId newStatus
  let superseded := { updated with
    verifications := Rows.updateMany (fun i v => i != verificationId && v.pendingOf current.userId)
      (·.decide now .rejected adminId (some "Superseded by a later verification decision")) updated.verifications }
  let ledger ← if approve then approveVerificationTrust now current.userId adminId superseded.ledger
    else pure superseded.ledger
  return { superseded with
    ledger
    audit := superseded.audit ++ [{
      actorId := adminId, targetUserId := current.userId, action := if approve then .approved else .rejected
      verificationId, reason := message.getD "Verification requirements satisfied" }] }

/-- The registration or Google sign-in that creates an account. -/
def openAccount (now : Millis) (userId : UserId) (emailVerified : Bool) (t : VerificationTables) :
    Except HttpError VerificationTables := do
  rejectIf (t.user userId).isSome uniqueViolation
  let ledger ← createAccount now userId t.ledger
  return { t with ledger, user := Function.update t.user userId (some { emailVerified }) }

/-- The trust transactions that are no part of an account creation or a verification. -/
def TrustAction.separate : TrustAction → Bool
  | .createAccount _ | .approveVerification .. => false
  | _ => true

inductive VerificationAction where
  | openAccount (now : Millis) (userId : UserId) (emailVerified : Bool)
  | verifyEmail (userId : UserId)
  | submit (now acknowledgedAt : Millis) (userId : UserId) (proofs : List VerificationProofInput)
      (privacyNoticeVersion : String) (privacyAcknowledged : Bool)
  | review (now : Millis) (initialUserId : UserId) (verificationId : Nat) (adminId : UserId) (approve : Bool)
      (adminNotes : Option String)
  | accessProof (verificationId proofId : Nat) (adminId : UserId) (download : Bool)
  | trust (ctx : TrustContext) (a : TrustAction)

def VerificationAction.separate : VerificationAction → Bool
  | .trust _ a => a.separate
  | _ => true

def VerificationTables.run (t : VerificationTables) : VerificationAction → Except HttpError VerificationTables
  | .openAccount now userId emailVerified => ServiceHub.openAccount now userId emailVerified t
  | .verifyEmail userId =>
      return { t with user := Function.update t.user userId ((t.user userId).map ({ · with emailVerified := true })) }
  | .submit now acknowledgedAt userId proofs version acknowledged => do
      let (after, _) ← submitVerification now acknowledgedAt userId proofs version acknowledged t
      return after
  | .review now initialUserId verificationId adminId approve adminNotes =>
      reviewVerification now initialUserId verificationId adminId approve adminNotes t
  | .accessProof verificationId proofId adminId download => do
      let (after, _) ← accessVerificationProof verificationId proofId adminId download t
      return after
  | .trust ctx a => do
      let ledger ← t.ledger.run ctx a
      return { t with ledger }

/-- The tables from an empty database, under the transactions in any order. -/
def verificationMachine : Machine VerificationTables VerificationAction where
  initial t := (∀ u, t.user u = none) ∧ t.verifications = [] ∧ trustMachine.initial t.ledger ∧ t.audit = []
  next t a := if a.separate then (t.run a).toOption else none

end ServiceHub
