import ServiceHub.Content.Workspace
import ServiceHub.Lib.Machine
import ServiceHub.Lib.Rows

/-! # Reports and appeals about content

A member reports public content or appeals against its removal, and an administrator decides the case once. The
transactions take the locks of the submitter or the case, of the content and of its owner, and are one step each. Every
other transaction may write the content; what it writes carries the time of the write.
-/

namespace ServiceHub

open Guard

inductive ContentCaseType where
  | report | appeal
  deriving Repr, DecidableEq

inductive ContentCaseStatus where
  | open | resolved
  deriving Repr, DecidableEq

inductive ContentDecision where
  | keep | remove | restore | keepRemoved | guidance
  deriving Repr, DecidableEq

inductive CasePenalty where
  | none | warn | suspend | ban
  deriving Repr, DecidableEq

inductive PublicContentAction where
  | remove | restore
  deriving Repr, DecidableEq

/-- What `contentSnapshot` keeps. -/
structure ContentSnapshot (κ : Type) where
  id : κ
  contentType : PublicContentType
  photos : List ListingPhoto
  title : Text
  description : Text
  category : Text
  ownerId : UserId
  ownerName : Text
  updatedAt : Millis
  price : Option Centavos
  priceType : Option PriceType
  budgetMin : Option Centavos
  budgetMax : Option Centavos
  urgency : Option Text
  deriving Repr, DecidableEq

/-- `ContentModerationCase.decisionResult`. -/
structure DecisionResult where
  decision : ContentDecision
  penalty : CasePenalty
  contentStatus : Option ContentStatus
  ownerStatus : Option AccountModerationStatus
  suspensionDays : Option Nat
  deriving Repr, DecidableEq

structure ContentModerationCase (κ : Type) where
  submitterId : UserId
  caseType : ContentCaseType
  contentType : PublicContentType
  resourceId : Option κ
  reason : Text
  reportReason : Option String := none
  contentOwnerId : Option UserId
  contentSnapshot : Option (ContentSnapshot κ)
  status : ContentCaseStatus := .open
  adminId : Option UserId := none
  resolution : Option Text := none
  decision : Option ContentDecision := none
  penalty : Option CasePenalty := none
  decisionResult : Option DecisionResult := none
  decidedAt : Option Millis := none
  createdAt : Millis
  deriving Repr, DecidableEq

structure ContentCaseInput (κ : Type) where
  caseType : ContentCaseType
  contentType : PublicContentType
  resourceId : Option κ
  reason : Text
  reportReason : Option String := none
  deriving Repr, DecidableEq

/-- `expectedUpdatedAt` is the instant that the string of the request denotes. -/
structure ContentDecisionInput where
  decision : ContentDecision
  penalty : CasePenalty := .none
  resolution : Text
  expectedUpdatedAt : Option Millis := none
  expectedOwnerStatus : Option AccountModerationStatus := none
  suspensionDays : Nat := 7
  deriving Repr, DecidableEq

inductive ContentAuditAction (κ : Type) where
  | contentCaseResolved (result : DecisionResult) (contentResourceId : Option κ) (submitterId : UserId)
  | contentOwnerWarned | userBanned | userSuspended
  | contentRemoved (type : PublicContentType) (id : κ)
  | contentRestored (type : PublicContentType) (id : κ)
  deriving Repr, DecidableEq

/-- A row of `adminAuditLog`; `caseId` is the resolved case, or the case that a penalty comes from. -/
structure ContentAudit (κ : Type) where
  actorId : UserId
  targetUserId : UserId
  action : ContentAuditAction κ
  caseId : Option Nat := none
  reason : Text
  createdAt : Millis
  deriving Repr, DecidableEq

/-- A row of `contentModerationEvent` with the outcome `REVISE`. -/
structure RevisionEvent where
  actorId : UserId
  contentType : PublicContentType
  createdAt : Millis
  deriving Repr, DecidableEq

structure CaseTables (κ : Type) where
  db : ContentDatabase κ
  suspendedUntil : UserId → Option Millis := fun _ => none
  moderationReason : UserId → Option Text := fun _ => none
  revisions : List RevisionEvent := []
  cases : List (ContentModerationCase κ) := []
  audit : List (ContentAudit κ) := []
  now : Millis := 0

def validationFailed : HttpError := httpError "Validation failed" 400

/-- `ContentCaseSubmissionSchema.parse`. -/
def ContentCaseInput.parse {κ : Type} (input : ContentCaseInput κ) : Except HttpError (ContentCaseInput κ) := do
  let reason := Runs.trim isSpace input.reason
  rejectIf (codeUnits reason < 10 ∨ 1000 < codeUnits reason) validationFailed
  rejectIf (input.caseType = .appeal ∧ input.reportReason.isSome = true) validationFailed
  return { input with reason }

/-- `ContentDecisionSchema.parse`. -/
def ContentDecisionInput.parse (input : ContentDecisionInput) : Except HttpError ContentDecisionInput := do
  let resolution := Runs.trim isSpace input.resolution
  rejectIf (codeUnits resolution < 10 ∨ 1000 < codeUnits resolution) validationFailed
  rejectIf (input.suspensionDays < 1 ∨ 30 < input.suspensionDays) validationFailed
  rejectIf (input.decision ∈ [.keep, .restore, .guidance] ∧ input.penalty ≠ .none) validationFailed
  rejectIf ((input.decision ∈ [.remove, .restore] ∨ input.penalty ≠ .none) ∧ input.expectedUpdatedAt = none) validationFailed
  rejectIf (input.penalty ≠ .none ∧ input.expectedOwnerStatus = none) validationFailed
  return { input with resolution }

def ContentDecision.action : ContentDecision → Option PublicContentAction
  | .remove => some .remove
  | .restore => some .restore
  | .keep | .keepRemoved | .guidance => none

def CasePenalty.auditAction {κ : Type} : CasePenalty → Option (ContentAuditAction κ)
  | .none => Option.none
  | .warn => some .contentOwnerWarned
  | .suspend => some .userSuspended
  | .ban => some .userBanned

def differentDecision : HttpError :=
  httpError "This case already has a different decision. Open History to review it." 409

/-- The recorded decision is the one that is asked for. -/
def ContentModerationCase.agrees {κ : Type} (item : ContentModerationCase κ) (input : ContentDecisionInput) : Bool :=
  item.decision == some input.decision && item.penalty == some input.penalty
    && item.resolution == some input.resolution
    && (input.penalty != .suspend || item.decisionResult.bind (·.suspensionDays) == some input.suspensionDays)

def ContentModerationCase.resolve {κ : Type} (now : Millis) (adminId : UserId) (input : ContentDecisionInput)
    (result : DecisionResult) (ownerId : Option UserId) (item : ContentModerationCase κ) : ContentModerationCase κ :=
  { item with
    status := .resolved, adminId := some adminId, resolution := some input.resolution, decision := some input.decision
    penalty := some input.penalty, decisionResult := some result, decidedAt := some now, contentOwnerId := ownerId }

def contentSnapshot {κ : Type} (content : WorkspaceContent κ) : ContentSnapshot κ where
  id := content.id
  contentType := content.contentType
  photos := content.photos
  title := content.title
  description := content.description
  category := content.category
  ownerId := content.owner.id
  ownerName := content.owner.name
  updatedAt := content.updatedAt
  price := content.price
  priceType := content.priceType
  budgetMin := content.budgetMin
  budgetMax := content.budgetMax
  urgency := content.urgency

/-- `assertActiveMarketplaceAccount` on a member of the workspace. -/
def assertActiveMember (user : Option ContentOwner) : Except HttpError Unit :=
  rejectIf (user.all (fun u => u.role != .user || !u.isActive || u.deactivatedAt.isSome || u.moderationStatus != .active) = true)
    (httpError "This account is no longer eligible for marketplace changes." 403)

section Rows

variable {κ : Type}

/-- The columns of the row itself; photos are rows of their own. -/
def ServiceContent.columns (row : ServiceContent κ) : ServiceContent κ := { row with photos := [] }

def RequestContent.columns (row : RequestContent κ) : RequestContent κ := { row with photos := [] }

def ServiceContent.moderate (now : Millis) (action : PublicContentAction) (reason : Text) (row : ServiceContent κ) :
    ServiceContent κ :=
  match action with
  | .remove => { row with
      status := .suspended, isAvailable := false, moderationReasonCode := some "ADMIN_REMOVED", adminNotes := some reason
      updatedAt := now }
  | .restore => { row with
      status := .active, isAvailable := true, moderationReasonCode := some "ADMIN_RESTORED", adminNotes := some reason
      updatedAt := now }

def RequestContent.moderate (now : Millis) (action : PublicContentAction) (reason : Text) (row : RequestContent κ) :
    RequestContent κ :=
  match action with
  | .remove => { row with
      status := .canceled, moderationReasonCode := some "ADMIN_REMOVED", adminNotes := some reason, updatedAt := now }
  | .restore => { row with
      status := .open, moderationReasonCode := some "ADMIN_RESTORED", adminNotes := some reason, updatedAt := now }

theorem ServiceContent.moderate_keys (now : Millis) (action : PublicContentAction) (reason : Text) (row : ServiceContent κ) :
    (row.moderate now action reason).id = row.id ∧ (row.moderate now action reason).providerId = row.providerId
      ∧ (row.moderate now action reason).categoryId = row.categoryId
      ∧ (row.moderate now action reason).updatedAt = now := by
  cases action <;> exact ⟨rfl, rfl, rfl, rfl⟩

theorem RequestContent.moderate_keys (now : Millis) (action : PublicContentAction) (reason : Text) (row : RequestContent κ) :
    (row.moderate now action reason).id = row.id ∧ (row.moderate now action reason).seekerId = row.seekerId
      ∧ (row.moderate now action reason).categoryId = row.categoryId
      ∧ (row.moderate now action reason).updatedAt = now := by
  cases action <;> exact ⟨rfl, rfl, rfl, rfl⟩

end Rows

section Writes

variable {κ : Type} [DecidableEq κ]

namespace ContentDatabase

def writeService (db : ContentDatabase κ) (now : Millis) (id : κ) (action : PublicContentAction) (reason : Text) :
    ContentDatabase κ :=
  { db with
    services := Rows.updateWhere (·.id == id) (·.moderate now action reason) db.services
    serviceKeys := by
      rw [Rows.map_updateWhere fun row => (row.moderate_keys now action reason).1]
      exact db.serviceKeys
    providers := by
      intro row' listed
      obtain ⟨row, old, rfl⟩ := Rows.mem_updateWhere.mp listed
      split
      · rw [(row.moderate_keys now action reason).2.1]
        exact db.providers row old
      · exact db.providers row old
    serviceCategories := by
      intro row' listed
      obtain ⟨row, old, rfl⟩ := Rows.mem_updateWhere.mp listed
      split
      · rw [(row.moderate_keys now action reason).2.2.1]
        exact db.serviceCategories row old
      · exact db.serviceCategories row old }

def writeRequest (db : ContentDatabase κ) (now : Millis) (id : κ) (action : PublicContentAction) (reason : Text) :
    ContentDatabase κ :=
  { db with
    serviceRequests := Rows.updateWhere (·.id == id) (·.moderate now action reason) db.serviceRequests
    requestKeys := by
      rw [Rows.map_updateWhere fun row => (row.moderate_keys now action reason).1]
      exact db.requestKeys
    seekers := by
      intro row' listed
      obtain ⟨row, old, rfl⟩ := Rows.mem_updateWhere.mp listed
      split
      · rw [(row.moderate_keys now action reason).2.1]
        exact db.seekers row old
      · exact db.seekers row old
    requestCategories := by
      intro row' listed
      obtain ⟨row, old, rfl⟩ := Rows.mem_updateWhere.mp listed
      split
      · rw [(row.moderate_keys now action reason).2.2.1]
        exact db.requestCategories row old
      · exact db.requestCategories row old }

def setModerationStatus (db : ContentDatabase κ) (userId : UserId) (status : AccountModerationStatus) : ContentDatabase κ :=
  { db with
    users := Rows.updateWhere (·.id == userId) ({ · with moderationStatus := status }) db.users
    providers := by
      intro row listed
      obtain ⟨user, among, same⟩ := db.providers row listed
      refine ⟨_, Rows.mem_updateWhere.mpr ⟨user, among, rfl⟩, ?_⟩
      split <;> exact same
    seekers := by
      intro row listed
      obtain ⟨user, among, same⟩ := db.seekers row listed
      refine ⟨_, Rows.mem_updateWhere.mpr ⟨user, among, rfl⟩, ?_⟩
      split <;> exact same }

def readResource (db : ContentDatabase κ) (type : PublicContentType) (resourceId : Option κ) :
    Except HttpError (Option (WorkspaceContent κ)) :=
  match resourceId with
  | some id => db.readPublicContent type id
  | none => .ok none

def user (db : ContentDatabase κ) (userId : UserId) : Option ContentOwner := db.users.find? (·.id == userId)

/-- `publicServiceWhere`, with whether the provider's membership is current. -/
def publicService (db : ContentDatabase κ) (membership : Bool) (row : ServiceContent κ) : Bool :=
  row.status == .active && row.isAvailable
    && (row.priceType.listed && row.price.any (fun price => 5000 ≤ price && price ≤ 5000000)
      || row.priceType == .byAgreement && row.price.isNone)
    && (db.user row.providerId).any (·.shown) && membership

def publicRequest (db : ContentDatabase κ) (row : RequestContent κ) : Bool :=
  row.status == .open && (db.user row.seekerId).any (·.shown)

end ContentDatabase

end Writes

namespace CaseTables

variable {κ : Type} [DecidableEq κ]

/-- `ContentModerationCase.findFirst` for an open case on the same content. -/
def hasOpenCase (t : CaseTables κ) (submitterId : UserId) (input : ContentCaseInput κ) : Bool :=
  t.cases.any fun c => c.status == .open && c.submitterId == submitterId && c.caseType == input.caseType
    && c.contentType == input.contentType && c.resourceId == input.resourceId

def checkReport (t : CaseTables κ) (submitterId : UserId) (input : ContentCaseInput κ) (membership : Bool) :
    Except HttpError Unit := do
  let id ← orThrow input.resourceId (httpError "Choose public content to report" 400)
  match input.contentType with
  | .serviceListing => do
      let listing ← orThrow ((t.db.services.find? (·.id == id)).filter (t.db.publicService membership))
        (httpError "This listing is no longer public" 404)
      rejectIf (listing.providerId = submitterId) (httpError "You cannot report your own listing" 409)
      assertActiveMember (t.db.user submitterId)
      assertActiveMember (t.db.user listing.providerId)
  | .serviceRequest => do
      let request ← orThrow ((t.db.serviceRequests.find? (·.id == id)).filter t.db.publicRequest)
        (httpError "This request is no longer public" 404)
      rejectIf (request.seekerId = submitterId) (httpError "You cannot report your own request" 409)
      assertActiveMember (t.db.user submitterId)
      assertActiveMember (t.db.user request.seekerId)

def checkAppeal (t : CaseTables κ) (submitterId : UserId) (input : ContentCaseInput κ) : Except HttpError Unit := do
  assertActiveMember (t.db.user submitterId)
  let notOwned := httpError "Only your removed or rejected content can be appealed here" 409
  match input.resourceId, input.contentType with
  | some id, .serviceListing => do
      let _ ← orThrow ((t.db.services.find? (·.id == id)).filter fun row =>
        row.providerId == submitterId && (row.status == .rejected || row.status == .suspended)) notOwned
      return ()
  | some id, .serviceRequest => do
      let _ ← orThrow ((t.db.serviceRequests.find? (·.id == id)).filter fun row =>
        row.seekerId == submitterId && row.status == .canceled && row.moderationReasonCode == some "ADMIN_REMOVED") notOwned
      return ()
  | none, _ =>
      rejectIf (t.revisions.any (fun e => e.actorId == submitterId && e.contentType == input.contentType
          && t.now ≤ e.createdAt + 30 * 24 * 60 * 60 * 1000) = false)
        (httpError "No recent content check to appeal. Please revise and submit first." 409)

def checkSubmission (t : CaseTables κ) (submitterId : UserId) (input : ContentCaseInput κ) (membership : Bool) :
    Except HttpError Unit :=
  match input.caseType with
  | .report => t.checkReport submitterId input membership
  | .appeal => t.checkAppeal submitterId input

def submitContentCase (submitterId : UserId) (rawInput : ContentCaseInput κ) (membership : Bool) (t : CaseTables κ) :
    Except HttpError (CaseTables κ) := do
  let input ← rawInput.parse
  t.checkSubmission submitterId input membership
  rejectIf (t.hasOpenCase submitterId input = true) (httpError "You already have an open review for this content" 409)
  let content ← t.db.readResource input.contentType input.resourceId
  rejectIf (input.caseType = .report ∧ content.any (·.visibility == "Public") = false)
    (httpError "This content is no longer public." 409)
  return { t with
    cases := t.cases ++ [{
      submitterId, caseType := input.caseType, contentType := input.contentType, resourceId := input.resourceId
      reason := input.reason
      reportReason := if input.caseType = .report then input.reportReason else none
      contentOwnerId := (content.map (·.owner.id)).or (if input.caseType = .appeal then some submitterId else none)
      contentSnapshot := content.map contentSnapshot
      createdAt := t.now }] }

/-- What `assertRestorable` reads of the owner; the category, the posting suspension, the texts, the price, the plan and
    the duplicates answer `restorable`. -/
def assertRestorable (t : CaseTables κ) (ownerId : UserId) (restorable : Except HttpError Unit) : Except HttpError Unit := do
  assertActiveMember (t.db.user ownerId)
  let owner ← orThrow (t.db.user ownerId) recordNotFound
  rejectIf (owner.emailVerified = false ∨ owner.verificationStatus ≠ .approved)
    (httpError "The owner must have a verified account and the category must be available before restoration." 409)
  restorable

def applyPublicContentAction (type : PublicContentType) (id : κ) (adminId : UserId) (action : PublicContentAction)
    (reason : Text) (restorable : Except HttpError Unit) (t : CaseTables κ) : Except HttpError (CaseTables κ) :=
  let row := fun ownerId : UserId => {
    actorId := adminId, targetUserId := ownerId, reason, createdAt := t.now
    action := match action with
      | .remove => .contentRemoved type id
      | .restore => .contentRestored type id : ContentAudit κ }
  match type with
  | .serviceListing => do
      let content ← orThrow (t.db.services.find? (·.id == id)) (httpError "This service listing no longer exists." 409)
      match action with
      | .remove =>
          rejectIf (content.status ≠ .active ∧ content.status ≠ .inactive)
            (httpError "Only a published or paused service can be removed." 409)
      | .restore => do
          rejectIf (content.status ≠ .suspended ∨ content.moderationReasonCode ≠ some "ADMIN_REMOVED")
            (httpError "Only a service removed by an admin can be restored." 409)
          t.assertRestorable content.providerId restorable
      return { t with db := t.db.writeService t.now id action reason, audit := t.audit ++ [row content.providerId] }
  | .serviceRequest => do
      let content ← orThrow (t.db.serviceRequests.find? (·.id == id)) (httpError "This service request no longer exists." 409)
      rejectIf (content.targetServiceId.isSome = true)
        (httpError "A private booking inquiry must be handled through its booking flow." 409)
      let offerIds := (t.db.offers.filter (·.requestId == id)).map (·.id)
      rejectIf (t.db.linkedBookings offerIds ≠ 0 ∨ t.db.linkedPayments offerIds ≠ 0)
        (httpError "This request has a booking or payment that needs handling in Disputes & Reports first." 409)
      match action with
      | .remove =>
          rejectIf (content.status ≠ .open ∧ content.status ≠ .closed)
            (httpError "Only an open or paused public request can be removed." 409)
      | .restore => do
          rejectIf (content.status ≠ .canceled ∨ content.moderationReasonCode ≠ some "ADMIN_REMOVED")
            (httpError "Only a request removed by an admin can be restored." 409)
          t.assertRestorable content.seekerId restorable
      return { t with db := t.db.writeRequest t.now id action reason, audit := t.audit ++ [row content.seekerId] }

/-- The checks of a penalty; `blockers` counts the unstarted bookings of the owner. -/
def checkPenalty (content : Option (WorkspaceContent κ)) (ownerId : Option UserId) (adminId : UserId)
    (penalty : CasePenalty) (blockers : Nat) : Except HttpError Unit := do
  let refused := httpError "This account cannot receive a penalty through this case." 409
  let content ← orThrow content refused
  let ownerId ← orThrow ownerId refused
  rejectIf (ownerId = adminId ∨ content.owner.role ≠ .user ∨ content.owner.isActive = false
    ∨ content.owner.deactivatedAt.isSome = true) refused
  rejectIf (penalty = .suspend ∧ content.owner.moderationStatus ≠ .active)
    (httpError "Only an active account can be suspended." 409)
  rejectIf (penalty = .suspend ∧ 0 < blockers)
    (httpError s!"Handle this provider's {blockers} unstarted booking(s) in Disputes & Reports before suspension." 409)
  rejectIf (penalty = .ban ∧ content.owner.moderationStatus = .banned)
    (httpError "The owner is already banned. Choose no additional penalty." 409)

def checkDecision (item : ContentModerationCase κ) (content : Option (WorkspaceContent κ)) (ownerId : Option UserId)
    (adminId : UserId) (input : ContentDecisionInput) (blockers : Nat) : Except HttpError Unit := do
  rejectIf (content.any (fun c => ownerId != some c.owner.id) = true)
    (httpError "The content owner has changed. Reload the case." 409)
  rejectIf (content.isNone = true ∧ input.decision ≠ .guidance)
    (httpError "The original content is unavailable. Send an explanation without changing an account." 409)
  rejectIf (input.decision = .guidance ∧ input.penalty ≠ .none)
    (httpError "Guidance cannot include an account penalty." 409)
  rejectIf (item.caseType = .appeal ∧ (input.penalty ≠ .none ∨ input.decision = .remove ∨ input.decision = .keep))
    (httpError "Choose an appeal outcome without an account penalty." 409)
  rejectIf (item.caseType = .report ∧ input.decision = .restore)
    (httpError "Restoration must be reviewed through an owner's appeal or the content view." 409)
  rejectIf (input.decision = .keepRemoved ∧ content.bind (·.moderationReasonCode) ≠ some "ADMIN_REMOVED")
    (httpError "This content is not currently removed by an admin." 409)
  rejectIf ((input.decision ∈ [.remove, .restore] ∨ input.penalty ≠ .none)
      ∧ content.any (fun c => some c.updatedAt != input.expectedUpdatedAt) = true)
    (httpError "The content changed while you reviewed it. Reload the case before deciding." 409)
  rejectIf (input.penalty ≠ .none
      ∧ content.any (fun c => some c.owner.moderationStatus != input.expectedOwnerStatus) = true)
    (httpError "The owner's account status changed. Reload the case before deciding." 409)
  if input.penalty ≠ .none then checkPenalty content ownerId adminId input.penalty blockers else return ()

/-- The account and the audit row of a penalty. -/
def penalize (caseId : Nat) (adminId : UserId) (ownerId : Option UserId) (input : ContentDecisionInput) (t : CaseTables κ) :
    CaseTables κ :=
  match ownerId, input.penalty.auditAction with
  | some ownerId, some action =>
      let logged := { t with
        audit := t.audit ++ [{
          actorId := adminId, targetUserId := ownerId, action, caseId := some caseId, reason := input.resolution
          createdAt := t.now }] }
      let restricted := fun (status : AccountModerationStatus) (until_ : Option Millis) => { logged with
        db := logged.db.setModerationStatus ownerId status
        suspendedUntil := Function.update logged.suspendedUntil ownerId until_
        moderationReason := Function.update logged.moderationReason ownerId (some input.resolution) }
      match input.penalty with
      | .suspend => restricted .suspended (some (t.now + input.suspensionDays * 86400000))
      | .ban => restricted .banned none
      | .none | .warn => logged
  | _, _ => t

def decisionResult (content : Option (WorkspaceContent κ)) (contentType : PublicContentType) (input : ContentDecisionInput) :
    DecisionResult where
  decision := input.decision
  penalty := input.penalty
  contentStatus := match content, input.decision.action, contentType with
    | some _, some .remove, .serviceListing => some (.service .suspended)
    | some _, some .remove, .serviceRequest => some (.request .canceled)
    | some _, some .restore, .serviceListing => some (.service .active)
    | some _, some .restore, .serviceRequest => some (.request .open)
    | content, _, _ => content.map (·.status)
  ownerStatus := match input.penalty with
    | .ban => some .banned
    | .suspend => some .suspended
    | .none | .warn => content.map (·.owner.moderationStatus)
  suspensionDays := if input.penalty = .suspend then some input.suspensionDays else none

/-- The content action of a decision. -/
def actOnContent (item : ContentModerationCase κ) (content : Option (WorkspaceContent κ)) (adminId : UserId)
    (input : ContentDecisionInput) (restorable : Except HttpError Unit) (t : CaseTables κ) : Except HttpError (CaseTables κ) :=
  match content, input.decision.action with
  | some content, some action =>
      t.applyPublicContentAction item.contentType content.id adminId action input.resolution restorable
  | _, _ => .ok t

/-- The transaction of `decideWorkspaceCase`, with whether it replays an earlier decision. -/
def decideWorkspaceCase (id : Nat) (adminId : UserId) (rawInput : ContentDecisionInput) (blockers : Nat)
    (restorable : Except HttpError Unit) (t : CaseTables κ) : Except HttpError (CaseTables κ × Bool) := do
  let input ← rawInput.parse
  let item ← orThrow (t.cases[id]?) (httpError "Content case not found." 404)
  if item.status = .resolved then
    if item.agrees input = true then return (t, true) else throw differentDecision
  else do
    let content ← t.db.readResource item.contentType item.resourceId
    let ownerId := item.contentOwnerId.or (content.map (·.owner.id))
    checkDecision item content ownerId adminId input blockers
    let acted ← t.actOnContent item content adminId input restorable
    let result := decisionResult content item.contentType input
    let penalized := acted.penalize id adminId ownerId input
    return ({ penalized with
      cases := penalized.cases.modify id (·.resolve t.now adminId input result ownerId)
      audit := penalized.audit ++ [{
        actorId := adminId, targetUserId := ownerId.getD item.submitterId
        action := .contentCaseResolved result item.resourceId item.submitterId
        caseId := some id, reason := input.resolution, createdAt := t.now }] }, false)

/-- `resolveContentCase`, which decides without an action. -/
def resolveContentCase (caseId : Nat) (adminId : UserId) (resolution : Text) (t : CaseTables κ) :
    Except HttpError (CaseTables κ × Bool) := do
  let item ← orThrow (t.cases[caseId]?) recordNotFound
  t.decideWorkspaceCase caseId adminId
    { decision := if item.caseType = .report then .keep else .guidance, resolution } 0 (.ok ())

/-- The transaction of `changeWorkspaceContent`. -/
def changeWorkspaceContent (type : PublicContentType) (id : κ) (adminId : UserId) (action : PublicContentAction)
    (reason : Text) (expectedUpdatedAt : Millis) (restorable : Except HttpError Unit) (t : CaseTables κ) :
    Except HttpError (CaseTables κ) := do
  let content ← t.db.readPublicContent type id
  let content ← orThrow content (httpError "Content not found." 404)
  rejectIf (content.updatedAt ≠ expectedUpdatedAt)
    (httpError "The content changed. Reload it before taking action." 409)
  t.applyPublicContentAction type id adminId action reason restorable

/-- Every row is an old one or carries the time. -/
def stamped (now : Millis) (before after : ContentDatabase κ) : Bool :=
  after.services.all (fun row => row.updatedAt == now || before.services.any (·.columns == row.columns))
    && after.serviceRequests.all (fun row =>
      row.updatedAt == now || before.serviceRequests.any (·.columns == row.columns))

end CaseTables

inductive CaseAction (κ : Type) where
  | submitContentCase (submitterId : UserId) (input : ContentCaseInput κ) (membership : Bool)
  | decideWorkspaceCase (id : Nat) (adminId : UserId) (input : ContentDecisionInput) (blockers : Nat)
      (restorable : Except HttpError Unit)
  | resolveContentCase (id : Nat) (adminId : UserId) (resolution : Text)
  | changeWorkspaceContent (type : PublicContentType) (id : κ) (adminId : UserId) (action : PublicContentAction)
      (reason : Text) (expectedUpdatedAt : Millis) (restorable : Except HttpError Unit)
  /-- A content check of the listing and request services asks for a revision. -/
  | revise (actorId : UserId) (contentType : PublicContentType)
  /-- Any other transaction of the marketplace. -/
  | marketplace (db : ContentDatabase κ)
  | wait (time : Millis)

variable {κ : Type} [DecidableEq κ]

def CaseTables.step (t : CaseTables κ) : CaseAction κ → Option (CaseTables κ)
  | .submitContentCase submitterId input membership => (t.submitContentCase submitterId input membership).toOption
  | .decideWorkspaceCase id adminId input blockers restorable =>
      (t.decideWorkspaceCase id adminId input blockers restorable).toOption.map (·.1)
  | .resolveContentCase id adminId resolution => (t.resolveContentCase id adminId resolution).toOption.map (·.1)
  | .changeWorkspaceContent type id adminId action reason expectedUpdatedAt restorable =>
      (t.changeWorkspaceContent type id adminId action reason expectedUpdatedAt restorable).toOption
  | .revise actorId contentType =>
      some { t with revisions := t.revisions ++ [⟨actorId, contentType, t.now⟩] }
  | .marketplace db => if CaseTables.stamped t.now t.db db then some { t with db } else none
  | .wait time => some { t with now := t.now + time }

def caseMachine : Machine (CaseTables κ) (CaseAction κ) where
  initial t := t.cases = [] ∧ t.audit = []
  next := CaseTables.step

end ServiceHub
