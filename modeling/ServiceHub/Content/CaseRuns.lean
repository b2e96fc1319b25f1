import ServiceHub.Booking.Coupling
import ServiceHub.Content.Cases
import ServiceHub.Content.Paging

/-! # Runs of the content cases

A member has at most one open case on the same content, a case is decided once and keeps its decision, and the audit
log tells of every case what its columns say.
-/

namespace ServiceHub

open Guard

/-- What a decision may be for. -/
structure DecisionResult.Lawful (result : DecisionResult) (caseType : ContentCaseType) : Prop where
  report : caseType = .report → result.decision ≠ .restore
  appeal : caseType = .appeal → result.penalty = .none ∧ result.decision ≠ .remove ∧ result.decision ≠ .keep
  penalty : result.penalty ≠ .none → result.decision = .remove ∨ result.decision = .keepRemoved
  suspension : result.penalty = .suspend ↔ result.suspensionDays.isSome = true
  days : ∀ days, result.suspensionDays = some days → 1 ≤ days ∧ days ≤ 30

section Cases

variable {κ : Type}

/-- The columns of a case agree with each other. -/
structure ContentModerationCase.InOrder (c : ContentModerationCase κ) : Prop where
  undecided : c.status = .open → c.adminId = none ∧ c.resolution = none ∧ c.decision = none ∧ c.penalty = none
    ∧ c.decisionResult = none ∧ c.decidedAt = none
  decided : c.status = .resolved → ∃ admin resolution result decidedAt, c.adminId = some admin
    ∧ c.resolution = some resolution ∧ c.decision = some result.decision ∧ c.penalty = some result.penalty
    ∧ c.decisionResult = some result ∧ c.decidedAt = some decidedAt ∧ result.Lawful c.caseType
    ∧ (result.penalty ≠ .none → c.contentOwnerId ≠ some admin)
  report : c.caseType = .report → ∃ snapshot, c.contentSnapshot = some snapshot ∧ c.resourceId = some snapshot.id
    ∧ c.contentType = snapshot.contentType ∧ c.contentOwnerId = some snapshot.ownerId
    ∧ snapshot.ownerId ≠ c.submitterId
  appeal : c.caseType = .appeal → c.contentOwnerId = some c.submitterId ∧ c.reportReason = none

theorem ContentModerationCase.InOrder.owner {c : ContentModerationCase κ} (h : c.InOrder) :
    ∃ owner, c.contentOwnerId = some owner := by
  cases type : c.caseType with
  | report =>
      obtain ⟨snapshot, -, -, -, owner, -⟩ := h.report type
      exact ⟨_, owner⟩
  | appeal => exact ⟨_, (h.appeal type).1⟩

/-- What a case is about. -/
def ContentModerationCase.subject (c : ContentModerationCase κ) :
    UserId × ContentCaseType × PublicContentType × Option κ :=
  (c.submitterId, c.caseType, c.contentType, c.resourceId)

/-- The audit rows that the columns of a case stand for: the penalty, if there is one, and the decision. -/
def ContentModerationCase.auditRows (id : Nat) (c : ContentModerationCase κ) : List (ContentAudit κ) :=
  match c.adminId, c.resolution, c.decisionResult, c.decidedAt with
  | some actorId, some reason, some result, some createdAt =>
      let targetUserId := c.contentOwnerId.getD c.submitterId
      (result.penalty.auditAction.toList.map fun action =>
          { actorId, targetUserId, action, caseId := some id, reason, createdAt })
        ++ [{ actorId, targetUserId, action := .contentCaseResolved result c.resourceId c.submitterId, caseId := some id
              reason, createdAt }]
  | _, _, _, _ => []

theorem ContentModerationCase.InOrder.unaudited {c : ContentModerationCase κ} (h : c.InOrder) (undecided : c.status = .open)
    (id : Nat) : c.auditRows id = [] := by
  simp [ContentModerationCase.auditRows, (h.undecided undecided).1]

theorem auditRows_caseId {c : ContentModerationCase κ} {id : Nat} : ∀ e ∈ c.auditRows id, e.caseId = some id := by
  intro e listed
  simp only [ContentModerationCase.auditRows] at listed
  split at listed
  · rcases List.mem_append.mp listed with penalty | decision
    · obtain ⟨action, -, rfl⟩ := List.mem_map.mp penalty
      rfl
    · rw [List.mem_singleton.mp decision]
  · cases listed

/-- A case stays as it is, or an open one is decided. -/
def ContentModerationCase.Decides (c c' : ContentModerationCase κ) : Prop :=
  c' = c ∨ c.status = .open ∧ ∃ now admin input result owner, c' = c.resolve now admin input result owner

theorem ContentModerationCase.Decides.trans {c c' c'' : ContentModerationCase κ} (h : c.Decides c')
    (h' : c'.Decides c'') : c.Decides c'' := by
  obtain rfl | ⟨undecided, now, admin, input, result, owner, rfl⟩ := h
  · exact h'
  · obtain rfl | ⟨again, -⟩ := h'
    · exact .inr ⟨undecided, now, admin, input, result, owner, rfl⟩
    · cases again

/-- The item without what rows of other tables tell of it. -/
def WorkspaceContent.own (c : WorkspaceContent κ) : WorkspaceContent κ :=
  { c with
    photos := [], category := [], owner := { id := c.owner.id, name := [], email := [] }, visibility := "", canRemove := false
    canRestore := false, actionBlock := none }

/-- What a row says itself is in its columns. -/
theorem ServiceContent.content_own {row : ServiceContent κ} {provider : ContentOwner} {category : ContentCategory}
    (owned : provider.id = row.providerId) : (row.content provider category).own
      = (row.columns.content { id := row.columns.providerId, name := [], email := [] } ⟨0, []⟩).own := by
  simp [WorkspaceContent.own, ServiceContent.content, ServiceContent.columns, owned, withListingPhotos]

theorem RequestContent.content_own {row : RequestContent κ} {seeker : ContentOwner} {category : ContentCategory}
    {bookings payments : Nat} (owned : seeker.id = row.seekerId) : (row.content seeker category bookings payments).own
      = (row.columns.content { id := row.columns.seekerId, name := [], email := [] } ⟨0, []⟩ 0 0).own := by
  simp [WorkspaceContent.own, RequestContent.content, RequestContent.columns, owned, withListingPhotos]

end Cases

section Decisions

variable {κ : Type} {admin : UserId}

/-- What a penalty writes beside its audit row. -/
theorem penalize_eq (t : CaseTables κ) (caseId : Nat) (admin : UserId) (owner : Option UserId) (input : ContentDecisionInput) :
    ∃ db until_ reasons, t.penalize caseId admin owner input = { t with
        db, suspendedUntil := until_, moderationReason := reasons
        audit := t.audit ++ (owner.bind fun targetUserId => input.penalty.auditAction.map fun action => {
          actorId := admin, targetUserId, action, caseId := some caseId, reason := input.resolution
          createdAt := t.now : ContentAudit κ }).toList }
      ∧ db.services = t.db.services ∧ db.serviceRequests = t.db.serviceRequests := by
  cases owner with
  | none => exact ⟨t.db, t.suspendedUntil, t.moderationReason, by simp [CaseTables.penalize], rfl, rfl⟩
  | some owner =>
      cases penalty : input.penalty with
      | none =>
          refine ⟨t.db, t.suspendedUntil, t.moderationReason, ?_, rfl, rfl⟩
          simp [CaseTables.penalize, penalty, CasePenalty.auditAction]
      | warn =>
          refine ⟨t.db, t.suspendedUntil, t.moderationReason, ?_, rfl, rfl⟩
          simp [CaseTables.penalize, penalty, CasePenalty.auditAction]
      | suspend =>
          refine ⟨t.db.setModerationStatus owner .suspended,
            Function.update t.suspendedUntil owner (some (t.now + input.suspensionDays * 86400000)),
            Function.update t.moderationReason owner (some input.resolution), ?_, rfl, rfl⟩
          simp [CaseTables.penalize, penalty, CasePenalty.auditAction]
      | ban =>
          refine ⟨t.db.setModerationStatus owner .banned, Function.update t.suspendedUntil owner none,
            Function.update t.moderationReason owner (some input.resolution), ?_, rfl, rfl⟩
          simp [CaseTables.penalize, penalty, CasePenalty.auditAction]

theorem parse_ok {raw input : ContentDecisionInput} (h : raw.parse = .ok input) : input.decision = raw.decision
    ∧ input.penalty = raw.penalty ∧ input.suspensionDays = raw.suspensionDays
    ∧ (1 ≤ input.suspensionDays ∧ input.suspensionDays ≤ 30)
    ∧ input.expectedUpdatedAt = raw.expectedUpdatedAt ∧ input.expectedOwnerStatus = raw.expectedOwnerStatus
    ∧ (input.penalty ≠ .none → input.decision = .remove ∨ input.decision = .keepRemoved) := by
  simp only [ContentDecisionInput.parse, check_bind_ok, rejectIf_ok, pure_ok] at h
  obtain ⟨-, days, mild, -, -, rfl⟩ := h
  have bounds : 1 ≤ raw.suspensionDays ∧ raw.suspensionDays ≤ 30 := by omega
  refine ⟨rfl, rfl, rfl, bounds, rfl, rfl, fun penalty => ?_⟩
  have mild : raw.decision ∉ [.keep, .restore, .guidance] := fun listed => mild ⟨listed, penalty⟩
  cases decision : raw.decision <;> simp_all

theorem checkDecision_ok {item : ContentModerationCase κ} {content : Option (WorkspaceContent κ)} {owner : Option UserId}
    {input : ContentDecisionInput} {blockers : Nat}
    (h : CaseTables.checkDecision item content owner admin input blockers = .ok ()) :
    (item.caseType = .report → input.decision ≠ .restore)
      ∧ (item.caseType = .appeal → input.penalty = .none ∧ input.decision ≠ .remove ∧ input.decision ≠ .keep)
      ∧ (input.penalty ≠ .none → owner.isSome = true ∧ owner ≠ some admin)
      ∧ (∀ c, content = some c → (input.decision ∈ [.remove, .restore] ∨ input.penalty ≠ .none) →
        input.expectedUpdatedAt = some c.updatedAt)
      ∧ (∀ c, content = some c → input.penalty ≠ .none → input.expectedOwnerStatus = some c.owner.moderationStatus)
      ∧ (input.decision ∈ [.remove, .restore] ∨ input.penalty ≠ .none → content.isSome = true)
      ∧ ∀ c, content = some c → owner = some c.owner.id := by
  simp only [CaseTables.checkDecision, check_bind_ok, rejectIf_ok] at h
  obtain ⟨moved, unread, mild, appeal, report, -, unchanged, status, penalty⟩ := h
  refine ⟨fun type restores => report ⟨type, restores⟩, fun type => ?_, fun given => ?_, fun c read touches => ?_,
    fun c read given => ?_, fun touches => ?_, fun c read => ?_⟩
  · simp only [type, true_and, not_or, not_not] at appeal
    exact appeal
  · simp only [given, ne_eq, not_false_eq_true, if_true, CaseTables.checkPenalty, orThrow_bind_ok, check_bind_ok,
      rejectIf_ok, not_or] at penalty
    obtain ⟨c, -, ownerId, rfl, ⟨other, -⟩, -⟩ := penalty
    exact ⟨rfl, fun own => other (Option.some.inj own)⟩
  · subst read
    by_contra differs
    exact unchanged ⟨touches, by simpa using fun same => differs same.symm⟩
  · subst read
    by_contra differs
    exact status ⟨given, by simpa using fun same => differs same.symm⟩
  · by_contra missing
    have guidance : input.decision = .guidance := by
      by_contra other
      exact unread ⟨by simpa using missing, other⟩
    rcases touches with acts | given
    · simp [guidance] at acts
    · exact mild ⟨guidance, given⟩
  · subst read
    by_contra other
    exact moved (by simpa using other)

theorem decisionResult_lawful {item : ContentModerationCase κ} {content : Option (WorkspaceContent κ)}
    {raw input : ContentDecisionInput} {owner : Option UserId} {blockers : Nat} (parsed : raw.parse = .ok input)
    (checked : CaseTables.checkDecision item content owner admin input blockers = .ok ()) :
    (CaseTables.decisionResult content item.contentType input).Lawful item.caseType := by
  obtain ⟨-, -, -, bounds, -, -, mild⟩ := parse_ok parsed
  obtain ⟨report, appeal, -, -, -, -⟩ := checkDecision_ok checked
  refine ⟨report, appeal, mild, ?_, fun days given => ?_⟩
  · by_cases suspends : input.penalty = .suspend <;> simp [CaseTables.decisionResult, suspends]
  · by_cases suspends : input.penalty = .suspend
    · simp only [CaseTables.decisionResult, suspends, if_true, Option.some.injEq] at given
      omega
    · simp [CaseTables.decisionResult, suspends] at given

def PublicContentAction.status : PublicContentAction → PublicContentType → ContentStatus
  | .remove, .serviceListing => .service .suspended
  | .remove, .serviceRequest => .request .canceled
  | .restore, .serviceListing => .service .active
  | .restore, .serviceRequest => .request .open

/-- The status of an account after a penalty. -/
def CasePenalty.status : CasePenalty → AccountModerationStatus → AccountModerationStatus
  | .none, before => before
  | .warn, before => before
  | .suspend, _ => .suspended
  | .ban, _ => .banned

theorem decisionResult_some (c : WorkspaceContent κ) (type : PublicContentType) (input : ContentDecisionInput) :
    (CaseTables.decisionResult (some c) type input).contentStatus
        = some (input.decision.action.elim c.status (·.status type))
      ∧ (CaseTables.decisionResult (some c) type input).ownerStatus
        = some (input.penalty.status c.owner.moderationStatus) := by
  constructor
  · cases decision : input.decision <;> cases type <;> simp only [CaseTables.decisionResult, decision] <;> rfl
  · cases penalty : input.penalty <;> simp only [CaseTables.decisionResult, penalty] <;> rfl

end Decisions

section Reads

variable {κ : Type} [DecidableEq κ] {db : ContentDatabase κ} {id : κ} {c : WorkspaceContent κ}

theorem read_listing : db.readPublicContent .serviceListing id = .ok (some c) ↔ ∃ row provider category,
    db.services.find? (·.id == id) = some row ∧ db.users.find? (·.id == row.providerId) = some provider
      ∧ db.categories.find? (·.id == row.categoryId) = some category ∧ row.status ≠ .deleted
      ∧ row.content provider category = c := by
  simp only [ContentDatabase.readPublicContent]
  cases found : db.services.find? (·.id == id) with
  | none => simp [pure, Except.pure]
  | some row =>
      simp only [orThrow_bind_ok]
      constructor
      · rintro ⟨provider, known, category, filed, read⟩
        split at read
        · simp at read
        · rename_i kept
          exact ⟨row, provider, category, rfl, known, filed, kept, Option.some.inj (pure_ok.mp read)⟩
      · rintro ⟨row', provider, category, same, known, filed, kept, rfl⟩
        obtain rfl := Option.some.inj same
        exact ⟨provider, known, category, filed, if_neg kept⟩

theorem read_posting : db.readPublicContent .serviceRequest id = .ok (some c) ↔ ∃ row seeker category offerIds,
    db.serviceRequests.find? (·.id == id) = some row ∧ db.users.find? (·.id == row.seekerId) = some seeker
      ∧ db.categories.find? (·.id == row.categoryId) = some category ∧ row.targetServiceId = none
      ∧ offerIds = (db.offers.filter (·.requestId == row.id)).map (·.id)
      ∧ row.content seeker category (db.linkedBookings offerIds) (db.linkedPayments offerIds) = c := by
  simp only [ContentDatabase.readPublicContent]
  cases found : db.serviceRequests.find? (·.id == id) with
  | none => simp [pure, Except.pure]
  | some row =>
      simp only [orThrow_bind_ok]
      constructor
      · rintro ⟨seeker, known, category, filed, read⟩
        split at read
        · simp at read
        · rename_i untargeted
          exact ⟨row, seeker, category, _, rfl, known, filed, by simpa using untargeted, rfl, Option.some.inj (pure_ok.mp read)⟩
      · rintro ⟨row', seeker, category, _, same, known, filed, untargeted, rfl, rfl⟩
        obtain rfl := Option.some.inj same
        exact ⟨seeker, known, category, filed, if_neg (by simp [untargeted])⟩

theorem listing_owner {row : ServiceContent κ} (h : db.readPublicContent .serviceListing id = .ok (some c))
    (found : db.services.find? (·.id == id) = some row) : c.owner.id = row.providerId := by
  obtain ⟨row', provider, category, found', known, -, -, rfl⟩ := read_listing.mp h
  obtain rfl := Option.some.inj (found.symm.trans found')
  have own : provider.id = row.providerId := by simpa using List.find?_some known
  exact own

theorem posting_owner {row : RequestContent κ} (h : db.readPublicContent .serviceRequest id = .ok (some c))
    (found : db.serviceRequests.find? (·.id == id) = some row) : c.owner.id = row.seekerId := by
  obtain ⟨row', seeker, category, _, found', known, -, -, -, rfl⟩ := read_posting.mp h
  obtain rfl := Option.some.inj (found.symm.trans found')
  have own : seeker.id = row.seekerId := by simpa using List.find?_some known
  exact own

theorem read_names {type : PublicContentType} (h : db.readPublicContent type id = .ok (some c)) :
    c.id = id ∧ c.contentType = type := by
  cases type with
  | serviceListing =>
      obtain ⟨row, provider, category, found, -, -, -, rfl⟩ := read_listing.mp h
      have same : row.id = id := by simpa using List.find?_some found
      exact ⟨same, rfl⟩
  | serviceRequest =>
      obtain ⟨row, seeker, category, _, found, -, -, -, -, rfl⟩ := read_posting.mp h
      have same : row.id = id := by simpa using List.find?_some found
      exact ⟨same, rfl⟩

/-- Two reads of an item with the columns of its row in common. -/
theorem read_own {db' : ContentDatabase κ} {type : PublicContentType} {c' : WorkspaceContent κ}
    (read : db.readPublicContent type id = .ok (some c)) (read' : db'.readPublicContent type id = .ok (some c'))
    (services : ∀ row ∈ db'.services, row.updatedAt = c'.updatedAt → ∃ old ∈ db.services, old.columns = row.columns)
    (requests : ∀ row ∈ db'.serviceRequests, row.updatedAt = c'.updatedAt →
      ∃ old ∈ db.serviceRequests, old.columns = row.columns) : c'.own = c.own := by
  cases type with
  | serviceListing =>
      obtain ⟨row, provider, category, found, -, -, -, rfl⟩ := read_listing.mp read
      obtain ⟨row', provider', category', found', -, -, -, rfl⟩ := read_listing.mp read'
      obtain ⟨old, among, same⟩ := services row' (List.mem_of_find?_eq_some found') rfl
      have named : old.columns.id = row'.columns.id := congrArg (fun r => r.id) same
      have keyed' : row'.id = id := by simpa using List.find?_some found'
      have keyed : old.id = id := named.trans keyed'
      obtain rfl : old = row := Option.some.inj ((keyed ▸ find_key _ db.serviceKeys among).symm.trans found)
      have owned : provider.id = old.providerId := listing_owner read found
      have owned' : provider'.id = row'.providerId := listing_owner read' found'
      rw [ServiceContent.content_own owned, ServiceContent.content_own owned', same]
  | serviceRequest =>
      obtain ⟨row, seeker, category, _, found, -, -, -, -, rfl⟩ := read_posting.mp read
      obtain ⟨row', seeker', category', _, found', -, -, -, -, rfl⟩ := read_posting.mp read'
      obtain ⟨old, among, same⟩ := requests row' (List.mem_of_find?_eq_some found') rfl
      have named : old.columns.id = row'.columns.id := congrArg (fun r => r.id) same
      have keyed' : row'.id = id := by simpa using List.find?_some found'
      have keyed : old.id = id := named.trans keyed'
      obtain rfl : old = row := Option.some.inj ((keyed ▸ find_key _ db.requestKeys among).symm.trans found)
      have owned : seeker.id = old.seekerId := posting_owner read found
      have owned' : seeker'.id = row'.seekerId := posting_owner read' found'
      rw [RequestContent.content_own owned, RequestContent.content_own owned', same]

end Reads

section Writes

variable {κ : Type} [DecidableEq κ] {t t' : CaseTables κ} {type : PublicContentType} {id : κ} {admin : UserId}
  {action : PublicContentAction} {reason : Text} {restorable : Except HttpError Unit} {now : Millis}
  {before after : ContentDatabase κ}

theorem stamped_iff : CaseTables.stamped now before after = true ↔
    (∀ row ∈ after.services, row.updatedAt = now ∨ ∃ old ∈ before.services, old.columns = row.columns)
      ∧ ∀ row ∈ after.serviceRequests, row.updatedAt = now ∨ ∃ old ∈ before.serviceRequests, old.columns = row.columns := by
  simp [CaseTables.stamped]

theorem stamped_same (services : after.services = before.services)
    (requests : after.serviceRequests = before.serviceRequests) : CaseTables.stamped now before after = true := by
  refine stamped_iff.mpr ⟨fun row listed => ?_, fun row listed => ?_⟩
  · exact .inr ⟨row, services ▸ listed, rfl⟩
  · exact .inr ⟨row, requests ▸ listed, rfl⟩

theorem stamped_writeService (db : ContentDatabase κ) :
    CaseTables.stamped now db (db.writeService now id action reason) = true := by
  refine stamped_iff.mpr ⟨fun row' listed => ?_, fun row listed => .inr ⟨row, listed, rfl⟩⟩
  obtain ⟨row, old, rfl⟩ := Rows.mem_updateWhere.mp listed
  split
  · exact .inl (row.moderate_keys now action reason).2.2.2
  · exact .inr ⟨row, old, rfl⟩

theorem stamped_writeRequest (db : ContentDatabase κ) :
    CaseTables.stamped now db (db.writeRequest now id action reason) = true := by
  refine stamped_iff.mpr ⟨fun row listed => .inr ⟨row, listed, rfl⟩, fun row' listed => ?_⟩
  obtain ⟨row, old, rfl⟩ := Rows.mem_updateWhere.mp listed
  split
  · exact .inl (row.moderate_keys now action reason).2.2.2
  · exact .inr ⟨row, old, rfl⟩

/-- The write of `applyPublicContentAction`. -/
def ContentDatabase.writeContent (db : ContentDatabase κ) (now : Millis) (type : PublicContentType) (id : κ)
    (action : PublicContentAction) (reason : Text) : ContentDatabase κ :=
  match type with
  | .serviceListing => db.writeService now id action reason
  | .serviceRequest => db.writeRequest now id action reason

/-- A content action stamps the content and adds one audit row. -/
theorem applyPublicContentAction_ok (h : t.applyPublicContentAction type id admin action reason restorable = .ok t') :
    ∃ row, t' = { t with db := t.db.writeContent t.now type id action reason, audit := t.audit ++ [row] }
      ∧ row.caseId = none := by
  cases type with
  | serviceListing =>
      cases action with
      | remove =>
          simp only [CaseTables.applyPublicContentAction, bind_ok, pure_ok] at h
          obtain ⟨content, -, -, -, rfl⟩ := h
          exact ⟨_, rfl, rfl⟩
      | restore =>
          simp only [CaseTables.applyPublicContentAction, bind_ok, pure_ok] at h
          obtain ⟨content, -, -, -, -, -, rfl⟩ := h
          exact ⟨_, rfl, rfl⟩
  | serviceRequest =>
      cases action with
      | remove =>
          simp only [CaseTables.applyPublicContentAction, bind_ok, pure_ok] at h
          obtain ⟨content, -, -, -, -, -, -, -, rfl⟩ := h
          exact ⟨_, rfl, rfl⟩
      | restore =>
          simp only [CaseTables.applyPublicContentAction, bind_ok, pure_ok] at h
          obtain ⟨content, -, -, -, -, -, -, -, -, -, rfl⟩ := h
          exact ⟨_, rfl, rfl⟩

theorem stamped_writeContent (db : ContentDatabase κ) :
    CaseTables.stamped now db (db.writeContent now type id action reason) = true := by
  cases type with
  | serviceListing => exact stamped_writeService db
  | serviceRequest => exact stamped_writeRequest db

/-- Content that is read before an action is read after it, with the status of the action. -/
theorem read_writeContent {db : ContentDatabase κ} {c : WorkspaceContent κ}
    (read : db.readPublicContent type id = .ok (some c)) :
    ∃ c', (db.writeContent now type id action reason).readPublicContent type id = .ok (some c')
      ∧ c'.status = action.status type ∧ c'.owner = c.owner := by
  cases type with
  | serviceListing =>
      obtain ⟨row, provider, category, found, known, filed, -, rfl⟩ := read_listing.mp read
      have keyed : row.id = id := by simpa using List.find?_some found
      have written : (db.writeContent now .serviceListing id action reason).services.find? (·.id == id)
          = some (row.moderate now action reason) := by
        simp [ContentDatabase.writeContent, ContentDatabase.writeService,
          Rows.find_updateWhere _ fun r : ServiceContent κ => (r.moderate_keys now action reason).1, found, keyed]
      refine ⟨_, read_listing.mpr ⟨_, provider, category, written, ?_, ?_, ?_, rfl⟩, ?_, rfl⟩
      · cases action <;> exact known
      · cases action <;> exact filed
      · cases action <;> simp [ServiceContent.moderate]
      · cases action <;> rfl
  | serviceRequest =>
      obtain ⟨row, seeker, category, offerIds, found, known, filed, untargeted, own, rfl⟩ := read_posting.mp read
      have keyed : row.id = id := by simpa using List.find?_some found
      have written : (db.writeContent now .serviceRequest id action reason).serviceRequests.find? (·.id == id)
          = some (row.moderate now action reason) := by
        simp [ContentDatabase.writeContent, ContentDatabase.writeRequest,
          Rows.find_updateWhere _ fun r : RequestContent κ => (r.moderate_keys now action reason).1, found, keyed]
      refine ⟨_, read_posting.mpr ⟨_, seeker, category, offerIds, written, ?_, ?_, ?_, ?_, rfl⟩, ?_, rfl⟩
      · cases action <;> exact known
      · cases action <;> exact filed
      · cases action <;> exact untargeted
      · cases action <;> exact own
      · cases action <;> rfl

theorem read_setModerationStatus {db : ContentDatabase κ} {c : WorkspaceContent κ} (status : AccountModerationStatus)
    (read : db.readPublicContent type id = .ok (some c)) :
    ∃ c', (db.setModerationStatus c.owner.id status).readPublicContent type id = .ok (some c')
      ∧ c'.status = c.status ∧ c'.owner.moderationStatus = status := by
  have owner : ∀ (user : ContentOwner) (userId : UserId), db.users.find? (·.id == userId) = some user →
      (db.setModerationStatus user.id status).users.find? (·.id == userId) = some { user with moderationStatus := status } := by
    intro user userId known
    change (Rows.updateWhere _ _ db.users).find? _ = _
    rw [Rows.find_updateWhere (g := fun u : ContentOwner => { u with moderationStatus := status }) ContentOwner.id
      (fun _ => rfl), known]
    simp
  cases type with
  | serviceListing =>
      obtain ⟨row, provider, category, found, known, filed, kept, rfl⟩ := read_listing.mp read
      exact ⟨_, read_listing.mpr ⟨row, _, category, found, owner _ _ known, filed, kept, rfl⟩, rfl, rfl⟩
  | serviceRequest =>
      obtain ⟨row, seeker, category, offerIds, found, known, filed, untargeted, own, rfl⟩ := read_posting.mp read
      exact ⟨_, read_posting.mpr ⟨row, _, category, offerIds, found, owner _ _ known, filed, untargeted, own, rfl⟩, rfl, rfl⟩

theorem penalize_read {c : WorkspaceContent κ} (caseId : Nat) (admin : UserId) (input : ContentDecisionInput)
    (read : t.db.readPublicContent type id = .ok (some c)) :
    ∃ c', (t.penalize caseId admin (some c.owner.id) input).db.readPublicContent type id = .ok (some c')
      ∧ c'.status = c.status ∧ c'.owner.moderationStatus = input.penalty.status c.owner.moderationStatus := by
  cases penalty : input.penalty with
  | none | warn => exact ⟨c, by simpa [CaseTables.penalize, penalty, CasePenalty.auditAction] using read, rfl, rfl⟩
  | suspend =>
      obtain ⟨c', read', same, written⟩ := read_setModerationStatus .suspended read
      exact ⟨c', by simpa [CaseTables.penalize, penalty, CasePenalty.auditAction] using read', same, written⟩
  | ban =>
      obtain ⟨c', read', same, written⟩ := read_setModerationStatus .banned read
      exact ⟨c', by simpa [CaseTables.penalize, penalty, CasePenalty.auditAction] using read', same, written⟩

theorem actOnContent_read {item : ContentModerationCase κ} {c : WorkspaceContent κ} {input : ContentDecisionInput}
    (read : t.db.readPublicContent item.contentType c.id = .ok (some c))
    (h : t.actOnContent item (some c) admin input restorable = .ok t') :
    ∃ c', t'.db.readPublicContent item.contentType c.id = .ok (some c')
      ∧ c'.status = input.decision.action.elim c.status (·.status item.contentType) ∧ c'.owner = c.owner := by
  cases acts : input.decision.action with
  | none =>
      simp only [CaseTables.actOnContent, acts, Except.ok.injEq] at h
      exact ⟨c, h ▸ read, rfl, rfl⟩
  | some action =>
      simp only [CaseTables.actOnContent, acts] at h
      obtain ⟨row, rfl, -⟩ := applyPublicContentAction_ok h
      exact read_writeContent read

/-- What a transaction may do: content is written, a case is filed, or an open case is decided with the audit rows that
    its columns stand for. -/
inductive CaseEvent (t : CaseTables κ) : CaseTables κ → Prop where
  | kept {db : ContentDatabase κ} {until_ : UserId → Option Millis} {reasons : UserId → Option Text}
      {revisions : List RevisionEvent} {now : Millis} (later : t.now ≤ now)
      (stamped : CaseTables.stamped t.now t.db db = true) :
      CaseEvent t { t with db, suspendedUntil := until_, moderationReason := reasons, revisions, now }
  | filed {c : ContentModerationCase κ} (undecided : c.status = .open) (ordered : c.InOrder)
      (first : ∀ d ∈ t.cases, d.status = .open → d.subject ≠ c.subject) :
      CaseEvent t { t with cases := t.cases ++ [c] }
  | changed {db : ContentDatabase κ} {row : ContentAudit κ} (caseless : row.caseId = none)
      (stamped : CaseTables.stamped t.now t.db db = true) : CaseEvent t { t with db, audit := t.audit ++ [row] }
  | decided {id : Nat} {item : ContentModerationCase κ} {admin : UserId} {input : ContentDecisionInput}
      {result : DecisionResult} {owner : Option UserId} {db : ContentDatabase κ} {until_ : UserId → Option Millis}
      {reasons : UserId → Option Text} {acted rows : List (ContentAudit κ)} (found : t.cases[id]? = some item)
      (undecided : item.status = .open) (stamped : CaseTables.stamped t.now t.db db = true)
      (kept : ∀ known, item.contentOwnerId = some known → owner = some known)
      (same : result.decision = input.decision ∧ result.penalty = input.penalty)
      (lawful : result.Lawful item.caseType) (other : result.penalty ≠ .none → owner.isSome = true ∧ owner ≠ some admin)
      (caseless : ∀ row ∈ acted, row.caseId = none)
      (audited : rows = (item.resolve t.now admin input result owner).auditRows id) :
      CaseEvent t { t with
        db, suspendedUntil := until_, moderationReason := reasons
        cases := t.cases.modify id (·.resolve t.now admin input result owner), audit := t.audit ++ acted ++ rows }

theorem actOnContent_ok {item : ContentModerationCase κ} {content : Option (WorkspaceContent κ)}
    {input : ContentDecisionInput} (h : t.actOnContent item content admin input restorable = .ok t') :
    ∃ db acted, t' = { t with db, audit := t.audit ++ acted } ∧ (∀ row ∈ acted, row.caseId = none)
      ∧ CaseTables.stamped t.now t.db db = true := by
  unfold CaseTables.actOnContent at h
  split at h
  · obtain ⟨row, rfl, caseless⟩ := applyPublicContentAction_ok h
    refine ⟨_, [row], rfl, fun e listed => ?_, stamped_writeContent t.db⟩
    rw [List.mem_singleton.mp listed]
    exact caseless
  · obtain rfl := Except.ok.inj h
    exact ⟨t.db, [], by simp, by simp, stamped_same rfl rfl⟩

/-- A decision replays the recorded one, or decides an open case on the content that it reads. -/
theorem decideWorkspaceCase_ok {caseId : Nat} {raw : ContentDecisionInput} {blockers : Nat} {replay : Bool}
    (h : t.decideWorkspaceCase caseId admin raw blockers restorable = .ok (t', replay)) :
    ∃ input item, raw.parse = .ok input ∧ t.cases[caseId]? = some item
      ∧ (item.status = .resolved ∧ item.agrees input = true ∧ t' = t ∧ replay = true
        ∨ item.status = .open ∧ replay = false ∧ ∃ content acted owner,
          t.db.readResource item.contentType item.resourceId = .ok content
            ∧ owner = item.contentOwnerId.or (content.map (·.owner.id))
            ∧ CaseTables.checkDecision item content owner admin input blockers = .ok ()
            ∧ t.actOnContent item content admin input restorable = .ok acted
            ∧ t' = { acted.penalize caseId admin owner input with
                cases := (acted.penalize caseId admin owner input).cases.modify caseId
                  (·.resolve t.now admin input (CaseTables.decisionResult content item.contentType input) owner)
                audit := (acted.penalize caseId admin owner input).audit ++ [{
                  actorId := admin, targetUserId := owner.getD item.submitterId
                  action := .contentCaseResolved (CaseTables.decisionResult content item.contentType input) item.resourceId
                    item.submitterId
                  caseId := some caseId, reason := input.resolution, createdAt := t.now }] }) := by
  simp only [CaseTables.decideWorkspaceCase, bind_ok, orThrow_ok] at h
  obtain ⟨input, parsed, item, found, h⟩ := h
  refine ⟨input, item, parsed, found, ?_⟩
  cases status : item.status with
  | resolved =>
      simp only [status, if_true] at h
      split at h
      · rename_i agrees
        obtain ⟨rfl, rfl⟩ := Prod.mk.inj (pure_ok.mp h)
        exact .inl ⟨rfl, agrees, rfl, rfl⟩
      · cases throw_ok.mp h
  | «open» =>
      simp only [status, reduceCtorEq, if_false, bind_ok, pure_ok] at h
      obtain ⟨content, read, _, checked, acted, acts, h⟩ := h
      obtain ⟨rfl, rfl⟩ := Prod.mk.inj h
      exact .inr ⟨rfl, rfl, content, acted, _, read, rfl, checked, acts, rfl⟩

theorem decideWorkspaceCase_event {caseId : Nat} {raw : ContentDecisionInput} {blockers : Nat} {replay : Bool}
    (h : t.decideWorkspaceCase caseId admin raw blockers restorable = .ok (t', replay)) : CaseEvent t t' := by
  obtain ⟨input, item, parsed, found, ⟨-, -, rfl, -⟩ | ⟨undecided, -, content, acted, owner, -, own, checked, acts, rfl⟩⟩ :=
    decideWorkspaceCase_ok h
  · exact .kept (Nat.le_refl _) (stamped_same rfl rfl)
  · obtain ⟨db, rows, rfl, caseless, stamped⟩ := actOnContent_ok acts
    obtain ⟨db', until_, reasons, penalized, services, requests⟩ :=
      penalize_eq { t with db, audit := t.audit ++ rows } caseId admin owner input
    rw [penalized]
    have stamped' : CaseTables.stamped t.now t.db db' = true := by
      rw [CaseTables.stamped, services, requests]
      exact stamped
    obtain ⟨-, -, punished, -, -, -⟩ := checkDecision_ok checked
    have audited : (item.resolve t.now admin input (CaseTables.decisionResult content item.contentType input) owner).auditRows caseId
        = (owner.bind fun targetUserId => input.penalty.auditAction.map fun action => {
            actorId := admin, targetUserId, action, caseId := some caseId, reason := input.resolution
            createdAt := t.now : ContentAudit κ }).toList ++ [{
          actorId := admin, targetUserId := owner.getD item.submitterId
          action := .contentCaseResolved (CaseTables.decisionResult content item.contentType input) item.resourceId
            item.submitterId
          caseId := some caseId, reason := input.resolution, createdAt := t.now }] := by
      cases owner with
      | some owner =>
          cases penalty : input.penalty <;>
            simp [ContentModerationCase.auditRows, ContentModerationCase.resolve, CaseTables.decisionResult, penalty,
              CasePenalty.auditAction]
      | none =>
          have mild : input.penalty = .none := by
            by_contra given
            exact absurd (punished given).1 (by simp)
          simp [ContentModerationCase.auditRows, ContentModerationCase.resolve, CaseTables.decisionResult, mild,
            CasePenalty.auditAction]
    have lawful := decisionResult_lawful parsed checked
    simp only [List.append_assoc _ _ [_], ← audited]
    exact .decided found undecided stamped' (fun known same => by rw [own, same, Option.some_or]) ⟨rfl, rfl⟩ lawful punished
      caseless rfl

end Writes

section Submissions

variable {κ : Type} [DecidableEq κ] {t t' : CaseTables κ} {submitter : UserId} {input : ContentCaseInput κ} {membership : Bool}

theorem checkReport_ok (h : t.checkReport submitter input membership = .ok ()) : ∃ id, input.resourceId = some id
    ∧ ∀ c, t.db.readPublicContent input.contentType id = .ok (some c) → c.owner.id ≠ submitter := by
  simp only [CaseTables.checkReport, orThrow_bind_ok] at h
  obtain ⟨id, about, h⟩ := h
  refine ⟨id, about, fun c read => ?_⟩
  cases type : input.contentType with
  | serviceListing =>
      simp only [type, orThrow_bind_ok, check_bind_ok, rejectIf_ok, Option.filter_eq_some_iff] at h
      obtain ⟨row, ⟨found, -⟩, other, -⟩ := h
      rw [type] at read
      exact fun same => other ((listing_owner read found).symm.trans same)
  | serviceRequest =>
      simp only [type, orThrow_bind_ok, check_bind_ok, rejectIf_ok, Option.filter_eq_some_iff] at h
      obtain ⟨row, ⟨found, -⟩, other, -⟩ := h
      rw [type] at read
      exact fun same => other ((posting_owner read found).symm.trans same)

theorem checkAppeal_ok (h : t.checkAppeal submitter input = .ok ()) {id : κ} (about : input.resourceId = some id)
    {c : WorkspaceContent κ} (read : t.db.readPublicContent input.contentType id = .ok (some c)) :
    c.owner.id = submitter := by
  simp only [CaseTables.checkAppeal, check_bind_ok] at h
  obtain ⟨-, h⟩ := h
  cases type : input.contentType with
  | serviceListing =>
      simp only [about, type, orThrow_bind_ok, Option.filter_eq_some_iff, Bool.and_eq_true, beq_iff_eq] at h
      obtain ⟨row, ⟨found, mine, -⟩, -⟩ := h
      rw [type] at read
      exact (listing_owner read found).trans mine
  | serviceRequest =>
      simp only [about, type, orThrow_bind_ok, Option.filter_eq_some_iff, Bool.and_eq_true, beq_iff_eq] at h
      obtain ⟨row, ⟨found, ⟨mine, -⟩, -⟩, -⟩ := h
      rw [type] at read
      exact (posting_owner read found).trans mine

/-- A case that is filed is the first open one of its submitter on its subject. -/
theorem submitContentCase_event {raw : ContentCaseInput κ}
    (h : t.submitContentCase submitter raw membership = .ok t') : CaseEvent t t' := by
  simp only [CaseTables.submitContentCase, bind_ok, rejectIf_ok, pure_ok] at h
  obtain ⟨input, parsed, _, eligible, _, fresh, content, read, _, shown, rfl⟩ := h
  have silent : input.caseType = .appeal → input.reportReason = none := by
    simp only [ContentCaseInput.parse, check_bind_ok, rejectIf_ok, pure_ok] at parsed
    obtain ⟨-, quiet, rfl⟩ := parsed
    intro appeal
    by_contra given
    exact quiet ⟨appeal, by simpa [Option.isSome_iff_ne_none] using given⟩
  refine .filed rfl ⟨fun _ => ⟨rfl, rfl, rfl, rfl, rfl, rfl⟩, fun resolved => ?_, fun type => ?_, fun type => ?_⟩ ?_
  · cases resolved
  · replace type : input.caseType = .report := type
    simp only [CaseTables.checkSubmission, type] at eligible
    obtain ⟨id, about, other⟩ := checkReport_ok eligible
    rw [about] at read
    cases content with
    | none => simp [type] at shown
    | some c =>
        obtain ⟨named, typed⟩ := read_names read
        refine ⟨contentSnapshot c, rfl, ?_, typed.symm, rfl, other c read⟩
        simp [about, contentSnapshot, named]
  · replace type : input.caseType = .appeal := type
    simp only [CaseTables.checkSubmission, type] at eligible
    constructor
    · cases content with
      | none => simp [type]
      | some c =>
          cases about : input.resourceId with
          | none => simp [about, ContentDatabase.readResource] at read
          | some id =>
              rw [about] at read
              simp [checkAppeal_ok eligible about read]
    · simp [type]
  · intro d listed undecided same
    simp only [ContentModerationCase.subject, Prod.mk.injEq] at same
    refine fresh ?_
    simp only [CaseTables.hasOpenCase, List.any_eq_true]
    exact ⟨d, listed, by simp [undecided, same]⟩

end Submissions

section Steps

variable {κ : Type} [DecidableEq κ] {t t' : CaseTables κ} {a : CaseAction κ}

theorem CaseTables.step_event (h : caseMachine.next t a = some t') : CaseEvent t t' := by
  cases a with
  | submitContentCase submitter input membership => exact submitContentCase_event (toOption_some.mp h)
  | decideWorkspaceCase id admin input blockers restorable =>
      obtain ⟨⟨after, replay⟩, run, rfl⟩ := Option.map_eq_some_iff.mp h
      exact decideWorkspaceCase_event (toOption_some.mp run)
  | resolveContentCase id admin resolution =>
      obtain ⟨⟨after, replay⟩, run, rfl⟩ := Option.map_eq_some_iff.mp h
      have run := toOption_some.mp run
      simp only [CaseTables.resolveContentCase, orThrow_bind_ok] at run
      obtain ⟨item, -, run⟩ := run
      exact decideWorkspaceCase_event run
  | changeWorkspaceContent type id admin action reason expectedUpdatedAt restorable =>
      have run := toOption_some.mp h
      simp only [CaseTables.changeWorkspaceContent, bind_ok, orThrow_ok] at run
      obtain ⟨content, -, content', -, _, -, run⟩ := run
      obtain ⟨row, rfl, caseless⟩ := applyPublicContentAction_ok run
      exact .changed caseless (stamped_writeContent t.db)
  | revise actorId contentType =>
      obtain rfl := Option.some.inj h
      exact .kept (Nat.le_refl _) (stamped_same rfl rfl)
  | marketplace db =>
      simp only [caseMachine, CaseTables.step, Option.ite_none_right_eq_some, Option.some.injEq] at h
      obtain ⟨stamped, rfl⟩ := h
      exact .kept (Nat.le_refl _) stamped
  | wait time =>
      obtain rfl := Option.some.inj h
      exact .kept (Nat.le_add_right _ _) (stamped_same rfl rfl)

end Steps

namespace CaseTables

variable {κ : Type}

/-- The rows of the audit log about a case. -/
def auditOf (t : CaseTables κ) (id : Nat) : List (ContentAudit κ) := t.audit.filter (·.caseId == some id)

/-- The cases after any run. -/
structure InOrder (t : CaseTables κ) : Prop where
  ordered : ∀ c ∈ t.cases, c.InOrder
  single : ∀ (i j : Nat) c d, t.cases[i]? = some c → t.cases[j]? = some d → c.status = .open → d.status = .open →
    c.subject = d.subject → i = j
  audited : ∀ i, t.auditOf i = (t.cases[i]?).elim [] fun c => c.auditRows i

end CaseTables

section Filing

variable {κ : Type} {i : Nat} {c : ContentModerationCase κ}

theorem getElem?_filed {cases : List (ContentModerationCase κ)} {new : ContentModerationCase κ}
    (found : (cases ++ [new])[i]? = some c) : cases[i]? = some c ∨ i = cases.length ∧ c = new := by
  rcases Nat.lt_or_ge i cases.length with old | beyond
  · rw [List.getElem?_append_left old] at found
    exact .inl found
  · rw [List.getElem?_append_right beyond, List.getElem?_singleton] at found
    split at found
    · exact .inr ⟨by omega, (Option.some.inj found).symm⟩
    · cases found

theorem ContentModerationCase.InOrder.resolve {now : Millis} {admin : UserId} {input : ContentDecisionInput}
    {result : DecisionResult} {owner : Option UserId} (h : c.InOrder)
    (kept : ∀ known, c.contentOwnerId = some known → owner = some known)
    (same : result.decision = input.decision ∧ result.penalty = input.penalty) (lawful : result.Lawful c.caseType)
    (other : result.penalty ≠ .none → owner.isSome = true ∧ owner ≠ some admin) :
    (c.resolve now admin input result owner).InOrder := by
  obtain ⟨known, owned⟩ := h.owner
  obtain rfl := kept known owned
  refine ⟨fun undecided => ?_, fun _ => ?_, fun type => ?_, fun type => ?_⟩
  · cases undecided
  · exact ⟨admin, input.resolution, result, now, rfl, rfl, congrArg some same.1.symm, congrArg some same.2.symm, rfl, rfl,
      lawful, fun given => (other given).2⟩
  · obtain ⟨snapshot, kept_, about, typed, owner, others⟩ := h.report type
    exact ⟨snapshot, kept_, about, typed, owned.symm.trans owner, others⟩
  · obtain ⟨owner, silent⟩ := h.appeal type
    exact ⟨owned.symm.trans owner, silent⟩

theorem filter_caseless {rows : List (ContentAudit κ)} (caseless : ∀ e ∈ rows, e.caseId = none) :
    rows.filter (·.caseId == some i) = [] := by
  refine List.filter_eq_nil_iff.mpr fun e listed => ?_
  simp [caseless e listed]

theorem resolve_agrees {now : Millis} {admin : UserId} {input input' : ContentDecisionInput} {result : DecisionResult}
    {owner : Option UserId}
    (dated : result.suspensionDays = if input.penalty = .suspend then some input.suspensionDays else none) :
    (c.resolve now admin input result owner).agrees input' = true ↔ input'.decision = input.decision
      ∧ input'.penalty = input.penalty ∧ input'.resolution = input.resolution
      ∧ (input.penalty = .suspend → input'.suspensionDays = input.suspensionDays) := by
  simp only [ContentModerationCase.agrees, ContentModerationCase.resolve, Option.bind_some, Bool.and_eq_true, beq_iff_eq,
    Option.some.injEq, Bool.or_eq_true, bne_iff_ne, dated]
  constructor
  · rintro ⟨⟨⟨decision, penalty⟩, resolution⟩, days⟩
    refine ⟨decision.symm, penalty.symm, resolution.symm, fun suspends => ?_⟩
    simp only [← penalty, suspends, ne_eq, not_true_eq_false, if_true, Option.some.injEq, false_or] at days
    exact days.symm
  · rintro ⟨decision, penalty, resolution, days⟩
    refine ⟨⟨⟨decision.symm, penalty.symm⟩, resolution.symm⟩, ?_⟩
    by_cases suspends : input.penalty = .suspend
    · exact .inr (by rw [if_pos suspends, days suspends])
    · exact .inl (penalty ▸ suspends)

end Filing

section Runs

variable {κ : Type} [DecidableEq κ] {s t t' : CaseTables κ} {i : Nat} {c : ContentModerationCase κ}

theorem CaseTables.InOrder.step (h : t.InOrder) (event : CaseEvent t t') : t'.InOrder := by
  cases event with
  | kept => exact ⟨h.ordered, h.single, h.audited⟩
  | @filed new undecided ordered first =>
      refine ⟨fun c listed => ?_, fun i j c d found found' open_ open' same => ?_, fun i => ?_⟩
      · rcases List.mem_append.mp listed with old | fresh
        · exact h.ordered c old
        · rw [List.mem_singleton.mp fresh]
          exact ordered
      · rcases getElem?_filed found with old | ⟨rfl, rfl⟩ <;> rcases getElem?_filed found' with old' | ⟨rfl, rfl⟩
        · exact h.single i j c d old old' open_ open' same
        · exact absurd same (first c (List.mem_of_getElem? old) open_)
        · exact absurd same.symm (first d (List.mem_of_getElem? old') open')
        · rfl
      · refine (h.audited i).trans ?_
        rcases Nat.lt_or_ge i t.cases.length with old | beyond
        · rw [List.getElem?_append_left old]
        · rw [List.getElem?_eq_none beyond, List.getElem?_append_right beyond, List.getElem?_singleton]
          split
          · simp [ordered.unaudited undecided]
          · rfl
  | @changed db row caseless =>
      refine ⟨h.ordered, h.single, fun i => ?_⟩
      have silent : [row].filter (·.caseId == some i) = [] :=
        filter_caseless fun e listed => by rw [List.mem_singleton.mp listed, caseless]
      rw [CaseTables.auditOf, List.filter_append, silent, List.append_nil]
      exact h.audited i
  | @decided id item admin input result owner db until_ reasons acted rows found undecided _ kept same lawful other caseless
      audited =>
      have item_ordered := h.ordered item (List.mem_of_getElem? found)
      have resolved : (item.resolve t.now admin input result owner).InOrder :=
        item_ordered.resolve kept same lawful other
      have written : ∀ j, (t.cases.modify id (·.resolve t.now admin input result owner))[j]?
          = if id = j then some (item.resolve t.now admin input result owner) else t.cases[j]? := by
        intro j
        rw [List.getElem?_modify]
        split
        · rename_i own
          rw [← own, found]
          rfl
        · simp
      refine ⟨fun c listed => ?_, fun i j c d found found' open_ open' same => ?_, fun i => ?_⟩
      · obtain ⟨j, found'⟩ := List.mem_iff_getElem?.mp listed
        rw [written j] at found'
        split at found'
        · rw [← Option.some.inj found']
          exact resolved
        · exact h.ordered c (List.mem_of_getElem? found')
      · rw [written i] at found
        rw [written j] at found'
        split at found
        · rw [← Option.some.inj found] at open_
          cases open_
        · split at found'
          · rw [← Option.some.inj found'] at open'
            cases open'
          · exact h.single i j c d found found' open_ open' same
      · rw [CaseTables.auditOf, List.filter_append, List.filter_append, filter_caseless caseless, List.append_nil, written i]
        split
        · rename_i own
          subst own
          -- nothing was audited about the open case
          have before : t.auditOf id = [] := by
            rw [h.audited id, found]
            exact item_ordered.unaudited undecided id
          have all : rows.filter (·.caseId == some id) = rows := by
            refine List.filter_eq_self.mpr fun e listed => ?_
            rw [audited] at listed
            simp [auditRows_caseId e listed]
          rw [CaseTables.auditOf] at before
          rw [before, all, audited]
          rfl
        · rename_i apart
          have silent : rows.filter (·.caseId == some i) = [] := by
            refine List.filter_eq_nil_iff.mpr fun e listed => ?_
            rw [audited] at listed
            simp [auditRows_caseId e listed, apart]
          rw [silent, List.append_nil]
          exact h.audited i

/-- In every reachable state a member has at most one open case on the same content, the columns of every case agree,
    and the audit log holds exactly the rows that they stand for. -/
theorem content_cases_in_order (h : caseMachine.Reachable t) : t.InOrder := by
  refine h.invariant (fun t start => ?_) fun t a t' ordered next => ordered.step (CaseTables.step_event next)
  obtain ⟨cases, audit⟩ := start
  exact ⟨by simp [cases], by simp [cases], by simp [CaseTables.auditOf, cases, audit]⟩

/-- A listing of one member that another one may report. -/
def sampleContentCases : CaseTables Nat where
  db := {
    users := [
      { id := 1, name := [], email := [], verificationStatus := .approved, emailVerified := true },
      { id := 2, name := [], email := [], verificationStatus := .approved, emailVerified := true }]
    categories := [⟨3, []⟩]
    services := [
      { id := 4, providerId := 1, categoryId := 3, title := [], description := [], price := some 60000, isAvailable := true
        createdAt := 5, updatedAt := 10 }]
    serviceRequests := []
    serviceKeys := by decide
    requestKeys := by decide
    providers := by simp
    seekers := by simp
    serviceCategories := by simp
    requestCategories := by simp }
  now := 50

def sampleContentReport : CaseAction Nat :=
  .submitContentCase 2 ⟨.report, .serviceListing, some 4, List.replicate 12 'a', none⟩ true

def sampleContentRemoval : ContentDecisionInput where
  decision := .remove
  penalty := .warn
  resolution := List.replicate 12 'b'
  expectedUpdatedAt := some 10
  expectedOwnerStatus := some .active

/-- A report that ends in a removal, and the appeal against it. -/
theorem content_cases_in_order_sample : ∃ t, caseMachine.exec sampleContentCases [
      sampleContentReport, .decideWorkspaceCase 0 9 sampleContentRemoval 0 (.ok ()),
      .submitContentCase 1 ⟨.appeal, .serviceListing, some 4, List.replicate 12 'c', none⟩ false] = some t
    ∧ t.cases.map (·.status) = [.resolved, .open] ∧ t.audit.length = 3 ∧ t.InOrder := by
  obtain ⟨t, run, statuses, audited⟩ := sample_any (p := fun t : CaseTables Nat =>
      t.cases.map (·.status) = [.resolved, .open] ∧ t.audit.length = 3)
    (o := caseMachine.exec sampleContentCases [
      sampleContentReport, .decideWorkspaceCase 0 9 sampleContentRemoval 0 (.ok ()),
      .submitContentCase 1 ⟨.appeal, .serviceListing, some 4, List.replicate 12 'c', none⟩ false]) (by decide)
  exact ⟨t, run, statuses, audited, content_cases_in_order (.of_exec ⟨rfl, rfl⟩ run)⟩

/-- Every case stays, and only an open one changes, by its decision. -/
theorem CaseEvent.decides (event : CaseEvent t t') (found : t.cases[i]? = some c) :
    ∃ c', t'.cases[i]? = some c' ∧ c.Decides c' := by
  cases event with
  | kept | changed => exact ⟨c, found, .inl rfl⟩
  | filed =>
      have bound := (List.getElem?_eq_some_iff.mp found).1
      exact ⟨c, (List.getElem?_append_left bound).trans found, .inl rfl⟩
  | @decided id item admin input result owner _ _ _ _ _ found' undecided =>
      rw [List.getElem?_modify]
      split
      · rename_i own
        subst own
        obtain rfl := Option.some.inj (found'.symm.trans found)
        exact ⟨_, by rw [found]; rfl, .inr ⟨undecided, t.now, admin, input, result, owner, rfl⟩⟩
      · exact ⟨c, by simpa using found, .inl rfl⟩

theorem run_decides {C : CaseTables κ → CaseAction κ → Prop} (run : caseMachine.RunUnder C t t')
    (found : t.cases[i]? = some c) : ∃ c', t'.cases[i]? = some c' ∧ c.Decides c' := by
  refine run.invariant (I := fun u => ∃ c', u.cases[i]? = some c' ∧ c.Decides c') ?_ ⟨c, found, .inl rfl⟩
  rintro u a u' ⟨c', here, decides⟩ - next
  obtain ⟨c'', there, decides'⟩ := (CaseTables.step_event next).decides here
  exact ⟨c'', there, decides.trans decides'⟩

theorem decideWorkspaceCase_resolves {admin : UserId} {raw : ContentDecisionInput} {blockers : Nat}
    {restorable : Except HttpError Unit} (h : t.decideWorkspaceCase i admin raw blockers restorable = .ok (t', false)) :
    ∃ input item content owner, raw.parse = .ok input ∧ t.cases[i]? = some item ∧ item.status = .open
      ∧ t.db.readResource item.contentType item.resourceId = .ok content
      ∧ CaseTables.checkDecision item content owner admin input blockers = .ok ()
      ∧ t'.cases[i]? = some (item.resolve t.now admin input (CaseTables.decisionResult content item.contentType input) owner)
      ∧ ∃ acted, t.actOnContent item content admin input restorable = .ok acted
        ∧ t'.db = (acted.penalize i admin owner input).db := by
  obtain ⟨input, item, parsed, found, ⟨-, -, -, replays⟩ | ⟨undecided, -, content, acted, owner, read, -, checked, acts, rfl⟩⟩ :=
    decideWorkspaceCase_ok h
  · cases replays
  · obtain ⟨db, rows, rfl, -, -⟩ := actOnContent_ok acts
    obtain ⟨db', until_, reasons, penalized, -, -⟩ :=
      penalize_eq { t with db, audit := t.audit ++ rows } i admin owner input
    refine ⟨input, item, content, owner, parsed, found, undecided, read, checked, ?_, _, acts, rfl⟩
    simp [penalized, found]

/-- A decided case keeps its row in every run that follows; the same decision again changes nothing, and another one is
    refused. -/
theorem content_case_decided_once {C : CaseTables κ → CaseAction κ → Prop} {admin : UserId} {raw : ContentDecisionInput}
    {blockers : Nat} {restorable : Except HttpError Unit} {t₁ t₂ : CaseTables κ}
    (decided : t.decideWorkspaceCase i admin raw blockers restorable = .ok (t₁, false)) (run : caseMachine.RunUnder C t₁ t₂) :
    ∃ input item, raw.parse = .ok input ∧ t₁.cases[i]? = some item ∧ t₂.cases[i]? = some item ∧ item.status = .resolved
      ∧ ∀ admin' raw' input' blockers' restorable', raw'.parse = .ok input' →
        t₂.decideWorkspaceCase i admin' raw' blockers' restorable'
          = if input'.decision = input.decision ∧ input'.penalty = input.penalty ∧ input'.resolution = input.resolution
              ∧ (input.penalty = .suspend → input'.suspensionDays = input.suspensionDays)
            then .ok (t₂, true) else .error differentDecision := by
  obtain ⟨input, item, content, owner, parsed, -, -, -, -, resolved, -⟩ := decideWorkspaceCase_resolves decided
  obtain ⟨item', later, same | ⟨undecided, -⟩⟩ := run_decides run resolved
  · subst same
    refine ⟨input, _, parsed, resolved, later, rfl, fun admin' raw' input' blockers' restorable' parsed' => ?_⟩
    have repeated : t₂.decideWorkspaceCase i admin' raw' blockers' restorable'
        = if (item.resolve t.now admin input (CaseTables.decisionResult content item.contentType input) owner).agrees input' = true
          then .ok (t₂, true) else .error differentDecision := by
      simp only [CaseTables.decideWorkspaceCase, parsed', later]
      rfl
    rw [repeated]
    exact if_congr (resolve_agrees rfl) rfl rfl
  · cases undecided

/-- The removal again, and a warning without it. -/
theorem content_case_decided_once_sample : ∃ t t₁ t₂, caseMachine.exec sampleContentCases [sampleContentReport] = some t
    ∧ t.decideWorkspaceCase 0 9 sampleContentRemoval 0 (.ok ()) = .ok (t₁, false)
    ∧ caseMachine.exec t₁ [
      .submitContentCase 1 ⟨.appeal, .serviceListing, some 4, List.replicate 12 'c', none⟩ false, .wait 5] = some t₂
    ∧ t₂.decideWorkspaceCase 0 8 sampleContentRemoval 0 (.ok ()) = .ok (t₂, true)
    ∧ t₂.decideWorkspaceCase 0 9 { sampleContentRemoval with decision := .keepRemoved } 0 (.ok ()) = .error differentDecision := by
  have sample : ∃ t t₁ t₂, caseMachine.exec sampleContentCases [sampleContentReport] = some t
      ∧ t.decideWorkspaceCase 0 9 sampleContentRemoval 0 (.ok ()) = .ok (t₁, false)
      ∧ caseMachine.exec t₁ [
        .submitContentCase 1 ⟨.appeal, .serviceListing, some 4, List.replicate 12 'c', none⟩ false, .wait 5] = some t₂ :=
    ⟨_, _, _, rfl, rfl, rfl⟩
  obtain ⟨t, t₁, t₂, before, decided, run⟩ := sample
  obtain ⟨input, item, parsed, -, -, -, again⟩ := content_case_decided_once decided (.of_exec run)
  obtain rfl : sampleContentRemoval = input := by
    have plain : sampleContentRemoval.parse = .ok sampleContentRemoval := rfl
    exact Except.ok.inj (plain.symm.trans parsed)
  refine ⟨t, t₁, t₂, before, decided, run, ?_, ?_⟩
  · rw [again 8 sampleContentRemoval sampleContentRemoval 0 (.ok ()) rfl]
    rfl
  · rw [again 9 { sampleContentRemoval with decision := .keepRemoved } { sampleContentRemoval with decision := .keepRemoved } 0 (.ok ()) rfl]
    rfl

/-- The result that a decision records is what a read shows after it: the status of its action, or the one from before,
    and the status of the account under its penalty. -/
theorem content_decision_recorded {admin : UserId} {raw : ContentDecisionInput} {blockers : Nat}
    {restorable : Except HttpError Unit} (decided : t.decideWorkspaceCase i admin raw blockers restorable = .ok (t', false)) :
    ∃ item result content content', t'.cases[i]? = some item ∧ item.decisionResult = some result
      ∧ t.db.readResource item.contentType item.resourceId = .ok content
      ∧ t'.db.readResource item.contentType item.resourceId = .ok content'
      ∧ result.contentStatus = content'.map (·.status) ∧ result.ownerStatus = content'.map (·.owner.moderationStatus)
      ∧ content'.map (·.status) = content.map (fun c => raw.decision.action.elim c.status (·.status item.contentType))
      ∧ content'.map (·.owner.moderationStatus) = content.map fun c => raw.penalty.status c.owner.moderationStatus := by
  obtain ⟨input, item, content, owner, parsed, -, -, read, checked, resolved, acted, acts, written⟩ :=
    decideWorkspaceCase_resolves decided
  obtain ⟨decision, penalty, -⟩ := parse_ok parsed
  obtain ⟨-, -, -, -, -, present, owned⟩ := checkDecision_ok checked
  rw [← decision, ← penalty, written]
  cases content with
  | none =>
      -- without content the decision is guidance, which writes nothing else
      have mild : input.penalty = .none := by
        by_contra given
        cases present (.inr given)
      have quiet : acted.penalize i admin owner input = t := by
        have same : t = acted := Except.ok.inj acts
        subst same
        cases owner <;> simp [CaseTables.penalize, mild, CasePenalty.auditAction]
      rw [quiet]
      refine ⟨_, _, none, none, resolved, rfl, read, read, ?_, ?_, rfl, rfl⟩
      · simp [CaseTables.decisionResult]
      · simp [CaseTables.decisionResult, mild]
  | some c =>
      obtain rfl := owned c rfl
      obtain ⟨content_status, owner_status⟩ := decisionResult_some c item.contentType input
      cases about : item.resourceId with
      | none =>
          rw [about] at read
          cases Except.ok.inj read
      | some id =>
          rw [about] at read
          obtain ⟨rfl, -⟩ := read_names read
          obtain ⟨c₁, read₁, status₁, owner₁⟩ := actOnContent_read read acts
          obtain ⟨c₂, read₂, status₂, owner₂⟩ := penalize_read i admin input read₁
          rw [owner₁] at read₂ owner₂
          refine ⟨_, _, some c, some c₂, resolved, rfl, ?_, ?_, ?_, ?_, ?_, ?_⟩
          · exact (congrArg _ about).trans read
          · exact (congrArg _ about).trans read₂
          · rw [content_status, Option.map_some, status₂, status₁]
          · rw [owner_status, Option.map_some, owner₂]
          · exact congrArg some (status₂.trans status₁)
          · exact congrArg some owner₂

/-- The report ends with a removal and a suspension. -/
theorem content_decision_recorded_sample : ∃ t t' item content', caseMachine.exec sampleContentCases [sampleContentReport] = some t
    ∧ t.decideWorkspaceCase 0 9 { sampleContentRemoval with penalty := .suspend } 0 (.ok ()) = .ok (t', false)
    ∧ t'.cases[0]? = some item ∧ t'.db.readResource item.contentType item.resourceId = .ok content'
    ∧ content'.map (·.status) = some (.service .suspended) ∧ content'.map (·.owner.moderationStatus) = some .suspended := by
  have sample : ∃ t t' item result, caseMachine.exec sampleContentCases [sampleContentReport] = some t
      ∧ t.decideWorkspaceCase 0 9 { sampleContentRemoval with penalty := .suspend } 0 (.ok ()) = .ok (t', false)
      ∧ t'.cases[0]? = some item ∧ item.decisionResult = some result
      ∧ result.contentStatus = some (.service .suspended) ∧ result.ownerStatus = some .suspended :=
    ⟨_, _, _, _, rfl, rfl, rfl, rfl, rfl, rfl⟩
  obtain ⟨t, t', item, result, before, decided, found, recorded, content, owner⟩ := sample
  obtain ⟨item', result', _, content', found', recorded', -, read, content_status, owner_status, -⟩ :=
    content_decision_recorded decided
  obtain rfl := Option.some.inj (found.symm.trans found')
  obtain rfl := Option.some.inj (recorded.symm.trans recorded')
  exact ⟨t, t', item, content', before, decided, found, read, content_status.symm.trans content, owner_status.symm.trans owner⟩

theorem CaseEvent.stamps (event : CaseEvent t t') :
    t.now ≤ t'.now ∧ CaseTables.stamped t.now t.db t'.db = true := by
  cases event with
  | kept later stamped => exact ⟨later, stamped⟩
  | filed => exact ⟨Nat.le_refl _, stamped_same rfl rfl⟩
  | changed _ stamped => exact ⟨Nat.le_refl _, stamped⟩
  | decided _ _ stamped => exact ⟨Nat.le_refl _, stamped⟩

end Runs

end ServiceHub
