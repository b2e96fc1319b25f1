import ServiceHub.Content.CaseRuns

/-! # Reviews under concurrent writers

A decision reads the item again under the locks of its lifecycle, compares it with what the administrator has seen, and
writes it by later statements of the transaction. `deleteService` and the lift of an expired suspension take none of
these locks, so each statement is a step here. What a transaction has checked is the item that was reviewed; the row
that it writes to may have changed since.
-/

namespace ServiceHub

open Guard

/-- The case that a decision is for. -/
structure CaseReview (κ : Type) where
  caseId : Nat
  item : ContentModerationCase κ
  input : ContentDecisionInput
  ownerId : Option UserId

inductive ReviewStage where
  | checked
  /-- The content action, if there is one, has checked its row, with this owner. -/
  | acting (ownerId : Option UserId)
  | committed
  | rolledBack
  deriving Repr, DecidableEq

def ReviewStage.running : ReviewStage → Bool
  | .checked | .acting _ => true
  | .committed | .rolledBack => false

/-- A transaction of `decideWorkspaceCase` or of `changeWorkspaceContent` that has read the item again. -/
structure ContentReview (κ : Type) where
  contentType : PublicContentType
  resourceId : Option κ
  adminId : UserId
  action : Option PublicContentAction
  reason : Text
  expectedUpdatedAt : Option Millis
  content : Option (WorkspaceContent κ)
  /-- None for `changeWorkspaceContent`. -/
  decision : Option (CaseReview κ)
  stage : ReviewStage := .checked

/-- The transaction writes the content or an account. -/
def ContentReview.Touches {κ : Type} (r : ContentReview κ) : Prop :=
  r.action.isSome = true ∨ ∃ d, r.decision = some d ∧ d.input.penalty ≠ .none

section Statements

variable {κ : Type} [DecidableEq κ]

namespace CaseTables

/-- `decideWorkspaceCase` up to its checks; the same decision again writes nothing. -/
def reviewCase (id : Nat) (adminId : UserId) (rawInput : ContentDecisionInput) (blockers : Nat) (t : CaseTables κ) :
    Except HttpError (ContentReview κ) := do
  let input ← rawInput.parse
  let item ← orThrow (t.cases[id]?) (httpError "Content case not found." 404)
  rejectIf (item.status = .resolved) differentDecision
  let content ← t.db.readResource item.contentType item.resourceId
  let ownerId := item.contentOwnerId.or (content.map (·.owner.id))
  checkDecision item content ownerId adminId input blockers
  return {
    contentType := item.contentType, resourceId := item.resourceId, adminId, action := input.decision.action
    reason := input.resolution, expectedUpdatedAt := input.expectedUpdatedAt, content
    decision := some ⟨id, item, input, ownerId⟩ }

/-- `changeWorkspaceContent` up to its checks. -/
def reviewContent (type : PublicContentType) (id : κ) (adminId : UserId) (action : PublicContentAction) (reason : Text)
    (expectedUpdatedAt : Millis) (t : CaseTables κ) : Except HttpError (ContentReview κ) := do
  let content ← t.db.readPublicContent type id
  let content ← orThrow content (httpError "Content not found." 404)
  rejectIf (content.updatedAt ≠ expectedUpdatedAt)
    (httpError "The content changed. Reload it before taking action." 409)
  return {
    contentType := type, resourceId := some id, adminId, action := some action, reason
    expectedUpdatedAt := some expectedUpdatedAt, content := some content, decision := none }

/-- What `applyPublicContentAction` reads and checks, with the owner of the row. -/
def checkContentAction (type : PublicContentType) (id : κ) (action : PublicContentAction)
    (restorable : Except HttpError Unit) (t : CaseTables κ) : Except HttpError UserId :=
  match type with
  | .serviceListing => do
      let content ← orThrow (t.db.services.find? (·.id == id)) (httpError "This service listing no longer exists." 409)
      match action with
      | .remove =>
          rejectIf (content.status ≠ .active ∧ content.status ≠ .inactive)
            (httpError "Only a published or paused service can be removed." 409)
      | .restore => do
          rejectIf (content.status ≠ .suspended ∨ content.moderationReasonCode ≠ some "ADMIN_REMOVED")
            (httpError "Only a service removed by an admin can be restored." 409)
          t.assertRestorable content.providerId restorable
      return content.providerId
  | .serviceRequest => do
      let content ← orThrow (t.db.serviceRequests.find? (·.id == id)) (httpError "This service request no longer exists." 409)
      rejectIf (content.targetServiceId.isSome = true)
        (httpError "A private booking inquiry must be handled through its booking flow." 409)
      let offerIds := (t.db.offers.filter (·.requestId == id)).map (·.id)
      rejectIf (t.db.linkedBookings offerIds ≠ 0 ∨ t.db.linkedPayments offerIds ≠ 0)
        (httpError "This request has a booking or payment that needs handling in Disputes & Reports first." 409)
      match action with
      | .remove =>
          rejectIf (content.status ≠ .open ∧ content.status ≠ .closed)
            (httpError "Only an open or paused public request can be removed." 409)
      | .restore => do
          rejectIf (content.status ≠ .canceled ∨ content.moderationReasonCode ≠ some "ADMIN_REMOVED")
            (httpError "Only a request removed by an admin can be restored." 409)
          t.assertRestorable content.seekerId restorable
      return content.seekerId

/-- The `update` and the audit row of `applyPublicContentAction`. -/
def writeContentAction (type : PublicContentType) (id : κ) (adminId : UserId) (action : PublicContentAction)
    (reason : Text) (ownerId : UserId) (t : CaseTables κ) : CaseTables κ :=
  { t with
    db := t.db.writeContent t.now type id action reason
    audit := t.audit ++ [{
      actorId := adminId, targetUserId := ownerId, reason, createdAt := t.now
      action := match action with
        | .remove => .contentRemoved type id
        | .restore => .contentRestored type id }] }

end CaseTables

namespace ContentReview

def act (r : ContentReview κ) (restorable : Except HttpError Unit) (t : CaseTables κ) : Except HttpError (Option UserId) :=
  match r.content, r.action with
  | some content, some action => (t.checkContentAction r.contentType content.id action restorable).map some
  | _, _ => .ok none

def writeAction (r : ContentReview κ) (ownerId : Option UserId) (t : CaseTables κ) : CaseTables κ :=
  match r.content, r.action, ownerId with
  | some content, some action, some ownerId =>
      t.writeContentAction r.contentType content.id r.adminId action r.reason ownerId
  | _, _, _ => t

/-- The writes of the transaction; `ownerId` is who owns the row of the action. -/
def write (r : ContentReview κ) (ownerId : Option UserId) (t : CaseTables κ) : CaseTables κ :=
  let acted := r.writeAction ownerId t
  match r.decision with
  | none => acted
  | some d =>
      let result := CaseTables.decisionResult r.content r.contentType d.input
      let penalized := acted.penalize d.caseId r.adminId d.ownerId d.input
      { penalized with
        cases := penalized.cases.modify d.caseId (·.resolve t.now r.adminId d.input result d.ownerId)
        audit := penalized.audit ++ [{
          actorId := r.adminId, targetUserId := d.ownerId.getD d.item.submitterId
          action := .contentCaseResolved result d.item.resourceId d.item.submitterId
          caseId := some d.caseId, reason := d.input.resolution, createdAt := t.now }] }

end ContentReview

variable {t t' : CaseTables κ} {type : PublicContentType} {id : κ} {admin : UserId} {action : PublicContentAction}
  {reason : Text} {restorable : Except HttpError Unit}

/-- The statements of `applyPublicContentAction`, one after the other. -/
theorem applyPublicContentAction_iff : t.applyPublicContentAction type id admin action reason restorable = .ok t'
    ↔ ∃ ownerId, t.checkContentAction type id action restorable = .ok ownerId
      ∧ t.writeContentAction type id admin action reason ownerId = t' := by
  cases type <;> cases action <;>
    simp only [CaseTables.applyPublicContentAction, CaseTables.checkContentAction, bind_ok, pure_ok] <;> constructor <;>
      grind [CaseTables.writeContentAction, ContentDatabase.writeContent]

theorem ContentReview.act_ok {r : ContentReview κ} {ownerId : Option UserId} (h : r.act restorable t = .ok ownerId) :
    (∃ c action owner, r.content = some c ∧ r.action = some action ∧ ownerId = some owner
        ∧ t.checkContentAction r.contentType c.id action restorable = .ok owner)
      ∨ (r.content = none ∨ r.action = none) ∧ ownerId = none := by
  unfold ContentReview.act at h
  split at h
  · rename_i c action read acts
    cases checked : t.checkContentAction r.contentType c.id action restorable with
    | error e => simp [checked, Except.map] at h
    | ok owner =>
        rw [checked] at h
        obtain rfl := Except.ok.inj h
        exact .inl ⟨c, action, owner, read, acts, rfl, checked⟩
  · rename_i quiet
    obtain rfl := Except.ok.inj h
    refine .inr ⟨?_, rfl⟩
    cases read : r.content with
    | none => exact .inl rfl
    | some c =>
        cases acts : r.action with
        | none => exact .inr rfl
        | some action => exact (quiet c action read acts).elim

theorem actOnContent_iff {item : ContentModerationCase κ} {input : ContentDecisionInput} {r : ContentReview κ}
    {acted : CaseTables κ} (type : r.contentType = item.contentType) (action : r.action = input.decision.action)
    (by_ : r.adminId = admin) (reason : r.reason = input.resolution) :
    t.actOnContent item r.content admin input restorable = .ok acted
      ↔ ∃ ownerId, r.act restorable t = .ok ownerId ∧ r.writeAction ownerId t = acted := by
  subst by_
  simp only [CaseTables.actOnContent, ContentReview.act, ContentReview.writeAction, type, action, reason]
  cases read : r.content with
  | none => simp
  | some c =>
      cases acts : input.decision.action with
      | none => simp
      | some action =>
          simp only [applyPublicContentAction_iff]
          constructor
          · rintro ⟨owner, checked, rfl⟩
            exact ⟨some owner, by simp [checked, Except.map], rfl⟩
          · rintro ⟨ownerId, acts, rfl⟩
            cases checked : t.checkContentAction item.contentType c.id action restorable with
            | error e => simp [checked, Except.map] at acts
            | ok owner =>
                rw [checked] at acts
                obtain rfl := Except.ok.inj acts
                exact ⟨owner, rfl, rfl⟩

/-- A decision that nothing interrupts is `decideWorkspaceCase`. -/
theorem decideWorkspaceCase_iff {caseId : Nat} {raw : ContentDecisionInput} {blockers : Nat} :
    t.decideWorkspaceCase caseId admin raw blockers restorable = .ok (t', false)
      ↔ ∃ r ownerId, t.reviewCase caseId admin raw blockers = .ok r ∧ r.act restorable t = .ok ownerId
        ∧ r.write ownerId t = t' := by
  simp only [CaseTables.reviewCase, bind_ok, orThrow_ok, pure_ok, rejectIf_ok]
  constructor
  · intro h
    obtain ⟨input, item, parsed, found, ⟨-, -, -, replays⟩ | ⟨undecided, -, content, acted, _, read, rfl, checked, acts, rfl⟩⟩ :=
      decideWorkspaceCase_ok h
    · cases replays
    · obtain ⟨ownerId, checks, rfl⟩ := (actOnContent_iff (r := {
        contentType := item.contentType, resourceId := item.resourceId, adminId := admin, action := input.decision.action
        reason := input.resolution, expectedUpdatedAt := input.expectedUpdatedAt, content
        decision := some ⟨caseId, item, input, item.contentOwnerId.or (content.map (·.owner.id))⟩ }) rfl rfl rfl rfl).mp acts
      exact ⟨_, ownerId, ⟨input, parsed, item, found, (), by simp [undecided], content, read, (), checked, rfl⟩,
        checks, rfl⟩
  · rintro ⟨_, ownerId, ⟨input, parsed, item, found, _, undecided, content, read, _, checked, rfl⟩, acts, rfl⟩
    simp only [CaseTables.decideWorkspaceCase, bind_ok, orThrow_ok]
    refine ⟨input, parsed, item, found, ?_⟩
    rw [if_neg undecided]
    simp only [bind_ok, pure_ok]
    exact ⟨content, read, (), checked, _, (actOnContent_iff rfl rfl rfl rfl).mpr ⟨ownerId, acts, rfl⟩, rfl⟩

/-- A content action that nothing interrupts is `changeWorkspaceContent`. -/
theorem changeWorkspaceContent_iff {expectedUpdatedAt : Millis} :
    t.changeWorkspaceContent type id admin action reason expectedUpdatedAt restorable = .ok t'
      ↔ ∃ r ownerId, t.reviewContent type id admin action reason expectedUpdatedAt = .ok r
        ∧ r.act restorable t = .ok ownerId ∧ r.write ownerId t = t' := by
  simp only [CaseTables.changeWorkspaceContent, CaseTables.reviewContent, bind_ok, orThrow_ok, pure_ok]
  constructor
  · rintro ⟨_, read, c, rfl, _, same, acts⟩
    obtain ⟨owner, checked, rfl⟩ := applyPublicContentAction_iff.mp acts
    obtain ⟨rfl, -⟩ := read_names read
    exact ⟨_, some owner, ⟨_, read, c, rfl, _, same, rfl⟩, by simp [ContentReview.act, checked, Except.map], rfl⟩
  · rintro ⟨_, owner, ⟨_, read, c, rfl, _, same, rfl⟩, acts, rfl⟩
    obtain ⟨rfl, -⟩ := read_names read
    obtain ⟨_, _, owner, ⟨⟩, ⟨⟩, rfl, checked⟩ | ⟨⟨⟨⟩⟩ | ⟨⟨⟩⟩, -⟩ := ContentReview.act_ok acts
    exact ⟨_, read, c, rfl, _, same, applyPublicContentAction_iff.mpr ⟨owner, checked, rfl⟩⟩

end Statements

structure ReviewSystem (κ : Type) where
  tables : CaseTables κ
  /-- The transactions that have come through their checks, the ended ones among them. -/
  reviews : List (ContentReview κ) := []

inductive ReviewAction (κ : Type) where
  /-- Another transaction, under a lock or not. -/
  | other (a : CaseAction κ)
  | reviewCase (id : Nat) (adminId : UserId) (input : ContentDecisionInput) (blockers : Nat)
  | reviewContent (type : PublicContentType) (id : κ) (adminId : UserId) (action : PublicContentAction) (reason : Text)
      (expectedUpdatedAt : Millis)
  | act (k : Nat) (restorable : Except HttpError Unit)
  | write (k : Nat)
  | rollback (k : Nat)

/-- Decisions and content actions have steps of their own; `resolveContentCase` is a decision. -/
def CaseAction.reviews {κ : Type} : CaseAction κ → Bool
  | .decideWorkspaceCase .. | .resolveContentCase .. | .changeWorkspaceContent .. => true
  | .submitContentCase .. | .revise .. | .marketplace _ | .wait _ => false

section Machine

variable {κ : Type}

/-- The lock `content-case-decision` is taken. -/
def ReviewSystem.deciding (s : ReviewSystem κ) (id : Nat) : Bool :=
  s.reviews.any fun r => r.stage.running && r.decision.any (·.caseId == id)

def ReviewSystem.proceed (s : ReviewSystem κ) (k : Nat) (r : ContentReview κ) (stage : ReviewStage) : ReviewSystem κ :=
  { s with reviews := s.reviews.set k { r with stage } }

variable [DecidableEq κ]

def ReviewSystem.step (s : ReviewSystem κ) : ReviewAction κ → Option (ReviewSystem κ)
  | .other a => if a.reviews then none else (s.tables.step a).map ({ s with tables := · })
  | .reviewCase id adminId input blockers =>
      if s.deciding id then none
      else (s.tables.reviewCase id adminId input blockers).toOption.map fun r => { s with reviews := s.reviews ++ [r] }
  | .reviewContent type id adminId action reason expectedUpdatedAt =>
      (s.tables.reviewContent type id adminId action reason expectedUpdatedAt).toOption.map fun r =>
        { s with reviews := s.reviews ++ [r] }
  | .act k restorable => (s.reviews[k]?).bind fun r =>
      if r.stage = .checked then (r.act restorable s.tables).toOption.map fun ownerId => s.proceed k r (.acting ownerId)
      else none
  | .write k => (s.reviews[k]?).bind fun r => match r.stage with
      | .acting ownerId => some { s.proceed k r .committed with tables := r.write ownerId s.tables }
      | _ => none
  | .rollback k => (s.reviews[k]?).bind fun r => if r.stage.running then some (s.proceed k r .rolledBack) else none

def reviewMachine : Machine (ReviewSystem κ) (ReviewAction κ) where
  initial s := caseMachine.initial s.tables ∧ s.reviews = []
  next := ReviewSystem.step

end Machine

section Events

variable {κ : Type} [DecidableEq κ] {t t' : CaseTables κ} {s s' : ReviewSystem κ} {r : ContentReview κ}

/-- What the checks of a transaction establish on the tables that they read. -/
structure ContentReview.Checked (r : ContentReview κ) (t : CaseTables κ) : Prop where
  stage : r.stage = .checked
  read : t.db.readResource r.contentType r.resourceId = .ok r.content
  present : r.Touches → r.content.isSome = true
  unchanged : ∀ c, r.content = some c → r.Touches → r.expectedUpdatedAt = some c.updatedAt
  status : ∀ c d, r.content = some c → r.decision = some d → d.input.penalty ≠ .none →
    d.input.expectedOwnerStatus = some c.owner.moderationStatus
  undecided : ∀ d, r.decision = some d → t.cases[d.caseId]? = some d.item ∧ d.item.status = .open

theorem reviewCase_checked {id : Nat} {admin : UserId} {raw : ContentDecisionInput} {blockers : Nat}
    (h : t.reviewCase id admin raw blockers = .ok r) : r.Checked t ∧ ∃ d, r.decision = some d ∧ d.caseId = id := by
  simp only [CaseTables.reviewCase, bind_ok, orThrow_ok, pure_ok, rejectIf_ok] at h
  obtain ⟨input, parsed, item, found, _, unresolved, content, read, _, checked, rfl⟩ := h
  obtain ⟨-, -, -, unchanged, status, present, -⟩ := checkDecision_ok checked
  have undecided : item.status = .open := by
    cases status : item.status with
    | «open» => rfl
    | resolved => exact absurd status unresolved
  have touches (h : input.decision.action.isSome = true ∨ input.penalty ≠ .none) :
      input.decision ∈ [.remove, .restore] ∨ input.penalty ≠ .none := by
    refine h.imp_left fun acts => ?_
    cases decision : input.decision <;> simp [decision, ContentDecision.action] at acts ⊢
  refine ⟨⟨rfl, read, fun acts => ?_, fun c found acts => ?_, ?_, ?_⟩, _, rfl, rfl⟩
  · exact present (touches (by simpa [ContentReview.Touches] using acts))
  · exact unchanged c found (touches (by simpa [ContentReview.Touches] using acts))
  · rintro c _ found ⟨⟩ given
    exact status c found given
  · rintro _ ⟨⟩
    exact ⟨found, undecided⟩

theorem reviewContent_checked {type : PublicContentType} {id : κ} {admin : UserId} {action : PublicContentAction}
    {reason : Text} {expectedUpdatedAt : Millis}
    (h : t.reviewContent type id admin action reason expectedUpdatedAt = .ok r) : r.Checked t ∧ r.decision = none := by
  simp only [CaseTables.reviewContent, bind_ok, orThrow_ok, pure_ok, rejectIf_ok, not_not] at h
  obtain ⟨_, read, content, rfl, _, same, rfl⟩ := h
  refine ⟨⟨rfl, read, fun _ => rfl, fun c found _ => ?_, by simp, by simp⟩, rfl⟩
  obtain rfl := Option.some.inj found
  exact congrArg some same.symm

/-- What a step does: others may write anything and file cases, a transaction begins on the tables that it has checked,
    goes on, or commits its writes. -/
inductive ReviewEvent (s : ReviewSystem κ) : ReviewSystem κ → Prop where
  | other {tables : CaseTables κ} {filed : List (ContentModerationCase κ)} (event : CaseEvent s.tables tables)
      (cases : tables.cases = s.tables.cases ++ filed) (undecided : ∀ c ∈ filed, c.status = .open) :
      ReviewEvent s { s with tables }
  | begun {r : ContentReview κ} (checked : r.Checked s.tables)
      (apart : ∀ d, r.decision = some d → s.deciding d.caseId = false) :
      ReviewEvent s { s with reviews := s.reviews ++ [r] }
  | moved {k : Nat} {r : ContentReview κ} {stage : ReviewStage} (found : s.reviews[k]? = some r)
      (running : r.stage.running = true) (uncommitted : stage ≠ .committed) : ReviewEvent s (s.proceed k r stage)
  | written {k : Nat} {r : ContentReview κ} {ownerId : Option UserId} (found : s.reviews[k]? = some r)
      (acting : r.stage = .acting ownerId) :
      ReviewEvent s { s.proceed k r .committed with tables := r.write ownerId s.tables }

theorem CaseTables.other_cases {a : CaseAction κ} (h : t.step a = some t') (plain : a.reviews = false) :
    ∃ filed, t'.cases = t.cases ++ filed ∧ ∀ c ∈ filed, c.status = .open := by
  cases a with
  | decideWorkspaceCase | resolveContentCase | changeWorkspaceContent => cases plain
  | submitContentCase submitter input membership =>
      have run := toOption_some.mp h
      simp only [CaseTables.submitContentCase, bind_ok, pure_ok] at run
      obtain ⟨parsed, -, _, -, _, -, content, -, _, -, rfl⟩ := run
      exact ⟨_, rfl, by simp⟩
  | marketplace db =>
      simp only [CaseTables.step, Option.ite_none_right_eq_some, Option.some.injEq] at h
      obtain ⟨-, rfl⟩ := h
      exact ⟨[], by simp, by simp⟩
  | revise | wait =>
      obtain rfl := Option.some.inj h
      exact ⟨[], by simp, by simp⟩

theorem ReviewSystem.step_event {a : ReviewAction κ} (h : reviewMachine.next s a = some s') : ReviewEvent s s' := by
  change s.step a = some s' at h
  cases a with
  | other a =>
      simp only [ReviewSystem.step, Option.ite_none_left_eq_some, Option.map_eq_some_iff, Bool.not_eq_true] at h
      obtain ⟨plain, tables, next, rfl⟩ := h
      obtain ⟨filed, cases, undecided⟩ := CaseTables.other_cases next plain
      exact .other (CaseTables.step_event next) cases undecided
  | reviewCase id admin input blockers =>
      simp only [ReviewSystem.step, Option.ite_none_left_eq_some, Option.map_eq_some_iff, Bool.not_eq_true] at h
      obtain ⟨free, r, run, rfl⟩ := h
      obtain ⟨checked, d, decision, rfl⟩ := reviewCase_checked (toOption_some.mp run)
      refine .begun checked fun d' same => ?_
      obtain rfl := Option.some.inj (decision.symm.trans same)
      exact free
  | reviewContent =>
      obtain ⟨r, run, rfl⟩ := Option.map_eq_some_iff.mp h
      obtain ⟨checked, caseless⟩ := reviewContent_checked (toOption_some.mp run)
      exact .begun checked fun d decision => by rw [caseless] at decision; cases decision
  | act k restorable =>
      simp only [ReviewSystem.step, Option.bind_eq_some_iff, Option.ite_none_right_eq_some, Option.map_eq_some_iff] at h
      obtain ⟨r, found, stage, ownerId, -, rfl⟩ := h
      exact .moved found (by rw [stage]; rfl) (by simp)
  | write k =>
      simp only [ReviewSystem.step, Option.bind_eq_some_iff] at h
      obtain ⟨r, found, h⟩ := h
      split at h
      · rename_i ownerId acting
        obtain rfl := Option.some.inj h
        exact .written found acting
      · cases h
  | rollback k =>
      simp only [ReviewSystem.step, Option.bind_eq_some_iff, Option.ite_none_right_eq_some, Option.some.injEq] at h
      obtain ⟨r, found, running, rfl⟩ := h
      exact .moved found running (by simp)

end Events

section Runs

variable {κ : Type} [DecidableEq κ] {t : CaseTables κ} {s s' : ReviewSystem κ} {r : ContentReview κ}
  {ownerId : Option UserId} {k : Nat} {d : CaseReview κ}

theorem ContentReview.writeAction_frame (r : ContentReview κ) (ownerId : Option UserId) (t : CaseTables κ) :
    CaseTables.stamped t.now t.db (r.writeAction ownerId t).db = true ∧ (r.writeAction ownerId t).now = t.now
      ∧ (r.writeAction ownerId t).cases = t.cases := by
  unfold ContentReview.writeAction
  split
  · exact ⟨stamped_writeContent t.db, rfl, rfl⟩
  · exact ⟨stamped_same rfl rfl, rfl, rfl⟩

/-- The case that the transaction decides is resolved, and no row keeps its time that the transaction writes. -/
theorem ContentReview.write_frame (r : ContentReview κ) (ownerId : Option UserId) (t : CaseTables κ) :
    CaseTables.stamped t.now t.db (r.write ownerId t).db = true ∧ (r.write ownerId t).now = t.now
      ∧ (r.write ownerId t).cases = r.decision.elim t.cases fun d => t.cases.modify d.caseId
        (·.resolve t.now r.adminId d.input (CaseTables.decisionResult r.content r.contentType d.input) d.ownerId) := by
  obtain ⟨stamped, now, cases⟩ := r.writeAction_frame ownerId t
  unfold ContentReview.write
  cases decision : r.decision with
  | none => exact ⟨stamped, now, cases⟩
  | some d =>
      obtain ⟨db, until_, reasons, penalized, services, requests⟩ :=
        penalize_eq (r.writeAction ownerId t) d.caseId r.adminId d.ownerId d.input
      simp only [penalized]
      refine ⟨?_, now, by rw [cases]; rfl⟩
      rw [CaseTables.stamped, services, requests]
      exact stamped

omit [DecidableEq κ] in
theorem ReviewSystem.proceed_review {stage : ReviewStage} {j : Nat} {q : ContentReview κ} (found : s.reviews[k]? = some r)
    (h : (s.reviews.set k { r with stage })[j]? = some q) :
    j = k ∧ q = { r with stage } ∨ j ≠ k ∧ s.reviews[j]? = some q := by
  simp only [List.getElem?_set, (List.getElem?_eq_some_iff.mp found).1, if_true] at h
  split at h
  · rename_i same
    exact .inl ⟨same.symm, (Option.some.inj h).symm⟩
  · rename_i other
    exact .inr ⟨fun same => other same.symm, h⟩

/-- A transaction in a state was there before, up to its stage, or it begins with the step. -/
theorem ReviewEvent.review (h : ReviewEvent s s') {q : ContentReview κ} (found : s'.reviews[k]? = some q) :
    (∃ p, s.reviews[k]? = some p ∧ q = { p with stage := q.stage } ∧ (q.stage.running = true → p.stage.running = true))
      ∨ k = s.reviews.length ∧ q.Checked s.tables
        ∧ ∀ d, q.decision = some d → s.deciding d.caseId = false := by
  cases h with
  | other => exact .inl ⟨q, found, rfl, id⟩
  | begun checked apart =>
      rw [List.getElem?_append] at found
      split at found
      · exact .inl ⟨q, found, rfl, id⟩
      · rename_i beyond
        rw [List.getElem?_singleton, Option.ite_none_right_eq_some, Option.some.injEq] at found
        obtain ⟨last, rfl⟩ := found
        exact .inr ⟨by omega, checked, apart⟩
  | moved row running =>
      obtain ⟨rfl, rfl⟩ | ⟨-, old⟩ := ReviewSystem.proceed_review row found
      · exact .inl ⟨_, row, rfl, fun _ => running⟩
      · exact .inl ⟨q, old, rfl, id⟩
  | written row acting =>
      obtain ⟨rfl, rfl⟩ | ⟨-, old⟩ := ReviewSystem.proceed_review row found
      · exact .inl ⟨_, row, rfl, fun _ => by rw [acting]; rfl⟩
      · exact .inl ⟨q, old, rfl, id⟩

/-- A committed transaction stays as it is. -/
theorem ReviewEvent.committed (h : ReviewEvent s s') (found : s.reviews[k]? = some r) (ended : r.stage = .committed) :
    s'.reviews[k]? = some r := by
  cases h with
  | other => exact found
  | begun => exact List.getElem?_append_left (List.getElem?_eq_some_iff.mp found).1 ▸ found
  | @moved j q _ row running =>
      have other : j ≠ k := by
        rintro rfl
        obtain rfl := Option.some.inj (found.symm.trans row)
        simp [ended, ReviewStage.running] at running
      simpa [ReviewSystem.proceed, List.getElem?_set_ne other] using found
  | @written j q _ row acting =>
      have other : j ≠ k := by
        rintro rfl
        obtain rfl := Option.some.inj (found.symm.trans row)
        simp [ended] at acting
      simpa [ReviewSystem.proceed, List.getElem?_set_ne other] using found

/-- The lock of a decision keeps its case: one transaction at a time decides it, on the row that it has read. -/
structure ReviewSystem.Held (s : ReviewSystem κ) : Prop where
  undecided : ∀ (k : Nat) r d, s.reviews[k]? = some r → r.stage.running = true → r.decision = some d →
    s.tables.cases[d.caseId]? = some d.item ∧ d.item.status = .open
  apart : ∀ (j k : Nat) q r d e, s.reviews[j]? = some q → s.reviews[k]? = some r → q.stage.running = true →
    r.stage.running = true → q.decision = some d → r.decision = some e → d.caseId = e.caseId → j = k

omit [DecidableEq κ] in
theorem ReviewSystem.deciding_of_running (found : s.reviews[k]? = some r) (running : r.stage.running = true)
    (decision : r.decision = some d) : s.deciding d.caseId = true :=
  List.any_eq_true.mpr ⟨r, List.mem_of_getElem? found, by simp [running, decision]⟩

/-- The case of a transaction in progress is not written by the others. -/
theorem ReviewSystem.Held.case_kept (known : s.Held) (h : ReviewEvent s s') (found : s.reviews[k]? = some r)
    (running : r.stage.running = true) (decision : r.decision = some d) {q : ContentReview κ}
    (later : s'.reviews[k]? = some q) (goes : q.stage.running = true) :
    s'.tables.cases[d.caseId]? = s.tables.cases[d.caseId]? := by
  have row := (known.undecided k r d found running decision).1
  cases h with
  | other _ cases =>
      change _ = s.tables.cases[d.caseId]?
      rw [cases, List.getElem?_append_left (List.getElem?_eq_some_iff.mp row).1]
  | begun | moved => rfl
  | @written j p ownerId row' acting =>
      change (p.write ownerId s.tables).cases[d.caseId]? = _
      rw [(p.write_frame ownerId s.tables).2.2]
      cases decision' : p.decision with
      | none => rfl
      | some e =>
          have other : e.caseId ≠ d.caseId := by
            intro same
            obtain rfl := known.apart j k p r e d row' found (by rw [acting]; rfl) running decision' decision same
            obtain ⟨-, rfl⟩ | ⟨apart, -⟩ := ReviewSystem.proceed_review row' later
            · cases goes
            · exact apart rfl
          simp [other]

theorem ReviewSystem.Held.event (known : s.Held) (h : ReviewEvent s s') : s'.Held := by
  refine ⟨fun k q d found running decision => ?_, fun j k p q d e found found' running running' decision decision' same => ?_⟩
  · obtain ⟨r, before, moved, goes⟩ | ⟨last, checked, -⟩ := h.review found
    · have decision : r.decision = some d := by rw [moved] at decision; exact decision
      rw [known.case_kept h before (goes running) decision found running]
      exact known.undecided k r d before (goes running) decision
    · subst last
      cases h with
      | begun => exact checked.undecided d decision
      | other => simp at found
      | moved | written => simp [ReviewSystem.proceed] at found
  · obtain ⟨r, before, moved, goes⟩ | ⟨last, -, apart⟩ := h.review found
    · have decision : r.decision = some d := by rw [moved] at decision; exact decision
      obtain ⟨r', before', moved', goes'⟩ | ⟨-, -, apart⟩ := h.review found'
      · have decision' : r'.decision = some e := by rw [moved'] at decision'; exact decision'
        exact known.apart j k r r' d e before before' (goes running) (goes' running') decision decision' same
      · have taken := ReviewSystem.deciding_of_running before (goes running) decision
        rw [same, apart e decision'] at taken
        cases taken
    · obtain ⟨r', before', moved', goes'⟩ | ⟨last', -, -⟩ := h.review found'
      · have decision' : r'.decision = some e := by rw [moved'] at decision'; exact decision'
        have taken := ReviewSystem.deciding_of_running before' (goes' running') decision'
        rw [← same, apart d decision] at taken
        cases taken
      · exact last.trans last'.symm

theorem reviews_held (h : reviewMachine.Reachable s) : s.Held := by
  refine h.invariant ?_ fun s a s' known step => known.event (ReviewSystem.step_event step)
  rintro s ⟨-, none_⟩
  constructor <;> simp [none_]

theorem ReviewEvent.stamps (h : ReviewEvent s s') : s.tables.now ≤ s'.tables.now
    ∧ CaseTables.stamped s.tables.now s.tables.db s'.tables.db = true := by
  cases h with
  | other event => exact event.stamps
  | begun | moved => exact ⟨Nat.le_refl _, stamped_same rfl rfl⟩
  | @written k r ownerId =>
      obtain ⟨stamped, now, -⟩ := r.write_frame ownerId s.tables
      exact ⟨Nat.le_of_eq now.symm, stamped⟩

variable {C : ReviewSystem κ → ReviewAction κ → Prop} {u : ReviewSystem κ}

/-- A row that is older than a state is in that state. -/
theorem run_stamped (run : reviewMachine.RunUnder C s u) : s.tables.now ≤ u.tables.now
    ∧ (∀ row ∈ u.tables.db.services, row.updatedAt < s.tables.now → ∃ old ∈ s.tables.db.services, old.columns = row.columns)
    ∧ ∀ row ∈ u.tables.db.serviceRequests, row.updatedAt < s.tables.now →
      ∃ old ∈ s.tables.db.serviceRequests, old.columns = row.columns := by
  refine run.invariant (I := fun u => s.tables.now ≤ u.tables.now
    ∧ (∀ row ∈ u.tables.db.services, row.updatedAt < s.tables.now → ∃ old ∈ s.tables.db.services, old.columns = row.columns)
    ∧ ∀ row ∈ u.tables.db.serviceRequests, row.updatedAt < s.tables.now →
      ∃ old ∈ s.tables.db.serviceRequests, old.columns = row.columns) ?_
    ⟨Nat.le_refl _, fun row listed _ => ⟨row, listed, rfl⟩, fun row listed _ => ⟨row, listed, rfl⟩⟩
  rintro u a u' ⟨later, services, requests⟩ - next
  obtain ⟨later', stamped⟩ := (ReviewSystem.step_event next).stamps
  obtain ⟨stamped_services, stamped_requests⟩ := stamped_iff.mp stamped
  refine ⟨Nat.le_trans later later', fun row listed earlier => ?_, fun row listed earlier => ?_⟩
  · rcases stamped_services row listed with now | ⟨mid, among, same⟩
    · exact absurd earlier (Nat.not_lt.mpr (now ▸ later))
    · have dated : mid.columns.updatedAt = row.columns.updatedAt := congrArg (fun r => r.updatedAt) same
      obtain ⟨old, first, same'⟩ := services mid among (dated ▸ earlier)
      exact ⟨old, first, same'.trans same⟩
  · rcases stamped_requests row listed with now | ⟨mid, among, same⟩
    · exact absurd earlier (Nat.not_lt.mpr (now ▸ later))
    · have dated : mid.columns.updatedAt = row.columns.updatedAt := congrArg (fun r => r.updatedAt) same
      obtain ⟨old, first, same'⟩ := requests mid among (dated ▸ earlier)
      exact ⟨old, first, same'.trans same⟩

/-- A transaction that began in the run has passed its checks in one of its states. -/
theorem run_checked (run : reviewMachine.RunUnder C s u) (new : s.reviews.length ≤ k) (found : u.reviews[k]? = some r) :
    ∃ (v : ReviewSystem κ) (q : ContentReview κ), reviewMachine.RunUnder C s v ∧ reviewMachine.RunUnder C v u
      ∧ q.Checked v.tables ∧ r = { q with stage := r.stage } := by
  induction run generalizing r with
  | refl =>
      have listed := (List.getElem?_eq_some_iff.mp found).1
      omega
  | @step v a u before met next ih =>
      obtain ⟨p, old, moved, -⟩ | ⟨-, checked, -⟩ := (ReviewSystem.step_event next).review found
      · obtain ⟨w, q, first, rest, checked, same⟩ := ih old
        refine ⟨w, q, first, rest.step met next, checked, ?_⟩
        rw [moved, same]
      · exact ⟨v, r, before, .step .refl met next, checked, rfl⟩

/-- The case is decided by a committed transaction, on the row that it has read. -/
def ReviewSystem.DecidedBy (s : ReviewSystem κ) (i : Nat) (item : ContentModerationCase κ) (r : ContentReview κ) : Prop :=
  r ∈ s.reviews ∧ r.stage = .committed ∧ ∃ d decidedAt, r.decision = some d ∧ d.caseId = i ∧ d.item.status = .open
    ∧ item = d.item.resolve decidedAt r.adminId d.input (CaseTables.decisionResult r.content r.contentType d.input) d.ownerId

theorem ReviewEvent.decided {i : Nat} {item : ContentModerationCase κ} (known : s.Held) (h : ReviewEvent s s')
    (found : s'.tables.cases[i]? = some item) (resolved : item.status = .resolved) :
    s.tables.cases[i]? = some item ∨ ∃ r, s'.DecidedBy i item r := by
  cases h with
  | @other tables filed _ cases undecided =>
      change tables.cases[i]? = some item at found
      rw [cases, List.getElem?_append] at found
      split at found
      · exact .inl found
      · have fresh := undecided item (List.mem_of_getElem? found)
        rw [resolved] at fresh
        cases fresh
  | begun | moved => exact .inl found
  | @written k r ownerId row acting =>
      change (r.write ownerId s.tables).cases[i]? = some item at found
      rw [(r.write_frame ownerId s.tables).2.2] at found
      cases decision : r.decision with
      | none =>
          rw [decision] at found
          exact .inl found
      | some d =>
          obtain ⟨held, undecided⟩ := known.undecided k r d row (by rw [acting]; rfl) decision
          simp only [decision, Option.elim, List.getElem?_modify] at found
          obtain ⟨before, old, written⟩ := Option.map_eq_some_iff.mp found
          split at written
          · rename_i same
            subst same
            obtain rfl := Option.some.inj (held.symm.trans old)
            refine .inr ⟨{ r with stage := .committed }, ?_, rfl, d, s.tables.now, decision, rfl, undecided, written.symm⟩
            refine List.mem_of_getElem? (i := k) ?_
            simp [ReviewSystem.proceed, (List.getElem?_eq_some_iff.mp row).1]
          · exact .inl (written ▸ old)

theorem run_decided (reached : reviewMachine.Reachable s) (run : reviewMachine.RunUnder C s u) {i : Nat}
    {item : ContentModerationCase κ} (found : u.tables.cases[i]? = some item) (resolved : item.status = .resolved) :
    s.tables.cases[i]? = some item ∨ ∃ r, u.DecidedBy i item r := by
  induction run with
  | refl => exact .inl found
  | @step v a u before met next ih =>
      obtain ⟨s₀, start, first⟩ := reached
      have known := reviews_held ⟨s₀, start, first.trans (before.weaken fun _ _ _ => trivial)⟩
      have event := ReviewSystem.step_event next
      rcases event.decided known found resolved with old | decided
      · refine (ih old).imp_right fun ⟨r, listed, ended, rest⟩ => ⟨r, ?_, ended, rest⟩
        obtain ⟨k, row⟩ := List.mem_iff_getElem?.mp listed
        exact List.mem_of_getElem? (event.committed row ended)
      · exact .inr decided

/-- A removal, a restoration or a penalty that names the time of a read is one of an item that its transaction has read
    again as it was reviewed, of an account with the expected status, whatever else happens before and after. Only such
    transactions decide cases. -/
theorem content_decision_reviewed {type : PublicContentType} {id : κ} {content : WorkspaceContent κ}
    (reached : reviewMachine.Reachable s) (read : s.tables.db.readPublicContent type id = .ok (some content))
    (earlier : content.updatedAt < s.tables.now) (run : reviewMachine.RunUnder C s u) :
    (∀ (k : Nat) r, s.reviews.length ≤ k → u.reviews[k]? = some r → r.Touches → r.contentType = type →
        r.resourceId = some id → r.expectedUpdatedAt = some content.updatedAt →
        ∃ v content', reviewMachine.RunUnder C s v ∧ reviewMachine.RunUnder C v u
          ∧ v.tables.db.readPublicContent type id = .ok (some content') ∧ r.content = some content'
          ∧ content'.own = content.own
          ∧ ∀ d, r.decision = some d → d.input.penalty ≠ .none →
            d.input.expectedOwnerStatus = some content'.owner.moderationStatus)
      ∧ ∀ i item, u.tables.cases[i]? = some item → item.status = .resolved →
        s.tables.cases[i]? = some item ∨ ∃ r, u.DecidedBy i item r := by
  refine ⟨?_, fun i item found resolved => run_decided reached run found resolved⟩
  rintro k r new found touches rfl about expected
  obtain ⟨v, q, first, rest, checked, same⟩ := run_checked run new found
  rw [same] at touches about expected ⊢
  obtain ⟨content', present⟩ := Option.isSome_iff_exists.mp (checked.present touches)
  have read' := checked.read
  rw [about, present] at read'
  have dated : content'.updatedAt = content.updatedAt :=
    Option.some.inj ((checked.unchanged content' present touches).symm.trans expected)
  obtain ⟨-, services, requests⟩ := run_stamped first
  refine ⟨v, content', first, rest, read', present, ?_, fun d decision given => checked.status content' d present decision given⟩
  rw [same] at read
  exact read_own read read' (fun row listed old => services row listed (old.trans dated ▸ earlier))
    fun row listed old => requests row listed (old.trans dated ▸ earlier)

/-- The listing is deleted by its owner. -/
def sampleDeletedContent : ContentDatabase Nat :=
  { sampleContentCases.db with
    services := sampleContentCases.db.services.map fun row => { row with status := .deleted, isAvailable := false, updatedAt := 55 }
    serviceKeys := by decide
    providers := by simp [sampleContentCases]
    serviceCategories := by simp [sampleContentCases] }

def sampleReviews : ReviewSystem Nat where
  tables := sampleContentCases

/-- The reported listing is read; the decision reads it again, and its owner deletes it before the decision commits. -/
theorem content_decision_reviewed_deleted : ∃ s u content r content', reviewMachine.exec sampleReviews [.other sampleContentReport] = some s
    ∧ s.tables.db.readPublicContent .serviceListing 4 = .ok (some content)
    ∧ reviewMachine.exec s [.other (.wait 5), .reviewCase 0 9 sampleContentRemoval 0, .act 0 (.ok ()),
      .other (.marketplace sampleDeletedContent), .write 0] = some u
    ∧ u.reviews = [r] ∧ r.stage = .committed ∧ r.content = some content' ∧ content'.own = content.own
    ∧ content'.owner.moderationStatus = .active := by
  have sample : ∃ s u content r d, reviewMachine.exec sampleReviews [.other sampleContentReport] = some s
      ∧ s.tables.db.readPublicContent .serviceListing 4 = .ok (some content) ∧ content.updatedAt = 10 ∧ s.tables.now = 50
      ∧ reviewMachine.exec s [.other (.wait 5), .reviewCase 0 9 sampleContentRemoval 0, .act 0 (.ok ()),
        .other (.marketplace sampleDeletedContent), .write 0] = some u
      ∧ s.reviews = [] ∧ u.reviews = [r] ∧ r.stage = .committed ∧ r.action = some .remove ∧ r.contentType = .serviceListing
      ∧ r.resourceId = some 4 ∧ r.expectedUpdatedAt = some 10 ∧ r.decision = some d ∧ d.input = sampleContentRemoval :=
    ⟨_, _, _, _, _, rfl, rfl, rfl, rfl, rfl, rfl, rfl, rfl, rfl, rfl, rfl, rfl, rfl, rfl⟩
  obtain ⟨s, u, content, r, d, before, read, dated, now, run, empty, reviews, ended, acts, typed, about, expected, decision, input⟩ :=
    sample
  have reached : reviewMachine.Reachable s := .of_exec ⟨⟨rfl, rfl⟩, rfl⟩ before
  have earlier : content.updatedAt < s.tables.now := by rw [dated, now]; decide
  obtain ⟨v, content', -, -, -, same, own, status⟩ := (content_decision_reviewed reached read earlier (.of_exec run)).1 0 r
    (by simp [empty]) (by simp [reviews]) (.inl (by simp [acts])) typed about (dated ▸ expected)
  have active := status d decision (by rw [input]; decide)
  rw [input] at active
  exact ⟨s, u, content, r, content', before, read, run, reviews, ended, same, own, (Option.some.inj active).symm⟩

end Runs

end ServiceHub
