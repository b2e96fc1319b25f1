import Mathlib.Data.List.Sort
import ServiceHub.Booking.Resolution
import ServiceHub.Lib.Histories
import ServiceHub.Lib.Machine

/-! # Account moderation

Suspensions, bans, restorations and ban appeals. The transactions take the advisory lock of the account and are one step
each. A request that meets a suspension whose term is over restores the account outside of any transaction, so its read
and its write are two steps.
-/

namespace ServiceHub

open Guard

structure ModeratedAccount where
  role : Role := .user
  isActive : Bool := true
  deactivatedAt : Option Millis := none
  moderationStatus : AccountModerationStatus := .active
  suspendedUntil : Option Millis := none
  moderationReason : Option String := none
  deriving Repr, DecidableEq

inductive ModerationAuditAction where
  | userSuspended | userBanned | userRestored | banAppealApproved | banAppealRejected | contentOwnerWarned
  deriving Repr, DecidableEq

/-- The rows of `adminAuditLog` about the moderation of an account; `appealId` is the resource of an appeal's row. -/
structure ModerationAudit where
  actorId : UserId
  targetUserId : UserId
  action : ModerationAuditAction
  appealId : Option Nat := none
  reason : String
  createdAt : Millis
  deriving Repr, DecidableEq

/-- `BanAppeal.banAuditLogId`: the number of an audit row, or `legacy-ban:<userId>`. -/
inductive BanReference where
  | log (id : Nat)
  | legacy (userId : UserId)
  deriving Repr, DecidableEq

inductive BanAppealStatus where
  | pending | approved | rejected
  deriving Repr, DecidableEq

structure BanAppeal where
  userId : UserId
  banAuditLogId : BanReference
  message : String
  status : BanAppealStatus := .pending
  decisionReason : Option String := none
  decidedById : Option UserId := none
  createdAt : Millis
  decidedAt : Option Millis := none
  deriving Repr, DecidableEq

/-- The tables, and the accounts whose expired suspension a request has read and not yet lifted. -/
structure ModerationTables where
  user : UserId → Option ModeratedAccount
  appeals : List BanAppeal := []
  audit : List ModerationAudit := []
  lapses : List UserId := []

def ModeratedAccount.suspend (until_ : Millis) (reason : String) (a : ModeratedAccount) : ModeratedAccount :=
  { a with moderationStatus := .suspended, suspendedUntil := some until_, moderationReason := some reason }

def ModeratedAccount.ban (reason : String) (a : ModeratedAccount) : ModeratedAccount :=
  { a with moderationStatus := .banned, suspendedUntil := none, moderationReason := some reason }

def ModeratedAccount.restore (a : ModeratedAccount) : ModeratedAccount :=
  { a with isActive := true, moderationStatus := .active, suspendedUntil := none, moderationReason := none }

/-- `user.moderationStatus === "SUSPENDED" && user.suspendedUntil && user.suspendedUntil <= new Date()`. -/
def ModeratedAccount.expired (now : Millis) (a : ModeratedAccount) : Bool :=
  a.moderationStatus == .suspended && a.suspendedUntil.any (· ≤ now)

/-- What a penalty decision reads of the account. -/
def ModeratedAccount.toUser (a : ModeratedAccount) : User where
  role := a.role
  isActive := a.isActive
  deactivatedAt := a.deactivatedAt
  moderationStatus := a.moderationStatus

def BanAppeal.pendingOf (userId : UserId) (a : BanAppeal) : Bool := a.userId == userId && a.status == .pending

def BanAppeal.decide (now : Millis) (status : BanAppealStatus) (reason : String) (adminId : UserId) (a : BanAppeal) :
    BanAppeal :=
  { a with status, decisionReason := some reason, decidedById := some adminId, decidedAt := some now }

def ModerationAudit.bans (userId : UserId) (e : ModerationAudit) : Bool :=
  e.targetUserId == userId && e.action == .userBanned

/-- `orderBy: { createdAt: "desc" }`. -/
def ModerationAudit.newer (row row' : ModerationAudit × Nat) : Prop := row'.1.createdAt ≤ row.1.createdAt

instance : DecidableRel ModerationAudit.newer := fun _ _ => inferInstanceAs (Decidable (_ ≤ _))

namespace ModerationTables

def updateUser (t : ModerationTables) (userId : UserId) (g : ModeratedAccount → ModeratedAccount) : ModerationTables :=
  { t with user := Function.update t.user userId ((t.user userId).map g) }

def log (t : ModerationTables) (rows : List ModerationAudit) : ModerationTables := { t with audit := t.audit ++ rows }

/-- `ban?.id ?? "legacy-ban:<userId>"` for the latest ban of the account. -/
def latestBan (t : ModerationTables) (userId : UserId) : BanReference :=
  match ((t.audit.zipIdx.filter fun row => row.1.bans userId).insertionSort ModerationAudit.newer).head? with
  | some row => .log row.2
  | none => .legacy userId

/-- `banAppeal.findMany({ where: { userId, status: "PENDING" } })`, the ids. -/
def pendingAppeals (t : ModerationTables) (userId : UserId) : List Nat :=
  (t.appeals.zipIdx.filter fun row => row.1.pendingOf userId).map (·.2)

def assertCanModerateUser (t : ModerationTables) (adminId targetId : UserId) (allowAdminRestore : Bool) :
    Except HttpError Unit := do
  rejectIf (adminId = targetId) (httpError "Administrators cannot moderate their own account" 409)
  let target ← orThrow (t.user targetId) (httpError "User not found" 404)
  rejectIf (target.deactivatedAt.isSome = true) (httpError "A deleted account cannot be moderated or restored." 409)
  rejectIf (target.role = .admin ∧ allowAdminRestore = false)
    (httpError "Administrator accounts cannot be suspended or banned from this moderation screen" 409)

/-- The transaction of `suspendUser`. -/
def suspendUser (now : Millis) (adminId targetId : UserId) (reason : String) (durationDays : Nat)
    (t : ModerationTables) : Except HttpError ModerationTables := do
  t.assertCanModerateUser adminId targetId false
  let current ← orThrow (t.user targetId) recordNotFound
  rejectIf (current.moderationStatus ≠ .active) (httpError "Only an active account can be suspended" 409)
  let suspendedUntil := now + durationDays * 24 * 60 * 60 * 1000
  return (t.updateUser targetId fun a => { a.suspend suspendedUntil reason with isActive := true }).log
    [{ actorId := adminId, targetUserId := targetId, action := .userSuspended, reason, createdAt := now }]

/-- The transaction of `banUser`. -/
def banUser (now : Millis) (adminId targetId : UserId) (reason : String) (t : ModerationTables) :
    Except HttpError ModerationTables := do
  t.assertCanModerateUser adminId targetId false
  let current ← orThrow (t.user targetId) recordNotFound
  rejectIf (current.moderationStatus = .banned) (httpError "Account is already banned" 409)
  return (t.updateUser targetId fun a => { a.ban reason with isActive := true }).log
    [{ actorId := adminId, targetUserId := targetId, action := .userBanned, reason, createdAt := now }]

/-- The transaction of `restoreUser`, which also approves the appeals that wait. -/
def restoreUser (now : Millis) (adminId targetId : UserId) (reason : String) (t : ModerationTables) :
    Except HttpError ModerationTables := do
  t.assertCanModerateUser adminId targetId true
  let current ← orThrow (t.user targetId) recordNotFound
  rejectIf (current.moderationStatus = .active ∧ current.isActive = true) (httpError "Account is already active" 409)
  let restored := t.updateUser targetId (·.restore)
  let decided := { restored with
    appeals := Rows.updateWhere (·.pendingOf targetId) (·.decide now .approved reason adminId) restored.appeals }
  return (decided.log ((t.pendingAppeals targetId).map fun appealId => {
      actorId := adminId, targetUserId := targetId, action := .banAppealApproved, appealId := some appealId
      reason, createdAt := now })).log
    [{ actorId := adminId, targetUserId := targetId, action := .userRestored, reason, createdAt := now }]

/-- The account penalties of `applyReportPenalty`; `blockers` counts the unstarted bookings of the account. -/
def applyReportPenalty (now : Millis) (adminId userId : UserId) (penalty : ReportPenalty) (notes : String)
    (blockers : Nat) (t : ModerationTables) : Except HttpError ModerationTables :=
  -- the decision is claimed already: a penalty that the account cannot receive any more is left out
  if penalty ∉ allowedReportPenalties ((t.user userId).map (·.toUser)) (userId == adminId) then return t
  else match penalty with
    | .suspend => do
        rejectIf (0 < blockers)
          (httpError s!"Resolve or cancel the provider's {blockers} unstarted booking(s) before suspension." 409
            (some "SUSPENSION_BOOKINGS_BLOCKED"))
        return t.updateUser userId (·.suspend (now + 7 * 24 * 60 * 60 * 1000) notes)
    | .ban => do
        return (t.updateUser userId (·.ban notes)).log
          [{ actorId := adminId, targetUserId := userId, action := .userBanned, reason := notes, createdAt := now }]
    | .none | .warn | .trustDeduct => return t

inductive ContentPenalty where
  | warn | suspend | ban
  deriving Repr, DecidableEq

/-- The penalty in `decideWorkspaceCase`, with the owner's status that the administrator has seen. -/
def penalizeContentOwner (now : Millis) (adminId ownerId : UserId) (penalty : ContentPenalty) (resolution : String)
    (suspensionDays blockers : Nat) (expectedOwnerStatus : AccountModerationStatus) (t : ModerationTables) :
    Except HttpError ModerationTables := do
  let owner ← orThrow (t.user ownerId) recordNotFound
  rejectIf (owner.moderationStatus ≠ expectedOwnerStatus)
    (httpError "The owner's account status changed. Reload the case before deciding." 409)
  rejectIf (ownerId = adminId ∨ owner.role ≠ .user ∨ owner.isActive = false ∨ owner.deactivatedAt.isSome = true)
    (httpError "This account cannot receive a penalty through this case." 409)
  match penalty with
  | .warn => do
      return t.log [{
        actorId := adminId, targetUserId := ownerId, action := .contentOwnerWarned, reason := resolution, createdAt := now }]
  | .suspend => do
      rejectIf (owner.moderationStatus ≠ .active) (httpError "Only an active account can be suspended." 409)
      rejectIf (0 < blockers)
        (httpError s!"Handle this provider's {blockers} unstarted booking(s) in Disputes & Reports before suspension." 409)
      return (t.updateUser ownerId (·.suspend (now + suspensionDays * 86400000) resolution)).log
        [{ actorId := adminId, targetUserId := ownerId, action := .userSuspended, reason := resolution, createdAt := now }]
  | .ban => do
      rejectIf (owner.moderationStatus = .banned)
        (httpError "The owner is already banned. Choose no additional penalty." 409)
      return (t.updateUser ownerId (·.ban resolution)).log
        [{ actorId := adminId, targetUserId := ownerId, action := .userBanned, reason := resolution, createdAt := now }]

/-- The transaction of `submitBanAppeal`. -/
def submitBanAppeal (now : Millis) (userId : UserId) (message : String) (t : ModerationTables) :
    Except HttpError ModerationTables := do
  let current ← orThrow (t.user userId) recordNotFound
  rejectIf (current.moderationStatus ≠ .banned) (httpError "Account is no longer banned" 409)
  let banAuditLogId := t.latestBan userId
  rejectIf (t.appeals.any (·.banAuditLogId == banAuditLogId))
    (httpError "An appeal has already been submitted for this ban" 409 (some "APPEAL_ALREADY_SUBMITTED"))
  return { t with appeals := t.appeals ++ [{ userId, banAuditLogId, message, createdAt := now }] }

/-- The transaction of `decideBanAppeal`. -/
def decideBanAppeal (now : Millis) (adminId : UserId) (appealId : Nat) (approve : Bool) (reason : String)
    (t : ModerationTables) : Except HttpError ModerationTables := do
  let current ← orThrow (t.appeals[appealId]?) (httpError "Appeal not found" 404)
  let user ← orThrow (t.user current.userId) recordNotFound
  rejectIf (current.status ≠ .pending ∨ user.moderationStatus ≠ .banned)
    (httpError "Appeal is no longer pending for a banned account" 409)
  let updated := { t with
    appeals := t.appeals.modify appealId (·.decide now (if approve then .approved else .rejected) reason adminId) }
  let restored := if approve then updated.updateUser current.userId (·.restore) else updated
  return restored.log [{
    actorId := adminId, targetUserId := current.userId
    action := if approve then .banAppealApproved else .banAppealRejected, appealId := some appealId, reason, createdAt := now }]

/-- The read of `authenticate`, which goes on to lift a suspension whose term is over. -/
def authenticate (now : Millis) (userId : UserId) (t : ModerationTables) : Except HttpError ModerationTables := do
  let user ← orThrow (t.user userId) (httpError "User not found" 401)
  return if user.expired now then { t with lapses := t.lapses ++ [userId] } else t

/-- The write of `authenticate`: an `update` by id alone. -/
def liftExpired (lapse : Nat) (t : ModerationTables) : Except HttpError ModerationTables := do
  let userId ← orThrow (t.lapses[lapse]?) recordNotFound
  return { t.updateUser userId (·.restore) with lapses := t.lapses.eraseIdx lapse }

end ModerationTables

inductive ModerationAction where
  | createAccount (userId : UserId) (account : ModeratedAccount)
  | suspendUser (adminId targetId : UserId) (reason : String) (durationDays : Nat)
  | banUser (adminId targetId : UserId) (reason : String)
  | restoreUser (adminId targetId : UserId) (reason : String)
  | applyReportPenalty (adminId userId : UserId) (penalty : ReportPenalty) (notes : String) (blockers : Nat)
  | penalizeContentOwner (adminId ownerId : UserId) (penalty : ModerationTables.ContentPenalty) (resolution : String)
      (suspensionDays blockers : Nat) (expectedOwnerStatus : AccountModerationStatus)
  | submitBanAppeal (userId : UserId) (message : String)
  | decideBanAppeal (adminId : UserId) (appealId : Nat) (approve : Bool) (reason : String)
  | authenticate (userId : UserId)
  | liftExpired (lapse : Nat)
  deriving Repr, DecidableEq

/-- An account that no moderation has touched. -/
def ModeratedAccount.untouched (a : ModeratedAccount) : Bool :=
  a.moderationStatus == .active && a.suspendedUntil.isNone && a.moderationReason.isNone

def ModerationTables.run (now : Millis) (t : ModerationTables) : ModerationAction → Except HttpError ModerationTables
  | .createAccount userId account => do
      rejectIf ((t.user userId).isSome = true ∨ account.untouched = false) uniqueViolation
      return { t with user := Function.update t.user userId (some account) }
  | .suspendUser adminId targetId reason durationDays => t.suspendUser now adminId targetId reason durationDays
  | .banUser adminId targetId reason => t.banUser now adminId targetId reason
  | .restoreUser adminId targetId reason => t.restoreUser now adminId targetId reason
  | .applyReportPenalty adminId userId penalty notes blockers =>
      t.applyReportPenalty now adminId userId penalty notes blockers
  | .penalizeContentOwner adminId ownerId penalty resolution suspensionDays blockers expectedOwnerStatus =>
      t.penalizeContentOwner now adminId ownerId penalty resolution suspensionDays blockers expectedOwnerStatus
  | .submitBanAppeal userId message => t.submitBanAppeal now userId message
  | .decideBanAppeal adminId appealId approve reason => t.decideBanAppeal now adminId appealId approve reason
  | .authenticate userId => t.authenticate now userId
  | .liftExpired lapse => t.liftExpired lapse

/-- The tables from an empty database, under the transactions in any order, each at its time. -/
def moderationMachine : Machine ModerationTables (Millis × ModerationAction) where
  initial t := (∀ u, t.user u = none) ∧ t.appeals = [] ∧ t.audit = [] ∧ t.lapses = []
  next t a := (t.run a.1 a.2).toOption

end ServiceHub
