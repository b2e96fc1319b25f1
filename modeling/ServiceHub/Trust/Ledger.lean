import ServiceHub.Lib.Machine
import ServiceHub.Lib.Runs
import ServiceHub.Lib.Text
import ServiceHub.Booking.File

/-! # The trust ledger

The score of every account and the events that wrote it, in the order in which their
transactions committed. A transaction takes the advisory lock of each account whose score
it writes and is one step; what it reads in other tables is an argument.
-/

namespace ServiceHub

open Guard

/-- `TrustScoreEvent.category`, as far as the services write it. -/
inductive TrustCategory where
  | legacy | completion | reportPenalty | cancellationPenalty | correction
  deriving Repr, DecidableEq

inductive BookingRole where
  | provider | seeker
  deriving Repr, DecidableEq

/-- `TrustScoreEvent.eventKey`. -/
inductive EventKey where
  | accountBaseline (userId : UserId)
  | verificationApproval (userId : UserId)
  | bookingCompletion (bookingId : BookingId) (role : BookingRole)
  | report (bookingId : BookingId) (reportId : Nat)
  | cancellation (bookingId : BookingId) (requestId : Nat) (userId : UserId)
  | manualTrust (adminId : UserId) (operationId : Nat)
  | trustAppeal (caseId : Nat)
  | trustOperation (id : Nat)
  deriving Repr, DecidableEq

def EventKey.isBaseline : EventKey → Bool
  | .accountBaseline _ => true
  | _ => false

structure TrustScoreEvent where
  userId : UserId
  delta : Int
  requestedDelta : Option Int := none
  reason : String
  scoreBefore : Int
  scoreAfter : Int
  actorAdminId : Option UserId := none
  eventKey : EventKey
  createdAt : Millis
  bookingId : Option BookingId := none
  category : TrustCategory := .legacy
  /-- `booking-penalty:<bookingId>:<userId>`. -/
  penaltyKey : Option (BookingId × UserId) := none
  reversesEventId : Option Nat := none
  deriving Repr, DecidableEq

/-- An appeal against a penalty. -/
structure TrustCase where
  userId : UserId
  trustEventId : Nat
  description : String
  /-- `PENDING`, and then whether it was upheld. -/
  upheld : Option Bool := none
  adminId : Option UserId := none
  deriving Repr, DecidableEq

/-- The trust columns and tables; an event is known by its number. -/
structure TrustLedger where
  trustScore : UserId → Option Int
  events : List TrustScoreEvent := []
  cases : List TrustCase := []

/-- What a trust transaction reads in other tables. -/
structure TrustContext where
  now : Millis
  user : UserId → Option User
  booking : BookingId → Option BookingFile
  /-- Another active administrator than the given one. -/
  otherAdmin : UserId → Bool := fun _ => true

structure TrustEventInput where
  userId : UserId
  delta : Int
  reason : String
  eventKey : EventKey
  actorAdminId : Option UserId := none
  requestedDelta : Option Int := none
  bookingId : Option BookingId := none
  category : TrustCategory := .legacy
  penaltyKey : Option (BookingId × UserId) := none
  reversesEventId : Option Nat := none
  deriving Repr, DecidableEq

namespace TrustLedger

/-- `findUnique({ where: { reversesEventId } })`. -/
def reversal (l : TrustLedger) (eventId : Nat) : Option TrustScoreEvent :=
  l.events.find? (·.reversesEventId == some eventId)

def findKey (l : TrustLedger) (eventKey : EventKey) : Option TrustScoreEvent :=
  l.events.find? (·.eventKey == eventKey)

/-- The events that no correction reverses. -/
def standing (l : TrustLedger) : List TrustScoreEvent :=
  (l.events.zipIdx.filter fun (_, i) => (l.reversal i).isNone).map (·.1)

/-- `trustScoreEvent.create` for an event key that is not taken. -/
def createEvent (l : TrustLedger) (event : TrustScoreEvent) : Except HttpError TrustLedger := do
  rejectIf (l.events.any fun e => e.penaltyKey.isSome && e.penaltyKey == event.penaltyKey) uniqueViolation
  rejectIf (l.events.any fun e => e.reversesEventId.isSome && e.reversesEventId == event.reversesEventId)
    uniqueViolation
  return { l with events := l.events ++ [event] }

end TrustLedger

/-- The details of a retry do not agree with the recorded event. -/
def TrustEventInput.conflicts (input : TrustEventInput) (existing : TrustScoreEvent) : Bool :=
  input.requestedDelta.isSome && (existing.userId != input.userId || existing.reason != input.reason
    || existing.actorAdminId != input.actorAdminId || existing.requestedDelta != input.requestedDelta
    || (input.reversesEventId.isSome && existing.reversesEventId != input.reversesEventId))

/-- `applyTrustEventInTransaction`, with whether it applied the event. -/
def applyTrustEventInTransaction (now : Millis) (input : TrustEventInput) (l : TrustLedger) :
    Except HttpError (TrustLedger × Bool) := do
  let scoreBefore ← orThrow (l.trustScore input.userId) (httpError "User not found" 404)
  match l.findKey input.eventKey with
  | some existing => do
      rejectIf (input.conflicts existing = true)
        (httpError "Trust adjustment operation ID was already used with different details" 409
          (some "TRUST_OPERATION_CONFLICT"))
      return (l, false)
  | none => do
      let scoreAfter := min 100 (max 0 (scoreBefore + input.delta))
      let written ← l.createEvent {
        userId := input.userId, delta := scoreAfter - scoreBefore
        requestedDelta := some (input.requestedDelta.getD input.delta), reason := input.reason
        scoreBefore, scoreAfter, actorAdminId := input.actorAdminId, eventKey := input.eventKey
        createdAt := now, bookingId := input.bookingId, category := input.category
        penaltyKey := input.penaltyKey, reversesEventId := input.reversesEventId }
      return ({ written with
        trustScore := Function.update l.trustScore input.userId (some scoreAfter) }, true)

/-- The account creation by registration or Google sign-in. -/
def createAccount (now : Millis) (userId : UserId) (l : TrustLedger) : Except HttpError TrustLedger := do
  rejectIf (l.trustScore userId).isSome uniqueViolation
  rejectIf (l.findKey (.accountBaseline userId)).isSome uniqueViolation
  let created ← l.createEvent {
    userId, delta := 50, reason := "Initial Account Base Trust Score Baseline", scoreBefore := 0
    scoreAfter := 50, eventKey := .accountBaseline userId, createdAt := now }
  return { created with trustScore := Function.update l.trustScore userId (some 50) }

/-- The trust event of an approved verification. -/
def approveVerificationTrust (now : Millis) (userId adminId : UserId) (l : TrustLedger) :
    Except HttpError TrustLedger := do
  let (after, _) ← applyTrustEventInTransaction now {
    userId, delta := 5, reason := "Residency & Identity Verification Approved by ServiceHub Admin"
    actorAdminId := some adminId, eventKey := .verificationApproval userId } l
  return after

/-- `applyTrustEvent`. -/
def applyTrustEvent (now : Millis) (userId : UserId) (delta : Int) (reason : String)
    (actorAdminId : Option UserId) (eventKey : EventKey) (l : TrustLedger) :
    Except HttpError TrustLedger := do
  let (after, _) ← applyTrustEventInTransaction now { userId, delta, reason, actorAdminId, eventKey } l
  return after

def trustPairWindowMs : Millis := 7 * 86400000

def TrustCategory.isPenalty : TrustCategory → Bool
  | .reportPenalty | .cancellationPenalty => true
  | .legacy | .completion | .correction => false

/-- The completed and paid booking of two approved accounts, without a case that is open. -/
def BookingFile.rewardable (ctx : TrustContext) (f : BookingFile) : Bool :=
  f.booking.status == .completed && f.completedService.isSome
    && (f.booking.paymentStatus == .cashConfirmed || f.booking.paymentStatus == .released)
    && f.booking.providerId != f.booking.seekerId
    && (ctx.user f.booking.providerId).any (·.verificationStatus == .approved)
    && (ctx.user f.booking.seekerId).any (·.verificationStatus == .approved)
    && !f.reports.any (·.status.active) && !f.cancellationRequests.any (·.status.undecided)
    && !f.completionEscalations.any (·.status.active)

/-- A booking of the same two accounts, in either role, was rewarded within the window. -/
def TrustLedger.recentlyRewarded (ctx : TrustContext) (bookingId : BookingId) (booking : Booking)
    (l : TrustLedger) : Bool :=
  l.standing.any fun e => e.category == .completion && e.bookingId.any (· != bookingId)
    && decide (ctx.now < e.createdAt + trustPairWindowMs)
    && (e.userId == booking.providerId || e.userId == booking.seekerId)
    && (e.bookingId.bind ctx.booking).any fun f =>
      (f.booking.providerId == booking.providerId && f.booking.seekerId == booking.seekerId)
        || (f.booking.providerId == booking.seekerId && f.booking.seekerId == booking.providerId)

/-- The reward of one participant. -/
def awardParticipant (ctx : TrustContext) (bookingId : BookingId) (booking : Booking) (l : TrustLedger)
    (userId : UserId) : Except HttpError TrustLedger :=
  if ¬ (ctx.user userId).any (fun u => u.isActive && u.moderationStatus == .active) then return l
  else if l.standing.any (fun e => e.bookingId == some bookingId && e.userId == userId
      && e.category.isPenalty) then return l
  else do
    let (after, _) ← applyTrustEventInTransaction ctx.now {
      userId, delta := 3, bookingId := some bookingId, category := .completion
      reason := "Eligible booking completed and payment settled"
      eventKey := .bookingCompletion bookingId
        (if userId = booking.providerId then .provider else .seeker) } l
    return after

/-- `awardBookingCompletionTrust`; the accounts are rewarded in the order of their ids. -/
def awardBookingCompletionTrust (ctx : TrustContext) (bookingId : BookingId) (l : TrustLedger) :
    Except HttpError TrustLedger :=
  match ctx.booking bookingId with
  | none => return l
  | some f =>
      if f.rewardable ctx = false then return l
      else if l.recentlyRewarded ctx bookingId f.booking then return l
      else [min f.booking.providerId f.booking.seekerId,
        max f.booking.providerId f.booking.seekerId].foldlM (awardParticipant ctx bookingId f.booking) l

/-- `reason.trim().length >= 20`. -/
def documented (reason : String) : Bool := 20 ≤ codeUnits (Runs.trim isSpace reason.toList)

structure TrustPenalty where
  bookingId : BookingId
  userId : UserId
  adminId : UserId
  eventKey : EventKey
  category : TrustCategory
  reason : String
  deriving Repr, DecidableEq

/-- `applyBookingTrustPenalty`. -/
def applyBookingTrustPenalty (ctx : TrustContext) (input : TrustPenalty) (l : TrustLedger) :
    Except HttpError TrustLedger := do
  rejectIf (documented input.reason = false)
    (httpError "Describe the violated rule and supporting booking evidence (at least 20 characters)" 422)
  let stranger := httpError "Trust penalties require a booking participant" 422
  let f ← orThrow (ctx.booking input.bookingId) stranger
  rejectIf (input.userId ≠ f.booking.providerId ∧ input.userId ≠ f.booking.seekerId) stranger
  rejectIf (input.adminId = f.booking.providerId ∨ input.adminId = f.booking.seekerId)
    (httpError "An administrator cannot decide a booking they participated in" 403)
  rejectIf (input.category = .cancellationPenalty ∧ f.booking.started = false)
    (httpError "Cancellation penalties apply only after work starts" 422)
  let penaltyKey := some (input.bookingId, input.userId)
  if l.events.any (·.penaltyKey == penaltyKey) then return l
  else do
    let (after, _) ← applyTrustEventInTransaction ctx.now {
      userId := input.userId
      delta := if input.category = .cancellationPenalty then -5 else -10
      reason := input.reason, actorAdminId := some input.adminId, bookingId := some input.bookingId
      category := input.category, eventKey := input.eventKey, penaltyKey } l
    return after

/-- The penalty of a confirmed report (`applyReportPenalty`). -/
def penalizeReport (ctx : TrustContext) (bookingId : BookingId) (reportId : Nat) (userId adminId : UserId)
    (notes : String) (l : TrustLedger) : Except HttpError TrustLedger :=
  applyBookingTrustPenalty ctx {
    bookingId, userId, adminId, eventKey := .report bookingId reportId, category := .reportPenalty
    reason := "Confirmed serious misconduct: " ++ notes } l

/-- The penalty of an approved cancellation, for the participant at fault. -/
def penalizeCancellation (ctx : TrustContext) (bookingId : BookingId) (requestId : Nat) (provider : Bool)
    (faultUserId adminId : UserId) (notes : String) (l : TrustLedger) : Except HttpError TrustLedger :=
  applyBookingTrustPenalty ctx {
    bookingId, userId := faultUserId, adminId
    eventKey := .cancellation bookingId requestId faultUserId, category := .cancellationPenalty
    reason := (if provider then "Provider" else "Seeker") ++ " at fault for cancelling started work: "
      ++ notes } l

/-- `applyManualTrustAdjustment`. -/
def applyManualTrustAdjustment (now : Millis) (userId adminId : UserId) (eventId : Nat) (reason : String)
    (operationId : Nat) (l : TrustLedger) : Except HttpError TrustLedger := do
  rejectIf (adminId = userId ∨ documented reason = false)
    (httpError "A correction requires an independent administrator and a documented reason" 422)
  let ineligible := httpError "Select an eligible original trust event to correct" 422
  let original ← orThrow (l.events[eventId]?) ineligible
  rejectIf (original.userId ≠ userId ∨ original.delta = 0 ∨ original.reversesEventId ≠ none
    ∨ original.eventKey.isBaseline = true) ineligible
  rejectIf ((l.reversal eventId).any (·.eventKey ≠ .manualTrust adminId operationId))
    (httpError "This trust event has already been corrected" 409)
  let (after, _) ← applyTrustEventInTransaction now {
    userId, delta := -original.delta, requestedDelta := some (-original.delta), reason
    actorAdminId := some adminId, eventKey := .manualTrust adminId operationId
    reversesEventId := some eventId, bookingId := original.bookingId, category := .correction } l
  return after

/-- `submitTrustCase`. -/
def submitTrustCase (userId : UserId) (eventId : Nat) (description : String) (l : TrustLedger) :
    Except HttpError TrustLedger := do
  let ineligible := httpError "Select an uncorrected penalty on your own account" 403
  let event ← orThrow (l.events[eventId]?) ineligible
  rejectIf (event.userId ≠ userId ∨ (l.reversal eventId).isSome = true ∨ event.category.isPenalty = false)
    ineligible
  rejectIf (l.cases.any (·.trustEventId == eventId))
    (httpError "A case has already been submitted for this penalty" 409)
  return { l with cases := l.cases ++ [{ userId, trustEventId := eventId, description }] }

/-- `decideTrustCase` on an appeal. -/
def decideTrustCase (ctx : TrustContext) (caseId : Nat) (adminId : UserId) (uphold : Bool)
    (reason : String) (l : TrustLedger) : Except HttpError TrustLedger := do
  let item ← orThrow (l.cases[caseId]?) (httpError "Case not found" 404)
  rejectIf (item.upheld.isSome) (httpError "This case has already been decided" 409)
  rejectIf (item.userId = adminId) (httpError "An administrator cannot decide their own case" 403)
  let original ← orThrow (l.events[item.trustEventId]?) recordNotFound
  rejectIf (original.actorAdminId = some adminId ∧ ctx.otherAdmin adminId = true)
    (httpError "Another active administrator must review an appeal against your finding" 403)
  let after ← if uphold = true ∧ (l.reversal item.trustEventId).isNone = true then do
      let (corrected, _) ← applyTrustEventInTransaction ctx.now {
        userId := item.userId, delta := -original.delta, reason := "Penalty appeal upheld: " ++ reason
        actorAdminId := some adminId, category := .correction, reversesEventId := some item.trustEventId
        bookingId := original.bookingId, eventKey := .trustAppeal caseId } l
      pure corrected
    else pure l
  return { after with
    cases := after.cases.modify caseId ({ · with upheld := some uphold, adminId := some adminId }) }

/-- The transactions that write trust scores, events or appeals. -/
inductive TrustAction where
  | createAccount (userId : UserId)
  | approveVerification (userId adminId : UserId)
  | applyTrustEvent (userId : UserId) (delta : Int) (reason : String) (actorAdminId : Option UserId)
      (operation : Nat)
  | awardCompletion (bookingId : BookingId)
  | penalizeReport (bookingId : BookingId) (reportId : Nat) (userId adminId : UserId) (notes : String)
  | penalizeCancellation (bookingId : BookingId) (requestId : Nat) (provider : Bool)
      (faultUserId adminId : UserId) (notes : String)
  | adjust (userId adminId : UserId) (eventId : Nat) (reason : String) (operationId : Nat)
  | submitCase (userId : UserId) (eventId : Nat) (description : String)
  | decideCase (caseId : Nat) (adminId : UserId) (uphold : Bool) (reason : String)
  deriving Repr, DecidableEq

def TrustLedger.run (ctx : TrustContext) (l : TrustLedger) : TrustAction → Except HttpError TrustLedger
  | .createAccount userId => createAccount ctx.now userId l
  | .approveVerification userId adminId => approveVerificationTrust ctx.now userId adminId l
  | .applyTrustEvent userId delta reason actorAdminId operation =>
      applyTrustEvent ctx.now userId delta reason actorAdminId (.trustOperation operation) l
  | .awardCompletion bookingId => awardBookingCompletionTrust ctx bookingId l
  | .penalizeReport bookingId reportId userId adminId notes =>
      penalizeReport ctx bookingId reportId userId adminId notes l
  | .penalizeCancellation bookingId requestId provider faultUserId adminId notes =>
      penalizeCancellation ctx bookingId requestId provider faultUserId adminId notes l
  | .adjust userId adminId eventId reason operationId =>
      applyManualTrustAdjustment ctx.now userId adminId eventId reason operationId l
  | .submitCase userId eventId description => submitTrustCase userId eventId description l
  | .decideCase caseId adminId uphold reason => decideTrustCase ctx caseId adminId uphold reason l

/-- The ledger from an empty database; every step reads the other tables as they are then. -/
def trustMachine : Machine TrustLedger (TrustContext × TrustAction) where
  initial l := (∀ u, l.trustScore u = none) ∧ l.events = [] ∧ l.cases = []
  next l a := (l.run a.1 a.2).toOption

end ServiceHub
