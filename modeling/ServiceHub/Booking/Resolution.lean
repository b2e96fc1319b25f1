import ServiceHub.Booking.Cancellation
import ServiceHub.Booking.Lifecycle

/-! # Administrator resolutions

`resolveAdminReport`, `resolveCompletionEscalation` and `resolveAdminBooking`: the
claim that fixes the decision, the reservation of its financial outcome, and the
finalization of the case.
-/

namespace ServiceHub

open Guard

/-- `allowedReportOutcomes`. -/
def allowedReportOutcomes (report : Report) (booking : Booking) : List ReportOutcome :=
  if report.status.active = false ∨ report.reportType = .cancellationEscalation then []
  else
    [.dismiss]
      ++ (if report.reportType = .safety then [.resolveSafety] else [])
      ++ (if booking.status ≠ .completed ∧ booking.status ≠ .canceled then [.cancelBooking] else [])
      ++ (if report.reportType = .completionDispute
            ∧ booking.statusBeforeDispute = some .awaitingConfirmation
          then [.releaseProviderAndComplete] else [])

def assertReportDecision (report : Report) (booking : Booking) (outcome : ReportOutcome)
    (penalty : ReportPenalty) : Except HttpError Unit := do
  rejectIf (outcome = .dismiss ∧ penalty ≠ .none)
    (httpError "Dismissed reports cannot apply an account penalty. Record a supported finding before penalizing a participant."
      422 (some "DISMISSED_REPORT_PENALTY"))
  rejectIf (outcome ∉ allowedReportOutcomes report booking)
    (httpError "This decision is not available for the current case and booking state. Refresh the case before continuing."
      422 (some "INVALID_REPORT_OUTCOME"))

/-- `allowedReportPenalties`; `own` when the account is the deciding administrator. -/
def allowedReportPenalties (account : Option User) (own : Bool) : List ReportPenalty :=
  match account with
  | none => [.none]
  | some u =>
      if own = true ∨ u.role ≠ .user ∨ u.isActive = false ∨ u.deactivatedAt.isSome = true then [.none]
      else
        [.none, .warn, .trustDeduct]
          ++ (if u.moderationStatus = .active then [.suspend] else [])
          ++ (if u.moderationStatus ≠ .banned then [.ban] else [])

/-- Statuses of unstarted bookings that block a suspension. -/
def Booking.blocksSuspension (b : Booking) (userId : UserId) : Bool :=
  b.providerId == userId && !b.started
    && (b.status == .pendingApproval || b.status == .waiting || b.status == .accepted)

/-- `checkReportPenalty`, returning the penalty that is applied. -/
def checkReportPenalty (ctx : Context) (f : BookingFile) (userId adminId : UserId)
    (penalty : ReportPenalty) (resuming canceled : Bool) : Except HttpError ReportPenalty :=
  if penalty = .none then
    return .none
  else if penalty ∉ allowedReportPenalties (ctx.user userId) (userId == adminId) then
    if resuming then return .none
    else throw (conflict
      "This account cannot receive that penalty. Refresh the case and review its current account status."
      "INVALID_REPORT_PENALTY")
  else do
    let own := if f.booking.blocksSuspension userId ∧ canceled = false then 1 else 0
    rejectIf (penalty = .suspend ∧ ctx.unstartedElsewhere userId + own > 0)
      (conflict "Resolve or cancel the provider's unstarted booking(s) before suspension."
        "SUSPENSION_BOOKINGS_BLOCKED")
    return penalty

def ReportOutcome.financial : ReportOutcome → Bool
  | .cancelBooking | .releaseProviderAndComplete => true
  | .dismiss | .resolveSafety => false

/-- The claim of `resolveAdminReport`; `adminNotes` is the length of the trimmed notes. -/
def claimReport (ctx : Context) (reportId : Nat) (adminId : UserId) (outcome : ReportOutcome)
    (penalty : ReportPenalty) (adminNotes : Nat) (f : BookingFile) : Except HttpError Commit := do
  rejectIf (penalty = .trustDeduct ∧ adminNotes < 20)
    (httpError "Describe the serious violation and supporting evidence in at least 20 characters" 422)
  let report ← orThrow (f.findReport reportId) (httpError "Report not found" 404)
  rejectIf (report.reportType = .cancellationEscalation)
    (httpError "Use the linked cancellation decision controls for this case" 422
      (some "USE_CANCELLATION_RESOLUTION"))
  let existing := f.findOperation (.report reportId)
  if report.status.active = false then do
    rejectIf (existing.all (·.status != .completed))
      (httpError "Report has already been resolved" 409)
    return { file := f }
  else do
    let financialRetry := existing.any fun o =>
      (o.stage == .financialEffectReserved || o.stage == .financialEffectEstablished)
        && o.requestedOutcome == outcome.requested
    if financialRetry = false ∨ (outcome = .dismiss ∧ penalty ≠ .none) then
      assertReportDecision report f.booking outcome penalty
    else pure ()
    if existing = none then do
      let _ ← checkReportPenalty ctx f report.reportedUserId adminId penalty false
        (outcome == .cancelBooking)
    else pure ()
    let (begun, operation) ←
      beginAdminResolution f (.report reportId) outcome.requested penalty.requested
    let (claimed, operation) ←
      if outcome.financial = true then
        reconcileReservedFinancialEffect begun operation (outcome == .releaseProviderAndComplete)
      else pure (begun, operation)
    if operation.status = .completed then
      return { file := claimed }
    else do
      let established := operation.hasEstablishedFinancialEffect
      rejectIf (established = false ∧ outcome = .releaseProviderAndComplete
          ∧ (report.reportType ≠ .completionDispute
            ∨ f.booking.statusBeforeDispute ≠ some .awaitingConfirmation))
        (httpError "Only a completion dispute awaiting seeker confirmation can be released to the provider"
          422 (some "INVALID_REPORT_OUTCOME"))
      if established = false ∧ outcome.financial = true then
        assertNoOtherBlockingCases claimed { reportId := some reportId }
      else pure ()
      return {
        file := claimed.updateReport reportId ({ · with status := .underReview })
        continues := some ⟨.resolveAdminReport reportId adminId outcome penalty,
          if outcome.financial = true ∧ established = false then .reserve else .markDecisionReady⟩ }

/-- The effect stage after a reservation. -/
def ReportOutcome.effect : ReportOutcome → Stage
  | .releaseProviderAndComplete => .settle
  | _ => .cancelRead

def reserveReportFinancialOutcome (caller : Caller) (reportId : Nat) (effect : Stage)
    (f : BookingFile) : Except HttpError Commit := do
  let report ← orThrow (f.findReport reportId) (httpError "Report not found" 404)
  rejectIf (report.status ≠ .underReview)
    (conflict "Report changed before its financial outcome was reserved" "STALE_REPORT")
  let operation ← orThrow (f.findOperation (.report reportId))
    (httpError "Resolution operation not found" 500)
  if operation.status = .completed ∨ operation.hasEstablishedFinancialEffect = true then
    return { file := f, continues := some ⟨caller, effect⟩ }
  else do
    assertNoOtherBlockingCases f { reportId := some reportId }
    let (reserved, _) ←
      markAdminResolutionStageInTransaction f (.report reportId) .financialEffectReserved
    return { file := reserved, continues := some ⟨caller, effect⟩ }

/-- COMPLETED and RELEASED or CASH_CONFIRMED. -/
def Booking.completionSettled (b : Booking) : Bool :=
  b.status == .completed && (b.paymentStatus == .released || b.paymentStatus == .cashConfirmed)

/-- CANCELED and, by payment method, UNPAID or REFUNDED. -/
def Booking.cancellationValid (b : Booking) : Bool :=
  b.status == .canceled && b.paymentStatus == b.paymentMethod.paid .refunded

/-- The account restriction of an applied penalty. -/
def ReportPenalty.moderation (userId : UserId) :
    ReportPenalty → Option (UserId × AccountModerationStatus)
  | .suspend => some (userId, .suspended)
  | .ban => some (userId, .banned)
  | .none | .warn | .trustDeduct => .none

def finalizeReport (ctx : Context) (reportId : Nat) (adminId : UserId) (outcome : ReportOutcome)
    (penalty : ReportPenalty) (f : BookingFile) : Except HttpError Commit := do
  let operation ← orThrow (f.findOperation (.report reportId))
    (httpError "Resolution operation not found" 500)
  if operation.status = .completed then
    return { file := f }
  else do
    let changed := httpError "Report changed before finalization" 409
    let report ← orThrow (f.findReport reportId) changed
    rejectIf (report.status ≠ .underReview) changed
    rejectIf (outcome = .cancelBooking ∧ f.booking.cancellationValid = false)
      (httpError "Booking cancellation/refund has not reached a valid final state" 409)
    rejectIf (outcome = .releaseProviderAndComplete ∧ f.booking.completionSettled = false)
      (httpError "Booking completion has not reached a valid final state" 409)
    let applied ← checkReportPenalty ctx f report.reportedUserId adminId penalty true false
    if applied = .trustDeduct then
      bookingTrustPenaltyAllowed f report.reportedUserId adminId false
    else pure ()
    let closed := f.updateReport reportId
      ({ · with status := if outcome = .dismiss then .dismissed else .resolved })
    let restored ←
      if outcome.financial = true then pure closed else restoreBookingIfNoBlockingCases ctx closed
    return {
      file := completeOperation restored (.report reportId)
      moderation := applied.moderation report.reportedUserId }

/-- `resolutionCode`. -/
def EscalationAction.code : EscalationAction → EscalationResolution
  | .releaseProviderAndComplete => .releaseProviderAndComplete
  | .refundSeeker => .refundSeeker
  | .keepAwaiting => .keepAwaiting

def EscalationAction.effect : EscalationAction → Stage
  | .releaseProviderAndComplete => .settle
  | _ => .cancelRead

/-- The claim of `resolveCompletionEscalation`. -/
def claimEscalation (escalationId : Nat) (adminId : UserId) (action : EscalationAction)
    (f : BookingFile) : Except HttpError Commit := do
  let escalation ← orThrow (f.findEscalation escalationId)
    (httpError "Completion escalation not found" 404)
  if escalation.status.active = false then do
    rejectIf ((f.findOperation (.completionEscalation escalationId)).all (·.status != .completed))
      (conflict "This escalation was superseded or already resolved" "STALE_ESCALATION")
    return { file := f }
  else do
    let (begun, operation) ←
      beginAdminResolution f (.completionEscalation escalationId) action.requested .none
    let (claimed, operation) ←
      if action ≠ .keepAwaiting then
        reconcileReservedFinancialEffect begun operation (action == .releaseProviderAndComplete)
      else pure (begun, operation)
    if operation.status = .completed then
      return { file := claimed }
    else do
      let established := operation.hasEstablishedFinancialEffect
      let reservedRetry := f.booking.status = .underReview
        ∧ f.booking.statusBeforeDispute = some .awaitingConfirmation
        ∧ operation.stage = .financialEffectReserved
      rejectIf (established = false ∧ f.booking.status ≠ .awaitingConfirmation ∧ ¬ reservedRetry)
        (conflict "The booking changed before this escalation could be resolved" "STALE_ESCALATION")
      return {
        file := claimed.updateEscalation escalationId
          ({ · with status := .underReview, resolution := some action.code })
        continues := some ⟨.resolveCompletionEscalation escalationId adminId action,
          if action ≠ .keepAwaiting ∧ established = false then .reserve else .markDecisionReady⟩ }

/-- `reserveCompletionFinancialOutcome`, which also takes the booking out of the
    participants' hands. -/
def reserveCompletionFinancialOutcome (caller : Caller) (escalationId : Nat) (effect : Stage)
    (f : BookingFile) : Except HttpError Commit := do
  let escalation ← orThrow (f.findEscalation escalationId)
    (httpError "Completion escalation not found" 404)
  let superseded := conflict "This escalation was superseded before settlement began" "STALE_ESCALATION"
  rejectIf (escalation.status ≠ .underReview) superseded
  let operation ← orThrow (f.findOperation (.completionEscalation escalationId)) superseded
  rejectIf (operation.status = .completed) superseded
  if operation.hasEstablishedFinancialEffect = true then
    return { file := f, continues := some ⟨caller, effect⟩ }
  else do
    assertNoOtherBlockingCases f { completionEscalationId := some escalationId }
    let alreadyReserved := f.booking.status = .underReview
      ∧ f.booking.statusBeforeDispute = some .awaitingConfirmation
    rejectIf (¬ alreadyReserved ∧ f.booking.status ≠ .awaitingConfirmation)
      (conflict "The seeker resolved or disputed this booking before settlement began"
        "STALE_ESCALATION")
    let held := if alreadyReserved then f else { f with booking := { f.booking with
      status := .underReview, statusBeforeDispute := some .awaitingConfirmation } }
    let (reserved, _) ← markAdminResolutionStageInTransaction held
      (.completionEscalation escalationId) .financialEffectReserved
    return { file := reserved, continues := some ⟨caller, effect⟩ }

def finalizeEscalation (ctx : Context) (escalationId : Nat) (action : EscalationAction)
    (f : BookingFile) : Except HttpError Commit := do
  let operation ← orThrow (f.findOperation (.completionEscalation escalationId))
    (httpError "Resolution operation not found" 500)
  if operation.status = .completed then
    return { file := f }
  else do
    let superseded := conflict "This escalation was superseded before finalization" "STALE_ESCALATION"
    let escalation ← orThrow (f.findEscalation escalationId) superseded
    rejectIf (escalation.status ≠ .underReview) superseded
    rejectIf (action = .releaseProviderAndComplete ∧ f.booking.completionSettled = false)
      (httpError "Completion settlement has not reached its valid final state" 409)
    rejectIf (action = .refundSeeker ∧ f.booking.cancellationSettled = false) unsettledCancellation
    rejectIf (action = .keepAwaiting ∧ f.booking.status ≠ .awaitingConfirmation)
      (conflict "The booking is no longer awaiting confirmation" "STALE_ESCALATION")
    let resolved := f.updateEscalation escalationId
      ({ · with status := .resolved, resolution := some action.code, resolvedAt := some ctx.now })
    return { file := completeOperation resolved (.completionEscalation escalationId) }

/-- `adminBookingOutcomeAllowed`. -/
def adminBookingOutcomeAllowed (b : Booking) (hasBannedParticipant : Bool)
    (outcome : AdminBookingOutcome) : Bool :=
  match outcome with
  | .releaseProviderAndComplete =>
      hasBannedParticipant && b.status == .awaitingConfirmation && b.paymentMethod != .onsiteCash
  | .cancelBooking =>
      (!b.started && (b.status == .pendingApproval || b.status == .waiting || b.status == .accepted))
        || (hasBannedParticipant && (b.status == .ongoing || b.status == .awaitingConfirmation))

def adminBookingConflict (message : String) : HttpError :=
  conflict message "ADMIN_BOOKING_RESOLUTION_CONFLICT"

def Context.banned (ctx : Context) (userId : UserId) : Bool :=
  (ctx.user userId).any (·.moderationStatus == .banned)

def AdminBookingOutcome.effect : AdminBookingOutcome → Stage
  | .cancelBooking => .cancelRead
  | .releaseProviderAndComplete => .settle

/-- The claim of `resolveAdminBooking`, which reserves the outcome in the same transaction. -/
def claimAdminBooking (ctx : Context) (adminId : UserId) (outcome : AdminBookingOutcome)
    (requireBannedParticipant : Bool) (f : BookingFile) : Except HttpError Commit := do
  let b := f.booking
  let existing := f.findOperation .adminBooking
  if existing.any (·.status == .completed) = true then do
    rejectIf (existing.any (·.requestedOutcome != outcome.requested))
      (adminBookingConflict "This booking already has a different administrator decision")
    return { file := f }
  else do
    rejectIf (existing.any fun o => o.status == .failedNonretryable || o.stage == .caseFinalized)
      (adminBookingConflict "This booking decision can no longer be retried")
    let banned := ctx.banned b.seekerId || ctx.banned b.providerId
    rejectIf (requireBannedParticipant = true ∧ banned = false ∧ existing = none)
      (adminBookingConflict "This resolution is only available for a booking with a banned participant")
    rejectIf (existing = none ∧ adminBookingOutcomeAllowed b banned outcome = false)
      (adminBookingConflict "This booking state is not eligible for that administrator decision")
    let (begun, operation) ← beginAdminResolution f .adminBooking outcome.requested .none
    let (claimed, operation) ←
      reconcileReservedFinancialEffect begun operation (outcome == .releaseProviderAndComplete)
    let caller := Caller.resolveAdminBooking adminId outcome
    if operation.status = .completed then
      return { file := claimed }
    else if operation.hasEstablishedFinancialEffect = true then
      return { file := claimed, continues := some ⟨caller, .finalize⟩ }
    else if operation.stage = .financialEffectReserved then do
      rejectIf (b.status ≠ .underReview ∨ b.statusBeforeDispute = none)
        (adminBookingConflict "Booking changed during administrator resolution")
      return { file := claimed, continues := some ⟨caller, outcome.effect⟩ }
    else do
      rejectIf (adminBookingOutcomeAllowed b banned outcome = false)
        (adminBookingConflict "Booking changed before the administrator decision was reserved")
      assertNoOtherBlockingCases claimed {}
      assertNoFinancialResolutionReserved claimed (some .adminBooking)
      let held := { claimed with booking := { b with
        status := .underReview, statusBeforeDispute := some b.status } }
      let (reserved, _) ←
        markAdminResolutionStageInTransaction held .adminBooking .financialEffectReserved
      return { file := reserved, continues := some ⟨caller, outcome.effect⟩ }

def finalizeAdminBooking (outcome : AdminBookingOutcome) (f : BookingFile) :
    Except HttpError Commit := do
  let operation ← orThrow (f.findOperation .adminBooking) recordNotFound
  if operation.status = .completed then
    return { file := f }
  else do
    let reached := match outcome with
      | .cancelBooking => f.booking.cancellationValid
      | .releaseProviderAndComplete =>
          f.booking.status == .completed && f.booking.paymentStatus == .released
    rejectIf (reached = false)
      (adminBookingConflict "The financial outcome has not reached its expected final state")
    return { file := completeOperation f .adminBooking }

section Inversion

variable {ctx : Context} {f : BookingFile} {c : Commit} {caller : Caller}

theorem claimReport_ok {id : Nat} {adminId : UserId} {outcome : ReportOutcome}
    {penalty : ReportPenalty} {notes : Nat}
    (h : claimReport ctx id adminId outcome penalty notes f = .ok c) :
    c = { file := f } ∨ ∃ report claimed op, f.findReport id = some report
      ∧ report.status.active = true ∧ report.reportType ≠ .cancellationEscalation
      ∧ Claimed f (.report id) outcome.requested penalty.requested claimed op
      ∧ ((op.status = .completed ∧ c = { file := claimed })
        ∨ (op.status ≠ .completed ∧ c = {
            file := claimed.updateReport id ({ · with status := .underReview })
            continues := some ⟨.resolveAdminReport id adminId outcome penalty,
              if outcome.financial = true ∧ op.hasEstablishedFinancialEffect = false then .reserve
              else .markDecisionReady⟩ })) := by
  simp only [claimReport, orThrow_bind_ok, check_bind_ok, rejectIf_ok] at h
  obtain ⟨-, report, found, linked, h⟩ := h
  rw [ite_ok] at h
  obtain ⟨-, h⟩ | ⟨active, h⟩ := h
  · simp only [check_bind_ok, pure_ok] at h
    exact .inl h.2.symm
  have begun : ∃ begun op claimed op',
      beginAdminResolution f (.report id) outcome.requested penalty.requested = .ok (begun, op)
        ∧ (if outcome.financial = true then
            reconcileReservedFinancialEffect begun op (outcome == .releaseProviderAndComplete)
          else pure (begun, op)) = .ok (claimed, op')
        ∧ ((op'.status = .completed ∧ c = { file := claimed })
          ∨ (op'.status ≠ .completed ∧ c = {
              file := claimed.updateReport id ({ · with status := .underReview })
              continues := some ⟨.resolveAdminReport id adminId outcome penalty,
                if outcome.financial = true ∧ op'.hasEstablishedFinancialEffect = false then .reserve
                else .markDecisionReady⟩ })) := by
    simp only [ite_ok, rejectIf_ok, bind_ok, pure_ok, Prod.exists,
      Prod.mk.injEq] at h ⊢
    grind
  obtain ⟨begun, op, claimed, op', hb, hr, h⟩ := begun
  refine .inr ⟨report, claimed, op', found, by simpa using active, linked, ?_, h⟩
  rw [ite_ok] at hr
  obtain ⟨-, hr⟩ | ⟨-, hr⟩ := hr
  · exact (reconcileReservedFinancialEffect_ok (beginAdminResolution_ok hb) hr).1
  · simp only [pure_ok, Prod.mk.injEq] at hr
    obtain ⟨rfl, rfl⟩ := hr
    exact beginAdminResolution_ok hb

theorem reserveReportFinancialOutcome_ok {id : Nat} {effect : Stage}
    (h : reserveReportFinancialOutcome caller id effect f = .ok c) :
    ∃ report o, f.findReport id = some report ∧ report.status = .underReview
      ∧ f.findOperation (.report id) = some o
      ∧ (((o.status = .completed ∨ o.hasEstablishedFinancialEffect = true)
          ∧ c = { file := f, continues := some ⟨caller, effect⟩ })
        ∨ ∃ reserved op, OnlyBlockedBy f { reportId := some id }
          ∧ markAdminResolutionStageInTransaction f (.report id) .financialEffectReserved
            = .ok (reserved, op)
          ∧ c = { file := reserved, continues := some ⟨caller, effect⟩ }) := by
  simp only [reserveReportFinancialOutcome, orThrow_bind_ok, check_bind_ok, rejectIf_ok, ite_ok,
    pure_ok, assertNoOtherBlockingCases_ok, not_not] at h
  obtain ⟨report, found, review, o, ho, ⟨established, rfl⟩ | ⟨-, only, h⟩⟩ := h
  · exact ⟨report, o, found, review, ho, .inl ⟨established, rfl⟩⟩
  · simp only [bind_ok, pure_ok, Prod.exists] at h
    obtain ⟨reserved, op, marked, rfl⟩ := h
    exact ⟨report, o, found, review, ho, .inr ⟨reserved, op, only, marked, rfl⟩⟩

/-- A financial outcome needs its final state, another outcome may restore the booking. -/
theorem finalizeReport_ok {id : Nat} {adminId : UserId} {outcome : ReportOutcome}
    {penalty : ReportPenalty} (h : finalizeReport ctx id adminId outcome penalty f = .ok c) :
    c = { file := f } ∨ ∃ report closed restored applied, f.findReport id = some report
      ∧ report.status = .underReview
      ∧ checkReportPenalty ctx f report.reportedUserId adminId penalty true false = .ok applied
      ∧ closed = f.updateReport id
          ({ · with status := if outcome = .dismiss then .dismissed else .resolved })
      ∧ ((outcome = .cancelBooking ∧ f.booking.cancellationValid = true ∧ restored = closed)
        ∨ (outcome = .releaseProviderAndComplete ∧ f.booking.completionSettled = true
            ∧ restored = closed)
        ∨ (outcome.financial = false ∧ restoreBookingIfNoBlockingCases ctx closed = .ok restored))
      ∧ c = {
        file := completeOperation restored (.report id)
        moderation := applied.moderation report.reportedUserId } := by
  simp only [finalizeReport, orThrow_bind_ok] at h
  obtain ⟨operation, -, h⟩ := h
  simp only [ite_ok, pure_ok, orThrow_bind_ok, check_bind_ok, rejectIf_ok, not_not] at h
  obtain ⟨-, rfl⟩ | ⟨-, report, found, review, canceled, completed, h⟩ := h
  · exact .inl rfl
  rw [bind_ok] at h
  obtain ⟨applied, checked, h⟩ := h
  have tail : ∃ restored, (if outcome.financial = true then
        pure (f.updateReport id
          ({ · with status := if outcome = .dismiss then .dismissed else .resolved }))
      else restoreBookingIfNoBlockingCases ctx (f.updateReport id
        ({ · with status := if outcome = .dismiss then .dismissed else .resolved })))
        = .ok restored
      ∧ c = {
        file := completeOperation restored (.report id)
        moderation := applied.moderation report.reportedUserId } := by
    simp only [ite_ok, bind_ok, pure_ok] at h ⊢
    grind
  obtain ⟨restored, hr, rfl⟩ := tail
  refine .inr ⟨report, _, restored, applied, found, review, checked, rfl, ?_, rfl⟩
  cases outcome with
  | dismiss => exact .inr (.inr ⟨rfl, hr⟩)
  | resolveSafety => exact .inr (.inr ⟨rfl, hr⟩)
  | cancelBooking =>
      simp only [ReportOutcome.financial, if_true, pure_ok] at hr
      exact .inl ⟨rfl, by simpa using canceled, hr.symm⟩
  | releaseProviderAndComplete =>
      simp only [ReportOutcome.financial, if_true, pure_ok] at hr
      exact .inr (.inl ⟨rfl, by simpa using completed, hr.symm⟩)

theorem claimEscalation_ok {id : Nat} {adminId : UserId} {action : EscalationAction}
    (h : claimEscalation id adminId action f = .ok c) :
    c = { file := f } ∨ ∃ escalation claimed op, f.findEscalation id = some escalation
      ∧ escalation.status.active = true
      ∧ Claimed f (.completionEscalation id) action.requested .none claimed op
      ∧ ((op.status = .completed ∧ c = { file := claimed })
        ∨ (op.status ≠ .completed ∧ c = {
            file := claimed.updateEscalation id
              ({ · with status := .underReview, resolution := some action.code })
            continues := some ⟨.resolveCompletionEscalation id adminId action,
              if action ≠ .keepAwaiting ∧ op.hasEstablishedFinancialEffect = false then .reserve
              else .markDecisionReady⟩ })) := by
  simp only [claimEscalation, orThrow_bind_ok] at h
  obtain ⟨escalation, found, h⟩ := h
  rw [ite_ok] at h
  obtain ⟨-, h⟩ | ⟨active, h⟩ := h
  · simp only [check_bind_ok, pure_ok] at h
    exact .inl h.2.symm
  rw [bind_ok] at h
  obtain ⟨⟨begun, op⟩, hb, h⟩ := h
  have tail : ∃ claimed op', (if action ≠ .keepAwaiting then
        reconcileReservedFinancialEffect begun op (action == .releaseProviderAndComplete)
      else pure (begun, op)) = .ok (claimed, op')
      ∧ ((op'.status = .completed ∧ c = { file := claimed })
        ∨ (op'.status ≠ .completed ∧ c = {
            file := claimed.updateEscalation id
              ({ · with status := .underReview, resolution := some action.code })
            continues := some ⟨.resolveCompletionEscalation id adminId action,
              if action ≠ .keepAwaiting ∧ op'.hasEstablishedFinancialEffect = false then .reserve
              else .markDecisionReady⟩ })) := by
    simp only [ite_ok, rejectIf_ok, bind_ok, pure_ok, Prod.exists,
      Prod.mk.injEq] at h ⊢
    grind
  obtain ⟨claimed, op', hr, h⟩ := tail
  refine .inr ⟨escalation, claimed, op', found, by simpa using active, ?_, h⟩
  rw [ite_ok] at hr
  obtain ⟨-, hr⟩ | ⟨-, hr⟩ := hr
  · exact (reconcileReservedFinancialEffect_ok (beginAdminResolution_ok hb) hr).1
  · simp only [pure_ok, Prod.mk.injEq] at hr
    obtain ⟨rfl, rfl⟩ := hr
    exact beginAdminResolution_ok hb

/-- The file on which the outcome of a completion escalation is reserved. -/
def BookingFile.heldForEscalation (f : BookingFile) : BookingFile :=
  { f with booking := { f.booking with
    status := .underReview, statusBeforeDispute := some .awaitingConfirmation } }

theorem reserveCompletionFinancialOutcome_ok {id : Nat} {effect : Stage}
    (h : reserveCompletionFinancialOutcome caller id effect f = .ok c) :
    ∃ escalation o, f.findEscalation id = some escalation ∧ escalation.status = .underReview
      ∧ f.findOperation (.completionEscalation id) = some o
      ∧ ((o.hasEstablishedFinancialEffect = true
          ∧ c = { file := f, continues := some ⟨caller, effect⟩ })
        ∨ ∃ held reserved op, OnlyBlockedBy f { completionEscalationId := some id }
          ∧ ((f.booking.status = .underReview
                ∧ f.booking.statusBeforeDispute = some .awaitingConfirmation ∧ held = f)
            ∨ (f.booking.status = .awaitingConfirmation ∧ held = f.heldForEscalation))
          ∧ markAdminResolutionStageInTransaction held (.completionEscalation id)
              .financialEffectReserved = .ok (reserved, op)
          ∧ c = { file := reserved, continues := some ⟨caller, effect⟩ }) := by
  simp only [reserveCompletionFinancialOutcome, orThrow_bind_ok, check_bind_ok, rejectIf_ok,
    not_not] at h
  obtain ⟨escalation, found, review, o, ho, -, h⟩ := h
  simp only [ite_ok, pure_ok, check_bind_ok, assertNoOtherBlockingCases_ok, rejectIf_ok] at h
  obtain ⟨established, rfl⟩ | ⟨-, only, ready, h⟩ := h
  · exact ⟨escalation, o, found, review, ho, .inl ⟨established, rfl⟩⟩
  simp only [bind_ok, pure_ok, Prod.exists] at h
  obtain ⟨reserved, op, marked, rfl⟩ := h
  refine ⟨escalation, o, found, review, ho, .inr ⟨_, reserved, op, only, ?_, marked, rfl⟩⟩
  by_cases already : f.booking.status = .underReview
      ∧ f.booking.statusBeforeDispute = some .awaitingConfirmation
  · exact .inl ⟨already.1, already.2, if_pos already⟩
  · exact .inr ⟨by simpa [already] using ready, if_neg already⟩

theorem finalizeEscalation_ok {id : Nat} {action : EscalationAction}
    (h : finalizeEscalation ctx id action f = .ok c) :
    c = { file := f } ∨ ((∃ escalation, f.findEscalation id = some escalation
          ∧ escalation.status = .underReview)
      ∧ (action = .releaseProviderAndComplete → f.booking.completionSettled = true)
      ∧ (action = .refundSeeker → f.booking.cancellationSettled = true)
      ∧ (action = .keepAwaiting → f.booking.status = .awaitingConfirmation)
      ∧ c = {
        file := completeOperation (f.updateEscalation id
          ({ · with status := .resolved, resolution := some action.code,
                    resolvedAt := some ctx.now })) (.completionEscalation id) }) := by
  simp only [finalizeEscalation, orThrow_bind_ok] at h
  obtain ⟨operation, -, h⟩ := h
  simp only [ite_ok, pure_ok, orThrow_bind_ok, check_bind_ok, rejectIf_ok, not_not] at h
  obtain ⟨-, rfl⟩ | ⟨-, escalation, found, review, released, refunded, awaiting, rfl⟩ := h
  · exact .inl rfl
  · refine .inr ⟨⟨escalation, found, review⟩, fun ha => ?_, fun ha => ?_, fun ha => ?_, rfl⟩
    · simpa [ha] using released
    · simpa [ha] using refunded
    · simpa [ha] using awaiting

/-- The file on which an administrator's booking decision is reserved. -/
def BookingFile.heldForAdmin (f : BookingFile) : BookingFile :=
  { f with booking := { f.booking with
    status := .underReview, statusBeforeDispute := some f.booking.status } }

theorem adminBookingOutcomeAllowed_open {b : Booking} {banned : Bool} {outcome : AdminBookingOutcome}
    (h : adminBookingOutcomeAllowed b banned outcome = true) : b.status.frozen = false := by
  cases status : b.status <;> cases outcome <;>
    simp_all [adminBookingOutcomeAllowed, BookingStatus.frozen]

theorem claimAdminBooking_ok {adminId : UserId} {outcome : AdminBookingOutcome} {banned : Bool}
    (h : claimAdminBooking ctx adminId outcome banned f = .ok c) :
    c = { file := f } ∨ ∃ claimed op, Claimed f .adminBooking outcome.requested .none claimed op
      ∧ ((op.status = .completed ∧ c = { file := claimed })
        ∨ (op.hasEstablishedFinancialEffect = true ∧ c = {
            file := claimed
            continues := some ⟨.resolveAdminBooking adminId outcome, .finalize⟩ })
        ∨ (op.status ≠ .completed ∧ op.stage = .financialEffectReserved
          ∧ f.booking.status = .underReview ∧ f.booking.statusBeforeDispute ≠ none
          ∧ c = {
            file := claimed
            continues := some ⟨.resolveAdminBooking adminId outcome, outcome.effect⟩ })
        ∨ (op.status ≠ .completed
          ∧ (∃ hasBanned, adminBookingOutcomeAllowed f.booking hasBanned outcome = true)
          ∧ OnlyBlockedBy claimed {}
          ∧ (∀ o ∈ claimed.operations, o.reserved = true → o.caseRef = .adminBooking)
          ∧ ∃ reserved op', markAdminResolutionStageInTransaction claimed.heldForAdmin .adminBooking
              .financialEffectReserved = .ok (reserved, op')
            ∧ op' = { op with stage := .financialEffectReserved, status := .processing }
            ∧ c = {
              file := reserved
              continues := some ⟨.resolveAdminBooking adminId outcome, outcome.effect⟩ })) := by
  simp only [claimAdminBooking] at h
  rw [ite_ok] at h
  obtain ⟨-, h⟩ | ⟨-, h⟩ := h
  · simp only [check_bind_ok, pure_ok] at h
    exact .inl h.2.symm
  simp only [check_bind_ok, rejectIf_ok] at h
  obtain ⟨retried, -, -, h⟩ := h
  rw [bind_ok] at h
  obtain ⟨⟨begun, op⟩, hb, h⟩ := h
  rw [bind_ok] at h
  obtain ⟨⟨claimed, op'⟩, hr, h⟩ := h
  have claim := (reconcileReservedFinancialEffect_ok (beginAdminResolution_ok hb) hr).1
  obtain ⟨ops, same⟩ := claim.written.rows
  refine .inr ⟨claimed, op', claim, ?_⟩
  simp only [ite_ok, pure_ok, check_bind_ok, rejectIf_ok, assertNoOtherBlockingCases_ok,
    assertNoFinancialResolutionReserved_ok, not_or, not_not, Bool.not_eq_false] at h
  obtain ⟨done, rfl⟩ | ⟨running, ⟨established, rfl⟩ | ⟨unsettled, h⟩⟩ := h
  · exact .inl ⟨done, rfl⟩
  · exact .inr (.inl ⟨established, rfl⟩)
  obtain ⟨reserved, ⟨review, before⟩, rfl⟩ | ⟨-, allowed, only, free, h⟩ := h
  · exact .inr (.inr (.inl ⟨running, reserved, review, before, rfl⟩))
  simp only [bind_ok, pure_ok, Prod.exists] at h
  obtain ⟨reserved, op'', marked, rfl⟩ := h
  have unfinished : ¬ op'.finished := by
    rintro (done | failed | final)
    · exact running done
    · obtain ⟨-, rfl⟩ | ⟨o, found, advances⟩ := claim.origin
      · simp at failed
      · cases advances with
        | same => simp [found, failed] at retried
        | forward => simp at failed
    · simp [AdminResolutionOperation.hasEstablishedFinancialEffect, final] at unsettled
  have moved : op'' = { op' with stage := .financialEffectReserved, status := .processing } := by
    subst same
    obtain ⟨o, found, -, -, ⟨-, -, stuck⟩ | ⟨-, -, rfl⟩⟩ :=
      markAdminResolutionStageInTransaction_ok (by decide) marked
    · obtain rfl : op' = o := Option.some.inj (claim.found.symm.trans found)
      obtain finished | further := stuck
      · exact absurd finished unfinished
      · cases stage : op'.stage <;>
          simp [stage, OperationStage.rank, AdminResolutionOperation.hasEstablishedFinancialEffect]
            at further unsettled
    · obtain rfl : op' = o := Option.some.inj (claim.found.symm.trans found)
      rfl
  refine .inr (.inr (.inr ⟨running, ⟨_, allowed⟩, only,
    fun o ho hres => (Option.some.inj (free o ho hres)).symm, reserved, op'', ?_, moved, rfl⟩))
  subst same
  exact marked

theorem finalizeAdminBooking_ok {outcome : AdminBookingOutcome}
    (h : finalizeAdminBooking outcome f = .ok c) :
    c = { file := f } ∨ ((outcome = .cancelBooking → f.booking.cancellationValid = true)
      ∧ (outcome = .releaseProviderAndComplete → f.booking.status = .completed)
      ∧ c = { file := completeOperation f .adminBooking }) := by
  simp only [finalizeAdminBooking, orThrow_bind_ok] at h
  obtain ⟨operation, -, h⟩ := h
  simp only [ite_ok, pure_ok, check_bind_ok, rejectIf_ok, Bool.not_eq_false] at h
  obtain ⟨-, rfl⟩ | ⟨-, reached, rfl⟩ := h
  · exact .inl rfl
  · refine .inr ⟨fun ho => by simpa [ho] using reached, fun ho => ?_, rfl⟩
    simp only [ho, Bool.and_eq_true, beq_iff_eq] at reached
    exact reached.1

end Inversion

end ServiceHub
