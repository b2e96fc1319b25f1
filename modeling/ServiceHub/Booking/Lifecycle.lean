import ServiceHub.Booking.Commit

/-! # The participants' transactions

Acceptance of a cash request, start, completion, settlement, completion dispute,
safety report and completion escalation, each as one transaction on the file.
-/

namespace ServiceHub

open Guard

/-- `respondToDirectBookingService` on a cash request of the booking. -/
def respondToDirectBookingService (ctx : Context) (providerId : UserId) (accept : Bool)
    (f : BookingFile) : Except HttpError Commit := do
  rejectIf (f.booking.providerId ≠ providerId) (httpError "Access denied" 403)
  if accept then do
    rejectIf (¬ (ctx.user providerId).any User.eligibleProvider)
      (httpError "Your account is not eligible to accept a new booking" 403
        (some "ACCEPT_BOOKING_NOT_ALLOWED"))
    rejectIf (¬ (ctx.user providerId).any User.marketplaceAccess)
      (httpError "Your provider membership has ended. Choose Basic or Pro to accept new customers. Existing bookings remain available."
        403 (some "PROVIDER_MEMBERSHIP_EXPIRED"))
    rejectIf (f.directRequest.any (· ≠ .pendingApproval) ∨ f.booking.status ≠ .pendingApproval)
      (httpError "This booking request has already been processed" 409)
    return {
      file := { f with
        directRequest := f.directRequest.map fun _ => .accepted
        booking := { f.booking with status := .accepted, started := false } } }
  else do
    rejectIf (f.directRequest.any (· ≠ .pendingApproval) ∨ f.booking.status ≠ .pendingApproval)
      (httpError "This booking request has already been processed" 409)
    return {
      file := { f with
        directRequest := f.directRequest.map fun _ => .declined
        booking := { f.booking with status := .declined } } }

/-- `paidStartBlockReason`. -/
def paidStartBlockReason (b : Booking) (q : Queue) : Option String :=
  if q.status ≠ .waiting then
    some "This booking is no longer waiting in the paid queue."
  else if b.started then
    some "This job has already started."
  else if b.status ≠ .accepted ∧ b.status ≠ .waiting then
    if b.status.frozen then
      some "This booking is on hold for review. Resolve the case before starting work."
    else
      some "This booking is not accepted for work. Open its details for the current status."
  else if b.paymentStatus ≠ .paidHeld ∨ q.paymentStatus ≠ .paidHeld then
    some "The GCash payment is not confirmed for this booking. Do not start work yet."
  else none

/-- The checks of `providerStartJob` on the queue row, which only paid bookings have. -/
def startReadiness (b : Booking) : Option Queue → Except HttpError Unit
  | none => do
      rejectIf (b.paymentMethod ≠ .onsiteCash)
        (conflict "This paid booking has no active queue entry. Refresh your workload and contact support if it remains listed."
          "START_PAID_QUEUE_MISSING")
      rejectIf (b.status ≠ .accepted ∨ b.started = true)
        (httpError "Only an accepted booking can be started." 400)
      rejectIf (b.paymentStatus ≠ .unpaid)
        (conflict "This booking has no valid cash arrangement or confirmed paid queue entry."
          "START_PAYMENT_STATE_INVALID")
  | some q => do
      rejectIf (b.paymentMethod = .onsiteCash)
        (conflict "Cash bookings cannot enter the paid queue." "START_PAYMENT_STATE_INVALID")
      match paidStartBlockReason b q with
      | some blocked => throw (conflict blocked "PAID_JOB_NOT_READY")
      | none => return ()

def providerStartJob (ctx : Context) (providerId : UserId) (f : BookingFile) :
    Except HttpError Commit := do
  rejectIf (f.booking.providerId ≠ providerId)
    (httpError "Booking or queue entry not found or access denied" 404)
  assertNoRefundInProgress f
  rejectIf (¬ (ctx.user providerId).any User.eligibleProvider)
    (httpError "Your account is not eligible to start a new job" 403 (some "START_JOB_NOT_ALLOWED"))
  startReadiness f.booking f.queue
  rejectIf (ctx.otherOngoing > 0)
    (conflict "Finish your current ongoing job before starting another one" "PROVIDER_ALREADY_ONGOING")
  match f.queue with
  | none => do
      rejectIf (ctx.paidWaiting > 0)
        (conflict "Start the next paid booking before starting a cash arrangement." "PAID_WORK_WAITING")
      -- the conditional update: ACCEPTED and not started
      rejectIf (f.booking.status ≠ .accepted ∨ f.booking.started = true) recordNotFound
      rejectIf (ctx.ongoingElsewhere = true) uniqueViolation
      return { file := { f with booking := { f.booking with status := .ongoing, started := true } } }
  | some q => do
      rejectIf (ctx.firstWaiting = false ∨ ctx.serving > 0)
        (httpError "Start the first waiting booking after the current job is completed." 409)
      rejectIf ((f.booking.status ≠ .accepted ∧ f.booking.status ≠ .waiting)
        ∨ f.booking.started = true) recordNotFound
      rejectIf (ctx.ongoingElsewhere = true) uniqueViolation
      return {
        file := { f with
          queue := some { q with status := .serving, position := 1, estimatedWait := 0 }
          booking := { f.booking with status := .ongoing, started := true, queuePosition := some 1 } }
        recalculates := true }

def markJobComplete (ctx : Context) (providerId : UserId) (f : BookingFile) :
    Except HttpError Commit := do
  rejectIf (f.booking.providerId ≠ providerId) (httpError "Access denied" 403)
  assertNoRefundInProgress f
  if f.booking.status = .awaitingConfirmation then
    return { file := f }
  else do
    rejectIf (f.booking.status ≠ .ongoing)
      (httpError "Only an ongoing job can be marked complete" 409)
    return {
      file := { f with
        booking := { f.booking with status := .awaitingConfirmation }
        queue := f.queue.map fun q => { q with status := .done }
        workMarkedComplete := f.workMarkedComplete ++ [ctx.now] }
      recalculates := true }

inductive SettlementActor where
  | seeker (userId : UserId)
  | admin
  deriving Repr, DecidableEq

/-- Statuses that the actor may settle. -/
def SettlementActor.allows : SettlementActor → BookingStatus → Bool
  | .admin, s => s == .awaitingConfirmation || s.frozen
  | .seeker _, s => s == .awaitingConfirmation

def SettlementActor.isSeeker : SettlementActor → Bool
  | .seeker _ => true
  | .admin => false

/-- `validPaymentState`. -/
def validSettlementPaymentState (actor : SettlementActor) (b : Booking) : Bool :=
  match b.paymentMethod with
  | .onsiteCash => b.paymentStatus == .unpaid
  | .gcash =>
      if ¬ actor.isSeeker ∧ b.status = .disputed then b.paymentStatus == .frozenHeld
      else b.paymentStatus == .paidHeld

/-- The completed service written by a settlement; attempts without terms and cash keep
    the full amount for the provider. -/
def settlementRecord (ctx : Context) (b : Booking) (amount : Centavos) : CompletedService :=
  let terms := if b.paymentMethod = .gcash ∧ b.paymentAttemptId.isSome then ctx.paymentTerms else none
  { finalPrice := amount
    commissionRateBps := (terms.map (·.1)).getD 0
    platformFeeAmount := (terms.map (·.2.1)).getD 0
    providerNetAmount := (terms.bind (·.2.2)).getD amount
    paymentStatus := match b.paymentMethod with
      | .onsiteCash => .cashConfirmed
      | .gcash => .released }

/-- Booking, queue row and, for the seeker, open completion escalations after a settlement. -/
def BookingFile.settled (ctx : Context) (actor : SettlementActor) (paymentStatus : PaymentStatus)
    (f : BookingFile) : BookingFile :=
  { f with
    booking := { f.booking with status := .completed, paymentStatus, statusBeforeDispute := none }
    queue := f.queue.map fun q => { q with status := .done, paymentStatus }
    completionEscalations := match actor with
      | .seeker _ => Rows.updateWhere (·.status.active)
          ({ · with status := .resolved, resolution := some .seekerConfirmed,
                    resolvedAt := some ctx.now }) f.completionEscalations
      | .admin => f.completionEscalations }

def settleCompletedBooking (ctx : Context) (actor : SettlementActor) (f : BookingFile) :
    Except HttpError Commit := do
  assertNoRefundInProgress f
  rejectIf (actor.isSeeker = true ∧ actor ≠ .seeker f.booking.seekerId)
    (httpError "Access denied" 403)
  if f.booking.status = .completed ∧ f.completedService.isSome = true then
    return { file := f }
  else do
    rejectIf (actor.allows f.booking.status = false)
      (httpError "This booking is not ready for completion settlement" 409)
    rejectIf (actor.isSeeker = false ∧ f.booking.status.frozen = true
        ∧ f.booking.statusBeforeDispute ≠ some .awaitingConfirmation)
      (httpError "Only a disputed completion awaiting seeker confirmation can be administratively completed"
        422 (some "INVALID_DISPUTE_COMPLETION_STATE"))
    rejectIf (validSettlementPaymentState actor f.booking = false)
      (conflict "This booking's payment state cannot be completed" "INVALID_COMPLETION_PAYMENT_STATE")
    rejectIf (f.booking.agreedAmount.getD 0 = 0)
      (conflict "Booking has no valid agreed amount" "AGREED_AMOUNT_MISSING")
    let completed := settlementRecord ctx f.booking (f.booking.agreedAmount.getD 0)
    let created ← f.createCompletedService completed
    let settled := created.settled ctx actor completed.paymentStatus
    -- Only online payments enter the ledger.
    let written ← match f.booking.paymentMethod with
      | .onsiteCash => pure settled
      | .gcash => settled.createTransaction {
          walletOwnerId := f.booking.providerId, type := .earning
          amount := completed.providerNetAmount, paymongoRefId := none
          idempotencyKey := .bookingCompletion }
    return { file := written, recalculates := f.queue.isSome, requestStatus := some .closed }

/-- `confirmCompletionService`. -/
def confirmCompletionService (ctx : Context) (seekerId : UserId) (f : BookingFile) :
    Except HttpError Commit :=
  settleCompletedBooking ctx (.seeker seekerId) f

def disputeJobService (ctx : Context) (seekerId : UserId) (reason : Option ReportReason)
    (f : BookingFile) : Except HttpError Commit := do
  rejectIf (f.booking.seekerId ≠ seekerId) (httpError "Booking not found or access denied" 404)
  assertNoRefundInProgress f
  assertNoFinancialResolutionReserved f none
  rejectIf (f.reports.any fun r => r.reporterId == seekerId && r.reportType == .completionDispute
      && r.status.active)
    (conflict "An unresolved completion dispute already exists" "DUPLICATE_DISPUTE")
  rejectIf (f.booking.status ≠ .awaitingConfirmation)
    (httpError "A dispute can only be filed while completion confirmation is pending" 409)
  rejectIf (seekerId = f.booking.providerId)
    (httpError "Self-transaction forbidden: You cannot perform \"dispute job\" on your own account."
      403 (some "SELF_TRANSACTION_NOT_ALLOWED"))
  let paymentStatus := f.booking.paymentMethod.paid .frozenHeld
  return {
    file := { f with
      booking := { f.booking with
        status := .disputed, statusBeforeDispute := some f.booking.status, paymentStatus }
      queue := f.queue.map fun q => { q with paymentStatus }
      completionEscalations := Rows.updateWhere (·.status.active)
        ({ · with status := .dismissed, resolution := some .supersededBySeekerDispute,
                  resolvedAt := some ctx.now }) f.completionEscalations
      reports := f.reports ++ [{
        id := f.nextId, reporterId := seekerId, reportedUserId := f.booking.providerId
        reason := reason.getD .poorServiceQuality, reportType := .completionDispute
        dedupeKey := none, status := .pending }]
      nextId := f.nextId + 1 } }

/-- `ELIGIBLE_STATUSES` of a safety report. -/
def BookingStatus.eligibleForSafetyReport : BookingStatus → Bool
  | .accepted | .ongoing | .awaitingConfirmation | .underReview | .disputed | .completed
  | .canceled => true
  | _ => false

/-- `pauseBooking` of a safety report. -/
def BookingStatus.pausable : BookingStatus → Bool
  | .accepted | .ongoing | .awaitingConfirmation => true
  | _ => false

/-- `evidenceFolder` is the participant in whose folder the evidence key lies. -/
def createSafetyReport (ctx : Context) (reporterId : UserId) (reason : ReportReason)
    (description : Nat) (evidenceFolder : Option UserId) (f : BookingFile) :
    Except HttpError Commit := do
  rejectIf (reporterId ≠ f.booking.seekerId ∧ reporterId ≠ f.booking.providerId)
    (httpError "Booking not found or access denied" 404)
  rejectIf (¬ (ctx.user reporterId).any User.activeMarketplaceAccount)
    (httpError "This account is no longer eligible for marketplace changes." 403)
  rejectIf (f.booking.status.eligibleForSafetyReport = false)
    (httpError "This booking is not eligible for a safety report" 409)
  rejectIf (f.booking.started = false ∧ (reason = .poorServiceQuality ∨ reason = .incompleteService))
    (httpError "Service quality and incomplete-service reports are available only after the provider starts the job."
      409)
  assertNoRefundInProgress f
  assertNoFinancialResolutionReserved f none
  rejectIf (evidenceFolder.any (· ≠ reporterId))
    (httpError "Safety evidence does not belong to this booking participant" 403)
  let dedupeKey := DedupeKey.safety reporterId reason description
  if f.reports.any (fun r => r.dedupeKey == some dedupeKey && r.status.active) = true then
    return { file := f }
  else
    let reported := { f with
      reports := f.reports ++ [{
        id := f.nextId, reporterId
        reportedUserId :=
          if f.booking.seekerId = reporterId then f.booking.providerId else f.booking.seekerId
        reason, reportType := .safety, dedupeKey := some dedupeKey, status := .pending }]
      nextId := f.nextId + 1 }
    if f.booking.status.pausable = true then
      let held := f.booking.paymentStatus = .paidHeld
      return {
        file := { reported with
          booking := { f.booking with
            statusBeforeDispute := some f.booking.status
            status := .disputed
            paymentStatus := if held then .frozenHeld else f.booking.paymentStatus }
          queue := if held then f.queue.map fun q => { q with paymentStatus := .frozenHeld }
            else f.queue } }
    else
      return { file := reported }

/-- `COMPLETION_REVIEW_WAIT_MS`. -/
def completionReviewWaitMs : Millis := 72 * 60 * 60 * 1000

/-- `completionReviewAvailability(...).availableAt` of a paid booking awaiting confirmation. -/
def completionReviewAvailableAt (ctx : Context) (f : BookingFile)
    (previous : Option CompletionEscalation) : Millis :=
  let markedAt := f.workMarkedComplete.foldl max 0
  let initialDeadline := (if markedAt = 0 then ctx.updatedAt else markedAt) + completionReviewWaitMs
  let retryDeadline := match previous with
    | some e => if e.resolution = some .keepAwaiting then
        match e.resolvedAt with
        | some at_ => at_ + completionReviewWaitMs
        | none => 0
      else 0
    | none => 0
  max initialDeadline retryDeadline

def createCompletionEscalation (ctx : Context) (providerId : UserId) (f : BookingFile) :
    Except HttpError Commit := do
  rejectIf (f.booking.providerId ≠ providerId) (httpError "Booking not found or access denied" 404)
  rejectIf (f.booking.paymentMethod ≠ .gcash)
    (conflict "Cash bookings await seeker confirmation. Report an actual issue if help is needed."
      "CASH_COMPLETION_REVIEW_NOT_AVAILABLE")
  assertNoFinancialResolutionReserved f none
  rejectIf (f.booking.status ≠ .awaitingConfirmation)
    (httpError "Only a booking awaiting seeker confirmation can be escalated" 409)
  let previous := f.completionEscalations.getLast?
  if previous.any (·.status.active) = true then
    return { file := f }
  else do
    rejectIf (previous.any fun e => e.resolution == some .keepAwaiting
        && e.resolvedAt.any (· + completionReviewWaitMs > ctx.now))
      (conflict "Wait 72 hours before submitting another completion escalation" "ESCALATION_COOLDOWN")
    rejectIf (completionReviewAvailableAt ctx f previous > ctx.now)
      (conflict "Completion can be escalated after 72 hours without a seeker response"
        "ESCALATION_WAIT_PERIOD")
    return {
      file := { f with
        completionEscalations := f.completionEscalations ++
          [{ id := f.nextId, requestedBy := providerId, status := .pending }]
        nextId := f.nextId + 1 } }

/-- The two sources of `startModerationReview`. -/
inductive ModerationSource where
  | report (id : Nat)
  | completionEscalation (id : Nat)
  deriving Repr, DecidableEq

def startModerationReview (source : ModerationSource) (f : BookingFile) :
    Except HttpError Commit :=
  match source with
  | .report id => do
      let report ← orThrow (f.findReport id) (httpError "Case not found" 404)
      if report.status = .pending then
        let opened := f.updateReport id ({ · with status := .underReview })
        return {
          file := { opened with
            cancellationRequests := Rows.updateWhere
              (fun c => c.reportId == some id && c.status == .escalated)
              ({ · with status := .underReview }) f.cancellationRequests } }
      else return { file := f }
  | .completionEscalation id => do
      let escalation ← orThrow (f.findEscalation id) (httpError "Case not found" 404)
      if escalation.status = .pending then
        return { file := f.updateEscalation id ({ · with status := .underReview }) }
      else return { file := f }

section Inversion

variable {ctx : Context} {f : BookingFile} {c : Commit}

theorem respondToDirectBookingService_ok {providerId : UserId} {accept : Bool}
    (h : respondToDirectBookingService ctx providerId accept f = .ok c) :
    f.booking.status = .pendingApproval ∧ ∃ direct,
      (c = { file := { f with
          directRequest := direct
          booking := { f.booking with status := .accepted, started := false } } }
        ∨ c = { file := { f with
          directRequest := direct, booking := { f.booking with status := .declined } } }) := by
  simp only [respondToDirectBookingService, check_bind_ok, rejectIf_ok, ite_ok, pure_ok, not_or, not_not] at h
  obtain ⟨-, ⟨-, -, -, ⟨-, requested⟩, rfl⟩ | ⟨-, ⟨-, requested⟩, rfl⟩⟩ := h
  · exact ⟨requested, _, .inl rfl⟩
  · exact ⟨requested, _, .inr rfl⟩

theorem paidStartBlockReason_none {b : Booking} {q : Queue} :
    paidStartBlockReason b q = none ↔
      q.status = .waiting ∧ b.started = false ∧ (b.status = .accepted ∨ b.status = .waiting)
        ∧ b.paymentStatus = .paidHeld ∧ q.paymentStatus = .paidHeld := by
  simp only [paidStartBlockReason]
  grind

theorem startReadiness_none_ok {b : Booking} {u : Unit} : startReadiness b none = .ok u ↔
    b.paymentMethod = .onsiteCash ∧ (b.status = .accepted ∧ b.started = false)
      ∧ b.paymentStatus = .unpaid := by
  simp [startReadiness]

theorem startReadiness_some_ok {b : Booking} {q : Queue} {u : Unit} :
    startReadiness b (some q) = .ok u ↔
      b.paymentMethod = .gcash ∧ paidStartBlockReason b q = none := by
  simp only [startReadiness, check_bind_ok, rejectIf_ok]
  cases b.paymentMethod <;> cases paidStartBlockReason b q <;> simp

theorem providerStartJob_ok {providerId : UserId} (h : providerStartJob ctx providerId f = .ok c) :
    f.booking.started = false
      ∧ ((f.queue = none ∧ f.booking.status = .accepted ∧ f.booking.paymentMethod = .onsiteCash
          ∧ c = { file := { f with
              booking := { f.booking with status := .ongoing, started := true } } })
        ∨ ∃ q, f.queue = some q ∧ f.booking.paymentMethod = .gcash ∧ q.status = .waiting
          ∧ (f.booking.status = .accepted ∨ f.booking.status = .waiting)
          ∧ ctx.firstWaiting = true ∧ ctx.serving = 0
          ∧ c = {
            file := { f with
              queue := some { q with status := .serving, position := 1, estimatedWait := 0 }
              booking := { f.booking with
                status := .ongoing, started := true, queuePosition := some 1 } }
            recalculates := true }) := by
  simp only [providerStartJob, check_bind_ok, rejectIf_ok] at h
  obtain ⟨-, -, -, ready, -, h⟩ := h
  cases queued : f.queue with
  | none =>
      simp only [queued, startReadiness_none_ok, check_bind_ok, rejectIf_ok, pure_ok] at ready h
      obtain ⟨cash, ⟨accepted, unstarted⟩, -⟩ := ready
      obtain ⟨-, -, -, rfl⟩ := h
      exact ⟨unstarted, .inl ⟨rfl, accepted, cash, rfl⟩⟩
  | some q =>
      simp only [queued, startReadiness_some_ok, paidStartBlockReason_none, check_bind_ok, rejectIf_ok,
        pure_ok] at ready h
      obtain ⟨paid, waiting, unstarted, status, -, -⟩ := ready
      obtain ⟨first, -, -, rfl⟩ := h
      simp only [not_or, Bool.not_eq_false, Nat.not_lt, Nat.le_zero_eq, gt_iff_lt] at first
      exact ⟨unstarted, .inr ⟨q, rfl, paid, waiting, status, first.1, first.2, rfl⟩⟩

theorem markJobComplete_ok {providerId : UserId} (h : markJobComplete ctx providerId f = .ok c) :
    c = { file := f } ∨ (f.booking.status = .ongoing ∧ c = {
      file := { f with
        booking := { f.booking with status := .awaitingConfirmation }
        queue := f.queue.map fun q => { q with status := .done }
        workMarkedComplete := f.workMarkedComplete ++ [ctx.now] }
      recalculates := true }) := by
  simp only [markJobComplete, check_bind_ok, rejectIf_ok, ite_ok, pure_ok, not_not] at h
  obtain ⟨-, -, ⟨-, rfl⟩ | ⟨-, ongoing, rfl⟩⟩ := h
  · exact .inl rfl
  · exact .inr ⟨ongoing, rfl⟩

/-- The ledger row of a settlement. -/
def BookingFile.earnings (completed : CompletedService) (f : BookingFile) : List Transaction :=
  match f.booking.paymentMethod with
  | .onsiteCash => []
  | .gcash => [{
      walletOwnerId := f.booking.providerId, type := .earning
      amount := completed.providerNetAmount, paymongoRefId := none
      idempotencyKey := .bookingCompletion }]

theorem settleCompletedBooking_ok {actor : SettlementActor}
    (h : settleCompletedBooking ctx actor f = .ok c) :
    f.refund.map (·.status) ≠ some .processing
      ∧ (∀ userId, actor = .seeker userId → userId = f.booking.seekerId)
      ∧ ((f.booking.status = .completed ∧ c = { file := f })
        ∨ (actor.allows f.booking.status = true
          ∧ (actor = .admin → f.booking.status.frozen = true →
              f.booking.statusBeforeDispute = some .awaitingConfirmation)
          ∧ validSettlementPaymentState actor f.booking = true
          ∧ f.completedService = none
          ∧ ∃ completed, completed = settlementRecord ctx f.booking (f.booking.agreedAmount.getD 0)
            ∧ c = {
              file := { f.settled ctx actor completed.paymentStatus with
                completedService := some completed
                transactions := f.transactions ++ f.earnings completed }
              recalculates := f.queue.isSome
              requestStatus := some .closed })) := by
  simp only [settleCompletedBooking, check_bind_ok, assertNoRefundInProgress_ok, rejectIf_ok,
    ite_ok, pure_ok] at h
  obtain ⟨idle, own, h⟩ := h
  refine ⟨idle, fun userId seeker => ?_, ?_⟩
  · subst seeker
    simpa [SettlementActor.isSeeker] using own
  obtain ⟨done, rfl⟩ | ⟨-, allowed, disputed, valid, -, h⟩ := h
  · exact .inl ⟨done.1, rfl⟩
  rw [bind_ok] at h
  obtain ⟨created, hc, h⟩ := h
  rw [BookingFile.createCompletedService_ok] at hc
  obtain ⟨fresh, rfl⟩ := hc
  refine .inr ⟨by simpa using allowed, fun admin => ?_, by simpa using valid, fresh, _, rfl, ?_⟩
  · subst admin
    simpa [SettlementActor.isSeeker] using disputed
  cases method : f.booking.paymentMethod with
  | onsiteCash =>
      simp only [method, bind_ok, pure_ok, exists_eq_left'] at h
      simp only [← h, BookingFile.settled, BookingFile.earnings, method, List.append_nil]
  | gcash =>
      simp only [method, bind_ok, pure_ok, BookingFile.createTransaction_ok] at h
      obtain ⟨written, ⟨-, rfl⟩, rfl⟩ := h
      simp only [BookingFile.settled, BookingFile.earnings, method]

theorem disputeJobService_ok {seekerId : UserId} {reason : Option ReportReason}
    (h : disputeJobService ctx seekerId reason f = .ok c) :
    f.booking.status = .awaitingConfirmation
      ∧ (∀ o ∈ f.operations, o.reserved = false)
      ∧ ∃ report escalations, report.status = .pending ∧ report.id = f.nextId
        ∧ report.reportType = .completionDispute
        ∧ escalations = Rows.updateWhere (·.status.active)
            ({ · with status := .dismissed, resolution := some .supersededBySeekerDispute,
                      resolvedAt := some ctx.now }) f.completionEscalations
        ∧ c = { file := { f with
            booking := { f.booking with
              status := .disputed
              statusBeforeDispute := some .awaitingConfirmation
              paymentStatus := f.booking.paymentMethod.paid .frozenHeld }
            queue := f.queue.map fun q =>
              { q with paymentStatus := f.booking.paymentMethod.paid .frozenHeld }
            completionEscalations := escalations
            reports := f.reports ++ [report]
            nextId := f.nextId + 1 } } := by
  simp only [disputeJobService, check_bind_ok, rejectIf_ok, pure_ok, not_not,
    assertNoFinancialResolutionReserved_ok] at h
  obtain ⟨-, -, free, -, awaiting, -, rfl⟩ := h
  exact ⟨awaiting, fun o ho => by simpa using free o ho, _, _, rfl, rfl, rfl, rfl, by rw [awaiting]⟩

theorem createSafetyReport_ok {reporterId : UserId} {reason : ReportReason} {description : Nat}
    {folder : Option UserId} (h : createSafetyReport ctx reporterId reason description folder f = .ok c) :
    f.booking.status.eligibleForSafetyReport = true
      ∧ (∀ o ∈ f.operations, o.reserved = false)
      ∧ (c = { file := f } ∨ ∃ report, report.status = .pending ∧ report.id = f.nextId
        ∧ report.reportType = .safety
        ∧ ((f.booking.status.pausable = false
            ∧ c = { file := { f with reports := f.reports ++ [report], nextId := f.nextId + 1 } })
          ∨ (f.booking.status.pausable = true
            ∧ c = { file := { f with
                reports := f.reports ++ [report]
                nextId := f.nextId + 1
                booking := { f.booking with
                  statusBeforeDispute := some f.booking.status
                  status := .disputed
                  paymentStatus :=
                    if f.booking.paymentStatus = .paidHeld then .frozenHeld
                    else f.booking.paymentStatus }
                queue :=
                  if f.booking.paymentStatus = .paidHeld then
                    f.queue.map fun q => { q with paymentStatus := .frozenHeld }
                  else f.queue } }))) := by
  simp only [createSafetyReport, check_bind_ok, rejectIf_ok, ite_ok, pure_ok,
    assertNoFinancialResolutionReserved_ok, Bool.not_eq_false] at h
  obtain ⟨-, -, eligible, -, -, free, -, ⟨-, rfl⟩ | ⟨-, ⟨pause, rfl⟩ | ⟨stay, rfl⟩⟩⟩ := h
  · exact ⟨eligible, fun o ho => by simpa using free o ho, .inl rfl⟩
  · exact ⟨eligible, fun o ho => by simpa using free o ho,
      .inr ⟨_, rfl, rfl, rfl, .inr ⟨pause, rfl⟩⟩⟩
  · exact ⟨eligible, fun o ho => by simpa using free o ho,
      .inr ⟨_, rfl, rfl, rfl, .inl ⟨by simpa using stay, rfl⟩⟩⟩

theorem createCompletionEscalation_ok {providerId : UserId}
    (h : createCompletionEscalation ctx providerId f = .ok c) :
    f.booking.status = .awaitingConfirmation ∧ f.booking.paymentMethod = .gcash
      ∧ (∀ o ∈ f.operations, o.reserved = false)
      ∧ (c = { file := f } ∨ (f.completionEscalations.getLast?.any (·.status.active) = false
          ∧ c = { file := { f with
          completionEscalations := f.completionEscalations ++
            [{ id := f.nextId, requestedBy := providerId, status := .pending }]
          nextId := f.nextId + 1 } })) := by
  simp only [createCompletionEscalation, check_bind_ok, rejectIf_ok, ite_ok, pure_ok, not_not,
    assertNoFinancialResolutionReserved_ok] at h
  obtain ⟨-, paid, free, awaiting, ⟨-, rfl⟩ | ⟨latest, -, -, rfl⟩⟩ := h
  · exact ⟨awaiting, paid, fun o ho => by simpa using free o ho, .inl rfl⟩
  · exact ⟨awaiting, paid, fun o ho => by simpa using free o ho,
      .inr ⟨by simpa using latest, rfl⟩⟩

theorem startModerationReview_ok {source : ModerationSource}
    (h : startModerationReview source f = .ok c) :
    ∃ reports requests escalations,
      c = { file := { f with
        reports, cancellationRequests := requests, completionEscalations := escalations } }
      ∧ (c = { file := f }
        ∨ (∃ id, reports = Rows.updateWhere (·.id == id) ({ · with status := .underReview }) f.reports
            ∧ (f.findReport id).map (·.status) = some .pending
            ∧ requests = Rows.updateWhere (fun r => r.reportId == some id && r.status == .escalated)
                ({ · with status := .underReview }) f.cancellationRequests
            ∧ escalations = f.completionEscalations)
        ∨ (∃ id, escalations = Rows.updateWhere (·.id == id) ({ · with status := .underReview })
              f.completionEscalations
            ∧ (f.findEscalation id).map (·.status) = some .pending
            ∧ reports = f.reports ∧ requests = f.cancellationRequests)) := by
  cases source with
  | report id =>
      simp only [startModerationReview, orThrow_bind_ok, ite_ok, pure_ok] at h
      obtain ⟨report, found, ⟨pending, rfl⟩ | ⟨-, rfl⟩⟩ := h
      · exact ⟨_, _, _, rfl, .inr (.inl ⟨id, rfl, by simp [found, pending], rfl, rfl⟩)⟩
      · exact ⟨_, _, _, rfl, .inl rfl⟩
  | completionEscalation id =>
      simp only [startModerationReview, orThrow_bind_ok, ite_ok, pure_ok] at h
      obtain ⟨escalation, found, ⟨pending, rfl⟩ | ⟨-, rfl⟩⟩ := h
      · exact ⟨_, _, _, rfl, .inr (.inr ⟨id, rfl, by simp [found, pending], rfl, rfl⟩)⟩
      · exact ⟨_, _, _, rfl, .inl rfl⟩

end Inversion

end ServiceHub
