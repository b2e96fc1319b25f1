import ServiceHub.Booking.Refund

/-! # Cancellation

`performImmediateCancel`, the participants' cancellation requests with approval,
decline and escalation, and the administrator's decision on an escalated request.
-/

namespace ServiceHub

open Guard

/-- The reservation row that an immediate pre-start cancellation must still own. -/
def Caller.preStartRequest : Caller → Option Nat
  | .requestCancellation requestId _ => some requestId
  | _ => none

/-- Where a caller goes on after `performImmediateCancel`. -/
def Caller.afterCancel : Caller → Option Call
  | .refundBookingPayment _ => none
  | caller@(.requestCancellation _ _) => some ⟨caller, .finalize⟩
  | caller => some ⟨caller, .markEstablished⟩

/-- Refund first when the booking that was read holds an online payment. -/
def cancelRoute (caller : Caller) (booking : Booking) : Call :=
  if booking.paymentStatus.held then ⟨caller, .refundRead⟩ else ⟨caller, .cancelSettle false⟩

def BookingStatus.uncancellable : BookingStatus → Bool
  | .completed | .declined | .removed => true
  | _ => false

/-- First statement of `performImmediateCancel`. -/
def readCancelBooking (caller : Caller) (f : BookingFile) : Except HttpError Commit := do
  rejectIf (f.booking.status.uncancellable = true)
    (httpError "This booking can no longer be cancelled" 409)
  if caller.preStartRequest.isSome = true ∧ f.booking.status ≠ .canceled then
    return { file := f, continues := some ⟨caller, .preStartCheck f.booking⟩ }
  else
    return { file := f, continues := some (cancelRoute caller f.booking) }

def staleImmediateCancellation : HttpError :=
  conflict "The booking is no longer eligible for immediate pre-start cancellation"
    "IMMEDIATE_CANCELLATION_STALE"

/-- The reservation is read after the booking, which is the one read before. -/
def checkPreStart (caller : Caller) (booking : Booking) (f : BookingFile) :
    Except HttpError Commit := do
  let reservation ← orThrow (caller.preStartRequest.bind f.findCancellation) staleImmediateCancellation
  rejectIf (reservation.status ≠ .underReview
      ∨ reservation.resolutionOutcome ≠ some .immediateCancelPending
      ∨ booking.started = true ∨ booking.status ≠ .underReview)
    staleImmediateCancellation
  return { file := f, continues := some (cancelRoute caller booking) }

/-- The settlement transaction of `performImmediateCancel`. -/
def settleCancellation (caller : Caller) (hasHeldOnlinePayment : Bool) (f : BookingFile) :
    Except HttpError Commit := do
  rejectIf (f.completedService.isSome = true ∨ f.booking.status.uncancellable = true)
    (httpError "This booking can no longer be cancelled" 409)
  rejectIf (caller.preStartRequest.isSome = true ∧ f.booking.status ≠ .canceled
      ∧ (f.booking.started = true ∨ f.booking.status ≠ .underReview))
    staleImmediateCancellation
  if hasHeldOnlinePayment = false ∧ f.booking.status ≠ .canceled then do
    assertNoRefundInProgress f
    return {
      file := { f with
        booking := { f.booking with status := .canceled, statusBeforeDispute := none }
        queue := f.queue.map ({ · with status := .cancelled })
        directRequest := f.directRequest.map fun _ => .declined }
      continues := caller.afterCancel
      recalculates := f.queue.isSome
      requestStatus := some .canceled }
  else
    return {
      file := { f with directRequest := f.directRequest.map fun _ => .declined }
      continues := caller.afterCancel
      requestStatus := some .canceled }

/-- Statuses in which a cancellation request is refused. -/
def BookingStatus.refusesCancellation : BookingStatus → Bool
  | .completed | .declined | .removed | .disputed | .underReview => true
  | _ => false

def requestCancellation (userId : UserId) (f : BookingFile) : Except HttpError Commit := do
  rejectIf (userId ≠ f.booking.seekerId ∧ userId ≠ f.booking.providerId)
    (httpError "Booking not found or access denied" 404)
  match f.cancellationRequests.reverse.find? (·.status.active) with
  | some active =>
      if active.requestedBy = userId ∧ active.status = .underReview
          ∧ active.resolutionOutcome = some .immediateCancelPending
          ∧ (f.booking.started = false ∨ f.booking.status = .canceled) then
        return { file := f, continues := some ⟨.requestCancellation active.id userId, .cancelRead⟩ }
      else if active.requestedBy = userId then
        return { file := f }
      else
        throw (conflict "A cancellation request is already active for this booking"
          "ACTIVE_CANCELLATION_EXISTS")
  | none =>
      if f.booking.status = .canceled then
        return { file := f }
      else do
        rejectIf (f.booking.status.refusesCancellation = true)
          (httpError "This booking can no longer be cancelled" 409)
        assertNoFinancialResolutionReserved f none
        let request : CancellationRequest :=
          { id := f.nextId, requestedBy := userId
            responderId := if userId = f.booking.seekerId then f.booking.providerId else f.booking.seekerId
            status := .pending }
        if f.booking.started = false then
          let held := f.booking.paymentStatus = .paidHeld
          return {
            file := { f with
              cancellationRequests := f.cancellationRequests ++ [{ request with
                status := .underReview, resolutionOutcome := some .immediateCancelPending }]
              nextId := f.nextId + 1
              booking := { f.booking with
                status := .underReview, statusBeforeDispute := some f.booking.status
                paymentStatus := if held then .frozenHeld else f.booking.paymentStatus }
              queue := if held then f.queue.map ({ · with paymentStatus := .frozenHeld }) else f.queue }
            continues := some ⟨.requestCancellation request.id userId, .cancelRead⟩ }
        else
          return {
            file := { f with
              cancellationRequests := f.cancellationRequests ++ [request]
              nextId := f.nextId + 1 } }

/-- Last transaction of an immediate cancellation. -/
def finalizeImmediateCancellation (requestId : Nat) (f : BookingFile) : Except HttpError Commit := do
  rejectIf (f.booking.status ≠ .canceled)
    (httpError "Cancellation settlement has not completed" 409)
  rejectIf (f.findCancellation requestId = none) recordNotFound
  return {
    file := f.updateCancellation requestId
      ({ · with status := .approved, resolutionOutcome := some .immediateCancel }) }

def cancellationDenied : HttpError :=
  httpError "Cancellation request not found or access denied" 404

/-- `respondToCancellationRequest` with `approve = false`; `note` is the length of the
    trimmed note. -/
def declineCancellationRequest (requestId : Nat) (responderId : UserId) (note : Nat)
    (f : BookingFile) : Except HttpError Commit := do
  rejectIf (note < 3)
    (httpError "Explain why the booking should continue (at least 3 characters)" 400
      (some "CANCELLATION_DECLINE_REASON_REQUIRED"))
  let request ← orThrow (f.findCancellation requestId) cancellationDenied
  rejectIf (request.responderId ≠ responderId ∨ request.requestedBy = responderId) cancellationDenied
  rejectIf (request.status ≠ .pending)
    (httpError "Cancellation request has already been decided" 409)
  return { file := f.updateCancellation requestId ({ · with status := .declined }) }

/-- The claim of `respondToCancellationRequest` with `approve = true`. -/
def approveCancellationRequest (requestId : Nat) (responderId : UserId) (f : BookingFile) :
    Except HttpError Commit := do
  let request ← orThrow (f.findCancellation requestId) cancellationDenied
  rejectIf (request.responderId ≠ responderId ∨ request.requestedBy = responderId) cancellationDenied
  if request.status ≠ .pending ∧ request.status ≠ .underReview then do
    rejectIf ((f.findOperation (.cancellation requestId)).all (·.status != .completed))
      (httpError "Cancellation request has already been decided" 409)
    return { file := f }
  else do
    let (claimed, operation) ←
      beginAdminResolution f (.cancellation requestId) .participantApprove .none
    if operation.status = .completed then
      return { file := claimed }
    else
      let caller := Caller.respondToCancellationRequest requestId responderId request.reportId
      return {
        file := claimed.updateCancellation requestId ({ · with status := .underReview })
        continues := some ⟨caller,
          if operation.hasEstablishedFinancialEffect then .finalize else .reserve⟩ }

/-- `reserveCancellationFinancialOutcome`. -/
def reserveCancellationFinancialOutcome (caller : Caller) (requestId : Nat) (f : BookingFile) :
    Except HttpError Commit := do
  let request ← orThrow (f.findCancellation requestId) (httpError "Cancellation request not found" 404)
  rejectIf (request.status ≠ .underReview)
    (conflict "Cancellation case changed before its financial outcome was reserved" "STALE_CANCELLATION")
  let operation ← orThrow (f.findOperation (.cancellation requestId))
    (httpError "Resolution operation not found" 500)
  if operation.status = .completed ∨ operation.hasEstablishedFinancialEffect = true then
    return { file := f, continues := some ⟨caller, .cancelRead⟩ }
  else do
    assertNoOtherBlockingCases f
      { cancellationRequestId := some requestId, reportId := request.reportId }
    let (reserved, _) ←
      markAdminResolutionStageInTransaction f (.cancellation requestId) .financialEffectReserved
    return { file := reserved, continues := some ⟨caller, .cancelRead⟩ }

/-- `closeParticipantCancellationReport` with the report that the claim had read. -/
def closeParticipantCancellationReport (reportId : Option Nat) (f : BookingFile) : BookingFile :=
  { f with
    reports := Rows.updateWhere
      (fun r => reportId == some r.id && r.reportType == .cancellationEscalation && r.status.active)
      ({ · with status := .resolved }) f.reports }

def completeOperation (f : BookingFile) (caseRef : CaseRef) : BookingFile :=
  f.updateOperation caseRef ({ · with status := .completed, stage := .caseFinalized })

/-- The booking is CANCELED and, when paid online, REFUNDED. -/
def Booking.cancellationSettled (b : Booking) : Bool :=
  b.status == .canceled && (b.paymentMethod == .onsiteCash || b.paymentStatus == .refunded)

def unsettledCancellation : HttpError :=
  httpError "Cancellation/refund has not reached its valid final state" 409

def finalizeParticipantApproval (requestId : Nat) (reportId : Option Nat) (f : BookingFile) :
    Except HttpError Commit :=
  if (f.findOperation (.cancellation requestId)).any (·.status == .completed) = true then
    return { file := f }
  else do
    rejectIf (f.booking.cancellationSettled = false) unsettledCancellation
    rejectIf (f.findCancellation requestId = none) recordNotFound
    let approved := f.updateCancellation requestId
      ({ · with status := .approved, resolutionOutcome := some .participantApproved })
    return {
      file := completeOperation (closeParticipantCancellationReport reportId approved)
        (.cancellation requestId) }

def escalateCancellationRequest (requestId : Nat) (userId : UserId) (f : BookingFile) :
    Except HttpError Commit := do
  let request ← orThrow (f.findCancellation requestId) cancellationDenied
  rejectIf (request.requestedBy ≠ userId) cancellationDenied
  if request.status = .escalated ∧ request.reportId.isSome = true then
    return { file := f }
  else do
    rejectIf (request.status ≠ .declined)
      (httpError "Only a declined cancellation request can be escalated" 409)
    assertNoFinancialResolutionReserved f none
    let escalated := f.updateCancellation requestId
      ({ · with status := .escalated, reportId := some f.nextId })
    return {
      file := { escalated with
        reports := f.reports ++ [{
          id := f.nextId, reporterId := userId
          reportedUserId := if userId = f.booking.seekerId then f.booking.providerId else f.booking.seekerId
          reason := .incompleteService, reportType := .cancellationEscalation
          dedupeKey := some (.cancellation requestId), status := .pending }]
        nextId := f.nextId + 1 } }

/-- The claim of `adminResolveCancellationRequest`; `adminNote` is the length of the trimmed note. -/
def claimAdminCancellation (requestId : Nat) (approve : Bool) (adminId : UserId) (fault : Fault)
    (adminNote : Nat) (f : BookingFile) : Except HttpError Commit := do
  rejectIf (approve = false ∧ fault ≠ .none)
    (httpError "Choose a valid fault finding for an approved cancellation" 422)
  rejectIf (adminNote < 3) (httpError "Explain the cancellation decision and any fault finding" 422)
  rejectIf (fault ≠ .none ∧ adminNote < 20)
    (httpError "Explain the fault finding and supporting evidence in at least 20 characters" 422)
  let outcome : RequestedOutcome := if approve then .adminApprove else .adminDeny
  let request ← orThrow (f.findCancellation requestId) (httpError "Cancellation request not found" 404)
  let existing := f.findOperation (.cancellation requestId)
  rejectIf (existing.any fun o => o.requestedOutcome != outcome || o.requestedPenalty != fault.requested)
    (conflict "This case already has a different cancellation decision or fault finding"
      "RESOLUTION_OPERATION_CONFLICT")
  rejectIf (fault ≠ .none ∧ f.booking.started = false)
    (httpError "Cancellation penalties apply only after work has started" 422)
  if request.status ≠ .escalated ∧ request.status ≠ .underReview then do
    rejectIf (existing.all (·.status != .completed))
      (httpError "Only an escalated cancellation request can be resolved by Admin" 409)
    return { file := f }
  else do
    let (claimed, operation) ←
      beginAdminResolution f (.cancellation requestId) outcome fault.requested
    if operation.status = .completed then
      return { file := claimed }
    else do
      let missing := conflict
        "This legacy cancellation escalation has no exact report linkage and requires operator repair"
        "CANCELLATION_REPORT_LINK_MISSING"
      let reportId ← orThrow request.reportId missing
      rejectIf (f.findReport reportId = none) missing
      let established := operation.hasEstablishedFinancialEffect
      if approve = true ∧ established = false then
        assertNoOtherBlockingCases claimed
          { cancellationRequestId := some requestId, reportId := some reportId }
      else pure ()
      let reviewed := claimed.updateCancellation requestId ({ · with status := .underReview })
      return {
        file := { reviewed with
          reports := Rows.updateWhere (fun r => r.id == reportId && r.status.active)
            ({ · with status := .underReview }) claimed.reports }
        continues := some ⟨.adminResolveCancellationRequest requestId approve adminId fault,
          if approve = true ∧ established = false then .reserve else .markDecisionReady⟩ }

/-- The refusals of `applyBookingTrustPenalty` that abort a finalization. -/
def bookingTrustPenaltyAllowed (f : BookingFile) (userId adminId : UserId) (cancellation : Bool) :
    Except HttpError Unit := do
  rejectIf (userId ≠ f.booking.seekerId ∧ userId ≠ f.booking.providerId)
    (httpError "Trust penalties require a booking participant" 422)
  rejectIf (adminId = f.booking.seekerId ∨ adminId = f.booking.providerId)
    (httpError "An administrator cannot decide a booking they participated in" 403)
  rejectIf (cancellation = true ∧ f.booking.started = false)
    (httpError "Cancellation penalties apply only after work starts" 422)

def faultUser (b : Booking) : Fault → Option UserId
  | .none => none
  | .seeker => some b.seekerId
  | .provider => some b.providerId

def finalizeAdminCancellation (ctx : Context) (requestId : Nat) (approve : Bool) (adminId : UserId)
    (fault : Fault) (f : BookingFile) : Except HttpError Commit :=
  if (f.findOperation (.cancellation requestId)).any (·.status == .completed) = true then
    return { file := f }
  else do
    let changed := httpError "Cancellation case changed before finalization" 409
    let request ← orThrow (f.findCancellation requestId) changed
    rejectIf (request.status ≠ .underReview) changed
    let reportId ← orThrow request.reportId changed
    rejectIf (approve = true ∧ f.booking.cancellationSettled = false) unsettledCancellation
    rejectIf (f.findReport reportId = none) recordNotFound
    let decided := f.updateCancellation requestId
      ({ · with status := .resolved,
                resolutionOutcome := some (if approve then .approved else .denied) })
    let closed := decided.updateReport reportId
      ({ · with status := if approve then .resolved else .dismissed })
    let restored ← if approve then pure closed else restoreBookingIfNoBlockingCases ctx closed
    match if approve then faultUser f.booking fault else none with
    | some userId => bookingTrustPenaltyAllowed f userId adminId true
    | none => pure ()
    return { file := completeOperation restored (.cancellation requestId) }

section Inversion

variable {ctx : Context} {f : BookingFile} {c : Commit} {caller : Caller}

theorem readCancelBooking_ok (h : readCancelBooking caller f = .ok c) :
    f.booking.status.uncancellable = false
      ∧ (c = { file := f, continues := some ⟨caller, .preStartCheck f.booking⟩ }
        ∨ c = { file := f, continues := some (cancelRoute caller f.booking) }) := by
  simp only [readCancelBooking, check_bind_ok, rejectIf_ok, ite_ok, pure_ok,
    Bool.not_eq_true] at h
  obtain ⟨cancellable, ⟨-, rfl⟩ | ⟨-, rfl⟩⟩ := h
  · exact ⟨cancellable, .inl rfl⟩
  · exact ⟨cancellable, .inr rfl⟩

theorem checkPreStart_ok {b : Booking} (h : checkPreStart caller b f = .ok c) :
    b.started = false ∧ b.status = .underReview
      ∧ c = { file := f, continues := some (cancelRoute caller b) } := by
  simp only [checkPreStart, orThrow_bind_ok, check_bind_ok, rejectIf_ok, pure_ok, not_or,
    not_not, Bool.not_eq_true] at h
  obtain ⟨_, -, ⟨-, -, unstarted, review⟩, rfl⟩ := h
  exact ⟨unstarted, review, rfl⟩

theorem settleCancellation_ok {held : Bool} (h : settleCancellation caller held f = .ok c) :
    f.completedService = none ∧ f.booking.status.uncancellable = false ∧ ∃ direct,
      ((held = false ∧ f.booking.status ≠ .canceled ∧ f.refund.map (·.status) ≠ some .processing
          ∧ c = {
            file := { f with
              booking := { f.booking with status := .canceled, statusBeforeDispute := none }
              queue := f.queue.map ({ · with status := .cancelled })
              directRequest := direct }
            continues := caller.afterCancel
            recalculates := f.queue.isSome
            requestStatus := some .canceled })
        ∨ ((held = true ∨ f.booking.status = .canceled) ∧ c = {
            file := { f with directRequest := direct }
            continues := caller.afterCancel
            requestStatus := some .canceled })) := by
  simp only [settleCancellation, check_bind_ok, rejectIf_ok, ite_ok, pure_ok, not_or,
    assertNoRefundInProgress_ok] at h
  obtain ⟨⟨fresh, cancellable⟩, -, ⟨⟨unheld, live⟩, idle, rfl⟩ | ⟨settled, rfl⟩⟩ := h
  · exact ⟨by simpa using fresh, by simpa using cancellable, _, .inl ⟨unheld, live, idle, rfl⟩⟩
  · refine ⟨by simpa using fresh, by simpa using cancellable, _, .inr ⟨?_, rfl⟩⟩
    cases held <;> simp_all

/-- The request joins or reports an active one, finds the booking cancelled, or opens one. -/
theorem requestCancellation_ok {userId : UserId} (h : requestCancellation userId f = .ok c) :
    (userId = f.booking.seekerId ∨ userId = f.booking.providerId)
      ∧ ((∃ active ∈ f.cancellationRequests, active.status = .underReview
            ∧ active.resolutionOutcome = some .immediateCancelPending
            ∧ c = { file := f, continues := some ⟨.requestCancellation active.id userId, .cancelRead⟩ })
        ∨ c = { file := f }
        ∨ ((∀ r ∈ f.cancellationRequests, r.status.active = false)
          ∧ f.booking.status ≠ .canceled ∧ f.booking.status.refusesCancellation = false
          ∧ (∀ o ∈ f.operations, o.reserved = false)
          ∧ ∃ request : CancellationRequest, request.id = f.nextId
            ∧ (request.requestedBy = userId ∧ request.responderId =
              if userId = f.booking.seekerId then f.booking.providerId else f.booking.seekerId)
            ∧ request.reportId = none
            ∧ ((f.booking.started = false ∧ request.status = .underReview
                ∧ request.resolutionOutcome = some .immediateCancelPending
                ∧ c = {
                  file := { f with
                    cancellationRequests := f.cancellationRequests ++ [request]
                    nextId := f.nextId + 1
                    booking := { f.booking with
                      status := .underReview, statusBeforeDispute := some f.booking.status
                      paymentStatus :=
                        if f.booking.paymentStatus = .paidHeld then .frozenHeld
                        else f.booking.paymentStatus }
                    queue :=
                      if f.booking.paymentStatus = .paidHeld then
                        f.queue.map ({ · with paymentStatus := .frozenHeld })
                      else f.queue }
                  continues := some ⟨.requestCancellation request.id userId, .cancelRead⟩ })
              ∨ (f.booking.started = true ∧ request.status = .pending
                ∧ request.resolutionOutcome = none
                ∧ c = { file := { f with
                    cancellationRequests := f.cancellationRequests ++ [request]
                    nextId := f.nextId + 1 } })))) := by
  simp only [requestCancellation, check_bind_ok, rejectIf_ok] at h
  obtain ⟨participant, h⟩ := h
  refine ⟨by rwa [not_and_or, not_not, not_not] at participant, ?_⟩
  cases found : f.cancellationRequests.reverse.find? (·.status.active) with
  | some active =>
      have listed : active ∈ f.cancellationRequests :=
        List.mem_reverse.mp (List.mem_of_find?_eq_some found)
      simp only [found, ite_ok, pure_ok, throw_ok, and_false, or_false] at h
      obtain ⟨⟨-, review, pending, -⟩, rfl⟩ | ⟨-, -, rfl⟩ := h
      · exact .inl ⟨active, listed, review, pending, rfl⟩
      · exact .inr (.inl rfl)
  | none =>
      have idle : ∀ r ∈ f.cancellationRequests, r.status.active = false := by
        simpa using found
      simp only [found, ite_ok, pure_ok, check_bind_ok, rejectIf_ok,
        assertNoFinancialResolutionReserved_ok] at h
      obtain ⟨-, rfl⟩ | ⟨live, refused, free, h⟩ := h
      · exact .inr (.inl rfl)
      · refine .inr (.inr ⟨idle, live, by simpa using refused,
          fun o ho => by simpa using free o ho, ?_⟩)
        obtain ⟨unstarted, rfl⟩ | ⟨started, rfl⟩ := h
        · exact ⟨_, rfl, ⟨rfl, rfl⟩, rfl, .inl ⟨unstarted, rfl, rfl, rfl⟩⟩
        · exact ⟨_, rfl, ⟨rfl, rfl⟩, rfl, .inr ⟨by simpa using started, rfl, rfl, rfl⟩⟩

theorem finalizeImmediateCancellation_ok {id : Nat} (h : finalizeImmediateCancellation id f = .ok c) :
    f.booking.status = .canceled
      ∧ c = {
        file := f.updateCancellation id
          ({ · with status := .approved, resolutionOutcome := some .immediateCancel }) } := by
  simp only [finalizeImmediateCancellation, check_bind_ok, rejectIf_ok, pure_ok, not_not] at h
  obtain ⟨canceled, -, rfl⟩ := h
  exact ⟨canceled, rfl⟩

theorem declineCancellationRequest_ok {id : Nat} {responderId : UserId} {note : Nat}
    (h : declineCancellationRequest id responderId note f = .ok c) :
    (∃ request, f.findCancellation id = some request ∧ request.status = .pending)
      ∧ c = { file := f.updateCancellation id ({ · with status := .declined }) } := by
  simp only [declineCancellationRequest, check_bind_ok, rejectIf_ok, orThrow_bind_ok, pure_ok,
    not_not] at h
  obtain ⟨-, request, found, -, pending, rfl⟩ := h
  exact ⟨⟨request, found, pending⟩, rfl⟩

theorem approveCancellationRequest_ok {id : Nat} {responderId : UserId}
    (h : approveCancellationRequest id responderId f = .ok c) :
    c = { file := f } ∨ ∃ request claimed op, f.findCancellation id = some request
      ∧ (request.status = .pending ∨ request.status = .underReview)
      ∧ (request.responderId = responderId ∧ request.requestedBy ≠ responderId)
      ∧ Claimed f (.cancellation id) .participantApprove .none claimed op
      ∧ ((op.status = .completed ∧ c = { file := claimed })
        ∨ (op.status ≠ .completed ∧ c = {
            file := claimed.updateCancellation id ({ · with status := .underReview })
            continues := some ⟨.respondToCancellationRequest id responderId request.reportId,
              if op.hasEstablishedFinancialEffect then .finalize else .reserve⟩ })) := by
  simp only [approveCancellationRequest, orThrow_bind_ok, check_bind_ok, rejectIf_ok, ite_ok,
    pure_ok] at h
  obtain ⟨request, found, responder, ⟨-, -, rfl⟩ | ⟨undecided, h⟩⟩ := h
  · exact .inl rfl
  rw [bind_ok] at h
  obtain ⟨⟨claimed, op⟩, begun, h⟩ := h
  simp only [ite_ok, pure_ok] at h
  refine .inr ⟨request, claimed, op, found, ?_, ?_, beginAdminResolution_ok begun, ?_⟩
  · by_cases pending : request.status = .pending
    · exact .inl pending
    · exact .inr (by simpa [pending] using undecided)
  · exact ⟨not_not.mp (not_or.mp responder).1, (not_or.mp responder).2⟩
  · obtain ⟨done, rfl⟩ | ⟨running, rfl⟩ := h
    · exact .inl ⟨done, rfl⟩
    · exact .inr ⟨running, rfl⟩

theorem reserveCancellationFinancialOutcome_ok {id : Nat}
    (h : reserveCancellationFinancialOutcome caller id f = .ok c) :
    ∃ request o, f.findCancellation id = some request ∧ request.status = .underReview
      ∧ f.findOperation (.cancellation id) = some o
      ∧ (((o.status = .completed ∨ o.hasEstablishedFinancialEffect = true)
          ∧ c = { file := f, continues := some ⟨caller, .cancelRead⟩ })
        ∨ ∃ reserved op,
          OnlyBlockedBy f { cancellationRequestId := some id, reportId := request.reportId }
          ∧ markAdminResolutionStageInTransaction f (.cancellation id) .financialEffectReserved
            = .ok (reserved, op)
          ∧ c = { file := reserved, continues := some ⟨caller, .cancelRead⟩ }) := by
  simp only [reserveCancellationFinancialOutcome, orThrow_bind_ok, check_bind_ok, rejectIf_ok,
    ite_ok, pure_ok, assertNoOtherBlockingCases_ok, not_not] at h
  obtain ⟨request, found, review, o, ho, ⟨established, rfl⟩ | ⟨-, only, h⟩⟩ := h
  · exact ⟨request, o, found, review, ho, .inl ⟨established, rfl⟩⟩
  · simp only [bind_ok, pure_ok, Prod.exists] at h
    obtain ⟨reserved, op, marked, rfl⟩ := h
    exact ⟨request, o, found, review, ho, .inr ⟨reserved, op, only, marked, rfl⟩⟩

theorem finalizeParticipantApproval_ok {id : Nat} {reportId : Option Nat}
    (h : finalizeParticipantApproval id reportId f = .ok c) :
    c = { file := f } ∨ (f.booking.status = .canceled
      ∧ c = {
        file := completeOperation
          (closeParticipantCancellationReport reportId (f.updateCancellation id
            ({ · with status := .approved, resolutionOutcome := some .participantApproved })))
          (.cancellation id) }) := by
  simp only [finalizeParticipantApproval, ite_ok, pure_ok, check_bind_ok, rejectIf_ok] at h
  obtain ⟨-, rfl⟩ | ⟨-, settled, -, rfl⟩ := h
  · exact .inl rfl
  · refine .inr ⟨?_, rfl⟩
    simp only [Booking.cancellationSettled, Bool.not_eq_false, Bool.and_eq_true,
      beq_iff_eq] at settled
    exact settled.1

theorem escalateCancellationRequest_ok {id : Nat} {userId : UserId}
    (h : escalateCancellationRequest id userId f = .ok c) :
    c = { file := f } ∨ ((∀ o ∈ f.operations, o.reserved = false)
      ∧ (∃ request, f.findCancellation id = some request ∧ request.status = .declined)
      ∧ ∃ report, report.status = .pending ∧ report.id = f.nextId
        ∧ report.reportType = .cancellationEscalation
        ∧ c = {
          file := {
            f.updateCancellation id ({ · with status := .escalated, reportId := some f.nextId }) with
            reports := f.reports ++ [report], nextId := f.nextId + 1 } }) := by
  simp only [escalateCancellationRequest, orThrow_bind_ok, check_bind_ok, rejectIf_ok, ite_ok,
    pure_ok, assertNoFinancialResolutionReserved_ok, not_not] at h
  obtain ⟨request, found, -, ⟨-, rfl⟩ | ⟨-, declined, free, rfl⟩⟩ := h
  · exact .inl rfl
  · exact .inr ⟨fun o ho => by simpa using free o ho, ⟨request, found, declined⟩,
      _, rfl, rfl, rfl, rfl⟩

theorem claimAdminCancellation_ok {id : Nat} {approve : Bool} {adminId : UserId} {fault : Fault}
    {note : Nat} (h : claimAdminCancellation id approve adminId fault note f = .ok c) :
    c = { file := f } ∨ ∃ request claimed op, f.findCancellation id = some request
      ∧ (request.status = .escalated ∨ request.status = .underReview)
      ∧ Claimed f (.cancellation id) (if approve then .adminApprove else .adminDeny)
          fault.requested claimed op
      ∧ ((op.status = .completed ∧ c = { file := claimed })
        ∨ (op.status ≠ .completed ∧ ∃ reportId, request.reportId = some reportId
          ∧ (f.findReport reportId).isSome = true
          ∧ c = {
            file := { claimed.updateCancellation id ({ · with status := .underReview }) with
              reports := Rows.updateWhere (fun r => r.id == reportId && r.status.active)
                ({ · with status := .underReview }) claimed.reports }
            continues := some ⟨.adminResolveCancellationRequest id approve adminId fault,
              if approve = true ∧ op.hasEstablishedFinancialEffect = false then .reserve
              else .markDecisionReady⟩ })) := by
  simp only [claimAdminCancellation, orThrow_bind_ok, check_bind_ok, rejectIf_ok] at h
  obtain ⟨-, -, -, request, found, -, -, h⟩ := h
  simp only [ite_ok, check_bind_ok, pure_ok] at h
  obtain ⟨-, -, rfl⟩ | ⟨undecided, h⟩ := h
  · exact .inl rfl
  rw [bind_ok] at h
  obtain ⟨⟨claimed, op⟩, begun, h⟩ := h
  refine .inr ⟨request, claimed, op, found, ?_, beginAdminResolution_ok begun, ?_⟩
  · by_cases escalated : request.status = .escalated
    · exact .inl escalated
    · exact .inr (by simpa [escalated] using undecided)
  simp only [ite_ok, pure_ok, orThrow_bind_ok, check_bind_ok, rejectIf_ok] at h
  obtain ⟨done, rfl⟩ | ⟨running, reportId, linked, present, h⟩ := h
  · exact .inl ⟨done, rfl⟩
  · refine .inr ⟨running, reportId, linked, Option.isSome_iff_ne_none.mpr present, ?_⟩
    obtain ⟨-, -, rfl⟩ | ⟨-, -, rfl⟩ := h <;> rfl

/-- The administrator's decision closes request and report; a denial may restore the booking. -/
theorem finalizeAdminCancellation_ok {id : Nat} {approve : Bool} {adminId : UserId} {fault : Fault}
    (h : finalizeAdminCancellation ctx id approve adminId fault f = .ok c) :
    c = { file := f } ∨ ∃ reportId closed restored, closed = (f.updateCancellation id
          ({ · with status := .resolved,
                    resolutionOutcome := some (if approve then .approved else .denied) })).updateReport
        reportId ({ · with status := if approve then .resolved else .dismissed })
      ∧ ((approve = true ∧ f.booking.status = .canceled ∧ restored = closed)
        ∨ (approve = false ∧ restoreBookingIfNoBlockingCases ctx closed = .ok restored))
      ∧ (∃ request, f.findCancellation id = some request ∧ request.status = .underReview
        ∧ request.reportId = some reportId)
      ∧ c = { file := completeOperation restored (.cancellation id) } := by
  simp only [finalizeAdminCancellation, ite_ok, pure_ok, orThrow_bind_ok, check_bind_ok,
    rejectIf_ok, not_not] at h
  obtain ⟨-, rfl⟩ | ⟨-, request, found, review, reportId, linked, settled, -, h⟩ := h
  · exact .inl rfl
  cases approve with
  | true =>
      simp only [Booking.cancellationSettled, true_and, Bool.not_eq_false, Bool.and_eq_true,
        beq_iff_eq] at settled
      refine .inr ⟨reportId, _, _, rfl, .inl ⟨rfl, settled.1, rfl⟩,
        ⟨request, found, review, linked⟩, ?_⟩
      simp only [not_true_eq_false, false_and, or_false, true_and, if_true] at h
      cases faulty : faultUser f.booking fault with
      | none =>
          simp only [faulty, bind_ok, pure_ok, exists_eq_left'] at h
          exact h.symm
      | some userId =>
          simp only [faulty, bind_ok, pure_ok, exists_eq_left'] at h
          obtain ⟨-, -, h⟩ := h
          exact h.symm
  | false =>
      simp only [Bool.false_eq_true, not_false_eq_true, true_and, false_and, false_or, if_false,
        bind_ok, pure_ok] at h
      obtain ⟨restored, hr, h⟩ := h
      exact .inr ⟨reportId, _, restored, rfl, .inr ⟨rfl, hr⟩, ⟨request, found, review, linked⟩,
        by simpa using h.symm⟩

end Inversion

end ServiceHub
