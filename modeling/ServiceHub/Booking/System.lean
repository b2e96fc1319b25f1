import ServiceHub.Lib.Machine
import ServiceHub.Booking.Resolution

/-! # One booking as a machine

The file, the calls in flight and what the gateway has executed. A step is a request
that commits its first transaction, one statement of a call in flight, the stop of a
call, or a renumbering of the queue row by an operation on another booking.
-/

namespace ServiceHub

open Guard

structure BookingSystem where
  file : BookingFile
  calls : List Call := []
  /-- The refund stored at the gateway under the booking's idempotency key. -/
  gatewayRefund : Option GatewayRefund := none
  deriving Repr, DecidableEq

/-- The entry points of the booking services. -/
inductive Request where
  | respondToDirectBooking (providerId : UserId) (accept : Bool)
  | providerStartJob (providerId : UserId)
  | markJobComplete (providerId : UserId)
  | confirmCompletion (seekerId : UserId)
  | disputeJob (seekerId : UserId) (reason : Option ReportReason)
  | createSafetyReport (reporterId : UserId) (reason : ReportReason) (description : Nat)
      (evidenceFolder : Option UserId)
  | createCompletionEscalation (providerId : UserId)
  | startModerationReview (source : ModerationSource)
  | requestCancellation (userId : UserId)
  | declineCancellation (requestId : Nat) (responderId : UserId) (note : Nat)
  | approveCancellation (requestId : Nat) (responderId : UserId)
  | escalateCancellation (requestId : Nat) (userId : UserId)
  | adminResolveCancellation (requestId : Nat) (approve : Bool) (adminId : UserId) (fault : Fault)
      (adminNote : Nat)
  | resolveAdminReport (reportId : Nat) (adminId : UserId) (outcome : ReportOutcome)
      (penalty : ReportPenalty) (adminNotes : Nat)
  | resolveCompletionEscalation (escalationId : Nat) (adminId : UserId) (action : EscalationAction)
  | resolveAdminBooking (adminId : UserId) (outcome : AdminBookingOutcome)
      (requireBannedParticipant : Bool)
  deriving Repr, DecidableEq

/-- The first transaction of a request. -/
def requestTransaction (ctx : Context) : Request → BookingFile → Except HttpError Commit
  | .respondToDirectBooking providerId accept => respondToDirectBookingService ctx providerId accept
  | .providerStartJob providerId => providerStartJob ctx providerId
  | .markJobComplete providerId => markJobComplete ctx providerId
  | .confirmCompletion seekerId => confirmCompletionService ctx seekerId
  | .disputeJob seekerId reason => disputeJobService ctx seekerId reason
  | .createSafetyReport reporterId reason description folder =>
      createSafetyReport ctx reporterId reason description folder
  | .createCompletionEscalation providerId => createCompletionEscalation ctx providerId
  | .startModerationReview source => startModerationReview source
  | .requestCancellation userId => requestCancellation userId
  | .declineCancellation requestId responderId note =>
      declineCancellationRequest requestId responderId note
  | .approveCancellation requestId responderId => approveCancellationRequest requestId responderId
  | .escalateCancellation requestId userId => escalateCancellationRequest requestId userId
  | .adminResolveCancellation requestId approve adminId fault note =>
      claimAdminCancellation requestId approve adminId fault note
  | .resolveAdminReport reportId adminId outcome penalty notes =>
      claimReport ctx reportId adminId outcome penalty notes
  | .resolveCompletionEscalation escalationId adminId action =>
      claimEscalation escalationId adminId action
  | .resolveAdminBooking adminId outcome banned => claimAdminBooking ctx adminId outcome banned

/-- What the gateway answers to the statement of a call. A refund can be executed although
    the server sees an error. -/
inductive Answer where
  | none
  | failed
  | intent (intent : Intent)
  | refunded (refund : GatewayRefund)
  | timedOut (refund : GatewayRefund)
  deriving Repr, DecidableEq

def unreachableStage : HttpError := httpError "unreachable" 500

def reserveOutcome (caller : Caller) : BookingFile → Except HttpError Commit :=
  match caller with
  | .respondToCancellationRequest id _ _ | .adminResolveCancellationRequest id _ _ _ =>
      reserveCancellationFinancialOutcome caller id
  | .resolveAdminReport id _ outcome _ => reserveReportFinancialOutcome caller id outcome.effect
  | .resolveCompletionEscalation id _ action =>
      reserveCompletionFinancialOutcome caller id action.effect
  | .resolveAdminBooking _ _ | .requestCancellation _ _ | .refundBookingPayment _ =>
      fun _ => throw unreachableStage

def finalizeCase (ctx : Context) (caller : Caller) : BookingFile → Except HttpError Commit :=
  match caller with
  | .requestCancellation id _ => finalizeImmediateCancellation id
  | .respondToCancellationRequest id _ reportId => finalizeParticipantApproval id reportId
  | .adminResolveCancellationRequest id approve adminId fault =>
      finalizeAdminCancellation ctx id approve adminId fault
  | .resolveAdminReport id adminId outcome penalty => finalizeReport ctx id adminId outcome penalty
  | .resolveCompletionEscalation id _ action => finalizeEscalation ctx id action
  | .resolveAdminBooking _ outcome => finalizeAdminBooking outcome
  | .refundBookingPayment _ => fun _ => throw unreachableStage

/-- `settleCompletedBooking` for the administrator of the call. -/
def settleByAdmin (ctx : Context) (caller : Caller) (f : BookingFile) : Except HttpError Commit := do
  let commit ← settleCompletedBooking ctx .admin f
  return { commit with continues := some ⟨caller, .markEstablished⟩ }

/-- `markAdminResolutionStage`, a transaction of its own. -/
def markStage (caller : Caller) (stage : OperationStage) (f : BookingFile) :
    Except HttpError Commit := do
  let ref ← orThrow caller.operation unreachableStage
  let (marked, _) ← markAdminResolutionStageInTransaction f ref stage
  return { file := marked, continues := some ⟨caller, .finalize⟩ }

/-- The statement of a call that does not talk to the gateway's refund endpoint and is not a
    catch block. -/
def Call.transaction (ctx : Context) (answer : Answer) (c : Call) (f : BookingFile) :
    Except HttpError Commit :=
  match c.stage with
  | .reserve => reserveOutcome c.caller f
  | .cancelRead => readCancelBooking c.caller f
  | .preStartCheck booking => checkPreStart c.caller booking f
  | .refundRead => readRefundBooking c.caller f
  | .refundExisting booking queue => readExistingRefund c.caller booking queue f
  | .refundIntent queue =>
      match answer with
      | .intent intent => checkRefundIntent c.caller queue intent f
      | _ => throw (httpError "PayMongo is unavailable" 503 (some "PAYMONGO_UNAVAILABLE"))
  | .refundReserve paymentId amount => reserveRefund c.caller paymentId amount f
  | .refundFinalize resumed id status amount => finalizeRefund c.caller resumed id status amount f
  | .cancelSettle held => settleCancellation c.caller held f
  | .settle => settleByAdmin ctx c.caller f
  | .markEstablished => markStage c.caller .financialEffectEstablished f
  | .markDecisionReady => markStage c.caller .decisionReady f
  | .finalize => finalizeCase ctx c.caller f
  | .refundCreate _ _ | .refundCaught | .markFailed => throw unreachableStage

/-- Where an exception leads: a resolution records the failure, others return it. -/
def Call.unwound (c : Call) : Option Call :=
  c.caller.operation.map fun _ => ⟨c.caller, .markFailed⟩

/-- The other rows that a step of the booking wrote. -/
structure Effects where
  recalculates : Bool := false
  requestStatus : Option RequestStatus := none
  moderation : Option (UserId × AccountModerationStatus) := none

def Commit.effects (c : Commit) : Effects :=
  ⟨c.recalculates, c.requestStatus, c.moderation⟩

namespace BookingSystem

/-- The call at index `k` goes on at `c`, or has returned. -/
def proceed (s : BookingSystem) (k : Nat) : Option Call → List Call
  | some c => s.calls.set k c
  | none => s.calls.eraseIdx k

/-- Execute the next statement of the call at index `k`. -/
def resume (ctx : Context) (k : Nat) (answer : Answer) (s : BookingSystem) :
    Option (BookingSystem × Effects) :=
  (s.calls[k]?).bind fun c =>
    match c.stage with
    | .refundCreate _ amount =>
        match answer with
        | .refunded refund =>
            let stored := s.gatewayRefund.getD refund
            some ({ s with
              gatewayRefund := some stored
              calls := s.proceed k
                (some ⟨c.caller, .refundFinalize false stored.id stored.status amount⟩) }, {})
        | .timedOut refund => some ({ s with
            gatewayRefund := some (s.gatewayRefund.getD refund)
            calls := s.proceed k (some ⟨c.caller, .refundCaught⟩) }, {})
        | .failed => some ({ s with calls := s.proceed k (some ⟨c.caller, .refundCaught⟩) }, {})
        | _ => none
    | .refundCaught => some ({ s with
        file := recordRefundFailure s.file, calls := s.proceed k c.unwound }, {})
    | .markFailed => some ({ s with
        file := match c.caller.operation with
          | some ref => markAdminResolutionFailed s.file ref
          | none => s.file
        calls := s.proceed k none }, {})
    | _ =>
        match c.transaction ctx answer s.file with
        | .ok commit => some ({ s with
            file := commit.file, calls := s.proceed k commit.continues }, commit.effects)
        | .error _ => some ({ s with calls := s.proceed k c.unwound }, {})

/-- A request whose first transaction commits. -/
def request (ctx : Context) (r : Request) (s : BookingSystem) : Option (BookingSystem × Effects) :=
  match requestTransaction ctx r s.file with
  | .ok commit => some ({ s with
      file := commit.file, calls := s.calls ++ commit.continues.toList }, commit.effects)
  | .error _ => none

end BookingSystem

inductive Step where
  | request (r : Request)
  /-- A direct call of `refundBookingPayment`. -/
  | refund (requestedById : UserId)
  | resume (k : Nat) (answer : Answer)
  | crash (k : Nat)
  deriving Repr, DecidableEq

def BookingSystem.step (ctx : Context) (s : BookingSystem) : Step → Option (BookingSystem × Effects)
  | .request r => s.request ctx r
  | .refund requestedById =>
      some ({ s with calls := s.calls ++ [⟨.refundBookingPayment requestedById, .refundRead⟩] }, {})
  | .resume k answer => s.resume ctx k answer
  | .crash k => if k < s.calls.length then some ({ s with calls := s.proceed k none }, {}) else none

/-- What `recalculateQueueInTransaction` writes for one queue row; the booking of a waiting entry
    follows, unless its column is null, which `queuePosition: { not: position }` does not match. -/
def BookingFile.renumbered (position estimatedWait : Nat) (waiting : Bool) (f : BookingFile) :
    BookingFile :=
  { f with
    queue := f.queue.map ({ · with position, estimatedWait })
    booking := { f.booking with
      queuePosition :=
        if waiting then f.booking.queuePosition.map fun _ => position else f.booking.queuePosition } }

/-- A step of the booking with the rows it reads elsewhere, or a renumbering. -/
inductive Action where
  | step (ctx : Context) (step : Step)
  | renumber (position estimatedWait : Nat) (waiting : Bool)

/-- The participants and terms a booking is created with. -/
structure Terms where
  seekerId : UserId
  providerId : UserId
  distinct : seekerId ≠ providerId
  serviceId : Option ServiceId
  offerId : Option OfferId
  amount : Centavos
  estimatedDurationMins : Option Nat

/-- The booking of `createDirectRequest`. -/
def Terms.cashRequest (t : Terms) : BookingFile :=
  { booking := {
      seekerId := t.seekerId, providerId := t.providerId, serviceId := t.serviceId
      offerId := none, paymentAttemptId := none, paymentMethod := .onsiteCash
      agreedAmount := some t.amount, estimatedDurationMins := t.estimatedDurationMins
      paymentStatus := .unpaid, status := .pendingApproval }
    directRequest := some .pendingApproval }

/-- The booking of `createDirectFromOfferService`. -/
def Terms.cashOffer (t : Terms) : BookingFile :=
  { booking := {
      seekerId := t.seekerId, providerId := t.providerId, serviceId := t.serviceId
      offerId := t.offerId, paymentAttemptId := none, paymentMethod := .onsiteCash
      agreedAmount := some t.amount, estimatedDurationMins := t.estimatedDurationMins
      paymentStatus := .unpaid, status := .accepted } }

/-- The booking and queue row of a captured payment (`finalizeSuccessfulPayment`). -/
def Terms.paidCapture (t : Terms) (attemptId : AttemptId) (intentId : GatewayId)
    (paymentId : Option GatewayId) (position : Nat) : BookingFile :=
  { booking := {
      seekerId := t.seekerId, providerId := t.providerId, serviceId := t.serviceId
      offerId := t.offerId, paymentAttemptId := some attemptId, paymentMethod := .gcash
      agreedAmount := some t.amount, estimatedDurationMins := t.estimatedDurationMins
      paymentStatus := .paidHeld, status := .accepted, queuePosition := some position }
    queue := some {
      providerId := t.providerId, seekerId := t.seekerId, serviceId := t.serviceId
      offerId := t.offerId, paymentId := intentId, paymongoPaymentId := paymentId
      paymentStatus := .paidHeld, position, status := .waiting, estimatedWait := 0 } }

/-- The files a booking starts with. -/
inductive BookingFile.Created : BookingFile → Prop where
  | cashRequest (t : Terms) : Created t.cashRequest
  | cashOffer (t : Terms) : Created t.cashOffer
  | paidCapture (t : Terms) (attemptId intentId paymentId position) :
      Created (t.paidCapture attemptId intentId paymentId position)

def Step.isRefund : Step → Bool
  | .refund _ => true
  | _ => false

def bookingNext (s : BookingSystem) : Action → Option BookingSystem
  | .step ctx st => (s.step ctx st).map (·.1)
  | .renumber position wait waiting => some { s with file := s.file.renumbered position wait waiting }

/-- The booking services, with `refundBookingPayment` also callable on its own. -/
def refundMachine : Machine BookingSystem Action where
  initial s := s.file.Created ∧ s.calls = [] ∧ s.gatewayRefund = none
  next := bookingNext

/-- The booking services as the application calls them: every refund belongs to one of the
    resolutions or to an immediate cancellation. -/
def bookingMachine : Machine BookingSystem Action where
  initial s := s.file.Created ∧ s.calls = [] ∧ s.gatewayRefund = none
  next s a := match a with
    | .step _ (.refund _) => none
    | _ => bookingNext s a

end ServiceHub
