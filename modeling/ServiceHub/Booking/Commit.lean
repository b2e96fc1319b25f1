import ServiceHub.Booking.CaseResolution

/-! # Calls between their transactions

A resolution or refund runs as several transactions with gateway requests between
them. A call that has not returned is the service function with its arguments and
the point it has reached, including what it has read and still holds in memory.
-/

namespace ServiceHub

inductive Fault where
  | none | seeker | provider
  deriving Repr, DecidableEq

/-- `ReportBookingOutcome`. -/
inductive ReportOutcome where
  | dismiss | resolveSafety | cancelBooking | releaseProviderAndComplete
  deriving Repr, DecidableEq

/-- `CompletionEscalationAction`. -/
inductive EscalationAction where
  | releaseProviderAndComplete | refundSeeker | keepAwaiting
  deriving Repr, DecidableEq

inductive AdminBookingOutcome where
  | cancelBooking | releaseProviderAndComplete
  deriving Repr, DecidableEq

/-- `ReportPenaltyAction`. -/
inductive ReportPenalty where
  | none | warn | trustDeduct | suspend | ban
  deriving Repr, DecidableEq

def ReportOutcome.requested : ReportOutcome → RequestedOutcome
  | .dismiss => .dismiss
  | .resolveSafety => .resolveSafety
  | .cancelBooking => .cancelBooking
  | .releaseProviderAndComplete => .releaseProviderAndComplete

def EscalationAction.requested : EscalationAction → RequestedOutcome
  | .releaseProviderAndComplete => .releaseProviderAndComplete
  | .refundSeeker => .refundSeeker
  | .keepAwaiting => .keepAwaiting

def AdminBookingOutcome.requested : AdminBookingOutcome → RequestedOutcome
  | .cancelBooking => .cancelBooking
  | .releaseProviderAndComplete => .releaseProviderAndComplete

def ReportPenalty.requested : ReportPenalty → RequestedPenalty
  | .none => .none
  | .warn => .warn
  | .trustDeduct => .trustDeduct
  | .suspend => .suspend
  | .ban => .ban

def Fault.requested : Fault → RequestedPenalty
  | .none => .none
  | .seeker => .cancellationFaultSeeker
  | .provider => .cancellationFaultProvider

/-- The service function a call belongs to, with its arguments and claimed rows. -/
inductive Caller where
  | refundBookingPayment (requestedById : UserId)
  | requestCancellation (requestId : Nat) (userId : UserId)
  | respondToCancellationRequest (requestId : Nat) (responderId : UserId) (reportId : Option Nat)
  | adminResolveCancellationRequest (requestId : Nat) (approve : Bool) (adminId : UserId)
      (fault : Fault)
  | resolveAdminReport (reportId : Nat) (adminId : UserId) (outcome : ReportOutcome)
      (penalty : ReportPenalty)
  | resolveCompletionEscalation (escalationId : Nat) (adminId : UserId) (action : EscalationAction)
  | resolveAdminBooking (adminId : UserId) (outcome : AdminBookingOutcome)
  deriving Repr, DecidableEq

/-- The operation row that the call works on. -/
def Caller.operation : Caller → Option CaseRef
  | .refundBookingPayment _ | .requestCancellation _ _ => none
  | .respondToCancellationRequest id _ _ | .adminResolveCancellationRequest id _ _ _ =>
      some (.cancellation id)
  | .resolveAdminReport id _ _ _ => some (.report id)
  | .resolveCompletionEscalation id _ _ => some (.completionEscalation id)
  | .resolveAdminBooking _ _ => some .adminBooking

/-- The point a call has reached: the next statement or transaction it executes. -/
inductive Stage where
  /-- `reserve…FinancialOutcome`. -/
  | reserve
  /-- `performImmediateCancel` reads the booking. -/
  | cancelRead
  /-- `performImmediateCancel` checks the pre-start reservation against the booking it read. -/
  | preStartCheck (booking : Booking)
  /-- `refundBookingPayment` reads the booking and its queue row. -/
  | refundRead
  | refundExisting (booking : Booking) (queue : Queue)
  /-- `getPaymentIntent`. -/
  | refundIntent (queue : Queue)
  | refundReserve (paymentId : GatewayId) (amount : Centavos)
  /-- `createRefund`. -/
  | refundCreate (paymentId : GatewayId) (amount : Centavos)
  /-- The catch block of `createRefund`. -/
  | refundCaught
  | refundFinalize (resumed : Bool) (refundId : GatewayId) (status : RefundStatus) (amount : Centavos)
  /-- The settlement transaction of `performImmediateCancel`. -/
  | cancelSettle (hasHeldOnlinePayment : Bool)
  /-- `settleCompletedBooking` on behalf of an administrator. -/
  | settle
  | markEstablished
  | markDecisionReady
  | finalize
  /-- The catch block of a resolution: `markAdminResolutionFailed`. -/
  | markFailed
  deriving Repr, DecidableEq

structure Call where
  caller : Caller
  stage : Stage
  deriving Repr, DecidableEq

/-- A committed transaction: the written file, where the call goes on (`none`: it
    returned), and what it wrote outside the file. -/
structure Commit where
  file : BookingFile
  continues : Option Call := none
  /-- `recalculateQueueInTransaction` ran for the provider. -/
  recalculates : Bool := false
  /-- Status written to the service request behind the booking's offer. -/
  requestStatus : Option RequestStatus := none
  /-- Moderation status written to an account. -/
  moderation : Option (UserId × AccountModerationStatus) := none

end ServiceHub
