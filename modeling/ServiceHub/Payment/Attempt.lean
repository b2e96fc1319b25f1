import ServiceHub.Booking.System

/-! # The file of one payment attempt

The attempt row and its unique refund row, and the statements of
`refundCapturedAttempt` on them.
-/

namespace ServiceHub

structure PaymentAttempt where
  seekerId : UserId
  providerId : UserId
  serviceId : Option ServiceId
  quantity : Nat
  offerId : Option OfferId
  amount : Centavos
  commissionRateBps : Nat
  platformFeeAmount : Centavos
  providerNetAmount : Option Centavos
  transportationFee : Option Centavos
  estimatedDurationMins : Option Nat
  expiresAt : Millis
  status : PaymentAttemptStatus := .pending
  failureReason : Option String := none
  paidAt : Option Millis := none
  providerIntentId : Option GatewayId := none
  providerPaymentId : Option GatewayId := none
  redirectUrl : Option String := none
  deriving Repr, DecidableEq

structure AttemptFile where
  attempt : PaymentAttempt
  refund : Option PaymentRefund := none
  deriving Repr, DecidableEq

/-- Where a call of `refundCapturedAttempt` stands. -/
inductive AttemptRefundStage where
  | read
  | reserve (paymentId : GatewayId) (amount : Centavos)
  | create (paymentId : GatewayId) (amount : Centavos)
  | record (refund : GatewayRefund)
  | caught
  deriving Repr, DecidableEq

def readCapturedAttempt (f : AttemptFile) : Option AttemptRefundStage :=
  if f.attempt.status = .refunded then none
  else if f.attempt.status ≠ .refundRequired then none
  else f.attempt.providerPaymentId.map fun paymentId => .reserve paymentId f.attempt.amount

/-- `["SUCCEEDED", "SIMULATED_TEST_MODE"].includes(status)`. -/
def RefundStatus.done : RefundStatus → Bool
  | .succeeded | .simulatedTestMode => true
  | _ => false

/-- The upsert of the refund row, which leaves an existing row as it is. -/
def reserveAttemptRefund (paymentId : GatewayId) (amount : Centavos) (f : AttemptFile) :
    AttemptFile × Option AttemptRefundStage :=
  let refundRecord := f.refund.getD ⟨paymentId, none, amount, .pending⟩
  ({ f with refund := some refundRecord },
    if refundRecord.status.done then none else some (.create paymentId amount))

def recordAttemptRefund (refund : GatewayRefund) (f : AttemptFile) : AttemptFile :=
  { f with
    refund := f.refund.map ({ · with paymongoRefundId := some refund.id, status := refund.status })
    attempt := { f.attempt with status := .refunded } }

/-- The catch block, which then rethrows. -/
def recordAttemptRefundFailure (f : AttemptFile) : AttemptFile :=
  { f with refund := f.refund.map ({ · with status := .failed }) }

/-- The file, the refund stored at the gateway under the attempt's idempotency key, and where
    the call goes on. -/
def AttemptRefundStage.resume (answer : Answer) (g : Option GatewayRefund) (f : AttemptFile) :
    AttemptRefundStage → Option (AttemptFile × Option GatewayRefund × Option AttemptRefundStage)
  | .read => some (f, g, readCapturedAttempt f)
  | .reserve paymentId amount =>
      let (reserved, next) := reserveAttemptRefund paymentId amount f
      some (reserved, g, next)
  | .create _ _ =>
      match answer with
      | .refunded refund => some (f, some (g.getD refund), some (.record (g.getD refund)))
      | .timedOut refund => some (f, some (g.getD refund), some .caught)
      | .failed => some (f, g, some .caught)
      | _ => none
  | .record refund => some (recordAttemptRefund refund f, g, none)
  | .caught => some (recordAttemptRefundFailure f, g, none)

end ServiceHub
