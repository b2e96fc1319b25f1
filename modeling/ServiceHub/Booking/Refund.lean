import ServiceHub.Booking.Commit

/-! # `refundBookingPayment`

The three phases of a refund: reserve the refund row, ask the gateway, finalize the
booking. Each function below is one statement or transaction; the values read by an
earlier one are passed on through the stage of the call.
-/

namespace ServiceHub

open Guard

/-- A refund as the gateway stores it under its idempotency key. -/
structure GatewayRefund where
  id : GatewayId
  /-- Upper-cased when recorded. -/
  status : RefundStatus
  deriving Repr, DecidableEq

/-- `getPaymentIntent`. -/
structure Intent where
  succeeded : Bool
  paymentId : Option GatewayId
  amount : Centavos
  deriving Repr, DecidableEq

/-- Where `performImmediateCancel` or the bare refund goes on after the refund. -/
def Caller.afterRefund : Caller → Option Call
  | .refundBookingPayment _ => none
  | caller => some ⟨caller, .cancelSettle true⟩

def readRefundBooking (caller : Caller) (f : BookingFile) : Except HttpError Commit := do
  let queue ← orThrow f.queue (httpError "This booking has no online payment to refund" 409)
  return { file := f, continues := some ⟨caller, .refundExisting f.booking queue⟩ }

/-- Compares the stored refund with the booking that was read before. -/
def readExistingRefund (caller : Caller) (initialBooking : Booking) (queue : Queue)
    (f : BookingFile) : Except HttpError Commit :=
  let submitted := f.refund.any (·.paymongoRefundId.isSome)
  if submitted = true ∧ initialBooking.status = .canceled
      ∧ initialBooking.paymentStatus = .refunded then
    return { file := f, continues := caller.afterRefund }
  else do
    rejectIf (submitted = false ∧ initialBooking.paymentStatus.held = false)
      (httpError "Only a held online payment can be refunded" 409)
    return { file := f, continues := some ⟨caller, .refundIntent queue⟩ }

def checkRefundIntent (caller : Caller) (queue : Queue) (intent : Intent) (f : BookingFile) :
    Except HttpError Commit := do
  let unconfirmed := httpError "PayMongo did not confirm a refundable successful payment" 409
  let paymentId ← orThrow (queue.paymongoPaymentId.or intent.paymentId) unconfirmed
  rejectIf (intent.succeeded = false) unconfirmed
  return { file := f, continues := some ⟨caller, .refundReserve paymentId intent.amount⟩ }

/-- The reservation transaction. A recorded gateway refund is resumed, a PROCESSING row is
    shared, a FAILED one is taken over. -/
def reserveRefund (caller : Caller) (paymentId : GatewayId) (amount : Centavos) (f : BookingFile) :
    Except HttpError Commit := do
  rejectIf (f.completedService.isSome = true ∨ f.booking.status = .completed
      ∨ f.booking.paymentStatus = .released ∨ f.booking.paymentStatus = .cashConfirmed)
    (httpError "A completed booking cannot be refunded" 409)
  match f.refund.bind fun r => r.paymongoRefundId.map fun id => (id, r.status) with
  | some (id, status) =>
      return { file := f, continues := some ⟨caller, .refundFinalize true id status amount⟩ }
  | none =>
      if f.refund.any (·.status == .processing) = true then
        return { file := f, continues := some ⟨caller, .refundCreate paymentId amount⟩ }
      else do
        rejectIf (f.booking.paymentStatus.held = false)
          (httpError "Only a held online payment can be refunded" 409)
        let reserved : PaymentRefund :=
          { paymentId, amount, status := .processing
            paymongoRefundId := f.refund.bind (·.paymongoRefundId) }
        return {
          file := { f with refund := some reserved }
          continues := some ⟨caller, .refundCreate paymentId amount⟩ }

/-- The catch block around `createRefund`, which then rethrows. -/
def recordRefundFailure (f : BookingFile) : BookingFile :=
  { f with refund := f.refund.map ({ · with status := .failed }) }

/-- The booking after a finalized refund, without its ledger row. -/
def BookingFile.refunded (refundId : GatewayId) (status : RefundStatus) (f : BookingFile) :
    BookingFile :=
  { f with
    refund := f.refund.map ({ · with status, paymongoRefundId := some refundId })
    booking := { f.booking with
      status := .canceled, paymentStatus := .refunded, statusBeforeDispute := none }
    queue := f.queue.map ({ · with status := .cancelled, paymentStatus := .refunded }) }

def finalizeRefund (caller : Caller) (resumed : Bool) (refundId : GatewayId)
    (status : RefundStatus) (amount : Centavos) (f : BookingFile) : Except HttpError Commit := do
  rejectIf (f.queue = none) (httpError "Booking or online queue entry not found" 404)
  if f.booking.status = .canceled ∧ f.booking.paymentStatus = .refunded then
    return { file := f, continues := caller.afterRefund }
  else do
    rejectIf (f.completedService.isSome = true ∨ f.booking.status = .completed
        ∨ f.booking.paymentStatus.held = false)
      (httpError "Booking state changed before the refund could be finalized" 409)
    rejectIf (f.refund = none ∨ (resumed = false ∧ f.refund.any (·.status != .processing)))
      (httpError "Refund reservation is no longer valid" 409)
    let refunded := f.refunded refundId status
    let written ←
      if f.transactions.any (fun t => t.type == .refund && t.paymongoRefId == some refundId) = true then
        pure refunded
      else refunded.createTransaction {
        walletOwnerId := f.booking.seekerId, type := .refund, amount
        paymongoRefId := some refundId, idempotencyKey := .bookingRefund }
    return {
      file := written
      continues := caller.afterRefund
      recalculates := true
      requestStatus := some .canceled }

section Inversion

variable {f : BookingFile} {c : Commit} {caller : Caller}

theorem readRefundBooking_ok (h : readRefundBooking caller f = .ok c) :
    ∃ queue, f.queue = some queue
      ∧ c = { file := f, continues := some ⟨caller, .refundExisting f.booking queue⟩ } := by
  simp only [readRefundBooking, orThrow_bind_ok, pure_ok] at h
  obtain ⟨queue, found, rfl⟩ := h
  exact ⟨queue, found, rfl⟩

theorem readExistingRefund_ok {b : Booking} {q : Queue} (h : readExistingRefund caller b q f = .ok c) :
    (b.status = .canceled ∧ b.paymentStatus = .refunded
        ∧ c = { file := f, continues := caller.afterRefund })
      ∨ c = { file := f, continues := some ⟨caller, .refundIntent q⟩ } := by
  simp only [readExistingRefund, ite_ok, pure_ok, check_bind_ok] at h
  obtain ⟨⟨-, canceled, refunded⟩, rfl⟩ | ⟨-, -, rfl⟩ := h
  · exact .inl ⟨canceled, refunded, rfl⟩
  · exact .inr rfl

theorem checkRefundIntent_ok {q : Queue} {intent : Intent}
    (h : checkRefundIntent caller q intent f = .ok c) :
    ∃ paymentId, q.paymongoPaymentId.or intent.paymentId = some paymentId
      ∧ c = { file := f, continues := some ⟨caller, .refundReserve paymentId intent.amount⟩ } := by
  simp only [checkRefundIntent, orThrow_bind_ok, check_bind_ok, pure_ok] at h
  obtain ⟨paymentId, found, -, rfl⟩ := h
  exact ⟨paymentId, found, rfl⟩

/-- The three outcomes of a reservation: resume a recorded refund, join a PROCESSING row,
    take the row. -/
theorem reserveRefund_ok {paymentId : GatewayId} {amount : Centavos}
    (h : reserveRefund caller paymentId amount f = .ok c) :
    f.booking.status ≠ .completed ∧ f.booking.paymentStatus ≠ .released
      ∧ ((∃ r id, f.refund = some r ∧ r.paymongoRefundId = some id ∧
          c = { file := f, continues := some ⟨caller, .refundFinalize true id r.status amount⟩ })
        ∨ (f.refund.map (·.status) = some .processing
          ∧ c = { file := f, continues := some ⟨caller, .refundCreate paymentId amount⟩ })
        ∨ (f.refund.bind (·.paymongoRefundId) = none ∧ f.booking.paymentStatus.held = true
          ∧ c = {
            file := { f with refund := some ⟨paymentId, none, amount, .processing⟩ }
            continues := some ⟨caller, .refundCreate paymentId amount⟩ })) := by
  simp only [reserveRefund, check_bind_ok, rejectIf_ok, not_or] at h
  obtain ⟨⟨-, uncompleted, unreleased, -⟩, h⟩ := h
  refine ⟨uncompleted, unreleased, ?_⟩
  cases stored : f.refund with
  | none =>
      simp only [stored, Option.bind_none, Option.any_none, Bool.false_eq_true, if_false,
        check_bind_ok, rejectIf_ok, pure_ok] at h
      obtain ⟨held, rfl⟩ := h
      exact .inr (.inr ⟨rfl, by simpa using held, rfl⟩)
  | some r =>
      cases recorded : r.paymongoRefundId with
      | some id =>
          simp [stored, recorded] at h
          exact .inl ⟨r, id, rfl, recorded, by rw [← h]⟩
      | none =>
          simp only [stored, recorded, Option.bind_some, Option.map_none, ite_ok, check_bind_ok,
            rejectIf_ok, pure_ok, Option.any_some, beq_iff_eq] at h
          obtain ⟨processing, rfl⟩ | ⟨-, held, rfl⟩ := h
          · exact .inr (.inl ⟨by simp [processing], rfl⟩)
          · exact .inr (.inr ⟨by simp [recorded], by simpa using held, rfl⟩)

/-- The ledger row of a refund, unless it exists. -/
def BookingFile.refundLedger (refundId : GatewayId) (amount : Centavos) (f : BookingFile) :
    List Transaction :=
  if f.transactions.any (fun t => t.type == .refund && t.paymongoRefId == some refundId) then []
  else [{
    walletOwnerId := f.booking.seekerId, type := .refund, amount
    paymongoRefId := some refundId, idempotencyKey := .bookingRefund }]

theorem finalizeRefund_ok {resumed : Bool} {refundId : GatewayId} {status : RefundStatus}
    {amount : Centavos} (h : finalizeRefund caller resumed refundId status amount f = .ok c) :
    (f.booking.status = .canceled ∧ f.booking.paymentStatus = .refunded
        ∧ c = { file := f, continues := caller.afterRefund })
      ∨ (f.queue.isSome = true ∧ f.booking.status ≠ .completed ∧ f.booking.paymentStatus.held = true
        ∧ (∃ r, f.refund = some r ∧ (resumed = false → r.status = .processing))
        ∧ c = {
          file := { f.refunded refundId status with
            transactions := f.transactions ++ f.refundLedger refundId amount }
          continues := caller.afterRefund
          recalculates := true
          requestStatus := some .canceled }) := by
  simp only [finalizeRefund, check_bind_ok, rejectIf_ok, ite_ok, pure_ok, not_or] at h
  obtain ⟨queued, ⟨⟨canceled, refunded⟩, rfl⟩ | ⟨-, ⟨-, uncompleted, held⟩, ⟨stored, valid⟩, h⟩⟩ := h
  · exact .inl ⟨canceled, refunded, rfl⟩
  refine .inr ⟨by simpa [Option.isSome_iff_ne_none] using queued, uncompleted, by simpa using held,
    ?_, ?_⟩
  · obtain ⟨r, hr⟩ := Option.ne_none_iff_exists'.mp stored
    exact ⟨r, hr, by simpa [hr] using valid⟩
  simp only [bind_ok, pure_ok, BookingFile.createTransaction_ok] at h
  obtain ⟨present, _, rfl, rfl⟩ | ⟨absent, _, ⟨-, rfl⟩, rfl⟩ := h
  · simp only [BookingFile.refunded, BookingFile.refundLedger, present, if_true, List.append_nil]
  · simp only [BookingFile.refunded, BookingFile.refundLedger, absent, Bool.false_eq_true, if_false]

end Inversion

end ServiceHub
