import ServiceHub.Lib.Guard
import ServiceHub.Lib.Rows
import ServiceHub.Schema

/-! # The file of one booking

A booking together with every row that hangs on it: its queue row, refund,
completed service, ledger transactions, cases and resolution operations. All
transactions of the booking services take the lifecycle lock of one booking, so
each of them is a function on this file. A unique column `bookingId` is an
optional row; creating it twice is rejected by the database.
-/

namespace ServiceHub

structure Booking where
  seekerId : UserId
  providerId : UserId
  serviceId : Option ServiceId
  offerId : Option OfferId
  paymentAttemptId : Option AttemptId
  paymentMethod : PaymentMethod
  agreedAmount : Option Centavos
  estimatedDurationMins : Option Nat
  paymentStatus : PaymentStatus
  status : BookingStatus
  statusBeforeDispute : Option BookingStatus := none
  queuePosition : Option Nat := none
  started : Bool := false
  deriving Repr, DecidableEq

structure Queue where
  providerId : UserId
  seekerId : UserId
  serviceId : Option ServiceId
  offerId : Option OfferId
  /-- The payment intent. -/
  paymentId : GatewayId
  paymongoPaymentId : Option GatewayId
  paymentStatus : PaymentStatus
  position : Nat
  status : QueueStatus
  estimatedWait : Nat
  deriving Repr, DecidableEq

structure PaymentRefund where
  paymentId : GatewayId
  paymongoRefundId : Option GatewayId
  amount : Centavos
  status : RefundStatus
  deriving Repr, DecidableEq

structure CompletedService where
  finalPrice : Centavos
  commissionRateBps : Nat
  platformFeeAmount : Centavos
  providerNetAmount : Centavos
  paymentStatus : PaymentStatus
  deriving Repr, DecidableEq

/-- The idempotency keys `booking-completion:<id>` and `booking-refund:<id>`. -/
inductive TransactionKey where
  | bookingCompletion | bookingRefund
  deriving Repr, DecidableEq

structure Transaction where
  walletOwnerId : UserId
  type : TransactionType
  amount : Centavos
  paymongoRefId : Option GatewayId
  idempotencyKey : TransactionKey
  deriving Repr, DecidableEq

/-- `Report.dedupeKey`: the incident fingerprint of a safety report (the description
    after normalization is a number here) or the escalated request. -/
inductive DedupeKey where
  | safety (reporterId : UserId) (reason : ReportReason) (description : Nat)
  | cancellation (requestId : Nat)
  deriving Repr, DecidableEq

structure Report where
  id : Nat
  reporterId : UserId
  reportedUserId : UserId
  reason : ReportReason
  reportType : ReportType
  dedupeKey : Option DedupeKey
  status : ReportStatus
  deriving Repr, DecidableEq

structure CancellationRequest where
  id : Nat
  requestedBy : UserId
  responderId : UserId
  status : CancellationStatus
  reportId : Option Nat := none
  resolutionOutcome : Option CancellationOutcome := none
  deriving Repr, DecidableEq

structure CompletionEscalation where
  id : Nat
  requestedBy : UserId
  status : EscalationStatus
  resolution : Option EscalationResolution := none
  resolvedAt : Option Millis := none
  deriving Repr, DecidableEq

/-- `(caseType, caseId)` of a resolution operation, which is unique. -/
inductive CaseRef where
  | report (id : Nat)
  | completionEscalation (id : Nat)
  | cancellation (id : Nat)
  | adminBooking
  deriving Repr, DecidableEq

structure AdminResolutionOperation where
  caseRef : CaseRef
  requestedOutcome : RequestedOutcome
  requestedPenalty : RequestedPenalty
  status : OperationStatus := .processing
  stage : OperationStage := .claimed
  deriving Repr, DecidableEq

structure BookingFile where
  booking : Booking
  queue : Option Queue := none
  directRequest : Option DirectRequestStatus := none
  refund : Option PaymentRefund := none
  completedService : Option CompletedService := none
  transactions : List Transaction := []
  reports : List Report := []
  cancellationRequests : List CancellationRequest := []
  /-- In order of creation. -/
  completionEscalations : List CompletionEscalation := []
  operations : List AdminResolutionOperation := []
  /-- Instants of the `WORK_MARKED_COMPLETE` progress events. -/
  workMarkedComplete : List Millis := []
  nextId : Nat := 0
  deriving Repr, DecidableEq

/-- What a transaction on the booking reads outside the booking's own rows. -/
structure Context where
  now : Millis
  /-- `updatedAt` of the booking row. -/
  updatedAt : Millis := 0
  user : UserId → Option User
  /-- `otherOngoing`: other bookings of the provider whose work is in progress. -/
  otherOngoing : Nat := 0
  /-- WAITING queue rows of the provider. -/
  paidWaiting : Nat := 0
  /-- The first WAITING row of the provider is this booking's row. -/
  firstWaiting : Bool := false
  /-- SERVING queue rows of the provider. -/
  serving : Nat := 0
  /-- Another booking of the provider is ONGOING (the unique index per provider). -/
  ongoingElsewhere : Bool := false
  /-- Other unstarted bookings of a provider that block his suspension. -/
  unstartedElsewhere : UserId → Nat := fun _ => 0
  /-- Commission rate, platform fee and provider net amount of the booking's payment attempt. -/
  paymentTerms : Option (Nat × Centavos × Option Centavos) := none

/-- Statuses with `status: { in: [...] }` in the blocking-case queries. -/
def ReportStatus.active : ReportStatus → Bool
  | .pending | .underReview => true
  | .resolved | .dismissed => false

/-- `ACTIVE_CANCELLATION_STATUSES`. -/
def CancellationStatus.active : CancellationStatus → Bool
  | .pending | .declined | .escalated | .underReview => true
  | .approved | .resolved => false

/-- A cancellation request that the responder or an administrator can decide. -/
def CancellationStatus.undecided : CancellationStatus → Bool
  | .pending | .escalated | .underReview => true
  | .approved | .declined | .resolved => false

def EscalationStatus.active : EscalationStatus → Bool
  | .pending | .underReview => true
  | .resolved | .dismissed => false

/-- `["PAID_HELD", "FROZEN_HELD"].includes(status)`. -/
def PaymentStatus.held : PaymentStatus → Bool
  | .paidHeld | .frozenHeld => true
  | _ => false

namespace BookingFile

def findReport (f : BookingFile) (id : Nat) : Option Report :=
  f.reports.find? (·.id == id)

def findCancellation (f : BookingFile) (id : Nat) : Option CancellationRequest :=
  f.cancellationRequests.find? (·.id == id)

def findEscalation (f : BookingFile) (id : Nat) : Option CompletionEscalation :=
  f.completionEscalations.find? (·.id == id)

def findOperation (f : BookingFile) (ref : CaseRef) : Option AdminResolutionOperation :=
  f.operations.find? (·.caseRef == ref)

def updateReport (f : BookingFile) (id : Nat) (g : Report → Report) : BookingFile :=
  { f with reports := Rows.updateWhere (·.id == id) g f.reports }

def updateCancellation (f : BookingFile) (id : Nat)
    (g : CancellationRequest → CancellationRequest) : BookingFile :=
  { f with cancellationRequests := Rows.updateWhere (·.id == id) g f.cancellationRequests }

def updateEscalation (f : BookingFile) (id : Nat)
    (g : CompletionEscalation → CompletionEscalation) : BookingFile :=
  { f with completionEscalations := Rows.updateWhere (·.id == id) g f.completionEscalations }

def updateOperation (f : BookingFile) (ref : CaseRef)
    (g : AdminResolutionOperation → AdminResolutionOperation) : BookingFile :=
  { f with operations := Rows.updateWhere (·.caseRef == ref) g f.operations }

def updateBooking (f : BookingFile) (g : Booking → Booking) : BookingFile :=
  { f with booking := g f.booking }

def updateQueue (f : BookingFile) (g : Queue → Queue) : BookingFile :=
  { f with queue := f.queue.map g }

/-- `transaction.create`: the idempotency key is unique. -/
def createTransaction (f : BookingFile) (t : Transaction) : Except HttpError BookingFile := do
  Guard.rejectIf (f.transactions.any (·.idempotencyKey == t.idempotencyKey)) uniqueViolation
  return { f with transactions := f.transactions ++ [t] }

/-- `completedService.create`: the booking is unique. -/
def createCompletedService (f : BookingFile) (c : CompletedService) : Except HttpError BookingFile := do
  Guard.rejectIf f.completedService.isSome uniqueViolation
  return { f with completedService := some c }

theorem createTransaction_ok {f f' : BookingFile} {t : Transaction} :
    f.createTransaction t = .ok f' ↔
      (∀ u ∈ f.transactions, u.idempotencyKey ≠ t.idempotencyKey)
        ∧ { f with transactions := f.transactions ++ [t] } = f' := by
  simp only [createTransaction, Guard.rejectIf_bind_ok, Guard.pure_ok]
  simp

theorem createCompletedService_ok {f f' : BookingFile} {c : CompletedService} :
    f.createCompletedService c = .ok f' ↔
      f.completedService = none ∧ { f with completedService := some c } = f' := by
  simp only [createCompletedService, Guard.rejectIf_bind_ok, Guard.pure_ok]
  simp

theorem findOperation_append {f : BookingFile} {o : AdminResolutionOperation}
    (h : f.findOperation o.caseRef = none) (ref : CaseRef) :
    ({ f with operations := f.operations ++ [o] } : BookingFile).findOperation ref =
      if ref = o.caseRef then some o else f.findOperation ref := by
  simp only [findOperation, List.find?_append, List.find?_singleton] at h ⊢
  by_cases same : ref = o.caseRef
  · subst same
    simp [h]
  · simp [same, Ne.symm same]

theorem findOperation_update {f : BookingFile} {ref : CaseRef}
    {g : AdminResolutionOperation → AdminResolutionOperation} (hg : ∀ o, (g o).caseRef = o.caseRef)
    (r : CaseRef) :
    (f.updateOperation ref g).findOperation r =
      if r = ref then (f.findOperation r).map g else f.findOperation r := by
  rw [findOperation, updateOperation,
    Rows.find_updateWhere AdminResolutionOperation.caseRef hg r f.operations, findOperation]
  cases found : f.operations.find? (·.caseRef == r) with
  | none => simp
  | some o =>
      have key : o.caseRef = r := by simpa using List.find?_some found
      by_cases same : r = ref <;> simp [key, same]

theorem findOperation_caseRef {f : BookingFile} {ref : CaseRef} {o : AdminResolutionOperation}
    (h : f.findOperation ref = some o) : o.caseRef = ref := by
  simpa using List.find?_some h

theorem findReport_id {f : BookingFile} {id : Nat} {r : Report} (h : f.findReport id = some r) :
    r ∈ f.reports ∧ r.id = id :=
  ⟨List.mem_of_find?_eq_some h, by simpa using List.find?_some h⟩

theorem findCancellation_id {f : BookingFile} {id : Nat} {c : CancellationRequest}
    (h : f.findCancellation id = some c) : c ∈ f.cancellationRequests ∧ c.id = id :=
  ⟨List.mem_of_find?_eq_some h, by simpa using List.find?_some h⟩

theorem findEscalation_id {f : BookingFile} {id : Nat} {e : CompletionEscalation}
    (h : f.findEscalation id = some e) : e ∈ f.completionEscalations ∧ e.id = id :=
  ⟨List.mem_of_find?_eq_some h, by simpa using List.find?_some h⟩

end BookingFile

end ServiceHub
