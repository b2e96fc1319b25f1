import ServiceHub.Booking.File

/-! # Guards and bookkeeping shared by the resolution services

`booking-lifecycle`, `case-resolution` and `admin-resolution-operation`: which cases
block a financial outcome, when a frozen booking is restored, and how the durable
operation row of a decision moves from claimed to finalized.
-/

namespace ServiceHub

open Guard

def conflict (message code : String) : HttpError := httpError message 409 (some code)

/-- `assertNoRefundInProgress`. -/
def assertNoRefundInProgress (f : BookingFile) : Except HttpError Unit :=
  rejectIf (f.refund.map (·.status) = some .processing)
    (conflict "A refund for this booking is currently being processed" "BOOKING_REFUND_IN_PROGRESS")

structure CaseExclusions where
  reportId : Option Nat := none
  cancellationRequestId : Option Nat := none
  completionEscalationId : Option Nat := none

namespace BookingFile

def blockingReports (f : BookingFile) (exclude : Option Nat) : Nat :=
  f.reports.countP fun r => r.status.active && some r.id != exclude

def blockingCancellations (f : BookingFile) (exclude : Option Nat) : Nat :=
  f.cancellationRequests.countP fun c => c.status.active && some c.id != exclude

def blockingEscalations (f : BookingFile) (exclude : Option Nat) : Nat :=
  f.completionEscalations.countP fun e => e.status.active && some e.id != exclude

end BookingFile

def assertNoOtherBlockingCases (f : BookingFile) (exclude : CaseExclusions) :
    Except HttpError Unit :=
  rejectIf (f.blockingReports exclude.reportId + f.blockingCancellations exclude.cancellationRequestId
      + f.blockingEscalations exclude.completionEscalationId > 0)
    (conflict "Resolve the other active booking case before applying a financial outcome"
      "OTHER_BLOCKING_CASES")

/-- Status PROCESSING or FAILED_RETRYABLE. -/
def AdminResolutionOperation.retryable (o : AdminResolutionOperation) : Bool :=
  o.status == .processing || o.status == .failedRetryable

/-- A retryable operation at one of the `FINANCIAL_RESERVATION_STAGES`. -/
def AdminResolutionOperation.reserved (o : AdminResolutionOperation) : Bool :=
  o.retryable && (o.stage == .financialEffectReserved || o.stage == .financialEffectEstablished)

def assertNoFinancialResolutionReserved (f : BookingFile) (operation : Option CaseRef) :
    Except HttpError Unit :=
  rejectIf (f.operations.any fun o => o.reserved && some o.caseRef != operation)
    (conflict "A financial resolution is already reserved for this booking"
      "FINANCIAL_RESOLUTION_IN_PROGRESS")

def BookingStatus.frozen : BookingStatus → Bool
  | .disputed | .underReview => true
  | _ => false

/-- `paymentMethod === "On-site Cash" ? "UNPAID" : status`. -/
def PaymentMethod.paid (m : PaymentMethod) (status : PaymentStatus) : PaymentStatus :=
  match m with
  | .onsiteCash => .unpaid
  | .gcash => status

/-- The booking written back to its recorded status. -/
def BookingFile.restored (f : BookingFile) (before : BookingStatus) : BookingFile :=
  { f with
    booking := { f.booking with
      status := before
      statusBeforeDispute := none
      paymentStatus := f.booking.paymentMethod.paid .paidHeld }
    queue := f.queue.map fun q =>
      { q with paymentStatus := f.booking.paymentMethod.paid .paidHeld } }

/-- Completion escalations are not counted here, declined cancellations are. -/
def restoreBookingIfNoBlockingCases (ctx : Context) (f : BookingFile) : Except HttpError BookingFile :=
  if f.blockingReports none + f.blockingCancellations none > 0 then
    return f
  else if ¬ f.booking.status.frozen then
    return f
  else match f.booking.statusBeforeDispute with
    | none => return f
    | some before => do
      rejectIf (before = .ongoing ∧ ctx.ongoingElsewhere = true) uniqueViolation
      return f.restored before

/-- `beginAdminResolution`: the first call fixes outcome and penalty, later calls resume. -/
def beginAdminResolution (f : BookingFile) (caseRef : CaseRef) (outcome : RequestedOutcome)
    (penalty : RequestedPenalty) : Except HttpError (BookingFile × AdminResolutionOperation) :=
  match f.findOperation caseRef with
  | some existing => do
      rejectIf (existing.requestedOutcome ≠ outcome ∨ existing.requestedPenalty ≠ penalty)
        (conflict "This case already has a different administrator decision in progress"
          "RESOLUTION_OPERATION_CONFLICT")
      if existing.status = .completed ∨ existing.status = .failedNonretryable
          ∨ existing.stage = .caseFinalized then
        return (f, existing)
      else return (f.updateOperation caseRef ({ · with status := .processing }),
        { existing with status := .processing })
  | none =>
      let created : AdminResolutionOperation :=
        { caseRef, requestedOutcome := outcome, requestedPenalty := penalty }
      return ({ f with operations := f.operations ++ [created] }, created)

def AdminResolutionOperation.hasEstablishedFinancialEffect (o : AdminResolutionOperation) : Bool :=
  o.stage == .financialEffectEstablished || o.stage == .caseFinalized

/-- `markAdminResolutionStageInTransaction`: the stage never moves backwards. -/
def markAdminResolutionStageInTransaction (f : BookingFile) (caseRef : CaseRef)
    (stage : OperationStage) : Except HttpError (BookingFile × AdminResolutionOperation) := do
  let current ← orThrow (f.findOperation caseRef)
    (conflict "Resolution operation not found" "RESOLUTION_OPERATION_CONFLICT")
  if current.status = .completed ∨ current.status = .failedNonretryable
      ∨ current.stage = .caseFinalized then
    return (f, current)
  else if stage.rank < current.stage.rank then
    return (f, current)
  else return (f.updateOperation caseRef ({ · with stage, status := .processing }),
    { current with stage, status := .processing })

/-- `markAdminResolutionFailed`. -/
def markAdminResolutionFailed (f : BookingFile) (caseRef : CaseRef) : BookingFile :=
  f.updateOperation caseRef fun o =>
    if o.retryable && o.stage != .caseFinalized then { o with status := .failedRetryable } else o

/-- The settled state that the recovery of a release looks for. -/
def BookingFile.released (f : BookingFile) : Bool :=
  f.booking.status == .completed
    && (f.booking.paymentStatus == .released || f.booking.paymentStatus == .cashConfirmed)
    && f.completedService.any fun c =>
      c.paymentStatus == f.booking.paymentStatus && some c.finalPrice == f.booking.agreedAmount

def BookingFile.cancelled (f : BookingFile) : Bool :=
  f.booking.status == .canceled && match f.booking.paymentMethod with
    | .onsiteCash => f.booking.paymentStatus == .unpaid
    | .gcash => f.booking.paymentStatus == .refunded
        && f.refund.any fun r => r.paymongoRefundId.isSome

/-- Recover a settlement that committed before its operation marker did. -/
def reconcileReservedFinancialEffect (f : BookingFile) (operation : AdminResolutionOperation)
    (release : Bool) : Except HttpError (BookingFile × AdminResolutionOperation) :=
  if operation.stage ≠ .financialEffectReserved then
    return (f, operation)
  else if (if release then f.released else f.cancelled) then
    markAdminResolutionStageInTransaction f operation.caseRef .financialEffectEstablished
  else
    return (f, operation)

/-- No transaction writes the row again. -/
def AdminResolutionOperation.finished (o : AdminResolutionOperation) : Prop :=
  o.status = .completed ∨ o.status = .failedNonretryable ∨ o.stage = .caseFinalized

/-- How the row of an operation changes until its case is finalized. -/
inductive AdminResolutionOperation.Advances (o : AdminResolutionOperation) :
    AdminResolutionOperation → Prop where
  | same : o.Advances o
  | forward {stage : OperationStage} (running : ¬ o.finished) (ahead : o.stage.rank ≤ stage.rank)
      (unfinished : stage ≠ .caseFinalized) : o.Advances { o with stage, status := .processing }

theorem AdminResolutionOperation.Advances.keys {o o' : AdminResolutionOperation}
    (h : o.Advances o') : o'.caseRef = o.caseRef ∧ o'.requestedOutcome = o.requestedOutcome
      ∧ o'.requestedPenalty = o.requestedPenalty := by
  cases h <;> exact ⟨rfl, rfl, rfl⟩

theorem AdminResolutionOperation.Advances.trans {o p q : AdminResolutionOperation}
    (h : o.Advances p) (h' : p.Advances q) : o.Advances q := by
  cases h' with
  | same => exact h
  | forward running ahead unfinished =>
      cases h with
      | same => exact .forward running ahead unfinished
      | forward running₀ ahead₀ _ => exact .forward running₀ (Nat.le_trans ahead₀ ahead) unfinished

/-- Only the operation row under `ref` is written, and `op` is what it becomes. A finished
    operation is left as it is, any other is running afterwards. -/
structure OperationWritten (f : BookingFile) (ref : CaseRef) (f' : BookingFile)
    (op : AdminResolutionOperation) : Prop where
  rows : ∃ ops, f' = { f with operations := ops }
  lookup : ∀ r, f'.findOperation r = if r = ref then some op else f.findOperation r
  others : ∀ o ∈ f.operations, o.caseRef ≠ ref → o ∈ f'.operations
  keys : f'.operations.map (·.caseRef) = f.operations.map (·.caseRef)
    ∨ (f.findOperation ref = none
      ∧ f'.operations.map (·.caseRef) = f.operations.map (·.caseRef) ++ [ref])
  running : f' = f ∨ op.status = .processing

theorem OperationWritten.refl {f : BookingFile} {ref : CaseRef} {op : AdminResolutionOperation}
    (h : f.findOperation ref = some op) : OperationWritten f ref f op where
  rows := ⟨f.operations, rfl⟩
  lookup r := by split <;> simp_all
  others _ listed _ := listed
  keys := .inl rfl
  running := .inl rfl

theorem OperationWritten.found {f f' : BookingFile} {ref : CaseRef} {op : AdminResolutionOperation}
    (h : OperationWritten f ref f' op) : f'.findOperation ref = some op := by
  rw [h.lookup, if_pos rfl]

theorem OperationWritten.trans {f f' f'' : BookingFile} {ref : CaseRef}
    {op op' : AdminResolutionOperation} (h : OperationWritten f ref f' op)
    (h' : OperationWritten f' ref f'' op') : OperationWritten f ref f'' op' where
  rows := by
    obtain ⟨ops, rfl⟩ := h.rows
    obtain ⟨ops', rfl⟩ := h'.rows
    exact ⟨ops', rfl⟩
  lookup r := by
    rw [h'.lookup r, h.lookup r]
    split <;> rfl
  others o listed other := h'.others o (h.others o listed other) other
  keys := by
    obtain kept | ⟨absent, added⟩ := h'.keys
    · rw [kept]
      exact h.keys
    · rw [h.found] at absent
      cases absent
  running := by
    obtain same | running := h'.running
    · subst same
      obtain rfl : op = op' := Option.some.inj (h.found.symm.trans h'.found)
      exact h.running
    · exact .inr running

theorem OperationWritten.update {f : BookingFile} {ref : CaseRef} {o : AdminResolutionOperation}
    {g : AdminResolutionOperation → AdminResolutionOperation} (hg : ∀ o, (g o).caseRef = o.caseRef)
    (running : (g o).status = .processing) (h : f.findOperation ref = some o) :
    OperationWritten f ref (f.updateOperation ref g) (g o) where
  rows := ⟨_, rfl⟩
  lookup r := by
    rw [BookingFile.findOperation_update hg]
    split <;> simp_all
  others p listed other := Rows.mem_updateWhere.mpr ⟨p, listed, by simp [other]⟩
  keys := .inl (Rows.map_updateWhere hg f.operations)
  running := .inr running

theorem OperationWritten.create {f : BookingFile} {ref : CaseRef} {op : AdminResolutionOperation}
    (key : op.caseRef = ref) (running : op.status = .processing) (h : f.findOperation ref = none) :
    OperationWritten f ref { f with operations := f.operations ++ [op] } op where
  rows := ⟨_, rfl⟩
  lookup r := by
    subst key
    exact BookingFile.findOperation_append h r
  others _ listed _ := List.mem_append_left _ listed
  keys := by
    subst key
    exact .inr ⟨h, List.map_append⟩
  running := .inr running

section Inversion

variable {ctx : Context} {f f' : BookingFile} {ref : CaseRef} {op : AdminResolutionOperation}

theorem assertNoRefundInProgress_ok {u : Unit} :
    assertNoRefundInProgress f = .ok u ↔ f.refund.map (·.status) ≠ some .processing := by
  simp [assertNoRefundInProgress]

theorem blockingReports_zero {exclude : Option Nat} : f.blockingReports exclude = 0 ↔
    ∀ r ∈ f.reports, r.status.active = true → exclude = some r.id := by
  simp only [BookingFile.blockingReports, List.countP_eq_zero, Bool.and_eq_true, bne_iff_ne, ne_eq,
    not_and, not_not, eq_comm (a := exclude)]

theorem blockingCancellations_zero {exclude : Option Nat} : f.blockingCancellations exclude = 0 ↔
    ∀ c ∈ f.cancellationRequests, c.status.active = true → exclude = some c.id := by
  simp only [BookingFile.blockingCancellations, List.countP_eq_zero, Bool.and_eq_true, bne_iff_ne, ne_eq,
    not_and, not_not, eq_comm (a := exclude)]

theorem blockingEscalations_zero {exclude : Option Nat} : f.blockingEscalations exclude = 0 ↔
    ∀ e ∈ f.completionEscalations, e.status.active = true → exclude = some e.id := by
  simp only [BookingFile.blockingEscalations, List.countP_eq_zero, Bool.and_eq_true, bne_iff_ne, ne_eq,
    not_and, not_not, eq_comm (a := exclude)]

/-- Every active case of the booking is an excluded one. -/
structure OnlyBlockedBy (f : BookingFile) (exclude : CaseExclusions) : Prop where
  reports : ∀ r ∈ f.reports, r.status.active = true → exclude.reportId = some r.id
  cancellations : ∀ c ∈ f.cancellationRequests, c.status.active = true →
    exclude.cancellationRequestId = some c.id
  escalations : ∀ e ∈ f.completionEscalations, e.status.active = true →
    exclude.completionEscalationId = some e.id

theorem assertNoOtherBlockingCases_ok {exclude : CaseExclusions} {u : Unit} :
    assertNoOtherBlockingCases f exclude = .ok u ↔ OnlyBlockedBy f exclude := by
  simp only [assertNoOtherBlockingCases, rejectIf_ok, gt_iff_lt, Nat.not_lt, Nat.le_zero_eq,
    Nat.add_eq_zero_iff, blockingReports_zero, blockingCancellations_zero, blockingEscalations_zero]
  exact ⟨fun ⟨⟨hr, hc⟩, he⟩ => ⟨hr, hc, he⟩, fun h => ⟨⟨h.reports, h.cancellations⟩, h.escalations⟩⟩

theorem assertNoFinancialResolutionReserved_ok {operation : Option CaseRef} {u : Unit} :
    assertNoFinancialResolutionReserved f operation = .ok u ↔
      ∀ o ∈ f.operations, o.reserved = true → operation = some o.caseRef := by
  simp only [assertNoFinancialResolutionReserved, rejectIf_ok, List.any_eq_true, Bool.and_eq_true,
    bne_iff_ne, ne_eq, not_exists, not_and, not_not, eq_comm (a := operation)]

/-- A decision is claimed: its operation is new or resumed, with the same outcome and penalty. -/
structure Claimed (f : BookingFile) (ref : CaseRef) (outcome : RequestedOutcome)
    (penalty : RequestedPenalty) (claimed : BookingFile) (op : AdminResolutionOperation) : Prop where
  written : OperationWritten f ref claimed op
  outcome_eq : op.requestedOutcome = outcome
  penalty_eq : op.requestedPenalty = penalty
  origin : (f.findOperation ref = none ∧ op = ⟨ref, outcome, penalty, .processing, .claimed⟩)
    ∨ ∃ o, f.findOperation ref = some o ∧ o.Advances op
  resumed : ∀ o, f.findOperation ref = some o → op.stage = o.stage
    ∨ f.booking.status = .completed ∨ f.booking.status = .canceled

theorem beginAdminResolution_ok {outcome : RequestedOutcome} {penalty : RequestedPenalty}
    (h : beginAdminResolution f ref outcome penalty = .ok (f', op)) :
    Claimed f ref outcome penalty f' op := by
  simp only [beginAdminResolution] at h
  cases found : f.findOperation ref with
  | none =>
      simp only [found, pure_ok, Prod.mk.injEq] at h
      obtain ⟨rfl, rfl⟩ := h
      exact ⟨.create rfl rfl found, rfl, rfl, .inl ⟨found, rfl⟩, by simp [found]⟩
  | some o =>
      simp only [found, rejectIf_bind_ok, not_or, not_not, ite_ok, pure_ok, Prod.mk.injEq] at h
      obtain ⟨⟨same_outcome, same_penalty⟩, ⟨-, rfl, rfl⟩ | ⟨running, rfl, rfl⟩⟩ := h
      · exact ⟨.refl found, same_outcome, same_penalty, .inr ⟨_, found, .same⟩, fun _ again =>
          .inl (congrArg _ (Option.some.inj (found.symm.trans again)))⟩
      · have unfinished : o.stage ≠ .caseFinalized := running.2.2
        exact ⟨.update (fun _ => rfl) rfl found, same_outcome, same_penalty,
          .inr ⟨_, found, .forward (by simpa [AdminResolutionOperation.finished] using running)
            (Nat.le_refl _) unfinished⟩, fun _ again =>
          .inl (by rw [← Option.some.inj (found.symm.trans again)])⟩

theorem Claimed.found {outcome : RequestedOutcome} {penalty : RequestedPenalty}
    (h : Claimed f ref outcome penalty f' op) : f'.findOperation ref = some op :=
  h.written.found

theorem Claimed.caseRef {outcome : RequestedOutcome} {penalty : RequestedPenalty}
    (h : Claimed f ref outcome penalty f' op) : op.caseRef = ref :=
  BookingFile.findOperation_caseRef h.found

/-- The operation is finished or already further, and stays; or it moves to the stage. -/
theorem markAdminResolutionStageInTransaction_ok {stage : OperationStage}
    (unfinished : stage ≠ .caseFinalized)
    (h : markAdminResolutionStageInTransaction f ref stage = .ok (f', op)) :
    ∃ o, f.findOperation ref = some o ∧ o.Advances op ∧ OperationWritten f ref f' op
      ∧ ((f' = f ∧ op = o ∧ (o.finished ∨ stage.rank < o.stage.rank))
        ∨ (¬ o.finished ∧ o.stage.rank ≤ stage.rank ∧ op = { o with stage, status := .processing })) := by
  simp only [markAdminResolutionStageInTransaction, orThrow_bind_ok, ite_ok, pure_ok,
    Prod.mk.injEq] at h
  obtain ⟨o, found, ⟨finished, rfl, rfl⟩ | ⟨running, h⟩⟩ := h
  · exact ⟨o, found, .same, .refl found, .inl ⟨rfl, rfl, .inl finished⟩⟩
  · obtain ⟨ahead, rfl, rfl⟩ | ⟨behind, rfl, rfl⟩ := h
    · exact ⟨o, found, .same, .refl found, .inl ⟨rfl, rfl, .inr ahead⟩⟩
    · exact ⟨o, found, .forward running (Nat.not_lt.mp behind) unfinished,
        .update (fun _ => rfl) rfl found, .inr ⟨running, Nat.not_lt.mp behind, rfl⟩⟩

/-- The recovery of an interrupted settlement only moves a claimed operation forward, and only
    when the settled state is there. -/
theorem reconcileReservedFinancialEffect_ok {release : Bool} {outcome : RequestedOutcome}
    {penalty : RequestedPenalty} {claimed : BookingFile} {op' : AdminResolutionOperation}
    (begun : Claimed f ref outcome penalty claimed op)
    (h : reconcileReservedFinancialEffect claimed op release = .ok (f', op')) :
    Claimed f ref outcome penalty f' op'
      ∧ (op' = op ∨ (if release then claimed.released else claimed.cancelled) = true) := by
  simp only [reconcileReservedFinancialEffect, ite_ok, pure_ok, Prod.mk.injEq] at h
  obtain ⟨-, rfl, rfl⟩ | ⟨reserved, ⟨settled, h⟩ | ⟨-, rfl, rfl⟩⟩ := h
  · exact ⟨begun, .inl rfl⟩
  · rw [begun.caseRef] at h
    obtain ⟨o, found, advances, written, -⟩ :=
      markAdminResolutionStageInTransaction_ok (by decide) h
    obtain rfl : op = o := Option.some.inj (begun.found.symm.trans found)
    have keys := advances.keys
    refine ⟨⟨begun.written.trans written, keys.2.1.trans begun.outcome_eq,
      keys.2.2.trans begun.penalty_eq, ?_, fun _ _ => .inr ?_⟩, .inr settled⟩
    rotate_left
    · obtain ⟨_, rfl⟩ := begun.written.rows
      cases release with
      | true =>
          simp only [if_true, BookingFile.released, Bool.and_eq_true, beq_iff_eq] at settled
          exact .inl settled.1.1
      | false =>
          simp only [Bool.false_eq_true, if_false, BookingFile.cancelled, Bool.and_eq_true, beq_iff_eq] at settled
          exact .inr settled.1
    obtain ⟨-, rfl⟩ | ⟨o, ho, before⟩ := begun.origin
    · simp at reserved
    · exact .inr ⟨o, ho, before.trans advances⟩
  · exact ⟨begun, .inl rfl⟩

/-- No active report and no active (also no declined) cancellation request. -/
structure Unblocked (f : BookingFile) : Prop where
  reports : ∀ r ∈ f.reports, r.status.active = false
  cancellations : ∀ c ∈ f.cancellationRequests, c.status.active = false

theorem blocking_zero_iff_unblocked :
    f.blockingReports none + f.blockingCancellations none = 0 ↔ Unblocked f := by
  simp only [Nat.add_eq_zero_iff, blockingReports_zero, blockingCancellations_zero, reduceCtorEq,
    imp_false, Bool.not_eq_true]
  exact ⟨fun ⟨hr, hc⟩ => ⟨hr, hc⟩, fun h => ⟨h.reports, h.cancellations⟩⟩

theorem restoreBookingIfNoBlockingCases_ok
    (h : restoreBookingIfNoBlockingCases ctx f = .ok f') :
    (f' = f ∧ (¬ Unblocked f ∨ f.booking.status.frozen = false ∨ f.booking.statusBeforeDispute = none))
      ∨ ∃ before, Unblocked f ∧ f.booking.status.frozen = true
          ∧ f.booking.statusBeforeDispute = some before ∧ f' = f.restored before := by
  simp only [restoreBookingIfNoBlockingCases, ite_ok, pure_ok, gt_iff_lt, Nat.pos_iff_ne_zero,
    ne_eq, blocking_zero_iff_unblocked, not_not] at h
  obtain ⟨blocked, rfl⟩ | ⟨unblocked, ⟨thawed, rfl⟩ | ⟨frozen, h⟩⟩ := h
  · exact .inl ⟨rfl, .inl blocked⟩
  · exact .inl ⟨rfl, .inr (.inl (by simpa using thawed))⟩
  · cases before : f.booking.statusBeforeDispute with
    | none =>
        simp only [before, pure_ok] at h
        exact .inl ⟨h.symm, .inr (.inr rfl)⟩
    | some b =>
        simp only [before, rejectIf_bind_ok, pure_ok] at h
        exact .inr ⟨b, unblocked, frozen, rfl, h.2.symm⟩

end Inversion

end ServiceHub
