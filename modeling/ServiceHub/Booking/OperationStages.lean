import Mathlib.Data.List.Nodup
import ServiceHub.Booking.OpenCases
import ServiceHub.Lib.Threads

/-! # The row of an administrator's decision

A decision has one operation row. Its outcome and penalty are fixed by the first call, its
stage moves forward, and a completed row stays completed, whatever calls run on the case.
-/

namespace ServiceHub

open Guard

/-- The decision is the same, its stage has not gone back and its completion stays. -/
structure AdminResolutionOperation.Evolves (o o' : AdminResolutionOperation) : Prop where
  caseRef : o'.caseRef = o.caseRef
  outcome : o'.requestedOutcome = o.requestedOutcome
  penalty : o'.requestedPenalty = o.requestedPenalty
  stage : o.stage.rank ≤ o'.stage.rank
  completed : o.status = .completed → o'.status = .completed

/-- One row a case afterwards, and every row before has evolved into one of them. -/
structure OperationsForward (ops ops' : List AdminResolutionOperation) : Prop where
  unique : (ops'.map (·.caseRef)).Nodup
  rows : ∀ o ∈ ops, ∃ o' ∈ ops', o.Evolves o'

theorem OperationStage.rank_le_finalized (s : OperationStage) :
    s.rank ≤ OperationStage.caseFinalized.rank := by
  cases s <;> decide

section Rows

variable {o o' o'' : AdminResolutionOperation} {ops ops' ops'' : List AdminResolutionOperation}

theorem AdminResolutionOperation.Evolves.refl (o : AdminResolutionOperation) : o.Evolves o :=
  ⟨rfl, rfl, rfl, Nat.le_refl _, id⟩

theorem AdminResolutionOperation.Evolves.trans (h : o.Evolves o') (h' : o'.Evolves o'') :
    o.Evolves o'' where
  caseRef := h'.caseRef.trans h.caseRef
  outcome := h'.outcome.trans h.outcome
  penalty := h'.penalty.trans h.penalty
  stage := Nat.le_trans h.stage h'.stage
  completed done := h'.completed (h.completed done)

theorem AdminResolutionOperation.Advances.evolves (h : o.Advances o') : o.Evolves o' := by
  cases h with
  | same => exact .refl o
  | forward running ahead =>
      refine ⟨rfl, rfl, rfl, ahead, fun done => ?_⟩
      exact absurd (.inl done) running

theorem OperationsForward.refl (unique : (ops.map (·.caseRef)).Nodup) : OperationsForward ops ops :=
  ⟨unique, fun o listed => ⟨o, listed, .refl o⟩⟩

theorem OperationsForward.trans (h : OperationsForward ops ops') (h' : OperationsForward ops' ops'') :
    OperationsForward ops ops'' := by
  refine ⟨h'.unique, fun o listed => ?_⟩
  obtain ⟨o', listed', evolves⟩ := h.rows o listed
  obtain ⟨o'', listed'', evolves'⟩ := h'.rows o' listed'
  exact ⟨o'', listed'', evolves.trans evolves'⟩

/-- An update of rows that lets each of them evolve. -/
theorem OperationsForward.update {p : AdminResolutionOperation → Bool}
    {g : AdminResolutionOperation → AdminResolutionOperation} (unique : (ops.map (·.caseRef)).Nodup)
    (hg : ∀ o, (g o).caseRef = o.caseRef) (forward : ∀ o ∈ ops, p o = true → o.Evolves (g o)) :
    OperationsForward ops (Rows.updateWhere p g ops) := by
  refine ⟨by rw [Rows.map_updateWhere hg]; exact unique, fun o listed => ?_⟩
  refine ⟨_, Rows.mem_updateWhere.mpr ⟨o, listed, rfl⟩, ?_⟩
  split
  · exact forward o listed (by assumption)
  · exact .refl o

theorem OperationsForward.create (unique : (ops.map (·.caseRef)).Nodup)
    (absent : o.caseRef ∉ ops.map (·.caseRef)) : OperationsForward ops (ops ++ [o]) := by
  refine ⟨?_, fun o listed => ⟨o, List.mem_append_left _ listed, .refl o⟩⟩
  rw [List.map_append]
  refine List.nodup_append.mpr ⟨unique, by simp, fun x listed y last same => ?_⟩
  obtain rfl : y = o.caseRef := by simpa using last
  exact absent (same ▸ listed)

theorem mem_caseRefs {ref : CaseRef} :
    ref ∉ ops.map (·.caseRef) ↔ ops.find? (·.caseRef == ref) = none := by
  simp [List.find?_eq_none]

theorem find_caseRef (unique : (ops.map (·.caseRef)).Nodup) (listed : o ∈ ops) :
    ops.find? (·.caseRef == o.caseRef) = some o := by
  cases found : ops.find? (·.caseRef == o.caseRef) with
  | none =>
      have := List.find?_eq_none.mp found o listed
      simp at this
  | some p =>
      have same : p.caseRef = o.caseRef := by simpa using List.find?_some found
      rw [List.inj_on_of_nodup_map unique (List.mem_of_find?_eq_some found) listed same]

end Rows

/-- The operations of a booking file with one row a case. -/
def BookingFile.Forward (f f' : BookingFile) : Prop :=
  (f.operations.map (·.caseRef)).Nodup → OperationsForward f.operations f'.operations

section Transactions

variable {ctx : Context} {f f' f'' : BookingFile} {c : Commit} {caller : Caller}

namespace BookingFile.Forward

theorem of_eq (h : f'.operations = f.operations) : f.Forward f' := by
  intro unique
  rw [h]
  exact .refl unique

theorem trans (h : f.Forward f') (h' : f'.Forward f'') : f.Forward f'' :=
  fun unique => (h unique).trans (h' (h unique).unique)

end BookingFile.Forward

/-- The one written row has evolved. -/
theorem OperationWritten.forward {ref : CaseRef} {op : AdminResolutionOperation}
    (h : OperationWritten f ref f' op)
    (evolves : ∀ o, f.findOperation ref = some o → o.Evolves op) : f.Forward f' := by
  intro unique
  refine ⟨?_, fun o listed => ?_⟩
  · obtain kept | ⟨absent, added⟩ := h.keys
    · rw [kept]
      exact unique
    · rw [added]
      refine List.nodup_append.mpr ⟨unique, by simp, fun x listed y last same => ?_⟩
      obtain rfl : y = ref := by simpa using last
      exact mem_caseRefs.mpr absent (same ▸ listed)
  · by_cases same : o.caseRef = ref
    · refine ⟨op, List.mem_of_find?_eq_some h.found, evolves o ?_⟩
      rw [← same]
      exact find_caseRef unique listed
    · exact ⟨o, h.others o listed same, .refl o⟩

theorem Claimed.forward {ref : CaseRef} {outcome : RequestedOutcome} {penalty : RequestedPenalty}
    {op : AdminResolutionOperation} (h : Claimed f ref outcome penalty f' op) : f.Forward f' := by
  refine h.written.forward fun o found => ?_
  obtain ⟨absent, -⟩ | ⟨o', found', advances⟩ := h.origin
  · rw [absent] at found
    cases found
  · obtain rfl := Option.some.inj (found'.symm.trans found)
    exact advances.evolves

theorem markStage_forward {ref : CaseRef} {stage : OperationStage} {op : AdminResolutionOperation}
    (unfinished : stage ≠ .caseFinalized)
    (h : markAdminResolutionStageInTransaction f ref stage = .ok (f', op)) : f.Forward f' := by
  obtain ⟨o, found, advances, written, -⟩ := markAdminResolutionStageInTransaction_ok unfinished h
  refine written.forward fun o' found' => ?_
  obtain rfl := Option.some.inj (found.symm.trans found')
  exact advances.evolves

theorem completeOperation_forward (f : BookingFile) (ref : CaseRef) :
    f.Forward (completeOperation f ref) := by
  intro unique
  exact .update unique (fun _ => rfl) fun o _ _ =>
    ⟨rfl, rfl, rfl, o.stage.rank_le_finalized, fun _ => rfl⟩

theorem markAdminResolutionFailed_forward (f : BookingFile) (ref : CaseRef) :
    f.Forward (markAdminResolutionFailed f ref) := by
  intro unique
  refine .update unique (fun o => by split <;> rfl) fun o _ _ => ?_
  split
  · rename_i retryable
    refine ⟨rfl, rfl, rfl, Nat.le_refl _, fun done => ?_⟩
    simp [AdminResolutionOperation.retryable, done] at retryable
  · exact .refl o

theorem restoreBookingIfNoBlockingCases_operations
    (h : restoreBookingIfNoBlockingCases ctx f = .ok f') : f'.operations = f.operations := by
  obtain ⟨rfl, -⟩ | ⟨before, -, -, -, rfl⟩ := restoreBookingIfNoBlockingCases_ok h <;> rfl

theorem requestTransaction_forward {r : Request} (h : requestTransaction ctx r f = .ok c) :
    f.Forward c.file := by
  cases r with
  | respondToDirectBooking =>
      obtain ⟨-, _, rfl | rfl⟩ := respondToDirectBookingService_ok h <;> exact .of_eq rfl
  | providerStartJob =>
      obtain ⟨-, ⟨-, -, -, rfl⟩ | ⟨_, -, -, -, -, -, -, rfl⟩⟩ := providerStartJob_ok h <;>
        exact .of_eq rfl
  | markJobComplete => obtain rfl | ⟨-, rfl⟩ := markJobComplete_ok h <;> exact .of_eq rfl
  | confirmCompletion =>
      obtain ⟨-, -, ⟨-, rfl⟩ | ⟨-, -, -, -, _, -, rfl⟩⟩ := settleCompletedBooking_ok h <;>
        exact .of_eq rfl
  | disputeJob =>
      obtain ⟨-, -, _, _, -, -, -, -, rfl⟩ := disputeJobService_ok h
      exact .of_eq rfl
  | createSafetyReport =>
      obtain ⟨-, -, rfl | ⟨_, -, -, -, ⟨-, rfl⟩ | ⟨-, rfl⟩⟩⟩ := createSafetyReport_ok h <;>
        exact .of_eq rfl
  | createCompletionEscalation =>
      obtain ⟨-, -, -, rfl | ⟨-, rfl⟩⟩ := createCompletionEscalation_ok h <;> exact .of_eq rfl
  | startModerationReview =>
      obtain ⟨_, _, _, rfl, -⟩ := startModerationReview_ok h
      exact .of_eq rfl
  | requestCancellation =>
      obtain ⟨-, ⟨_, -, -, -, rfl⟩ | rfl | ⟨-, -, -, -, _, -, -, -, ⟨-, -, -, rfl⟩ | ⟨-, -, -, rfl⟩⟩⟩ :=
        requestCancellation_ok h <;> exact .of_eq rfl
  | declineCancellation =>
      obtain ⟨-, rfl⟩ := declineCancellationRequest_ok h
      exact .of_eq rfl
  | approveCancellation =>
      obtain rfl | ⟨_, _, _, -, -, -, claim, ⟨-, rfl⟩ | ⟨-, rfl⟩⟩ := approveCancellationRequest_ok h
      · exact .of_eq rfl
      · exact claim.forward
      · exact claim.forward
  | escalateCancellation =>
      obtain rfl | ⟨-, -, _, -, -, -, rfl⟩ := escalateCancellationRequest_ok h <;> exact .of_eq rfl
  | adminResolveCancellation =>
      obtain rfl | ⟨_, _, _, -, -, claim, ⟨-, rfl⟩ | ⟨-, _, -, -, rfl⟩⟩ := claimAdminCancellation_ok h
      · exact .of_eq rfl
      · exact claim.forward
      · exact claim.forward
  | resolveAdminReport =>
      obtain rfl | ⟨_, _, _, -, -, -, claim, ⟨-, rfl⟩ | ⟨-, rfl⟩⟩ := claimReport_ok h
      · exact .of_eq rfl
      · exact claim.forward
      · exact claim.forward
  | resolveCompletionEscalation =>
      obtain rfl | ⟨_, _, _, -, -, claim, ⟨-, rfl⟩ | ⟨-, rfl⟩⟩ := claimEscalation_ok h
      · exact .of_eq rfl
      · exact claim.forward
      · exact claim.forward
  | resolveAdminBooking =>
      obtain rfl | ⟨claimed, _, claim, h⟩ := claimAdminBooking_ok h
      · exact .of_eq rfl
      obtain ⟨-, rfl⟩ | ⟨-, rfl⟩ | ⟨-, -, -, -, rfl⟩ | ⟨-, -, -, -, _, _, marked, -, rfl⟩ := h
      · exact claim.forward
      · exact claim.forward
      · exact claim.forward
      · have held : claimed.Forward claimed.heldForAdmin := .of_eq rfl
        exact claim.forward.trans (held.trans (markStage_forward (by decide) marked))

theorem reserveOutcome_forward (h : reserveOutcome caller f = .ok c) : f.Forward c.file := by
  cases caller with
  | refundBookingPayment | requestCancellation | resolveAdminBooking => simp [reserveOutcome] at h
  | respondToCancellationRequest | adminResolveCancellationRequest =>
      obtain ⟨_, _, -, -, -, ⟨-, rfl⟩ | ⟨_, _, -, marked, rfl⟩⟩ :=
        reserveCancellationFinancialOutcome_ok h
      · exact .of_eq rfl
      · exact markStage_forward (by decide) marked
  | resolveAdminReport =>
      obtain ⟨_, _, -, -, -, ⟨-, rfl⟩ | ⟨_, _, -, marked, rfl⟩⟩ := reserveReportFinancialOutcome_ok h
      · exact .of_eq rfl
      · exact markStage_forward (by decide) marked
  | resolveCompletionEscalation =>
      obtain ⟨_, _, -, -, -, ⟨-, rfl⟩ | ⟨held, _, _, -, hold, marked, rfl⟩⟩ :=
        reserveCompletionFinancialOutcome_ok h
      · exact .of_eq rfl
      · have kept : f.Forward held := by
          obtain ⟨-, -, rfl⟩ | ⟨-, rfl⟩ := hold <;> exact .of_eq rfl
        exact kept.trans (markStage_forward (by decide) marked)

theorem finalizeCase_forward (h : finalizeCase ctx caller f = .ok c) : f.Forward c.file := by
  cases caller with
  | refundBookingPayment => simp [finalizeCase] at h
  | requestCancellation =>
      obtain ⟨-, rfl⟩ := finalizeImmediateCancellation_ok h
      exact .of_eq rfl
  | respondToCancellationRequest =>
      obtain rfl | ⟨-, rfl⟩ := finalizeParticipantApproval_ok h
      · exact .of_eq rfl
      · exact completeOperation_forward _ _
  | adminResolveCancellationRequest =>
      obtain rfl | ⟨_, closed, restored, rfl, ⟨-, -, rfl⟩ | ⟨-, back⟩, -, rfl⟩ :=
        finalizeAdminCancellation_ok h
      · exact .of_eq rfl
      · exact completeOperation_forward _ _
      · have same := restoreBookingIfNoBlockingCases_operations back
        have kept : f.Forward restored := .of_eq same
        exact kept.trans (completeOperation_forward _ _)
  | resolveAdminReport =>
      obtain rfl | ⟨_, _, restored, _, -, -, -, rfl, ⟨-, -, rfl⟩ | ⟨-, -, rfl⟩ | ⟨-, back⟩, rfl⟩ :=
        finalizeReport_ok h
      · exact .of_eq rfl
      · exact completeOperation_forward _ _
      · exact completeOperation_forward _ _
      · have same := restoreBookingIfNoBlockingCases_operations back
        have kept : f.Forward restored := .of_eq same
        exact kept.trans (completeOperation_forward _ _)
  | resolveCompletionEscalation =>
      obtain rfl | ⟨-, -, -, -, rfl⟩ := finalizeEscalation_ok h
      · exact .of_eq rfl
      · exact completeOperation_forward _ _
  | resolveAdminBooking =>
      obtain rfl | ⟨-, -, rfl⟩ := finalizeAdminBooking_ok h
      · exact .of_eq rfl
      · exact completeOperation_forward _ _

theorem transaction_forward {answer : Answer} {call : Call}
    (h : call.transaction ctx answer f = .ok c) : f.Forward c.file := by
  obtain ⟨caller, stage⟩ := call
  cases stage with
  | reserve => exact reserveOutcome_forward h
  | cancelRead => obtain ⟨-, rfl | rfl⟩ := readCancelBooking_ok h <;> exact .of_eq rfl
  | preStartCheck =>
      obtain ⟨-, -, rfl⟩ := checkPreStart_ok h
      exact .of_eq rfl
  | refundRead =>
      obtain ⟨_, -, rfl⟩ := readRefundBooking_ok h
      exact .of_eq rfl
  | refundExisting => obtain ⟨-, -, rfl⟩ | rfl := readExistingRefund_ok h <;> exact .of_eq rfl
  | refundIntent =>
      cases answer with
      | intent =>
          obtain ⟨_, -, rfl⟩ := checkRefundIntent_ok h
          exact .of_eq rfl
      | _ => simp [Call.transaction] at h
  | refundReserve =>
      obtain ⟨-, -, ⟨_, _, -, -, rfl⟩ | ⟨-, rfl⟩ | ⟨-, -, rfl⟩⟩ := reserveRefund_ok h <;>
        exact .of_eq rfl
  | refundFinalize =>
      obtain ⟨-, -, rfl⟩ | ⟨-, -, -, -, rfl⟩ := finalizeRefund_ok h <;> exact .of_eq rfl
  | refundCreate | refundCaught | markFailed => simp [Call.transaction] at h
  | cancelSettle =>
      obtain ⟨-, -, _, ⟨-, -, -, rfl⟩ | ⟨-, rfl⟩⟩ := settleCancellation_ok h <;> exact .of_eq rfl
  | settle =>
      obtain ⟨_, settled, rfl⟩ := settleByAdmin_ok h
      obtain ⟨-, -, ⟨-, rfl⟩ | ⟨-, -, -, -, _, -, rfl⟩⟩ := settleCompletedBooking_ok settled <;>
        exact .of_eq rfl
  | markEstablished | markDecisionReady =>
      obtain ⟨_, _, _, -, marked, rfl⟩ := markStage_ok h
      exact markStage_forward (by decide) marked
  | finalize => exact finalizeCase_forward h

end Transactions

theorem Event.forward {s : BookingSystem} {a : Action} {f' : BookingFile}
    {g' : Option GatewayRefund} {next : Option Call} (h : Event s a f' g' next) :
    s.file.Forward f' := by
  cases h with
  | requested run => exact requestTransaction_forward run
  | committed _ run => exact transaction_forward run
  | @markedFailed _ _ _ _ ref => exact markAdminResolutionFailed_forward _ ref
  | _ => exact .of_eq rfl

/-! ## One statement at a time

`markAdminResolutionStage` and `markAdminResolutionFailed` take no lock, so the functions that
write an operation row are also run here statement by statement, in any interleaving.
-/

/-- The next statement of a function that writes an operation row, with what it has read. -/
inductive OperationStatement where
  | begin (ref : CaseRef) (outcome : RequestedOutcome) (penalty : RequestedPenalty)
  | create (ref : CaseRef) (outcome : RequestedOutcome) (penalty : RequestedPenalty)
  | restart (existing : AdminResolutionOperation)
  | mark (ref : CaseRef) (stage : OperationStage)
  | markUpdate (stage : OperationStage) (current : AdminResolutionOperation)
  /-- A finalization reads the operation and completes it by a plain update. -/
  | finalize (ref : CaseRef)
  | complete (ref : CaseRef)
  | markFailed (ref : CaseRef)
  deriving Repr, DecidableEq

structure OperationTable where
  operations : List AdminResolutionOperation := []
  calls : List OperationStatement := []
  deriving Repr, DecidableEq

/-- Execute a statement: the rows and the next statement, if any. -/
def OperationStatement.run (ops : List AdminResolutionOperation) :
    OperationStatement → List AdminResolutionOperation × Option OperationStatement
  | .begin ref outcome penalty =>
      (ops, match ops.find? (·.caseRef == ref) with
        | none => some (.create ref outcome penalty)
        | some existing =>
            if existing.requestedOutcome ≠ outcome ∨ existing.requestedPenalty ≠ penalty then none
            else if existing.status = .completed ∨ existing.status = .failedNonretryable
                ∨ existing.stage = .caseFinalized then none
            else some (.restart existing))
  | .create ref outcome penalty =>
      -- the unique index on the case
      if ops.any (·.caseRef == ref) then (ops, none)
      else (ops ++ [{ caseRef := ref, requestedOutcome := outcome, requestedPenalty := penalty }], none)
  | .restart existing =>
      (Rows.updateWhere
        (fun o => o.caseRef == existing.caseRef && o.retryable && o.stage == existing.stage)
        ({ · with status := .processing }) ops, none)
  | .mark ref stage =>
      (ops, (ops.find? (·.caseRef == ref)).bind fun current =>
        if current.status = .completed ∨ current.status = .failedNonretryable
            ∨ current.stage = .caseFinalized then none
        else if stage.rank < current.stage.rank then none
        else some (.markUpdate stage current))
  | .markUpdate stage current =>
      (Rows.updateWhere
        (fun o => o.caseRef == current.caseRef && o.stage == current.stage && o.retryable)
        ({ · with stage, status := .processing }) ops, none)
  | .finalize ref =>
      (ops, (ops.find? (·.caseRef == ref)).bind fun operation =>
        if operation.status = .completed then none else some (.complete ref))
  | .complete ref =>
      (Rows.updateWhere (·.caseRef == ref) ({ · with status := .completed, stage := .caseFinalized })
        ops, none)
  | .markFailed ref =>
      (Rows.updateWhere (fun o => o.caseRef == ref && o.retryable && o.stage != .caseFinalized)
        ({ · with status := .failedRetryable }) ops, none)

inductive OperationStep where
  | call (first : OperationStatement)
  | resume (k : Nat)
  | crash (k : Nat)
  deriving Repr, DecidableEq

/-- The statements that start a function. -/
def OperationStatement.entry : OperationStatement → Bool
  | .begin _ _ _ | .mark _ _ | .finalize _ | .markFailed _ => true
  | _ => false

def OperationTable.step (s : OperationTable) : OperationStep → Option OperationTable
  | .call first => if first.entry then some { s with calls := s.calls ++ [first] } else none
  | .resume k => (s.calls[k]?).map fun statement =>
      let (operations, next) := statement.run s.operations
      { operations, calls := Threads.proceed s.calls k next }
  | .crash k => if k < s.calls.length then some { s with calls := Threads.proceed s.calls k none } else none

/-- Any number of administrators and retries, on any cases. -/
def operationMachine : Machine OperationTable OperationStep where
  initial s := s.operations = [] ∧ s.calls = []
  next := OperationTable.step

/-- The compare-and-set of a stage that is not behind the one it has read. -/
def OperationStatement.ahead : OperationStatement → Prop
  | .markUpdate stage current => current.stage.rank ≤ stage.rank
  | _ => True

section Statements

variable {ops ops' : List AdminResolutionOperation} {statement next : OperationStatement}
  {s t : OperationTable}

theorem OperationStatement.run_forward (unique : (ops.map (·.caseRef)).Nodup)
    (ahead : statement.ahead) : OperationsForward ops (statement.run ops).1 := by
  cases statement with
  | begin | mark | finalize => exact .refl unique
  | create ref outcome penalty =>
      simp only [OperationStatement.run]
      split
      · exact .refl unique
      · rename_i absent
        exact .create unique (by simpa using absent)
  | restart existing =>
      refine .update unique (fun _ => rfl) fun o _ unfinished => ?_
      refine ⟨rfl, rfl, rfl, Nat.le_refl _, fun done => ?_⟩
      simp [AdminResolutionOperation.retryable, done] at unfinished
  | markUpdate stage current =>
      refine .update unique (fun _ => rfl) fun o _ unfinished => ?_
      simp only [Bool.and_eq_true, beq_iff_eq] at unfinished
      obtain ⟨⟨-, same⟩, retryable⟩ := unfinished
      refine ⟨rfl, rfl, rfl, same ▸ ahead, fun done => ?_⟩
      simp [AdminResolutionOperation.retryable, done] at retryable
  | complete ref =>
      exact .update unique (fun _ => rfl) fun o _ _ =>
        ⟨rfl, rfl, rfl, o.stage.rank_le_finalized, fun _ => rfl⟩
  | markFailed ref =>
      refine .update unique (fun _ => rfl) fun o _ unfinished => ?_
      refine ⟨rfl, rfl, rfl, Nat.le_refl _, fun done => ?_⟩
      simp [AdminResolutionOperation.retryable, done] at unfinished

theorem OperationStatement.run_ahead (h : (statement.run ops).2 = some next) : next.ahead := by
  cases statement with
  | mark ref stage =>
      obtain ⟨current, -, goes⟩ := Option.bind_eq_some_iff.mp h
      split at goes
      · cases goes
      split at goes
      · cases goes
      · rename_i behind
        obtain rfl := Option.some.inj goes
        exact Nat.not_lt.mp behind
  | begin ref outcome penalty =>
      simp only [OperationStatement.run] at h
      split at h
      · obtain rfl := Option.some.inj h
        trivial
      split at h
      · cases h
      split at h
      · cases h
      · obtain rfl := Option.some.inj h
        trivial
  | finalize ref =>
      obtain ⟨operation, -, goes⟩ := Option.bind_eq_some_iff.mp h
      split at goes
      · cases goes
      · obtain rfl := Option.some.inj goes
        trivial
  | create =>
      simp only [OperationStatement.run] at h
      split at h <;> cases h
  | restart | markUpdate | complete | markFailed => cases h

/-- One row a case, and every compare-and-set in flight is ahead of what it has read. -/
abbrev OperationTable.Consistent (s : OperationTable) : Prop :=
  Threads.Coupled (fun ops => (ops.map (·.caseRef)).Nodup) (fun _ c => c.ahead) s.operations s.calls

theorem OperationTable.step_forward {a : OperationStep} (h : s.Consistent) (hn : s.step a = some t) :
    OperationsForward s.operations t.operations ∧ t.Consistent := by
  have kept : ∀ calls : List OperationStatement, (∀ c ∈ calls, c ∈ s.calls) →
      OperationsForward s.operations s.operations
        ∧ ({ s with calls } : OperationTable).Consistent :=
    fun calls left => ⟨.refl h.shared, h.shared, fun c hc => h.calls c (left c hc)⟩
  cases a with
  | call first =>
      simp only [OperationTable.step] at hn
      split at hn
      · rename_i entry
        obtain rfl := Option.some.inj hn
        refine ⟨.refl h.shared, h.shared, fun c hc => ?_⟩
        obtain old | new := List.mem_append.mp hc
        · exact h.calls c old
        · obtain rfl : c = first := by simpa using new
          cases c <;> trivial
      · cases hn
  | resume k =>
      obtain ⟨statement, found, rfl⟩ := Option.map_eq_some_iff.mp hn
      have forward := statement.run_forward h.shared (h.calls _ (List.mem_of_getElem? found))
      refine ⟨forward, h.preserved ⟨forward.unique, fun _ _ ahead => ahead, fun c hc => ?_⟩
        fun c hc => Threads.mem_proceed hc⟩
      exact statement.run_ahead hc
  | crash k =>
      simp only [OperationTable.step] at hn
      split at hn
      · obtain rfl := Option.some.inj hn
        exact kept _ fun c hc => (Threads.mem_proceed hc).resolve_right (by simp)
      · cases hn

theorem operationTable_consistent (h : operationMachine.Reachable s) : s.Consistent := by
  refine h.invariant (fun s start => ?_) fun s a s' consistent hn => (OperationTable.step_forward consistent hn).2
  obtain ⟨empty, idle⟩ := start
  exact ⟨by simp [empty], by simp [idle]⟩

end Statements

theorem operations_unique {s : BookingSystem} (h : refundMachine.Reachable s) :
    (s.file.operations.map (·.caseRef)).Nodup := by
  refine h.invariant (I := fun s => (s.file.operations.map (·.caseRef)).Nodup) (fun s start => ?_)
    fun s a s' unique hn => ?_
  · obtain ⟨created, -⟩ := start
    simp [created.caseless.1]
  · obtain ⟨next, event, -⟩ := BookingSystem.next_event hn
    exact (event.forward unique).unique

/-- The operation rows of a booking, and those of any functions interleaved statement by statement,
    only move forward along a run: one row a case, outcome and penalty fixed, no earlier stage, no
    completed row reopened. -/
theorem operations_move_forward :
    (∀ s t, refundMachine.Reachable s → Machine.RunUnder refundMachine (fun _ _ => True) s t →
      OperationsForward s.file.operations t.file.operations)
    ∧ ∀ s t, operationMachine.Reachable s → Machine.RunUnder operationMachine (fun _ _ => True) s t →
      OperationsForward s.operations t.operations := by
  constructor
  · intro s t reached run
    refine Machine.ReachableUnder.related (R := fun s t =>
      OperationsForward s.file.operations t.file.operations)
      (fun s reached => .refl (operations_unique reached)) (fun _ _ _ => OperationsForward.trans)
      (fun s a s' reached _ hn => ?_) reached run
    obtain ⟨next, event, -⟩ := BookingSystem.next_event hn
    exact event.forward (operations_unique reached)
  · intro s t reached run
    refine Machine.ReachableUnder.related (R := fun s t =>
      OperationsForward s.operations t.operations)
      (fun s reached => .refl (operationTable_consistent reached).shared)
      (fun _ _ _ => OperationsForward.trans) (fun s a s' reached _ hn => ?_) reached run
    exact (OperationTable.step_forward (operationTable_consistent reached) hn).1

/-- A report on a started job that two administrators dismiss at the same time. -/
def sampleDismissal : List Step :=
  sampleHold ++ [.request (.resolveAdminReport 0 9 .dismiss .none 5),
    .request (.resolveAdminReport 0 8 .dismiss .none 5), .resume 0 .none, .resume 0 .none]

/-- A decision that is completed while a second call is about to mark its stage. -/
def sampleDecisions : List OperationStep :=
  [.call (.begin (.report 0) .dismiss .none), .resume 0, .resume 0,
    .call (.mark (.report 0) .decisionReady), .call (.finalize (.report 0)),
    .resume 0, .resume 1, .resume 1]

def sampleDecided (calls : List OperationStatement) : OperationTable where
  operations := [⟨.report 0, .dismiss, .none, .completed, .caseFinalized⟩]
  calls

theorem operations_move_forward_completed :
    (∃ s t, sampleRun sampleDismissal = some s
      ∧ refundMachine.exec s [.step sampleContext (.resume 0 .none)] = some t
      ∧ (s.file.operations.map (·.status)) = [.completed]
      ∧ OperationsForward s.file.operations t.file.operations)
    ∧ ∃ s t, operationMachine.exec {} sampleDecisions = some s
      ∧ operationMachine.exec s [.call (.markFailed (.report 0)), .resume 1, .resume 0] = some t
      ∧ (s.operations.map (·.status)) = [.completed] ∧ OperationsForward s.operations t.operations := by
  constructor
  · obtain ⟨s, run, completed, proceeds⟩ := sample_any (o := sampleRun sampleDismissal)
      (p := fun s => (s.file.operations.map (·.status)) = [.completed]
        ∧ (refundMachine.exec s [.step sampleContext (.resume 0 .none)]).isSome = true) (by decide)
    obtain ⟨t, next⟩ := Option.isSome_iff_exists.mp proceeds
    exact ⟨s, t, run, next, completed,
      operations_move_forward.1 s t (sampleRun_reachable run) (.of_exec next)⟩
  · have decided : operationMachine.exec {} sampleDecisions
        = some (sampleDecided [.markUpdate .decisionReady ⟨.report 0, .dismiss, .none, .processing,
          .claimed⟩]) := by decide
    have late : operationMachine.exec (sampleDecided [.markUpdate .decisionReady
          ⟨.report 0, .dismiss, .none, .processing, .claimed⟩])
        [.call (.markFailed (.report 0)), .resume 1, .resume 0] = some (sampleDecided []) := by decide
    exact ⟨_, _, decided, late, rfl,
      operations_move_forward.2 _ _ (.of_exec ⟨rfl, rfl⟩ decided) (.of_exec late)⟩

end ServiceHub
