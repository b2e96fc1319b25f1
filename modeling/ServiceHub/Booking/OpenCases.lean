import ServiceHub.Booking.RefundProtocol

/-! # The way out of a frozen booking

A booking on hold needs a case that somebody can decide, or an unfinished decision. The
transactions that put it on hold create one; a transaction that closes the last one has to
restore the booking, which a declined cancellation request prevents.
-/

namespace ServiceHub

/-- The case that a transaction closes, with its operation. -/
structure Closing where
  report : Option Nat := none
  cancellation : Option Nat := none
  operation : Option CaseRef := none
  deriving Repr, DecidableEq

section OpenRows

variable (x : Closing)

def Closing.leavesReport (r : Report) : Bool := r.status.active && x.report != some r.id

def Closing.leavesCancellation (c : CancellationRequest) : Bool :=
  c.status.undecided && x.cancellation != some c.id

def Closing.leavesOperation (o : AdminResolutionOperation) : Bool :=
  o.retryable && x.operation != some o.caseRef

/-- An open case or an unfinished operation besides the closed ones. -/
def BookingFile.openBesides (f : BookingFile) : Bool :=
  f.reports.any x.leavesReport || f.cancellationRequests.any x.leavesCancellation
    || f.completionEscalations.any (·.status.active) || f.operations.any x.leavesOperation

/-- What is open in the first file is open in the second. -/
structure KeepsOpen (f f' : BookingFile) : Prop where
  reports : Rows.Keeps Report.id x.leavesReport f.reports f'.reports
  cancellations : Rows.Keeps CancellationRequest.id x.leavesCancellation f.cancellationRequests
    f'.cancellationRequests
  escalations : Rows.Keeps CompletionEscalation.id (·.status.active) f.completionEscalations
    f'.completionEscalations
  operations : Rows.Keeps AdminResolutionOperation.caseRef x.leavesOperation f.operations f'.operations

end OpenRows

section Frame

variable {x : Closing} {f f' f'' : BookingFile}

theorem KeepsOpen.refl (f : BookingFile) : KeepsOpen x f f := ⟨.refl _, .refl _, .refl _, .refl _⟩

theorem KeepsOpen.trans (h : KeepsOpen x f f') (h' : KeepsOpen x f' f'') : KeepsOpen x f f'' :=
  ⟨h.reports.trans h'.reports, h.cancellations.trans h'.cancellations,
    h.escalations.trans h'.escalations, h.operations.trans h'.operations⟩

theorem KeepsOpen.openBesides (h : KeepsOpen x f f') (open_ : f.openBesides x = true) :
    f'.openBesides x = true := by
  simp only [BookingFile.openBesides, Bool.or_eq_true] at open_ ⊢
  exact open_.imp (Or.imp (Or.imp h.reports.any h.cancellations.any) h.escalations.any)
    h.operations.any

/-- Only the booking's other rows are written. -/
theorem KeepsOpen.of_eq (reports : f'.reports = f.reports)
    (cancellations : f'.cancellationRequests = f.cancellationRequests)
    (escalations : f'.completionEscalations = f.completionEscalations)
    (operations : f'.operations = f.operations) : KeepsOpen x f f' := by
  constructor
  · rw [reports]; exact .refl _
  · rw [cancellations]; exact .refl _
  · rw [escalations]; exact .refl _
  · rw [operations]; exact .refl _

theorem BookingFile.openBesides_weaken (h : f.openBesides x = true) : f.openBesides {} = true := by
  simp only [BookingFile.openBesides, Bool.or_eq_true, List.any_eq_true, Closing.leavesReport,
    Closing.leavesCancellation, Closing.leavesOperation, Bool.and_eq_true] at h ⊢
  obtain ((⟨r, listed, active, -⟩ | ⟨c, listed, undecided, -⟩) | escalation) | ⟨o, listed, retryable, -⟩
    := h
  · exact .inl (.inl (.inl ⟨r, listed, active, rfl⟩))
  · exact .inl (.inl (.inr ⟨c, listed, undecided, rfl⟩))
  · exact .inl (.inr escalation)
  · exact .inr ⟨o, listed, retryable, rfl⟩

theorem openBesides_report {r : Report} (listed : r ∈ f.reports) (active : r.status.active = true) :
    f.openBesides {} = true := by
  have any : f.reports.any (Closing.leavesReport {}) = true :=
    List.any_eq_true.mpr ⟨r, listed, by simp [Closing.leavesReport, active]⟩
  simp [BookingFile.openBesides, any]

theorem openBesides_cancellation {c : CancellationRequest} (listed : c ∈ f.cancellationRequests)
    (undecided : c.status.undecided = true) : f.openBesides {} = true := by
  have any : f.cancellationRequests.any (Closing.leavesCancellation {}) = true :=
    List.any_eq_true.mpr ⟨c, listed, by simp [Closing.leavesCancellation, undecided]⟩
  simp [BookingFile.openBesides, any]

theorem openBesides_operation {o : AdminResolutionOperation} (listed : o ∈ f.operations)
    (retryable : o.retryable = true) : f.openBesides {} = true := by
  have any : f.operations.any (Closing.leavesOperation {}) = true :=
    List.any_eq_true.mpr ⟨o, listed, by simp [Closing.leavesOperation, retryable]⟩
  simp [BookingFile.openBesides, any]

theorem openBesides_escalation {e : CompletionEscalation} (listed : e ∈ f.completionEscalations)
    (active : e.status.active = true) : f.openBesides x = true := by
  have any : f.completionEscalations.any (·.status.active) = true :=
    List.any_eq_true.mpr ⟨e, listed, active⟩
  simp [BookingFile.openBesides, any]

theorem OperationWritten.mem {ref : CaseRef} {op : AdminResolutionOperation}
    (h : OperationWritten f ref f' op) : op ∈ f'.operations :=
  List.mem_of_find?_eq_some h.found

/-- A written operation is running, the others are untouched. -/
theorem OperationWritten.keepsOpen {ref : CaseRef} {op : AdminResolutionOperation}
    (h : OperationWritten f ref f' op) : KeepsOpen x f f' := by
  obtain rfl | running := h.running
  · exact .refl _
  have key : op.caseRef = ref := BookingFile.findOperation_caseRef h.found
  have listed := h.mem
  have others := h.others
  obtain ⟨ops, rfl⟩ := h.rows
  refine ⟨.refl _, .refl _, .refl _, fun o ho leaves => ?_⟩
  by_cases same : o.caseRef = ref
  · refine ⟨op, listed, key.trans same.symm, ?_⟩
    simp only [Closing.leavesOperation, same, Bool.and_eq_true] at leaves
    simp only [Closing.leavesOperation, key, leaves.2, Bool.and_true, AdminResolutionOperation.retryable,
      running]
    rfl
  · exact ⟨o, others o ho same, rfl, leaves⟩

theorem markStage_keepsOpen {ref : CaseRef} {stage : OperationStage} {op : AdminResolutionOperation}
    (unfinished : stage ≠ .caseFinalized)
    (h : markAdminResolutionStageInTransaction f ref stage = .ok (f', op)) : KeepsOpen x f f' := by
  obtain ⟨_, -, -, written, -⟩ := markAdminResolutionStageInTransaction_ok unfinished h
  exact written.keepsOpen

theorem updateCancellation_keepsOpen {id : Nat} {g : CancellationRequest → CancellationRequest}
    (hg : ∀ c, c.id = id → x.leavesCancellation c = true →
      (g c).id = c.id ∧ x.leavesCancellation (g c) = true) :
    KeepsOpen x f (f.updateCancellation id g) :=
  ⟨.refl _, .update fun c hc => hg c (by simpa using hc), .refl _, .refl _⟩

end Frame

/-- What a request closes: a decline takes the cancellation request out of anyone's hands. -/
def Request.closing : Request → Closing
  | .declineCancellation requestId _ _ => { cancellation := some requestId }
  | _ => {}

section Requests

variable {ctx : Context} {f f' : BookingFile} {c : Commit} {x : Closing}

/-- A frozen booking that stays as it is keeps its way out. -/
theorem KeepsOpen.way_out (h : KeepsOpen x f f') (same : f'.booking.status = f.booking.status)
    (before : f.booking.status.frozen = true → f.openBesides x = true)
    (frozen : f'.booking.status.frozen = true) : f'.openBesides {} = true :=
  BookingFile.openBesides_weaken (h.openBesides (before (same ▸ frozen)))

theorem requestTransaction_way_out {r : Request} (h : requestTransaction ctx r f = .ok c)
    (before : f.booking.status.frozen = true → f.openBesides r.closing = true)
    (frozen : c.file.booking.status.frozen = true) : c.file.openBesides {} = true := by
  cases r with
  | respondToDirectBooking =>
      obtain ⟨-, _, rfl | rfl⟩ := respondToDirectBookingService_ok h <;>
        simp [BookingStatus.frozen] at frozen
  | providerStartJob =>
      obtain ⟨-, ⟨-, -, -, rfl⟩ | ⟨_, -, -, -, -, -, -, rfl⟩⟩ := providerStartJob_ok h <;>
        simp [BookingStatus.frozen] at frozen
  | markJobComplete =>
      obtain rfl | ⟨-, rfl⟩ := markJobComplete_ok h
      · exact before frozen
      · simp [BookingStatus.frozen] at frozen
  | confirmCompletion =>
      obtain ⟨-, -, ⟨-, rfl⟩ | ⟨-, -, -, -, _, -, rfl⟩⟩ := settleCompletedBooking_ok h
      · exact before frozen
      · simp [BookingFile.settled, BookingStatus.frozen] at frozen
  | disputeJob =>
      obtain ⟨-, -, report, _, pending, -, -, -, rfl⟩ := disputeJobService_ok h
      exact openBesides_report (r := report) (by simp) (by simp [pending, ReportStatus.active])
  | createSafetyReport =>
      obtain ⟨-, -, rfl | ⟨report, pending, -, -, ⟨-, rfl⟩ | ⟨-, rfl⟩⟩⟩ := createSafetyReport_ok h
      · exact before frozen
      · exact openBesides_report (r := report) (by simp) (by simp [pending, ReportStatus.active])
      · exact openBesides_report (r := report) (by simp) (by simp [pending, ReportStatus.active])
  | createCompletionEscalation =>
      obtain ⟨awaiting, -, -, rfl | ⟨-, rfl⟩⟩ := createCompletionEscalation_ok h <;>
        simp [awaiting, BookingStatus.frozen] at frozen
  | startModerationReview =>
      obtain ⟨_, _, _, rfl, same | ⟨id, rfl, -, rfl, rfl⟩ | ⟨id, rfl, -, rfl, rfl⟩⟩ :=
        startModerationReview_ok h
      · rw [same] at frozen ⊢
        exact before frozen
      · have keeps : KeepsOpen {} f { f with
            reports := Rows.updateWhere (·.id == id) ({ · with status := .underReview }) f.reports
            cancellationRequests := Rows.updateWhere
              (fun r => r.reportId == some id && r.status == .escalated)
              ({ · with status := .underReview }) f.cancellationRequests } :=
          ⟨.update fun _ _ _ => ⟨rfl, rfl⟩, .update fun _ _ _ => ⟨rfl, rfl⟩, .refl _, .refl _⟩
        exact keeps.way_out rfl before frozen
      · have keeps : KeepsOpen {} f { f with
            completionEscalations := Rows.updateWhere (·.id == id) ({ · with status := .underReview })
              f.completionEscalations } :=
          ⟨.refl _, .refl _, .update fun _ _ _ => ⟨rfl, rfl⟩, .refl _⟩
        exact keeps.way_out rfl before frozen
  | requestCancellation =>
      obtain ⟨-, ⟨_, -, -, -, rfl⟩ | rfl | ⟨-, -, -, -, request, -, -, -, ⟨-, review, -, rfl⟩ |
        ⟨-, pending, -, rfl⟩⟩⟩ := requestCancellation_ok h
      · exact before frozen
      · exact before frozen
      · exact openBesides_cancellation (c := request) (by simp)
          (by simp [review, CancellationStatus.undecided])
      · exact openBesides_cancellation (c := request) (by simp)
          (by simp [pending, CancellationStatus.undecided])
  | declineCancellation id =>
      obtain ⟨-, rfl⟩ := declineCancellationRequest_ok h
      have keeps : KeepsOpen { cancellation := some id } f
          (f.updateCancellation id ({ · with status := .declined })) :=
        updateCancellation_keepsOpen fun c same leaves => by
          simp [Closing.leavesCancellation, same] at leaves
      exact keeps.way_out rfl before frozen
  | approveCancellation id =>
      obtain rfl | ⟨_, claimed, _, -, -, -, claim, ⟨-, rfl⟩ | ⟨-, rfl⟩⟩ := approveCancellationRequest_ok h
      · exact before frozen
      · exact claim.written.keepsOpen.way_out claim.written.sameStatus.1 before frozen
      · have keeps : KeepsOpen {} f
            (claimed.updateCancellation id ({ · with status := .underReview })) :=
          claim.written.keepsOpen.trans (updateCancellation_keepsOpen fun _ _ _ => ⟨rfl, rfl⟩)
        exact keeps.way_out claim.written.sameStatus.1 before frozen
  | escalateCancellation =>
      obtain rfl | ⟨-, -, report, pending, -, -, rfl⟩ := escalateCancellationRequest_ok h
      · exact before frozen
      · exact openBesides_report (r := report) (by simp) (by simp [pending, ReportStatus.active])
  | adminResolveCancellation id =>
      obtain rfl | ⟨_, claimed, _, -, -, claim, ⟨-, rfl⟩ | ⟨-, reportId, -, -, rfl⟩⟩ :=
        claimAdminCancellation_ok h
      · exact before frozen
      · exact claim.written.keepsOpen.way_out claim.written.sameStatus.1 before frozen
      · have reviewed : KeepsOpen {} claimed
            { claimed.updateCancellation id ({ · with status := .underReview }) with
              reports := Rows.updateWhere (fun r => r.id == reportId && r.status.active)
                ({ · with status := .underReview }) claimed.reports } :=
          ⟨.update fun _ _ _ => ⟨rfl, rfl⟩, .update fun _ _ _ => ⟨rfl, rfl⟩, .refl _, .refl _⟩
        exact (claim.written.keepsOpen.trans reviewed).way_out claim.written.sameStatus.1 before frozen
  | resolveAdminReport id =>
      obtain rfl | ⟨_, claimed, _, -, -, -, claim, ⟨-, rfl⟩ | ⟨-, rfl⟩⟩ := claimReport_ok h
      · exact before frozen
      · exact claim.written.keepsOpen.way_out claim.written.sameStatus.1 before frozen
      · have reviewed : KeepsOpen {} claimed
            (claimed.updateReport id ({ · with status := .underReview })) :=
          ⟨.update fun _ _ _ => ⟨rfl, rfl⟩, .refl _, .refl _, .refl _⟩
        exact (claim.written.keepsOpen.trans reviewed).way_out claim.written.sameStatus.1 before frozen
  | resolveCompletionEscalation id _ action =>
      obtain rfl | ⟨_, claimed, _, -, -, claim, ⟨-, rfl⟩ | ⟨-, rfl⟩⟩ := claimEscalation_ok h
      · exact before frozen
      · exact claim.written.keepsOpen.way_out claim.written.sameStatus.1 before frozen
      · have reviewed : KeepsOpen {} claimed (claimed.updateEscalation id
            ({ · with status := .underReview, resolution := some action.code })) :=
          ⟨.refl _, .refl _, .update fun _ _ _ => ⟨rfl, rfl⟩, .refl _⟩
        exact (claim.written.keepsOpen.trans reviewed).way_out claim.written.sameStatus.1 before frozen
  | resolveAdminBooking =>
      obtain rfl | ⟨_, _, claim, h⟩ := claimAdminBooking_ok h
      · exact before frozen
      obtain ⟨-, rfl⟩ | ⟨-, rfl⟩ | ⟨-, -, -, -, rfl⟩ | ⟨-, -, -, -, _, _, marked, moved, rfl⟩ := h
      · exact claim.written.keepsOpen.way_out claim.written.sameStatus.1 before frozen
      · exact claim.written.keepsOpen.way_out claim.written.sameStatus.1 before frozen
      · exact claim.written.keepsOpen.way_out claim.written.sameStatus.1 before frozen
      · obtain ⟨_, -, -, written, -⟩ := markAdminResolutionStageInTransaction_ok (by decide) marked
        exact openBesides_operation written.mem (by simp [moved, AdminResolutionOperation.retryable])

end Requests

/-- What a finalization closes without ending the booking. -/
def Caller.closing (f : BookingFile) : Caller → Option Closing
  | .resolveAdminReport id _ outcome _ =>
      if outcome.financial then none
      else some { report := some id, operation := some (.report id) }
  | .adminResolveCancellationRequest id false _ _ => some {
      cancellation := some id, report := (f.findCancellation id).bind (·.reportId)
      operation := some (.cancellation id) }
  | _ => none

/-- A closed case leaves another way out, or nothing keeps the booking from being restored. -/
def BookingFile.canClose (f : BookingFile) (x : Closing) : Bool :=
  f.openBesides x || f.cancellationRequests.all (·.status != .declined)

section Calls

variable {ctx : Context} {f f' : BookingFile} {c : Commit} {x : Closing} {caller : Caller}
  {l : Lifecycle}

/-- After the restoration a booking that is still on hold has an open case. -/
theorem restore_way_out {closed restored : BookingFile} (e : Encodes closed l)
    (h : restoreBookingIfNoBlockingCases ctx closed = .ok restored)
    (declined : ∀ r ∈ closed.cancellationRequests, r.status ≠ .declined)
    (frozen : restored.booking.status.frozen = true) :
    restored = closed ∧ ((∃ r ∈ closed.reports, r.status.active = true)
      ∨ ∃ r ∈ closed.cancellationRequests, r.status.undecided = true) := by
  obtain ⟨rfl, blocked | thawed | unsaved⟩ | ⟨before, -, -, saved, rfl⟩ :=
    restoreBookingIfNoBlockingCases_ok h
  · refine ⟨rfl, ?_⟩
    by_contra none_open
    rw [not_or] at none_open
    refine blocked ⟨fun r listed => ?_, fun r listed => ?_⟩
    · cases active : r.status.active with
      | false => rfl
      | true => exact absurd ⟨r, listed, active⟩ none_open.1
    · have decided := declined r listed
      have undecided : ¬ r.status.undecided = true := fun h => none_open.2 ⟨r, listed, h⟩
      cases status : r.status <;>
        simp [status, CancellationStatus.undecided, CancellationStatus.active] at decided undecided ⊢
  · simp [thawed] at frozen
  · have saved := unsaved.symm.trans e.before
    obtain ⟨w, rfl⟩ | ⟨w, b, rfl⟩ := e.frozen frozen <;> simp [Lifecycle.before] at saved
  · obtain ⟨w, rfl⟩ := e.saved saved
    cases w <;> simp [BookingFile.restored, Work.status, BookingStatus.frozen] at frozen

theorem completeOperation_keepsOpen {ref : CaseRef} (closed : x.operation = some ref) :
    KeepsOpen x f (completeOperation f ref) := by
  refine ⟨.refl _, .refl _, .refl _, .update fun o same leaves => ?_⟩
  simp only [beq_iff_eq] at same
  simp [Closing.leavesOperation, closed, same] at leaves

/-- A case is closed without ending the booking. -/
theorem close_way_out {closed restored : BookingFile} {ref : CaseRef} (e : Encodes closed l)
    (keeps : KeepsOpen x f closed) (closing : x.operation = some ref)
    (same : closed.booking.status = f.booking.status)
    (declined : (∀ r ∈ f.cancellationRequests, r.status ≠ .declined) →
      ∀ r ∈ closed.cancellationRequests, r.status ≠ .declined)
    (h : restoreBookingIfNoBlockingCases ctx closed = .ok restored)
    (before : f.booking.status.frozen = true → f.canClose x = true)
    (frozen : restored.booking.status.frozen = true) :
    (completeOperation restored ref).openBesides {} = true := by
  have was_frozen : f.booking.status.frozen = true := by
    obtain ⟨rfl, -⟩ | ⟨_, -, was, -⟩ := restoreBookingIfNoBlockingCases_ok h
    · exact same ▸ frozen
    · exact same ▸ was
  have can := before was_frozen
  simp only [BookingFile.canClose, Bool.or_eq_true, List.all_eq_true, bne_iff_ne] at can
  obtain open_ | undeclined := can
  · obtain ⟨rfl, -⟩ | ⟨saved, -, -, hs, rfl⟩ := restoreBookingIfNoBlockingCases_ok h
    · exact BookingFile.openBesides_weaken
        ((keeps.trans (completeOperation_keepsOpen closing)).openBesides open_)
    · obtain ⟨w, rfl⟩ := e.saved hs
      cases w <;> simp [BookingFile.restored, Work.status, BookingStatus.frozen] at frozen
  · obtain ⟨rfl, ⟨r, listed, active⟩ | ⟨r, listed, undecided⟩⟩ :=
      restore_way_out e h (declined undeclined) frozen
    · exact openBesides_report (f := completeOperation _ ref) listed active
    · exact openBesides_cancellation (f := completeOperation _ ref) listed undecided

theorem finalizeCase_way_out (e : Encodes f l) (h : finalizeCase ctx caller f = .ok c)
    (before : f.booking.status.frozen = true → f.openBesides {} = true)
    (closing : ∀ x, caller.closing f = some x → f.booking.status.frozen = true → f.canClose x = true)
    (frozen : c.file.booking.status.frozen = true) : c.file.openBesides {} = true := by
  cases caller with
  | refundBookingPayment => simp [finalizeCase] at h
  | requestCancellation =>
      obtain ⟨canceled, rfl⟩ := finalizeImmediateCancellation_ok h
      simp [BookingFile.updateCancellation, canceled, BookingStatus.frozen] at frozen
  | respondToCancellationRequest =>
      obtain rfl | ⟨canceled, rfl⟩ := finalizeParticipantApproval_ok h
      · exact before frozen
      · simp [completeOperation, closeParticipantCancellationReport, BookingFile.updateOperation,
          BookingFile.updateCancellation, canceled, BookingStatus.frozen] at frozen
  | adminResolveCancellationRequest id approve =>
      obtain rfl | ⟨reportId, closed, _, hclosed, ⟨-, canceled, rfl⟩ | ⟨rfl, restored⟩,
        ⟨request, found, -, linked⟩, rfl⟩ := finalizeAdminCancellation_ok h
      · exact before frozen
      · subst hclosed
        simp [completeOperation, BookingFile.updateOperation, BookingFile.updateReport,
          BookingFile.updateCancellation, canceled, BookingStatus.frozen] at frozen
      · have can := closing ⟨some reportId, some id, some (.cancellation id)⟩
          (by simp [Caller.closing, found, linked])
        have e' : Encodes closed l := e.same (by rw [hclosed]; exact ⟨rfl, rfl, rfl, rfl⟩)
        refine close_way_out e' ?_ rfl (by rw [hclosed]; rfl) ?_ restored can frozen <;> subst hclosed
        · refine ⟨.update fun r same leaves => ?_, .update fun r same leaves => ?_, .refl _, .refl _⟩
          · simp_all [Closing.leavesReport]
          · simp_all [Closing.leavesCancellation]
        · intro undeclined r listed
          obtain ⟨r, old, rfl⟩ := Rows.mem_updateWhere.mp listed
          have := undeclined r old
          split <;> simp_all
  | resolveAdminReport id _ outcome =>
      obtain rfl | ⟨_, closed, _, _, -, -, -, hclosed, ⟨-, valid, rfl⟩ | ⟨-, valid, rfl⟩ |
        ⟨quiet, restored⟩, rfl⟩ := finalizeReport_ok h
      · exact before frozen
      · subst hclosed
        simp [Booking.cancellationValid] at valid
        simp [completeOperation, BookingFile.updateOperation, BookingFile.updateReport, valid.1,
          BookingStatus.frozen] at frozen
      · subst hclosed
        simp [Booking.completionSettled] at valid
        simp [completeOperation, BookingFile.updateOperation, BookingFile.updateReport, valid.1,
          BookingStatus.frozen] at frozen
      · have can := closing ⟨some id, none, some (.report id)⟩ (by simp [Caller.closing, quiet])
        have e' : Encodes closed l := e.same (by rw [hclosed]; exact ⟨rfl, rfl, rfl, rfl⟩)
        refine close_way_out e' ?_ rfl (by rw [hclosed]; rfl) ?_ restored can frozen <;> subst hclosed
        · refine ⟨.update fun r same leaves => ?_, .refl _, .refl _, .refl _⟩
          simp_all [Closing.leavesReport]
        · exact fun undeclined => undeclined
  | resolveCompletionEscalation _ _ action =>
      obtain rfl | ⟨-, released, refunded, awaiting, rfl⟩ := finalizeEscalation_ok h
      · exact before frozen
      · simp only [completeOperation, BookingFile.updateOperation, BookingFile.updateEscalation] at frozen
        cases action with
        | releaseProviderAndComplete =>
            have settled := released rfl
            simp [Booking.completionSettled] at settled
            simp [settled.1, BookingStatus.frozen] at frozen
        | refundSeeker =>
            have settled := refunded rfl
            simp [Booking.cancellationSettled] at settled
            simp [settled.1, BookingStatus.frozen] at frozen
        | keepAwaiting => simp [awaiting rfl, BookingStatus.frozen] at frozen
  | resolveAdminBooking _ outcome =>
      obtain rfl | ⟨canceled, completed, rfl⟩ := finalizeAdminBooking_ok h
      · exact before frozen
      · simp only [completeOperation, BookingFile.updateOperation] at frozen
        cases outcome with
        | cancelBooking =>
            have valid := canceled rfl
            simp [Booking.cancellationValid] at valid
            simp [valid.1, BookingStatus.frozen] at frozen
        | releaseProviderAndComplete => simp [completed rfl, BookingStatus.frozen] at frozen

theorem reserveOutcome_way_out (h : reserveOutcome caller f = .ok c)
    (before : f.booking.status.frozen = true → f.openBesides {} = true)
    (frozen : c.file.booking.status.frozen = true) : c.file.openBesides {} = true := by
  cases caller with
  | refundBookingPayment | requestCancellation | resolveAdminBooking => simp [reserveOutcome] at h
  | respondToCancellationRequest | adminResolveCancellationRequest =>
      obtain ⟨_, _, -, -, -, ⟨-, rfl⟩ | ⟨_, _, -, marked, rfl⟩⟩ :=
        reserveCancellationFinancialOutcome_ok h
      · exact before frozen
      · exact (markStage_keepsOpen (by decide) marked).way_out
          (markStage_sameStatus (by decide) marked).1 before frozen
  | resolveAdminReport =>
      obtain ⟨_, _, -, -, -, ⟨-, rfl⟩ | ⟨_, _, -, marked, rfl⟩⟩ := reserveReportFinancialOutcome_ok h
      · exact before frozen
      · exact (markStage_keepsOpen (by decide) marked).way_out
          (markStage_sameStatus (by decide) marked).1 before frozen
  | resolveCompletionEscalation =>
      obtain ⟨escalation, _, found, review, -, ⟨-, rfl⟩ | ⟨held, _, _, -, hold, marked, rfl⟩⟩ :=
        reserveCompletionFinancialOutcome_ok h
      · exact before frozen
      · have listed : escalation ∈ held.completionEscalations := by
          obtain ⟨-, -, rfl⟩ | ⟨-, rfl⟩ := hold <;> exact (BookingFile.findEscalation_id found).1
        refine BookingFile.openBesides_weaken (x := {})
          ((markStage_keepsOpen (by decide) marked).openBesides ?_)
        exact openBesides_escalation listed (by simp [review, EscalationStatus.active])

theorem transaction_way_out {answer : Answer} {call : Call} (e : Encodes f l)
    (h : call.transaction ctx answer f = .ok c)
    (before : f.booking.status.frozen = true → f.openBesides {} = true)
    (closing : call.stage = .finalize → ∀ x, call.caller.closing f = some x →
      f.booking.status.frozen = true → f.canClose x = true)
    (frozen : c.file.booking.status.frozen = true) : c.file.openBesides {} = true := by
  obtain ⟨caller, stage⟩ := call
  cases stage with
  | reserve => exact reserveOutcome_way_out h before frozen
  | cancelRead => obtain ⟨-, rfl | rfl⟩ := readCancelBooking_ok h <;> exact before frozen
  | preStartCheck =>
      obtain ⟨-, -, rfl⟩ := checkPreStart_ok h
      exact before frozen
  | refundRead =>
      obtain ⟨_, -, rfl⟩ := readRefundBooking_ok h
      exact before frozen
  | refundExisting => obtain ⟨-, -, rfl⟩ | rfl := readExistingRefund_ok h <;> exact before frozen
  | refundIntent =>
      cases answer with
      | intent =>
          obtain ⟨_, -, rfl⟩ := checkRefundIntent_ok h
          exact before frozen
      | _ => simp [Call.transaction] at h
  | refundReserve =>
      obtain ⟨-, -, ⟨_, _, -, -, rfl⟩ | ⟨-, rfl⟩ | ⟨-, -, rfl⟩⟩ := reserveRefund_ok h
      · exact before frozen
      · exact before frozen
      · exact (KeepsOpen.of_eq rfl rfl rfl rfl).way_out rfl before frozen
  | refundFinalize =>
      obtain ⟨-, -, rfl⟩ | ⟨-, -, -, -, rfl⟩ := finalizeRefund_ok h
      · exact before frozen
      · simp [BookingFile.refunded, BookingStatus.frozen] at frozen
  | refundCreate | refundCaught | markFailed => simp [Call.transaction] at h
  | cancelSettle =>
      obtain ⟨-, -, _, ⟨-, -, -, rfl⟩ | ⟨-, rfl⟩⟩ := settleCancellation_ok h
      · simp [BookingStatus.frozen] at frozen
      · exact (KeepsOpen.of_eq rfl rfl rfl rfl).way_out rfl before frozen
  | settle =>
      obtain ⟨_, settled, rfl⟩ := settleByAdmin_ok h
      obtain ⟨-, -, ⟨-, rfl⟩ | ⟨-, -, -, -, _, -, rfl⟩⟩ := settleCompletedBooking_ok settled
      · exact before frozen
      · simp [BookingFile.settled, BookingStatus.frozen] at frozen
  | markEstablished | markDecisionReady =>
      obtain ⟨_, _, _, -, marked, rfl⟩ := markStage_ok h
      exact (markStage_keepsOpen (by decide) marked).way_out
        (markStage_sameStatus (by decide) marked).1 before frozen
  | finalize => exact finalizeCase_way_out e h before (closing rfl) frozen

end Calls

section Runs

variable {s : BookingSystem} {a : Action} {f' : BookingFile} {g' : Option GatewayRefund}
  {next : Option Call} {l : Lifecycle}

/-- The case that an action closes although the booking may stay on hold. -/
def BookingSystem.closing (s : BookingSystem) : Action → Option Closing
  | .step _ (.resume k _) => (s.calls[k]?).bind fun c =>
      if c.stage = .finalize then c.caller.closing s.file else none
  | _ => none

/-- A decline leaves another open case, and the closing of a case leaves one or meets no declined
    cancellation request. -/
def leavesWayOut (s : BookingSystem) (a : Action) : Bool :=
  !s.file.booking.status.frozen
    || ((match a with
        | .step _ (.request r) => s.file.openBesides r.closing
        | _ => true)
      && (s.closing a).all s.file.canClose)

theorem Event.way_out (e : Encodes s.file l) (h : Event s a f' g' next)
    (leaves : leavesWayOut s a = true)
    (before : s.file.booking.status.frozen = true → s.file.openBesides {} = true)
    (frozen : f'.booking.status.frozen = true) : f'.openBesides {} = true := by
  simp only [leavesWayOut, Bool.or_eq_true, Bool.not_eq_true', Bool.and_eq_true] at leaves
  cases h with
  | requested run =>
      refine requestTransaction_way_out run (fun was => ?_) frozen
      simpa [was] using (leaves.resolve_left (by simp [was])).1
  | @committed _ _ _ call _ found run =>
      refine transaction_way_out e run before (fun final x closing was => ?_) frozen
      have closes := (leaves.resolve_left (by simp [was])).2
      simpa [BookingSystem.closing, found, final, closing] using closes
  | renumbered => exact (KeepsOpen.of_eq rfl rfl rfl rfl).way_out rfl before frozen
  | refundCaught => exact (KeepsOpen.of_eq rfl rfl rfl rfl).way_out rfl before frozen
  | @markedFailed _ _ _ _ ref =>
      have keeps : KeepsOpen {} s.file (markAdminResolutionFailed s.file ref) := by
        refine ⟨.refl _, .refl _, .refl _, .update fun o _ leaves => ?_⟩
        split
        · refine ⟨rfl, ?_⟩
          simp only [Closing.leavesOperation, Bool.and_eq_true] at leaves ⊢
          exact ⟨rfl, leaves.2⟩
        · exact ⟨rfl, leaves⟩
      exact keeps.way_out rfl before frozen
  | _ => exact before frozen

/-- A booking on hold leaves it by its end, or with the status it was put on hold with. -/
theorem Refines.thawed {f : BookingFile} (e : Encodes f l) (h : Refines l f')
    (was : f.booking.status.frozen = true) (thawed : f'.booking.status.frozen = false) :
    f'.booking.status = .completed ∨ f'.booking.status = .canceled
      ∨ some f'.booking.status = f.booking.statusBeforeDispute := by
  obtain ⟨l', e', change⟩ := h
  rw [e'.status, e.before]
  have stays : l' ≠ l := by
    rintro rfl
    rw [e'.status, ← e.status, was] at thawed
    simp at thawed
  obtain rfl | step := change
  · exact absurd rfl stays
  obtain ⟨w, rfl⟩ | ⟨w, b, rfl⟩ := e.frozen was <;> cases step with
  | confirm => exact .inl rfl
  | cancel => exact .inr (.inl rfl)
  | _ => exact .inr (.inr rfl)

/-- While no declined cancellation request gets in the way, a booking on hold has an open case or an
    unfinished decision; when the last one closes, the booking ends or is restored. -/
theorem frozen_has_way_out (h : refundMachine.ReachableUnder (fun s a => leavesWayOut s a = true) s) :
    (s.file.booking.status.frozen = true → s.file.openBesides {} = true)
      ∧ ∀ a s', leavesWayOut s a = true → bookingNext s a = some s' →
          s.file.booking.status.frozen = true → s'.file.openBesides {} = false →
          s'.file.booking.status = .completed ∨ s'.file.booking.status = .canceled
            ∨ some s'.file.booking.status = s.file.booking.statusBeforeDispute := by
  have way_out : ∀ s, refundMachine.ReachableUnder (fun s a => leavesWayOut s a = true) s →
      s.file.booking.status.frozen = true → s.file.openBesides {} = true := by
    intro s h
    refine (Coupled.reachableUnder (fun f new frozen => ?_) ?_ h :
      Coupled (fun f _ => f.booking.status.frozen = true → f.openBesides {} = true)
        (fun _ _ _ => True) s).file
    · cases new <;> simp [Terms.cashRequest, Terms.cashOffer, Terms.paidCapture,
        BookingStatus.frozen] at frozen
    · intro s a f' g' next reached hs leaves event
      obtain ⟨l, e, -⟩ := event.reachable_refines reached
      exact ⟨event.way_out e leaves hs.file, fun _ _ _ => trivial, fun _ _ => trivial⟩
  refine ⟨way_out s h, fun a s' leaves hn was closed => ?_⟩
  obtain ⟨next, event, -⟩ := BookingSystem.next_event hn
  obtain ⟨l, e, refines⟩ := event.reachable_refines h
  refine refines.thawed e was ?_
  by_contra frozen
  simp [way_out s' (h.next leaves hn) (by simpa using frozen)] at closed

/-- A started job, put on hold by a safety report of the seeker. -/
def sampleHold : List Step :=
  [.request (.providerStartJob 2), .request (.createSafetyReport 1 .noShow 0 none)]

theorem frozen_has_way_out_reported : ∃ s,
    refundMachine.execUnder leavesWayOut samplePaid (sampleHold.map (.step sampleContext)) = some s
    ∧ s.file.booking.status = .disputed ∧ s.file.openBesides {} = true := by
  obtain ⟨s, run, disputed⟩ := sample_any
    (o := refundMachine.execUnder leavesWayOut samplePaid (sampleHold.map (.step sampleContext)))
    (p := fun s => s.file.booking.status = .disputed) (by decide)
  refine ⟨s, run, disputed, (frozen_has_way_out ⟨_, samplePaid_initial, ?_⟩).1 ?_⟩
  · exact .of_execUnder (fun _ _ h => h) run
  · simp [disputed, BookingStatus.frozen]

/-- The provider declines the seeker's cancellation request while a safety report holds the booking,
    and the administrator dismisses the report. -/
def sampleStuck : List Step :=
  [.request (.providerStartJob 2), .request (.requestCancellation 1),
    .request (.createSafetyReport 1 .noShow 0 none), .request (.declineCancellation 0 2 5),
    .request (.resolveAdminReport 1 9 .dismiss .none 5), .resume 0 .none, .resume 0 .none]

theorem declined_request_stuck : ∃ s, sampleRun sampleStuck = some s ∧ refundMachine.Reachable s
    ∧ s.calls = [] ∧ s.file.booking.status = .disputed ∧ s.file.booking.paymentStatus = .frozenHeld
    ∧ s.file.openBesides {} = false := by
  obtain ⟨s, run, stuck⟩ := sample_any (o := sampleRun sampleStuck)
    (p := fun s => s.calls = [] ∧ s.file.booking.status = .disputed
      ∧ s.file.booking.paymentStatus = .frozenHeld ∧ s.file.openBesides {} = false) (by decide)
  exact ⟨s, run, sampleRun_reachable run, stuck⟩

end Runs

end ServiceHub
