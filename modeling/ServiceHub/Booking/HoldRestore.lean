import ServiceHub.Booking.Routes

/-! # Freeze and restore

A dispute or a safety report holds a booking until its last open case is closed. When
administrators close the cases without ending the booking, the last closing brings back the
columns of the booking and of its queue row, unless a cancellation request waits for the
participants.
-/

namespace ServiceHub

/-- A cancellation case that administrators decide. -/
def CancellationRequest.escalatedCase (c : CancellationRequest) : Bool :=
  c.reportId.isSome && (c.status == .escalated || c.status == .underReview)

/-- An active cancellation request that only the participants can bring further. -/
def CancellationRequest.withParticipants (c : CancellationRequest) : Bool :=
  c.status.active && !c.escalatedCase

namespace BookingFile

/-- A case is open that an administrator decides. -/
def openForAdmin (f : BookingFile) : Bool :=
  f.reports.any (·.status.active) || f.cancellationRequests.any (·.escalatedCase)

def withParticipants (f : BookingFile) : List CancellationRequest :=
  f.cancellationRequests.filter (·.withParticipants)

end BookingFile

/-- The decision closes its case and leaves the booking alive. -/
def Caller.nonTerminal : Caller → Bool
  | .resolveAdminReport _ _ outcome _ => !outcome.financial
  | .adminResolveCancellationRequest _ approve _ _ => !approve
  | _ => false

def Request.freezes : Request → Bool
  | .disputeJob _ _ | .createSafetyReport _ _ _ _ => true
  | _ => false

/-- A further report on the booking on hold, or a step of an administrator who reviews a case or
    closes it without ending the booking. -/
def BookingSystem.closesCases (s : BookingSystem) : Action → Bool
  | .step _ (.request (.createSafetyReport _ _ _ _)) => s.file.booking.status.frozen
  | .step _ (.request (.startModerationReview _)) => true
  | .step _ (.request (.resolveAdminReport _ _ outcome _ _)) => !outcome.financial
  | .step _ (.request (.adminResolveCancellation _ approve _ _ _)) => !approve
  | .step _ (.request _) | .step _ (.refund _) => false
  | .step _ (.resume k _) => (s.calls[k]?).any (·.caller.nonTerminal)
  | .step _ (.crash _) | .renumber _ _ _ => true

/-- The columns that a hold writes are back. -/
structure RestoredTo (f f' : BookingFile) : Prop where
  status : f'.booking.status = f.booking.status
  paymentStatus : f'.booking.paymentStatus = f.booking.paymentStatus
  started : f'.booking.started = f.booking.started
  before : f'.booking.statusBeforeDispute = none
  queue : f'.queue.map (fun q => (q.paymentStatus, q.status))
    = f.queue.map fun q => (q.paymentStatus, q.status)

/-- What a transaction that ends no booking does to the hold. -/
inductive Closes (f f' : BookingFile) : Prop where
  | kept (status : SameStatus f f')
      (blocked : f.booking.status.frozen = true → f.booking.statusBeforeDispute ≠ none →
        ¬ Unblocked f → ¬ Unblocked f')
      (free : f.booking.status.frozen = false → Unblocked f → Unblocked f')
      (participants : f'.withParticipants = f.withParticipants)
  | restored {before} (frozen : f.booking.status.frozen = true)
      (saved : f.booking.statusBeforeDispute = some before) (after : f'.booking.status = before)
      (unblocked : Unblocked f') (participants : f'.withParticipants = f.withParticipants)

section Transactions

variable {ctx : Context} {f f' : BookingFile} {c : Commit} {caller : Caller}

theorem unblocked_iff : Unblocked f ↔ f.openForAdmin = false ∧ f.withParticipants = [] := by
  simp only [BookingFile.openForAdmin, BookingFile.withParticipants, Bool.or_eq_false_iff,
    List.any_eq_false, List.filter_eq_nil_iff, CancellationRequest.withParticipants, Bool.not_eq_true,
    Bool.and_eq_false_iff, Bool.not_eq_false']
  constructor
  · intro ⟨reports, requests⟩
    refine ⟨⟨reports, fun q listed => ?_⟩, fun q listed => .inl (requests q listed)⟩
    have inactive := requests q listed
    cases status : q.status <;> simp_all [CancellationRequest.escalatedCase, CancellationStatus.active]
  · intro ⟨⟨reports, decided⟩, waiting⟩
    refine ⟨reports, fun q listed => (waiting q listed).resolve_right ?_⟩
    simp [decided q listed]

theorem blocked_of_report {r : Report} (listed : r ∈ f.reports) (active : r.status.active = true) :
    ¬ Unblocked f := by
  intro unblocked
  simp [unblocked.reports r listed] at active

theorem blocked_of_cancellation {q : CancellationRequest} (listed : q ∈ f.cancellationRequests)
    (active : q.status.active = true) : ¬ Unblocked f := by
  intro unblocked
  simp [unblocked.cancellations q listed] at active

/-- The cases are not written. -/
theorem Closes.of_eq (status : SameStatus f f') (reports : f'.reports = f.reports)
    (requests : f'.cancellationRequests = f.cancellationRequests) : Closes f f' := by
  have same : Unblocked f' ↔ Unblocked f := by
    simp only [unblocked_iff, BookingFile.openForAdmin, BookingFile.withParticipants, reports, requests]
  refine .kept status (fun _ _ blocked => mt same.mp blocked) (fun _ free => same.mpr free) ?_
  simp only [BookingFile.withParticipants, requests]

theorem Closes.refl (f : BookingFile) : Closes f f := .of_eq (.refl f) rfl rfl

theorem OperationWritten.closes {ref : CaseRef} {op : AdminResolutionOperation}
    (h : OperationWritten f ref f' op) : Closes f f' := by
  obtain ⟨ops, rfl⟩ := h.rows
  exact .of_eq (.refl f) rfl rfl

/-- The transaction works on a case that is open before and after. -/
theorem Closes.reviewed (status : SameStatus f f') (before : ¬ Unblocked f) (after : ¬ Unblocked f')
    (participants : f'.withParticipants = f.withParticipants) : Closes f f' :=
  .kept status (fun _ _ _ => after) (fun _ free => absurd free before) participants

/-- A case is closed; the last one restores the booking. -/
theorem Closes.closing {closed restored : BookingFile} {ref : CaseRef}
    (h : restoreBookingIfNoBlockingCases ctx closed = .ok restored) (status : SameStatus f closed)
    (free : Unblocked f → Unblocked closed)
    (participants : closed.withParticipants = f.withParticipants) :
    Closes f (completeOperation restored ref) := by
  obtain ⟨same, before, -⟩ := id status
  obtain ⟨rfl, blocked⟩ | ⟨saved, unblocked, frozen, before', rfl⟩ := restoreBookingIfNoBlockingCases_ok h
  · refine .kept status (fun frozen saved _ unblocked => ?_) (fun _ unblocked => ?_) participants
    · obtain blocked | thawed | unsaved := blocked
      · exact blocked ⟨unblocked.reports, unblocked.cancellations⟩
      · simp [← same, thawed] at frozen
      · exact saved (before ▸ unsaved)
    · exact ⟨(free unblocked).reports, (free unblocked).cancellations⟩
  · exact .restored (same ▸ frozen) (before ▸ before') rfl ⟨unblocked.reports, unblocked.cancellations⟩
      participants

theorem escalatedCase_waits {q : CancellationRequest} (h : q.escalatedCase = true) :
    q.withParticipants = false := by
  simp [CancellationRequest.withParticipants, h]

/-- A safety report on a booking on hold only adds a case. -/
theorem createSafetyReport_closes {reporterId : UserId} {reason : ReportReason} {description : Nat}
    {folder : Option UserId} (frozen : f.booking.status.frozen = true)
    (h : createSafetyReport ctx reporterId reason description folder f = .ok c) : Closes f c.file := by
  obtain ⟨-, -, rfl | ⟨report, pending, -, -, ⟨-, rfl⟩ | ⟨pausable, rfl⟩⟩⟩ := createSafetyReport_ok h
  · exact .refl f
  · refine .kept (.refl f) (fun _ _ _ => ?_) (fun thawed => ?_) rfl
    · exact blocked_of_report (r := report) (by simp) (by simp [pending, ReportStatus.active])
    · simp [frozen] at thawed
  · cases status : f.booking.status <;> simp_all [BookingStatus.pausable, BookingStatus.frozen]

theorem startModerationReview_closes {source : ModerationSource}
    (h : startModerationReview source f = .ok c) : Closes f c.file := by
  obtain ⟨_, _, _, rfl, same | ⟨id, rfl, pending, rfl, rfl⟩ | ⟨id, rfl, -, rfl, rfl⟩⟩ :=
    startModerationReview_ok h
  · rw [same]
    exact .refl f
  · obtain ⟨report, found, status⟩ := Option.map_eq_some_iff.mp pending
    obtain ⟨listed, keyed⟩ := BookingFile.findReport_id found
    refine .reviewed (.refl f) (blocked_of_report listed (by simp [status, ReportStatus.active])) ?_ ?_
    · exact blocked_of_report (Rows.mem_updateWhere.mpr ⟨report, listed, rfl⟩)
        (by simp [keyed, ReportStatus.active])
    · refine Rows.filter_updateWhere fun q _ linked => ?_
      simp only [Bool.and_eq_true, beq_iff_eq] at linked
      constructor <;> apply escalatedCase_waits <;> simp [CancellationRequest.escalatedCase, linked]
  · exact .of_eq (.refl f) rfl rfl

theorem claimReport_closes {id : Nat} {adminId : UserId} {outcome : ReportOutcome}
    {penalty : ReportPenalty} {notes : Nat}
    (h : claimReport ctx id adminId outcome penalty notes f = .ok c) : Closes f c.file := by
  obtain rfl | ⟨report, claimed, _, found, active, -, claim, ⟨-, rfl⟩ | ⟨-, rfl⟩⟩ := claimReport_ok h
  · exact .refl f
  · exact claim.written.closes
  · obtain ⟨ops, rfl⟩ := claim.written.rows
    obtain ⟨listed, keyed⟩ := BookingFile.findReport_id found
    refine .reviewed (.refl f) (blocked_of_report listed active) ?_ rfl
    exact blocked_of_report (Rows.mem_updateWhere.mpr ⟨report, listed, rfl⟩)
      (by simp [keyed, ReportStatus.active])

theorem claimAdminCancellation_closes {id : Nat} {approve : Bool} {adminId : UserId} {fault : Fault}
    {note : Nat} (ids : CasesNumbered f)
    (h : claimAdminCancellation id approve adminId fault note f = .ok c) : Closes f c.file := by
  obtain rfl | ⟨request, claimed, _, found, open_, claim, ⟨-, rfl⟩ | ⟨-, _, linked, -, rfl⟩⟩ :=
    claimAdminCancellation_ok h
  · exact .refl f
  · exact claim.written.closes
  · obtain ⟨ops, rfl⟩ := claim.written.rows
    obtain ⟨listed, keyed⟩ := BookingFile.findCancellation_id found
    have before : request.status.active = true := by
      obtain escalated | review := open_ <;> simp [*, CancellationStatus.active]
    refine .reviewed (.refl f) (blocked_of_cancellation listed before) ?_ ?_
    · exact blocked_of_cancellation (Rows.mem_updateWhere.mpr ⟨request, listed, rfl⟩)
        (by simp [keyed, CancellationStatus.active])
    · refine Rows.filter_updateWhere fun q listed same => ?_
      obtain rfl := ids.cancellation found listed (by simpa using same)
      constructor <;> apply escalatedCase_waits <;>
        simp [CancellationRequest.escalatedCase, linked, open_]

theorem finalizeReport_closes {id : Nat} {adminId : UserId} {outcome : ReportOutcome}
    {penalty : ReportPenalty} (mild : outcome.financial = false)
    (h : finalizeReport ctx id adminId outcome penalty f = .ok c) : Closes f c.file := by
  obtain rfl | ⟨_, closed, restored, _, -, -, -, rfl, ⟨rfl, -⟩ | ⟨rfl, -⟩ | ⟨-, back⟩, rfl⟩ :=
    finalizeReport_ok h
  · exact .refl f
  · simp [ReportOutcome.financial] at mild
  · simp [ReportOutcome.financial] at mild
  · refine .closing back (.refl f) (fun unblocked => ⟨fun r listed => ?_, unblocked.cancellations⟩) rfl
    obtain ⟨r, old, rfl⟩ := Rows.mem_updateWhere.mp listed
    split
    · cases outcome <;> rfl
    · exact unblocked.reports r old

theorem finalizeAdminCancellation_closes {id : Nat} {adminId : UserId} {fault : Fault}
    (ids : CasesNumbered f) (h : finalizeAdminCancellation ctx id false adminId fault f = .ok c) :
    Closes f c.file := by
  obtain rfl | ⟨reportId, closed, restored, rfl, ⟨no, -⟩ | ⟨-, back⟩, ⟨request, found, review, linked⟩,
    rfl⟩ := finalizeAdminCancellation_ok h
  · exact .refl f
  · simp at no
  · refine .closing back (.refl f) (fun unblocked => ⟨fun r listed => ?_, fun q listed => ?_⟩) ?_
    · obtain ⟨r, old, rfl⟩ := Rows.mem_updateWhere.mp listed
      split
      · rfl
      · exact unblocked.reports r old
    · obtain ⟨q, old, rfl⟩ := Rows.mem_updateWhere.mp listed
      split
      · rfl
      · exact unblocked.cancellations q old
    · refine Rows.filter_updateWhere fun q listed same => ?_
      obtain rfl := ids.cancellation found listed (by simpa using same)
      refine ⟨escalatedCase_waits ?_, rfl⟩
      simp [CancellationRequest.escalatedCase, linked, review]

/-- The statements of a call that closes a case and ends no booking. -/
theorem transaction_closes {answer : Answer} {call : Call} (ids : CasesNumbered f)
    (route : call.OnRoute) (mild : call.caller.nonTerminal = true)
    (h : call.transaction ctx answer f = .ok c) : Closes f c.file := by
  obtain ⟨caller, stage⟩ := call
  have lives : caller.cancels = false ∧ caller.releases = false := by
    cases caller with
    | resolveAdminReport _ _ outcome =>
        cases outcome <;> simp_all [Caller.nonTerminal, ReportOutcome.financial, Caller.cancels,
          Caller.releases]
    | _ => simp_all [Caller.nonTerminal, Caller.cancels, Caller.releases]
  have uncancelling : stage.cancelling = false := by
    by_contra cancelling
    have cancels := route.cancels (by simpa using cancelling)
    simp [lives.1] at cancels
  cases stage with
  | reserve => simpa [lives] using route.reserves rfl
  | settle => simpa [lives] using route.releases rfl
  | markEstablished | markDecisionReady =>
      obtain ⟨_, _, _, -, marked, rfl⟩ := markStage_ok h
      obtain ⟨_, -, -, written, -⟩ := markAdminResolutionStageInTransaction_ok (by decide) marked
      exact written.closes
  | finalize =>
      cases caller with
      | resolveAdminReport => exact finalizeReport_closes (by simpa [Caller.nonTerminal] using mild) h
      | adminResolveCancellationRequest id approve adminId fault =>
          obtain rfl : approve = false := by simpa [Caller.nonTerminal] using mild
          have final : finalizeAdminCancellation ctx id false adminId fault f = .ok c := h
          exact finalizeAdminCancellation_closes ids final
      | _ => simp [Caller.nonTerminal] at mild
  | markFailed => simp [Call.transaction] at h
  | _ => simp [Stage.cancelling] at uncancelling

/-- A dispute or a safety report that puts the booking on hold opens a case. -/
theorem requestTransaction_holds {r : Request} (freezes : r.freezes = true)
    (open_ : f.booking.status.frozen = false) (h : requestTransaction ctx r f = .ok c)
    (frozen : c.file.booking.status.frozen = true) :
    c.file.booking.status = .disputed ∧ ¬ Unblocked c.file
      ∧ c.file.withParticipants = f.withParticipants := by
  cases r with
  | disputeJob =>
      obtain ⟨-, -, report, _, pending, -, -, -, rfl⟩ := disputeJobService_ok h
      refine ⟨rfl, ?_, rfl⟩
      exact blocked_of_report (r := report) (by simp) (by simp [pending, ReportStatus.active])
  | createSafetyReport =>
      obtain ⟨-, -, rfl | ⟨report, pending, -, -, ⟨-, rfl⟩ | ⟨-, rfl⟩⟩⟩ := createSafetyReport_ok h
      · simp [open_] at frozen
      · simp [open_] at frozen
      · refine ⟨rfl, ?_, rfl⟩
        exact blocked_of_report (r := report) (by simp) (by simp [pending, ReportStatus.active])
  | _ => simp [Request.freezes] at freezes

end Transactions

section Runs

variable {s s' : BookingSystem} {a : Action} {f f' : BookingFile} {g' : Option GatewayRefund}
  {next : Option Call} {l : Lifecycle} {w : Work} {waiting : List CancellationRequest}

theorem Event.closes (ids : CasesNumbered s.file) (routes : ∀ call ∈ s.calls, call.OnRoute)
    (h : Event s a f' g' next) (closing : s.closesCases a = true) : Closes s.file f' := by
  cases h with
  | @requested ctx r c run =>
      cases r with
      | createSafetyReport => exact createSafetyReport_closes closing run
      | startModerationReview => exact startModerationReview_closes run
      | resolveAdminReport => exact claimReport_closes run
      | adminResolveCancellation => exact claimAdminCancellation_closes ids run
      | _ => simp [BookingSystem.closesCases] at closing
  | committed found run =>
      simp only [BookingSystem.closesCases, found, Option.any_some] at closing
      exact transaction_closes ids (routes _ (List.mem_of_getElem? found)) closing run
  | _ => exact .of_eq (.refl _) rfl rfl

/-- The booking is on hold with its work saved, or back at its work. -/
def Hold (w : Work) (waiting : List CancellationRequest) (f : BookingFile) : Prop :=
  (Encodes f (.disputed w) ∧ ¬ Unblocked f ∨ Encodes f (.active w) ∧ Unblocked f)
    ∧ f.withParticipants = waiting

theorem Work.status_thawed (w : Work) : w.status.frozen = false := by
  cases w <;> rfl

theorem Refines.disputed (h : Refines (.disputed w) f') (status : f'.booking.status = .disputed) :
    Encodes f' (.disputed w) := by
  obtain ⟨l', e', rfl | step⟩ := h
  · exact e'
  · have status := e'.status.symm.trans status
    cases step with
    | restoreDisputed => cases w <;> simp [Lifecycle.status, Work.status] at status
    | _ => simp [Lifecycle.status] at status

theorem Hold.kept (h : Hold w waiting f) (closes : Closes f f')
    (refines : ∀ l, Encodes f l → Refines l f') : Hold w waiting f' := by
  obtain ⟨⟨e, blocked⟩ | ⟨e, unblocked⟩, same⟩ := h
  · have frozen : f.booking.status.frozen = true := by rw [e.status]; rfl
    cases closes with
    | kept status keeps _ participants =>
        refine ⟨.inl ⟨?_, keeps frozen (by simp [e.before, Lifecycle.before]) blocked⟩,
          participants.trans same⟩
        exact (refines _ e).disputed (status.1.trans e.status)
    | @restored before _ saved after unblocked participants =>
        obtain rfl : w.status = before := by
          simpa [Lifecycle.before] using e.before.symm.trans saved
        obtain ⟨l', e', -⟩ := refines _ e
        obtain rfl := e'.of_work after
        exact ⟨.inr ⟨e', unblocked⟩, participants.trans same⟩
  · have thawed : f.booking.status.frozen = false := by
      rw [e.status]
      exact w.status_thawed
    cases closes with
    | kept status _ free participants =>
        obtain ⟨l', e', -⟩ := refines _ e
        obtain rfl := e'.of_work (status.1.trans e.status)
        exact ⟨.inr ⟨e', free thawed unblocked⟩, participants.trans same⟩
    | restored frozen => simp [thawed] at frozen

theorem Encodes.restoredTo (e : Encodes f (.active w)) (e' : Encodes f' (.active w))
    (method : f'.booking.paymentMethod = f.booking.paymentMethod) : RestoredTo f f' where
  status := e'.status.trans e.status.symm
  paymentStatus := by rw [e'.payment, e.payment, method]
  started := (e'.started w rfl).trans (e.started w rfl).symm
  before := e'.before
  queue := by rw [e'.queue, e.queue, method]

/-- A live booking is put on hold with its work saved. -/
theorem Event.holds {ctx : Context} {r : Request} (reached : refundMachine.Reachable s)
    (h : Event s (.step ctx (.request r)) f' g' next) (freezes : r.freezes = true)
    (open_ : s.file.booking.status.frozen = false) (frozen : f'.booking.status.frozen = true) :
    ∃ w, Encodes s.file (.active w) ∧ Hold w s.file.withParticipants f' := by
  obtain ⟨l, e, refines⟩ := h.reachable_refines reached
  cases h with
  | stopped => simp [open_] at frozen
  | requested run =>
      obtain ⟨disputed, blocked, same⟩ := requestTransaction_holds freezes open_ run frozen
      obtain ⟨l', e', change⟩ := id refines
      have status := e'.status.symm.trans disputed
      obtain rfl | step := change
      · simp [e.status, ← e'.status, frozen] at open_
      cases step with
      | @dispute w => exact ⟨w, e, .inl ⟨e', blocked⟩, same⟩
      | accept | start | finish => simp [Lifecycle.status, Work.status] at status
      | @restoreDisputed w => cases w <;> simp [Lifecycle.status, Work.status] at status
      | @restoreReviewed w => cases w <;> simp [Lifecycle.status, Work.status] at status
      | _ => simp [Lifecycle.status] at status

/-- While administrators close the cases of a booking on hold, its work stays saved. -/
theorem hold_run {t : BookingSystem} (reached : refundMachine.Reachable s) (hold : Hold w waiting s.file)
    (run : refundMachine.RunUnder (fun s a => s.closesCases a = true) s t) :
    Hold w waiting t.file ∧ t.file.booking.paymentMethod = s.file.booking.paymentMethod := by
  have kept : refundMachine.Reachable t ∧ Hold w waiting t.file
      ∧ t.file.booking.paymentMethod = s.file.booking.paymentMethod := by
    refine run.invariant (I := fun t => refundMachine.Reachable t ∧ Hold w waiting t.file
      ∧ t.file.booking.paymentMethod = s.file.booking.paymentMethod) ?_ ⟨reached, hold, rfl⟩
    intro u a u' ⟨reached, hold, method⟩ closing hn
    obtain ⟨next, event, -⟩ := BookingSystem.next_event hn
    have closes := event.closes (reachable_numbered reached) (reachable_onRoute reached) closing
    refine ⟨reached.next trivial hn, hold.kept closes fun l e => ?_, ?_⟩
    · exact event.refines e (reachable_encodes reached).calls
    · exact event.sameTerms.paymentMethod.trans method
  exact kept.2

end Runs

/-- A booking put on hold by a dispute or a safety report is not restored while an administrator has
    a case to close; after the last one it is as before the hold exactly when no active cancellation
    request was waiting for the participants. -/
theorem hold_restored_iff {ctx : Context} {r : Request} {s held t : BookingSystem}
    (h : refundMachine.Reachable s) (open_ : s.file.booking.status.frozen = false)
    (freezes : r.freezes = true) (hn : refundMachine.next s (.step ctx (.request r)) = some held)
    (frozen : held.file.booking.status.frozen = true)
    (run : refundMachine.RunUnder (fun s a => s.closesCases a = true) held t) :
    (t.file.openForAdmin = true → t.file.booking.status.frozen = true
        ∧ t.file.booking.statusBeforeDispute = some s.file.booking.status)
      ∧ (t.file.openForAdmin = false →
        (RestoredTo s.file t.file ↔ s.file.withParticipants = [])) := by
  have step : bookingNext s (.step ctx (.request r)) = some held := hn
  obtain ⟨next, event, -⟩ := BookingSystem.next_event step
  obtain ⟨w, e, hold⟩ := event.holds h freezes open_ frozen
  obtain ⟨hold, method⟩ := hold_run (h.next trivial hn) hold run
  have method := method.trans event.sameTerms.paymentMethod
  obtain ⟨⟨e', blocked⟩ | ⟨e', unblocked⟩, same⟩ := hold
  · rw [unblocked_iff, same] at blocked
    refine ⟨fun _ => ?_, fun closed => ⟨fun restored => ?_, fun none => absurd ⟨closed, none⟩ blocked⟩⟩
    · rw [e'.status, e'.before, e.status]
      exact ⟨rfl, rfl⟩
    · have status := restored.status
      rw [e'.status, e.status] at status
      cases w <;> simp [Lifecycle.status, Work.status] at status
  · rw [unblocked_iff, same] at unblocked
    refine ⟨fun case_ => by simp [unblocked.1] at case_, fun _ => ⟨fun _ => unblocked.2, fun _ => ?_⟩⟩
    exact e.restoredTo e' method

/-- The seeker's safety report on the sample booking, and its dismissal by an administrator. -/
def sampleReport : Request := .createSafetyReport 1 .noShow 0 none

def sampleReportDismissal (reportId : Nat) : List Action :=
  [.step sampleContext (.request (.resolveAdminReport reportId 9 .dismiss .none 5)),
    .step sampleContext (.resume 0 .none), .step sampleContext (.resume 0 .none)]

/-- The booking on hold, and after the dismissal of the report. -/
def sampleOnHold (s : BookingSystem) : Option BookingSystem :=
  refundMachine.next s (.step sampleContext (.request sampleReport))

def sampleReportDismissed (reportId : Nat) (held : BookingSystem) : Option BookingSystem :=
  refundMachine.execUnder BookingSystem.closesCases held (sampleReportDismissal reportId)

theorem hold_restored_iff_dismissed : ∃ s t : BookingSystem, sampleRun [.request (.providerStartJob 2)] = some s
    ∧ t.file.openForAdmin = false ∧ RestoredTo s.file t.file := by
  obtain ⟨s, run, open_, undecided, ends⟩ := sample_any (o := sampleRun [.request (.providerStartJob 2)])
    (p := fun s => s.file.booking.status.frozen = false ∧ s.file.withParticipants = []
      ∧ ((sampleOnHold s).any fun held => decide (held.file.booking.status.frozen = true
        ∧ ((sampleReportDismissed 0 held).any fun t => decide (t.file.openForAdmin = false)) = true)) = true)
    (by decide)
  obtain ⟨held, step, frozen, ends⟩ := sample_any ends
  obtain ⟨t, closings, closed⟩ := sample_any ends
  have decided := hold_restored_iff (r := sampleReport) (sampleRun_reachable run) open_ rfl step frozen
    (.of_execUnder (fun _ _ met => met) closings)
  exact ⟨s, t, run, closed, (decided.2 closed).mpr undecided⟩

/-- A declined cancellation request of the seeker keeps the booking on hold after the last report is
    dismissed. -/
theorem declined_request_not_restored : ∃ s held t : BookingSystem,
    sampleRun [.request (.providerStartJob 2), .request (.requestCancellation 1),
      .request (.declineCancellation 0 2 5)] = some s ∧ refundMachine.Reachable s
    ∧ s.file.booking.status = .ongoing ∧ s.calls = [] ∧ sampleOnHold s = some held
    ∧ sampleReportDismissed 1 held = some t ∧ t.file.openForAdmin = false ∧ t.calls = []
    ∧ ¬ RestoredTo s.file t.file := by
  obtain ⟨s, run, ongoing, idle, ends⟩ := sample_any (o := sampleRun [.request (.providerStartJob 2),
      .request (.requestCancellation 1), .request (.declineCancellation 0 2 5)])
    (p := fun s => s.file.booking.status = .ongoing ∧ s.calls = []
      ∧ ((sampleOnHold s).any fun held => decide (((sampleReportDismissed 1 held).any fun t =>
        decide (t.file.openForAdmin = false ∧ t.calls = [] ∧ t.file.booking.status = .disputed)) = true))
        = true)
    (by decide)
  obtain ⟨held, step, ends⟩ := sample_any ends
  obtain ⟨t, closings, closed, done, disputed⟩ := sample_any ends
  refine ⟨s, held, t, run, sampleRun_reachable run, ongoing, idle, step, closings, closed, done, ?_⟩
  intro restored
  have status := restored.status
  simp [disputed, ongoing] at status

end ServiceHub
