import ServiceHub.Booking.Events

/-! # How the cases of a booking change

Reports, cancellation requests and completion escalations are numbered by one counter. A
transaction reviews or closes cases, or opens one; a cancellation request is closed on a
cancelled booking, or denied by an administrator.
-/

namespace ServiceHub

open Guard

inductive Report.Move (r : Report) : Report → Prop where
  | same : r.Move r
  | reviewed (active : r.status.active = true) : r.Move { r with status := .underReview }
  | closed {status} (closed : status = .resolved ∨ status = .dismissed) : r.Move { r with status }

/-- On the file `f`, by a call of `who` after its first transaction. -/
inductive CancellationRequest.Move (f : BookingFile) (who : Option Caller) (c : CancellationRequest) :
    CancellationRequest → Prop where
  | same : c.Move f who c
  | declined (pending : c.status = .pending) : c.Move f who { c with status := .declined }
  | reviewed (open_ : c.status = .pending ∨ c.status = .escalated ∨ c.status = .underReview) :
      c.Move f who { c with status := .underReview }
  | escalated (declined : c.status = .declined) :
      c.Move f who { c with status := .escalated, reportId := some f.nextId }
  | settled {status outcome} (canceled : f.booking.status = .canceled)
      (closed : status = .approved ∨ status = .resolved) (final : outcome ≠ .immediateCancelPending)
      (own : outcome = .immediateCancel → ∃ userId, who = some (.requestCancellation c.id userId)) :
      c.Move f who { c with status, resolutionOutcome := some outcome }
  | denied (review : c.status = .underReview) (linked : c.reportId.isSome = true) :
      c.Move f who { c with status := .resolved, resolutionOutcome := some .denied }

/-- The requester and the responder are the participants of the booking. -/
def CancellationRequest.Between (b : Booking) (c : CancellationRequest) : Prop :=
  (c.requestedBy = b.seekerId ∧ c.responderId = b.providerId)
    ∨ (c.requestedBy = b.providerId ∧ c.responderId = b.seekerId)

/-- A request starts by holding an unstarted booking, or pending on a started one. -/
structure CancellationRequest.New (f f' : BookingFile) (c : CancellationRequest) : Prop where
  between : c.Between f.booking
  unlinked : c.reportId = none
  started : f'.booking.started = f.booking.started
  state : (f.booking.started = false ∧ f'.booking.status = .underReview ∧ c.status = .underReview
      ∧ c.resolutionOutcome = some .immediateCancelPending)
    ∨ (f.booking.started = true ∧ c.status = .pending ∧ c.resolutionOutcome = none)

inductive CompletionEscalation.Move (e : CompletionEscalation) : CompletionEscalation → Prop where
  | same : e.Move e
  | reviewed {resolution} (active : e.status.active = true) :
      e.Move { e with status := .underReview, resolution }
  | closed {status resolution resolvedAt} (closed : status = .resolved ∨ status = .dismissed) :
      e.Move { e with status, resolution, resolvedAt }

structure CasesWrite (who : Option Caller) (f f' : BookingFile) : Prop where
  reports : Rows.Written Report.id Report.Move (·.status = .pending) f.nextId f'.nextId f.reports
    f'.reports
  cancellations : Rows.Written CancellationRequest.id (CancellationRequest.Move f who)
    (CancellationRequest.New f f') f.nextId f'.nextId f.cancellationRequests f'.cancellationRequests
  escalations : Rows.Written CompletionEscalation.id CompletionEscalation.Move (·.status = .pending)
    f.nextId f'.nextId f.completionEscalations f'.completionEscalations

/-- The cases of a booking are numbered. -/
structure CasesNumbered (f : BookingFile) : Prop where
  reports : Rows.Numbered Report.id f.nextId f.reports
  cancellations : Rows.Numbered CancellationRequest.id f.nextId f.cancellationRequests
  escalations : Rows.Numbered CompletionEscalation.id f.nextId f.completionEscalations

section Transactions

variable {ctx : Context} {f f' : BookingFile} {c : Commit} {caller : Caller} {who : Option Caller}

theorem CasesNumbered.written (h : CasesNumbered f) (w : CasesWrite who f f') : CasesNumbered f' :=
  ⟨h.reports.written w.reports, h.cancellations.written w.cancellations,
    h.escalations.written w.escalations⟩

theorem CasesNumbered.report {id : Nat} {r q : Report} (h : CasesNumbered f)
    (found : f.findReport id = some q) (listed : r ∈ f.reports) (same : r.id = id) : r = q := by
  obtain ⟨listed', same'⟩ := BookingFile.findReport_id found
  exact h.reports.inj listed listed' (same.trans same'.symm)

theorem CasesNumbered.cancellation {id : Nat} {r q : CancellationRequest} (h : CasesNumbered f)
    (found : f.findCancellation id = some q) (listed : r ∈ f.cancellationRequests) (same : r.id = id) :
    r = q := by
  obtain ⟨listed', same'⟩ := BookingFile.findCancellation_id found
  exact h.cancellations.inj listed listed' (same.trans same'.symm)

theorem CasesNumbered.escalation {id : Nat} {r q : CompletionEscalation} (h : CasesNumbered f)
    (found : f.findEscalation id = some q) (listed : r ∈ f.completionEscalations) (same : r.id = id) :
    r = q := by
  obtain ⟨listed', same'⟩ := BookingFile.findEscalation_id found
  exact h.escalations.inj listed listed' (same.trans same'.symm)

section Tables

variable {n : Nat} (le : f.nextId ≤ n)

include le

theorem sameReports : Rows.Written Report.id Report.Move (·.status = .pending) f.nextId n f.reports
    f.reports :=
  .same (fun _ => .same) le

theorem sameCancellations : Rows.Written CancellationRequest.id (CancellationRequest.Move f who)
    (CancellationRequest.New f f') f.nextId n f.cancellationRequests f.cancellationRequests :=
  .same (fun _ => .same) le

theorem sameEscalations : Rows.Written CompletionEscalation.id CompletionEscalation.Move
    (·.status = .pending) f.nextId n f.completionEscalations f.completionEscalations :=
  .same (fun _ => .same) le

end Tables

/-- No case is written. -/
theorem CasesWrite.of_eq (reports : f'.reports = f.reports)
    (cancellations : f'.cancellationRequests = f.cancellationRequests)
    (escalations : f'.completionEscalations = f.completionEscalations) (next : f'.nextId = f.nextId) :
    CasesWrite who f f' := by
  constructor
  · rw [reports, next]
    exact sameReports (Nat.le_refl _)
  · rw [cancellations, next]
    exact sameCancellations (Nat.le_refl _)
  · rw [escalations, next]
    exact sameEscalations (Nat.le_refl _)

theorem CasesWrite.refl (f : BookingFile) : CasesWrite who f f := .of_eq rfl rfl rfl rfl

theorem OperationWritten.cases {ref : CaseRef} {op : AdminResolutionOperation}
    (h : OperationWritten f ref f' op) : CasesWrite who f f' := by
  obtain ⟨ops, rfl⟩ := h.rows
  exact .of_eq rfl rfl rfl rfl

theorem markStage_cases {ref : CaseRef} {stage : OperationStage} {op : AdminResolutionOperation}
    (unfinished : stage ≠ .caseFinalized)
    (h : markAdminResolutionStageInTransaction f ref stage = .ok (f', op)) : CasesWrite who f f' := by
  obtain ⟨_, -, -, written, -⟩ := markAdminResolutionStageInTransaction_ok unfinished h
  exact written.cases

theorem restoreBookingIfNoBlockingCases_cases (h : restoreBookingIfNoBlockingCases ctx f = .ok f') :
    f'.reports = f.reports ∧ f'.cancellationRequests = f.cancellationRequests
      ∧ f'.completionEscalations = f.completionEscalations ∧ f'.nextId = f.nextId := by
  obtain ⟨rfl, -⟩ | ⟨_, -, -, -, rfl⟩ := restoreBookingIfNoBlockingCases_ok h <;>
    exact ⟨rfl, rfl, rfl, rfl⟩

theorem settleCompletedBooking_cases {actor : SettlementActor}
    (h : settleCompletedBooking ctx actor f = .ok c) : CasesWrite who f c.file := by
  obtain ⟨-, -, ⟨-, rfl⟩ | ⟨-, -, -, -, _, -, rfl⟩⟩ := settleCompletedBooking_ok h
  · exact .refl f
  · refine ⟨sameReports (Nat.le_refl _), sameCancellations (Nat.le_refl _), ?_⟩
    cases actor with
    | admin => exact sameEscalations (Nat.le_refl _)
    | seeker => exact .update (fun _ => .same) (Nat.le_refl _) (fun _ => rfl) fun _ _ _ => .closed (.inl rfl)

theorem startModerationReview_cases {source : ModerationSource} (ids : CasesNumbered f)
    (h : startModerationReview source f = .ok c) : CasesWrite who f c.file := by
  obtain ⟨_, _, _, rfl, same | ⟨id, rfl, pending, rfl, rfl⟩ | ⟨id, rfl, pending, rfl, rfl⟩⟩ :=
    startModerationReview_ok h
  · rw [same]
    exact .refl f
  · obtain ⟨q, found, status⟩ := Option.map_eq_some_iff.mp pending
    refine ⟨.update (fun _ => .same) (Nat.le_refl _) (fun _ => rfl) fun r listed same => ?_,
      .update (fun _ => .same) (Nat.le_refl _) (fun _ => rfl) fun r listed linked => ?_,
      sameEscalations (Nat.le_refl _)⟩
    · obtain rfl := ids.report found listed (by simpa using same)
      exact .reviewed (by simp [status, ReportStatus.active])
    · simp only [Bool.and_eq_true, beq_iff_eq] at linked
      exact .reviewed (.inr (.inl linked.2))
  · obtain ⟨q, found, status⟩ := Option.map_eq_some_iff.mp pending
    refine ⟨sameReports (Nat.le_refl _), sameCancellations (Nat.le_refl _),
      .update (fun _ => .same) (Nat.le_refl _) (fun _ => rfl) fun e listed same => ?_⟩
    obtain rfl := ids.escalation found listed (by simpa using same)
    exact .reviewed (by simp [status, EscalationStatus.active])

theorem requestTransaction_cases {r : Request} (ids : CasesNumbered f)
    (h : requestTransaction ctx r f = .ok c) : CasesWrite who f c.file := by
  cases r with
  | respondToDirectBooking =>
      obtain ⟨-, _, rfl | rfl⟩ := respondToDirectBookingService_ok h <;> exact .of_eq rfl rfl rfl rfl
  | providerStartJob =>
      obtain ⟨-, ⟨-, -, -, rfl⟩ | ⟨_, -, -, -, -, -, -, rfl⟩⟩ := providerStartJob_ok h <;>
        exact .of_eq rfl rfl rfl rfl
  | markJobComplete =>
      obtain rfl | ⟨-, rfl⟩ := markJobComplete_ok h <;> exact .of_eq rfl rfl rfl rfl
  | confirmCompletion => exact settleCompletedBooking_cases h
  | disputeJob =>
      obtain ⟨-, -, report, _, pending, fresh, -, rfl, rfl⟩ := disputeJobService_ok h
      refine ⟨.append (fun _ => .same) (Nat.lt_succ_self _) fresh pending,
        sameCancellations (Nat.le_succ _), ?_⟩
      exact .update (fun _ => .same) (Nat.le_succ _) (fun _ => rfl) fun _ _ _ => .closed (.inr rfl)
  | createSafetyReport =>
      obtain ⟨-, -, rfl | ⟨report, pending, fresh, -, ⟨-, rfl⟩ | ⟨-, rfl⟩⟩⟩ := createSafetyReport_ok h
      · exact .refl f
      all_goals
        exact ⟨.append (fun _ => .same) (Nat.lt_succ_self _) fresh pending,
          sameCancellations (Nat.le_succ _), sameEscalations (Nat.le_succ _)⟩
  | createCompletionEscalation =>
      obtain ⟨-, -, -, rfl | ⟨-, rfl⟩⟩ := createCompletionEscalation_ok h
      · exact .refl f
      · exact ⟨sameReports (Nat.le_succ _), sameCancellations (Nat.le_succ _),
          .append (fun _ => .same) (Nat.lt_succ_self _) rfl rfl⟩
  | startModerationReview => exact startModerationReview_cases ids h
  | requestCancellation =>
      obtain ⟨own, h⟩ := requestCancellation_ok h
      obtain ⟨_, -, -, -, rfl⟩ | rfl | ⟨-, -, -, -, request, fresh, ⟨requester, responder⟩, unlinked,
        state⟩ := h
      · exact .refl f
      · exact .refl f
      have between : request.Between f.booking := by
        subst requester
        by_cases seeker : request.requestedBy = f.booking.seekerId
        · exact .inl ⟨seeker, by rw [responder, if_pos seeker]⟩
        · exact .inr ⟨own.resolve_left seeker, by rw [responder, if_neg seeker]⟩
      obtain ⟨unstarted, review, pending, rfl⟩ | ⟨started, pending, none, rfl⟩ := state
      · exact ⟨sameReports (Nat.le_succ _),
          .append (fun _ => .same) (Nat.lt_succ_self _) fresh
            ⟨between, unlinked, rfl, .inl ⟨unstarted, rfl, review, pending⟩⟩,
          sameEscalations (Nat.le_succ _)⟩
      · exact ⟨sameReports (Nat.le_succ _),
          .append (fun _ => .same) (Nat.lt_succ_self _) fresh
            ⟨between, unlinked, rfl, .inr ⟨started, pending, none⟩⟩,
          sameEscalations (Nat.le_succ _)⟩
  | declineCancellation id =>
      obtain ⟨⟨request, found, pending⟩, rfl⟩ := declineCancellationRequest_ok h
      refine ⟨sameReports (Nat.le_refl _), ?_, sameEscalations (Nat.le_refl _)⟩
      refine .update (fun _ => .same) (Nat.le_refl _) (fun _ => rfl) fun r listed same => ?_
      obtain rfl := ids.cancellation found listed (by simpa using same)
      exact .declined pending
  | approveCancellation id =>
      obtain rfl | ⟨request, claimed, _, found, open_, -, claim, ⟨-, rfl⟩ | ⟨-, rfl⟩⟩ :=
        approveCancellationRequest_ok h
      · exact .refl f
      · exact claim.written.cases
      · obtain ⟨ops, rfl⟩ := claim.written.rows
        refine ⟨sameReports (Nat.le_refl _), ?_, sameEscalations (Nat.le_refl _)⟩
        refine .update (fun _ => .same) (Nat.le_refl _) (fun _ => rfl) fun r listed same => ?_
        obtain rfl := ids.cancellation found listed (by simpa using same)
        exact .reviewed (open_.imp_right .inr)
  | escalateCancellation id =>
      obtain rfl | ⟨-, ⟨request, found, declined⟩, report, pending, fresh, -, rfl⟩ :=
        escalateCancellationRequest_ok h
      · exact .refl f
      · refine ⟨.append (fun _ => .same) (Nat.lt_succ_self _) fresh pending, ?_,
          sameEscalations (Nat.le_succ _)⟩
        refine .update (fun _ => .same) (Nat.le_succ _) (fun _ => rfl) fun r listed same => ?_
        obtain rfl := ids.cancellation found listed (by simpa using same)
        exact .escalated declined
  | adminResolveCancellation id =>
      obtain rfl | ⟨request, claimed, _, found, open_, claim, ⟨-, rfl⟩ | ⟨-, _, -, -, rfl⟩⟩ :=
        claimAdminCancellation_ok h
      · exact .refl f
      · exact claim.written.cases
      · obtain ⟨ops, rfl⟩ := claim.written.rows
        refine ⟨.update (fun _ => .same) (Nat.le_refl _) (fun _ => rfl) fun r listed linked => ?_,
          .update (fun _ => .same) (Nat.le_refl _) (fun _ => rfl) fun r listed same => ?_,
          sameEscalations (Nat.le_refl _)⟩
        · simp only [Bool.and_eq_true] at linked
          exact .reviewed linked.2
        · obtain rfl := ids.cancellation found listed (by simpa using same)
          exact .reviewed (.inr open_)
  | resolveAdminReport id =>
      obtain rfl | ⟨report, claimed, _, found, active, -, claim, ⟨-, rfl⟩ | ⟨-, rfl⟩⟩ := claimReport_ok h
      · exact .refl f
      · exact claim.written.cases
      · obtain ⟨ops, rfl⟩ := claim.written.rows
        refine ⟨.update (fun _ => .same) (Nat.le_refl _) (fun _ => rfl) fun r listed same => ?_,
          sameCancellations (Nat.le_refl _), sameEscalations (Nat.le_refl _)⟩
        obtain rfl := ids.report found listed (by simpa using same)
        exact .reviewed active
  | resolveCompletionEscalation id =>
      obtain rfl | ⟨escalation, claimed, _, found, active, claim, ⟨-, rfl⟩ | ⟨-, rfl⟩⟩ :=
        claimEscalation_ok h
      · exact .refl f
      · exact claim.written.cases
      · obtain ⟨ops, rfl⟩ := claim.written.rows
        refine ⟨sameReports (Nat.le_refl _), sameCancellations (Nat.le_refl _),
          .update (fun _ => .same) (Nat.le_refl _) (fun _ => rfl) fun e listed same => ?_⟩
        obtain rfl := ids.escalation found listed (by simpa using same)
        exact .reviewed active
  | resolveAdminBooking =>
      obtain rfl | ⟨claimed, _, claim, h⟩ := claimAdminBooking_ok h
      · exact .refl f
      obtain ⟨-, rfl⟩ | ⟨-, rfl⟩ | ⟨-, -, -, -, rfl⟩ | ⟨-, -, -, -, _, _, marked, -, rfl⟩ := h
      · exact claim.written.cases
      · exact claim.written.cases
      · exact claim.written.cases
      · obtain ⟨_, -, -, written, -⟩ := markAdminResolutionStageInTransaction_ok (by decide) marked
        obtain ⟨ops, rfl⟩ := claim.written.rows
        obtain ⟨ops', rfl⟩ := written.rows
        exact .of_eq rfl rfl rfl rfl

theorem reserveOutcome_cases (h : reserveOutcome caller f = .ok c) : CasesWrite who f c.file := by
  cases caller with
  | refundBookingPayment | requestCancellation | resolveAdminBooking => simp [reserveOutcome] at h
  | respondToCancellationRequest | adminResolveCancellationRequest =>
      obtain ⟨_, _, -, -, -, ⟨-, rfl⟩ | ⟨_, _, -, marked, rfl⟩⟩ :=
        reserveCancellationFinancialOutcome_ok h
      · exact .refl f
      · exact markStage_cases (by decide) marked
  | resolveAdminReport =>
      obtain ⟨_, _, -, -, -, ⟨-, rfl⟩ | ⟨_, _, -, marked, rfl⟩⟩ := reserveReportFinancialOutcome_ok h
      · exact .refl f
      · exact markStage_cases (by decide) marked
  | resolveCompletionEscalation =>
      obtain ⟨_, _, -, -, -, ⟨-, rfl⟩ | ⟨held, _, _, -, hold, marked, rfl⟩⟩ :=
        reserveCompletionFinancialOutcome_ok h
      · exact .refl f
      · obtain ⟨_, -, -, written, -⟩ := markAdminResolutionStageInTransaction_ok (by decide) marked
        obtain ⟨ops, rfl⟩ := written.rows
        obtain ⟨-, -, rfl⟩ | ⟨-, rfl⟩ := hold <;> exact .of_eq rfl rfl rfl rfl

theorem finalizeCase_cases (ids : CasesNumbered f) (h : finalizeCase ctx caller f = .ok c) :
    CasesWrite (some caller) f c.file := by
  cases caller with
  | refundBookingPayment => simp [finalizeCase] at h
  | requestCancellation id userId =>
      obtain ⟨canceled, rfl⟩ := finalizeImmediateCancellation_ok h
      refine ⟨sameReports (Nat.le_refl _), ?_, sameEscalations (Nat.le_refl _)⟩
      refine .update (fun _ => .same) (Nat.le_refl _) (fun _ => rfl) fun r _ same => ?_
      obtain rfl : r.id = id := by simpa using same
      exact .settled canceled (.inl rfl) (by simp) fun _ => ⟨userId, rfl⟩
  | respondToCancellationRequest id _ reportId =>
      obtain rfl | ⟨canceled, rfl⟩ := finalizeParticipantApproval_ok h
      · exact .refl f
      · refine ⟨.update (fun _ => .same) (Nat.le_refl _) (fun _ => rfl) fun _ _ _ => .closed (.inl rfl),
          ?_, sameEscalations (Nat.le_refl _)⟩
        refine .update (fun _ => .same) (Nat.le_refl _) (fun _ => rfl) fun r _ _ => ?_
        exact .settled canceled (.inl rfl) (by simp) (by simp)
  | adminResolveCancellationRequest id approve =>
      obtain rfl | ⟨reportId, closed, restored, hclosed, ending, ⟨request, found, review, linked⟩, rfl⟩ :=
        finalizeAdminCancellation_ok h
      · exact .refl f
      have same : restored.reports = closed.reports
          ∧ restored.cancellationRequests = closed.cancellationRequests
          ∧ restored.completionEscalations = closed.completionEscalations
          ∧ restored.nextId = closed.nextId := by
        obtain ⟨-, -, rfl⟩ | ⟨-, back⟩ := ending
        · exact ⟨rfl, rfl, rfl, rfl⟩
        · exact restoreBookingIfNoBlockingCases_cases back
      obtain ⟨reports, requests, escalations, next⟩ := same
      subst hclosed
      refine ⟨?_, ?_, ?_⟩
      · simp only [completeOperation, BookingFile.updateOperation, reports, next]
        refine .update (fun _ => .same) (Nat.le_refl _) (fun _ => rfl) fun _ _ _ => .closed ?_
        split
        · exact .inl rfl
        · exact .inr rfl
      · simp only [completeOperation, BookingFile.updateOperation, requests, next]
        refine .update (fun _ => .same) (Nat.le_refl _) (fun _ => rfl) fun r listed keyed => ?_
        obtain rfl := ids.cancellation found listed (by simpa using keyed)
        obtain ⟨rfl, canceled, -⟩ | ⟨rfl, -⟩ := ending
        · exact .settled canceled (.inr rfl) (by simp) (by simp)
        · exact .denied review (by simp [linked])
      · simp only [completeOperation, BookingFile.updateOperation, escalations, next]
        exact sameEscalations (Nat.le_refl _)
  | resolveAdminReport id _ outcome =>
      obtain rfl | ⟨_, closed, restored, _, -, -, -, hclosed, ending, rfl⟩ := finalizeReport_ok h
      · exact .refl f
      have same : restored.reports = closed.reports
          ∧ restored.cancellationRequests = closed.cancellationRequests
          ∧ restored.completionEscalations = closed.completionEscalations
          ∧ restored.nextId = closed.nextId := by
        obtain ⟨-, -, rfl⟩ | ⟨-, -, rfl⟩ | ⟨-, back⟩ := ending
        · exact ⟨rfl, rfl, rfl, rfl⟩
        · exact ⟨rfl, rfl, rfl, rfl⟩
        · exact restoreBookingIfNoBlockingCases_cases back
      obtain ⟨reports, requests, escalations, next⟩ := same
      subst hclosed
      refine ⟨?_, ?_, ?_⟩
      · simp only [completeOperation, BookingFile.updateOperation, reports, next]
        refine .update (fun _ => .same) (Nat.le_refl _) (fun _ => rfl) fun _ _ _ => .closed ?_
        split
        · exact .inr rfl
        · exact .inl rfl
      · simp only [completeOperation, BookingFile.updateOperation, requests, next]
        exact sameCancellations (Nat.le_refl _)
      · simp only [completeOperation, BookingFile.updateOperation, escalations, next]
        exact sameEscalations (Nat.le_refl _)
  | resolveCompletionEscalation =>
      obtain rfl | ⟨-, -, -, -, rfl⟩ := finalizeEscalation_ok h
      · exact .refl f
      · exact ⟨sameReports (Nat.le_refl _), sameCancellations (Nat.le_refl _),
          .update (fun _ => .same) (Nat.le_refl _) (fun _ => rfl) fun _ _ _ => .closed (.inl rfl)⟩
  | resolveAdminBooking =>
      obtain rfl | ⟨-, -, rfl⟩ := finalizeAdminBooking_ok h
      · exact .refl f
      · exact .of_eq rfl rfl rfl rfl

theorem transaction_cases {answer : Answer} {call : Call} (ids : CasesNumbered f)
    (h : call.transaction ctx answer f = .ok c) : CasesWrite (some call.caller) f c.file := by
  obtain ⟨caller, stage⟩ := call
  cases stage with
  | reserve => exact reserveOutcome_cases h
  | cancelRead => obtain ⟨-, rfl | rfl⟩ := readCancelBooking_ok h <;> exact .refl f
  | preStartCheck =>
      obtain ⟨-, -, rfl⟩ := checkPreStart_ok h
      exact .refl f
  | refundRead =>
      obtain ⟨_, -, rfl⟩ := readRefundBooking_ok h
      exact .refl f
  | refundExisting => obtain ⟨-, -, rfl⟩ | rfl := readExistingRefund_ok h <;> exact .refl f
  | refundIntent =>
      cases answer with
      | intent =>
          obtain ⟨_, -, rfl⟩ := checkRefundIntent_ok h
          exact .refl f
      | _ => simp [Call.transaction] at h
  | refundReserve =>
      obtain ⟨-, -, ⟨_, _, -, -, rfl⟩ | ⟨-, rfl⟩ | ⟨-, -, rfl⟩⟩ := reserveRefund_ok h <;>
        exact .of_eq rfl rfl rfl rfl
  | refundFinalize =>
      obtain ⟨-, -, rfl⟩ | ⟨-, -, -, -, rfl⟩ := finalizeRefund_ok h <;> exact .of_eq rfl rfl rfl rfl
  | refundCreate | refundCaught | markFailed => simp [Call.transaction] at h
  | cancelSettle =>
      obtain ⟨-, -, _, ⟨-, -, -, rfl⟩ | ⟨-, rfl⟩⟩ := settleCancellation_ok h <;>
        exact .of_eq rfl rfl rfl rfl
  | settle =>
      obtain ⟨_, settled, rfl⟩ := settleByAdmin_ok h
      have written : CasesWrite (some caller) f _ := settleCompletedBooking_cases settled
      exact written
  | markEstablished | markDecisionReady =>
      obtain ⟨_, _, _, -, marked, rfl⟩ := markStage_ok h
      exact markStage_cases (by decide) marked
  | finalize => exact finalizeCase_cases ids h

end Transactions

/-- The call whose next statement an action executes. -/
def Action.caller (s : BookingSystem) : Action → Option Caller
  | .step _ (.resume k _) => (s.calls[k]?).map (·.caller)
  | _ => none

theorem Event.cases {s : BookingSystem} {a : Action} {f' : BookingFile}
    {g' : Option GatewayRefund} {next : Option Call} (ids : CasesNumbered s.file)
    (h : Event s a f' g' next) : CasesWrite (a.caller s) s.file f' := by
  cases h with
  | requested run => exact requestTransaction_cases ids run
  | committed found run =>
      have written := transaction_cases ids run
      simpa [Action.caller, found] using written
  | _ => exact .of_eq rfl rfl rfl rfl

/-- The cases of a booking are numbered in every reachable state. -/
theorem reachable_numbered {C : BookingSystem → Action → Prop} {s : BookingSystem}
    (h : refundMachine.ReachableUnder C s) : CasesNumbered s.file := by
  refine h.invariant (I := fun s => CasesNumbered s.file) (fun s start => ?_)
    fun s a s' ids _ hn => ?_
  · obtain ⟨created, -⟩ := start
    obtain ⟨-, reports, requests, escalations⟩ := created.caseless
    constructor
    · rw [reports]
      exact ⟨.nil, by simp⟩
    · rw [requests]
      exact ⟨.nil, by simp⟩
    · rw [escalations]
      exact ⟨.nil, by simp⟩
  · obtain ⟨next, event, -⟩ := BookingSystem.next_event hn
    exact ids.written (event.cases ids)

end ServiceHub
