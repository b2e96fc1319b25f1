import ServiceHub.Booking.LifecycleModel
import ServiceHub.Booking.Frame

/-! # The services refine the lifecycle

One lemma a transaction: applied to a file whose columns encode a lifecycle state, it
leaves a file that encodes the same state or the next one.
-/

namespace ServiceHub

open Guard

section Files

variable {f f' : BookingFile} {l : Lifecycle}

theorem OperationWritten.sameLifecycle {ref : CaseRef} {op : AdminResolutionOperation}
    (h : OperationWritten f ref f' op) : SameLifecycle f f' := by
  obtain ⟨ops, rfl⟩ := h.rows
  exact ⟨rfl, rfl, rfl, rfl⟩

theorem SameLifecycle.trans {f'' : BookingFile} (h : SameLifecycle f f') (h' : SameLifecycle f' f'') :
    SameLifecycle f f'' :=
  ⟨h'.booking.trans h.booking, h'.queue.trans h.queue,
    h'.completedService.trans h.completedService, h'.transactions.trans h.transactions⟩

theorem Claimed.sameLifecycle {ref : CaseRef} {outcome : RequestedOutcome}
    {penalty : RequestedPenalty} {op : AdminResolutionOperation}
    (h : Claimed f ref outcome penalty f' op) : SameLifecycle f f' :=
  h.written.sameLifecycle

/-- Updates of case rows do not touch the lifecycle columns. -/
theorem updateReport_same (f : BookingFile) (id : Nat) (g : Report → Report) :
    SameLifecycle f (f.updateReport id g) := ⟨rfl, rfl, rfl, rfl⟩

theorem updateCancellation_same (f : BookingFile) (id : Nat)
    (g : CancellationRequest → CancellationRequest) :
    SameLifecycle f (f.updateCancellation id g) := ⟨rfl, rfl, rfl, rfl⟩

theorem updateEscalation_same (f : BookingFile) (id : Nat)
    (g : CompletionEscalation → CompletionEscalation) :
    SameLifecycle f (f.updateEscalation id g) := ⟨rfl, rfl, rfl, rfl⟩

theorem completeOperation_same (f : BookingFile) (ref : CaseRef) :
    SameLifecycle f (completeOperation f ref) := ⟨rfl, rfl, rfl, rfl⟩

theorem Refines.same (h : Refines l f) (same : SameLifecycle f f') : Refines l f' := by
  obtain ⟨l', e, step⟩ := h
  exact ⟨l', e.same same, step⟩

/-- A live booking put on hold, its payment frozen or not. -/
theorem Encodes.reviewed {w : Work} {b' : Booking} {q' : Option Queue} (frozen : Bool)
    (e : Encodes f (.active w))
    (hb : b' = { f.booking with
      status := .underReview, statusBeforeDispute := some f.booking.status
      paymentStatus := (Lifecycle.underReview w frozen).payment f.booking.paymentMethod })
    (hq : q'.map (fun q => (q.paymentStatus, q.status))
      = (Lifecycle.underReview w frozen).queueRow f.booking.paymentMethod) :
    Encodes { f with booking := b', queue := q' } (.underReview w frozen) := by
  subst hb
  constructor
  · exact fun paid => ⟨(e.allowed paid).1, by simp⟩
  · rfl
  · simp only [e.status]; rfl
  · rfl
  · exact fun v hv => e.started v hv
  · exact hq
  · exact e.completedService
  · cases method : f.booking.paymentMethod <;> simpa [method, Lifecycle.ledger] using e.ledger

theorem Encodes.disputed {w : Work} {b' : Booking} {q' : Option Queue}
    (e : Encodes f (.active w))
    (hb : b' = { f.booking with
      status := .disputed, statusBeforeDispute := some f.booking.status
      paymentStatus := f.booking.paymentMethod.paid .frozenHeld })
    (hq : q'.map (fun q => (q.paymentStatus, q.status))
      = (Lifecycle.disputed w).queueRow f.booking.paymentMethod) :
    Encodes { f with booking := b', queue := q' } (.disputed w) := by
  subst hb
  constructor
  · exact fun paid => ⟨(e.allowed paid).1, by simp⟩
  · rfl
  · simp only [e.status]; rfl
  · rfl
  · exact fun v hv => e.started v hv
  · exact hq
  · exact e.completedService
  · cases method : f.booking.paymentMethod <;> simpa [method, Lifecycle.ledger] using e.ledger

/-- Restoring a booking on hold returns it to its work. -/
theorem Encodes.restored {before : BookingStatus} (e : Encodes f l)
    (frozen : f.booking.status.frozen = true)
    (hb : f.booking.statusBeforeDispute = some before) :
    ∃ w, before = w.status ∧ Encodes (f.restored before) (.active w) ∧ Lifecycle.Step l (.active w) := by
  have hold : ∃ w, l.work = some w ∧ l.before = some w.status ∧ l.queueStatus = w.queueStatus
      ∧ l.isCompleted = false ∧ Lifecycle.Step l (.active w)
      ∧ l.ledger f.booking.paymentMethod = [] := by
    obtain ⟨w, rfl⟩ | ⟨w, b, rfl⟩ := e.frozen frozen
    · exact ⟨w, rfl, rfl, rfl, rfl, .restoreDisputed, by cases f.booking.paymentMethod <;> rfl⟩
    · exact ⟨w, rfl, rfl, rfl, rfl, .restoreReviewed, by cases f.booking.paymentMethod <;> rfl⟩
  obtain ⟨w, work, saved, queued, open_, step, ledger⟩ := hold
  obtain rfl : before = w.status := by
    have := hb.symm.trans (e.before.trans saved)
    simpa using this
  refine ⟨w, rfl, ?_, step⟩
  constructor
  · intro paid
    have unrequested := (e.allowed paid).1
    rw [work] at unrequested
    exact ⟨unrequested, by simp⟩
  · rfl
  · rfl
  · rfl
  · intro v hv
    obtain rfl : w = v := by simpa [Lifecycle.work] using hv
    exact e.started w work
  · have hq := e.queue
    cases method : f.booking.paymentMethod <;> cases present : f.queue <;>
      simp_all [Lifecycle.queueRow, BookingFile.restored, Lifecycle.payment, Lifecycle.queueStatus]
  · exact e.completedService.trans open_
  · simp only [BookingFile.restored, e.ledger, ledger]
    cases f.booking.paymentMethod <;> rfl

theorem restoreBookingIfNoBlockingCases_refines {ctx : Context} (e : Encodes f l)
    (h : restoreBookingIfNoBlockingCases ctx f = .ok f') : Refines l f' := by
  obtain ⟨rfl, -⟩ | ⟨before, -, frozen, saved, rfl⟩ := restoreBookingIfNoBlockingCases_ok h
  · exact ⟨l, e, .inl rfl⟩
  · obtain ⟨w, -, e', step⟩ := e.restored frozen saved
    exact ⟨_, e', .inr step⟩

/-- A finalized refund ends a live paid booking. -/
theorem Encodes.refunded (e : Encodes f l) {refundId : GatewayId} {status : RefundStatus}
    {amount : Centavos} (held : f.booking.paymentStatus.held = true) :
    Encodes { f.refunded refundId status with
      transactions := f.transactions ++ f.refundLedger refundId amount } .canceled := by
  obtain ⟨paid, live⟩ := e.held held
  have empty : f.transactions = [] := by
    have := e.ledger
    cases l <;> simp_all [Lifecycle.ledger, Lifecycle.terminal]
  have queued : f.queue.isSome = true := by
    have := e.queue
    cases present : f.queue <;> simp_all [Lifecycle.queueRow]
  obtain ⟨q, hq⟩ := Option.isSome_iff_exists.mp queued
  constructor
  · exact fun _ => ⟨by simp [Lifecycle.work], by simp⟩
  · rfl
  · rfl
  · simp [BookingFile.refunded, paid, Lifecycle.payment, PaymentMethod.paid]
  · intro v hv
    simp [Lifecycle.work] at hv
  · simp [BookingFile.refunded, hq, paid, Lifecycle.queueRow, Lifecycle.payment,
      PaymentMethod.paid, Lifecycle.queueStatus]
  · have := e.completedService
    cases l <;> simp_all [BookingFile.refunded, Lifecycle.isCompleted, Lifecycle.terminal]
  · simp [BookingFile.refundLedger, empty, BookingFile.refunded, paid, Lifecycle.ledger]

theorem finalizeRefund_refines {caller : Caller} {c : Commit} {resumed : Bool} {refundId : GatewayId}
    {status : RefundStatus} {amount : Centavos} (e : Encodes f l)
    (h : finalizeRefund caller resumed refundId status amount f = .ok c) : Refines l c.file := by
  obtain ⟨-, -, rfl⟩ | ⟨-, -, held, -, rfl⟩ := finalizeRefund_ok h
  · exact e.stutter (.refl f)
  · exact ⟨_, e.refunded held, .inr (.cancel (e.held held).2)⟩

/-- Without a held payment at the first read, the settlement of a cancellation meets a cash
    booking or one that has ended. -/
theorem settleCancellation_refines {caller : Caller} {c : Commit} {held : Bool} (e : Encodes f l)
    (read : held = false → f.booking.paymentMethod = .onsiteCash ∨ l.terminal = true)
    (h : settleCancellation caller held f = .ok c) : Refines l c.file := by
  obtain ⟨fresh, cancellable, direct, ⟨unheld, live, -, rfl⟩ | ⟨-, rfl⟩⟩ := settleCancellation_ok h
  · have open_ : l.terminal = false := by
      have hs := e.status
      cases l <;> simp_all [Lifecycle.status, BookingStatus.uncancellable, Lifecycle.terminal]
    have cash := (read unheld).resolve_right (by simp [open_])
    refine ⟨.canceled, ?_, .inr (.cancel open_)⟩
    constructor
    · simp [Lifecycle.allowed, cash]
    · rfl
    · rfl
    · have := e.payment
      cases l with
      | underReview w b => cases b <;> simp_all [Lifecycle.payment, PaymentMethod.paid]
      | _ => simp_all [Lifecycle.payment, PaymentMethod.paid, Lifecycle.terminal]
    · intro v hv
      simp [Lifecycle.work] at hv
    · have := e.queue
      simp_all [Lifecycle.queueRow]
    · simp [fresh, Lifecycle.isCompleted]
    · have := e.ledger
      simp_all [Lifecycle.ledger]
  · exact e.stutter ⟨rfl, rfl, rfl, rfl⟩

theorem settleCompletedBooking_refines {ctx : Context} {actor : SettlementActor} {c : Commit}
    (e : Encodes f l) (h : settleCompletedBooking ctx actor f = .ok c) : Refines l c.file := by
  obtain ⟨-, -, ⟨-, rfl⟩ | ⟨allowed, disputed, valid, fresh, completed, hc, rfl⟩⟩ :=
    settleCompletedBooking_ok h
  · exact e.stutter (.refl f)
  have awaiting : l.work = some .awaiting := by
    have hs := e.status
    have hb := e.before
    cases actor with
    | seeker userId =>
        have := e.of_work (w := .awaiting) (by simpa [SettlementActor.allows, Work.status] using allowed)
        rw [this]; rfl
    | admin =>
        simp only [SettlementActor.allows, Bool.or_eq_true, beq_iff_eq] at allowed
        obtain direct | frozen := allowed
        · rw [e.of_work (w := .awaiting) direct]; rfl
        · have saved := disputed rfl frozen
          obtain ⟨w, rfl⟩ | ⟨w, b, rfl⟩ := e.frozen frozen <;>
            cases w <;> simp_all [Lifecycle.before, Work.status, Lifecycle.work]
  have empty : f.transactions = [] := by
    have := e.ledger
    cases method : f.booking.paymentMethod <;> cases l <;>
      simp_all [Lifecycle.ledger, Lifecycle.work]
  have status : completed.paymentStatus = Lifecycle.completed.payment f.booking.paymentMethod := by
    cases method : f.booking.paymentMethod <;>
      simp [hc, settlementRecord, method, Lifecycle.payment]
  refine ⟨.completed, ?_, .inr (.confirm awaiting)⟩
  constructor
  · exact fun _ => ⟨by simp [Lifecycle.work], by simp⟩
  · rfl
  · rfl
  · exact status
  · intro v hv
    simp [Lifecycle.work] at hv
  · have hq := e.queue
    cases method : f.booking.paymentMethod <;> cases present : f.queue <;>
      simp_all [Lifecycle.queueRow, BookingFile.settled, Lifecycle.queueStatus]
  · rfl
  · cases method : f.booking.paymentMethod <;>
      simp [BookingFile.settled, BookingFile.earnings, method, empty, Lifecycle.ledger]

end Files

section Requests

variable {ctx : Context} {f : BookingFile} {l : Lifecycle} {c : Commit}

theorem respondToDirectBookingService_refines {providerId : UserId} {accept : Bool}
    (e : Encodes f l) (h : respondToDirectBookingService ctx providerId accept f = .ok c) :
    Refines l c.file := by
  obtain ⟨requested, direct, hc⟩ := respondToDirectBookingService_ok h
  obtain rfl := e.of_work (w := .requested) requested
  have cash : f.booking.paymentMethod = .onsiteCash := by
    cases method : f.booking.paymentMethod with
    | onsiteCash => rfl
    | gcash => exact absurd rfl (e.allowed method).1
  have payment := e.payment
  have queue := e.queue
  have ledger := e.ledger
  simp only [cash] at payment queue ledger
  obtain rfl | rfl := hc
  · refine ⟨.active .accepted, ⟨?_, rfl, e.before, ?_, ?_, ?_, e.completedService, ?_⟩,
      .inr .accept⟩
    · simp [Lifecycle.allowed, cash]
    · exact payment.trans (by rw [cash]; rfl)
    · intro w hw
      obtain rfl : Work.accepted = w := by simpa [Lifecycle.work] using hw
      rfl
    · exact queue.trans (by rw [cash]; rfl)
    · exact ledger.trans (by rw [cash]; rfl)
  · refine ⟨.declined, ⟨?_, rfl, e.before, ?_, ?_, ?_, e.completedService, ?_⟩, .inr .decline⟩
    · simp [Lifecycle.allowed, cash]
    · exact payment.trans (by rw [cash]; rfl)
    · intro w hw
      simp [Lifecycle.work] at hw
    · exact queue.trans (by rw [cash]; rfl)
    · exact ledger.trans (by rw [cash]; rfl)

theorem providerStartJob_refines {providerId : UserId} (e : Encodes f l)
    (h : providerStartJob ctx providerId f = .ok c) : Refines l c.file := by
  obtain ⟨-, ⟨-, accepted, cash, rfl⟩ | ⟨q, queued, paid, waiting, status, -, -, rfl⟩⟩ :=
    providerStartJob_ok h
  · obtain rfl := e.of_work (w := .accepted) accepted
    have payment := e.payment
    have queue := e.queue
    have ledger := e.ledger
    simp only [cash] at payment queue ledger
    refine ⟨.active .ongoing, ⟨?_, rfl, e.before, ?_, ?_, ?_, e.completedService, ?_⟩, .inr .start⟩
    · simp [Lifecycle.allowed, cash]
    · exact payment.trans (by rw [cash]; rfl)
    · intro w hw
      obtain rfl : Work.ongoing = w := by simpa [Lifecycle.work] using hw
      rfl
    · exact queue.trans (by rw [cash]; rfl)
    · exact ledger.trans (by rw [cash]; rfl)
  · obtain rfl := e.of_work (w := .accepted) (status.resolve_right e.not_waiting)
    have payment := e.payment
    have queue := e.queue
    have ledger := e.ledger
    simp only [paid, queued] at payment queue ledger
    refine ⟨.active .ongoing, ⟨?_, rfl, e.before, ?_, ?_, ?_, e.completedService, ?_⟩, .inr .start⟩
    · simp [Lifecycle.allowed, Lifecycle.work]
    · exact payment.trans (by rw [paid]; rfl)
    · intro w hw
      obtain rfl : Work.ongoing = w := by simpa [Lifecycle.work] using hw
      rfl
    · simp_all [Lifecycle.queueRow, Lifecycle.payment, Lifecycle.queueStatus, Work.queueStatus]
    · exact ledger.trans (by rw [paid]; rfl)

theorem markJobComplete_refines {providerId : UserId} (e : Encodes f l)
    (h : markJobComplete ctx providerId f = .ok c) : Refines l c.file := by
  obtain rfl | ⟨ongoing, rfl⟩ := markJobComplete_ok h
  · exact e.stutter (.refl f)
  obtain rfl := e.of_work (w := .ongoing) ongoing
  refine ⟨.active .awaiting, ⟨?_, rfl, e.before, ?_, ?_, ?_, e.completedService, ?_⟩, .inr .finish⟩
  · simp [Lifecycle.allowed, Lifecycle.work]
  · simpa [Lifecycle.payment] using e.payment
  · intro w hw
    obtain rfl : Work.awaiting = w := by simpa [Lifecycle.work] using hw
    exact e.started .ongoing rfl
  · have queue := e.queue
    cases method : f.booking.paymentMethod <;> cases present : f.queue <;>
      simp_all [Lifecycle.queueRow, Lifecycle.payment, Lifecycle.queueStatus, Work.queueStatus]
  · cases method : f.booking.paymentMethod <;> simpa [method, Lifecycle.ledger] using e.ledger

theorem disputeJobService_refines {seekerId : UserId} {reason : Option ReportReason}
    (e : Encodes f l) (h : disputeJobService ctx seekerId reason f = .ok c) : Refines l c.file := by
  obtain ⟨awaiting, -, report, escalations, -, -, -, -, rfl⟩ := disputeJobService_ok h
  obtain rfl := e.of_work (w := .awaiting) awaiting
  have queue := e.queue
  have e' : Encodes { f with
      booking := { f.booking with
        status := .disputed, statusBeforeDispute := some .awaitingConfirmation
        paymentStatus := f.booking.paymentMethod.paid .frozenHeld }
      queue := f.queue.map fun q =>
        { q with paymentStatus := f.booking.paymentMethod.paid .frozenHeld } }
      (.disputed .awaiting) := by
    refine e.disputed (by simp [awaiting]) ?_
    cases method : f.booking.paymentMethod <;> cases present : f.queue <;>
      simp_all [Lifecycle.queueRow, Lifecycle.payment, Lifecycle.queueStatus]
  exact ⟨_, e'.same ⟨rfl, rfl, rfl, rfl⟩, .inr .dispute⟩

theorem createSafetyReport_refines {reporterId : UserId} {reason : ReportReason} {description : Nat}
    {folder : Option UserId} (e : Encodes f l)
    (h : createSafetyReport ctx reporterId reason description folder f = .ok c) :
    Refines l c.file := by
  obtain ⟨-, -, rfl | ⟨report, -, -, -, ⟨-, rfl⟩ | ⟨pausable, rfl⟩⟩⟩ := createSafetyReport_ok h
  · exact e.stutter (.refl f)
  · exact e.stutter ⟨rfl, rfl, rfl, rfl⟩
  have live : ∃ w, l = .active w := by
    have hs := e.status
    cases l <;> simp_all [Lifecycle.status, BookingStatus.pausable]
  obtain ⟨w, rfl⟩ := live
  have payment := e.payment
  have queue := e.queue
  have e' : Encodes { f with
      booking := { f.booking with
        status := .disputed, statusBeforeDispute := some f.booking.status
        paymentStatus :=
          if f.booking.paymentStatus = .paidHeld then .frozenHeld else f.booking.paymentStatus }
      queue :=
        if f.booking.paymentStatus = .paidHeld then
          f.queue.map fun q => { q with paymentStatus := .frozenHeld }
        else f.queue } (.disputed w) := by
    cases method : f.booking.paymentMethod <;> cases present : f.queue <;>
      simp_all [Lifecycle.queueRow, Lifecycle.payment, PaymentMethod.paid]
    · refine e.disputed (by simp [method, PaymentMethod.paid]) ?_
      simp only [method, Lifecycle.queueRow, Option.map_some]
      rfl
    · exact e.disputed (by simp [method, PaymentMethod.paid]) (by simp [Lifecycle.queueRow, method])
  exact ⟨_, e'.same ⟨rfl, rfl, rfl, rfl⟩, .inr .dispute⟩

theorem requestCancellation_refines {userId : UserId} (e : Encodes f l)
    (h : requestCancellation userId f = .ok c) : Refines l c.file := by
  obtain ⟨-, ⟨_, -, -, -, rfl⟩ | rfl |
    ⟨-, live, refuses, -, request, -, -, -, ⟨-, -, -, rfl⟩ | ⟨-, -, -, rfl⟩⟩⟩ :=
    requestCancellation_ok h
  · exact e.stutter (.refl f)
  · exact e.stutter (.refl f)
  · have open_ : ∃ w, l = .active w := by
      have hs := e.status
      cases l <;> simp_all [Lifecycle.status, BookingStatus.refusesCancellation]
    obtain ⟨w, rfl⟩ := open_
    have payment := e.payment
    have queue := e.queue
    have e' : Encodes { f with
        booking := { f.booking with
          status := .underReview, statusBeforeDispute := some f.booking.status
          paymentStatus :=
            if f.booking.paymentStatus = .paidHeld then .frozenHeld else f.booking.paymentStatus }
        queue :=
          if f.booking.paymentStatus = .paidHeld then
            f.queue.map ({ · with paymentStatus := .frozenHeld })
          else f.queue } (.underReview w true) := by
      cases method : f.booking.paymentMethod <;> cases present : f.queue <;>
        simp_all [Lifecycle.queueRow, Lifecycle.payment, PaymentMethod.paid]
      · refine e.reviewed true (by simp [method, Lifecycle.payment, PaymentMethod.paid]) ?_
        simp only [method, Lifecycle.queueRow, Option.map_some]
        rfl
      · exact e.reviewed true (by simp [method, Lifecycle.payment, PaymentMethod.paid])
          (by simp [Lifecycle.queueRow, method])
    exact ⟨_, e'.same ⟨rfl, rfl, rfl, rfl⟩, .inr .review⟩
  · exact e.stutter ⟨rfl, rfl, rfl, rfl⟩

theorem createCompletionEscalation_refines {providerId : UserId} (e : Encodes f l)
    (h : createCompletionEscalation ctx providerId f = .ok c) : Refines l c.file := by
  obtain ⟨-, -, -, rfl | ⟨-, rfl⟩⟩ := createCompletionEscalation_ok h
  · exact e.stutter (.refl f)
  · exact e.stutter ⟨rfl, rfl, rfl, rfl⟩

theorem startModerationReview_refines {source : ModerationSource} (e : Encodes f l)
    (h : startModerationReview source f = .ok c) : Refines l c.file := by
  obtain ⟨reports, requests, escalations, rfl, -⟩ := startModerationReview_ok h
  exact e.stutter ⟨rfl, rfl, rfl, rfl⟩

theorem approveCancellationRequest_refines {id : Nat} {responderId : UserId} (e : Encodes f l)
    (h : approveCancellationRequest id responderId f = .ok c) : Refines l c.file := by
  obtain rfl | ⟨_, _, _, -, -, -, claim, ⟨-, rfl⟩ | ⟨-, rfl⟩⟩ := approveCancellationRequest_ok h
  · exact e.stutter (.refl f)
  · exact e.stutter claim.sameLifecycle
  · exact e.stutter (claim.sameLifecycle.trans (updateCancellation_same ..))

theorem escalateCancellationRequest_refines {id : Nat} {userId : UserId} (e : Encodes f l)
    (h : escalateCancellationRequest id userId f = .ok c) : Refines l c.file := by
  obtain rfl | ⟨-, -, report, -, -, -, rfl⟩ := escalateCancellationRequest_ok h
  · exact e.stutter (.refl f)
  · exact e.stutter ⟨rfl, rfl, rfl, rfl⟩

theorem claimAdminCancellation_refines {id : Nat} {approve : Bool} {adminId : UserId} {fault : Fault}
    {note : Nat} (e : Encodes f l)
    (h : claimAdminCancellation id approve adminId fault note f = .ok c) : Refines l c.file := by
  obtain rfl | ⟨_, _, _, -, -, claim, ⟨-, rfl⟩ | ⟨-, _, -, -, rfl⟩⟩ :=
    claimAdminCancellation_ok h
  · exact e.stutter (.refl f)
  · exact e.stutter claim.sameLifecycle
  · refine e.stutter (claim.sameLifecycle.trans ?_)
    exact ⟨rfl, rfl, rfl, rfl⟩

theorem claimReport_refines {id : Nat} {adminId : UserId} {outcome : ReportOutcome}
    {penalty : ReportPenalty} {notes : Nat} (e : Encodes f l)
    (h : claimReport ctx id adminId outcome penalty notes f = .ok c) : Refines l c.file := by
  obtain rfl | ⟨_, _, _, -, -, -, claim, ⟨-, rfl⟩ | ⟨-, rfl⟩⟩ := claimReport_ok h
  · exact e.stutter (.refl f)
  · exact e.stutter claim.sameLifecycle
  · exact e.stutter (claim.sameLifecycle.trans (updateReport_same ..))

theorem claimEscalation_refines {id : Nat} {adminId : UserId} {action : EscalationAction}
    (e : Encodes f l) (h : claimEscalation id adminId action f = .ok c) : Refines l c.file := by
  obtain rfl | ⟨_, _, _, -, -, claim, ⟨-, rfl⟩ | ⟨-, rfl⟩⟩ := claimEscalation_ok h
  · exact e.stutter (.refl f)
  · exact e.stutter claim.sameLifecycle
  · exact e.stutter (claim.sameLifecycle.trans (updateEscalation_same ..))

/-- A booking decision of an administrator takes a live booking on hold without freezing it. -/
theorem Encodes.heldForAdmin {outcome : AdminBookingOutcome} {hasBanned : Bool} (e : Encodes f l)
    (allowed : adminBookingOutcomeAllowed f.booking hasBanned outcome = true) :
    ∃ w, l = .active w ∧ Encodes f.heldForAdmin (.underReview w false) := by
  have live : ∃ w, l = .active w := by
    have hs := e.status
    cases l <;> cases outcome <;>
      simp_all [Lifecycle.status, adminBookingOutcomeAllowed]
  obtain ⟨w, rfl⟩ := live
  refine ⟨w, rfl, ?_⟩
  have payment := e.payment
  refine e.reviewed false (by simp only [payment]; rfl) (e.queue.trans ?_)
  cases f.booking.paymentMethod <;> rfl

theorem markStage_same {ref : CaseRef} {stage : OperationStage} {marked : BookingFile}
    {op : AdminResolutionOperation} (unfinished : stage ≠ .caseFinalized)
    (h : markAdminResolutionStageInTransaction f ref stage = .ok (marked, op)) :
    SameLifecycle f marked := by
  obtain ⟨_, -, -, written, -⟩ := markAdminResolutionStageInTransaction_ok unfinished h
  exact written.sameLifecycle

theorem claimAdminBooking_refines {adminId : UserId} {outcome : AdminBookingOutcome} {banned : Bool}
    (e : Encodes f l) (h : claimAdminBooking ctx adminId outcome banned f = .ok c) :
    Refines l c.file := by
  obtain rfl | ⟨claimed, op, claim, h⟩ := claimAdminBooking_ok h
  · exact e.stutter (.refl f)
  obtain ⟨-, rfl⟩ | ⟨-, rfl⟩ | ⟨-, -, -, -, rfl⟩ | ⟨-, ⟨_, allowed⟩, -, -, reserved, _, marked, -, rfl⟩ :=
    h
  · exact e.stutter claim.sameLifecycle
  · exact e.stutter claim.sameLifecycle
  · exact e.stutter claim.sameLifecycle
  · obtain ⟨ops, same⟩ := claim.written.rows
    have e' : Encodes claimed l := e.same claim.sameLifecycle
    obtain ⟨w, rfl, held⟩ := e'.heldForAdmin (by rw [same]; exact allowed)
    exact ⟨_, held.same (markStage_same (by decide) marked), .inr .review⟩

theorem requestTransaction_refines {r : Request} (e : Encodes f l)
    (h : requestTransaction ctx r f = .ok c) : Refines l c.file := by
  cases r with
  | respondToDirectBooking => exact respondToDirectBookingService_refines e h
  | providerStartJob => exact providerStartJob_refines e h
  | markJobComplete => exact markJobComplete_refines e h
  | confirmCompletion => exact settleCompletedBooking_refines e h
  | disputeJob => exact disputeJobService_refines e h
  | createSafetyReport => exact createSafetyReport_refines e h
  | createCompletionEscalation => exact createCompletionEscalation_refines e h
  | startModerationReview => exact startModerationReview_refines e h
  | requestCancellation => exact requestCancellation_refines e h
  | declineCancellation =>
      obtain ⟨-, rfl⟩ := declineCancellationRequest_ok h
      exact e.stutter (updateCancellation_same ..)
  | approveCancellation => exact approveCancellationRequest_refines e h
  | escalateCancellation => exact escalateCancellationRequest_refines e h
  | adminResolveCancellation => exact claimAdminCancellation_refines e h
  | resolveAdminReport => exact claimReport_refines e h
  | resolveCompletionEscalation => exact claimEscalation_refines e h
  | resolveAdminBooking => exact claimAdminBooking_refines e h

end Requests

section Calls

variable {ctx : Context} {f : BookingFile} {l : Lifecycle} {c : Commit} {caller : Caller}

theorem reserveCompletionFinancialOutcome_refines {id : Nat} {effect : Stage} (e : Encodes f l)
    (h : reserveCompletionFinancialOutcome caller id effect f = .ok c) : Refines l c.file := by
  obtain ⟨_, o, -, -, -, ⟨-, rfl⟩ | ⟨held, reserved, _, -, hold, marked, rfl⟩⟩ :=
    reserveCompletionFinancialOutcome_ok h
  · exact e.stutter (.refl f)
  obtain ⟨-, -, rfl⟩ | ⟨awaiting, rfl⟩ := hold
  · exact e.stutter (markStage_same (by decide) marked)
  · obtain rfl := e.of_work (w := .awaiting) awaiting
    have payment := e.payment
    have e' : Encodes f.heldForEscalation (.underReview .awaiting false) := by
      refine e.reviewed false ?_ (e.queue.trans ?_)
      · simp only [awaiting, payment]
        rfl
      · cases f.booking.paymentMethod <;> rfl
    exact ⟨_, e'.same (markStage_same (by decide) marked), .inr .review⟩

theorem reserveOutcome_refines (e : Encodes f l) (h : reserveOutcome caller f = .ok c) :
    Refines l c.file := by
  cases caller with
  | refundBookingPayment | requestCancellation | resolveAdminBooking => simp [reserveOutcome] at h
  | respondToCancellationRequest | adminResolveCancellationRequest =>
      obtain ⟨_, _, -, -, -, ⟨-, rfl⟩ | ⟨_, _, -, marked, rfl⟩⟩ :=
        reserveCancellationFinancialOutcome_ok h
      · exact e.stutter (.refl f)
      · exact e.stutter (markStage_same (by decide) marked)
  | resolveAdminReport =>
      obtain ⟨_, _, -, -, -, ⟨-, rfl⟩ | ⟨_, _, -, marked, rfl⟩⟩ := reserveReportFinancialOutcome_ok h
      · exact e.stutter (.refl f)
      · exact e.stutter (markStage_same (by decide) marked)
  | resolveCompletionEscalation => exact reserveCompletionFinancialOutcome_refines e h

theorem finalizeCase_refines (e : Encodes f l) (h : finalizeCase ctx caller f = .ok c) :
    Refines l c.file := by
  cases caller with
  | refundBookingPayment => simp [finalizeCase] at h
  | requestCancellation =>
      obtain ⟨-, rfl⟩ := finalizeImmediateCancellation_ok h
      exact e.stutter (updateCancellation_same ..)
  | respondToCancellationRequest =>
      obtain rfl | ⟨-, rfl⟩ := finalizeParticipantApproval_ok h
      · exact e.stutter (.refl f)
      · exact e.stutter ⟨rfl, rfl, rfl, rfl⟩
  | adminResolveCancellationRequest =>
      obtain rfl | ⟨_, closed, _, hclosed, ⟨-, -, rfl⟩ | ⟨-, restored⟩, -, rfl⟩ :=
        finalizeAdminCancellation_ok h
      · exact e.stutter (.refl f)
      · exact e.stutter (by rw [hclosed]; exact ⟨rfl, rfl, rfl, rfl⟩)
      · have e' : Encodes closed l := e.same (by rw [hclosed]; exact ⟨rfl, rfl, rfl, rfl⟩)
        exact (restoreBookingIfNoBlockingCases_refines e' restored).same (completeOperation_same ..)
  | resolveAdminReport =>
      obtain rfl | ⟨_, closed, _, _, -, -, -, hclosed, ⟨-, -, rfl⟩ | ⟨-, -, rfl⟩ | ⟨-, restored⟩, rfl⟩ :=
        finalizeReport_ok h
      · exact e.stutter (.refl f)
      · exact e.stutter (by rw [hclosed]; exact ⟨rfl, rfl, rfl, rfl⟩)
      · exact e.stutter (by rw [hclosed]; exact ⟨rfl, rfl, rfl, rfl⟩)
      · have e' : Encodes closed l := e.same (by rw [hclosed]; exact ⟨rfl, rfl, rfl, rfl⟩)
        exact (restoreBookingIfNoBlockingCases_refines e' restored).same (completeOperation_same ..)
  | resolveCompletionEscalation =>
      obtain rfl | ⟨-, -, -, -, rfl⟩ := finalizeEscalation_ok h
      · exact e.stutter (.refl f)
      · exact e.stutter ⟨rfl, rfl, rfl, rfl⟩
  | resolveAdminBooking =>
      obtain rfl | ⟨-, -, rfl⟩ := finalizeAdminBooking_ok h
      · exact e.stutter (.refl f)
      · exact e.stutter ⟨rfl, rfl, rfl, rfl⟩

/-- The call has read a booking without a held online payment. -/
def Stage.readUnheld : Stage → Prop
  | .cancelSettle held => held = false
  | .preStartCheck booking => booking.paymentStatus.held = false
  | _ => False

theorem Encodes.unheld (e : Encodes f l) (h : f.booking.paymentStatus.held = false) :
    f.booking.paymentMethod = .onsiteCash ∨ l.terminal = true := by
  cases method : f.booking.paymentMethod with
  | onsiteCash => exact .inl rfl
  | gcash =>
      refine .inr ?_
      by_contra live
      simp [e.paid_held method (by simpa using live)] at h

/-- What is not held stays so. -/
theorem Refines.unheld {f' : BookingFile} (e : Encodes f l) (h : Refines l f')
    (terms : SameTerms f f') (unheld : f.booking.paymentStatus.held = false) :
    f'.booking.paymentStatus.held = false := by
  obtain ⟨l', e', change⟩ := h
  by_contra held
  obtain ⟨paid, live⟩ := e'.held (by simpa using held)
  rw [terms.paymentMethod] at paid
  obtain cash | ended := e.unheld unheld
  · simp [cash] at paid
  · obtain rfl | step := change
    · simp [live] at ended
    · simp [step.from_live] at ended

theorem transaction_refines {answer : Answer} {call : Call} (e : Encodes f l)
    (read : call.stage.readUnheld → f.booking.paymentStatus.held = false)
    (h : call.transaction ctx answer f = .ok c) : Refines l c.file := by
  obtain ⟨caller, stage⟩ := call
  cases stage with
  | reserve => exact reserveOutcome_refines e h
  | cancelRead => obtain ⟨-, rfl | rfl⟩ := readCancelBooking_ok h <;> exact e.stutter (.refl f)
  | preStartCheck =>
      obtain ⟨-, -, rfl⟩ := checkPreStart_ok h
      exact e.stutter (.refl f)
  | refundRead =>
      obtain ⟨_, -, rfl⟩ := readRefundBooking_ok h
      exact e.stutter (.refl f)
  | refundExisting => obtain ⟨-, -, rfl⟩ | rfl := readExistingRefund_ok h <;> exact e.stutter (.refl f)
  | refundIntent =>
      cases answer with
      | intent =>
          obtain ⟨_, -, rfl⟩ := checkRefundIntent_ok h
          exact e.stutter (.refl f)
      | _ => simp [Call.transaction] at h
  | refundReserve =>
      obtain ⟨-, -, ⟨_, _, -, -, rfl⟩ | ⟨-, rfl⟩ | ⟨-, -, rfl⟩⟩ := reserveRefund_ok h
      · exact e.stutter (.refl f)
      · exact e.stutter (.refl f)
      · exact e.stutter ⟨rfl, rfl, rfl, rfl⟩
  | refundFinalize => exact finalizeRefund_refines e h
  | refundCreate | refundCaught | markFailed => simp [Call.transaction] at h
  | cancelSettle => exact settleCancellation_refines e (fun unheld => e.unheld (read unheld)) h
  | settle =>
      obtain ⟨_, settled, rfl⟩ := settleByAdmin_ok h
      have refined := settleCompletedBooking_refines e settled
      exact refined
  | markEstablished | markDecisionReady =>
      obtain ⟨_, _, _, -, marked, rfl⟩ := markStage_ok h
      exact e.stutter (markStage_same (by decide) marked)
  | finalize => exact finalizeCase_refines e h

end Calls

section Runs

variable {s : BookingSystem} {a : Action} {f' : BookingFile} {g' : Option GatewayRefund}
  {next : Option Call} {l : Lifecycle}

theorem Encodes.created {f : BookingFile} (h : f.Created) : ∃ l, Encodes f l := by
  cases h with
  | cashRequest t =>
      refine ⟨.active .requested, ⟨by simp [Lifecycle.allowed, Terms.cashRequest], rfl, rfl, rfl,
        fun w hw => ?_, rfl, rfl, rfl⟩⟩
      cases hw
      rfl
  | cashOffer t =>
      refine ⟨.active .accepted, ⟨by simp [Lifecycle.allowed, Terms.cashOffer], rfl, rfl, rfl,
        fun w hw => ?_, rfl, rfl, rfl⟩⟩
      cases hw
      rfl
  | paidCapture t =>
      refine ⟨.active .accepted, ⟨by simp [Lifecycle.allowed, Lifecycle.work], rfl, rfl, rfl,
        fun w hw => ?_, rfl, rfl, rfl⟩⟩
      cases hw
      rfl

/-- Every event keeps the lifecycle state or makes one of its transitions. -/
theorem Event.refines (e : Encodes s.file l)
    (read : ∀ c ∈ s.calls, c.stage.readUnheld → s.file.booking.paymentStatus.held = false)
    (h : Event s a f' g' next) : Refines l f' := by
  cases h with
  | requested run => exact requestTransaction_refines e run
  | committed found run =>
      exact transaction_refines e (read _ (List.mem_of_getElem? found)) run
  | renumbered =>
      refine e.stutter ⟨rfl, ?_, rfl, rfl⟩
      cases queued : s.file.queue <;> simp [BookingFile.renumbered, queued]
  | refundCaught | markedFailed => exact e.stutter ⟨rfl, rfl, rfl, rfl⟩
  | _ => exact e.stutter (.refl _)

theorem Event.next_readUnheld
    (read : ∀ c ∈ s.calls, c.stage.readUnheld → s.file.booking.paymentStatus.held = false)
    (h : Event s a f' g' next) {c : Call} (hc : next = some c) (unheld : c.stage.readUnheld) :
    s.file.booking.paymentStatus.held = false := by
  cases h with
  | requested run =>
      have opening := requestTransaction_opening run hc
      obtain ⟨caller, stage⟩ := c
      cases stage <;> simp_all [Stage.opening, Stage.readUnheld]
  | @committed _ _ _ call _ found run =>
      obtain ⟨-, flow⟩ := transaction_next run hc
      have known := read call (List.mem_of_getElem? found)
      obtain ⟨caller, stage⟩ := call
      obtain ⟨_, stage'⟩ := c
      cases flow with
      | reserved opening => cases stage' <;> simp_all [Stage.opening, Stage.readUnheld]
      | cancelChecked => exact unheld
      | cancelUnheld now => exact now
      | preStartUnheld before => exact known before
      | _ => simp [Stage.readUnheld] at unheld
  | aborted | refundCaught =>
      rw [unwound_eq hc] at unheld
      exact unheld.elim
  | refundCalled | refundExecuted | refundTimedOut | refundFailed =>
      cases hc
      exact unheld.elim
  | markedFailed | stopped | renumbered => cases hc

/-- The columns always encode a lifecycle state. -/
theorem reachable_encodes {C : BookingSystem → Action → Prop}
    (h : refundMachine.ReachableUnder C s) :
    Coupled (fun f _ => ∃ l, Encodes f l)
      (fun f _ c => c.stage.readUnheld → f.booking.paymentStatus.held = false) s := by
  refine Coupled.reachableUnder (fun f new => Encodes.created new) ?_ h
  intro s a f' g' next _ hs _ event
  obtain ⟨l, e⟩ := hs.file
  have refines := event.refines e hs.calls
  have stays := refines.unheld e event.sameTerms
  constructor
  · obtain ⟨l', e', -⟩ := refines
    exact ⟨l', e'⟩
  · exact fun c _ known unheld => stays (known unheld)
  · exact fun c hc unheld => stays (event.next_readUnheld hs.calls hc unheld)

/-- An event of a reachable booking is a step of its lifecycle, or none. -/
theorem Event.reachable_refines {C : BookingSystem → Action → Prop}
    (reached : refundMachine.ReachableUnder C s) (h : Event s a f' g' next) :
    ∃ l, Encodes s.file l ∧ Refines l f' := by
  have known := reachable_encodes reached
  obtain ⟨l, e⟩ := known.file
  exact ⟨l, e, h.refines e known.calls⟩

end Runs

end ServiceHub
