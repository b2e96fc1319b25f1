import ServiceHub.Booking.Renumbers

/-! # What a booking writes to its request

The transaction that ends a booking writes the request of its offer: a settlement closes it, a refund or a
cancellation cancels it. No other transaction does, so the two statuses change together.
-/

namespace ServiceHub

open Guard

/-- The status of the request that led to a booking of the status. -/
def BookingStatus.requestStatus : BookingStatus → RequestStatus
  | .completed => .closed
  | .canceled => .canceled
  | _ => .inProgress

/-- The request follows the booking through the transaction. -/
def Commit.Follows (f : BookingFile) (c : Commit) : Prop :=
  c.requestStatus.getD f.booking.status.requestStatus = c.file.booking.status.requestStatus

/-- The call has read that the booking is cancelled. -/
def Stage.readCanceled : Stage → Prop
  | .refundExisting b _ => b.status = .canceled
  | .cancelSettle held => held = true
  | _ => False

section Transactions

variable {ctx : Context} {f : BookingFile} {c : Commit} {l : Lifecycle}

theorem Commit.Follows.of_kept (unwritten : c.requestStatus = none)
    (same : c.file.booking.status = f.booking.status) : c.Follows f := by
  simp [Commit.Follows, unwritten, same]

/-- Before and after, the booking has not ended. -/
theorem Commit.Follows.of_live (unwritten : c.requestStatus = none)
    (before : f.booking.status.requestStatus = .inProgress)
    (after : c.file.booking.status.requestStatus = .inProgress) : c.Follows f := by
  simp [Commit.Follows, unwritten, before, after]

theorem Work.requestStatus (w : Work) : w.status.requestStatus = .inProgress := by
  cases w <;> rfl

theorem BookingStatus.requestStatus_of_frozen {status : BookingStatus} (h : status.frozen = true) :
    status.requestStatus = .inProgress := by
  cases status <;> simp_all [BookingStatus.frozen, BookingStatus.requestStatus]

theorem settleCompletedBooking_follows {actor : SettlementActor}
    (h : settleCompletedBooking ctx actor f = .ok c) : c.Follows f := by
  obtain ⟨-, -, ⟨-, rfl⟩ | ⟨-, -, -, -, _, -, rfl⟩⟩ := settleCompletedBooking_ok h <;> rfl

theorem requestTransaction_follows {r : Request} (e : Encodes f l) (h : requestTransaction ctx r f = .ok c) :
    c.Follows f := by
  have refines := requestTransaction_refines e h
  have unwritten : c.requestStatus = none ∨ ∃ seekerId, r = .confirmCompletion seekerId := by
    obtain quiet | ⟨providerId, rfl⟩ | ⟨providerId, rfl⟩ | confirm := requestTransaction_quiet h
    · exact .inl quiet.requestStatus
    · obtain ⟨-, ⟨-, -, -, rfl⟩ | ⟨_, -, -, -, -, -, -, rfl⟩⟩ := providerStartJob_ok h <;> exact .inl rfl
    · obtain rfl | ⟨-, rfl⟩ := markJobComplete_ok h <;> exact .inl rfl
    · exact .inr confirm
  obtain unwritten | ⟨seekerId, rfl⟩ := unwritten
  · cases requestTransaction_status h with
    | kept same => exact .of_kept unwritten same.1
    | advanced before after =>
        refine .of_live unwritten ?_ ?_
        · rcases before with status | status | status | status <;> rw [status] <;> rfl
        · cases status : c.file.booking.status <;>
            simp_all [BookingStatus.advanced, BookingStatus.requestStatus]
    | held _ after saved =>
        obtain ⟨l', e', -⟩ := refines
        obtain ⟨w, before⟩ := e'.saved saved
        exact .of_live unwritten (before ▸ w.requestStatus) (BookingStatus.requestStatus_of_frozen after)
    | settled run => exact settleCompletedBooking_follows run
  · exact settleCompletedBooking_follows h

theorem transaction_follows {answer : Answer} {call : Call} (e : Encodes f l)
    (read : call.stage.readCanceled → f.booking.status = .canceled)
    (h : call.transaction ctx answer f = .ok c) : c.Follows f := by
  obtain ⟨caller, stage⟩ := call
  by_cases settles : stage.settles = true
  · cases stage with
    | refundFinalize => obtain ⟨-, -, rfl⟩ | ⟨-, -, -, -, rfl⟩ := finalizeRefund_ok h <;> rfl
    | cancelSettle held =>
        obtain ⟨-, -, _, ⟨-, -, -, rfl⟩ | ⟨settled, rfl⟩⟩ := settleCancellation_ok h
        · rfl
        · have canceled : f.booking.status = .canceled := settled.elim read id
          simp [Commit.Follows, canceled, BookingStatus.requestStatus]
    | settle =>
        obtain ⟨settled, run, rfl⟩ := settleByAdmin_ok h
        have follows : settled.Follows f := settleCompletedBooking_follows run
        exact follows
    | _ => cases settles
  · have unwritten := ((transaction_quiet h).resolve_right settles).requestStatus
    cases transaction_status h with
    | kept same => exact .of_kept unwritten same.1
    | held before after => exact .of_live unwritten (by rw [before]; rfl) (by rw [after]; rfl)
    | restored frozen saved after =>
        obtain ⟨w, rfl⟩ := e.saved saved
        exact .of_live unwritten (BookingStatus.requestStatus_of_frozen frozen) (after ▸ w.requestStatus)
    | refunded | canceled | settled => exact absurd rfl settles

end Transactions

section Runs

variable {x x' : BookingSystem} {a : Action} {f' : BookingFile} {g' : Option GatewayRefund} {next : Option Call}
  {l : Lifecycle} {C : BookingSystem → Action → Prop}

theorem Event.next_readCanceled (e : Encodes x.file l) (refines : Refines l f')
    (read : ∀ c ∈ x.calls, c.stage.readCanceled → x.file.booking.status = .canceled)
    (h : Event x a f' g' next) {c : Call} (hc : next = some c) (seen : c.stage.readCanceled) :
    f'.booking.status = .canceled := by
  cases h with
  | requested run =>
      have opening := requestTransaction_opening run hc
      obtain ⟨caller, stage⟩ := c
      cases stage <;> simp_all [Stage.opening, Stage.readCanceled]
  | @committed _ _ _ call _ found run =>
      obtain ⟨-, flow⟩ := transaction_next run hc
      have known := read call (List.mem_of_getElem? found)
      obtain ⟨caller, stage⟩ := call
      obtain ⟨_, stage'⟩ := c
      cases flow with
      | reserved opening => cases stage' <;> simp_all [Stage.opening, Stage.readCanceled]
      | refundRead => exact refines.canceled e seen
      | refundReturned canceled => exact refines.canceled e (known canceled)
      | refundFinalized =>
          obtain ⟨canceled, -, rfl⟩ | ⟨-, -, -, -, rfl⟩ := finalizeRefund_ok run
          · exact canceled
          · rfl
      | _ => simp [Stage.readCanceled] at seen
  | aborted | refundCaught =>
      rw [unwound_eq hc] at seen
      exact seen.elim
  | refundCalled | refundExecuted | refundTimedOut | refundFailed =>
      cases hc
      exact seen.elim
  | markedFailed | stopped | renumbered => cases hc

/-- A call goes on to settle a cancelled booking only when it is cancelled. -/
theorem reachable_readCanceled (h : refundMachine.ReachableUnder C x) :
    ∀ c ∈ x.calls, c.stage.readCanceled → x.file.booking.status = .canceled := by
  refine (Coupled.reachableUnder (I := fun _ _ => True)
    (P := fun f _ c => c.stage.readCanceled → f.booking.status = .canceled) (fun _ _ => trivial) ?_ h).calls
  intro x a f' g' next reached known _ event
  obtain ⟨l, e, refines⟩ := event.reachable_refines reached
  exact ⟨trivial, fun c _ kept seen => refines.canceled e (kept seen),
    fun c hc seen => event.next_readCanceled e refines known.calls hc seen⟩

theorem BookingSystem.step_requestStatus {ctx : Context} {st : Step} {effects : Effects}
    (reached : bookingMachine.Reachable x) (h : x.step ctx st = some (x', effects)) :
    effects.requestStatus.getD x.file.booking.status.requestStatus = x'.file.booking.status.requestStatus := by
  have known := bookingMachine_reachableUnder reached
  obtain ⟨l, e⟩ := (reachable_encodes known).file
  cases st with
  | request r =>
      simp only [BookingSystem.step, BookingSystem.request] at h
      split at h
      · rename_i c run
        obtain ⟨rfl, rfl⟩ := Prod.mk.inj (Option.some.inj h)
        exact requestTransaction_follows e run
      · cases h
  | refund =>
      obtain ⟨rfl, rfl⟩ := Prod.mk.inj (Option.some.inj h)
      rfl
  | crash k =>
      simp only [BookingSystem.step] at h
      split at h
      · obtain ⟨rfl, rfl⟩ := Prod.mk.inj (Option.some.inj h)
        rfl
      · cases h
  | resume k answer =>
      simp only [BookingSystem.step, BookingSystem.resume, Option.bind_eq_some_iff] at h
      obtain ⟨⟨caller, stage⟩, found, h⟩ := h
      have read := reachable_readCanceled known _ (List.mem_of_getElem? found)
      cases stage with
      | refundCreate =>
          cases answer with
          | refunded | timedOut | failed =>
              obtain ⟨rfl, rfl⟩ := Prod.mk.inj (Option.some.inj h)
              rfl
          | none | intent => simp at h
      | refundCaught =>
          obtain ⟨rfl, rfl⟩ := Prod.mk.inj (Option.some.inj h)
          rfl
      | markFailed =>
          obtain ⟨rfl, rfl⟩ := Prod.mk.inj (Option.some.inj h)
          cases caller.operation <;> rfl
      | _ =>
          simp only at h
          split at h
          · rename_i c run
            obtain ⟨rfl, rfl⟩ := Prod.mk.inj (Option.some.inj h)
            exact transaction_follows e read run
          · obtain ⟨rfl, rfl⟩ := Prod.mk.inj (Option.some.inj h)
            rfl

/-- The booking was agreed on when it was created: no answer is awaited or was declined. -/
def Lifecycle.Agreed (l : Lifecycle) : Prop :=
  l.work ≠ some .requested ∧ l ≠ .declined

theorem Lifecycle.Step.agreed {l' : Lifecycle} (h : Lifecycle.Step l l') (agreed : l.Agreed) : l'.Agreed := by
  obtain ⟨unrequested, undeclined⟩ := agreed
  cases h <;> simp_all [Lifecycle.Agreed, Lifecycle.work]

/-- The booking of an offer is accepted when it is created. -/
theorem offered_agreed (h : refundMachine.ReachableUnder C x) (offered : x.file.booking.offerId.isSome = true) :
    ∃ l, Encodes x.file l ∧ l.Agreed := by
  refine (Coupled.reachableUnder
    (I := fun f _ => f.booking.offerId.isSome = true → ∃ l, Encodes f l ∧ l.Agreed)
    (P := fun _ _ _ => True) (fun f created offered => ?_) ?_ h).file offered
  · obtain ⟨l, e⟩ := Encodes.created created
    refine ⟨l, e, ?_⟩
    have status := e.status
    cases created with
    | cashRequest t => simp [Terms.cashRequest] at offered
    | cashOffer | paidCapture =>
        obtain rfl := e.of_work (w := .accepted) rfl
        exact ⟨by simp [Lifecycle.work], by simp⟩
  · intro x a f' g' next reached known _ event
    refine ⟨fun offered => ?_, fun _ _ _ => trivial, fun _ _ => trivial⟩
    have same := event.sameTerms.column Booking.offerId fun _ => rfl
    obtain ⟨l, e, agreed⟩ := known.file (same ▸ offered)
    obtain ⟨l', e', rfl | step⟩ := event.refines e (reachable_encodes reached).calls
    · exact ⟨l', e', agreed⟩
    · exact ⟨l', e', step.agreed agreed⟩

end Runs

end ServiceHub
