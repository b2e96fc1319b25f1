import ServiceHub.Market.Settlement

/-! # A captured payment is settled once

An attempt ends in its booking or in a refund. The error path of `initiateOnlinePayment` writes `FAILED`
whatever the status is; while it meets no attempt that has ended, the status says whether the booking exists,
and an attempt with a booking is not refunded.
-/

namespace ServiceHub

open Guard

variable {s s' : MarketSystem} {m t : Market} {act : MarketAction} {next : Option PaymentCall} {a b : Nat}
  {x x' : AttemptSystem}

/-- The attempts that the bookings name. -/
def Market.bookedAttempts (m : Market) : List (Option AttemptId) :=
  m.bookings.map (·.file.booking.paymentAttemptId)

def PaymentAttemptStatus.refunding : PaymentAttemptStatus → Bool
  | .refundRequired | .refunded => true
  | _ => false

/-- The attempt has ended, in a booking or in a refund. -/
def PaymentAttemptStatus.ended (status : PaymentAttemptStatus) : Bool :=
  status == .succeeded || status.refunding

/-- The error path of `initiateOnlinePayment` meets an attempt that has ended. -/
def MarketSystem.overwrites (s : MarketSystem) : MarketAction → Bool
  | .resume k _ => match s.calls[k]? with
    | some (.initiateFailed a _) => (s.market.findAttempt a).any (·.status.ended)
    | _ => false
  | _ => false

section Bookings

variable {payment : CapturedPayment} {fresh : PaymentAttempt} {booked numbered : Market}

theorem bookedAttempts_renumbered (h : BookingsRenumbered m t) : t.bookedAttempts = m.bookedAttempts :=
  h.map _ fun _ _ _ _ => rfl

theorem PaidBooking.bookedAttempts (h : PaidBooking a payment fresh m t booked numbered) :
    t.bookedAttempts = m.bookedAttempts ++ [some a] := by
  have renumbered := bookedAttempts_renumbered (recalculateQueue_renumbered h.renumber)
  obtain ⟨-, -, -, created⟩ := createBooking_ok h.create
  calc t.bookedAttempts = numbered.bookedAttempts := by rw [Market.bookedAttempts, h.bookings, Market.bookedAttempts]
    _ = booked.bookedAttempts := renumbered
    _ = m.bookedAttempts ++ [some a] := by simp [created, Market.bookedAttempts, PaymentAttempt.paidBooking]

/-- A step outside the payment calls adds cash bookings only. -/
theorem BookingsWrite.bookedAttempts (h : BookingsWrite m t) :
    t.bookedAttempts = m.bookedAttempts ∨ t.bookedAttempts = m.bookedAttempts ++ [none] := by
  cases h with
  | same bookings => exact .inl (by rw [Market.bookedAttempts, bookings, Market.bookedAttempts])
  | resized renumber => exact .inl ((bookedAttempts_renumbered (recalculateQueue_renumbered renumber)).trans rfl)
  | @stepped b y y' step =>
      obtain ⟨requests, user, renumbered⟩ := step.renumbered
      have named : y'.file.booking.paymentAttemptId = y.file.booking.paymentAttemptId :=
        step.sameTerms.column _ fun _ => rfl
      refine .inl ((bookedAttempts_renumbered renumbered).trans ?_)
      exact Threads.map_set_same step.found named
  | cash cash before create =>
      obtain ⟨-, -, -, rfl⟩ := createBooking_ok create
      right
      rcases cash with rfl | rfl <;> simp [Market.bookedAttempts, before, Terms.cashRequest, Terms.cashOffer]

end Bookings

section Events

variable {payment : CapturedPayment}

/-- A finalization, or an event that depends on no other call than the one that is resumed. -/
theorem MarketEvent.focus (h : MarketEvent s act t next) :
    (∃ k reply origin payment b result, act = .resume k reply ∧ s.calls[k]? = some (.finalize origin payment)
        ∧ FinalizedOn b payment s.market t result)
      ∨ (∃ calls act' next', MarketEvent ⟨s.market, calls⟩ act' t next'
        ∧ (∀ origin payment, .finalize origin payment ∉ calls)
        ∧ ∀ call ∈ calls, ∃ k reply, act = .resume k reply ∧ s.calls[k]? = some call)
        ∧ (t.bookedAttempts = s.market.bookedAttempts ∨ t.bookedAttempts = s.market.bookedAttempts ++ [none]) := by
  have same : t.bookings = s.market.bookings → t.bookedAttempts = s.market.bookedAttempts
      ∨ t.bookedAttempts = s.market.bookedAttempts ++ [none] := by
    intro bookings
    exact .inl (by rw [Market.bookedAttempts, bookings, Market.bookedAttempts])
  -- the call of a resumed event, on its own
  have alone : ∀ {k reply call next'}, act = .resume k reply → s.calls[k]? = some call →
      (∀ origin payment, call ≠ .finalize origin payment) →
      MarketEvent ⟨s.market, [call]⟩ (.resume 0 reply) t next' →
      ∃ calls act' next', MarketEvent ⟨s.market, calls⟩ act' t next'
        ∧ (∀ origin payment, .finalize origin payment ∉ calls)
        ∧ ∀ call ∈ calls, ∃ k reply, act = .resume k reply ∧ s.calls[k]? = some call := by
    intro k reply call next' action found other event
    refine ⟨[call], _, next', event, fun origin payment listed => ?_, fun c listed => ?_⟩
    · exact other origin payment (List.mem_singleton.mp listed).symm
    · obtain rfl := List.mem_singleton.mp listed
      exact ⟨k, reply, action, found⟩
  cases h with
  | called | stopped | passed =>
      have idle : MarketEvent ⟨s.market, []⟩ (.wait 0) s.market none := .stopped
      exact .inr ⟨⟨[], _, none, idle, by simp, by simp⟩, same rfl⟩
  | acted run => exact .inr ⟨⟨[], _, none, .acted run, by simp, by simp⟩, (act_bookings run).bookedAttempts⟩
  | @finalized k reply origin payment b t result found registered run =>
      exact .inl ⟨k, reply, origin, payment, b, result, rfl, found, run⟩
  | prepared found run =>
      exact .inr ⟨alone rfl found (by simp) (.prepared rfl run), same (run.bookings.trans expireStale_bookings)⟩
  | intentStored found goes => exact .inr ⟨alone rfl found (by simp) (.intentStored rfl goes), same rfl⟩
  | intentSaved found => exact .inr ⟨alone rfl found (by simp) (.intentSaved rfl), same rfl⟩
  | initiationFailed found =>
      exact .inr ⟨alone rfl found (by simp) (.initiationFailed rfl), same (by simp [recordInitiationFailure])⟩
  | refunded found listed run continues =>
      exact .inr ⟨alone rfl found (by simp) (.refunded rfl listed run continues), same rfl⟩
  | markedFailed found => exact .inr ⟨alone rfl found (by simp) (.markedFailed rfl), same markAttemptFailed_bookings⟩
  | expired found => exact .inr ⟨alone rfl found (by simp) (.expired rfl), same expireCandidate_bookings⟩

/-- What a step does to the outcome of an attempt. -/
inductive OutcomeMove (s : MarketSystem) (act : MarketAction) (t : Market) (a : AttemptId)
    (x x' : AttemptSystem) : Prop where
  | kept (status : x'.file.attempt.status = x.file.attempt.status) (refund : x'.file.refund = x.file.refund)
  | lapsed (pending : x.file.attempt.status = .pending)
      (status : x'.file.attempt.status = .failed ∨ x'.file.attempt.status = .expired)
      (refund : x'.file.refund = x.file.refund)
  | overwritten {k reply code} (action : act = .resume k reply) (call : s.calls[k]? = some (.initiateFailed a code))
      (status : x'.file.attempt.status = .failed) (refund : x'.file.refund = x.file.refund)
  | ended {captured : CapturedPayment} (open_ : Unsettled a captured s.market x.file.attempt)
      (status : x'.file.attempt.status = .refundRequired
        ∨ x'.file.attempt.status = .succeeded ∧ t.bookedAttempts = s.market.bookedAttempts ++ [some a])
      (refund : x'.file.refund = x.file.refund)
  | refunding {origin i stage} (call : .refund origin i a stage ∈ s.calls) (past : stage ≠ .read)
      (status : x'.file.attempt.status = x.file.attempt.status ∨ x'.file.attempt.status = .refunded)

theorem FinalizedOn.outcome {result : Finalized} (h : FinalizedOn b payment s.market t result)
    (found : s.market.attempts[a]? = some x) :
    ∃ x', t.attempts[a]? = some x' ∧ OutcomeMove s act t a x x' := by
  cases h with
  | settled => exact ⟨x, found, .kept rfl rfl⟩
  | refunded open_ branch =>
      rw [branch.attempts, requireRefund, Market.updateAttempt_row, markPaid, Market.updateAttempt_row, found]
      refine ⟨_, rfl, ?_⟩
      by_cases here : b = a
      · subst here
        simp only [if_true]
        exact .ended (open_.row found) (.inl rfl) rfl
      · simp only [here, if_false]
        exact .kept rfl rfl
  | @created fresh u booked numbered open_ bookable paid =>
      rw [paid.attempts, Market.updateAttempt_row, markPaid, Market.updateAttempt_row, found]
      refine ⟨_, rfl, ?_⟩
      by_cases here : b = a
      · subst here
        simp only [if_true]
        exact .ended (open_.row found) (.inr ⟨rfl, paid.bookedAttempts⟩) rfl
      · simp only [here, if_false]
        exact .kept rfl rfl

theorem MarketEvent.outcome (h : MarketEvent s act t next) (found : s.market.attempts[a]? = some x) :
    ∃ x', t.attempts[a]? = some x' ∧ OutcomeMove s act t a x x' := by
  obtain ⟨k, reply, origin, payment, b, result, -, -, run⟩ | ⟨⟨calls, act', next', event, quiet, listed⟩, -⟩ := h.focus
  · exact run.outcome found
  · obtain ⟨x', found', move⟩ := event.attempt_move found
    refine ⟨x', found', ?_⟩
    cases move with
    | kept | intentStored | intentSaved | progressed => exact .kept rfl rfl
    | swept pending => exact .lapsed pending (.inr rfl) rfl
    | expired pending => exact .lapsed pending (.inr rfl) rfl
    | markedFailed _ pending => exact .lapsed pending (.inl rfl) rfl
    | initiationFailed call =>
        obtain ⟨k, reply, action, running⟩ := listed _ call
        exact .overwritten action running rfl rfl
    | refundRequired call => exact absurd call (quiet _ _)
    | succeeded call => exact absurd call (quiet _ _)
    | @refunded _ _ stage _ file _ _ call run =>
        obtain ⟨k, reply, action, running⟩ := listed _ call
        by_cases reading : stage = .read
        · subst reading
          simp only [AttemptRefundStage.resume, Option.some.injEq, Prod.mk.injEq] at run
          obtain ⟨rfl, -⟩ := run
          exact .kept rfl rfl
        · refine .refunding (List.mem_of_getElem? running) reading ?_
          obtain same | ⟨-, same⟩ := AttemptRefundStage.resume_attempt run
          · exact .inl (by rw [same])
          · exact .inr (by rw [same])

/-- A new row is pending and has no refund; every other row is moved. -/
theorem MarketEvent.outcome_of (h : MarketEvent s act t next) (found : t.attempts[a]? = some x') :
    (∃ x, s.market.attempts[a]? = some x ∧ OutcomeMove s act t a x x')
      ∨ s.market.attempts[a]? = none ∧ x'.file.attempt.status = .pending ∧ x'.file.refund = none := by
  cases h.attempt_row found with
  | moved before =>
      obtain ⟨x'', found', move⟩ := h.outcome before
      obtain rfl := Option.some.inj (found.symm.trans found')
      exact .inl ⟨_, before, move⟩
  | created last fresh _ _ _ _ row =>
      subst row
      simp only [PaymentAttempt.pendingFor, Bool.and_eq_true, beq_iff_eq] at fresh
      exact .inr ⟨List.getElem?_eq_none_iff.mpr (Nat.le_of_eq last.symm), fresh.2, rfl⟩

/-- A booking is added for a capture that has not ended, with the success of its attempt. -/
theorem MarketEvent.bookedAttempts (h : MarketEvent s act t next) :
    (t.bookedAttempts = s.market.bookedAttempts ∨ t.bookedAttempts = s.market.bookedAttempts ++ [none])
      ∨ ∃ b payment x x', s.market.attempts[b]? = some x ∧ Unsettled b payment s.market x.file.attempt
        ∧ t.bookedAttempts = s.market.bookedAttempts ++ [some b]
        ∧ t.attempts[b]? = some x' ∧ x'.file.attempt.status = .succeeded := by
  obtain ⟨k, reply, origin, payment, b, result, -, -, run⟩ | ⟨-, kept⟩ := h.focus
  · cases run with
    | settled => exact .inl (.inl rfl)
    | refunded _ branch =>
        refine .inl (.inl ?_)
        rw [Market.bookedAttempts, branch.bookings]
        rfl
    | created open_ _ paid =>
        right
        obtain ⟨x, found, rfl⟩ := Market.findAttempt_eq_some.mp open_.found
        have row : ∃ x', t.attempts[b]? = some x' ∧ x'.file.attempt.status = .succeeded := by
          rw [paid.attempts, Market.updateAttempt_row, markPaid, Market.updateAttempt_row, found]
          exact ⟨_, rfl, by simp⟩
        obtain ⟨x', found', succeeded⟩ := row
        exact ⟨b, payment, x, x', found, open_, paid.bookedAttempts, found', succeeded⟩
  · exact .inl kept

end Events

section Runs

variable {call : PaymentCall}

/-- The status of an attempt says whether it is booked, and only a refunded attempt has a refund row. -/
structure Market.OutcomesAgree (m : Market) : Prop where
  once : ∀ a : Nat, m.bookedAttempts.count (some a) ≤ 1
  booked : ∀ a : Nat, some a ∈ m.bookedAttempts ↔ ∃ x, m.attempts[a]? = some x ∧ x.file.attempt.status = .succeeded
  refunds : ∀ (a : Nat) (x : AttemptSystem), m.attempts[a]? = some x → x.file.refund.isSome = true →
    x.file.attempt.status.refunding = true

/-- A refund call that has read its attempt refunds one that requires it. -/
def PaymentCall.RefundsEnded (m : Market) : PaymentCall → Prop
  | .refund _ _ a stage => stage ≠ .read →
      ∃ x, m.attempts[a]? = some x ∧ x.file.attempt.status.refunding = true
  | _ => True

/-- Only a refund starts from an attempt that requires one. -/
theorem OutcomeMove.refunding_kept (h : OutcomeMove s act t a x x') (safe : s.overwrites act = false)
    (found : s.market.attempts[a]? = some x) (before : x.file.attempt.status.refunding = true) :
    x'.file.attempt.status.refunding = true := by
  cases h with
  | kept status => rwa [status]
  | lapsed pending => simp [pending, PaymentAttemptStatus.refunding] at before
  | overwritten action call =>
      subst action
      simp [MarketSystem.overwrites, call, Market.findAttempt, found, PaymentAttemptStatus.ended, before] at safe
  | ended open_ =>
      have unrefunded := open_.unrefunded
      cases status : x.file.attempt.status <;> simp_all [PaymentAttemptStatus.refunding]
  | refunding _ _ status =>
      rcases status with status | status <;> rw [status]
      · exact before
      · rfl

theorem Unsettled.unbooked_attempt {captured : CapturedPayment} (agree : s.market.OutcomesAgree)
    (found : s.market.attempts[a]? = some x) (open_ : Unsettled a captured s.market x.file.attempt) :
    some a ∉ s.market.bookedAttempts := by
  intro booked
  obtain ⟨y, found', status⟩ := (agree.booked a).mp booked
  obtain rfl := Option.some.inj (found.symm.trans found')
  refine open_.unbooked ⟨status, ?_⟩
  obtain ⟨y, listed, named⟩ := List.mem_map.mp booked
  exact List.any_eq_true.mpr ⟨y, listed, by simpa using named⟩

/-- A booked attempt keeps its status. -/
theorem OutcomeMove.succeeded_kept (h : OutcomeMove s act t a x x') (agree : s.market.OutcomesAgree)
    (calls : ∀ call ∈ s.calls, call.RefundsEnded s.market) (safe : s.overwrites act = false)
    (found : s.market.attempts[a]? = some x) (before : x.file.attempt.status = .succeeded) :
    x'.file.attempt.status = .succeeded := by
  cases h with
  | kept status => rwa [status]
  | lapsed pending => simp [pending] at before
  | overwritten action call =>
      subst action
      simp [MarketSystem.overwrites, call, Market.findAttempt, found, PaymentAttemptStatus.ended, before] at safe
  | ended open_ => exact absurd ((agree.booked a).mpr ⟨x, found, before⟩) (open_.unbooked_attempt agree found)
  | refunding call past =>
      obtain ⟨y, found', refunding⟩ := calls _ call past
      obtain rfl := Option.some.inj (found.symm.trans found')
      simp [before, PaymentAttemptStatus.refunding] at refunding

theorem MarketEvent.outcomesAgree (h : MarketEvent s act t next) (agree : s.market.OutcomesAgree)
    (calls : ∀ call ∈ s.calls, call.RefundsEnded s.market) (safe : s.overwrites act = false) : t.OutcomesAgree := by
  refine ⟨fun a => ?_, fun a => ⟨fun booked => ?_, ?_⟩, fun a x' found refund => ?_⟩
  · obtain (same | same) | ⟨b, captured, x, x', found, open_, same, -⟩ := h.bookedAttempts
    · rw [same]
      exact agree.once a
    · rw [same, List.count_append]
      simpa using agree.once a
    · rw [same, List.count_append]
      have unbooked := open_.unbooked_attempt agree found
      by_cases here : a = b
      · subst here
        simp [List.count_eq_zero.mpr unbooked]
      · have other : List.count (some a) [some b] = 0 := by simp [Ne.symm here]
        rw [other]
        exact agree.once a
  · have before : some a ∈ s.market.bookedAttempts
        ∨ ∃ x', t.attempts[a]? = some x' ∧ x'.file.attempt.status = .succeeded := by
      obtain (same | same) | ⟨b, captured, x, x', found, open_, same, found', status⟩ := h.bookedAttempts
      · exact .inl (same ▸ booked)
      · rw [same] at booked
        exact .inl (by simpa using booked)
      · rw [same] at booked
        rcases List.mem_append.mp booked with old | new
        · exact .inl old
        · obtain rfl : a = b := by simpa using new
          exact .inr ⟨x', found', status⟩
    rcases before with booked | succeeded
    · obtain ⟨x, found, status⟩ := (agree.booked a).mp booked
      obtain ⟨x', found', move⟩ := h.outcome found
      exact ⟨x', found', move.succeeded_kept agree calls safe found status⟩
    · exact succeeded
  · rintro ⟨x', found, status⟩
    have kept : some a ∈ s.market.bookedAttempts → some a ∈ t.bookedAttempts := by
      intro booked
      obtain (same | same) | ⟨b, captured, x, x', -, -, same, -⟩ := h.bookedAttempts <;> rw [same]
      · exact booked
      · exact List.mem_append_left _ booked
      · exact List.mem_append_left _ booked
    obtain ⟨x, before, move⟩ | ⟨-, pending, -⟩ := h.outcome_of found
    · cases move with
      | kept same => exact kept ((agree.booked a).mpr ⟨x, before, same.symm.trans status⟩)
      | lapsed _ lapsed => simp [status] at lapsed
      | overwritten _ _ failed => simp [status] at failed
      | ended _ ended =>
          rcases ended with required | ⟨-, booked⟩
          · simp [status] at required
          · simp [booked]
      | refunding _ _ same =>
          rcases same with same | refunded
          · exact kept ((agree.booked a).mpr ⟨x, before, same.symm.trans status⟩)
          · simp [status] at refunded
    · simp [status] at pending
  · obtain ⟨x, before, move⟩ | ⟨-, -, none_⟩ := h.outcome_of found
    · have old : x'.file.refund = x.file.refund → x'.file.attempt.status.refunding = true := by
        intro same
        exact move.refunding_kept safe before (agree.refunds a x before (same ▸ refund))
      cases move with
      | kept _ same => exact old same
      | lapsed _ _ same => exact old same
      | overwritten _ _ _ same => exact old same
      | ended _ _ same => exact old same
      | refunding call past status =>
          obtain ⟨y, found', refunding⟩ := calls _ call past
          obtain rfl := Option.some.inj (before.symm.trans found')
          rcases status with status | status <;> rw [status]
          · exact refunding
          · rfl
    · simp [none_] at refund

theorem PaymentCall.RefundsEnded.stays (h : MarketEvent s act t next) (safe : s.overwrites act = false)
    (known : call.RefundsEnded s.market) : call.RefundsEnded t := by
  cases call with
  | refund origin i a stage =>
      intro past
      obtain ⟨x, found, refunding⟩ := known past
      obtain ⟨x', found', move⟩ := h.outcome found
      exact ⟨x', found', move.refunding_kept safe found refunding⟩
  | _ => trivial

/-- A refund goes on past its first statement for an attempt that requires a refund. -/
theorem MarketEvent.refundsEnded (h : MarketEvent s act t next) (safe : s.overwrites act = false)
    (calls : ∀ call ∈ s.calls, call.RefundsEnded s.market) (goes : next = some call) : call.RefundsEnded t := by
  cases call with
  | refund origin i a stage =>
      intro past
      cases h with
      | passed _ flow =>
          obtain rfl := Option.some.inj goes
          cases flow
      | @called entry => cases entry <;> cases goes
      | @prepared _ _ params _ _ prepared =>
          unfold Prepared.next at goes
          split at goes <;> cases goes
      | intentStored _ creating => obtain rfl | ⟨_, rfl⟩ := creating <;> cases goes
      | finalized =>
          unfold Finalized.next at goes
          split at goes
          · obtain ⟨-, -, -, rfl⟩ := PaymentCall.refund.inj (Option.some.inj goes)
            exact absurd rfl past
          · cases Origin.after_eq goes
      | @refunded k reply origin' i' a' stage' row file gatewayRefund goes' _ answer found listed run continues =>
          obtain ⟨stage'', here, same⟩ | same := continues _ goes
          · obtain ⟨rfl, rfl, rfl, rfl⟩ := PaymentCall.refund.inj same
            by_cases reading : stage' = .read
            · subst reading
              simp only [AttemptRefundStage.resume, Option.some.injEq, Prod.mk.injEq] at run
              obtain ⟨rfl, -, goes'⟩ := run
              rw [here, readCapturedAttempt] at goes'
              split at goes'
              · cases goes'
              · split at goes'
                · cases goes'
                · rename_i required
                  have bound := (List.getElem?_eq_some_iff.mp listed).1
                  refine ⟨_, List.getElem?_set_self bound, ?_⟩
                  simp only [ne_eq, not_not] at required
                  simp [required, PaymentAttemptStatus.refunding]
            · obtain ⟨x, before, refunding⟩ := calls _ (List.mem_of_getElem? found) reading
              have event : MarketEvent s (.resume k reply) _ _ := .refunded found listed run continues
              obtain ⟨x', after, move⟩ := event.outcome before
              exact ⟨x', after, move.refunding_kept safe before refunding⟩
          · cases same
      | markedFailed => cases Origin.after_eq goes
      | stopped | intentSaved | initiationFailed | expired | acted => cases goes
  | _ => trivial

theorem outcomes_agree (h : marketMachine.ReachableUnder (fun s act => s.overwrites act = false) s) :
    s.Coupled (fun m => m.OutcomesAgree) fun m call => call.RefundsEnded m := by
  refine market_reachableUnder (fun m _ _ attempts bookings => ?_) ?_ h
  · have unbooked : m.bookedAttempts = [] := by simp [Market.bookedAttempts, bookings]
    constructor <;> simp [unbooked, attempts]
  · intro s act t next _ known safe event
    exact ⟨event.outcomesAgree known.shared known.calls safe, fun c _ ended => ended.stays event safe,
      fun c goes => event.refundsEnded safe known.calls goes⟩

/-- A booking keeps its attempt. -/
theorem booked_stays {C : MarketSystem → MarketAction → Prop} (run : marketMachine.RunUnder C s s')
    (booked : some a ∈ s.market.bookedAttempts) : some a ∈ s'.market.bookedAttempts := by
  refine run.invariant (I := fun s => some a ∈ s.market.bookedAttempts) ?_ booked
  intro s act s' booked _ stepped
  obtain ⟨next, event, -⟩ := MarketSystem.step_event stepped
  obtain (same | same) | ⟨b, captured, x, x', -, -, same, -⟩ := event.bookedAttempts <;> rw [same]
  · exact booked
  · exact List.mem_append_left _ booked
  · exact List.mem_append_left _ booked

/-- While the error path of an initiation meets no attempt that has ended: an attempt has at most one booking, it is
    `SUCCEEDED` exactly when it has one, and from then on it stays so and has no refund. -/
theorem captured_once (h : marketMachine.ReachableUnder (fun s act => s.overwrites act = false) s) (a : Nat) :
    s.market.bookings.countP (·.file.booking.paymentAttemptId == some a) ≤ 1
      ∧ (∀ x, s.market.attempts[a]? = some x →
        (x.file.attempt.status = .succeeded ↔ ∃ y ∈ s.market.bookings, y.file.booking.paymentAttemptId = some a))
      ∧ ((∃ y ∈ s.market.bookings, y.file.booking.paymentAttemptId = some a) →
        ∀ s', marketMachine.RunUnder (fun s act => s.overwrites act = false) s s' →
          ∃ x', s'.market.attempts[a]? = some x' ∧ x'.file.attempt.status = .succeeded ∧ x'.file.refund = none) := by
  have agree := (outcomes_agree h).shared
  have named : some a ∈ s.market.bookedAttempts ↔ ∃ y ∈ s.market.bookings, y.file.booking.paymentAttemptId = some a :=
    List.mem_map
  refine ⟨?_, fun x found => ?_, fun booked s' run => ?_⟩
  · have once := agree.once a
    rwa [Market.bookedAttempts, List.count, List.countP_map] at once
  · rw [← named, agree.booked a]
    constructor
    · exact fun status => ⟨x, found, status⟩
    · rintro ⟨y, found', status⟩
      obtain rfl := Option.some.inj (found.symm.trans found')
      exact status
  · obtain ⟨s₀, start, before⟩ := h
    have later := (outcomes_agree ⟨s₀, start, before.trans run⟩).shared
    obtain ⟨x', found, status⟩ := (later.booked a).mp (booked_stays run (named.mpr booked))
    refine ⟨x', found, status, ?_⟩
    by_contra refunded
    have refunding := later.refunds a x' found (Option.isSome_iff_ne_none.mpr refunded)
    simp [status, PaymentAttemptStatus.refunding] at refunding

end Runs

/-! ### Sample runs -/

theorem captured_once_purchase : ∃ t, marketMachine.exec sampleMarket samplePurchase = some t
    ∧ ∃ x, t.market.attempts[0]? = some x ∧ x.file.attempt.status = .succeeded ∧ x.file.refund = none := by
  obtain ⟨t, run, booked⟩ := sample_any
    (o := marketMachine.execUnder (fun s act => !s.overwrites act) sampleMarket samplePurchase)
    (p := fun t => t.market.bookings.any (·.file.booking.paymentAttemptId == some 0) = true) (by decide)
  have right : marketMachine.ReachableUnder (fun s act => s.overwrites act = false) t :=
    ⟨sampleMarket, sampleMarket_initial, .of_execUnder (fun _ _ safe => (Bool.not_eq_true' _).mp safe) run⟩
  obtain ⟨y, listed, named⟩ := List.any_eq_true.mp booked
  exact ⟨t, Machine.exec_of_execUnder run, (captured_once right 0).2.2 ⟨y, listed, by simpa using named⟩ t .refl⟩

/-- Two calls of seeker 1 share the attempt. One is paid and booked; then the gateway fails for the other. -/
def sampleTwoCalls : List MarketAction :=
  sampleCall 0 (.initiateOnlinePayment { seekerId := 1, serviceId := some 1 }) [.none, .none]
    ++ sampleCall 1 (.initiateOnlinePayment { seekerId := 1, serviceId := some 1 })
      [.none, .none, .ok, .ok, .redirect none, .none]
    ++ [.intent 0 .succeeded] ++ sampleCall 1 (.paidWebhook 0) [.ok, .none] ++ [.resume 0 .failed, .resume 0 .none]

theorem booked_attempt_failed : ∃ t, marketMachine.exec sampleMarket sampleTwoCalls = some t
    ∧ marketMachine.Reachable t ∧ (∃ y ∈ t.market.bookings, y.file.booking.paymentAttemptId = some 0)
    ∧ ∃ x, t.market.attempts[0]? = some x ∧ x.file.attempt.status = .failed := by
  obtain ⟨t, run, booked, failed⟩ := sample_any (o := marketMachine.exec sampleMarket sampleTwoCalls)
    (p := fun t => t.market.bookings.any (·.file.booking.paymentAttemptId == some 0) = true
      ∧ (t.market.attempts[0]?).any (·.file.attempt.status == .failed) = true) (by decide)
  obtain ⟨y, listed, named⟩ := List.any_eq_true.mp booked
  obtain ⟨x, found, status⟩ := (Option.any_eq_true _ _).mp failed
  exact ⟨t, run, .of_exec sampleMarket_initial run, ⟨y, listed, by simpa using named⟩, x, found, by simpa using status⟩

end ServiceHub
