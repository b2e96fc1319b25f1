import ServiceHub.Market.Bookings

/-! # What a step of the marketplace does to the attempts

A row is created by `initiateOnlinePayment` and then written by the statements of the
payment calls and by the gateway; the terms it was created with stay.
-/

namespace ServiceHub

open Guard

variable {m t : Market} {a : Nat}

namespace Market

theorem updateAttempt_row {g : PaymentAttempt → PaymentAttempt} {b : AttemptId} :
    (m.updateAttempt b g).attempts[a]? = (m.attempts[a]?).map fun x =>
      if b = a then { x with file := { x.file with attempt := g x.file.attempt } } else x := by
  simp only [updateAttempt, List.getElem?_modify]
  cases m.attempts[a]? with
  | none => rfl
  | some x => rfl

end Market

/-- The row after a sweep that expires the listed attempts. -/
def AttemptSystem.expired (x : AttemptSystem) : AttemptSystem :=
  { x with file := { x.file with attempt := { x.file.attempt with status := .expired } } }

theorem expireAttempts_row {offerId : Option OfferId} (l : List AttemptId) :
    (l.foldl (fun m a => expireAttempt a offerId none m) m).attempts[a]? =
      (m.attempts[a]?).map fun x => if a ∈ l then x.expired else x := by
  induction l generalizing m with
  | nil => simp
  | cons b l ih =>
      rw [List.foldl_cons, ih, expireAttempt, releaseOfferHold_attempts, Market.updateAttempt_row]
      cases m.attempts[a]? with
      | none => rfl
      | some x =>
          by_cases same : b = a
          · subst same
            simp [AttemptSystem.expired]
          · simp [same, Ne.symm same]

theorem expireStale_row {params : PaymentParams} {target : PaymentTarget} :
    (expireStale params target m).attempts[a]? = (m.attempts[a]?).map fun x =>
      if x.file.attempt.stale params target m.now then x.expired else x := by
  rw [expireStale, expireAttempts_row]
  cases found : m.attempts[a]? with
  | none => rfl
  | some x =>
      have swept : a ∈ (m.attemptsWhere fun x => x.pendingFor params target && x.expiresAt ≤ m.now)
          ↔ x.file.attempt.stale params target m.now = true := by
        simp [Market.mem_attemptsWhere, Market.findAttempt, found, PaymentAttempt.stale]
      simp [swept]

/-- How a step writes the row of an attempt. -/
inductive AttemptMove (s : MarketSystem) (a : AttemptId) (x : AttemptSystem) : AttemptSystem → Prop where
  | kept : AttemptMove s a x x
  | swept (pending : x.file.attempt.status = .pending)
      (late : x.file.attempt.expiresAt ≤ s.market.now) : AttemptMove s a x x.expired
  | intentStored (call : .createIntent a ∈ s.calls) :
      AttemptMove s a x { x with intent := some (x.intent.getD (x.file.attempt.newIntent a)) }
  | intentSaved {redirectUrl} (call : .saveIntent a redirectUrl ∈ s.calls) :
      AttemptMove s a x { x with file := { x.file with attempt := { x.file.attempt with
        providerIntentId := some a
        redirectUrl := redirectUrl.or x.file.attempt.redirectUrl } } }
  | initiationFailed {code} (call : .initiateFailed a code ∈ s.calls) :
      AttemptMove s a x { x with file := { x.file with attempt := { x.file.attempt with
        status := .failed, failureReason := some code } } }
  | refundRequired {origin payment reason} (call : .finalize origin payment ∈ s.calls)
      (registered : s.market.findIntent payment.paymentIntentId = some a)
      (open_ : Unsettled a payment s.market x.file.attempt) :
      AttemptMove s a x { x with file := { x.file with attempt := { x.file.attempt with
        paidAt := x.file.attempt.paidAt.or (some s.market.now), status := .refundRequired
        providerPaymentId := payment.paymentId, failureReason := some reason } } }
  | succeeded {origin payment} (call : .finalize origin payment ∈ s.calls)
      (registered : s.market.findIntent payment.paymentIntentId = some a)
      (open_ : Unsettled a payment s.market x.file.attempt)
      (bookable : Bookable x.file.attempt (markPaid a s.market)) :
      AttemptMove s a x { x with file := { x.file with attempt := { x.file.attempt with
        paidAt := x.file.attempt.paidAt.or (some s.market.now), status := .succeeded
        providerPaymentId := payment.paymentId } } }
  | refunded {origin i stage answer file gatewayRefund goes} (call : .refund origin i a stage ∈ s.calls)
      (run : stage.resume answer x.gatewayRefund x.file = some (file, gatewayRefund, goes)) :
      AttemptMove s a x { x with file, gatewayRefund }
  | markedFailed {origin i reason} (call : .commitFailed origin i a reason ∈ s.calls)
      (pending : x.file.attempt.status = .pending) :
      AttemptMove s a x { x with file := { x.file with attempt := { x.file.attempt with
        status := .failed, failureReason := some reason } } }
  | expired {reason} (pending : x.file.attempt.status = .pending)
      (late : x.file.attempt.expiresAt ≤ s.market.now) :
      AttemptMove s a x { x with file := { x.file with attempt := { x.file.attempt with
        status := .expired, failureReason := some reason } } }
  | progressed {status} : AttemptMove s a x { x with intent := x.intent.map (·.progress a status) }

/-- Where an attempt comes from in the step that led to it. -/
inductive AttemptRow (s : MarketSystem) (a : Nat) (x' : AttemptSystem) : Prop where
  | moved {x} (found : s.market.attempts[a]? = some x) (move : AttemptMove s a x x')
  | created {params target attempt} (last : a = s.market.attempts.length)
      (fresh : attempt.pendingFor params target = true) (provider : attempt.providerId = target.providerId)
      (unregistered : attempt.providerIntentId = none) (unpaid : attempt.providerPaymentId = none)
      (priced : attempt.Priced) (row : x' = { file := { attempt } })

section Rows

variable {s : MarketSystem} {x' : AttemptSystem}

theorem AttemptRow.kept (found : s.market.attempts[a]? = some x') : AttemptRow s a x' := .moved found .kept

theorem AttemptRow.of_eq (same : t.attempts = s.market.attempts) (found : t.attempts[a]? = some x') :
    AttemptRow s a x' :=
  .kept (same ▸ found)

/-- The row is written when it is the one of the update. -/
theorem AttemptRow.of_update {g : PaymentAttempt → PaymentAttempt} {b : AttemptId}
    (found : (s.market.updateAttempt b g).attempts[a]? = some x')
    (move : ∀ x, s.market.attempts[b]? = some x →
      AttemptMove s b x { x with file := { x.file with attempt := g x.file.attempt } }) :
    AttemptRow s a x' := by
  rw [Market.updateAttempt_row] at found
  obtain ⟨x, before, rfl⟩ := Option.map_eq_some_iff.mp found
  refine .moved before ?_
  split
  · rename_i here
    subst here
    exact move x before
  · exact .kept

theorem swept_row {params : PaymentParams} {target : PaymentTarget}
    (found : (expireStale params target s.market).attempts[a]? = some x') : AttemptRow s a x' := by
  rw [expireStale_row] at found
  obtain ⟨x, before, rfl⟩ := Option.map_eq_some_iff.mp found
  refine .moved before ?_
  split
  · rename_i stale
    simp only [PaymentAttempt.stale, PaymentAttempt.pendingFor, Bool.and_eq_true, beq_iff_eq,
      decide_eq_true_eq] at stale
    exact .swept stale.1.2 stale.2
  · exact .kept

theorem expireStale_length {params : PaymentParams} {target : PaymentTarget} :
    (expireStale params target m).attempts.length = m.attempts.length := by
  unfold expireStale
  generalize m.attemptsWhere (fun x => x.pendingFor params target && decide (x.expiresAt ≤ m.now)) = l
  induction l generalizing m with
  | nil => rfl
  | cons b l ih =>
      rw [List.foldl_cons, ih, expireAttempt, releaseOfferHold_attempts]
      simp [Market.updateAttempt]

theorem HeldFor.attempts {params : PaymentParams} {target : PaymentTarget} (h : HeldFor params target m t) :
    t.attempts = m.attempts := by
  cases h with
  | listing => rfl
  | offer _ _ _ _ _ _ _ _ held =>
      obtain ⟨_, _, _, rfl⟩ := holdOffer_ok held
      rfl

theorem PreparedOn.attempt_row {params : PaymentParams} {target : PaymentTarget} {b : AttemptId}
    (h : PreparedOn params target (expireStale params target s.market) t b)
    (found : t.attempts[a]? = some x') : AttemptRow s a x' := by
  cases h with
  | reused => exact swept_row found
  | created fresh provider _ unregistered unpaid priced _ on =>
      simp only [on.attempts, List.getElem?_append] at found
      split at found
      · exact swept_row found
      · rename_i beyond
        obtain ⟨last, rfl⟩ := List.getElem?_eq_some_iff.mp found
        rw [List.length_singleton, expireStale_length] at last
        rw [expireStale_length] at beyond
        exact .created (by omega) fresh provider unregistered unpaid priced (by simp)

theorem RefundBranch.attempts {fresh : PaymentAttempt} {after : Market → Market} {n u : Market}
    (h : RefundBranch a fresh n after) : (after u).attempts = u.attempts := by
  cases h with
  | released => exact releaseOfferHold_attempts
  | invalid => rfl
  | sibling => rfl

theorem PaidBooking.attempts {b : AttemptId} {payment : CapturedPayment} {fresh : PaymentAttempt}
    {booked numbered : Market} (h : PaidBooking b payment fresh m t booked numbered) :
    t.attempts = (m.updateAttempt b ({ · with
      status := .succeeded, providerPaymentId := payment.paymentId })).attempts := by
  have same : numbered.attempts = m.attempts := by
    rw [(recalculateQueue_renumbered h.renumber).tables]
    obtain ⟨-, -, -, rfl⟩ := createBooking_ok h.create
    rfl
  rw [h.settled]
  cases fresh.offerId <;> simp [Market.updateAttempt, same]

/-- The row of the settled attempt was written twice in the transaction. -/
theorem AttemptRow.of_marked {g : PaymentAttempt → PaymentAttempt} {b : AttemptId}
    (found : ((markPaid b s.market).updateAttempt b g).attempts[a]? = some x')
    (move : ∀ x, s.market.attempts[b]? = some x →
      AttemptMove s b x { x with file := { x.file with
        attempt := g { x.file.attempt with
          paidAt := x.file.attempt.paidAt.or (some s.market.now) } } }) :
    AttemptRow s a x' := by
  rw [Market.updateAttempt_row, markPaid, Market.updateAttempt_row] at found
  obtain ⟨y, marked, rfl⟩ := Option.map_eq_some_iff.mp found
  obtain ⟨x, before, rfl⟩ := Option.map_eq_some_iff.mp marked
  refine .moved before ?_
  by_cases here : b = a
  · subst here
    simp only [if_true]
    exact move x before
  · simp only [here, if_false]
    exact .kept

theorem Unsettled.row {payment : CapturedPayment} {fresh : PaymentAttempt} {x : AttemptSystem}
    (h : Unsettled a payment m fresh) (found : m.attempts[a]? = some x) :
    Unsettled a payment m x.file.attempt := by
  have same : m.findAttempt a = some x.file.attempt := by simp [Market.findAttempt, found]
  obtain rfl := Option.some.inj (h.found.symm.trans same)
  exact h

/-- The steps outside the payment calls leave the attempts to the gateway. -/
theorem act_attempts {act : MarketAction} (h : m.act act = some t) :
    t.attempts = m.attempts ∨ ∃ b status, act = .intent b status ∧ t.attempts = m.attempts.modify b fun x =>
      { x with intent := x.intent.map (·.progress b status) } := by
  cases act with
  | pay | resume | crash => simp [Market.act] at h
  | intent b status =>
      obtain rfl := Option.some.inj h
      exact .inr ⟨b, status, rfl, rfl⟩
  | booking b st updatedAt =>
      obtain ⟨x, x', stepped⟩ := stepBooking_ok h
      obtain ⟨_, _, _, rfl⟩ := stepped.tables
      exact .inl rfl
  | setCapacity =>
      have run := toOption_some.mp h
      simp only [Market.setProviderWorkloadCapacity, check_bind_ok, orThrow_bind_ok] at run
      obtain ⟨-, user, -, renumber⟩ := run
      rw [(recalculateQueue_renumbered renumber).tables]
      exact .inl rfl
  | createDirectRequest =>
      obtain ⟨terms, -, create⟩ := createDirectRequest_ok (toOption_some.mp h)
      obtain ⟨-, -, -, rfl⟩ := createBooking_ok create
      exact .inl rfl
  | createDirectFromOffer =>
      obtain ⟨offer, request, terms, -, -, -, -, -, -, create⟩ :=
        createDirectFromOfferService_ok (toOption_some.mp h)
      obtain ⟨-, -, -, rfl⟩ := createBooking_ok create
      exact .inl selectOffer_attempts
  | submitOffer =>
      have run := toOption_some.mp h
      simp only [submitOffer, orThrow_bind_ok, check_bind_ok, pure_ok] at run
      obtain ⟨request, -, -, -, -, -, -, -, rfl⟩ := run
      exact .inl rfl
  | rejectOffer =>
      have run := toOption_some.mp h
      simp only [rejectOffer, orThrow_bind_ok, check_bind_ok, pure_ok] at run
      obtain ⟨offer, -, request, -, -, -, rfl⟩ := run
      refine .inl ?_
      split <;> rfl
  | updateRequest =>
      have run := toOption_some.mp h
      simp only [updateServiceRequest, orThrow_bind_ok, check_bind_ok, pure_ok] at run
      obtain ⟨request, -, -, -, -, -, -, rfl⟩ := run
      exact .inl rfl
  | cancelRequest =>
      have run := toOption_some.mp h
      simp only [cancelRequest, orThrow_bind_ok, check_bind_ok, pure_ok] at run
      obtain ⟨request, -, -, rfl⟩ := run
      exact .inl rfl
  | publicContentAction =>
      have run := toOption_some.mp h
      simp only [applyPublicContentAction, orThrow_bind_ok, check_bind_ok, ite_ok, pure_ok] at run
      obtain ⟨request, -, -, -, ⟨-, -, rfl⟩ | ⟨-, -, rfl⟩⟩ := run <;> exact .inl rfl
  | updateService =>
      simp only [Market.act] at h
      split at h
      · obtain rfl := Option.some.inj h
        exact .inl rfl
      · cases h
  | _ =>
      obtain rfl := Option.some.inj h
      exact .inl rfl

theorem markAttemptFailed_row {reason : String} {b : AttemptId}
    (found : (markAttemptFailed b reason s.market).attempts[a]? = some x')
    (call : ∃ origin i, .commitFailed origin i b reason ∈ s.calls) : AttemptRow s a x' := by
  obtain ⟨origin, i, call⟩ := call
  unfold markAttemptFailed at found
  split at found
  · exact .kept found
  · rename_i attempt listed
    split at found
    · exact .kept found
    · rename_i pending
      rw [releaseOfferHold_attempts] at found
      refine .of_update found fun x before => .markedFailed call ?_
      have same : some x.file.attempt = some attempt := by
        simpa [Market.findAttempt, before] using listed
      obtain rfl := Option.some.inj same
      simpa using pending

theorem expireCandidate_row {b : AttemptId}
    (found : (expireCandidate b s.market).attempts[a]? = some x') : AttemptRow s a x' := by
  unfold expireCandidate at found
  split at found
  · exact .kept found
  · rename_i attempt listed
    split at found
    · exact .kept found
    · rename_i due
      rw [expireAttempt, releaseOfferHold_attempts] at found
      refine .of_update found fun x before => ?_
      have same : some x.file.attempt = some attempt := by
        simpa [Market.findAttempt, before] using listed
      obtain rfl := Option.some.inj same
      simp only [not_or, not_not, Nat.not_lt] at due
      exact .expired due.1 due.2

theorem MarketEvent.attempt_row {act : MarketAction} {next : Option PaymentCall}
    (h : MarketEvent s act t next) (found : t.attempts[a]? = some x') : AttemptRow s a x' := by
  cases h with
  | called | stopped | passed => exact .kept found
  | prepared _ run => exact run.attempt_row found
  | @intentStored _ _ b _ call goes =>
      simp only [Market.storeIntent, List.getElem?_modify] at found
      obtain ⟨x, before, rfl⟩ := Option.map_eq_some_iff.mp found
      refine .moved before ?_
      split
      · rename_i here
        subst here
        exact .intentStored (List.mem_of_getElem? call)
      · exact .kept
  | intentSaved call =>
      exact .of_update found fun x before => .intentSaved (List.mem_of_getElem? call)
  | initiationFailed call =>
      rw [recordInitiationFailure, releaseOfferHold_attempts] at found
      exact .of_update found fun x before => .initiationFailed (List.mem_of_getElem? call)
  | finalized call registered run =>
      cases run with
      | settled => exact .kept found
      | refunded open_ branch =>
          rw [branch.attempts, requireRefund] at found
          exact .of_marked found fun x before =>
            .refundRequired (List.mem_of_getElem? call) registered (open_.row before)
      | created open_ bookable paid =>
          rw [paid.attempts] at found
          refine .of_marked found fun x before => ?_
          have same := Option.some.inj ((open_.row before).found.symm.trans open_.found)
          exact .succeeded (List.mem_of_getElem? call) registered (open_.row before) (same ▸ bookable)
  | @refunded _ _ _ _ b _ row _ _ _ _ _ call listed run =>
      simp only [List.getElem?_set] at found
      split at found
      · rename_i here
        subst here
        split at found
        · obtain rfl := Option.some.inj found
          exact .moved listed (.refunded (List.mem_of_getElem? call) run)
        · cases found
      · exact .kept found
  | markedFailed call => exact markAttemptFailed_row found ⟨_, _, List.mem_of_getElem? call⟩
  | expired => exact expireCandidate_row found
  | acted run =>
      obtain same | ⟨b, status, -, written⟩ := act_attempts run
      · exact .of_eq same found
      · simp only [written, List.getElem?_modify] at found
        obtain ⟨x, before, rfl⟩ := Option.map_eq_some_iff.mp found
        refine .moved before ?_
        split
        · rename_i here
          subst here
          exact .progressed
        · exact .kept

@[simp] theorem updateAttempt_length {g : PaymentAttempt → PaymentAttempt} {b : AttemptId} :
    (m.updateAttempt b g).attempts.length = m.attempts.length := by
  simp [Market.updateAttempt]

theorem PreparedOn.attempts_le {params : PaymentParams} {target : PaymentTarget} {b : AttemptId}
    (h : PreparedOn params target m t b) : m.attempts.length ≤ t.attempts.length := by
  cases h with
  | reused => exact Nat.le_refl _
  | created _ _ _ _ _ _ _ on => simp [on.attempts]

/-- An attempt is never deleted. -/
theorem MarketEvent.attempts_le {act : MarketAction} {next : Option PaymentCall}
    (h : MarketEvent s act t next) : s.market.attempts.length ≤ t.attempts.length := by
  cases h with
  | called | stopped | passed => exact Nat.le_refl _
  | prepared _ run => simpa only [expireStale_length] using run.attempts_le
  | intentStored => simp [Market.storeIntent]
  | intentSaved => simp
  | initiationFailed => simp [recordInitiationFailure]
  | finalized _ _ run =>
      cases run with
      | settled => exact Nat.le_refl _
      | refunded _ branch => simp [branch.attempts, requireRefund, markPaid]
      | created _ _ paid => simp [paid.attempts, markPaid]
  | refunded => simp
  | markedFailed =>
      unfold markAttemptFailed
      split
      · exact Nat.le_refl _
      · split <;> simp
  | expired =>
      unfold expireCandidate
      split
      · exact Nat.le_refl _
      · split <;> simp [expireAttempt]
  | acted run =>
      obtain same | ⟨b, status, -, written⟩ := act_attempts run
      · rw [same]
      · simp [written]

theorem MarketEvent.attempt_move {act : MarketAction} {next : Option PaymentCall} {x : AttemptSystem}
    (h : MarketEvent s act t next) (found : s.market.attempts[a]? = some x) :
    ∃ x', t.attempts[a]? = some x' ∧ AttemptMove s a x x' := by
  have listed := (List.getElem?_eq_some_iff.mp found).1
  obtain ⟨x', after⟩ : ∃ x', t.attempts[a]? = some x' :=
    ⟨_, List.getElem?_eq_getElem (Nat.lt_of_lt_of_le listed h.attempts_le)⟩
  refine ⟨x', after, ?_⟩
  cases h.attempt_row after with
  | moved before move =>
      obtain rfl := Option.some.inj (before.symm.trans found)
      exact move
  | created last => omega

end Rows

/-- The columns that an attempt is created with. -/
def PaymentAttempt.terms (x : PaymentAttempt) : PaymentAttempt :=
  { x with
    status := .pending, failureReason := none, paidAt := none, providerIntentId := none
    providerPaymentId := none, redirectUrl := none }

/-- The terms stay, and a captured payment stays captured. -/
structure AttemptSystem.Extends (x x' : AttemptSystem) : Prop where
  terms : x'.file.attempt.terms = x.file.attempt.terms
  captured : ∀ i, x.intent = some i → i.status = .succeeded → x'.intent = some i

theorem AttemptSystem.Extends.refl (x : AttemptSystem) : x.Extends x := ⟨rfl, fun _ stored _ => stored⟩

theorem AttemptSystem.Extends.trans {x y z : AttemptSystem} (h : x.Extends y) (h' : y.Extends z) :
    x.Extends z :=
  ⟨h'.terms.trans h.terms, fun i stored paid => h'.captured i (h.captured i stored paid) paid⟩

theorem AttemptSystem.Extends.column {β : Type} {x x' : AttemptSystem} (h : x.Extends x')
    (column : PaymentAttempt → β) (fixed : ∀ y : PaymentAttempt, column y.terms = column y) :
    column x'.file.attempt = column x.file.attempt := by
  rw [← fixed x'.file.attempt, h.terms, fixed]

/-- A statement of a refund writes the status of the attempt and no other column. -/
theorem AttemptRefundStage.resume_attempt {stage : AttemptRefundStage} {answer : Answer}
    {g g' : Option GatewayRefund} {f f' : AttemptFile} {next : Option AttemptRefundStage}
    (h : stage.resume answer g f = some (f', g', next)) :
    f'.attempt = f.attempt
      ∨ (∃ refund, stage = .record refund) ∧ f'.attempt = { f.attempt with status := .refunded } := by
  cases stage with
  | read | reserve | caught =>
      simp only [AttemptRefundStage.resume, Option.some.injEq, Prod.mk.injEq] at h
      obtain ⟨rfl, -⟩ := h
      exact .inl rfl
  | create =>
      cases answer with
      | none | intent => simp [AttemptRefundStage.resume] at h
      | failed | refunded | timedOut =>
          simp only [AttemptRefundStage.resume, Option.some.injEq, Prod.mk.injEq] at h
          obtain ⟨rfl, -⟩ := h
          exact .inl rfl
  | record refund =>
      simp only [AttemptRefundStage.resume, Option.some.injEq, Prod.mk.injEq] at h
      obtain ⟨rfl, -⟩ := h
      exact .inr ⟨⟨refund, rfl⟩, rfl⟩

theorem AttemptMove.extends_ {s : MarketSystem} {x x' : AttemptSystem} (h : AttemptMove s a x x') :
    x.Extends x' := by
  cases h with
  | kept => exact .refl x
  | intentStored =>
      refine ⟨rfl, fun i stored _ => ?_⟩
      simp [stored]
  | progressed =>
      refine ⟨rfl, fun i stored paid => ?_⟩
      simp [stored, PaymentIntent.progress, paid]
  | refunded _ run =>
      refine ⟨?_, fun i stored _ => stored⟩
      obtain same | ⟨-, same⟩ := AttemptRefundStage.resume_attempt run
      · rw [same]
      · rw [same]
        rfl
  | _ => exact ⟨rfl, fun i stored _ => stored⟩

/-- What the row of the attempt with number `a` always says about itself. -/
structure AttemptSystem.Registered (a : AttemptId) (x : AttemptSystem) : Prop where
  priced : x.file.attempt.Priced
  number : ∀ i, x.file.attempt.providerIntentId = some i → i = a
  intent : ∀ i, x.intent = some i →
    { i with status := .awaitingPaymentMethod, paymentId := none } = x.file.attempt.newIntent a
  payment : ∀ i, x.intent = some i → i.status = .succeeded → i.paymentId = some a

theorem PaymentAttempt.priced_terms {x : PaymentAttempt} : x.terms.Priced ↔ x.Priced :=
  ⟨fun h => ⟨h.least, h.most, h.split⟩, fun h => ⟨h.least, h.most, h.split⟩⟩

theorem AttemptSystem.Extends.priced {x x' : AttemptSystem} (h : x.Extends x')
    (priced : x.file.attempt.Priced) : x'.file.attempt.Priced := by
  rw [← PaymentAttempt.priced_terms] at priced ⊢
  rw [h.terms]
  exact priced

theorem AttemptSystem.Registered.moved {s : MarketSystem} {x x' : AttemptSystem} (h : x.Registered a)
    (move : AttemptMove s a x x') : x'.Registered a := by
  refine ⟨move.extends_.priced h.priced, ?_, ?_, ?_⟩
  · intro i registered
    cases move with
    | intentSaved => exact (Option.some.inj registered).symm
    | refunded _ run =>
        refine h.number i (?_ : x.file.attempt.providerIntentId = some i)
        obtain same | ⟨-, same⟩ := AttemptRefundStage.resume_attempt run
        · rw [← registered, same]
        · rw [← registered, same]
    | _ => exact h.number i registered
  · rw [move.extends_.column (·.newIntent a) fun _ => rfl]
    intro i stored
    cases move with
    | intentStored =>
        obtain rfl := Option.some.inj stored
        cases before : x.intent with
        | none => rfl
        | some i => exact h.intent i before
    | progressed =>
        obtain ⟨j, before, rfl⟩ := Option.map_eq_some_iff.mp stored
        unfold PaymentIntent.progress
        split
        · exact h.intent j before
        · exact h.intent j before
    | _ => exact h.intent i stored
  · intro i stored paid
    cases move with
    | intentStored =>
        obtain rfl := Option.some.inj stored
        cases before : x.intent with
        | none =>
            rw [before] at paid
            cases paid
        | some i =>
            rw [before] at paid
            exact h.payment i before paid
    | progressed =>
        obtain ⟨j, before, rfl⟩ := Option.map_eq_some_iff.mp stored
        unfold PaymentIntent.progress at paid ⊢
        split at paid
        · rename_i already
          rw [if_pos already]
          exact h.payment j before paid
        · rename_i unpaid
          rw [if_neg unpaid]
          exact if_pos paid
    | _ => exact h.payment i stored paid

/-- The attempts of a reachable marketplace agree with their intents. -/
def Market.AttemptsRegistered (m : Market) : Prop :=
  ∀ (a : Nat) (x : AttemptSystem), m.attempts[a]? = some x → x.Registered a

theorem Market.AttemptsRegistered.preserved {s : MarketSystem} {act : MarketAction}
    {next : Option PaymentCall} (known : s.market.AttemptsRegistered) (h : MarketEvent s act t next) :
    t.AttemptsRegistered := by
  intro a x' found
  cases h.attempt_row found with
  | moved before move => exact (known a _ before).moved move
  | created _ _ _ unregistered _ priced row =>
      subst row
      exact ⟨priced, by simp [unregistered], by simp, by simp⟩

/-- An intent is registered for the attempt whose key it was created under. -/
theorem Market.AttemptsRegistered.findIntent (known : m.AttemptsRegistered) {i : GatewayId}
    (h : m.findIntent i = some a) : a = i := by
  obtain ⟨x, found, registered⟩ := Market.findIntent_some h
  obtain ⟨row, listed, rfl⟩ := Market.findAttempt_eq_some.mp found
  exact ((known a row listed).number i registered).symm

end ServiceHub
