import ServiceHub.Market.HoldOwnership

/-! # Holds over runs

Every hold is backed by a pending payment. The converse, that an offer stays held while its payment is pending, is
lost in two steps only: the error path of an older initiation, and the late capture of an older attempt.
-/

namespace ServiceHub

open Guard

variable {s s' : MarketSystem} {m t u : Market} {act : MarketAction} {next : Option PaymentCall} {call : PaymentCall}
  {o : OfferId} {a b : Nat} {params : PaymentParams} {target : PaymentTarget} {payment : CapturedPayment}
  {fresh : PaymentAttempt} {result : Finalized}

/-- The attempt is for the row of its offer. -/
def Market.AttemptsKeyed (m : Market) : Prop :=
  ∀ (a : Nat) (x : AttemptSystem) (o : Nat), m.attempts[a]? = some x → x.file.attempt.offerId = some o →
    ∃ r : Nat, m.offerKeys[o]? = some (r, x.file.attempt.providerId, x.file.attempt.serviceId)
      ∧ m.seekers[r]? = some x.file.attempt.seekerId

/-- The offer of the attempt is held while another attempt waits for its payment. -/
def Market.HeldForOther (m : Market) (b : AttemptId) : Prop :=
  ∃ (o : Nat) (x : Offer) (status : PaymentAttemptStatus) (a : Nat), m.due b = some (some o, status)
    ∧ m.offers[o]? = some x ∧ x.status = .pendingPayment ∧ m.Paying o a ∧ a ≠ b

/-- The steps that release a hold that another attempt has taken. -/
inductive MarketSystem.ReleasesOther (s : MarketSystem) : MarketAction → Prop where
  | initiationFailed {k reply b code} (call : s.calls[k]? = some (.initiateFailed b code))
      (other : s.market.HeldForOther b) : ReleasesOther s (.resume k reply)
  | lateCapture {k reply origin payment b fresh} (call : s.calls[k]? = some (.finalize origin payment))
      (registered : s.market.findIntent payment.paymentIntentId = some b)
      (open_ : Unsettled b payment s.market fresh)
      (gone : fresh.expiresAt ≤ s.market.now ∨ (markPaid b s.market).unavailable fresh = true)
      (other : s.market.HeldForOther b) : ReleasesOther s (.resume k reply)

/-- A refund call is for an attempt whose payment is not pending. -/
def PaymentCall.RefundsSettled (m : Market) : PaymentCall → Prop
  | .refund _ _ a _ => ∃ x, m.attempts[a]? = some x ∧ x.file.attempt.status ≠ .pending
  | _ => True

section Rows

theorem PreparedOn.keyed (h : PreparedOn params target m t a) {x : AttemptSystem} (found : t.attempts[b]? = some x) :
    m.attempts[b]? = some x ∨ ∀ o : Nat, x.file.attempt.offerId = some o →
      ∃ r : Nat, m.offerKeys[o]? = some (r, x.file.attempt.providerId, x.file.attempt.serviceId)
        ∧ m.seekers[r]? = some x.file.attempt.seekerId := by
  cases h with
  | reused => exact .inl found
  | @created held attempt fresh provider _ _ _ _ _ on =>
      have before : held.attempts = m.attempts := on.attempts
      rw [List.getElem?_append] at found
      split at found
      · exact .inl (before ▸ found)
      · obtain rfl := List.mem_singleton.mp (List.mem_of_getElem? found)
        refine .inr fun o offered => ?_
        simp only [PaymentAttempt.pendingFor, Bool.and_eq_true, beq_iff_eq] at fresh
        obtain ⟨⟨⟨seeker, service⟩, same⟩, -⟩ := fresh
        have asked : params.offerId = some o := same.symm.trans offered
        cases on with
        | listing direct =>
            rw [direct] at asked
            cases asked
        | @offer o' offer request _ named listed requested _ _ owner supplier listing =>
            obtain rfl := Option.some.inj (named.symm.trans asked)
            refine ⟨offer.requestId, ?_, ?_⟩
            · simp only [Market.offerKeys, List.getElem?_map, listed, Option.map_some, Offer.keys]
              rw [supplier, listing, provider, service]
            · simp only [Market.seekers, List.getElem?_map, requested, Option.map_some]
              rw [owner, seeker]

theorem MarketEvent.attemptsKeyed (h : MarketEvent s act t next) (known : s.market.AttemptsKeyed) : t.AttemptsKeyed := by
  have lists := h.lists
  obtain ⟨offers, keys, -⟩ := lists.offers
  obtain ⟨requests, seekers⟩ := lists.seekers
  -- the rows that are referred to stay where they are
  have stays : ∀ {o r : Nat} {provider : UserId} {service : Option ServiceId} {seeker : UserId},
      s.market.offerKeys[o]? = some (r, provider, service) ∧ s.market.seekers[r]? = some seeker →
      t.offerKeys[o]? = some (r, provider, service) ∧ t.seekers[r]? = some seeker := by
    rintro o r provider service seeker ⟨offered, requested⟩
    have first := (List.getElem?_eq_some_iff.mp offered).1
    have second := (List.getElem?_eq_some_iff.mp requested).1
    rw [keys, seekers, List.getElem?_append_left first, List.getElem?_append_left second]
    exact ⟨offered, requested⟩
  intro a x' o found offered
  cases h.attempt_row found with
  | @moved x before move =>
      have more := move.extends_
      have column := more.column (fun y => (y.offerId, y.providerId, y.serviceId, y.seekerId)) fun _ => rfl
      simp only [Prod.mk.injEq] at column
      obtain ⟨offer, provider, service, seeker⟩ := column
      rw [provider, service, seeker]
      obtain ⟨r, row⟩ := known a x o before (offer ▸ offered)
      exact ⟨r, stays row⟩
  | created last =>
      obtain ⟨params, target, b, prepared⟩ | same := h.prepares_or_length
      · have swept : s.market.SameKeys (expireStale params target s.market) := expireStale_keys
        obtain old | new := prepared.keyed found
        · have bound := (List.getElem?_eq_some_iff.mp old).1
          rw [expireStale_length, last] at bound
          exact absurd bound (Nat.lt_irrefl _)
        · obtain ⟨r, row⟩ := new o offered
          rw [swept.offers, swept.seekers] at row
          exact ⟨r, stays row⟩
      · have bound := (List.getElem?_eq_some_iff.mp found).1
        rw [same, last] at bound
        exact absurd bound (Nat.lt_irrefl _)

/-- An attempt never waits again. -/
theorem OutcomeMove.pending {x x' : AttemptSystem} (h : OutcomeMove s act t a x x')
    (waits : x'.file.attempt.status = .pending) : x.file.attempt.status = .pending := by
  cases h with
  | kept status => rwa [← status]
  | lapsed pending => exact pending
  | overwritten _ _ status => cases status.symm.trans waits
  | ended _ status =>
      obtain status | ⟨status, -⟩ := status <;> cases status.symm.trans waits
  | refunding _ _ status =>
      obtain same | status := status
      · rwa [← same]
      · cases status.symm.trans waits

theorem PaymentCall.RefundsSettled.stays (h : MarketEvent s act t next) (known : call.RefundsSettled s.market) :
    call.RefundsSettled t := by
  cases call with
  | refund origin i a stage =>
      obtain ⟨x, found, settled⟩ := known
      obtain ⟨x', found', move⟩ := h.outcome found
      exact ⟨x', found', fun waits => settled (move.pending waits)⟩
  | _ => trivial

theorem FinalizedOn.refund_settled (h : FinalizedOn b payment m t result) (required : result.attempt = some a) :
    ∃ x, t.attempts[a]? = some x ∧ x.file.attempt.status ≠ .pending := by
  obtain ⟨⟨fresh, found, ended⟩, -⟩ := h.settles
  obtain ⟨x, listed, rfl⟩ := Market.findAttempt_eq_some.mp found
  have same : a = b := by
    cases h with
    | settled _ _ attempt =>
        obtain attempt | attempt := attempt
        · rw [attempt] at required
          cases required
        · exact Option.some.inj (required.symm.trans attempt)
    | refunded => exact (Option.some.inj required).symm
    | created => cases required
  subst same
  refine ⟨x, listed, fun waits => ?_⟩
  rw [waits] at ended
  obtain status | status | ⟨status, -⟩ := ended <;> cases status

theorem MarketEvent.refundsSettled (h : MarketEvent s act t next)
    (calls : ∀ call ∈ s.calls, call.RefundsSettled s.market) (goes : next = some call) : call.RefundsSettled t := by
  cases call with
  | refund origin i a stage =>
      cases h with
      | passed _ flow =>
          obtain rfl := Option.some.inj goes
          cases flow
      | @called entry => cases entry <;> cases goes
      | @prepared _ _ params _ _ prepared =>
          unfold Prepared.next at goes
          split at goes <;> cases goes
      | intentStored _ creating => obtain rfl | ⟨_, rfl⟩ := creating <;> cases goes
      | finalized _ _ run =>
          unfold Finalized.next at goes
          split at goes
          · rename_i required
            obtain ⟨-, -, rfl, -⟩ := PaymentCall.refund.inj (Option.some.inj goes)
            exact run.refund_settled required
          · cases Origin.after_eq goes
      | @refunded k reply origin' i' a' stage' row file gatewayRefund goes' _ answer found listed run continues =>
          obtain ⟨stage'', -, same⟩ | same := continues _ goes
          · obtain ⟨rfl, rfl, rfl, -⟩ := PaymentCall.refund.inj same
            obtain ⟨x, before, settled⟩ := calls _ (List.mem_of_getElem? found)
            have event : MarketEvent s (.resume k reply) _ _ := .refunded found listed run continues
            obtain ⟨x', after, move⟩ := event.outcome before
            exact ⟨x', after, fun waits => settled (move.pending waits)⟩
          · cases same
      | markedFailed => cases Origin.after_eq goes
      | stopped | intentSaved | initiationFailed | expired | acted => cases goes
  | _ => trivial

end Rows

section Releases

/-- The offer of an attempt is the one that it is due for. -/
theorem Market.due_offer : (m.findAttempt b).bind (·.offerId) = some o ↔ ∃ status, m.due b = some (some o, status) := by
  simp only [Market.due]
  cases m.findAttempt b with
  | none => simp
  | some x => simp

theorem Market.Paying.offer (h : m.Paying o b) : (m.findAttempt b).bind (·.offerId) = some o :=
  Market.due_offer.mpr ⟨_, h⟩

theorem Market.HoldsOwned.alone (known : m.HoldsOwned) (found : m.findAttempt b = some fresh)
    (pending : fresh.status = .pending) : ¬ m.HeldForOther b := by
  rintro ⟨o, x, status, a, due, -, -, waits, other⟩
  have own : m.Paying o b := by
    rw [Market.due, found, Option.map_some, Option.some.injEq, Prod.mk.injEq] at due
    rw [Market.Paying, Market.due, found, Option.map_some, due.1, pending]
  exact other (known.unique o a b waits own)

/-- What the end of an attempt does to holds. -/
structure Market.Releases (m : Market) (b : AttemptId) (t : Market) : Prop where
  step : m.HoldStep t
  kept : ¬ m.HeldForOther b → m.HoldKept t

theorem Market.Stopped.releases (h : m.Stopped (· = b) t)
    (offers : t.offers = (releaseOfferHold ((m.findAttempt b).bind (·.offerId)) m).offers) : m.Releases b t := by
  refine ⟨h.released (fun o a same waits => ?_) offers, fun free => ?_⟩
  · subst same
    exact waits.offer
  · refine h.released_kept offers fun o x a named listed held waits => ?_
    by_contra other
    obtain ⟨status, due⟩ := Market.due_offer.mp named
    exact free ⟨o, x, status, a, due, listed, held, waits, other⟩

theorem recordInitiationFailure_releases (code : String) : m.Releases b (recordInitiationFailure b code m) := by
  have stopped : m.Stopped (· = b) (m.updateAttempt b fun attempt =>
      { attempt with status := .failed, failureReason := some code }) :=
    updateAttempt_stopped (fun _ => rfl) fun _ => by simp
  refine Market.Stopped.releases (stopped.congr rfl (Market.due_congr releaseOfferHold_attempts)) ?_
  exact releaseOfferHold_offers_congr rfl

theorem expireAttempt_releases {reason : Option String} (found : m.findAttempt b = some fresh) :
    m.Releases b (expireAttempt b fresh.offerId reason m) := by
  have stopped : m.Stopped (· = b) (m.updateAttempt b fun attempt =>
      { attempt with status := .expired, failureReason := reason.or attempt.failureReason }) :=
    updateAttempt_stopped (fun _ => rfl) fun _ => by simp
  refine Market.Stopped.releases (stopped.congr rfl (Market.due_congr releaseOfferHold_attempts)) ?_
  rw [found, Option.bind_some]
  exact releaseOfferHold_offers_congr rfl

/-- A pending attempt that ends releases its own hold. -/
theorem Market.Releases.quiet (h : m.Releases b t) (found : m.findAttempt b = some fresh)
    (pending : fresh.status = .pending) : m.HoldStep t ∧ (m.HoldsOwned → m.HoldKept t) :=
  ⟨h.step, fun known => h.kept (known.alone found pending)⟩

theorem Market.HoldQuiet.kept_of (h : m.HoldQuiet t) : m.HoldStep t ∧ (m.HoldsOwned → m.HoldKept t) :=
  ⟨h.step, fun _ => h.kept⟩

theorem markAttemptFailed_holds {reason : String} :
    m.HoldStep (markAttemptFailed b reason m) ∧ (m.HoldsOwned → m.HoldKept (markAttemptFailed b reason m)) := by
  unfold markAttemptFailed
  split
  · exact (Market.HoldQuiet.of_same rfl rfl).kept_of
  · rename_i attempt found
    split
    · exact (Market.HoldQuiet.of_same rfl rfl).kept_of
    · rename_i pending
      have stopped : m.Stopped (· = b) (m.updateAttempt b fun attempt =>
          { attempt with status := .failed, failureReason := some reason }) :=
        updateAttempt_stopped (fun _ => rfl) fun _ => by simp
      refine Market.Releases.quiet (Market.Stopped.releases
        (stopped.congr rfl (Market.due_congr releaseOfferHold_attempts)) ?_) found (not_not.mp pending)
      rw [found, Option.bind_some]
      exact releaseOfferHold_offers_congr rfl

theorem expireCandidate_holds :
    m.HoldStep (expireCandidate b m) ∧ (m.HoldsOwned → m.HoldKept (expireCandidate b m)) := by
  unfold expireCandidate
  split
  · exact (Market.HoldQuiet.of_same rfl rfl).kept_of
  · rename_i attempt found
    split
    · exact (Market.HoldQuiet.of_same rfl rfl).kept_of
    · rename_i due
      exact (expireAttempt_releases found).quiet found (not_not.mp (not_or.mp due).1)

/-- The sweep ends attempts for the offer that is asked for. -/
theorem expireStale_holds (params : PaymentParams) (target : PaymentTarget) :
    m.HoldStep (expireStale params target m) ∧ (m.HoldsOwned → m.HoldKept (expireStale params target m)) := by
  -- the attempts that are swept wait for the offer of the call
  have asked : ∀ {a : AttemptId} {x : PaymentAttempt}, x.stale params target m.now = true →
      m.findAttempt a = some x → x.offerId = params.offerId ∧ x.status = .pending := by
    intro a x stale _
    simp only [PaymentAttempt.stale, PaymentAttempt.pendingFor, Bool.and_eq_true, beq_iff_eq] at stale
    exact ⟨stale.1.1.2, stale.1.2⟩
  have stopped : m.Stopped (fun a => ∃ x, m.findAttempt a = some x ∧ x.stale params target m.now = true)
      (expireStale params target m) := by
    refine ⟨fun a fresh => ?_, fun o a stale waits => ?_⟩
    · rw [Market.due, findAttempt_expireStale, Market.due]
      cases found : m.findAttempt a with
      | none => rfl
      | some x =>
          have kept : ¬ x.stale params target m.now = true := fun stale => fresh ⟨x, found, stale⟩
          simp [kept]
    · obtain ⟨x, found, stale⟩ := stale
      simp [Market.Paying, Market.due, findAttempt_expireStale, found, stale] at waits
  obtain ⟨attempts, swept⟩ := expireStale_eq params target m
  by_cases idle : m.attemptsWhere (·.stale params target m.now) = []
  · rw [if_pos idle] at swept
    have offers : (expireStale params target m).offers = m.offers := by rw [swept]
    have due : (expireStale params target m).due = m.due := by
      funext a
      refine stopped.others a ?_
      rintro ⟨x, found, stale⟩
      have listed := Market.mem_attemptsWhere.mpr ⟨x, found, stale⟩
      rw [idle] at listed
      cases listed
    exact (Market.HoldQuiet.of_same due offers).kept_of
  · rw [if_neg idle] at swept
    have offers : (expireStale params target m).offers = (releaseOfferHold params.offerId m).offers := by rw [swept]
    refine ⟨stopped.released (fun o a stale waits => ?_) offers, fun known => ?_⟩
    · obtain ⟨x, found, stale⟩ := stale
      have named := waits.offer
      rw [found, Option.bind_some] at named
      exact (asked stale found).1.symm.trans named
    · refine stopped.released_kept offers fun o x a named _ _ waits => ?_
      obtain ⟨b, listed⟩ := List.exists_mem_of_ne_nil _ idle
      obtain ⟨y, found, stale⟩ := Market.mem_attemptsWhere.mp listed
      have first : m.Paying o b := by
        obtain ⟨offer, pending⟩ := asked stale found
        rw [Market.Paying, Market.due, found, Option.map_some, offer, pending, named]
      obtain rfl := known.unique o a b waits first
      exact ⟨y, found, stale⟩

end Releases

section Takes

theorem paying_created {attempt : PaymentAttempt} {before : Market} (pending : attempt.status = .pending) :
    ({ before with attempts := before.attempts ++ [{ file := { attempt } }] } : Market).Paying o a ↔
      before.Paying o a ∨ (a = before.attempts.length ∧ attempt.offerId = some o) := by
  simp only [Market.Paying, Market.due, Market.findAttempt]
  obtain earlier | rfl | later := Nat.lt_trichotomy a before.attempts.length
  · have other : a ≠ before.attempts.length := Nat.ne_of_lt earlier
    rw [List.getElem?_append_left earlier]
    simp [other]
  · simp [pending]
  · have beyond : before.attempts[a]? = none := List.getElem?_eq_none (Nat.le_of_lt later)
    have past : (before.attempts ++ [({ file := { attempt } } : AttemptSystem)])[a]? = none :=
      List.getElem?_eq_none (by simp; omega)
    have other : a ≠ before.attempts.length := Nat.ne_of_gt later
    simp [past, beyond, other]

/-- The rows of the offers after a hold is taken. -/
theorem holdOffer_offer {expiresAt : Millis} {o' : Nat} (h : holdOffer o expiresAt m = .ok t) :
    t.offers[o']? = (m.offers[o']?).map fun x =>
      if o = o' then { x with status := .pendingPayment, paymentHoldExpiresAt := some expiresAt } else x := by
  obtain ⟨offer, -, -, rfl⟩ := holdOffer_ok h
  simp only [Market.updateRequest_offers, Market.updateOffer, List.getElem?_modify]
  cases m.offers[o']? <;> rfl

theorem PreparedOn.backed (h : PreparedOn params target m t b) (known : m.HoldsBacked) : t.HoldsBacked := by
  cases h with
  | reused => exact known
  | @created held attempt fresh _ _ _ _ _ _ on =>
      simp only [PaymentAttempt.pendingFor, Bool.and_eq_true, beq_iff_eq] at fresh
      obtain ⟨⟨-, named⟩, pending⟩ := fresh
      have due := Market.due_congr on.attempts
      intro o x found status
      cases on with
      | listing =>
          obtain ⟨hold, a, waits⟩ := known o x found status
          exact ⟨hold, a, (paying_created pending).mpr (.inl waits)⟩
      | @offer o' _ _ _ offered _ _ _ _ _ _ _ hold =>
          have row := (holdOffer_offer hold).symm.trans found
          obtain ⟨x, before, rfl⟩ := Option.map_eq_some_iff.mp row
          by_cases here : o' = o
          · rw [if_pos here]
            exact ⟨rfl, _, (paying_created pending).mpr (.inr ⟨rfl, here ▸ named.trans offered⟩)⟩
          · rw [if_neg here] at status ⊢
            obtain ⟨held, a, waits⟩ := known o x before status
            refine ⟨held, a, (paying_created pending).mpr (.inl ?_)⟩
            rw [Market.Paying, due]
            exact waits

theorem PreparedOn.owned (h : PreparedOn params target m t b) (known : m.HoldsOwned) : t.HoldsOwned := by
  cases h with
  | reused => exact known
  | @created held attempt fresh _ _ _ _ _ _ on =>
      simp only [PaymentAttempt.pendingFor, Bool.and_eq_true, beq_iff_eq] at fresh
      obtain ⟨⟨-, named⟩, pending⟩ := fresh
      have due := Market.due_congr on.attempts
      have paying : ∀ o a, ({ held with attempts := held.attempts ++ [{ file := { attempt } }] } : Market).Paying o a →
          m.Paying o a ∨ (a = held.attempts.length ∧ params.offerId = some o) := by
        intro o a waits
        obtain old | ⟨new, offered⟩ := (paying_created pending).mp waits
        · exact .inl (by rwa [Market.Paying, due] at old)
        · exact .inr ⟨new, named.symm.trans offered⟩
      -- the offer that is held was pending, so no attempt waits for it
      have free : ∀ o a, params.offerId = some o → ¬ m.Paying o a := by
        intro o a asked waits
        cases on with
        | listing direct =>
            rw [direct] at asked
            cases asked
        | offer offered listed _ undecided =>
            obtain rfl := Option.some.inj (offered.symm.trans asked)
            obtain ⟨x, found, selected⟩ := known.owned _ a waits
            obtain rfl := Option.some.inj (listed.symm.trans found)
            rw [undecided] at selected
            cases selected
      refine ⟨fun o a waits => ?_, fun o a b first second => ?_⟩
      · obtain old | ⟨-, asked⟩ := paying o a waits
        · obtain ⟨x, found, selected⟩ := known.owned o a old
          cases on with
          | listing => exact ⟨x, found, selected⟩
          | @offer o' _ _ _ _ _ _ _ _ _ _ _ hold =>
              refine ⟨_, (holdOffer_offer hold).trans (by rw [found]; rfl), ?_⟩
              dsimp only
              split
              · rfl
              · exact selected
        · cases on with
          | listing direct =>
              rw [direct] at asked
              cases asked
          | offer offered listed _ _ _ _ _ _ hold =>
              obtain rfl := Option.some.inj (offered.symm.trans asked)
              refine ⟨_, (holdOffer_offer hold).trans (by rw [listed]; rfl), ?_⟩
              dsimp only
              rw [if_pos rfl]
              rfl
      · obtain old | ⟨new, asked⟩ := paying o a first
        · obtain old' | ⟨-, asked⟩ := paying o b second
          · exact known.unique o a b old old'
          · exact absurd old (free o a asked)
        · obtain old' | ⟨new', -⟩ := paying o b second
          · exact absurd old' (free o b asked)
          · rw [new, new']

end Takes

section Finalized

theorem markPaid_due : (markPaid b m).due = m.due :=
  updateAttempt_due fun _ => ⟨rfl, rfl⟩

theorem requireRefund_stopped (payment : CapturedPayment) (reason : String) :
    m.Stopped (· = b) (requireRefund b payment reason (markPaid b m)) := by
  have ended : (markPaid b m).Stopped (· = b) (requireRefund b payment reason (markPaid b m)) := by
    unfold requireRefund
    exact updateAttempt_stopped (fun _ => rfl) fun _ => by simp
  exact ended.congr markPaid_due rfl

theorem RefundBranch.due {after : Market → Market} (h : RefundBranch b fresh m after) : (after u).due = u.due :=
  Market.due_congr h.attempts

theorem PaidBooking.stopped {booked numbered : Market} (h : PaidBooking b payment fresh (markPaid b m) t booked numbered) :
    m.Stopped (· = b) t := by
  have ended : (markPaid b m).Stopped (· = b) ((markPaid b m).updateAttempt b ({ · with
      status := .succeeded, providerPaymentId := payment.paymentId })) :=
    updateAttempt_stopped (fun _ => rfl) fun _ => by simp
  exact ended.congr markPaid_due (Market.due_congr h.attempts)

/-- The offers are the ones before the booking, with the booked one selected. -/
theorem PaidBooking.offers {booked numbered : Market} (h : PaidBooking b payment fresh m t booked numbered) :
    ∃ n : Market, n.offers = m.offers ∧ t.offers = (fresh.offerId.elim id selectOffer n).offers := by
  refine ⟨numbered.updateAttempt b ({ · with
    status := .succeeded, providerPaymentId := payment.paymentId }), ?_, by rw [h.settled]⟩
  obtain ⟨-, -, -, created⟩ := createBooking_ok h.create
  calc numbered.offers = booked.offers := by rw [(recalculateQueue_renumbered h.renumber).tables]
    _ = m.offers := by rw [created]

/-- The hold of an attempt is valid while its offer is held. -/
theorem Market.AttemptsKeyed.holdValid (known : m.AttemptsKeyed) (coherent : m.Coherent) (backed : m.HoldsBacked)
    (found : m.findAttempt b = some fresh) (offered : fresh.offerId = some o) {offer : Offer}
    (listed : m.offers[o]? = some offer) (held : offer.status = .pendingPayment) : m.holdValid fresh o = true := by
  obtain ⟨x, row, rfl⟩ := Market.findAttempt_eq_some.mp found
  obtain ⟨r, keys, seeker⟩ := known b x o row offered
  rw [Market.offerKeys, List.getElem?_map, listed, Option.map_some, Option.some.injEq, Offer.keys] at keys
  simp only [Prod.mk.injEq] at keys
  obtain ⟨rfl, provider, service⟩ := keys
  obtain ⟨request, requested, selected⟩ := coherent.held_of_pendingPayment (held ▸ Market.offered_of listed)
  rw [Market.seekers, List.getElem?_map, requested, Option.map_some, Option.some.injEq] at seeker
  have waiting : request.status = .paymentPending := by
    cases selected with
    | held status => exact status
  simp [Market.holdValid, listed, requested, provider, service, seeker, held, waiting, (backed o offer listed held).1]

theorem FinalizedOn.holds (h : FinalizedOn b payment m t result) (known : m.AttemptsKeyed) (coherent : m.Coherent)
    (backed : m.HoldsBacked) : m.HoldStep t ∧ ((∀ fresh, Unsettled b payment m fresh →
      fresh.expiresAt ≤ m.now ∨ (markPaid b m).unavailable fresh = true → ¬ m.HeldForOther b) → m.HoldKept t) := by
  cases h with
  | settled => exact ⟨.refl m, fun _ => (Market.HoldQuiet.of_same rfl rfl).kept⟩
  | @refunded fresh reason _ open_ branch =>
      have stopped : m.Stopped (· = b) _ := (requireRefund_stopped payment reason).congr rfl
        branch.due
      have named : (m.findAttempt b).bind (·.offerId) = fresh.offerId := by rw [open_.found, Option.bind_some]
      cases branch with
      | released gone =>
          have releases := Market.Stopped.releases stopped (by
            rw [named]
            exact releaseOfferHold_offers_congr rfl)
          exact ⟨releases.step, fun free => releases.kept (free fresh open_ gone)⟩
      | @invalid o offered invalid =>
          refine ⟨⟨fun o a waits => (stopped.paying.mp waits).1, fun o' x listed held => ?_⟩, fun _ => ?_⟩
          · refine ⟨listed, fun a waits => stopped.paying.mpr ⟨waits, ?_⟩⟩
            rintro rfl
            obtain rfl := Option.some.inj (offered.symm.trans (named.symm.trans waits.offer))
            have valid := known.holdValid coherent backed open_.found offered listed held
            exact absurd (valid.symm.trans invalid) (by decide)
          · exact fun o a waits selected => selected
      | @sibling o offer offered listed selected held =>
          -- a held offer is the only one of its request that is selected
          have status : offer.status = .pendingPayment := by
            have before : m.offers[o]? = some offer := listed
            simp only [Market.holdValid, markPaid, Market.updateAttempt, before, Option.any_some, Option.any_eq_true,
              Bool.and_eq_true, beq_iff_eq] at held
            obtain ⟨request, -, ⟨⟨-, status⟩, -⟩, -⟩ := held
            exact status
          have alone : m.selectedElsewhere offer.requestId o = false := coherent.unselectedElsewhere listed status
          exact absurd (alone.symm.trans selected) (by decide)
  | @created fresh _ booked numbered open_ bookable paid =>
      have stopped := paid.stopped
      obtain ⟨n, before, offers⟩ := paid.offers
      have same : n.offers = m.offers := before
      cases offered : fresh.offerId with
      | none =>
          rw [offered] at offers
          refine ⟨⟨fun o a waits => (stopped.paying.mp waits).1, fun o x listed held => ?_⟩, fun _ o a _ => ?_⟩
          · refine ⟨(offers.trans same) ▸ listed, fun a waits => stopped.paying.mpr ⟨waits, ?_⟩⟩
            rintro rfl
            have named := waits.offer
            rw [open_.found, Option.bind_some, offered] at named
            cases named
          · rw [offers.trans same]
            exact id
      | some o =>
          rw [offered] at offers
          obtain ⟨valid, -⟩ := bookable.held o offered
          obtain ⟨offer, listed, -⟩ := (Option.any_eq_true _ _).mp valid
          have row : m.offers[o]? = some offer := listed
          obtain ⟨held, selected⟩ := selectOffer_holds (m := n) (same ▸ row) offers
          refine ⟨⟨fun o a waits => (stopped.paying.mp waits).1, fun o' x found status => ?_⟩, fun _ o' a _ => ?_⟩
          · obtain ⟨old, other⟩ := held o' x found status
            refine ⟨same ▸ old, fun a waits => stopped.paying.mpr ⟨waits, ?_⟩⟩
            rintro rfl
            have named := waits.offer
            rw [open_.found, Option.bind_some, offered] at named
            exact other (Option.some.inj named)
          · rintro ⟨x, found, chosen⟩
            exact selected o' x (same ▸ found) chosen

end Finalized

section Events

/-- A step prepares a payment, or it takes no hold and releases none but the hold of its own attempt. -/
theorem MarketEvent.holds (h : MarketEvent s act t next) (known : s.market.AttemptsKeyed) (coherent : s.market.Coherent)
    (backed : s.market.HoldsBacked) (calls : ∀ call ∈ s.calls, call.RefundsSettled s.market) :
    (∃ params target a, PreparedOn params target (expireStale params target s.market) t a)
      ∨ (s.market.HoldStep t ∧ (s.market.HoldsOwned → ¬ s.ReleasesOther act → s.market.HoldKept t)) := by
  have quiet : s.market.HoldQuiet t →
      s.market.HoldStep t ∧ (s.market.HoldsOwned → ¬ s.ReleasesOther act → s.market.HoldKept t) :=
    fun quiet => ⟨quiet.step, fun _ _ => quiet.kept⟩
  cases h with
  | prepared _ run => exact .inl ⟨_, _, _, run⟩
  | called | stopped | passed => exact .inr (quiet (.of_same rfl rfl))
  | intentStored =>
      refine .inr (quiet (.of_same ?_ rfl))
      funext a
      simp only [Market.due, Market.findAttempt, Market.storeIntent, List.getElem?_modify]
      cases s.market.attempts[a]? with
      | none => rfl
      | some x =>
          simp only [Option.map_eq_map, Option.map_some]
          split <;> rfl
  | intentSaved =>
      refine .inr (quiet (.of_same (updateAttempt_due ?_) rfl))
      exact fun _ => ⟨rfl, rfl⟩
  | @initiationFailed k reply b code found =>
      have releases := recordInitiationFailure_releases (m := s.market) (b := b) code
      exact .inr ⟨releases.step, fun _ safe => releases.kept fun other => safe (.initiationFailed found other)⟩
  | @finalized k reply origin payment b t result found registered run =>
      obtain ⟨step, kept⟩ := run.holds known coherent backed
      exact .inr ⟨step, fun _ safe => kept fun fresh open_ gone other =>
        safe (.lateCapture found registered open_ gone other)⟩
  | @refunded k reply origin i a stage row file gatewayRefund goes next answer found listed run =>
      refine .inr (quiet ?_)
      obtain same | ⟨-, same⟩ := AttemptRefundStage.resume_attempt run
      · refine .of_same ?_ rfl
        funext b
        simp only [Market.due, Market.findAttempt, List.getElem?_set]
        split
        · rename_i here
          subst here
          rw [if_pos (List.getElem?_eq_some_iff.mp listed).1, listed]
          simp [same]
        · rfl
      · -- the payment of the refunded attempt is not pending
        obtain ⟨x, before, settled⟩ := calls _ (List.mem_of_getElem? found)
        obtain rfl := Option.some.inj (listed.symm.trans before)
        have paying : ∀ o b, ({ s.market with
            attempts := s.market.attempts.set a { row with file, gatewayRefund } } : Market).Paying o b ↔
              s.market.Paying o b := by
          intro o b
          simp only [Market.Paying, Market.due, Market.findAttempt, List.getElem?_set]
          split
          · rename_i here
            subst here
            rw [if_pos (List.getElem?_eq_some_iff.mp listed).1, listed]
            simp [same, settled]
          · rfl
        exact ⟨⟨fun o b => (paying o b).mp, fun o x found _ => ⟨found, fun b => (paying o b).mpr⟩⟩,
          fun o b _ selected => selected⟩
  | markedFailed =>
      obtain ⟨step, kept⟩ := markAttemptFailed_holds (m := s.market)
      exact .inr ⟨step, fun owned _ => kept owned⟩
  | expired =>
      obtain ⟨step, kept⟩ := expireCandidate_holds (m := s.market)
      exact .inr ⟨step, fun owned _ => kept owned⟩
  | acted run => exact .inr (quiet (act_holds run))

theorem MarketEvent.backed (h : MarketEvent s act t next) (known : s.market.AttemptsKeyed)
    (coherent : s.market.Coherent) (backed : s.market.HoldsBacked)
    (calls : ∀ call ∈ s.calls, call.RefundsSettled s.market) : t.HoldsBacked := by
  obtain ⟨params, target, a, prepared⟩ | ⟨step, -⟩ := h.holds known coherent backed calls
  · exact prepared.backed ((expireStale_holds params target).1.backed backed)
  · exact step.backed backed

theorem MarketEvent.owned (h : MarketEvent s act t next) (known : s.market.AttemptsKeyed)
    (coherent : s.market.Coherent) (backed : s.market.HoldsBacked)
    (calls : ∀ call ∈ s.calls, call.RefundsSettled s.market) (safe : ¬ s.ReleasesOther act)
    (owned : s.market.HoldsOwned) : t.HoldsOwned := by
  obtain ⟨params, target, a, prepared⟩ | ⟨step, kept⟩ := h.holds known coherent backed calls
  · obtain ⟨step, kept⟩ := expireStale_holds (m := s.market) params target
    exact prepared.owned (step.owned (kept owned) owned)
  · exact step.owned (kept owned safe) owned

end Events

section Runs

theorem market_holds {C : MarketSystem → MarketAction → Prop} (h : marketMachine.ReachableUnder C s) :
    s.Coupled (fun m => m.AttemptsKeyed ∧ m.HoldsBacked) fun m call => call.RefundsSettled m := by
  refine market_reachableUnder (fun m _ offers attempts _ => ⟨fun a x o found => ?_, fun o x found => ?_⟩) ?_ h
  · simp [attempts] at found
  · simp [offers] at found
  · intro s act t next reached known _ event
    have backed := event.backed known.shared.1 (market_coherent reached) known.shared.2 known.calls
    exact ⟨⟨event.attemptsKeyed known.shared.1, backed⟩, fun c _ settled => settled.stays event,
      fun c goes => event.refundsSettled known.calls goes⟩

theorem holds_owned (h : marketMachine.ReachableUnder (fun s act => ¬ s.ReleasesOther act) s) : s.market.HoldsOwned := by
  refine h.invariant_with (J := marketMachine.ReachableUnder fun s act => ¬ s.ReleasesOther act)
    (I := fun s => s.market.HoldsOwned) (fun _ h => h) ?_ ?_
  · rintro s ⟨-, -, attempts, -, -⟩
    have none : ∀ o a, ¬ s.market.Paying o a := fun o a waits => by
      simp [Market.Paying, Market.due, Market.findAttempt, attempts] at waits
    exact ⟨fun o a waits => absurd waits (none o a), fun o a b waits => absurd waits (none o a)⟩
  · intro s act s' reached owned safe stepped
    obtain ⟨next, event, -⟩ := MarketSystem.step_event stepped
    have holds := market_holds reached
    exact event.owned holds.shared.1 (market_coherent reached) holds.shared.2 holds.calls safe owned

/-- The attempt whose hold another one releases waits without it. -/
theorem Market.HeldForOther.lost (h : m.HeldForOther b) (stopped : m.Stopped (· = b) t)
    (offers : t.offers = (releaseOfferHold ((m.findAttempt b).bind (·.offerId)) m).offers) : ¬ t.HoldsOwned := by
  obtain ⟨o, x, status, a, due, listed, held, waits, other⟩ := h
  intro owned
  obtain ⟨x', found, selected⟩ := owned.owned o a (stopped.paying.mpr ⟨waits, other⟩)
  have named : (m.findAttempt b).bind (·.offerId) = some o := Market.due_offer.mpr ⟨status, due⟩
  rw [offers, releaseOfferHold_offer, named, listed, Option.map_some, if_pos ⟨rfl, held⟩, Option.some.injEq] at found
  subst found
  cases selected

/-- The capture of an attempt that has expired, or that can no longer be booked, releases the hold of the offer. -/
theorem finalizeAttempt_late (open_ : Unsettled b payment m fresh)
    (gone : fresh.expiresAt ≤ m.now ∨ (markPaid b m).unavailable fresh = true)
    (unrecorded : (markPaid b m).paymentRecordedElsewhere b payment.paymentId = false) :
    ∃ reason, finalizeAttempt b payment m = .ok (releaseOfferHold fresh.offerId
      (requireRefund b payment reason (markPaid b m)), { refundRequired := true, attempt := some b }) := by
  have unrefunded : ¬ (fresh.status = .refundRequired ∨ fresh.status = .refunded) :=
    fun ended => ended.elim open_.unrefunded.1 open_.unrefunded.2
  simp only [finalizeAttempt, orThrow_bind_ok, ite_ok, pure_ok, rejectIf_bind_ok, open_.found, Option.some.injEq,
    exists_eq_left', open_.unbooked, unrefunded, open_.valid, unrecorded, Bool.true_eq_false, Bool.false_eq_true,
    false_and, not_false_eq_true, true_and, false_or]
  by_cases expired : fresh.expiresAt ≤ (markPaid b m).now
  · exact ⟨_, .inl ⟨expired, rfl⟩⟩
  · exact ⟨_, .inr ⟨expired, .inl ⟨gone.resolve_left expired, rfl⟩⟩⟩

theorem MarketSystem.ReleasesOther.lost (h : s.ReleasesOther act) (reached : marketMachine.Reachable s)
    (stepped : marketMachine.next s act = some s') : ¬ s'.market.HoldsOwned := by
  cases h with
  | @initiationFailed k reply b code call other =>
      simp only [marketMachine, MarketSystem.step, call, Option.bind_some, Market.resume, Option.map_some,
        Option.some.injEq] at stepped
      subst stepped
      have stopped : s.market.Stopped (· = b) (s.market.updateAttempt b fun attempt =>
          { attempt with status := .failed, failureReason := some code }) :=
        updateAttempt_stopped (fun _ => rfl) fun _ => by simp
      exact other.lost (stopped.congr rfl (Market.due_congr releaseOfferHold_attempts))
        (releaseOfferHold_offers_congr rfl)
  | @lateCapture k reply origin payment b fresh call registered open_ gone other =>
      have settled := market_settled reached
      have genuine := settled.calls _ (List.mem_of_getElem? call)
      have captured := (genuine_payment settled.shared.1 genuine registered).2
      have unrecorded : (markPaid b s.market).paymentRecordedElsewhere b payment.paymentId = false :=
        captured ▸ (market_referenced reached).markPaid.unrecorded
      obtain ⟨reason, run⟩ := finalizeAttempt_late open_ gone unrecorded
      have committed : ∃ next, s.market.resume reply (.finalize origin payment) = some (releaseOfferHold fresh.offerId
          (requireRefund b payment reason (markPaid b s.market)), next) := by
        simp [Market.resume, Market.commit, registered, orThrow, run, bind, Except.bind, pure, Except.pure]
      obtain ⟨next, committed⟩ := committed
      simp only [marketMachine, MarketSystem.step, call, Option.bind_some, committed, Option.map_some,
        Option.some.injEq] at stepped
      subst stepped
      refine other.lost ((requireRefund_stopped payment reason).congr rfl
        (Market.due_congr releaseOfferHold_attempts)) ?_
      rw [open_.found, Option.bind_some]
      exact releaseOfferHold_offers_congr rfl

/-- A held offer is held for a pending payment. While no step releases the hold of another attempt, an offer is held
    or accepted as long as a payment for it is pending, and one payment is; each such step breaks this. -/
theorem hold_ownership (h : marketMachine.Reachable s) :
    s.market.HoldsBacked
      ∧ (marketMachine.ReachableUnder (fun s act => ¬ s.ReleasesOther act) s → s.market.HoldsOwned)
      ∧ ∀ act s', marketMachine.next s act = some s' → s.market.HoldsOwned →
        (s'.market.HoldsOwned ↔ ¬ s.ReleasesOther act) := by
  have holds := market_holds h
  refine ⟨holds.shared.2, holds_owned, fun act s' stepped owned => ⟨fun after other => ?_, fun safe => ?_⟩⟩
  · exact other.lost h stepped after
  · obtain ⟨next, event, -⟩ := MarketSystem.step_event stepped
    exact event.owned holds.shared.1 (market_coherent h) holds.shared.2 holds.calls safe owned

/-- The steps that cannot release a hold of another attempt. -/
def MarketSystem.ownsReleases (s : MarketSystem) : MarketAction → Bool
  | .resume k _ => match s.calls[k]? with
    | some (.initiateFailed _ _) | some (.finalize _ _) => false
    | _ => true
  | _ => true

theorem MarketSystem.ownsReleases_sound (safe : s.ownsReleases act = true) : ¬ s.ReleasesOther act := by
  intro other
  cases other with
  | initiationFailed call => simp [MarketSystem.ownsReleases, call] at safe
  | lateCapture call => simp [MarketSystem.ownsReleases, call] at safe

/-- The payment window passes and the seeker pays again; then the gateway reports the first payment. -/
def sampleLateCapture : List MarketAction :=
  sampleHeldOffer ++ [.wait attemptTtlMs]
    ++ sampleCall 0 (.initiateOnlinePayment { seekerId := 1, offerId := some 0 })
      [.none, .none, .ok, .ok, .redirect none, .none]
    ++ .intent 0 .succeeded :: sampleCall 0 (.paidWebhook 0) [.ok]

theorem hold_ownership_late_capture : ∃ s, marketMachine.exec sampleMarket sampleLateCapture = some s
    ∧ s.market.HoldsBacked ∧ s.market.HoldsOwned ∧ s.ReleasesOther (.resume 0 .none) := by
  obtain ⟨s, run, lost⟩ := sample_any
    (o := marketMachine.execUnder MarketSystem.ownsReleases sampleMarket sampleLateCapture)
    (p := fun s => (marketMachine.next s (.resume 0 .none)).any (fun s' =>
      s'.market.due 1 == some (some 0, .pending)
        && s'.market.offers[0]?.any (·.status == .pending)) = true) (by decide)
  have safe : marketMachine.ReachableUnder (fun s act => ¬ s.ReleasesOther act) s :=
    ⟨sampleMarket, sampleMarket_initial, .of_execUnder (fun _ _ => MarketSystem.ownsReleases_sound) run⟩
  obtain ⟨backed, owned, steps⟩ := hold_ownership safe.reachable
  obtain ⟨s', stepped, waits⟩ := (Option.any_eq_true _ _).mp lost
  simp only [Bool.and_eq_true, beq_iff_eq] at waits
  obtain ⟨due, pending⟩ := waits
  refine ⟨s, Machine.exec_of_execUnder run, backed, owned safe, ?_⟩
  by_contra unreleased
  obtain ⟨x, found, selected⟩ := ((steps _ s' stepped (owned safe)).mpr unreleased).owned 0 1 due
  simp only [found, Option.any_some, beq_iff_eq] at pending
  rw [pending] at selected
  cases selected

/-- As long as no step releases a hold that another attempt has taken: an offer is held only for a pending payment, and
    it is held or accepted while a payment of it is pending. -/
theorem pending_payment_holds (h : marketMachine.ReachableUnder (fun s act => ¬ s.ReleasesOther act) s) (o : Nat) :
    (∀ x, s.market.offers[o]? = some x → x.status = .pendingPayment → ∃ a, s.market.Paying o a)
    ∧ ∀ a, s.market.Paying o a →
      ∃ x, s.market.offers[o]? = some x ∧ (x.status = .pendingPayment ∨ x.status = .accepted) := by
  refine ⟨fun x found held => ((market_holds h).shared.2 o x found held).2, fun a waits => ?_⟩
  obtain ⟨x, found, selected⟩ := (holds_owned h).owned o a waits
  refine ⟨x, found, ?_⟩
  cases status : x.status <;> simp_all [OfferStatus.selected]

theorem pending_payment_holds_again : ∃ s x, marketMachine.exec sampleMarket sampleLateCapture = some s
    ∧ s.market.Paying 0 1 ∧ s.market.offers[0]? = some x ∧ (x.status = .pendingPayment ∨ x.status = .accepted) := by
  obtain ⟨s, run, waits⟩ := sample_any
    (o := marketMachine.execUnder MarketSystem.ownsReleases sampleMarket sampleLateCapture)
    (p := fun s => s.market.due 1 = some (some 0, .pending)) (by decide)
  have safe : marketMachine.ReachableUnder (fun s act => ¬ s.ReleasesOther act) s :=
    ⟨sampleMarket, sampleMarket_initial, .of_execUnder (fun _ _ => MarketSystem.ownsReleases_sound) run⟩
  obtain ⟨x, found, held⟩ := (pending_payment_holds safe 0).2 1 waits
  exact ⟨s, x, Machine.exec_of_execUnder run, waits, found, held⟩

/-- The late capture of the first attempt leaves the offer open while the second one waits for its payment. -/
theorem late_capture_releases_hold : ∃ s x,
    marketMachine.exec sampleMarket (sampleLateCapture ++ [.resume 0 .none]) = some s ∧ marketMachine.Reachable s
    ∧ s.market.Paying 0 1 ∧ s.market.offers[0]? = some x ∧ x.status = .pending := by
  obtain ⟨s, run, waits, opened⟩ := sample_any (o := marketMachine.exec sampleMarket (sampleLateCapture ++ [.resume 0 .none]))
    (p := fun s => s.market.due 1 = some (some 0, .pending)
      ∧ (s.market.offers[0]?).any (·.status == .pending) = true) (by decide)
  obtain ⟨x, found, pending⟩ := (Option.any_eq_true _ _).mp opened
  exact ⟨s, x, run, .of_exec sampleMarket_initial run, waits, found, by simpa using pending⟩

end Runs

end ServiceHub
