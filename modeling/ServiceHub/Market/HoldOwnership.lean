import ServiceHub.Market.Capture
import ServiceHub.Market.Finalization

/-! # Who holds an offer

An offer is held while its payment is pending. The hold is taken with the attempt and released with it, but the
release names the offer only, so an attempt that has ended before can release what a newer one holds.
-/

namespace ServiceHub

open Guard

variable {s s' : MarketSystem} {m t u : Market} {act : MarketAction} {next : Option PaymentCall} {o : OfferId}
  {a b : AttemptId} {p : AttemptId → Prop}

/-- The offer that an attempt is for, and its status. -/
def Market.due (m : Market) (a : AttemptId) : Option (Option OfferId × PaymentAttemptStatus) :=
  (m.findAttempt a).map fun x => (x.offerId, x.status)

/-- The attempt waits for the payment of the offer. -/
def Market.Paying (m : Market) (o : OfferId) (a : AttemptId) : Prop :=
  m.due a = some (some o, .pending)

/-- A held offer is held for a payment. -/
def Market.HoldsBacked (m : Market) : Prop :=
  ∀ (o : Nat) (x : Offer), m.offers[o]? = some x → x.status = .pendingPayment →
    x.paymentHoldExpiresAt.isSome = true ∧ ∃ a, m.Paying o a

/-- An offer is held or accepted while an attempt waits for its payment, and one attempt does. -/
structure Market.HoldsOwned (m : Market) : Prop where
  owned : ∀ (o : Nat) a, m.Paying o a → ∃ x, m.offers[o]? = some x ∧ x.status.selected = true
  unique : ∀ o a b, m.Paying o a → m.Paying o b → a = b

/-- A write that takes no hold. -/
structure Market.HoldStep (m t : Market) : Prop where
  paying : ∀ o a, t.Paying o a → m.Paying o a
  held : ∀ (o : Nat) (x : Offer), t.offers[o]? = some x → x.status = .pendingPayment →
    m.offers[o]? = some x ∧ ∀ a, m.Paying o a → t.Paying o a

/-- A write that releases no offer whose payment is still pending afterwards. -/
def Market.HoldKept (m t : Market) : Prop :=
  ∀ (o : Nat) a, t.Paying o a → (∃ x, m.offers[o]? = some x ∧ x.status.selected = true) →
    ∃ x, t.offers[o]? = some x ∧ x.status.selected = true

/-- A write that takes no hold and releases none. -/
structure Market.HoldQuiet (m t : Market) : Prop where
  step : m.HoldStep t
  kept : m.HoldKept t

section Steps

theorem Market.HoldStep.refl (m : Market) : m.HoldStep m := ⟨fun _ _ => id, fun _ _ found _ => ⟨found, fun _ => id⟩⟩

theorem Market.HoldStep.backed (h : m.HoldStep t) (known : m.HoldsBacked) : t.HoldsBacked := by
  intro o x found held
  obtain ⟨before, waits⟩ := h.held o x found held
  obtain ⟨hold, a, waiting⟩ := known o x before held
  exact ⟨hold, a, waits a waiting⟩

theorem Market.HoldStep.owned (h : m.HoldStep t) (kept : m.HoldKept t) (known : m.HoldsOwned) : t.HoldsOwned :=
  ⟨fun o a waits => kept o a waits (known.owned o a (h.paying o a waits)),
    fun o a b first second => known.unique o a b (h.paying o a first) (h.paying o b second)⟩

/-- A write to other tables, or to other columns of the attempts. -/
theorem Market.HoldQuiet.of_same (due : t.due = m.due) (offers : t.offers = m.offers) : m.HoldQuiet t := by
  refine ⟨⟨fun o a => ?_, fun o x found _ => ⟨offers ▸ found, fun a => ?_⟩⟩, fun o a _ selected => ?_⟩
  · simp only [Market.Paying, due]
    exact id
  · simp only [Market.Paying, due]
    exact id
  · rw [offers]
    exact selected

theorem Market.due_congr (attempts : t.attempts = m.attempts) : t.due = m.due := by
  funext a
  simp only [Market.due, Market.findAttempt, attempts]

/-- The offers are rewritten and no attempt is. -/
theorem Market.HoldQuiet.of_offers (attempts : t.attempts = m.attempts)
    (held : ∀ (o : Nat) (x : Offer), t.offers[o]? = some x → x.status = .pendingPayment → m.offers[o]? = some x)
    (selected : ∀ (o : Nat) (x : Offer), m.offers[o]? = some x → x.status.selected = true →
      ∃ x', t.offers[o]? = some x' ∧ x'.status.selected = true) : m.HoldQuiet t := by
  have due := Market.due_congr attempts
  refine ⟨⟨fun o a => ?_, fun o x found status => ⟨held o x found status, fun a => ?_⟩⟩, fun o a _ before => ?_⟩
  · simp only [Market.Paying, due]
    exact id
  · simp only [Market.Paying, due]
    exact id
  · obtain ⟨x, found, status⟩ := before
    exact selected o x found status

theorem Market.due_update {g : PaymentAttempt → PaymentAttempt} (own : ∀ x, (g x).offerId = x.offerId) :
    (m.updateAttempt b g).due a = if b = a then (m.findAttempt a).map fun x => (x.offerId, (g x).status) else m.due a := by
  simp only [Market.due, Market.findAttempt_update]
  split
  · cases m.findAttempt a <;> simp [own]
  · rfl

theorem updateAttempt_due {g : PaymentAttempt → PaymentAttempt}
    (same : ∀ x, (g x).offerId = x.offerId ∧ (g x).status = x.status) : (m.updateAttempt b g).due = m.due := by
  funext a
  rw [Market.due_update fun x => (same x).1]
  split
  · simp only [Market.due, (same _).2]
  · rfl

/-- Attempts stop waiting, and the others are as they were. -/
structure Market.Stopped (m : Market) (p : AttemptId → Prop) (t : Market) : Prop where
  others : ∀ a, ¬ p a → t.due a = m.due a
  stopped : ∀ o a, p a → ¬ t.Paying o a

theorem Market.Stopped.paying (h : m.Stopped p t) : t.Paying o a ↔ m.Paying o a ∧ ¬ p a := by
  constructor
  · intro waits
    have other : ¬ p a := fun ended => h.stopped o a ended waits
    exact ⟨(h.others a other).symm.trans waits, other⟩
  · rintro ⟨waits, other⟩
    exact (h.others a other).trans waits

theorem updateAttempt_stopped {g : PaymentAttempt → PaymentAttempt} (own : ∀ x, (g x).offerId = x.offerId)
    (ended : ∀ x, (g x).status ≠ .pending) : m.Stopped (· = b) (m.updateAttempt b g) := by
  refine ⟨fun a other => ?_, fun o a same waits => ?_⟩
  · rw [Market.due_update own, if_neg (Ne.symm other)]
  · rw [Market.Paying, Market.due_update own, if_pos same.symm, Option.map_eq_some_iff] at waits
    obtain ⟨x, -, status⟩ := waits
    exact ended x (Prod.mk.inj status).2

theorem Market.Stopped.congr {n : Market} (h : n.Stopped p t) (before : n.due = m.due) (after : u.due = t.due) :
    m.Stopped p u := by
  refine ⟨fun a other => ?_, fun o a ended waits => ?_⟩
  · rw [after, ← before]
    exact h.others a other
  · rw [Market.Paying, after] at waits
    exact h.stopped o a ended waits

theorem releaseOfferHold_offer (offerId : Option OfferId) (o : Nat) :
    (releaseOfferHold offerId m).offers[o]? = (m.offers[o]?).map fun x =>
      if offerId = some o ∧ x.status = .pendingPayment then { x with status := .pending, paymentHoldExpiresAt := none }
      else x := by
  cases offerId with
  | none => simp [releaseOfferHold]
  | some o' =>
      simp only [releaseOfferHold]
      cases listed : m.offers[o']? with
      | none =>
          by_cases here : o' = o
          · subst here
            simp [listed]
          · simp [here]
      | some offer =>
          by_cases held : offer.status = .pendingPayment
          · simp only [held, ne_eq, not_true_eq_false, if_false, Market.updateRequest_offers, Market.updateOffer,
              List.getElem?_modify]
            by_cases here : o' = o
            · subst here
              simp [listed, held]
            · cases m.offers[o]? <;> simp [here]
          · simp only [ne_eq, held, not_false_eq_true, if_true]
            by_cases here : o' = o
            · subst here
              simp [listed, held]
            · simp [here]

/-- Only the statuses of the offers decide what a release does to them. -/
theorem releaseOfferHold_offers_congr {offerId : Option OfferId} (same : t.offers = m.offers) :
    (releaseOfferHold offerId t).offers = (releaseOfferHold offerId m).offers := by
  refine List.ext_getElem? fun o => ?_
  rw [releaseOfferHold_offer, releaseOfferHold_offer, same]

/-- Attempts for the offer give up, and its hold is released. -/
theorem Market.Stopped.released (h : m.Stopped p t) {offerId : Option OfferId}
    (own : ∀ o a, p a → m.Paying o a → offerId = some o)
    (offers : t.offers = (releaseOfferHold offerId m).offers) : m.HoldStep t := by
  refine ⟨fun o a waits => (h.paying.mp waits).1, fun o x found held => ?_⟩
  rw [offers, releaseOfferHold_offer, Option.map_eq_some_iff] at found
  obtain ⟨x, before, rfl⟩ := found
  by_cases released : offerId = some o ∧ x.status = .pendingPayment
  · rw [if_pos released] at held
    cases held
  · rw [if_neg released] at held ⊢
    refine ⟨before, fun a waits => h.paying.mpr ⟨waits, fun ended => ?_⟩⟩
    exact released ⟨own o a ended waits, held⟩

/-- Nobody else waits for the payment of the offer that is released. -/
theorem Market.Stopped.released_kept (h : m.Stopped p t) {offerId : Option OfferId}
    (offers : t.offers = (releaseOfferHold offerId m).offers)
    (alone : ∀ (o : Nat) (x : Offer) a, offerId = some o → m.offers[o]? = some x → x.status = .pendingPayment →
      m.Paying o a → p a) : m.HoldKept t := by
  rintro o a waits ⟨x, before, selected⟩
  obtain ⟨waited, other⟩ := h.paying.mp waits
  rw [offers, releaseOfferHold_offer, before]
  refine ⟨_, rfl, ?_⟩
  dsimp only
  split
  · rename_i released
    exact absurd (alone o x a released.1 before released.2 waited) other
  · exact selected

/-- The offers after a selection: the selected one is accepted, and held offers stay held. -/
theorem afterSelection_held {offer : Offer} {o' : OfferId} {x : Offer}
    (held : (Offer.afterSelection o offer.requestId o' x).status = .pendingPayment) :
    Offer.afterSelection o offer.requestId o' x = x ∧ o ≠ o' := by
  unfold Offer.afterSelection at held ⊢
  split at held
  · cases held
  · rename_i other
    rw [if_neg other]
    split at held
    · cases held
    · rename_i undecided
      rw [if_neg undecided]
      exact ⟨rfl, other⟩

theorem afterSelection_selected {offer : Offer} {o' : OfferId} {x : Offer} (selected : x.status.selected = true) :
    (Offer.afterSelection o offer.requestId o' x).status.selected = true := by
  unfold Offer.afterSelection
  split
  · rfl
  · split
    · rename_i pending
      rw [pending.2] at selected
      cases selected
    · exact selected

theorem selectOffer_holds {offer : Offer} (listed : m.offers[o]? = some offer)
    (offers : t.offers = (selectOffer o m).offers) :
    (∀ (o' : Nat) (x : Offer), t.offers[o']? = some x → x.status = .pendingPayment → m.offers[o']? = some x ∧ o ≠ o')
      ∧ ∀ (o' : Nat) (x : Offer), m.offers[o']? = some x → x.status.selected = true →
        ∃ x', t.offers[o']? = some x' ∧ x'.status.selected = true := by
  have rows := selectOffer_rewritten listed offers
  refine ⟨fun o' x found held => ?_, fun o' x found selected => ?_⟩
  · rw [rows.rows, Option.map_eq_some_iff] at found
    obtain ⟨x, before, rfl⟩ := found
    obtain ⟨same, other⟩ := afterSelection_held held
    exact ⟨same.symm ▸ before, other⟩
  · exact ⟨_, by rw [rows.rows, found]; rfl, afterSelection_selected selected⟩

/-- The offers without the ones that were pending. -/
theorem rejectPendingOffers_holds {r : RequestId} (n : Market) (offers : n.offers = m.offers) :
    (∀ (o' : Nat) (x : Offer), (rejectPendingOffers r n).offers[o']? = some x → x.status = .pendingPayment →
        m.offers[o']? = some x)
      ∧ ∀ (o' : Nat) (x : Offer), m.offers[o']? = some x → x.status.selected = true →
        ∃ x', (rejectPendingOffers r n).offers[o']? = some x' ∧ x'.status.selected = true := by
  have rows := (rejectPendingOffers_rewritten (m := n) (r := r)).rows
  refine ⟨fun o' x found held => ?_, fun o' x found selected => ?_⟩
  · rw [rows, offers, Option.map_eq_some_iff] at found
    obtain ⟨x, before, rfl⟩ := found
    split at held
    · cases held
    · rename_i undecided
      rw [if_neg undecided]
      exact before
  · rw [rows, offers, found]
    refine ⟨_, rfl, ?_⟩
    dsimp only
    split
    · rename_i pending
      simp only [Bool.and_eq_true, beq_iff_eq] at pending
      rw [pending.2] at selected
      cases selected
    · exact selected

/-- The services outside the payment calls accept offers and close them, and neither take nor release a hold. -/
theorem act_holds (h : m.act act = some t) : m.HoldQuiet t := by
  cases act with
  | pay | resume | crash => simp [Market.act] at h
  | intent a status =>
      obtain rfl := Option.some.inj h
      refine .of_same ?_ rfl
      funext b
      simp only [Market.due, Market.findAttempt, List.getElem?_modify]
      cases m.attempts[b]? with
      | none => simp
      | some x => by_cases here : a = b <;> simp [here]
  | booking b st updatedAt =>
      obtain ⟨x, x', stepped⟩ := stepBooking_ok h
      obtain ⟨_, _, _, rfl⟩ := stepped.tables
      exact .of_same rfl rfl
  | setCapacity p limit =>
      have run := toOption_some.mp h
      simp only [Market.setProviderWorkloadCapacity, check_bind_ok, orThrow_bind_ok] at run
      obtain ⟨-, user, -, renumber⟩ := run
      rw [(recalculateQueue_renumbered renumber).tables]
      exact .of_same rfl rfl
  | createDirectRequest =>
      obtain ⟨terms, -, create⟩ := createDirectRequest_ok (toOption_some.mp h)
      obtain ⟨-, -, -, rfl⟩ := createBooking_ok create
      exact .of_same rfl rfl
  | createDirectFromOffer o =>
      obtain ⟨offer, request, terms, listed, -, -, -, -, -, create⟩ := createDirectFromOfferService_ok (toOption_some.mp h)
      obtain ⟨-, -, -, rfl⟩ := createBooking_ok create
      obtain ⟨held, selected⟩ := selectOffer_holds listed rfl
      exact .of_offers selectOffer_attempts (fun o' x found status => (held o' x found status).1) selected
  | submitOffer =>
      have run := toOption_some.mp h
      simp only [submitOffer, orThrow_bind_ok, check_bind_ok, pure_ok] at run
      obtain ⟨request, -, -, -, -, -, -, -, rfl⟩ := run
      refine .of_offers rfl (fun o' x found held => ?_) fun o' x found selected => ⟨x, ?_, selected⟩
      · rw [List.getElem?_append] at found
        split at found
        · exact found
        · obtain rfl := List.mem_singleton.mp (List.mem_of_getElem? found)
          cases held
      · exact (List.getElem?_append_left (List.getElem?_eq_some_iff.mp found).1).trans found
  | rejectOffer o userId =>
      have run := toOption_some.mp h
      simp only [rejectOffer, orThrow_bind_ok, check_bind_ok, rejectIf_ok, pure_ok, not_or, not_not] at run
      obtain ⟨offer, listed, request, -, -, ⟨pending, -⟩, rfl⟩ := run
      generalize ending : (if offer.providerId = userId then OfferStatus.withdrawn else .rejected) = status
      have unselected : status.selected = false := by
        rw [← ending]
        split <;> rfl
      have ended : m.HoldQuiet (m.updateOffer o ({ · with status })) := by
        refine .of_offers rfl (fun o' x found held => ?_) fun o' x found selected => ?_
        · rw [Market.updateOffer, List.getElem?_modify, Option.map_eq_map, Option.map_eq_some_iff] at found
          obtain ⟨x, before, rfl⟩ := found
          split at held
          · have same : status = .pendingPayment := held
            rw [same] at unselected
            cases unselected
          · rename_i other
            rw [if_neg other]
            exact before
        · refine ⟨x, ?_, selected⟩
          rw [Market.updateOffer, List.getElem?_modify, found]
          have other : o ≠ o' := by
            rintro rfl
            obtain rfl := Option.some.inj (listed.symm.trans found)
            rw [pending] at selected
            cases selected
          simp [other]
      split
      · exact ⟨⟨ended.step.paying, ended.step.held⟩, ended.kept⟩
      · exact ended
  | cancelRequest =>
      have run := toOption_some.mp h
      simp only [cancelRequest, orThrow_bind_ok, check_bind_ok, pure_ok] at run
      obtain ⟨request, -, -, rfl⟩ := run
      obtain ⟨held, selected⟩ := rejectPendingOffers_holds (m := m) _ rfl
      exact .of_offers rfl held selected
  | publicContentAction =>
      have run := toOption_some.mp h
      simp only [applyPublicContentAction, orThrow_bind_ok, check_bind_ok, ite_ok, pure_ok] at run
      obtain ⟨request, -, -, -, ⟨-, -, rfl⟩ | ⟨-, -, rfl⟩⟩ := run
      · exact .of_same rfl rfl
      · obtain ⟨held, selected⟩ := rejectPendingOffers_holds (m := m) _ rfl
        exact .of_offers rfl held selected
  | updateRequest =>
      have run := toOption_some.mp h
      simp only [updateServiceRequest, orThrow_bind_ok, check_bind_ok, pure_ok] at run
      obtain ⟨request, -, -, -, -, -, -, rfl⟩ := run
      exact .of_same rfl rfl
  | updateService =>
      simp only [Market.act] at h
      split at h
      · obtain rfl := Option.some.inj h
        exact .of_same rfl rfl
      · cases h
  | createRequest | updateUser | wait =>
      obtain rfl := Option.some.inj h
      exact .of_same rfl rfl

end Steps

end ServiceHub
