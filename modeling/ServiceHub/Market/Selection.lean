import ServiceHub.Booking.RequestStatus
import ServiceHub.Market.Settlement

/-! # The offer that a request is given to

A request is free, held by the one offer whose payment is pending, or matched with the one accepted offer and its
one booking. Requests, offers and bookings say this redundantly, in the statuses of three tables that a dozen
services write; every one of their transactions moves the request along the transitions of this state or leaves it.
-/

namespace ServiceHub

open Guard

inductive Selection where
  | free
  | held (o : OfferId)
  | matched (o : OfferId) (b : BookingId)
  deriving Repr, DecidableEq

namespace Selection

/-- A hold is released or booked, a free request is held or booked for cash, and a match is for good. -/
inductive Step : Selection → Selection → Prop where
  | hold {o} : Step free (held o)
  | release {o} : Step (held o) free
  | accept {o b} : Step free (matched o b)
  | capture {o b} : Step (held o) (matched o b)

abbrev Steps : Selection → Selection → Prop :=
  Relation.ReflTransGen Step

theorem Steps.of_matched {o : OfferId} {b : BookingId} {sel : Selection} (h : Steps (matched o b) sel) :
    sel = matched o b := by
  induction h with
  | refl => rfl
  | tail _ step ih =>
      subst ih
      cases step

end Selection

/-- The status of an offer of the request. -/
def Market.offered (m : Market) (r : RequestId) (o : OfferId) : Option OfferStatus :=
  ((m.offers[o]?).filter (·.requestId == r)).map (·.status)

/-- The offers that the bookings come from, with the status of the booking. -/
def Market.jobs (m : Market) : List (Option OfferId × BookingStatus) :=
  m.bookings.map fun x => (x.file.booking.offerId, x.file.booking.status)

/-- The offer was accepted for the booking, which waits for no answer and was not declined or removed. -/
def BookingStatus.agreed (status : BookingStatus) : Bool :=
  status != .pendingApproval && status != .declined && status != .removed

/-- The rows of the three tables that encode the selection of a request. -/
inductive Market.Selected (m : Market) (r : RequestId) (request : ServiceRequest) : Selection → Prop where
  | free (status : request.status ≠ .paymentPending ∧ request.status ≠ .inProgress)
      (unselected : ∀ o status, m.offered r o = some status → status.selected = false)
      (removed : request.adminRemoved = true → request.status = .canceled) : Selected m r request .free
  | held {o} (status : request.status = .paymentPending) (pending : m.offered r o = some .pendingPayment)
      (only : ∀ o' status, m.offered r o' = some status → status.selected = true → o' = o)
      (unremoved : request.adminRemoved = false) : Selected m r request (.held o)
  | matched {o b status} (accepted : m.offered r o = some .accepted)
      (only : ∀ o' status, m.offered r o' = some status → status.selected = true → o' = o)
      (decided : ∀ o', m.offered r o' ≠ some .pending)
      (booked : m.jobs[b]? = some (some o, status)) (agreed : status.agreed = true)
      (follows : request.status = status.requestStatus)
      (unremoved : request.adminRemoved = false) : Selected m r request (.matched o b)

/-- Every request has a selection, and a booking that comes from an offer is the one booking of an accepted offer. -/
structure Market.Coherent (m : Market) : Prop where
  selected : ∀ (r : Nat) request, m.requests[r]? = some request → ∃ sel, m.Selected r request sel
  requested : ∀ (o : Nat) (offer : Offer), m.offers[o]? = some offer → offer.requestId < m.requests.length
  accepted : ∀ (b : Nat) o status, m.jobs[b]? = some (some o, status) → ∃ r, m.offered r o = some .accepted
  once : ∀ (b b' : Nat) o status status', m.jobs[b]? = some (some o, status) →
    m.jobs[b']? = some (some o, status') → b = b'

/-- The tables stay coherent, and every request moves along the transitions of its selection. -/
structure Market.Selects (m t : Market) : Prop where
  coherent : t.Coherent
  steps : ∀ (r : Nat) request sel, m.requests[r]? = some request → m.Selected r request sel →
    ∃ request' sel', t.requests[r]? = some request' ∧ t.Selected r request' sel' ∧ Selection.Steps sel sel'

section Selected

variable {m t u : Market} {r r' : RequestId} {request : ServiceRequest} {o o' : OfferId} {offer : Offer}
  {status : OfferStatus} {sel sel' : Selection}

theorem Market.offered_eq_some : m.offered r o = some status ↔
    ∃ offer, m.offers[o]? = some offer ∧ offer.requestId = r ∧ offer.status = status := by
  simp [Market.offered, Option.filter_eq_some_iff, and_assoc]

theorem Market.offered_of (found : m.offers[o]? = some offer) :
    m.offered offer.requestId o = some offer.status :=
  Market.offered_eq_some.mpr ⟨offer, found, rfl, rfl⟩

/-- An offer belongs to one request. -/
theorem Market.offered_inj {status' : OfferStatus} (h : m.offered r o = some status)
    (h' : m.offered r' o = some status') : r = r' ∧ status = status' := by
  obtain ⟨offer, found, rfl, rfl⟩ := Market.offered_eq_some.mp h
  obtain ⟨offer', found', rfl, rfl⟩ := Market.offered_eq_some.mp h'
  obtain rfl := Option.some.inj (found.symm.trans found')
  exact ⟨rfl, rfl⟩

theorem BookingStatus.requestStatus_ne_paymentPending (status : BookingStatus) :
    status.requestStatus ≠ .paymentPending := by
  cases status <;> simp [BookingStatus.requestStatus]

/-- The rows determine the selection. -/
theorem Market.Coherent.unique (h : m.Coherent) (first : m.Selected r request sel)
    (second : m.Selected r request sel') : sel = sel' := by
  cases first with
  | free _ unselected =>
      cases second with
      | free => rfl
      | held _ pending => cases unselected _ _ pending
      | matched accepted => cases unselected _ _ accepted
  | @held o status pending only =>
      cases second with
      | free _ unselected => cases unselected _ _ pending
      | held _ pending' => rw [only _ _ pending' rfl]
      | @matched _ _ job _ _ _ _ _ follows => exact absurd (follows.symm.trans status) job.requestStatus_ne_paymentPending
  | @matched o b job accepted only _ booked _ follows =>
      cases second with
      | free _ unselected => cases unselected _ _ accepted
      | held status => exact absurd (follows.symm.trans status) job.requestStatus_ne_paymentPending
      | matched accepted' _ _ booked' =>
          obtain rfl := only _ _ accepted' rfl
          rw [h.once _ _ _ _ _ booked booked']

/-- A request whose rows and bookings are the same has the same selection. -/
theorem Market.Selected.congr (h : m.Selected r request sel) (offered : t.offered r = m.offered r)
    (jobs : ∀ (b : Nat) o status, m.offered r o = some .accepted → m.jobs[b]? = some (some o, status) →
      t.jobs[b]? = some (some o, status)) : t.Selected r request sel := by
  cases h with
  | free status unselected removed => exact .free status (offered ▸ unselected) removed
  | held status pending only unremoved => exact .held status (offered ▸ pending) (offered ▸ only) unremoved
  | matched accepted only decided booked agreed follows unremoved =>
      exact .matched (offered ▸ accepted) (offered ▸ only) (offered ▸ decided) (jobs _ _ _ accepted booked) agreed
        follows unremoved

theorem Market.Selects.refl (h : m.Coherent) : m.Selects m :=
  ⟨h, fun _ request sel found selected => ⟨request, sel, found, selected, .refl⟩⟩

theorem Market.Selects.trans (h : m.Selects t) (h' : t.Selects u) : m.Selects u := by
  refine ⟨h'.coherent, fun r request sel found selected => ?_⟩
  obtain ⟨request', sel', found', selected', steps⟩ := h.steps r request sel found selected
  obtain ⟨request'', sel'', found'', selected'', steps'⟩ := h'.steps r request' sel' found' selected'
  exact ⟨request'', sel'', found'', selected'', steps.trans steps'⟩

/-- A write that leaves requests and offers alone, and the bookings that come from offers. -/
theorem Market.Coherent.kept (h : m.Coherent) (requests : t.requests = m.requests) (offers : t.offers = m.offers)
    (jobs : ∀ (b : Nat) o status, t.jobs[b]? = some (some o, status) ↔ m.jobs[b]? = some (some o, status)) :
    m.Selects t := by
  have offered : t.offered = m.offered := by
    funext r o
    rw [Market.offered, offers, Market.offered]
  have same : ∀ r request sel, m.Selected r request sel → t.Selected r request sel := fun r request sel selected =>
    selected.congr (congrFun offered r) fun b o status _ => (jobs b o status).mpr
  refine ⟨⟨?_, ?_, ?_, ?_⟩, fun r request sel found selected => ?_⟩
  · intro r request found
    obtain ⟨sel, selected⟩ := h.selected r request (requests ▸ found)
    exact ⟨sel, same r request sel selected⟩
  · intro o offer found
    rw [requests]
    exact h.requested o offer (offers ▸ found)
  · intro b o status booked
    rw [offered]
    exact h.accepted b o status ((jobs b o status).mp booked)
  · intro b b' o status status' booked booked'
    exact h.once b b' o status status' ((jobs _ _ _).mp booked) ((jobs _ _ _).mp booked')
  · exact ⟨request, sel, requests ▸ found, same r request sel selected, .refl⟩

/-- A write to one request and its offers, which moves along the selection of this request. -/
structure Market.Moves (m t : Market) (r : RequestId) : Prop where
  requests : ∀ r' : Nat, r' ≠ r → t.requests[r']? = m.requests[r']?
  offers : ∀ r', r' ≠ r → t.offered r' = m.offered r'
  moved : ∃ request request' sel sel', m.requests[r]? = some request ∧ m.Selected r request sel
    ∧ t.requests[r]? = some request' ∧ t.Selected r request' sel' ∧ Selection.Steps sel sel'
  /-- The bookings of the offers of other requests. -/
  jobs : ∀ (b : Nat) o status, (∀ status', m.offered r o ≠ some status') →
    (t.jobs[b]? = some (some o, status) ↔ m.jobs[b]? = some (some o, status))

theorem Market.Moves.selects (h : m.Moves t r) (coherent : m.Coherent)
    (requested : ∀ (o : Nat) (offer : Offer), t.offers[o]? = some offer → offer.requestId < m.requests.length)
    (accepted : ∀ (b : Nat) o status, t.jobs[b]? = some (some o, status) → ∃ r, t.offered r o = some .accepted)
    (once : ∀ (b b' : Nat) o status status', t.jobs[b]? = some (some o, status) →
      t.jobs[b']? = some (some o, status') → b = b') : m.Selects t := by
  obtain ⟨request, request', sel, sel', found, selected, found', selected', steps⟩ := h.moved
  have elsewhere : ∀ r', r' ≠ r → ∀ x sel, m.Selected r' x sel → t.Selected r' x sel := by
    intro r' other x sel selected
    refine selected.congr (h.offers r' other) fun b o status accepted booked => ?_
    refine (h.jobs b o status fun status' here => other ?_).mpr booked
    exact (Market.offered_inj accepted here).1
  have length : t.requests.length = m.requests.length := by
    have same : ∀ r' : Nat, t.requests[r']? = none ↔ m.requests[r']? = none := by
      intro r'
      by_cases here : r' = r
      · simp [here, found, found']
      · rw [h.requests r' here]
    simp only [List.getElem?_eq_none_iff] at same
    exact Nat.le_antisymm ((same _).mpr (Nat.le_refl _)) ((same _).mp (Nat.le_refl _))
  refine ⟨⟨?_, ?_, accepted, once⟩, ?_⟩
  · intro r' x listed
    by_cases here : r' = r
    · subst here
      obtain rfl := Option.some.inj (listed.symm.trans found')
      exact ⟨sel', selected'⟩
    · obtain ⟨sel, selected⟩ := coherent.selected r' x (h.requests r' here ▸ listed)
      exact ⟨sel, elsewhere r' here x sel selected⟩
  · intro o offer listed
    rw [length]
    exact requested o offer listed
  · intro r' x before listed was
    by_cases here : r' = r
    · subst here
      obtain rfl := Option.some.inj (listed.symm.trans found)
      rw [coherent.unique was selected]
      exact ⟨request', sel', found', selected', steps⟩
    · exact ⟨x, before, (h.requests r' here).trans listed, elsewhere r' here x before was, .refl⟩

end Selected

section Writes

variable {m t : Market} {r : RequestId} {request request' : ServiceRequest} {o : OfferId} {offer : Offer}
  {sel : Selection} {bookings : List BookingSystem}

theorem updateRequest_other {g : ServiceRequest → ServiceRequest} {r' : Nat} (other : r' ≠ r) :
    (m.updateRequest r g).requests[r']? = m.requests[r']? := by
  simp [Market.updateRequest, Ne.symm other]

theorem updateRequest_self {g : ServiceRequest → ServiceRequest} (found : m.requests[r]? = some request) :
    (m.updateRequest r g).requests[r]? = some (g request) := by
  simp [Market.updateRequest, found]

/-- The offers after a rewriting that leaves them with their requests. -/
structure OffersRewritten (g : OfferId → Offer → Offer) (m t : Market) : Prop where
  rows : ∀ o : Nat, t.offers[o]? = (m.offers[o]?).map (g o)
  requestId : ∀ o offer, (g o offer).requestId = offer.requestId

namespace OffersRewritten

variable {g : OfferId → Offer → Offer}

theorem requested (h : OffersRewritten g m t) (known : ∀ (o : Nat) (offer : Offer), m.offers[o]? = some offer →
    offer.requestId < m.requests.length) (o : Nat) (offer : Offer) (found : t.offers[o]? = some offer) :
    offer.requestId < m.requests.length := by
  rw [h.rows, Option.map_eq_some_iff] at found
  obtain ⟨before, found, rfl⟩ := found
  rw [h.requestId]
  exact known o before found

theorem offered (h : OffersRewritten g m t) (r : RequestId) (o : OfferId) : t.offered r o =
    ((m.offers[o]?).filter (·.requestId == r)).map fun offer => (g o offer).status := by
  rw [Market.offered, h.rows]
  cases m.offers[o]? with
  | none => rfl
  | some offer =>
      by_cases own : offer.requestId = r <;> simp [Option.filter, h.requestId, own]

/-- Offers of other requests are not rewritten. -/
theorem elsewhere (h : OffersRewritten g m t)
    (fixed : ∀ (o : Nat) offer, m.offers[o]? = some offer → offer.requestId ≠ r → g o offer = offer)
    {r' : RequestId} (other : r' ≠ r) : t.offered r' = m.offered r' := by
  funext o
  rw [h.offered, Market.offered]
  cases listed : m.offers[o]? with
  | none => rfl
  | some offer =>
      by_cases own : offer.requestId = r'
      · have same := fixed o offer listed (own ▸ other)
        simp [Option.filter, own, same]
      · simp [Option.filter, own]

theorem offered_eq_some (h : OffersRewritten g m t) {status : OfferStatus} (found : t.offered r o = some status) :
    ∃ offer, m.offers[o]? = some offer ∧ offer.requestId = r ∧ (g o offer).status = status := by
  rw [h.offered] at found
  simpa [Option.filter_eq_some_iff, and_assoc] using found

end OffersRewritten

theorem updateOffer_rewritten {g : Offer → Offer} (own : ∀ offer, (g offer).requestId = offer.requestId) :
    OffersRewritten (fun o' offer => if o = o' then g offer else offer) m (m.updateOffer o g) := by
  refine ⟨fun o' => ?_, fun o' offer => ?_⟩
  · rw [Market.updateOffer, List.getElem?_modify]
    split <;> cases m.offers[o']? <;> simp_all
  · split <;> simp [own]

theorem rejectPendingOffers_rewritten :
    OffersRewritten (fun _ x => if x.requestId == r && x.status == .pending then { x with status := .rejected } else x)
      m (rejectPendingOffers r m) := by
  refine ⟨fun o' => ?_, fun o' offer => ?_⟩
  · simp [rejectPendingOffers, Rows.updateWhere]
  · split <;> rfl

/-- A write to the row of a request and to its offers, which may book one of them. -/
structure SelectionWrite (r : RequestId) (gr : ServiceRequest → ServiceRequest) (g : OfferId → Offer → Offer)
    (new : Option OfferId) (m t : Market) : Prop where
  requests : t.requests = (m.updateRequest r gr).requests
  offers : OffersRewritten g m t
  fixed : ∀ (o : Nat) offer, m.offers[o]? = some offer → offer.requestId ≠ r → g o offer = offer
  jobs : t.jobs = m.jobs ++ new.toList.map fun o => (some o, .accepted)
  accepted : ∀ o, m.offered r o = some .accepted → t.offered r o = some .accepted
  /-- The offer that is booked was not accepted before. -/
  won : ∀ o, new = some o → t.offered r o = some .accepted
    ∧ ∃ status, m.offered r o = some status ∧ status ≠ .accepted

namespace SelectionWrite

variable {gr : ServiceRequest → ServiceRequest} {g : OfferId → Offer → Offer} {new : Option OfferId} {sel' : Selection}

theorem job (h : SelectionWrite r gr g new m t) {b : Nat} {status : BookingStatus} :
    t.jobs[b]? = some (some o, status) ↔ m.jobs[b]? = some (some o, status)
      ∨ (b = m.jobs.length ∧ new = some o ∧ status = .accepted) := by
  rw [h.jobs]
  obtain earlier | rfl | later := Nat.lt_trichotomy b m.jobs.length
  · rw [List.getElem?_append_left earlier]
    simp [Nat.ne_of_lt earlier]
  · cases new <;> simp [eq_comm]
  · have beyond : m.jobs[b]? = none := List.getElem?_eq_none (Nat.le_of_lt later)
    have past : (m.jobs ++ new.toList.map fun o => (some o, BookingStatus.accepted))[b]? = none := by
      refine List.getElem?_eq_none ?_
      rw [List.length_append, List.length_map]
      cases new <;> simp <;> omega
    simp [beyond, past, Nat.ne_of_gt later]

theorem selects (h : SelectionWrite r gr g new m t) (coherent : m.Coherent) (found : m.requests[r]? = some request)
    (was : m.Selected r request sel) (now : t.Selected r (gr request) sel') (steps : Selection.Steps sel sel') :
    m.Selects t := by
  have unbooked : ∀ o, new = some o → ∀ (b : Nat) status, m.jobs[b]? ≠ some (some o, status) := by
    intro o booked b status listed
    obtain ⟨r', accepted⟩ := coherent.accepted b o status listed
    obtain ⟨-, status', offered, other⟩ := h.won o booked
    exact other (Market.offered_inj offered accepted).2
  have moves : m.Moves t r := by
    refine ⟨fun r' other => ?_, fun r' other => h.offers.elsewhere h.fixed other, ?_, fun b o status foreign => ?_⟩
    · rw [h.requests, updateRequest_other other]
    · exact ⟨request, gr request, sel, sel', found, was, by rw [h.requests, updateRequest_self found], now, steps⟩
    · rw [h.job]
      constructor
      · rintro (old | ⟨-, booked, -⟩)
        · exact old
        · obtain ⟨-, status', offered, -⟩ := h.won o booked
          exact absurd offered (foreign status')
      · exact .inl
  refine moves.selects coherent (h.offers.requested coherent.requested) (fun b o status booked => ?_) ?_
  · obtain old | ⟨-, booked, -⟩ := h.job.mp booked
    · obtain ⟨r', accepted⟩ := coherent.accepted b o status old
      refine ⟨r', ?_⟩
      by_cases here : r' = r
      · subst here
        exact h.accepted o accepted
      · rw [h.offers.elsewhere h.fixed here]
        exact accepted
    · exact ⟨r, (h.won o booked).1⟩
  · intro b b' o status status' booked booked'
    rcases h.job.mp booked with old | ⟨rfl, first, -⟩
    · rcases h.job.mp booked' with old' | ⟨-, second, -⟩
      · exact coherent.once b b' o status status' old old'
      · exact absurd old (unbooked o second b status)
    · rcases h.job.mp booked' with old' | ⟨rfl, -, -⟩
      · exact absurd old' (unbooked o first b' status')
      · rfl

/-- A free request stays free while its owner or an administrator edits it. -/
theorem revises (h : SelectionWrite r gr g none m t) (coherent : m.Coherent) (found : m.requests[r]? = some request)
    (was : m.Selected r request .free)
    (unselected : ∀ o offer, offer.status.selected = false → (g o offer).status.selected = false)
    (status : (gr request).status ≠ .paymentPending ∧ (gr request).status ≠ .inProgress)
    (removed : (gr request).adminRemoved = true → (gr request).status = .canceled) : m.Selects t := by
  refine h.selects coherent found was (.free status (fun o status found => ?_) removed) .refl
  obtain ⟨offer, listed, rfl, rfl⟩ := h.offers.offered_eq_some found
  cases was with
  | free _ before => exact unselected o offer (before o _ (Market.offered_of listed))

end SelectionWrite

theorem Market.Coherent.free_of_open (h : m.Coherent) (found : m.requests[r]? = some request)
    (opened : request.status = .open) : m.Selected r request .free := by
  obtain ⟨sel, selected⟩ := h.selected r request found
  cases selected with
  | free status unselected removed => exact .free status unselected removed
  | held status => simp [opened] at status
  | @matched _ _ status _ _ _ _ _ follows => cases status <;> simp [opened, BookingStatus.requestStatus] at follows

/-- A closed request is free unless its booking is completed. -/
theorem Market.Coherent.free_of_unmatched (h : m.Coherent) (found : m.requests[r]? = some request)
    (closed : request.status = .closed) (unmatched : m.matched r = false) : m.Selected r request .free := by
  obtain ⟨sel, selected⟩ := h.selected r request found
  cases selected with
  | free status unselected removed => exact .free status unselected removed
  | held status => simp [closed] at status
  | @matched o b status accepted _ _ booked _ follows =>
      have completed : status = .completed := by
        cases status <;> simp_all [BookingStatus.requestStatus]
      obtain ⟨offer, listed, own, -⟩ := Market.offered_eq_some.mp accepted
      rw [Market.jobs, List.getElem?_map, Option.map_eq_some_iff] at booked
      obtain ⟨x, row, columns⟩ := booked
      obtain ⟨offered, status_⟩ := Prod.mk.inj columns
      simp only [Market.matched, List.any_eq_false] at unmatched
      exact absurd (unmatched x (List.mem_of_getElem? row)) (by simp [offered, status_, completed, listed, own])

/-- A request that an administrator removed is free. -/
theorem Market.Coherent.free_of_removed (h : m.Coherent) (found : m.requests[r]? = some request)
    (removed : request.adminRemoved = true) : m.Selected r request .free := by
  obtain ⟨sel, selected⟩ := h.selected r request found
  cases selected with
  | free status unselected removed => exact .free status unselected removed
  | held _ _ _ unremoved | matched _ _ _ _ _ _ unremoved => simp [removed] at unremoved

/-- The selection of a request with a pending payment or an accepted offer. -/
theorem Market.Coherent.held_of_pendingPayment (h : m.Coherent) (pending : m.offered r o = some .pendingPayment) :
    ∃ request, m.requests[r]? = some request ∧ m.Selected r request (.held o) := by
  obtain ⟨offer, listed, rfl, status⟩ := Market.offered_eq_some.mp pending
  obtain ⟨request, found⟩ : ∃ request, m.requests[offer.requestId]? = some request :=
    ⟨_, List.getElem?_eq_getElem (h.requested o offer listed)⟩
  refine ⟨request, found, ?_⟩
  obtain ⟨sel, selected⟩ := h.selected _ request found
  cases selected with
  | free _ unselected => cases unselected _ _ pending
  | held status pending' only unremoved =>
      obtain rfl := only o _ pending rfl
      exact .held status pending' only unremoved
  | matched accepted only =>
      obtain rfl := only o _ pending rfl
      cases pending.symm.trans accepted

theorem Market.Coherent.matched_of_accepted (h : m.Coherent) (accepted : m.offered r o = some .accepted) :
    ∃ request b, m.requests[r]? = some request ∧ m.Selected r request (.matched o b) := by
  obtain ⟨offer, listed, rfl, status⟩ := Market.offered_eq_some.mp accepted
  obtain ⟨request, found⟩ : ∃ request, m.requests[offer.requestId]? = some request :=
    ⟨_, List.getElem?_eq_getElem (h.requested o offer listed)⟩
  obtain ⟨sel, selected⟩ := h.selected _ request found
  cases selected with
  | free _ unselected => cases unselected _ _ accepted
  | held _ pending only =>
      obtain rfl := only o _ accepted rfl
      cases pending.symm.trans accepted
  | matched accepted' only decided booked agreed follows unremoved =>
      obtain rfl := only o _ accepted rfl
      exact ⟨request, _, found, .matched accepted' only decided booked agreed follows unremoved⟩

end Writes

section Transactions

variable {m t : Market} {r : RequestId} {request : ServiceRequest} {o : OfferId} {offer : Offer}

theorem offered_updateOffer {g : Offer → Offer} (own : ∀ offer, (g offer).requestId = offer.requestId)
    (listed : m.offers[o]? = some offer) (r : RequestId) (o' : OfferId) :
    (m.updateOffer o g).offered r o' =
      if o = o' then if offer.requestId = r then some (g offer).status else none else m.offered r o' := by
  rw [(updateOffer_rewritten own).offered]
  by_cases here : o = o'
  · subst here
    by_cases mine : offer.requestId = r <;> simp [listed, Option.filter, mine]
  · simp [here, Market.offered]

/-- One offer of a request and its row are written. -/
theorem offerWrite {g : Offer → Offer} {gr : ServiceRequest → ServiceRequest} (listed : m.offers[o]? = some offer)
    (own : ∀ offer, (g offer).requestId = offer.requestId) (open_ : offer.status ≠ .accepted) :
    SelectionWrite offer.requestId gr (fun o' x => if o = o' then g x else x) none m
      ((m.updateOffer o g).updateRequest offer.requestId gr) := by
  have rewritten := updateOffer_rewritten (m := m) (o := o) own
  have rows : OffersRewritten (fun o' x => if o = o' then g x else x) m
      ((m.updateOffer o g).updateRequest offer.requestId gr) := ⟨rewritten.rows, rewritten.requestId⟩
  refine ⟨rfl, rows, fun o' x found foreign => ?_, (List.append_nil _).symm, fun o' accepted => ?_, by simp⟩
  · have other : o ≠ o' := by
      rintro rfl
      exact foreign (congrArg Offer.requestId (Option.some.inj (found.symm.trans listed)))
    simp [other]
  · have other : o ≠ o' := by
      rintro rfl
      exact open_ (Market.offered_inj (Market.offered_of listed) accepted).2
    have unwritten := offered_updateOffer own listed offer.requestId o'
    rw [if_neg other] at unwritten
    exact unwritten.trans accepted

/-- The payment of an offer gives up, and releases its hold. -/
theorem releaseOfferHold_selects (h : m.Coherent) (offerId : Option OfferId) :
    m.Selects (releaseOfferHold offerId m) := by
  cases offerId with
  | none => exact .refl h
  | some o =>
      simp only [releaseOfferHold]
      split
      · exact .refl h
      rename_i offer listed
      split
      · exact .refl h
      rename_i pending
      simp only [ne_eq, not_not] at pending
      obtain ⟨request, found, selected⟩ := h.held_of_pendingPayment
        (r := offer.requestId) (o := o) (by rw [Market.offered_of listed, pending])
      have offered := offered_updateOffer (g := ({ · with status := .pending, paymentHoldExpiresAt := none }))
        (fun _ => rfl) listed offer.requestId
      refine (offerWrite (g := ({ · with status := .pending, paymentHoldExpiresAt := none })) listed (fun _ => rfl)
        (by simp [pending])).selects h found selected ?_ (.single .release)
      cases selected with
      | held status _ only unremoved =>
          rw [if_pos status]
          refine .free ⟨by simp, by simp⟩ (fun o' status' found' => ?_) (by simp [unremoved])
          replace found' := (offered o').symm.trans found'
          split at found'
          · obtain rfl := Option.some.inj ((if_pos rfl).symm.trans found')
            rfl
          · rename_i other
            by_contra selected
            exact other (only o' status' found' (by simpa using selected)).symm

/-- A free request is held for the payment of one of its offers. -/
theorem holdOffer_selects {expiresAt : Millis} (h : m.Coherent) (listed : m.offers[o]? = some offer)
    (found : m.requests[offer.requestId]? = some request) (pending : offer.status = .pending)
    (opened : request.status = .open) (run : holdOffer o expiresAt m = .ok t) : m.Selects t := by
  obtain ⟨x, listed', -, rfl⟩ := holdOffer_ok run
  obtain rfl := Option.some.inj (listed.symm.trans listed')
  have was := h.free_of_open found opened
  have offered := offered_updateOffer (g := ({ · with status := .pendingPayment, paymentHoldExpiresAt := some expiresAt }))
    (fun _ => rfl) listed offer.requestId
  refine (offerWrite (g := ({ · with status := .pendingPayment, paymentHoldExpiresAt := some expiresAt })) listed
    (fun _ => rfl) (by simp [pending])).selects h found was (.held (o := o) rfl ?_ (fun o' status' found' selected => ?_) ?_)
    (.single .hold)
  · exact (offered o).trans (by simp)
  · replace found' := (offered o').symm.trans found'
    split at found'
    · rename_i same
      exact same.symm
    · cases was with
      | free _ unselected => cases selected.symm.trans (unselected o' status' found')
  · cases was with
    | free _ _ removed =>
        cases unremoved : request.adminRemoved with
        | false => rfl
        | true => cases opened.symm.trans (removed unremoved)

/-- What a selection writes to the offers. -/
def Offer.afterSelection (o : OfferId) (r : RequestId) (o' : OfferId) (x : Offer) : Offer :=
  if o = o' then { x with status := .accepted, paymentHoldExpiresAt := none }
  else if x.requestId = r ∧ x.status = .pending then { x with status := .rejected, paymentHoldExpiresAt := none }
  else x

theorem selectOffer_rewritten (listed : m.offers[o]? = some offer) (offers : t.offers = (selectOffer o m).offers) :
    OffersRewritten (Offer.afterSelection o offer.requestId) m t := by
  refine ⟨fun o' => ?_, fun o' x => ?_⟩
  · simp only [offers, selectOffer, listed, Market.updateRequest_offers, rejectSiblingOffers, Market.updateOffer,
      List.getElem?_mapIdx, List.getElem?_modify]
    cases m.offers[o']? with
    | none => rfl
    | some x =>
        by_cases same : o = o'
        · subst same
          simp [Offer.afterSelection]
        · simp [Offer.afterSelection, same, Ne.symm same]
  · simp only [Offer.afterSelection]
    split
    · rfl
    · split <;> rfl

theorem offered_afterSelection (h : OffersRewritten (Offer.afterSelection o offer.requestId) m t)
    {o' : OfferId} {status : OfferStatus}
    (found : t.offered offer.requestId o' = some status) :
    o' = o ∧ status = .accepted ∨ status ≠ .pending
      ∧ ∃ before, m.offered offer.requestId o' = some before ∧ (status = before ∨ status = .rejected) := by
  obtain ⟨x, before, own, rfl⟩ := h.offered_eq_some found
  by_cases same : o = o'
  · exact .inl ⟨same.symm, by simp [Offer.afterSelection, same]⟩
  · refine .inr ⟨?_, x.status, Market.offered_eq_some.mpr ⟨x, before, own, rfl⟩, ?_⟩
    all_goals
      by_cases pending : x.status = .pending <;> simp [Offer.afterSelection, same, own, pending]

/-- An offer wins: it is accepted with its booking, and its pending siblings are rejected. -/
theorem selectOffer_write (listed : m.offers[o]? = some offer) (open_ : offer.status ≠ .accepted)
    (requests : t.requests = (selectOffer o m).requests) (offers : t.offers = (selectOffer o m).offers)
    (jobs : t.jobs = m.jobs ++ [(some o, .accepted)]) :
    SelectionWrite offer.requestId ({ · with status := .inProgress }) (Offer.afterSelection o offer.requestId)
      (some o) m t := by
  have rows := selectOffer_rewritten listed offers
  have won : t.offered offer.requestId o = some .accepted := by
    rw [rows.offered]
    simp [listed, Option.filter, Offer.afterSelection]
  refine ⟨?_, rows, fun o' x found foreign => ?_, jobs, fun o' accepted => ?_, ?_⟩
  · simp [requests, selectOffer, listed, rejectSiblingOffers, Market.updateRequest]
  · have other : o ≠ o' := by
      rintro rfl
      exact foreign (congrArg Offer.requestId (Option.some.inj (found.symm.trans listed)))
    simp [Offer.afterSelection, other, foreign]
  · by_cases same : o = o'
    · exact same ▸ won
    · obtain ⟨x, found, own, status⟩ := Market.offered_eq_some.mp accepted
      rw [rows.offered]
      simp [found, Option.filter, own, Offer.afterSelection, same, status]
  · intro o' same
    obtain rfl := Option.some.inj same
    exact ⟨won, offer.status, Market.offered_of listed, open_⟩

theorem selectOffer_selects (h : m.Coherent) (listed : m.offers[o]? = some offer)
    (found : m.requests[offer.requestId]? = some request)
    (selectable : offer.status = .pending ∧ request.status = .open
      ∨ offer.status = .pendingPayment ∧ request.status = .paymentPending)
    (requests : t.requests = (selectOffer o m).requests) (offers : t.offers = (selectOffer o m).offers)
    (jobs : t.jobs = m.jobs ++ [(some o, .accepted)]) : m.Selects t := by
  have open_ : offer.status ≠ .accepted := by
    rcases selectable with ⟨status, -⟩ | ⟨status, -⟩ <;> simp [status]
  have write := selectOffer_write listed open_ requests offers jobs
  obtain ⟨sel, was, only, unremoved, steps⟩ : ∃ sel, m.Selected offer.requestId request sel
      ∧ (∀ o' status, m.offered offer.requestId o' = some status → status.selected = true → o' = o)
      ∧ request.adminRemoved = false ∧ Selection.Steps sel (.matched o m.jobs.length) := by
    rcases selectable with ⟨-, opened⟩ | ⟨pending, -⟩
    · have was := h.free_of_open found opened
      refine ⟨_, was, ?_, ?_, .single .accept⟩
      all_goals cases was with | free _ unselected removed => ?_
      · intro o' status found' selected
        cases selected.symm.trans (unselected o' status found')
      · cases unremoved : request.adminRemoved with
        | false => rfl
        | true => cases opened.symm.trans (removed unremoved)
    · obtain ⟨request', found', was⟩ := h.held_of_pendingPayment (pending ▸ Market.offered_of listed)
      obtain rfl := Option.some.inj (found.symm.trans found')
      refine ⟨_, was, ?_, ?_, .single .capture⟩
      all_goals cases was with | held _ _ only unremoved => ?_
      · exact only
      · exact unremoved
  have booked : t.jobs[m.jobs.length]? = some (some o, .accepted) := by simp [jobs]
  refine write.selects h found was (.matched (write.won o rfl).1 (fun o' status found' selected => ?_)
    (fun o' pending => ?_) booked rfl rfl unremoved) steps
  · rcases offered_afterSelection write.offers found' with ⟨same, -⟩ | ⟨-, before, offered, same | rejected⟩
    · exact same
    · exact only o' before offered (same ▸ selected)
    · simp [rejected, OfferStatus.selected] at selected
  · rcases offered_afterSelection write.offers pending with ⟨-, accepted⟩ | ⟨decided, -⟩
    · cases accepted
    · exact decided rfl

theorem BookingStepped.reachable {b : BookingId} {x x' : BookingSystem} (step : BookingStepped m b x x' t)
    (reached : bookingMachine.Reachable x) : bookingMachine.Reachable x' := by
  obtain ⟨ctx, st, own, next⟩ := step.next
  have moved : bookingMachine.next x (.step ctx st) = some x' := by
    cases st with
    | refund => cases own
    | _ => exact next
  exact reached.next trivial moved

theorem Encodes.agreed {f : BookingFile} {l : Lifecycle} (e : Encodes f l) (agreed : l.Agreed) :
    f.booking.status.agreed = true := by
  obtain ⟨unrequested, undeclined⟩ := agreed
  rw [e.status]
  cases l with
  | active w => cases w <;> simp_all [Lifecycle.work, Lifecycle.status, Work.status, BookingStatus.agreed]
  | _ => simp_all [Lifecycle.status, BookingStatus.agreed]

/-- The tables after a step of a booking: its column of the jobs, and its request. -/
structure JobStepped (m t : Market) (b : BookingId) (x x' : BookingSystem) : Prop where
  offers : t.offers = m.offers
  jobs : t.jobs = m.jobs.set b (x.file.booking.offerId, x'.file.booking.status)
  unlinked : x.file.booking.offerId = none → t.requests = m.requests
  other : ∀ offer, x.file.booking.offerId.bind (m.offers[·]?) = some offer → ∀ r : Nat, r ≠ offer.requestId →
    t.requests[r]? = m.requests[r]?
  follows : ∀ offer request, x.file.booking.offerId.bind (m.offers[·]?) = some offer →
    m.requests[offer.requestId]? = some request → request.status = x.file.booking.status.requestStatus →
    t.requests[offer.requestId]? = some { request with status := x'.file.booking.status.requestStatus }

theorem writeEffects_requests (booking : Booking) (effects : Effects) (m : Market) :
    (m.writeEffects booking effects).requests =
      match effects.requestStatus, booking.offerId.bind (m.offers[·]?) with
      | some status, some offer => (m.updateRequest offer.requestId ({ · with status })).requests
      | _, _ => m.requests := by
  unfold Market.writeEffects
  cases effects.requestStatus <;> cases booking.offerId.bind (m.offers[·]?) <;> cases effects.moderation <;> rfl

theorem BookingStepped.job {b : BookingId} {x x' : BookingSystem} (step : BookingStepped m b x x' t)
    (reached : bookingMachine.Reachable x) : JobStepped m t b x x' := by
  have same : x'.file.booking.offerId = x.file.booking.offerId := step.sameTerms.column Booking.offerId fun _ => rfl
  obtain ⟨updatedAt, st, effects, own, run, applied⟩ := step.run
  have follows := BookingSystem.step_requestStatus reached run
  have renumbered := applyEffects_renumbered applied
  obtain ⟨_, _, frame⟩ := writeEffects_frame x.file.booking effects { m with bookings := m.bookings.set b x' }
  have written := writeEffects_requests x.file.booking effects { m with bookings := m.bookings.set b x' }
  have requests : t.requests = (({ m with bookings := m.bookings.set b x' } : Market).writeEffects x.file.booking
      effects).requests := by rw [renumbered.tables]
  rw [← requests] at written
  refine ⟨?_, ?_, fun unlinked => ?_, fun offer listed r other => ?_, fun offer request listed found was => ?_⟩
  · rw [renumbered.tables, frame]
  · rw [Market.jobs, renumbered.map (fun y => (y.file.booking.offerId, y.file.booking.status)) fun _ _ _ _ => rfl,
      frame, List.map_set, same]
    rfl
  · rw [written, unlinked]
    cases effects.requestStatus <;> rfl
  · rw [written, listed]
    cases effects.requestStatus with
    | none => rfl
    | some status => exact updateRequest_other other
  · rw [written, listed]
    cases effect : effects.requestStatus with
    | none =>
        rw [effect, Option.getD_none] at follows
        rw [← follows, ← was]
        exact found
    | some status =>
        rw [effect, Option.getD_some] at follows
        rw [← follows]
        exact updateRequest_self found

/-- A booking of an offer goes on: its request follows it. -/
theorem BookingStepped.selects {b : BookingId} {x x' : BookingSystem} (h : m.Coherent)
    (step : BookingStepped m b x x' t) (reached : bookingMachine.Reachable x) : m.Selects t := by
  have job := step.job reached
  have row : m.jobs[b]? = some (x.file.booking.offerId, x.file.booking.status) := by
    rw [Market.jobs, List.getElem?_map, step.found]
    rfl
  have bound := (List.getElem?_eq_some_iff.mp row).1
  have others : ∀ b' : Nat, b' ≠ b → t.jobs[b']? = m.jobs[b']? := fun b' other => by
    rw [job.jobs, List.getElem?_set_ne (Ne.symm other)]
  have self : t.jobs[b]? = some (x.file.booking.offerId, x'.file.booking.status) := by
    rw [job.jobs, List.getElem?_set_self bound]
  cases linked : x.file.booking.offerId with
  | none =>
      refine h.kept (job.unlinked linked) job.offers fun b' o status => ?_
      by_cases here : b' = b
      · subst here
        simp [self, row, linked]
      · rw [others b' here]
  | some o =>
      rw [linked] at row self
      obtain ⟨r, accepted⟩ := h.accepted b o _ row
      obtain ⟨request, b', found, was⟩ := h.matched_of_accepted accepted
      obtain ⟨offer, listed, rfl, -⟩ := Market.offered_eq_some.mp accepted
      have target : x.file.booking.offerId.bind (m.offers[·]?) = some offer := by simp [linked, listed]
      have offered : t.offered = m.offered := by
        funext r o
        rw [Market.offered, job.offers, Market.offered]
      obtain ⟨l, e, agreed⟩ := offered_agreed (bookingMachine_reachableUnder (step.reachable reached))
        (by rw [step.sameTerms.column Booking.offerId fun _ => rfl, linked]; rfl)
      have now : t.Selected offer.requestId { request with status := x'.file.booking.status.requestStatus }
          (.matched o b) := by
        cases was with
        | matched _ only decided _ _ _ unremoved =>
            exact .matched (offered ▸ accepted) (offered ▸ only) (offered ▸ decided) self (e.agreed agreed) rfl unremoved
      have here : b' = b := by
        cases was with
        | matched _ _ _ booked => exact h.once _ _ _ _ _ booked row
      have follows : request.status = x.file.booking.status.requestStatus := by
        cases was with
        | matched _ _ _ booked _ follows =>
            rw [here, row] at booked
            exact (Prod.mk.inj (Option.some.inj booked)).2 ▸ follows
      have moves : m.Moves t offer.requestId := by
        refine ⟨job.other offer target, fun r' _ => by rw [offered], ?_, fun b'' o' status foreign => ?_⟩
        · exact ⟨request, _, _, _, found, here ▸ was, job.follows offer request target found follows, now, .refl⟩
        · by_cases at_ : b'' = b
          · subst at_
            rw [self, row]
            constructor <;> intro same
            all_goals
              obtain ⟨same, -⟩ := Prod.mk.inj (Option.some.inj same)
              obtain rfl := Option.some.inj same
              exact absurd accepted (foreign _)
          · rw [others b'' at_]
      have jobs : ∀ (b'' : Nat) o' status, t.jobs[b'']? = some (some o', status) →
          ∃ status', m.jobs[b'']? = some (some o', status') := by
        intro b'' o' status booked
        by_cases at_ : b'' = b
        · subst at_
          obtain ⟨same, -⟩ := Prod.mk.inj (Option.some.inj (self.symm.trans booked))
          exact ⟨_, same ▸ row⟩
        · exact ⟨status, others b'' at_ ▸ booked⟩
      refine moves.selects h (job.offers ▸ h.requested) (fun b'' o' status booked => ?_)
        fun b₁ b₂ o' status status' booked booked' => ?_
      · obtain ⟨status', before⟩ := jobs b'' o' status booked
        rw [offered]
        exact h.accepted b'' o' status' before
      · obtain ⟨_, before⟩ := jobs b₁ o' status booked
        obtain ⟨_, before'⟩ := jobs b₂ o' status' booked'
        exact h.once b₁ b₂ o' _ _ before before'

end Transactions

end ServiceHub
