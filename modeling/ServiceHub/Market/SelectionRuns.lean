import ServiceHub.Market.Selection

/-! # The selection of a request over a run

Every service that writes requests and offers moves the selections along, and so does every statement of the
payment calls in any order.
-/

namespace ServiceHub

open Guard

variable {m t : Market} {r : RequestId} {request : ServiceRequest} {o : OfferId} {offer : Offer}

section Edits

variable {gr : ServiceRequest → ServiceRequest}

theorem requestWrite : SelectionWrite r gr (fun _ x => x) none m (m.updateRequest r gr) := by
  refine ⟨rfl, ⟨fun o => ?_, fun _ _ => rfl⟩, fun _ _ _ _ => rfl, (List.append_nil _).symm, fun _ accepted => accepted,
    by simp⟩
  simp

theorem closingWrite : SelectionWrite r gr
    (fun _ x => if x.requestId == r && x.status == .pending then { x with status := .rejected } else x) none m
    (rejectPendingOffers r (m.updateRequest r gr)) := by
  have rows := rejectPendingOffers_rewritten (m := m.updateRequest r gr) (r := r)
  refine ⟨rfl, ⟨rows.rows, rows.requestId⟩, fun o x _ foreign => ?_, (List.append_nil _).symm, fun o accepted => ?_,
    by simp⟩
  · simp [foreign]
  · obtain ⟨x, listed, own, status⟩ := Market.offered_eq_some.mp accepted
    have unwritten : (m.updateRequest r gr).offers[o]? = some x := listed
    rw [rows.offered, unwritten]
    simp [Option.filter, own, status]

theorem updateServiceRequest_selects (h : m.Coherent) {status : Option RequestStatus}
    {paymentMethods : Option PaymentMethods} (run : updateServiceRequest r status paymentMethods m = .ok t) :
    m.Selects t := by
  simp only [updateServiceRequest, orThrow_bind_ok, check_bind_ok, rejectIf_ok, pure_ok] at run
  obtain ⟨request, found, -, editable, -, unfulfilled, valid, rfl⟩ := run
  have was : m.Selected r request .free := by
    by_cases opened : request.status = .open
    · exact h.free_of_open found opened
    · have closed : request.status = .closed := by tauto
      exact h.free_of_unmatched found closed (by simp_all)
  have unremoved : request.adminRemoved = false := by
    cases was with
    | free _ _ removed => cases removed_ : request.adminRemoved <;> simp_all
  refine requestWrite.revises h found was (fun _ _ kept => kept) ?_ (by simp [unremoved])
  cases status with
  | none => constructor <;> intro same <;> simp_all
  | some status => constructor <;> rintro rfl <;> simp_all

theorem cancelRequest_selects (h : m.Coherent) (run : cancelRequest r m = .ok t) : m.Selects t := by
  simp only [cancelRequest, orThrow_bind_ok, check_bind_ok, rejectIf_ok, pure_ok, not_or, not_not] at run
  obtain ⟨request, found, ⟨-, -, -, opened⟩, rfl⟩ := run
  refine closingWrite.revises h found (h.free_of_open found opened) (fun _ x kept => ?_) (by simp) (by simp)
  split
  · rfl
  · exact kept

theorem applyPublicContentAction_selects (h : m.Coherent) {restore : Bool}
    (run : applyPublicContentAction r restore m = .ok t) : m.Selects t := by
  simp only [applyPublicContentAction, orThrow_bind_ok, check_bind_ok, rejectIf_ok, ite_ok, pure_ok, not_or,
    Bool.not_eq_true] at run
  obtain ⟨request, found, -, ⟨unmatched, -⟩, ⟨-, ⟨canceled, removed⟩, rfl⟩ | ⟨-, editable, rfl⟩⟩ := run
  · refine requestWrite.revises h found (h.free_of_removed found (by simpa using removed)) (fun _ _ kept => kept) ?_ ?_
    · simp
    · simp
  · have was : m.Selected r request .free := by
      by_cases opened : request.status = .open
      · exact h.free_of_open found opened
      · exact h.free_of_unmatched found (by tauto) unmatched
    refine closingWrite.revises h found was (fun _ x kept => ?_) (by simp) (by simp)
    split
    · rfl
    · exact kept

theorem rejectOffer_selects (h : m.Coherent) {userId : UserId} (run : rejectOffer o userId m = .ok t) :
    m.Selects t := by
  simp only [rejectOffer, orThrow_bind_ok, check_bind_ok, rejectIf_ok, pure_ok, not_or, not_not] at run
  obtain ⟨offer, listed, request, found, -, ⟨pending, opened⟩, rfl⟩ := run
  have was := h.free_of_open found opened
  generalize ending : (if offer.providerId = userId then OfferStatus.withdrawn else .rejected) = status
  have unselected : status.selected = false := by
    rw [← ending]
    split <;> rfl
  have unremoved : request.adminRemoved = false := by
    cases was with
    | free _ _ removed => cases removed_ : request.adminRemoved <;> simp_all
  split
  · refine (offerWrite (g := ({ · with status })) listed (fun _ => rfl) (by simp [pending])).revises h found was
      (fun o' x kept => ?_) ?_ ?_
    · split
      · exact unselected
      · exact kept
    · simp
    · simp
  · have unwritten : ∀ n : Market, n.updateRequest offer.requestId id = n := fun n => by simp [Market.updateRequest]
    rw [← unwritten (m.updateOffer o _)]
    refine (offerWrite (g := ({ · with status })) listed (fun _ => rfl) (by simp [pending])).revises h found was
      (fun o' x kept => ?_) ?_ ?_
    · split
      · exact unselected
      · exact kept
    · simp [opened]
    · simp [unremoved]

end Edits

section Posts

/-- A request is posted without offers. -/
theorem createRequest_selects (h : m.Coherent) {seekerId : UserId} {targetServiceId : Option ServiceId}
    {paymentMethods : Option PaymentMethods} : m.Selects (createRequest seekerId targetServiceId paymentMethods m) := by
  generalize posted : createRequest seekerId targetServiceId paymentMethods m = t
  have offered : t.offered = m.offered := by rw [← posted]; rfl
  have jobs : t.jobs = m.jobs := by rw [← posted]; rfl
  have kept : ∀ r request sel, m.Selected r request sel → t.Selected r request sel := by
    intro r request sel selected
    exact selected.congr (congrFun offered r) fun b o status _ booked => by rw [jobs]; exact booked
  have length : t.requests.length = m.requests.length + 1 := by simp [← posted, createRequest]
  have old : ∀ (r : Nat) request, m.requests[r]? = some request → t.requests[r]? = some request := by
    intro r request found
    have bound := (List.getElem?_eq_some_iff.mp found).1
    rw [← posted, createRequest, List.getElem?_append_left bound]
    exact found
  refine ⟨⟨fun r request found => ?_, fun o offer listed => ?_, ?_, ?_⟩, fun r request sel found selected =>
    ⟨request, sel, old r request found, kept r request sel selected, .refl⟩⟩
  · obtain ⟨bound, -⟩ := List.getElem?_eq_some_iff.mp found
    by_cases before : r < m.requests.length
    · have same := old r _ (List.getElem?_eq_getElem before)
      obtain rfl := Option.some.inj (found.symm.trans same)
      obtain ⟨sel, selected⟩ := h.selected r _ (List.getElem?_eq_getElem before)
      exact ⟨sel, kept r _ sel selected⟩
    · obtain rfl : r = m.requests.length := by omega
      have new : request.status = .open ∧ request.adminRemoved = false := by
        rw [← posted, createRequest, List.getElem?_append_right (Nat.le_refl _)] at found
        obtain rfl : _ = request := by simpa using found
        exact ⟨rfl, rfl⟩
      refine ⟨.free, .free (by simp [new.1]) (fun o status listed => ?_) (by simp [new.2])⟩
      rw [offered] at listed
      obtain ⟨offer, row, own, -⟩ := Market.offered_eq_some.mp listed
      exact absurd (own ▸ h.requested o offer row) (Nat.lt_irrefl _)
  · have requested := h.requested o offer (by rw [← posted] at listed; exact listed)
    rw [length]
    exact Nat.lt_succ_of_lt requested
  · rw [jobs, offered]
    exact h.accepted
  · rw [jobs]
    exact h.once

/-- An offer joins an open request, which stays free. -/
theorem submitOffer_selects (h : m.Coherent) {providerId : UserId} {serviceId : Option ServiceId}
    {offeredPrice : Centavos} {estimatedDuration : Nat}
    (run : submitOffer providerId r serviceId offeredPrice estimatedDuration m = .ok t) : m.Selects t := by
  simp only [submitOffer, orThrow_bind_ok, check_bind_ok, rejectIf_ok, pure_ok, not_not] at run
  obtain ⟨request, found, -, -, -, opened, -, -, created⟩ := run
  have was := h.free_of_open found opened
  have jobs : t.jobs = m.jobs := by rw [← created]; rfl
  have requests : t.requests = m.requests := by rw [← created]
  have offered : ∀ r' o status, t.offered r' o = some status → m.offered r' o = some status
      ∨ (r' = r ∧ status = .pending) := by
    intro r' o status offered
    obtain ⟨x, listed, own, rfl⟩ := Market.offered_eq_some.mp offered
    rw [← created, List.getElem?_append] at listed
    split at listed
    · exact .inl (Market.offered_eq_some.mpr ⟨x, listed, own, rfl⟩)
    · obtain ⟨rfl⟩ := List.mem_singleton.mp (List.mem_of_getElem? listed)
      exact .inr ⟨own.symm, rfl⟩
  have kept : ∀ r' o status, m.offered r' o = some status → t.offered r' o = some status := by
    intro r' o status offered
    obtain ⟨x, listed, own, rfl⟩ := Market.offered_eq_some.mp offered
    refine Market.offered_eq_some.mpr ⟨x, ?_, own, rfl⟩
    rw [← created, List.getElem?_append_left (List.getElem?_eq_some_iff.mp listed).1]
    exact listed
  have elsewhere : ∀ r', r' ≠ r → t.offered r' = m.offered r' := by
    intro r' other
    funext o
    refine Option.ext fun status => ⟨fun offered' => ?_, kept r' o status⟩
    exact (offered r' o status offered').resolve_right fun own => other own.1
  have now : t.Selected r request .free := by
    cases was with
    | free status unselected removed =>
        refine .free status (fun o status offered' => ?_) removed
        rcases offered r o status offered' with old | ⟨-, rfl⟩
        · exact unselected o status old
        · rfl
  have moves : m.Moves t r := by
    refine ⟨fun r' _ => by rw [requests], elsewhere, ?_, fun _ _ _ _ => by rw [jobs]⟩
    exact ⟨request, request, .free, .free, found, was, by rw [requests]; exact found, now, .refl⟩
  refine moves.selects h (fun o x listed => ?_) (fun b o status booked => ?_) (by rw [jobs]; exact h.once)
  · rw [← created, List.getElem?_append] at listed
    split at listed
    · exact h.requested o x listed
    · obtain ⟨rfl⟩ := List.mem_singleton.mp (List.mem_of_getElem? listed)
      exact (List.getElem?_eq_some_iff.mp found).1
  · rw [jobs] at booked
    obtain ⟨r', accepted⟩ := h.accepted b o status booked
    exact ⟨r', kept r' o _ accepted⟩

end Posts

section Steps

variable {s s' : MarketSystem} {act : MarketAction} {next : Option PaymentCall} {a : AttemptId}
  {payment : CapturedPayment} {fresh : PaymentAttempt} {booked numbered : Market}

theorem Market.Coherent.same (h : m.Coherent) (requests : t.requests = m.requests) (offers : t.offers = m.offers)
    (bookings : t.bookings = m.bookings) : m.Selects t :=
  h.kept requests offers fun _ _ _ => by rw [Market.jobs, bookings, Market.jobs]

/-- A booking that comes from no offer joins the others. -/
theorem Market.Coherent.joined (h : m.Coherent) {status : BookingStatus} (requests : t.requests = m.requests)
    (offers : t.offers = m.offers) (jobs : t.jobs = m.jobs ++ [(none, status)]) : m.Selects t := by
  refine h.kept requests offers fun b o status' => ?_
  rw [jobs]
  obtain earlier | rfl | later := Nat.lt_trichotomy b m.jobs.length
  · rw [List.getElem?_append_left earlier]
  · simp
  · have beyond : m.jobs[b]? = none := List.getElem?_eq_none (Nat.le_of_lt later)
    have past : (m.jobs ++ [(none, status)])[b]? = none := List.getElem?_eq_none (by simp; omega)
    rw [beyond, past]

theorem createBooking_jobs {f : BookingFile} (run : m.createBooking f = .ok t) : t.requests = m.requests
    ∧ t.offers = m.offers ∧ t.jobs = m.jobs ++ [(f.booking.offerId, f.booking.status)] := by
  obtain ⟨-, -, -, rfl⟩ := createBooking_ok run
  exact ⟨rfl, rfl, by simp [Market.jobs]⟩

theorem act_selects (h : m.Coherent)
    (reached : ∀ (b : Nat) (x : BookingSystem), m.bookings[b]? = some x → bookingMachine.Reachable x)
    (run : m.act act = some t) : m.Selects t := by
  cases act with
  | pay | resume | crash => simp [Market.act] at run
  | booking b st updatedAt =>
      obtain ⟨x, x', step⟩ := stepBooking_ok run
      exact step.selects h (reached b x step.found)
  | setCapacity p limit =>
      have run := toOption_some.mp run
      simp only [Market.setProviderWorkloadCapacity, check_bind_ok, orThrow_bind_ok] at run
      obtain ⟨-, user, -, renumber⟩ := run
      have renumbered := recalculateQueue_renumbered renumber
      refine h.kept (by rw [renumbered.tables]) (by rw [renumbered.tables]) fun b o status => ?_
      have jobs := renumbered.map (fun y => (y.file.booking.offerId, y.file.booking.status)) fun _ _ _ _ => rfl
      rw [Market.jobs, jobs, Market.jobs]
  | createDirectRequest seekerId providerId serviceId quantity =>
      obtain ⟨terms, unlinked, create⟩ := createDirectRequest_ok (toOption_some.mp run)
      obtain ⟨requests, offers, jobs⟩ := createBooking_jobs create
      exact h.joined requests offers jobs
  | createDirectFromOffer o seekerId =>
      obtain ⟨offer, request, terms, listed, found, pending, opened, -, linked, create⟩ :=
        createDirectFromOfferService_ok (toOption_some.mp run)
      obtain ⟨requests, offers, jobs⟩ := createBooking_jobs create
      refine selectOffer_selects h listed found (.inl ⟨pending, opened⟩) requests offers ?_
      rw [jobs, Market.jobs, selectOffer_bookings, Market.jobs]
      simp [Terms.cashOffer, linked]
  | createRequest =>
      obtain rfl := Option.some.inj run
      exact createRequest_selects h
  | submitOffer => exact submitOffer_selects h (toOption_some.mp run)
  | rejectOffer => exact rejectOffer_selects h (toOption_some.mp run)
  | updateRequest => exact updateServiceRequest_selects h (toOption_some.mp run)
  | cancelRequest => exact cancelRequest_selects h (toOption_some.mp run)
  | publicContentAction => exact applyPublicContentAction_selects h (toOption_some.mp run)
  | updateService =>
      simp only [Market.act] at run
      split at run
      · obtain rfl := Option.some.inj run
        exact h.same rfl rfl rfl
      · cases run
  | intent | updateUser | wait =>
      obtain rfl := Option.some.inj run
      exact h.same rfl rfl rfl

theorem Market.Selects.released (h : m.Selects t) (offerId : Option OfferId) :
    m.Selects (releaseOfferHold offerId t) :=
  h.trans (releaseOfferHold_selects h.coherent offerId)

theorem updateAttempt_selects (h : m.Coherent) (a : AttemptId) (g : PaymentAttempt → PaymentAttempt) :
    m.Selects (m.updateAttempt a g) :=
  h.same rfl rfl rfl

theorem markAttemptFailed_selects (h : m.Coherent) (reason : String) : m.Selects (markAttemptFailed a reason m) := by
  simp only [markAttemptFailed]
  split
  · exact .refl h
  · split
    · exact .refl h
    · exact (updateAttempt_selects h a _).released _

theorem expireCandidate_selects (h : m.Coherent) : m.Selects (expireCandidate a m) := by
  simp only [expireCandidate, expireAttempt]
  split
  · exact .refl h
  · split
    · exact .refl h
    · exact (updateAttempt_selects h a _).released _

theorem expireStale_selects (h : m.Coherent) (params : PaymentParams) (target : PaymentTarget) :
    m.Selects (expireStale params target m) := by
  obtain ⟨attempts, swept⟩ := expireStale_eq params target m
  rw [swept]
  split
  · exact h.same rfl rfl rfl
  · have released := releaseOfferHold_selects h params.offerId
    exact released.trans (released.coherent.same rfl rfl rfl)

theorem PreparedOn.selects {params : PaymentParams} {target : PaymentTarget} (h : m.Coherent)
    (run : PreparedOn params target m t a) : m.Selects t := by
  cases run with
  | reused => exact .refl h
  | created _ _ _ _ _ _ _ on =>
      cases on with
      | listing => exact h.same rfl rfl rfl
      | offer _ listed found pending opened _ _ _ held =>
          have holds := holdOffer_selects h listed found pending opened held
          exact holds.trans (holds.coherent.same rfl rfl rfl)

/-- A held offer has no selected sibling. -/
theorem Market.Coherent.unselectedElsewhere (h : m.Coherent) (listed : m.offers[o]? = some offer)
    (held : offer.status = .pendingPayment) : m.selectedElsewhere offer.requestId o = false := by
  obtain ⟨request, -, selected⟩ := h.held_of_pendingPayment (held ▸ Market.offered_of listed)
  cases selected with
  | held _ _ only =>
      by_contra elsewhere
      simp only [Bool.not_eq_false, Market.selectedElsewhere, List.any_eq_true, Bool.and_eq_true, bne_iff_ne,
        Option.any_eq_true, beq_iff_eq] at elsewhere
      obtain ⟨o', -, other, x, found, own, status⟩ := elsewhere
      exact other (only o' x.status (Market.offered_eq_some.mpr ⟨x, found, own, rfl⟩) status)

theorem selectOffer_congr (requests : t.requests = m.requests) (offers : t.offers = m.offers) :
    (selectOffer o t).requests = (selectOffer o m).requests ∧ (selectOffer o t).offers = (selectOffer o m).offers := by
  simp only [selectOffer, offers]
  cases m.offers[o]? with
  | none => exact ⟨requests, offers⟩
  | some offer =>
      simp [Market.updateRequest, rejectSiblingOffers, Market.updateOffer, requests, offers]

theorem PaidBooking.selects (h : m.Coherent) (bookable : Bookable fresh m)
    (paid : PaidBooking a payment fresh m t booked numbered) : m.Selects t := by
  obtain ⟨requests, offers, jobs⟩ := createBooking_jobs paid.create
  have renumbered := recalculateQueue_renumbered paid.renumber
  have same := renumbered.map (fun y => (y.file.booking.offerId, y.file.booking.status)) fun _ _ _ _ => rfl
  have after : t.jobs = m.jobs ++ [(fresh.offerId, .accepted)] := by
    rw [Market.jobs, paid.bookings, same]
    exact jobs
  have settled := paid.settled
  cases offered : fresh.offerId with
  | none =>
      rw [offered] at after settled
      refine h.joined ?_ ?_ after
      · rw [settled, renumbered.tables]
        exact requests
      · rw [settled, renumbered.tables]
        exact offers
  | some o =>
      rw [offered] at after settled
      obtain ⟨valid, -⟩ := bookable.held o offered
      simp only [Market.holdValid, Option.any_eq_true, Bool.and_eq_true, beq_iff_eq] at valid
      obtain ⟨offer, listed, request, found, ⟨⟨_, pending⟩, held⟩, -⟩ := valid
      obtain ⟨rows, columns⟩ := selectOffer_congr (o := o) (m := m) (t := numbered.updateAttempt a ({ · with
        status := .succeeded, providerPaymentId := payment.paymentId })) (by rw [renumbered.tables]; exact requests)
        (by rw [renumbered.tables]; exact offers)
      exact selectOffer_selects h listed found (.inr ⟨pending, held⟩) (settled ▸ rows) (settled ▸ columns) after

theorem FinalizedOn.selects {result : Finalized} (h : m.Coherent) (run : FinalizedOn a payment m t result) :
    m.Selects t := by
  have marked := updateAttempt_selects h a fun attempt => { attempt with paidAt := attempt.paidAt.or (some m.now) }
  cases run with
  | settled => exact .refl h
  | @refunded fresh reason after open_ branch =>
      have required : m.Selects (requireRefund a payment reason (markPaid a m)) :=
        marked.trans (updateAttempt_selects marked.coherent a _)
      cases branch with
      | released => exact required.released _
      | invalid => exact required
      | @sibling o offer offered listed selected held =>
          simp only [Market.holdValid, Option.any_eq_true, Bool.and_eq_true, beq_iff_eq] at held
          obtain ⟨x, listed', request, -, ⟨⟨_, pending⟩, -⟩, -⟩ := held
          obtain rfl := Option.some.inj (listed.symm.trans listed')
          have alone := marked.coherent.unselectedElsewhere (o := o) listed pending
          exact absurd (alone.symm.trans selected) Bool.false_ne_true
  | created _ bookable paid => exact marked.trans (paid.selects marked.coherent bookable)

/-- A statement of a payment call or a service moves the selections along. -/
theorem MarketEvent.selects (h : s.market.Coherent)
    (reached : ∀ (b : Nat) (x : BookingSystem), s.market.bookings[b]? = some x → bookingMachine.Reachable x)
    (event : MarketEvent s act t next) : s.market.Selects t := by
  cases event with
  | called | stopped | passed => exact .refl h
  | @prepared _ _ params target _ _ _ run =>
      have swept := expireStale_selects h params target
      exact swept.trans (run.selects swept.coherent)
  | intentStored | intentSaved | refunded => exact h.same rfl rfl rfl
  | initiationFailed => exact (updateAttempt_selects h _ _).released _
  | finalized _ _ run => exact run.selects h
  | markedFailed => exact markAttemptFailed_selects h _
  | expired => exact expireCandidate_selects h
  | acted run => exact act_selects h reached run

end Steps

section Runs

variable {s s' : MarketSystem} {C : MarketSystem → MarketAction → Prop}

theorem market_selects (h : marketMachine.ReachableUnder C s) {act : MarketAction}
    (coherent : s.market.Coherent) (stepped : s.step act = some s') : s.market.Selects s'.market := by
  obtain ⟨next, event, -⟩ := MarketSystem.step_event stepped
  exact event.selects coherent fun _ _ found => booking_reachable h found

theorem market_coherent (h : marketMachine.ReachableUnder C s) : s.market.Coherent := by
  refine h.invariant_with (J := marketMachine.ReachableUnder C) (I := fun s => s.market.Coherent) (fun _ h => h) ?_ ?_
  · rintro s ⟨requests, offers, -, bookings, -⟩
    constructor <;> simp [requests, offers, Market.jobs, bookings]
  · intro s act s' reached coherent _ stepped
    exact (market_selects reached coherent stepped).coherent

theorem market_run_selects (h : marketMachine.ReachableUnder C s) (run : marketMachine.RunUnder C s s') :
    s.market.Selects s'.market :=
  h.related (R := fun s t => s.market.Selects t.market) (fun _ reached => .refl (market_coherent reached))
    (fun _ _ _ first second => first.trans second)
    (fun _ _ _ reached _ stepped => market_selects reached (market_coherent reached) stepped) run

/-- The marketplace refines the selection of each of its requests: in every state the rows of a request are those of
    its selection, and a run moves it along the transitions. -/
theorem request_selection (h : marketMachine.ReachableUnder C s) {r : Nat} {request : ServiceRequest}
    (found : s.market.requests[r]? = some request) :
    ∃ sel, s.market.Selected r request sel
      ∧ ∀ s', marketMachine.RunUnder C s s' → ∃ request' sel', s'.market.requests[r]? = some request'
        ∧ s'.market.Selected r request' sel' ∧ Selection.Steps sel sel' := by
  obtain ⟨sel, selected⟩ := (market_coherent h).selected r request found
  exact ⟨sel, selected, fun s' run => (market_run_selects h run).steps r request sel found selected⟩

/-- The seeker posts a request, provider 2 offers, and the seeker starts to pay for the offer. -/
def sampleHeldOffer : List MarketAction :=
  [.createRequest 1 none none, .submitOffer 2 0 (some 1) 50000 60]
    ++ sampleCall 0 (.initiateOnlinePayment { seekerId := 1, offerId := some 0 })
      [.none, .none, .ok, .ok, .redirect none, .none]

/-- The payment is captured and the webhook books the offer. -/
def sampleCapturedOffer : List MarketAction :=
  .intent 0 .succeeded :: sampleCall 0 (.paidWebhook 0) [.ok, .none]

theorem request_selection_purchase : ∃ s t request sel request' sel',
    marketMachine.exec sampleMarket sampleHeldOffer = some s ∧ marketMachine.exec s sampleCapturedOffer = some t
    ∧ s.market.requests[0]? = some request ∧ s.market.Selected 0 request sel
    ∧ t.market.requests[0]? = some request' ∧ t.market.Selected 0 request' sel' ∧ Selection.Steps sel sel' := by
  obtain ⟨s, run, listed, capture⟩ := sample_any (o := marketMachine.exec sampleMarket sampleHeldOffer)
    (p := fun s => s.market.requests[0]?.isSome = true
      ∧ (marketMachine.exec s sampleCapturedOffer).isSome = true) (by decide)
  obtain ⟨request, found⟩ := Option.isSome_iff_exists.mp listed
  obtain ⟨t, captured⟩ := Option.isSome_iff_exists.mp capture
  obtain ⟨sel, selected, later⟩ := request_selection (Machine.Reachable.of_exec sampleMarket_initial run) found
  obtain ⟨request', sel', found', selected', steps⟩ := later t (.of_exec captured)
  exact ⟨s, t, request, sel, request', sel', run, captured, found, selected, found', selected', steps⟩

/-- What the rows say of a request and its offers. -/
structure Market.RequestCoherent (m : Market) (r : RequestId) (request : ServiceRequest) : Prop where
  one : ∀ o o' status status', m.offered r o = some status → m.offered r o' = some status' →
    status.selected = true → status'.selected = true → o = o'
  held : request.status = .paymentPending ↔ ∃ o, m.offered r o = some .pendingPayment
  working : request.status = .inProgress ↔ ∃ (o b : Nat) (status : BookingStatus), m.offered r o = some .accepted
    ∧ m.jobs[b]? = some (some o, status) ∧ status ≠ .completed ∧ status ≠ .declined ∧ status ≠ .canceled
  booked : ∀ o, m.offered r o = some .accepted → ∃! b : Nat, ∃ status, m.jobs[b]? = some (some o, status)
  /-- Its seeker can neither edit, reopen nor cancel it while an offer is selected. -/
  fixed : ∀ o status, m.offered r o = some status → status.selected = true →
    (∀ edit paymentMethods t, updateServiceRequest r edit paymentMethods m ≠ .ok t) ∧ ∀ t, cancelRequest r m ≠ .ok t

theorem Market.matched_of_offered {m : Market} {r : RequestId} {o : OfferId} {b : BookingId} {status : BookingStatus}
    {offer : OfferStatus} (offered : m.offered r o = some offer) (booked : m.jobs[b]? = some (some o, status))
    (live : status ≠ .declined ∧ status ≠ .canceled ∧ status ≠ .removed) : m.matched r = true := by
  obtain ⟨x, listed, own, -⟩ := Market.offered_eq_some.mp offered
  simp only [Market.jobs, List.getElem?_map, Option.map_eq_some_iff] at booked
  obtain ⟨y, row, same⟩ := booked
  obtain ⟨named, current⟩ := Prod.mk.inj same
  refine List.any_eq_true.mpr ⟨y, List.mem_of_getElem? row, ?_⟩
  simp [named, current, listed, own, live]

theorem updateServiceRequest_editable {m t : Market} {r : Nat} {request : ServiceRequest} {edit : Option RequestStatus}
    {paymentMethods : Option PaymentMethods} (found : m.requests[r]? = some request)
    (run : updateServiceRequest r edit paymentMethods m = .ok t) :
    request.status = .open ∨ (request.status = .closed ∧ m.matched r = false) := by
  simp only [updateServiceRequest, orThrow_bind_ok, check_bind_ok, rejectIf_ok, pure_ok] at run
  obtain ⟨_, found', -, editable, -, unfulfilled, -⟩ := run
  obtain rfl := Option.some.inj (found.symm.trans found')
  by_cases opened : request.status = .open
  · exact .inl opened
  · have closed : request.status = .closed := by tauto
    exact .inr ⟨closed, by simp_all⟩

theorem cancelRequest_unselected {m t : Market} {r : RequestId} (run : cancelRequest r m = .ok t) {o : OfferId}
    {status : OfferStatus} (offered : m.offered r o = some status) : status.selected = false := by
  simp only [cancelRequest, orThrow_bind_ok, check_bind_ok, rejectIf_ok, not_or] at run
  obtain ⟨-, -, ⟨-, -, unselected, -⟩, -⟩ := run
  obtain ⟨x, listed, own, rfl⟩ := Market.offered_eq_some.mp offered
  by_contra selected
  refine unselected (List.any_eq_true.mpr ⟨x, List.mem_of_getElem? listed, ?_⟩)
  simp [own, Bool.not_eq_false _ ▸ selected]

theorem Market.Selected.requestCoherent {m : Market} {r : Nat} {request : ServiceRequest} {sel : Selection}
    (coherent : m.Coherent) (found : m.requests[r]? = some request) (selected : m.Selected r request sel) :
    m.RequestCoherent r request := by
  have unedited : ∀ edit paymentMethods t, request.status ≠ .open →
      (request.status = .closed → m.matched r = true) → updateServiceRequest r edit paymentMethods m ≠ .ok t := by
    intro edit paymentMethods t unopened matched run
    rcases updateServiceRequest_editable found run with opened | ⟨closed, unmatched⟩
    · exact unopened opened
    · exact absurd (matched closed) (by simp [unmatched])
  have uncanceled : ∀ o status, m.offered r o = some status → status.selected = true →
      ∀ t, cancelRequest r m ≠ .ok t := by
    intro o status offered selected t run
    exact absurd (cancelRequest_unselected run offered) (by simp [selected])
  cases selected with
  | free status unselected =>
      refine ⟨fun o o' x x' offered _ sel _ => ?_, ⟨fun pending => absurd pending status.1, ?_⟩,
        ⟨fun working => absurd working status.2, ?_⟩, fun o accepted => ?_, fun o x offered sel => ?_⟩
      · exact absurd (unselected o x offered) (by simp [sel])
      · rintro ⟨o, offered⟩
        cases unselected o _ offered
      · rintro ⟨o, b, job, accepted, -⟩
        cases unselected o _ accepted
      · cases unselected o _ accepted
      · exact absurd (unselected o x offered) (by simp [sel])
  | @held o status pending only =>
      have unaccepted : ∀ o', m.offered r o' ≠ some .accepted := by
        intro o' accepted
        obtain rfl := only o' _ accepted rfl
        cases pending.symm.trans accepted
      refine ⟨fun a b x y first second selA selB => ?_, ⟨fun _ => ⟨o, pending⟩, fun _ => status⟩,
        ⟨fun working => ?_, ?_⟩, fun o' accepted => absurd accepted (unaccepted o'),
        fun o' x offered sel => ⟨fun edit paymentMethods t => ?_, uncanceled o' x offered sel⟩⟩
      · rw [only a x first selA, only b y second selB]
      · rw [status] at working
        cases working
      · rintro ⟨o', b, job, accepted, -⟩
        exact absurd accepted (unaccepted o')
      · exact unedited edit paymentMethods t (by simp [status]) (by simp [status])
  | @matched o b job accepted only decided booked agreed follows =>
      have unopened : request.status ≠ .open ∧ request.status ≠ .paymentPending := by
        rw [follows]
        cases job <;> simp [BookingStatus.requestStatus]
      refine ⟨fun a b x y first second selA selB => ?_, ⟨fun pending => absurd pending unopened.2, ?_⟩,
        ⟨fun working => ⟨o, b, job, accepted, booked, ?_⟩, ?_⟩, fun o' accepted' => ?_,
        fun o' x offered sel => ⟨fun edit paymentMethods t => ?_, uncanceled o' x offered sel⟩⟩
      · rw [only a x first selA, only b y second selB]
      · rintro ⟨o', pending⟩
        obtain rfl := only o' _ pending rfl
        cases pending.symm.trans accepted
      · rw [follows] at working
        cases job <;> simp_all [BookingStatus.requestStatus, BookingStatus.agreed]
      · rintro ⟨o', b', job', accepted', booked', live⟩
        obtain rfl := only o' _ accepted' rfl
        obtain rfl := coherent.once b b' _ _ _ booked booked'
        obtain ⟨-, rfl⟩ := Prod.mk.inj (Option.some.inj (booked.symm.trans booked'))
        rw [follows]
        cases job <;> simp_all [BookingStatus.requestStatus]
      · obtain rfl := only o' _ accepted' rfl
        refine ⟨b, ⟨job, booked⟩, ?_⟩
        rintro b' ⟨job', booked'⟩
        exact coherent.once b' b _ _ _ booked' booked
      · refine unedited edit paymentMethods t unopened.1 fun closed => ?_
        rw [follows] at closed
        refine Market.matched_of_offered accepted booked ?_
        cases job <;> simp_all [BookingStatus.requestStatus]

/-- A run leaves an accepted offer accepted, and none of its request pending. -/
theorem accepted_stays (h : marketMachine.ReachableUnder C s) {r : Nat} {o : OfferId}
    (accepted : s.market.offered r o = some .accepted) (run : marketMachine.RunUnder C s s') :
    s'.market.offered r o = some .accepted ∧ ∀ o', s'.market.offered r o' ≠ some .pending := by
  obtain ⟨request₀, b, found₀, matched⟩ := (market_coherent h).matched_of_accepted accepted
  obtain ⟨request', sel', -, selected', steps⟩ := (market_run_selects h run).steps r request₀ _ found₀ matched
  obtain rfl := steps.of_matched
  cases selected' with
  | matched accepted' _ decided => exact ⟨accepted', decided⟩

/-- The offers of a request agree with its status and its booking in every state, and the choice of an offer is
    final. -/
theorem request_offers_coherent (h : marketMachine.ReachableUnder C s) {r : Nat} {request : ServiceRequest}
    (found : s.market.requests[r]? = some request) : s.market.RequestCoherent r request
    ∧ ∀ o, s.market.offered r o = some .accepted → ∀ s', marketMachine.RunUnder C s s' →
      s'.market.offered r o = some .accepted ∧ ∀ o', s'.market.offered r o' ≠ some .pending := by
  have coherent := market_coherent h
  obtain ⟨sel, selected⟩ := coherent.selected r request found
  exact ⟨selected.requestCoherent coherent found, fun o accepted s' run => accepted_stays h accepted run⟩

theorem request_offers_coherent_purchase : ∃ s request, marketMachine.exec sampleMarket
      (sampleHeldOffer ++ sampleCapturedOffer) = some s
    ∧ s.market.requests[0]? = some request ∧ s.market.RequestCoherent 0 request
    ∧ s.market.offered 0 0 = some .accepted
    ∧ ∀ s', marketMachine.RunUnder (fun _ _ => True) s s' → ∀ o, s'.market.offered 0 o ≠ some .pending := by
  obtain ⟨s, run, listed, accepted⟩ := sample_any
    (o := marketMachine.exec sampleMarket (sampleHeldOffer ++ sampleCapturedOffer))
    (p := fun s => s.market.requests[0]?.isSome = true ∧ s.market.offered 0 0 = some .accepted) (by decide)
  obtain ⟨request, found⟩ := Option.isSome_iff_exists.mp listed
  obtain ⟨rows, final⟩ := request_offers_coherent (Machine.Reachable.of_exec sampleMarket_initial run) found
  exact ⟨s, request, run, found, rows, accepted, fun s' later => (final 0 accepted s' later).2⟩

/-- A request stays, and its rows agree after every further run; once an offer is accepted, it stays the accepted one and
    none is pending again. -/
theorem selection_stays_coherent (h : marketMachine.ReachableUnder C s) {r : Nat} {request : ServiceRequest}
    (found : s.market.requests[r]? = some request) (run : marketMachine.RunUnder C s s') :
    ∃ request', s'.market.requests[r]? = some request' ∧ s'.market.RequestCoherent r request'
      ∧ ∀ o, s.market.offered r o = some .accepted →
        s'.market.offered r o = some .accepted ∧ ∀ o', s'.market.offered r o' ≠ some .pending := by
  obtain ⟨sel, selected⟩ := (market_coherent h).selected r request found
  have selects := market_run_selects h run
  obtain ⟨request', sel', found', selected', -⟩ := selects.steps r request sel found selected
  exact ⟨request', found', selected'.requestCoherent selects.coherent found', fun o accepted => accepted_stays h accepted run⟩

theorem selection_stays_coherent_purchase : ∃ s s' request', marketMachine.exec sampleMarket sampleHeldOffer = some s
    ∧ marketMachine.exec s sampleCapturedOffer = some s' ∧ s'.market.requests[0]? = some request'
    ∧ s'.market.RequestCoherent 0 request' ∧ s'.market.offered 0 0 = some .accepted := by
  obtain ⟨s, run, listed, captured⟩ := sample_any (o := marketMachine.exec sampleMarket sampleHeldOffer)
    (p := fun s => s.market.requests[0]?.isSome = true
      ∧ (marketMachine.exec s sampleCapturedOffer).any (fun s' => s'.market.offered 0 0 = some .accepted) = true) (by decide)
  obtain ⟨request, found⟩ := Option.isSome_iff_exists.mp listed
  obtain ⟨s', paid, accepted⟩ := (Option.any_eq_true _ _).mp captured
  obtain ⟨request', found', coherent, -⟩ := selection_stays_coherent
    (Machine.Reachable.of_exec sampleMarket_initial run) found (.of_exec paid)
  exact ⟨s, s', request', run, paid, found', coherent, of_decide_eq_true accepted⟩

end Runs

end ServiceHub
