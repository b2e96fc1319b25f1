import ServiceHub.Market.Keys
import ServiceHub.Market.QueueRuns
import ServiceHub.Market.SelectionRuns

/-! # Which captured payments can be settled

The transaction of `finalizeSuccessfulPayment` is rolled back when a unique index or a foreign key
rejects one of its writes, and every retry of the webhook meets the same rows again.
-/

namespace ServiceHub

open Guard

variable {s : MarketSystem} {m t : Market} {act : MarketAction} {next : Option PaymentCall} {o : OfferId}

section Columns

/-- The queue row carries the intent and the payment of the attempt that was booked. -/
def BookingFile.QueueReferenced (f : BookingFile) : Prop :=
  ∀ q, f.queue = some q → q.offerId = f.booking.offerId ∧ ∃ a, f.booking.paymentAttemptId = some a
    ∧ q.paymentId = a ∧ ∀ p, q.paymongoPaymentId = some p → p = a

theorem SameTerms.queueReferenced {f f' : BookingFile} (terms : SameTerms f f') (h : f.QueueReferenced) :
    f'.QueueReferenced := by
  intro q' queued'
  have row := terms.queue
  rw [queued', Option.map_some, eq_comm, Option.map_eq_some_iff] at row
  obtain ⟨q, queued, same⟩ := row
  have offer : q'.offerId = q.offerId := (congrArg Queue.offerId same).symm
  have intent : q'.paymentId = q.paymentId := (congrArg Queue.paymentId same).symm
  have payment : q'.paymongoPaymentId = q.paymongoPaymentId := (congrArg Queue.paymongoPaymentId same).symm
  rw [offer, intent, payment, terms.column Booking.offerId fun _ => rfl,
    terms.column Booking.paymentAttemptId fun _ => rfl]
  exact h q queued

theorem Renumbered.sameTerms {x y : BookingSystem} (h : Renumbered x y) : SameTerms x.file y.file := by
  refine ⟨h.column (·.file.booking.terms) fun _ _ _ _ => rfl, ?_⟩
  refine h.column (fun s => s.file.queue.map Queue.terms) fun s position wait waiting => ?_
  simp only [BookingFile.renumbered]
  cases s.file.queue <;> rfl

end Columns

section Referenced

/-- What the rows say about the rows that they point to. -/
structure Market.Referenced (m : Market) : Prop where
  queue : ∀ (b : Nat) (y : BookingSystem), m.bookings[b]? = some y → y.file.QueueReferenced
  payment : ∀ (a : Nat) (x : AttemptSystem), m.attempts[a]? = some x →
    ∀ p, x.file.attempt.providerPaymentId = some p → p = a
  offered : ∀ key ∈ m.offerKeys, ∀ l, key.2.2 = some l → (m.service l).isSome = true
  listed : ∀ (a : Nat) (x : AttemptSystem), m.attempts[a]? = some x →
    ∀ l, x.file.attempt.serviceId = some l → (m.service l).isSome = true

variable {C : MarketSystem → MarketAction → Prop}

/-- A payment that is finalized is the one of the attempt that it is registered for. -/
theorem genuine_payment {origin : Origin} {payment : CapturedPayment} {a : AttemptId}
    (registered : s.market.AttemptsRegistered) (genuine : (PaymentCall.finalize origin payment).Genuine s.market)
    (found : s.market.findIntent payment.paymentIntentId = some a) :
    payment.paymentIntentId = a ∧ payment.paymentId = some a := by
  obtain ⟨x, i, listed, stored, captured, same, -⟩ := genuine
  obtain rfl := registered.findIntent found
  exact ⟨rfl, same.trans ((registered _ x listed).payment i stored captured)⟩

theorem MarketEvent.queueReferenced (h : MarketEvent s act t next) (registered : s.market.AttemptsRegistered)
    (genuine : ∀ call ∈ s.calls, call.Genuine s.market)
    (known : ∀ (b : Nat) (y : BookingSystem), s.market.bookings[b]? = some y → y.file.QueueReferenced)
    (b : Nat) (y : BookingSystem) (found : t.bookings[b]? = some y) : y.file.QueueReferenced := by
  cases h.booking_row found with
  | kept before run => exact run.sameTerms.queueReferenced (known b _ before)
  | stepped step run =>
      exact run.sameTerms.queueReferenced (step.sameTerms.queueReferenced (known b _ step.found))
  | cash _ cash run =>
      refine run.sameTerms.queueReferenced fun q queued => ?_
      rcases cash with rfl | rfl <;> cases queued
  | paid _ call found _ _ run =>
      refine run.sameTerms.queueReferenced fun q queued => ?_
      obtain ⟨intent, payment⟩ := genuine_payment registered (genuine _ call) found
      obtain rfl := Option.some.inj queued
      refine ⟨rfl, _, rfl, intent, fun p captured => ?_⟩
      exact Option.some.inj (captured.symm.trans payment)

theorem AttemptMove.providerPaymentId {a : AttemptId} {x x' : AttemptSystem} (h : AttemptMove s a x x')
    (registered : s.market.AttemptsRegistered) (genuine : ∀ call ∈ s.calls, call.Genuine s.market)
    (known : ∀ p, x.file.attempt.providerPaymentId = some p → p = a) :
    ∀ p, x'.file.attempt.providerPaymentId = some p → p = a := by
  intro p recorded
  cases h with
  | refundRequired call found | succeeded call found =>
      have payment := (genuine_payment registered (genuine _ call) found).2
      exact Option.some.inj (recorded.symm.trans payment)
  | refunded _ run =>
      obtain same | ⟨-, same⟩ := AttemptRefundStage.resume_attempt run
      · exact known p (by rw [← recorded, same])
      · exact known p (by rw [← recorded, same])
  | _ => exact known p recorded

theorem PreparedOn.listed {params : PaymentParams} {target : PaymentTarget} {a : AttemptId}
    (h : PreparedOn params target m t a) (offered : ∀ key ∈ m.offerKeys, ∀ l, key.2.2 = some l → (m.service l).isSome = true)
    {b : Nat} {x : AttemptSystem} (found : t.attempts[b]? = some x) :
    m.attempts[b]? = some x ∨ ∀ l, x.file.attempt.serviceId = some l → (m.service l).isSome = true := by
  cases h with
  | reused => exact .inl found
  | @created held attempt fresh _ _ _ _ _ _ on =>
      have before : held.attempts = m.attempts := on.attempts
      rw [List.getElem?_append] at found
      split at found
      · exact .inl (before ▸ found)
      · obtain rfl := List.mem_singleton.mp (List.mem_of_getElem? found)
        refine .inr fun l named => ?_
        have target_service : target.serviceId = some l := by
          rw [← named]
          simp only [PaymentAttempt.pendingFor, Bool.and_eq_true, beq_iff_eq] at fresh
          exact fresh.1.1.2.symm
        cases on with
        | listing _ listed service =>
            obtain rfl := Option.some.inj (listed.symm.trans target_service)
            simp [service]
        | offer _ row _ _ _ _ _ service =>
            exact offered _ (List.mem_map_of_mem (List.mem_of_getElem? row)) l (service.trans target_service)

theorem market_referenced (h : marketMachine.ReachableUnder C s) : s.market.Referenced := by
  refine h.invariant_with (J := marketMachine.ReachableUnder C) (I := fun s => s.market.Referenced)
    (fun _ h => h) ?_ ?_
  · rintro s ⟨-, offers, attempts, bookings, -⟩
    refine ⟨?_, ?_, ?_, ?_⟩ <;> simp [Market.offerKeys, offers, attempts, bookings]
  · intro s act s' reached known _ stepped
    obtain ⟨next, event, -⟩ := MarketSystem.step_event stepped
    have settled := market_settled reached
    have registered := settled.shared.1
    have lists := event.lists
    refine ⟨event.queueReferenced registered settled.calls known.queue, fun a x' found => ?_,
      fun key offered l named => ?_, fun a x' found l named => ?_⟩
    · cases event.attempt_row found with
      | moved before move => exact move.providerPaymentId registered settled.calls (known.payment a _ before)
      | created _ _ _ _ unpaid _ row =>
          subst row
          simp [unpaid]
    · obtain ⟨new, keys, listed⟩ := lists.offers
      rw [keys, List.mem_append] at offered
      exact lists.services l (offered.elim (fun old => known.offered key old l named) fun old => listed key old l named)
    · refine lists.services l ?_
      cases event.attempt_row found with
      | moved before move =>
          refine known.listed a _ before l ?_
          rw [← named]
          exact (move.extends_.column PaymentAttempt.serviceId fun _ => rfl).symm
      | created last =>
          obtain ⟨params, target, b, prepared⟩ | same := event.prepares_or_length
          · have swept : s.market.SameKeys (expireStale params target s.market) := expireStale_keys
            refine (prepared.listed (fun key offered l' named' => ?_) found).elim (fun old => ?_) fun new => ?_
            · rw [swept.service]
              exact known.offered key (swept.offers ▸ offered) l' named'
            · have bound := (List.getElem?_eq_some_iff.mp old).1
              rw [expireStale_length, last] at bound
              exact absurd bound (Nat.lt_irrefl _)
            · rw [← swept.service]
              exact new l named
          · have bound := (List.getElem?_eq_some_iff.mp found).1
            rw [same, last] at bound
            exact absurd bound (Nat.lt_irrefl _)

end Referenced

section Commits

variable {a : Nat} {x : AttemptSystem} {i : PaymentIntent} {payment : CapturedPayment} {fresh : PaymentAttempt}
  {y : BookingSystem} {minutes position : Nat}

/-- A row that a unique index holds against the booking of the attempt: its own booking, or an active booking of
    the offered listing that the seeker got elsewhere. -/
def Market.bookedAround (m : Market) (a : AttemptId) (fresh : PaymentAttempt) : Bool :=
  m.bookings.any fun y => y.file.booking.paymentAttemptId == some a
    || (fresh.offerId.isSome && fresh.serviceId.isSome && y.file.booking.seekerId == fresh.seekerId
      && y.file.booking.serviceId == fresh.serviceId && y.file.booking.status.active)

/-- The held offer has no booking yet. -/
theorem Bookable.unbooked_offer (h : Bookable fresh m) (coherent : m.Coherent) (offered : fresh.offerId = some o)
    (listed : y ∈ m.bookings) : y.file.booking.offerId ≠ some o := by
  intro booked
  obtain ⟨b, row⟩ := List.mem_iff_getElem?.mp listed
  obtain ⟨r, accepted⟩ := coherent.accepted b o y.file.booking.status (by simp [Market.jobs, row, booked])
  obtain ⟨offer, found, -, status⟩ := Market.offered_eq_some.mp accepted
  have valid := (h.held o offered).1
  simp only [Market.holdValid, found, Option.any_some, status, Option.any_eq_true, Bool.and_eq_true] at valid
  obtain ⟨request, -, ⟨⟨-, pending⟩, -⟩, -⟩ := valid
  simp at pending

theorem Bookable.unbooked_listing (h : Bookable fresh m) (direct : fresh.offerId = none) (listed : y ∈ m.bookings)
    (seeker : y.file.booking.seekerId = fresh.seekerId) (service : y.file.booking.serviceId = fresh.serviceId) :
    y.file.booking.status.active = false := by
  have available := h.available
  simp only [Market.unavailable, Bool.or_eq_false_iff, Market.conflictingBooking, List.any_eq_false] at available
  have apart := available.2 y listed
  simpa [direct, seeker, service] using apart

theorem Bookable.clashes_iff (h : Bookable fresh m) (coherent : m.Coherent) (listed : y ∈ m.bookings) :
    y.file.booking.clashes (fresh.paidBooking a minutes payment position).booking = true ↔
      (y.file.booking.paymentAttemptId == some a
        || (fresh.offerId.isSome && fresh.serviceId.isSome && y.file.booking.seekerId == fresh.seekerId
          && y.file.booking.serviceId == fresh.serviceId && y.file.booking.status.active)) = true := by
  have elsewhere : ∀ o, fresh.offerId = some o → y.file.booking.offerId ≠ some o := fun o offered =>
    h.unbooked_offer coherent offered listed
  simp only [Booking.clashes, PaymentAttempt.paidBooking, BookingStatus.active, Bool.or_eq_true, Bool.and_eq_true,
    beq_iff_eq, Bool.and_true, Option.isSome_iff_exists]
  constructor
  · rintro (((⟨⟨o, booked⟩, same⟩ | ⟨-, own⟩) | ⟨⟨⟨⟨l, named⟩, seeker⟩, service⟩, active⟩) | ⟨-, accepted⟩)
    · exact absurd booked (elsewhere o (same.symm.trans booked))
    · exact .inl own
    · cases offered : fresh.offerId with
      | none =>
          have inactive := h.unbooked_listing offered listed seeker service
          cases status : y.file.booking.status <;> simp_all [BookingStatus.active]
      | some o => exact .inr ⟨⟨⟨⟨⟨o, rfl⟩, ⟨l, service.symm.trans named⟩⟩, seeker⟩, service⟩, active⟩
    · cases accepted
  · rintro (own | ⟨⟨⟨⟨-, ⟨l, named⟩⟩, seeker⟩, service⟩, active⟩)
    · exact .inl (.inl (.inr ⟨⟨a, own⟩, own⟩))
    · exact .inl (.inr ⟨⟨⟨⟨l, service.trans named⟩, seeker⟩, service⟩, active⟩)

/-- The new row stands last in the queue, under an intent and a payment of its own. -/
theorem queue_clashes_false {b : Nat} {q : Queue} (ordered : QueuesOrdered m) (referenced : m.Referenced)
    (row : m.bookings[b]? = some y) (queued : y.file.queue = some q)
    (other : y.file.booking.paymentAttemptId ≠ some a) (unordered : ∀ o, fresh.offerId = some o →
      y.file.booking.offerId ≠ some o) (intent : payment.paymentIntentId = a) (captured : payment.paymentId = some a) :
    ∀ q', (fresh.paidBooking a minutes payment (m.countQueue fresh.providerId .serving
      + m.countQueue fresh.providerId .waiting + 1)).queue = some q' → q.clashes q' = false := by
  intro q' created
  obtain rfl := Option.some.inj created
  obtain ⟨offer, a', named, number, recorded⟩ := referenced.queue b y row q queued
  have apart : a' ≠ a := fun same => other (same ▸ named)
  have placed : q.providerId = fresh.providerId → q.status.active = true →
      q.position < m.countQueue fresh.providerId .serving + m.countQueue fresh.providerId .waiting + 1 := by
    intro provider active
    have listed : b ∈ m.activeEntries fresh.providerId := mem_activeEntries.mpr ⟨y, q, row, queued, provider, active⟩
    rw [← position_eq row queued]
    exact (ordered.numbered fresh.providerId).position_le listed
  by_contra clash
  simp only [Queue.clashes, Bool.not_eq_false, Bool.or_eq_true, Bool.and_eq_true, beq_iff_eq, Option.isSome_iff_exists]
    at clash
  rcases clash with (((⟨⟨o, held⟩, same⟩ | same) | ⟨⟨p, paid⟩, same⟩) | ⟨⟨⟨provider, same⟩, active⟩, -⟩)
    | ⟨-, serving⟩
  · exact unordered o (same.symm.trans held) (offer.symm.trans held)
  · exact apart ((number.symm.trans same).trans intent)
  · have own : p = a := Option.some.inj (paid.symm.trans (same.trans captured))
    exact apart ((recorded p paid).symm.trans own)
  · exact absurd same (Nat.ne_of_lt (placed provider active))
  · cases serving

/-- The row of the booking is inserted unless another booking stands in its way. -/
theorem Bookable.createBooking_iff (h : Bookable fresh m) (minutes : Nat) (coherent : m.Coherent) (ordered : QueuesOrdered m)
    (referenced : m.Referenced) (present : ∀ l, fresh.serviceId = some l → (m.service l).isSome = true)
    (intent : payment.paymentIntentId = a) (captured : payment.paymentId = some a) :
    (∃ booked, m.createBooking (fresh.paidBooking a minutes payment (m.countQueue fresh.providerId .serving
      + m.countQueue fresh.providerId .waiting + 1)) = .ok booked) ↔ m.bookedAround a fresh = false := by
  constructor
  · rintro ⟨booked, create⟩
    obtain ⟨-, distinct, -⟩ := createBooking_ok create
    refine List.any_eq_false.mpr fun y listed stands => ?_
    exact Bool.eq_false_iff.mp (distinct y listed) ((h.clashes_iff coherent listed).mpr stands)
  · intro free
    have apart := List.any_eq_false.mp free
    simp only [Market.createBooking, check_bind_ok, rejectIf_ok, pure_ok]
    refine ⟨_, ?_, ?_, ?_, rfl⟩
    · simp only [PaymentAttempt.paidBooking, Option.any_eq_true, not_exists, not_and]
      intro l named missing
      have listed := present l named
      rw [Option.isNone_iff_eq_none] at missing
      simp [missing] at listed
    · simp only [List.any_eq_true, not_exists, not_and]
      intro y listed clash
      exact apart y listed ((h.clashes_iff coherent listed).mp clash)
    · simp only [List.any_eq_true, Option.any_eq_true, not_exists, not_and]
      intro y listed q queued q' created clash
      obtain ⟨b, row⟩ := List.mem_iff_getElem?.mp listed
      have other : y.file.booking.paymentAttemptId ≠ some a := by
        intro own
        exact apart y listed (by simp [own])
      have unclashed := queue_clashes_false ordered referenced row queued other
        (fun o offered => h.unbooked_offer coherent offered listed) intent captured q' created
      rw [unclashed] at clash
      cases clash

/-- The payment of an intent, as the gateway reports it. -/
def PaymentIntent.capture (a : AttemptId) (i : PaymentIntent) : CapturedPayment where
  paymentIntentId := a
  paymentId := i.paymentId
  amount := i.amount
  currency := i.currency
  metadata := i.metadata

/-- The attempt is booked or refunded, and a booking that is new waits in the queue. -/
structure Market.Settles (m t : Market) (a : AttemptId) : Prop where
  outcome : ∃ x, t.findAttempt a = some x ∧ (x.status = .refundRequired ∨ x.status = .refunded
    ∨ (x.status = .succeeded ∧ ∃ y ∈ t.bookings, y.file.booking.paymentAttemptId = some a))
  waiting : (∀ y ∈ m.bookings, y.file.booking.paymentAttemptId ≠ some a) →
    ∀ y ∈ t.bookings, y.file.booking.paymentAttemptId = some a → y.file.booking.status = .accepted
      ∧ ∃ q, y.file.queue = some q ∧ q.status = .waiting

theorem Market.Referenced.markPaid (h : m.Referenced) : (markPaid a m).Referenced := by
  refine ⟨h.queue, fun b x found => ?_, h.offered, fun b x found => ?_⟩
  · obtain ⟨x, before, rfl⟩ := Option.map_eq_some_iff.mp (Market.updateAttempt_row.symm.trans found)
    split <;> exact h.payment b x before
  · obtain ⟨x, before, rfl⟩ := Option.map_eq_some_iff.mp (Market.updateAttempt_row.symm.trans found)
    split <;> exact h.listed b x before

theorem Market.Referenced.unrecorded (h : m.Referenced) : m.paymentRecordedElsewhere a (some a) = false := by
  by_contra recorded
  simp only [Bool.not_eq_false, Market.paymentRecordedElsewhere, Option.isSome_some, Bool.true_and, List.any_eq_true,
    Bool.and_eq_true, bne_iff_ne, Option.any_eq_true, beq_iff_eq] at recorded
  obtain ⟨b, -, other, attempt, found, same⟩ := recorded
  obtain ⟨x, listed, rfl⟩ := Market.findAttempt_eq_some.mp found
  exact other (h.payment b x listed a same).symm

/-- A captured intent agrees with its attempt. -/
theorem AttemptSystem.Registered.capture_matches (h : x.Registered a) (stored : x.intent = some i) :
    (i.capture a).matches a x.file.attempt = true := by
  have same := h.intent i stored
  have amount : i.amount = x.file.attempt.amount := congrArg PaymentIntent.amount same
  have currency : i.currency = "PHP" := congrArg PaymentIntent.currency same
  have metadata : (x.file.attempt.newIntent a).metadata = i.metadata := (congrArg PaymentIntent.metadata same).symm
  simp [CapturedPayment.matches, ← metadata, PaymentIntent.capture, amount, currency, PaymentAttempt.newIntent]

/-- Only the booking of the attempt can be rejected. -/
theorem finalizeAttempt_commits (found : m.findAttempt a = some fresh) (valid : payment.matches a fresh = true)
    (unrecorded : (markPaid a m).paymentRecordedElsewhere a payment.paymentId = false)
    (book : Unsettled a payment m fresh → Bookable fresh (markPaid a m) →
      ∃ t result, createPaidBooking a fresh payment (markPaid a m) = .ok (t, result)) :
    ∃ t result, finalizeAttempt a payment m = .ok (t, result) := by
  simp only [finalizeAttempt, orThrow_bind_ok, ite_ok, pure_ok, rejectIf_bind_ok]
  by_cases booked : fresh.status = .succeeded ∧ m.bookings.any (·.file.booking.paymentAttemptId == some a) = true
  · exact ⟨m, _, fresh, found, .inl ⟨booked, rfl⟩⟩
  by_cases refunding : fresh.status = .refundRequired ∨ fresh.status = .refunded
  · exact ⟨m, _, fresh, found, .inr ⟨booked, .inl ⟨refunding, rfl⟩⟩⟩
  have open_ : Unsettled a payment m fresh := ⟨found, booked, not_or.mp refunding, valid⟩
  simp only [found, Option.some.injEq, exists_eq_left', booked, refunding, valid, unrecorded, Bool.true_eq_false,
    Bool.false_eq_true, false_and, not_false_eq_true, true_and, false_or]
  by_cases expired : fresh.expiresAt ≤ (markPaid a m).now
  · exact ⟨_, _, .inl ⟨expired, rfl⟩⟩
  by_cases gone : (markPaid a m).unavailable fresh = true
  · exact ⟨_, _, .inr ⟨expired, .inl ⟨gone, rfl⟩⟩⟩
  have unexpired : (markPaid a m).now < fresh.expiresAt := Nat.lt_of_not_le expired
  have available : (markPaid a m).unavailable fresh = false := by simpa using gone
  cases offered : fresh.offerId with
  | none =>
      obtain ⟨t, result, run⟩ := book open_ ⟨unexpired, available, by simp [offered]⟩
      exact ⟨t, result, .inr ⟨expired, .inr ⟨gone, run⟩⟩⟩
  | some o =>
      simp only [ite_ok, rejectIf_bind_ok, pure_ok, not_false_eq_true, true_and]
      by_cases invalid : (markPaid a m).holdValid fresh o = false
      · exact ⟨_, _, .inr ⟨expired, .inr ⟨gone, .inl ⟨invalid, rfl⟩⟩⟩⟩
      by_cases sibling : ((markPaid a m).offers[o]?).any
          (fun offer => (markPaid a m).selectedElsewhere offer.requestId o) = true
      · exact ⟨_, _, .inr ⟨expired, .inr ⟨gone, .inr ⟨invalid, .inl ⟨sibling, rfl⟩⟩⟩⟩⟩
      obtain ⟨t, result, run⟩ := book open_ ⟨unexpired, available, fun o' same => by
        obtain rfl := Option.some.inj (offered.symm.trans same)
        refine ⟨by simpa using invalid, fun offer listed => ?_⟩
        simpa [listed] using sibling⟩
      exact ⟨t, result, .inr ⟨expired, .inr ⟨gone, .inr ⟨invalid, .inr ⟨sibling, run⟩⟩⟩⟩⟩

theorem RefundBranch.not_bookable {after : Market → Market} (h : RefundBranch a fresh m after) :
    ¬ Bookable fresh m := by
  intro bookable
  cases h with
  | released gone =>
      rcases gone with late | gone
      · exact absurd bookable.unexpired (Nat.not_lt.mpr late)
      · exact absurd (gone.symm.trans bookable.available) (by decide)
  | invalid offered invalid => exact absurd ((bookable.held _ offered).1.symm.trans invalid) (by decide)
  | sibling offered found selected =>
      exact absurd (selected.symm.trans ((bookable.held _ offered).2 _ found)) (by decide)

/-- The booking of the payment is the last row of the table. -/
theorem PaidBooking.row {u booked numbered : Market} (h : PaidBooking a payment fresh m u booked numbered) :
    ∃ y ∈ u.bookings, y.file.booking.paymentAttemptId = some a := by
  obtain ⟨-, -, -, created⟩ := createBooking_ok h.create
  have renumbered := recalculateQueue_renumbered h.renumber
  obtain ⟨y, row⟩ : ∃ y, numbered.bookings[m.bookings.length]? = some y := by
    refine ⟨_, List.getElem?_eq_getElem ?_⟩
    rw [renumbered.length, created]
    simp
  have run := renumbered.rows _ _ y (by rw [created, List.getElem?_concat_length]) row
  refine ⟨y, by rw [h.bookings]; exact List.mem_of_getElem? row, ?_⟩
  exact run.column (·.file.booking.paymentAttemptId) fun _ _ _ _ => rfl

theorem PaidBooking.waiting {u booked numbered : Market} (h : PaidBooking a payment fresh m u booked numbered)
    (new : ∀ y ∈ m.bookings, y.file.booking.paymentAttemptId ≠ some a) (listed : y ∈ u.bookings)
    (own : y.file.booking.paymentAttemptId = some a) : y.file.booking.status = .accepted
      ∧ ∃ q, y.file.queue = some q ∧ q.status = .waiting := by
  obtain ⟨b, row⟩ := List.mem_iff_getElem?.mp listed
  obtain ⟨x, before, run⟩ | ⟨-, position, run⟩ := h.booking_row row
  · have attempt := run.column (·.file.booking.paymentAttemptId) fun _ _ _ _ => rfl
    exact absurd (attempt.symm.trans own) (new x (List.mem_of_getElem? before))
  · have queue := run.column (fun x => x.file.queue.map (·.status)) fun x _ _ _ => by
      simp only [BookingFile.renumbered]
      cases x.file.queue <;> rfl
    exact ⟨run.column (·.file.booking.status) fun _ _ _ _ => rfl, Option.map_eq_some_iff.mp queue⟩

theorem FinalizedOn.settles {result : Finalized} (h : FinalizedOn a payment m t result) : m.Settles t a := by
  cases h with
  | settled found booked =>
      refine ⟨⟨_, found, ?_⟩, fun new y listed own => absurd own (new y listed)⟩
      rcases booked with ⟨succeeded, row⟩ | required | refunded
      · obtain ⟨y, listed, own⟩ := List.any_eq_true.mp row
        exact .inr (.inr ⟨succeeded, y, listed, by simpa using own⟩)
      · exact .inl required
      · exact .inr (.inl refunded)
  | @refunded fresh reason _ open_ branch =>
      have bookings := branch.bookings (u := requireRefund a payment reason (markPaid a m))
      refine ⟨?_, fun new y listed own => absurd own (new y (bookings ▸ listed))⟩
      rw [Market.findAttempt_congr branch.attempts]
      simp [requireRefund, markPaid, open_.found]
  | @created fresh _ _ _ open_ _ paid =>
      refine ⟨?_, fun new y listed own => paid.waiting new listed own⟩
      rw [Market.findAttempt_congr paid.attempts]
      simpa [markPaid, open_.found] using paid.row

theorem finalizeAttempt_commits_iff {C : MarketSystem → MarketAction → Prop} (h : marketMachine.ReachableUnder C s)
    (found : s.market.attempts[a]? = some x) (stored : x.intent = some i) (captured : i.status = .succeeded) :
    (∃ t result, finalizeAttempt a (i.capture a) s.market = .ok (t, result)) ↔
      ¬ (Unsettled a (i.capture a) s.market x.file.attempt ∧ Bookable x.file.attempt (markPaid a s.market)
        ∧ s.market.bookedAround a x.file.attempt = true) := by
  have registered := (market_settled h).shared.1 a x found
  have referenced := (market_referenced h).markPaid (a := a)
  have coherent : (markPaid a s.market).Coherent := (updateAttempt_selects (market_coherent h) a _).coherent
  have ordered : QueuesOrdered (markPaid a s.market) := (queues_ordered h).of_bookings rfl
  have payment : (i.capture a).paymentId = some a := registered.payment i stored captured
  have row : s.market.findAttempt a = some x.file.attempt := Market.findAttempt_eq_some.mpr ⟨x, found, rfl⟩
  have present := (market_referenced h).listed a x found
  refine ⟨?_, fun free => ?_⟩
  · rintro ⟨t, result, run⟩ ⟨unsettled, bookable, stands⟩
    cases finalizeAttempt_ok run with
    | settled found' booked =>
        obtain rfl := Option.some.inj (row.symm.trans found')
        rcases booked with booked | refunding
        · exact unsettled.unbooked booked
        · exact refunding.elim unsettled.unrefunded.1 unsettled.unrefunded.2
    | refunded open_ branch =>
        obtain rfl := Option.some.inj (row.symm.trans open_.found)
        exact branch.not_bookable bookable
    | created open_ _ paid =>
        obtain rfl := Option.some.inj (row.symm.trans open_.found)
        have free := (bookable.createBooking_iff _ coherent ordered referenced present rfl payment).mp
          ⟨_, paid.create⟩
        exact Bool.eq_false_iff.mp free stands
  · refine finalizeAttempt_commits row (registered.capture_matches stored) (payment ▸ referenced.unrecorded)
      fun unsettled bookable => ?_
    have free_row : (markPaid a s.market).bookedAround a x.file.attempt = false :=
      Bool.eq_false_iff.mpr fun stands => free ⟨unsettled, bookable, stands⟩
    obtain ⟨booked, create⟩ := (bookable.createBooking_iff (a := a) ((markPaid a s.market).estimatedDuration
      x.file.attempt) coherent ordered referenced present rfl payment).mpr free_row
    obtain ⟨numbered, renumber, -⟩ := ordered.paid create
    have unique : ¬ (markPaid a s.market).paymentRecordedElsewhere a (i.capture a).paymentId = true := by
      rw [payment, referenced.unrecorded]
      exact Bool.false_ne_true
    simp only [createPaidBooking, bind_ok, rejectIf_ok, pure_ok]
    exact ⟨_, _, booked, create, numbered, renumber, (), unique, rfl⟩

/-- The transaction that settles a captured payment commits unless its attempt can be booked while the seeker has
    an active booking of the offered listing, or while the attempt has a booking that its status denies; after a
    commit the attempt is booked or refunded. -/
theorem finalization_commits {C : MarketSystem → MarketAction → Prop} (h : marketMachine.ReachableUnder C s)
    (found : s.market.attempts[a]? = some x) (stored : x.intent = some i) (captured : i.status = .succeeded) :
    ((∃ t result, finalizeAttempt a (i.capture a) s.market = .ok (t, result)) ↔
      ¬ (Unsettled a (i.capture a) s.market x.file.attempt ∧ Bookable x.file.attempt (markPaid a s.market)
        ∧ s.market.bookedAround a x.file.attempt = true))
    ∧ ∀ t result, finalizeAttempt a (i.capture a) s.market = .ok (t, result) → s.market.Settles t a :=
  ⟨finalizeAttempt_commits_iff h found stored captured, fun _ _ run => (finalizeAttempt_ok run).settles⟩

/-- Seeker 1 pays for an offer of the listing that he has booked already. -/
def sampleOfferOfBookedListing : List MarketAction :=
  samplePurchase ++ [MarketAction.createRequest 1 none none, .submitOffer 2 0 (some 1) 50000 60]
    ++ sampleCall 0 (.initiateOnlinePayment { seekerId := 1, offerId := some 0 })
      [.none, .none, .ok, .ok, .redirect none, .none]
    ++ [MarketAction.intent 1 .succeeded]

theorem finalization_commits_booked_listing : ∃ s x i,
    marketMachine.exec sampleMarket sampleOfferOfBookedListing = some s ∧ s.market.attempts[1]? = some x
    ∧ x.intent = some i ∧ Unsettled 1 (i.capture 1) s.market x.file.attempt
    ∧ Bookable x.file.attempt (markPaid 1 s.market) ∧ s.market.bookedAround 1 x.file.attempt = true
    ∧ ¬ ∃ t result, finalizeAttempt 1 (i.capture 1) s.market = .ok (t, result) := by
  obtain ⟨s, run, captured⟩ := sample_any (o := marketMachine.exec sampleMarket sampleOfferOfBookedListing)
    (p := fun s => (s.market.attempts[1]?).any (fun x => x.intent.any fun i => i.status == .succeeded
      && (finalizeAttempt 1 (i.capture 1) s.market).toOption.isNone) = true) (by decide)
  obtain ⟨x, found, captured⟩ := (Option.any_eq_true _ _).mp captured
  obtain ⟨i, stored, captured⟩ := (Option.any_eq_true _ _).mp captured
  simp only [Bool.and_eq_true, beq_iff_eq] at captured
  obtain ⟨succeeded, rejected⟩ := captured
  have aborts : ¬ ∃ t result, finalizeAttempt 1 (i.capture 1) s.market = .ok (t, result) := by
    rintro ⟨t, result, commits⟩
    simp [commits, Except.toOption] at rejected
  have condition := (finalization_commits (Machine.Reachable.of_exec sampleMarket_initial run) found stored succeeded).1
  obtain ⟨unsettled, bookable, stands⟩ := not_not.mp fun free => aborts (condition.mpr free)
  exact ⟨s, x, i, run, found, stored, unsettled, bookable, stands, aborts⟩

/-- A captured payment is settled, with a booking that waits in the queue or with a refund, exactly when no unique index
    holds a row against the booking that it is entitled to. -/
theorem captured_payment_settles {C : MarketSystem → MarketAction → Prop} (h : marketMachine.ReachableUnder C s)
    (found : s.market.attempts[a]? = some x) (stored : x.intent = some i) (captured : i.status = .succeeded) :
    (∃ t result, finalizeAttempt a (i.capture a) s.market = .ok (t, result) ∧ s.market.Settles t a) ↔
      ¬ (Unsettled a (i.capture a) s.market x.file.attempt ∧ Bookable x.file.attempt (markPaid a s.market)
        ∧ s.market.bookedAround a x.file.attempt = true) := by
  rw [← finalizeAttempt_commits_iff h found stored captured]
  constructor
  · rintro ⟨t, result, run, -⟩
    exact ⟨t, result, run⟩
  · rintro ⟨t, result, run⟩
    exact ⟨t, result, run, (finalizeAttempt_ok run).settles⟩

/-- Seeker 1 pays for an offer, and the capture is not yet reported. -/
theorem captured_payment_settles_offer : ∃ s t result x i,
    marketMachine.exec sampleMarket (sampleHeldOffer ++ [.intent 0 .succeeded]) = some s
    ∧ s.market.attempts[0]? = some x ∧ x.intent = some i ∧ x.file.attempt.status = .pending
    ∧ finalizeAttempt 0 (i.capture 0) s.market = .ok (t, result) ∧ s.market.Settles t 0 := by
  obtain ⟨s, run, waits⟩ := sample_any
    (o := marketMachine.exec sampleMarket (sampleHeldOffer ++ [.intent 0 .succeeded]))
    (p := fun s => (s.market.attempts[0]?).any (fun x => x.file.attempt.status == .pending
      && !s.market.bookedAround 0 x.file.attempt && x.intent.any fun i => i.status == .succeeded) = true) (by decide)
  obtain ⟨x, found, waits⟩ := (Option.any_eq_true _ _).mp waits
  simp only [Bool.and_eq_true, beq_iff_eq, Bool.not_eq_true'] at waits
  obtain ⟨⟨pending, free⟩, intent⟩ := waits
  obtain ⟨i, stored, captured⟩ := (Option.any_eq_true _ _).mp intent
  obtain ⟨t, result, commits, settles⟩ := (captured_payment_settles (Machine.Reachable.of_exec sampleMarket_initial run)
    found stored (by simpa using captured)).mpr fun stands => Bool.eq_false_iff.mp free stands.2.2
  exact ⟨s, t, result, x, i, run, found, stored, pending, commits, settles⟩

/-- The capture of an offer of a listing that the seeker has booked already is rolled back. -/
theorem captured_offer_stranded : ∃ s x i, marketMachine.exec sampleMarket sampleOfferOfBookedListing = some s
    ∧ marketMachine.Reachable s ∧ s.market.attempts[1]? = some x ∧ x.file.attempt.status = .pending
    ∧ x.intent = some i ∧ i.status = .succeeded
    ∧ ∀ t result, finalizeAttempt 1 (i.capture 1) s.market ≠ .ok (t, result) := by
  obtain ⟨s, run, captured⟩ := sample_any (o := marketMachine.exec sampleMarket sampleOfferOfBookedListing)
    (p := fun s => (s.market.attempts[1]?).any (fun x => x.file.attempt.status == .pending
      && x.intent.any fun i => i.status == .succeeded
        && (finalizeAttempt 1 (i.capture 1) s.market).toOption.isNone) = true) (by decide)
  obtain ⟨x, found, captured⟩ := (Option.any_eq_true _ _).mp captured
  simp only [Bool.and_eq_true, beq_iff_eq] at captured
  obtain ⟨pending, captured⟩ := captured
  obtain ⟨i, stored, captured⟩ := (Option.any_eq_true _ _).mp captured
  simp only [Bool.and_eq_true, beq_iff_eq] at captured
  obtain ⟨succeeded, rejected⟩ := captured
  refine ⟨s, x, i, run, .of_exec sampleMarket_initial run, found, pending, stored, succeeded, fun t result commits => ?_⟩
  simp [commits, Except.toOption] at rejected

end Commits

end ServiceHub
