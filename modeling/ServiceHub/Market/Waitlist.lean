import ServiceHub.Booking.Renumbers
import ServiceHub.Market.QueueRuns
import ServiceHub.Market.Suspensions

/-! # The waitlist of a full queue

A seeker who finds the paid queue of a provider full joins the waitlist of the listing. The end of the work, a
refund and a cancellation tell the first of the waitlist that a place is free, in the transaction that frees
it. A start and a larger capacity free a place too, and tell nobody.
-/

namespace ServiceHub

open Guard

structure QueueNotify where
  id : Nat
  serviceId : ServiceId
  seekerId : UserId
  requestedAt : Millis
  deriving Repr, DecidableEq

/-- A created notification, and the entry that it answers. -/
structure WaitlistNotification where
  entry : Nat
  userId : UserId
  title : String
  body : String
  link : String
  deriving Repr, DecidableEq

def QueueNotify.notification (e : QueueNotify) : WaitlistNotification where
  entry := e.id
  userId := e.seekerId
  title := "Queue slot available"
  body := "A place opened in this provider's paid work queue. Book while space remains."
  link := "/seeker/seek-services?service=" ++ toString e.serviceId

/-- `orderBy: [{ requestedAt: "asc" }, { id: "asc" }]`. -/
def QueueNotify.before (a b : QueueNotify) : Bool :=
  a.requestedAt < b.requestedAt || (a.requestedAt == b.requestedAt && a.id ≤ b.id)

/-- The tables of the marketplace and of the waitlist. -/
structure WaitlistSystem where
  system : MarketSystem
  queueNotify : List QueueNotify := []
  notifications : List WaitlistNotification := []
  /-- The identifiers of all entries that were ever created. -/
  issued : List Nat := []

namespace Market

/-- The entry is for a listing of the provider. -/
def waitsFor (m : Market) (p : UserId) (e : QueueNotify) : Bool :=
  (m.service e.serviceId).any (·.providerId == p)

/-- `waitingCount >= onlineQueueLimit`. -/
def queueFull (m : Market) (p : UserId) : Bool :=
  (m.user p).any fun user => user.onlineQueueLimit ≤ m.countQueue p .waiting

/-- The provider has marketplace access and a place in the queue. -/
def slotOpen (m : Market) (p : UserId) : Bool :=
  (m.user p).any fun user => user.marketplaceAccess && m.countQueue p .waiting < user.onlineQueueLimit

end Market

/-- The statements of a call whose transaction can wake the waitlist. -/
def Stage.notifiesWaitlist : Stage → Bool
  | .refundFinalize .. | .cancelSettle _ => true
  | _ => false

/-- The transaction calls `notifyWaitlistInTransaction`, always after a renumbering; so does the end of the work,
    for a booking with a queue row. -/
def BookingSystem.notifiesWaitlist (x : BookingSystem) (effects : Effects) : Step → Bool
  | .request (.markJobComplete _) => x.file.queue.isSome && effects.recalculates
  | .resume k _ => (x.calls[k]?).any (·.stage.notifiesWaitlist) && effects.recalculates
  | _ => false

/-- The provider whose waitlist the transaction wakes. -/
def Market.notifiesWaitlist (m : Market) : MarketAction → Option UserId
  | .booking b st updatedAt => (m.bookings[b]?).bind fun x =>
      (x.step (m.context b x updatedAt) st).bind fun (_, effects) =>
        if x.notifiesWaitlist effects st then some x.file.booking.providerId else none
  | _ => none

/-- The booking that a finalization has created. -/
def Market.captured (m t : Market) : MarketAction → Option Booking
  | .resume _ _ => (t.bookings[m.bookings.length]?).map (·.file.booking)
  | _ => none

/-- For an existing account only `setProviderWorkloadCapacity` writes the capacity. -/
def Market.keepsLimit (m : Market) : MarketAction → Bool
  | .updateUser userId user => (m.user userId).all (·.onlineQueueLimit == user.onlineQueueLimit)
  | _ => true

namespace WaitlistSystem

variable (w : WaitlistSystem)

abbrev market : Market := w.system.market

/-- `findFirst` of the entries for the provider's listings. -/
def oldest (p : UserId) : Option QueueNotify :=
  ((w.queueNotify.filter (w.market.waitsFor p)).insertionSort fun a b => a.before b = true).head?

/-- `notifyWaitlistInTransaction`. -/
def notifyWaitlistInTransaction (p : UserId) : WaitlistSystem :=
  if w.market.slotOpen p then
    match w.oldest p with
    | none => w
    | some e => { w with
        notifications := w.notifications ++ [e.notification]
        queueNotify := w.queueNotify.filter (·.id != e.id) }
  else w

/-- A paid booking deletes the entries of its seeker for its provider. -/
def consume (booking : Booking) : WaitlistSystem :=
  { w with queueNotify := w.queueNotify.filter fun e =>
      !(w.market.waitsFor booking.providerId e && e.seekerId == booking.seekerId) }

/-- What a transaction of the marketplace does to the waitlist. -/
def commit (a : MarketAction) (system : MarketSystem) : WaitlistSystem :=
  let kept := (w.market.captured system.market a).elim w w.consume
  let committed := { kept with system }
  (w.market.notifiesWaitlist a).elim committed committed.notifyWaitlistInTransaction

/-- `joinWaitlist`. -/
def joinWaitlist (serviceId : ServiceId) (seekerId : UserId) (id : Nat) : Except HttpError WaitlistSystem := do
  let unavailable := httpError "This service is not available" 404
  let service ← orThrow (w.market.service serviceId) unavailable
  rejectIf (service.status ≠ .active ∨ service.isAvailable = false
    ∨ ¬ (w.market.user service.providerId).any fun user => user.isActive && user.moderationStatus == .active)
    unavailable
  rejectIf (seekerId = service.providerId) (selfTransaction "join service waitlist")
  assertNewProviderBusiness w.market service.providerId
  rejectIf (w.market.conflictingBooking seekerId none (some serviceId))
    (httpError "You already have an active booking for this service in progress. Please check your Activity tab." 400)
  rejectIf (w.queueNotify.any fun e => e.serviceId == serviceId && e.seekerId == seekerId)
    (httpError "You are already on the waitlist for this service" 409)
  rejectIf (¬ w.market.queueFull service.providerId)
    (httpError "A queue slot is currently available; start the online payment flow instead" 409
      (some "QUEUE_SLOT_AVAILABLE"))
  let entry : QueueNotify := { id, serviceId, seekerId, requestedAt := w.market.now }
  return { w with queueNotify := w.queueNotify ++ [entry], issued := w.issued ++ [id] }

/-- The transaction of `deleteService`. -/
def deleteService (serviceId : ServiceId) : Option WaitlistSystem :=
  (w.market.service serviceId).map fun service =>
    let removed : Market := { w.market with
      service := Function.update w.market.service serviceId
        (some { service with status := .deleted, isAvailable := false }) }
    { w with
      queueNotify := w.queueNotify.filter (·.serviceId != serviceId)
      system := { w.system with market := removed } }

end WaitlistSystem

inductive WaitlistAction where
  | market (a : MarketAction)
  /-- The identifier is a new one. -/
  | joinWaitlist (serviceId : ServiceId) (seekerId : UserId) (id : Nat)
  | deleteService (serviceId : ServiceId)

def WaitlistSystem.step (w : WaitlistSystem) : WaitlistAction → Option WaitlistSystem
  | .market a => if w.market.keepsLimit a then (w.system.step a).map (w.commit a) else none
  | .joinWaitlist serviceId seekerId id =>
      if id ∈ w.issued then none else (w.joinWaitlist serviceId seekerId id).toOption
  | .deleteService serviceId => w.deleteService serviceId

def waitlistMachine : Machine WaitlistSystem WaitlistAction where
  initial w := marketMachine.initial w.system ∧ w.queueNotify = [] ∧ w.notifications = [] ∧ w.issued = []
  next := WaitlistSystem.step

namespace WaitlistSystem

/-- The entry is first on the waitlist of the provider. -/
structure First (w : WaitlistSystem) (p : UserId) (e : QueueNotify) : Prop where
  listed : e ∈ w.queueNotify
  own : w.market.waitsFor p e = true
  least : ∀ e' ∈ w.queueNotify, w.market.waitsFor p e' = true → e.before e' = true

/-- The entry is deleted, and its seeker has one more notification. -/
structure Woken (w w' : WaitlistSystem) (e : QueueNotify) : Prop where
  consumed : w'.queueNotify = w.queueNotify.filter (·.id != e.id)
  notified : w'.notifications = w.notifications ++ [e.notification]

/-- Without a notification an entry leaves the waitlist for two reasons: its seeker has just paid for a booking of the
    provider, or its listing is deleted. -/
inductive Withdraws (w w' : WaitlistSystem) (e : QueueNotify) : WaitlistAction → Prop where
  | booked {k reply x} (created : w'.market.bookings[w.market.bookings.length]? = some x)
      (paid : x.file.booking.paymentMethod = .gcash) (seeker : x.file.booking.seekerId = e.seekerId)
      (own : w.market.waitsFor x.file.booking.providerId e = true) : Withdraws w w' e (.market (.resume k reply))
  | deleted : Withdraws w w' e (.deleteService e.serviceId)

/-- A queue that was full and has a place now has woken the first of its waitlist. -/
def WakesFirst (w w' : WaitlistSystem) : Prop :=
  ∀ p e, w.market.queueFull p = true → w'.market.slotOpen p = true → w.First p e → w.Woken w' e

/-- The step frees a place and wakes nobody: the first row of a full queue is started, or a capacity is raised
    above the length of a full queue. -/
def silent (w : WaitlistSystem) : WaitlistAction → Bool
  | .market (.booking b (.request (.providerStartJob _)) _) => (w.market.bookings[b]?).any fun x =>
      x.inQueue x.file.booking.providerId .waiting && (w.oldest x.file.booking.providerId).isSome
        && (w.market.user x.file.booking.providerId).any fun user => user.marketplaceAccess
          && user.onlineQueueLimit == w.market.countQueue x.file.booking.providerId .waiting
  | .market (.setCapacity p limit) => (w.oldest p).isSome && (w.market.user p).any fun user =>
      user.marketplaceAccess && user.onlineQueueLimit ≤ w.market.countQueue p .waiting
        && w.market.countQueue p .waiting < limit
  | _ => false

end WaitlistSystem

section Bookings

variable {ctx : Context} {m t : Market} {p : UserId} {b : BookingId} {x x' : BookingSystem} {st : Step}
  {effects : Effects} {updatedAt : Millis} {f : BookingFile} {l : Lifecycle}

/-- A paid booking whose row waits is accepted, on hold or not. -/
theorem Encodes.waits (e : Encodes f l) {q : Queue} (queued : f.queue = some q) (waiting : q.status = .waiting) :
    f.booking.effectiveStatus = some .accepted := by
  have row := e.queue
  cases method : f.booking.paymentMethod with
  | onsiteCash => simp [method, queued, Lifecycle.queueRow] at row
  | gcash =>
      obtain ⟨q', queued', columns⟩ := e.paidColumns method
      obtain rfl := Option.some.inj (queued.symm.trans queued')
      exact columns.waiting.mp waiting

/-- Finished work is settled, and its row does not wait. -/
theorem settleCompletedBooking_unqueued {actor : SettlementActor} {c : Commit}
    (h : settleCompletedBooking ctx actor f = .ok c) (renumbers : c.recalculates = true) :
    f.booking.effectiveStatus ≠ some .accepted := by
  obtain ⟨-, -, ⟨-, rfl⟩ | ⟨allowed, disputed, -, -, _, -, rfl⟩⟩ := settleCompletedBooking_ok h
  · cases renumbers
  · unfold Booking.effectiveStatus
    cases actor with
    | seeker =>
        have status : f.booking.status = .awaitingConfirmation := by simpa [SettlementActor.allows] using allowed
        simp [status, BookingStatus.frozen]
    | admin =>
        simp only [SettlementActor.allows, Bool.or_eq_true, beq_iff_eq] at allowed
        rcases allowed with awaiting | frozen
        · simp [awaiting, BookingStatus.frozen]
        · simp [frozen, disputed rfl frozen]

/-- A step of the booking renumbers when it takes the row out of the waiting ones. -/
theorem step_leaves (step : x.step ctx st = some (x', effects)) (waiting : x.inQueue p .waiting = true) (gone : x'.inQueue p .waiting = false) : effects.recalculates = true := by
  obtain ⟨c, written, file, same⟩ := BookingSystem.step_columns step
  have next : bookingNext x (.step ctx st) = some x' := by simp [bookingNext, step]
  obtain ⟨_, event, -⟩ := BookingSystem.next_event next
  have moved := written.queueMoved
  rw [← file] at moved
  have renumbers : effects.recalculates = c.recalculates := by
    rw [same]
    rfl
  rw [renumbers]
  cases moved with
  | started _ _ _ _ _ _ _ _ recalculates => exact recalculates
  | left _ recalculates => exact recalculates
  | kept status _ =>
      have provider := congrArg (Option.map Queue.providerId) event.sameTerms.queue
      rw [Option.map_map, Option.map_map] at provider
      change x'.file.queue.map (·.providerId) = x.file.queue.map (·.providerId) at provider
      have stays : x'.inQueue p .waiting = x.inQueue p .waiting := by
        simp only [BookingSystem.inQueue]
        cases before : x.file.queue <;> cases after : x'.file.queue <;> simp_all
      rw [stays, waiting] at gone
      cases gone

/-- Only a start takes a row out of the waiting ones without waking the waitlist. -/
theorem BookingSystem.step_waits (reached : bookingMachine.Reachable x) (step : x.step ctx st = some (x', effects))
    (waiting : x.inQueue p .waiting = true) (gone : x'.inQueue p .waiting = false) :
    (∃ providerId, st = .request (.providerStartJob providerId)) ∨ x.notifiesWaitlist effects st = true := by
  have renumbers := step_leaves step waiting gone
  obtain ⟨l, e⟩ := (reachable_encodes (bookingMachine_reachableUnder reached)).file
  simp only [BookingSystem.inQueue, Option.any_eq_true, Bool.and_eq_true, beq_iff_eq] at waiting
  obtain ⟨q, queued, -, status⟩ := waiting
  have accepted := e.waits queued status
  obtain ⟨cause, -⟩ := BookingSystem.step_renumbers step renumbers
  cases st with
  | crash | refund => exact absurd cause id
  | request r =>
      cases r with
      | providerStartJob providerId => exact .inl ⟨providerId, rfl⟩
      | markJobComplete => exact .inr (by simp [BookingSystem.notifiesWaitlist, queued, renumbers])
      | confirmCompletion =>
          have finished : x.file.booking.status = .awaitingConfirmation := cause.2
          simp [Booking.effectiveStatus, finished, BookingStatus.frozen] at accepted
      | _ => exact absurd cause id
  | resume k answer =>
      obtain ⟨⟨caller, stage⟩, found, cause⟩ := cause
      right
      cases stage with
      | refundFinalize | cancelSettle =>
          simp [BookingSystem.notifiesWaitlist, found, Stage.notifiesWaitlist, renumbers]
      | settle =>
          simp only [BookingSystem.step, BookingSystem.resume, found, Option.bind_some] at step
          split at step
          · rename_i c run
            obtain ⟨-, rfl⟩ := Prod.mk.inj (Option.some.inj step)
            obtain ⟨settled, run', rfl⟩ := settleByAdmin_ok run
            exact absurd accepted (settleCompletedBooking_unqueued run' renumbers)
          · obtain ⟨-, rfl⟩ := Prod.mk.inj (Option.some.inj step)
            cases renumbers
      | _ => exact absurd cause id

/-- A start serves the row. -/
theorem BookingSystem.start_leaves {providerId : UserId}
    (step : x.step ctx (.request (.providerStartJob providerId)) = some (x', effects)) :
    x'.inQueue p .waiting = false := by
  simp only [BookingSystem.step, BookingSystem.request] at step
  split at step
  · rename_i c run
    obtain ⟨rfl, -⟩ := Prod.mk.inj (Option.some.inj step)
    obtain ⟨-, ⟨unqueued, -, -, rfl⟩ | ⟨q, -, -, -, -, -, -, rfl⟩⟩ := providerStartJob_ok run
    · simp [BookingSystem.inQueue, unqueued]
    · simp [BookingSystem.inQueue]
  · cases step

end Bookings

section Places

variable {s : MarketSystem} {m t u : Market} {p : UserId} {b : BookingId} {x x' : BookingSystem} {st : Step}
  {act : MarketAction} {next : Option PaymentCall} {updatedAt : Millis} {status : QueueStatus}

/-- What decides whether a queue is full: its waiting rows and the capacity of the provider. -/
structure PlacesKept (m t : Market) (p : UserId) : Prop where
  waiting : m.countQueue p .waiting ≤ t.countQueue p .waiting
  limit : ∀ user user', m.user p = some user → t.user p = some user' →
    user'.onlineQueueLimit = user.onlineQueueLimit

/-- A full queue stays full. -/
theorem PlacesKept.full (h : PlacesKept m t p) (full : m.queueFull p = true) : t.slotOpen p = false := by
  by_contra open_
  simp only [Bool.not_eq_false, Market.slotOpen, Market.queueFull, Option.any_eq_true, Bool.and_eq_true,
    decide_eq_true_eq] at open_ full
  obtain ⟨user, account, full⟩ := full
  obtain ⟨user', account', -, free⟩ := open_
  have same := h.limit user user' account account'
  have more := h.waiting
  omega

theorem countQueue_of_bookings (same : t.bookings = m.bookings) : t.countQueue p status = m.countQueue p status := by
  simp only [Market.countQueue, same]

theorem countQueue_renumbered (h : BookingsRenumbered m t) : t.countQueue p status = m.countQueue p status := by
  rw [countQueue_eq, countQueue_eq, entries_renumbered h]

theorem countQueue_written (found : m.bookings[b]? = some x) :
    (m.written b x').countQueue p status + (x.inQueue p status).toNat
      = m.countQueue p status + (x'.inQueue p status).toNat := by
  obtain ⟨listed, row⟩ := List.getElem?_eq_some_iff.mp found
  have here : x.inQueue p status = true → 0 < m.bookings.countP (·.inQueue p status) := by
    intro queued
    exact List.countP_pos_iff.mpr ⟨x, List.mem_of_getElem? found, queued⟩
  simp only [Market.countQueue, List.countP_set listed, row]
  cases before : x.inQueue p status with
  | false => cases x'.inQueue p status <;> simp
  | true =>
      have some_ := here before
      cases x'.inQueue p status <;> simp only [if_true, Bool.toNat_true, Bool.toNat_false, Bool.false_eq_true,
        if_false] <;> omega

/-- A created booking takes no place away. -/
theorem countQueue_created {f : BookingFile} (create : u.createBooking f = .ok t) (before : u.bookings = m.bookings) :
    m.countQueue p status ≤ t.countQueue p status := by
  obtain ⟨-, -, -, rfl⟩ := createBooking_ok create
  simp [Market.countQueue, before]

theorem PlacesKept.of_user (waiting : m.countQueue p .waiting ≤ t.countQueue p .waiting) (user : t.user = m.user) :
    PlacesKept m t p := by
  refine ⟨waiting, fun before after account account' => ?_⟩
  rw [user, account] at account'
  rw [Option.some.inj account']

theorem PlacesKept.of_eq (bookings : t.bookings = m.bookings) (user : t.user = m.user) : PlacesKept m t p :=
  .of_user (by rw [countQueue_of_bookings bookings]) user

/-- Accounts are written by steps of bookings, by changes of a capacity and by changes of an account. -/
theorem act_user (h : m.act act = some t) (own : ∀ b st updatedAt, act ≠ .booking b st updatedAt)
    (resized : ∀ p limit, act ≠ .setCapacity p limit) (other : ∀ userId user, act ≠ .updateUser userId user) :
    t.user = m.user := by
  cases act with
  | pay | resume | crash => simp [Market.act] at h
  | booking b st updatedAt => exact absurd rfl (own b st updatedAt)
  | setCapacity p limit => exact absurd rfl (resized p limit)
  | updateUser userId user => exact absurd rfl (other userId user)
  | createDirectRequest seekerId providerId serviceId quantity =>
      obtain ⟨terms, -, create⟩ := createDirectRequest_ok (toOption_some.mp h)
      obtain ⟨-, -, -, rfl⟩ := createBooking_ok create
      rfl
  | createDirectFromOffer o seekerId =>
      obtain ⟨offer, request, terms, -, -, -, -, -, -, create⟩ :=
        createDirectFromOfferService_ok (toOption_some.mp h)
      obtain ⟨-, -, -, rfl⟩ := createBooking_ok create
      exact selectOffer_user
  | submitOffer =>
      have run := toOption_some.mp h
      simp only [submitOffer, orThrow_bind_ok, check_bind_ok, pure_ok] at run
      obtain ⟨request, -, -, -, -, -, -, -, rfl⟩ := run
      rfl
  | rejectOffer =>
      have run := toOption_some.mp h
      simp only [rejectOffer, orThrow_bind_ok, check_bind_ok, pure_ok] at run
      obtain ⟨offer, -, request, -, -, -, rfl⟩ := run
      split <;> rfl
  | updateRequest =>
      have run := toOption_some.mp h
      simp only [updateServiceRequest, orThrow_bind_ok, check_bind_ok, pure_ok] at run
      obtain ⟨request, -, -, -, -, -, -, rfl⟩ := run
      rfl
  | cancelRequest =>
      have run := toOption_some.mp h
      simp only [cancelRequest, orThrow_bind_ok, check_bind_ok, pure_ok] at run
      obtain ⟨request, -, -, rfl⟩ := run
      rfl
  | publicContentAction =>
      have run := toOption_some.mp h
      simp only [applyPublicContentAction, orThrow_bind_ok, check_bind_ok, ite_ok, pure_ok] at run
      obtain ⟨request, -, -, -, ⟨-, -, rfl⟩ | ⟨-, -, rfl⟩⟩ := run <;> rfl
  | updateService =>
      simp only [Market.act] at h
      split at h
      · obtain rfl := Option.some.inj h
        rfl
      · cases h
  | _ =>
      obtain rfl := Option.some.inj h
      rfl

/-- Every step besides those of bookings and the changes of a capacity. -/
theorem act_places (h : m.act act = some t) (own : ∀ b st updatedAt, act ≠ .booking b st updatedAt)
    (resized : ∀ p limit, act ≠ .setCapacity p limit) (kept : m.keepsLimit act = true) : PlacesKept m t p := by
  have waiting : m.countQueue p .waiting ≤ t.countQueue p .waiting := by
    cases act_write h with
    | same bookings => rw [countQueue_of_bookings bookings]
    | stepped => exact absurd rfl (own _ _ _)
    | cash _ before create => exact countQueue_created create before
    | resized => exact absurd rfl (resized _ _)
  cases act with
  | updateUser userId user =>
      obtain rfl := Option.some.inj h
      refine ⟨waiting, fun before after account account' => ?_⟩
      by_cases same : p = userId
      · subst same
        simp only [Function.update_self, Option.some.injEq] at account'
        subst account'
        simp only [Market.keepsLimit, account, Option.all_some, beq_iff_eq] at kept
        exact kept.symm
      · simp only [Function.update_of_ne same] at account'
        rw [Option.some.inj (account.symm.trans account')]
  | _ => exact .of_user waiting (act_user h own resized (by simp))

theorem FinalizedOn.places {a : AttemptId} {payment : CapturedPayment} {result : Finalized}
    (h : FinalizedOn a payment m t result) : PlacesKept m t p := by
  cases h with
  | settled => exact .of_eq rfl rfl
  | refunded _ branch => exact .of_eq (branch.bookings.trans rfl) (branch.user.trans rfl)
  | @created fresh _ _ numbered _ _ paid =>
      have renumbered := recalculateQueue_renumbered paid.renumber
      refine .of_user ?_ ?_
      · rw [countQueue_of_bookings paid.bookings, countQueue_renumbered renumbered]
        exact countQueue_created paid.create rfl
      · obtain ⟨-, -, -, created⟩ := createBooking_ok paid.create
        have accounts : numbered.user = m.user := by
          rw [renumbered.tables, created]
          rfl
        rw [paid.settled, ← accounts]
        cases fresh.offerId <;> simp

theorem MarketEvent.places (h : MarketEvent s act t next) (own : ∀ b st updatedAt, act ≠ .booking b st updatedAt)
    (resized : ∀ p limit, act ≠ .setCapacity p limit) (kept : s.market.keepsLimit act = true) :
    PlacesKept s.market t p := by
  cases h with
  | called | stopped | passed | intentStored | intentSaved | refunded => exact .of_eq rfl rfl
  | @prepared _ _ params target _ _ _ run =>
      refine .of_eq (run.bookings.trans expireStale_bookings) (run.user.trans ?_)
      obtain ⟨_, _, _, frame⟩ := expireStale_frame params target s.market
      rw [frame]
  | initiationFailed => exact .of_eq (by simp [recordInitiationFailure]) (by simp [recordInitiationFailure])
  | markedFailed => exact .of_eq markAttemptFailed_bookings markAttemptFailed_user
  | expired => exact .of_eq expireCandidate_bookings expireCandidate_user
  | finalized _ _ run => exact run.places
  | acted run => exact act_places run own resized kept

end Places

section Crossings

variable {m t : Market} {p provider : UserId} {b : BookingId} {x x' : BookingSystem} {st : Step} {updatedAt : Millis}
  {effects : Effects} {limit : Nat}

/-- What the waitlist reads of an account. -/
def User.queueTerms (user : User) : Nat × Bool := (user.onlineQueueLimit, user.marketplaceAccess)

theorem slotOpen_iff : m.slotOpen p = true ↔ ∃ n, (m.user p).map User.queueTerms = some (n, true)
    ∧ m.countQueue p .waiting < n := by
  simp only [Market.slotOpen, Option.any_eq_true, Bool.and_eq_true, decide_eq_true_eq, Option.map_eq_some_iff,
    User.queueTerms, Prod.mk.injEq]
  constructor
  · rintro ⟨user, account, access, free⟩
    exact ⟨user.onlineQueueLimit, ⟨user, account, rfl, access⟩, free⟩
  · rintro ⟨n, ⟨user, account, rfl, access⟩, free⟩
    exact ⟨user, account, access, free⟩

theorem queueFull_iff : m.queueFull p = true ↔ ∃ n access, (m.user p).map User.queueTerms = some (n, access)
    ∧ n ≤ m.countQueue p .waiting := by
  simp only [Market.queueFull, Option.any_eq_true, decide_eq_true_eq, Option.map_eq_some_iff, User.queueTerms,
    Prod.mk.injEq]
  constructor
  · rintro ⟨user, account, full⟩
    exact ⟨_, _, ⟨user, account, rfl, rfl⟩, full⟩
  · rintro ⟨_, _, ⟨user, account, rfl, rfl⟩, full⟩
    exact ⟨user, account, full⟩

theorem writeEffects_queueTerms (booking : Booking) (effects : Effects) :
    ((m.writeEffects booking effects).user p).map User.queueTerms = (m.user p).map User.queueTerms := by
  rw [writeEffects_user]
  cases effects.moderation with
  | none => rfl
  | some moderation =>
      obtain ⟨userId, status⟩ := moderation
      by_cases same : p = userId
      · subst same
        simp only [Option.elim, Function.update_self, Option.map_map]
        rfl
      · simp [Function.update_of_ne same]

/-- A step of a booking moves its own row, and leaves the terms of the accounts. -/
theorem applyEffects_places (found : m.bookings[b]? = some x)
    (applied : (m.written b x').applyEffects x.file.booking effects = .ok t) :
    t.countQueue p .waiting + (x.inQueue p .waiting).toNat = m.countQueue p .waiting + (x'.inQueue p .waiting).toNat
      ∧ (t.user p).map User.queueTerms = (m.user p).map User.queueTerms := by
  have renumbered := applyEffects_renumbered applied
  obtain ⟨requests, user, frame⟩ := writeEffects_frame x.file.booking effects (m.written b x')
  constructor
  · have same : ((m.written b x').writeEffects x.file.booking effects).bookings = (m.written b x').bookings := by
      rw [frame]
    rw [countQueue_renumbered renumbered, countQueue_of_bookings same]
    exact countQueue_written found
  · have accounts : t.user = ((m.written b x').writeEffects x.file.booking effects).user := by
      rw [renumbered.tables]
    rw [accounts, writeEffects_queueTerms]

/-- The provider of a booking has its row in the queue. -/
theorem inQueue_provider (reached : bookingMachine.Reachable x) {status : QueueStatus}
    (queued : x.inQueue p status = true) : p = x.file.booking.providerId := by
  have own := BookingSystem.queuedForProvider reached
  simp only [BookingSystem.inQueue, Option.any_eq_true, Bool.and_eq_true, beq_iff_eq] at queued
  obtain ⟨q, row, provider, -⟩ := queued
  simp only [BookingFile.queuedForProvider, row, Option.all_some, beq_iff_eq] at own
  exact provider.symm.trans own

/-- A booking step that frees a place of a full queue is a start, or it wakes the waitlist. -/
theorem stepBooking_frees (reached : ∀ (i : Nat) (y : BookingSystem), m.bookings[i]? = some y → bookingMachine.Reachable y)
    (h : m.stepBooking b st updatedAt = some t) (full : m.queueFull p = true) (open_ : t.slotOpen p = true) :
    ∃ x, m.bookings[b]? = some x ∧ p = x.file.booking.providerId ∧ x.inQueue p .waiting = true
      ∧ (∃ n, (m.user p).map User.queueTerms = some (n, true) ∧ n = m.countQueue p .waiting)
      ∧ ((∃ providerId, st = .request (.providerStartJob providerId))
        ∨ m.notifiesWaitlist (.booking b st updatedAt) = some p) := by
  obtain ⟨x, x', effects, found, -, step, applied, -⟩ := stepBooking_run h
  obtain ⟨count, terms⟩ := applyEffects_places (p := p) found applied
  obtain ⟨n, access, before, full⟩ := queueFull_iff.mp full
  obtain ⟨n', after, free⟩ := slotOpen_iff.mp open_
  rw [terms, before] at after
  obtain ⟨rfl, rfl⟩ := Prod.mk.inj (Option.some.inj after)
  have fewer : (x'.inQueue p .waiting).toNat < (x.inQueue p .waiting).toNat := by omega
  obtain ⟨waiting, gone⟩ : x.inQueue p .waiting = true ∧ x'.inQueue p .waiting = false := by
    cases now : x.inQueue p .waiting <;> cases later : x'.inQueue p .waiting <;> simp [now, later] at fewer ⊢
  have own := inQueue_provider (reached b x found) waiting
  refine ⟨x, found, own, waiting, ⟨n, before, ?_⟩, ?_⟩
  · simp only [waiting, gone, Bool.toNat_true, Bool.toNat_false] at count
    omega
  · refine (BookingSystem.step_waits (reached b x found) step waiting gone).imp_right fun notifies => ?_
    simp only [Market.notifiesWaitlist, found, Option.bind_some, step, notifies, if_true, ← own]

/-- A start of the last waiting place frees it. -/
theorem stepBooking_starts {providerId : UserId}
    (h : m.stepBooking b (.request (.providerStartJob providerId)) updatedAt = some t)
    (found : m.bookings[b]? = some x) (waiting : x.inQueue p .waiting = true) {n : Nat}
    (account : (m.user p).map User.queueTerms = some (n, true)) (full : n = m.countQueue p .waiting) :
    t.slotOpen p = true := by
  obtain ⟨y, x', effects, found', -, step, applied, -⟩ := stepBooking_run h
  obtain rfl := Option.some.inj (found.symm.trans found')
  obtain ⟨count, terms⟩ := applyEffects_places (p := p) found applied
  have gone := BookingSystem.start_leaves (p := p) step
  refine slotOpen_iff.mpr ⟨n, terms.trans account, ?_⟩
  simp only [waiting, gone, Bool.toNat_true, Bool.toNat_false] at count
  omega

/-- A change of a capacity changes one account and no count. -/
theorem setCapacity_places (h : m.setProviderWorkloadCapacity provider limit = .ok t) :
    t.countQueue p .waiting = m.countQueue p .waiting ∧ ∃ user, m.user provider = some user
      ∧ t.user = Function.update m.user provider (some { user with onlineQueueLimit := limit }) := by
  simp only [Market.setProviderWorkloadCapacity, check_bind_ok, orThrow_bind_ok] at h
  obtain ⟨-, user, account, renumber⟩ := h
  have renumbered := recalculateQueue_renumbered renumber
  refine ⟨?_, user, account, ?_⟩
  · rw [countQueue_renumbered renumbered]
    exact countQueue_of_bookings rfl
  · rw [renumbered.tables]

end Crossings

section Waitlist

variable {w : WaitlistSystem} {p : UserId} {e : QueueNotify}

namespace QueueNotify

variable {a b c : QueueNotify}

theorem before_iff : a.before b = true ↔ a.requestedAt < b.requestedAt
    ∨ (a.requestedAt = b.requestedAt ∧ a.id ≤ b.id) := by
  simp [before]

theorem before_total (a b : QueueNotify) : a.before b = true ∨ b.before a = true := by
  simp only [before_iff]
  rcases Nat.lt_trichotomy a.requestedAt b.requestedAt with lt | same | gt
  · exact .inl (.inl lt)
  · exact (Nat.le_total a.id b.id).imp (fun le => .inr ⟨same, le⟩) fun le => .inr ⟨same.symm, le⟩
  · exact .inr (.inl gt)

theorem before_trans (h : a.before b = true) (h' : b.before c = true) : a.before c = true := by
  rw [before_iff] at h h' ⊢
  rcases h with lt | ⟨same, le⟩
  · rcases h' with lt' | ⟨same', -⟩
    · exact .inl (Nat.lt_trans lt lt')
    · exact .inl (same' ▸ lt)
  · rw [same]
    exact h'.imp_right fun ⟨same', le'⟩ => ⟨same', Nat.le_trans le le'⟩

theorem before_antisymm (h : a.before b = true) (h' : b.before a = true) : a.id = b.id := by
  rw [before_iff] at h h'
  rcases h with lt | ⟨same, le⟩ <;> rcases h' with lt' | ⟨same', le'⟩
  · exact absurd lt' (Nat.lt_asymm lt)
  · exact absurd same'.symm (Nat.ne_of_lt lt)
  · exact absurd same.symm (Nat.ne_of_lt lt')
  · exact Nat.le_antisymm le le'

end QueueNotify

/-- `findFirst` finds the first entry. -/
theorem oldest_first (h : w.oldest p = some e) : w.First p e := by
  have total : Std.Total fun a b : QueueNotify => a.before b = true := ⟨QueueNotify.before_total⟩
  have order : IsTrans QueueNotify fun a b => a.before b = true := ⟨fun _ _ _ => QueueNotify.before_trans⟩
  have sorted := List.pairwise_insertionSort (fun a b : QueueNotify => a.before b = true)
    (w.queueNotify.filter (w.market.waitsFor p))
  have same : ∀ e', e' ∈ (w.queueNotify.filter (w.market.waitsFor p)).insertionSort
      (fun a b : QueueNotify => a.before b = true) ↔ e' ∈ w.queueNotify ∧ w.market.waitsFor p e' = true := by
    intro e'
    rw [List.mem_insertionSort, List.mem_filter]
  obtain ⟨rest, entries⟩ := List.head?_eq_some_iff.mp h
  rw [entries] at sorted same
  obtain ⟨listed, own⟩ := (same e).mp List.mem_cons_self
  refine ⟨listed, own, fun e' listed' own' => ?_⟩
  rcases List.mem_cons.mp ((same e').mpr ⟨listed', own'⟩) with rfl | later
  · exact QueueNotify.before_iff.mpr (.inr ⟨rfl, Nat.le_refl _⟩)
  · exact List.rel_of_pairwise_cons sorted later

theorem WaitlistSystem.First.oldest (distinct : (w.queueNotify.map (·.id)).Nodup) (h : w.First p e) : w.oldest p = some e := by
  cases found : w.oldest p with
  | none =>
      have empty := List.head?_eq_none_iff.mp found
      have listed : e ∈ (w.queueNotify.filter (w.market.waitsFor p)).insertionSort fun a b => a.before b = true := by
        rw [List.mem_insertionSort, List.mem_filter]
        exact ⟨h.listed, h.own⟩
      rw [empty] at listed
      cases listed
  | some e' =>
      have first := oldest_first found
      have same := QueueNotify.before_antisymm (first.least e h.listed h.own) (h.least e' first.listed first.own)
      rw [List.inj_on_of_nodup_map distinct first.listed h.listed same]

end Waitlist

section Steps

variable {w w' : WaitlistSystem} {a : WaitlistAction} {p : UserId} {e : QueueNotify}

/-- What a step writes to the waitlist and to its notifications. -/
inductive Written (w w' : WaitlistSystem) (a : WaitlistAction) : Prop where
  | dropped (kept : w'.queueNotify.Sublist w.queueNotify)
      (gone : ∀ e ∈ w.queueNotify, e ∉ w'.queueNotify → w.Withdraws w' e a)
      (notifications : w'.notifications = w.notifications) (issued : w'.issued = w.issued)
  | joined {entry : QueueNotify} (joins : a = .joinWaitlist entry.serviceId entry.seekerId entry.id)
      (new : entry.id ∉ w.issued) (queueNotify : w'.queueNotify = w.queueNotify ++ [entry])
      (notifications : w'.notifications = w.notifications) (issued : w'.issued = w.issued ++ [entry.id])
  | woken {p : UserId} {e : QueueNotify} (open_ : w'.market.slotOpen p = true) (first : w.First p e)
      (woken : w.Woken w' e) (issued : w'.issued = w.issued)

/-- The entries stay. -/
theorem Written.kept (queueNotify : w'.queueNotify = w.queueNotify) (notifications : w'.notifications = w.notifications)
    (issued : w'.issued = w.issued) : Written w w' a :=
  .dropped (queueNotify ▸ List.Sublist.refl _) (fun _ listed gone => absurd (queueNotify ▸ listed) gone) notifications
    issued

theorem notifyWaitlistInTransaction_cases (w : WaitlistSystem) (p : UserId) :
    (w.notifyWaitlistInTransaction p = w ∧ ∀ e, w.market.slotOpen p = true → w.oldest p ≠ some e)
      ∨ ∃ e, w.market.slotOpen p = true ∧ w.oldest p = some e ∧ w.notifyWaitlistInTransaction p = { w with
        notifications := w.notifications ++ [e.notification]
        queueNotify := w.queueNotify.filter (·.id != e.id) } := by
  unfold WaitlistSystem.notifyWaitlistInTransaction
  by_cases open_ : w.market.slotOpen p = true
  · rw [if_pos open_]
    cases found : w.oldest p with
    | none => exact .inl ⟨rfl, by simp⟩
    | some e => exact .inr ⟨e, open_, rfl, rfl⟩
  · rw [if_neg open_]
    exact .inl ⟨rfl, fun e now => absurd now open_⟩

section Booking

variable {b : BookingId} {st : Step} {updatedAt : Millis} {system : MarketSystem}

/-- The listings are those before the step. -/
theorem stepBooking_oldest (h : w.system.step (.booking b st updatedAt) = some system) :
    ({ w with system } : WaitlistSystem).oldest p = w.oldest p := by
  obtain ⟨t, run, rfl⟩ := Option.map_eq_some_iff.mp h
  obtain ⟨x, x', stepped⟩ := stepBooking_ok run
  obtain ⟨requests, user, bookings, rfl⟩ := stepped.tables
  rfl

theorem commit_quiet (quiet : w.market.notifiesWaitlist (.booking b st updatedAt) = none) :
    w.commit (.booking b st updatedAt) system = { w with system } := by
  simp only [WaitlistSystem.commit, quiet, Market.captured, Option.elim]

theorem commit_notifies (notifies : w.market.notifiesWaitlist (.booking b st updatedAt) = some p) :
    w.commit (.booking b st updatedAt) system = ({ w with system } : WaitlistSystem).notifyWaitlistInTransaction p := by
  simp only [WaitlistSystem.commit, notifies, Market.captured, Option.elim]

theorem booking_written (h : w.system.step (.booking b st updatedAt) = some system) :
    Written w (w.commit (.booking b st updatedAt) system) (.market (.booking b st updatedAt)) := by
  cases notifies : w.market.notifiesWaitlist (.booking b st updatedAt) with
  | none =>
      rw [commit_quiet notifies]
      exact .kept rfl rfl rfl
  | some p =>
      rw [commit_notifies notifies]
      obtain ⟨same, -⟩ | ⟨e, open_, oldest, same⟩ :=
        notifyWaitlistInTransaction_cases ({ w with system } : WaitlistSystem) p
      · rw [same]
        exact .kept rfl rfl rfl
      · rw [same]
        rw [stepBooking_oldest h] at oldest
        exact .woken open_ (oldest_first oldest) ⟨rfl, rfl⟩ rfl

end Booking

/-- The booking that a payment call creates is a paid one. -/
theorem MarketEvent.captured_paid {s : MarketSystem} {t : Market} {k : Nat} {reply : Reply} {next : Option PaymentCall}
    {x : BookingSystem} (h : MarketEvent s (.resume k reply) t next)
    (created : t.bookings[s.market.bookings.length]? = some x) : x.file.booking.paymentMethod = .gcash := by
  have beyond (same : t.bookings = s.market.bookings) : x.file.booking.paymentMethod = .gcash := by
    simp [same] at created
  cases h with
  | passed | intentStored | intentSaved | refunded | stopped => exact beyond rfl
  | prepared _ run => exact beyond (run.bookings.trans expireStale_bookings)
  | initiationFailed => exact beyond (by simp [recordInitiationFailure])
  | markedFailed => exact beyond markAttemptFailed_bookings
  | expired => exact beyond expireCandidate_bookings
  | acted run => simp [Market.act] at run
  | finalized _ _ run =>
      cases run with
      | settled => exact beyond rfl
      | refunded _ branch => exact beyond (branch.bookings.trans rfl)
      | created _ _ paid =>
          obtain ⟨y, old, -⟩ | ⟨-, position, run⟩ := paid.booking_row created
          · have old : s.market.bookings[s.market.bookings.length]? = some y := old
            simp at old
          · exact run.column (fun x => x.file.booking.paymentMethod) fun _ _ _ _ => rfl

/-- A transaction besides those of bookings at most deletes the entries of the seeker who has paid. -/
theorem commit_written {act : MarketAction} {system : MarketSystem} (h : w.system.step act = some system)
    (own : ∀ b st updatedAt, act ≠ .booking b st updatedAt) : Written w (w.commit act system) (.market act) := by
  have unwoken : w.market.notifiesWaitlist act = none := by
    cases act with
    | booking b st updatedAt => exact absurd rfl (own b st updatedAt)
    | _ => rfl
  have committed : w.commit act system
      = { (w.market.captured system.market act).elim w w.consume with system } := by
    simp only [WaitlistSystem.commit, unwoken, Option.elim]
  cases captured : w.market.captured system.market act with
  | none =>
      rw [committed, captured]
      exact .kept rfl rfl rfl
  | some booking =>
      rw [committed, captured]
      refine .dropped List.filter_sublist (fun e listed gone => ?_) rfl rfl
      cases act with
      | resume k reply =>
          obtain ⟨x, created, rfl⟩ := Option.map_eq_some_iff.mp captured
          obtain ⟨next, event, -⟩ := MarketSystem.step_event h
          have settled : w.market.waitsFor x.file.booking.providerId e = true ∧ e.seekerId = x.file.booking.seekerId := by
            simpa [WaitlistSystem.consume, listed] using gone
          exact .booked created (event.captured_paid created) settled.2.symm settled.1
      | _ => cases captured

theorem joinWaitlist_ok {serviceId : ServiceId} {seekerId : UserId} {id : Nat}
    (h : w.joinWaitlist serviceId seekerId id = .ok w') : ∃ requestedAt, w' = { w with
      queueNotify := w.queueNotify ++ [⟨id, serviceId, seekerId, requestedAt⟩], issued := w.issued ++ [id] } := by
  simp only [WaitlistSystem.joinWaitlist, orThrow_bind_ok, check_bind_ok, pure_ok] at h
  obtain ⟨service, -, -, -, -, -, -, -, rfl⟩ := h
  exact ⟨w.market.now, rfl⟩

theorem deleteService_ok {serviceId : ServiceId} (h : w.deleteService serviceId = some w') :
    w'.queueNotify = w.queueNotify.filter (·.serviceId != serviceId) ∧ w'.notifications = w.notifications
      ∧ w'.issued = w.issued ∧ ∃ service, w.system.step (.updateService serviceId service) = some w'.system := by
  obtain ⟨service, found, rfl⟩ := Option.map_eq_some_iff.mp h
  refine ⟨rfl, rfl, rfl, { service with status := .deleted, isAvailable := false }, ?_⟩
  simp [MarketSystem.step, Market.act, found]

theorem WaitlistSystem.step_written (h : w.step a = some w') : Written w w' a := by
  cases a with
  | market act =>
      simp only [WaitlistSystem.step] at h
      split at h
      · obtain ⟨system, step, rfl⟩ := Option.map_eq_some_iff.mp h
        cases act with
        | booking b st updatedAt => exact booking_written step
        | _ => exact commit_written step (by simp)
      · cases h
  | joinWaitlist serviceId seekerId id =>
      simp only [WaitlistSystem.step] at h
      split at h
      · cases h
      · rename_i new
        obtain ⟨requestedAt, rfl⟩ := joinWaitlist_ok (toOption_some.mp h)
        exact @Written.joined _ _ _ ⟨id, serviceId, seekerId, requestedAt⟩ rfl new rfl rfl rfl
  | deleteService serviceId =>
      obtain ⟨queueNotify, notifications, issued, -⟩ := deleteService_ok h
      refine .dropped (queueNotify ▸ List.filter_sublist) (fun e listed gone => ?_) notifications issued
      rw [queueNotify] at gone
      obtain rfl : e.serviceId = serviceId := by simpa [listed] using gone
      exact .deleted

/-- Every entry is answered at most once, and no longer listed when it is. -/
structure AnsweredOnce (w : WaitlistSystem) : Prop where
  distinct : (w.queueNotify.map (·.id)).Nodup
  issued : ∀ e ∈ w.queueNotify, e.id ∈ w.issued
  once : (w.notifications.map (·.entry)).Nodup
  answered : ∀ n ∈ w.notifications, n.entry ∈ w.issued ∧ ∀ e ∈ w.queueNotify, e.id ≠ n.entry

theorem AnsweredOnce.written (h : AnsweredOnce w) (written : Written w w' a) : AnsweredOnce w' := by
  cases written with
  | dropped kept _ notifications issued =>
      refine ⟨h.distinct.sublist (kept.map _), ?_, ?_, ?_⟩
      · rw [issued]
        exact fun e listed => h.issued e (kept.subset listed)
      · rw [notifications]
        exact h.once
      · rw [notifications, issued]
        exact fun n listed => (h.answered n listed).imp_right fun gone e waits => gone e (kept.subset waits)
  | @joined entry _ new queueNotify notifications issued =>
      refine ⟨?_, ?_, ?_, ?_⟩
      · rw [queueNotify, List.map_append, List.nodup_append]
        refine ⟨h.distinct, List.nodup_singleton _, fun id old id' last same => ?_⟩
        obtain ⟨e, listed, rfl⟩ := List.mem_map.mp old
        rw [List.mem_singleton.mp last] at same
        have used := h.issued e listed
        rw [same] at used
        exact new used
      · rw [queueNotify, issued]
        intro e listed
        rcases List.mem_append.mp listed with old | last
        · exact List.mem_append_left _ (h.issued e old)
        · rw [List.mem_singleton.mp last]
          exact List.mem_append_right _ List.mem_cons_self
      · rw [notifications]
        exact h.once
      · rw [notifications, issued, queueNotify]
        intro n listed
        obtain ⟨old, gone⟩ := h.answered n listed
        refine ⟨List.mem_append_left _ old, fun e waits => ?_⟩
        rcases List.mem_append.mp waits with before | last
        · exact gone e before
        · rw [List.mem_singleton.mp last]
          intro same
          rw [← same] at old
          exact new old
  | @woken p e _ first woken issued =>
      have kept : w'.queueNotify.Sublist w.queueNotify := by
        rw [woken.consumed]
        exact List.filter_sublist
      refine ⟨h.distinct.sublist (kept.map _), ?_, ?_, ?_⟩
      · rw [issued]
        exact fun e listed => h.issued e (kept.subset listed)
      · rw [woken.notified, List.map_append, List.nodup_append]
        refine ⟨h.once, List.nodup_singleton _, fun id old id' last same => ?_⟩
        obtain ⟨n, listed, rfl⟩ := List.mem_map.mp old
        obtain rfl := List.mem_singleton.mp last
        exact (h.answered n listed).2 e first.listed same.symm
      · rw [woken.notified, issued]
        intro n listed
        rcases List.mem_append.mp listed with old | last
        · exact (h.answered n old).imp_right fun gone e' waits => gone e' (kept.subset waits)
        · obtain rfl := List.mem_singleton.mp last
          refine ⟨h.issued e first.listed, fun e' waits => ?_⟩
          rw [woken.consumed] at waits
          have other := (List.mem_filter.mp waits).2
          simpa [QueueNotify.notification] using other

theorem answered_once (h : waitlistMachine.Reachable w) : AnsweredOnce w := by
  refine h.invariant ?_ fun w a w' known step => known.written (WaitlistSystem.step_written step)
  rintro w ⟨-, entries, notifications, -⟩
  constructor <;> simp [entries, notifications]

@[simp] theorem notifyWaitlistInTransaction_system : (w.notifyWaitlistInTransaction p).system = w.system := by
  obtain ⟨same, -⟩ | ⟨e, -, -, same⟩ := notifyWaitlistInTransaction_cases w p <;> rw [same]

@[simp] theorem commit_system {act : MarketAction} {system : MarketSystem} : (w.commit act system).system = system := by
  simp only [WaitlistSystem.commit]
  cases w.market.notifiesWaitlist act <;> simp

theorem market_step {act : MarketAction} (h : w.step (.market act) = some w') :
    w.market.keepsLimit act = true ∧ w.system.step act = some w'.system ∧ w' = w.commit act w'.system := by
  simp only [WaitlistSystem.step] at h
  split at h
  · rename_i kept
    obtain ⟨system, next, rfl⟩ := Option.map_eq_some_iff.mp h
    simp [kept, next]
  · cases h

/-- The marketplace under the waitlist is one of its own runs. -/
theorem waitlist_market (h : waitlistMachine.Reachable w) : marketMachine.Reachable w.system := by
  refine h.invariant (I := fun w => marketMachine.Reachable w.system) ?_ ?_
  · rintro w ⟨start, -⟩
    exact .start start
  intro w a w' reached step
  cases a with
  | market act => exact reached.next trivial (market_step step).2.1
  | joinWaitlist serviceId seekerId id =>
      simp only [waitlistMachine, WaitlistSystem.step] at step
      split at step
      · cases step
      · obtain ⟨_, rfl⟩ := joinWaitlist_ok (toOption_some.mp step)
        exact reached
  | deleteService serviceId =>
      obtain ⟨-, -, -, service, next⟩ := deleteService_ok step
      have step : marketMachine.next w.system (.updateService serviceId service) = some w'.system := next
      exact reached.next trivial step

end Steps

section Silence

variable {w w' : WaitlistSystem} {a : WaitlistAction} {p : UserId} {e : QueueNotify}

theorem WaitlistSystem.Woken.ne (h : w.Woken w' e) : w'.notifications ≠ w.notifications := by
  rw [h.notified]
  simp

/-- A queue that keeps its rows and its capacity frees no place. -/
theorem WaitlistSystem.WakesFirst.of_places (h : ∀ p, PlacesKept w.market w'.market p) : w.WakesFirst w' := by
  intro p e full open_
  rw [(h p).full full] at open_
  cases open_

theorem not_silent_of_wakes (h : w.step a = some w') (wakes : w.WakesFirst w') : w.silent a = false := by
  by_contra silent
  rw [Bool.not_eq_false] at silent
  unfold WaitlistSystem.silent at silent
  split at silent
  · rename_i b providerId updatedAt
    obtain ⟨x, found, silent⟩ := (Option.any_eq_true _ _).mp silent
    simp only [Bool.and_eq_true, Option.any_eq_true, Option.isSome_iff_exists, beq_iff_eq] at silent
    obtain ⟨⟨waiting, e, oldest⟩, user, account, access, limit⟩ := silent
    obtain ⟨-, step, committed⟩ := market_step h
    obtain ⟨t, run, system⟩ := Option.map_eq_some_iff.mp step
    have terms : (w.market.user x.file.booking.providerId).map User.queueTerms
        = some (user.onlineQueueLimit, true) := by
      simp [account, User.queueTerms, access]
    have full : w.market.queueFull x.file.booking.providerId = true :=
      queueFull_iff.mpr ⟨_, _, terms, Nat.le_of_eq limit⟩
    have open_ : w'.market.slotOpen x.file.booking.providerId = true := by
      rw [WaitlistSystem.market, ← system]
      exact stepBooking_starts run found waiting terms limit
    have quiet : w.market.notifiesWaitlist (.booking b (.request (.providerStartJob providerId)) updatedAt) = none := by
      simp [Market.notifiesWaitlist, found, BookingSystem.notifiesWaitlist]
    rw [commit_quiet quiet] at committed
    refine (wakes _ e full open_ (oldest_first oldest)).ne ?_
    rw [committed]
  · rename_i p limit
    simp only [Bool.and_eq_true, Option.any_eq_true, Option.isSome_iff_exists, decide_eq_true_eq] at silent
    obtain ⟨⟨e, oldest⟩, user, account, ⟨access, full⟩, free⟩ := silent
    obtain ⟨-, step, committed⟩ := market_step h
    obtain ⟨t, run, system⟩ := Option.map_eq_some_iff.mp step
    obtain ⟨count, user', account', accounts⟩ := setCapacity_places (p := p) (toOption_some.mp run)
    obtain rfl := Option.some.inj (account.symm.trans account')
    have full : w.market.queueFull p = true := by
      simpa only [Market.queueFull, account, Option.any_some, decide_eq_true_eq] using full
    have open_ : w'.market.slotOpen p = true := by
      rw [WaitlistSystem.market, ← system]
      simpa only [Market.slotOpen, accounts, Function.update_self, Option.any_some, count, access, Bool.true_and,
        decide_eq_true_eq] using free
    refine (wakes p e full open_ (oldest_first oldest)).ne ?_
    rw [committed]
    rfl
  · cases silent

theorem wakes_of_not_silent (reached : waitlistMachine.Reachable w) (h : w.step a = some w')
    (heard : w.silent a = false) : w.WakesFirst w' := by
  have distinct := (answered_once reached).distinct
  cases a with
  | joinWaitlist serviceId seekerId id =>
      simp only [WaitlistSystem.step] at h
      split at h
      · cases h
      · obtain ⟨_, rfl⟩ := joinWaitlist_ok (toOption_some.mp h)
        exact .of_places fun p => .of_eq rfl rfl
  | deleteService serviceId =>
      obtain ⟨service, -, rfl⟩ := Option.map_eq_some_iff.mp h
      exact .of_places fun p => .of_eq rfl rfl
  | market act =>
      obtain ⟨kept, step, committed⟩ := market_step h
      cases act with
      | booking b st updatedAt =>
          obtain ⟨t, run, system⟩ := Option.map_eq_some_iff.mp step
          intro p e full open_ first
          have oldest := first.oldest distinct
          have rows := fun (i : Nat) (x : BookingSystem) => booking_reachable (waitlist_market reached) (b := i) (x := x)
          rw [WaitlistSystem.market, ← system] at open_
          obtain ⟨x, found, rfl, waiting, ⟨n, terms, limit⟩, ⟨providerId, rfl⟩ | notifies⟩ :=
            stepBooking_frees rows run full open_
          · obtain ⟨user, account, same⟩ := Option.map_eq_some_iff.mp terms
            obtain ⟨rfl, access⟩ := Prod.mk.inj same
            simp [WaitlistSystem.silent, found, waiting, oldest, account, access, limit] at heard
          · rw [commit_notifies notifies] at committed
            have oldest' := (stepBooking_oldest (p := x.file.booking.providerId) step).trans oldest
            obtain ⟨-, unwoken⟩ | ⟨e', -, found', woken⟩ :=
              notifyWaitlistInTransaction_cases ({ w with system := w'.system } : WaitlistSystem) x.file.booking.providerId
            · refine absurd oldest' (unwoken e ?_)
              rw [WaitlistSystem.market, ← system]
              exact open_
            · obtain rfl := Option.some.inj (oldest'.symm.trans found')
              rw [committed, woken]
              exact ⟨rfl, rfl⟩
      | setCapacity provider limit =>
          obtain ⟨t, run, system⟩ := Option.map_eq_some_iff.mp step
          obtain ⟨-, user, account, accounts⟩ := setCapacity_places (p := provider) (toOption_some.mp run)
          have counts := fun p => (setCapacity_places (p := p) (toOption_some.mp run)).1
          intro p e full open_ first
          have oldest := first.oldest distinct
          rw [WaitlistSystem.market, ← system] at open_
          by_cases same : p = provider
          · subst same
            simp only [Market.queueFull, account, Option.any_some, decide_eq_true_eq] at full
            simp only [Market.slotOpen, accounts, Function.update_self, Option.any_some, counts, Bool.and_eq_true,
              decide_eq_true_eq] at open_
            simp [WaitlistSystem.silent, oldest, account, open_.1, full, open_.2] at heard
          · have kept : PlacesKept w.market t p := by
              refine ⟨Nat.le_of_eq (counts p).symm, fun before after account account' => ?_⟩
              rw [accounts, Function.update_of_ne same] at account'
              rw [Option.some.inj (account.symm.trans account')]
            rw [kept.full full] at open_
            cases open_
      | _ =>
          obtain ⟨next, event, -⟩ := MarketSystem.step_event step
          exact .of_places fun p => event.places (by simp) (by simp) kept

theorem Written.listed (h : Written w w' a) (listed : e ∈ w'.queueNotify) :
    e ∈ w.queueNotify ∨ a = .joinWaitlist e.serviceId e.seekerId e.id := by
  cases h with
  | dropped kept => exact .inl (kept.subset listed)
  | joined joins _ queueNotify =>
      rw [queueNotify] at listed
      rcases List.mem_append.mp listed with old | last
      · exact .inl old
      · obtain rfl := List.mem_singleton.mp last
        exact .inr joins
  | woken _ _ woken =>
      rw [woken.consumed] at listed
      exact .inl (List.mem_filter.mp listed).1

/-- An entry that a step removes is answered or withdrawn. -/
theorem Written.gone (h : Written w w' a) (distinct : (w.queueNotify.map (·.id)).Nodup) (listed : e ∈ w.queueNotify)
    (gone : e ∉ w'.queueNotify) :
    w.Withdraws w' e a ∨ ∃ p, w'.market.slotOpen p = true ∧ w.First p e ∧ w.Woken w' e := by
  cases h with
  | dropped _ withdrawn => exact .inl (withdrawn e listed gone)
  | joined _ _ queueNotify => exact absurd (queueNotify ▸ List.mem_append_left _ listed) gone
  | @woken p first_ open_ first woken =>
      rw [woken.consumed] at gone
      have same : e.id = first_.id := by simpa [listed] using gone
      obtain rfl := List.inj_on_of_nodup_map distinct listed first.listed same
      exact .inr ⟨p, open_, first, woken⟩

/-- An entry waits for one provider, whose queue has a place when the entry is answered. -/
theorem WaitlistSystem.First.not_full (first : w.First p e) (open_ : w'.market.slotOpen p = true) {q : UserId}
    (own : w.market.waitsFor q e = true) : w'.market.queueFull q = false := by
  obtain ⟨service, found, mine⟩ := (Option.any_eq_true _ _).mp first.own
  obtain ⟨service', found', own⟩ := (Option.any_eq_true _ _).mp own
  obtain rfl := Option.some.inj (found.symm.trans found')
  rw [beq_iff_eq] at mine own
  obtain rfl := mine.symm.trans own
  by_contra full
  rw [Bool.not_eq_false] at full
  have closed := (PlacesKept.of_eq (m := w'.market) (p := p) rfl rfl).full full
  rw [open_] at closed
  cases closed

/-- In every run an entry is answered by at most one notification. It leaves the waitlist when it is answered, as the
    first one, in a transaction that leaves a place, or when its seeker pays for a booking or its listing is deleted;
    an answer consumes no entry of a full queue. A step that frees a place of a full queue wakes the first of the
    waitlist exactly when it is not silent, so the runs that wake everyone are those without a silent step. -/
theorem waitlist_woken (h : waitlistMachine.Reachable w) :
    (w.notifications.map (·.entry)).Nodup
      ∧ (∀ n ∈ w.notifications, ∀ e ∈ w.queueNotify, e.id ≠ n.entry)
      ∧ (∀ a w', waitlistMachine.next w a = some w' →
        (∀ e ∈ w'.queueNotify, e ∈ w.queueNotify ∨ a = .joinWaitlist e.serviceId e.seekerId e.id)
          ∧ (∀ e ∈ w.queueNotify, e ∉ w'.queueNotify → w.Withdraws w' e a
            ∨ ∃ p, w'.market.slotOpen p = true ∧ w.First p e ∧ w.Woken w' e)
          ∧ (∀ p, w'.market.queueFull p = true → ∀ e ∈ w.queueNotify, w.market.waitsFor p e = true →
            e ∈ w'.queueNotify ∨ w.Withdraws w' e a)
          ∧ (w'.notifications = w.notifications
            ∨ ∃ p e, w'.market.slotOpen p = true ∧ w.First p e ∧ w.Woken w' e)
          ∧ (w.WakesFirst w' ↔ w.silent a = false))
      ∧ (waitlistMachine.ReachableUnder (fun w a => w.silent a = false) w ↔ waitlistMachine.ReachableUnder
        (fun w a => ∀ w', waitlistMachine.next w a = some w' → w.WakesFirst w') w) := by
  have once := answered_once h
  refine ⟨once.once, fun n listed => (once.answered n listed).2, fun a w' next => ?_, ?_, ?_⟩
  · have written := WaitlistSystem.step_written next
    have leaves := fun e listed => written.gone (e := e) once.distinct listed
    refine ⟨fun e listed => ?_, leaves, fun p full e listed own => ?_, ?_, not_silent_of_wakes next,
      wakes_of_not_silent h next⟩
    · exact written.listed listed
    · by_cases stays : e ∈ w'.queueNotify
      · exact .inl stays
      · rcases leaves e listed stays with withdrawn | ⟨q, open_, first, -⟩
        · exact .inr withdrawn
        · rw [first.not_full open_ own] at full
          cases full
    · cases written with
      | dropped _ _ notifications => exact .inl notifications
      | joined _ _ _ notifications => exact .inl notifications
      | woken open_ first woken => exact .inr ⟨_, _, open_, first, woken⟩
  · intro heard
    exact heard.strengthen fun w a w' reached _ heard w'' next => wakes_of_not_silent reached next heard
  · intro woken
    exact woken.strengthen fun w a w' _ next wakes => not_silent_of_wakes next (wakes w' next)

end Silence

/-! ### Sample runs -/

def sampleWaitlist : WaitlistSystem := { system := sampleMarket }

theorem sampleWaitlist_initial : waitlistMachine.initial sampleWaitlist := ⟨sampleMarket_initial, rfl, rfl, rfl⟩

/-- Provider 2 takes one paid booking at a time; seeker 1 has it, and seeker 3 joins the waitlist. -/
def sampleWaiting : List WaitlistAction :=
  .market (.setCapacity 2 1) :: samplePurchase.map .market ++ [.joinWaitlist 1 3 0]

/-- Seeker 1 cancels, up to the transaction that records the refund. -/
def sampleRefunding : List WaitlistAction :=
  sampleWaiting ++ WaitlistAction.market (.booking 0 (.request (.requestCancellation 1)) 0)
    :: [Answer.none, .none, .none, .none, .intent ⟨true, some 0, 50000⟩, .none, .refunded sampleRefund].map
      fun answer => WaitlistAction.market (.booking 0 (.resume 0 answer) 0)

theorem waitlist_woken_refund : ∃ w w', waitlistMachine.exec sampleWaitlist sampleRefunding = some w
    ∧ waitlistMachine.next w (.market (.booking 0 (.resume 0 .none) 0)) = some w'
    ∧ w.Woken w' ⟨0, 1, 3, 1000⟩ := by
  obtain ⟨w, run, oldest, full, next⟩ := sample_any (o := waitlistMachine.exec sampleWaitlist sampleRefunding)
    (p := fun w => w.oldest 2 = some ⟨0, 1, 3, 1000⟩ ∧ w.market.queueFull 2 = true
      ∧ (waitlistMachine.next w (.market (.booking 0 (.resume 0 .none) 0))).any
        (fun w' => w'.market.slotOpen 2) = true) (by decide)
  obtain ⟨w', next, open_⟩ := (Option.any_eq_true _ _).mp next
  have woken := waitlist_woken (.of_exec sampleWaitlist_initial run)
  exact ⟨w, w', run, next, (woken.2.2.1 _ w' next).2.2.2.2.mpr rfl 2 _ full open_ (oldest_first oldest)⟩

/-- A start and a larger capacity free a place of the full queue, and the entry of seeker 3 stays. -/
theorem waitlist_not_woken : ∃ w, waitlistMachine.Reachable w ∧ w.First 2 ⟨0, 1, 3, 1000⟩
    ∧ w.market.queueFull 2 = true
    ∧ ∀ a, a = .market (.booking 0 (.request (.providerStartJob 2)) 0) ∨ a = .market (.setCapacity 2 2) →
      ∃ w', waitlistMachine.next w a = some w' ∧ w'.market.slotOpen 2 = true
        ∧ ¬ w.WakesFirst w' ∧ w'.queueNotify = w.queueNotify ∧ w'.notifications = w.notifications := by
  obtain ⟨w, run, oldest, full, started, resized⟩ := sample_any (o := waitlistMachine.exec sampleWaitlist sampleWaiting)
    (p := fun w => w.oldest 2 = some ⟨0, 1, 3, 1000⟩ ∧ w.market.queueFull 2 = true
      ∧ (waitlistMachine.next w (.market (.booking 0 (.request (.providerStartJob 2)) 0))).any (fun w' =>
        w'.market.slotOpen 2 && w'.queueNotify == w.queueNotify && w'.notifications == w.notifications) = true
      ∧ (waitlistMachine.next w (.market (.setCapacity 2 2))).any (fun w' =>
        w'.market.slotOpen 2 && w'.queueNotify == w.queueNotify && w'.notifications == w.notifications) = true)
    (by decide)
  have first := oldest_first oldest
  refine ⟨w, .of_exec sampleWaitlist_initial run, first, full, fun a either => ?_⟩
  have silent : (waitlistMachine.next w a).any (fun w' =>
      w'.market.slotOpen 2 && w'.queueNotify == w.queueNotify && w'.notifications == w.notifications) = true := by
    rcases either with rfl | rfl
    · exact started
    · exact resized
  obtain ⟨w', next, same⟩ := (Option.any_eq_true _ _).mp silent
  simp only [Bool.and_eq_true, beq_iff_eq] at same
  obtain ⟨⟨open_, entries⟩, notifications⟩ := same
  exact ⟨w', next, open_, fun wakes => (wakes 2 _ full open_ first).ne notifications, entries, notifications⟩

end ServiceHub
