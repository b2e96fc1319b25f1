import ServiceHub.Account.Moderation
import ServiceHub.Booking.Suspension
import ServiceHub.Market.Starts

/-! # Suspended providers and unstarted work

Three ways lead to a suspension: `suspendUser`, a content case and a report decision. The last two count the provider's
unstarted bookings under the lock of the account and write the suspension later in the same transaction. A new booking
takes that lock and needs an eligible provider; a decision that lifts a hold looks at neither.
-/

namespace ServiceHub

open Guard

namespace Market

def Suspended (m : Market) (userId : UserId) : Prop :=
  (m.user userId).any (·.moderationStatus == .suspended) = true

/-- No booking of the account blocks its suspension. -/
def Unbooked (m : Market) (userId : UserId) : Prop :=
  ∀ x ∈ m.bookings, x.file.booking.blocksSuspension userId = false

/-- What the moderation of accounts reads. -/
def moderationTables (m : Market) : ModerationTables where
  user userId := (m.user userId).map fun user => {
    role := user.role, isActive := user.isActive, deactivatedAt := user.deactivatedAt
    moderationStatus := user.moderationStatus }

/-- The columns that `suspendUser` writes. -/
def writeModeration (m : Market) (userId : UserId) (tables : ModerationTables) : Market :=
  { m with
    user := Function.update m.user userId ((m.user userId).bind fun user => (tables.user userId).map fun account =>
      { user with isActive := account.isActive, moderationStatus := account.moderationStatus }) }

/-- The column that a penalty writes. -/
def suspend (m : Market) (userId : UserId) : Market :=
  { m with user := Function.update m.user userId ((m.user userId).map ({ · with moderationStatus := .suspended })) }

/-- A transaction of the booking that has read the context. -/
def stepIn (ctx : Context) (b : BookingId) (x : BookingSystem) (st : Step) (m : Market) : Option Market :=
  (x.step ctx st).bind fun (x', effects) =>
    if m.queueRowFree b x' then
      ({ m with bookings := m.bookings.set b x' }.applyEffects x.file.booking effects).toOption
    else none

/-- Suspensions have steps of their own. -/
def writesSuspension (m : Market) : MarketAction → Bool
  | .updateUser userId user => user.moderationStatus == .suspended
      && !(m.user userId).any (·.moderationStatus == .suspended)
  | _ => false

end Market

/-- A transaction that has counted the unstarted bookings of an account and goes on to suspend it. It holds the lock of
    the account, and a report decision that of its booking. -/
structure PendingSuspension where
  userId : UserId
  /-- The account as the transaction has read it. -/
  account : Option User
  /-- The report decision; a content case has none. -/
  decision : Option (BookingId × Call)

structure SuspensionSystem where
  system : MarketSystem
  pending : List PendingSuspension := []

/-- The reported account of a report decision. -/
def Call.reported (c : Call) (f : BookingFile) : Option UserId :=
  match c.caller with
  | .resolveAdminReport id _ _ _ => (f.findReport id).map (·.reportedUserId)
  | _ => none

namespace SuspensionSystem

variable (s : SuspensionSystem)

abbrev market : Market := s.system.market

/-- The lock of the account is taken. -/
def locked (userId : UserId) : Bool := s.pending.any (·.userId == userId)

/-- The transaction creates a booking and waits for the lock of its provider. -/
def waits (t : MarketSystem) : Bool :=
  (t.market.bookings.drop s.market.bookings.length).any fun x => s.locked x.file.booking.providerId

/-- `checkReportPenalty` in the last transaction of a report decision, with the count. -/
def countReport (b : BookingId) (k : Nat) : Option SuspensionSystem :=
  (s.market.bookings[b]?).bind fun x => (x.calls[k]?).bind fun call => (call.reported x.file).bind fun userId =>
    if call.stage = .finalize ∧ call.suspends x.file userId (s.market.user userId) = true ∧ s.locked userId = false
        ∧ s.market.bookings.countP (·.file.booking.blocksSuspension userId) = 0 then
      some { s with pending := s.pending ++ [⟨userId, s.market.user userId, some (b, call)⟩] }
    else none

/-- The checks of the penalty in `decideWorkspaceCase`, with the count. -/
def countContent (adminId ownerId : UserId) : Option SuspensionSystem :=
  if s.locked ownerId then none
  else (s.market.moderationTables.penalizeContentOwner s.market.now adminId ownerId .suspend "" 7
      (s.market.bookings.countP (·.file.booking.blocksSuspension ownerId)) .active).toOption.map fun _ =>
    { s with pending := s.pending ++ [⟨ownerId, s.market.user ownerId, none⟩] }

/-- The rest of the transaction of a report decision, which counts no more. -/
def suspendReported (i k : Nat) (updatedAt : Millis) : Option SuspensionSystem :=
  (s.pending[i]?).bind fun p => p.decision.bind fun (b, call) => (s.market.bookings[b]?).bind fun x =>
    if x.calls[k]? = some call ∧ call.suspends x.file p.userId p.account = true then
      let ctx := { s.market.context b x updatedAt with
        user := Function.update s.market.user p.userId p.account, unstartedElsewhere := fun _ => 0 }
      (s.market.stepIn ctx b x (.resume k .none)).map fun market =>
        { system := { s.system with market }, pending := s.pending.eraseIdx i }
    else none

/-- The write of a content case. -/
def suspendContentOwner (i : Nat) : Option SuspensionSystem :=
  (s.pending[i]?).bind fun p => match p.decision with
    | some _ => none
    | none => some {
        system := { s.system with market := s.market.suspend p.userId }, pending := s.pending.eraseIdx i }

def suspendUser (adminId targetId : UserId) (reason : String) (durationDays : Nat) : Option SuspensionSystem :=
  if s.locked targetId then none
  else (s.market.moderationTables.suspendUser s.market.now adminId targetId reason durationDays).toOption.map
    fun tables => { s with system := { s.system with market := s.market.writeModeration targetId tables } }

end SuspensionSystem

inductive SuspensionAction where
  /-- A step of the marketplace; a transaction among them is one that no other one divides. -/
  | market (a : MarketAction)
  | suspendUser (adminId targetId : UserId) (reason : String) (durationDays : Nat)
  | countReport (b : BookingId) (k : Nat)
  | suspendReported (i k : Nat) (updatedAt : Millis)
  | countContent (adminId ownerId : UserId)
  | suspendContentOwner (i : Nat)
  | rollback (i : Nat)

def SuspensionSystem.step (s : SuspensionSystem) : SuspensionAction → Option SuspensionSystem
  | .market a =>
      if s.market.writesSuspension a then none
      else (s.system.step a).bind fun system => if s.waits system then none else some { s with system }
  | .suspendUser adminId targetId reason durationDays => s.suspendUser adminId targetId reason durationDays
  | .countReport b k => s.countReport b k
  | .suspendReported i k updatedAt => s.suspendReported i k updatedAt
  | .countContent adminId ownerId => s.countContent adminId ownerId
  | .suspendContentOwner i => s.suspendContentOwner i
  | .rollback i => if i < s.pending.length then some { s with pending := s.pending.eraseIdx i } else none

def suspensionMachine : Machine SuspensionSystem SuspensionAction where
  initial s := marketMachine.initial s.system ∧ s.pending = []
  next := SuspensionSystem.step

/-- The decision that the step carries on, with its booking. -/
def SuspensionSystem.resumes (s : SuspensionSystem) : SuspensionAction → Option (BookingSystem × Call)
  | .market (.booking b (.resume k _) _) => (s.market.bookings[b]?).bind fun x => (x.calls[k]?).map (x, ·)
  | .suspendReported i k _ => (s.pending[i]?).bind fun p => p.decision.bind fun (b, _) =>
      (s.market.bookings[b]?).bind fun x => (x.calls[k]?).map (x, ·)
  | _ => none

/-- No provider is suspended directly with unstarted work, and none has it lifted out of a hold while suspended, while a
    suspension is pending or by the decision that suspends. -/
structure SuspendsIdle (s : SuspensionSystem) (a : SuspensionAction) : Prop where
  direct : ∀ adminId targetId reason durationDays, a = .suspendUser adminId targetId reason durationDays →
    s.market.Unbooked targetId
  reopened : ∀ x call, s.resumes a = some (x, call) → call.reopens x.file = true →
    ¬ s.market.Suspended x.file.booking.providerId ∧ s.locked x.file.booking.providerId = false
      ∧ call.suspends x.file x.file.booking.providerId (s.market.user x.file.booking.providerId) = false

section Tables

variable {m t u : Market} {userId : UserId} {a : AttemptId} {x x' : BookingSystem}

theorem Renumbered.blocks (h : Renumbered x x') :
    x'.file.booking.blocksSuspension userId = x.file.booking.blocksSuspension userId :=
  h.column (fun x => x.file.booking.blocksSuspension userId) fun _ _ _ _ => rfl

/-- The bookings in `t` are those of `m`, renumbered, and perhaps a new one; no account is suspended. -/
structure WorkKept (m t : Market) : Prop where
  bookings : ∀ (i : Nat) x', t.bookings[i]? = some x' → (∃ x, m.bookings[i]? = some x ∧ Renumbered x x')
    ∨ m.bookings.length ≤ i ∧ ∃ f, Renumbered { file := f } x' ∧ ¬ m.Suspended f.booking.providerId
  users : ∀ userId, t.Suspended userId → m.Suspended userId

theorem WorkKept.of_eq (bookings : t.bookings = m.bookings) (user : t.user = m.user) : WorkKept m t where
  bookings i x' found := .inl ⟨x', bookings ▸ found, .refl⟩
  users userId suspended := by simpa only [Market.Suspended, user] using suspended

/-- The provider of a new booking is eligible. -/
theorem eligible_unsuspended {seekerId : UserId} (h : marketplaceParticipantsEligible m seekerId userId = true) :
    ¬ m.Suspended userId := by
  intro suspended
  simp only [marketplaceParticipantsEligible, Bool.and_eq_true, Option.any_eq_true] at h
  obtain ⟨-, user, found, eligible⟩ := h
  obtain ⟨user', found', status⟩ := (Option.any_eq_true _ _).mp suspended
  obtain rfl := Option.some.inj (found.symm.trans found')
  simp only [User.eligibleParticipant, Bool.and_eq_true, beq_iff_eq] at eligible status
  simp [status] at eligible

theorem WorkKept.created {f : BookingFile} (create : u.createBooking f = .ok t) (bookings : u.bookings = m.bookings)
    (user : u.user = m.user) (eligible : ¬ m.Suspended f.booking.providerId) : WorkKept m t := by
  constructor
  · intro i x' found
    obtain old | ⟨last, rfl⟩ := createBooking_row create found
    · exact .inl ⟨x', bookings ▸ old, .refl⟩
    · exact .inr ⟨by rw [last, bookings], f, .refl, eligible⟩
  · obtain ⟨-, -, -, rfl⟩ := createBooking_ok create
    intro userId suspended
    simpa only [Market.Suspended, user] using suspended

theorem WorkKept.renumbered (h : WorkKept m u) (run : BookingsRenumbered u t) : WorkKept m t := by
  constructor
  · intro i y' found
    obtain ⟨y, before, moved⟩ := run.row found
    rcases h.bookings i y before with ⟨x, old, first⟩ | ⟨beyond, f, first, eligible⟩
    · exact .inl ⟨x, old, first.trans moved⟩
    · exact .inr ⟨beyond, f, first.trans moved, eligible⟩
  · intro userId suspended
    refine h.users userId ?_
    rw [run.tables] at suspended
    exact suspended

theorem WorkKept.settled {v : Market} (h : WorkKept m t) (bookings : v.bookings = t.bookings) (user : v.user = t.user) :
    WorkKept m v where
  bookings i x' found := h.bookings i x' (bookings ▸ found)
  users userId suspended := h.users userId (by simpa only [Market.Suspended, user] using suspended)

/-- Providers that are suspended, or about to be, are left without unstarted work. -/
theorem WorkKept.unbooked (h : WorkKept m t) {locked : UserId → Bool}
    (known : ∀ userId, m.Suspended userId ∨ locked userId = true → m.Unbooked userId)
    (free : (t.bookings.drop m.bookings.length).any (fun x => locked x.file.booking.providerId) = false) :
    ∀ userId, t.Suspended userId ∨ locked userId = true → t.Unbooked userId := by
  intro userId barred x' listed
  have before := barred.imp_left (h.users userId)
  obtain ⟨i, found⟩ := List.mem_iff_getElem?.mp listed
  rcases h.bookings i x' found with ⟨x, old, run⟩ | ⟨beyond, f, run, eligible⟩
  · rw [run.blocks]
    exact known userId before x (List.mem_of_getElem? old)
  · by_contra blocks
    have provider := (Booking.blocksSuspension_iff.mp (by simpa using blocks)).1
    rcases before with suspended | taken
    · rw [run.column (fun x => x.file.booking.providerId) fun _ _ _ _ => rfl] at provider
      exact eligible (provider ▸ suspended)
    · have new : x' ∈ t.bookings.drop m.bookings.length := by
        refine List.mem_of_getElem? (i := i - m.bookings.length) ?_
        rw [List.getElem?_drop, Nat.add_sub_cancel' beyond]
        exact found
      have unlocked := List.any_eq_false.mp free x' new
      exact unlocked (provider ▸ taken)

end Tables

section Steps

variable {m t : Market} {a : AttemptId} {s s' : MarketSystem} {act : MarketAction} {next : Option PaymentCall}

theorem PreparedOn.user {params : PaymentParams} {target : PaymentTarget} (h : PreparedOn params target m t a) :
    t.user = m.user := by
  cases h with
  | reused => rfl
  | created _ _ _ _ _ _ _ on =>
      cases on with
      | listing => rfl
      | offer _ _ _ _ _ _ _ _ held =>
          obtain ⟨_, _, _, rfl⟩ := holdOffer_ok held
          rfl

theorem RefundBranch.user {fresh : PaymentAttempt} {after : Market → Market} (h : RefundBranch a fresh m after) :
    (after t).user = t.user := by
  cases h with
  | released => exact releaseOfferHold_user
  | invalid => rfl
  | sibling => rfl

theorem markAttemptFailed_user {reason : String} : (markAttemptFailed a reason m).user = m.user := by
  simp only [markAttemptFailed]
  split
  · rfl
  · split <;> simp

theorem expireCandidate_user : (expireCandidate a m).user = m.user := by
  simp only [expireCandidate, expireAttempt]
  split
  · rfl
  · split <;> simp

theorem Bookable.unsuspended {fresh : PaymentAttempt} (h : Bookable fresh m) : ¬ m.Suspended fresh.providerId := by
  have available := h.available
  simp only [Market.unavailable, Bool.or_eq_false_iff, Bool.not_eq_false'] at available
  exact eligible_unsuspended available.1.1.1.1.1.2

theorem FinalizedOn.work {payment : CapturedPayment} {result : Finalized}
    (h : FinalizedOn a payment m t result) : WorkKept m t := by
  cases h with
  | settled => exact .of_eq rfl rfl
  | refunded _ branch => exact .of_eq branch.bookings branch.user
  | @created fresh _ _ _ _ bookable paid =>
      have booked := WorkKept.created (m := m) paid.create rfl rfl bookable.unsuspended
      refine (booked.renumbered (recalculateQueue_renumbered paid.renumber)).settled paid.bookings ?_
      rw [paid.settled]
      cases fresh.offerId <;> simp

/-- Every step besides those of bookings and the update of an account. -/
theorem act_work (h : m.act act = some t) (own : ∀ b st updatedAt, act ≠ .booking b st updatedAt)
    (other : ∀ userId user, act ≠ .updateUser userId user) : WorkKept m t := by
  cases act with
  | pay | resume | crash => simp [Market.act] at h
  | booking b st updatedAt => exact absurd rfl (own b st updatedAt)
  | updateUser userId user => exact absurd rfl (other userId user)
  | setCapacity p limit =>
      have run := toOption_some.mp h
      simp only [Market.setProviderWorkloadCapacity, check_bind_ok, orThrow_bind_ok] at run
      obtain ⟨-, user, found, renumber⟩ := run
      have resized : WorkKept m { m with
          user := Function.update m.user p (some { user with onlineQueueLimit := limit }) } := by
        refine ⟨fun i x' found => .inl ⟨x', found, .refl⟩, fun userId suspended => ?_⟩
        by_cases same : userId = p
        · subst same
          simpa [Market.Suspended, found] using suspended
        · simpa [Market.Suspended, same] using suspended
      exact resized.renumbered (recalculateQueue_renumbered renumber)
  | createDirectRequest seekerId providerId serviceId quantity =>
      have run := toOption_some.mp h
      simp only [createDirectRequest] at run
      split at run
      · simp at run
      · simp only [orThrow_bind_ok, check_bind_ok] at run
        obtain ⟨service, -, -, run⟩ := run
        obtain ⟨terms, -, run⟩ := bind_ok.mp run
        simp only [check_bind_ok, rejectIf_ok, Bool.not_eq_false] at run
        obtain ⟨-, -, -, -, eligible, create⟩ := run
        exact .created create rfl rfl (eligible_unsuspended eligible)
  | createDirectFromOffer o seekerId =>
      have run := toOption_some.mp h
      simp only [createDirectFromOfferService, orThrow_bind_ok, check_bind_ok] at run
      obtain ⟨offer, found, request, requested, -, run⟩ := run
      split at run
      · simp at run
      · simp only [check_bind_ok, rejectIf_ok, not_or, not_not, Bool.not_eq_true, Bool.not_eq_false] at run
        obtain ⟨-, -, eligible, -, -, -, -, -, -, create⟩ := run
        exact .created create selectOffer_bookings selectOffer_user (eligible_unsuspended eligible)
  | submitOffer =>
      have run := toOption_some.mp h
      simp only [submitOffer, orThrow_bind_ok, check_bind_ok, pure_ok] at run
      obtain ⟨request, -, -, -, -, -, -, -, rfl⟩ := run
      exact .of_eq rfl rfl
  | rejectOffer =>
      have run := toOption_some.mp h
      simp only [rejectOffer, orThrow_bind_ok, check_bind_ok, pure_ok] at run
      obtain ⟨offer, -, request, -, -, -, rfl⟩ := run
      split <;> exact .of_eq rfl rfl
  | updateRequest =>
      have run := toOption_some.mp h
      simp only [updateServiceRequest, orThrow_bind_ok, check_bind_ok, pure_ok] at run
      obtain ⟨request, -, -, -, -, -, -, rfl⟩ := run
      exact .of_eq rfl rfl
  | cancelRequest =>
      have run := toOption_some.mp h
      simp only [cancelRequest, orThrow_bind_ok, check_bind_ok, pure_ok] at run
      obtain ⟨request, -, -, rfl⟩ := run
      exact .of_eq rfl rfl
  | publicContentAction =>
      have run := toOption_some.mp h
      simp only [applyPublicContentAction, orThrow_bind_ok, check_bind_ok, ite_ok, pure_ok] at run
      obtain ⟨request, -, -, -, ⟨-, -, rfl⟩ | ⟨-, -, rfl⟩⟩ := run <;> exact .of_eq rfl rfl
  | updateService =>
      simp only [Market.act] at h
      split at h
      · obtain rfl := Option.some.inj h
        exact .of_eq rfl rfl
      · cases h
  | _ =>
      obtain rfl := Option.some.inj h
      exact .of_eq rfl rfl

theorem MarketEvent.work (h : MarketEvent s act t next) (own : ∀ b st updatedAt, act ≠ .booking b st updatedAt)
    (other : ∀ userId user, act ≠ .updateUser userId user) : WorkKept s.market t := by
  cases h with
  | called | stopped | passed | intentStored | intentSaved | refunded => exact .of_eq rfl rfl
  | @prepared _ _ params target _ _ _ run =>
      refine .of_eq (run.bookings.trans expireStale_bookings) (run.user.trans ?_)
      obtain ⟨_, _, _, frame⟩ := expireStale_frame params target s.market
      rw [frame]
  | initiationFailed => exact .of_eq (by simp [recordInitiationFailure]) (by simp [recordInitiationFailure])
  | markedFailed => exact .of_eq markAttemptFailed_bookings markAttemptFailed_user
  | expired => exact .of_eq expireCandidate_bookings expireCandidate_user
  | finalized _ _ run => exact run.work
  | acted run => exact act_work run own other

/-- A step of a booking with its effects on the accounts. -/
theorem writeEffects_user (booking : Booking) (effects : Effects) : (m.writeEffects booking effects).user =
    effects.moderation.elim m.user fun (userId, status) =>
      Function.update m.user userId ((m.user userId).map ({ · with moderationStatus := status })) := by
  unfold Market.writeEffects
  cases effects.moderation <;> dsimp only [Option.elim] <;> split <;> rfl

theorem writeEffects_suspended {booking : Booking} {effects : Effects} {userId : UserId}
    (h : (m.writeEffects booking effects).Suspended userId) :
    m.Suspended userId ∨ effects.moderation = some (userId, .suspended) := by
  unfold Market.Suspended at h
  rw [writeEffects_user] at h
  cases moderated : effects.moderation with
  | none => exact .inl (by simpa only [Market.Suspended, moderated, Option.elim] using h)
  | some moderation =>
      obtain ⟨moderatedId, status⟩ := moderation
      simp only [moderated, Option.elim] at h
      by_cases same : userId = moderatedId
      · subst same
        right
        cases found : m.user userId with
        | none => simp [found] at h
        | some user =>
            obtain rfl : status = .suspended := by simpa [found] using h
            rfl
      · left
        simpa [Market.Suspended, same] using h

/-- A transaction of a booking, in the context that it has read. -/
structure Transacts (m : Market) (ctx : Context) (b : BookingId) (x : BookingSystem) (st : Step) (effects : Effects)
    (t : Market) : Prop where
  found : m.bookings[b]? = some x
  own : st.isRefund = false
  run : ∃ x', x.step ctx st = some (x', effects)
    ∧ ({ m with bookings := m.bookings.set b x' }).applyEffects x.file.booking effects = .ok t

theorem stepIn_transacts {ctx : Context} {b : BookingId} {x : BookingSystem} {st : Step}
    (found : m.bookings[b]? = some x) (own : st.isRefund = false) (h : m.stepIn ctx b x st = some t) :
    ∃ effects, Transacts m ctx b x st effects t := by
  simp only [Market.stepIn, Option.bind_eq_some_iff] at h
  obtain ⟨⟨x', effects⟩, step, h⟩ := h
  split at h
  · exact ⟨effects, found, own, x', step, toOption_some.mp h⟩
  · cases h

/-- A row after the transaction is the booking after its step or a row from before, up to its queue position. -/
theorem Transacts.row {ctx : Context} {b i : BookingId} {x y' : BookingSystem} {st : Step} {effects : Effects}
    (h : Transacts m ctx b x st effects t) (placed : t.bookings[i]? = some y') : ∃ y, Renumbered y y'
      ∧ (i = b ∧ x.step ctx st = some (y, effects) ∨ i ≠ b ∧ m.bookings[i]? = some y) := by
  obtain ⟨x', step, applied⟩ := h.run
  obtain ⟨y, row, run⟩ := (applyEffects_renumbered applied).row placed
  obtain ⟨requests, user, frame⟩ := writeEffects_frame x.file.booking effects
    { m with bookings := m.bookings.set b x' }
  rw [frame] at row
  simp only [List.getElem?_set] at row
  refine ⟨y, run, ?_⟩
  split at row
  · rename_i same
    split at row
    · obtain rfl := Option.some.inj row
      exact .inl ⟨same.symm, step⟩
    · cases row
  · rename_i other
    exact .inr ⟨fun same => other same.symm, row⟩

theorem Transacts.suspended {ctx : Context} {b : BookingId} {x : BookingSystem} {st : Step} {effects : Effects}
    {userId : UserId} (h : Transacts m ctx b x st effects t) (suspended : t.Suspended userId) :
    m.Suspended userId ∨ effects.moderation = some (userId, .suspended) := by
  obtain ⟨x', -, applied⟩ := h.run
  have written : ({ m with bookings := m.bookings.set b x' }.writeEffects x.file.booking effects).Suspended userId := by
    rw [(applyEffects_renumbered applied).tables] at suspended
    exact suspended
  have moderated := writeEffects_suspended written
  exact moderated

theorem Transacts.reachable {ctx : Context} {b i : BookingId} {x y' : BookingSystem} {st : Step} {effects : Effects}
    (h : Transacts m ctx b x st effects t)
    (reached : ∀ (i : Nat) (x : BookingSystem), m.bookings[i]? = some x → bookingMachine.Reachable x)
    (placed : t.bookings[i]? = some y') : bookingMachine.Reachable y' := by
  obtain ⟨y, run, ⟨rfl, step⟩ | ⟨-, row⟩⟩ := h.row placed
  · have next : bookingMachine.next x (.step ctx st) = some y := by
      have own := h.own
      cases st with
      | refund => cases own
      | _ => simp [bookingMachine, bookingNext, step]
    exact run.reachable ((reached _ x h.found).next trivial next)
  · exact run.reachable (reached i y row)

/-- The transaction of a booking leaves no unstarted work to a suspended provider. It may not lift the hold of work that
    a suspension is pending on, and where it suspends, the other bookings have been counted. -/
theorem Transacts.unbooked {ctx : Context} {b : BookingId} {x : BookingSystem} {st : Step} {effects : Effects}
    {locked : UserId → Bool} (h : Transacts m ctx b x st effects t) (reached : bookingMachine.Reachable x)
    (known : ∀ userId, m.Suspended userId ∨ locked userId = true → m.Unbooked userId)
    (unlifted : ∀ k answer call, st = .resume k answer → x.calls[k]? = some call → call.reopens x.file = true →
      ¬ m.Suspended x.file.booking.providerId ∧ locked x.file.booking.providerId = false
        ∧ call.suspends x.file x.file.booking.providerId (ctx.user x.file.booking.providerId) = false)
    (counted : ∀ userId, effects.moderation = some (userId, .suspended) →
      ∀ (i : Nat) y, i ≠ b → m.bookings[i]? = some y → y.file.booking.blocksSuspension userId = false) :
    ∀ userId, t.Suspended userId ∨ locked userId = true → t.Unbooked userId := by
  intro userId barred y' listed
  by_contra blocks
  simp only [Bool.not_eq_false] at blocks
  have before : (m.Suspended userId ∨ locked userId = true) ∨ effects.moderation = some (userId, .suspended) := by
    rcases barred with suspended | taken
    · exact (h.suspended suspended).imp_left .inl
    · exact .inl (.inr taken)
  obtain ⟨i, placed⟩ := List.mem_iff_getElem?.mp listed
  obtain ⟨y, run, own | other⟩ := h.row placed
  · obtain ⟨-, step⟩ := own
    rw [run.blocks] at blocks
    obtain unstarted | ⟨own, k, answer, call, rfl, called, reopens⟩ := BookingSystem.step_blocks reached step blocks
    · rcases before with barred | effect
      · simp [known userId barred x (List.mem_of_getElem? h.found)] at unstarted
      · obtain ⟨_, _, _, _, -, -, -, -, restricts⟩ := BookingSystem.step_restricts step effect
        simp [restricts.suspended.2.1] at unstarted
    · obtain ⟨unsuspended, unlocked, unpunished⟩ := unlifted k answer call rfl called reopens
      subst own
      rcases before with (suspended | taken) | effect
      · exact unsuspended suspended
      · simp [unlocked] at taken
      · obtain ⟨k', answer', call', _, same, called', -, -, restricts⟩ := BookingSystem.step_restricts step effect
        obtain ⟨rfl, rfl⟩ := Step.resume.inj same
        obtain rfl := Option.some.inj (called.symm.trans called')
        simp [restricts.suspended.2.2] at unpunished
  · obtain ⟨apart, row⟩ := other
    rw [run.blocks] at blocks
    rcases before with barred | effect
    · simp [known userId barred y (List.mem_of_getElem? row)] at blocks
    · simp [counted userId effect i y apart row] at blocks

end Steps

section Suspending

variable {s s' : SuspensionSystem} {a : SuspensionAction} {t : Market} {userId : UserId}

/-- Whoever is suspended, or about to be, has no unstarted work. -/
structure SuspensionSystem.Idle (s : SuspensionSystem) : Prop where
  reachable : ∀ (i : Nat) (x : BookingSystem), s.market.bookings[i]? = some x → bookingMachine.Reachable x
  unbooked : ∀ userId, s.market.Suspended userId ∨ s.locked userId = true → s.market.Unbooked userId

theorem SuspensionSystem.locked_of_pending {i : Nat} {p : PendingSuspension} (found : s.pending[i]? = some p) :
    s.locked p.userId = true :=
  List.any_eq_true.mpr ⟨p, List.mem_of_getElem? found, beq_self_eq_true _⟩

/-- The transaction at `i` has ended. -/
theorem SuspensionSystem.locked_erase {i : Nat}
    (h : (s.pending.eraseIdx i).any (·.userId == userId) = true) : s.locked userId = true := by
  obtain ⟨p, listed, own⟩ := List.any_eq_true.mp h
  exact List.any_eq_true.mpr ⟨p, List.mem_of_mem_eraseIdx listed, own⟩

/-- The transaction has counted no unstarted booking of the account. -/
theorem SuspensionSystem.Idle.counted {p : PendingSuspension} (known : s.Idle)
    (none_ : s.market.bookings.countP (·.file.booking.blocksSuspension p.userId) = 0) :
    ({ s with pending := s.pending ++ [p] }).Idle := by
  refine ⟨known.reachable, fun userId barred => ?_⟩
  simp only [SuspensionSystem.locked, List.any_append, List.any_cons, List.any_nil, Bool.or_false, Bool.or_eq_true,
    beq_iff_eq] at barred
  rcases barred with suspended | taken | rfl
  · exact known.unbooked userId (.inl suspended)
  · exact known.unbooked userId (.inr taken)
  · intro x listed
    simpa using List.countP_eq_zero.mp none_ x listed

theorem countReport_idle {b : BookingId} {k : Nat} (known : s.Idle) (h : s.countReport b k = some s') : s'.Idle := by
  simp only [SuspensionSystem.countReport, Option.bind_eq_some_iff, Option.ite_none_right_eq_some,
    Option.some.injEq] at h
  obtain ⟨x, -, call, -, userId, -, ⟨-, -, -, none_⟩, rfl⟩ := h
  exact known.counted none_

theorem countContent_idle {adminId ownerId : UserId} (known : s.Idle) (h : s.countContent adminId ownerId = some s') :
    s'.Idle := by
  simp only [SuspensionSystem.countContent, Option.ite_none_left_eq_some, Option.map_eq_some_iff] at h
  obtain ⟨-, tables, run, rfl⟩ := h
  have checked := toOption_some.mp run
  simp only [ModerationTables.penalizeContentOwner, orThrow_bind_ok, check_bind_ok, rejectIf_ok] at checked
  obtain ⟨owner, -, -, -, -, none_, -⟩ := checked
  exact known.counted (Nat.eq_zero_of_not_pos none_)

theorem suspendContentOwner_idle {i : Nat} (known : s.Idle) (h : s.suspendContentOwner i = some s') : s'.Idle := by
  simp only [SuspensionSystem.suspendContentOwner, Option.bind_eq_some_iff] at h
  obtain ⟨p, found, h⟩ := h
  split at h
  · cases h
  · obtain rfl := Option.some.inj h
    refine ⟨known.reachable, fun userId barred => known.unbooked userId ?_⟩
    rcases barred with suspended | taken
    · by_cases same : userId = p.userId
      · subst same
        exact .inr (SuspensionSystem.locked_of_pending found)
      · exact .inl (by simpa [Market.Suspended, Market.suspend, same] using suspended)
    · exact .inr (SuspensionSystem.locked_erase taken)

theorem suspendUser_idle {adminId targetId : UserId} {reason : String} {durationDays : Nat} (known : s.Idle)
    (direct : s.market.Unbooked targetId) (h : s.suspendUser adminId targetId reason durationDays = some s') :
    s'.Idle := by
  simp only [SuspensionSystem.suspendUser, Option.ite_none_left_eq_some, Option.map_eq_some_iff] at h
  obtain ⟨-, tables, -, rfl⟩ := h
  refine ⟨known.reachable, fun userId barred => ?_⟩
  by_cases same : userId = targetId
  · exact same ▸ direct
  · refine known.unbooked userId (barred.imp_left fun suspended => ?_)
    simpa [Market.Suspended, Market.writeModeration, same] using suspended

/-- A report has one reported account. -/
theorem Call.suspends_unique {c : Call} {f : BookingFile} {v : UserId} {account account' : Option User}
    (h : c.suspends f userId account = true) (h' : c.suspends f v account' = true) : userId = v := by
  unfold Call.suspends at h h'
  split at h
  · rename_i caller
    simp only [caller, Bool.and_eq_true, Option.any_eq_true, beq_iff_eq] at h h'
    obtain ⟨⟨report, found, own⟩, -⟩ := h
    obtain ⟨⟨report', found', own'⟩, -⟩ := h'
    obtain rfl := Option.some.inj (found.symm.trans found')
    exact own.symm.trans own'
  · cases h

/-- The write of a report decision. Its booking has not been opened for the provider that it suspends: that account is
    locked. -/
theorem suspendReported_idle {i k : Nat} {updatedAt : Millis} (known : s.Idle)
    (idle : SuspendsIdle s (.suspendReported i k updatedAt)) (h : s.suspendReported i k updatedAt = some s') :
    s'.Idle := by
  simp only [SuspensionSystem.suspendReported, Option.bind_eq_some_iff, Option.ite_none_right_eq_some,
    Option.map_eq_some_iff] at h
  obtain ⟨p, pending, ⟨b, call⟩, decision, x, found, ⟨called, suspends⟩, t, run, rfl⟩ := h
  obtain ⟨effects, transacts⟩ := stepIn_transacts found rfl run
  have taken := SuspensionSystem.locked_of_pending pending
  refine ⟨fun j y placed => transacts.reachable known.reachable placed, fun userId barred => ?_⟩
  refine transacts.unbooked (known.reachable b x found) known.unbooked ?_ ?_ userId
    (barred.imp_right SuspensionSystem.locked_erase)
  · intro k' answer' call' resumed called' reopens
    obtain ⟨rfl, -⟩ := Step.resume.inj resumed
    obtain rfl := Option.some.inj (called.symm.trans called')
    have resumes : s.resumes (.suspendReported i k updatedAt) = some (x, call) := by
      simp [SuspensionSystem.resumes, pending, decision, found, called]
    obtain ⟨unsuspended, unlocked, unpunished⟩ := idle.reopened x call resumes reopens
    refine ⟨unsuspended, unlocked, ?_⟩
    by_cases same : x.file.booking.providerId = p.userId
    · rw [same, taken] at unlocked
      cases unlocked
    · simpa only [Function.update_of_ne same] using unpunished
  · intro userId effect j y _ row
    obtain ⟨x', step, -⟩ := transacts.run
    obtain ⟨k', answer', call', _, resumed, called', -, -, restricts⟩ := BookingSystem.step_restricts step effect
    obtain ⟨rfl, -⟩ := Step.resume.inj resumed
    obtain rfl := Option.some.inj (called.symm.trans called')
    have punished := restricts.suspended.2.2
    obtain rfl : userId = p.userId := Call.suspends_unique punished suspends
    exact known.unbooked p.userId (.inr taken) y (List.mem_of_getElem? row)

theorem SuspensionSystem.Idle.market {act : MarketAction} {system : MarketSystem} (known : s.Idle)
    (idle : SuspendsIdle s (.market act)) (direct : s.market.writesSuspension act = false)
    (h : s.system.step act = some system) (free : s.waits system = false) : ({ s with system } : SuspensionSystem).Idle := by
  obtain ⟨next, event, -⟩ := MarketSystem.step_event h
  refine ⟨fun i x found => (event.booking_row found).reachable known.reachable, ?_⟩
  cases act with
  | booking b st updatedAt =>
      obtain ⟨t, run, rfl⟩ := Option.map_eq_some_iff.mp h
      obtain ⟨x, x', effects, found, own, step, applied, -⟩ := stepBooking_run run
      have transacts : Transacts s.market (s.market.context b x updatedAt) b x st effects t :=
        ⟨found, own, x', step, applied⟩
      refine transacts.unbooked (known.reachable b x found) known.unbooked ?_ ?_
      · rintro k answer call rfl called reopens
        exact idle.reopened x call (by simp [SuspensionSystem.resumes, found, called]) reopens
      · intro userId effect i y apart row
        obtain ⟨_, _, _, _, -, -, -, -, restricts⟩ := BookingSystem.step_restricts step effect
        have none_ := restricts.suspended.1
        simp only [Market.context, List.countP_eq_zero] at none_
        simpa using none_ y (List.mem_eraseIdx_iff_getElem?.mpr ⟨i, apart, row⟩)
  | updateUser target user =>
      obtain rfl := Option.some.inj h
      intro userId barred
      refine known.unbooked userId (barred.imp_left fun suspended => ?_)
      by_cases same : userId = target
      · subst same
        have status : user.moderationStatus = .suspended := by simpa [Market.Suspended] using suspended
        simpa [Market.writesSuspension, status, Market.Suspended] using direct
      · simpa [Market.Suspended, same] using suspended
  | _ => exact (event.work (by simp) (by simp)).unbooked known.unbooked free

theorem SuspensionSystem.Idle.step (known : s.Idle) (idle : SuspendsIdle s a) (h : s.step a = some s') : s'.Idle := by
  cases a with
  | market act =>
      simp only [SuspensionSystem.step, Option.ite_none_left_eq_some, Option.bind_eq_some_iff, Option.some.injEq] at h
      obtain ⟨direct, system, run, free, rfl⟩ := h
      exact known.market idle (by simpa using direct) run (by simpa using free)
  | suspendUser => exact suspendUser_idle known (idle.direct _ _ _ _ rfl) h
  | countReport => exact countReport_idle known h
  | suspendReported => exact suspendReported_idle known idle h
  | countContent => exact countContent_idle known h
  | suspendContentOwner => exact suspendContentOwner_idle known h
  | rollback i =>
      simp only [SuspensionSystem.step, Option.ite_none_right_eq_some, Option.some.injEq] at h
      obtain ⟨-, rfl⟩ := h
      exact ⟨known.reachable, fun userId barred =>
        known.unbooked userId (barred.imp_right SuspensionSystem.locked_erase)⟩

/-- While the condition holds, no suspended provider has unstarted work. -/
theorem no_suspended_work (h : suspensionMachine.ReachableUnder SuspendsIdle s) :
    ∀ userId, s.market.Suspended userId → ∀ x ∈ s.market.bookings,
      x.file.booking.providerId = userId → x.file.booking.started = false →
      x.file.booking.status ≠ .pendingApproval ∧ x.file.booking.status ≠ .waiting
        ∧ x.file.booking.status ≠ .accepted := by
  have known : s.Idle := by
    refine h.invariant ?_ ?_
    · rintro s ⟨⟨-, -, -, empty, -⟩, -⟩
      exact ⟨by simp [SuspensionSystem.market, empty], by simp [Market.Unbooked, SuspensionSystem.market, empty]⟩
    · intro s a s' known idle stepped
      exact known.step idle stepped
  intro userId suspended x listed provider unstarted
  have free := known.unbooked userId (.inl suspended) x listed
  simp only [Booking.blocksSuspension, provider, unstarted, beq_self_eq_true, Bool.not_false, Bool.true_and,
    Bool.or_eq_false_iff, beq_eq_false_iff_ne] at free
  exact ⟨free.1.1, free.1.2, free.2⟩

end Suspending

/-! ### Sample runs -/

def suspendsIdle (s : SuspensionSystem) (a : SuspensionAction) : Bool :=
  (match a with
    | .suspendUser _ targetId _ _ => s.market.bookings.all (!·.file.booking.blocksSuspension targetId)
    | _ => true)
  && (s.resumes a).all fun (x, call) => !call.reopens x.file
    || !(s.market.user x.file.booking.providerId).any (·.moderationStatus == .suspended)
      && !s.locked x.file.booking.providerId
      && !call.suspends x.file x.file.booking.providerId (s.market.user x.file.booking.providerId)

theorem suspendsIdle_sound (s : SuspensionSystem) (a : SuspensionAction) (h : suspendsIdle s a = true) :
    SuspendsIdle s a := by
  simp only [suspendsIdle, Bool.and_eq_true, Option.all_eq_true, Bool.or_eq_true, Bool.not_eq_true'] at h
  constructor
  · rintro adminId targetId reason durationDays rfl x listed
    simpa using List.all_eq_true.mp h.1 x listed
  · intro x call resumes reopens
    have checked := h.2 (x, call) resumes
    simp only [reopens, Bool.true_eq_false, false_or, and_assoc] at checked
    exact ⟨by simp [Market.Suspended, checked.1], checked.2⟩

def sampleSuspensions : SuspensionSystem where
  system := sampleMarket

def marketSteps (actions : List MarketAction) : List SuspensionAction := actions.map .market

theorem sampleSuspensions_initial : suspensionMachine.initial sampleSuspensions := ⟨sampleMarket_initial, rfl⟩

/-- Administrator 9 finds in favour of the report and suspends the provider, up to the last transaction. -/
def sampleSuspendDecision (b : BookingId) : List MarketAction :=
  [.booking b (.request (.resolveAdminReport 0 9 .resolveSafety .suspend 20)) 0, .booking b (.resume 0 .none) 0]

def sampleRestoration (b : BookingId) : List MarketAction :=
  [.booking b (.request (.resolveAdminReport 0 9 .dismiss .none 20)) 0, .booking b (.resume 0 .none) 0,
    .booking b (.resume 0 .none) 0]

/-- The job of seeker 1 has started and is reported, that of seeker 3 has not started. -/
def sampleReported : List MarketAction :=
  sampleAcceptedCash 0 1 ++ sampleAcceptedCash 1 3 ++ [.booking 0 (.request (.providerStartJob 2)) 0,
    .booking 0 (.request (.createSafetyReport 1 .noShow 0 none)) 0,
    .booking 1 (.request (.createSafetyReport 3 .noShow 0 none)) 0]

/-- The second job is canceled after its hold. The suspension is written in a transaction of its own, and meanwhile
    another account is suspended directly. -/
def sampleIdleSuspension : List SuspensionAction :=
  marketSteps (sampleReported ++ sampleRestoration 1 ++ [MarketAction.booking 1 (.request (.requestCancellation 3)) 0,
      .booking 1 (.resume 0 .none) 0, .booking 1 (.resume 0 .none) 0] ++ sampleSuspendDecision 0)
    ++ [SuspensionAction.countReport 0 0, .suspendUser 9 5 "spam" 7, .suspendReported 0 0 0]

theorem no_suspended_work_counted : ∃ s,
    suspensionMachine.execUnder suspendsIdle sampleSuspensions sampleIdleSuspension = some s
    ∧ s.market.Suspended 2 ∧ s.market.Suspended 5 ∧ s.market.bookings.length = 2
    ∧ ∀ x ∈ s.market.bookings, x.file.booking.providerId = 2 → x.file.booking.started = false →
      x.file.booking.status ≠ .pendingApproval ∧ x.file.booking.status ≠ .waiting
        ∧ x.file.booking.status ≠ .accepted := by
  obtain ⟨s, run, both, suspended, listed⟩ := sample_any
    (o := suspensionMachine.execUnder suspendsIdle sampleSuspensions sampleIdleSuspension)
    (p := fun s => (s.market.user 2).any (·.moderationStatus == .suspended) = true
      ∧ (s.market.user 5).any (·.moderationStatus == .suspended) = true ∧ s.market.bookings.length = 2) (by decide)
  have reached : suspensionMachine.ReachableUnder SuspendsIdle s :=
    ⟨sampleSuspensions, sampleSuspensions_initial, .of_execUnder suspendsIdle_sound run⟩
  exact ⟨s, run, both, suspended, listed, no_suspended_work reached 2 both⟩

/-- An account is suspended directly over the booking that its provider has accepted. -/
def sampleDirectSuspension : List SuspensionAction :=
  marketSteps samplePurchase ++ [.suspendUser 9 2 "no show" 7]

/-- The seeker reports the provider of the accepted booking; the report decision suspends and then restores. -/
def sampleReportedSuspension : List SuspensionAction :=
  marketSteps (samplePurchase ++ [.booking 0 (.request (.createSafetyReport 1 .noShow 0 none)) 0]
    ++ sampleSuspendDecision 0) ++ [.countReport 0 0, .suspendReported 0 0 0]

/-- The second job is restored after the report decision on the first one has counted. -/
def sampleRestoredMeanwhile : List SuspensionAction :=
  marketSteps (sampleReported ++ sampleSuspendDecision 0) ++ .countReport 0 0 :: marketSteps (sampleRestoration 1)
    ++ [.suspendReported 0 0 0]

/-- The same before the write of a content case. -/
def sampleContentSuspension : List SuspensionAction :=
  marketSteps (sampleAcceptedCash 0 1 ++ [.booking 0 (.request (.createSafetyReport 1 .noShow 0 none)) 0])
    ++ .countContent 9 2 :: marketSteps (sampleRestoration 0) ++ [.suspendContentOwner 0]

/-- The run leaves accepted, unstarted work to the suspended provider 2. -/
def LeavesWork (actions : List SuspensionAction) : Prop :=
  ∃ s, suspensionMachine.exec sampleSuspensions actions = some s ∧ suspensionMachine.Reachable s ∧ s.market.Suspended 2
    ∧ ∃ x ∈ s.market.bookings, x.file.booking.providerId = 2 ∧ x.file.booking.started = false
      ∧ x.file.booking.status = .accepted

theorem leavesWork_of_run {actions : List SuspensionAction}
    (run : ∃ s, suspensionMachine.exec sampleSuspensions actions = some s
      ∧ ((s.market.user 2).any (·.moderationStatus == .suspended)
        && s.market.bookings.any fun x => x.file.booking.providerId == 2 && !x.file.booking.started
          && x.file.booking.status == .accepted) = true) : LeavesWork actions := by
  obtain ⟨s, run, both⟩ := run
  simp only [Bool.and_eq_true, List.any_eq_true, beq_iff_eq, Bool.not_eq_true', and_assoc] at both
  exact ⟨s, run, .of_exec sampleSuspensions_initial run, both⟩

/-- Directly, by the report decision that restores the booking itself, or with a restoration between the count and the
    write of a report decision or a content case. -/
theorem suspended_with_work : LeavesWork sampleDirectSuspension ∧ LeavesWork sampleReportedSuspension
    ∧ LeavesWork sampleRestoredMeanwhile ∧ LeavesWork sampleContentSuspension :=
  ⟨leavesWork_of_run (sample_any (by decide)), leavesWork_of_run (sample_any (by decide)),
    leavesWork_of_run (sample_any (by decide)), leavesWork_of_run (sample_any (by decide))⟩

end ServiceHub
