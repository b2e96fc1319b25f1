import ServiceHub.Account.Moderation
import ServiceHub.Account.Purge
import ServiceHub.Content.Cases
import ServiceHub.Market.Settlement
import ServiceHub.Membership.Policy

/-! # Deletion of an account

An account without obligations is purged. A payment that was given up is no obligation, although the gateway
may still report its intent as paid: the purge leaves no row of it to book or to refund.
-/

namespace ServiceHub

open Guard Relational

/-- A row of `payment_attempts` or `subscription_payments`. -/
def Table.payment : Table → Bool
  | .paymentAttempt | .subscriptionPayment => true
  | _ => false

/-- The tables, and by row the columns beside the ids that the deletion of an account and the capture of a
    payment read. -/
structure AccountData where
  tables : Tables
  service : Nat → ServiceStatus
  request : Nat → RequestStatus
  booking : Nat → BookingStatus
  bookingPayment : Nat → PaymentStatus
  cancellationRequest : Nat → CancellationStatus
  report : Nat → ReportStatus
  completionEscalation : Nat → EscalationStatus
  paymentAttempt : Nat → PaymentAttemptStatus
  subscriptionPayment : Nat → SubscriptionPaymentStatus
  paymentRefund : Nat → RefundStatus
  legalHold : Nat → Bool
  operation : Nat → OperationStatus
  operationStage : Nat → OperationStage
  banAppeal : Nat → BanAppealStatus
  queue : Nat → QueueStatus
  contentCase : Nat → ContentCaseStatus
  contentType : Nat → PublicContentType
  providerIntentId : Nat → Option GatewayId
  /-- The column is unique in either table, and no two intents of the gateway have one id. -/
  intents : ∀ r ∈ tables.rows, ∀ r' ∈ tables.rows, r.table.payment = true → r'.table.payment = true →
    (providerIntentId r.id).isSome = true → providerIntentId r.id = providerIntentId r'.id → r.id = r'.id

/-- `status IN ('PENDING', 'REFUND_REQUIRED')`. -/
def PaymentAttemptStatus.unresolved : PaymentAttemptStatus → Bool
  | .pending | .refundRequired => true
  | .succeeded | .failed | .expired | .refunded => false

def SubscriptionPaymentStatus.unresolved : SubscriptionPaymentStatus → Bool
  | .pending | .refundRequired => true
  | .succeeded | .failed | .expired | .cancelled | .refunded => false

/-- `["PENDING", "EXPIRED", "FAILED"].includes(attempt.status)`: the gateway is asked again. -/
def PaymentAttemptStatus.reconciled : PaymentAttemptStatus → Bool
  | .pending | .expired | .failed => true
  | .succeeded | .refundRequired | .refunded => false

/-- `!["SUCCEEDED", "REFUNDED"].includes(owned.paymentStatus)`. -/
def SubscriptionPaymentStatus.reconciled : SubscriptionPaymentStatus → Bool
  | .succeeded | .refunded => false
  | _ => true

/-- Over without a payment. -/
def PaymentAttemptStatus.givenUp : PaymentAttemptStatus → Bool
  | .failed | .expired => true
  | _ => false

def SubscriptionPaymentStatus.givenUp : SubscriptionPaymentStatus → Bool
  | .failed | .expired | .cancelled => true
  | _ => false

/-- `status IN ('PENDING', 'PROCESSING', 'FAILED')`. -/
def RefundStatus.unresolved : RefundStatus → Bool
  | .pending | .processing | .failed => true
  | .succeeded | .simulatedTestMode => false

/-- What `getDeletionEligibilityInTransaction` counts. -/
structure DeletionEligibility where
  counts : List (String × Nat)
  deriving Repr, DecidableEq

def DeletionEligibility.blockers (e : DeletionEligibility) : List (String × Nat) :=
  e.counts.filter fun c => 0 < c.2

def DeletionEligibility.eligible (e : DeletionEligibility) : Bool := e.blockers.isEmpty

/-- `seekerId = userId OR providerId = userId`. -/
def participates (userId : Nat) (r : Record) : Bool := r.has .seekerId userId || r.has .providerId userId

namespace AccountData

variable (userId : Nat) (d : AccountData)

def count (table : Table) (p : Record → Bool) : Nat := d.tables.rows.countP fun r => r.table = table && p r

def any (table : Table) (p : Record → Bool) : Bool := d.tables.rows.any fun r => r.table = table && p r

/-- `JOIN bookings b ON b.id = "bookingId" WHERE bookingScope`. -/
def onBooking (r : Record) (p : Record → Bool := fun _ => true) : Bool :=
  d.any .booking fun b => r.has .bookingId b.id && participates userId b && p b

/-- A case of content is never `UNDER_REVIEW`, which the query names besides `OPEN`. -/
def contentBlocks (c : Record) : Bool :=
  d.contentCase c.id == .open && (c.has .submitterId userId || c.has .contentOwnerId userId
    || d.contentType c.id == .serviceListing
      && d.any .service (fun s => c.has .resourceId s.id && s.has .providerId userId)
    || d.contentType c.id == .serviceRequest
      && d.any .serviceRequest fun r => c.has .resourceId r.id && r.has .seekerId userId)

def getDeletionEligibilityInTransaction : DeletionEligibility where
  counts := [
    ("activeListings", d.count .service fun r => r.has .providerId userId && d.service r.id == .active),
    ("openRequests", d.count .serviceRequest fun r => r.has .seekerId userId && d.request r.id == .open),
    ("nonterminalBookings", d.count .booking fun r => participates userId r && (d.booking r.id).active),
    ("heldPayments", d.count .booking fun r => participates userId r && (d.bookingPayment r.id).held),
    ("cancellations", d.count .cancellationRequest fun r => d.onBooking userId r fun b =>
      (d.cancellationRequest r.id).undecided || d.cancellationRequest r.id == .declined && (d.booking b.id).active),
    ("reports", d.count .report fun r =>
      (r.has .reporterId userId || r.has .reportedUserId userId) && (d.report r.id).active),
    ("completionEscalations", d.count .completionEscalation fun r =>
      d.onBooking userId r && (d.completionEscalation r.id).active),
    ("paymentAttempts",
      d.count .paymentAttempt (fun r => participates userId r && (d.paymentAttempt r.id).unresolved)
        + d.count .subscriptionPayment fun r => r.has .providerId userId && (d.subscriptionPayment r.id).unresolved),
    ("unresolvedRefunds", d.count .paymentRefund fun r => (d.paymentRefund r.id).unresolved
      && (r.has .requestedById userId || d.onBooking userId r
        || d.any .paymentAttempt fun a => r.has .paymentAttemptId a.id && participates userId a)),
    ("verificationHolds", d.count .serviceVerification fun r => r.has .userId userId && d.legalHold r.id),
    ("resolutionOperations", d.count .adminResolutionOperation fun r => d.onBooking userId r
      && (d.operation r.id == .processing || d.operation r.id == .failedRetryable)
      && d.operationStage r.id != .caseFinalized),
    ("banAppeals", d.count .banAppeal fun r => r.has .userId userId && d.banAppeal r.id == .pending),
    ("queueJobs", d.count .queue fun r => participates userId r && (d.queue r.id).active),
    ("contentCases", d.count .contentModerationCase (d.contentBlocks userId))]

theorem intents_below {db : Tables} (below : ∀ r' ∈ db.rows, ∃ r ∈ d.tables.rows, r'.Below r) :
    ∀ r ∈ db.rows, ∀ r' ∈ db.rows, r.table.payment = true → r'.table.payment = true →
      (d.providerIntentId r.id).isSome = true → d.providerIntentId r.id = d.providerIntentId r'.id → r.id = r'.id := by
  intro r listed r' listed' payment payment' intent same
  obtain ⟨r₀, before, up⟩ := below r listed
  obtain ⟨r₁, before', up'⟩ := below r' listed'
  rw [up.id] at intent same ⊢
  rw [up'.id] at same ⊢
  exact d.intents r₀ before r₁ before' (up.table ▸ payment) (up'.table ▸ payment') intent same

/-- The columns beside the ids stay with their rows. -/
def purge : Option AccountData :=
  match purged : purgeAccountData userId d.tables with
  | none => none
  | some after => some { d with
      tables := after.tables
      intents := d.intents_below (purgeAccountData_below purged) }

/-- The transaction of `deleteOwnAccount` after the credentials have been checked, and whether the account is
    deleted; nothing when the purge violates a foreign key. -/
def deleteOwnAccount : Option (AccountData × Bool) :=
  if (d.getDeletionEligibilityInTransaction userId).eligible then (d.purge userId).map (·, true) else some (d, false)

/-- `findUnique({ where: { providerIntentId } })`. -/
def findPayment (table : Table) (intentId : GatewayId) : Option Nat :=
  (d.tables.rows.find? fun r => r.table = table && d.providerIntentId r.id == some intentId).map (·.id)

end AccountData

def unregisteredPayment : HttpError := httpError "Payment attempt is not registered" 409 (some "UNREGISTERED_PAYMENT")

/-- The row that a captured payment is settled on. -/
inductive CapturedRow where
  | subscriptionPayment (id : Nat)
  | paymentAttempt (id : Nat)
  deriving Repr, DecidableEq

/-- `receivePaymongoWebhook` for a captured payment: `handleSubscriptionWebhook`, and for another intent the first
    lookup of `finalizeSuccessfulPayment`. -/
def AccountData.receiveCapture (d : AccountData) (intentId : GatewayId) : Except HttpError CapturedRow :=
  match d.findPayment .subscriptionPayment intentId with
  | some id => return .subscriptionPayment id
  | none => do
      let id ← orThrow (d.findPayment .paymentAttempt intentId) unregisteredPayment
      return .paymentAttempt id

/-- A payment that the member takes part in. -/
def paymentOf (userId : Nat) (r : Record) : Bool := match r.table with
  | .paymentAttempt => participates userId r
  | .subscriptionPayment => r.has .providerId userId
  | _ => false

/-- The purge names the payment, also for a listing or an offer in its scope. -/
def PurgeScope.deletes (s : PurgeScope) (r : Record) : Bool := match r.table with
  | .paymentAttempt => s.attempts.contains r.id
  | .subscriptionPayment => r.has .providerId s.userId
  | _ => false

namespace AccountData

variable (userId : Nat) (d : AccountData)

def reconciles (r : Record) : Bool := match r.table with
  | .paymentAttempt => (d.paymentAttempt r.id).reconciled
  | .subscriptionPayment => (d.subscriptionPayment r.id).reconciled
  | _ => false

def givenUp (r : Record) : Bool := match r.table with
  | .paymentAttempt => (d.paymentAttempt r.id).givenUp
  | .subscriptionPayment => (d.subscriptionPayment r.id).givenUp
  | _ => false

/-- The intent was handed to the gateway for the member, and its payment is still reconciled with the gateway. -/
def MayBeCaptured (intentId : GatewayId) : Prop :=
  ∃ r ∈ d.tables.rows, paymentOf userId r = true ∧ d.providerIntentId r.id = some intentId ∧ d.reconciles r = true

end AccountData

section Payments

variable {d after : AccountData} {userId i : Nat} {r r' : Record} {table : Table} {deleted : Bool}

theorem paymentOf_payment (h : paymentOf userId r = true) : r.table.payment = true := by
  unfold paymentOf at h
  split at h
  · rename_i table
    rw [table]
    rfl
  · rename_i table
    rw [table]
    rfl
  · cases h

theorem paymentOf_congr (table : r'.table = r.table) (seeker : r'.ids .seekerId = r.ids .seekerId)
    (provider : r'.ids .providerId = r.ids .providerId) : paymentOf userId r' = paymentOf userId r := by
  simp only [paymentOf, participates, Row.has, table, seeker, provider]

/-- The purge leaves no payment of the member. -/
theorem purged_payment {db : Tables} {p : Purged} (h : purgeAccountData userId db = some p)
    (listed : r ∈ p.tables.rows) : paymentOf userId r = false := by
  have run := purgeAccountData_run h
  unfold paymentOf participates
  split
  · rename_i table
    have seeker : userId ∉ r.ids .seekerId := Database.run_uncovered run (List.mem_of_getElem? (i := 12) rfl)
      (.inr ⟨_, _, rfl, List.mem_of_getElem? (i := 0) rfl, List.mem_singleton_self _⟩) listed table
    have provider : userId ∉ r.ids .providerId := Database.run_uncovered run (List.mem_of_getElem? (i := 12) rfl)
      (.inr ⟨_, _, rfl, List.mem_of_getElem? (i := 1) rfl, List.mem_singleton_self _⟩) listed table
    simp [Row.has, seeker, provider]
  · rename_i table
    have provider : userId ∉ r.ids .providerId := Database.run_uncovered run (List.mem_of_getElem? (i := 13) rfl)
      (.inl ⟨_, List.mem_of_getElem? (i := 0) rfl, List.mem_singleton_self _⟩) listed table
    simp [Row.has, provider]
  · rfl

/-- A key of a payment restricts. -/
theorem payment_restricts : ∀ k ∈ foreignKeys, k.table.payment = true → k.onDelete = .restrict := by
  decide

/-- The statements that name payments. -/
theorem PurgeScope.payment_statements (s : PurgeScope) : s.statements.filter (·.table.payment) =
    [⟨.paymentAttempt, { id := s.attempts }⟩, ⟨.subscriptionPayment, { columns := [(.providerId, [s.userId])] }⟩] :=
  rfl

/-- The purge reaches only payments that it names. -/
theorem PurgeScope.Reached.deletes {s : PurgeScope} {db : Tables} (h : s.Reached db r)
    (payment : r.table.payment = true) : s.deletes r = true := by
  cases h with
  | @named st _ statement _ table holds =>
      have listed : st ∈ s.statements.filter (·.table.payment) := by
        refine List.mem_filter.mpr ⟨statement, ?_⟩
        rw [← table]
        exact payment
      rw [s.payment_statements, List.mem_cons, List.mem_singleton] at listed
      obtain rfl | rfl := listed
      · simpa [PurgeScope.deletes, table, Where.holds] using holds
      · simpa [PurgeScope.deletes, table, Where.holds, Row.has] using holds
  | cascades _ refers _ =>
      obtain ⟨k, key, cascade, same, -⟩ := references_iff.mp refers
      cases cascade.symm.trans (payment_restricts k key (same ▸ payment))

namespace AccountData

theorem find_row (h : d.findPayment table i = some n) : ∃ r ∈ d.tables.rows, r.table = table
    ∧ d.providerIntentId r.id = some i ∧ r.id = n := by
  obtain ⟨r, found, rfl⟩ := Option.map_eq_some_iff.mp h
  have named := List.find?_some found
  simp only [Bool.and_eq_true, decide_eq_true_eq, beq_iff_eq] at named
  exact ⟨r, List.mem_of_find?_eq_some found, named.1, named.2, rfl⟩

theorem find_none : d.findPayment table i = none ↔ ∀ r ∈ d.tables.rows, r.table = table → d.providerIntentId r.id ≠ some i := by
  simp [findPayment, List.find?_eq_none]

/-- A payment is found by its intent. -/
theorem receiveCapture_row (listed : r ∈ d.tables.rows) (intent : d.providerIntentId r.id = some i) :
    (r.table = .paymentAttempt → d.receiveCapture i = .ok (.paymentAttempt r.id))
      ∧ (r.table = .subscriptionPayment → d.receiveCapture i = .ok (.subscriptionPayment r.id)) := by
  have only : ∀ {table n}, d.findPayment table i = some n → table.payment = true → r.table.payment = true →
      r.table = table ∧ n = r.id := by
    intro table n found payment payment'
    obtain ⟨r', listed', rfl, intent', rfl⟩ := find_row found
    have same := d.intents r listed r' listed' payment' payment (by rw [intent]; rfl) (intent.trans intent'.symm)
    obtain rfl := d.tables.same_row listed listed' same
    exact ⟨rfl, rfl⟩
  refine ⟨fun table => ?_, fun table => ?_⟩
  · have subscription : d.findPayment .subscriptionPayment i = none := by
      by_contra found
      obtain ⟨n, found⟩ := Option.ne_none_iff_exists'.mp found
      have wrong := (only found rfl (by rw [table]; rfl)).1
      rw [table] at wrong
      cases wrong
    obtain ⟨n, found⟩ : ∃ n, d.findPayment .paymentAttempt i = some n := by
      by_contra none
      rw [← Option.ne_none_iff_exists', not_not, find_none] at none
      exact none r listed table intent
    obtain ⟨-, rfl⟩ := only found rfl (by rw [table]; rfl)
    simp [receiveCapture, subscription, found, orThrow]
  · obtain ⟨n, found⟩ : ∃ n, d.findPayment .subscriptionPayment i = some n := by
      by_contra none
      rw [← Option.ne_none_iff_exists', not_not, find_none] at none
      exact none r listed table intent
    obtain ⟨-, rfl⟩ := only found rfl (by rw [table]; rfl)
    simp [receiveCapture, found]

/-- A capture is lost when no payment has the intent. -/
theorem receiveCapture_lost : d.receiveCapture i = .error unregisteredPayment
    ↔ ∀ r ∈ d.tables.rows, r.table.payment = true → d.providerIntentId r.id ≠ some i := by
  constructor
  · intro lost r listed payment intent
    obtain ⟨attempt, subscription⟩ := receiveCapture_row listed intent
    cases table : r.table <;> simp [table, Table.payment] at payment
    · rw [subscription table] at lost
      cases lost
    · rw [attempt table] at lost
      cases lost
  · intro unknown
    have none : ∀ table : Table, table.payment = true → d.findPayment table i = .none := fun table payment =>
      find_none.mpr fun r listed same => unknown r listed (by rw [same]; exact payment)
    simp [receiveCapture, none .subscriptionPayment rfl, none .paymentAttempt rfl, orThrow]

/-- No foreign key stops the purge of an account. -/
theorem purge_some (userId : Nat) (d : AccountData) : ∃ after, d.purge userId = some after := by
  obtain ⟨p, purged⟩ := purgeAccountData_some userId d.tables
  unfold purge
  split
  · rename_i stopped
    rw [purged] at stopped
    cases stopped
  · exact ⟨_, rfl⟩

theorem purge_tables (h : d.purge userId = some after) : ∃ p, purgeAccountData userId d.tables = some p
    ∧ after.tables = p.tables ∧ after.providerIntentId = d.providerIntentId := by
  unfold purge at h
  split at h
  · cases h
  · rename_i p purged
    obtain rfl := Option.some.inj h
    exact ⟨p, purged, rfl, rfl⟩

theorem deleteOwnAccount_ok (h : d.deleteOwnAccount userId = some (after, true)) :
    (d.getDeletionEligibilityInTransaction userId).eligible = true ∧ d.purge userId = some after := by
  unfold deleteOwnAccount at h
  split at h
  · rename_i eligible
    obtain ⟨purged, run, same⟩ := Option.map_eq_some_iff.mp h
    obtain ⟨rfl, -⟩ := Prod.mk.inj same
    exact ⟨eligible, run⟩
  · cases h

/-- The member has no unresolved payment. -/
theorem eligible_payments (h : (d.getDeletionEligibilityInTransaction userId).eligible = true) (listed : r ∈ d.tables.rows)
    (own : paymentOf userId r = true) (reconciled : d.reconciles r = true) : d.givenUp r = true := by
  have none : ∀ c ∈ (d.getDeletionEligibilityInTransaction userId).counts, c.2 = 0 := by
    simpa [DeletionEligibility.eligible, DeletionEligibility.blockers] using h
  have payments := none (_, _) (List.mem_of_getElem? (i := 7) rfl)
  simp only [count, Nat.add_eq_zero_iff, List.countP_eq_zero, Bool.and_eq_true, decide_eq_true_eq, not_and,
    Bool.not_eq_true] at payments
  unfold paymentOf at own
  unfold reconciles at reconciled
  unfold givenUp
  split at own
  · rename_i table
    have resolved := payments.1 r listed table own
    simp only [table] at reconciled ⊢
    cases status : d.paymentAttempt r.id <;> simp_all [PaymentAttemptStatus.unresolved,
      PaymentAttemptStatus.reconciled, PaymentAttemptStatus.givenUp]
  · rename_i table
    have resolved := payments.2 r listed table own
    simp only [table] at reconciled ⊢
    cases status : d.subscriptionPayment r.id <;> simp_all [SubscriptionPaymentStatus.unresolved,
      SubscriptionPaymentStatus.reconciled, SubscriptionPaymentStatus.givenUp]
  · cases own

theorem givenUp_reconciles (h : d.givenUp r = true) : d.reconciles r = true := by
  unfold givenUp at h
  unfold reconciles
  split at h
  · cases status : d.paymentAttempt r.id <;> simp_all [PaymentAttemptStatus.givenUp, PaymentAttemptStatus.reconciled]
  · cases status : d.subscriptionPayment r.id <;>
      simp_all [SubscriptionPaymentStatus.givenUp, SubscriptionPaymentStatus.reconciled]
  · cases h

/-- The capture of a payment of the deleted member is lost. -/
theorem purge_loses (h : d.purge userId = some after) (listed : r ∈ d.tables.rows) (own : paymentOf userId r = true)
    (intent : d.providerIntentId r.id = some i) : after.receiveCapture i = .error unregisteredPayment := by
  obtain ⟨p, purged, tables, intents⟩ := purge_tables h
  refine receiveCapture_lost.mpr fun r' listed' payment' intent' => ?_
  rw [tables] at listed'
  rw [intents] at intent'
  -- the row with the intent is still as it was
  have column : ∀ c, r'.Below r ∧ r'.ids c = r.ids c := by
    intro c
    obtain ⟨r₀, before, below, kept⟩ := Database.run_ids (purgeAccountData_run purged) (c := c) listed'
      fun k key clears table => by cases clears.symm.trans (payment_restricts k key (table ▸ payment'))
    rw [below.id] at intent'
    have same := d.intents r listed r₀ before (paymentOf_payment own) (below.table ▸ payment') (by rw [intent]; rfl)
      (intent.trans intent'.symm)
    obtain rfl := d.tables.same_row listed before same
    exact ⟨below, kept⟩
  have gone := purged_payment purged listed'
  rw [paymentOf_congr (column .seekerId).1.table (column .seekerId).2 (column .providerId).2, own] at gone
  cases gone

/-- A payment outside of the scope is settled as before. -/
theorem purge_keeps (h : d.purge userId = some after) (listed : r ∈ d.tables.rows) (payment : r.table.payment = true)
    (outside : (PurgeScope.read userId d.tables).deletes r = false) (intent : d.providerIntentId r.id = some i) :
    after.receiveCapture i = d.receiveCapture i := by
  obtain ⟨p, purged, tables, intents⟩ := purge_tables h
  obtain ⟨⟨r', listed', below⟩, -⟩ := purgeAccountData_frame purged listed fun reached => by
    rw [reached.deletes payment] at outside
    cases outside
  have here := receiveCapture_row (d := after) (tables ▸ listed') (i := i) (by rw [intents, below.id]; exact intent)
  have before := receiveCapture_row listed intent
  rw [below.table, below.id] at here
  cases table : r.table <;> simp [table, Table.payment] at payment
  · exact (here.2 table).trans (before.2 table).symm
  · exact (here.1 table).trans (before.1 table).symm

end AccountData

/-- A deletion loses no capture of a payment that is still reconciled exactly when the member has no payment
    with an intent that was given up. Payments that the purge does not name are settled as before. -/
theorem deletion_keeps_captures (h : d.deleteOwnAccount userId = some (after, true)) :
    ((∀ i, d.MayBeCaptured userId i → after.receiveCapture i ≠ .error unregisteredPayment)
        ↔ ∀ r ∈ d.tables.rows, paymentOf userId r = true → d.givenUp r = true → d.providerIntentId r.id = none)
      ∧ ∀ r ∈ d.tables.rows, r.table.payment = true → (PurgeScope.read userId d.tables).deletes r = false →
        ∀ i, d.providerIntentId r.id = some i → after.receiveCapture i = d.receiveCapture i := by
  obtain ⟨eligible, purged⟩ := AccountData.deleteOwnAccount_ok h
  refine ⟨⟨fun kept r listed own ended => ?_, fun settled i => ?_⟩, fun r listed payment outside i intent =>
    AccountData.purge_keeps purged listed payment outside intent⟩
  · by_contra handed
    obtain ⟨i, intent⟩ := Option.ne_none_iff_exists'.mp handed
    exact kept i ⟨r, listed, own, intent, AccountData.givenUp_reconciles ended⟩
      (AccountData.purge_loses purged listed own intent)
  · rintro ⟨r, listed, own, intent, reconciled⟩ -
    rw [settled r listed own (AccountData.eligible_payments eligible listed own reconciled)] at intent
    cases intent

end Payments

/-- The ids of the rows that the marketplace knows by numbers. -/
structure RowIds where
  user : UserId → Nat
  service : ServiceId → Nat
  offer : OfferId → Nat
  attempt : AttemptId → Nat

/-- The attempts of the marketplace are those of the tables. -/
structure AccountData.ShowsAttempts (d : AccountData) (ids : RowIds) (m : Market) : Prop where
  row : ∀ a x, m.findAttempt a = some x → ∃ r ∈ d.tables.rows, r.table = .paymentAttempt ∧ r.id = ids.attempt a
    ∧ r.ids .seekerId = [ids.user x.seekerId] ∧ r.ids .providerId = [ids.user x.providerId]
    ∧ r.ids .serviceId = (x.serviceId.map ids.service).toList ∧ r.ids .offerId = (x.offerId.map ids.offer).toList
    ∧ d.paymentAttempt r.id = x.status ∧ d.providerIntentId r.id = x.providerIntentId
  only : ∀ r ∈ d.tables.rows, r.table = .paymentAttempt → ∃ a x, m.findAttempt a = some x ∧ r.id = ids.attempt a

/-- A capture that no subscription payment is known for is settled on the attempt that the marketplace finds. -/
theorem receiveCapture_shows {d : AccountData} {ids : RowIds} {m : Market} {i : GatewayId}
    (shows : d.ShowsAttempts ids m) (other : d.findPayment .subscriptionPayment i = none) :
    (∀ a, m.findIntent i = some a → d.receiveCapture i = .ok (.paymentAttempt (ids.attempt a)))
      ∧ (m.findIntent i = none → d.receiveCapture i = .error unregisteredPayment) := by
  refine ⟨fun a found => ?_, fun unknown => ?_⟩
  · obtain ⟨x, listed, registered⟩ := Market.findIntent_some found
    obtain ⟨r, row, table, id, -, -, -, -, -, intent⟩ := shows.row a x listed
    rw [← id]
    exact (AccountData.receiveCapture_row row (intent.trans registered)).1 table
  · have none : d.findPayment .paymentAttempt i = none := by
      refine AccountData.find_none.mpr fun r row table intent => ?_
      obtain ⟨a, x, found, id⟩ := shows.only r row table
      obtain ⟨r', row', -, id', -, -, -, -, -, intent'⟩ := shows.row a x found
      obtain rfl := d.tables.same_row row row' (id.trans id'.symm)
      obtain ⟨y, listed, rfl⟩ := Option.map_eq_some_iff.mp found
      have unregistered := List.findIdx?_eq_none_iff.mp unknown y (List.mem_of_getElem? listed)
      rw [← intent', intent] at unregistered
      simp at unregistered
    simp [AccountData.receiveCapture, other, none, orThrow]

/-- The checkout of seeker 1 expires, and seeker 3 pays for the listing. -/
def sampleExpired : List MarketAction :=
  sampleCall 0 (.initiateOnlinePayment { seekerId := 1, serviceId := some 1 }) [.none, .none, .ok, .ok, .redirect none, .none]
    ++ (MarketAction.wait attemptTtlMs :: sampleCall 0 .expireStalePaymentAttempts [.none, .none]
      ++ sampleCall 0 (.initiateOnlinePayment { seekerId := 3, serviceId := some 1 })
        [.none, .none, .ok, .ok, .redirect none, .none])

/-- Seeker 1 pays after all. -/
def sampleLatePayment : List MarketAction :=
  .intent 0 .succeeded :: sampleCall 0 (.paidWebhook 0) [.ok, .none]

def sampleRow (table : Table) (id : Nat) (columns : List (Column × List Nat)) : Record where
  table := table
  id := id
  ids := fun c => (columns.lookup c).getD []

def sampleRowIds : RowIds where
  user := id
  service := (20 + ·)
  offer := (30 + ·)
  attempt := (10 + ·)

/-- Provider 2 with listing 21; the attempt of seeker 1 in a status, and that of seeker 3. -/
def sampleAccounts (status : PaymentAttemptStatus) : AccountData where
  tables := {
    rows := [sampleRow .user 1 [], sampleRow .user 2 [], sampleRow .user 3 [], sampleRow .service 21 [(.providerId, [2])],
      sampleRow .paymentAttempt 10 [(.seekerId, [1]), (.providerId, [2]), (.serviceId, [21])],
      sampleRow .paymentAttempt 11 [(.seekerId, [3]), (.providerId, [2]), (.serviceId, [21])]]
    distinct := by decide }
  service _ := .active
  request _ := .open
  booking _ := .waiting
  bookingPayment _ := .paidHeld
  cancellationRequest _ := .pending
  report _ := .pending
  completionEscalation _ := .pending
  paymentAttempt id := if id = 10 then status else .pending
  subscriptionPayment _ := .pending
  paymentRefund _ := .pending
  legalHold _ := true
  operation _ := .processing
  operationStage _ := .claimed
  banAppeal _ := .pending
  queue _ := .waiting
  contentCase _ := .open
  contentType _ := .serviceListing
  providerIntentId id := if id = 10 then some 0 else if id = 11 then some 1 else none
  intents := by decide

/-- The columns of an attempt that the tables hold. -/
structure AttemptColumns where
  seekerId : UserId
  providerId : UserId
  serviceId : Option ServiceId
  offerId : Option OfferId
  status : PaymentAttemptStatus
  providerIntentId : Option GatewayId
  deriving Repr, DecidableEq

def PaymentAttempt.columns (x : PaymentAttempt) : AttemptColumns :=
  ⟨x.seekerId, x.providerId, x.serviceId, x.offerId, x.status, x.providerIntentId⟩

def sampleAttempts (status : PaymentAttemptStatus) : List AttemptColumns :=
  [⟨1, 2, some 1, none, status, some 0⟩, ⟨3, 2, some 1, none, .pending, some 1⟩]

theorem sampleAccounts_shows {m : Market} {status : PaymentAttemptStatus}
    (h : m.attempts.map (·.file.attempt.columns) = sampleAttempts status) :
    (sampleAccounts status).ShowsAttempts sampleRowIds m := by
  obtain ⟨first, second, both⟩ : ∃ x y, m.attempts = [x, y] := by
    have two : m.attempts.length = 2 := by simpa [sampleAttempts] using congrArg List.length h
    exact List.length_eq_two.mp two
  have found : ∀ a x, m.findAttempt a = some x ↔ a = 0 ∧ first.file.attempt = x ∨ a = 1 ∧ second.file.attempt = x := by
    intro a x
    rw [Market.findAttempt, both]
    rcases a with _ | _ | a <;> simp
  simp only [sampleAttempts, both, List.map_cons, List.map_nil, List.cons.injEq, PaymentAttempt.columns,
    AttemptColumns.mk.injEq, and_true] at h
  obtain ⟨⟨seeker, provider, service, offer, state, intent⟩, seeker', provider', service', offer', state', intent'⟩ := h
  refine ⟨fun a x here => ?_, fun r listed table => ?_⟩
  · obtain ⟨rfl, rfl⟩ | ⟨rfl, rfl⟩ := (found a x).mp here
    · refine ⟨_, List.mem_of_getElem? (i := 4) rfl, rfl, rfl, ?_⟩
      rw [seeker, provider, service, offer, state, intent]
      exact ⟨rfl, rfl, rfl, rfl, rfl, rfl⟩
    · refine ⟨_, List.mem_of_getElem? (i := 5) rfl, rfl, rfl, ?_⟩
      rw [seeker', provider', service', offer', state', intent']
      exact ⟨rfl, rfl, rfl, rfl, rfl, rfl⟩
  · simp only [sampleAccounts, List.mem_cons, List.not_mem_nil, or_false] at listed
    obtain rfl | rfl | rfl | rfl | rfl | rfl := listed
    · cases table
    · cases table
    · cases table
    · cases table
    · exact ⟨0, _, (found _ _).mpr (.inl ⟨rfl, rfl⟩), rfl⟩
    · exact ⟨1, _, (found _ _).mpr (.inr ⟨rfl, rfl⟩), rfl⟩

theorem sampleAccounts_deleted {status : PaymentAttemptStatus} (ended : status = .expired ∨ status = .refunded) :
    ∃ after, (sampleAccounts status).deleteOwnAccount 1 = some (after, true) := by
  obtain ⟨after, purged⟩ := AccountData.purge_some 1 (sampleAccounts status)
  have eligible : ((sampleAccounts status).getDeletionEligibilityInTransaction 1).eligible = true := by
    obtain rfl | rfl := ended <;> decide
  exact ⟨after, by rw [AccountData.deleteOwnAccount, if_pos eligible, purged, Option.map_some]⟩

theorem deletion_keeps_captures_settled : ∃ after, (sampleAccounts .refunded).deleteOwnAccount 1 = some (after, true)
    ∧ (∀ i, (sampleAccounts .refunded).MayBeCaptured 1 i → after.receiveCapture i ≠ .error unregisteredPayment)
    ∧ after.receiveCapture 1 = .ok (.paymentAttempt 11) := by
  obtain ⟨after, deleted⟩ := sampleAccounts_deleted (.inr rfl)
  obtain ⟨own, others⟩ := deletion_keeps_captures deleted
  refine ⟨after, deleted, own.mpr (by decide), ?_⟩
  exact others _ (List.mem_of_getElem? (i := 5) rfl) rfl (by decide) 1 rfl

/-- Seeker 1 deletes the account after the checkout has expired, and then pays. Without the deletion the payment is
    refunded. -/
theorem expired_payment_lost : ∃ s t after, marketMachine.exec sampleMarket sampleExpired = some s
    ∧ (sampleAccounts .expired).ShowsAttempts sampleRowIds s.market ∧ (sampleAccounts .expired).MayBeCaptured 1 0
    ∧ (sampleAccounts .expired).deleteOwnAccount 1 = some (after, true)
    ∧ after.receiveCapture 0 = .error unregisteredPayment
    ∧ (sampleAccounts .expired).receiveCapture 0 = .ok (.paymentAttempt 10)
    ∧ marketMachine.exec s sampleLatePayment = some t
    ∧ (t.market.findAttempt 0).any (·.status == .refundRequired) = true := by
  obtain ⟨s, run, attempts, registered, late⟩ := sample_any (o := marketMachine.exec sampleMarket sampleExpired)
    (p := fun s => s.market.attempts.map (·.file.attempt.columns) = sampleAttempts .expired
      ∧ s.market.findIntent 0 = some 0
      ∧ (marketMachine.exec s sampleLatePayment).any (fun t =>
        (t.market.findAttempt 0).any (·.status == .refundRequired)) = true) (by decide)
  obtain ⟨t, paid, refundable⟩ := (Option.any_eq_true _ _).mp late
  obtain ⟨after, deleted⟩ := sampleAccounts_deleted (.inl rfl)
  have shows := sampleAccounts_shows attempts
  have purged := (AccountData.deleteOwnAccount_ok deleted).2
  exact ⟨s, t, after, run, shows, ⟨_, List.mem_of_getElem? (i := 4) rfl, rfl, rfl, rfl⟩, deleted,
    AccountData.purge_loses purged (List.mem_of_getElem? (i := 4) rfl) rfl rfl,
    (receiveCapture_shows shows rfl).1 0 registered, paid, refundable⟩

end ServiceHub
