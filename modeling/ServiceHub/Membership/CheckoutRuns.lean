import ServiceHub.Membership.CheckoutEvents

/-! # Subscription payments are applied once

The rows of the payments and the timestamp of the membership agree in every reachable state. A
captured payment that is finalized is decided for good, and a grant finds the membership as it was
quoted, as far as the timestamp tells.
-/

namespace ServiceHub

/-- What a payment has reached, against the timestamp of the membership. -/
structure Checkout.Ok (providerId : UserId) (stamp : Millis) (i : Nat) (c : Checkout) : Prop where
  linked : c.Linked providerId i
  quoted : ∃ q, c.payment.quotedMembershipUpdatedAt = some q ∧ q ≤ stamp
  settled : c.payment.paymentStatus.settled = true → c.captured = true ∧ c.payment.paymentReference.isSome = true
  period : c.payment.subscriptionStartedAt.isSome = (c.payment.paymentStatus == .succeeded)
    ∧ c.payment.subscriptionExpiresAt.isSome = (c.payment.paymentStatus == .succeeded)
  paid : c.payment.paymentStatus = .succeeded → ∃ t, c.payment.paidAt = some t ∧ t ≤ stamp
    ∧ ∀ q, c.payment.quotedMembershipUpdatedAt = some q → q ≤ t

section Rows

variable {c c' : Checkout} {providerId : UserId} {stamp stamp' now : Millis} {i : Nat}

theorem Checkout.Ok.mono (h : c.Ok providerId stamp i) (le : stamp ≤ stamp') : c.Ok providerId stamp' i := by
  refine ⟨h.linked, ?_, h.settled, h.period, fun done => ?_⟩
  · obtain ⟨q, quoted, below⟩ := h.quoted
    exact ⟨q, quoted, Nat.le_trans below le⟩
  · obtain ⟨t, paid, below, after⟩ := h.paid done
    exact ⟨t, paid, Nat.le_trans below le, after⟩

/-- Outside of a grant no payment becomes PENDING or SUCCEEDED. -/
theorem Checkout.Move.earlier (h : c.Move now providerId i c') :
    (c'.payment.paymentStatus = .pending → c.payment.paymentStatus = .pending)
    ∧ (c'.payment.paymentStatus = .succeeded →
        c.payment.paymentStatus = .succeeded ∧ c'.payment.paidAt = c.payment.paidAt) := by
  cases h with
  | noted | stored | progressed | registered => exact ⟨id, fun done => ⟨done, rfl⟩⟩
  | @lapsed status _ pending lapses => 
      refine ⟨fun _ => pending, fun done => ?_⟩
      obtain rfl : status = .succeeded := done
      cases lapses
  | refused | refunded => exact ⟨fun h => (by cases h), fun h => (by cases h)⟩

theorem SubscriptionIntent.Of.progress {payment : SubscriptionPayment} {intent : SubscriptionIntent}
    (h : intent.Of providerId i payment) (status : SubscriptionIntentStatus) :
    (intent.progress i status).Of providerId i payment := by
  by_cases done : intent.status = .succeeded
  · rw [SubscriptionIntent.progress_succeeded done]
    exact h
  · simp only [SubscriptionIntent.progress, done, if_false]
    refine ⟨h.amount, h.currency, h.metadata, fun succeeded => ?_⟩
    simp only at succeeded
    simp [succeeded]

theorem Checkout.Linked.move (h : c.Linked providerId i) (move : c.Move now providerId i c') :
    c'.Linked providerId i := by
  cases move with
  | noted | lapsed | refunded | refused =>
      refine ⟨h.registered, fun intent stored => ?_⟩
      obtain ⟨amount, currency, metadata, paid⟩ := h.intent intent stored
      exact ⟨amount, currency, metadata, paid⟩
  | stored =>
      refine ⟨fun j registered => ⟨(h.registered j registered).1, rfl⟩, fun intent stored => ?_⟩
      obtain rfl := Option.some.inj stored
      cases old : c.intent with
      | none => exact ⟨rfl, rfl, rfl, fun succeeded => nomatch succeeded⟩
      | some intent => exact h.intent intent old
  | progressed =>
      refine ⟨fun j registered => ?_, fun intent stored => ?_⟩
      · obtain ⟨same, stored⟩ := h.registered j registered
        exact ⟨same, by simpa using stored⟩
      · obtain ⟨old, known, rfl⟩ := Option.map_eq_some_iff.mp stored
        exact (h.intent old known).progress _
  | registered stored =>
      refine ⟨fun j registered => ?_, fun intent stored => ?_⟩
      · exact ⟨(Option.some.inj registered).symm, stored⟩
      · obtain ⟨amount, currency, metadata, paid⟩ := h.intent intent stored
        exact ⟨amount, currency, metadata, paid⟩

theorem Checkout.Ok.move (h : c.Ok providerId stamp i) (move : c.Move now providerId i c') :
    c'.Ok providerId stamp i := by
  have later := move.later
  refine ⟨h.linked.move move, later.quoted ▸ h.quoted, ?_, ?_, fun done => ?_⟩
  · cases move with
    | noted => exact h.settled
    | stored | progressed | registered => exact fun settled => ⟨later.captured (h.settled settled).1, (h.settled settled).2⟩
    | @lapsed status _ _ lapses => exact fun settled => by cases status <;> cases lapses <;> cases settled
    | refused captured => exact fun _ => ⟨captured, rfl⟩
    | refunded refunding =>
        refine fun _ => h.settled ?_
        cases status : c.payment.paymentStatus <;> simp [status, SubscriptionPaymentStatus.refunding] at refunding <;> rfl
  · have same : (c'.payment.paymentStatus == .succeeded) = (c.payment.paymentStatus == .succeeded) := by
      rw [Bool.eq_iff_iff, beq_iff_eq, beq_iff_eq]
      exact ⟨fun done => (move.earlier.2 done).1, fun done => (later.succeeded done).1⟩
    rw [same]
    cases move <;> exact h.period
  · obtain ⟨before, same⟩ := move.earlier.2 done
    rw [same, later.quoted]
    exact h.paid before

end Rows

/-- The rows of the payments, in the order of the membership's timestamps. -/
structure Subscriptions.Ok (s : Subscriptions) : Prop where
  stamp : s.provider.subscriptionUpdatedAt ≤ s.now
  enrolled : s.checkouts ≠ [] → s.provider.freePlanStartedAt.isSome = true
  rows : ∀ (i : Nat) (c : Checkout), s.checkouts[i]? = some c → c.Ok s.providerId s.provider.subscriptionUpdatedAt i
  pending : ∀ (i j : Nat) (c d : Checkout), s.checkouts[i]? = some c → s.checkouts[j]? = some d →
    c.payment.paymentStatus = .pending → d.payment.paymentStatus = .pending → i = j
  /-- Of two payments on one timestamp, one was applied at that very time. -/
  once : ∀ (i j : Nat) (c d : Checkout), s.checkouts[i]? = some c → s.checkouts[j]? = some d →
    c.payment.paymentStatus = .succeeded → d.payment.paymentStatus = .succeeded →
    c.payment.quotedMembershipUpdatedAt = d.payment.quotedMembershipUpdatedAt →
    i = j ∨ c.payment.paidAt = c.payment.quotedMembershipUpdatedAt
      ∨ d.payment.paidAt = d.payment.quotedMembershipUpdatedAt

section Tables

variable {s t : Subscriptions} {i : Nat} {c : Checkout} {paymentId : GatewayId}

theorem Subscriptions.Ok.linked (h : s.Ok) : s.Linked := fun i c found => (h.rows i c found).linked

/-- A grant is bought on the timestamp that the membership still has, and for a period that has both ends. -/
theorem Grant.period (h : Grant s t i c paymentId) : (c.payment.period s.now s.provider).1.isSome = true
    ∧ (c.payment.period s.now s.provider).2.isSome = true := by
  have applicable := h.applicable
  unfold SubscriptionPayment.period
  split
  · rename_i upgrade
    simp only [SubscriptionPayment.applicable, upgrade, if_true, Bool.and_eq_true, beq_iff_eq] at applicable
    obtain ⟨-, ⟨⟨access, basic⟩, -⟩, same⟩ := applicable
    simp only [Provider.marketplaceAccess, Provider.startsAt, Provider.expiresAt, basic, reduceCtorEq, if_false,
      Bool.and_eq_true] at access
    refine ⟨?_, same ▸ ?_⟩
    · cases starts : s.provider.subscriptionStartedAt <;> simp [starts] at access ⊢
    · cases expires : s.provider.subscriptionExpiresAt <;> simp [expires] at access ⊢
  · exact ⟨rfl, rfl⟩

theorem Grant.quoted (h : Grant s t i c paymentId) (q : Millis) (quoted : c.payment.quotedMembershipUpdatedAt = some q) :
    q = s.provider.subscriptionUpdatedAt := by
  have applicable := h.applicable
  simp only [SubscriptionPayment.applicable, quoted, Option.all_some, Bool.and_eq_true, beq_iff_eq] at applicable
  exact applicable.1.2

theorem Grant.row_ok (h : Grant s t i c paymentId) (ok : s.Ok) :
    Checkout.Ok s.providerId s.now i { c with payment := (c.payment.grant s.now paymentId s.provider).2 } := by
  obtain ⟨linked, ⟨q, quoted, below⟩, -, -, -⟩ := ok.rows i c h.found
  refine ⟨⟨linked.registered, fun intent stored => ?_⟩, ⟨q, quoted, Nat.le_trans below ok.stamp⟩,
    fun _ => ⟨h.captured, rfl⟩, h.period, fun _ => ⟨s.now, rfl, Nat.le_refl _, fun q' quoted' => ?_⟩⟩
  · obtain ⟨amount, currency, metadata, paid⟩ := linked.intent intent stored
    exact ⟨amount, currency, metadata, paid⟩
  · exact h.quoted q' quoted' ▸ ok.stamp

theorem set_rows {rows : List Checkout} {d e : Checkout} {j : Nat} (h : (rows.set i d)[j]? = some e) :
    (j = i ∧ e = d) ∨ (j ≠ i ∧ rows[j]? = some e) := by
  rw [List.getElem?_set] at h
  split at h
  · rename_i same
    subst same
    split at h
    · exact .inl ⟨rfl, (Option.some.inj h).symm⟩
    · cases h
  · rename_i other
    exact .inr ⟨fun same => other same.symm, h⟩

/-- The timestamp of a membership that has begun never goes back. -/
theorem Subscriptions.Change.stamp (h : s.Change t) (ok : s.Ok) (enrolled : s.provider.freePlanStartedAt.isSome = true) :
    t.provider.freePlanStartedAt.isSome = true
      ∧ s.provider.subscriptionUpdatedAt ≤ t.provider.subscriptionUpdatedAt := by
  cases h with
  | membership move =>
      cases move with
      | moderated | expired => exact ⟨enrolled, Nat.le_refl _⟩
      | trial fresh => simp [fresh] at enrolled
      | cancelled => exact ⟨enrolled, ok.stamp⟩
  | granted grant => exact grant.after ▸ ⟨enrolled, ok.stamp⟩
  | same | waited | quoted | created | moved => exact ⟨enrolled, Nat.le_refl _⟩

/-- A write to the account leaves the rows in order. -/
theorem Subscriptions.Ok.membership {provider : Provider} (h : s.Ok) (move : s.provider.Move s.now provider) :
    Subscriptions.Ok { s with provider } := by
  have begun (some_ : s.checkouts ≠ []) := Subscriptions.Change.stamp (.membership move) h (h.enrolled some_)
  refine ⟨?_, fun some_ => (begun some_).1, fun i c found => ?_, h.pending, h.once⟩
  · cases move with
    | moderated | expired => exact h.stamp
    | trial fresh past => exact past
    | cancelled => exact Nat.le_refl _
  · have some_ : s.checkouts ≠ [] := fun empty => by simp [empty] at found
    exact (h.rows i c found).mono (begun some_).2

theorem Subscriptions.Ok.created {payment : SubscriptionPayment} (h : s.Ok)
    (idle : ∀ c ∈ s.checkouts, c.payment.paymentStatus ≠ .pending) (enrolled : s.provider.freePlanStartedAt.isSome = true)
    (new : payment.New s.provider.subscriptionUpdatedAt) :
    Subscriptions.Ok { s with checkouts := s.checkouts ++ [{ payment }] } := by
  have row {j : Nat} {d : Checkout} (found : (s.checkouts ++ [{ payment := payment }])[j]? = some d) :
      s.checkouts[j]? = some d ∨ (j = s.checkouts.length ∧ d = { payment := payment }) := by
    rcases Nat.lt_or_ge j s.checkouts.length with old | new_
    · exact .inl (by simpa [List.getElem?_append_left old] using found)
    · rw [List.getElem?_append_right new_] at found
      obtain ⟨bound, here⟩ := List.getElem?_eq_some_iff.mp found
      simp only [List.length_singleton] at bound
      exact .inr ⟨by omega, by simpa using here.symm⟩
  refine ⟨h.stamp, fun _ => enrolled, fun j d found => ?_, fun i j c d foundI foundJ pendingC pendingD => ?_,
    fun i j c d foundI foundJ doneC doneD same => ?_⟩
  · rcases row found with old | ⟨rfl, rfl⟩
    · exact h.rows j d old
    · refine ⟨⟨by simp [new.intent], by simp⟩, ⟨_, new.quoted, Nat.le_refl _⟩, ?_, ?_, ?_⟩
      · simp [new.status, SubscriptionPaymentStatus.settled]
      · simp [new.status, new.period.1, new.period.2]
      · simp [new.status]
  · rcases row foundI with oldI | ⟨rfl, rfl⟩
    · exact absurd pendingC (idle c (List.mem_of_getElem? oldI))
    · rcases row foundJ with oldJ | ⟨rfl, rfl⟩
      · exact absurd pendingD (idle d (List.mem_of_getElem? oldJ))
      · rfl
  · rcases row foundI with oldI | ⟨rfl, rfl⟩
    · rcases row foundJ with oldJ | ⟨rfl, rfl⟩
      · exact h.once i j c d oldI oldJ doneC doneD same
      · simp [new.status] at doneD
    · simp [new.status] at doneC

theorem Subscriptions.Ok.moved {c' : Checkout} (h : s.Ok) (found : s.checkouts[i]? = some c)
    (move : c.Move s.now s.providerId i c') : Subscriptions.Ok { s with checkouts := s.checkouts.set i c' } := by
  have row {j : Nat} {d : Checkout} (listed : (s.checkouts.set i c')[j]? = some d) :
      ∃ e, s.checkouts[j]? = some e ∧ d.Ok s.providerId s.provider.subscriptionUpdatedAt j
        ∧ d.payment.quotedMembershipUpdatedAt = e.payment.quotedMembershipUpdatedAt
        ∧ (d.payment.paymentStatus = .pending → e.payment.paymentStatus = .pending)
        ∧ (d.payment.paymentStatus = .succeeded →
          e.payment.paymentStatus = .succeeded ∧ d.payment.paidAt = e.payment.paidAt) := by
    rcases set_rows listed with ⟨rfl, rfl⟩ | ⟨-, old⟩
    · exact ⟨c, found, (h.rows j c found).move move, move.later.quoted, move.earlier⟩
    · exact ⟨d, old, h.rows j d old, rfl, id, fun done => ⟨done, rfl⟩⟩
  refine ⟨h.stamp, fun _ => h.enrolled fun empty => by simp [empty] at found, fun j d listed => ?_,
    fun j k d e listedD listedE pendingD pendingE => ?_, fun j k d e listedD listedE doneD doneE same => ?_⟩
  · obtain ⟨-, -, ok, -⟩ := row listed
    exact ok
  · obtain ⟨d', oldD, -, -, beforeD, -⟩ := row listedD
    obtain ⟨e', oldE, -, -, beforeE, -⟩ := row listedE
    exact h.pending j k d' e' oldD oldE (beforeD pendingD) (beforeE pendingE)
  · obtain ⟨d', oldD, -, quotedD, -, beforeD⟩ := row listedD
    obtain ⟨e', oldE, -, quotedE, -, beforeE⟩ := row listedE
    obtain ⟨doneD', paidD⟩ := beforeD doneD
    obtain ⟨doneE', paidE⟩ := beforeE doneE
    rw [paidD, paidE, quotedD, quotedE] 
    exact h.once j k d' e' oldD oldE doneD' doneE' (quotedD ▸ quotedE ▸ same)

/-- An earlier payment on the timestamp of a grant was applied at that time. -/
theorem Grant.earlier (h : Grant s t i c paymentId) (ok : s.Ok) {j : Nat} {d : Checkout}
    (found : s.checkouts[j]? = some d) (done : d.payment.paymentStatus = .succeeded)
    (same : d.payment.quotedMembershipUpdatedAt = c.payment.quotedMembershipUpdatedAt) :
    d.payment.paidAt = d.payment.quotedMembershipUpdatedAt := by
  obtain ⟨t, paid, below, after⟩ := (ok.rows j d found).paid done
  obtain ⟨q, quoted, -⟩ := (ok.rows j d found).quoted
  have stamp := h.quoted q (same ▸ quoted)
  have lower := after q quoted
  rw [paid, quoted]
  exact congrArg some (Nat.le_antisymm (stamp ▸ below) lower)

theorem Subscriptions.Ok.granted (h : s.Ok) (grant : Grant s t i c paymentId) : t.Ok := by
  obtain rfl := grant.after
  have some_ : s.checkouts ≠ [] := fun empty => by have found := grant.found; simp [empty] at found
  refine ⟨Nat.le_refl _, fun _ => h.enrolled some_, fun j d listed => ?_,
    fun j k d e listedD listedE pendingD pendingE => ?_, fun j k d e listedD listedE doneD doneE same => ?_⟩
  · rcases set_rows listed with ⟨rfl, rfl⟩ | ⟨-, old⟩
    · exact grant.row_ok h
    · exact (h.rows j d old).mono h.stamp
  · rcases set_rows listedD with ⟨rfl, rfl⟩ | ⟨-, oldD⟩
    · cases pendingD
    · rcases set_rows listedE with ⟨rfl, rfl⟩ | ⟨-, oldE⟩
      · cases pendingE
      · exact h.pending j k d e oldD oldE pendingD pendingE
  · rcases set_rows listedD with ⟨rfl, rfl⟩ | ⟨-, oldD⟩
    · rcases set_rows listedE with ⟨rfl, rfl⟩ | ⟨-, oldE⟩
      · exact .inl rfl
      · exact .inr (.inr (grant.earlier h oldE doneE same.symm))
    · rcases set_rows listedE with ⟨rfl, rfl⟩ | ⟨-, oldE⟩
      · exact .inr (.inl (grant.earlier h oldD doneD same))
      · exact h.once j k d e oldD oldE doneD doneE same

theorem Subscriptions.Ok.change (h : s.Ok) (change : s.Change t) : t.Ok := by
  cases change with
  | same => exact h
  | quoted => exact ⟨h.stamp, h.enrolled, h.rows, h.pending, h.once⟩
  | waited => exact ⟨Nat.le_trans h.stamp (Nat.le_add_right _ _), h.enrolled, h.rows, h.pending, h.once⟩
  | membership move => exact h.membership move
  | created idle enrolled new => exact h.created idle enrolled new
  | moved found move => exact h.moved found move
  | granted grant => exact h.granted grant

end Tables

/-- The account without what moderation writes. -/
def Provider.membership (p : Provider) : Provider :=
  { p with isActive := true, deactivatedAt := none, moderationStatus := .active }

namespace Subscriptions

/-- What holds of the payments at any time. -/
structure Booked (s : Subscriptions) : Prop where
  onePending : ∀ (i j : Nat) (p q : SubscriptionPayment), s.find i = some p → s.find j = some q →
    p.paymentStatus = .pending → q.paymentStatus = .pending → i = j
  /-- A period is granted to the payments that are SUCCEEDED, and to no other. -/
  period : ∀ (i : Nat) (p : SubscriptionPayment), s.find i = some p →
    p.subscriptionStartedAt.isSome = (p.paymentStatus == .succeeded)
      ∧ p.subscriptionExpiresAt.isSome = (p.paymentStatus == .succeeded)
  /-- Of two payments that were applied on one timestamp of the membership, one was applied at that very time. -/
  once : ∀ (i j : Nat) (p q : SubscriptionPayment), s.find i = some p → s.find j = some q →
    p.paymentStatus = .succeeded → q.paymentStatus = .succeeded →
    p.quotedMembershipUpdatedAt = q.quotedMembershipUpdatedAt →
    i = j ∨ p.paidAt = p.quotedMembershipUpdatedAt ∨ q.paidAt = q.quotedMembershipUpdatedAt

/-- Payment `i` has been captured: its intent succeeded at the gateway and is stored on the row. -/
def Captured (s : Subscriptions) (i : Nat) : Prop := ∃ c, s.checkouts[i]? = some c ∧ c.captured = true

def Settled (s : Subscriptions) (i : Nat) : Prop := ∃ p, s.find i = some p ∧ p.paymentStatus.settled = true

/-- What a payment has reached stays. -/
structure Kept (s t : Subscriptions) : Prop where
  succeeded : ∀ (i : Nat) (p : SubscriptionPayment), s.find i = some p → p.paymentStatus = .succeeded →
    ∃ q, t.find i = some q ∧ q.paymentStatus = .succeeded ∧ q.subscriptionStartedAt = p.subscriptionStartedAt
      ∧ q.subscriptionExpiresAt = p.subscriptionExpiresAt ∧ q.paidAt = p.paidAt
  refunding : ∀ (i : Nat) (p : SubscriptionPayment), s.find i = some p → p.paymentStatus.refunding = true →
    ∃ q, t.find i = some q ∧ q.paymentStatus.refunding = true

/-- The step from `s` to `t` applies payment `i` to the membership. -/
def Grants (i : Nat) (s t : Subscriptions) : Prop :=
  ∃ before after, s.find i = some before ∧ before.paymentStatus.settled = false
    ∧ t.find i = some after ∧ after.paymentStatus = .succeeded ∧ t.provider.subscriptionPlan = after.plan.plan
    ∧ t.provider.subscriptionStartedAt = after.subscriptionStartedAt
    ∧ t.provider.subscriptionExpiresAt = after.subscriptionExpiresAt

def SamePeriod (s t : Subscriptions) : Prop :=
  t.provider.subscriptionPlan = s.provider.subscriptionPlan
    ∧ t.provider.subscriptionStartedAt = s.provider.subscriptionStartedAt
    ∧ t.provider.subscriptionExpiresAt = s.provider.subscriptionExpiresAt

/-- A step that a timestamp `stamp` of the membership does not tell. -/
def Unnoticed (stamp : Millis) (s t : Subscriptions) : Prop :=
  t.provider.membership = s.provider.membership
    ∨ (s.provider.expiresAt.any (· ≤ s.now) = true ∧ t.provider = { s.provider with subscriptionStatus := .expired })
    ∨ s.now = stamp

end Subscriptions

/-- The statements of a reconciliation lead a captured payment to its decision. -/
structure SubscriptionSystem.Reconciles (s : SubscriptionSystem) : Prop where
  found : ∀ (origin : ReconcileOrigin) (i : Nat) (reply : SubscriptionReply), s.tables.Captured i →
    s.tables.Settled i ∨ ∃ owned, s.tables.resume reply (.reconcile origin i) = some (s.tables, some (.retrieve origin i owned))
  retrieved : ∀ (origin : ReconcileOrigin) (i : Nat) (owned : SubscriptionPayment), s.tables.Captured i →
    ∃ intent, s.tables.resume .ok (.retrieve origin i owned) = some (s.tables, some (.finalize origin i intent))
  decided : ∀ (origin : ReconcileOrigin) (i : Nat) (intent : SubscriptionIntent) (reply : SubscriptionReply),
    .finalize origin i intent ∈ s.calls →
    ∃ t next, s.tables.resume reply (.finalize origin i intent) = some (t, next) ∧ t.Settled i

section Runs

variable {s t u : SubscriptionSystem} {a : SubscriptionAction} {i : Nat}

/-- The rows are in order, and every call in flight can rely on what it needs. -/
structure SubscriptionSystem.Ok (s : SubscriptionSystem) : Prop where
  tables : s.tables.Ok
  calls : ∀ call ∈ s.calls, call.Ok s.tables

theorem SubscriptionSystem.Ok.next (h : s.Ok) (step : s.step a = some t) : s.tables.Change t.tables ∧ t.Ok := by
  obtain ⟨change, calls⟩ := step_change h.tables.linked h.calls step
  exact ⟨change, h.tables.change change, calls⟩

theorem subscriptions_ok (h : subscriptionMachine.Reachable s) : s.Ok := by
  refine h.invariant (fun s start => ?_) fun s a t ok step => (ok.next step).2
  obtain ⟨free, fresh, stamp, -, empty, calls⟩ := start
  refine ⟨⟨stamp, fun some_ => absurd empty some_, ?_, ?_, ?_⟩, by simp [calls]⟩ <;> simp [empty]

theorem Subscriptions.Ok.booked {s : Subscriptions} (h : s.Ok) : s.Booked := by
  refine ⟨fun i j p q foundP foundQ => ?_, fun i p found => ?_, fun i j p q foundP foundQ => ?_⟩
  · obtain ⟨c, foundC, rfl⟩ := find_some.mp foundP
    obtain ⟨d, foundD, rfl⟩ := find_some.mp foundQ
    exact h.pending i j c d foundC foundD
  · obtain ⟨c, foundC, rfl⟩ := find_some.mp found
    exact (h.rows i c foundC).period
  · obtain ⟨c, foundC, rfl⟩ := find_some.mp foundP
    obtain ⟨d, foundD, rfl⟩ := find_some.mp foundQ
    exact h.once i j c d foundC foundD

theorem captured_registered {c : Checkout} (ok : s.Ok) (found : s.tables.checkouts[i]? = some c)
    (captured : c.captured = true) : c.payment.providerIntentId = some i ∧ ∃ intent, c.intent = some intent
      ∧ intent.status = .succeeded := by
  simp only [Checkout.captured, Bool.and_eq_true, Option.any_eq_true, beq_iff_eq] at captured
  obtain ⟨registered, intent, stored, succeeded⟩ := captured
  obtain ⟨j, listed⟩ := Option.isSome_iff_exists.mp registered
  exact ⟨((ok.tables.linked i c found).registered j listed).1 ▸ listed, intent, stored, succeeded⟩

theorem SubscriptionSystem.Ok.reconciles (ok : s.Ok) : s.Reconciles := by
  refine ⟨fun origin i reply captured => ?_, fun origin i owned captured => ?_, fun origin i intent reply waiting => ?_⟩
  · obtain ⟨c, found, captured⟩ := captured
    obtain ⟨registered, -⟩ := captured_registered ok found captured
    have listed : (s.tables.find i).filter (·.providerIntentId == some i) = some c.payment := by
      rw [find_some.mpr ⟨c, found, rfl⟩]
      simp [registered]
    by_cases done : c.payment.paymentStatus = .succeeded ∨ c.payment.paymentStatus = .refunded
    · refine .inl ⟨c.payment, find_some.mpr ⟨c, found, rfl⟩, ?_⟩
      rcases done with done | done <;> rw [done] <;> rfl
    · refine .inr ⟨c.payment, ?_⟩
      simp only [Subscriptions.resume, listed, done, if_false]
  · obtain ⟨c, found, captured⟩ := captured
    obtain ⟨-, intent, stored, succeeded⟩ := captured_registered ok found captured
    exact ⟨intent, by simp [Subscriptions.resume, found, stored, ReconcileOrigin.retrieved, succeeded]⟩
  · obtain ⟨c, found, captured, of, succeeded⟩ := ok.calls _ waiting
    have bound := (List.getElem?_eq_some_iff.mp found).1
    simp only [Subscriptions.resume]
    rcases finalize_cases (ok.tables.linked i c found) found captured of succeeded with
      ⟨settled, run⟩ | ⟨t, paymentId, grant, run⟩ | ⟨-, paymentId, run⟩
    · rw [run]
      exact ⟨_, _, rfl, _, find_some.mpr ⟨c, found, rfl⟩, settled⟩
    · rw [run]
      obtain rfl := grant.after
      exact ⟨_, _, rfl, _, find_some.mpr ⟨_, List.getElem?_set_self bound, rfl⟩, rfl⟩
    · rw [run]
      exact ⟨_, _, rfl, _, find_some.mpr ⟨_, List.getElem?_set_self bound, rfl⟩, rfl⟩

/-- Every row stays, and keeps what it has reached. -/
theorem run_rows (ok : s.Ok) (run : subscriptionMachine.RunUnder (fun _ _ => True) s t) {c : Checkout}
    (found : s.tables.checkouts[i]? = some c) : ∃ c', t.tables.checkouts[i]? = some c' ∧ c.Later c' := by
  have both : t.Ok ∧ ∃ c', t.tables.checkouts[i]? = some c' ∧ c.Later c' := by
    refine run.invariant (I := fun u => u.Ok ∧ ∃ c', u.tables.checkouts[i]? = some c' ∧ c.Later c')
      (fun u a v known _ step => ?_) ⟨ok, c, found, .refl c⟩
    obtain ⟨ok, c', found', later⟩ := known
    obtain ⟨change, next⟩ := ok.next step
    obtain ⟨c'', found'', later'⟩ := change.row found'
    exact ⟨next, c'', found'', later.trans later'⟩
  exact both.2

theorem run_kept (ok : s.Ok) (run : subscriptionMachine.RunUnder (fun _ _ => True) s t) : s.tables.Kept t.tables := by
  refine ⟨fun i p found done => ?_, fun i p found refunding => ?_⟩
  · obtain ⟨c, foundC, rfl⟩ := find_some.mp found
    obtain ⟨c', found', later⟩ := run_rows ok run foundC
    exact ⟨c'.payment, find_some.mpr ⟨c', found', rfl⟩, later.succeeded done⟩
  · obtain ⟨c, foundC, rfl⟩ := find_some.mp found
    obtain ⟨c', found', later⟩ := run_rows ok run foundC
    exact ⟨c'.payment, find_some.mpr ⟨c', found', rfl⟩, later.refunding refunding⟩

theorem run_settled (ok : s.Ok) (run : subscriptionMachine.RunUnder (fun _ _ => True) s t)
    (settled : s.tables.Settled i) : t.tables.Settled i := by
  obtain ⟨p, found, settled⟩ := settled
  by_cases done : p.paymentStatus = .succeeded
  · obtain ⟨q, found', done', -⟩ := (run_kept ok run).succeeded i p found done
    exact ⟨q, found', by rw [done']; rfl⟩
  · have refunding : p.paymentStatus.refunding = true := by
      cases status : p.paymentStatus <;> simp [status, SubscriptionPaymentStatus.settled] at settled done <;> rfl
    obtain ⟨q, found', refunding'⟩ := (run_kept ok run).refunding i p found refunding
    refine ⟨q, found', ?_⟩
    cases status : q.paymentStatus <;> simp [status, SubscriptionPaymentStatus.refunding] at refunding' <;> rfl

/-- The paid period of the membership is written by a grant only. -/
theorem Subscriptions.Change.period {s t : Subscriptions} (h : s.Change t) :
    s.SamePeriod t ∨ ∃ i, Subscriptions.Grants i s t := by
  cases h with
  | membership move => cases move <;> exact .inl ⟨rfl, rfl, rfl⟩
  | same | waited | quoted | created | moved => exact .inl ⟨rfl, rfl, rfl⟩
  | @granted _ i c paymentId grant =>
      have bound := (List.getElem?_eq_some_iff.mp grant.found).1
      obtain rfl := grant.after
      exact .inr ⟨i, c.payment, _, find_some.mpr ⟨c, grant.found, rfl⟩, grant.unsettled,
        find_some.mpr ⟨_, List.getElem?_set_self bound, rfl⟩, rfl, rfl, rfl, rfl⟩

/-- A payment that becomes SUCCEEDED was quoted on the timestamp that the membership has. -/
theorem Subscriptions.Change.granted_quote {s t : Subscriptions} (h : s.Change t) (grants : s.Grants i t)
    {p : SubscriptionPayment} (found : s.find i = some p) {q : Millis} (quoted : p.quotedMembershipUpdatedAt = some q) :
    s.provider.subscriptionUpdatedAt = q := by
  obtain ⟨before, after, found', unsettled, listed, succeeded, -⟩ := grants
  obtain rfl := Option.some.inj (found.symm.trans found')
  obtain ⟨c, foundC, rfl⟩ := find_some.mp found
  obtain ⟨c', foundC', rfl⟩ := find_some.mp listed
  have open_ : c.payment.paymentStatus ≠ .succeeded :=
    fun done => by simp [done, SubscriptionPaymentStatus.settled] at unsettled
  have kept {d : Checkout} (same : s.checkouts[i]? = some d) (done : d.payment.paymentStatus = .succeeded) : False := by
    obtain rfl := Option.some.inj (foundC.symm.trans same)
    exact open_ done
  cases h with
  | same | waited | quoted | membership => exact (kept foundC' succeeded).elim
  | created =>
      rw [List.getElem?_append_left (List.getElem?_eq_some_iff.mp foundC).1] at foundC'
      exact (kept foundC' succeeded).elim
  | @moved j d d' foundD move =>
      rcases set_rows foundC' with ⟨rfl, rfl⟩ | ⟨-, old⟩
      · exact (kept foundD (move.earlier.2 succeeded).1).elim
      · exact (kept old succeeded).elim
  | @granted _ j d paymentId grant =>
      obtain rfl := grant.after
      rcases set_rows foundC' with ⟨rfl, -⟩ | ⟨-, old⟩
      · obtain rfl := Option.some.inj (foundC.symm.trans grant.found)
        exact (grant.quoted q quoted).symm
      · exact (kept old succeeded).elim

/-- A step that keeps the timestamp of a membership keeps the membership, but for the end of its period. -/
theorem Subscriptions.Change.unnoticed {s t : Subscriptions} (h : s.Change t)
    (enrolled : s.provider.freePlanStartedAt.isSome = true)
    (same : t.provider.subscriptionUpdatedAt = s.provider.subscriptionUpdatedAt) :
    s.Unnoticed s.provider.subscriptionUpdatedAt t := by
  cases h with
  | membership move =>
      cases move with
      | moderated => exact .inl rfl
      | trial fresh => simp [fresh] at enrolled
      | cancelled => exact .inr (.inr same)
      | expired ended => exact .inr (.inl ⟨ended, rfl⟩)
  | granted grant =>
      obtain rfl := grant.after
      exact .inr (.inr same)
  | same | waited | quoted | created | moved => exact .inl rfl

theorem run_stamp (ok : s.Ok) (enrolled : s.tables.provider.freePlanStartedAt.isSome = true)
    (run : subscriptionMachine.RunUnder (fun _ _ => True) s t) :
    (t.Ok ∧ t.tables.provider.freePlanStartedAt.isSome = true)
      ∧ s.tables.provider.subscriptionUpdatedAt ≤ t.tables.provider.subscriptionUpdatedAt := by
  refine run.invariant (I := fun u => (u.Ok ∧ u.tables.provider.freePlanStartedAt.isSome = true)
    ∧ s.tables.provider.subscriptionUpdatedAt ≤ u.tables.provider.subscriptionUpdatedAt)
    (fun u a v known _ step => ?_) ⟨⟨ok, enrolled⟩, Nat.le_refl _⟩
  obtain ⟨⟨ok, begun⟩, below⟩ := known
  obtain ⟨change, next⟩ := ok.next step
  obtain ⟨begun', grown⟩ := change.stamp ok.tables begun
  exact ⟨⟨next, begun'⟩, Nat.le_trans below grown⟩

/-- Between two readings of one timestamp no step changed what it tells. -/
theorem run_unnoticed {v w : SubscriptionSystem} {b : SubscriptionAction} (ok : s.Ok)
    (enrolled : s.tables.provider.freePlanStartedAt.isSome = true)
    (same : t.tables.provider.subscriptionUpdatedAt = s.tables.provider.subscriptionUpdatedAt)
    (before : subscriptionMachine.RunUnder (fun _ _ => True) s v) (step : subscriptionMachine.next v b = some w)
    (after : subscriptionMachine.RunUnder (fun _ _ => True) w t) :
    v.tables.Unnoticed s.tables.provider.subscriptionUpdatedAt w.tables := by
  obtain ⟨⟨okV, begunV⟩, belowV⟩ := run_stamp ok enrolled before
  obtain ⟨change, okW⟩ := okV.next step
  obtain ⟨begunW, belowW⟩ := change.stamp okV.tables begunV
  obtain ⟨-, belowT⟩ := run_stamp okW begunW after
  have here : v.tables.provider.subscriptionUpdatedAt = s.tables.provider.subscriptionUpdatedAt :=
    Nat.le_antisymm (Nat.le_trans belowW (same ▸ belowT)) belowV
  have there : w.tables.provider.subscriptionUpdatedAt = v.tables.provider.subscriptionUpdatedAt :=
    Nat.le_antisymm (here.symm ▸ same ▸ belowT) belowW
  exact here ▸ change.unnoticed begunV there

/-- Over every interleaving of checkouts, reconciliations, cancellations, maintenance and moderation. -/
theorem subscription_payment_applied_once (reachable : subscriptionMachine.Reachable s)
    (run : subscriptionMachine.RunUnder (fun _ _ => True) s t) :
    t.tables.Booked ∧ t.Reconciles ∧ s.tables.Kept t.tables
    ∧ ∀ a u, subscriptionMachine.next t a = some u →
      (t.tables.SamePeriod u.tables ∨ ∃ i, t.tables.Grants i u.tables)
      ∧ ∀ i p, t.tables.Grants i u.tables → t.tables.find i = some p →
        ¬ s.tables.Settled i
        ∧ (s.tables.provider.freePlanStartedAt.isSome = true →
          p.quotedMembershipUpdatedAt = some s.tables.provider.subscriptionUpdatedAt →
          ∀ v b w, subscriptionMachine.RunUnder (fun _ _ => True) s v → subscriptionMachine.next v b = some w →
            subscriptionMachine.RunUnder (fun _ _ => True) w t →
            v.tables.Unnoticed s.tables.provider.subscriptionUpdatedAt w.tables) := by
  have ok := subscriptions_ok reachable
  have ok' : t.Ok := run.invariant (fun u a v known _ step => (known.next step).2) ok
  refine ⟨ok'.tables.booked, ok'.reconciles, run_kept ok run, fun a u step => ?_⟩
  have change := (ok'.next step).1
  refine ⟨change.period, fun i p grants found => ⟨fun settled => ?_, fun enrolled quoted v b w before taken after => ?_⟩⟩
  · obtain ⟨p', found', decided⟩ := run_settled ok run settled
    obtain ⟨before, after, listed, unsettled, -⟩ := grants
    obtain rfl := Option.some.inj (found'.symm.trans listed)
    simp [decided] at unsettled
  · exact run_unnoticed ok enrolled (change.granted_quote grants found quoted) before taken after

end Runs

instance (i : Nat) (s t : Subscriptions) : Decidable (s.Grants i t) :=
  decidable_of_iff (((s.find i).any fun before => (t.find i).any fun after =>
      !before.paymentStatus.settled && after.paymentStatus == .succeeded
        && t.provider.subscriptionPlan == after.plan.plan
        && t.provider.subscriptionStartedAt == after.subscriptionStartedAt
        && t.provider.subscriptionExpiresAt == after.subscriptionExpiresAt) = true) (by
    simp only [Option.any_eq_true, Bool.and_eq_true, Bool.not_eq_true', beq_iff_eq, Subscriptions.Grants]
    constructor
    · rintro ⟨before, found, after, listed, ⟨⟨⟨unsettled, done⟩, plan⟩, starts⟩, expires⟩
      exact ⟨before, after, found, unsettled, listed, done, plan, starts, expires⟩
    · rintro ⟨before, after, found, unsettled, listed, done, plan, starts, expires⟩
      exact ⟨before, found, after, listed, ⟨⟨⟨unsettled, done⟩, plan⟩, starts⟩, expires⟩)

def newAccount : SubscriptionSystem where
  tables := { now := 0, provider := { subscriptionUpdatedAt := 0 } }

theorem newAccount_initial : subscriptionMachine.initial newAccount := ⟨rfl, rfl, Nat.le_refl _, rfl, rfl, rfl⟩

/-- A checkout of the Pro plan in the last minute of the free period. -/
def sampleQuoted : List SubscriptionAction :=
  [.enroll, .resume 0 .none, .wait (Provider.freePeriodMs - 60000), .checkout .pro none, .resume 0 .none,
    .resume 0 .ok, .resume 0 .none, .resume 0 .none, .resume 0 .ok, .resume 0 .none]

/-- It is paid two minutes later, after maintenance has ended the free period. -/
def sampleCaptured : List SubscriptionAction :=
  [.wait 120000, .maintain (Provider.freePeriodMs + 1000) .free Provider.freePeriodMs, .gateway 0 .succeeded,
    .reconcile .webhook 0, .resume 0 .none, .resume 0 .ok]

/-- Two checkouts in the millisecond of the enrollment. The second one is applied at once, the first one, which had
    failed, after its month. -/
def sampleTwice : List SubscriptionAction :=
  [.enroll, .resume 0 .none, .checkout .pro none, .resume 0 .none, .resume 0 .ok, .resume 0 .none, .crash 0,
    .reconcile .returnPage 0, .resume 0 .none, .resume 0 .ok, .resume 0 .none, .resume 0 .none,
    .checkout .pro none, .resume 0 .none, .resume 0 .ok, .resume 0 .none, .crash 0, .gateway 1 .succeeded,
    .reconcile .returnPage 1, .resume 0 .none, .resume 0 .ok, .resume 0 .none,
    .wait (40 * dayMs), .gateway 0 .succeeded, .reconcile .webhook 0, .resume 0 .none, .resume 0 .ok, .resume 0 .none]

theorem subscription_payment_applied_once_pro : ∃ s t u, subscriptionMachine.exec newAccount sampleQuoted = some s
    ∧ subscriptionMachine.exec s sampleCaptured = some t ∧ subscriptionMachine.next t (.resume 0 .none) = some u
    ∧ t.tables.Booked ∧ t.Reconciles ∧ s.tables.Kept t.tables ∧ t.tables.Grants 0 u.tables ∧ ¬ s.tables.Settled 0 := by
  obtain ⟨s, quoted, more⟩ := (Option.any_eq_true (fun s => (subscriptionMachine.exec s sampleCaptured).any fun t =>
      (subscriptionMachine.next t (.resume 0 .none)).any fun u => decide (t.tables.Grants 0 u.tables))
    (subscriptionMachine.exec newAccount sampleQuoted)).mp (by decide)
  obtain ⟨t, captured, more⟩ := (Option.any_eq_true _ _).mp more
  obtain ⟨u, step, grants⟩ := (Option.any_eq_true _ _).mp more
  have grants := of_decide_eq_true grants
  obtain ⟨booked, reconciles, kept, steps⟩ :=
    subscription_payment_applied_once (.of_exec newAccount_initial quoted) (.of_exec captured)
  obtain ⟨p, -, found, -⟩ := id grants
  exact ⟨s, t, u, quoted, captured, step, booked, reconciles, kept, grants, ((steps _ _ step).2 0 p grants found).1⟩

/-- The timestamp tells neither the end of a period nor what happens in its own millisecond. -/
theorem quote_outlives_membership : (∃ s t u p, subscriptionMachine.Reachable s
      ∧ subscriptionMachine.RunUnder (fun _ _ => True) s t ∧ subscriptionMachine.next t (.resume 0 .none) = some u
      ∧ s.tables.provider.freePlanStartedAt.isSome = true ∧ t.tables.find 0 = some p
      ∧ p.quotedMembershipUpdatedAt = some s.tables.provider.subscriptionUpdatedAt
      ∧ t.tables.provider.membership ≠ s.tables.provider.membership ∧ t.tables.Grants 0 u.tables)
    ∧ ∃ s p q, subscriptionMachine.Reachable s ∧ s.tables.find 0 = some p ∧ s.tables.find 1 = some q
      ∧ p.paymentStatus = .succeeded ∧ q.paymentStatus = .succeeded
      ∧ p.quotedMembershipUpdatedAt = q.quotedMembershipUpdatedAt := by
  constructor
  · obtain ⟨s, quoted, more⟩ := (Option.any_eq_true (fun s => s.tables.provider.freePlanStartedAt.isSome
        && (subscriptionMachine.exec s sampleCaptured).any fun t =>
          (subscriptionMachine.next t (.resume 0 .none)).any fun u => (t.tables.find 0).any fun p =>
            p.quotedMembershipUpdatedAt == some s.tables.provider.subscriptionUpdatedAt
            && decide (t.tables.provider.membership ≠ s.tables.provider.membership ∧ t.tables.Grants 0 u.tables))
      (subscriptionMachine.exec newAccount sampleQuoted)).mp (by decide)
    obtain ⟨enrolled, more⟩ := Bool.and_eq_true_iff.mp more
    obtain ⟨t, captured, more⟩ := (Option.any_eq_true _ _).mp more
    obtain ⟨u, step, more⟩ := (Option.any_eq_true _ _).mp more
    obtain ⟨p, found, more⟩ := (Option.any_eq_true _ _).mp more
    obtain ⟨same, changed⟩ := Bool.and_eq_true_iff.mp more
    exact ⟨s, t, u, p, .of_exec newAccount_initial quoted, .of_exec captured, step, enrolled, found, beq_iff_eq.mp same,
      of_decide_eq_true changed⟩
  · obtain ⟨s, run, both⟩ := (Option.any_eq_true (fun s =>
        (s.tables.find 0).any fun p => (s.tables.find 1).any fun q => decide (p.paymentStatus = .succeeded
          ∧ q.paymentStatus = .succeeded ∧ p.quotedMembershipUpdatedAt = q.quotedMembershipUpdatedAt))
      (subscriptionMachine.exec newAccount sampleTwice)).mp (by decide)
    obtain ⟨p, found, both⟩ := (Option.any_eq_true _ _).mp both
    obtain ⟨q, listed, both⟩ := (Option.any_eq_true _ _).mp both
    exact ⟨s, p, q, .of_exec newAccount_initial run, found, listed, of_decide_eq_true both⟩

end ServiceHub
