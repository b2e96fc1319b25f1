import ServiceHub.Membership.Checkout

/-! # What a step of the subscription service does

A step writes the membership, opens a checkout, or moves the row of one; a grant does both. What a
payment has reached it keeps.
-/

namespace ServiceHub

open Guard

/-- A write to the account outside of a grant. -/
inductive Provider.Move (now : Millis) (p : Provider) : Provider → Prop where
  | moderated {isActive deactivatedAt moderationStatus} :
      Move now p { p with isActive, deactivatedAt, moderationStatus }
  | trial {startedAt} (fresh : p.freePlanStartedAt = none) (past : startedAt ≤ now) : Move now p { p with
      freePlanStartedAt := some startedAt, freePlanExpiresAt := some (startedAt + Provider.freePeriodMs)
      subscriptionUpdatedAt := startedAt }
  | cancelled (paid : p.subscriptionPlan ≠ .free) :
      Move now p { p with subscriptionStatus := .cancelled, subscriptionUpdatedAt := now }
  | expired (ended : p.expiresAt.any (· ≤ now) = true) : Move now p { p with subscriptionStatus := .expired }

/-- The status of a checkout that has not been paid. -/
def SubscriptionPaymentStatus.lapsed : SubscriptionPaymentStatus → Bool
  | .failed | .expired | .cancelled => true
  | .pending | .succeeded | .refundRequired | .refunded => false

/-- Captured and not applied. -/
def SubscriptionPaymentStatus.refunding : SubscriptionPaymentStatus → Bool
  | .refundRequired | .refunded => true
  | .pending | .succeeded | .failed | .expired | .cancelled => false

def Checkout.captured (c : Checkout) : Bool :=
  c.payment.providerIntentId.isSome && c.intent.any (·.status == .succeeded)

/-- A write to one row outside of a grant. -/
inductive Checkout.Move (now : Millis) (providerId : UserId) (i : Nat) (c : Checkout) : Checkout → Prop where
  | noted {redirectUrl checkoutClaimedAt failureReason} : c.Move now providerId i
      { c with payment := { c.payment with redirectUrl, checkoutClaimedAt, failureReason } }
  | stored : c.Move now providerId i { c with intent := some (c.intent.getD (c.payment.intentOf providerId i)) }
  | progressed {status} : c.Move now providerId i { c with intent := c.intent.map (·.progress i status) }
  | registered (stored : c.intent.isSome = true) :
      c.Move now providerId i { c with payment := { c.payment with providerIntentId := some i } }
  | lapsed {status checkoutClaimedAt} (pending : c.payment.paymentStatus = .pending) (lapses : status.lapsed = true) :
      c.Move now providerId i { c with payment := { c.payment with paymentStatus := status, checkoutClaimedAt } }
  | refused {paymentId} (captured : c.captured = true) (unsettled : c.payment.paymentStatus.settled = false) :
      c.Move now providerId i { c with payment := c.payment.refuse now paymentId }
  | refunded (refunding : c.payment.paymentStatus.refunding = true) : c.Move now providerId i
      { c with payment := { c.payment with paymentStatus := .refunded, refundedAt := some now } }

/-- The captured payment `i` buys its period. -/
structure Grant (s t : Subscriptions) (i : Nat) (c : Checkout) (paymentId : GatewayId) : Prop where
  found : s.checkouts[i]? = some c
  captured : c.captured = true
  unsettled : c.payment.paymentStatus.settled = false
  applicable : c.payment.applicable s.now s.provider = true
  after : t = { s with
    provider := (c.payment.grant s.now paymentId s.provider).1
    checkouts := s.checkouts.set i { c with payment := (c.payment.grant s.now paymentId s.provider).2 } }

/-- The columns of a new checkout that the later steps rely on. -/
structure SubscriptionPayment.New (stamp : Millis) (p : SubscriptionPayment) : Prop where
  status : p.paymentStatus = .pending
  quoted : p.quotedMembershipUpdatedAt = some stamp
  intent : p.providerIntentId = none
  period : p.subscriptionStartedAt = none ∧ p.subscriptionExpiresAt = none

/-- The tables after a step. -/
inductive Subscriptions.Change (s : Subscriptions) : Subscriptions → Prop where
  | same : s.Change s
  | waited {time} : s.Change { s with now := s.now + time }
  | quoted {quotes} : s.Change { s with quotes }
  | membership {provider} (move : s.provider.Move s.now provider) : s.Change { s with provider }
  | created {payment} (idle : ∀ c ∈ s.checkouts, c.payment.paymentStatus ≠ .pending)
      (enrolled : s.provider.freePlanStartedAt.isSome = true)
      (new : payment.New s.provider.subscriptionUpdatedAt) :
      s.Change { s with checkouts := s.checkouts ++ [{ payment }] }
  | moved {i c c'} (found : s.checkouts[i]? = some c) (move : c.Move s.now s.providerId i c') :
      s.Change { s with checkouts := s.checkouts.set i c' }
  | granted {t i c paymentId} (grant : Grant s t i c paymentId) : s.Change t

/-- What a row keeps. -/
structure Checkout.Later (c c' : Checkout) : Prop where
  amount : c'.payment.amount = c.payment.amount
  quoted : c'.payment.quotedMembershipUpdatedAt = c.payment.quotedMembershipUpdatedAt
  registered : c.payment.providerIntentId.isSome = true → c'.payment.providerIntentId.isSome = true
  stored : c.intent.isSome = true → c'.intent.isSome = true
  captured : c.captured = true → c'.captured = true
  succeeded : c.payment.paymentStatus = .succeeded → c'.payment.paymentStatus = .succeeded
    ∧ c'.payment.subscriptionStartedAt = c.payment.subscriptionStartedAt
    ∧ c'.payment.subscriptionExpiresAt = c.payment.subscriptionExpiresAt ∧ c'.payment.paidAt = c.payment.paidAt
  refunding : c.payment.paymentStatus.refunding = true → c'.payment.paymentStatus.refunding = true

section Rows

variable {c c' c'' : Checkout} {now : Millis} {providerId : UserId} {i : Nat}

theorem Checkout.Later.refl (c : Checkout) : c.Later c :=
  ⟨rfl, rfl, id, id, id, fun h => ⟨h, rfl, rfl, rfl⟩, id⟩

theorem Checkout.Later.trans (h : c.Later c') (h' : c'.Later c'') : c.Later c'' := by
  refine ⟨h'.amount.trans h.amount, h'.quoted.trans h.quoted, fun r => h'.registered (h.registered r),
    fun r => h'.stored (h.stored r), fun r => h'.captured (h.captured r), fun done => ?_,
    fun r => h'.refunding (h.refunding r)⟩
  obtain ⟨still, starts, expires, paid⟩ := h.succeeded done
  obtain ⟨still', starts', expires', paid'⟩ := h'.succeeded still
  exact ⟨still', starts'.trans starts, expires'.trans expires, paid'.trans paid⟩

theorem SubscriptionIntent.progress_succeeded {intent : SubscriptionIntent} {status : SubscriptionIntentStatus}
    (h : intent.status = .succeeded) : intent.progress i status = intent := by
  simp [SubscriptionIntent.progress, h]

theorem Checkout.Move.later (h : c.Move now providerId i c') : c.Later c' := by
  cases h with
  | noted => exact ⟨rfl, rfl, id, id, id, fun h => ⟨h, rfl, rfl, rfl⟩, id⟩
  | stored =>
      refine ⟨rfl, rfl, id, fun _ => rfl, fun captured => ?_, fun h => ⟨h, rfl, rfl, rfl⟩, id⟩
      cases stored : c.intent with
      | none => simp [Checkout.captured, stored] at captured
      | some intent => simpa [Checkout.captured, stored] using captured
  | progressed =>
      refine ⟨rfl, rfl, id, by simp, fun captured => ?_, fun h => ⟨h, rfl, rfl, rfl⟩, id⟩
      cases stored : c.intent with
      | none => simp [Checkout.captured, stored] at captured
      | some intent =>
          simp only [Checkout.captured, stored, Option.any_some, Bool.and_eq_true, beq_iff_eq] at captured
          simp [Checkout.captured, captured.1, SubscriptionIntent.progress_succeeded captured.2, captured.2]
  | registered stored =>
      refine ⟨rfl, rfl, fun _ => rfl, id, fun captured => ?_, fun h => ⟨h, rfl, rfl, rfl⟩, id⟩
      simp only [Checkout.captured, Bool.and_eq_true] at captured ⊢
      exact ⟨rfl, captured.2⟩
  | lapsed pending =>
      refine ⟨rfl, rfl, id, id, id, fun done => ?_, fun refunding => ?_⟩
      · simp [pending] at done
      · simp [pending, SubscriptionPaymentStatus.refunding] at refunding
  | refused captured unsettled =>
      refine ⟨rfl, rfl, id, id, id, fun done => ?_, fun _ => rfl⟩
      simp [done, SubscriptionPaymentStatus.settled] at unsettled
  | refunded refunding =>
      refine ⟨rfl, rfl, id, id, id, fun done => ?_, fun _ => rfl⟩
      simp [done, SubscriptionPaymentStatus.refunding] at refunding

end Rows

section Tables

variable {s t : Subscriptions} {i : Nat} {c : Checkout} {paymentId : GatewayId}

theorem Grant.later (h : Grant s t i c paymentId) :
    c.Later { c with payment := (c.payment.grant s.now paymentId s.provider).2 } := by
  refine ⟨rfl, rfl, id, id, id, fun done => ?_, fun refunding => ?_⟩
  · have unsettled := h.unsettled
    simp [done, SubscriptionPaymentStatus.settled] at unsettled
  · have unsettled := h.unsettled
    cases status : c.payment.paymentStatus <;>
      simp [status, SubscriptionPaymentStatus.settled, SubscriptionPaymentStatus.refunding] at unsettled refunding

/-- No row is lost, and every row keeps what it has reached. -/
theorem Subscriptions.Change.row (h : s.Change t) {j : Nat} {c : Checkout} (found : s.checkouts[j]? = some c) :
    ∃ c', t.checkouts[j]? = some c' ∧ c.Later c' := by
  have set_row {i : Nat} {d d' : Checkout} (listed : s.checkouts[i]? = some d) (later : d.Later d') :
      ∃ c', (s.checkouts.set i d')[j]? = some c' ∧ c.Later c' := by
    by_cases same : i = j
    · subst same
      obtain rfl := Option.some.inj (listed.symm.trans found)
      exact ⟨d', by simp [(List.getElem?_eq_some_iff.mp found).1], later⟩
    · exact ⟨c, by simpa [List.getElem?_set, same] using found, .refl c⟩
  cases h with
  | same | waited | quoted | membership => exact ⟨c, found, .refl c⟩
  | created => exact ⟨c, by simp [List.getElem?_append_left (List.getElem?_eq_some_iff.mp found).1, found], .refl c⟩
  | moved listed move => exact set_row listed move.later
  | granted grant =>
      obtain rfl := grant.after
      exact set_row grant.found grant.later

end Tables

/-- What the gateway stores for the payment `i`. -/
structure SubscriptionIntent.Of (providerId : UserId) (i : Nat) (payment : SubscriptionPayment)
    (intent : SubscriptionIntent) : Prop where
  amount : intent.amount = payment.amount
  currency : intent.currency = "PHP"
  metadata : intent.metadata = {
    subscriptionPaymentId := i, providerId, purpose := "provider_subscription" }
  paid : intent.status = .succeeded → intent.paymentId.isSome = true

/-- A row and its intent belong together. -/
structure Checkout.Linked (providerId : UserId) (i : Nat) (c : Checkout) : Prop where
  registered : ∀ j, c.payment.providerIntentId = some j → j = i ∧ c.intent.isSome = true
  intent : ∀ intent, c.intent = some intent → intent.Of providerId i c.payment

def Subscriptions.Linked (s : Subscriptions) : Prop :=
  ∀ (i : Nat) (c : Checkout), s.checkouts[i]? = some c → c.Linked s.providerId i

/-- What a call relies on. -/
def SubscriptionCall.Ok (s : Subscriptions) : SubscriptionCall → Prop
  | .enroll startedAt => startedAt ≤ s.now
  | .saveIntent i _ _ => ∃ c, s.checkouts[i]? = some c ∧ c.intent.isSome = true
  | .retrieve _ i owned => ∃ c, s.checkouts[i]? = some c ∧ c.payment.providerIntentId.isSome = true
      ∧ (owned.paymentStatus.refunding = true → c.payment.paymentStatus.refunding = true)
  | .finalize _ i captured => ∃ c, s.checkouts[i]? = some c ∧ c.captured = true
      ∧ captured.Of s.providerId i c.payment ∧ captured.status = .succeeded
  | .unpaid _ _ status => status.lapsed = true
  | .refund _ i | .refunded _ i => ∃ c, s.checkouts[i]? = some c ∧ c.payment.paymentStatus.refunding = true
  | _ => True

section Calls

variable {s t : Subscriptions} {i : Nat} {c : Checkout} {call : SubscriptionCall} {origin : ReconcileOrigin}
  {payment : SubscriptionPayment}

theorem modify_set {g : Checkout → Checkout} (found : s.checkouts[i]? = some c) :
    s.checkouts.modify i g = s.checkouts.set i (g c) := by
  obtain ⟨bound, here⟩ := List.getElem?_eq_some_iff.mp found
  refine List.ext_getElem? fun j => ?_
  rw [List.getElem?_modify, List.getElem?_set]
  by_cases same : i = j
  · subst same
    simp [bound, here]
  · simp [same]

theorem modify_change {g : Checkout → Checkout}
    (move : ∀ c, s.checkouts[i]? = some c → c.Move s.now s.providerId i (g c)) :
    s.Change { s with checkouts := s.checkouts.modify i g } := by
  cases found : s.checkouts[i]? with
  | none =>
      have same : s.checkouts.modify i g = s.checkouts :=
        List.modify_eq_self (List.getElem?_eq_none_iff.mp found)
      rw [same]
      exact .same
  | some c =>
      rw [modify_set found]
      exact .moved found (move c found)

theorem updatePending_change {g : SubscriptionPayment → SubscriptionPayment}
    (move : ∀ c, s.checkouts[i]? = some c → c.payment.paymentStatus = .pending →
      c.Move s.now s.providerId i { c with payment := g c.payment }) : s.Change (s.updatePending i g) := by
  refine modify_change fun c found => ?_
  by_cases pending : c.payment.paymentStatus = .pending
  · simpa only [pending, if_true] using move c found pending
  · simp only [pending, if_false]
    exact .noted

theorem find_some : s.find i = some payment ↔ ∃ c, s.checkouts[i]? = some c ∧ c.payment = payment := by
  simp [Subscriptions.find]

theorem Subscriptions.Change.providerId (h : s.Change t) : t.providerId = s.providerId := by
  cases h with
  | granted grant => obtain rfl := grant.after; rfl
  | _ => rfl

theorem Subscriptions.Change.now (h : s.Change t) : s.now ≤ t.now := by
  cases h with
  | waited => exact Nat.le_add_right _ _
  | granted grant => obtain rfl := grant.after; exact Nat.le_refl _
  | _ => exact Nat.le_refl _

/-- A call keeps what it relies on, whatever else is written. -/
theorem SubscriptionCall.Ok.change (h : call.Ok s) (change : s.Change t) : call.Ok t := by
  cases call with
  | enroll startedAt => exact Nat.le_trans h change.now
  | saveIntent i =>
      obtain ⟨c, found, stored⟩ := h
      obtain ⟨c', found', later⟩ := change.row found
      exact ⟨c', found', later.stored stored⟩
  | retrieve origin i owned =>
      obtain ⟨c, found, registered, refunding⟩ := h
      obtain ⟨c', found', later⟩ := change.row found
      exact ⟨c', found', later.registered registered, fun owned => later.refunding (refunding owned)⟩
  | finalize origin i intent =>
      obtain ⟨c, found, captured, ⟨amount, currency, metadata, paid⟩, succeeded⟩ := h
      obtain ⟨c', found', later⟩ := change.row found
      refine ⟨c', found', later.captured captured, ⟨?_, currency, ?_, paid⟩, succeeded⟩
      · rw [amount, later.amount]
      · rw [metadata, change.providerId]
  | unpaid => exact h
  | refund | refunded =>
      obtain ⟨c, found, refunding⟩ := h
      obtain ⟨c', found', later⟩ := change.row found
      exact ⟨c', found', later.refunding refunding⟩
  | _ => trivial

/-- What a statement of a call does, and what the next one relies on. -/
structure Resumed (s t : Subscriptions) (next : Option SubscriptionCall) : Prop where
  change : s.Change t
  next : ∀ call, next = some call → call.Ok t

theorem Resumed.returns (change : s.Change t) : Resumed s t none :=
  ⟨change, fun _ h => by cases h⟩

theorem Resumed.goes {next : SubscriptionCall} (change : s.Change t) (ok : next.Ok t) : Resumed s t (some next) :=
  ⟨change, fun _ h => Option.some.inj h ▸ ok⟩

theorem returned_ok {status : SubscriptionPaymentStatus} :
    ∀ call, origin.returned i status = some call → call.Ok s := by
  intro call h
  cases origin <;> simp only [ReconcileOrigin.returned, reduceCtorEq] at h
  split at h <;> simp only [Option.some.injEq, reduceCtorEq] at h
  exact h ▸ trivial

theorem thrown_ok : ∀ call, origin.thrown i = some call → call.Ok s := by
  intro call h
  cases origin <;> simp only [ReconcileOrigin.thrown, Option.some.injEq, reduceCtorEq] at h
  exact h ▸ trivial

theorem refunding_ok (found : s.checkouts[i]? = some c)
    (kept : payment.paymentStatus.refunding = true → c.payment.paymentStatus.refunding = true) :
    ∀ call, origin.refunding i payment = some call → call.Ok s := by
  intro call h
  unfold ReconcileOrigin.refunding at h
  split at h
  · rename_i required
    obtain rfl := Option.some.inj h
    exact ⟨c, found, kept (by simp [required.1, SubscriptionPaymentStatus.refunding])⟩
  · exact returned_ok call h

theorem update_set {g : SubscriptionPayment → SubscriptionPayment} (found : s.checkouts[i]? = some c) :
    s.update i g = { s with checkouts := s.checkouts.set i { c with payment := g c.payment } } := by
  unfold Subscriptions.update
  rw [modify_set found]

/-- The finalization of a captured payment always decides it. -/
theorem finalize_cases {intent : SubscriptionIntent} (linked : c.Linked s.providerId i)
    (found : s.checkouts[i]? = some c) (captured : c.captured = true) (stored : intent.Of s.providerId i c.payment)
    (succeeded : intent.status = .succeeded) :
    (c.payment.paymentStatus.settled = true ∧ s.finalizeSubscriptionPayment i intent = .ok (s, c.payment))
    ∨ (∃ t paymentId, Grant s t i c paymentId
        ∧ s.finalizeSubscriptionPayment i intent = .ok (t, (c.payment.grant s.now paymentId s.provider).2))
    ∨ (c.payment.paymentStatus.settled = false ∧ ∃ paymentId, s.finalizeSubscriptionPayment i intent
        = .ok ({ s with checkouts := s.checkouts.set i { c with payment := c.payment.refuse s.now paymentId } },
            c.payment.refuse s.now paymentId)) := by
  have registered : c.payment.providerIntentId = some i := by
    simp only [Checkout.captured, Bool.and_eq_true] at captured
    obtain ⟨j, listed⟩ := Option.isSome_iff_exists.mp captured.1
    exact (linked.registered j listed).1 ▸ listed
  have listed : (s.find i).filter (·.providerIntentId == some i) = some c.payment := by
    rw [find_some.mpr ⟨c, found, rfl⟩]
    simp [registered]
  obtain ⟨paymentId, paid⟩ := Option.isSome_iff_exists.mp (stored.paid succeeded)
  have run : s.finalizeSubscriptionPayment i intent =
      if c.payment.paymentStatus.settled = true then .ok (s, c.payment)
      else if c.payment.applicable s.now s.provider = true then
        .ok ({ s.update i fun _ => (c.payment.grant s.now paymentId s.provider).2 with
          provider := (c.payment.grant s.now paymentId s.provider).1 }, (c.payment.grant s.now paymentId s.provider).2)
      else .ok (s.update i fun _ => c.payment.refuse s.now paymentId, c.payment.refuse s.now paymentId) := by
    simp [Subscriptions.finalizeSubscriptionPayment, listed, orThrow, paid, rejectIf, stored.amount,
      stored.currency, stored.metadata, bind, Except.bind, pure, Except.pure]
  rw [run]
  cases settled : c.payment.paymentStatus.settled with
  | true => exact .inl ⟨rfl, rfl⟩
  | false =>
      cases applicable : c.payment.applicable s.now s.provider with
      | true =>
          refine .inr (.inl ⟨_, paymentId, ⟨found, captured, settled, applicable, rfl⟩, ?_⟩)
          simp [update_set found]
      | false =>
          refine .inr (.inr ⟨rfl, paymentId, ?_⟩)
          simp [update_set found]

theorem pending_none (h : s.pending = none) : ∀ c ∈ s.checkouts, c.payment.paymentStatus ≠ .pending := by
  intro c listed pending
  obtain ⟨i, bound, rfl⟩ := List.mem_iff_getElem.mp listed
  simp only [Subscriptions.pending, Option.map_eq_none_iff, List.getLast?_eq_none_iff, List.filter_eq_nil_iff] at h
  exact h (s.checkouts[i], i) (List.mem_zipIdx_iff_getElem?.mpr (List.getElem?_eq_getElem bound)) (by simp [pending])

theorem pending_some (h : s.pending = some i) : ∃ c, s.checkouts[i]? = some c := by
  simp only [Subscriptions.pending, Option.map_eq_some_iff] at h
  obtain ⟨⟨c, j⟩, last, rfl⟩ := h
  have listed := (List.mem_filter.mp (List.mem_of_getLast? last)).1
  exact ⟨c, List.mem_zipIdx_iff_getElem?.mp listed⟩

theorem startCheckout_change {plan : PaidProviderPlan} {quoteToken : Option QuotePayload} {startedAt : Millis}
    {usable : Bool} (h : s.startCheckout plan quoteToken startedAt = .ok (t, i, usable)) : s.Change t := by
  simp only [Subscriptions.startCheckout, bind_ok, rejectIf_ok] at h
  obtain ⟨-, -, -, enrolled, signed, -, quote, -, -, -, h⟩ := h
  split at h
  · rename_i j existing found
    simp only [rejectIf_bind_ok, ite_ok, pure_ok, Prod.mk.injEq] at h
    rcases h with ⟨-, ⟨-, rfl, -⟩ | ⟨-, -, rfl, -⟩⟩
    · exact .same
    · exact modify_change fun c _ => .noted
  · rename_i none_
    simp only [pure_ok, Prod.mk.injEq] at h
    obtain ⟨rfl, -⟩ := h
    have idle : s.pending = none := by
      cases pending : s.pending with
      | none => rfl
      | some j =>
          obtain ⟨c, found⟩ := pending_some pending
          simp [pending, Subscriptions.find, found] at none_
    exact .created (pending_none idle) (Option.isSome_iff_ne_none.mpr enrolled) ⟨rfl, rfl, rfl, rfl, rfl⟩

theorem ensureProviderTrial_move {startedAt : Millis} {provider : Provider} (past : startedAt ≤ s.now)
    (h : s.provider.ensureProviderTrial startedAt = .ok provider) :
    provider = s.provider ∨ s.provider.Move s.now provider := by
  simp only [Provider.ensureProviderTrial, check_bind_ok, ite_ok, pure_ok] at h
  rcases h with ⟨-, ⟨-, rfl⟩ | ⟨fresh, rfl⟩⟩
  · exact .inl rfl
  · exact .inr (.trial (by simpa using fresh) past)

theorem intentStatus_some {status : SubscriptionIntentStatus} (h : s.intentStatus i = some status) :
    ∃ c, s.checkouts[i]? = some c ∧ c.intent.isSome = true := by
  simp only [Subscriptions.intentStatus, Option.map_eq_some_iff, Option.bind_eq_some_iff] at h
  obtain ⟨intent, ⟨c, found, stored⟩, -⟩ := h
  exact ⟨c, found, by simp [stored]⟩

theorem intent_resumed {reply : SubscriptionReply} {next : Option SubscriptionCall}
    (h : s.resume reply (.intent i) = some (t, next)) : Resumed s t next := by
  have stored : s.Change (s.storeIntent i) := modify_change fun c _ => .stored
  simp only [Subscriptions.resume] at h
  split at h
  · obtain ⟨status, known, h⟩ := Option.map_eq_some_iff.mp h
    obtain ⟨rfl, rfl⟩ := Prod.mk.inj h
    exact .goes .same (intentStatus_some known)
  · obtain ⟨status, known, h⟩ := Option.map_eq_some_iff.mp h
    obtain ⟨rfl, rfl⟩ := Prod.mk.inj h
    exact .goes .same (intentStatus_some known)
  · obtain ⟨status, known, h⟩ := Option.map_eq_some_iff.mp h
    obtain ⟨rfl, rfl⟩ := Prod.mk.inj h
    exact .goes stored (intentStatus_some known)
  · obtain ⟨rfl, rfl⟩ := Prod.mk.inj (Option.some.inj h)
    exact .goes stored trivial
  · obtain ⟨rfl, rfl⟩ := Prod.mk.inj (Option.some.inj h)
    exact .goes .same trivial
  · cases h

theorem retrieve_resumed {reply : SubscriptionReply} {owned : SubscriptionPayment} {next : Option SubscriptionCall}
    (rows : s.Linked) (ok : (SubscriptionCall.retrieve origin i owned).Ok s)
    (h : s.resume reply (.retrieve origin i owned) = some (t, next)) : Resumed s t next := by
  obtain ⟨c, found, registered, refunding⟩ := ok
  cases reply <;> simp only [Subscriptions.resume, Option.map_eq_some_iff, Option.some.injEq, Prod.mk.injEq,
    reduceCtorEq] at h
  · obtain ⟨intent, listed, rfl, rfl⟩ := h
    simp only [found, Option.bind_some] at listed
    refine ⟨.same, fun call going => ?_⟩
    unfold ReconcileOrigin.retrieved at going
    split at going
    · rename_i succeeded
      obtain rfl := Option.some.inj going
      exact ⟨c, found, by simp [Checkout.captured, registered, listed, succeeded],
        (rows i c found).intent intent listed, succeeded⟩
    · split at going
      · obtain rfl := Option.some.inj going
        cases intent.status <;> rfl
      · exact refunding_ok found refunding call going
  · obtain ⟨rfl, rfl⟩ := h
    exact ⟨.same, thrown_ok⟩

theorem finalize_resumed {reply : SubscriptionReply} {intent : SubscriptionIntent} {next : Option SubscriptionCall}
    (rows : s.Linked) (ok : (SubscriptionCall.finalize origin i intent).Ok s)
    (h : s.resume reply (.finalize origin i intent) = some (t, next)) : Resumed s t next := by
  obtain ⟨c, found, captured, stored, succeeded⟩ := ok
  have bound := (List.getElem?_eq_some_iff.mp found).1
  simp only [Subscriptions.resume, Option.some.injEq] at h
  rcases finalize_cases (rows i c found) found captured stored succeeded with
    ⟨-, run⟩ | ⟨u, paymentId, grant, run⟩ | ⟨unsettled, paymentId, run⟩
  · simp only [run, Prod.mk.injEq] at h
    obtain ⟨rfl, rfl⟩ := h
    exact ⟨.same, refunding_ok found id⟩
  · simp only [run, Prod.mk.injEq] at h
    obtain ⟨rfl, rfl⟩ := h
    obtain rfl := grant.after
    refine ⟨.granted grant, refunding_ok (c := _) (List.getElem?_set_self bound) id⟩
  · simp only [run, Prod.mk.injEq] at h
    obtain ⟨rfl, rfl⟩ := h
    exact ⟨.moved found (.refused captured unsettled), refunding_ok (c := _) (List.getElem?_set_self bound) id⟩

/-- A statement of a call is a change of the tables. -/
theorem resume_resumed {reply : SubscriptionReply} {next : Option SubscriptionCall}
    (rows : s.Linked) (ok : call.Ok s)
    (h : s.resume reply call = some (t, next)) : Resumed s t next := by
  cases call with
  | enroll startedAt =>
      simp only [Subscriptions.resume, Option.some.injEq] at h
      split at h <;> simp only [Prod.mk.injEq] at h <;> obtain ⟨rfl, rfl⟩ := h
      · rename_i provider run
        rcases ensureProviderTrial_move ok run with rfl | move
        · exact .returns .same
        · exact .returns (.membership move)
      · exact .returns .same
  | checkout plan quoteToken startedAt =>
      simp only [Subscriptions.resume, Option.some.injEq] at h
      split at h <;> simp only [Prod.mk.injEq] at h <;> obtain ⟨rfl, rfl⟩ := h
      · rename_i i usable run
        cases usable
        · exact .goes (startCheckout_change run) trivial
        · exact .returns (startCheckout_change run)
      · exact .returns .same
  | intent i => exact intent_resumed h
  | saveIntent i status restored =>
      obtain ⟨c, found, stored⟩ := ok
      simp only [Subscriptions.resume, Option.some.injEq, Prod.mk.injEq] at h
      obtain ⟨rfl, rfl⟩ := h
      refine .goes (modify_change fun d listed => .registered ?_) trivial
      exact Option.some.inj (found.symm.trans listed) ▸ stored
  | route i status restored =>
      simp only [Subscriptions.resume, Option.map_eq_some_iff, Prod.mk.injEq] at h
      obtain ⟨payment, -, rfl, rfl⟩ := h
      refine ⟨.same, fun call going => ?_⟩
      split at going
      · exact Option.some.inj going ▸ trivial
      · split at going
        · exact Option.some.inj going ▸ trivial
        · split at going <;> exact Option.some.inj going ▸ trivial
  | expire i =>
      simp only [Subscriptions.resume, Option.some.injEq, Prod.mk.injEq] at h
      obtain ⟨rfl, rfl⟩ := h
      exact .goes (updatePending_change fun c _ pending => .lapsed pending rfl) trivial
  | attach i =>
      cases reply <;> simp only [Subscriptions.resume, Option.some.injEq, Prod.mk.injEq, reduceCtorEq] at h
      all_goals
        obtain ⟨rfl, rfl⟩ := h
        exact .goes .same trivial
  | saveRedirect i =>
      simp only [Subscriptions.resume, Option.map_eq_some_iff, Prod.mk.injEq] at h
      obtain ⟨payment, -, rfl, rfl⟩ := h
      refine ⟨updatePending_change fun c _ _ => .noted, fun call going => ?_⟩
      split at going <;> cases going
      trivial
  | caught i =>
      simp only [Subscriptions.resume, Option.some.injEq, Prod.mk.injEq] at h
      obtain ⟨rfl, rfl⟩ := h
      exact .returns (updatePending_change fun c _ _ => .noted)
  | reconcile origin i =>
      simp only [Subscriptions.resume, Option.some.injEq, Prod.mk.injEq] at h
      obtain ⟨rfl, rfl⟩ := h
      refine ⟨.same, fun call going => ?_⟩
      split at going
      · exact thrown_ok call going
      · rename_i owned listed
        split at going
        · exact returned_ok call going
        · obtain rfl := Option.some.inj going
          obtain ⟨listed, registered⟩ := Option.filter_eq_some_iff.mp listed
          obtain ⟨c, found, rfl⟩ := find_some.mp listed
          exact ⟨c, found, by simp [beq_iff_eq.mp registered], id⟩
  | retrieve origin i owned => exact retrieve_resumed rows ok h
  | finalize origin i intent => exact finalize_resumed rows ok h
  | unpaid origin i status =>
      simp only [Subscriptions.resume, Option.some.injEq, Prod.mk.injEq] at h
      obtain ⟨rfl, rfl⟩ := h
      exact .goes (updatePending_change fun c _ pending => .lapsed pending ok) trivial
  | reread origin i =>
      simp only [Subscriptions.resume, Option.map_eq_some_iff, Prod.mk.injEq] at h
      obtain ⟨payment, listed, rfl, rfl⟩ := h
      obtain ⟨c, found, rfl⟩ := find_some.mp listed
      exact ⟨.same, refunding_ok found id⟩
  | refund origin i =>
      cases reply <;> simp only [Subscriptions.resume, Option.map_eq_some_iff, Option.some.injEq, Prod.mk.injEq,
        reduceCtorEq] at h
      · obtain ⟨payment, -, rfl, rfl⟩ := h
        refine ⟨.same, fun call going => ?_⟩
        split at going
        · exact Option.some.inj going ▸ ok
        · exact returned_ok call going
      · obtain ⟨rfl, rfl⟩ := h
        exact ⟨.same, thrown_ok⟩
  | refunded origin i =>
      obtain ⟨c, found, refunding⟩ := ok
      simp only [Subscriptions.resume, Option.some.injEq, Prod.mk.injEq] at h
      obtain ⟨rfl, rfl⟩ := h
      refine ⟨modify_change fun d listed => .refunded ?_, returned_ok⟩
      exact Option.some.inj (found.symm.trans listed) ▸ refunding
  | cancelPending i =>
      simp only [Subscriptions.resume, Option.some.injEq, Prod.mk.injEq] at h
      obtain ⟨rfl, rfl⟩ := h
      refine .returns (updatePending_change fun c _ pending => ?_)
      split
      · exact .lapsed pending rfl
      · exact .noted

theorem maintain_move {scannedAt : Millis} (plan : ProviderPlan) (expiresAt : Millis) (past : scannedAt ≤ s.now) :
    s.provider.maintainMembership scannedAt plan expiresAt = s.provider
      ∨ s.provider.Move s.now (s.provider.maintainMembership scannedAt plan expiresAt) := by
  unfold Provider.maintainMembership
  split
  · exact .inl rfl
  · split
    · exact .inl rfl
    · rename_i _ scanned
      split
      · rename_i ended
        refine .inr (.expired ?_)
        simp only [ne_eq, not_or, not_not] at scanned
        simp [scanned.2, Nat.le_trans ended past]
      · exact .inl rfl

theorem act_change {a : SubscriptionAction} (h : SubscriptionSystem.act s a = some t) : s.Change t := by
  cases a with
  | quote plan =>
      have quoted := toOption_some.mp h
      simp only [Subscriptions.quoteProviderMembership, bind_ok, pure_ok] at quoted
      obtain ⟨-, -, -, -, quote, -, rfl⟩ := quoted
      exact .quoted
  | cancelMembership =>
      simp only [SubscriptionSystem.act, Option.map_eq_some_iff, toOption_some] at h
      obtain ⟨provider, cancelled, rfl⟩ := h
      simp only [Provider.cancelProviderSubscription, bind_ok, rejectIf_ok, pure_ok] at cancelled
      obtain ⟨-, -, -, access, rfl⟩ := cancelled
      exact .membership (.cancelled fun free => access (.inr free))
  | maintain scannedAt plan expiresAt =>
      simp only [SubscriptionSystem.act, Option.ite_none_right_eq_some, Option.some.injEq] at h
      obtain ⟨past, rfl⟩ := h
      rcases maintain_move plan expiresAt past with same | move
      · rw [same]
        exact .same
      · exact .membership move
  | moderate => exact Option.some.inj h ▸ .membership .moderated
  | gateway i status => exact Option.some.inj h ▸ modify_change fun c _ => .progressed
  | wait time => exact Option.some.inj h ▸ .waited
  | enroll | checkout | reconcile | resume | crash => cases h

/-- A step changes the tables, and every call in flight can rely on what it needs. -/
theorem step_change {s t : SubscriptionSystem} {a : SubscriptionAction} (rows : s.tables.Linked)
    (calls : ∀ call ∈ s.calls, call.Ok s.tables) (h : s.step a = some t) :
    s.tables.Change t.tables ∧ ∀ call ∈ t.calls, call.Ok t.tables := by
  have begun {call : SubscriptionCall} (ok : call.Ok s.tables) : ∀ d ∈ s.calls ++ [call], d.Ok s.tables := by
    intro d listed
    rcases List.mem_append.mp listed with old | new
    · exact calls d old
    · exact List.mem_singleton.mp new ▸ ok
  have acted (done : (SubscriptionSystem.act s.tables a).map ({ s with tables := · }) = some t) :
      s.tables.Change t.tables ∧ ∀ call ∈ t.calls, call.Ok t.tables := by
    obtain ⟨tables, acted, rfl⟩ := Option.map_eq_some_iff.mp done
    exact ⟨act_change acted, fun call listed => (calls call listed).change (act_change acted)⟩
  cases a with
  | enroll => exact Option.some.inj h ▸ ⟨.same, begun (Nat.le_refl _)⟩
  | checkout plan quoteToken => exact Option.some.inj h ▸ ⟨.same, begun trivial⟩
  | reconcile origin i =>
      simp only [SubscriptionSystem.step, Option.ite_none_left_eq_some, Option.some.injEq] at h
      exact h.2 ▸ ⟨.same, begun trivial⟩
  | crash k =>
      simp only [SubscriptionSystem.step, Option.ite_none_right_eq_some, Option.some.injEq] at h
      exact h.2 ▸ ⟨.same, fun call listed => calls call (List.mem_of_mem_eraseIdx listed)⟩
  | resume k reply =>
      simp only [SubscriptionSystem.step, Option.bind_eq_some_iff, Option.map_eq_some_iff] at h
      obtain ⟨call, listed, ⟨tables, next⟩, run, rfl⟩ := h
      have resumed := resume_resumed rows (calls call (List.mem_of_getElem? listed)) run
      refine ⟨resumed.change, fun d going => ?_⟩
      rcases Threads.mem_proceed going with waiting | continues
      · exact (calls d waiting).change resumed.change
      · exact resumed.next d continues
  | quote | cancelMembership | maintain | moderate | gateway | wait => exact acted h

end Calls

end ServiceHub
