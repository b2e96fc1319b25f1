import ServiceHub.Market.Writes

/-! # What one step of the marketplace does

A payment call goes on along its control flow or commits one transaction; every other
step is one transaction of its own. An invariant of the tables and of the payment calls
in flight is proved once per event.
-/

namespace ServiceHub

open Guard

/-- The control flow of the payment calls between their transactions. -/
inductive PaymentFlow (m : Market) : PaymentCall → PaymentCall → Prop where
  | target {params target} (read : readPaymentTarget params m = .ok target) :
      PaymentFlow m (.initiate params) (.prepare params target)
  | method {a} : PaymentFlow m (.createMethod a) (.attach a)
  | attached {a url} : PaymentFlow m (.attach a) (.saveIntent a url)
  | failed {call a code} (creating : call = .createIntent a ∨ call = .createMethod a ∨ call = .attach a) :
      PaymentFlow m call (.initiateFailed a code)
  | retrieving {origin i} : PaymentFlow m (.reconcile origin i) (.retrieve origin i)
  | captured {origin i s intent} (row : m.attempts[i]? = some s) (stored : s.intent = some intent)
      (succeeded : intent.status = .succeeded) :
      PaymentFlow m (.retrieve origin i) (.finalize origin {
        paymentIntentId := i, paymentId := intent.paymentId, amount := intent.amount
        currency := intent.currency, metadata := intent.metadata })
  | rejected {origin i reason} : PaymentFlow m (.retrieve origin i) (.markFailed origin i reason)
  | marking {origin i a reason} (registered : m.findIntent i = some a) :
      PaymentFlow m (.markFailed origin i reason) (.commitFailed origin i a reason)
  | returned {call origin i} : PaymentFlow m call (.reconciled origin i)
  | again {params i} : PaymentFlow m (.reconciled (.initiate params) i) (.initiate params)

theorem Origin.after_eq {origin : Origin} {i : GatewayId} {c : PaymentCall}
    (h : origin.after i = some c) : c = .reconciled origin i := by
  cases origin <;> simp [Origin.after] at h <;> exact h.symm

/-- The tables after an action, and the call that continues. -/
inductive MarketEvent (s : MarketSystem) : MarketAction → Market → Option PaymentCall → Prop where
  | called {entry} : MarketEvent s (.pay entry) s.market (some (entry.first s.market))
  | stopped {act} : MarketEvent s act s.market none
  | passed {k reply call next} (found : s.calls[k]? = some call)
      (flow : PaymentFlow s.market call next) :
      MarketEvent s (.resume k reply) s.market (some next)
  | prepared {k reply params target t} {prepared : Prepared}
      (found : s.calls[k]? = some (.prepare params target))
      (run : PreparedOn params target (expireStale params target s.market) t prepared.attempt) :
      MarketEvent s (.resume k reply) t (prepared.next params)
  | intentStored {k reply a next} (found : s.calls[k]? = some (.createIntent a))
      (goes : next = .createMethod a ∨ ∃ code, next = .initiateFailed a code) :
      MarketEvent s (.resume k reply) (s.market.storeIntent a) (some next)
  | intentSaved {k reply a redirectUrl} (found : s.calls[k]? = some (.saveIntent a redirectUrl)) :
      MarketEvent s (.resume k reply) (s.market.updateAttempt a fun attempt =>
        { attempt with providerIntentId := some a
                       redirectUrl := redirectUrl.or attempt.redirectUrl }) none
  | initiationFailed {k reply a code} (found : s.calls[k]? = some (.initiateFailed a code)) :
      MarketEvent s (.resume k reply) (recordInitiationFailure a code s.market) none
  | finalized {k reply origin payment a t result}
      (found : s.calls[k]? = some (.finalize origin payment))
      (registered : s.market.findIntent payment.paymentIntentId = some a)
      (run : FinalizedOn a payment s.market t result) :
      MarketEvent s (.resume k reply) t (result.next origin payment.paymentIntentId)
  | refunded {k reply origin i a stage row file gatewayRefund goes next} {answer : Answer}
      (found : s.calls[k]? = some (.refund origin i a stage))
      (listed : s.market.attempts[a]? = some row)
      (run : stage.resume answer row.gatewayRefund row.file = some (file, gatewayRefund, goes))
      (continues : ∀ c, next = some c → (∃ stage', goes = some stage' ∧ c = .refund origin i a stage')
        ∨ c = .reconciled origin i) :
      MarketEvent s (.resume k reply)
        { s.market with attempts := s.market.attempts.set a { row with file, gatewayRefund } } next
  | markedFailed {k reply origin i a reason}
      (found : s.calls[k]? = some (.commitFailed origin i a reason)) :
      MarketEvent s (.resume k reply) (markAttemptFailed a reason s.market) (origin.after i)
  | expired {k reply a rest} (found : s.calls[k]? = some (.expire (a :: rest))) :
      MarketEvent s (.resume k reply) (expireCandidate a s.market) (some (.expire rest))
  | acted {act t} (run : s.market.act act = some t) : MarketEvent s act t none

section Inversion

variable {s s' : MarketSystem} {k : Nat} {reply : Reply} {call : PaymentCall} {t : Market}
  {next : Option PaymentCall}

theorem retrieved_flow {origin : Origin} {i : GatewayId} {row : AttemptSystem} {intent : PaymentIntent}
    {c : PaymentCall} (found : t.attempts[i]? = some row) (stored : row.intent = some intent)
    (h : retrieved origin i intent = some c) : PaymentFlow t (.retrieve origin i) c := by
  simp only [retrieved] at h
  split at h
  · rename_i succeeded
    obtain rfl := Option.some.inj h
    exact .captured found stored succeeded
  split at h
  · cases h
  split at h
  · obtain rfl := Option.some.inj h
    exact .rejected
  · obtain rfl := Origin.after_eq h
    exact .returned

/-- A call that leaves the tables as they are. -/
theorem MarketEvent.of_flow (found : s.calls[k]? = some call)
    (flow : ∀ c, next = some c → PaymentFlow s.market call c) :
    MarketEvent s (.resume k reply) s.market next := by
  cases next with
  | none => exact .stopped
  | some c => exact .passed found (flow c rfl)

theorem resume_event_market (found : s.calls[k]? = some call)
    (h : s.market.resume reply call = some (t, next)) : MarketEvent s (.resume k reply) t next := by
  cases call with
  | initiate params =>
      simp only [Market.resume, Market.commit, Option.some.injEq] at h
      split at h
      · rename_i done run
        simp only [bind_ok, pure_ok] at run
        obtain ⟨target, read, rfl⟩ := run
        obtain ⟨rfl, rfl⟩ := Prod.mk.inj h
        exact .passed found (.target read)
      · obtain ⟨rfl, rfl⟩ := Prod.mk.inj h
        exact .stopped
  | prepare params target =>
      simp only [Market.resume, Market.commit, Option.some.injEq] at h
      split at h
      · rename_i done run
        simp only [bind_ok, pure_ok, Prod.exists] at run
        obtain ⟨after, prepared, prepare, rfl⟩ := run
        obtain ⟨rfl, rfl⟩ := Prod.mk.inj h
        exact .prepared found (preparePayment_ok prepare)
      · obtain ⟨rfl, rfl⟩ := Prod.mk.inj h
        exact .stopped
  | createIntent a =>
      cases reply with
      | ok =>
          obtain ⟨rfl, rfl⟩ := by simpa [Market.resume] using h
          exact .intentStored found (.inl rfl)
      | timedOut =>
          obtain ⟨rfl, rfl⟩ := by simpa [Market.resume] using h
          exact .intentStored found (.inr ⟨_, rfl⟩)
      | failed =>
          obtain ⟨rfl, rfl⟩ := by simpa [Market.resume] using h
          exact .passed found (.failed (.inl rfl))
      | none | redirect | refund => simp [Market.resume] at h
  | createMethod a =>
      cases reply with
      | ok =>
          obtain ⟨rfl, rfl⟩ := by simpa [Market.resume] using h
          exact .passed found .method
      | failed =>
          obtain ⟨rfl, rfl⟩ := by simpa [Market.resume] using h
          exact .passed found (.failed (.inr (.inl rfl)))
      | none | redirect | refund | timedOut => simp [Market.resume] at h
  | attach a =>
      cases reply with
      | redirect url =>
          obtain ⟨rfl, rfl⟩ := by simpa [Market.resume] using h
          exact .passed found .attached
      | failed =>
          obtain ⟨rfl, rfl⟩ := by simpa [Market.resume] using h
          exact .passed found (.failed (.inr (.inr rfl)))
      | none | ok | refund | timedOut => simp [Market.resume] at h
  | saveIntent a url =>
      obtain ⟨rfl, rfl⟩ := by simpa only [Market.resume, Option.some.injEq, Prod.mk.injEq] using h
      exact .intentSaved found
  | initiateFailed a code =>
      obtain ⟨rfl, rfl⟩ := by simpa only [Market.resume, Option.some.injEq, Prod.mk.injEq] using h
      exact .initiationFailed found
  | reconcile origin i =>
      obtain ⟨rfl, rfl⟩ := by simpa only [Market.resume, Option.some.injEq, Prod.mk.injEq] using h
      refine .of_flow found fun c hc => ?_
      obtain ⟨status, -, goes⟩ := Option.bind_eq_some_iff.mp hc
      split at goes
      · obtain rfl := Option.some.inj goes
        exact .retrieving
      · obtain rfl := Origin.after_eq goes
        exact .returned
  | retrieve origin i =>
      cases reply with
      | ok =>
          simp only [Market.resume, Option.map_eq_some_iff, Option.bind_eq_some_iff] at h
          obtain ⟨intent, ⟨row, listed, stored⟩, h⟩ := h
          obtain ⟨rfl, rfl⟩ := Prod.mk.inj h
          exact .of_flow found fun c hc => retrieved_flow listed stored hc
      | failed =>
          obtain ⟨rfl, rfl⟩ := by simpa [Market.resume] using h
          exact .stopped
      | none | redirect | refund | timedOut => simp [Market.resume] at h
  | finalize origin payment =>
      simp only [Market.resume, Market.commit, Option.some.injEq] at h
      split at h
      · rename_i done run
        simp only [bind_ok, orThrow_ok, pure_ok, Prod.exists] at run
        obtain ⟨a, registered, after, result, finalize, rfl⟩ := run
        obtain ⟨rfl, rfl⟩ := Prod.mk.inj h
        exact .finalized found registered (finalizeAttempt_ok finalize)
      · obtain ⟨rfl, rfl⟩ := Prod.mk.inj h
        exact .stopped
  | refund origin i a stage =>
      simp only [Market.resume, Market.resumeRefund, Option.bind_eq_some_iff,
        Option.map_eq_some_iff] at h
      obtain ⟨row, listed, ⟨file, g, goes⟩, run, h⟩ := h
      obtain ⟨rfl, rfl⟩ := Prod.mk.inj h
      refine .refunded found listed run fun c hc => ?_
      cases goes with
      | some stage' => exact .inl ⟨stage', rfl, (Option.some.inj hc).symm⟩
      | none =>
          simp only at hc
          split at hc
          · cases hc
          · exact .inr (Origin.after_eq hc)
  | markFailed origin i reason =>
      obtain ⟨rfl, rfl⟩ := by simpa only [Market.resume, Option.some.injEq, Prod.mk.injEq] using h
      refine .of_flow found fun c hc => ?_
      split at hc
      · rename_i a pending
        obtain rfl := Option.some.inj hc
        exact .marking (Option.filter_eq_some_iff.mp pending).1
      · obtain rfl := Origin.after_eq hc
        exact .returned
  | commitFailed origin i a reason =>
      obtain ⟨rfl, rfl⟩ := by simpa only [Market.resume, Option.some.injEq, Prod.mk.injEq] using h
      exact .markedFailed found
  | reconciled origin i =>
      obtain ⟨rfl, rfl⟩ := by simpa only [Market.resume, Option.some.injEq, Prod.mk.injEq] using h
      refine .of_flow found fun c hc => ?_
      split at hc
      · obtain rfl := Option.some.inj hc
        exact .again
      · obtain rfl := Option.some.inj hc
        exact .again
      · cases hc
  | expire candidates =>
      cases candidates with
      | nil =>
          obtain ⟨rfl, rfl⟩ := by simpa [Market.resume] using h
          exact .stopped
      | cons a rest =>
          obtain ⟨rfl, rfl⟩ := by simpa only [Market.resume, Option.some.injEq, Prod.mk.injEq] using h
          exact .expired found

theorem MarketSystem.step_event {a : MarketAction} (h : s.step a = some s') :
    ∃ next, MarketEvent s a s'.market next ∧ ∀ c ∈ s'.calls, c ∈ s.calls ∨ next = some c := by
  cases a with
  | pay entry =>
      obtain rfl := Option.some.inj h
      refine ⟨_, .called, fun c hc => ?_⟩
      simpa [eq_comm] using hc
  | resume k reply =>
      simp only [MarketSystem.step, Option.bind_eq_some_iff, Option.map_eq_some_iff] at h
      obtain ⟨call, found, ⟨t, next⟩, run, rfl⟩ := h
      exact ⟨next, resume_event_market found run, fun c hc => Threads.mem_proceed hc⟩
  | crash k =>
      simp only [MarketSystem.step] at h
      split at h
      · obtain rfl := Option.some.inj h
        exact ⟨none, .stopped, fun c hc => Threads.mem_proceed hc⟩
      · cases h
  | _ =>
      simp only [MarketSystem.step, Option.map_eq_some_iff] at h
      obtain ⟨t, run, rfl⟩ := h
      exact ⟨none, .acted run, fun c hc => .inl hc⟩

end Inversion

/-- What has to be shown of an event: the tables keep `I`, the waiting calls keep `P`, and the
    continuing call has it. -/
abbrev MarketSystem.Coupled (I : Market → Prop) (P : Market → PaymentCall → Prop) (s : MarketSystem) :
    Prop :=
  Threads.Coupled I P s.market s.calls

theorem market_reachableUnder {I : Market → Prop} {P : Market → PaymentCall → Prop}
    {C : MarketSystem → MarketAction → Prop} {s : MarketSystem}
    (initially : ∀ m : Market, m.requests = [] → m.offers = [] → m.attempts = [] → m.bookings = [] → I m)
    (preserved : ∀ s a t next, marketMachine.ReachableUnder C s → s.Coupled I P → C s a →
      MarketEvent s a t next → Threads.Preserves I P s.market t s.calls next)
    (h : marketMachine.ReachableUnder C s) : s.Coupled I P := by
  refine h.invariant_with (J := marketMachine.ReachableUnder C) (fun _ h => h) (fun s start => ?_) ?_
  · obtain ⟨requests, offers, attempts, bookings, calls⟩ := start
    exact ⟨initially _ requests offers attempts bookings, by simp [calls]⟩
  · intro s a s' reached coupled hc hn
    obtain ⟨next, event, left⟩ := MarketSystem.step_event hn
    exact coupled.preserved (preserved s a _ next reached coupled hc event) left

end ServiceHub
