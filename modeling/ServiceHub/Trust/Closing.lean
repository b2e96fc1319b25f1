import ServiceHub.Booking.LastCase
import ServiceHub.Market.Suspensions
import ServiceHub.Trust.Awards
import ServiceHub.Trust.Rewards

/-! # When the completion reward is attempted

The marketplace and the ledger, where the transactions of the bookings attempt the reward
themselves. A report decision reads the booking before it restores it, and a restored booking is not
completed. Penalties and corrections remain actions of their own.
-/

namespace ServiceHub

open Guard

namespace RewardSystem

/-- The booking whose reward the committed action attempts. -/
def attempted (s : RewardSystem) (m' : MarketSystem) : MarketAction → Option BookingId
  | .booking b st updatedAt =>
      match s.market.market.bookings[b]?, m'.market.bookings[b]? with
      | some x, some x' =>
          if x.attemptsReward (s.market.market.context b x updatedAt) st x' then some b else none
      | _, _ => none
  | _ => none

def settle (s : RewardSystem) : RewardAction → Option RewardSystem
  | .market a => (s.market.step a).bind fun m' =>
      let written := { s with market := m' }
      match s.attempted m' a with
      | some b => (awardBookingCompletionTrust (written.context true) b s.ledger).toOption.map
          ({ written with ledger := · })
      | none => some written
  | .trust (.awardCompletion _) _ => none
  | .trust a otherAdmin => s.step (.trust a otherAdmin)

/-- The booking is completed and no case is open on it. -/
def Closed (s : RewardSystem) (b : BookingId) : Prop :=
  ∃ f, s.file b = some f ∧ f.booking.status = .completed ∧ f.caseOpen {} = false

/-- Two approved accounts that were not rewarded for another booking within the window. -/
def pairDue (s : RewardSystem) (b : BookingId) (booking : Booking) (l : TrustLedger) : Bool :=
  booking.providerId != booking.seekerId
    && (s.market.market.user booking.providerId).any (·.verificationStatus == .approved)
    && (s.market.market.user booking.seekerId).any (·.verificationStatus == .approved)
    && !l.recentlyRewarded (s.context true) b booking

/-- A reward that the account is due for the booking is missing. -/
def missing (s : RewardSystem) (b : BookingId) (booking : Booking) (u : UserId) : Bool :=
  s.pairDue b booking s.ledger && s.ledger.outstanding s.market.market.user b booking.providerId u

end RewardSystem

def closingMachine : Machine RewardSystem RewardAction where
  initial s := marketMachine.initial s.market ∧ trustMachine.initial s.ledger
  next := RewardSystem.settle

def Step.unpenalised (st : Step) (x : BookingSystem) : Prop :=
  ∀ (k : Nat) answer call id adminId outcome penalty, st = .resume k answer → x.calls[k]? = some call →
    call.caller = .resolveAdminReport id adminId outcome penalty → penalty = .none

/-- A step of the booking without a penalty, or a wait in which no other reward of the pair leaves the
    window. A declined or denied cancellation request does not close the last case of the completed
    booking while a reward is missing. -/
inductive ClosingStep (b : BookingId) (s : RewardSystem) : RewardAction → Prop where
  | booking {st updatedAt} (unpenalised : ∀ x, s.market.market.bookings[b]? = some x → st.unpenalised x)
      (rewarded : ∀ x, s.market.market.bookings[b]? = some x → x.closesUnrewarded st = true →
        ∀ u, u = x.file.booking.providerId ∨ u = x.file.booking.seekerId →
          s.missing b x.file.booking u = false) :
      ClosingStep b s (.market (.booking b st updatedAt))
  | wait {d} (window : ∀ f, s.file b = some f →
      s.ledger.recentlyRewarded { s.context true with now := s.market.market.now + d } b f.booking
        = s.ledger.recentlyRewarded (s.context true) b f.booking) :
      ClosingStep b s (.market (.wait d))

section Steps

variable {s s' s₀ s₁ s₂ : RewardSystem} {m m' : MarketSystem} {b : BookingId} {st : Step} {updatedAt : Millis}
  {f : BookingFile} {booking booking' : Booking} {l l' : TrustLedger} {ctx ctx' : TrustContext}

/-- A step of a booking that penalises nobody. -/
structure BookingTurn (m m' : MarketSystem) (b : BookingId) (st : Step) (updatedAt : Millis)
    (x x' y : BookingSystem) : Prop where
  found : m.market.bookings[b]? = some x
  step : ∃ effects, x.step (m.market.context b x updatedAt) st = some (x', effects)
  after : m'.market.bookings[b]? = some y
  renumbered : Renumbered x' y
  user : m'.market.user = m.market.user
  now : m'.market.now = m.market.now
  length : m'.market.bookings.length = m.market.bookings.length

theorem bookingTurn (h : m.step (.booking b st updatedAt) = some m')
    (unpenalised : ∀ x, m.market.bookings[b]? = some x → st.unpenalised x) :
    ∃ x x' y, BookingTurn m m' b st updatedAt x x' y := by
  obtain ⟨t, run, rfl⟩ := Option.map_eq_some_iff.mp h
  obtain ⟨x, x', effects, found, -, step, applied, -⟩ := stepBooking_run run
  have renumbered := applyEffects_renumbered applied
  have quiet : effects.moderation = none := by
    cases moderated : effects.moderation with
    | none => rfl
    | some moderation =>
        obtain ⟨userId, status⟩ := moderation
        obtain ⟨k, answer, call, _, rfl, called, -, -, restricts⟩ := BookingSystem.step_restricts step moderated
        obtain ⟨id, adminId, outcome, penalty, report, applied, caller, -, -, checked, applies⟩ := restricts.checked
        obtain rfl := unpenalised x found k answer call id adminId outcome penalty rfl called caller
        obtain rfl := pure_ok.mp (by simpa only [checkReportPenalty, if_true] using checked)
        simp [ReportPenalty.moderation] at applies
  obtain ⟨requests, user, frame⟩ := writeEffects_frame x.file.booking effects
    { m.market with bookings := m.market.bookings.set b x' }
  have bound := (List.getElem?_eq_some_iff.mp found).1
  have set_length : t.bookings.length = m.market.bookings.length := by
    rw [renumbered.length, frame, List.length_set]
  obtain ⟨y, after⟩ : ∃ y, t.bookings[b]? = some y := ⟨_, List.getElem?_eq_getElem (set_length ▸ bound)⟩
  obtain ⟨z, before, run⟩ := renumbered.row after
  rw [frame] at before
  obtain rfl : x' = z := by simpa [bound] using before
  refine ⟨x, x', y, found, ⟨effects, step⟩, after, run, ?_, ?_, set_length⟩
  · rw [renumbered.tables]
    change (Market.writeEffects x.file.booking effects _).user = _
    rw [writeEffects_user, quiet]
    rfl
  · rw [renumbered.tables, frame]

/-- Every step is one of the rewards that may be attempted at any time. -/
theorem settle_rewards {a : RewardAction} (h : s.settle a = some s') :
    Machine.RunUnder rewardMachine (fun _ _ => True) s s' := by
  cases a with
  | market a =>
      obtain ⟨m', step, h⟩ := Option.bind_eq_some_iff.mp h
      have first : rewardMachine.next s (.market a) = some { s with market := m' } := by
        change (s.market.step a).map _ = _
        rw [step]
        rfl
      simp only at h
      split at h
      · rename_i b _
        obtain ⟨l', award, rfl⟩ := Option.map_eq_some_iff.mp h
        have second : rewardMachine.next { s with market := m' } (.trust (.awardCompletion b) true)
            = some { { s with market := m' } with ledger := l' } := by
          change (awardBookingCompletionTrust _ b s.ledger).toOption.map _ = _
          rw [award]
          rfl
        exact .step (.step .refl trivial first) trivial second
      · obtain rfl := Option.some.inj h
        exact .step .refl trivial first
  | trust a otherAdmin =>
      have next : rewardMachine.next s (.trust a otherAdmin) = some s' := by
        change s.step (.trust a otherAdmin) = some s'
        cases a with
        | awardCompletion => simp only [RewardSystem.settle, reduceCtorEq] at h
        | _ => simpa only [RewardSystem.settle] using h
      exact .step .refl trivial next

theorem closing_rewards (h : closingMachine.Reachable s) : rewardMachine.Reachable s := by
  obtain ⟨s₀, h₀, run⟩ := h
  refine ⟨s₀, h₀, ?_⟩
  induction run with
  | refl => exact .refl
  | step _ _ next ih => exact ih.trans (settle_rewards next)

theorem rewards_market (h : rewardMachine.Reachable s) : marketMachine.Reachable s.market := by
  refine h.invariant (I := fun s => marketMachine.Reachable s.market) ?_ ?_
  · rintro s ⟨start, -⟩
    exact .start start
  · intro s a s' reached stepped
    cases a with
    | market a =>
        obtain ⟨m', next, rfl⟩ := Option.map_eq_some_iff.mp stepped
        exact reached.next trivial next
    | trust a otherAdmin =>
        obtain ⟨l', -, rfl⟩ := Option.map_eq_some_iff.mp stepped
        exact reached

theorem caseOpen_nothing : f.caseOpen {} = (f.reports.any (·.status.active)
    || f.cancellationRequests.any (·.status.undecided) || f.completionEscalations.any (·.status.active)) := by
  have report : Closing.leavesReport {} = (·.status.active) := by
    funext r
    simp [Closing.leavesReport]
  have cancellation : Closing.leavesCancellation {} = (·.status.undecided) := by
    funext q
    simp [Closing.leavesCancellation]
  simp only [BookingFile.caseOpen, report, cancellation]

/-- A booking that is not completed, or has an open case, is not rewarded. -/
theorem award_deferred (found : ctx.booking b = some f)
    (unready : f.booking.status ≠ .completed ∨ f.caseOpen {} = true)
    (h : awardBookingCompletionTrust ctx b l = .ok l') : l' = l := by
  obtain same | ⟨g, -, found', rewardable, -⟩ := awardBookingCompletionTrust_ok h
  · exact same
  obtain rfl := Option.some.inj (found.symm.trans found')
  simp only [BookingFile.rewardable, Bool.and_eq_true, beq_iff_eq, Bool.not_eq_true'] at rewardable
  obtain ⟨⟨⟨⟨completed, -⟩, reports⟩, cancellations⟩, escalations⟩ := rewardable
  rw [caseOpen_nothing, reports, cancellations, escalations] at unready
  simp_all

/-- The attempt on a booking that is completed, settled and without an open case. -/
theorem award_settled (found : s.file b = some f) (completed : f.booking.status = .completed)
    (closed : f.caseOpen {} = false) (service : f.completedService.isSome = true)
    (paid : f.booking.paymentStatus = .cashConfirmed ∨ f.booking.paymentStatus = .released)
    (h : awardBookingCompletionTrust (s.context true) b l = .ok l') :
    (s.pairDue b f.booking l = false ∧ l' = l)
      ∨ (s.pairDue b f.booking l = true ∧ PairAwarded s.market.market.user s.market.market.now b
        f.booking.providerId f.booking.seekerId l l') := by
  rw [caseOpen_nothing] at closed
  simp only [Bool.or_eq_false_iff] at closed
  obtain ⟨⟨reports, cancellations⟩, escalations⟩ := closed
  have paid' : (f.booking.paymentStatus == .cashConfirmed || f.booking.paymentStatus == .released) = true := by
    simpa using paid
  have ready : f.rewardable (s.context true) = (f.booking.providerId != f.booking.seekerId
      && (s.market.market.user f.booking.providerId).any (·.verificationStatus == .approved)
      && (s.market.market.user f.booking.seekerId).any (·.verificationStatus == .approved)) := by
    simp only [BookingFile.rewardable, completed, service, paid', reports, cancellations, escalations,
      beq_self_eq_true, Bool.true_and, Bool.not_false, Bool.and_true]
    rfl
  have known : (s.context true).booking b = some f := found
  unfold awardBookingCompletionTrust at h
  simp only [known, ite_ok, pure_ok, List.foldlM_cons, List.foldlM_nil, bind_ok] at h
  simp only [RewardSystem.pairDue, ← ready]
  obtain ⟨unready, rfl⟩ | ⟨ready, ⟨recent, rfl⟩ | ⟨unrewarded, l₁, first, l₂, second, rfl⟩⟩ := h
  · exact .inl ⟨by simp [unready], rfl⟩
  · exact .inl ⟨by simp [recent], rfl⟩
  · refine .inr ⟨?_, l₁, awardParticipant_awarded first, awardParticipant_awarded second⟩
    rw [Bool.not_eq_false] at ready
    rw [Bool.not_eq_true] at unrewarded
    rw [ready, unrewarded]
    rfl

/-- Rewards of other bookings within the window, seen through the participants of the bookings. -/
theorem recentlyRewarded_congr (now : ctx'.now = ctx.now)
    (same : ∀ b, (ctx'.booking b).map (fun f => (f.booking.providerId, f.booking.seekerId))
      = (ctx.booking b).map (fun f => (f.booking.providerId, f.booking.seekerId)))
    (provider : booking'.providerId = booking.providerId) (seeker : booking'.seekerId = booking.seekerId) :
    l.recentlyRewarded ctx' b booking' = l.recentlyRewarded ctx b booking := by
  have pairs (c : TrustContext) (bk : Booking) (e : TrustScoreEvent) :
      (e.bookingId.bind c.booking).any (fun f =>
        (f.booking.providerId == bk.providerId && f.booking.seekerId == bk.seekerId)
          || (f.booking.providerId == bk.seekerId && f.booking.seekerId == bk.providerId))
      = (e.bookingId.bind fun b => (c.booking b).map (fun f => (f.booking.providerId, f.booking.seekerId))).any
          fun pq => (pq.1 == bk.providerId && pq.2 == bk.seekerId)
            || (pq.1 == bk.seekerId && pq.2 == bk.providerId) := by
    cases e.bookingId with
    | none => rfl
    | some b => simp only [Option.bind_some, Option.any_map]
  simp only [TrustLedger.recentlyRewarded, pairs, now, same, provider, seeker]

theorem Awarded.recentlyRewarded {user : UserId → Option User} {now : Millis} {provider u : UserId}
    (h : Awarded user now b provider u l l') :
    l'.recentlyRewarded ctx b booking = l.recentlyRewarded ctx b booking := by
  cases h with
  | settled => rfl
  | granted =>
      refine standing_record_any rfl ?_
      simp [TrustEventInput.event, rewardInput]

theorem PairAwarded.recentlyRewarded {user : UserId → Option User} {now : Millis} {p q : UserId}
    (h : PairAwarded user now b p q l l') :
    l'.recentlyRewarded ctx b booking = l.recentlyRewarded ctx b booking := by
  obtain ⟨l₁, first, second⟩ := h
  exact second.recentlyRewarded.trans first.recentlyRewarded

end Steps

/-! ### Runs that close the cases of a booking -/

/-- The accounts, the participants of every booking and the window are as they were at the start. -/
structure SameWorld (b : BookingId) (f₀ : BookingFile) (s₀ s : RewardSystem) : Prop where
  user : s.market.market.user = s₀.market.market.user
  pairs : ∀ b, (s.file b).map (fun f => (f.booking.providerId, f.booking.seekerId))
    = (s₀.file b).map (fun f => (f.booking.providerId, f.booking.seekerId))
  window : s₀.ledger.recentlyRewarded (s.context true) b f₀.booking
    = s₀.ledger.recentlyRewarded (s₀.context true) b f₀.booking

/-- The reward has been attempted since the start, at some time. -/
def AttemptedSince (b : BookingId) (f₀ : BookingFile) (s₀ s : RewardSystem) : Prop :=
  ∃ now, PairAwarded s₀.market.market.user now b f₀.booking.providerId f₀.booking.seekerId s₀.ledger s.ledger

structure Settling (b : BookingId) (f₀ : BookingFile) (s₀ s : RewardSystem) : Prop where
  world : SameWorld b f₀ s₀ s
  ledger : s.ledger = s₀.ledger ∨ (s₀.pairDue b f₀.booking s₀.ledger = true ∧ AttemptedSince b f₀ s₀ s)
  closed : s.Closed b → s₀.pairDue b f₀.booking s₀.ledger = true → AttemptedSince b f₀ s₀ s

section Runs

variable {s s' s₀ s₁ s₂ : RewardSystem} {m m' : MarketSystem} {b : BookingId} {st : Step} {updatedAt : Millis}
  {f f₀ : BookingFile} {a : RewardAction} {u : UserId} {ctx : TrustContext}

theorem Settling.recent (h : Settling b f₀ s₀ s) :
    s.ledger.recentlyRewarded ctx b f₀.booking = s₀.ledger.recentlyRewarded ctx b f₀.booking := by
  obtain same | ⟨-, now, awarded⟩ := h.ledger
  · rw [same]
  · exact awarded.recentlyRewarded

theorem SameWorld.file (h : SameWorld b f₀ s₀ s) (found₀ : s₀.file b = some f₀) (found : s.file b = some f) :
    f.booking.providerId = f₀.booking.providerId ∧ f.booking.seekerId = f₀.booking.seekerId := by
  have pair := h.pairs b
  rw [found, found₀] at pair
  exact Prod.mk.inj (Option.some.inj pair)

theorem SameWorld.pairDue {l : TrustLedger} (h : SameWorld b f₀ s₀ s) (found₀ : s₀.file b = some f₀)
    (found : s.file b = some f)
    (recent : l.recentlyRewarded (s.context true) b f₀.booking
      = s₀.ledger.recentlyRewarded (s.context true) b f₀.booking) :
    s.pairDue b f.booking l = s₀.pairDue b f₀.booking s₀.ledger := by
  obtain ⟨provider, seeker⟩ := h.file found₀ found
  have window : l.recentlyRewarded (s.context true) b f.booking
      = s₀.ledger.recentlyRewarded (s₀.context true) b f₀.booking := by
    rw [← h.window, ← recent]
    exact recentlyRewarded_congr rfl (fun _ => rfl) provider seeker
  simp only [RewardSystem.pairDue, h.user, provider, seeker, window]

/-- The participants of all bookings after a step of a booking. -/
theorem BookingTurn.pairs {x x' y : BookingSystem} (turn : BookingTurn s.market m' b st updatedAt x x' y)
    (step : s.market.step (.booking b st updatedAt) = some m') (b' : BookingId) :
    (RewardSystem.file { s with market := m' } b').map (fun f => (f.booking.providerId, f.booking.seekerId))
      = (s.file b').map (fun f => (f.booking.providerId, f.booking.seekerId)) := by
  cases found : s.file b' with
  | some f =>
      obtain ⟨f', found', provider, seeker⟩ := (market_participants step).kept b' f found
      have after : RewardSystem.file { s with market := m' } b' = some f' := found'
      rw [after, Option.map_some, Option.map_some, provider, seeker]
  | none =>
      have beyond : s.market.market.bookings.length ≤ b' := by
        simpa [RewardSystem.file] using found
      have none_ : RewardSystem.file { s with market := m' } b' = none := by
        simpa [RewardSystem.file, turn.length] using beyond
      rw [none_]

/-- What the reward needs besides the closed cases is settled with the booking. -/
theorem completed_settled {x : BookingSystem} (reached : bookingMachine.Reachable x)
    (completed : x.file.booking.status = .completed) : x.file.completedService.isSome = true
      ∧ (x.file.booking.paymentStatus = .cashConfirmed ∨ x.file.booking.paymentStatus = .released) := by
  obtain ⟨l, e⟩ := (reachable_encodes (bookingMachine_reachableUnder reached)).file
  obtain rfl := e.of_completed completed
  refine ⟨e.completedService, ?_⟩
  rw [e.payment]
  cases x.file.booking.paymentMethod <;> simp [Lifecycle.payment]

/-- The step that closes the last case has attempted the reward, or no reward is missing. -/
theorem Settling.booking (h : Settling b f₀ s₀ s) (found₀ : s₀.file b = some f₀)
    (reached : closingMachine.Reachable s) (cond : ClosingStep b s (.market (.booking b st updatedAt)))
    (next : s.settle (.market (.booking b st updatedAt)) = some s') : Settling b f₀ s₀ s' := by
  obtain ⟨unpenalised, rewarded⟩ := cond
  obtain ⟨m', step, next⟩ := Option.bind_eq_some_iff.mp next
  obtain ⟨x, x', y, turn⟩ := bookingTurn step unpenalised
  obtain ⟨effects, moved⟩ := turn.step
  have market := rewards_market (closing_rewards reached)
  have known : (RewardSystem.file { s with market := m' } b) = some y.file := by
    simp [RewardSystem.file, turn.after]
  have before : s.file b = some x.file := by simp [RewardSystem.file, turn.found]
  have status : y.file.booking.status = x'.file.booking.status :=
    turn.renumbered.column (·.file.booking.status) fun _ _ _ _ => rfl
  have cases_ : y.file.caseOpen {} = x'.file.caseOpen {} :=
    turn.renumbered.column (·.file.caseOpen {}) fun _ _ _ _ => rfl
  -- the world is as before
  have world (l : TrustLedger) : SameWorld b f₀ s₀ { { s with market := m' } with ledger := l } := by
    refine ⟨turn.user.trans h.world.user, fun b' => (turn.pairs step b').trans (h.world.pairs b'), ?_⟩
    rw [← h.world.window]
    exact recentlyRewarded_congr turn.now (turn.pairs step) rfl rfl
  have due : RewardSystem.pairDue { s with market := m' } b y.file.booking s.ledger
      = s₀.pairDue b f₀.booking s₀.ledger :=
    (world s.ledger).pairDue found₀ known h.recent
  simp only [RewardSystem.attempted, turn.found, turn.after] at next
  by_cases attempts : x.attemptsReward (s.market.market.context b x updatedAt) st y = true
  · simp only [attempts, if_true] at next
    obtain ⟨l', award, rfl⟩ := Option.map_eq_some_iff.mp next
    have award := toOption_some.mp award
    by_cases ready : y.file.booking.status = .completed ∧ y.file.caseOpen {} = false
    · have taken : marketMachine.next s.market (.booking b st updatedAt) = some m' := step
      have stepped : marketMachine.Reachable m' := market.next trivial taken
      obtain ⟨service, paid⟩ := completed_settled (booking_reachable stepped turn.after) ready.1
      obtain ⟨undue, rfl⟩ | ⟨pair, awarded⟩ := award_settled known ready.1 ready.2 service paid award
      · refine ⟨world _, h.ledger, fun _ pair => ?_⟩
        rw [due, pair] at undue
        cases undue
      · have since : AttemptedSince b f₀ s₀ { { s with market := m' } with ledger := l' } := by
          obtain ⟨provider, seeker⟩ := (world s.ledger).file found₀ known
          rw [provider, seeker, turn.user, h.world.user] at awarded
          obtain same | ⟨-, now, earlier⟩ := h.ledger
          · rw [same] at awarded
            exact ⟨_, awarded⟩
          · -- an earlier attempt has left nothing to record
            obtain rfl := awarded.again fun u participant => earlier.settles participant
            exact ⟨now, earlier⟩
        exact ⟨world l', .inr ⟨due ▸ pair, since⟩, fun _ _ => since⟩
    · have unready : y.file.booking.status ≠ .completed ∨ y.file.caseOpen {} = true := by
        rwa [not_and_or, Bool.not_eq_false] at ready
      obtain rfl := award_deferred known unready award
      refine ⟨world _, h.ledger, fun closed => ?_⟩
      obtain ⟨f, found, completed, none_⟩ := closed
      obtain rfl := Option.some.inj (known.symm.trans found)
      exact absurd ⟨completed, none_⟩ ready
  · simp only [attempts, Bool.false_eq_true, if_false] at next
    obtain rfl := Option.some.inj next
    refine ⟨world s.ledger, h.ledger, fun closed pair => ?_⟩
    obtain ⟨f, found, completed, none_⟩ := closed
    obtain rfl := Option.some.inj (known.symm.trans found)
    by_cases was : s.Closed b
    · exact h.closed was pair
    have still : x.file.booking.status ≠ .completed ∨ x.file.caseOpen {} = true := by
      by_contra none_
      rw [not_or, not_not, Bool.not_eq_true] at none_
      exact was ⟨x.file, before, none_⟩
    have closes := BookingSystem.step_closes moved (status ▸ completed) (cases_ ▸ none_) still
    rcases closes with attempted | drops
    · refine absurd ?_ attempts
      simpa only [BookingSystem.attemptsReward, status] using attempted
    · have missing := rewarded x turn.found drops
      obtain same | ⟨-, earlier⟩ := h.ledger
      · obtain ⟨provider, seeker⟩ := h.world.file found₀ before
        have pair' := (h.world.pairDue found₀ before h.recent).trans pair
        refine ⟨0, ?_⟩
        change PairAwarded _ _ _ _ _ _ s.ledger
        rw [same]
        refine .of_settled fun u participant => ?_
        have none_ := missing u (by rwa [provider, seeker])
        rw [RewardSystem.missing, pair'] at none_
        simpa only [Bool.true_and, h.world.user, provider, same] using none_
      · exact earlier

theorem Settling.wait {d : Millis} (h : Settling b f₀ s₀ s) (found₀ : s₀.file b = some f₀)
    (window : ∀ f, s.file b = some f →
      s.ledger.recentlyRewarded { s.context true with now := s.market.market.now + d } b f.booking
        = s.ledger.recentlyRewarded (s.context true) b f.booking)
    (next : s.settle (.market (.wait d)) = some s') : Settling b f₀ s₀ s' := by
  obtain rfl := Option.some.inj next
  refine ⟨⟨h.world.user, h.world.pairs, ?_⟩, h.ledger, h.closed⟩
  obtain ⟨f, found⟩ : ∃ f, s.file b = some f := by
    have pair := h.world.pairs b
    rw [found₀] at pair
    obtain ⟨f, found, -⟩ := Option.map_eq_some_iff.mp pair
    exact ⟨f, found⟩
  obtain ⟨provider, seeker⟩ := h.world.file found₀ found
  have same (ctx : TrustContext) : s.ledger.recentlyRewarded ctx b f.booking
      = s₀.ledger.recentlyRewarded ctx b f₀.booking :=
    (recentlyRewarded_congr rfl (fun _ => rfl) provider seeker).trans h.recent
  have waited := window f found
  rw [same, same, h.world.window] at waited
  exact waited

theorem closing_run (reached : closingMachine.Reachable s₀) (found₀ : s₀.file b = some f₀)
    (open_ : f₀.booking.status ≠ .completed ∨ f₀.caseOpen {} = true)
    (run : closingMachine.RunUnder (ClosingStep b) s₀ s) : Settling b f₀ s₀ s := by
  have both : closingMachine.Reachable s ∧ Settling b f₀ s₀ s := by
    induction run with
    | refl =>
        refine ⟨reached, ⟨rfl, fun _ => rfl, rfl⟩, .inl rfl, fun closed => ?_⟩
        obtain ⟨f, found, completed, none_⟩ := closed
        obtain rfl := Option.some.inj (found₀.symm.trans found)
        simp [completed, none_] at open_
    | step _ cond next ih =>
        refine ⟨ih.1.next trivial next, ?_⟩
        cases cond with
        | booking unpenalised rewarded => exact ih.2.booking found₀ ih.1 (.booking unpenalised rewarded) next
        | wait window => exact ih.2.wait found₀ window next
  exact both.2

/-- Whatever the order in which the confirmation and the decisions close the cases of a booking, the
    ledger ends the same but for the recorded times, and no reward is missing. -/
theorem completion_reward_order_free (reached : closingMachine.Reachable s₀) (found₀ : s₀.file b = some f₀)
    (open_ : f₀.booking.status ≠ .completed ∨ f₀.caseOpen {} = true)
    (run₁ : closingMachine.RunUnder (ClosingStep b) s₀ s₁) (run₂ : closingMachine.RunUnder (ClosingStep b) s₀ s₂)
    (closed₁ : s₁.Closed b) (closed₂ : s₂.Closed b) :
    s₁.ledger.trustScore = s₂.ledger.trustScore
      ∧ s₁.ledger.events.map (·.untimed) = s₂.ledger.events.map (·.untimed)
      ∧ ∀ u, u = f₀.booking.providerId ∨ u = f₀.booking.seekerId → s₁.missing b f₀.booking u = false := by
  have end₁ := closing_run reached found₀ open_ run₁
  have end₂ := closing_run reached found₀ open_ run₂
  have due : s₁.pairDue b f₀.booking s₁.ledger = s₀.pairDue b f₀.booking s₀.ledger := by
    obtain ⟨f, found, -⟩ := closed₁
    obtain ⟨provider, seeker⟩ := end₁.world.file found₀ found
    have recent : s₁.ledger.recentlyRewarded (s₁.context true) b f.booking
        = s₁.ledger.recentlyRewarded (s₁.context true) b f₀.booking :=
      recentlyRewarded_congr rfl (fun _ => rfl) provider seeker
    rw [← end₁.world.pairDue found₀ found end₁.recent]
    simp only [RewardSystem.pairDue, provider, seeker, recent]
  cases pair : s₀.pairDue b f₀.booking s₀.ledger with
  | false =>
      have unpaid {s : RewardSystem} (h : Settling b f₀ s₀ s) : s.ledger = s₀.ledger := by
        obtain same | ⟨due, -⟩ := h.ledger
        · exact same
        · rw [pair] at due
          cases due
      have same : s₁.ledger = s₂.ledger := (unpaid end₁).trans (unpaid end₂).symm
      refine ⟨by rw [same], by rw [same], fun u _ => ?_⟩
      rw [RewardSystem.missing, due, pair, Bool.false_and]
  | true =>
      obtain ⟨now₁, awarded₁⟩ := end₁.closed closed₁ pair
      obtain ⟨now₂, awarded₂⟩ := end₂.closed closed₂ pair
      have same := awarded₁.untimed_eq awarded₂
      have scores : s₁.ledger.untimed.trustScore = s₂.ledger.untimed.trustScore := by rw [same]
      have events : s₁.ledger.untimed.events = s₂.ledger.untimed.events := by rw [same]
      refine ⟨scores, events, fun u participant => ?_⟩
      rw [RewardSystem.missing, end₁.world.user, awarded₁.settles participant, Bool.and_false]

end Runs

/-! ### Sample runs -/

def Step.spares (st : Step) (x : BookingSystem) : Bool :=
  match st with
  | .resume k _ => (x.calls[k]?).all fun c => match c.caller with
      | .resolveAdminReport _ _ _ penalty => penalty == .none
      | _ => true
  | _ => true

theorem Step.spares_sound {st : Step} {x : BookingSystem} (h : st.spares x = true) : st.unpenalised x := by
  rintro k answer call id adminId outcome penalty rfl called caller
  simpa [Step.spares, called, caller] using h

def closesCases (b : BookingId) (s : RewardSystem) : RewardAction → Bool
  | .market (.booking b' st _) => b' == b && (s.market.market.bookings[b]?).all fun x =>
      st.spares x && (!x.closesUnrewarded st || (!s.missing b x.file.booking x.file.booking.providerId
        && !s.missing b x.file.booking x.file.booking.seekerId))
  | _ => false

theorem closesCases_sound (b : BookingId) (s : RewardSystem) (a : RewardAction) (h : closesCases b s a = true) :
    ClosingStep b s a := by
  cases a with
  | trust => simp [closesCases] at h
  | market act =>
      cases act with
      | booking b' st updatedAt =>
          simp only [closesCases, Bool.and_eq_true, beq_iff_eq] at h
          obtain ⟨rfl, kept⟩ := h
          have each (x : BookingSystem) (found : s.market.market.bookings[b']? = some x) := by
            rw [found, Option.all_some, Bool.and_eq_true] at kept
            exact kept
          refine .booking (fun x found => Step.spares_sound (each x found).1) fun x found drops u participant => ?_
          have none_ := (each x found).2
          simp only [drops, Bool.not_true, Bool.false_or, Bool.and_eq_true, Bool.not_eq_true'] at none_
          rcases participant with rfl | rfl
          · exact none_.1
          · exact none_.2
      | _ => simp [closesCases] at h

instance (s : RewardSystem) (b : BookingId) : Decidable (s.Closed b) :=
  decidable_of_iff ((s.file b).any (fun f => f.booking.status == .completed && !f.caseOpen {}) = true) (by
    simp [RewardSystem.Closed, Option.any_eq_true])

def sampleTurn (st : Step) : RewardAction := .market (.booking 0 st 0)

/-- The work of a rewardable pair is marked complete, and the seeker asks to cancel. -/
def sampleDeferred : List RewardAction :=
  [.trust (.createAccount 1) true, .trust (.createAccount 2) true] ++ samplePurchase.map .market
    ++ [sampleTurn (.request (.providerStartJob 2)), sampleTurn (.request (.markJobComplete 2)),
      sampleTurn (.request (.requestCancellation 1))]

def sampleConfirm : RewardAction := sampleTurn (.request (.confirmCompletion 1))

def sampleDecline : RewardAction := sampleTurn (.request (.declineCancellation 0 2 5))

/-- The seeker confirms and reports; the request is declined and then the report dismissed. -/
def sampleDismissedLast : List RewardAction :=
  [sampleConfirm, sampleTurn (.request (.createSafetyReport 1 .noShow 0 none)), sampleDecline,
    sampleTurn (.request (.resolveAdminReport 1 9 .dismiss .none 5)), sampleTurn (.resume 0 .none),
    sampleTurn (.resume 0 .none)]

theorem sampleRewarded_initial : closingMachine.initial sampleRewarded :=
  ⟨sampleMarket_initial, fun _ => rfl, rfl, rfl⟩

theorem completion_reward_order_free_dismissed : ∃ s₀ s₁ s₂ f₀,
    closingMachine.exec sampleRewarded sampleDeferred = some s₀ ∧ s₀.file 0 = some f₀
    ∧ closingMachine.execUnder (closesCases 0) s₀ [sampleDecline, sampleConfirm] = some s₁
    ∧ closingMachine.execUnder (closesCases 0) s₀ sampleDismissedLast = some s₂
    ∧ s₁.ledger.trustScore 1 = some 53
    ∧ s₁.ledger.trustScore = s₂.ledger.trustScore
    ∧ s₁.ledger.events.map (·.untimed) = s₂.ledger.events.map (·.untimed)
    ∧ ∀ u, u = f₀.booking.providerId ∨ u = f₀.booking.seekerId → s₁.missing 0 f₀.booking u = false := by
  obtain ⟨s₀, run, ends⟩ := sample_any (o := closingMachine.exec sampleRewarded sampleDeferred)
    (p := fun s => ((s.file 0).any fun f => f.booking.status == .awaitingConfirmation) = true
      ∧ ((closingMachine.execUnder (closesCases 0) s [sampleDecline, sampleConfirm]).any fun s =>
        decide (s.Closed 0 ∧ s.ledger.trustScore 1 = some 53)) = true
      ∧ ((closingMachine.execUnder (closesCases 0) s sampleDismissedLast).any fun s => decide (s.Closed 0)) = true)
    (by decide)
  obtain ⟨awaiting, first, second⟩ := ends
  obtain ⟨f₀, found₀, awaiting⟩ := (Option.any_eq_true _ _).mp awaiting
  obtain ⟨s₁, run₁, both⟩ := (Option.any_eq_true _ _).mp first
  obtain ⟨s₂, run₂, closed₂⟩ := (Option.any_eq_true _ _).mp second
  obtain ⟨closed₁, rewarded⟩ := of_decide_eq_true both
  have uncompleted : f₀.booking.status ≠ .completed := by
    rw [beq_iff_eq.mp awaiting]
    decide
  exact ⟨s₀, s₁, s₂, f₀, run, found₀, run₁, run₂, rewarded,
    completion_reward_order_free (.of_exec sampleRewarded_initial run) found₀ (.inl uncompleted)
      (.of_execUnder (closesCases_sound 0) run₁) (.of_execUnder (closesCases_sound 0) run₂) closed₁
      (of_decide_eq_true closed₂)⟩

/-- The confirmation before the decline costs both participants the reward. -/
theorem reward_lost_by_decline : ∃ s₀ s₁ s₂ f₀, closingMachine.Reachable s₀ ∧ s₀.file 0 = some f₀
    ∧ f₀.booking.status = .awaitingConfirmation
    ∧ closingMachine.exec s₀ [sampleConfirm, sampleDecline] = some s₁ ∧ s₁.Closed 0
    ∧ closingMachine.exec s₀ [sampleDecline, sampleConfirm] = some s₂ ∧ s₂.Closed 0
    ∧ (s₁.ledger.trustScore 1, s₁.ledger.trustScore 2) = (some 50, some 50)
    ∧ (s₂.ledger.trustScore 1, s₂.ledger.trustScore 2) = (some 53, some 53)
    ∧ s₁.missing 0 f₀.booking 1 = true := by
  obtain ⟨s₀, run, ends⟩ := sample_any (o := closingMachine.exec sampleRewarded sampleDeferred)
    (p := fun s => ((s.file 0).any fun f => f.booking.status == .awaitingConfirmation
      && (closingMachine.exec s [sampleConfirm, sampleDecline]).any fun s₁ => decide (s₁.Closed 0
        ∧ (s₁.ledger.trustScore 1, s₁.ledger.trustScore 2) = (some 50, some 50)
        ∧ s₁.missing 0 f.booking 1 = true)) = true
      ∧ ((closingMachine.exec s [sampleDecline, sampleConfirm]).any fun s₂ => decide (s₂.Closed 0
        ∧ (s₂.ledger.trustScore 1, s₂.ledger.trustScore 2) = (some 53, some 53))) = true)
    (by decide)
  obtain ⟨first, second⟩ := ends
  obtain ⟨f₀, found₀, first⟩ := (Option.any_eq_true _ _).mp first
  obtain ⟨awaiting, first⟩ := Bool.and_eq_true_iff.mp first
  obtain ⟨s₁, run₁, first⟩ := (Option.any_eq_true _ _).mp first
  obtain ⟨s₂, run₂, second⟩ := (Option.any_eq_true _ _).mp second
  obtain ⟨closed₁, scores₁, missing⟩ := of_decide_eq_true first
  obtain ⟨closed₂, scores₂⟩ := of_decide_eq_true second
  exact ⟨s₀, s₁, s₂, f₀, .of_exec sampleRewarded_initial run, found₀, beq_iff_eq.mp awaiting, run₁, closed₁, run₂,
    closed₂, scores₁, scores₂, missing⟩

end ServiceHub
