import Mathlib.Order.MinMax
import ServiceHub.Lib.Journal
import ServiceHub.Market.Settlement
import ServiceHub.Trust.Consistency

/-! # Rewards of a pair of members

The trust ledger next to the marketplace. The transactions that settle a booking or close a case
attempt the reward afterwards; here a reward may be attempted at any time. The ledger is a journal
that blocks a reward by an earlier one of the pair and by a penalty.
-/

namespace ServiceHub

open Guard

structure RewardSystem where
  market : MarketSystem
  ledger : TrustLedger

inductive RewardAction where
  | market (a : MarketAction)
  | trust (a : TrustAction) (otherAdmin : Bool)

namespace RewardSystem

def file (s : RewardSystem) (b : BookingId) : Option BookingFile :=
  (s.market.market.bookings[b]?).map (·.file)

/-- What a trust transaction reads in the marketplace. -/
def context (s : RewardSystem) (otherAdmin : Bool) : TrustContext where
  now := s.market.market.now
  user := s.market.market.user
  booking := s.file
  otherAdmin _ := otherAdmin

def step (s : RewardSystem) : RewardAction → Option RewardSystem
  | .market a => (s.market.step a).map ({ s with market := · })
  | .trust a otherAdmin => (s.ledger.run (s.context otherAdmin) a).toOption.map ({ s with ledger := · })

end RewardSystem

def rewardMachine : Machine RewardSystem RewardAction where
  initial s := marketMachine.initial s.market ∧ trustMachine.initial s.ledger
  next := RewardSystem.step

/-- The same two accounts, in either role. -/
def Booking.samePair (a b : Booking) : Prop :=
  (a.providerId = b.providerId ∧ a.seekerId = b.seekerId) ∨ (a.providerId = b.seekerId ∧ a.seekerId = b.providerId)

/-- The events concern two different bookings of a pair. -/
def PairedEvents (file : BookingId → Option BookingFile) (e e' : TrustScoreEvent) : Prop :=
  ∃ b b' f f', e.bookingId = some b ∧ e'.bookingId = some b' ∧ b ≠ b' ∧ file b = some f ∧ file b' = some f'
    ∧ f.booking.samePair f'.booking

structure RewardSystem.RewardsLimited (s : RewardSystem) : Prop where
  /-- Uncorrected rewards for different bookings of a pair are a window apart. -/
  window : ∀ (i j : Nat) (e e' : TrustScoreEvent), s.ledger.events[i]? = some e →
    s.ledger.events[j]? = some e' → e.category = .completion → e'.category = .completion →
    s.ledger.reversal i = none → s.ledger.reversal j = none → PairedEvents s.file e e' →
    e.createdAt + trustPairWindowMs ≤ e'.createdAt ∨ e'.createdAt + trustPairWindowMs ≤ e.createdAt
  /-- A participant is rewarded at most once for a booking. -/
  once : s.ledger.events.Pairwise fun e e' => ¬ (e.category = .completion ∧ e'.category = .completion
    ∧ e.bookingId = e'.bookingId ∧ e.userId = e'.userId)
  /-- A penalised participant is rewarded only after the penalty has been corrected. -/
  fault : ∀ (i j : Nat) (e e' : TrustScoreEvent), i < j → s.ledger.events[i]? = some e →
    s.ledger.events[j]? = some e' → e.category.isPenalty = true → e'.category = .completion →
    e.bookingId = e'.bookingId → e.userId = e'.userId →
    ∃ c ∈ s.ledger.events.take j, c.reversesEventId = some i

section Rules

variable {file file' : BookingId → Option BookingFile} {l l' l₁ : TrustLedger} {e e' : TrustScoreEvent}
  {ctx : TrustContext} {b : BookingId} {f : BookingFile} {u : UserId}

theorem Booking.samePair.symm {a b : Booking} (h : a.samePair b) : b.samePair a := by
  rcases h with ⟨provider, seeker⟩ | ⟨provider, seeker⟩
  · exact .inl ⟨provider.symm, seeker.symm⟩
  · exact .inr ⟨seeker.symm, provider.symm⟩

theorem PairedEvents.symm (h : PairedEvents file e e') : PairedEvents file e' e := by
  obtain ⟨b, b', f, f', of, of', other, found, found', pair⟩ := h
  exact ⟨b', b, f', f, of', of, other.symm, found', found, pair.symm⟩

/-- An earlier event that blocks a reward while it stands. -/
def BlocksReward (file : BookingId → Option BookingFile) (e e' : TrustScoreEvent) : Prop :=
  e'.category = .completion
    ∧ ((e.category = .completion ∧ PairedEvents file e e' ∧ e'.createdAt < e.createdAt + trustPairWindowMs)
      ∨ (e.category.isPenalty = true ∧ e.bookingId = e'.bookingId ∧ e.userId = e'.userId))

/-- The reward is that of a participant of its booking, under the participant's key. -/
def KeyedReward (file : BookingId → Option BookingFile) (e : TrustScoreEvent) : Prop :=
  ∃ b f, e.bookingId = some b ∧ file b = some f
    ∧ (e.userId = f.booking.providerId ∨ e.userId = f.booking.seekerId)
    ∧ e.eventKey = .bookingCompletion b (if e.userId = f.booking.providerId then .provider else .seeker)

abbrev GuardedRewards (file : BookingId → Option BookingFile) (events : List TrustScoreEvent) : Prop :=
  Journal.Guarded TrustScoreEvent.reversesEventId (BlocksReward file) events

structure RewardJournal (file : BookingId → Option BookingFile) (events : List TrustScoreEvent) : Prop where
  keyed : ∀ e ∈ events, e.category = .completion → KeyedReward file e
  guarded : GuardedRewards file events

theorem reversal_none {i : Nat} :
    l.reversal i = none ↔ ¬ Journal.Cancelled TrustScoreEvent.reversesEventId l.events i := by
  simp [TrustLedger.reversal, Journal.Cancelled]

theorem mem_standing : e ∈ l.standing ↔ ∃ i : Nat, l.events[i]? = some e ∧ l.reversal i = none := by
  simp only [TrustLedger.standing, List.mem_map, List.mem_filter, Prod.exists, List.mem_zipIdx_iff_getElem?,
    Option.isNone_iff_eq_none]
  constructor
  · rintro ⟨x, i, ⟨found, stands⟩, rfl⟩
    exact ⟨i, found, stands⟩
  · rintro ⟨i, found, stands⟩
    exact ⟨e, i, ⟨found, stands⟩, rfl⟩

/-- An event that is no reward. -/
theorem RewardJournal.append_other (h : RewardJournal file l.events) (other : e.category ≠ .completion) :
    RewardJournal file (l.events ++ [e]) := by
  refine ⟨fun x listed reward => ?_, h.guarded.append fun i x found blocked => absurd blocked.1 other⟩
  rcases List.mem_append.mp listed with old | new
  · exact h.keyed x old reward
  · obtain rfl := List.mem_singleton.mp new
    exact absurd reward other

theorem Applies.rewardJournal (h : RewardJournal file l.events) (applies : Applies ctx.now l l') :
    RewardJournal file l'.events := by
  cases applies with
  | nothing => exact h
  | @event input applied _ _ category run =>
      obtain rfl | ⟨before, -, -, rfl⟩ := applyTrustEventInTransaction_ok run
      · exact h
      · exact h.append_other category

/-- The participants of a booking never change. -/
structure ParticipantsKept (file file' : BookingId → Option BookingFile) : Prop where
  kept : ∀ b f, file b = some f → ∃ f', file' b = some f' ∧ f'.booking.providerId = f.booking.providerId
    ∧ f'.booking.seekerId = f.booking.seekerId

theorem RewardJournal.later {events : List TrustScoreEvent} (h : RewardJournal file events)
    (kept : ParticipantsKept file file') : RewardJournal file' events := by
  constructor
  · intro e listed reward
    obtain ⟨b, f, of, found, participant, key⟩ := h.keyed e listed reward
    obtain ⟨f', found', provider, seeker⟩ := kept.kept b f found
    refine ⟨b, f', of, found', ?_, ?_⟩
    · rwa [provider, seeker]
    · rwa [provider]
  · refine h.guarded.weaken fun e listed e' listed' blocked => ?_
    obtain ⟨reward, ⟨reward', paired, early⟩ | penalty⟩ := blocked
    · refine ⟨reward, .inl ⟨reward', ?_, early⟩⟩
      obtain ⟨b, b', f, f', of, of', other, found, found', pair⟩ := paired
      obtain ⟨b₁, g, of₁, before, -⟩ := h.keyed e listed reward'
      obtain ⟨b₁', g', of₁', before', -⟩ := h.keyed e' listed' reward
      obtain rfl : b₁ = b := Option.some.inj (of₁.symm.trans of)
      obtain rfl : b₁' = b' := Option.some.inj (of₁'.symm.trans of')
      obtain ⟨x, now, provider, seeker⟩ := kept.kept b₁ g before
      obtain rfl := Option.some.inj (now.symm.trans found)
      obtain ⟨x', now', provider', seeker'⟩ := kept.kept b₁' g' before'
      obtain rfl := Option.some.inj (now'.symm.trans found')
      refine ⟨b₁, b₁', g, g', of, of', other, before, before', ?_⟩
      simpa only [Booking.samePair, provider, seeker, provider', seeker'] using pair
    · exact ⟨reward, .inr penalty⟩

end Rules

section Awards

variable {l l' l₁ : TrustLedger} {e e' : TrustScoreEvent} {ctx : TrustContext} {b : BookingId}
  {f : BookingFile} {u : UserId}

/-- No reward of another booking of the pair stands within the window. -/
def WindowOpen (ctx : TrustContext) (b : BookingId) (f : BookingFile) (l : TrustLedger) : Prop :=
  ∀ (i : Nat) (e : TrustScoreEvent) (b' : BookingId) (f' : BookingFile), l.events[i]? = some e →
    e.category = .completion → e.bookingId = some b' → b' ≠ b → ctx.booking b' = some f' →
    f'.booking.samePair f.booking → ctx.now < e.createdAt + trustPairWindowMs →
    Journal.Cancelled TrustScoreEvent.reversesEventId l.events i

theorem WindowOpen.of_unrewarded (h : RewardJournal ctx.booking l.events)
    (unrewarded : l.recentlyRewarded ctx b f.booking = false) : WindowOpen ctx b f l := by
  intro i e b' f' found reward of other booking pair early
  by_contra stands
  have standing : e ∈ l.standing := mem_standing.mpr ⟨i, found, reversal_none.mpr stands⟩
  have unblocked := List.any_eq_false.mp unrewarded e standing
  obtain ⟨b₁, g, of₁, before, participant, -⟩ := h.keyed e (List.mem_of_getElem? found) reward
  obtain rfl : b₁ = b' := Option.some.inj (of₁.symm.trans of)
  obtain rfl := Option.some.inj (before.symm.trans booking)
  apply unblocked
  simp only [reward, of, Option.any_some, Option.bind_some, before, early, Bool.and_eq_true, bne_iff_ne,
    Bool.or_eq_true, beq_iff_eq, decide_true, ne_eq, other, not_false_eq_true, and_true, true_and]
  rcases pair with ⟨provider, seeker⟩ | ⟨provider, seeker⟩
  · exact ⟨by rwa [provider, seeker] at participant, .inl ⟨provider, seeker⟩⟩
  · exact ⟨by rwa [provider, seeker, or_comm] at participant, .inr ⟨provider, seeker⟩⟩

theorem Rewarded.journal (h : RewardJournal ctx.booking l.events) (found : ctx.booking b = some f)
    (opened : WindowOpen ctx b f l) (participant : u = f.booking.providerId ∨ u = f.booking.seekerId)
    (rewarded : Rewarded ctx b f.booking u l l') :
    RewardJournal ctx.booking l'.events ∧ WindowOpen ctx b f l' := by
  obtain ⟨applied, run⟩ := rewarded.run
  obtain rfl | ⟨before, -, -, rfl⟩ := applyTrustEventInTransaction_ok run
  · exact ⟨h, opened⟩
  refine ⟨⟨fun x listed reward => ?_, h.guarded.append fun i x listed blocked => ?_⟩, ?_⟩
  · rcases List.mem_append.mp listed with old | new
    · exact h.keyed x old reward
    · obtain rfl := List.mem_singleton.mp new
      exact ⟨b, f, rfl, found, participant, rfl⟩
  · obtain ⟨-, ⟨reward, ⟨b₁, b₂, g, g', of, of', other, has, has', pair⟩, early⟩ | ⟨penalty, of, user⟩⟩ := blocked
    · obtain rfl : b = b₂ := Option.some.inj of'
      obtain rfl := Option.some.inj (found.symm.trans has')
      exact opened i x b₁ g listed reward of other has pair early
    · by_contra stands
      have standing : x ∈ l.standing := mem_standing.mpr ⟨i, listed, reversal_none.mpr stands⟩
      have unblocked := List.any_eq_false.mp rewarded.unpenalised x standing
      apply unblocked
      simp only [of, user, penalty, Bool.and_true, Bool.and_eq_true, beq_iff_eq]
      exact ⟨rfl, rfl⟩
  · -- the new event is of the booking itself
    intro i x b' g listed reward of other has pair early
    simp only [TrustLedger.record, List.getElem?_append] at listed
    split at listed
    · exact (opened i x b' g listed reward of other has pair early).mono (List.subset_append_left _ _)
    · obtain rfl := List.mem_singleton.mp (List.mem_of_getElem? listed)
      exact absurd (Option.some.inj of).symm other

theorem awardParticipant_journal (h : RewardJournal ctx.booking l.events) (found : ctx.booking b = some f)
    (opened : WindowOpen ctx b f l) (participant : u = f.booking.providerId ∨ u = f.booking.seekerId)
    (award : awardParticipant ctx b f.booking l u = .ok l') :
    RewardJournal ctx.booking l'.events ∧ WindowOpen ctx b f l' := by
  obtain rfl | rewarded := awardParticipant_ok award
  · exact ⟨h, opened⟩
  · exact rewarded.journal h found opened participant

theorem awardBookingCompletionTrust_journal (h : RewardJournal ctx.booking l.events)
    (award : awardBookingCompletionTrust ctx b l = .ok l') : RewardJournal ctx.booking l'.events := by
  obtain rfl | ⟨f, l₁, found, -, unrewarded, first, second⟩ := awardBookingCompletionTrust_ok award
  · exact h
  have opened := WindowOpen.of_unrewarded h unrewarded
  obtain ⟨h₁, opened₁⟩ := awardParticipant_journal h found opened (min_choice _ _) first
  exact (awardParticipant_journal h₁ found opened₁ (max_choice _ _) second).1

theorem run_journal {a : TrustAction} (h : RewardJournal ctx.booking l.events) (filed : ∀ c ∈ l.cases, l.Filed c)
    (consistent : l.Consistent) (run : l.run ctx a = .ok l') : RewardJournal ctx.booking l'.events := by
  cases a with
  | createAccount =>
      obtain ⟨-, -, rfl⟩ := createAccount_ok run
      exact h.append_other (by simp [baselineEvent])
  | approveVerification => exact (approveVerificationTrust_applies run).rewardJournal h
  | applyTrustEvent => exact (applyTrustEvent_applies run).rewardJournal h
  | awardCompletion => exact awardBookingCompletionTrust_journal h run
  | penalizeReport => exact (applyBookingTrustPenalty_applies (by simp) run).rewardJournal h
  | penalizeCancellation => exact (applyBookingTrustPenalty_applies (by simp) run).rewardJournal h
  | adjust => exact (applyManualTrustAdjustment_applies run).rewardJournal h
  | submitCase =>
      obtain ⟨c, -, rfl⟩ := submitTrustCase_filed consistent run
      exact h
  | decideCase =>
      obtain ⟨after, applies, rfl⟩ := decideTrustCase_applies filed run
      have kept : RewardJournal ctx.booking after.events := applies.rewardJournal h
      exact kept

end Awards

section Runs

variable {s s' : RewardSystem}

theorem BookingRow.participants {m : MarketSystem} {t : Market} {b : Nat} {x x' : BookingSystem}
    (h : BookingRow m t b x') (found : m.market.bookings[b]? = some x) :
    x'.file.booking.providerId = x.file.booking.providerId
      ∧ x'.file.booking.seekerId = x.file.booking.seekerId := by
  have bound := (List.getElem?_eq_some_iff.mp found).1
  cases h with
  | kept found' run =>
      obtain rfl := Option.some.inj (found'.symm.trans found)
      exact ⟨run.column (·.file.booking.providerId) fun _ _ _ _ => rfl,
        run.column (·.file.booking.seekerId) fun _ _ _ _ => rfl⟩
  | stepped step run =>
      obtain rfl := Option.some.inj (step.found.symm.trans found)
      have provider := step.sameTerms.column Booking.providerId fun _ => rfl
      have seeker := step.sameTerms.column Booking.seekerId fun _ => rfl
      rw [← provider, ← seeker]
      exact ⟨run.column (·.file.booking.providerId) fun _ _ _ _ => rfl,
        run.column (·.file.booking.seekerId) fun _ _ _ _ => rfl⟩
  | cash last | paid last =>
      rw [last] at bound
      exact absurd bound (Nat.lt_irrefl _)

theorem market_participants {m m' : MarketSystem} {a : MarketAction} (h : m.step a = some m') :
    ParticipantsKept (fun b => (m.market.bookings[b]?).map (·.file))
      (fun b => (m'.market.bookings[b]?).map (·.file)) := by
  obtain ⟨next, event, -⟩ := MarketSystem.step_event h
  refine ⟨fun b f found => ?_⟩
  obtain ⟨x, before, rfl⟩ := Option.map_eq_some_iff.mp found
  have bound := (List.getElem?_eq_some_iff.mp before).1
  have longer := event.bookings_le
  obtain ⟨x', after⟩ : ∃ x', m'.market.bookings[b]? = some x' :=
    ⟨_, List.getElem?_eq_getElem (by omega)⟩
  obtain ⟨provider, seeker⟩ := (event.booking_row after).participants before
  exact ⟨x'.file, by simp [after], provider, seeker⟩

theorem rewards_journal (h : rewardMachine.Reachable s) :
    trustMachine.Reachable s.ledger ∧ RewardJournal s.file s.ledger.events := by
  refine h.invariant (I := fun s => trustMachine.Reachable s.ledger ∧ RewardJournal s.file s.ledger.events)
    ?_ ?_
  · rintro s ⟨-, start⟩
    refine ⟨.start start, ?_⟩
    rw [start.2.1]
    exact ⟨by simp, Journal.Guarded.nil⟩
  · rintro s a s' ⟨reached, journal⟩ stepped
    cases a with
    | market a =>
        obtain ⟨m', next, rfl⟩ := Option.map_eq_some_iff.mp stepped
        exact ⟨reached, journal.later (market_participants next)⟩
    | trust a otherAdmin =>
        obtain ⟨l', run, rfl⟩ := Option.map_eq_some_iff.mp stepped
        obtain ⟨consistent, filed⟩ := ledger_consistent_filed reached
        have next : trustMachine.next s.ledger (s.context otherAdmin, a) = some l' := run
        have journal : RewardJournal (s.context otherAdmin).booking s.ledger.events := journal
        exact ⟨reached.next trivial next, run_journal journal filed consistent (toOption_some.mp run)⟩

/-- Uncorrected rewards for two bookings of a pair are seven days apart, a participant is rewarded once
    for a booking, and not while a penalty on it stands. -/
theorem completion_rewards_limited (h : rewardMachine.Reachable s) : s.RewardsLimited := by
  obtain ⟨reached, journal⟩ := rewards_journal h
  have consistent := (ledger_consistent_filed reached).1
  constructor
  · intro i j e e' found found' reward reward' stands stands' paired
    have apart : ∀ {i j : Nat} {e e' : TrustScoreEvent}, i < j → s.ledger.events[i]? = some e →
        s.ledger.events[j]? = some e' → e.category = .completion → e'.category = .completion →
        s.ledger.reversal i = none → PairedEvents s.file e e' →
        e.createdAt + trustPairWindowMs ≤ e'.createdAt := by
      intro i j e e' before found found' reward reward' stands paired
      by_contra early
      apply journal.guarded.standing (reversal_none.mp stands) before found found'
      exact ⟨reward', .inl ⟨reward, paired, Nat.lt_of_not_le early⟩⟩
    rcases Nat.lt_trichotomy i j with before | rfl | after
    · exact .inl (apart before found found' reward reward' stands paired)
    · obtain rfl := Option.some.inj (found.symm.trans found')
      obtain ⟨b, b', -, -, of, of', other, -⟩ := paired
      exact absurd (Option.some.inj (of.symm.trans of')) other
    · exact .inr (apart after found' found reward' reward stands' paired.symm)
  · refine consistent.keys.imp_of_mem fun listed listed' distinct => ?_
    rintro ⟨reward, reward', booking, user⟩
    obtain ⟨b, f, of, found, -, key⟩ := journal.keyed _ listed reward
    obtain ⟨b', f', of', found', -, key'⟩ := journal.keyed _ listed' reward'
    obtain rfl : b = b' := Option.some.inj (of.symm.trans (booking.trans of'))
    obtain rfl := Option.some.inj (found.symm.trans found')
    rw [key, key', user] at distinct
    exact distinct rfl
  · intro i j e e' before found found' penalty reward booking user
    exact journal.guarded i j e e' before found found' ⟨reward, .inr ⟨penalty, booking, user⟩⟩

end Runs

def sampleRewarded : RewardSystem where
  market := sampleMarket
  ledger := { trustScore := fun _ => none }

/-- A second job of the pair, paid in cash. -/
def sampleCashJob : List MarketAction :=
  [.createDirectRequest 1 2 1 1, .booking 1 (.request (.respondToDirectBooking 2 true)) 0,
    .booking 1 (.request (.providerStartJob 2)) 0, .booking 1 (.request (.markJobComplete 2)) 0,
    .booking 1 (.request (.confirmCompletion 1)) 0]

/-- The second job is rewarded only after the window. -/
def sampleTwoJobs : List RewardAction :=
  [RewardAction.trust (.createAccount 1) true, .trust (.createAccount 2) true]
    ++ sampleSettlement.map RewardAction.market ++ [RewardAction.trust (.awardCompletion 0) true]
    ++ sampleCashJob.map RewardAction.market
    ++ [RewardAction.trust (.awardCompletion 1) true, .market (.wait trustPairWindowMs), .trust (.awardCompletion 1) true]

theorem completion_rewards_limited_again : ∃ s, rewardMachine.exec sampleRewarded sampleTwoJobs = some s
    ∧ s.ledger.events.map (fun e => (e.userId, e.delta, e.bookingId, e.createdAt))
      = [(1, 50, none, 1000), (2, 50, none, 1000), (1, 3, some 0, 1000), (2, 3, some 0, 1000),
        (1, 3, some 1, 604801000), (2, 3, some 1, 604801000)]
    ∧ s.RewardsLimited := by
  obtain ⟨s, run, events⟩ := sample_any (o := rewardMachine.exec sampleRewarded sampleTwoJobs)
    (p := fun s => s.ledger.events.map (fun e => (e.userId, e.delta, e.bookingId, e.createdAt))
      = [(1, 50, none, 1000), (2, 50, none, 1000), (1, 3, some 0, 1000), (2, 3, some 0, 1000),
        (1, 3, some 1, 604801000), (2, 3, some 1, 604801000)]) (by decide)
  have start : rewardMachine.initial sampleRewarded := ⟨sampleMarket_initial, fun _ => rfl, rfl, rfl⟩
  exact ⟨s, run, events, completion_rewards_limited (.of_exec start run)⟩

end ServiceHub
