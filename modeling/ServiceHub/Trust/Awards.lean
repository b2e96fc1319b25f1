import Mathlib.Order.MinMax
import ServiceHub.Trust.Consistency

/-! # The completion reward of one booking

What an attempt does to the ledger, apart from the time that it stamps. After an attempt nothing is
outstanding for a participant, whatever else is recorded for the booking.
-/

namespace ServiceHub

open Guard

/-- The event that rewards a participant. -/
def rewardInput (b : BookingId) (provider u : UserId) : TrustEventInput where
  userId := u
  delta := 3
  bookingId := some b
  category := .completion
  reason := "Eligible booking completed and payment settled"
  eventKey := .bookingCompletion b (if u = provider then .provider else .seeker)

namespace TrustLedger

/-- The account is active, and no penalty on the booking stands. -/
def entitled (user : UserId → Option User) (b : BookingId) (u : UserId) (l : TrustLedger) : Bool :=
  (user u).any (fun u => u.isActive && u.moderationStatus == .active)
    && !l.standing.any (fun e => e.bookingId == some b && e.userId == u && e.category.isPenalty)

/-- A reward that the participant is entitled to has not been recorded. -/
def outstanding (user : UserId → Option User) (b : BookingId) (provider u : UserId) (l : TrustLedger) : Bool :=
  l.entitled user b u && (l.findKey (rewardInput b provider u).eventKey).isNone

end TrustLedger

/-- The attempt for one participant. -/
inductive Awarded (user : UserId → Option User) (now : Millis) (b : BookingId) (provider u : UserId)
    (l : TrustLedger) : TrustLedger → Prop where
  | settled (none_ : l.outstanding user b provider u = false) : Awarded user now b provider u l l
  | granted {before} (due : l.outstanding user b provider u = true) (score : l.trustScore u = some before) :
      Awarded user now b provider u l (l.record ((rewardInput b provider u).event now before))

/-- The attempt for both participants, in the order of their ids. -/
def PairAwarded (user : UserId → Option User) (now : Millis) (b : BookingId) (p q : UserId)
    (l l' : TrustLedger) : Prop :=
  ∃ l₁, Awarded user now b p (min p q) l l₁ ∧ Awarded user now b p (max p q) l₁ l'

/-- The event, whenever it was recorded. -/
def TrustScoreEvent.untimed (e : TrustScoreEvent) : TrustScoreEvent := { e with createdAt := 0 }

def TrustLedger.untimed (l : TrustLedger) : TrustLedger := { l with events := l.events.map (·.untimed) }

section Attempts

variable {ctx ctx' : TrustContext} {b : BookingId} {booking booking' : Booking} {l l' l₁ l₂ : TrustLedger}
  {user : UserId → Option User} {now now' : Millis} {provider p q u u' : UserId} {e : TrustScoreEvent}

theorem awardParticipant_awarded (h : awardParticipant ctx b booking l u = .ok l') :
    Awarded ctx.user ctx.now b booking.providerId u l l' := by
  simp only [awardParticipant, ite_ok, pure_ok] at h
  obtain ⟨inactive, rfl⟩ | ⟨active, ⟨penalised, rfl⟩ | ⟨unpenalised, h⟩⟩ := h
  · exact .settled (by simp [TrustLedger.outstanding, TrustLedger.entitled, inactive])
  · exact .settled (by simp [TrustLedger.outstanding, TrustLedger.entitled, penalised])
  obtain ⟨⟨after, applied⟩, run, done⟩ := bind_ok.mp h
  obtain rfl := pure_ok.mp done
  change applyTrustEventInTransaction ctx.now (rewardInput b booking.providerId u) l = _ at run
  have entitled : l.entitled ctx.user b u = true := by
    rw [not_not] at active
    rw [Bool.not_eq_true] at unpenalised
    rw [TrustLedger.entitled, active, unpenalised]
    rfl
  obtain ⟨before, score, run⟩ := orThrow_bind_ok.mp run
  split at run
  · rename_i existing found
    simp only [check_bind_ok, pure_ok, Prod.mk.injEq] at run
    obtain ⟨-, rfl, -⟩ := run
    exact .settled (by simp [TrustLedger.outstanding, found])
  · rename_i unused
    obtain ⟨written, create, run⟩ := bind_ok.mp run
    simp only [pure_ok, Prod.mk.injEq] at run
    obtain ⟨rfl, -⟩ := run
    obtain ⟨-, rfl⟩ := createEvent_ok create (findKey_none unused)
    exact .granted (by simp [TrustLedger.outstanding, entitled, unused]) score

/-! An event that reverses nothing leaves the other events standing. -/

theorem reversal_record (plain : e.reversesEventId = none) (i : Nat) : (l.record e).reversal i = l.reversal i := by
  simp [TrustLedger.reversal, TrustLedger.record, plain]

theorem standing_record_any {p : TrustScoreEvent → Bool} (plain : e.reversesEventId = none) (unseen : p e = false) :
    (l.record e).standing.any p = l.standing.any p := by
  have split : (l.record e).standing = l.standing
      ++ if (l.reversal l.events.length).isNone then [e] else [] := by
    simp only [TrustLedger.standing, reversal_record plain]
    simp only [TrustLedger.record, List.zipIdx_append, List.filter_append, List.map_append]
    congr 1
    cases found : l.reversal l.events.length <;> simp [found]
  rw [split, List.any_append]
  split_ifs <;> simp [unseen]

theorem entitled_record (plain : e.reversesEventId = none) (reward : e.category = .completion) :
    (l.record e).entitled user b u = l.entitled user b u := by
  simp only [TrustLedger.entitled]
  rw [standing_record_any plain (by simp [reward, TrustCategory.isPenalty])]

theorem Awarded.settles (h : Awarded user now b provider u l l') : l'.outstanding user b provider u = false := by
  cases h with
  | settled none_ => exact none_
  | granted due score =>
      simp [TrustLedger.outstanding, TrustLedger.findKey, TrustLedger.record, TrustEventInput.event]

/-- Nothing becomes outstanding by an attempt. -/
theorem Awarded.keeps (h : Awarded user now b provider u' l l') (none_ : l.outstanding user b provider u = false) :
    l'.outstanding user b provider u = false := by
  cases h with
  | settled => exact none_
  | @granted before due score =>
      have kept : (l.record ((rewardInput b provider u').event now before)).entitled user b u = l.entitled user b u :=
        entitled_record rfl rfl
      simp only [TrustLedger.outstanding, kept, Bool.and_eq_false_iff, Option.isNone_eq_false_iff] at none_ ⊢
      refine none_.imp_right fun found => ?_
      obtain ⟨e, found⟩ := Option.isSome_iff_exists.mp found
      simp only [TrustLedger.findKey] at found
      simp [TrustLedger.findKey, TrustLedger.record, List.find?_append, found]

theorem Awarded.again (h : Awarded user now b provider u l l') (none_ : l.outstanding user b provider u = false) :
    l' = l := by
  cases h with
  | settled => rfl
  | granted due => simp [none_] at due

theorem Awarded.functional (h : Awarded user now b provider u l l₁) (h' : Awarded user now b provider u l l₂) :
    l₁ = l₂ := by
  cases h with
  | settled none_ => exact (h'.again none_).symm
  | granted due score =>
      cases h' with
      | settled none_ => simp [due] at none_
      | granted _ score' =>
          obtain rfl := Option.some.inj (score.symm.trans score')
          rfl

/-! The participants are the provider and the seeker. -/

theorem participant_minmax (h : u = p ∨ u = q) : u = min p q ∨ u = max p q := by
  rcases Nat.le_total p q with le | le
  · rwa [Nat.min_eq_left le, Nat.max_eq_right le]
  · rwa [Nat.min_eq_right le, Nat.max_eq_left le, or_comm]

theorem PairAwarded.settles (h : PairAwarded user now b p q l l') (participant : u = p ∨ u = q) :
    l'.outstanding user b p u = false := by
  obtain ⟨l₁, first, second⟩ := h
  rcases participant_minmax participant with rfl | rfl
  · exact second.keeps first.settles
  · exact second.settles

theorem PairAwarded.again (h : PairAwarded user now b p q l l')
    (none_ : ∀ u, u = p ∨ u = q → l.outstanding user b p u = false) : l' = l := by
  obtain ⟨l₁, first, second⟩ := h
  obtain rfl := first.again (none_ _ (min_choice p q))
  exact second.again (none_ _ (max_choice p q))

theorem PairAwarded.of_settled (none_ : ∀ u, u = p ∨ u = q → l.outstanding user b p u = false) :
    PairAwarded user now b p q l l :=
  ⟨l, .settled (none_ _ (min_choice p q)), .settled (none_ _ (max_choice p q))⟩

end Attempts

/-! ### Ledgers apart from their times -/

section Untimed

variable {b : BookingId} {l l' l₁ l₂ : TrustLedger} {user : UserId → Option User} {now now' : Millis}
  {provider p q u : UserId}

theorem reversal_untimed (i : Nat) : l.untimed.reversal i = (l.reversal i).map (·.untimed) := by
  simp only [TrustLedger.reversal, TrustLedger.untimed, List.find?_map]
  rfl

theorem findKey_untimed (key : EventKey) : l.untimed.findKey key = (l.findKey key).map (·.untimed) := by
  simp only [TrustLedger.findKey, TrustLedger.untimed, List.find?_map]
  rfl

theorem standing_untimed : l.untimed.standing = l.standing.map (·.untimed) := by
  simp only [TrustLedger.standing, reversal_untimed, Option.isNone_map]
  simp only [TrustLedger.untimed, List.zipIdx_map, List.filter_map, List.map_map]
  rfl

theorem outstanding_untimed : l.untimed.outstanding user b provider u = l.outstanding user b provider u := by
  simp only [TrustLedger.outstanding, TrustLedger.entitled, standing_untimed, findKey_untimed, List.any_map,
    Option.isNone_map]
  rfl

/-- An attempt at another time differs in the recorded time only. -/
theorem Awarded.untimed (h : Awarded user now b provider u l l') :
    Awarded user 0 b provider u l.untimed l'.untimed := by
  cases h with
  | settled none_ => exact .settled (by rwa [outstanding_untimed])
  | @granted before due score =>
      have same : (l.record ((rewardInput b provider u).event now before)).untimed
          = l.untimed.record ((rewardInput b provider u).event 0 before) := by
        simp [TrustLedger.untimed, TrustLedger.record, TrustScoreEvent.untimed, TrustEventInput.event]
      rw [same]
      exact .granted (by rwa [outstanding_untimed]) score

theorem PairAwarded.untimed_eq (h : PairAwarded user now b p q l l₁) (h' : PairAwarded user now' b p q l l₂) :
    l₁.untimed = l₂.untimed := by
  obtain ⟨m₁, first, second⟩ := h
  obtain ⟨m₂, first', second'⟩ := h'
  have same : m₁.untimed = m₂.untimed := first.untimed.functional first'.untimed
  have second := second.untimed
  rw [same] at second
  exact second.functional second'.untimed

end Untimed

end ServiceHub
