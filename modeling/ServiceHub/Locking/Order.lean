import Mathlib.Data.Prod.Lex
import Mathlib.Order.Defs.LinearOrder
import ServiceHub.Lib.Locks
import ServiceHub.Locking.Transactions

/-! # The order of the lock classes

One order of the classes fits every transaction but two. `acceptDirectBooking` takes the
provider's account lock before the booking's lifecycle lock, which the report transactions take
the other way round, and a decided report takes the trust lock of the user it charges before
the pair lock of the reward. Apart from their counterparts these two cannot deadlock either.
-/

namespace ServiceHub

open Locks (Climbs)

/-- The place of a lock's class in the order. Stages 9 and 25 are between classes. -/
@[simp] def Lock.stage : Lock → Nat
  | .contentCaseDecision _ => 0
  | .contentCase _ => 1
  | .trustCase _ => 2
  | .verification _ => 3
  | .review _ => 4
  | .announcement _ => 5
  | .request _ => 6
  | .bookingLifecycle _ => 7
  | .account _ => 8
  | .authSession _ => 10
  | .aiReviewSummaryCommit => 11
  | .providerListings _ => 12
  | .seekerRequests _ => 13
  | .listingPhotos _ => 14
  | .directBooking _ _ => 15
  | .providerStart _ => 16
  | .directResponse _ => 17
  | .paymentAttempt _ => 18
  | .payment _ _ => 19
  | .offerSelection _ => 20
  | .offerBooking _ => 21
  | .providerQueue _ => 22
  | .trustPair _ _ => 23
  | .trust _ => 24
  | .category _ => 26
  | .categoryConcept _ => 27

/-- The place within the class, where one transaction takes several locks of it. -/
@[simp] def Lock.key : Lock → Nat
  | .account userId => userId
  | .trust userId => userId
  | .categoryConcept concept => concept
  | _ => 0

abbrev LockRank := Lex (Nat × Nat)

def rankAt (stage key : Nat) : LockRank := toLex (stage, key)

@[simp] theorem rankAt_lt {stage key stage' key' : Nat} :
    rankAt stage key < rankAt stage' key' ↔ stage < stage' ∨ stage = stage' ∧ key < key' :=
  Prod.Lex.toLex_lt_toLex

theorem rankAt_le {stage key stage' key' : Nat} :
    rankAt stage key ≤ rankAt stage' key' ↔ stage < stage' ∨ stage = stage' ∧ key ≤ key' :=
  Prod.Lex.toLex_le_toLex

@[simp] def Lock.rank (l : Lock) : LockRank := rankAt l.stage l.key

namespace DbTransaction

/-- The booking whose lock is asked for under the provider's account lock. -/
@[simp] def accepted : DbTransaction → Option BookingId
  | acceptDirectBooking _ _ targetBooking => targetBooking
  | _ => none

/-- The booking under whose lock account locks are asked for. -/
@[simp] def accountsUnder : DbTransaction → Option BookingId
  | createSafetyReport bookingId _ _ => some bookingId
  | claimAdminReport bookingId _ penalty => if penalty = .none then none else some bookingId
  | finalizeAdminReport bookingId _ _ _ penalty _ _ _ =>
    if penalty = .none then none else some bookingId
  | _ => none

/-- The participants of the settled booking that the transaction rewards. -/
@[simp] def rewards : DbTransaction → List UserId
  | settleCompletedBooking _ providerId seekerId _ (.settled _) => [providerId, seekerId]
  | finalizeAdminReport _ providerId seekerId _ _ _ _ (.settled _) => [providerId, seekerId]
  | finalizeCompletionEscalation _ providerId seekerId (.settled _) => [providerId, seekerId]
  | _ => []

/-- The participant a decided report turns to after it has charged the other one. -/
@[simp] def counterpart : DbTransaction → Option UserId
  | finalizeAdminReport _ providerId seekerId providerReported .trustDeduct true _ (.settled _) =>
    some (if providerReported then seekerId else providerId)
  | _ => none

/-- `t` asks for locks in the order opposite to that of `u`: it accepts a booking whose
participants `u` locks under the booking's lock, or it has charged one participant and goes on
to reward another whom `u` rewards too. -/
def Opposes (t u : DbTransaction) : Prop :=
  (∃ bookingId ∈ t.accepted, u.accountsUnder = some bookingId) ∨
    ∃ userId ∈ t.counterpart, userId ∈ u.rewards

def Apart (t u : DbTransaction) : Prop := ¬ t.Opposes u ∧ ¬ u.Opposes t

instance (t u : DbTransaction) : Decidable (t.Opposes u) :=
  inferInstanceAs (Decidable (_ ∨ _))

instance : DecidableRel Apart := fun _ _ => inferInstanceAs (Decidable (_ ∧ _))

/-- The rank of a lock in the hands of the transaction. A booking's lock counts as taken after
the accounts unless account locks are still to come. -/
@[simp] def heldRank (t : DbTransaction) : Lock → LockRank
  | .bookingLifecycle bookingId =>
    if t.accountsUnder = some bookingId then rankAt 7 0 else rankAt 9 0
  | .trustPair first second =>
    if first ∈ t.rewards ∧ second ∈ t.rewards then rankAt 23 0 else rankAt 25 0
  | .trust userId => if userId ∈ t.rewards then rankAt 24 userId else rankAt 25 0
  | l => l.rank

/-- The rank at which the transaction asks for a lock. -/
@[simp] def wantedRank (t : DbTransaction) : Lock → LockRank
  | .bookingLifecycle bookingId =>
    if t.accepted = some bookingId then rankAt 9 0 else rankAt 7 0
  | .trustPair first second =>
    if t.counterpart = some first ∨ t.counterpart = some second then rankAt 25 0
    else rankAt 23 0
  | .trust userId => if t.counterpart = some userId then rankAt 25 0 else rankAt 24 userId
  | l => l.rank

/-- Apart transactions agree: none asks for a lock above the rank at which another holds it. -/
theorem wanted_le_held (t u : DbTransaction) (l : Lock) (apart : t.Apart u) :
    t.wantedRank l ≤ u.heldRank l := by
  have notOpposed := apart.1
  simp only [Opposes, not_or, not_exists, not_and] at notOpposed
  obtain ⟨booking, reward⟩ := notOpposed
  cases l with
  | bookingLifecycle bookingId =>
      simp only [wantedRank, heldRank]
      by_cases accepts : t.accepted = some bookingId
      · rw [if_pos accepts, if_neg (booking bookingId accepts)]
      · rw [if_neg accepts]
        split <;> simp [rankAt_le]
  | trustPair first second =>
      simp only [wantedRank, heldRank]
      by_cases charged : t.counterpart = some first ∨ t.counterpart = some second
      · rw [if_pos charged, if_neg]
        rintro ⟨rewardsFirst, rewardsSecond⟩
        rcases charged with is | is
        · exact reward first is rewardsFirst
        · exact reward second is rewardsSecond
      · rw [if_neg charged]
        split <;> simp [rankAt_le]
  | trust userId =>
      simp only [wantedRank, heldRank]
      by_cases charged : t.counterpart = some userId
      · rw [if_pos charged, if_neg (reward userId charged)]
      · rw [if_neg charged]
        split <;> simp [rankAt_le]
  | _ => exact le_refl _

end DbTransaction

/-! ## Every plan climbs -/

attribute [simp] DbTransaction.locks

@[simp] theorem lockAccountLifecycle_one (userId : UserId) :
    lockAccountLifecycle [userId] = [.account userId] := rfl

/-- Two accounts are locked in the order of their identifiers, one account once. -/
theorem lockAccountLifecycle_two (a b : UserId) :
    (a < b ∧ lockAccountLifecycle [a, b] = [.account a, .account b]) ∨
      (b < a ∧ lockAccountLifecycle [a, b] = [.account b, .account a]) ∨
      (a = b ∧ lockAccountLifecycle [a, b] = [.account a]) := by
  rcases lt_trichotomy a b with lt | same | gt
  · left
    have ne : a ≠ b := Nat.ne_of_lt lt
    simp [lockAccountLifecycle, lt, ne, Nat.le_of_lt lt]
  · right; right
    subst same
    simp [lockAccountLifecycle]
  · right; left
    have ne : a ≠ b := Nat.ne_of_gt gt
    simp [lockAccountLifecycle, gt, ne, Nat.not_le_of_lt gt]

namespace DbTransaction

/-- The two account locks as one step of a plan. -/
theorem climbs_accounts {t : DbTransaction} {taken todo : List Lock} {a b : UserId}
    (below : ∀ h ∈ taken, t.heldRank h < rankAt 8 0)
    (rest : Climbs t.heldRank t.wantedRank (.account b :: .account a :: taken) todo) :
    Climbs t.heldRank t.wantedRank taken (lockAccountLifecycle [a, b] ++ todo) := by
  have under : ∀ (userId : UserId), ∀ h ∈ taken, t.heldRank h < t.wantedRank (.account userId) := by
    intro userId h taken
    refine (below h taken).trans_le ?_
    simp [rankAt_le]
  rcases lockAccountLifecycle_two a b with ⟨lt, eq⟩ | ⟨gt, eq⟩ | ⟨same, eq⟩
  · rw [eq]
    refine ⟨.inr (under a), .inr ?_, rest⟩
    simpa [lt] using under b
  · rw [eq]
    refine ⟨.inr (under b), .inr ?_, (Locks.climbs_congr ?_).1 rest⟩
    · simpa [gt] using under a
    · intro l
      simp only [List.mem_cons]
      tauto
  · rw [eq]
    refine ⟨.inr (under a), (Locks.climbs_congr ?_).1 rest⟩
    intro l
    simp [same]

theorem climbs_accounts_last {t : DbTransaction} {taken : List Lock} {a b : UserId}
    (below : ∀ h ∈ taken, t.heldRank h < rankAt 8 0) :
    Climbs t.heldRank t.wantedRank taken (lockAccountLifecycle [a, b]) := by
  rw [← List.append_nil (lockAccountLifecycle [a, b])]
  exact climbs_accounts below Locks.climbs_nil

theorem sortedPair_cases (a b : UserId) :
    (a ≤ b ∧ sortedPair a b = (a, b)) ∨ (b < a ∧ sortedPair a b = (b, a)) := by
  rcases Nat.lt_or_ge b a with gt | le
  · exact .inr ⟨gt, if_neg (Nat.not_le_of_lt gt)⟩
  · exact .inl ⟨le, if_pos le⟩

/-- The trust locks of a rewarded pair, under its pair lock. -/
theorem climbs_rewards {t : DbTransaction} {taken : List Lock} {first second : UserId}
    {rewarded : List UserId} (le : first ≤ second)
    (belowFirst : .trust first ∈ taken ∨
      ∀ h ∈ taken, t.heldRank h < t.wantedRank (.trust first))
    (belowSecond : .trust second ∈ taken ∨
      ∀ h ∈ taken, t.heldRank h < t.wantedRank (.trust second))
    (rising : first < second → t.heldRank (.trust first) < t.wantedRank (.trust second)) :
    Climbs t.heldRank t.wantedRank taken
      (([first, second].filter (· ∈ rewarded)).flatMap applyTrustEventLocks) := by
  have both : .trust second ∈ .trust first :: taken ∨
      ∀ h ∈ Lock.trust first :: taken, t.heldRank h < t.wantedRank (.trust second) := by
    rcases Nat.lt_or_eq_of_le le with lt | rfl
    · rcases belowSecond with own | below
      · exact .inl (List.mem_cons_of_mem _ own)
      · right
        intro h held
        rcases List.mem_cons.1 held with rfl | old
        · exact rising lt
        · exact below h old
    · exact .inl List.mem_cons_self
  by_cases inFirst : first ∈ rewarded <;> by_cases inSecond : second ∈ rewarded
  · have kept : ([first, second].filter (· ∈ rewarded)) = [first, second] := by
      simp [inFirst, inSecond]
    rw [kept]
    exact ⟨belowFirst, both, trivial⟩
  · have kept : ([first, second].filter (· ∈ rewarded)) = [first] := by simp [inFirst, inSecond]
    rw [kept]
    exact ⟨belowFirst, trivial⟩
  · have kept : ([first, second].filter (· ∈ rewarded)) = [second] := by simp [inFirst, inSecond]
    rw [kept]
    exact ⟨belowSecond, trivial⟩
  · simp [inFirst, inSecond]

/-- The locks of a reward, after a charge of one participant or without one. -/
theorem climbs_award {t : DbTransaction} {taken : List Lock} {providerId seekerId : UserId}
    {rewarded : List UserId} (rewards : t.rewards = [providerId, seekerId])
    (belowPair : ∀ h ∈ taken, t.heldRank h < t.wantedRank (.trustPair providerId seekerId) ∧
      t.heldRank h < t.wantedRank (.trustPair seekerId providerId))
    (belowTrust : ∀ userId ∈ t.rewards, .trust userId ∈ taken ∨
      ∀ h ∈ taken, t.heldRank h < t.wantedRank (.trust userId)) :
    Climbs t.heldRank t.wantedRank taken (awardLocks providerId seekerId (.settled rewarded)) := by
  have sorted : ∀ {first second : UserId}, first ≤ second → first ∈ t.rewards →
      second ∈ t.rewards → (∀ h ∈ taken, t.heldRank h < t.wantedRank (.trustPair first second)) →
      Climbs t.heldRank t.wantedRank taken (.trustPair first second ::
        ([first, second].filter (· ∈ rewarded)).flatMap applyTrustEventLocks) := by
    intro first second le inFirst inSecond below
    have abovePair : ∀ userId, t.heldRank (.trustPair first second) <
        t.wantedRank (.trust userId) := by
      intro userId
      simp only [heldRank, wantedRank, inFirst, inSecond, and_self, if_true]
      split <;> simp
    have later : ∀ userId ∈ t.rewards, .trust userId ∈ Lock.trustPair first second :: taken ∨
        ∀ h ∈ Lock.trustPair first second :: taken,
          t.heldRank h < t.wantedRank (.trust userId) := by
      intro userId rewarded
      rcases belowTrust userId rewarded with own | below
      · exact .inl (List.mem_cons_of_mem _ own)
      · right
        intro h held
        rcases List.mem_cons.1 held with rfl | old
        · exact abovePair userId
        · exact below h old
    refine ⟨.inr below, climbs_rewards le (later first inFirst) (later second inSecond) ?_⟩
    intro lt
    simp only [heldRank, wantedRank, inFirst, if_true]
    split <;> simp [lt]
  have provider : providerId ∈ t.rewards := rewards ▸ List.mem_cons_self
  have seeker : seekerId ∈ t.rewards := rewards ▸ List.mem_cons_of_mem _ List.mem_cons_self
  rcases sortedPair_cases providerId seekerId with ⟨le, eq⟩ | ⟨lt, eq⟩
  · simp only [awardLocks, eq]
    exact sorted le provider seeker fun h held => (belowPair h held).1
  · simp only [awardLocks, eq]
    exact sorted (Nat.le_of_lt lt) seeker provider fun h held => (belowPair h held).2

/-- A reward without a charge before it. -/
theorem climbs_plain_award {t : DbTransaction} {taken : List Lock} {providerId seekerId : UserId}
    {rewarded : List UserId} (rewards : t.rewards = [providerId, seekerId])
    (charged : t.counterpart = none) (below : ∀ h ∈ taken, t.heldRank h < rankAt 23 0) :
    Climbs t.heldRank t.wantedRank taken (awardLocks providerId seekerId (.settled rewarded)) := by
  apply climbs_award rewards
  · intro h held
    have pair : ∀ a b, t.wantedRank (.trustPair a b) = rankAt 23 0 := by
      intro a b
      simp only [wantedRank, charged, reduceCtorEq, or_self, if_false]
    rw [pair, pair]
    exact ⟨below h held, below h held⟩
  · intro userId _
    right
    intro h held
    simp only [wantedRank, charged, reduceCtorEq, if_false]
    exact (below h held).trans (by simp)

/-- The payment transactions, which lock the request first and then both accounts. -/
theorem climbs_initiateOnlinePayment (request : Option RequestId) (seekerId providerId : UserId)
    (target : PaymentKey) : Climbs (initiateOnlinePayment request seekerId providerId target).heldRank
      (initiateOnlinePayment request seekerId providerId target).wantedRank []
      (initiateOnlinePayment request seekerId providerId target).locks := by
  cases request <;> cases target <;> simp <;> exact climbs_accounts (by simp) (by simp)

theorem climbs_finalizeSuccessfulPayment (request : Option RequestId) (seekerId providerId : UserId)
    (attemptId : AttemptId) (target : PaymentKey) :
    Climbs (finalizeSuccessfulPayment request seekerId providerId attemptId target).heldRank
      (finalizeSuccessfulPayment request seekerId providerId attemptId target).wantedRank []
      (finalizeSuccessfulPayment request seekerId providerId attemptId target).locks := by
  cases request <;> simp <;> exact climbs_accounts (by simp) (by simp)

/-- A decided report without a reward afterwards. -/
theorem climbs_report_skipped (bookingId : BookingId) (providerId seekerId : UserId)
    (providerReported : Bool) (penalty : ReportPenalty) (allowed recorded : Bool) :
    Climbs (finalizeAdminReport bookingId providerId seekerId providerReported penalty allowed recorded
        .skipped).heldRank
      (finalizeAdminReport bookingId providerId seekerId providerReported penalty allowed recorded
        .skipped).wantedRank []
      (finalizeAdminReport bookingId providerId seekerId providerReported penalty allowed recorded
        .skipped).locks := by
  cases penalty <;> cases allowed <;> cases recorded <;>
    simp [awardLocks, checkReportPenaltyLocks, penaltyLocks]

/-- A decided report that charges one participant before the reward. -/
theorem climbs_report_charged (bookingId : BookingId) (providerId seekerId : UserId)
    (providerReported recorded : Bool) (rewarded : List UserId) :
    Climbs (finalizeAdminReport bookingId providerId seekerId providerReported .trustDeduct true recorded
        (.settled rewarded)).heldRank
      (finalizeAdminReport bookingId providerId seekerId providerReported .trustDeduct true recorded
        (.settled rewarded)).wantedRank []
      (finalizeAdminReport bookingId providerId seekerId providerReported .trustDeduct true recorded
        (.settled rewarded)).locks := by
  cases providerReported <;> cases recorded <;>
    simp [checkReportPenaltyLocks, penaltyLocks]
  all_goals
    refine ⟨⟨by split <;> simp, by split <;> simp⟩, climbs_award rfl ?_ ?_⟩
    · simp
    · simp

theorem climbs_report_rewarded (bookingId : BookingId) (providerId seekerId : UserId)
    (providerReported : Bool) (penalty : ReportPenalty) (allowed recorded : Bool) (rewarded : List UserId)
    (deducts : ¬ (allowed = true ∧ penalty = .trustDeduct)) :
    Climbs (finalizeAdminReport bookingId providerId seekerId providerReported penalty allowed recorded
        (.settled rewarded)).heldRank
      (finalizeAdminReport bookingId providerId seekerId providerReported penalty allowed recorded
        (.settled rewarded)).wantedRank []
      (finalizeAdminReport bookingId providerId seekerId providerReported penalty allowed recorded
        (.settled rewarded)).locks := by
  have none : (finalizeAdminReport bookingId providerId seekerId providerReported penalty
      allowed recorded (.settled rewarded)).counterpart = none := by
    cases penalty <;> cases allowed <;> simp at deducts ⊢
  cases penalty <;> cases allowed <;> simp [checkReportPenaltyLocks] at deducts ⊢ <;>
    exact climbs_plain_award rfl none (by simp)

theorem climbs_settleCompletedBooking (bookingId : BookingId) (providerId seekerId : UserId)
    (queued : Bool) (award : Award) :
    Climbs (settleCompletedBooking bookingId providerId seekerId queued award).heldRank
      (settleCompletedBooking bookingId providerId seekerId queued award).wantedRank []
      (settleCompletedBooking bookingId providerId seekerId queued award).locks := by
  cases award with
  | skipped => simp [awardLocks]
  | settled rewarded =>
    simp only [locks, lockBookingLifecycle, List.cons_append, List.nil_append]
    cases queued <;> simp <;> exact climbs_plain_award rfl rfl (by simp)

theorem climbs_decideTrustCase (caseId : Nat) (review : Option Nat) (bookingId : Option BookingId)
    (userId : Option UserId) : Climbs (decideTrustCase caseId review bookingId userId).heldRank
      (decideTrustCase caseId review bookingId userId).wantedRank []
      (decideTrustCase caseId review bookingId userId).locks := by
  cases review <;> cases bookingId <;> cases userId <;> simp

theorem climbs_acceptDirectBooking (providerId : UserId) (directRequest : Option Nat)
    (targetBooking : Option BookingId) :
    Climbs (acceptDirectBooking providerId directRequest targetBooking).heldRank
      (acceptDirectBooking providerId directRequest targetBooking).wantedRank []
      (acceptDirectBooking providerId directRequest targetBooking).locks := by
  cases directRequest <;> cases targetBooking <;> simp [responseLock]

theorem climbs_submitContentCase (submitterId : UserId) (owner photos : Option UserId) :
    Climbs (submitContentCase submitterId owner photos).heldRank
      (submitContentCase submitterId owner photos).wantedRank []
      (submitContentCase submitterId owner photos).locks := by
  cases owner <;> cases photos <;> simp
  · exact climbs_accounts_last (by simp)
  · exact climbs_accounts (by simp) (by simp)

theorem climbs (t : DbTransaction) : Climbs t.heldRank t.wantedRank [] t.locks := by
  cases t with
  | initiateOnlinePayment => apply climbs_initiateOnlinePayment
  | markPaymentAttemptFailed request attemptId => cases request <;> simp
  | expireStalePaymentAttempt request attemptId => cases request <;> simp
  | finalizeSuccessfulPayment => apply climbs_finalizeSuccessfulPayment
  | createDirectRequest seekerId providerId serviceId =>
    simpa using climbs_accounts (by simp) (by simp)
  | ensureDefaultServiceCategories defaults =>
    apply Locks.climbs_of_pairwise
    simp only [locks, List.reverse_nil, List.nil_append, List.pairwise_map]
    exact List.pairwise_lt_range.imp fun lt => by simpa using lt
  | finalizeAdminReport bookingId providerId seekerId providerReported penalty allowed recorded award =>
    cases award with
    | skipped => apply climbs_report_skipped
    | settled rewarded =>
      by_cases deducts : allowed = true ∧ penalty = .trustDeduct
      · obtain ⟨rfl, rfl⟩ := deducts
        apply climbs_report_charged
      · exact climbs_report_rewarded _ _ _ _ _ _ _ _ deducts
  | settleCompletedBooking => apply climbs_settleCompletedBooking
  | finalizeCompletionEscalation bookingId providerId seekerId award =>
    cases award with
    | skipped => simp [awardLocks]
    | settled rewarded =>
      simp only [locks, lockBookingLifecycle, List.cons_append, List.nil_append]
      exact ⟨.inr (by simp), climbs_plain_award rfl rfl (by simp)⟩
  | acceptDirectBooking => apply climbs_acceptDirectBooking
  | declineDirectBooking directRequest targetBooking =>
    cases directRequest <;> cases targetBooking <;> simp [responseLock]
  | decideTrustCase => apply climbs_decideTrustCase
  | createDirectFromOffer requestId seekerId providerId offerId =>
    simpa using climbs_accounts (by simp) (by simp)
  | createSafetyReport bookingId seekerId providerId =>
    simpa using climbs_accounts_last (by simp)
  | claimAdminReport bookingId reportedUserId penalty =>
    cases penalty <;> simp [checkReportPenaltyLocks]
  | finalizeAdminCancellation bookingId faultUserId recorded =>
    cases faultUserId <;> cases recorded <;> simp [penaltyLocks]
  | submitOffer requestId providerId seekerId =>
    simpa using climbs_accounts (by simp) (by simp)
  | createListingInquiry seekerId providerId =>
    simpa using climbs_accounts (by simp) (by simp)
  | declineListingInquiry requestId providerId seekerId =>
    simpa using climbs_accounts_last (by simp)
  | saveListing userId owner isRequest =>
    simpa using climbs_accounts (by simp) (by simp)
  | submitContentCase => apply climbs_submitContentCase
  | decideListingCase caseId ownerId listed acts => cases ownerId <;> simp
  | decideRequestCase caseId requestId ownerId acts => cases ownerId <;> simp
  | decidePublicationCase caseId ownerId => cases ownerId <;> simp
  | updateManagedCategory categoryId concept => cases concept <;> simp
  | _ => simp

theorem rank_le_heldRank (t : DbTransaction) (l : Lock) : l.rank ≤ t.heldRank l := by
  cases l with
  | bookingLifecycle bookingId =>
      simp only [heldRank]
      split <;> simp [rankAt_le]
  | trustPair first second =>
      simp only [heldRank]
      split <;> simp [rankAt_le]
  | trust userId =>
      simp only [heldRank]
      split <;> simp [rankAt_le]
  | _ => exact le_refl _

theorem wantedRank_le_rank {t : DbTransaction} (accepted : t.accepted = none)
    (charged : t.counterpart = none) (l : Lock) : t.wantedRank l ≤ l.rank := by
  cases l <;> simp only [wantedRank, accepted, charged, reduceCtorEq, or_self, if_false] <;>
    exact le_refl _

end DbTransaction

/-! ## No deadlock -/

/-- The transactions of the services, each a step at a time, on PostgreSQL's advisory locks. -/
def lockMachine : Machine (Locks.Flights DbTransaction Lock) (Locks.Action DbTransaction) :=
  Locks.machine DbTransaction.locks

/-- A transaction starts only while none in flight takes the same locks the other way round. -/
abbrev KeptApart : Locks.Flights DbTransaction Lock → Locks.Action DbTransaction → Prop :=
  Locks.Admitted DbTransaction.Apart

/-- Every transaction but the acceptance of a booking and the report decision that charges one
participant and rewards the other takes its locks in the order of the classes; and kept apart
from what they oppose, no transactions in flight ever wait for each other in a cycle. -/
theorem locks_in_order {s : Locks.Flights DbTransaction Lock}
    (reachable : lockMachine.ReachableUnder KeptApart s) :
    (∀ t : DbTransaction, t.accepted = none → t.counterpart = none →
      Climbs Lock.rank Lock.rank [] t.locks) ∧ ¬ Locks.Deadlocked s := by
  constructor
  · intro t accepted charged
    exact t.climbs.mono t.rank_le_heldRank (t.wantedRank_le_rank accepted charged)
  · refine (Locks.sound_reachable DbTransaction.climbs reachable).not_deadlocked ?_ ?_
    · exact fun t u apart => ⟨apart.2, apart.1⟩
    · exact DbTransaction.wanted_le_held

/-- The seeker 2 reports the booking 7 of the provider 1. -/
def reporting : DbTransaction := .createSafetyReport 7 2 1

/-- The provider accepts the same booking. -/
def accepting : DbTransaction := .acceptDirectBooking 1 (some 0) (some 7)

/-- The same booking is settled and both participants are rewarded. -/
def settling : DbTransaction := .settleCompletedBooking 7 1 2 true (.settled [1, 2])

/-- The settlement waits for the booking that the report has locked. -/
def settlementWaits : Locks.Flights DbTransaction Lock :=
  [⟨reporting, [.account 1, .bookingLifecycle 7], [.account 2]⟩, ⟨settling, [], settling.locks⟩]

theorem settlementWaits_reachable : lockMachine.ReachableUnder KeptApart settlementWaits := by
  have run : lockMachine.execUnder (Locks.admits DbTransaction.Apart) []
      [.start reporting, .acquire 0, .start settling, .acquire 0] = some settlementWaits := by
    decide
  exact ⟨[], rfl, .of_execUnder (fun _ _ => Locks.admitted_of_admits) run⟩

theorem locks_in_order_settling :
    Climbs Lock.rank Lock.rank [] settling.locks ∧
      Locks.Waits settlementWaits 1 0 ∧ ¬ Locks.Deadlocked settlementWaits := by
  obtain ⟨climbing, live⟩ := locks_in_order settlementWaits_reachable
  refine ⟨climbing settling rfl rfl, ?_, live⟩
  exact ⟨_, .bookingLifecycle 7, rfl, rfl, ⟨_, rfl, by decide⟩, by decide⟩

/-- The acceptance has the provider's account, the report has the booking. -/
def standoff : Locks.Flights DbTransaction Lock :=
  [⟨accepting, [.account 1], [.bookingLifecycle 7, .directResponse (.directRequest 0), .account 1]⟩,
    ⟨reporting, [.bookingLifecycle 7], [.account 1, .account 2]⟩]

/-- No ranking of the locks fits both transactions, and they can wait for each other. -/
theorem acceptance_and_report_deadlock :
    (∀ (α : Type) [Preorder α] (r : Lock → α), ¬ ∀ t : DbTransaction, Climbs r r [] t.locks) ∧
      lockMachine.Reachable standoff ∧ Locks.Deadlocked standoff := by
  refine ⟨?_, ?_, 0, ?_⟩
  · intro α _ r climbs
    have accountFirst := (climbs accepting).2.1
    have bookingFirst := (climbs reporting).2.1
    simp only [List.mem_singleton, reduceCtorEq, false_or, forall_eq] at accountFirst bookingFirst
    exact lt_asymm accountFirst bookingFirst
  · have run : lockMachine.exec [] [.start accepting, .start reporting, .acquire 0, .acquire 1] =
        some standoff := by decide
    exact .of_exec rfl run
  · have acceptanceWaits : Locks.Waits standoff 0 1 :=
      ⟨_, .bookingLifecycle 7, rfl, rfl, ⟨_, rfl, by decide⟩, by decide⟩
    have reportWaits : Locks.Waits standoff 1 0 :=
      ⟨_, .account 1, rfl, rfl, ⟨_, rfl, by decide⟩, by decide⟩
    exact .tail (.single acceptanceWaits) reportWaits

/-- The decision of a report on the booking 7 charges the provider and rewards the seeker. -/
def charging : DbTransaction :=
  .finalizeAdminReport 7 1 2 true .trustDeduct true false (.settled [2])

/-- Another booking of the same participants is settled. -/
def settlingAnother : DbTransaction := .settleCompletedBooking 8 1 2 false (.settled [1, 2])

/-- The second pair of opposed transactions, on the pair lock and the provider's trust lock. -/
theorem charge_and_settlement_deadlock :
    ∃ s, lockMachine.Reachable s ∧ Locks.Deadlocked s := by
  have run : lockMachine.exec [] ([.start charging, .start settlingAnother] ++
      List.replicate 4 (.acquire 0) ++ List.replicate 2 (.acquire 1)) =
      some [⟨charging, [.trust 1, .trust 1, .account 1, .bookingLifecycle 7],
          [.trustPair 1 2, .trust 2]⟩,
        ⟨settlingAnother, [.trustPair 1 2, .bookingLifecycle 8], [.trust 1, .trust 2]⟩] := by
    decide
  refine ⟨_, .of_exec rfl run, 0, .tail (.single (b := 1) ?_) ?_⟩
  · exact ⟨_, .trustPair 1 2, rfl, rfl, ⟨_, rfl, by decide⟩, by decide⟩
  · exact ⟨_, .trust 1, rfl, rfl, ⟨_, rfl, by decide⟩, by decide⟩

end ServiceHub
