import Mathlib.Data.List.Nodup
import ServiceHub.Listing.Events

/-! # The listing cap

A transaction under the account lock leaves the number of active listings within the plan that it
leaves. The deletion, which takes no lock, only lowers the number, also of a write still to come.
-/

namespace ServiceHub

open Guard

/-- The listing is active. -/
def ActiveAt (listings : List Listing) (i : ServiceId) : Prop :=
  ∃ row, listings[i]? = some row ∧ row.status = .active

section Counts

variable {l l' : List Listing} {i : Nat} {row a b : Listing}

theorem activeCount_split (found : l[i]? = some a) :
    activeCount l = (if a.status = .active then 1 else 0) + activeCount (l.eraseIdx i) := by
  have split : l.countP (fun x => x.status == .active) = _ := Threads.countP_split found
  simpa only [activeCount, beq_iff_eq] using split

theorem activeCount_eraseIdx_le : activeCount (l.eraseIdx i) ≤ activeCount l :=
  (List.eraseIdx_sublist l i).countP_le

theorem activeCount_set (bound : i < l.length) :
    activeCount (l.set i row) = (if row.status = .active then 1 else 0) + activeCount (l.eraseIdx i) := by
  have found : (l.set i row)[i]? = some row := by simp [bound]
  rw [activeCount_split found, List.eraseIdx_set_eq]

/-- A row is written. -/
theorem activeCount_set_le : activeCount (l.set i row) ≤ activeCount (l.eraseIdx i) + 1 := by
  rcases Nat.lt_or_ge i l.length with bound | beyond
  · rw [activeCount_set bound]
    split <;> omega
  · rw [List.set_eq_of_length_le beyond, List.eraseIdx_of_length_le beyond]
    omega

theorem activeCount_set_inactive (inactive : row.status ≠ .active) : activeCount (l.set i row) ≤ activeCount l := by
  rcases Nat.lt_or_ge i l.length with bound | beyond
  · rw [activeCount_set bound, if_neg inactive]
    have := activeCount_eraseIdx_le (l := l) (i := i)
    omega
  · rw [List.set_eq_of_length_le beyond]

theorem activeCount_set_active (found : l[i]? = some a) (active : a.status = .active) :
    activeCount (l.set i row) ≤ activeCount l := by
  have split := activeCount_split found
  have written : activeCount (l.set i row) ≤ _ := activeCount_set_le
  simp only [active, if_true] at split
  omega

/-- No more listings are active. -/
def Fewer (l l' : List Listing) : Prop :=
  l.length = l'.length ∧ ∀ i, ActiveAt l i → ActiveAt l' i

theorem Fewer.count (h : Fewer l l') : activeCount l ≤ activeCount l' := by
  induction l generalizing l' with
  | nil => simp [activeCount]
  | cons a l ih =>
      obtain ⟨length, fewer⟩ := h
      cases l' with
      | nil => cases length
      | cons b l' =>
          have rest : Fewer l l' := ⟨by simpa using length, fun i active => fewer (i + 1) active⟩
          have tail := ih rest
          have head : a.status = .active → b.status = .active := by
            intro active
            obtain ⟨row, found, still⟩ := fewer 0 ⟨a, rfl, active⟩
            obtain rfl : b = row := Option.some.inj found
            exact still
          simp only [activeCount, List.countP_cons, beq_iff_eq] at tail ⊢
          by_cases active : a.status = .active
          · simp only [active, head active, if_true]
            omega
          · simp only [active, if_false]
            omega

/-- A write after fewer listings are active leaves fewer. -/
theorem Fewer.apply {w : ListingWrite} (h : Fewer l l') : Fewer (w.apply l) (w.apply l') := by
  obtain ⟨length, fewer⟩ := h
  cases w with
  | nothing => exact ⟨length, fewer⟩
  | create row =>
      refine ⟨by simp [ListingWrite.apply, length], fun i => ?_⟩
      simp only [ListingWrite.apply, ActiveAt, List.getElem?_append, length]
      split
      · exact fewer i
      · exact id
  | set s row =>
      refine ⟨by simp [ListingWrite.apply, length], fun i => ?_⟩
      simp only [ListingWrite.apply, ActiveAt, List.getElem?_set, length]
      split
      · exact id
      · exact fewer i
  | pause order =>
      refine ⟨by simp [ListingWrite.apply, length], fun i => ?_⟩
      rintro ⟨row', written, active⟩
      simp only [ListingWrite.apply, List.getElem?_mapIdx, Option.map_eq_some_iff] at written
      obtain ⟨row, found, rfl⟩ := written
      split at active
      · cases active
      · rename_i unpaused
        obtain ⟨row', found', active'⟩ := fewer i ⟨row, found, active⟩
        exact ⟨row', by simp [ListingWrite.apply, found', unpaused], active'⟩

/-- The deletion of a listing. -/
theorem Fewer.delete (l : List Listing) (s : ServiceId) :
    Fewer (l.modify s ({ · with status := .deleted, isAvailable := false })) l := by
  refine ⟨by simp, fun i => ?_⟩
  rintro ⟨row', written, active⟩
  simp only [List.getElem?_modify, Option.map_eq_map, Option.map_eq_some_iff] at written
  obtain ⟨row, found, rfl⟩ := written
  split at active
  · cases active
  · exact ⟨row, found, active⟩

end Counts

section Oldest

variable {l u : List Listing} {i j : Nat}

theorem mem_oldestActive : i ∈ oldestActive l ↔ ActiveAt l i := by
  simp only [oldestActive, List.mem_map, List.mem_insertionSort, List.mem_filter, Prod.exists,
    List.mem_zipIdx_iff_getElem?, beq_iff_eq, ActiveAt]
  constructor
  · rintro ⟨row, n, ⟨found, active⟩, rfl⟩
    exact ⟨row, found, active⟩
  · rintro ⟨row, found, active⟩
    exact ⟨row, i, ⟨found, active⟩, rfl⟩

theorem oldestActive_perm : (oldestActive l).Perm
    ((l.zipIdx.filter fun (row, _) => row.status == .active).map (·.2)) :=
  (List.perm_insertionSort _ _).map _

theorem oldestActive_nodup : (oldestActive l).Nodup := by
  refine oldestActive_perm.nodup_iff.mpr (List.Nodup.sublist (List.filter_sublist.map _) ?_)
  rw [List.zipIdx_map_snd]
  exact List.nodup_range' _

theorem oldestActive_length : (oldestActive l).length = activeCount l := by
  have fst : l.zipIdx.map (·.1) = l := by simp
  rw [oldestActive_perm.length_eq, List.length_map, ← List.countP_eq_length_filter, activeCount]
  conv_rhs => rw [← fst]
  rw [List.countP_map]
  rfl

theorem Listing.older_total (a b : Listing) : a.older b = true ∨ b.older a = true := by
  unfold Listing.older
  cases a.publishedAt <;> cases b.publishedAt <;> grind

theorem Listing.older_trans {a b c : Listing} (h : a.older b = true) (h' : b.older c = true) :
    a.older c = true := by
  obtain ⟨_, _, _, published, _⟩ := a
  obtain ⟨_, _, _, published', _⟩ := b
  obtain ⟨_, _, _, published'', _⟩ := c
  cases published <;> cases published' <;> cases published'' <;> grind [Listing.older]

theorem oldestActive_sorted : (l.zipIdx.filter fun (row, _) => row.status == .active).insertionSort
    (fun a b => a.1.older b.1 = true) |>.Pairwise fun a b => a.1.older b.1 = true := by
  have total : Std.Total fun a b : Listing × Nat => a.1.older b.1 = true :=
    ⟨fun a b => Listing.older_total a.1 b.1⟩
  have trans : IsTrans (Listing × Nat) fun a b => a.1.older b.1 = true :=
    ⟨fun _ _ _ h h' => Listing.older_trans h h'⟩
  exact List.pairwise_insertionSort _ _

/-- The listings are the three oldest of the active ones, or all of them. -/
structure OldestThree (listings : List Listing) (kept : List ServiceId) : Prop where
  unique : kept.Nodup
  number : kept.length = min 3 (activeCount listings)
  active : ∀ i ∈ kept, ActiveAt listings i
  older : ∀ i ∈ kept, ∀ j, j ∉ kept → ∀ a b, listings[i]? = some a → listings[j]? = some b →
    b.status = .active → a.older b = true

theorem oldestActive_three : OldestThree l ((oldestActive l).take 3) where
  unique := oldestActive_nodup.sublist (List.take_sublist _ _)
  number := by rw [List.length_take, oldestActive_length]
  active i listed := mem_oldestActive.mp (List.mem_of_mem_take listed)
  older := by
    intro i listed j other a b found found' active
    have later : j ∈ (oldestActive l).drop 3 := by
      have among := mem_oldestActive.mpr ⟨b, found', active⟩
      rw [← List.take_append_drop 3 (oldestActive l)] at among
      rcases List.mem_append.mp among with early | late
      · exact absurd early other
      · exact late
    -- the rows stand in the sorted list with their numbers
    have sorted := oldestActive_sorted (l := l)
    have rows : ∀ p ∈ (l.zipIdx.filter fun (row, _) => row.status == .active).insertionSort
        (fun a b => a.1.older b.1 = true), l[p.2]? = some p.1 := by
      intro p among
      have member := (List.mem_filter.mp ((List.mem_insertionSort _).mp among)).1
      exact List.mem_zipIdx_iff_getElem?.mp member
    simp only [oldestActive, ← List.map_take, ← List.map_drop, List.mem_map] at listed later
    obtain ⟨p, early, rfl⟩ := listed
    obtain ⟨q, late, rfl⟩ := later
    have a_row := rows p (List.mem_of_mem_take early)
    have b_row := rows q (List.mem_of_mem_drop late)
    obtain rfl := Option.some.inj (found.symm.trans a_row)
    obtain rfl := Option.some.inj (found'.symm.trans b_row)
    rw [← List.take_append_drop 3 (List.insertionSort _ _), List.pairwise_append] at sorted
    exact sorted.2.2 p early q late

/-- After the pause at most three listings are active. -/
theorem activeCount_pause {order : List ServiceId} (all : ∀ i, ActiveAt l i → i ∈ order) :
    activeCount ((ListingWrite.pause order).apply l) ≤ 3 := by
  rw [← oldestActive_length]
  have kept : oldestActive ((ListingWrite.pause order).apply l) ⊆ order.take 3 := by
    intro i listed
    obtain ⟨row', written, active⟩ := mem_oldestActive.mp listed
    simp only [ListingWrite.apply, List.getElem?_mapIdx, Option.map_eq_some_iff] at written
    obtain ⟨row, found, rfl⟩ := written
    split at active
    · cases active
    · rename_i unpaused
      have among := all i ⟨row, found, active⟩
      rw [← List.take_append_drop 3 order] at among
      rcases List.mem_append.mp among with early | late
      · exact early
      · exact absurd late unpaused
  have shorter := (List.subperm_of_subset oldestActive_nodup kept).length_le
  have := List.length_take_le 3 order
  omega

end Oldest

/-- The active listings are within the plan, also after a write that is still to come. -/
structure ListingSystem.Capped (s : ListingSystem) : Prop where
  capped : s.provider.subscriptionPlan.allows (activeCount s.listings)
  exclusive : Threads.Exclusive ListingCall.locked s.calls
  fits : ∀ p w, ListingCall.write p w ∈ s.calls → p.subscriptionPlan.allows (activeCount (w.apply s.listings))

section Runs

variable {start : ListingSystem → Prop} {s s' : ListingSystem} {a : ListingAction} {plan : ProviderPlan}
  {m n : Nat}

theorem ProviderPlan.allows.fewer (h : plan.allows n) (fewer : m ≤ n) : plan.allows m := by
  intro limit limited
  exact Nat.le_trans fewer (h limit limited)

theorem ListingRead.fits {p : Provider} {w : ListingWrite} (h : ListingRead s (.write p w))
    (capped : s.provider.subscriptionPlan.allows (activeCount s.listings)) :
    p.subscriptionPlan.allows (activeCount (w.apply s.listings)) := by
  cases h with
  | @created user row plan room =>
      rw [plan]
      refine room.fewer ?_
      simp only [ListingWrite.apply, activeCount, List.countP_append]
      have := List.countP_le_length (p := fun x : Listing => x.status == .active) (l := [row])
      simp only [List.length_singleton] at this
      omega
  | kept => exact capped
  | pro plan =>
      intro limit limited
      simp [plan, ProviderPlan.activeListingLimit] at limited
  | basic plan =>
      intro limit limited
      simp only [plan, ProviderPlan.activeListingLimit, Option.some.injEq] at limited
      have paused := activeCount_pause (l := s.listings) fun i active => mem_oldestActive.mpr active
      omega
  | @set i old row found _ _ active =>
      refine capped.fewer ?_
      by_cases shown : row.status = .active
      · exact activeCount_set_active found (active shown)
      · exact activeCount_set_inactive shown

theorem goes_on {k : Nat} {c d : ListingCall} (h : c ∈ Threads.proceed s.calls k (some d)) :
    c ∈ s.calls ∨ c = d := by
  rcases Threads.mem_proceed h with old | goes
  · exact .inl old
  · exact .inr (Option.some.inj goes).symm

theorem ListingSystem.Capped.step (h : s.Capped) (event : ListingEvent s a s') : s'.Capped := by
  obtain ⟨capped, exclusive, fits⟩ := h
  cases event with
  | called =>
      refine ⟨capped, ?_, fun p w listed => ?_⟩
      · simpa [Threads.Exclusive, List.countP_append, ListingCall.locked] using exclusive
      · rcases List.mem_append.mp listed with old | new
        · exact fits p w old
        · cases List.mem_singleton.mp new
  | stopped =>
      exact ⟨capped, exclusive.returns,
        fun p w listed => fits p w (List.mem_of_mem_eraseIdx listed)⟩
  | @deletionChecked k i found =>
      have exclusive' : Threads.Exclusive ListingCall.locked (Threads.proceed s.calls k (some (.deleteCommit i))) := by
        apply exclusive.leave found
        simp [ListingCall.locked]
      refine ⟨capped, exclusive', fun p w listed => ?_⟩
      rcases goes_on listed with old | goes
      · exact fits p w old
      · cases goes
  | @entered k request call found free read =>
      have exclusive' : Threads.Exclusive ListingCall.locked (Threads.proceed s.calls k (some call)) :=
        exclusive.proceed found (.inr free)
      refine ⟨capped, exclusive', fun p w listed => ?_⟩
      rcases goes_on listed with old | rfl
      · exact fits p w old
      · exact read.fits capped
  | @counted k i row own restores user found plan room =>
      have exclusive' : Threads.Exclusive ListingCall.locked
          (Threads.proceed s.calls k (some (.write user (.set i row)))) := exclusive.proceed found (.inl rfl)
      refine ⟨capped, exclusive', fun p w listed => ?_⟩
      rcases goes_on listed with old | same
      · exact fits p w old
      · obtain ⟨rfl, rfl⟩ := ListingCall.write.inj same
        rw [plan]
        have written : activeCount (s.listings.set i row) ≤ activeCount (s.listings.eraseIdx i) + 1 :=
          activeCount_set_le
        have fewer := activeCount_eraseIdx_le (l := s.listings) (i := i)
        refine room.fewer (Nat.le_trans written ?_)
        split <;> omega
  | @written k p w found =>
      refine ⟨fits p w (List.mem_of_getElem? found), exclusive.returns, fun q v listed => ?_⟩
      -- no other transaction holds the lock
      have unlocked := exclusive.others found rfl _ listed
      cases unlocked
  | booked found =>
      exact ⟨capped, exclusive.returns, fun p w listed => fits p w (List.mem_of_mem_eraseIdx listed)⟩
  | @deleted k i found =>
      have fewer := Fewer.delete s.listings i
      refine ⟨capped.fewer fewer.count, exclusive.returns, fun p w listed => ?_⟩
      exact (fits p w (List.mem_of_mem_eraseIdx listed)).fewer fewer.apply.count
  | requested plan | membership plan => exact ⟨plan ▸ capped, exclusive, fits⟩
  | bookingStepped | waited => exact ⟨capped, exclusive, fits⟩

/-- A state without a call in flight whose active listings are within the plan. -/
def ListingSystem.WithinPlan (s : ListingSystem) : Prop :=
  s.provider.subscriptionPlan.allows (activeCount s.listings)

theorem listings_capped (h : (listingMachine ListingSystem.WithinPlan).Reachable s) : s.Capped := by
  refine h.invariant (I := ListingSystem.Capped) ?_ ?_
  · rintro s ⟨quiet, within⟩
    exact ⟨within, by simp [Threads.Exclusive, quiet], by simp [quiet]⟩
  · intro s a s' capped stepped
    exact capped.step (ListingSystem.step_event stepped)

/-- What is active later has been active with the same row. -/
def StillActive (before later : List Listing) : Prop :=
  ∀ (i : ServiceId) row, later[i]? = some row → row.status = .active → before[i]? = some row

/-- The purchase has read the active listings, and none of those that are active now has changed. -/
structure PauseRead (s : ListingSystem) (p : Provider) (order : List ServiceId) : Prop where
  plan : p.subscriptionPlan = .basic
  read : ∃ u, (listingMachine ListingSystem.WithinPlan).RunUnder (fun _ _ => True) u s
    ∧ order = oldestActive u.listings ∧ StillActive u.listings s.listings

theorem StillActive.refl (l : List Listing) : StillActive l l := fun _ _ found _ => found

theorem StillActive.trans {l l' l'' : List Listing} (h : StillActive l l') (h' : StillActive l' l'') :
    StillActive l l'' :=
  fun i row found active => h i row (h' i row found active) active

theorem StillActive.delete (l : List Listing) (i : ServiceId) :
    StillActive l (l.modify i ({ · with status := .deleted, isAvailable := false })) := by
  intro j row written active
  simp only [List.getElem?_modify, Option.map_eq_map, Option.map_eq_some_iff] at written
  obtain ⟨old, found, rfl⟩ := written
  split at active
  · cases active
  · rename_i other
    simpa [other] using found

theorem PauseRead.step {p : Provider} {order : List ServiceId} (h : PauseRead s p order)
    (stepped : (listingMachine ListingSystem.WithinPlan).next s a = some s') (still : StillActive s.listings s'.listings) :
    PauseRead s' p order := by
  obtain ⟨u, run, rfl, before⟩ := h.read
  exact ⟨h.plan, u, run.step trivial stepped, rfl, before.trans still⟩

theorem pauses_read (h : (listingMachine ListingSystem.WithinPlan).Reachable s) :
    ∀ p order, ListingCall.write p (.pause order) ∈ s.calls → PauseRead s p order := by
  refine h.invariant_with (J := ListingSystem.Capped)
    (I := fun s => ∀ p order, ListingCall.write p (.pause order) ∈ s.calls → PauseRead s p order)
    (fun _ => listings_capped) ?_ ?_
  · rintro s ⟨quiet, -⟩
    simp [quiet]
  · intro s a s' capped known _ stepped p order listed
    have exclusive := capped.exclusive
    cases ListingSystem.step_event stepped with
    | called =>
        rcases List.mem_append.mp listed with old | new
        · exact (known p order old).step stepped (.refl _)
        · cases List.mem_singleton.mp new
    | stopped | booked =>
        exact (known p order (List.mem_of_mem_eraseIdx listed)).step stepped (.refl _)
    | deletionChecked found =>
        rcases goes_on listed with old | goes
        · exact (known p order old).step stepped (.refl _)
        · cases goes
    | entered found free read =>
        rcases goes_on listed with old | rfl
        · exact (known p order old).step stepped (.refl _)
        · cases read with
          | basic plan => exact ⟨plan, s, .step .refl trivial stepped, rfl, .refl _⟩
    | counted found =>
        rcases goes_on listed with old | goes
        · exact (known p order old).step stepped (.refl _)
        · cases goes
    | written found => cases exclusive.others found rfl _ listed
    | deleted found =>
        exact (known p order (List.mem_of_mem_eraseIdx listed)).step stepped (.delete _ _)
    | requested | membership | bookingStepped | waited => exact (known p order listed).step stepped (.refl _)

/-- The step commits the purchase of Basic that has read these listings. -/
def CommitsBasic (s : ListingSystem) (a : ListingAction) (order : List ServiceId) : Prop :=
  ∃ k p, a = .resume k ∧ s.calls[k]? = some (.write p (.pause order))

/-- The purchase of Basic keeps the three oldest active listings that it has read, pauses the others
    and deletes none. -/
structure KeepsOldest (s s' : ListingSystem) (order : List ServiceId) : Prop where
  plan : s'.provider.subscriptionPlan = .basic
  read : ∃ u, (listingMachine ListingSystem.WithinPlan).RunUnder (fun _ _ => True) u s
    ∧ OldestThree u.listings (order.take 3) ∧ StillActive u.listings s.listings
  active : ∀ i, ActiveAt s'.listings i ↔ ActiveAt s.listings i ∧ i ∈ order.take 3
  rows : ∀ i : ServiceId, s'.listings[i]? = s.listings[i]?
    ∨ s'.listings[i]? = (s.listings[i]?).map fun row => { row with status := .inactive, isAvailable := false }

theorem KeepsOldest.of_commit {order : List ServiceId} (h : (listingMachine ListingSystem.WithinPlan).Reachable s)
    (commits : CommitsBasic s a order) (stepped : (listingMachine ListingSystem.WithinPlan).next s a = some s') :
    KeepsOldest s s' order := by
  obtain ⟨k, p, rfl, found⟩ := commits
  obtain ⟨plan, u, run, rfl, still⟩ := pauses_read h p order (List.mem_of_getElem? found)
  simp only [listingMachine, ListingSystem.step, found, Option.bind_some, ListingSystem.resume,
    Option.map_some, Option.some.injEq] at stepped
  subst stepped
  have row : ∀ i : ServiceId, ((ListingWrite.pause (oldestActive u.listings)).apply s.listings)[i]?
      = (s.listings[i]?).map fun row => if i ∈ pausedBy (oldestActive u.listings)
        then { row with status := .inactive, isAvailable := false } else row := by
    intro i
    simp only [ListingWrite.apply, List.getElem?_mapIdx]
  refine ⟨plan, ⟨u, run, oldestActive_three, still⟩, fun i => ?_, fun i => ?_⟩
  · simp only [ActiveAt, row, Option.map_eq_some_iff]
    constructor
    · rintro ⟨row', ⟨old, found', rfl⟩, active⟩
      split at active
      · cases active
      · rename_i unpaused
        refine ⟨⟨old, found', active⟩, ?_⟩
        have listed := mem_oldestActive.mpr ⟨old, still i old found' active, active⟩
        rw [← List.take_append_drop 3 (oldestActive u.listings)] at listed
        rcases List.mem_append.mp listed with early | late
        · exact early
        · exact absurd late unpaused
    · rintro ⟨⟨old, found', active⟩, early⟩
      refine ⟨_, ⟨old, found', rfl⟩, ?_⟩
      have unpaused : i ∉ pausedBy (oldestActive u.listings) := by
        intro late
        have unique := oldestActive_nodup (l := u.listings)
        rw [← List.take_append_drop 3 (oldestActive u.listings), List.nodup_append] at unique
        exact unique.2.2 i early i late rfl
      simp [unpaused, active]
  · simp only [row]
    by_cases paused : i ∈ pausedBy (oldestActive u.listings)
    · right
      simp [paused]
    · left
      simp [paused]

/-- No interleaving brings the active listings over the plan. -/
theorem listing_cap (h : (listingMachine ListingSystem.WithinPlan).Reachable s) :
    (s.provider.subscriptionPlan = .free → activeCount s.listings ≤ 1)
      ∧ (s.provider.subscriptionPlan = .basic → activeCount s.listings ≤ 3)
      ∧ ∀ a s' order, CommitsBasic s a order →
        (listingMachine ListingSystem.WithinPlan).next s a = some s' → KeepsOldest s s' order := by
  have capped := (listings_capped h).capped
  refine ⟨fun free => capped 1 ?_, fun basic => capped 3 ?_, fun a s' order commits => .of_commit h commits⟩
  · rw [free, ProviderPlan.activeListingLimit]
  · rw [basic, ProviderPlan.activeListingLimit]

/-- Five active listings of an expired Pro membership when Basic is bought. -/
def crowdedListings : ListingSystem where
  now := 100
  provider := {
    subscriptionPlan := .pro, subscriptionStatus := .expired, subscriptionStartedAt := some 0
    subscriptionExpiresAt := some 50, subscriptionUpdatedAt := 0, freePlanStartedAt := some 0 }
  listings := [9, 5, 7, 5, 1].zipIdx.map fun (t, n) => { cuid := n, publishedAt := some t }

def basicPurchase : ListingRequest :=
  .finalizeSubscription {
    plan := .basic, amount := 9900, checkoutExpiresAt := 0, billingAction := .downgrade
    quotedMembershipUpdatedAt := some 0 } 1

/-- The purchase of Basic is about to commit. -/
def crowdedPurchase : ListingSystem where
  __ := crowdedListings
  calls := [.write {
    subscriptionPlan := .basic, subscriptionStartedAt := some 100
    subscriptionExpiresAt := some (oneCalendarMonthFrom 100), subscriptionUpdatedAt := 100
    freePlanStartedAt := some 0 } (.pause [4, 1, 3, 2, 0])]

theorem crowdedPurchase_reachable : (listingMachine ListingSystem.WithinPlan).Reachable crowdedPurchase := by
  have within : crowdedListings.WithinPlan := fun limit limited => by cases limited
  have run : (listingMachine ListingSystem.WithinPlan).exec crowdedListings [.call basicPurchase, .resume 0]
      = some crowdedPurchase := rfl
  exact .of_exec ⟨rfl, within⟩ run

/-- The listings published at 9 and 7 are paused. -/
theorem crowdedPurchase_keeps : KeepsOldest crowdedPurchase
    { crowdedPurchase with
      provider := {
        subscriptionPlan := .basic, subscriptionStartedAt := some 100
        subscriptionExpiresAt := some (oneCalendarMonthFrom 100), subscriptionUpdatedAt := 100
        freePlanStartedAt := some 0 }
      listings := [9, 5, 7, 5, 1].zipIdx.map fun (t, n) =>
        if t < 6 then { cuid := n, publishedAt := some t }
        else { cuid := n, publishedAt := some t, status := .inactive, isAvailable := false }
      calls := [] } [4, 1, 3, 2, 0] :=
  (listing_cap crowdedPurchase_reachable).2.2 (.resume 0) _ _ ⟨0, _, rfl, rfl⟩ rfl

end Runs

end ServiceHub
