import Mathlib.Data.List.Nodup
import ServiceHub.Lib.Machine
import ServiceHub.Lib.Rows

/-! # Captcha risk of password logins

`createCaptchaProtection` counts the failed logins of a client in memory. The map of failures is
bounded, an entry whose window is over is swept only when a client without a live entry fails, and
the clock is read again at every comparison.
-/

namespace ServiceHub

/-- An entry of `failures`. -/
structure LoginFailure (κ : Type) where
  key : κ
  count : Nat
  expiresAt : Nat
  deriving Repr, DecidableEq

def captchaWindowMs : Nat := 15 * 60000

/-- The readings of the clock in one `recordFailure`: the first comparison, one for each entry of the sweep, the last. -/
structure ClockReadings where
  first : Nat
  sweep : List Nat
  last : Nat
  deriving Repr, DecidableEq

def ClockReadings.all (clock : ClockReadings) : List Nat := clock.first :: clock.sweep ++ [clock.last]

/-- What `createCaptchaProtection` closes over, with the latest reading of the clock. -/
structure CaptchaProtection (κ : Type) where
  failures : List (LoginFailure κ) := []
  capacityChallengeUntil : Nat := 0
  now : Nat
  deriving Repr, DecidableEq

/-- The response of the password login is finished. -/
structure LoginFinished where
  ip : Option String
  statusCode : Nat
  clock : ClockReadings
  deriving Repr, DecidableEq

/-- An entry without a reading of its own does not occur. -/
def sweepExpired {κ : Type} : List Nat → List (LoginFailure κ) → List (LoginFailure κ)
  | now :: clock, entry :: failures =>
      if entry.expiresAt ≤ now then sweepExpired clock failures else entry :: sweepExpired clock failures
  | _, failures => failures

section Protection

variable {κ : Type} [DecidableEq κ]

/-- `failures.set`. -/
def setFailure (entry : LoginFailure κ) (failures : List (LoginFailure κ)) : List (LoginFailure κ) :=
  if failures.any (·.key == entry.key) then
    Rows.updateWhere (·.key == entry.key) (fun old => { entry with key := old.key }) failures
  else failures ++ [entry]

namespace CaptchaProtection

def failure (s : CaptchaProtection κ) (key : κ) : Option (LoginFailure κ) :=
  s.failures.find? (·.key == key)

def recordFailure (maxEntries : Nat) (key : κ) (clock : ClockReadings) (s : CaptchaProtection κ) : CaptchaProtection κ :=
  if (s.failure key).any (clock.first < ·.expiresAt) then
    { s with
      failures := Rows.updateWhere (·.key == key) (fun current => { current with count := min 3 (current.count + 1) }) s.failures
      now := clock.last }
  else
    -- Bound memory without evicting an active entry.
    let failures := sweepExpired clock.sweep s.failures
    if maxEntries ≤ failures.length then
      { s with failures, capacityChallengeUntil := clock.last + captchaWindowMs, now := clock.last }
    else
      { s with failures := setFailure ⟨key, 1, clock.last + captchaWindowMs⟩ failures, now := clock.last }

/-- `required`, with a reading for the capacity and a later one for the window. -/
def required (enabled : Bool) (key : κ) (capacityReading windowReading : Nat) (s : CaptchaProtection κ) : Bool :=
  enabled && (decide (capacityReading < s.capacityChallengeUntil)
    || (s.failure key).any fun failure => decide (windowReading < failure.expiresAt) && decide (3 ≤ failure.count))

end CaptchaProtection

/-- `keyFor`. -/
def keyFor (ipKeyGenerator : String → κ) (ip : Option String) : κ :=
  ipKeyGenerator (match ip with
    | none | some "" => "unknown"
    | some address => address)

/-- The `finish` listener of the login guard; it is registered only while the check is enabled. -/
def CaptchaProtection.finish (enabled : Bool) (maxEntries : Nat) (ipKeyGenerator : String → κ) (s : CaptchaProtection κ)
    (login : LoginFinished) : CaptchaProtection κ :=
  if !enabled then { s with now := login.clock.last }
  else if login.statusCode = 401 then s.recordFailure maxEntries (keyFor ipKeyGenerator login.ip) login.clock
  else if 200 ≤ login.statusCode ∧ login.statusCode < 300 then
    { s with
      failures := s.failures.filter (·.key != keyFor ipKeyGenerator login.ip)
      now := login.clock.last }
  else { s with now := login.clock.last }

/-- The clock never goes back, between two logins or within one. -/
def captchaMachine (enabled : Bool) (maxEntries : Nat) (ipKeyGenerator : String → κ) :
    Machine (CaptchaProtection κ) LoginFinished where
  initial s := s.failures = [] ∧ s.capacityChallengeUntil = 0
  next s login :=
    if (s.now :: login.clock.all).Pairwise (· ≤ ·) ∧ login.clock.sweep.length = s.failures.length then
      some (s.finish enabled maxEntries ipKeyGenerator login)
    else none

end Protection

/-! ## The sweep and the map -/

section Sweep

variable {κ : Type} {clock : List Nat} {failures : List (LoginFailure κ)} {entry : LoginFailure κ} {last : Nat}

theorem sweepExpired_sublist : (sweepExpired clock failures).Sublist failures := by
  fun_induction sweepExpired clock failures with
  | case1 now clock entry failures lapsed ih => exact ih.cons entry
  | case2 now clock entry failures live ih => exact ih.cons_cons entry
  | case3 => exact List.Sublist.refl _

/-- The sweep keeps the entry of a client whose window outlasts every reading. -/
theorem find_sweepExpired [DecidableEq κ] {key : κ} (bound : ∀ now ∈ clock, now ≤ last)
    (found : failures.find? (·.key == key) = some entry) (live : last < entry.expiresAt) :
    (sweepExpired clock failures).find? (·.key == key) = some entry := by
  fun_induction sweepExpired clock failures with
  | case1 now clock other failures lapsed ih =>
      have here : now ≤ last := bound now List.mem_cons_self
      rw [List.find?_cons] at found
      split at found
      · obtain rfl : other = entry := by simpa using found
        omega
      · exact ih (fun now' listed => bound now' (List.mem_cons_of_mem _ listed)) found
  | case2 now clock other failures kept ih =>
      rw [List.find?_cons] at found ⊢
      split at found
      · exact found
      · exact ih (fun now' listed => bound now' (List.mem_cons_of_mem _ listed)) found
  | case3 => exact found

/-- What the sweep leaves was live at its own reading. -/
theorem live_of_mem_sweepExpired {first : Nat} (one_each : clock.length = failures.length)
    (bound : ∀ now ∈ clock, first ≤ now) (left_ : entry ∈ sweepExpired clock failures) : first < entry.expiresAt := by
  fun_induction sweepExpired clock failures with
  | case1 now clock other failures lapsed ih =>
      exact ih (by simpa using one_each) (fun now' listed => bound now' (List.mem_cons_of_mem _ listed)) left_
  | case2 now clock other failures kept ih =>
      have here : first ≤ now := bound now List.mem_cons_self
      rcases List.mem_cons.mp left_ with rfl | rest
      · omega
      · exact ih (by simpa using one_each) (fun now' listed => bound now' (List.mem_cons_of_mem _ listed)) rest
  | case3 clock failures uneven =>
      cases clock with
      | nil =>
          have empty : failures = [] := List.eq_nil_of_length_eq_zero one_each.symm
          simp [empty] at left_
      | cons now clock =>
          cases failures with
          | nil => simp at one_each
          | cons other failures => exact absurd rfl (uneven now clock other failures rfl)

variable [DecidableEq κ]

theorem setFailure_keys (entry : LoginFailure κ) (failures : List (LoginFailure κ)) :
    (setFailure entry failures).map LoginFailure.key = failures.map LoginFailure.key
    ∨ (entry.key ∉ failures.map LoginFailure.key
      ∧ (setFailure entry failures).map LoginFailure.key = failures.map LoginFailure.key ++ [entry.key]) := by
  unfold setFailure
  split
  · left
    apply Rows.map_updateWhere
    intro old
    rfl
  · rename_i absent
    right
    refine ⟨fun listed => absent ?_, by simp⟩
    obtain ⟨old, mem, same⟩ := List.mem_map.mp listed
    exact List.any_eq_true.mpr ⟨old, mem, by simp [same]⟩

theorem length_setFailure (entry : LoginFailure κ) (failures : List (LoginFailure κ)) :
    (setFailure entry failures).length ≤ failures.length + 1 := by
  unfold setFailure
  split <;> simp

theorem find_setFailure_same (entry : LoginFailure κ) :
    (setFailure entry failures).find? (·.key == entry.key) = some entry := by
  unfold setFailure
  split
  · rename_i present
    rw [Rows.find_updateWhere (g := fun old => { entry with key := old.key }) LoginFailure.key (fun _ => rfl)]
    obtain ⟨old, listed, same⟩ := List.any_eq_true.mp present
    cases found : failures.find? (·.key == entry.key) with
    | none => exact absurd same (List.find?_eq_none.mp found old listed)
    | some first =>
        have keyed : first.key = entry.key := by simpa using List.find?_some found
        simp [keyed]
  · rename_i absent
    rw [List.find?_append, List.find?_eq_none.mpr]
    · simp
    · intro other listed same
      exact absent (List.any_eq_true.mpr ⟨other, listed, same⟩)

theorem find_setFailure_other {key : κ} (other : entry.key ≠ key) :
    (setFailure entry failures).find? (·.key == key) = failures.find? (·.key == key) := by
  unfold setFailure
  split
  · rw [Rows.find_updateWhere (g := fun old => { entry with key := old.key }) LoginFailure.key (fun _ => rfl)]
    cases found : failures.find? (·.key == key) with
    | none => rfl
    | some first =>
        have keyed : first.key = key := by simpa using List.find?_some found
        simp [keyed, Ne.symm other]
  · simp [List.find?_append, other]

end Sweep

/-! ## One login -/

section Runs

variable {κ : Type} [DecidableEq κ] {enabled : Bool} {maxEntries : Nat} {ipKeyGenerator : String → κ}
  {s s' t : CaptchaProtection κ} {login : LoginFinished} {key : κ} {expiry n : Nat}

/-- The login failed and its failure is counted for the client. -/
def LoginFinished.failedFor (enabled : Bool) (ipKeyGenerator : String → κ) (key : κ) (login : LoginFinished) : Bool :=
  enabled && login.statusCode == 401 && keyFor ipKeyGenerator login.ip == key

/-- The login of the client succeeded. -/
def LoginFinished.succeededFor (ipKeyGenerator : String → κ) (key : κ) (login : LoginFinished) : Bool :=
  decide (200 ≤ login.statusCode) && decide (login.statusCode < 300) && keyFor ipKeyGenerator login.ip == key

/-- What the readings of one login satisfy. -/
structure ClockReadings.After (now : Nat) (clock : ClockReadings) : Prop where
  le_last : now ≤ clock.last
  first_le : clock.first ≤ clock.last
  first_le_sweep : ∀ reading ∈ clock.sweep, clock.first ≤ reading
  sweep_le : ∀ reading ∈ clock.sweep, reading ≤ clock.last

theorem ClockReadings.after_of_pairwise {now : Nat} {clock : ClockReadings}
    (ordered : (now :: clock.all).Pairwise (· ≤ ·)) : clock.After now := by
  simp only [ClockReadings.all, List.cons_append, List.pairwise_cons, List.mem_cons, List.mem_append,
    List.pairwise_append] at ordered
  obtain ⟨start, next, -, -, sweep⟩ := ordered
  constructor
  · exact start _ (by simp)
  · exact next _ (by simp)
  · exact fun reading listed => next reading (by simp [listed])
  · exact fun reading listed => sweep reading listed _ (by simp)

theorem captcha_next (step : (captchaMachine enabled maxEntries ipKeyGenerator).next s login = some s') :
    login.clock.After s.now ∧ login.clock.sweep.length = s.failures.length
    ∧ s' = s.finish enabled maxEntries ipKeyGenerator login := by
  simp only [captchaMachine, Option.ite_none_right_eq_some, Option.some.injEq] at step
  obtain ⟨⟨ordered, one_each⟩, rfl⟩ := step
  exact ⟨ClockReadings.after_of_pairwise ordered, one_each, rfl⟩

theorem CaptchaProtection.finish_now : (s.finish enabled maxEntries ipKeyGenerator login).now = login.clock.last := by
  unfold CaptchaProtection.finish CaptchaProtection.recordFailure
  dsimp only
  split <;> [rfl; split <;> [(split <;> [rfl; split <;> rfl]); split <;> rfl]]

/-- The map stays within its bound, and the challenge for everybody ends within one window. -/
structure CaptchaProtection.Bounded (maxEntries : Nat) (s : CaptchaProtection κ) : Prop where
  size : s.failures.length ≤ maxEntries
  distinct : (s.failures.map LoginFailure.key).Nodup
  challenge : s.capacityChallengeUntil ≤ s.now + captchaWindowMs

theorem CaptchaProtection.Bounded.recordFailure (bounded : s.Bounded maxEntries) {clock : ClockReadings}
    (after : clock.After s.now) : (s.recordFailure maxEntries key clock).Bounded maxEntries := by
  have later := after.le_last
  have challenge := bounded.challenge
  have swept : (sweepExpired clock.sweep s.failures).Sublist s.failures := sweepExpired_sublist
  have kept := (swept.map LoginFailure.key).nodup bounded.distinct
  unfold CaptchaProtection.recordFailure
  dsimp only
  split
  · refine ⟨by simpa using bounded.size, ?_, by dsimp only; omega⟩
    dsimp only
    rw [Rows.map_updateWhere]
    · exact bounded.distinct
    · intro current
      rfl
  · split
    · exact ⟨Nat.le_trans swept.length_le bounded.size, kept, Nat.le_refl _⟩
    · refine ⟨?_, ?_, by dsimp only; omega⟩
      · have grown := length_setFailure ⟨key, 1, clock.last + captchaWindowMs⟩ (sweepExpired clock.sweep s.failures)
        dsimp only
        omega
      · dsimp only
        rcases setFailure_keys ⟨key, 1, clock.last + captchaWindowMs⟩ (sweepExpired clock.sweep s.failures) with same | ⟨absent, added⟩
        · rw [same]
          exact kept
        · rw [added]
          exact List.nodup_append.mpr ⟨kept, by simp, fun old listed new last => by
            intro same
            simp only [List.mem_singleton] at last
            exact absent (last ▸ same ▸ listed)⟩

theorem CaptchaProtection.Bounded.next (bounded : s.Bounded maxEntries)
    (step : (captchaMachine enabled maxEntries ipKeyGenerator).next s login = some s') : s'.Bounded maxEntries := by
  obtain ⟨after, -, rfl⟩ := captcha_next step
  have later := after.le_last
  have challenge := bounded.challenge
  have idle : ({ s with now := login.clock.last } : CaptchaProtection κ).Bounded maxEntries :=
    ⟨bounded.size, bounded.distinct, by dsimp only; omega⟩
  unfold CaptchaProtection.finish
  split
  · exact idle
  · split
    · exact bounded.recordFailure after
    · split
      · have kept : (s.failures.filter (·.key != keyFor ipKeyGenerator login.ip)).Sublist s.failures := List.filter_sublist
        exact ⟨Nat.le_trans kept.length_le bounded.size, (kept.map LoginFailure.key).nodup bounded.distinct,
          idle.challenge⟩
      · exact idle

theorem captcha_bounded (reached : (captchaMachine enabled maxEntries ipKeyGenerator).Reachable s) :
    s.Bounded maxEntries := by
  refine reached.invariant (fun s start => ?_) fun s login s' bounded step => bounded.next step
  obtain ⟨empty, none_⟩ := start
  exact ⟨by simp [empty], by simp [empty], by simp [none_]⟩

/-- A challenge for everybody is never shortened. -/
theorem CaptchaProtection.Bounded.challenge_le (bounded : s.Bounded maxEntries)
    (step : (captchaMachine enabled maxEntries ipKeyGenerator).next s login = some s') :
    s.capacityChallengeUntil ≤ s'.capacityChallengeUntil := by
  obtain ⟨after, -, rfl⟩ := captcha_next step
  have later := after.le_last
  have challenge := bounded.challenge
  unfold CaptchaProtection.finish CaptchaProtection.recordFailure
  dsimp only
  split
  · exact Nat.le_refl _
  · split
    · split
      · exact Nat.le_refl _
      · split <;> dsimp only <;> omega
    · split <;> exact Nat.le_refl _

theorem captcha_challenge_run (bounded : s.Bounded maxEntries) {logins : List LoginFinished}
    (run : (captchaMachine enabled maxEntries ipKeyGenerator).exec s logins = some t) :
    s.capacityChallengeUntil ≤ t.capacityChallengeUntil := by
  have both : s.capacityChallengeUntil ≤ t.capacityChallengeUntil ∧ t.Bounded maxEntries :=
    (Machine.RunUnder.of_exec run).invariant (I := fun u => s.capacityChallengeUntil ≤ u.capacityChallengeUntil ∧ u.Bounded maxEntries)
      (fun u login u' known _ step => ⟨Nat.le_trans known.1 (known.2.challenge_le step), known.2.next step⟩)
      ⟨Nat.le_refl _, bounded⟩
  exact both.1

/-! ## The window of a client -/

/-- `n` failures of the client are counted in the window that ends at `expiry`, unless it is over. -/
def CaptchaProtection.Counted (key : κ) (expiry n : Nat) (s : CaptchaProtection κ) : Prop :=
  expiry ≤ s.now ∨ ∃ entry, s.failure key = some entry ∧ entry.expiresAt = expiry ∧ min 3 n ≤ entry.count

/-- The failures of other clients leave a live window alone, also when the map is full. -/
theorem CaptchaProtection.recordFailure_other {other : κ} {clock : ClockReadings} {entry : LoginFailure κ}
    (after : clock.After s.now) (differs : other ≠ key) (found : s.failure key = some entry)
    (live : clock.last < entry.expiresAt) : (s.recordFailure maxEntries other clock).failure key = some entry := by
  have keyed : entry.key = key := by simpa [CaptchaProtection.failure] using List.find?_some found
  have swept := find_sweepExpired after.sweep_le found live
  unfold CaptchaProtection.recordFailure CaptchaProtection.failure
  dsimp only
  split
  · rw [Rows.find_updateWhere (g := fun current => { current with count := min 3 (current.count + 1) })
      LoginFailure.key (fun _ => rfl)]
    rw [CaptchaProtection.failure] at found
    simp [found, keyed, Ne.symm differs]
  · split
    · exact swept
    · rw [find_setFailure_other differs]
      exact swept

theorem CaptchaProtection.recordFailure_live {clock : ClockReadings} {entry : LoginFailure κ}
    (found : s.failure key = some entry) (live : clock.first < entry.expiresAt) :
    (s.recordFailure maxEntries key clock).failure key = some { entry with count := min 3 (entry.count + 1) } := by
  have keyed : entry.key = key := by simpa [CaptchaProtection.failure] using List.find?_some found
  unfold CaptchaProtection.recordFailure
  rw [if_pos (by simpa [found] using live)]
  unfold CaptchaProtection.failure at found ⊢
  dsimp only
  rw [Rows.find_updateWhere (g := fun current => { current with count := min 3 (current.count + 1) })
    LoginFailure.key (fun _ => rfl), found]
  simp [keyed]

theorem CaptchaProtection.Counted.next (counted : s.Counted key expiry n)
    (step : (captchaMachine enabled maxEntries ipKeyGenerator).next s login = some s')
    (noSuccess : login.succeededFor ipKeyGenerator key = false) :
    s'.Counted key expiry (n + if login.failedFor enabled ipKeyGenerator key then 1 else 0) := by
  obtain ⟨after, -, rfl⟩ := captcha_next step
  have later := after.le_last
  have first := after.first_le
  by_cases lapsed : expiry ≤ login.clock.last
  · left
    rw [CaptchaProtection.finish_now]
    exact lapsed
  rcases counted with before | ⟨entry, found, rfl, enough⟩
  · omega
  right
  unfold CaptchaProtection.finish
  split
  · rename_i off
    refine ⟨entry, found, rfl, ?_⟩
    simp only [Bool.not_eq_true'] at off
    simpa [LoginFinished.failedFor, off] using enough
  · rename_i on
    simp only [Bool.not_eq_true', Bool.not_eq_false] at on
    split
    · rename_i failed
      by_cases own : keyFor ipKeyGenerator login.ip = key
      · rw [own, CaptchaProtection.recordFailure_live found (by omega)]
        refine ⟨_, rfl, rfl, ?_⟩
        simp only [LoginFinished.failedFor, on, failed, own, beq_self_eq_true, Bool.and_self, if_true]
        omega
      · rw [CaptchaProtection.recordFailure_other after own found (by omega)]
        refine ⟨entry, rfl, rfl, ?_⟩
        simpa [LoginFinished.failedFor, own] using enough
    · rename_i failed
      have same : (if login.failedFor enabled ipKeyGenerator key then 1 else 0) = 0 := by
        simp [LoginFinished.failedFor, failed]
      rw [same]
      split
      · rename_i succeeded
        refine ⟨entry, ?_, rfl, enough⟩
        have differs : keyFor ipKeyGenerator login.ip ≠ key := by
          intro own
          simp [LoginFinished.succeededFor, succeeded, own] at noSuccess
        unfold CaptchaProtection.failure at found ⊢
        dsimp only
        rw [List.find?_filter, ← found]
        congr 1
        funext other
        by_cases own : other.key = key
        · simp [own, Ne.symm differs]
        · simp [own]
      · exact ⟨entry, found, rfl, enough⟩

theorem captcha_counted_run {logins : List LoginFinished} (counted : s.Counted key expiry n)
    (run : (captchaMachine enabled maxEntries ipKeyGenerator).exec s logins = some t)
    (noSuccess : ∀ login ∈ logins, login.succeededFor ipKeyGenerator key = false) :
    t.Counted key expiry (n + logins.countP (·.failedFor enabled ipKeyGenerator key)) := by
  induction logins generalizing s n with
  | nil =>
      simp only [Machine.exec, Option.some.injEq] at run
      simpa [← run] using counted
  | cons login logins ih =>
      simp only [Machine.exec, Option.bind_eq_some_iff] at run
      obtain ⟨s', step, rest⟩ := run
      have counted' := counted.next step (noSuccess login List.mem_cons_self)
      have after := ih counted' rest fun later listed => noSuccess later (List.mem_cons_of_mem _ listed)
      rw [List.countP_cons, Nat.add_comm (logins.countP _), ← Nat.add_assoc]
      exact after

/-- The failed login of a client without a live window leaves the client with an entry. -/
def LoginFinished.OpensWindow (enabled : Bool) (ipKeyGenerator : String → κ) (key : κ) (login : LoginFinished)
    (s s' : CaptchaProtection κ) : Prop :=
  login.failedFor enabled ipKeyGenerator key = true ∧ (s.failure key).all (·.expiresAt ≤ login.clock.first) = true
    ∧ (s'.failure key).isSome = true

theorem LoginFinished.failedFor_iff : login.failedFor enabled ipKeyGenerator key = true
    ↔ enabled = true ∧ login.statusCode = 401 ∧ keyFor ipKeyGenerator login.ip = key := by
  simp [LoginFinished.failedFor, and_assoc]

theorem captcha_failed_next (step : (captchaMachine enabled maxEntries ipKeyGenerator).next s login = some s')
    (failed : login.failedFor enabled ipKeyGenerator key = true) :
    s' = s.recordFailure maxEntries key login.clock := by
  obtain ⟨-, -, rfl⟩ := captcha_next step
  obtain ⟨on, status, own⟩ := LoginFinished.failedFor_iff.mp failed
  simp [CaptchaProtection.finish, on, status, own]

/-- A full map: the failure of a client without a live window leaves it without an entry. -/
theorem CaptchaProtection.Bounded.not_left (bounded : s.Bounded maxEntries) {clock : ClockReadings}
    (after : clock.After s.now) (one_each : clock.sweep.length = s.failures.length)
    (notLive : (s.failure key).all (·.expiresAt ≤ clock.first) = true) :
    (sweepExpired clock.sweep s.failures).find? (·.key == key) = none := by
  rw [List.find?_eq_none]
  intro entry left_ keyed
  simp only [beq_iff_eq] at keyed
  have live := live_of_mem_sweepExpired one_each after.first_le_sweep left_
  have listed : entry ∈ s.failures := sweepExpired_sublist.subset left_
  have found : s.failure key = some entry := by
    cases first : s.failure key with
    | none => exact absurd (by simpa using keyed) (List.find?_eq_none.mp first entry listed)
    | some other =>
        have same : other.key = key := by simpa [CaptchaProtection.failure] using List.find?_some first
        rw [List.inj_on_of_nodup_map bounded.distinct (List.mem_of_find?_eq_some first) listed (same.trans keyed.symm)]
  rw [found, Option.all_some, decide_eq_true_iff] at notLive
  omega

/-- What a failed login does to its client's entry. -/
theorem CaptchaProtection.Bounded.failed_cases (bounded : s.Bounded maxEntries)
    (step : (captchaMachine enabled maxEntries ipKeyGenerator).next s login = some s')
    (failed : login.failedFor enabled ipKeyGenerator key = true) :
    (∃ entry, s.failure key = some entry ∧ login.clock.first < entry.expiresAt
      ∧ s'.failure key = some { entry with count := min 3 (entry.count + 1) })
    ∨ ((s.failure key).all (·.expiresAt ≤ login.clock.first) = true
      ∧ (s'.failure key = some ⟨key, 1, login.clock.last + captchaWindowMs⟩
        ∨ s'.failure key = none ∧ s'.capacityChallengeUntil = login.clock.last + captchaWindowMs)) := by
  obtain ⟨after, one_each, -⟩ := captcha_next step
  obtain rfl := captcha_failed_next step failed
  by_cases live : (s.failure key).any (login.clock.first < ·.expiresAt) = true
  · left
    obtain ⟨entry, found, entryLive⟩ := (Option.any_eq_true _ _).mp live
    have first : login.clock.first < entry.expiresAt := by simpa using entryLive
    exact ⟨entry, found, first, CaptchaProtection.recordFailure_live found first⟩
  · right
    have notLive : (s.failure key).all (·.expiresAt ≤ login.clock.first) = true := by
      cases found : s.failure key <;> simp_all
    refine ⟨notLive, ?_⟩
    unfold CaptchaProtection.recordFailure
    rw [if_neg live]
    dsimp only
    split
    · right
      exact ⟨bounded.not_left after one_each notLive, rfl⟩
    · left
      exact find_setFailure_same ⟨key, 1, login.clock.last + captchaWindowMs⟩

theorem LoginFinished.OpensWindow.counted (opens : login.OpensWindow enabled ipKeyGenerator key s s')
    (bounded : s.Bounded maxEntries)
    (step : (captchaMachine enabled maxEntries ipKeyGenerator).next s login = some s') :
    s'.Counted key (login.clock.last + captchaWindowMs) 1 := by
  obtain ⟨failed, notLive, stored⟩ := opens
  rcases bounded.failed_cases step failed with ⟨entry, found, live, -⟩ | ⟨-, opened | ⟨absent, -⟩⟩
  · rw [found, Option.all_some, decide_eq_true_iff] at notLive
    omega
  · exact .inr ⟨_, opened, rfl, by simp⟩
  · simp [absent] at stored

/-- The map is bounded, three failures in a window are challenged to its end whatever the other clients do, and
a failure that the full map cannot take challenges everybody for a window. -/
theorem captcha_tracks_risk (enabled : Bool) (maxEntries : Nat) (ipKeyGenerator : String → κ) (s : CaptchaProtection κ)
    (reached : (captchaMachine enabled maxEntries ipKeyGenerator).Reachable s) :
    (s.failures.length ≤ maxEntries ∧ (s.failures.map LoginFailure.key).Nodup)
    ∧ (∀ (key : κ) (opening : LoginFinished) (s₁ s₂ : CaptchaProtection κ) (logins : List LoginFinished),
        (captchaMachine enabled maxEntries ipKeyGenerator).next s opening = some s₁ →
        opening.OpensWindow enabled ipKeyGenerator key s s₁ →
        (captchaMachine enabled maxEntries ipKeyGenerator).exec s₁ logins = some s₂ →
        2 ≤ logins.countP (·.failedFor enabled ipKeyGenerator key) →
        (∀ login ∈ logins, login.succeededFor ipKeyGenerator key = false) →
        ∀ capacityReading windowReading, s₂.now ≤ capacityReading → capacityReading ≤ windowReading →
          windowReading < opening.clock.last + captchaWindowMs →
          s₂.required enabled key capacityReading windowReading = true)
    ∧ (∀ (key : κ) (login : LoginFinished) (s₁ s₂ : CaptchaProtection κ) (logins : List LoginFinished),
        (captchaMachine enabled maxEntries ipKeyGenerator).next s login = some s₁ →
        login.failedFor enabled ipKeyGenerator key = true → s₁.failure key = none →
        (captchaMachine enabled maxEntries ipKeyGenerator).exec s₁ logins = some s₂ →
        ∀ (anyKey : κ) capacityReading windowReading, s₂.now ≤ capacityReading →
          capacityReading < login.clock.last + captchaWindowMs →
          s₂.required enabled anyKey capacityReading windowReading = true) := by
  have bounded := captcha_bounded reached
  refine ⟨⟨bounded.size, bounded.distinct⟩, ?_, ?_⟩
  · intro key opening s₁ s₂ logins step opens run enough noSuccess capacityReading windowReading later ordered before
    obtain ⟨on, -⟩ := LoginFinished.failedFor_iff.mp opens.1
    rcases captcha_counted_run (opens.counted bounded step) run noSuccess with lapsed | ⟨entry, found, expires, count⟩
    · omega
    · have three : 3 ≤ entry.count := by omega
      have live : windowReading < entry.expiresAt := by omega
      simp [CaptchaProtection.required, on, found, three, live]
  · intro key login s₁ s₂ logins step failed absent run anyKey capacityReading windowReading later before
    obtain ⟨on, -⟩ := LoginFinished.failedFor_iff.mp failed
    have challenged : s₁.capacityChallengeUntil = login.clock.last + captchaWindowMs := by
      rcases bounded.failed_cases step failed with ⟨entry, -, -, present⟩ | ⟨-, present | ⟨-, until_⟩⟩
      · simp [present] at absent
      · simp [present] at absent
      · exact until_
    have kept := captcha_challenge_run (bounded.next step) run
    have inside : capacityReading < s₂.capacityChallengeUntil := by omega
    simp [CaptchaProtection.required, on, inside]

/-- One entry, taken by a client that fails three times, while another client finds no room for its failure. -/
def sampleOpening : LoginFinished := ⟨some "203.0.113.10", 401, ⟨1, [], 1⟩⟩
def sampleCrowded : LoginFinished := ⟨some "203.0.113.20", 401, ⟨3, [3], 3⟩⟩

theorem captcha_tracks_risk_crowded : ∃ s₁ s s' s₂,
    (captchaMachine true 1 id).next { now := 0 } sampleOpening = some s₁
    ∧ (captchaMachine true 1 id).exec s₁ [⟨some "203.0.113.10", 401, ⟨2, [2], 2⟩⟩] = some s
    ∧ (captchaMachine true 1 id).next s sampleCrowded = some s'
    ∧ (captchaMachine true 1 id).exec s' [⟨some "203.0.113.10", 401, ⟨4, [4], 5⟩⟩] = some s₂
    ∧ s₂.failures.length ≤ 1 ∧ s₂.required true "203.0.113.10" 6 6 = true
    ∧ ∀ anyKey, s₂.required true anyKey 6 6 = true := by
  have sample : ∃ s₁ s s' s₂,
      (captchaMachine true 1 id).next { now := 0 } sampleOpening = some s₁
      ∧ (captchaMachine true 1 id).exec s₁ [⟨some "203.0.113.10", 401, ⟨2, [2], 2⟩⟩] = some s
      ∧ (captchaMachine true 1 id).next s sampleCrowded = some s'
      ∧ (captchaMachine true 1 id).exec s' [⟨some "203.0.113.10", 401, ⟨4, [4], 5⟩⟩] = some s₂
      ∧ (captchaMachine true 1 id).exec s₁ [⟨some "203.0.113.10", 401, ⟨2, [2], 2⟩⟩, sampleCrowded,
        ⟨some "203.0.113.10", 401, ⟨4, [4], 5⟩⟩] = some s₂
      ∧ (s₁.failure "203.0.113.10").isSome = true ∧ s'.failure "203.0.113.20" = none ∧ s₂.now = 5 :=
    ⟨_, _, _, _, rfl, rfl, rfl, rfl, rfl, rfl, rfl, rfl⟩
  obtain ⟨s₁, s, s', s₂, opened, failed, crowded, again, run, stored, absent, now⟩ := sample
  have start : (captchaMachine true 1 id).Reachable { now := 0 } := .start ⟨rfl, rfl⟩
  have reached : (captchaMachine true 1 id).Reachable s := by
    obtain ⟨s₀, initial, first⟩ := start.next trivial opened
    exact ⟨s₀, initial, first.trans (.of_exec failed)⟩
  have later : (captchaMachine true 1 id).Reachable s₂ := by
    obtain ⟨s₀, initial, first⟩ := reached.next trivial crowded
    exact ⟨s₀, initial, first.trans (.of_exec again)⟩
  have three := (captcha_tracks_risk true 1 id _ start).2.1 "203.0.113.10" sampleOpening s₁ s₂ _ opened
    ⟨by decide, by decide, stored⟩ run (by decide) (by decide) 6 6 (by omega) (Nat.le_refl _) (by decide)
  have full := (captcha_tracks_risk true 1 id s reached).2.2 "203.0.113.20" sampleCrowded s' s₂ _ crowded (by decide)
    absent again
  exact ⟨s₁, s, s', s₂, opened, failed, crowded, again, (captcha_tracks_risk true 1 id s₂ later).1.1, three,
    fun anyKey => full anyKey 6 6 (by omega) (by decide)⟩

end Runs

end ServiceHub
