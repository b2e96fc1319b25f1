import Mathlib.Algebra.Order.Round
import Mathlib.Data.Rat.Floor
import Mathlib.Order.Monotone.Basic
import Mathlib.Tactic.Linarith
import Mathlib.Tactic.IntervalCases
import ServiceHub.Lib.Calendar
import ServiceHub.Membership.Policy

/-! # Periods and prices of a membership

The days of `Date` are computed from years that begin in March; they are the days of the calendar. A period
runs to the same day of the following Philippine month, and an upgrade is paid for the rest of the period.
-/

namespace ServiceHub

open Calendar Guard

section Days

variable {doe doy y n k : Nat}

/-- The day on which year `y` of an era of 400 years begins, in March. -/
def eraYear (y : Nat) : Nat := 365 * y + leapYears y

/-- The days of the era with the leap days taken out. -/
def leapless (doe : Nat) : Nat := doe - doe / 1460 + doe / 36524 - doe / 146096

theorem leapless_mono : Monotone leapless := by
  apply monotone_nat_of_le_succ
  intro doe
  unfold leapless
  have fourth : (doe + 1) / 1460 ≤ doe / 1460 + 1 := by omega
  have century : doe / 36524 ≤ (doe + 1) / 36524 := by omega
  have era : (doe + 1) / 146096 = doe / 146096
      ∨ ((doe + 1) / 146096 = doe / 146096 + 1 ∧ (doe + 1) / 36524 = doe / 36524 + 1) := by omega
  have fewer : doe / 146096 ≤ doe / 36524 := by omega
  have small : doe / 1460 ≤ doe := by omega
  omega

/-- The first and the last day of every year of an era are counted to that year. -/
theorem leapless_ends : ∀ y < 400, leapless (eraYear y) / 365 = y ∧ leapless (eraYear (y + 1) - 1) / 365 = y := by
  decide +kernel

theorem exists_eraYear (inside : doe < eraYear n) : ∃ y < n, eraYear y ≤ doe ∧ doe < eraYear (y + 1) := by
  induction n with
  | zero => simp [eraYear, leapYears] at inside
  | succ n ih =>
      by_cases before : doe < eraYear n
      · obtain ⟨y, early, bounds⟩ := ih before
        exact ⟨y, by omega, bounds⟩
      · exact ⟨n, by omega, by omega, inside⟩

/-- The year of a day of the era. -/
theorem year_of_era (inside : doe < 146097) :
    leapless doe / 365 < 400 ∧ eraYear (leapless doe / 365) ≤ doe ∧ doe < eraYear (leapless doe / 365 + 1) := by
  obtain ⟨y, early, low, high⟩ := exists_eraYear (n := 400) inside
  have ends := leapless_ends y early
  have below : leapless (eraYear y) / 365 ≤ leapless doe / 365 := Nat.div_le_div_right (leapless_mono low)
  have above : leapless doe / 365 ≤ leapless (eraYear (y + 1) - 1) / 365 :=
    Nat.div_le_div_right (leapless_mono (by omega))
  have year : leapless doe / 365 = y := by omega
  rw [year]
  exact ⟨early, low, high⟩

/-- The first day of month `k`, counted from January of the year 0. -/
def firstDay (k : Nat) : Nat := daysToMonth ((k - 2) / 12) ((k - 2) % 12)

theorem firstOfMonth_eq {year month ahead : Nat} (month_lt : month < 12) :
    firstOfMonth year month ahead = firstDay (12 * year + month + 2 + ahead) := by
  unfold firstOfMonth firstDay
  have years : year + (month + ahead) / 12 = (12 * year + month + 2 + ahead - 2) / 12 := by omega
  have months : (month + ahead) % 12 = (12 * year + month + 2 + ahead - 2) % 12 := by omega
  rw [years, months]

theorem firstDay_start : firstDay january1970 = 0 := by decide

/-- The days before March of the year 0 are not counted. -/
theorem firstDay_march (year month : Nat) (month_lt : month < 12) (later : january1970 ≤ 12 * year + month + 2) :
    firstDay (12 * year + month + 2) + 719468 = 365 * year + leapYears year + (153 * month + 2) / 5 := by
  have years : (12 * year + month + 2 - 2) / 12 = year := by omega
  have months : (12 * year + month + 2 - 2) % 12 = month := by omega
  unfold firstDay daysToMonth leapYears
  rw [years, months]
  unfold january1970 at later
  have epoch : 1969 ≤ year := by omega
  rcases Nat.eq_or_lt_of_le epoch with rfl | after
  · omega
  · omega

theorem lengthOf_march (year : Nat) {month : Nat} (month_lt : month < 11) :
    lengthOf (12 * year + month + 2) + (153 * month + 2) / 5 = (153 * (month + 1) + 2) / 5 := by
  unfold lengthOf
  by_cases january : month = 10
  · subst january
    have civil : (12 * year + 10 + 2) % 12 + 1 = 1 := by omega
    rw [civil]
    rfl
  · have civil : (12 * year + month + 2) % 12 + 1 = month + 3 := by omega
    rw [civil]
    interval_cases month <;> rfl

theorem lengthOf_february (year : Nat) :
    lengthOf (12 * year + 11 + 2) + leapYears year + 337 = 365 + leapYears (year + 1) := by
  have civil : (12 * year + 11 + 2) % 12 + 1 = 2 := by omega
  have years : (12 * year + 11 + 2) / 12 = year + 1 := by omega
  unfold lengthOf monthLength
  rw [civil, years, if_pos rfl, leapYears_succ]
  split <;> omega

theorem firstDay_grows (k : Nat) (later : january1970 ≤ k) : firstDay (k + 1) = firstDay k + lengthOf k := by
  obtain ⟨year, month, month_lt, rfl⟩ : ∃ year month, month < 12 ∧ k = 12 * year + month + 2 := by
    unfold january1970 at later
    exact ⟨(k - 2) / 12, (k - 2) % 12, by omega, by omega⟩
  have here := firstDay_march year month month_lt later
  rcases Nat.lt_or_ge month 11 with early | february
  · have length := lengthOf_march year early
    have next := firstDay_march year (month + 1) (by omega) (by omega)
    have same : 12 * year + (month + 1) + 2 = 12 * year + month + 2 + 1 := by omega
    rw [same] at next
    omega
  · obtain rfl : month = 11 := by omega
    have length := lengthOf_february year
    have next := firstDay_march (year + 1) 0 (by omega) (by omega)
    have same : 12 * (year + 1) + 0 + 2 = 12 * year + 11 + 2 + 1 := by omega
    rw [same] at next
    omega

/-- The month of a day of the year, which begins in March. -/
theorem month_of_year (inside : doy < 366) : (5 * doy + 2) / 153 < 12
    ∧ (153 * ((5 * doy + 2) / 153) + 2) / 5 ≤ doy ∧ doy < (153 * ((5 * doy + 2) / 153 + 1) + 2) / 5 := by
  omega

theorem leapYears_era (y era : Nat) : leapYears (y + 400 * era) = leapYears y + 97 * era := by
  have fourth : (y + 400 * era) / 4 = y / 4 + 100 * era := by omega
  have century : (y + 400 * era) / 100 = y / 100 + 4 * era := by omega
  have whole : (y + 400 * era) / 400 = y / 400 + era := by omega
  have few : y / 100 ≤ y / 4 := by omega
  unfold leapYears
  rw [fourth, century, whole]
  omega

theorem eraYear_early (early : y < 400) : eraYear y = 365 * y + y / 4 - y / 100 := by
  unfold eraYear leapYears
  omega

theorem eraYear_grows (y : Nat) : eraYear (y + 1) ≤ eraYear y + 366 := by
  unfold eraYear
  rw [leapYears_succ]
  split <;> omega

/-- No day before January 1970 has a number. -/
theorem later_of_total {year : Nat} (inside : doy < 366) (total : n + 719468 = 365 * year + leapYears year + doy) :
    january1970 ≤ 12 * year + (5 * doy + 2) / 153 + 2 := by
  unfold january1970
  rcases Nat.lt_trichotomy year 1969 with before | rfl | after
  · have leaps : leapYears year ≤ 477 := by
      unfold leapYears
      omega
    omega
  · have leaps : leapYears 1969 = 477 := rfl
    omega
  · omega

/-- A day is the day it is computed to be. -/
theorem civilDate_spec (n : Nat) : ∃ year month day, civilDate n = (year, month, day) ∧ month < 12
    ∧ january1970 ≤ 12 * year + month + 2 ∧ n = firstDay (12 * year + month + 2) + day
    ∧ day < lengthOf (12 * year + month + 2) := by
  let doe := (n + 719468) % 146097
  let era := (n + 719468) / 146097
  let yoe := leapless doe / 365
  let doy := doe - (365 * yoe + yoe / 4 - yoe / 100)
  let month := (5 * doy + 2) / 153
  have computed : civilDate n = (yoe + 400 * era, month, doy - (153 * month + 2) / 5) := rfl
  obtain ⟨early, low, high⟩ : yoe < 400 ∧ eraYear yoe ≤ doe ∧ doe < eraYear (yoe + 1) := year_of_era (by omega)
  have split : n + 719468 = 146097 * era + doe := (Nat.div_add_mod _ _).symm
  have plain : eraYear yoe = 365 * yoe + yoe / 4 - yoe / 100 := eraYear_early early
  have dayOfYear : doe = eraYear yoe + doy := by
    rw [plain] at low ⊢
    exact (Nat.add_sub_cancel' low).symm
  clear_value doe era yoe doy
  have grows := eraYear_grows yoe
  have inside : doy < 366 := by omega
  have total : n + 719468 = 365 * (yoe + 400 * era) + leapYears (yoe + 400 * era) + doy := by
    rw [leapYears_era]
    unfold eraYear at dayOfYear
    omega
  have later : january1970 ≤ 12 * (yoe + 400 * era) + month + 2 := later_of_total inside total
  obtain ⟨month_lt, begins, ends⟩ : month < 12 ∧ (153 * month + 2) / 5 ≤ doy ∧ doy < (153 * (month + 1) + 2) / 5 :=
    month_of_year inside
  have first := firstDay_march _ _ month_lt later
  refine ⟨_, _, _, computed, month_lt, later, by omega, ?_⟩
  rcases Nat.lt_or_ge month 11 with march | february
  · have length := lengthOf_march (yoe + 400 * era) march
    omega
  · have last : month = 11 := by omega
    rw [last] at begins ⊢
    have length := lengthOf_february (yoe + 400 * era)
    have shifted : yoe + 400 * era + 1 = yoe + 1 + 400 * era := by omega
    rw [shifted, leapYears_era, leapYears_era] at length
    unfold eraYear at low high dayOfYear
    omega

theorem dateOfDay_firstDay {d : Nat} (later : january1970 ≤ k) (inside : d < lengthOf k) :
    dateOfDay (firstDay k + d) = ⟨k / 12, k % 12 + 1, d + 1⟩ :=
  dateOfDay_of_table firstDay_start firstDay_grows later inside

end Days

/-! ## One month on -/

section Month

/-- Philippine time is eight hours ahead. -/
def philippineOffset : Nat := 8 * 60 * 60 * 1000

def philippineTime (instant : Nat) : Nat := instant + philippineOffset

def ofPhilippineTime (localTime : Nat) : Nat := localTime - philippineOffset

theorem philippineTime_of {localTime : Nat} (after : philippineOffset ≤ localTime) :
    philippineTime (ofPhilippineTime localTime) = localTime :=
  Nat.sub_add_cancel after

def philippineDate (instant : Nat) : Date := dateOfDay (philippineTime instant / dayMs)

def philippineTimeOfDay (instant : Nat) : Nat := philippineTime instant % dayMs

/-- The day on which the month after month `k` ends for a period that starts on the day `day` of month `k`. -/
def clampedDay (k day : Nat) : Nat := firstDay (k + 1) + min day (lengthOf (k + 1) - 1)

theorem clampedDay_eq {k : Nat} (later : january1970 ≤ k) (day : Nat) :
    firstDay (k + 1) + min day (firstDay (k + 2) - firstDay (k + 1) - 1) = clampedDay k day := by
  have next : firstDay (k + 2) = firstDay (k + 1) + lengthOf (k + 1) := firstDay_grows (k + 1) (by omega)
  rw [clampedDay, next, Nat.add_sub_cancel_left]

theorem oneCalendarMonthFrom_local (start : Nat) : oneCalendarMonthFrom start =
    (match civilDate (philippineTime start / dayMs) with
    | (year, month, day) => ofPhilippineTime ((firstOfMonth year month 1
        + min day (firstOfMonth year month 2 - firstOfMonth year month 1 - 1)) * dayMs + philippineTimeOfDay start)) :=
  rfl

/-- The computation, with the day and the month of the start. -/
theorem oneCalendarMonthFrom_eq (start : Nat) : ∃ k day, january1970 ≤ k ∧ day < lengthOf k
    ∧ philippineTime start / dayMs = firstDay k + day
    ∧ oneCalendarMonthFrom start = ofPhilippineTime (clampedDay k day * dayMs + philippineTimeOfDay start) := by
  obtain ⟨year, month, day, computed, month_lt, later, total, inside⟩ := civilDate_spec (philippineTime start / dayMs)
  refine ⟨12 * year + month + 2, day, later, inside, total, ?_⟩
  rw [oneCalendarMonthFrom_local, computed]
  dsimp only
  rw [firstOfMonth_eq month_lt, firstOfMonth_eq month_lt, clampedDay_eq later]

/-- The clamped day is a month ahead. -/
theorem clampedDay_bounds {k day : Nat} (later : january1970 ≤ k) (inside : day < lengthOf k) :
    firstDay k + day + 28 ≤ clampedDay k day ∧ clampedDay k day ≤ firstDay k + day + 31 := by
  have own : 28 ≤ lengthOf k ∧ lengthOf k ≤ 31 := monthLength_bounds (k / 12) (k % 12 + 1)
  have next : 28 ≤ lengthOf (k + 1) ∧ lengthOf (k + 1) ≤ 31 := monthLength_bounds ((k + 1) / 12) ((k + 1) % 12 + 1)
  have grows := firstDay_grows k later
  unfold clampedDay
  omega

theorem one_calendar_month (start : Nat) :
    let date := philippineDate start
    let ends := oneCalendarMonthFrom start
    let following := followingMonth date.year date.month
    philippineTimeOfDay ends = philippineTimeOfDay start
    ∧ philippineDate ends = { following with day := min date.day (monthLength following.year following.month) }
    ∧ start + 28 * dayMs ≤ ends ∧ ends ≤ start + 31 * dayMs := by
  obtain ⟨k, day, later, inside, total, ends⟩ := oneCalendarMonthFrom_eq start
  have bounds := clampedDay_bounds later inside
  have partOfDay : philippineTimeOfDay start < dayMs := Nat.mod_lt _ (by decide)
  have parts : philippineTime start = (firstDay k + day) * dayMs + philippineTimeOfDay start := by
    rw [← total, Nat.mul_comm]
    exact (Nat.div_add_mod _ _).symm
  have ahead : philippineTime start + 28 * dayMs ≤ clampedDay k day * dayMs + philippineTimeOfDay start := by
    have scaled := Nat.mul_le_mul_right dayMs bounds.1
    rw [Nat.add_mul] at scaled
    linarith
  have near : clampedDay k day * dayMs + philippineTimeOfDay start ≤ philippineTime start + 31 * dayMs := by
    have scaled := Nat.mul_le_mul_right dayMs bounds.2
    rw [Nat.add_mul] at scaled
    linarith
  have later_time : philippineTime (oneCalendarMonthFrom start) = clampedDay k day * dayMs + philippineTimeOfDay start := by
    rw [ends]
    apply philippineTime_of
    have offset : philippineOffset ≤ philippineTime start := Nat.le_add_left _ _
    linarith
  have date : philippineDate start = ⟨k / 12, k % 12 + 1, day + 1⟩ := by
    rw [philippineDate, total, dateOfDay_firstDay later inside]
  have next : 28 ≤ lengthOf (k + 1) ∧ lengthOf (k + 1) ≤ 31 := monthLength_bounds ((k + 1) / 12) ((k + 1) % 12 + 1)
  have endDate : philippineDate (oneCalendarMonthFrom start)
      = ⟨(k + 1) / 12, (k + 1) % 12 + 1, min day (lengthOf (k + 1) - 1) + 1⟩ := by
    rw [philippineDate, later_time, Nat.mul_comm, Nat.mul_add_div (by decide), Nat.div_eq_of_lt partOfDay, Nat.add_zero]
    exact dateOfDay_firstDay (by omega) (by omega)
  dsimp only
  refine ⟨?_, ?_, ?_, ?_⟩
  · rw [philippineTimeOfDay, later_time, Nat.mul_comm, Nat.mul_add_mod, Nat.mod_eq_of_lt partOfDay]
  · have length : monthLength ((k + 1) / 12) ((k + 1) % 12 + 1) = lengthOf (k + 1) := rfl
    have clamped : min day (lengthOf (k + 1) - 1) + 1 = min (day + 1) (lengthOf (k + 1)) := by omega
    rw [endDate, date, followingMonth_eq, length, clamped]
  · rw [← later_time, philippineTime, philippineTime, Nat.add_right_comm] at ahead
    exact Nat.le_of_add_le_add_right ahead
  · rw [← later_time, philippineTime, philippineTime, Nat.add_right_comm] at near
    exact Nat.le_of_add_le_add_right near

end Month

/-! ## The price of an upgrade -/

section Upgrade

variable {remaining duration : Nat} {now later : Millis} {p : Provider} {quote : MembershipQuote}

theorem upgradeAmount_eq (remaining duration : Nat) :
    upgradeAmount remaining duration = (20000 * remaining + duration) / (2 * duration) := by
  have scaled : 2 * (10000 * remaining) = 20000 * remaining := by omega
  exact congrArg (fun amount => (amount + duration) / (2 * duration)) scaled

/-- The amount is the exact share of the difference in centavos, rounded half up. -/
theorem upgradeAmount_round (positive : 0 < duration) :
    ((upgradeAmount remaining duration : Nat) : Int) = round ((10000 * remaining : ℚ) / duration) := by
  have nonzero : (duration : ℚ) ≠ 0 := by exact_mod_cast Nat.pos_iff_ne_zero.mp positive
  have half : (10000 * remaining : ℚ) / duration + 1 / 2 = ((20000 * remaining + duration : Nat) : ℚ) / ((2 * duration : Nat) : ℚ) := by
    push_cast
    field_simp
    ring
  rw [round_eq, half, upgradeAmount_eq, Rat.floor_natCast_div_natCast]
  exact Int.natCast_ediv _ _

theorem upgradeAmount_le (within_ : remaining ≤ duration) (positive : 0 < duration) : upgradeAmount remaining duration ≤ 10000 := by
  rw [upgradeAmount_eq, ← Nat.lt_succ_iff, Nat.div_lt_iff_lt_mul (by omega)]
  omega

theorem upgradeAmount_mono {less : Nat} (fewer : less ≤ remaining) : upgradeAmount less duration ≤ upgradeAmount remaining duration := by
  rw [upgradeAmount_eq, upgradeAmount_eq]
  exact Nat.div_le_div_right (by omega)

/-- A quotient of decimal.js in units of `1 / scale`, rounded half up. -/
def decimalQuotient (scale numerator denominator : Nat) : Nat := (2 * (numerator * scale) + denominator) / (2 * denominator)

/-- `toDecimalPlaces(2, ROUND_HALF_UP)`. -/
def toCentavos (scale amount : Nat) : Nat := (200 * amount + scale) / (2 * scale)

theorem toCentavos_eq {unit amount digits : Nat} (low : unit * (2 * amount) ≤ digits + unit)
    (high : digits < unit * (2 * amount + 1)) : toCentavos (200 * unit) digits = amount := by
  apply Nat.div_eq_of_lt_le
  · have scaled : amount * (2 * (200 * unit)) = 200 * (unit * (2 * amount)) := by ring
    omega
  · have scaled : (amount + 1) * (2 * (200 * unit)) = 200 * (unit * (2 * amount + 1)) + 200 * unit := by ring
    omega

/-- The quotient keeps 20 significant digits, of an amount below 100 at least 18 decimals. For a duration of less than
    10 ^ 16 milliseconds the digits it drops are none that the rounding to centavos could see. -/
theorem rounded_twice {unit : Nat} (fine : duration < 2 * unit) (positive : 0 < duration) :
    toCentavos (200 * unit) (decimalQuotient (200 * unit) (100 * remaining) duration) = upgradeAmount remaining duration := by
  have low : 2 * duration * upgradeAmount remaining duration ≤ 20000 * remaining + duration := by
    rw [upgradeAmount_eq]
    exact Nat.mul_div_le _ _
  have high : 20000 * remaining + duration < 2 * duration * (upgradeAmount remaining duration + 1) := by
    rw [upgradeAmount_eq]
    exact Nat.lt_mul_div_succ _ (by omega)
  have lowDigits : 2 * duration * decimalQuotient (200 * unit) (100 * remaining) duration
      ≤ 2 * (100 * remaining * (200 * unit)) + duration := Nat.mul_div_le _ _
  have highDigits : 2 * (100 * remaining * (200 * unit)) + duration
      < 2 * duration * (decimalQuotient (200 * unit) (100 * remaining) duration + 1) := Nat.lt_mul_div_succ _ (by omega)
  generalize upgradeAmount remaining duration = amount at low high ⊢
  generalize decimalQuotient (200 * unit) (100 * remaining) duration = digits at lowDigits highDigits ⊢
  apply toCentavos_eq
  · -- a half centavo below the exact quotient is a digit of the quotient itself
    by_contra below
    have least : digits + unit + 1 ≤ unit * (2 * amount) := by omega
    nlinarith
  · by_contra above
    have most : unit * (2 * amount + 1) ≤ digits := by omega
    nlinarith

theorem basic_period (basic : p.subscriptionPlan = .basic) (active : p.marketplaceAccess now = true) :
    ∃ startedAt expiresAt, p.subscriptionStartedAt = some startedAt ∧ p.subscriptionExpiresAt = some expiresAt
      ∧ startedAt ≤ now ∧ now < expiresAt := by
  simp only [Provider.marketplaceAccess, Provider.startsAt, Provider.expiresAt, basic, Bool.and_eq_true, reduceCtorEq,
    if_false, Option.any_eq_true, decide_eq_true_eq] at active
  obtain ⟨⟨-, startedAt, started, before⟩, expiresAt, expires, after⟩ := active
  exact ⟨startedAt, expiresAt, started, expires, before, after⟩

/-- The quote of the upgrade in a Basic period. -/
theorem upgrade_quote {startedAt expiresAt : Millis} (basic : p.subscriptionPlan = .basic)
    (active : p.marketplaceAccess now = true) (started : p.subscriptionStartedAt = some startedAt)
    (expires : p.subscriptionExpiresAt = some expiresAt) :
    membershipQuote now .pro p = .ok quote ↔ 100 ≤ upgradeAmount (expiresAt - now) (expiresAt - startedAt)
      ∧ quote = {
        plan := .pro, amount := upgradeAmount (expiresAt - now) (expiresAt - startedAt), billingAction := .upgrade
        quotedPeriodExpiresAt := some expiresAt, quotedMembershipUpdatedAt := p.subscriptionUpdatedAt } := by
  simp only [membershipQuote, active, basic, started, expires, bind_ok, rejectIf_ok, pure_ok, ite_ok]
  simp [PaidProviderPlan.plan, eq_comm]

/-- With `decimals` decimals of the quotient. -/
theorem rounded_decimals {decimals : Nat} (digits : 18 ≤ decimals) (short : duration < 10 ^ 16) (positive : 0 < duration) :
    toCentavos (10 ^ decimals) (decimalQuotient (10 ^ decimals) (100 * remaining) duration)
      = upgradeAmount remaining duration := by
  obtain ⟨more, rfl⟩ := Nat.exists_eq_add_of_le digits
  have scale : 10 ^ (18 + more) = 200 * (5 * 10 ^ 15 * 10 ^ more) := by
    rw [Nat.pow_add]
    ring
  have least : 1 ≤ 10 ^ more := Nat.one_le_pow _ _ (by omega)
  rw [scale]
  apply rounded_twice _ positive
  omega

/-- A period ends at the same Philippine time of day in the following month, on the day of its start or the last one,
and the upgrade of an active Basic period is refused or costs the exact share of its rest. -/
theorem membership_billing :
    (∀ start,
      let date := philippineDate start
      let ends := oneCalendarMonthFrom start
      let following := followingMonth date.year date.month
      philippineTimeOfDay ends = philippineTimeOfDay start
      ∧ philippineDate ends = { following with day := min date.day (monthLength following.year following.month) }
      ∧ start + 28 * dayMs ≤ ends ∧ ends ≤ start + 31 * dayMs)
    ∧ ∀ (p : Provider) (now : Millis), p.subscriptionPlan = .basic → p.marketplaceAccess now = true →
      ∃ startedAt expiresAt, p.subscriptionStartedAt = some startedAt ∧ p.subscriptionExpiresAt = some expiresAt
        ∧ startedAt < expiresAt
        ∧ (∀ quote, membershipQuote now .pro p = .ok quote →
          (quote.amount : Int) = round ((10000 * ((expiresAt - now : Nat) : ℚ)) / ((expiresAt - startedAt : Nat) : ℚ))
          ∧ 100 ≤ quote.amount ∧ quote.amount ≤ 10000
          ∧ quote.billingAction = .upgrade ∧ quote.quotedPeriodExpiresAt = some expiresAt
          ∧ ∀ decimals, 18 ≤ decimals → expiresAt - startedAt < 10 ^ 16 →
              quote.amount = toCentavos (10 ^ decimals)
                (decimalQuotient (10 ^ decimals) (100 * (expiresAt - now)) (expiresAt - startedAt)))
        ∧ ∀ (later : Millis) quote quote', now ≤ later → p.marketplaceAccess later = true →
            membershipQuote now .pro p = .ok quote → membershipQuote later .pro p = .ok quote' →
            quote'.amount ≤ quote.amount := by
  refine ⟨one_calendar_month, fun p now basic active => ?_⟩
  obtain ⟨startedAt, expiresAt, started, expires, before, after⟩ := basic_period basic active
  have lasts : startedAt < expiresAt := Nat.lt_of_le_of_lt before after
  have positive : 0 < expiresAt - startedAt := Nat.sub_pos_of_lt lasts
  refine ⟨startedAt, expiresAt, started, expires, lasts, ?_, ?_⟩
  · intro quote quoted
    obtain ⟨enough, rfl⟩ := (upgrade_quote basic active started expires).mp quoted
    refine ⟨upgradeAmount_round positive, enough, ?_, rfl, rfl, ?_⟩
    · exact upgradeAmount_le (Nat.sub_le_sub_left before _) positive
    · intro decimals digits short
      exact (rounded_decimals digits short positive).symm
  · intro later quote quote' advances activeLater quoted quotedLater
    obtain ⟨-, rfl⟩ := (upgrade_quote basic active started expires).mp quoted
    obtain ⟨-, rfl⟩ := (upgrade_quote basic activeLater started expires).mp quotedLater
    exact upgradeAmount_mono (Nat.sub_le_sub_left advances _)

/-- A Basic membership of the first 31 milliseconds. -/
def firstBasic : Provider where
  subscriptionPlan := .basic
  subscriptionStartedAt := some 0
  subscriptionExpiresAt := some 31
  subscriptionUpdatedAt := 0

/-- A period from 31 January, and an upgrade halfway through a period. -/
theorem membership_billing_january :
    philippineDate (oneCalendarMonthFrom 2592000000) = ⟨1970, 2, 28⟩
    ∧ ∃ quote, membershipQuote 15 .pro firstBasic = .ok quote ∧ quote.amount = 5161
      ∧ (quote.amount : Int) = round ((10000 * ((31 - 15 : Nat) : ℚ)) / ((31 - 0 : Nat) : ℚ)) := by
  obtain ⟨periods, quotes⟩ := membership_billing
  constructor
  · have january : philippineDate 2592000000 = ⟨1970, 1, 31⟩ := by
      have day : philippineTime 2592000000 / dayMs = 30 := by simp [philippineTime, philippineOffset, dayMs]
      rw [philippineDate, day]
      decide +kernel
    have ends := (periods 2592000000).2.1
    rw [january] at ends
    exact ends
  · have active : firstBasic.marketplaceAccess 15 = true := rfl
    have quoted := (upgrade_quote rfl active rfl rfl).mpr ⟨by decide, rfl⟩
    obtain ⟨startedAt, expiresAt, started, expires, -, priced, -⟩ := quotes firstBasic 15 rfl active
    obtain rfl : 0 = startedAt := Option.some.inj started
    obtain rfl : 31 = expiresAt := Option.some.inj expires
    exact ⟨_, quoted, rfl, (priced _ quoted).1⟩

end Upgrade

end ServiceHub
