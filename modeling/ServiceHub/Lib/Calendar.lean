import Mathlib.Data.Nat.Basic

/-! # The Gregorian calendar

Dates from 1970-01-01 on, one day after the other. A table of the first days of the months that grows by
the lengths of the months gives every date.
-/

namespace Calendar

structure Date where
  year : Nat
  month : Nat
  day : Nat
  deriving Repr, DecidableEq

def isLeap (year : Nat) : Bool := year % 4 == 0 && (year % 100 != 0 || year % 400 == 0)

def monthLength (year month : Nat) : Nat :=
  if month = 2 then (if isLeap year then 29 else 28)
  else if month = 4 ∨ month = 6 ∨ month = 9 ∨ month = 11 then 30 else 31

/-- The first day of the following month. -/
def followingMonth (year month : Nat) : Date :=
  if month < 12 then ⟨year, month + 1, 1⟩ else ⟨year + 1, 1, 1⟩

def Date.next (date : Date) : Date :=
  if date.day < monthLength date.year date.month then { date with day := date.day + 1 }
  else followingMonth date.year date.month

/-- The date of a day, counted from 1970-01-01. -/
def dateOfDay : Nat → Date
  | 0 => ⟨1970, 1, 1⟩
  | n + 1 => (dateOfDay n).next

theorem monthLength_bounds (year month : Nat) : 28 ≤ monthLength year month ∧ monthLength year month ≤ 31 := by
  unfold monthLength
  split
  · split <;> omega
  · split <;> omega

/-- A day is in its month, and so many days after the first of it. -/
theorem dateOfDay_first (n : Nat) : 1 ≤ (dateOfDay n).day ∧ (dateOfDay n).day ≤ n + 1
    ∧ dateOfDay (n + 1 - (dateOfDay n).day) = { dateOfDay n with day := 1 } := by
  induction n with
  | zero => decide
  | succ n ih =>
      obtain ⟨least, most, first⟩ := ih
      have next : dateOfDay (n + 1) = (dateOfDay n).next := rfl
      by_cases inside : (dateOfDay n).day < monthLength (dateOfDay n).year (dateOfDay n).month
      · have date : dateOfDay (n + 1) = { dateOfDay n with day := (dateOfDay n).day + 1 } := by
          rw [next, Date.next, if_pos inside]
        have back : n + 1 + 1 - ((dateOfDay n).day + 1) = n + 1 - (dateOfDay n).day := by omega
        rw [date]
        refine ⟨by simp, by simpa using most, ?_⟩
        simp only [back, first]
      · have date : dateOfDay (n + 1) = followingMonth (dateOfDay n).year (dateOfDay n).month := by
          rw [next, Date.next, if_neg inside]
        have day : (dateOfDay (n + 1)).day = 1 := by
          rw [date, followingMonth]
          split <;> rfl
        refine ⟨by omega, by omega, ?_⟩
        have unchanged : ∀ d : Date, d.day = 1 → d = { d with day := 1 } := by
          rintro ⟨year, month, _⟩ rfl
          rfl
        rw [day, Nat.add_sub_cancel]
        exact unchanged _ day

/-- The leap years up to the year. -/
def leapYears (year : Nat) : Nat := year / 4 - year / 100 + year / 400

theorem isLeap_iff (year : Nat) : isLeap year = true ↔ 4 ∣ year ∧ (¬ 100 ∣ year ∨ 400 ∣ year) := by
  simp [isLeap, Nat.dvd_iff_mod_eq_zero]

theorem leapYears_succ (year : Nat) : leapYears (year + 1) = leapYears year + if isLeap (year + 1) then 1 else 0 := by
  have few : year / 100 ≤ year / 4 := by omega
  have fourth : 100 ∣ year + 1 → 4 ∣ year + 1 := Nat.dvd_trans (by decide)
  have century : 400 ∣ year + 1 → 100 ∣ year + 1 := Nat.dvd_trans (by decide)
  simp only [leapYears, Nat.succ_div, isLeap_iff]
  grind

/-! ## Months in a row

Month `k` is month `k % 12 + 1` of the year `k / 12`.
-/

/-- The number of days of month `k`. -/
def lengthOf (k : Nat) : Nat := monthLength (k / 12) (k % 12 + 1)

def january1970 : Nat := 12 * 1970

theorem followingMonth_eq (k : Nat) : followingMonth (k / 12) (k % 12 + 1) = ⟨(k + 1) / 12, (k + 1) % 12 + 1, 1⟩ := by
  unfold followingMonth
  split
  · have year : (k + 1) / 12 = k / 12 := by omega
    have month : (k + 1) % 12 = k % 12 + 1 := by omega
    rw [year, month]
  · have year : (k + 1) / 12 = k / 12 + 1 := by omega
    have month : (k + 1) % 12 = 0 := by omega
    rw [year, month]

/-- A day of month `k`, when its first day is known. -/
theorem dateOfDay_in_month {k first : Nat} (starts : dateOfDay first = ⟨k / 12, k % 12 + 1, 1⟩) {d : Nat}
    (inside : d < lengthOf k) : dateOfDay (first + d) = ⟨k / 12, k % 12 + 1, d + 1⟩ := by
  induction d with
  | zero => exact starts
  | succ d ih =>
      have before := ih (by omega)
      have room : d + 1 < monthLength (k / 12) (k % 12 + 1) := inside
      rw [← Nat.add_assoc, dateOfDay, before, Date.next]
      simp [room]

/-- A table of first days that grows by the lengths of the months is the calendar's. -/
theorem dateOfDay_of_table {first : Nat → Nat} (start : first january1970 = 0)
    (grows : ∀ k, january1970 ≤ k → first (k + 1) = first k + lengthOf k) {k : Nat} (later : january1970 ≤ k) {d : Nat}
    (inside : d < lengthOf k) : dateOfDay (first k + d) = ⟨k / 12, k % 12 + 1, d + 1⟩ := by
  induction k, later using Nat.le_induction generalizing d with
  | base =>
      apply dateOfDay_in_month _ inside
      rw [start]
      rfl
  | succ k later ih =>
      apply dateOfDay_in_month _ inside
      have bounds := monthLength_bounds (k / 12) (k % 12 + 1)
      have positive : 0 < lengthOf k := by
        unfold lengthOf
        omega
      have last := ih (d := lengthOf k - 1) (by omega)
      have next : first (k + 1) = first k + (lengthOf k - 1) + 1 := by
        rw [grows k later]
        omega
      rw [next, dateOfDay, last, Date.next]
      have full : ¬ lengthOf k - 1 + 1 < monthLength (k / 12) (k % 12 + 1) := by
        unfold lengthOf
        omega
      rw [if_neg full, followingMonth_eq]

end Calendar
