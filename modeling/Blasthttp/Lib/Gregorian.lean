/-
# Blasthttp.Lib.Gregorian -- the proleptic Gregorian calendar

Days are counted the long way: whole years from year 0, whole months of the year, whole
days of the month.  `daysBeforeYear_closed` is the count of years and leap years that
closed formulas rest on.
-/
import Mathlib.Tactic.Common
import Mathlib.Tactic.IntervalCases

namespace Blasthttp.Lib.Gregorian

set_option autoImplicit false

def isLeap (year : Nat) : Bool := year % 4 = 0 && (year % 100 ≠ 0 || year % 400 = 0)

def yearLength (year : Nat) : Nat := if isLeap year then 366 else 365

def monthLength (year : Nat) : Nat → Nat
  | 2 => if isLeap year then 29 else 28
  | 4 | 6 | 9 | 11 => 30
  | _ => 31

/-- The days from the first of January of year 0 to that of `year`. -/
def daysBeforeYear : Nat → Nat
  | 0 => 0
  | year + 1 => daysBeforeYear year + yearLength year

/-- The days of the year in front of a month; January is month 1. -/
def daysBeforeMonth (year : Nat) : Nat → Nat
  | 0 | 1 => 0
  | month + 2 => daysBeforeMonth year (month + 1) + monthLength year (month + 1)

structure Date where
  year : Nat
  month : Nat
  day : Nat
  monthOk : 1 ≤ month ∧ month ≤ 12
  dayOk : 1 ≤ day ∧ day ≤ monthLength year month

def Date.dayNumber (date : Date) : Nat :=
  daysBeforeYear date.year + daysBeforeMonth date.year date.month + (date.day - 1)

/-- A time of day, with room for a leap second. -/
structure TimeOfDay where
  hour : Nat
  minute : Nat
  second : Nat
  hourOk : hour < 24
  minuteOk : minute < 60
  secondOk : second ≤ 60

/-- 1970-01-01. -/
def epoch : Date := ⟨1970, 1, 1, by decide, by decide⟩

/-- Seconds since 1970-01-01T00:00:00Z. -/
def unixSeconds (date : Date) (time : TimeOfDay) : Int :=
  ((date.dayNumber : Int) - epoch.dayNumber) * 86400 + time.hour * 3600 + time.minute * 60 +
    time.second

example : daysBeforeMonth 2000 12 + monthLength 2000 12 = yearLength 2000 := by decide

/-! ## Closed forms -/

theorem yearLength_add (year : Nat) :
    yearLength year + ((year + 100) / 100 + (year + 3) / 4 + (year + 399) / 400) =
      365 + ((year + 99) / 100 + (year + 4) / 4 + (year + 400) / 400) := by
  unfold yearLength isLeap
  simp only [Bool.and_eq_true, Bool.or_eq_true, decide_eq_true_eq]
  split <;> omega

/-- One day more for every fourth year, but for the centuries that 400 does not divide. -/
theorem daysBeforeYear_closed (year : Nat) :
    daysBeforeYear year + (year + 99) / 100 = 365 * year + (year + 3) / 4 + (year + 399) / 400 := by
  induction year with
  | zero => rfl
  | succ year ih =>
      have step := yearLength_add year
      rw [daysBeforeYear, Nat.add_assoc year 1 99, Nat.add_assoc year 1 3, Nat.add_assoc year 1 399]
      generalize (year + 99) / 100 = centuries at *
      omega

/-- The same from the first of March on, the way a year with its leap day at the end has
it: without the day in front. -/
theorem daysBeforeYear_succ (year : Nat) :
    daysBeforeYear (year + 1) + year / 100 = 366 + 365 * year + year / 4 + year / 400 := by
  have closed := daysBeforeYear_closed (year + 1)
  rw [Nat.add_assoc year 1 99, Nat.add_assoc year 1 3, Nat.add_assoc year 1 399,
    Nat.add_div_right year (by decide), Nat.add_div_right year (by decide),
    Nat.add_div_right year (by decide)] at closed
  omega

/-- From March on the months are 31 and 30 days long in turns, 153 in five of them. -/
theorem daysBeforeMonth_closed {year month : Nat} (monthOk : 1 ≤ month ∧ month ≤ 12) :
    daysBeforeMonth year month =
      if 2 < month then (153 * (month - 3) + 2) / 5 + yearLength year - 306
      else 31 * (month - 1) := by
  obtain ⟨low, high⟩ := monthOk
  cases leap : isLeap year <;> interval_cases month <;>
    simp [daysBeforeMonth, monthLength, yearLength, leap]

theorem monthLength_le (year : Nat) (month : Nat) : monthLength year month ≤ 31 := by
  unfold monthLength
  split <;> (try split) <;> omega

theorem Date.day_le (date : Date) : date.day ≤ 31 :=
  date.dayOk.2.trans (monthLength_le date.year date.month)

theorem epoch_dayNumber : epoch.dayNumber = 719528 := by
  have years : ∀ year, year = 1970 → daysBeforeYear year = 719528 := by
    intro year here
    have closed := daysBeforeYear_closed year
    omega
  have start : daysBeforeYear epoch.year = 719528 := years epoch.year rfl
  rw [Date.dayNumber, start]
  rfl

end Blasthttp.Lib.Gregorian
