import Daybook.Calendar.Date

/-!
# Calendar — Gregorian days

The calendar days of the years 1 to 9999, and the weeks of the ISO calendar.  Week 1 of a year is the
week, from Monday to Sunday, that holds the year's first Thursday.

* `check_eq_none_iff`: the check refuses a date exactly if it is no calendar day.
-/

namespace Daybook.Calendar

/-- Whether a year has a leap day. -/
def isLeap (y : Int) : Bool := y % 4 == 0 && (y % 100 != 0 || y % 400 == 0)

/-- The lengths of the months of a year. -/
def monthLengths (y : Int) : List Nat :=
  [31, if isLeap y then 29 else 28, 31, 30, 31, 30, 31, 31, 30, 31, 30, 31]

/-- The length of a month, counted from one. -/
def monthLength (y m : Int) : Nat := if 1 ≤ m then (monthLengths y).getD (m - 1).toNat 0 else 0

/-- The length of a year. -/
def yearLength (y : Int) : Nat := if isLeap y then 366 else 365

/-- The last year of the calendar. -/
def maxYear : Int := 9999

/-- Whether a date is a day of the calendar. -/
def IsDay (d : Date) : Prop :=
  (1 ≤ d.year ∧ d.year ≤ maxYear) ∧ (1 ≤ d.month ∧ d.month ≤ 12) ∧
    (1 ≤ d.day ∧ d.day ≤ monthLength d.year d.month)

instance (d : Date) : Decidable (IsDay d) := inferInstanceAs (Decidable (_ ∧ _ ∧ _))

/-- Why a date is no day of the calendar: the year is judged first, then the month, then the day. -/
def check (d : Date) : Option DateError :=
  if ¬ (1 ≤ d.year ∧ d.year ≤ maxYear) then some (.year d.year)
  else if ¬ (1 ≤ d.month ∧ d.month ≤ 12) then some .month
  else if ¬ (1 ≤ d.day ∧ d.day ≤ monthLength d.year d.month) then some .day
  else none

theorem check_eq_none_iff (d : Date) : check d = none ↔ IsDay d := by
  simp only [check, IsDay]
  split
  · next h => simp [h]
  split
  · next h => simp [h]
  split
  · next h => simp [h]
  · simp_all

/-! ### Weeks -/

/-- The number of days before a year, counted from the first day of the year 1. -/
def daysBeforeYear (y : Int) : Int :=
  (y - 1) * 365 + (y - 1) / 4 - (y - 1) / 100 + (y - 1) / 400

/-- The weekday of the first of January, with Monday as zero. -/
def firstWeekday (y : Int) : Int := daysBeforeYear y % 7

/-- The Monday of week 1, as the number of days from the first of January, which may be negative. -/
def firstMonday (y : Int) : Int :=
  if firstWeekday y ≤ 3 then -firstWeekday y else 7 - firstWeekday y

/-- How many weeks the ISO calendar gives a year: 53 if the year begins on a Thursday, or on a Wednesday
and is a leap year. -/
def weeksInYear (y : Int) : Nat :=
  if firstWeekday y = 3 ∨ firstWeekday y = 2 ∧ isLeap y then 53 else 52

/-- Month and day of a day of a year, both counted from one; the day is counted from zero.  `m` is the
first of the months whose lengths are given. -/
def monthDay : List Nat → Nat → Nat → Nat × Nat
  | [], m, n => (m, n + 1)
  | l :: ls, m, n => if n < l then (m, n + 1) else monthDay ls (m + 1) (n - l)

/-- The date of a day of a year, the first of January being day zero. -/
def ofYearDay (y : Int) (n : Nat) : Date :=
  let (m, d) := monthDay (monthLengths y) 1 n
  ⟨y, m, d⟩

/-- The date that lies `n` days after the first of January, in the year or in a neighbouring one. -/
def ofOffset (y : Int) (n : Int) : Date :=
  if n < 0 then ofYearDay (y - 1) (n + yearLength (y - 1)).toNat
  else if n < yearLength y then ofYearDay y n.toNat
  else ofYearDay (y + 1) (n - yearLength y).toNat

/-- The date of a weekday, from Monday as 1 to Sunday as 7, of a week of a year. -/
def ofWeek (y : Int) (week weekday : Nat) : Date :=
  ofOffset y (firstMonday y + (((week : Int) - 1) * 7 + ((weekday : Int) - 1)))

end Daybook.Calendar
