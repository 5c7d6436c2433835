import Daybook.Calendar.Gregorian
import Mathlib.Algebra.BigOperators.Group.List.Basic
import Mathlib.Algebra.GroupWithZero.Nat

/-!
# Calendar — days in a row, and their weeks

The days of the calendar are counted from the first of January of the year 1, which is a Monday.  A week goes from
Monday to Sunday and belongs to the year of its Thursday, which need not be the year of each of its days.

* `yearDay`, `dayNumber`: the place of a day in its year, and in the calendar.
* `ofYearDay_yearDay`, `dayNumber_ofYearDay`: a day is found from its place in a year, and has it.
* `dayNumber_ofOffset`: so it is from its distance to the first of January of its own year or of one next to it.
* `weekday`, `isoYear`, `isoWeek`: the weekday of a day, and the year and the number of its week.
* `ofWeek_iso`, `iso_ofWeek`: **a day is found from its week, and is of that week**.
* `isoYear_mem`, `exists_monday`: the week of a day of the calendar is of a year of the calendar, and so is its Monday.
-/

namespace Daybook.Calendar

variable {d : Date} {y : Int}

/-! ### Days of a year -/

/-- A month and a day that a year has; the year may be any. -/
def IsYearDay (d : Date) : Prop :=
  (1 ≤ d.month ∧ d.month ≤ 12) ∧ 1 ≤ d.day ∧ d.day ≤ monthLength d.year d.month

/-- How many days of the year come before a date. -/
def yearDay (d : Date) : Int := ((monthLengths d.year).take (d.month - 1).toNat).sum + (d.day - 1)

theorem isDay_iff : IsDay d ↔ (1 ≤ d.year ∧ d.year ≤ maxYear) ∧ IsYearDay d := Iff.rfl

theorem length_monthLengths (y : Int) : (monthLengths y).length = 12 := rfl

theorem sum_monthLengths (y : Int) : (monthLengths y).sum = yearLength y := by
  simp only [monthLengths, yearLength]
  cases isLeap y <;> rfl

theorem monthLength_eq {m : Int} (h₁ : 1 ≤ m) (h₂ : m ≤ 12) :
    (monthLengths y)[(m - 1).toNat]? = some (monthLength y m) := by
  have hlt : (m - 1).toNat < (monthLengths y).length := by
    rw [length_monthLengths]
    omega
  rw [monthLength, if_pos h₁, List.getD_eq_getElem?_getD, List.getElem?_eq_getElem hlt]
  rfl

/-- The month and day at a place in the months whose lengths are given. -/
theorem monthDay_eq {ls : List Nat} {k l : Nat} (m i : Nat) (hk : ls[k]? = some l) (hi : i < l) :
    monthDay ls m ((ls.take k).sum + i) = (m + k, i + 1) := by
  induction ls generalizing m k with
  | nil => cases hk
  | cons l' ls ih =>
      cases k with
      | zero =>
          cases hk
          simp only [List.take_zero, List.sum_nil, Nat.zero_add]
          rw [monthDay, if_pos hi]
          rfl
      | succ k =>
          have hdrop : l' + (ls.take k).sum + i - l' = (ls.take k).sum + i := by omega
          rw [List.take_succ_cons, List.sum_cons, monthDay, if_neg (by omega), hdrop, ih (m + 1) hk]
          congr 1
          omega

/-- Each place in the months is that of a day of one of them. -/
theorem exists_place {ls : List Nat} {n : Nat} (h : n < ls.sum) :
    ∃ k l i, ls[k]? = some l ∧ i < l ∧ n = (ls.take k).sum + i := by
  induction ls generalizing n with
  | nil => cases h
  | cons l ls ih =>
      by_cases hl : n < l
      · exact ⟨0, l, n, rfl, hl, (Nat.zero_add n).symm⟩
      · rw [List.sum_cons] at h
        obtain ⟨k, l', i, hk, hi, hn⟩ := ih (n := n - l) (by omega)
        refine ⟨k + 1, l', i, hk, hi, ?_⟩
        rw [List.take_succ_cons, List.sum_cons]
        omega

/-- A month lies within the months. -/
theorem sum_take_add_le {ls : List Nat} {k l : Nat} (hk : ls[k]? = some l) : (ls.take k).sum + l ≤ ls.sum := by
  induction ls generalizing k with
  | nil => cases hk
  | cons l' ls ih =>
      cases k with
      | zero =>
          cases hk
          simp
      | succ k =>
          have := ih hk
          rw [List.take_succ_cons, List.sum_cons, List.sum_cons]
          omega

/-- A day is found from its place in its year. -/
theorem ofYearDay_yearDay (h : IsYearDay d) :
    ofYearDay d.year (yearDay d).toNat = d ∧ 0 ≤ yearDay d ∧ yearDay d < yearLength d.year := by
  obtain ⟨y, m, n⟩ := d
  obtain ⟨⟨hm₁, hm₂⟩, hn₁, hn₂⟩ := h
  dsimp only at hm₁ hm₂ hn₁ hn₂ ⊢
  have hget := monthLength_eq (y := y) hm₁ hm₂
  have hplace : yearDay ⟨y, m, n⟩ = ((monthLengths y).take (m - 1).toNat).sum + (n - 1) := rfl
  have hwithin := sum_take_add_le hget
  rw [sum_monthLengths] at hwithin
  refine ⟨?_, by omega, by omega⟩
  rw [ofYearDay, show (yearDay ⟨y, m, n⟩).toNat = ((monthLengths y).take (m - 1).toNat).sum + (n - 1).toNat by omega,
    monthDay_eq 1 _ hget (by omega)]
  simp only [Date.mk.injEq, true_and]
  omega

/-- A place in a year is that of a day. -/
theorem yearDay_ofYearDay {n : Nat} (h : n < yearLength y) :
    IsYearDay (ofYearDay y n) ∧ (ofYearDay y n).year = y ∧ yearDay (ofYearDay y n) = n := by
  rw [← sum_monthLengths] at h
  obtain ⟨k, l, i, hk, hi, rfl⟩ := exists_place h
  have hlt : k < 12 := by
    rw [← length_monthLengths y]
    exact (List.getElem?_eq_some_iff.1 hk).1
  have hfound : ofYearDay y (((monthLengths y).take k).sum + i) = ⟨y, k + 1, i + 1⟩ := by
    rw [ofYearDay, monthDay_eq 1 i hk hi, Nat.add_comm 1 k]
    rfl
  have hmonth : (k + 1 : Int) - 1 = k := by omega
  have hlength := monthLength_eq (y := y) (m := k + 1) (by omega) (by omega)
  rw [hmonth, Int.toNat_natCast, hk, Option.some_inj] at hlength
  rw [hfound]
  refine ⟨⟨⟨by dsimp only; omega, by dsimp only; omega⟩, ?_⟩, rfl, ?_⟩
  · dsimp only
    omega
  · simp only [yearDay]
    rw [hmonth, Int.toNat_natCast]
    omega

/-! ### Days in a row -/

/-- How many days of the calendar come before a date. -/
def dayNumber (d : Date) : Int := daysBeforeYear d.year + yearDay d

theorem daysBeforeYear_succ (y : Int) : daysBeforeYear (y + 1) = daysBeforeYear y + yearLength y := by
  have hleap : (yearLength y : Int) = if y % 4 = 0 ∧ (y % 100 ≠ 0 ∨ y % 400 = 0) then 366 else 365 := by
    simp only [yearLength, isLeap, Bool.and_eq_true, Bool.or_eq_true, beq_iff_eq, bne_iff_ne]
    split <;> rfl
  rw [hleap]
  simp only [daysBeforeYear]
  split <;> omega

theorem daysBeforeYear_mono {y z : Int} (h : y ≤ z) : daysBeforeYear y ≤ daysBeforeYear z := by
  simp only [daysBeforeYear]
  omega

/-- A day lies in its year. -/
theorem dayNumber_mem (h : IsYearDay d) :
    daysBeforeYear d.year ≤ dayNumber d ∧ dayNumber d < daysBeforeYear (d.year + 1) := by
  obtain ⟨-, hfirst, hlast⟩ := ofYearDay_yearDay h
  rw [daysBeforeYear_succ, dayNumber]
  omega

theorem dayNumber_ofYearDay {n : Nat} (h : n < yearLength y) :
    IsYearDay (ofYearDay y n) ∧ dayNumber (ofYearDay y n) = daysBeforeYear y + n := by
  obtain ⟨hday, hyear, hplace⟩ := yearDay_ofYearDay h
  rw [dayNumber, hyear, hplace]
  exact ⟨hday, rfl⟩

/-- Of two days in the same place one is the other. -/
theorem eq_of_dayNumber {e : Date} (hd : IsYearDay d) (he : IsYearDay e) (h : dayNumber d = dayNumber e) : d = e := by
  have hd' := dayNumber_mem hd
  have he' := dayNumber_mem he
  have hyear : d.year = e.year := by
    rcases Int.lt_trichotomy d.year e.year with hlt | heq | hlt
    · have := daysBeforeYear_mono (show d.year + 1 ≤ e.year from hlt)
      omega
    · exact heq
    · have := daysBeforeYear_mono (show e.year + 1 ≤ d.year from hlt)
      omega
  have hplace : yearDay d = yearDay e := by
    rw [dayNumber, dayNumber, hyear] at h
    omega
  rw [← (ofYearDay_yearDay hd).1, ← (ofYearDay_yearDay he).1, hyear, hplace]

/-- A distance to the first of January of a year that stays in this year and its neighbours is that of a day. -/
theorem dayNumber_ofOffset {n : Int} (h₁ : -yearLength (y - 1) ≤ n) (h₂ : n < yearLength y + yearLength (y + 1)) :
    IsYearDay (ofOffset y n) ∧ dayNumber (ofOffset y n) = daysBeforeYear y + n := by
  have hbefore := daysBeforeYear_succ (y - 1)
  rw [show y - 1 + 1 = y by omega] at hbefore
  have hafter := daysBeforeYear_succ y
  simp only [ofOffset]
  split
  · next hneg =>
      obtain ⟨hday, hnumber⟩ := dayNumber_ofYearDay (y := y - 1) (n := (n + yearLength (y - 1)).toNat) (by omega)
      exact ⟨hday, by omega⟩
  split
  · next hwithin =>
      obtain ⟨hday, hnumber⟩ := dayNumber_ofYearDay (y := y) (n := n.toNat) (by omega)
      exact ⟨hday, by omega⟩
  · next hover =>
      obtain ⟨hday, hnumber⟩ := dayNumber_ofYearDay (y := y + 1) (n := (n - yearLength y).toNat) (by omega)
      exact ⟨hday, by omega⟩

theorem yearLength_bounds (y : Int) : 365 ≤ yearLength y ∧ yearLength y ≤ 366 := by
  simp only [yearLength]
  split <;> omega

/-- The days of the calendar are those from the first of January of the year 1 to the last day of the last year. -/
theorem isDay_iff_dayNumber (h : IsYearDay d) :
    IsDay d ↔ 0 ≤ dayNumber d ∧ dayNumber d < daysBeforeYear (maxYear + 1) := by
  obtain ⟨hfirst, hlast⟩ := dayNumber_mem h
  have hstart : daysBeforeYear 1 = 0 := by decide
  rw [isDay_iff, and_iff_left h]
  constructor
  · rintro ⟨h₁, h₂⟩
    have := daysBeforeYear_mono h₁
    have := daysBeforeYear_mono (show d.year + 1 ≤ maxYear + 1 by omega)
    omega
  · rintro ⟨h₁, h₂⟩
    constructor
    · by_contra hlt
      have := daysBeforeYear_mono (show d.year + 1 ≤ 1 by omega)
      omega
    · by_contra hlt
      have := daysBeforeYear_mono (show maxYear + 1 ≤ d.year by omega)
      omega

/-! ### Weeks -/

/-- The weekday of a date, from Monday as 1 to Sunday as 7. -/
def weekday (d : Date) : Int := dayNumber d % 7 + 1

/-- The place of the Monday of the week of a date. -/
def monday (d : Date) : Int := dayNumber d - (weekday d - 1)

/-- The year of the week of a date, which is that of its Thursday. -/
def isoYear (d : Date) : Int :=
  if monday d + 3 < daysBeforeYear d.year then d.year - 1
  else if monday d + 3 < daysBeforeYear (d.year + 1) then d.year
  else d.year + 1

/-- The number of the week of a date in its year: how many Thursdays of the year it comes to. -/
def isoWeek (d : Date) : Int := (monday d + 3 - daysBeforeYear (isoYear d)) / 7 + 1

theorem weekday_bounds (d : Date) : 1 ≤ weekday d ∧ weekday d ≤ 7 := by
  simp only [weekday]
  omega

theorem monday_mod (d : Date) : monday d % 7 = 0 := by
  simp only [monday, weekday]
  omega

/-- The year of a week is that of its Thursday. -/
theorem thursday_mem (h : IsYearDay d) :
    daysBeforeYear (isoYear d) ≤ monday d + 3 ∧ monday d + 3 < daysBeforeYear (isoYear d + 1) := by
  obtain ⟨hfirst, hlast⟩ := dayNumber_mem h
  have hbefore := daysBeforeYear_succ (d.year - 1)
  rw [show d.year - 1 + 1 = d.year by omega] at hbefore
  have hafter := daysBeforeYear_succ (d.year + 1)
  have := yearLength_bounds (d.year - 1)
  have := yearLength_bounds (d.year + 1)
  have := weekday_bounds d
  have hmonday : monday d = dayNumber d - (weekday d - 1) := rfl
  simp only [isoYear]
  split
  · rw [show d.year - 1 + 1 = d.year by omega]
    omega
  split <;> omega

/-- The year of a week is determined by its Thursday. -/
theorem isoYear_eq (h : IsYearDay d) (h₁ : daysBeforeYear y ≤ monday d + 3)
    (h₂ : monday d + 3 < daysBeforeYear (y + 1)) : isoYear d = y := by
  obtain ⟨hfirst, hlast⟩ := thursday_mem h
  rcases Int.lt_trichotomy (isoYear d) y with hlt | heq | hlt
  · have := daysBeforeYear_mono (show isoYear d + 1 ≤ y from hlt)
    omega
  · exact heq
  · have := daysBeforeYear_mono (show y + 1 ≤ isoYear d from hlt)
    omega

theorem firstMonday_cases (y : Int) :
    firstWeekday y ≤ 3 ∧ firstMonday y = -firstWeekday y
      ∨ 3 < firstWeekday y ∧ firstMonday y = 7 - firstWeekday y := by
  by_cases h : firstWeekday y ≤ 3
  · exact .inl ⟨h, if_pos h⟩
  · exact .inr ⟨Int.not_le.1 h, if_neg h⟩

/-- Week 1 begins on a Monday, and its Thursday is among the first seven days of the year. -/
theorem firstMonday_eq (y : Int) :
    (daysBeforeYear y + firstMonday y) % 7 = 0 ∧ 0 ≤ firstMonday y + 3 ∧ firstMonday y + 3 ≤ 6 := by
  have hweekday : firstWeekday y = daysBeforeYear y % 7 := rfl
  have := firstMonday_cases y
  omega

/-- A year has as many weeks as Thursdays. -/
theorem le_weeksInYear_iff {y w : Int} :
    w ≤ weeksInYear y ↔ firstMonday y + (w - 1) * 7 + 3 < yearLength y := by
  have hweekday : firstWeekday y = daysBeforeYear y % 7 := rfl
  have := firstMonday_cases y
  simp only [weeksInYear, yearLength]
  cases hleap : isLeap y with
  | true =>
      simp only [and_true, if_true]
      split <;> omega
  | false =>
      simp only [Bool.false_eq_true, and_false, or_false, if_false]
      split <;> omega

/-- A weekday of a week of a year is a day, in its place. -/
theorem dayNumber_ofWeek {w k : Nat} (hw₁ : 1 ≤ w) (hw₂ : w ≤ weeksInYear y) (hk₁ : 1 ≤ k) (hk₂ : k ≤ 7) :
    IsYearDay (ofWeek y w k)
      ∧ dayNumber (ofWeek y w k) = daysBeforeYear y + firstMonday y + (w - 1) * 7 + (k - 1) := by
  have hmonday := firstMonday_eq y
  have hweeks := (le_weeksInYear_iff (y := y) (w := w)).1 (by omega)
  have := yearLength_bounds (y - 1)
  have := yearLength_bounds (y + 1)
  obtain ⟨hday, hnumber⟩ := dayNumber_ofOffset (y := y)
    (n := firstMonday y + (((w : Int) - 1) * 7 + ((k : Int) - 1))) (by omega) (by omega)
  exact ⟨hday, by rw [ofWeek, hnumber]; omega⟩

/-- **A weekday of a week is of that week.** -/
theorem iso_ofWeek {w k : Nat} (hw₁ : 1 ≤ w) (hw₂ : w ≤ weeksInYear y) (hk₁ : 1 ≤ k) (hk₂ : k ≤ 7) :
    isoYear (ofWeek y w k) = y ∧ isoWeek (ofWeek y w k) = w ∧ weekday (ofWeek y w k) = k := by
  obtain ⟨hday, hnumber⟩ := dayNumber_ofWeek hw₁ hw₂ hk₁ hk₂
  have hmonday := firstMonday_eq y
  have hweeks := (le_weeksInYear_iff (y := y) (w := w)).1 (by omega)
  have hsucc := daysBeforeYear_succ y
  have hweekday : weekday (ofWeek y w k) = k := by
    rw [weekday, hnumber]
    omega
  have hthursday : monday (ofWeek y w k) = daysBeforeYear y + firstMonday y + (w - 1) * 7 := by
    rw [monday, hweekday, hnumber]
    omega
  have hyear : isoYear (ofWeek y w k) = y := isoYear_eq hday (by omega) (by omega)
  refine ⟨hyear, ?_, hweekday⟩
  rw [isoWeek, hyear, hthursday]
  omega

/-- **A day is found from its week.** -/
theorem ofWeek_iso (h : IsYearDay d) :
    (1 ≤ isoWeek d ∧ isoWeek d ≤ weeksInYear (isoYear d))
      ∧ ofWeek (isoYear d) (isoWeek d).toNat (weekday d).toNat = d := by
  obtain ⟨hfirst, hlast⟩ := thursday_mem h
  have hmonday := firstMonday_eq (isoYear d)
  have hmod := monday_mod d
  have hk := weekday_bounds d
  have hsucc := daysBeforeYear_succ (isoYear d)
  have hweek : isoWeek d = (monday d + 3 - daysBeforeYear (isoYear d)) / 7 + 1 := rfl
  -- the Thursdays of the year are whole weeks apart
  have hplace : monday d = daysBeforeYear (isoYear d) + firstMonday (isoYear d) + (isoWeek d - 1) * 7 := by omega
  have hweeks : 1 ≤ isoWeek d ∧ isoWeek d ≤ weeksInYear (isoYear d) := by
    rw [le_weeksInYear_iff]
    omega
  refine ⟨hweeks, ?_⟩
  obtain ⟨hday, hnumber⟩ := dayNumber_ofWeek (y := isoYear d) (w := (isoWeek d).toNat) (k := (weekday d).toNat)
    (by omega) (by omega) (by omega) (by omega)
  refine eq_of_dayNumber hday h ?_
  have hnumber' : monday d = dayNumber d - (weekday d - 1) := rfl
  omega

/-- The week of a day of the calendar is of one of its years: the first of them begins on a Monday, and the last ends on
a Friday. -/
theorem isoYear_mem (h : IsDay d) : 1 ≤ isoYear d ∧ isoYear d ≤ maxYear := by
  obtain ⟨hfirst, hlast⟩ := (isDay_iff_dayNumber h.2).1 h
  obtain ⟨hthursday₁, hthursday₂⟩ := thursday_mem h.2
  have hmod := monday_mod d
  have := weekday_bounds d
  have hmonday : monday d = dayNumber d - (weekday d - 1) := rfl
  have hstart : daysBeforeYear 1 = 0 := by decide
  have hend : daysBeforeYear (maxYear + 1) = 3652059 := by decide
  constructor
  · by_contra hlt
    have := daysBeforeYear_mono (show isoYear d + 1 ≤ 1 by omega)
    omega
  · by_contra hlt
    have := daysBeforeYear_mono (show maxYear + 1 ≤ isoYear d by omega)
    omega

/-- The Monday of the week of a day of the calendar is a day of the calendar too. -/
theorem exists_monday (h : IsDay d) :
    ∃ m, (IsDay m ∧ dayNumber m = monday d) ∧ isoYear m = isoYear d ∧ isoWeek m = isoWeek d ∧ weekday m = 1 := by
  obtain ⟨⟨hweek₁, hweek₂⟩, hd⟩ := ofWeek_iso h.2
  have hk := weekday_bounds d
  obtain ⟨w, hw⟩ := Int.eq_ofNat_of_zero_le (show 0 ≤ isoWeek d by omega)
  rw [hw] at hweek₁ hweek₂ hd
  rw [Int.toNat_natCast] at hd
  obtain ⟨hday, hnumber⟩ := dayNumber_ofWeek (y := isoYear d) (w := w) (k := 1) (by omega) (by omega)
    (Nat.le_refl 1) (by omega)
  obtain ⟨-, hnumber'⟩ := dayNumber_ofWeek (y := isoYear d) (w := w) (k := (weekday d).toNat) (by omega) (by omega)
    (by omega) (by omega)
  rw [hd] at hnumber'
  have hmonday : monday d = dayNumber d - (weekday d - 1) := rfl
  have hplace : dayNumber (ofWeek (isoYear d) w 1) = monday d := by omega
  have hmod := monday_mod d
  obtain ⟨hfirst, hlast⟩ := (isDay_iff_dayNumber h.2).1 h
  rw [hw]
  exact ⟨_, ⟨(isDay_iff_dayNumber hday).2 (by omega), hplace⟩,
    iso_ofWeek (by omega) (by omega) (Nat.le_refl 1) (by omega)⟩

end Daybook.Calendar
