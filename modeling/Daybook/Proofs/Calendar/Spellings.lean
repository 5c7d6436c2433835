import Daybook.Calendar.Iso
import Daybook.Proofs.Calendar.Weeks
import Daybook.Proofs.Numerals
import Mathlib.Data.String.Basic

/-!
# Calendar — the spellings of a day

A day is written as a date or by its week, with hyphens or without; a week alone stands for its Monday.  A date is
taken off the front of a text, and only the length of the text says that it ends there.  It does not say so of ten bytes
without hyphens, which are one of the spellings of eight bytes and two bytes more.

* `dayForm`, `weekForm`, `mondayForm`, `Says`: the forms of a date, and what a text says that begins with one of them.
* `spelling?_eq_some_iff`: **a text is read as what it says**, if it has one of the lengths of a date.
* `Spells`, `Trails`: the spellings of a day, and the texts that have two bytes after one.
* `not_spells_of_trails`: no text is both.
* `read_eq_ok_iff`: a day is read from the texts that are one or the other.
* `Date.read_spellings`: **a day is read from all its spellings, and from nothing else if nothing trails**.
* `Date.read_trailing`: two letters after a date are not seen.
-/

namespace Daybook

namespace Calendar

open Text (filled)

variable {cs rest : List Char} {n v : Nat} {d : Date}

/-! ### Parts of a date -/

/-- A number of some digits is taken off a text that begins with its numeral, filled up with zeros. -/
theorem takeNumber_eq_some_iff (hn : 0 < n) :
    takeNumber n cs = some (v, rest) ↔ v < powerOfTen n ∧ cs = filled n v ++ rest := by
  constructor
  · intro h
    simp only [takeNumber] at h
    split at h
    · next hdigits =>
        obtain ⟨hlength, hdigits⟩ := hdigits
        cases h
        have hdigits : ∀ c ∈ cs.take n, c.isDigit = true := List.all_eq_true.1 hdigits
        have hne : cs.take n ≠ [] := by
          intro hnil
          rw [hnil] at hlength
          exact hn.ne hlength
        have hfilled := Text.eq_filled hne hdigits
        have hlt := Text.value_lt hdigits
        rw [hlength] at hfilled hlt
        exact ⟨hlt, by rw [← hfilled, List.take_append_drop]⟩
    · cases h
  · rintro ⟨hlt, rfl⟩
    have hlength := Text.length_filled hn hlt
    have hdigits : (filled n v).all Char.isDigit = true :=
      List.all_eq_true.2 fun c hc => Text.isDigit_of_mem_padded hc
    simp only [takeNumber]
    rw [List.take_left' hlength, List.drop_left' hlength, if_pos ⟨hlength, hdigits⟩, filled, Text.ofDigits_padded]

theorem takeNumber_filled (hn : 0 < n) (h : v < powerOfTen n) : takeNumber n (filled n v ++ rest) = some (v, rest) :=
  (takeNumber_eq_some_iff hn).2 ⟨h, rfl⟩

@[simp] theorem takeChar_cons (c : Char) (cs : List Char) : takeChar c (c :: cs) = some cs := if_pos rfl

theorem takeChar_eq_some_iff {c : Char} : takeChar c cs = some rest ↔ cs = c :: rest := by
  cases cs with
  | nil => exact ⟨nofun, nofun⟩
  | cons d cs =>
      simp only [takeChar]
      split
      · next h => rw [Option.some_inj, h, List.cons_inj_right]
      · next h => exact ⟨nofun, fun heq => absurd (List.cons.inj heq).1 h⟩

/-- A numeral does not begin with another character than a digit. -/
theorem takeChar_filled {c : Char} (hc : c.isDigit = false) : takeChar c (filled n v ++ rest) = none := by
  refine Option.eq_none_iff_forall_ne_some.2 fun rest' h => ?_
  rw [takeChar_eq_some_iff] at h
  obtain ⟨d, ds, hds⟩ := List.exists_cons_of_ne_nil (Text.padded_ne_nil (n - digitCount v) v)
  have hd : d.isDigit = true := Text.isDigit_of_mem_padded (hds ▸ List.mem_cons_self)
  rw [filled, hds] at h
  rw [(List.cons.inj h).1, hc] at hd
  cases hd

/-- A hyphen between two parts of a date, or nothing. -/
def hyphen (hyphens : Bool) : List Char := if hyphens then ['-'] else []

theorem takeHyphen_eq_some_iff {hyphens : Bool} : takeHyphen hyphens cs = some rest ↔ cs = hyphen hyphens ++ rest := by
  cases hyphens with
  | true => exact takeChar_eq_some_iff
  | false => exact Option.some_inj

theorem takeHyphen_append (hyphens : Bool) : takeHyphen hyphens (hyphen hyphens ++ rest) = some rest :=
  takeHyphen_eq_some_iff.2 rfl

/-- Whether a date is written with hyphens is seen after the year. -/
theorem isSome_takeChar_hyphen (hyphens : Bool) (rest : List Char) (h : takeChar '-' rest = none) :
    (takeChar '-' (hyphen hyphens ++ rest)).isSome = hyphens := by
  cases hyphens with
  | true => rfl
  | false => exact congrArg Option.isSome h

/-! ### What a text says -/

/-- A date by its year, month and day. -/
def dayForm (hyphens : Bool) (y m d : Nat) : List Char :=
  filled 4 y ++ (hyphen hyphens ++ (filled 2 m ++ (hyphen hyphens ++ filled 2 d)))

/-- A date by its year, week and weekday. -/
def weekForm (hyphens : Bool) (y w k : Nat) : List Char :=
  filled 4 y ++ (hyphen hyphens ++ 'W' :: (filled 2 w ++ (hyphen hyphens ++ filled 1 k)))

/-- A week of a year. -/
def mondayForm (hyphens : Bool) (y w : Nat) : List Char :=
  filled 4 y ++ (hyphen hyphens ++ 'W' :: filled 2 w)

/-- A text begins with what it says; it ends with a week that stands without a weekday. -/
inductive Says : List Char → Spelling → Prop
  | day (hyphens : Bool) {y m d : Nat} (rest : List Char) (hy : y < powerOfTen 4) (hm : m < powerOfTen 2)
      (hd : d < powerOfTen 2) : Says (dayForm hyphens y m d ++ rest) (.day y m d)
  | week (hyphens : Bool) {y w k : Nat} (rest : List Char) (hy : y < powerOfTen 4) (hw : w < powerOfTen 2)
      (hk : k < powerOfTen 1) : Says (weekForm hyphens y w k ++ rest) (.week y w k)
  | monday (hyphens : Bool) {y w : Nat} (hy : y < powerOfTen 4) (hw : w < powerOfTen 2) :
      Says (mondayForm hyphens y w) (.week y w 1)

/-- What is read begins the text, which has one of the lengths of a date. -/
theorem says_of_spelling? {s : String} {sp : Spelling} (h : spelling? s = some sp) :
    s.utf8ByteSize ∈ spellingLengths ∧ Says s.toList sp := by
  simp only [spelling?] at h
  split at h
  · cases h
  next hlength =>
  refine ⟨by simpa using hlength, ?_⟩
  obtain ⟨⟨y, cs⟩, hyear, h⟩ := Option.bind_eq_some_iff.1 h
  obtain ⟨hy, hs⟩ := (takeNumber_eq_some_iff (by decide)).1 hyear
  dsimp only at h
  obtain ⟨cs', hhyphen, h⟩ := Option.bind_eq_some_iff.1 h
  generalize (takeChar '-' cs).isSome = hyphens at hhyphen h
  rw [takeHyphen_eq_some_iff] at hhyphen
  split at h
  · next cs'' hletter =>
      rw [takeChar_eq_some_iff] at hletter
      obtain ⟨⟨w, rest⟩, hweek, h⟩ := Option.bind_eq_some_iff.1 h
      obtain ⟨hw, hweek⟩ := (takeNumber_eq_some_iff (by decide)).1 hweek
      dsimp only at h
      split at h
      · next hempty =>
          rw [List.isEmpty_iff] at hempty
          cases h
          rw [hs, hhyphen, hletter, hweek, hempty, List.append_nil]
          exact .monday hyphens hy hw
      · obtain ⟨rest', hhyphen', h⟩ := Option.bind_eq_some_iff.1 h
        rw [takeHyphen_eq_some_iff] at hhyphen'
        obtain ⟨⟨k, rest''⟩, hday, h⟩ := Option.bind_eq_some_iff.1 h
        obtain ⟨hk, hday⟩ := (takeNumber_eq_some_iff (by decide)).1 hday
        cases h
        rw [hs, hhyphen, hletter, hweek, hhyphen', hday]
        have hsaid := Says.week hyphens rest'' hy hw hk
        simpa only [weekForm, List.append_assoc, List.cons_append] using hsaid
  · obtain ⟨⟨m, rest⟩, hmonth, h⟩ := Option.bind_eq_some_iff.1 h
    obtain ⟨hm, hmonth⟩ := (takeNumber_eq_some_iff (by decide)).1 hmonth
    dsimp only at h
    obtain ⟨rest', hhyphen', h⟩ := Option.bind_eq_some_iff.1 h
    rw [takeHyphen_eq_some_iff] at hhyphen'
    obtain ⟨⟨d, rest''⟩, hday, h⟩ := Option.bind_eq_some_iff.1 h
    obtain ⟨hd, hday⟩ := (takeNumber_eq_some_iff (by decide)).1 hday
    cases h
    rw [hs, hhyphen, hmonth, hhyphen', hday]
    have hsaid := Says.day hyphens rest'' hy hm hd
    simpa only [dayForm, List.append_assoc] using hsaid

/-- A text of a length of a date is read as what it says. -/
theorem spelling?_of_said {s : String} {sp : Spelling} (hlength : s.utf8ByteSize ∈ spellingLengths)
    (h : Says s.toList sp) : spelling? s = some sp := by
  have hcontains : (!spellingLengths.contains s.utf8ByteSize) = false := by simpa using hlength
  simp only [spelling?, hcontains, Bool.false_eq_true, if_false, Option.bind_eq_bind]
  generalize s.toList = cs at h
  have four : 0 < 4 := by decide
  have two : 0 < 2 := by decide
  cases h with
  | @day hyphens y m d rest hy hm hd =>
      have hhyphens := isSome_takeChar_hyphen hyphens (filled 2 m ++ (hyphen hyphens ++ (filled 2 d ++ rest)))
        (takeChar_filled rfl)
      have hletter : takeChar 'W' (filled 2 m ++ (hyphen hyphens ++ (filled 2 d ++ rest))) = none := takeChar_filled rfl
      simp only [dayForm, List.append_assoc, takeNumber_filled four hy, Option.bind_some, hhyphens, takeHyphen_append,
        hletter, takeNumber_filled two hm, takeNumber_filled two hd]
  | @week hyphens y w k rest hy hw hk =>
      have hhyphens := isSome_takeChar_hyphen hyphens ('W' :: (filled 2 w ++ (hyphen hyphens ++ (filled 1 k ++ rest))))
        rfl
      have hne : (hyphen hyphens ++ (filled 1 k ++ rest)).isEmpty = false := by
        rw [List.isEmpty_eq_false_iff]
        exact List.append_ne_nil_of_right_ne_nil _ (List.append_ne_nil_of_left_ne_nil (Text.padded_ne_nil _ _) _)
      simp only [weekForm, List.append_assoc, List.cons_append, takeNumber_filled four hy, Option.bind_some, hhyphens,
        takeHyphen_append, takeChar_cons, takeNumber_filled two hw, hne, takeNumber_filled Nat.one_pos hk,
        Bool.false_eq_true, if_false]
  | @monday hyphens y w hy hw =>
      have hhyphens := isSome_takeChar_hyphen hyphens ('W' :: filled 2 w) rfl
      have hweek : takeNumber 2 (filled 2 w) = some (w, []) :=
        (takeNumber_eq_some_iff two).2 ⟨hw, (List.append_nil _).symm⟩
      simp only [mondayForm, takeNumber_filled four hy, Option.bind_some, hhyphens, takeHyphen_append, takeChar_cons,
        hweek, List.isEmpty_nil, if_true]

/-- **A text is read as what it says**, if it has one of the lengths of a date. -/
theorem spelling?_eq_some_iff {s : String} {sp : Spelling} :
    spelling? s = some sp ↔ s.utf8ByteSize ∈ spellingLengths ∧ Says s.toList sp :=
  ⟨says_of_spelling?, fun h => spelling?_of_said h.1 h.2⟩

/-! ### Lengths -/

theorem utf8Len_of_isDigit {cs : List Char} (h : ∀ c ∈ cs, c.isDigit = true) : String.utf8Len cs = cs.length := by
  induction cs with
  | nil => rfl
  | cons c cs ih =>
      have hc : c.utf8Size = 1 := by
        have hdigit := h c List.mem_cons_self
        simp only [Char.isDigit, Bool.and_eq_true, decide_eq_true_eq] at hdigit
        exact Char.utf8Size_eq_one_iff.2 (UInt32.le_trans hdigit.2 (by decide))
      rw [String.utf8Len_cons, ih fun d hd => h d (List.mem_cons_of_mem _ hd), hc, List.length_cons]

theorem utf8Len_filled (hn : 0 < n) (h : v < powerOfTen n) : String.utf8Len (filled n v) = n :=
  (utf8Len_of_isDigit fun _ hc => Text.isDigit_of_mem_padded hc).trans (Text.length_filled hn h)

theorem utf8Len_hyphen (hyphens : Bool) : String.utf8Len (hyphen hyphens) = hyphens.toNat := by
  cases hyphens <;> decide

theorem utf8Len_letter (cs : List Char) : String.utf8Len ('W' :: cs) = String.utf8Len cs + 1 := rfl

theorem utf8Len_dayForm (hyphens : Bool) {y m d : Nat} (hy : y < powerOfTen 4) (hm : m < powerOfTen 2)
    (hd : d < powerOfTen 2) : String.utf8Len (dayForm hyphens y m d) = 8 + 2 * hyphens.toNat := by
  simp only [dayForm, String.utf8Len_append, utf8Len_hyphen, utf8Len_filled (by decide : 0 < 4) hy,
    utf8Len_filled (by decide : 0 < 2) hm, utf8Len_filled (by decide : 0 < 2) hd]
  omega

theorem utf8Len_weekForm (hyphens : Bool) {y w k : Nat} (hy : y < powerOfTen 4) (hw : w < powerOfTen 2)
    (hk : k < powerOfTen 1) : String.utf8Len (weekForm hyphens y w k) = 8 + 2 * hyphens.toNat := by
  simp only [weekForm, String.utf8Len_append, utf8Len_letter, utf8Len_hyphen, utf8Len_filled (by decide : 0 < 4) hy,
    utf8Len_filled (by decide : 0 < 2) hw, utf8Len_filled Nat.one_pos hk]
  omega

theorem utf8Len_mondayForm (hyphens : Bool) {y w : Nat} (hy : y < powerOfTen 4) (hw : w < powerOfTen 2) :
    String.utf8Len (mondayForm hyphens y w) = 7 + hyphens.toNat := by
  simp only [mondayForm, String.utf8Len_append, utf8Len_letter, utf8Len_hyphen, utf8Len_filled (by decide : 0 < 4) hy,
    utf8Len_filled (by decide : 0 < 2) hw]
  omega

theorem mem_spellingLengths {k : Nat} : k ∈ spellingLengths ↔ k = 7 ∨ k = 8 ∨ k = 10 := by
  simp [spellingLengths]

/-! ### Spellings of a day -/

/-- What says the year, month and day of a date, or the year and number of its week and its weekday. -/
def Spelling.Of (d : Date) : Spelling → Prop
  | .day y m n => y = d.year ∧ m = d.month ∧ n = d.day
  | .week y w k => y = isoYear d ∧ w = isoWeek d ∧ k = weekday d

theorem of_day_iff {y m n : Nat} : (Spelling.day y m n).Of d ↔ (⟨y, m, n⟩ : Date) = d := by
  obtain ⟨y', m', n'⟩ := d
  simp only [Spelling.Of, Date.mk.injEq]

/-- A week is that of a day if the year has the week and the day is found from it. -/
theorem of_week_iff {y w k : Nat} (h : IsYearDay d) :
    (Spelling.week y w k).Of d ↔ (1 ≤ w ∧ w ≤ weeksInYear y ∧ 1 ≤ k ∧ k ≤ 7) ∧ ofWeek y w k = d := by
  constructor
  · rintro ⟨hy, hw, hk⟩
    obtain ⟨⟨hweek₁, hweek₂⟩, hd⟩ := ofWeek_iso h
    obtain ⟨hk₁, hk₂⟩ := weekday_bounds d
    rw [← hw, ← hk, ← hy, Int.toNat_natCast, Int.toNat_natCast] at hd
    rw [← hy] at hweek₂
    exact ⟨by omega, hd⟩
  · rintro ⟨⟨hw₁, hw₂, hk₁, hk₂⟩, rfl⟩
    obtain ⟨hy, hw, hk⟩ := iso_ofWeek hw₁ hw₂ hk₁ hk₂
    exact ⟨hy.symm, hw.symm, hk.symm⟩

theorem checkWeekDay_eq_none_iff (d : Date) : checkWeekDay d = none ↔ 1 ≤ d.year ∧ d.year ≤ maxYear := by
  simp only [checkWeekDay]
  split
  · next h => exact ⟨nofun, fun h' => by omega⟩
  split
  · next h => exact ⟨nofun, fun h' => by omega⟩
  · next h₁ h₂ => exact ⟨fun _ => by omega, fun _ => rfl⟩

/-- A text is read as a day of the calendar that it says. -/
theorem read_eq_ok_iff_of {s : String} :
    Date.read s = .ok d ↔ IsDay d ∧ ∃ sp, spelling? s = some sp ∧ sp.Of d := by
  simp only [Date.read]
  split
  · next hsp =>
      rw [hsp]
      exact ⟨nofun, nofun⟩
  · next y m n hsp =>
      rw [hsp]
      simp only [Option.some_inj, exists_eq_left', of_day_iff]
      split
      · next e hcheck =>
          refine ⟨nofun, fun h => ?_⟩
          rw [h.2, (check_eq_none_iff d).2 h.1] at hcheck
          cases hcheck
      · next hcheck =>
          rw [check_eq_none_iff] at hcheck
          rw [Except.ok.injEq]
          exact ⟨fun h => ⟨h ▸ hcheck, h⟩, fun h => h.2⟩
  · next y w k hsp =>
      rw [hsp]
      simp only [Option.some_inj, exists_eq_left']
      split
      · next hweek =>
          obtain ⟨hday, -⟩ := dayNumber_ofWeek hweek.1 hweek.2.1 hweek.2.2.1 hweek.2.2.2
          split
          · next e hcheck =>
              refine ⟨nofun, fun ⟨hd, hof⟩ => ?_⟩
              rw [((of_week_iff hd.2).1 hof).2, (checkWeekDay_eq_none_iff d).2 hd.1] at hcheck
              cases hcheck
          · next hcheck =>
              rw [checkWeekDay_eq_none_iff] at hcheck
              rw [Except.ok.injEq]
              constructor
              · rintro rfl
                exact ⟨⟨hcheck, hday⟩, (of_week_iff hday).2 ⟨hweek, rfl⟩⟩
              · rintro ⟨hd, hof⟩
                exact ((of_week_iff hd.2).1 hof).2
      · next hweek =>
          refine ⟨nofun, fun ⟨hd, hof⟩ => ?_⟩
          exact absurd ((of_week_iff hd.2).1 hof).1 hweek

/-- The date of a day. -/
def dateOf (hyphens : Bool) (d : Date) : List Char := dayForm hyphens d.year.toNat d.month.toNat d.day.toNat

/-- The week of a day, and its weekday. -/
def weekOf (hyphens : Bool) (d : Date) : List Char :=
  weekForm hyphens (isoYear d).toNat (isoWeek d).toNat (weekday d).toNat

/-- The week of a day alone, which stands for its Monday. -/
def mondayOf (hyphens : Bool) (d : Date) : List Char := mondayForm hyphens (isoYear d).toNat (isoWeek d).toNat

/-- The spellings of a day. -/
inductive Spells (d : Date) : List Char → Prop
  | date (hyphens : Bool) : Spells d (dateOf hyphens d)
  | week (hyphens : Bool) : Spells d (weekOf hyphens d)
  | monday (hyphens : Bool) (h : weekday d = 1) : Spells d (mondayOf hyphens d)

/-- A spelling of a day without hyphens, and two bytes after it. -/
def Trails (d : Date) (cs : List Char) : Prop :=
  ∃ rest, String.utf8Len rest = 2 ∧ (cs = dateOf false d ++ rest ∨ cs = weekOf false d ++ rest)

/-- What comes after a spelling that ends in a day or a weekday: nothing, or two bytes if it has no hyphens. -/
theorem rest_cases {form : List Char} {hyphens : Bool} (hform : String.utf8Len form = 8 + 2 * hyphens.toNat)
    (h : String.utf8Len (form ++ rest) ∈ spellingLengths) :
    rest = [] ∨ hyphens = false ∧ String.utf8Len rest = 2 := by
  rw [String.utf8Len_append, hform, mem_spellingLengths] at h
  rw [← String.utf8Len_eq_zero]
  cases hyphens with
  | true => exact .inl (by simp only [Bool.toNat_true] at h; omega)
  | false => simp only [Bool.toNat_false, true_and] at h ⊢; omega

/-- What a text says of a day is a spelling of the day, if it has one of the lengths of a date, or a spelling with two
bytes after it. -/
theorem Says.spells {s : String} {sp : Spelling} (hlength : s.utf8ByteSize ∈ spellingLengths)
    (h : Says s.toList sp) (hof : sp.Of d) : Spells d s.toList ∨ Trails d s.toList := by
  rw [← String.utf8Len_toList] at hlength
  generalize s.toList = cs at h hlength
  cases h with
  | @day hyphens y m n rest hy hm hd =>
      obtain ⟨hyear, hmonth, hday⟩ := hof
      have hform : dayForm hyphens y m n = dateOf hyphens d := by
        rw [dateOf, ← hyear, ← hmonth, ← hday, Int.toNat_natCast, Int.toNat_natCast, Int.toNat_natCast]
      rcases rest_cases (utf8Len_dayForm hyphens hy hm hd) hlength with rfl | ⟨rfl, hrest⟩
      · rw [List.append_nil, hform]
        exact .inl (.date hyphens)
      · rw [hform]
        exact .inr ⟨rest, hrest, .inl rfl⟩
  | @week hyphens y w k rest hy hw hk =>
      obtain ⟨hyear, hweek, hday⟩ := hof
      have hform : weekForm hyphens y w k = weekOf hyphens d := by
        rw [weekOf, ← hyear, ← hweek, ← hday, Int.toNat_natCast, Int.toNat_natCast, Int.toNat_natCast]
      rcases rest_cases (utf8Len_weekForm hyphens hy hw hk) hlength with rfl | ⟨rfl, hrest⟩
      · rw [List.append_nil, hform]
        exact .inl (.week hyphens)
      · rw [hform]
        exact .inr ⟨rest, hrest, .inr rfl⟩
  | @monday hyphens y w hy hw =>
      obtain ⟨hyear, hweek, hday⟩ := hof
      have hform : mondayForm hyphens y w = mondayOf hyphens d := by
        rw [mondayOf, ← hyear, ← hweek, Int.toNat_natCast, Int.toNat_natCast]
      rw [hform]
      exact .inl (.monday hyphens hday.symm)

/-- A year of the calendar has four digits. -/
theorem year_toNat_lt {y : Int} (h : 1 ≤ y ∧ y ≤ maxYear) : y.toNat < powerOfTen 4 := by
  have hmax : maxYear = 9999 := rfl
  exact Nat.lt_of_le_of_lt (by omega : _ ≤ 9999) (by decide)

theorem monthLength_le (y m : Int) : monthLength y m ≤ 31 := by
  have hle : ∀ l ∈ monthLengths y, l ≤ 31 := by
    simp only [monthLengths]
    cases isLeap y <;> decide
  simp only [monthLength]
  split
  · rw [List.getD_eq_getElem?_getD]
    cases hget : (monthLengths y)[(m - 1).toNat]? with
    | none => exact Nat.zero_le _
    | some l => exact hle l (List.mem_of_getElem? hget)
  · exact Nat.zero_le _

/-- The date of a day says the day. -/
theorem says_dateOf (h : IsDay d) (hyphens : Bool) (rest : List Char) :
    (∃ sp, Says (dateOf hyphens d ++ rest) sp ∧ sp.Of d)
      ∧ String.utf8Len (dateOf hyphens d) = 8 + 2 * hyphens.toNat := by
  obtain ⟨⟨hy₁, hy₂⟩, ⟨hm₁, hm₂⟩, hd₁, hd₂⟩ := h
  have := monthLength_le d.year d.month
  have hy := year_toNat_lt ⟨hy₁, hy₂⟩
  have hm : d.month.toNat < powerOfTen 2 := Nat.lt_of_le_of_lt (by omega : _ ≤ 12) (by decide)
  have hd : d.day.toNat < powerOfTen 2 := Nat.lt_of_le_of_lt (by omega : _ ≤ 31) (by decide)
  exact ⟨⟨_, .day hyphens rest hy hm hd, by omega, by omega, by omega⟩, utf8Len_dayForm hyphens hy hm hd⟩

theorem weeksInYear_le (y : Int) : weeksInYear y ≤ 53 := by
  simp only [weeksInYear]
  split <;> decide

theorem isoWeek_toNat_lt (h : IsDay d) : (isoWeek d).toNat < powerOfTen 2 := by
  obtain ⟨⟨hw₁, hw₂⟩, -⟩ := ofWeek_iso h.2
  have := weeksInYear_le (isoYear d)
  exact Nat.lt_of_le_of_lt (by omega : _ ≤ 53) (by decide)

/-- What says the week of a day says the day. -/
theorem of_week_iso (h : IsDay d) : (Spelling.week (isoYear d).toNat (isoWeek d).toNat (weekday d).toNat).Of d := by
  have hyear := isoYear_mem h
  obtain ⟨hweek, -⟩ := ofWeek_iso h.2
  have hweekday := weekday_bounds d
  exact ⟨by omega, by omega, by omega⟩

/-- The week of a day says the day. -/
theorem says_weekOf (h : IsDay d) (hyphens : Bool) (rest : List Char) :
    (∃ sp, Says (weekOf hyphens d ++ rest) sp ∧ sp.Of d)
      ∧ String.utf8Len (weekOf hyphens d) = 8 + 2 * hyphens.toNat := by
  have hweekday := weekday_bounds d
  have hk : (weekday d).toNat < powerOfTen 1 := Nat.lt_of_le_of_lt (by omega : _ ≤ 7) (by decide)
  exact ⟨⟨_, .week hyphens rest (year_toNat_lt (isoYear_mem h)) (isoWeek_toNat_lt h) hk, of_week_iso h⟩,
    utf8Len_weekForm hyphens (year_toNat_lt (isoYear_mem h)) (isoWeek_toNat_lt h) hk⟩

/-- The week of a Monday says the Monday. -/
theorem says_mondayOf (h : IsDay d) (hyphens : Bool) (hmonday : weekday d = 1) :
    (∃ sp, Says (mondayOf hyphens d) sp ∧ sp.Of d) ∧ String.utf8Len (mondayOf hyphens d) = 7 + hyphens.toNat := by
  have hof := of_week_iso h
  rw [hmonday] at hof
  exact ⟨⟨_, .monday hyphens (year_toNat_lt (isoYear_mem h)) (isoWeek_toNat_lt h), hof⟩,
    utf8Len_mondayForm hyphens (year_toNat_lt (isoYear_mem h)) (isoWeek_toNat_lt h)⟩

/-- A day is read of a text that says it and has one of the lengths of a date. -/
theorem read_of_said {s : String} (h : IsDay d) (hsaid : ∃ sp, Says s.toList sp ∧ sp.Of d)
    (hlength : String.utf8Len s.toList ∈ spellingLengths) : Date.read s = .ok d := by
  obtain ⟨sp, hsaid, hof⟩ := hsaid
  rw [String.utf8Len_toList] at hlength
  exact read_eq_ok_iff_of.2 ⟨h, sp, spelling?_eq_some_iff.2 ⟨hlength, hsaid⟩, hof⟩

/-- A day is read from each of its spellings. -/
theorem read_of_spells {s : String} (h : IsDay d) (hspells : Spells d s.toList) : Date.read s = .ok d := by
  have hmem : ∀ {hyphens : Bool}, 8 + 2 * hyphens.toNat ∈ spellingLengths := fun {hyphens} => by
    cases hyphens <;> decide
  generalize hs : s.toList = cs at hspells
  cases hspells with
  | date hyphens =>
      obtain ⟨hsaid, hlength⟩ := says_dateOf h hyphens []
      rw [List.append_nil] at hsaid
      exact read_of_said h (hs ▸ hsaid) (hs ▸ hlength ▸ hmem)
  | week hyphens =>
      obtain ⟨hsaid, hlength⟩ := says_weekOf h hyphens []
      rw [List.append_nil] at hsaid
      exact read_of_said h (hs ▸ hsaid) (hs ▸ hlength ▸ hmem)
  | monday hyphens hmonday =>
      obtain ⟨hsaid, hlength⟩ := says_mondayOf h hyphens hmonday
      refine read_of_said h (hs ▸ hsaid) (hs ▸ hlength ▸ ?_)
      cases hyphens <;> decide

/-- A day is read from a spelling without hyphens also if two bytes come after it. -/
theorem read_of_trails {s : String} (h : IsDay d) (htrails : Trails d s.toList) : Date.read s = .ok d := by
  obtain ⟨rest, hrest, hs | hs⟩ := htrails
  · obtain ⟨hsaid, hlength⟩ := says_dateOf h false rest
    refine read_of_said h (hs ▸ hsaid) ?_
    rw [hs, String.utf8Len_append, hlength, hrest]
    decide
  · obtain ⟨hsaid, hlength⟩ := says_weekOf h false rest
    refine read_of_said h (hs ▸ hsaid) ?_
    rw [hs, String.utf8Len_append, hlength, hrest]
    decide

/-- The texts that are read as a day are its spellings, and those without hyphens with two bytes after them. -/
theorem read_eq_ok_iff {s : String} :
    Date.read s = .ok d ↔ IsDay d ∧ (Spells d s.toList ∨ Trails d s.toList) := by
  constructor
  · intro hread
    obtain ⟨h, sp, hsp, hof⟩ := read_eq_ok_iff_of.1 hread
    obtain ⟨hlength, hsaid⟩ := spelling?_eq_some_iff.1 hsp
    exact ⟨h, hsaid.spells hlength hof⟩
  · rintro ⟨h, hspells | htrails⟩
    · exact read_of_spells h hspells
    · exact read_of_trails h htrails

/-! ### Spellings and other texts -/

/-- Whether a date is written with hyphens is seen after its first four characters. -/
theorem takeChar_drop_year {hyphens : Bool} {y : Nat} (hy : y < powerOfTen 4) (h : takeChar '-' rest = none) :
    (takeChar '-' ((filled 4 y ++ (hyphen hyphens ++ rest)).drop 4)).isSome = hyphens := by
  rw [List.drop_left' (Text.length_filled (by decide) hy)]
  exact isSome_takeChar_hyphen hyphens rest h

theorem takeChar_drop_dateOf (h : IsDay d) (hyphens : Bool) (rest : List Char) :
    (takeChar '-' ((dateOf hyphens d ++ rest).drop 4)).isSome = hyphens := by
  simp only [dateOf, dayForm, List.append_assoc]
  exact takeChar_drop_year (year_toNat_lt h.1) (takeChar_filled rfl)

theorem takeChar_drop_weekOf (h : IsDay d) (hyphens : Bool) (rest : List Char) :
    (takeChar '-' ((weekOf hyphens d ++ rest).drop 4)).isSome = hyphens := by
  simp only [weekOf, weekForm, List.append_assoc, List.cons_append]
  exact takeChar_drop_year (year_toNat_lt (isoYear_mem h)) rfl

/-- A spelling with two bytes after it is no spelling: those of ten bytes have hyphens. -/
theorem not_spells_of_trails {e : Date} (hd : IsDay d) (he : IsDay e) (htrails : Trails d cs) : ¬Spells e cs := by
  obtain ⟨hseen, hlength⟩ : (takeChar '-' (cs.drop 4)).isSome = false ∧ String.utf8Len cs = 10 := by
    obtain ⟨rest, hrest, rfl | rfl⟩ := htrails
    · rw [String.utf8Len_append, (says_dateOf hd false rest).2, hrest]
      exact ⟨takeChar_drop_dateOf hd false rest, rfl⟩
    · rw [String.utf8Len_append, (says_weekOf hd false rest).2, hrest]
      exact ⟨takeChar_drop_weekOf hd false rest, rfl⟩
  intro hspells
  cases hspells with
  | date hyphens =>
      have hseen' := takeChar_drop_dateOf he hyphens []
      rw [List.append_nil, hseen] at hseen'
      rw [(says_dateOf he hyphens []).2, ← hseen'] at hlength
      cases hlength
  | week hyphens =>
      have hseen' := takeChar_drop_weekOf he hyphens []
      rw [List.append_nil, hseen] at hseen'
      rw [(says_weekOf he hyphens []).2, ← hseen'] at hlength
      cases hlength
  | monday hyphens hmonday =>
      rw [(says_mondayOf he hyphens hmonday).2] at hlength
      cases hyphens <;> cases hlength

/-- The week of a day alone is read as its Monday. -/
theorem read_mondayOf (h : IsDay d) (hyphens : Bool) :
    ∃ m, (IsDay m ∧ dayNumber m = monday d) ∧ Date.read (String.ofList (mondayOf hyphens d)) = .ok m := by
  obtain ⟨m, hm, hyear, hweek, hmonday⟩ := exists_monday h
  refine ⟨m, hm, read_of_spells hm.1 ?_⟩
  rw [String.toList_ofList, mondayOf, ← hyear, ← hweek]
  exact .monday hyphens hmonday

theorem toList_zeroPadded {width : Nat} {n : Int} (h : 0 ≤ n) :
    (Text.zeroPadded width n).toList = filled width n.toNat := by
  rw [Text.zeroPadded_of_nonneg h, String.toList_ofList, show n.natAbs = n.toNat by omega]
  rfl

/-- A day is written as its date with hyphens. -/
theorem toList_toString (h : IsDay d) : d.toString.toList = dateOf true d := by
  obtain ⟨⟨hy, -⟩, ⟨hm, -⟩, hd, -⟩ := h
  simp only [Date.toString, String.toList_append, toList_zeroPadded (show 0 ≤ d.year by omega),
    toList_zeroPadded (show 0 ≤ d.month by omega), toList_zeroPadded (show 0 ≤ d.day by omega), List.append_assoc]
  rfl

end Calendar

open Calendar

/-- **A day is read from all its spellings, and nothing else is read except a spelling without hyphens with two bytes
after it.**  The spellings are the date as it is written and without hyphens, and the week with the weekday, with and
without hyphens.  A week without a weekday is read as its Monday. -/
theorem Date.read_spellings (s : String) :
    ((∀ d, read s = .ok d ↔ IsDay d ∧ Spells d s.toList) ↔ ¬∃ d, IsDay d ∧ Trails d s.toList)
      ∧ (∀ d, read s = .ok d ↔ IsDay d ∧ (Spells d s.toList ∨ Trails d s.toList))
      ∧ ∀ d, IsDay d → d.toString = String.ofList (dateOf true d) ∧ ∀ hyphens,
          read (String.ofList (dateOf hyphens d)) = .ok d
          ∧ read (String.ofList (weekOf hyphens d)) = .ok d
          ∧ ∃ m, (IsDay m ∧ dayNumber m = monday d) ∧ read (String.ofList (mondayOf hyphens d)) = .ok m := by
  refine ⟨⟨?_, ?_⟩, fun d => read_eq_ok_iff, fun d h => ⟨?_, fun hyphens => ⟨?_, ?_, read_mondayOf h hyphens⟩⟩⟩
  · rintro hexact ⟨d, h, htrails⟩
    obtain ⟨-, hspells⟩ := (hexact d).1 (read_of_trails h htrails)
    exact not_spells_of_trails h h htrails hspells
  · intro htrails d
    rw [read_eq_ok_iff]
    constructor
    · rintro ⟨h, hspells | htrails'⟩
      · exact ⟨h, hspells⟩
      · exact absurd ⟨d, h, htrails'⟩ htrails
    · rintro ⟨h, hspells⟩
      exact ⟨h, .inl hspells⟩
  · rw [← toList_toString h, String.ofList_toList]
  · exact read_of_spells h (String.toList_ofList.symm ▸ .date hyphens)
  · exact read_of_spells h (String.toList_ofList.symm ▸ .week hyphens)

/-- The last day of 2024 is read from its week, which is of the year after. -/
theorem Date.read_spellings_yearEnd :
    IsDay ⟨2024, 12, 31⟩ ∧ weekOf true ⟨2024, 12, 31⟩ = "2025-W01-2".toList
      ∧ read "2025-W01-2" = .ok ⟨2024, 12, 31⟩ := by
  have hday : IsDay ⟨2024, 12, 31⟩ := by decide
  have hweek : weekOf true ⟨2024, 12, 31⟩ = "2025-W01-2".toList := by decide +kernel
  obtain ⟨-, hread, -⟩ := ((read_spellings "").2.2 ⟨2024, 12, 31⟩ hday).2 true
  rw [hweek, String.ofList_toList] at hread
  exact ⟨hday, hweek, hread⟩

/-- Two letters after a date without hyphens are not seen, though the text is a spelling of no day. -/
theorem Date.read_trailing :
    read "20240101ab" = .ok ⟨2024, 1, 1⟩ ∧ ∀ d, IsDay d → ¬Spells d "20240101ab".toList := by
  have hday : IsDay ⟨2024, 1, 1⟩ := by decide
  have htrails : Trails ⟨2024, 1, 1⟩ "20240101ab".toList := ⟨['a', 'b'], by decide, .inl (by decide +kernel)⟩
  exact ⟨read_of_trails hday htrails, fun d h => not_spells_of_trails hday h htrails⟩

end Daybook
