import Daybook.Calendar.Gregorian
import Daybook.Text.Digit

/-!
# Calendar — written dates

A written date is a year, month and day, or a year, week and weekday, with hyphens between the parts or
with none.  A week may stand without a weekday and then means its Monday.  A text counts by its length
in bytes, which must be 7, 8 or 10; a text of ten bytes without hyphens is read as far as the date goes.
-/

namespace Daybook

namespace Calendar

/-- What a written date says. -/
inductive Spelling where
  | day (year month day : Nat)
  | week (year week weekday : Nat)
  deriving DecidableEq, Repr

/-- Takes a number of exactly `n` ASCII digits off a text. -/
def takeNumber (n : Nat) (cs : List Char) : Option (Nat × List Char) :=
  let ds := cs.take n
  if ds.length = n ∧ ds.all Char.isDigit then
    some (Text.ofDigits (ds.map Text.asciiValue), cs.drop n)
  else none

/-- Takes one given character off a text. -/
def takeChar (c : Char) : List Char → Option (List Char)
  | [] => none
  | d :: cs => if d = c then some cs else none

/-- Takes the hyphen between two parts of a date, if the date is written with hyphens. -/
def takeHyphen (hyphens : Bool) (cs : List Char) : Option (List Char) :=
  if hyphens then takeChar '-' cs else some cs

/-- The lengths in bytes that a written date may have. -/
def spellingLengths : List Nat := [7, 8, 10]

/-- What a text says as a date. -/
def spelling? (s : String) : Option Spelling := do
  if !spellingLengths.contains s.utf8ByteSize then none
  else
    let (year, cs) ← takeNumber 4 s.toList
    let hyphens := (takeChar '-' cs).isSome
    let cs ← takeHyphen hyphens cs
    match takeChar 'W' cs with
    | some cs =>
      let (week, cs) ← takeNumber 2 cs
      if cs.isEmpty then some (.week year week 1)
      else
        let cs ← takeHyphen hyphens cs
        let (weekday, _) ← takeNumber 1 cs
        some (.week year week weekday)
    | none =>
      let (month, cs) ← takeNumber 2 cs
      let cs ← takeHyphen hyphens cs
      let (day, _) ← takeNumber 2 cs
      some (.day year month day)

/-- Why the day of an existing week is off the calendar: the last week of the year 9999 ends in the
year 10000, and the weeks of the year 0 are in no month. -/
def checkWeekDay (d : Date) : Option DateError :=
  if d.year < 1 then some .month else if maxYear < d.year then some (.year d.year) else none

end Calendar

/-- Reads a date. -/
def Date.read (s : String) : Except DateError Date :=
  match Calendar.spelling? s with
  | none => .error (.malformed s)
  | some (.day y m d) =>
    let date : Date := ⟨y, m, d⟩
    match Calendar.check date with
    | some e => .error e
    | none => .ok date
  | some (.week y w d) =>
    if 1 ≤ w ∧ w ≤ Calendar.weeksInYear y ∧ 1 ≤ d ∧ d ≤ 7 then
      let date := Calendar.ofWeek y w d
      match Calendar.checkWeekDay date with
      | some e => .error e
      | none => .ok date
    else .error (.malformed s)

end Daybook
