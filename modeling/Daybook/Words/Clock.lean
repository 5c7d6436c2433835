import Daybook.Calendar.Gregorian
import Daybook.Act

/-!
# Words — clock

* `YEAR MONTH DAY date` moves the clock to a calendar day, not back.
-/

namespace Daybook.Words

/-- Whether a part of a date fits into a signed number of 32 bits. -/
def fitsClock (n : Int) : Bool := decide (-2147483648 ≤ n) && decide (n ≤ 2147483647)

/-- The integer that an operand is to be. -/
def asInteger (b : Book) (what : String) (v : Value) : Except Fault Int := do
  let s ← b.asText what v
  match Integer.read s with
  | .error e => .error (.refused (.date (.field what s e)))
  | .ok n => .ok n

/-- The calendar day that three numbers name. -/
def asDay (date : Date) : Except Fault Date :=
  if !(fitsClock date.year && fitsClock date.month && fitsClock date.day) then
    .error (.exceeded .date)
  else
    match Calendar.check date with
    | some e => .error (.refused (.date (.day date.toString e)))
    | none => .ok date

/-- The calendar day that three operands name. -/
def asDate (b : Book) : Value × Value × Value → Except Fault Date
  | (year, month, day) => do
    let year ← asInteger b "year" year
    let month ← asInteger b "month" month
    let day ← asInteger b "day" day
    asDay ⟨year, month, day⟩

/-- Moves the clock. -/
def date : Word Book :=
  .ofAct (Taking.three "year, month, day") fun operands => do
    let date ← .judge (asDate · operands)
    .change (·.advance date)
    return []

/-- A word that moves the clock, and stops the run once the clock is past a date. -/
def endingAfter (cutoff : Date) (w : Word Book) : Word Book :=
  w.stoppingWhen fun d => decide (cutoff < d.context.date)

end Daybook.Words
