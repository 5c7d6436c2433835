import Daybook.Decimal.Basic
import Daybook.Text.Digit

/-!
# Decimal — reading

An amount is an optional sign, digits with at most one point among them, and optionally a power of ten:
`e` or `E`, an optional sign and digits.  Digits of any script count.  Commas may stand anywhere and are
left out before anything else.  No digit is lost: the coefficient is as long as the text makes it, and
only powers of ten beyond `maxAdjusted` and `minReadExponent` are refused.
-/

namespace Daybook.Decimal

/-- The greatest exponent that the first digit of a number may have when it is read. -/
def maxAdjusted : Int := 999999999999999999

/-- The least exponent of a number that is read. -/
def minReadExponent : Int := -1999999999999999997

/-- The values of the digits of a text; `none` if it holds anything else. -/
def digits? (cs : List Char) : Option (List Nat) := cs.mapM Text.digit?

/-- Whether a character begins a power of ten. -/
def isPowerMark (c : Char) : Bool := c == 'e' || c == 'E'

/-- Reads what stands after the mark of a power of ten; no mark is the power zero. -/
def readPower : List Char → Option Int
  | [] => some 0
  | _ :: cs =>
    let (minus, cs) := Text.takeSign cs
    match digits? cs with
    | none | some [] => none
    | some (d :: ds) =>
      let n := Text.ofDigits (d :: ds)
      some (if minus then -(n : Int) else n)

/-- Whether the powers of ten of a number are within the limits for reading. -/
def isReadable (d : Decimal) : Bool :=
  decide (d.adjusted ≤ maxAdjusted) && decide (minReadExponent ≤ d.exp)

/-- Reads a number from a text without commas. -/
def readPlain (cs : List Char) : Option Decimal := do
  let (minus, cs) := Text.takeSign cs
  let mantissa := cs.takeWhile (!isPowerMark ·)
  let whole ← digits? (mantissa.takeWhile (· != '.'))
  let fraction ← digits? ((mantissa.dropWhile (· != '.')).drop 1)
  let power ← readPower (cs.dropWhile (!isPowerMark ·))
  if (whole ++ fraction).isEmpty then none
  else
    let d : Decimal := ⟨minus, Text.ofDigits (whole ++ fraction), power - fraction.length⟩
    if d.isReadable then some d else none

/-- Reads a number; `none` if the text is no finite decimal number within the limits. -/
def read (s : String) : Option Decimal := readPlain (s.toList.filter (· != ','))

end Daybook.Decimal
