import Daybook.Text.Digit
import Daybook.Text.Quoted

/-!
# Integers

An integer is an optional sign and ASCII digits, with at most one line feed after them.  Integers of
more than `maxDigits` digits are refused.
-/

namespace Daybook

/-- Why a text is no integer. -/
inductive IntegerError where
  | malformed (text : String)
  | tooLong (digits : Nat)
  deriving DecidableEq, Repr

namespace Integer

/-- How many digits an integer may have, leading zeros included. -/
def maxDigits : Nat := 4300

/-- Whether a text is empty but for one line feed. -/
def endsLine (cs : List Char) : Bool := cs.isEmpty || cs == ['\n']

/-- Reads an integer. -/
def read (s : String) : Except IntegerError Int :=
  let (minus, cs) := Text.takeSign s.toList
  let digits := cs.takeWhile Char.isDigit
  if digits.isEmpty || !endsLine (cs.dropWhile Char.isDigit) then .error (.malformed s)
  else if maxDigits < digits.length then .error (.tooLong digits.length)
  else
    let n : Int := Text.ofDigits (digits.map Text.asciiValue)
    .ok (if minus then -n else n)

end Integer

/-- The message of a refused integer. -/
def IntegerError.message : IntegerError → String
  | malformed s => "invalid syntax: " ++ Text.quoted s
  | tooLong n =>
    "Exceeds the limit (" ++ toString Integer.maxDigits
      ++ " digits) for integer string conversion: value has " ++ toString n
      ++ " digits; use sys.set_int_max_str_digits() to increase the limit"

end Daybook
