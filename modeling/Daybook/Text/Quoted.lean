import Daybook.Text.Printable

/-!
# Text — quoted form

The form in which a message shows a text: between quotation marks, with everything that cannot be
shown written as an escape.  The marks are single, unless the text has single marks and no double one.
-/

namespace Daybook.Text

/-- The mark put around a text: single, unless that would need escapes which double marks do not. -/
def mark (cs : List Char) : Char :=
  if cs.contains '\x27' && !cs.contains '"' then '"' else '\x27'

/-- The code point of a character in `width` or more hexadecimal digits. -/
def hexadecimal (width : Nat) (c : Char) : List Char :=
  (Nat.toDigits 16 c.toNat).leftpad width '0'

/-- A character inside the marks `m`. -/
def escape (m c : Char) : List Char :=
  if c = m ∨ c = '\\' then ['\\', c]
  else if c = '\n' then ['\\', 'n']
  else if c = '\r' then ['\\', 'r']
  else if c = '\t' then ['\\', 't']
  else if isPrintable c then [c]
  else if c.toNat < 0x100 then '\\' :: 'x' :: hexadecimal 2 c
  else if c.toNat < 0x10000 then '\\' :: 'u' :: hexadecimal 4 c
  else '\\' :: 'U' :: hexadecimal 8 c

/-- A text between marks, with escapes for what cannot be shown. -/
def quoted (s : String) : String :=
  let m := mark s.toList
  String.ofList (m :: s.toList.flatMap (escape m) ++ [m])

/-- A text between double marks, as it stands. -/
def inQuotes (s : String) : String := "\"" ++ s ++ "\""

end Daybook.Text
