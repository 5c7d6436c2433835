import Daybook.Transfer

/-!
# Values

What lies on the operand stack: texts, transfers that a book keeps, and values that only added words know.
-/

namespace Daybook

/-- An operand. -/
inductive Value where
  | text (s : String)
  /-- A transfer, by its number in the book. -/
  | transfer (id : TransferId)
  /-- A value of an added word, by its name. -/
  | foreign (name : String)
  deriving DecidableEq, Repr, Inhabited

namespace Value

/-- The text, if the value is one. -/
def text? : Value → Option String
  | text s => some s
  | transfer _ => none
  | foreign _ => none

/-- The number of the transfer, if the value is one. -/
def transfer? : Value → Option TransferId
  | text _ => none
  | transfer id => some id
  | foreign _ => none

/-- Whether the value is a text. -/
def isText (v : Value) : Bool := v.text?.isSome

/-- Whether the value is a transfer. -/
def isTransfer (v : Value) : Bool := v.transfer?.isSome

end Value

end Daybook
