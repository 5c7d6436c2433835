import Daybook.Calendar.Date
import Daybook.Holding
import Daybook.Integer

/-!
# Refusals

Why a word does not do what it is asked to do.  A refusal names its ground and, if a word was called, the
word; a book that refuses stays as it was.  The wording is in the `message` functions.
-/

namespace Daybook

/-- What is wrong with the operands of a word. -/
inductive OperandFault where
  /-- There are fewer operands than `required` names. -/
  | tooFew (required : String)
  /-- There are fewer texts on top than `required` names. -/
  | tooFewTexts (required : String)
  /-- The operand for `what` is no text. -/
  | notText (what shown : String)
  | notTransfer (shown : String)
  | none
  | notOne (count : Nat)
  | noAccountName
  | unpairedNote
  /-- There is no name of an `entity` with a tag after it. -/
  | noTag (entity : String)
  | noEntity
  | noDescription
  | tooFewTransfers
  | oddNotes (count : Nat)
  /-- The default lot is not closed. -/
  | defaultLotStays (account : String)
  /-- The objection of an added word. -/
  | other (message : String)
  deriving DecidableEq, Repr

/-- Why a date is refused. -/
inductive DateFault where
  /-- The `text` for the year, month or day is no integer. -/
  | field (what text : String) (error : IntegerError)
  /-- A text names no calendar day. -/
  | day (text : String) (error : DateError)
  /-- The clock would go back. -/
  | backwards (asked current : Date)
  deriving DecidableEq, Repr

/-- How the name of an account that is not known was used. -/
inductive UnknownAccount where
  | reference (name : String)
  | tagged (name : String)
  deriving DecidableEq, Repr

/-- How the name of a commodity that is not known was used. -/
inductive UnknownCommodity where
  /-- The name stands for the commodity in a `role`. -/
  | reference (role name : String)
  | tagged (name : String)
  deriving DecidableEq, Repr

/-- How a lot that does not exist was used. -/
inductive UnknownLot where
  | named (account lot : String)
  | default (account : String)
  | closing (account lot : String)
  deriving DecidableEq, Repr

/-- How a closed account was used. -/
inductive ClosedAccount where
  | named (name : String)
  | closing (name : String)
  | transfer (name : String)
  deriving DecidableEq, Repr

/-- What exists already. -/
inductive Duplicate where
  | commodity (name : String)
  | account (name : String)
  | holding (lot commodity : String)
  deriving DecidableEq, Repr

/-- Why transfers do not balance. -/
inductive Imbalance where
  /-- A transfer balances in another commodity than the first one. -/
  | commodities (account commodity firstAccount firstCommodity : String)
  /-- The sum is not zero. -/
  | sum (total : Quantity)
  deriving DecidableEq, Repr

/-- How an assertion names a lot. -/
inductive LotLabel where
  | default
  | named (lot : String)
  deriving DecidableEq, Repr

/-- How an asserted balance differs. -/
inductive Mismatch where
  /-- The lot holds nothing of the commodity. -/
  | absent (lot : LotLabel) (account commodity : String)
  | balance (lot : LotLabel) (account : String) (actual asserted : Quantity) (difference : Decimal)
  | total (account : String) (actual asserted : Quantity) (difference : Decimal)
  deriving DecidableEq, Repr

/-- What is not closed because it still holds something. -/
inductive Nonzero where
  | account (account lot : String) (balance : Quantity)
  | lot (account lot : String) (balance : Quantity)
  deriving DecidableEq, Repr

/-- The ground of a refusal. -/
inductive Ground where
  | operands (fault : OperandFault)
  /-- A text is no amount. -/
  | amount (text : String)
  | date (fault : DateFault)
  /-- A name may not be given to an account. -/
  | accountName (name : String)
  | unknownAccount (use : UnknownAccount)
  | unknownCommodity (use : UnknownCommodity)
  | unknownLot (use : UnknownLot)
  | closedAccount (use : ClosedAccount)
  | duplicate (what : Duplicate)
  /-- An account does not allow a commodity. -/
  | notAllowed (account commodity : String)
  | unbalanced (imbalance : Imbalance)
  | mismatch (how : Mismatch)
  | nonzero (what : Nonzero)
  deriving DecidableEq, Repr

def OperandFault.message : OperandFault → String
  | tooFew required => required ++ " operands required, but too few given"
  | tooFewTexts required => required ++ " operands are required, but too few given"
  | notText what shown => "non-string " ++ what ++ ": " ++ shown
  | notTransfer shown => "operand is not a transfer: " ++ shown
  | none => "no operands given"
  | notOne count => "exactly one operand required, but " ++ toString count ++ " given"
  | noAccountName => "account name operand required, but no operands given"
  | unpairedNote => "note name and note value operand pairs required, but odd number of operands given"
  | noTag entity =>
    entity ++ " name and at least one tag operand required, but too few operands given"
  | noEntity => "entity and description operands are required"
  | noDescription => "description operand is required"
  | tooFewTransfers => "there must be at least two transfers"
  | oddNotes count => "the number of notes must be a multiple of two, got " ++ toString count
  | defaultLotStays account => "cannot close the default lot of account " ++ account
  | other message => message

def DateFault.message : DateFault → String
  | field what text error => "illegal " ++ what ++ " " ++ text ++ ": " ++ error.message
  | day text error => "illegal date " ++ text ++ ": " ++ error.message
  | backwards asked current =>
    "specified date " ++ asked.toString ++ " is before current date " ++ current.toString

def UnknownAccount.message : UnknownAccount → String
  | reference name => "nonexistent account: " ++ name
  | tagged name => "tagging nonexistent account: " ++ name

def UnknownCommodity.message : UnknownCommodity → String
  | reference role name => "nonexistent " ++ role ++ ": " ++ name
  | tagged name => "tagging nonexistent commodity: " ++ name

def UnknownLot.message : UnknownLot → String
  | named account lot => "account " ++ account ++ " does not have a lot named " ++ Text.inQuotes lot
  | default account => "account " ++ account ++ " does not have a default lot"
  | closing account lot => "nonexistent lot " ++ Text.inQuotes lot ++ " in account " ++ account

def ClosedAccount.message : ClosedAccount → String
  | named name => "closed account: " ++ name
  | closing name => "account is already closed: " ++ name
  | transfer name => "transfer refers to closed account: " ++ name

def Duplicate.message : Duplicate → String
  | commodity name => "commodity already exists: " ++ name
  | account name => "account already exists: " ++ name
  | holding lot held => "lot " ++ lot ++ " already contains " ++ held

def Imbalance.message : Imbalance → String
  | commodities a c firstA firstC =>
    "transfer to " ++ a ++ " uses commodity " ++ c ++ " but transfer to " ++ firstA ++ " uses " ++ firstC
  | sum total => "transfers sum to " ++ total.toString ++ ", not zero"

def LotLabel.text : LotLabel → String
  | default => "default lot"
  | named lot => "lot " ++ Text.inQuotes lot

/-- What was asserted, and by how much it is wrong. -/
def Mismatch.assertedText (asserted : Quantity) (difference : Decimal) : String :=
  ", not asserted amount " ++ asserted.toString ++ " (difference of " ++ difference.toString ++ ")"

def Mismatch.message : Mismatch → String
  | absent lot a c => lot.text ++ " in account " ++ a ++ " does not have " ++ c
  | balance lot account actual asserted difference =>
    lot.text ++ " in account " ++ account ++ " has " ++ actual.toString
      ++ assertedText asserted difference
  | total account actual asserted difference =>
    "lots in account " ++ account ++ " have a total of " ++ actual.toString
      ++ assertedText asserted difference

def Nonzero.message : Nonzero → String
  | account a l balance =>
    let label := if l = defaultLot then "the default lot" else "lot " ++ Text.inQuotes l
    "cannot close account " ++ a ++ " because " ++ label ++ " has " ++ balance.toString
  | lot a l balance =>
    "cannot close lot " ++ Text.inQuotes l ++ " in account " ++ a ++ " because it has " ++ balance.toString

/-- The message of a ground. -/
def Ground.message : Ground → String
  | operands fault => fault.message
  | amount text => "illegal decimal value " ++ text
  | date fault => fault.message
  | accountName name =>
    "account does not start with \"Assets:\", \"Liabilities:\", \"Income:\", \"Expenses:\", "
      ++ "or \"Equity:\", and is not named \"Equity\": " ++ name
  | unknownAccount use => use.message
  | unknownCommodity use => use.message
  | unknownLot use => use.message
  | closedAccount use => use.message
  | duplicate what => what.message
  | notAllowed a c => "cannot transfer " ++ c ++ " to or from account " ++ a
  | unbalanced imbalance => imbalance.message
  | mismatch how => how.message
  | nonzero what => what.message

/-- A refusal: its ground, and the word that was called. -/
structure Refusal where
  word : Option String
  ground : Ground
  deriving DecidableEq, Repr

/-- The message of a refusal, after the name of the word. -/
def Refusal.message (r : Refusal) : String :=
  match r.word with
  | none => r.ground.message
  | some name => name ++ ": " ++ r.ground.message

/-- A number that left its range: a part of a date, or a sum of amounts. -/
inductive Excess where
  | date
  | amount
  deriving DecidableEq, Repr

/-- Why a step on a book fails. -/
inductive Fault where
  | refused (ground : Ground)
  | exceeded (excess : Excess)
  deriving DecidableEq, Repr

end Daybook
