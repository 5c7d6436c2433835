import Daybook.Holding

/-!
# Transfers

A transfer is the draft of one movement of a quantity into a lot of an account, or out of it.  Drafts are
numbered by the book that keeps them, as accounts are, and are changed until a transaction applies them.
-/

namespace Daybook

/-- The number of an account in its book, in the order of opening. -/
abbrev AccountId := Nat

/-- The number of a transfer in its book, in the order of drafting. -/
abbrev TransferId := Nat

/-- A draft of one movement. -/
structure Transfer where
  account : AccountId
  quantity : Quantity
  lot : String := defaultLot
  /-- Whether the lot is to be created if it does not exist. -/
  createsLot : Bool := false
  rate : Option ExchangeRate := none
  comment : String := ""
  deriving DecidableEq, Repr, Inhabited

/-- The quantity that takes part in balancing: the total price of an exchange, or the quantity itself. -/
def Transfer.balancesAs (t : Transfer) : Quantity :=
  match t.rate with
  | none => t.quantity
  | some r => r.totalPrice

/-- A transfer as it is shown to a reader, with the name of its account. -/
def Transfer.describe (t : Transfer) (account : String) : String :=
  let lot :=
    if t.lot = "" ∧ t.createsLot = false then ""
    else " [" ++ t.lot ++ (if t.createsLot then "+" else "") ++ "]"
  let rate :=
    match t.rate with
    | none => ""
    | some r => " " ++ r.toString
  "Transfer(" ++ account ++ lot ++ ": " ++ t.quantity.toString ++ rate ++ ")"

end Daybook
