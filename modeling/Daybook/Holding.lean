import Daybook.Calendar.Date
import Daybook.Decimal.Sum
import Daybook.Quantity

/-!
# Holdings

What a lot holds of one commodity: a running balance, with the date and the exchange rate of the first
transfer that brought the commodity into the lot.  The first amount is kept as it was written; every
further amount is added with rounding.
-/

namespace Daybook

/-- The lot that takes what is bound to no other lot. -/
def defaultLot : String := ""

/-- The balance of one commodity in one lot. -/
structure Holding where
  /-- The name of the lot. -/
  lot : String
  /-- The date of the first transfer. -/
  opened : Date
  balance : Quantity
  /-- The exchange rate of the first transfer, if it had one. -/
  rate : Option ExchangeRate
  deriving DecidableEq, Repr

namespace Holding

/-- The holding with an amount added; `none` if the balance becomes too large. -/
def add (h : Holding) (amount : Decimal) : Option Holding :=
  (h.balance.amount.add amount).map fun total => { h with balance := { h.balance with amount := total } }

/-- A holding as it is shown to a reader. -/
def describe (h : Holding) : String :=
  "Lot(" ++ (if h.lot = defaultLot then "<default>" else h.lot) ++ ": " ++ h.balance.toString ++ ")"

end Holding

end Daybook
