import Daybook.Decimal.Scientific

/-!
# Quantities

An amount of one commodity, and the price at which a quantity was exchanged.
-/

namespace Daybook

/-- A signed amount of one commodity, which is given by its name. -/
structure Quantity where
  amount : Decimal
  commodity : String
  deriving DecidableEq, Repr, Inhabited

/-- The amount and the name of the commodity. -/
def Quantity.toString (q : Quantity) : String := q.amount.toString ++ " " ++ q.commodity

instance : ToString Quantity := ⟨Quantity.toString⟩

/-- The price of an exchanged quantity. -/
structure ExchangeRate where
  /-- The price of one unit. -/
  unitPrice : Quantity
  /-- The price of the whole quantity, which is what balances. -/
  totalPrice : Quantity
  deriving DecidableEq, Repr

/-- The price of one unit, and the price of the whole. -/
def ExchangeRate.toString (r : ExchangeRate) : String :=
  "@ " ++ r.unitPrice.toString ++ " (total " ++ r.totalPrice.toString ++ ")"

instance : ToString ExchangeRate := ⟨ExchangeRate.toString⟩

end Daybook
