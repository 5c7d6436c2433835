import Daybook.Catalogue
import Daybook.Holding
import Daybook.Table

/-!
# Accounts

An account holds commodities in lots.  Every opening of a name makes an account of its own: closing ends
it for good, and opening the name again begins another one.

* `isClosed_mono`: an account that is closed at a date is closed at every later one.
-/

namespace Daybook

/-- The commodities that a lot holds, by name. -/
abbrev Lot := Table Holding

/-- An account, from its opening on. -/
structure Account where
  name : String
  opened : Date
  /-- The date of closing, once the account is closed. -/
  closed : Option Date
  /-- The commodities that may be transferred; none stands for all. -/
  allowed : NameSet
  tags : NameSet
  notes : Catalogue String
  lots : Table Lot
  deriving DecidableEq

namespace Account

/-- The beginnings of the names of accounts, apart from `equityName`. -/
def nameBeginnings : List String := ["Assets:", "Liabilities:", "Income:", "Expenses:", "Equity:"]

/-- The one name of an account that stands by itself. -/
def equityName : String := "Equity"

/-- Whether a name may be given to an account. -/
def isValidName (name : String) : Bool := name == equityName || nameBeginnings.any (name.startsWith ·)

/-- An account at its opening: with an empty default lot and nothing else. -/
def new (name : String) (date : Date) (allowed : NameSet) : Account where
  name
  opened := date
  closed := none
  allowed
  tags := ∅
  notes := ∅
  lots := .single defaultLot ∅

instance : Inhabited Account := ⟨new "" .zero ∅⟩

/-- Whether the account was closed on a date or before. -/
def isClosed (a : Account) (date : Date) : Bool :=
  match a.closed with
  | none => false
  | some d => decide (d ≤ date)

/-- Whether a commodity may be transferred. -/
def allows (a : Account) (commodity : String) : Bool :=
  a.allowed.isEmpty || a.allowed.contains commodity

/-- What a lot holds of a commodity. -/
def holding? (a : Account) (lot commodity : String) : Option Holding :=
  (a.lots.get? lot).bind (·.get? commodity)

/-- The balance of a commodity in a lot; `none` if there is no such lot. -/
def balance? (a : Account) (lot commodity : String) : Option Decimal :=
  (a.lots.get? lot).map fun l => ((l.get? commodity).map (·.balance.amount)).getD .zero

/-- All that the account holds, lot after lot. -/
def holdings (a : Account) : List Holding := a.lots.values.flatMap Table.values

/-- The holdings whose balance is not zero. -/
def nonzeroHoldings (a : Account) : List Holding := a.holdings.filter (!·.balance.amount.isZero)

/-- The balances of a commodity, lot after lot. -/
def balances (a : Account) (commodity : String) : List Decimal :=
  a.lots.values.filterMap fun l => (l.get? commodity).map (·.balance.amount)

/-- The sum of a commodity over all lots; `none` if it becomes too large. -/
def total (a : Account) (commodity : String) : Option Decimal := Decimal.sum (a.balances commodity)

/-- An account as it is shown to a reader. -/
def describe (a : Account) : String :=
  "Account(" ++ a.name ++ ", "
    ++ (match a.closed with
      | none => "open"
      | some d => "closed " ++ d.toString) ++ ")"

/-- An account that is closed at a date is closed at every later one. -/
theorem isClosed_mono {a : Account} {d d' : Date} (hd : d ≤ d') (h : a.isClosed d = true) :
    a.isClosed d' = true := by
  simp only [isClosed] at *
  split at h
  · cases h
  · next c _ =>
    have hc : c ≤ d := by simpa using h
    exact decide_eq_true (Date.le_trans hc hd)

end Account

end Daybook
