import Daybook.Act

/-!
# Transactions

A transaction applies two or more transfers that balance: all in one commodity, and with the sum zero.
Before anything is posted, the balance, the accounts and the lots are checked.
-/

namespace Daybook

/-- Transfers that are to be applied together. -/
structure Transaction where
  /-- With whom the transaction was made. -/
  entity : String
  description : String
  transfers : List TransferId
  notes : Catalogue String
  deriving DecidableEq

namespace Transaction

/-- Adds up transfers that must balance in the commodity of the first, beginning at `total`. -/
def addUp (b : Book) (first : Transfer) : Decimal → List Transfer → Except Fault Decimal
  | total, [] => .ok total
  | total, t :: ts =>
    let commodity := first.balancesAs.commodity
    if t.balancesAs.commodity ≠ commodity then
      .error <| .refused <| .unbalanced <| .commodities (b.account t.account).name
        t.balancesAs.commodity (b.account first.account).name commodity
    else
      match total.add t.balancesAs.amount with
      | none => .error (.exceeded .amount)
      | some total => addUp b first total ts

/-- Makes sure that transfers balance. -/
def requireBalance (b : Book) : List Transfer → Except Fault Unit
  | [] => .ok ()
  | first :: ts => do
    let total ← addUp b first .zero (first :: ts)
    if total.isZero then .ok ()
    else .error (.refused (.unbalanced (.sum ⟨total, first.balancesAs.commodity⟩)))

/-- Makes sure that all accounts are open, and are the current ones of their names. -/
def requireOpenAccounts (b : Book) (ts : List Transfer) : Except Fault Unit :=
  match ts.find? fun t => b.isClosed t.account || !b.isCurrent t.account with
  | some t => .error (.refused (.closedAccount (.transfer (b.account t.account).name)))
  | none => .ok ()

/-- Makes sure that all lots exist or are created by the time they are needed; `created` are those that
transfers before have created. -/
def requireLotsFrom (b : Book) : List (AccountId × String) → List Transfer → Except Fault Unit
  | _, [] => .ok ()
  | created, t :: ts =>
    let a := b.account t.account
    if a.lots.contains t.lot || created.contains (t.account, t.lot) then requireLotsFrom b created ts
    else if t.createsLot then requireLotsFrom b ((t.account, t.lot) :: created) ts
    else .error (.refused (.unknownLot (.ofLot a.name t.lot)))

/-- Makes sure that all lots exist or are created by the time they are needed. -/
def requireLots (b : Book) (ts : List Transfer) : Except Fault Unit := requireLotsFrom b [] ts

/-- Posts transfers one after the other, as far as it goes. -/
def postAll (ts : List Transfer) : Act Unit := ts.forM fun t => .change (·.post t)

/-- The checks before anything is posted. -/
def check (b : Book) (ts : List Transfer) : Except Fault Unit := do
  requireBalance b ts
  requireOpenAccounts b ts
  requireLots b ts

/-- Checks the transfers of a transaction and applies them. -/
def apply (x : Transaction) : Act Unit := do
  let ts ← .judge fun b => .ok (x.transfers.map b.transfer)
  .judge (check · ts)
  postAll ts
  .enter (·.record (.applied x.entity x.description x.transfers))

end Transaction

end Daybook
