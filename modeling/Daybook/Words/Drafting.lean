import Daybook.Act

/-!
# Words — drafting transfers

* `ACCOUNT AMOUNT COMMODITY xfer` drafts a transfer into the default lot.
* `ACCOUNT AMOUNT COMMODITY UNIT-AMOUNT UNIT-COMMODITY TOTAL-AMOUNT TOTAL-COMMODITY xfer-exch` drafts one
  with an exchange rate.
* `TRANSFER LOT lot` binds a transfer to a lot that exists, `TRANSFER LOT create-lot` to one that may be
  created for it, and `TRANSFER TEXT set-comment` puts a comment on it.
-/

namespace Daybook.Words

/-- Makes sure that an account allows a commodity. -/
def requireAllowed (b : Book) (id : AccountId) (commodity : String) : Except Fault Unit :=
  if (b.account id).allows commodity then .ok ()
  else .error (.refused (.notAllowed (b.account id).name commodity))

/-- Takes the operands of a transfer. -/
def takeTransfer : Taking (Value × Value × Value) :=
  Taking.three "account name, quantity, and commodity name"

/-- The transfer that three operands describe. -/
def draftTransfer (b : Book) : Value × Value × Value → Except Fault Transfer
  | (account, quantity, commodity) => do
    let account ← b.asText "account name" account
    let quantity ← b.asText "quantity" quantity
    let commodity ← b.asText "commodity name" commodity
    let amount ← asAmount quantity
    let id ← b.findOpen account
    b.findCommodity "commodity" commodity
    requireAllowed b id commodity
    .ok { account := id, quantity := ⟨amount, commodity⟩ }

/-- The operands of a transfer with an exchange rate. -/
structure ExchangeOperands where
  account : String
  quantity : String
  commodity : String
  unitAmount : String
  unitCommodity : String
  totalAmount : String
  totalCommodity : String

/-- Takes the operands of a transfer with an exchange rate, which must all be texts. -/
def takeExchange : Taking ExchangeOperands
  | .text totalCommodity :: .text totalAmount :: .text unitCommodity :: .text unitAmount
      :: .text commodity :: .text quantity :: .text account :: rest =>
    .ok (⟨account, quantity, commodity, unitAmount, unitCommodity, totalAmount, totalCommodity⟩, rest)
  | _ =>
    .error <| .tooFewTexts <| "account name, quantity, commodity name, unit price amount, "
      ++ "unit price commodity name, total price amount, and total price commodity name"

/-- The transfer with an exchange rate that seven texts describe. -/
def draftExchange (b : Book) (o : ExchangeOperands) : Except Fault Transfer := do
  let amount ← asAmount o.quantity
  let unit ← asAmount o.unitAmount
  let total ← asAmount o.totalAmount
  let id ← b.findOpen o.account
  b.findCommodity "commodity" o.commodity
  requireAllowed b id o.commodity
  b.findCommodity "unit price commodity" o.unitCommodity
  b.findCommodity "total price commodity" o.totalCommodity
  .ok { account := id, quantity := ⟨amount, o.commodity⟩,
        rate := some ⟨⟨unit, o.unitCommodity⟩, ⟨total, o.totalCommodity⟩⟩ }

/-- Keeps a transfer in the book, and hands it over as an operand. -/
def keepDraft (t : Transfer) : Act (List Value) := do
  let id ← .judge fun b => .ok b.transfers.length
  .enter (·.draft t)
  return [.transfer id]

/-- Drafts the transfer that three operands describe. -/
def transferAct (operands : Value × Value × Value) : Act (List Value) := do
  let t ← .judge (draftTransfer · operands)
  keepDraft t

/-- Drafts a transfer into the default lot. -/
def transfer : Word Book := .ofAct takeTransfer transferAct

/-- Drafts the transfer with an exchange rate that seven texts describe. -/
def exchangeAct (operands : ExchangeOperands) : Act (List Value) := do
  let t ← .judge (draftExchange · operands)
  keepDraft t

/-- Drafts a transfer with an exchange rate. -/
def exchange : Word Book := .ofAct takeExchange exchangeAct

/-- Takes a transfer and the name of a lot. -/
def takeBinding : Taking (Value × Value) := Taking.two "transfer and lot name"

/-- The transfer, and the name of the lot to which it is to be bound. -/
def asBinding (b : Book) : Value × Value → Except Fault (TransferId × String)
  | (transfer, lot) => do
    let id ← b.asTransfer transfer
    let lot ← b.asText "lot name" lot
    let account := (b.transfer id).account
    if b.isClosed account then
      .error (.refused (.closedAccount (.transfer (b.account account).name)))
    else .ok (id, lot)

/-- Makes sure that the account of a transfer has a lot. -/
def requireLot (b : Book) (id : TransferId) (lot : String) : Except Fault Unit :=
  let a := b.account (b.transfer id).account
  if a.lots.contains lot then .ok () else .error (.refused (.unknownLot (.named a.name lot)))

/-- Binds a transfer to a lot that exists. -/
def lot : Word Book :=
  .ofAct takeBinding fun operands => do
    let (id, lot) ← .judge (asBinding · operands)
    .judge (requireLot · id lot)
    .enter (·.bindLot id lot)
    return [.transfer id]

/-- Makes sure that a lot does not hold the commodity of a transfer. -/
def requireRoom (b : Book) (id : TransferId) (lot : String) : Except Fault Unit :=
  let t := b.transfer id
  if ((b.account t.account).holding? lot t.quantity.commodity).isSome then
    .error (.refused (.duplicate (.holding lot t.quantity.commodity)))
  else .ok ()

/-- Binds a transfer to a lot that is created for it if it does not exist, and that must not hold the
commodity of the transfer. -/
def createLot : Word Book :=
  .ofAct takeBinding fun operands => do
    let (id, lot) ← .judge (asBinding · operands)
    .judge (requireRoom · id lot)
    .enter (·.bindLot id lot)
    .enter (·.letCreate id)
    return [.transfer id]

/-- Puts a comment on a transfer. -/
def setComment : Word Book :=
  .ofAct (Taking.two "transfer and comment string") fun (transfer, comment) => do
    let id ← .judge (·.asTransfer transfer)
    let comment ← .judge (·.asText "comment" comment)
    .enter (·.setComment id comment)
    return [.transfer id]

end Daybook.Words
