import Daybook.Act

/-!
# Words — opening and closing

* `NAME DESCRIPTION commodity` registers a commodity.
* `NAME COMMODITY… open` opens an account, for the commodities given or for all.
* `NAME close` closes an account that holds nothing.
* `ACCOUNT LOT close-lot` deletes a lot that holds nothing, but never the default lot.
-/

namespace Daybook.Words

/-- Registers a commodity. -/
def commodity : Word Book :=
  .ofAct (Taking.two "commodity name and description") fun (name, description) => do
    let name ← .judge (·.asText "commodity name" name)
    let description ← .judge (·.asText "description" description)
    .change (·.register name description)
    return []

/-- Makes sure that a name may be given to an account. -/
def requireValidName (name : String) : Except Fault Unit :=
  if Account.isValidName name then .ok () else .error (.refused (.accountName name))

/-- Opens an account. -/
def openAccount : Word Book :=
  .ofAct (Taking.nameAndTexts .none) fun (name, commodities) => do
    .judge fun _ => requireValidName name
    .judge (·.requireUnopened name)
    commodities.forM fun commodity => .judge (·.findCommodity "commodity" commodity)
    .change (·.openAccount name commodities)
    return []

/-- The open account of a name, which must not have been closed before. -/
def findClosable (b : Book) (name : String) : Except Fault AccountId :=
  if (b.current? name).any (b.isClosed ·) then .error (.refused (.closedAccount (.closing name)))
  else b.findOpen name

/-- Makes sure that an account holds nothing. -/
def requireEmptyAccount (b : Book) (id : AccountId) (name : String) : Except Fault Unit :=
  match (b.account id).nonzeroHoldings with
  | h :: _ => .error (.refused (.nonzero (.account name h.lot h.balance)))
  | [] => .ok ()

/-- Closes an account. -/
def close : Word Book :=
  .ofAct (Taking.one "account name") fun name => do
    let name ← .judge (·.asText "account name" name)
    let id ← .judge (findClosable · name)
    .judge (requireEmptyAccount · id name)
    .enter (·.closeAccount id)
    return []

/-- Makes sure that a lot is not the default lot, exists and holds nothing. -/
def requireEmptyLot (b : Book) (id : AccountId) (name lot : String) : Except Fault Unit :=
  if lot = defaultLot then .error (.refused (.operands (.defaultLotStays name)))
  else
    match (b.account id).lots.get? lot with
    | none => .error (.refused (.unknownLot (.closing name lot)))
    | some holdings =>
      match holdings.values.find? (!·.balance.amount.isZero) with
      | some h => .error (.refused (.nonzero (.lot name lot h.balance)))
      | none => .ok ()

/-- Deletes a lot. -/
def closeLot : Word Book :=
  .ofAct (Taking.two "account name and lot name") fun (name, lot) => do
    let name ← .judge (·.asText "account name" name)
    let lot ← .judge (·.asText "lot name" lot)
    let id ← .judge (·.findOpen name)
    .judge (requireEmptyLot · id name lot)
    .enter (·.closeLot id lot)
    return []

end Daybook.Words
