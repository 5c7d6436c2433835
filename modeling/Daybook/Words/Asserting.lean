import Daybook.Act

/-!
# Words — asserting balances

* `ACCOUNT AMOUNT COMMODITY assert` asserts a balance of the default lot.
* `ACCOUNT LOT AMOUNT COMMODITY assert-lot` asserts one of a lot, where a lot that does not exist holds zero.
* `ACCOUNT AMOUNT COMMODITY assert-lots-sum` asserts the sum over all lots.
-/

namespace Daybook.Words

/-- The difference between an actual and an asserted amount. -/
def difference (actual asserted : Decimal) : Except Fault Decimal :=
  match actual.sub asserted with
  | none => .error (.exceeded .amount)
  | some d => .ok d

/-- Makes sure that a lot has a balance. -/
def requireBalance (b : Book) (id : AccountId) (lot : String) (label : LotLabel) (asserted : Quantity) :
    Except Fault Unit :=
  let a := b.account id
  match a.lots.get? lot with
  | none =>
    if asserted.amount.isZero then .ok ()
    else .error (.refused (.unknownLot (.ofLot a.name lot)))
  | some holdings =>
    match holdings.get? asserted.commodity with
    | none =>
      if asserted.amount.isZero then .ok ()
      else .error (.refused (.mismatch (.absent label a.name asserted.commodity)))
    | some h =>
      if h.balance.amount.sameValue asserted.amount then .ok ()
      else do
        let d ← difference h.balance.amount asserted.amount
        .error (.refused (.mismatch (.balance label a.name h.balance asserted d)))

/-- Makes sure that all lots together have a balance. -/
def requireTotal (b : Book) (id : AccountId) (asserted : Quantity) : Except Fault Unit :=
  let a := b.account id
  match a.total asserted.commodity with
  | none => .error (.exceeded .amount)
  | some total =>
    if total.sameValue asserted.amount then .ok ()
    else do
      let d ← difference total asserted.amount
      .error (.refused (.mismatch (.total a.name ⟨total, asserted.commodity⟩ asserted d)))

/-- Takes an account, an amount and a commodity. -/
def takeAssertion : Taking (Value × Value × Value) :=
  Taking.three "account name, amount, and commodity"

/-- The open account and the quantity that three operands assert. -/
def asAssertion (b : Book) : Value × Value × Value → Except Fault (AccountId × Quantity)
  | (account, amount, commodity) => do
    let account ← b.asText "account name" account
    let amount ← asAmount (← b.asText "quantity" amount)
    let commodity ← b.asText "commodity name" commodity
    let id ← b.findOpen account
    b.findCommodity "commodity" commodity
    .ok (id, ⟨amount, commodity⟩)

/-- The open account, the lot and the quantity that four operands assert. -/
def asLotAssertion (b : Book) :
    Value × Value × Value × Value → Except Fault (AccountId × String × Quantity)
  | (account, lot, amount, commodity) => do
    let account ← b.asText "account name" account
    let lot ← b.asText "lot name" lot
    let (id, asserted) ← asAssertion b (.text account, amount, commodity)
    .ok (id, lot, asserted)

/-- Asserts a balance of the default lot. -/
def assertDefault : Word Book :=
  .ofAct takeAssertion fun operands => do
    let (id, asserted) ← .judge (asAssertion · operands)
    .judge (requireBalance · id defaultLot .default asserted)
    return []

/-- Asserts a balance of a lot. -/
def assertLot : Word Book :=
  .ofAct (Taking.four "account name, lot name, amount, and commodity") fun operands => do
    let (id, lot, asserted) ← .judge (asLotAssertion · operands)
    .judge (requireBalance · id lot (.named lot) asserted)
    return []

/-- Asserts the sum of a commodity over all lots. -/
def assertLotsSum : Word Book :=
  .ofAct takeAssertion fun operands => do
    let (id, asserted) ← .judge (asAssertion · operands)
    .judge (requireTotal · id asserted)
    return []

end Daybook.Words
