import Daybook.Book.Basic
import Daybook.Refusal

/-!
# Book — changes

The steps by which a book changes.  A step that is refused has no result, so a refused step changes
nothing.
-/

namespace Daybook

/-- The ground on which a transfer into a lot that does not exist is refused. -/
def UnknownLot.ofLot (account lot : String) : UnknownLot :=
  if lot = defaultLot then .default account else .named account lot

namespace Book

/-- Moves the clock; it does not go back. -/
def advance (b : Book) (date : Date) : Except Fault Book :=
  if date < b.date then .error (.refused (.date (.backwards date b.date)))
  else .ok { b with date }

/-- Registers a commodity under a new name. -/
def register (b : Book) (name description : String) : Except Fault Book :=
  if b.commodities.contains name then .error (.refused (.duplicate (.commodity name)))
  else
    .ok <| record
      { b with commodities := b.commodities.insert name ⟨name, description, b.date, ∅⟩ }
      (.registered name description)

/-- Makes sure that no open account has a name. -/
def requireUnopened (b : Book) (name : String) : Except Fault Unit :=
  if (b.current? name).any (!b.isClosed ·) then .error (.refused (.duplicate (.account name)))
  else .ok ()

/-- Opens an account under a name that no open account has. -/
def openAccount (b : Book) (name : String) (allowed : List String) : Except Fault Book :=
  match b.requireUnopened name with
  | .error fault => .error fault
  | .ok () =>
    .ok <| record
      { b with accounts := b.accounts ++ [.new name b.date (NameSet.ofList allowed)] }
      (.opened b.accounts.length)

/-- Closes an account. -/
def closeAccount (b : Book) (id : AccountId) : Book :=
  (b.updateAccount id fun a => { a with closed := some b.date }).record (.closed id)

/-- Deletes a lot of an account. -/
def closeLot (b : Book) (id : AccountId) (lot : String) : Book :=
  (b.updateAccount id fun a => { a with lots := a.lots.erase lot }).record (.lotClosed id lot)

/-- Writes a note on an account, in place of one with the same name. -/
def annotate (b : Book) (id : AccountId) (name note : String) : Book :=
  b.updateAccount id fun a => { a with notes := a.notes.insert name note }

/-- Binds a transfer to a lot. -/
def bindLot (b : Book) (id : TransferId) (lot : String) : Book :=
  b.updateTransfer id fun t => { t with lot }

/-- Lets a transfer create its lot. -/
def letCreate (b : Book) (id : TransferId) : Book :=
  b.updateTransfer id fun t => { t with createsLot := true }

/-- Puts a comment on a transfer. -/
def setComment (b : Book) (id : TransferId) (comment : String) : Book :=
  b.updateTransfer id fun t => { t with comment }

/-- What a lot holds of a commodity after a transfer into it. -/
def receive (b : Book) (t : Transfer) : Option Holding → Except Fault Holding
  | none => .ok ⟨t.lot, b.date, t.quantity, t.rate⟩
  | some h =>
    match h.add t.quantity.amount with
    | none => .error (.exceeded .amount)
    | some h' => .ok h'

/-- Posts a transfer: adds its quantity to its lot.  A lot that does not exist is created if the transfer
says so; the first transfer of a commodity into a lot is kept as it is. -/
def post (b : Book) (t : Transfer) : Except Fault Book :=
  let a := b.account t.account
  match a.lots.get? t.lot with
  | none =>
    if t.createsLot then do
      let h ← b.receive t none
      let lot : Lot := .single t.quantity.commodity h
      let b := b.updateAccount t.account fun a => { a with lots := a.lots.insert t.lot lot }
      .ok ((b.record (.lotCreated t.account t.lot)).record (.posted t b.date))
    else .error (.refused (.unknownLot (.ofLot a.name t.lot)))
  | some lot => do
    let h ← b.receive t (lot.get? t.quantity.commodity)
    let lot := lot.insert t.quantity.commodity h
    let b := b.updateAccount t.account fun a => { a with lots := a.lots.insert t.lot lot }
    .ok (b.record (.posted t b.date))

/-- Changes the tags that an entity carries. -/
def updateTags (b : Book) (e : Entity) (f : NameSet → NameSet) : Book :=
  match e with
  | .commodity name => b.updateCommodity name fun c => { c with tags := f c.tags }
  | .account id => b.updateAccount id fun a => { a with tags := f a.tags }

/-- Puts a tag on an entity; a tag that it carries already changes nothing. -/
def tag (b : Book) (e : Entity) (tag : String) : Book :=
  let carriers := b.carriers tag
  let carriers := if carriers.contains e then carriers else carriers ++ [e]
  { b with tagged := b.tagged.insert tag carriers }.updateTags e (·.add tag)

/-- Takes a tag off an entity; a tag that nothing carries any more is forgotten. -/
def untag (b : Book) (e : Entity) (tag : String) : Book :=
  let carriers := (b.carriers tag).filter (· != e)
  let tagged := if carriers.isEmpty then b.tagged.erase tag else b.tagged.insert tag carriers
  { b with tagged }.updateTags e (·.erase tag)

end Book

end Daybook
