import Daybook.Act

/-!
# Words — marking

* `ACCOUNT TAG… tag` and `ACCOUNT TAG… untag` put tags on an account and take them off.
* `COMMODITY TAG… tag-commodity` puts tags on a commodity.
* `ACCOUNT (NAME NOTE)… add-notes` writes notes on an account.
* `TEXT comment` does nothing, with the only operand of its scope.
-/

namespace Daybook.Words

/-- Takes a name and the tags after it. -/
def takeTags (entity : String) : Taking (String × List String) := fun ops =>
  match Taking.nameAndTexts (.noTag entity) ops with
  | .ok ((_, []), _) => .error (.noTag entity)
  | r => r

/-- The open account that is to be tagged. -/
def findTagged (b : Book) (name : String) : Except Fault Entity :=
  match b.current? name with
  | none => .error (.refused (.unknownAccount (.tagged name)))
  | some id =>
    if b.isClosed id then .error (.refused (.closedAccount (.named name))) else .ok (.account id)

/-- The registered commodity that is to be tagged. -/
def findTaggedCommodity (b : Book) (name : String) : Except Fault Entity :=
  if b.commodities.contains name then .ok (.commodity name)
  else .error (.refused (.unknownCommodity (.tagged name)))

/-- Puts tags on an account. -/
def tag : Word Book :=
  .ofAct (takeTags "account") fun (name, tags) => do
    let e ← .judge (findTagged · name)
    tags.forM fun tag => .enter (·.tag e tag)
    return []

/-- Puts tags on a commodity. -/
def tagCommodity : Word Book :=
  .ofAct (takeTags "commodity") fun (name, tags) => do
    let e ← .judge (findTaggedCommodity · name)
    tags.forM fun tag => .enter (·.tag e tag)
    return []

/-- Takes tags off an account. -/
def untag : Word Book :=
  .ofAct (takeTags "account") fun (name, tags) => do
    let e ← .judge (findTagged · name)
    tags.forM fun tag => .enter (·.untag e tag)
    return []

/-- A list in pairs; an element that is left over is dropped. -/
def pairs : List String → List (String × String)
  | a :: b :: rest => (a, b) :: pairs rest
  | _ => []

/-- Takes a name and the notes after it, each a name and a text. -/
def takeNotes : Taking (String × List String) := fun ops =>
  match Taking.nameAndTexts .noAccountName ops with
  | .ok ((name, texts), rest) =>
    if texts.length % 2 ≠ 0 then .error .unpairedNote else .ok ((name, texts), rest)
  | r => r

/-- Writes notes on an account. -/
def addNotes : Word Book :=
  .ofAct takeNotes fun (name, texts) => do
    let id ← .judge (·.findOpen name)
    (pairs texts).forM fun note => .enter (·.annotate id note.1 note.2)
    return []

/-- Takes the only operand. -/
def takeOnly : Taking Value
  | [] => .error .none
  | [v] => .ok (v, [])
  | ops => .error (.notOne ops.length)

/-- Discards a text. -/
def comment : Word Book :=
  .ofAct takeOnly fun v => do
    let _ ← .judge (·.asText "operand" v)
    return []

end Daybook.Words
