import Daybook.Transaction
import Daybook.Words.Marking

/-!
# Words — posting

* `ENTITY DESCRIPTION TRANSFER… (NAME NOTE)… xact` applies two or more transfers as a transaction.
-/

namespace Daybook.Words

/-- The operands of a transaction. -/
structure TransactionOperands where
  entity : Value
  description : Value
  transfers : List TransferId
  notes : List String

/-- Takes the operands of a transaction: notes are the texts on top, transfers lie under them, and under
these description and entity. -/
def takeTransaction : Taking TransactionOperands := fun ops =>
  let (notes, under) := Operands.splitTexts ops
  let (transfers, under) := Operands.splitTransfers under
  match under with
  | [] => .error .noEntity
  | [_] => .error .noDescription
  | description :: entity :: rest =>
    if transfers.length < 2 then .error .tooFewTransfers
    else if notes.length % 2 ≠ 0 then .error (.oddNotes notes.length)
    else .ok (⟨entity, description, transfers.reverse, notes.reverse⟩, rest)

/-- The transaction that operands describe, which must balance. -/
def draftTransaction (b : Book) (o : TransactionOperands) : Except Fault Transaction := do
  let entity ← b.asText "entity" o.entity
  let description ← b.asText "description" o.description
  Transaction.requireBalance b (o.transfers.map b.transfer)
  .ok ⟨entity, description, o.transfers, .ofList (pairs o.notes)⟩

/-- Drafts a transaction and applies it. -/
def applyTransaction (o : TransactionOperands) : Act Transaction := do
  let x ← .judge (draftTransaction · o)
  x.apply
  return x

/-- Applies a transaction. -/
def transact : Word Book :=
  .ofAct takeTransaction fun o => do
    let _ ← applyTransaction o
    return []

end Daybook.Words
