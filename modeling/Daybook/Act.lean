import Daybook.Book.Change
import Daybook.Book.View
import Daybook.Decimal.Read
import Daybook.Machine

/-!
# Acts

What a word does to a book, in two parts.  First it takes its operands, which fails without touching any
of them if there are too few.  Then it acts on the book, judging and changing it step after step.  An act
that breaks off leaves the book as the steps before have made it.  Operands that were taken are gone in
each case.

* `on_bind`: two steps act one after the other, unless the first breaks off.
-/

namespace Daybook

/-- What is done with a book: it comes to a result or breaks off, and leaves the book changed or not. -/
abbrev Act (α : Type) := ExceptT Fault (StateM Book) α

namespace Act

variable {α β : Type}

/-- What an act comes to, and the book as it is left. -/
def on (act : Act α) (b : Book) : Except Fault α × Book := (act.run.run b).run

/-- Judges the book, which stays as it is. -/
def judge (f : Book → Except Fault α) : Act α := ExceptT.mk fun b => (f b, b)

/-- Changes the book at one stroke, or breaks off and leaves it as it is. -/
def change (f : Book → Except Fault Book) : Act Unit := ExceptT.mk fun b =>
  match f b with
  | .ok b' => (.ok (), b')
  | .error fault => (.error fault, b)

/-- Changes the book at one stroke, which cannot fail. -/
def enter (f : Book → Book) : Act Unit := ExceptT.mk fun b => (.ok (), f b)

@[simp] theorem on_pure (a : α) (b : Book) : on (pure a) b = (.ok a, b) := rfl

@[simp] theorem on_judge (f : Book → Except Fault α) (b : Book) : (judge f).on b = (f b, b) := rfl

theorem on_change (f : Book → Except Fault Book) (b : Book) :
    (change f).on b =
      match f b with
      | .ok b' => (.ok (), b')
      | .error fault => (.error fault, b) := rfl

@[simp] theorem on_enter (f : Book → Book) (b : Book) : (enter f).on b = (.ok (), f b) := rfl

/-- Two steps act one after the other, unless the first breaks off. -/
theorem on_bind (act : Act α) (next : α → Act β) (b : Book) :
    (act >>= next).on b =
      match act.on b with
      | (.ok a, b') => (next a).on b'
      | (.error fault, b') => (.error fault, b') := by
  simp only [on, ExceptT.run, StateT.run, Id.run]
  show ExceptT.bindCont next (act b).1 (act b).2 = _
  obtain ⟨r, b'⟩ := act b
  cases r <;> rfl

end Act

/-- A way of taking operands: what is taken, and what remains. -/
abbrev Taking (α : Type) := Operands → Except OperandFault (α × Operands)

/-- Takes operands from a desk and acts on its book, on behalf of a word. -/
def perform {α β : Type} (take : Taking α) (act : α → Act β) (word : String) (d : Desk Book) :
    Except Failure β × Desk Book :=
  match take d.operands with
  | .error fault => (.error (.failed (.refused ⟨some word, .operands fault⟩)), d)
  | .ok (taken, rest) =>
    match (act taken).on d.context with
    | (.ok result, book) => (.ok result, ⟨rest, book⟩)
    | (.error fault, book) => (.error (fault.toFailure (some word)), ⟨rest, book⟩)

/-- A word that takes operands, acts on the book and pushes what comes of it. -/
def Word.ofAct {α : Type} (take : Taking α) (act : α → Act (List Value)) : Word Book := fun name d =>
  match perform take act name d with
  | (.ok pushed, d') => (.ok .proceed, { d' with operands := d'.operands.push pushed })
  | (.error failure, d') => (.error failure, d')

/-! ### Taking operands -/

namespace Taking

/-- Takes one operand. -/
def one (required : String) : Taking Value
  | v :: rest => .ok (v, rest)
  | [] => .error (.tooFew required)

/-- Takes two operands, in the order in which they were pushed. -/
def two (required : String) : Taking (Value × Value)
  | b :: a :: rest => .ok ((a, b), rest)
  | _ => .error (.tooFew required)

/-- Takes three operands, in the order in which they were pushed. -/
def three (required : String) : Taking (Value × Value × Value)
  | c :: b :: a :: rest => .ok ((a, b, c), rest)
  | _ => .error (.tooFew required)

/-- Takes four operands, in the order in which they were pushed. -/
def four (required : String) : Taking (Value × Value × Value × Value)
  | d :: c :: b :: a :: rest => .ok ((a, b, c, d), rest)
  | _ => .error (.tooFew required)

/-- Takes all texts on top, of which the first pushed is a name. -/
def nameAndTexts (missing : OperandFault) : Taking (String × List String) := fun ops =>
  match (Operands.splitTexts ops).1.reverse with
  | [] => .error missing
  | name :: texts => .ok ((name, texts), (Operands.splitTexts ops).2)

end Taking

/-! ### Judging operands -/

/-- A judgement in two steps comes to a result when both do. -/
theorem bind_eq_ok_iff {α β ε : Type} {first : Except ε α} {next : α → Except ε β} {b : β} :
    first >>= next = .ok b ↔ ∃ a, first = .ok a ∧ next a = .ok b := by
  cases first with
  | error e => exact ⟨nofun, nofun⟩
  | ok a => exact ⟨fun h => ⟨a, rfl, h⟩, fun ⟨_, ha, h⟩ => Except.ok.inj ha ▸ h⟩

/-- A condition is passed when it holds. -/
theorem ite_eq_ok_iff {ε : Type} {p : Prop} [Decidable p] {e : ε} :
    (if p then .ok () else .error e) = (Except.ok () : Except ε Unit) ↔ p := by
  by_cases h : p
  · simp [h]
  · simp [h]

/-- A judgement in two steps is passed when both are. -/
theorem bind_eq_ok_unit_iff {ε : Type} {first next : Except ε Unit} :
    (do first; next) = .ok () ↔ first = .ok () ∧ next = .ok () :=
  bind_eq_ok_iff.trans ⟨fun ⟨_, h⟩ => h, fun h => ⟨(), h⟩⟩

namespace Book

/-- The text that an operand is to be. -/
def asText (b : Book) (what : String) : Value → Except Fault String
  | .text s => .ok s
  | v => .error (.refused (.operands (.notText what (b.describe v))))

/-- The transfer that an operand is to be. -/
def asTransfer (b : Book) : Value → Except Fault TransferId
  | .transfer id => .ok id
  | v => .error (.refused (.operands (.notTransfer (b.describe v))))

/-- The open account of a name. -/
def findOpen (b : Book) (name : String) : Except Fault AccountId :=
  match b.current? name with
  | none => .error (.refused (.unknownAccount (.reference name)))
  | some id =>
    if b.isClosed id then .error (.refused (.closedAccount (.named name))) else .ok id

/-- Makes sure that a commodity is registered; `role` is what it is asked for. -/
def findCommodity (b : Book) (role name : String) : Except Fault Unit :=
  if b.commodities.contains name then .ok ()
  else .error (.refused (.unknownCommodity (.reference role name)))

end Book

/-- The amount that a text is to be. -/
def asAmount (s : String) : Except Fault Decimal :=
  match Decimal.read s with
  | none => .error (.refused (.amount s))
  | some d => .ok d

end Daybook
