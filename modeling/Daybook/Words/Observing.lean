import Daybook.Words.Posting

/-!
# Words — observing a run

Words can be replaced to observe a run: a register is kept beside the book, and a word may add to it.
Keeping a register changes nothing else.

* `beside_eq`: a word beside a register does what it does alone.
-/

namespace Daybook

/-- A context with a register beside it, the last entry first. -/
structure Observed (κ σ : Type) where
  context : σ
  register : List κ

namespace Observed

variable {κ σ : Type}

/-- A context with an empty register. -/
def new (context : σ) : Observed κ σ := ⟨context, []⟩

/-- The same desk without the register. -/
def desk (d : Desk (Observed κ σ)) : Desk σ := ⟨d.operands, d.context.context⟩

/-- A desk with the register of another one. -/
def handBack (d : Desk (Observed κ σ)) (d' : Desk σ) : Desk (Observed κ σ) :=
  ⟨d'.operands, ⟨d'.context, d.context.register⟩⟩

/-- A desk with one more entry in the register. -/
def enter (d : Desk (Observed κ σ)) (entry : κ) : Desk (Observed κ σ) :=
  ⟨d.operands, ⟨d.context.context, entry :: d.context.register⟩⟩

end Observed

namespace Word

variable {κ σ : Type}

/-- A word beside a register that it does not touch. -/
def beside (w : Word σ) : Word (Observed κ σ) := fun name d =>
  let (r, d') := w name (Observed.desk d)
  (r, Observed.handBack d d')

/-- A word after which an entry is made, unless it fails. -/
def observed (entry : String → Signal → Desk (Observed κ σ) → κ) (w : Word (Observed κ σ)) :
    Word (Observed κ σ) := fun name d =>
  match w name d with
  | (.ok signal, d') => (.ok signal, Observed.enter d' (entry name signal d'))
  | (.error failure, d') => (.error failure, d')

/-- A word beside a register does what it does alone. -/
theorem beside_eq (w : Word σ) (name : String) (d : Desk (Observed κ σ)) :
    ((w.beside name d).1, Observed.desk (w.beside name d).2) = w name (Observed.desk d) := rfl

end Word

/-- A vocabulary beside a register. -/
def Vocabulary.beside {κ σ : Type} (v : Vocabulary σ) : Vocabulary (Observed κ σ) :=
  fun name => (v name).map Word.beside

/-- A vocabulary whose words are all observed. -/
def Vocabulary.observed {κ σ : Type} (entry : String → Signal → Desk (Observed κ σ) → κ)
    (v : Vocabulary (Observed κ σ)) : Vocabulary (Observed κ σ) :=
  fun name => (v name).map (Word.observed entry)

namespace Words

/-- Applies a transaction and makes an entry of it. -/
def recordingTransactions {κ : Type} (entry : Transaction → Book → κ) : Word (Observed κ Book) := fun name d =>
  match perform takeTransaction applyTransaction name (Observed.desk d) with
  | (.ok x, d') => (.ok .proceed, Observed.enter (Observed.handBack d d') (entry x d'.context))
  | (.error failure, d') => (.error failure, Observed.handBack d d')

end Words

end Daybook
