import Daybook.Cause
import Daybook.Operands

/-!
# Machine

Runs the tokens of a source as a program in reverse Polish notation.  Texts are pushed as operands, unless
they name a word, which is then called.  Parentheses bound scopes: inside a scope the operands outside it
are out of reach, and the scope must end with no operands of its own.  The word `silence` switches pushing
and calling off until its scope ends.

The operands of each scope are kept apart, so that a word cannot touch those of an enclosing scope: a word
gets a desk with the operands of the innermost scope and the context, and hands it back.

* `step_depth_le`: a token opens or closes at most one scope.
-/

namespace Daybook

/-- Whether the run goes on after a word. -/
inductive Signal where
  | proceed
  | stop
  deriving DecidableEq, Repr

/-- What a word works on: the operands of the innermost scope, and the context. -/
structure Desk (σ : Type) where
  operands : Operands
  context : σ

/-- What is done when a word is called, by the name under which it is called. -/
abbrev Word (σ : Type) := String → Desk σ → Except Failure Signal × Desk σ

/-- A word that also stops the run if it does not fail and a desk results that meets a condition. -/
def Word.stoppingWhen {σ : Type} (p : Desk σ → Bool) (w : Word σ) : Word σ := fun name d =>
  match w name d with
  | (.ok signal, d') => (.ok (if p d' then .stop else signal), d')
  | (.error failure, d') => (.error failure, d')

/-- The words that can be called, by name. -/
abbrev Vocabulary (σ : Type) := String → Option (Word σ)

/-- A vocabulary with a word added or replaced. -/
def Vocabulary.add {σ : Type} (v : Vocabulary σ) (name : String) (w : Word σ) : Vocabulary σ :=
  fun x => if x = name then some w else v x

/-- The vocabulary without words. -/
def Vocabulary.empty {σ : Type} : Vocabulary σ := fun _ => none

/-- A machine between two tokens. -/
structure Machine (σ : Type) where
  /-- The operands of the innermost scope. -/
  visible : Operands
  /-- The operands of the scopes around it, the nearest first. -/
  enclosing : List Operands
  /-- The depth of the scope that is silenced; zero if none is. -/
  silence : Nat
  context : σ

/-- How a run ends. -/
inductive Outcome where
  /-- All tokens were run. -/
  | completed
  /-- A word stopped the run. -/
  | stopped
  | failed (report : Report)
  | exceeded (excess : Excess)
  deriving DecidableEq, Repr

namespace Machine

variable {σ : Type}

/-- A machine before its first token. -/
def start (context : σ) : Machine σ := ⟨[], [], 0, context⟩

/-- How many scopes are open. -/
def depth (m : Machine σ) : Nat := m.enclosing.length

/-- Whether pushing and calling are switched off. -/
def silenced (m : Machine σ) : Bool := m.silence != 0

/-- All operands, the last pushed first. -/
def stack (m : Machine σ) : Operands := m.visible ++ m.enclosing.flatten

/-- The heights of the stack at which scopes begin, the innermost first, given the operands around each. -/
def heights : List Operands → List Nat
  | [] => []
  | os :: rest => (os :: rest).flatten.length :: heights rest

/-- The heights of the stack at which the open scopes begin, the innermost first. -/
def markers (m : Machine σ) : List Nat := heights m.enclosing

/-- The desk for a word called now. -/
def desk (m : Machine σ) : Desk σ := ⟨m.visible, m.context⟩

/-- The machine with a desk handed back. -/
def withDesk (m : Machine σ) (d : Desk σ) : Machine σ :=
  { m with visible := d.operands, context := d.context }

/-- Pushes a text. -/
def pushText (m : Machine σ) (s : String) : Machine σ := { m with visible := .text s :: m.visible }

/-- Runs an unquoted text. -/
def call (v : Vocabulary σ) (m : Machine σ) (s : String) : Except Failure Signal × Machine σ :=
  if m.silenced then (.ok .proceed, m)
  else if s = silenceWord then
    if m.enclosing.isEmpty then (.error (.failed (.scoping .silenceOutside)), m)
    else (.ok .proceed, { m with silence := m.depth })
  else
    match v s with
    | none => (.ok .proceed, m.pushText s)
    | some w =>
      let (r, d) := w s m.desk
      (r, m.withDesk d)

/-- Begins a scope. -/
def openScope (m : Machine σ) : Machine σ :=
  { m with visible := [], enclosing := m.visible :: m.enclosing }

/-- Ends a scope, and with it a silence that began in it. -/
def closeScope (m : Machine σ) : Except Failure Signal × Machine σ :=
  match m.enclosing with
  | [] => (.error (.failed (.scoping .unmatchedClosing)), m)
  | outer :: rest =>
    let m' : Machine σ :=
      { m with
        visible := m.visible ++ outer
        enclosing := rest
        silence := if m.depth = m.silence then 0 else m.silence }
    if m.visible.isEmpty then (.ok .proceed, m')
    else (.error (.failed (.scoping (.unconsumed m.visible.length))), m')

/-- Runs a token. -/
def step (v : Vocabulary σ) (m : Machine σ) : Token → Except Failure Signal × Machine σ
  | .word s => m.call v s
  | .quoted s => (.ok .proceed, if m.silenced then m else m.pushText s)
  | .opening => (.ok .proceed, m.openScope)
  | .closing => m.closeScope

/-- What is amiss at the end of a source. -/
def finish (m : Machine σ) : Option ScopeError :=
  if !m.stack.isEmpty then some (.leftover m.stack.length)
  else if !m.enclosing.isEmpty then some (.unclosed m.depth)
  else if m.silenced then some .silencedAtEnd
  else none

end Machine

/-- A run at its end: how it ended, and what is left of source and machine. -/
structure Run (σ : Type) where
  outcome : Outcome
  lexer : Lexer
  machine : Machine σ

namespace Machine

variable {σ : Type}

/-- Runs the tokens of a source until it ends, a word stops the run, or a token fails. -/
def run (v : Vocabulary σ) (l : Lexer) (m : Machine σ) : Run σ :=
  match _h : l.next with
  | (.error e, l') => ⟨.failed ⟨l'.line, .lexical e, none⟩, l', m⟩
  | (.ok none, l') => ⟨.completed, l', m⟩
  | (.ok (some t), l') =>
    match m.step v t with
    | (.ok .proceed, m') => run v l' m'
    | (.ok .stop, m') => ⟨.stopped, l', m'⟩
    | (.error (.failed cause), m') => ⟨.failed ⟨l'.line, cause, none⟩, l', m'⟩
    | (.error (.exceeded excess), m') => ⟨.exceeded excess, l', m'⟩
termination_by l.ahead.length
decreasing_by exact Lexer.next_length_lt ‹_›

/-- A token opens at most one scope. -/
theorem step_depth_le (v : Vocabulary σ) (m : Machine σ) (t : Token) :
    (m.step v t).2.depth ≤ m.depth + 1 := by
  cases t with
  | word s =>
    simp only [step, call]
    split
    · exact Nat.le_succ _
    split
    · split <;> exact Nat.le_succ _
    split <;> exact Nat.le_succ _
  | quoted s => simp only [step]; split <;> exact Nat.le_succ _
  | opening => exact Nat.le_refl _
  | closing =>
    simp only [step, closeScope]
    split
    · exact Nat.le_succ _
    · next h =>
      split <;> · simp only [depth, h, List.length_cons]; omega

end Machine

end Daybook
