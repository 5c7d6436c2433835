import Daybook.Words.Core

/-!
# Reader

Reads a ledger: runs its source on a machine whose context has a book, and checks at the end of the source
that scopes and operands come out even.  A failure is reported with the date of the clock.  After a stop or
a failure the reader can go on from where it is.

* `read_of_stopped`: a stopped run is not checked.
-/

namespace Daybook

/-- A ledger in the course of being read. -/
structure Reader (σ : Type) where
  lexer : Lexer
  machine : Machine σ

namespace Reader

variable {σ : Type}

/-- A reader at the beginning of a source. -/
def start (source : String) (context : σ) : Reader σ := ⟨.ofString source, .start context⟩

/-- A report with the date of the clock. -/
def dated (book : Book) (r : Report) : Report := { r with date := some book.date }

/-- Reads on, until the source ends, a word stops the run, or something fails.  `book` is the book in a
context. -/
def read (book : σ → Book) (v : Vocabulary σ) (r : Reader σ) : Outcome × Reader σ :=
  let run := r.machine.run v r.lexer
  let after : Reader σ := ⟨run.lexer, run.machine⟩
  match run.outcome with
  | .stopped => (.stopped, after)
  | .exceeded excess => (.exceeded excess, after)
  | .failed report => (.failed (dated (book run.machine.context) report), after)
  | .completed =>
    match run.machine.finish with
    | none => (.completed, after)
    | some e =>
      (.failed (dated (book run.machine.context) ⟨run.lexer.line, .scoping e, none⟩), after)

/-- The line that closes the announcements of a run that did not fail. -/
def closing? (book : Book) : Outcome → Option String
  | .completed => some ("✓ COMPLETED: " ++ book.summary)
  | .stopped => some ("✓ STOPPED: " ++ book.summary)
  | .failed _ => none
  | .exceeded _ => none

/-- The announcements of a run that began with `seen` events in the journal. -/
def announcements (seen : Nat) (book : Book) (outcome : Outcome) : List String :=
  book.announcements seen ++ (closing? book outcome).toList

/-- A stopped run is not checked. -/
theorem read_of_stopped {book : σ → Book} {v : Vocabulary σ} {r : Reader σ}
    (h : (r.machine.run v r.lexer).outcome = .stopped) :
    r.read book v
      = (.stopped, ⟨(r.machine.run v r.lexer).lexer, (r.machine.run v r.lexer).machine⟩) := by
  simp [read, h]

end Reader

/-- Reads a whole ledger with the core vocabulary into an empty book. -/
def Book.ofSource (source : String) : Outcome × Book :=
  let (outcome, r) := (Reader.start source Book.empty).read id .core
  (outcome, r.machine.context)

end Daybook
