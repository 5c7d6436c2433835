import Daybook.Lexer
import Daybook.Refusal

/-!
# Causes

Why a run fails: the source breaks off, scopes and operands do not come out even, or a word refuses.  A
report adds the line and, where there is a clock, its date.
-/

namespace Daybook

/-- The word that erases the rest of its scope. -/
def silenceWord : String := "silence"

/-- How scopes and operands do not come out even. -/
inductive ScopeError where
  | unmatchedClosing
  /-- A scope ends with operands left in it. -/
  | unconsumed (count : Nat)
  | silenceOutside
  /-- The source ends with operands left. -/
  | leftover (count : Nat)
  | unclosed (count : Nat)
  | silencedAtEnd
  deriving DecidableEq, Repr

/-- The message of scopes that do not come out even. -/
def ScopeError.message : ScopeError → String
  | unmatchedClosing => "closing parenthesis does not have a matching open parenthesis"
  | unconsumed n => toString n ++ " unconsumed operands at closing parenthesis"
  | silenceOutside => "found " ++ Text.inQuotes silenceWord ++ " outside parentheses"
  | leftover n => toString n ++ " unconsumed tokens left on stack at EOF"
  | unclosed n => toString n ++ " unclosed parentheses at EOF"
  | silencedAtEnd => "parser evaluation silenced at EOF"

/-- Why a run fails. -/
inductive Cause where
  | lexical (error : LexError)
  | scoping (error : ScopeError)
  | refused (refusal : Refusal)
  deriving DecidableEq, Repr

/-- The message of a cause. -/
def Cause.message : Cause → String
  | lexical e => e.message
  | scoping e => e.message
  | refused r => r.message

/-- How a step of a run fails: for a cause that is reported, or because a number left its range. -/
inductive Failure where
  | failed (cause : Cause)
  | exceeded (excess : Excess)
  deriving DecidableEq, Repr

/-- A fault of a step on a book, as the failure of a word, or of no word. -/
def Fault.toFailure (word : Option String) : Fault → Failure
  | refused ground => .failed (.refused ⟨word, ground⟩)
  | exceeded excess => .exceeded excess

/-- What is reported of a failed run. -/
structure Report where
  line : Nat
  cause : Cause
  /-- The date of the clock, if the run had one. -/
  date : Option Date
  deriving DecidableEq, Repr

/-- A message after its line, and after the date if there is one. -/
def located (date : Option Date) (line : Int) (message : String) : String :=
  (match date with
    | none => ""
    | some d => d.toString ++ ": ") ++ toString line ++ ": " ++ message

/-- The message of a report: date, line and cause. -/
def Report.message (r : Report) : String := located r.date r.line r.cause.message

end Daybook
