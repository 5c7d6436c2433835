import Daybook.Tutorial

/-!
# Command line

Prints the tutorial; without `--quick` it waits for the reader after each step.
-/

namespace Daybook

/-- Prints lines. -/
def printLines (lines : List String) : IO Unit := lines.forM IO.println

/-- Prints a step, and waits unless the reader is quick. -/
def printStep (quick : Bool) (s : Tutorial.Step) : IO Unit := do
  printLines s.lines
  if !quick then
    IO.print "\n[Press Enter to continue...]"
    (← IO.getStdout).flush
    let _ ← (← IO.getStdin).getLine

end Daybook

def main (args : List String) : IO Unit := do
  Daybook.Tutorial.steps.forM (Daybook.printStep (args.contains "--quick"))
  Daybook.printLines Daybook.Tutorial.ending
