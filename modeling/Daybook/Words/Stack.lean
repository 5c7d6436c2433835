import Daybook.Machine

/-!
# Words — moving operands about

Words that a vocabulary may add.  Each of them sees the operands of the innermost scope only.
-/

namespace Daybook.Words

variable {σ : Type}

/-- A word that does nothing but change the operands. -/
def onOperands (f : Operands → Operands) : Word σ := fun _ d =>
  (.ok .proceed, { d with operands := f d.operands })

/-- Discards the last operand, if there is one. -/
def drop : Word σ := onOperands (·.drop 1)

/-- Discards all operands. -/
def clear : Word σ := onOperands fun _ => []

/-- Pushes the last operand again, if there is one. -/
def dup : Word σ := onOperands fun ops => (ops.take 1) ++ ops

/-- Exchanges the last two operands, if there are two. -/
def swap : Word σ := onOperands fun
  | b :: a :: rest => a :: b :: rest
  | ops => ops

/-- Stops the run. -/
def halt : Word σ := fun _ d => (.ok .stop, d)

end Daybook.Words
