import Daybook.Value

/-!
# Operands

The operands that a word sees, the last pushed first.  What lies below them on the stack is out of reach.

* `splitTexts_eq`, `splitTransfers_eq`: splitting loses nothing, and what is split off is put back by
  pushing it again.
* `pop_append`: what is popped and what remains make up the whole.
-/

namespace Daybook

/-- Operands, the last pushed first. -/
abbrev Operands := List Value

/-- The operands of a stack that lie above a height, and the rest below. -/
structure View where
  visible : Operands
  hidden : Operands
  deriving DecidableEq, Repr

/-- A view was asked for from a height above the top of the stack. -/
structure FloorError where
  floor : Nat
  height : Nat
  deriving DecidableEq, Repr

/-- The message of a view that cannot be had. -/
def FloorError.message (e : FloorError) : String :=
  "floor " ++ toString e.floor ++ " beyond stack length " ++ toString e.height

namespace Operands

/-- The view of a stack, the last pushed first, from a height. -/
def view (stack : Operands) (floor : Nat) : Except FloorError View :=
  if stack.length < floor then .error ⟨floor, stack.length⟩
  else .ok ⟨stack.take (stack.length - floor), stack.drop (stack.length - floor)⟩

/-- The operands in the order in which they were pushed. -/
def values (ops : Operands) : List Value := ops.reverse

/-- Pushes values one after the other. -/
def push (ops : Operands) (vs : List Value) : Operands := vs.reverse ++ ops

/-- Pops up to `n` values; the values popped are in the order in which they were pushed. -/
def pop (ops : Operands) (n : Nat) : List Value × Operands := ((ops.take n).reverse, ops.drop n)

/-- Splits off the texts on top, the last pushed first. -/
def splitTexts : Operands → List String × Operands
  | .text s :: ops => (s :: (splitTexts ops).1, (splitTexts ops).2)
  | ops => ([], ops)

/-- Splits off the transfers on top, the last pushed first. -/
def splitTransfers : Operands → List TransferId × Operands
  | .transfer id :: ops => (id :: (splitTransfers ops).1, (splitTransfers ops).2)
  | ops => ([], ops)

/-- How many texts lie on top. -/
def trailingTexts (ops : Operands) : Nat := (splitTexts ops).1.length

theorem splitTexts_eq (ops : Operands) :
    ops = (splitTexts ops).1.map Value.text ++ (splitTexts ops).2 := by
  fun_induction splitTexts ops with
  | case1 s ops ih => simpa using ih
  | case2 ops _ => simp

theorem splitTransfers_eq (ops : Operands) :
    ops = (splitTransfers ops).1.map Value.transfer ++ (splitTransfers ops).2 := by
  fun_induction splitTransfers ops with
  | case1 id ops ih => simpa using ih
  | case2 ops _ => simp

theorem pop_append (ops : Operands) (n : Nat) : (ops.pop n).2.push (ops.pop n).1 = ops := by
  simp [pop, push]

end Operands

end Daybook
