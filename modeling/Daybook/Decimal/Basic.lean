import Daybook.Text.Numeral

/-!
# Decimal — numbers

A decimal is a sign, a coefficient and a power of ten, and stands for `± coeff · 10 ^ exp`.  Different
decimals may stand for one value: `1.0` and `1.00` differ in their coefficients, and zeros have a sign
and an exponent of their own.  Amounts keep both, so that they are shown as they were written.

* `lt_powerOfTen_digitCount`: a number of `k` digits is below `10 ^ k`.
* `sameValue_self`, `sameValue_comm`: comparison by value is reflexive and symmetric.
* `sameValue_of_zero`: zeros are of the same value, whatever their signs and exponents.
-/

namespace Daybook

/-- A decimal number `± coeff · 10 ^ exp`. -/
structure Decimal where
  /-- Whether the sign is a minus; zeros have a sign too. -/
  neg : Bool
  coeff : Nat
  exp : Int
  deriving DecidableEq, Repr, Inhabited

/-- The power `10 ^ k`. -/
def powerOfTen (k : Nat) : Nat := Nat.pow 10 k

/-- How many digits a number has in base ten; zero has one. -/
def digitCount (n : Nat) : Nat := (Text.numeral n).length

theorem powerOfTen_succ (k : Nat) : powerOfTen (k + 1) = powerOfTen k * 10 := rfl

theorem powerOfTen_le {j k : Nat} (h : j ≤ k) : powerOfTen j ≤ powerOfTen k :=
  Nat.pow_le_pow_right (by decide) h

theorem lt_powerOfTen_digitCount (n : Nat) : n < powerOfTen (digitCount n) :=
  (Nat.length_toDigits_le_iff (by decide) Nat.length_toDigits_pos).1 (Nat.le_refl _)

namespace Decimal

/-- The plain zero. -/
def zero : Decimal := ⟨false, 0, 0⟩

/-- Whether the value is zero. -/
def isZero (d : Decimal) : Bool := d.coeff == 0

/-- The exponent of the first digit. -/
def adjusted (d : Decimal) : Int := d.exp + digitCount d.coeff - 1

/-- The number with the other sign. -/
def negate (d : Decimal) : Decimal := { d with neg := !d.neg }

/-- The coefficient, multiplied by a power of ten; a zero stays as it is at any power. -/
def shifted (d : Decimal) (k : Nat) : Nat := if d.coeff = 0 then 0 else d.coeff * powerOfTen k

/-- Whether two numbers have the same value.  Numbers whose first digits stand at different places
differ, so the coefficients are only brought to one exponent where these are near each other. -/
def sameValue (a b : Decimal) : Bool :=
  if a.isZero || b.isZero then a.isZero && b.isZero
  else a.neg == b.neg && a.adjusted == b.adjusted &&
    a.coeff * powerOfTen (a.exp - b.exp).toNat == b.coeff * powerOfTen (b.exp - a.exp).toNat

theorem isZero_iff {d : Decimal} : d.isZero = true ↔ d.coeff = 0 := by
  simp [isZero]

theorem shifted_eq (d : Decimal) (k : Nat) : d.shifted k = d.coeff * powerOfTen k := by
  simp only [shifted]
  split
  · next h => simp [h]
  · rfl

@[simp] theorem negate_coeff (d : Decimal) : d.negate.coeff = d.coeff := rfl

@[simp] theorem negate_exp (d : Decimal) : d.negate.exp = d.exp := rfl

theorem sameValue_self (d : Decimal) : d.sameValue d = true := by
  simp only [sameValue]
  cases d.isZero
  · simp only [Bool.or_self, Bool.false_eq_true, if_false, beq_self_eq_true, Bool.and_self]
  · rfl

theorem sameValue_comm (a b : Decimal) : a.sameValue b = b.sameValue a := by
  simp only [sameValue]
  rw [Bool.or_comm, Bool.and_comm, BEq.comm (a := a.neg), BEq.comm (a := a.adjusted),
    BEq.comm (a := a.coeff * powerOfTen (a.exp - b.exp).toNat)]

theorem sameValue_of_zero {a b : Decimal} (ha : a.isZero = true) (hb : b.isZero = true) :
    a.sameValue b = true := by
  simp [sameValue, ha, hb]

end Decimal

end Daybook
