import Daybook.Decimal.Basic

/-!
# Decimal — sums

Sums are exact where they fit into fifty digits.  A longer sum goes to the nearest number that fits, a
half to the even neighbour; a sum too small for the least exponent goes to the nearest multiple of it,
and one that is too large is refused.

* `exactSum_comm`, `add_comm`: the order of the terms does not matter, not even for the sign and the
  exponent of a zero.
* `dropDigits_eq`: digits are dropped by rounding the quotient, however many are dropped.
* `round_of_fits`: a number that fits is kept as it is.
-/

namespace Daybook

/-- The quotient rounded to the nearest number, a half to the even one. -/
def divHalfEven (n m : Nat) : Nat :=
  if 2 * (n % m) < m then n / m
  else if m < 2 * (n % m) then n / m + 1
  else n / m + n / m % 2

/-- A coefficient without its last `k` digits, rounded.  A number with fewer than `k` digits is less
than half a unit. -/
def dropDigits (n k : Nat) : Nat := if digitCount n < k then 0 else divHalfEven n (powerOfTen k)

namespace Decimal

/-- The digits that a sum keeps. -/
def precision : Nat := 50

/-- The greatest exponent that the first digit of a sum may have. -/
def maxExponent : Int := 999999

/-- The least exponent of a sum. -/
def minExponent : Int := -1000048

/-- The exponent to which a number is rounded. -/
def roundingExponent (d : Decimal) : Int :=
  max d.exp (max (d.adjusted - (precision - 1)) minExponent)

/-- A number brought to the exponent `e`, not below its own. -/
def roundTo (d : Decimal) (e : Int) : Decimal :=
  let c := dropDigits d.coeff (e - d.exp).toNat
  if c = powerOfTen precision then ⟨d.neg, powerOfTen (precision - 1), e + 1⟩ else ⟨d.neg, c, e⟩

/-- The nearest number that a sum may be; `none` if the number is too large. -/
def round (d : Decimal) : Option Decimal :=
  if d.isZero then some { d with exp := max minExponent (min d.exp maxExponent) }
  else
    let r := if d.roundingExponent = d.exp then d else d.roundTo d.roundingExponent
    if maxExponent < r.adjusted then none else some r

/-- The sum at the smaller of the two exponents.  A sum of zero is negative only if both terms are. -/
def exactSum (a b : Decimal) : Decimal :=
  let e := min a.exp b.exp
  let x := a.shifted (a.exp - e).toNat
  let y := b.shifted (b.exp - e).toNat
  if a.neg = b.neg then ⟨a.neg, x + y, e⟩
  else if x = y then ⟨false, 0, e⟩
  else if x < y then ⟨b.neg, y - x, e⟩
  else ⟨a.neg, x - y, e⟩

/-- How far below the last digit of a term another term counts only by its sign. -/
def horizon : Nat := precision + 3

/-- The term `a` as it counts beside `b`: far below the last digit of `b`, any number of its sign does
as well, so a short one takes its place. -/
def beside (a b : Decimal) : Decimal :=
  if b.isZero then a
  else if a.isZero then { a with exp := max a.exp (b.exp - horizon) }
  else if a.adjusted < b.exp - horizon then ⟨a.neg, 1, b.exp - horizon⟩
  else a

/-- The rounded sum; `none` if it is too large. -/
def add (a b : Decimal) : Option Decimal := (exactSum (a.beside b) (b.beside a)).round

/-- The rounded difference; `none` if it is too large. -/
def sub (a b : Decimal) : Option Decimal := a.add b.negate

/-- The sum of a list, rounded after each term, beginning at the plain zero. -/
def sum (ds : List Decimal) : Option Decimal := ds.foldlM add zero

theorem exactSum_comm (a b : Decimal) : exactSum a b = exactSum b a := by
  simp only [exactSum]
  simp only [Int.min_comm b.exp a.exp]
  generalize a.shifted (a.exp - min a.exp b.exp).toNat = x
  generalize b.shifted (b.exp - min a.exp b.exp).toNat = y
  by_cases h : a.neg = b.neg
  · simp [h, Nat.add_comm]
  · have h' : ¬ b.neg = a.neg := fun e => h e.symm
    rcases Nat.lt_trichotomy x y with hl | he | hg
    · simp [h, h', hl, Nat.ne_of_lt hl, Nat.ne_of_gt hl, Nat.not_lt.2 (Nat.le_of_lt hl)]
    · simp [h, h', he]
    · simp [h, h', hg, Nat.ne_of_lt hg, Nat.ne_of_gt hg, Nat.not_lt.2 (Nat.le_of_lt hg)]

/-- The order of the terms does not matter, not even for the sign and the exponent of a zero. -/
theorem add_comm (a b : Decimal) : a.add b = b.add a := by
  simp [add, exactSum_comm (a.beside b)]

/-- A number that fits is kept as it is. -/
theorem round_of_fits {d : Decimal} (hz : d.isZero = false) (he : d.roundingExponent = d.exp)
    (hm : d.adjusted ≤ maxExponent) : d.round = some d := by
  simp [round, hz, he, Int.not_lt.2 hm]

end Decimal

/-- Digits are dropped by rounding the quotient, however many are dropped. -/
theorem dropDigits_eq (n k : Nat) : dropDigits n k = divHalfEven n (powerOfTen k) := by
  simp only [dropDigits]
  split
  · next h =>
    have h₁ := lt_powerOfTen_digitCount n
    have h₂ := powerOfTen_le h
    rw [powerOfTen_succ] at h₂
    have h₃ : 2 * n < powerOfTen k := by omega
    have h₄ : n < powerOfTen k := by omega
    simp [divHalfEven, Nat.mod_eq_of_lt h₄, Nat.div_eq_of_lt h₄, h₃]
  · rfl

end Daybook
