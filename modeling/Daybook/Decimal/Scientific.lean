import Daybook.Decimal.Basic

/-!
# Decimal — written form

A number is written with all digits of its coefficient, so that reading it back gives the same
coefficient and exponent.  It is written plainly if its exponent is not positive and its first digit
stands at the sixth place after the point or before, and otherwise with one digit before the point and a
signed power of ten.
-/

namespace Daybook.Decimal

/-- The least exponent of a first digit that is written without a power of ten. -/
def plainFrom : Int := -6

/-- Digits with a point after the first `before` of them, with zeros where there are none. -/
def pointed (ds : List Char) (before : Int) : List Char :=
  if before ≤ 0 then '0' :: '.' :: (List.replicate (-before).toNat '0' ++ ds)
  else if ds.length ≤ before.toNat then ds ++ List.replicate (before.toNat - ds.length) '0'
  else ds.take before.toNat ++ '.' :: ds.drop before.toNat

/-- A power of ten, with its sign. -/
def power (e : Int) : List Char :=
  'E' :: (if e < 0 then '-' else '+') :: Text.numeral e.natAbs

/-- The characters of a number in its written form. -/
def written (d : Decimal) : List Char :=
  let ds := Text.numeral d.coeff
  let sign := if d.neg then ['-'] else []
  if d.exp ≤ 0 ∧ plainFrom ≤ d.adjusted then sign ++ pointed ds (d.exp + ds.length)
  else if d.adjusted = 0 then sign ++ pointed ds 1
  else sign ++ pointed ds 1 ++ power d.adjusted

/-- The written form of a number. -/
def toString (d : Decimal) : String := String.ofList d.written

instance : ToString Decimal := ⟨toString⟩

end Daybook.Decimal
