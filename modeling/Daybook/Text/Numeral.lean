/-!
# Text — numerals

Numbers in base ten, padded with zeros or laid out in a column.

* `zeroPadded_of_nonneg`: a number that is not negative is padded to the width with zeros.
-/

namespace Daybook.Text

/-- The digits of a number in base ten. -/
def numeral (n : Nat) : List Char := Nat.toDigits 10 n

/-- A number in base ten, filled up with zeros to the width; a minus sign counts in the width. -/
def zeroPadded (width : Nat) (n : Int) : String :=
  if n < 0 then String.ofList ('-' :: (numeral n.natAbs).leftpad (width - 1) '0')
  else String.ofList ((numeral n.natAbs).leftpad width '0')

/-- A text with blanks after it, at least as long as the width. -/
def alignLeft (width : Nat) (s : String) : String :=
  s ++ String.ofList (List.replicate (width - s.length) ' ')

/-- A text with blanks before it, at least as long as the width. -/
def alignRight (width : Nat) (s : String) : String :=
  String.ofList (List.replicate (width - s.length) ' ') ++ s

theorem zeroPadded_of_nonneg {width : Nat} {n : Int} (h : 0 ≤ n) :
    zeroPadded width n = String.ofList ((numeral n.natAbs).leftpad width '0') := by
  simp [zeroPadded, Int.not_lt.2 h]

end Daybook.Text
