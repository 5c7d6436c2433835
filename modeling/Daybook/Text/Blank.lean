/-!
# Text — blank characters

The characters that separate words of a ledger: every character with the bidirectional type
"whitespace", "paragraph separator" or "segment separator", and every space separator.  Only the line
feed ends a line (`lineFeeds`).

* `isBlank_of_isWhitespace`: the five blanks of the core library are blank.
* `lineFeeds_append`: line feeds are counted piecewise.
-/

namespace Daybook.Text

/-- The code points of the blank characters, as ranges with both ends. -/
def blankRanges : List (Nat × Nat) :=
  [(0x9, 0xd), (0x1c, 0x20), (0x85, 0x85), (0xa0, 0xa0), (0x1680, 0x1680), (0x2000, 0x200a),
   (0x2028, 0x2029), (0x202f, 0x202f), (0x205f, 0x205f), (0x3000, 0x3000)]

/-- Whether a character separates words. -/
def isBlank (c : Char) : Bool :=
  blankRanges.any fun r => r.1 ≤ c.toNat && c.toNat ≤ r.2

/-- How many lines a text ends: its number of line feeds. -/
def lineFeeds (cs : List Char) : Nat := cs.count '\n'

/-- The blanks of the core library are blank here. -/
theorem isBlank_of_isWhitespace {c : Char} (h : c.isWhitespace = true) : isBlank c = true := by
  simp only [Char.isWhitespace, Bool.or_eq_true, decide_eq_true_eq] at h
  rcases h with (((rfl | rfl) | rfl) | rfl) <;> decide

theorem isBlank_newline : isBlank '\n' = true := by decide

@[simp] theorem lineFeeds_nil : lineFeeds [] = 0 := rfl

@[simp] theorem lineFeeds_append (a b : List Char) : lineFeeds (a ++ b) = lineFeeds a + lineFeeds b :=
  List.count_append

end Daybook.Text
