import Daybook.Proofs.Seam

/-!
# Enclosed — a source in parentheses

A source between parentheses is read like the source by itself, as it is with any text after it.  At its end
stands the closing parenthesis, and where the source ends the parenthesis is the next token.

* `enclosed_eq`: the closing parenthesis is text after a source, and ends no line.
* `next_enclosed`, `next_enclosed_end`: so a lexer finds the same tokens, and at the end the parenthesis.
* `next_parenthesised`: the lexer of a source in parentheses, after the opening one.
-/

namespace Daybook

/-- A source text in parentheses. -/
def parenthesised (source : String) : String := "(" ++ source ++ ")"

/-- The item that a closing parenthesis makes after a source: one that a lone backslash frees of its
meaning, or the parenthesis itself. -/
def Source.closing (dangling : Bool) : Item := if dangling then .escaped ')' else .plain ')'

open Source (closing)

namespace Lexer

/-- The lexer of a source in parentheses, after the opening one. -/
def enclosed (l : Lexer) : Lexer :=
  { l with ahead := l.ahead ++ [closing l.dangling], dangling := false }

/-- The closing parenthesis is text after a source, and ends no line. -/
theorem enclosed_eq (l : Lexer) : l.enclosed = l.followedBy ')' ⟨[], false⟩ := rfl

theorem line_enclosed (l : Lexer) : l.enclosed.line = l.line := by
  rw [enclosed_eq, line_followedBy]

/-- A source in parentheses has the tokens of the source. -/
theorem next_enclosed {l l' : Lexer} {t : Token} (h : l.next = (.ok (some t), l')) :
    l.enclosed.next = (.ok (some t), l'.enclosed) := by
  rw [enclosed_eq, next_followedBy rfl h, enclosed_eq]

/-- At its end the parenthesis is found, and then nothing more. -/
theorem next_enclosed_end {l l' : Lexer} (h : l.next = (.ok none, l')) :
    l.enclosed.next = (.ok (some .closing), l') := by
  rw [enclosed_eq, next_followedBy_end h, (eq_of_next_end h).2]
  rfl

/-- The first token of a source in parentheses is the opening one. -/
theorem next_parenthesised (source : String) :
    (ofString (parenthesised source)).next = (.ok (some .opening), (ofString source).enclosed) := by
  have hchars : (parenthesised source).toList = '(' :: (source ++ String.singleton ')' ++ "").toList := by
    simp [parenthesised]
  -- the parenthesis in front makes one more item, and ends no line
  have hsource : Source.ofString (parenthesised source)
      = .cons (.plain '(') (.ofString (source ++ String.singleton ')' ++ "")) := by
    simp only [Source.ofString]
    rw [hchars, Source.ofChars_cons (by decide)]
  have hjoin : ofString (source ++ String.singleton ')' ++ "") = (ofString source).enclosed :=
    (ofString_join (by decide) source "").trans (enclosed_eq _).symm
  have hlines (is : List Item) : Item.lineFeeds (.plain '(' :: is) = Item.lineFeeds is :=
    (Item.lineFeeds_append [.plain '('] is).trans (Nat.zero_add _)
  rw [← hjoin]
  simp only [ofString, hsource, Source.cons, hlines]
  rfl

end Lexer

end Daybook
