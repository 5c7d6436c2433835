import Daybook.Source
import Daybook.Token

/-!
# Lexer

Finds one token after another in a source.  Blanks separate words and are skipped; a word is a longest
run of items that are no blanks, quotes or parentheses; a quoted text runs to the next quote that stands
unescaped.  A source may break off inside a quoted text or after a lone backslash: then no further token
is found, and the same failure comes again at every call.

* `scan_length_lt`: finding a token takes up at least one item.
* `scan_end`: at the end nothing but blanks lies ahead.
* `broken_next_iff`: a lexer is broken when its last call has failed.
* `next_of_broken`, `next_of_finished`: the end of a source is final.
-/

namespace Daybook

/-- How a source can break off. -/
inductive LexError where
  /-- The source ends in a backslash with nothing after it. -/
  | unterminatedEscape
  /-- The source ends inside a quoted text. -/
  | unterminatedQuote
  deriving DecidableEq, Repr, Inhabited

/-- The message of a lexical failure. -/
def LexError.message : LexError → String
  | unterminatedEscape => "unfinished escape at end of file"
  | unterminatedQuote => "unfinished quoted string at end of file"

/-- Finds the first token of a list of items, and the items after it.  `dangling` says that a lone
backslash follows the last item. -/
def scan (dangling : Bool) (is : List Item) : Except LexError (Option (Token × List Item)) :=
  match is.dropWhile Item.isBlank with
  | [] => if dangling then .error .unterminatedEscape else .ok none
  | i :: rest =>
    if i = .plain '(' then .ok (some (.opening, rest))
    else if i = .plain ')' then .ok (some (.closing, rest))
    else if i.isQuote then
      match rest.dropWhile (!·.isQuote) with
      | [] => .error .unterminatedQuote
      | _ :: after => .ok (some (.quoted (Item.spell (rest.takeWhile (!·.isQuote))), after))
    else
      let after := rest.dropWhile Item.inWord
      if after.isEmpty && dangling then .error .unterminatedEscape
      else .ok (some (.word (Item.spell (i :: rest.takeWhile Item.inWord)), after))

private theorem length_dropWhile_le {α : Type} (p : α → Bool) (l : List α) :
    (l.dropWhile p).length ≤ l.length :=
  (List.dropWhile_sublist p).length_le

/-- Finding a token takes up at least one item. -/
theorem scan_length_lt {dangling : Bool} {is rest : List Item} {t : Token}
    (h : scan dangling is = .ok (some (t, rest))) : rest.length < is.length := by
  have hd := length_dropWhile_le Item.isBlank is
  unfold scan at h
  split at h
  · split at h <;> cases h
  · next i after heq =>
    rw [heq, List.length_cons] at hd
    split at h
    · cases h; omega
    split at h
    · cases h; omega
    split at h
    · split at h
      · cases h
      · next _ q last hq =>
        have := length_dropWhile_le (fun i : Item => !i.isQuote) after
        rw [hq, List.length_cons] at this
        cases h
        omega
    · have := length_dropWhile_le Item.inWord after
      dsimp only at h
      split at h
      · cases h
      · cases h
        omega

/-- At the end of a source nothing but blanks lies ahead, and no lone backslash. -/
theorem scan_end {dangling : Bool} {is : List Item} (h : scan dangling is = .ok none) :
    dangling = false ∧ is.dropWhile Item.isBlank = [] := by
  unfold scan at h
  split at h
  · next hblank => exact ⟨by cases dangling with | true => cases h | false => rfl, hblank⟩
  · -- anything but blanks begins a token
    split at h
    · cases h
    split at h
    · cases h
    split at h
    · split at h <;> cases h
    · dsimp only at h
      split at h <;> cases h

/-- A source in the course of being read. -/
structure Lexer where
  /-- The line on which the source ends. -/
  lastLine : Nat
  /-- The items that lie ahead. -/
  ahead : List Item
  /-- Whether a lone backslash follows the last item. -/
  dangling : Bool
  /-- How the source broke off, once it did. -/
  broken : Option LexError
  deriving DecidableEq, Repr

namespace Lexer

/-- A lexer at the beginning of a text. -/
def ofString (s : String) : Lexer :=
  let source := Source.ofString s
  { lastLine := 1 + Item.lineFeeds source.items, ahead := source.items, dangling := source.dangling,
    broken := none }

/-- The line that has been reached, counted from one: the line on which the last token ended. -/
def line (l : Lexer) : Nat := l.lastLine - Item.lineFeeds l.ahead

/-- Finds the next token; `none` is the end of the source. -/
def next (l : Lexer) : Except LexError (Option Token) × Lexer :=
  match l.broken with
  | some e => (.error e, l)
  | none =>
    match scan l.dangling l.ahead with
    | .ok (some (t, rest)) => (.ok (some t), { l with ahead := rest })
    | .ok none => (.ok none, { l with ahead := [] })
    | .error e => (.error e, { l with ahead := [], broken := some e })

/-- A token that is found was scanned, and what comes after it lies ahead. -/
theorem scan_of_next {l l' : Lexer} {t : Token} (h : l.next = (.ok (some t), l')) :
    l.broken = none ∧ ∃ rest, scan l.dangling l.ahead = .ok (some (t, rest))
      ∧ l' = { l with ahead := rest } := by
  simp only [next] at h
  split at h
  · cases h
  · next hbroken =>
    split at h
    · next hscan => cases h; exact ⟨hbroken, _, hscan, rfl⟩
    · cases h
    · cases h

/-- Finding a token leaves fewer items ahead. -/
theorem next_length_lt {l l' : Lexer} {t : Token} (h : l.next = (.ok (some t), l')) :
    l'.ahead.length < l.ahead.length := by
  obtain ⟨-, rest, hscan, rfl⟩ := scan_of_next h
  exact scan_length_lt hscan

/-- At the end of a source there is nothing but blanks to scan. -/
theorem scan_of_next_end {l l' : Lexer} (h : l.next = (.ok none, l')) :
    l.broken = none ∧ scan l.dangling l.ahead = .ok none ∧ l' = { l with ahead := [] } := by
  simp only [next] at h
  split at h
  · cases h
  · next hbroken =>
    split at h
    · cases h
    · next hscan => cases h; exact ⟨hbroken, hscan, rfl⟩
    · cases h

/-- A lexer is broken when its last call has failed. -/
theorem broken_next_iff {l : Lexer} {e : LexError} : l.next.2.broken = some e ↔ l.next.1 = .error e := by
  simp only [next]
  split
  · next hb => simp [hb]
  · next hb =>
    split
    · simp [hb]
    · simp [hb]
    · simp

/-- After a lexical failure the same failure comes again, and nothing else changes. -/
theorem next_of_broken {l : Lexer} {e : LexError} (h : l.broken = some e) : l.next = (.error e, l) := by
  simp [next, h]

/-- At the end of a source the end is found again, and nothing changes. -/
theorem next_of_finished {l l' : Lexer} (h : l.next = (.ok none, l')) : l'.next = (.ok none, l') := by
  obtain ⟨hbroken, hscan, rfl⟩ := scan_of_next_end h
  simp [next, hbroken, (scan_end hscan).1, scan]

/-- The tokens that lie ahead, up to the end of the source or to where it breaks off. -/
def tokens (l : Lexer) : List Token :=
  match _h : l.next with
  | (.ok (some t), l') => t :: l'.tokens
  | (.ok none, _) => []
  | (.error _, _) => []
termination_by l.ahead.length
decreasing_by exact next_length_lt ‹_›

end Lexer

end Daybook
