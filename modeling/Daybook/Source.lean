import Daybook.Text.Blank

/-!
# Source texts

A source text is read as a list of items: a character as it stands, or a character that a backslash
frees of its meaning.  Where items begin does not depend on quotes or scopes, so a text is cut into items
once, before tokens are sought; a backslash with nothing after it is remembered as `dangling`.

* `written_ofChars`: the items of a text, written out, are the text again.
-/

namespace Daybook

open Text (isBlank lineFeeds)

/-- One step of reading: a character as it stands, or a character after a backslash. -/
inductive Item where
  | plain (c : Char)
  | escaped (c : Char)
  deriving DecidableEq, Repr, Inhabited

namespace Item

/-- The character that an item contributes to a token. -/
def char : Item → Char
  | plain c => c
  | escaped c => c

/-- The characters of the source that an item takes up. -/
def written : Item → List Char
  | plain c => [c]
  | escaped c => ['\\', c]

/-- Whether an item separates words. -/
def isBlank : Item → Bool
  | plain c => Text.isBlank c
  | escaped _ => false

/-- Whether an item closes a quoted text, or opens one. -/
def isQuote (i : Item) : Bool := i == plain '"'

/-- Whether an item belongs to the word it follows or begins: all do but blanks, quotes and
parentheses as they stand. -/
def inWord : Item → Bool
  | plain c => !(Text.isBlank c || c == '"' || c == '(' || c == ')')
  | escaped _ => true

end Item

/-- The text that a list of items contributes to a token. -/
def Item.spell (is : List Item) : String := String.ofList (is.map Item.char)

/-- How many lines a list of items ends. -/
def Item.lineFeeds (is : List Item) : Nat := Text.lineFeeds (is.map Item.char)

/-- A source text, cut into items. -/
structure Source where
  /-- The items, in order. -/
  items : List Item
  /-- Whether the text ends in a backslash that has nothing to free. -/
  dangling : Bool
  deriving DecidableEq, Repr

namespace Source

/-- Puts an item in front. -/
def cons (i : Item) (s : Source) : Source := { s with items := i :: s.items }

/-- Cuts a text into items. -/
def ofChars : List Char → Source
  | [] => ⟨[], false⟩
  | ['\\'] => ⟨[], true⟩
  | '\\' :: c :: cs => cons (.escaped c) (ofChars cs)
  | c :: cs => cons (.plain c) (ofChars cs)

/-- Cuts a text into items. -/
def ofString (s : String) : Source := ofChars s.toList

/-- The text of a source. -/
def written (s : Source) : List Char :=
  s.items.flatMap Item.written ++ if s.dangling then ['\\'] else []

theorem written_cons (i : Item) (s : Source) : (cons i s).written = i.written ++ s.written :=
  List.append_assoc _ _ _

/-- The items of a text, written out, are the text again. -/
theorem written_ofChars (cs : List Char) : (ofChars cs).written = cs := by
  fun_induction ofChars cs with
  | case1 => rfl
  | case2 => rfl
  | case3 c cs ih => simp [written_cons, Item.written, ih]
  | case4 c cs _ _ ih => simp [written_cons, Item.written, ih]

end Source

@[simp] theorem Item.lineFeeds_nil : Item.lineFeeds [] = 0 := rfl

@[simp] theorem Item.lineFeeds_append (a b : List Item) :
    Item.lineFeeds (a ++ b) = Item.lineFeeds a + Item.lineFeeds b := by
  simp [Item.lineFeeds]

end Daybook
