import Daybook.Text.Quoted

/-!
# Tokens

What a source is made of: words, which may name something to do, quoted texts, which never do, and
the two parentheses that bound a scope.
-/

namespace Daybook

/-- A token of a source. -/
inductive Token where
  /-- An unquoted text, which may be the name of a word. -/
  | word (text : String)
  /-- A quoted text. -/
  | quoted (text : String)
  /-- The beginning of a scope. -/
  | opening
  /-- The end of a scope. -/
  | closing
  deriving DecidableEq, Repr, Inhabited

namespace Token

/-- The name of a token's kind. -/
def kind : Token → String
  | word _ => "TEXT"
  | quoted _ => "QUOTED_TEXT"
  | opening => "OPEN_SCOPE"
  | closing => "CLOSE_SCOPE"

/-- The text of a token, empty for a parenthesis. -/
def text : Token → String
  | word s => s
  | quoted s => s
  | opening => ""
  | closing => ""

/-- The kind of token that stands for the end of a source. -/
def endKind : String := "END"

/-- A token as it is shown to a reader. -/
def describe : Token → String
  | word s => "Token(" ++ (word s).kind ++ ", " ++ Text.quoted s ++ ")"
  | quoted s => "Token(" ++ (quoted s).kind ++ ", " ++ Text.quoted s ++ ")"
  | opening => "Token(" ++ opening.kind ++ ")"
  | closing => "Token(" ++ closing.kind ++ ")"

/-- The end of a source as it is shown to a reader. -/
def describeEnd : String := "Token(" ++ endKind ++ ")"

end Token

end Daybook
