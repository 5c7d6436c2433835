import Mathlib.Data.List.Chain
import Daybook.Proofs.CharLexer

/-!
# Printing — tokens written out and found again

Tokens can be written out so that a lexer finds just them.  In a text a backslash goes before each character
that cannot stand there, and before any others one likes; a quoted text goes between quotes; blanks may go
between any two tokens, and must go between two unquoted texts.

* `Printing`, `printed`: a token with the way in which it is written, and tokens written one after the other.
* `Printable`: no empty word, and blanks where they are needed.
* `spells_printChars`, `lexeme_body`: what is written spells the text, and is a token of the grammar.
* `decomposes_printed`: **tokens that are written out are cut into themselves**.
* `found_printed`: **so a lexer finds them**, and then the end.
-/

namespace Daybook

open Text (isBlank)

/-- Whether a token is an unquoted text. -/
def Token.isWord : Token → Bool
  | .word _ => true
  | .quoted _ => false
  | .opening => false
  | .closing => false

/-- Writes the characters of a text: after a backslash those that cannot stand in it, and those that are marked;
`marks` goes along with the characters, and marks none where it is over. -/
def printChars (quoted : Bool) : List Char → List Bool → List Char
  | [], _ => []
  | c :: cs, marks =>
    (if !standsIn quoted c || marks.headD false then ['\\', c] else [c]) ++ printChars quoted cs marks.tail

/-- A token with the way in which it is written. -/
structure Printing where
  token : Token
  /-- Which characters of its text have a backslash, besides those that need one. -/
  marks : List Bool
  /-- What stands before it. -/
  gap : List Char

namespace Printing

/-- A token as it is written. -/
def body (p : Printing) : List Char :=
  match p.token with
  | .word s => printChars false s.toList p.marks
  | .quoted s => '"' :: (printChars true s.toList p.marks ++ ['"'])
  | .opening => ['(']
  | .closing => [')']

/-- A token with what stands before it. -/
def piece (p : Printing) : Piece := ⟨p.gap ++ p.body, p.token⟩

end Printing

/-- Tokens as they are written, one after the other. -/
def printed (ps : List Printing) : List Char := Piece.texts (ps.map Printing.piece)

/-- Tokens that can be written out in this way: no unquoted text is empty, only blanks stand between tokens,
and some between any two unquoted texts. -/
structure Printable (ps : List Printing) : Prop where
  nonempty : ∀ p ∈ ps, p.token ≠ .word ""
  blank : ∀ p ∈ ps, ∀ c ∈ p.gap, isBlank c = true
  apart : ps.IsChain fun p q => p.token.isWord = true → q.token.isWord = true → q.gap ≠ []

/-- What is written spells the text. -/
theorem spells_printChars (quoted : Bool) (cs : List Char) (marks : List Bool) :
    Spells quoted (printChars quoted cs marks) cs := by
  induction cs generalizing marks with
  | nil => exact .nil
  | cons c cs ih =>
      rw [printChars]
      split
      · exact .escaped c (ih _)
      · next hmarked =>
          have hstands : standsIn quoted c = true := by
            cases hc : standsIn quoted c with
            | true => rfl
            | false => exact absurd (by rw [hc]; rfl) hmarked
          exact .plain hstands (ih _)

theorem printChars_ne_nil {quoted : Bool} {cs : List Char} (h : cs ≠ []) (marks : List Bool) :
    printChars quoted cs marks ≠ [] := by
  cases cs with
  | nil => exact absurd rfl h
  | cons c cs =>
      rw [printChars]
      split <;> exact List.cons_ne_nil _ _

/-- A token as it is written is a token of the grammar, if the end of an unquoted text is marked by what
follows. -/
theorem lexeme_body {p : Printing} (hne : p.token ≠ .word "") {rest : List Char}
    (hend : p.token.isWord = true → ∀ c ∈ rest.head?, delimits c = true) : Lexeme p.token p.body rest := by
  obtain ⟨token, marks, gap⟩ := p
  cases token with
  | word s =>
      have hchars : s.toList ≠ [] := fun h => hne (congrArg Token.word (String.toList_inj.1 h))
      have hspells := spells_printChars false s.toList marks
      have hword := Lexeme.word hspells (printChars_ne_nil hchars marks) (hend rfl)
      rwa [String.ofList_toList] at hword
  | quoted s =>
      have hquoted := Lexeme.quoted (spells_printChars true s.toList marks) rest
      rwa [String.ofList_toList] at hquoted
  | opening => exact .opening rest
  | closing => exact .closing rest

theorem printed_cons (p : Printing) (ps : List Printing) :
    printed (p :: ps) = p.gap ++ p.body ++ printed ps := rfl

theorem Printable.tail {p : Printing} {ps : List Printing} (h : Printable (p :: ps)) : Printable ps where
  nonempty := (List.forall_mem_cons.1 h.nonempty).2
  blank := (List.forall_mem_cons.1 h.blank).2
  apart := h.apart.tail

/-- A token other than an unquoted text begins with a character that ends one. -/
theorem exists_delimiter_body {p : Printing} (h : p.token.isWord = false) :
    ∃ c cs, p.body = c :: cs ∧ delimits c = true := by
  obtain ⟨token, marks, gap⟩ := p
  cases token with
  | word s => cases h
  | quoted s => exact ⟨'"', _, rfl, rfl⟩
  | opening => exact ⟨'(', [], rfl, rfl⟩
  | closing => exact ⟨')', [], rfl, rfl⟩

/-- After an unquoted text stands a character that ends it, or nothing. -/
theorem delimits_head_printed {p : Printing} {ps : List Printing} (h : Printable (p :: ps))
    (hword : p.token.isWord = true) : ∀ c ∈ (printed ps).head?, delimits c = true := by
  cases ps with
  | nil => exact nofun
  | cons q ps =>
      have hblank := h.tail.blank q List.mem_cons_self
      have hapart := (List.isChain_cons_cons.1 h.apart).1 hword
      rw [printed_cons]
      cases hgap : q.gap with
      | cons c gap =>
          rw [hgap] at hblank
          rintro d ⟨⟩
          exact delimits_of_isBlank (hblank c List.mem_cons_self)
      | nil =>
          have hother : q.token.isWord = false := by
            cases hq : q.token.isWord with
            | false => rfl
            | true => exact absurd hgap (hapart hq)
          obtain ⟨c, cs, hbody, hc⟩ := exists_delimiter_body hother
          rw [hbody]
          rintro d ⟨⟩
          exact hc

/-- **Tokens that are written out are cut into themselves.** -/
theorem decomposes_printed {ps : List Printing} (h : Printable ps) :
    Decomposes (printed ps) (ps.map Printing.piece) none := by
  induction ps with
  | nil => exact .last (fun _ h => absurd h List.not_mem_nil) .finished
  | cons p ps ih =>
      have hlexeme := lexeme_body (h.nonempty p List.mem_cons_self) (delimits_head_printed h)
      exact .piece (h.blank p List.mem_cons_self) hlexeme (ih h.tail)

/-- **Lexing undoes printing.**  Tokens that are written out are found again, in their order, and after them
the end; by both lexers. -/
theorem found_printed {ps : List Printing} (h : Printable ps) (n : Nat) :
    found Lexer.next (.ofString (String.ofList (printed ps))) n = .ok (ps.map Printing.token)[n]?
      ∧ found CharLexer.next (.ofString (String.ofList (printed ps))) n = .ok (ps.map Printing.token)[n]? := by
  have hd := decomposes_printed h
  have hfound : foundAt (ps.map Printing.piece) none n = .ok (ps.map Printing.token)[n]? := by
    rw [foundAt, List.getElem?_map, List.getElem?_map]
    cases ps[n]? with
    | none => rfl
    | some p => rfl
  have hlexer := Lexer.stands_ofString (String.ofList (printed ps))
  have hchar := CharLexer.stands_ofString (String.ofList (printed ps))
  rw [String.toList_ofList] at hlexer hchar
  rw [← hfound]
  exact ⟨Lexer.follows.found_eq hd hlexer n, CharLexer.follows.found_eq hd hchar n⟩

/-- Tokens in every neighbourhood without a blank, with characters that need a backslash and one that does
not. -/
def crowded : List Printing :=
  [⟨.word "a b", [true], []⟩, ⟨.quoted "\"\\\n", [], []⟩, ⟨.word "\n(", [], []⟩, ⟨.word "c", [], [' ', '\n']⟩,
   ⟨.opening, [], []⟩, ⟨.quoted "", [], []⟩, ⟨.quoted ")", [], []⟩, ⟨.closing, [], []⟩]

theorem found_printed_crowded :
    Printable crowded ∧ String.ofList (printed crowded) = "\\a\\ b\"\\\"\\\\\n\"\\\n\\( \nc(\"\"\")\")"
      ∧ ∀ n, found Lexer.next (.ofString (String.ofList (printed crowded))) n
        = .ok [Token.word "a b", .quoted "\"\\\n", .word "\n(", .word "c", .opening, .quoted "", .quoted ")",
          .closing][n]? := by
  have hblank : ∀ p ∈ crowded, p.gap.all isBlank = true := by decide
  have hprintable : Printable crowded :=
    ⟨by decide, fun p hp => List.all_eq_true.1 (hblank p hp), by simp [crowded, Token.isWord]⟩
  exact ⟨hprintable, by decide +kernel, fun n => (found_printed hprintable n).1⟩

end Daybook
