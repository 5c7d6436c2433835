import Daybook.Proofs.Lexing

/-!
# Character by character — a lexer that does not look ahead

A source can also be read one character at a time.  What has been read of a token is then kept from character
to character; and since an unquoted text is known to be over only at the character after it, that character is
kept from call to call: a parenthesis waits as the next token, a quote has begun a quoted text, and a line feed
is still to be counted.  It comes to the same: the tokens of the grammar, the end, and the lines.

* `CharState`, `CharLexer`, `CharLexer.next`: a lexer that reads one character at a time.
* `readOn_gap`, `readOn_spells`: blanks are read over, and characters that spell a text are read as the text.
* `CharLexer.Stands`, `next_eq`: **between calls it is as if the last character had not been read**.
* `CharLexer.follows`: **it follows its source**.
* `lexer_finds_tokens`: **both lexers find the tokens of the grammar**, in the one way in which a source can be
  cut into them.
-/

namespace Daybook

open Text (isBlank lineFeeds)

/-- What is kept while a source is read character by character. -/
structure CharState where
  line : Nat
  /-- A line feed has been read that is to be counted at the next call. -/
  deferredNewline : Bool
  /-- The last character was a backslash that is to free the next one. -/
  escaping : Bool
  /-- A text has begun. -/
  inString : Bool
  /-- The text is quoted. -/
  inQuoted : Bool
  /-- What has been read of the text. -/
  buffer : List Char
  /-- A token that has been read already. -/
  pending : Option Token

namespace CharState

/-- The text that has been read. -/
def text (s : CharState) : String := String.ofList s.buffer

/-- Counts the line that a character ends; later if it ends an unquoted text as well. -/
def countLine (s : CharState) (c : Char) : CharState :=
  if c = '\n' then
    if s.inString && !s.inQuoted && !s.escaping then { s with deferredNewline := true }
    else { s with line := s.line + 1 }
  else s

/-- Adds a character to the text. -/
def collect (s : CharState) (c : Char) : CharState := { s with buffer := s.buffer ++ [c] }

/-- Reads a character, which may end a token. -/
def consume (s : CharState) (c : Char) : Option Token × CharState :=
  let s := s.countLine c
  if s.escaping then (none, { s.collect c with escaping := false, inString := true })
  else if c = '\\' then (none, { s with escaping := true })
  else if s.inString && s.inQuoted then
    if c = '"' then (some (.quoted s.text), { s with inString := false, inQuoted := false, buffer := [] })
    else (none, s.collect c)
  else if s.inString then
    if c = '"' then (some (.word s.text), { s with inQuoted := true, buffer := [] })
    else if c = '(' ∨ c = ')' then
      (some (.word s.text),
        { s with inString := false, pending := some (if c = '(' then .opening else .closing), buffer := [] })
    else if isBlank c then (some (.word s.text), { s with inString := false, buffer := [] })
    else (none, s.collect c)
  else if isBlank c then (none, s)
  else if c = '"' then (none, { s with inString := true, inQuoted := true })
  else if c = '(' then (some .opening, s)
  else if c = ')' then (some .closing, s)
  else (none, { s.collect c with inString := true })

/-- What there is at the end of the source: the last text, or the end. -/
def atEnd (s : CharState) : Except LexError (Option Token) × CharState :=
  if s.inString && s.inQuoted then (.error .unterminatedQuote, s)
  else if s.escaping then (.error .unterminatedEscape, s)
  else if !s.inString then (.ok none, s)
  else (.ok (some (.word s.text)), { s with inString := false, buffer := [] })

end CharState

/-- A source in the course of being read character by character. -/
structure CharLexer where
  state : CharState
  rest : List Char

/-- Reads up to the end of a token, or of the source. -/
def CharState.readOn (s : CharState) : List Char → Except LexError (Option Token) × CharLexer
  | [] => (s.atEnd.1, ⟨s.atEnd.2, []⟩)
  | c :: cs =>
    match s.consume c with
    | (some t, s') => (.ok (some t), ⟨s', cs⟩)
    | (none, s') => s'.readOn cs

namespace CharLexer

/-- A lexer at the beginning of a source. -/
def ofString (source : String) : CharLexer := ⟨⟨1, false, false, false, false, [], none⟩, source.toList⟩

/-- The line that has been reached. -/
def line (l : CharLexer) : Nat := l.state.line

/-- Finds the next token. -/
def next (l : CharLexer) : Except LexError (Option Token) × CharLexer :=
  match l.state.pending with
  | some t => (.ok (some t), { l with state := { l.state with pending := none } })
  | none =>
    if l.state.deferredNewline then
      { l.state with line := l.state.line + 1, deferredNewline := false }.readOn l.rest
    else l.state.readOn l.rest

end CharLexer

/-! ### Reading on -/

namespace CharState

/-- Between two tokens. -/
def idle (line : Nat) : CharState := ⟨line, false, false, false, false, [], none⟩

/-- Within a text. -/
def within (quoted : Bool) (line : Nat) (buffer : List Char) : CharState :=
  ⟨line, false, false, true, quoted, buffer, none⟩

theorem readOn_cons_none {s s' : CharState} {c : Char} (h : s.consume c = (none, s')) (cs : List Char) :
    s.readOn (c :: cs) = s'.readOn cs := by
  rw [readOn, h]

theorem readOn_cons_some {s s' : CharState} {t : Token} {c : Char} (h : s.consume c = (some t, s'))
    (cs : List Char) : s.readOn (c :: cs) = (.ok (some t), ⟨s', cs⟩) := by
  rw [readOn, h]

theorem countLine_of_ne {c : Char} (h : c ≠ '\n') (s : CharState) : s.countLine c = s := if_neg h

theorem lineFeeds_of_ne {c : Char} (h : c ≠ '\n') : lineFeeds [c] = 0 :=
  List.count_eq_zero.2 fun hc => h (List.mem_singleton.1 hc).symm

theorem ne_of_isBlank {c d : Char} (hc : isBlank c = true) (hd : isBlank d = false) : c ≠ d := by
  rintro rfl
  rw [hc] at hd
  cases hd

/-- What stands in an unquoted text is no blank, quote or parenthesis. -/
theorem undelimited {c : Char} (h : standsIn false c = true) :
    isBlank c = false ∧ c ≠ '"' ∧ c ≠ '(' ∧ c ≠ ')' := by
  simpa [delimits, and_assoc] using delimits_of_standsIn h

theorem ne_newline_of_undelimited {c : Char} (h : isBlank c = false) : c ≠ '\n' :=
  (ne_of_isBlank Text.isBlank_newline h).symm

/-- A blank between two tokens may end a line. -/
theorem consume_blank {c : Char} (hc : isBlank c = true) (line : Nat) :
    (idle line).consume c = (none, idle (line + lineFeeds [c])) := by
  have hne : c ≠ '\\' := Source.ne_backslash_of_delimits (delimits_of_isBlank hc)
  by_cases hline : c = '\n'
  · subst hline
    rfl
  · simp [consume, countLine_of_ne hline, lineFeeds_of_ne hline, idle, hne, hc]

/-- A character that stands in a text is collected. -/
theorem consume_plain {quoted : Bool} {c : Char} (hc : standsIn quoted c = true) (line : Nat)
    (buffer : List Char) :
    (within quoted line buffer).consume c = (none, within quoted (line + lineFeeds [c]) (buffer ++ [c])) := by
  have hne := standsIn_ne_backslash hc
  cases quoted with
  | true =>
      have hquote : c ≠ '"' := by
        rintro rfl
        cases hc
      by_cases hline : c = '\n'
      · subst hline
        rfl
      · simp [consume, countLine_of_ne hline, lineFeeds_of_ne hline, within, collect, hne, hquote]
  | false =>
      -- a line feed would end the text
      obtain ⟨hblank, hquote, hopening, hclosing⟩ := undelimited hc
      have hline := ne_newline_of_undelimited hblank
      simp [consume, countLine_of_ne hline, lineFeeds_of_ne hline, within, collect, hne, hblank, hquote,
        hopening, hclosing]

/-- A character after a backslash is collected, and its line counted at once. -/
theorem readOn_escaped {s : CharState} (h : s.escaping = false) (c : Char) (cs : List Char) :
    s.readOn ('\\' :: c :: cs)
      = { s with line := s.line + lineFeeds [c], buffer := s.buffer ++ [c], inString := true }.readOn cs := by
  have hfirst : s.consume '\\' = (none, { s with escaping := true }) := by
    simp [consume, countLine_of_ne, h]
  rw [readOn_cons_none hfirst]
  refine readOn_cons_none ?_ cs
  by_cases hline : c = '\n'
  · subst hline
    simp [consume, countLine, collect, h, lineFeeds]
  · simp [consume, countLine_of_ne hline, lineFeeds_of_ne hline, collect, h]

/-- Blanks are read over. -/
theorem readOn_gap {gap : List Char} (h : ∀ c ∈ gap, isBlank c = true) (line : Nat) (cs : List Char) :
    (idle line).readOn (gap ++ cs) = (idle (line + lineFeeds gap)).readOn cs := by
  induction gap generalizing line with
  | nil => rfl
  | cons c gap ih =>
      obtain ⟨hc, hgap⟩ := List.forall_mem_cons.1 h
      rw [List.cons_append, readOn_cons_none (consume_blank hc line), ih hgap, Nat.add_assoc,
        ← Text.lineFeeds_append]
      rfl

/-- Characters that spell a text are read as the text. -/
theorem readOn_spells {quoted : Bool} {cs text : List Char} (h : Spells quoted cs text) (line : Nat)
    (buffer rest : List Char) :
    (within quoted line buffer).readOn (cs ++ rest)
      = (within quoted (line + lineFeeds cs) (buffer ++ text)).readOn rest := by
  induction h generalizing line buffer with
  | nil => rw [List.append_nil]; rfl
  | @plain c cs text hc _ ih =>
      rw [List.cons_append, readOn_cons_none (consume_plain hc line buffer), ih, Nat.add_assoc,
        ← Text.lineFeeds_append, List.append_assoc]
      rfl
  | @escaped cs text c _ ih =>
      rw [lineFeeds_escaped, ← Nat.add_assoc]
      refine (readOn_escaped rfl c _).trans ((ih _ _).trans ?_)
      rw [List.append_assoc]
      rfl

/-- Between two tokens they begin an unquoted text. -/
theorem readOn_word {cs text : List Char} (h : Spells false cs text) (hne : cs ≠ []) (line : Nat)
    (rest : List Char) :
    (idle line).readOn (cs ++ rest) = (within false (line + lineFeeds cs) text).readOn rest := by
  cases h with
  | nil => exact absurd rfl hne
  | @plain c cs text hc h =>
      have hfirst : (idle line).consume c = (none, within false (line + lineFeeds [c]) [c]) := by
        obtain ⟨hblank, hquote, hopening, hclosing⟩ := undelimited hc
        have hline := ne_newline_of_undelimited hblank
        simp [consume, countLine_of_ne hline, lineFeeds_of_ne hline, idle, within, collect,
          standsIn_ne_backslash hc, hblank, hquote, hopening, hclosing]
      rw [List.cons_append, readOn_cons_none hfirst, readOn_spells h, Nat.add_assoc, ← Text.lineFeeds_append]
      rfl
  | @escaped cs text c h =>
      rw [lineFeeds_escaped, ← Nat.add_assoc]
      exact (readOn_escaped rfl c _).trans (readOn_spells h _ [c] rest)

/-- The character that ends an unquoted text has been read. -/
def held (line : Nat) (c : Char) : CharState :=
  ⟨line, c == '\n', false, c == '"', c == '"', [],
    if c = '(' then some .opening else if c = ')' then some .closing else none⟩

theorem eq_of_delimits {c : Char} (h : delimits c = true) :
    isBlank c = true ∨ c = '"' ∨ c = '(' ∨ c = ')' := by
  simpa [delimits, or_assoc] using h

theorem held_blank {c : Char} (h : isBlank c = true) (line : Nat) :
    held line c = { idle line with deferredNewline := c == '\n' } := by
  simp [held, idle, ne_of_isBlank h (d := '"') rfl, ne_of_isBlank h (d := '(') rfl,
    ne_of_isBlank h (d := ')') rfl]

/-- An unquoted text ends at a character that delimits it. -/
theorem consume_delimiter {c : Char} (hc : delimits c = true) (line : Nat) (buffer : List Char) :
    (within false line buffer).consume c = (some (.word (String.ofList buffer)), held line c) := by
  obtain hblank | rfl | rfl | rfl := eq_of_delimits hc
  · have hne := Source.ne_backslash_of_delimits hc
    rw [held_blank hblank]
    by_cases hline : c = '\n'
    · subst hline
      rfl
    · simp [consume, countLine_of_ne hline, within, idle, text, hne, hline, hblank,
        ne_of_isBlank hblank (d := '"') rfl, ne_of_isBlank hblank (d := '(') rfl,
        ne_of_isBlank hblank (d := ')') rfl]
  · rfl
  · rfl
  · rfl

end CharState

namespace CharLexer

open CharState

/-- A lexer has taken up some characters, and others lie ahead; it may have read the first of them. -/
inductive Stands : CharLexer → List Char → List Char → Prop where
  | idle (before cs : List Char) : Stands ⟨.idle (1 + lineFeeds before), cs⟩ before cs
  | held {c : Char} (hc : delimits c = true) (before cs : List Char) :
      Stands ⟨.held (1 + lineFeeds before) c, cs⟩ before (c :: cs)

theorem stands_ofString (source : String) : (ofString source).Stands [] source.toList := .idle [] _

/-- **Between calls it is as if the last character had not been read.** -/
theorem next_eq {l : CharLexer} {before cs : List Char} (h : l.Stands before cs) :
    l.next = (CharState.idle (1 + lineFeeds before)).readOn cs := by
  cases h with
  | idle => rfl
  | @held c hc before cs =>
      obtain hblank | rfl | rfl | rfl := eq_of_delimits hc
      · rw [readOn_cons_none (consume_blank hblank _), held_blank hblank]
        by_cases hline : c = '\n'
        · subst hline
          rfl
        · have hcount : (c == '\n') = false := beq_eq_false_iff_ne.2 hline
          rw [lineFeeds_of_ne hline, hcount]
          rfl
      · rfl
      · rfl
      · rfl

theorem stands_idle {line : Nat} {before : List Char} (h : line = 1 + lineFeeds before) (cs : List Char) :
    Stands ⟨.idle line, cs⟩ before cs := h ▸ .idle before cs

theorem lineFeeds_inQuotes (cs after : List Char) :
    lineFeeds ('"' :: (cs ++ after)) = lineFeeds cs + lineFeeds after :=
  (lineFeeds_cons _ _).trans ((Nat.zero_add _).trans (Text.lineFeeds_append cs after))

/-- **A token of the grammar is read**, to its last character or the one after it. -/
theorem readOn_lexeme {t : Token} {cs rest : List Char} (h : Lexeme t cs rest) (before : List Char) :
    ∃ l, (CharState.idle (1 + lineFeeds before)).readOn (cs ++ rest) = (.ok (some t), l)
      ∧ l.Stands (before ++ cs) rest := by
  cases h with
  | opening => exact ⟨_, rfl, stands_idle (by rw [Text.lineFeeds_append]; rfl) _⟩
  | closing => exact ⟨_, rfl, stands_idle (by rw [Text.lineFeeds_append]; rfl) _⟩
  | @quoted cs text h =>
      refine ⟨⟨.idle (1 + lineFeeds before + lineFeeds cs), rest⟩, ?_, stands_idle ?_ _⟩
      · rw [List.cons_append, List.append_assoc]
        exact (readOn_spells h _ [] ('"' :: rest)).trans rfl
      · rw [Text.lineFeeds_append, lineFeeds_inQuotes, Nat.add_assoc]
        rfl
  | @word cs text _ h hne hend =>
      rw [readOn_word h hne, Nat.add_assoc, ← Text.lineFeeds_append]
      cases rest with
      | nil => exact ⟨_, rfl, .idle _ _⟩
      | cons c rest =>
          exact ⟨_, readOn_cons_some (consume_delimiter (hend c rfl) _ _) rest, .held (hend c rfl) _ _⟩

/-- **Where no token can be had, the end is read**, and again at every call after it. -/
theorem readOn_break {ending : Option LexError} {cs : List Char} (h : Break ending cs) (line : Nat) :
    ∃ l, (CharState.idle line).readOn cs = (ended ending, l) ∧ l.next = (ended ending, l)
      ∧ l.line = line + lineFeeds cs := by
  cases h with
  | finished => exact ⟨_, rfl, rfl, rfl⟩
  | @inQuotes cs text lone h hlone =>
      have hread : (CharState.idle line).readOn ('"' :: (cs ++ lone))
          = (within true (line + lineFeeds cs) text).readOn lone := readOn_spells h line [] lone
      rw [hread, lineFeeds_inQuotes, ← Nat.add_assoc]
      rcases hlone with rfl | rfl
      · exact ⟨_, rfl, rfl, rfl⟩
      · exact ⟨_, rfl, rfl, rfl⟩
  | @escape cs text h =>
      have hlines : lineFeeds (cs ++ ['\\']) = lineFeeds cs := Text.lineFeeds_append _ _
      rw [hlines]
      by_cases hne : cs = []
      · subst hne
        exact ⟨_, rfl, rfl, rfl⟩
      · rw [readOn_word h hne]
        exact ⟨_, rfl, rfl, rfl⟩

/-- **The lexer that reads character by character follows its source.** -/
theorem follows : Follows next line Stands where
  line_eq := by
    intro l before cs hl
    cases hl with
    | idle => rfl
    | held => rfl
  token := by
    intro l before gap cs rest t hl hgap hlexeme
    obtain ⟨l', hread, hl'⟩ := readOn_lexeme hlexeme (before ++ gap)
    refine ⟨l', ?_, by rw [← List.append_assoc]; exact hl'⟩
    rw [next_eq hl, List.append_assoc, readOn_gap hgap, Nat.add_assoc, ← Text.lineFeeds_append, hread]
  ending := by
    intro l before gap cs ending hl hgap hbreak
    obtain ⟨l', hread, hfinal, hline⟩ := readOn_break hbreak (1 + lineFeeds (before ++ gap))
    refine ⟨l', ?_, hfinal, ?_⟩
    · rw [next_eq hl, readOn_gap hgap, Nat.add_assoc, ← Text.lineFeeds_append, hread]
    · rw [hline, Nat.add_assoc, ← Text.lineFeeds_append, List.append_assoc]

end CharLexer

/-! ### The tokens of a source -/

/-- **Lexers find the tokens of a source.**  Every source is cut into tokens by the grammar, in one way only.
One call after the other finds them in their order, and then the end, or how the source broke off, at every
further call; so does the lexer that goes by items and the one that reads character by character. -/
theorem lexer_finds_tokens (source : String) :
    ∃ ps ending, Decomposes source.toList ps ending
      ∧ (∀ ps' ending', Decomposes source.toList ps' ending' → ps' = ps ∧ ending' = ending)
      ∧ ∀ n, found Lexer.next (.ofString source) n = foundAt ps ending n
        ∧ found CharLexer.next (.ofString source) n = foundAt ps ending n := by
  obtain ⟨ps, ending, h⟩ := exists_decomposes source.toList
  refine ⟨ps, ending, h, fun ps' ending' h' => h'.unique h, fun n => ⟨?_, ?_⟩⟩
  · exact Lexer.follows.found_eq h (Lexer.stands_ofString source) n
  · exact CharLexer.follows.found_eq h (CharLexer.stands_ofString source) n

end Daybook
