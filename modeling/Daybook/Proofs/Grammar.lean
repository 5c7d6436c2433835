import Daybook.Lexer

/-!
# Grammar — what the tokens of a source are

The tokens of a source are told from its characters alone.  Blanks between them are skipped.  A parenthesis is
a token; so is a quoted text, with its quotes, and an unquoted text, which runs as far as it can.  In a text a
character stands for itself, alone where it may, or after a backslash.  A source may break off inside quotes,
or in a backslash with nothing after it.

* `Spells`, `Lexeme`, `Break`: the characters of a text, those of a token, and those at which no more follows.
* `Decomposes`: a source cut into tokens with the characters that they take up.
* `exists_decomposes`: **every source can be cut into tokens**.
* `Follows`: to find the tokens of a source one call after another, and to know the line.
* `Follows.stands_pulled`, `Follows.next_ended`, `Follows.found_eq`, `Follows.line_pulled`: **who follows a source
  finds its tokens, then the end for good, and counts its lines**.
-/

namespace Daybook

open Text (isBlank lineFeeds)

/-! ### The grammar -/

/-- Whether a character ends an unquoted text. -/
def delimits (c : Char) : Bool := isBlank c || c == '"' || c == '(' || c == ')'

/-- Whether a character can stand in a text as it is, in a quoted one or in an unquoted one. -/
def standsIn (quoted : Bool) (c : Char) : Bool :=
  c != '\\' && if quoted then c != '"' else !delimits c

/-- Characters spell a text: each character of it stands as it is, if it can, or after a backslash. -/
inductive Spells (quoted : Bool) : List Char → List Char → Prop where
  | nil : Spells quoted [] []
  | plain {c : Char} {cs text : List Char} (hc : standsIn quoted c = true) (h : Spells quoted cs text) :
      Spells quoted (c :: cs) (c :: text)
  | escaped {cs text : List Char} (c : Char) (h : Spells quoted cs text) :
      Spells quoted ('\\' :: c :: cs) (c :: text)

/-- A token, its characters, and the characters after it.  An unquoted text runs to the end of the source, or
to a character that delimits it. -/
inductive Lexeme : Token → List Char → List Char → Prop where
  | opening (rest : List Char) : Lexeme .opening ['('] rest
  | closing (rest : List Char) : Lexeme .closing [')'] rest
  | quoted {cs text : List Char} (h : Spells true cs text) (rest : List Char) :
      Lexeme (.quoted (String.ofList text)) ('"' :: (cs ++ ['"'])) rest
  | word {cs text rest : List Char} (h : Spells false cs text) (hne : cs ≠ [])
      (hend : ∀ c ∈ rest.head?, delimits c = true) : Lexeme (.word (String.ofList text)) cs rest

/-- The characters from which no token can be had, and how the source ends there: as it should, inside a
quoted text, or after a lone backslash, which takes with it the unquoted text before it. -/
inductive Break : Option LexError → List Char → Prop where
  | finished : Break none []
  | inQuotes {cs text lone : List Char} (h : Spells true cs text) (hlone : lone = [] ∨ lone = ['\\']) :
      Break (some .unterminatedQuote) ('"' :: (cs ++ lone))
  | escape {cs text : List Char} (h : Spells false cs text) :
      Break (some .unterminatedEscape) (cs ++ ['\\'])

/-- A token with its characters and the blanks before it. -/
@[ext] structure Piece where
  text : List Char
  token : Token

/-- The characters of pieces. -/
def Piece.texts (ps : List Piece) : List Char := ps.flatMap Piece.text

theorem Piece.texts_cons (p : Piece) (ps : List Piece) : texts (p :: ps) = p.text ++ texts ps := rfl

/-- The characters of a source, cut into pieces, and how the source ends. -/
inductive Decomposes : List Char → List Piece → Option LexError → Prop where
  | last {gap cs : List Char} {ending : Option LexError} (hgap : ∀ c ∈ gap, isBlank c = true)
      (h : Break ending cs) : Decomposes (gap ++ cs) [] ending
  | piece {gap cs rest : List Char} {t : Token} {ps : List Piece} {ending : Option LexError}
      (hgap : ∀ c ∈ gap, isBlank c = true) (h : Lexeme t cs rest) (more : Decomposes rest ps ending) :
      Decomposes (gap ++ cs ++ rest) (⟨gap ++ cs, t⟩ :: ps) ending

theorem lineFeeds_cons (c : Char) (cs : List Char) : lineFeeds (c :: cs) = lineFeeds [c] + lineFeeds cs :=
  Text.lineFeeds_append [c] cs

/-- A backslash ends no line. -/
theorem lineFeeds_escaped (c : Char) (cs : List Char) :
    lineFeeds ('\\' :: c :: cs) = lineFeeds [c] + lineFeeds cs := lineFeeds_cons c cs

theorem standsIn_ne_backslash {quoted : Bool} {c : Char} (h : standsIn quoted c = true) : c ≠ '\\' := by
  rintro rfl
  cases quoted <;> cases h

/-- What stands in an unquoted text does not end it. -/
theorem delimits_of_standsIn {c : Char} (h : standsIn false c = true) : delimits c = false := by
  simp only [standsIn, Bool.and_eq_true] at h
  simpa using h.2

theorem delimits_of_isBlank {c : Char} (h : isBlank c = true) : delimits c = true := by
  simp only [delimits]
  rw [h]
  rfl

/-- What does not stand in a text is a backslash, or ends it. -/
theorem eq_or_of_not_standsIn {quoted : Bool} {c : Char} (h : standsIn quoted c = false) :
    c = '\\' ∨ if quoted then c = '"' else delimits c = true := by
  by_cases hc : c = '\\'
  · exact .inl hc
  · refine .inr ?_
    cases quoted <;> simpa [standsIn, hc] using h

/-! ### Every source can be cut into tokens -/

/-- Characters begin with a longest run that spells a text: after it nothing is left, or a lone backslash, or a
character that cannot stand in the text. -/
theorem exists_spells (quoted : Bool) (cs : List Char) :
    ∃ run text rest, cs = run ++ rest ∧ Spells quoted run text
      ∧ (rest = [] ∨ rest = ['\\'] ∨ ∃ c after, rest = c :: after ∧ c ≠ '\\' ∧ standsIn quoted c = false) := by
  fun_induction Source.ofChars cs with
  | case1 => exact ⟨[], [], [], rfl, .nil, .inl rfl⟩
  | case2 => exact ⟨[], [], ['\\'], rfl, .nil, .inr (.inl rfl)⟩
  | case3 c cs ih =>
      obtain ⟨run, text, rest, rfl, hrun, hrest⟩ := ih
      exact ⟨_, _, rest, rfl, .escaped c hrun, hrest⟩
  | case4 c cs hlone hfreed ih =>
      have hc : c ≠ '\\' := by
        cases cs with
        | nil => exact fun hc => hlone hc rfl
        | cons d ds => exact fun hc => hfreed d ds hc rfl
      by_cases hstands : standsIn quoted c = true
      · obtain ⟨run, text, rest, rfl, hrun, hrest⟩ := ih
        exact ⟨_, _, rest, rfl, .plain hstands hrun, hrest⟩
      · exact ⟨[], [], c :: cs, rfl, .nil, .inr (.inr ⟨c, cs, rfl, hc, by simpa using hstands⟩)⟩

/-- A token takes up characters. -/
theorem Lexeme.ne_nil {t : Token} {cs rest : List Char} (h : Lexeme t cs rest) : cs ≠ [] := by
  cases h with
  | opening => exact List.cons_ne_nil _ _
  | closing => exact List.cons_ne_nil _ _
  | quoted => exact List.cons_ne_nil _ _
  | word _ hne => exact hne

/-- Characters that do not begin with a blank begin with a token, or no token can be had from them. -/
theorem lexeme_or_break {cs : List Char} (h : ∀ c ∈ cs.head?, isBlank c = false) :
    (∃ t run rest, cs = run ++ rest ∧ Lexeme t run rest) ∨ ∃ ending, Break ending cs := by
  by_cases hquote : ∃ after, cs = '"' :: after
  · obtain ⟨after, rfl⟩ := hquote
    obtain ⟨run, text, rest, rfl, hrun, rfl | rfl | ⟨c, last, rfl, hc, hstands⟩⟩ := exists_spells true after
    · exact .inr ⟨_, .inQuotes hrun (.inl rfl)⟩
    · exact .inr ⟨_, .inQuotes hrun (.inr rfl)⟩
    · obtain rfl : c = '"' := (eq_or_of_not_standsIn hstands).resolve_left hc
      exact .inl ⟨_, '"' :: (run ++ ['"']), last, by simp, .quoted hrun last⟩
  obtain ⟨run, text, rest, rfl, hrun, hrest⟩ := exists_spells false cs
  by_cases hne : run = []
  · subst hne
    obtain rfl | rfl | ⟨c, after, rfl, hc, hstands⟩ := hrest
    · exact .inr ⟨_, .finished⟩
    · exact .inr ⟨_, .escape .nil⟩
    · have hdelimits : delimits c = true := (eq_or_of_not_standsIn hstands).resolve_left hc
      have hblank : isBlank c = false := h c rfl
      have hquoted : c ≠ '"' := fun hc => hquote ⟨after, by rw [hc]; rfl⟩
      obtain rfl | rfl : c = '(' ∨ c = ')' := by simpa [delimits, hblank, hquoted] using hdelimits
      · exact .inl ⟨_, ['('], after, rfl, .opening after⟩
      · exact .inl ⟨_, [')'], after, rfl, .closing after⟩
  · obtain rfl | rfl | ⟨c, after, rfl, hc, hstands⟩ := hrest
    · exact .inl ⟨_, run, [], rfl, .word hrun hne nofun⟩
    · exact .inr ⟨_, .escape hrun⟩
    · refine .inl ⟨_, run, c :: after, rfl, .word hrun hne fun d hd => ?_⟩
      obtain rfl : c = d := Option.some.inj hd
      exact (eq_or_of_not_standsIn hstands).resolve_left hc

/-- Characters begin with a longest run of blanks. -/
theorem exists_gap (cs : List Char) :
    ∃ gap rest, cs = gap ++ rest ∧ (∀ c ∈ gap, isBlank c = true) ∧ ∀ c ∈ rest.head?, isBlank c = false := by
  refine ⟨cs.takeWhile isBlank, cs.dropWhile isBlank, List.takeWhile_append_dropWhile.symm,
    List.all_eq_true.1 List.all_takeWhile, fun c hc => ?_⟩
  have hhead := List.head?_dropWhile_not isBlank cs
  rw [Option.mem_def.1 hc] at hhead
  exact hhead

/-- **Every source can be cut into tokens.** -/
theorem exists_decomposes (cs : List Char) : ∃ ps ending, Decomposes cs ps ending := by
  induction hlength : cs.length using Nat.strongRecOn generalizing cs with
  | ind length ih =>
      obtain ⟨gap, rest, rfl, hgap, hrest⟩ := exists_gap cs
      obtain ⟨t, run, after, rfl, hlexeme⟩ | ⟨ending, hbreak⟩ := lexeme_or_break hrest
      · have hlt : after.length < length := by
          have := List.length_pos_iff.2 hlexeme.ne_nil
          rw [← hlength, List.length_append, List.length_append]
          omega
        obtain ⟨ps, ending, hmore⟩ := ih _ hlt after rfl
        refine ⟨⟨gap ++ run, t⟩ :: ps, ending, ?_⟩
        rw [← List.append_assoc]
        exact .piece hgap hlexeme hmore
      · exact ⟨[], ending, .last hgap hbreak⟩

/-! ### Finding the tokens one call after another -/

section

variable {S R : Type} (next : S → R × S)

/-- What is left after a number of calls. -/
def pulled : S → Nat → S
  | s, 0 => s
  | s, n + 1 => pulled (next s).2 n

/-- What is found at a call; the first one has number zero. -/
def found (s : S) (n : Nat) : R := (next (pulled next s n)).1

theorem pulled_add (s : S) (m n : Nat) : pulled next s (m + n) = pulled next (pulled next s m) n := by
  induction m generalizing s with
  | zero => rw [Nat.zero_add]; rfl
  | succ m ih => rw [Nat.succ_add]; exact ih _

theorem pulled_succ (s : S) (n : Nat) : pulled next s (n + 1) = (next (pulled next s n)).2 :=
  pulled_add next s n 1

end

/-- What is found where no token follows. -/
def ended {α : Type} : Option LexError → Except LexError (Option α)
  | none => .ok none
  | some e => .error e

/-- What is found at a call, given the tokens of a source and how it ends: the tokens in their order, and then
the end again and again. -/
def foundAt (ps : List Piece) (ending : Option LexError) (n : Nat) : Except LexError (Option Token) :=
  match ps[n]? with
  | some p => .ok (some p.token)
  | none => ended ending

/-- The characters that a number of calls take up: up to the last character of the last token found, and at the
end all. -/
def takenUp (cs : List Char) (ps : List Piece) (n : Nat) : List Char :=
  if n ≤ ps.length then Piece.texts (ps.take n) else cs

/-- A way to find the tokens of a source one call after another and to know the line.  `stands s before cs` is
to say that in the state `s` the characters `before` have been taken up and `cs` lie ahead. -/
structure Follows {S : Type} (next : S → Except LexError (Option Token) × S) (line : S → Nat)
    (stands : S → List Char → List Char → Prop) : Prop where
  line_eq : ∀ {s before cs}, stands s before cs → line s = 1 + lineFeeds before
  token : ∀ {s before gap cs rest t}, stands s before (gap ++ cs ++ rest) → (∀ c ∈ gap, isBlank c = true) →
    Lexeme t cs rest → ∃ s', next s = (.ok (some t), s') ∧ stands s' (before ++ (gap ++ cs)) rest
  ending : ∀ {s before gap cs ending}, stands s before (gap ++ cs) → (∀ c ∈ gap, isBlank c = true) →
    Break ending cs → ∃ s', next s = (ended ending, s') ∧ next s' = (ended ending, s')
      ∧ line s' = 1 + lineFeeds (before ++ (gap ++ cs))

namespace Follows

variable {S : Type} {next : S → Except LexError (Option Token) × S} {line : S → Nat}
  {stands : S → List Char → List Char → Prop} {s : S} {before cs : List Char} {ps : List Piece}
  {ending : Option LexError}

/-- **After as many calls as there are tokens before it, a token lies ahead.** -/
theorem stands_pulled (h : Follows next line stands) (hd : Decomposes cs ps ending)
    (hs : stands s before cs) {n : Nat} (hn : n ≤ ps.length) :
    ∃ rest, Decomposes rest (ps.drop n) ending
      ∧ stands (pulled next s n) (before ++ Piece.texts (ps.take n)) rest
      ∧ cs = Piece.texts (ps.take n) ++ rest := by
  induction hd generalizing s before n with
  | @last gap cs ending hgap hbreak =>
      obtain rfl : n = 0 := Nat.le_zero.1 hn
      exact ⟨_, .last hgap hbreak, by simpa [Piece.texts, pulled] using hs, rfl⟩
  | @piece gap cs rest t ps ending hgap hlexeme more ih =>
      cases n with
      | zero => exact ⟨_, .piece hgap hlexeme more, by simpa [Piece.texts, pulled] using hs, rfl⟩
      | succ n =>
          obtain ⟨s', hnext, hs'⟩ := h.token hs hgap hlexeme
          obtain ⟨after, hafter, hstands, rfl⟩ := ih hs' (Nat.le_of_succ_le_succ hn)
          refine ⟨after, hafter, ?_, ?_⟩
          · rw [pulled, hnext, List.take_succ_cons, Piece.texts_cons, ← List.append_assoc]
            exact hstands
          · rw [List.take_succ_cons, Piece.texts_cons, List.append_assoc (gap ++ cs)]

/-- **At the end of a source the end is found for good**: every call there comes to the same, and leaves the same
state as the first one. -/
theorem next_ended (h : Follows next line stands) (hd : Decomposes cs ps ending) (hs : stands s before cs) :
    ∃ s', (∀ n, ps.length ≤ n → next (pulled next s n) = (ended ending, s'))
      ∧ line s' = 1 + lineFeeds (before ++ cs) := by
  obtain ⟨rest, hrest, hstands, hcs⟩ := h.stands_pulled hd hs (Nat.le_refl _)
  rw [List.drop_length] at hrest
  rw [List.take_length] at hstands hcs
  cases hrest with
  | @last gap tail _ hgap hbreak =>
      obtain ⟨s', hnext, hfinal, hline⟩ := h.ending hstands hgap hbreak
      rw [List.append_assoc, ← hcs] at hline
      refine ⟨s', fun n hn => ?_, hline⟩
      obtain ⟨k, rfl⟩ := Nat.exists_eq_add_of_le hn
      induction k with
      | zero => exact hnext
      | succ k ih => rw [← Nat.add_assoc, pulled_succ, ih (Nat.le_add_right _ _), hfinal]

theorem ended_pulled (h : Follows next line stands) (hd : Decomposes cs ps ending)
    (hs : stands s before cs) {n : Nat} (hn : ps.length ≤ n) :
    found next s n = ended ending ∧ line (pulled next s (n + 1)) = 1 + lineFeeds (before ++ cs) := by
  obtain ⟨s', hnext, hline⟩ := h.next_ended hd hs
  rw [found, pulled_succ, hnext n hn]
  exact ⟨rfl, hline⟩

/-- **Who follows a source finds its tokens in their order, and then the end for good.** -/
theorem found_eq (h : Follows next line stands) (hd : Decomposes cs ps ending) (hs : stands s before cs)
    (n : Nat) : found next s n = foundAt ps ending n := by
  rw [foundAt]
  by_cases hn : n < ps.length
  · obtain ⟨rest, hrest, hstands, -⟩ := h.stands_pulled hd hs (Nat.le_of_lt hn)
    rw [List.getElem?_eq_getElem hn]
    rw [List.drop_eq_getElem_cons hn] at hrest
    generalize ps[n] = p at hrest
    cases hrest with
    | piece hgap hlexeme more =>
        obtain ⟨s', hnext, -⟩ := h.token hstands hgap hlexeme
        rw [found, hnext]
  · have hle : ps.length ≤ n := Nat.le_of_not_lt hn
    rw [List.getElem?_eq_none hle]
    exact (h.ended_pulled hd hs hle).1

/-- **Who follows a source counts its lines**, up to the last character of each token. -/
theorem line_pulled (h : Follows next line stands) (hd : Decomposes cs ps ending) (hs : stands s [] cs)
    (n : Nat) : line (pulled next s n) = 1 + lineFeeds (takenUp cs ps n) := by
  rw [takenUp]
  by_cases hn : n ≤ ps.length
  · obtain ⟨rest, -, hstands, -⟩ := h.stands_pulled hd hs hn
    rw [if_pos hn]
    exact h.line_eq hstands
  · obtain ⟨k, rfl⟩ : ∃ k, n = k + 1 := Nat.exists_eq_succ_of_ne_zero (by omega)
    rw [if_neg hn]
    exact (h.ended_pulled hd hs (by omega)).2

end Follows

end Daybook
