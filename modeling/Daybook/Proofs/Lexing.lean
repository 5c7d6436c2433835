import Daybook.Proofs.Enclosed
import Daybook.Proofs.Grammar
import Daybook.Proofs.Longest

/-!
# Lexing — the lexer follows its source

The lexer cuts a source into items once, and finds tokens by dropping and taking items.  What it finds are the
tokens of the grammar, so the grammar cuts a source in one way only.

* `ofChars_blank`, `Spells.items`: the items of blanks, and of characters that spell a text.
* `scan_blank`, `scan_word`, `scan_quoted`: what is found behind blanks, and at a word and a quote.
* `Lexeme.scan_eq`, `Break.scan_eq`: **a token of the grammar is found, and so is the end**.
* `Lexer.Stands`, `Lexer.follows`: **the lexer follows its source**.
* `Decomposes.unique`: **a source is cut into tokens in one way only**.
-/

namespace Daybook

open Text (isBlank lineFeeds)

/-! ### Characters and items -/

namespace Source

/-- A source with items put in front. -/
def prepend (is : List Item) (s : Source) : Source := ⟨is ++ s.items, s.dangling⟩

theorem prepend_prepend (is js : List Item) (s : Source) :
    (s.prepend js).prepend is = s.prepend (is ++ js) := by
  simp [prepend]

theorem ne_backslash_of_delimits {c : Char} (h : delimits c = true) : c ≠ '\\' := by
  rintro rfl
  cases h

/-- A character that ends an unquoted text is an item as it stands. -/
theorem ofChars_delimiter {c : Char} (h : delimits c = true) (cs : List Char) :
    ofChars (c :: cs) = (ofChars cs).prepend [.plain c] := ofChars_cons (ne_backslash_of_delimits h) cs

/-- Blanks are items as they stand. -/
theorem ofChars_blank {gap : List Char} (h : ∀ c ∈ gap, isBlank c = true) (cs : List Char) :
    ofChars (gap ++ cs) = (ofChars cs).prepend (gap.map .plain) := by
  induction gap with
  | nil => rfl
  | cons c gap ih =>
      obtain ⟨hc, hgap⟩ := List.forall_mem_cons.1 h
      rw [List.cons_append, ofChars_delimiter (delimits_of_isBlank hc), ih hgap, prepend_prepend]
      rfl

/-- The items of a source end as many lines as its characters. -/
theorem lineFeeds_ofChars (cs : List Char) : Item.lineFeeds (ofChars cs).items = lineFeeds cs := by
  fun_induction ofChars cs with
  | case1 => rfl
  | case2 => rfl
  | case3 c cs ih =>
      rw [lineFeeds_escaped, ← ih]
      exact lineFeeds_cons c _
  | case4 c cs _ _ ih =>
      rw [lineFeeds_cons, ← ih]
      exact lineFeeds_cons c _

end Source

/-- Whether an item can stand in a text. -/
def Item.standsIn (quoted : Bool) : Item → Bool
  | plain c => Daybook.standsIn quoted c
  | escaped _ => true

theorem Item.inWord_plain (c : Char) : (plain c).inWord = !delimits c := rfl

theorem Item.inWord_of_standsIn {i : Item} (h : i.standsIn false = true) : i.inWord = true := by
  cases i with
  | plain c =>
      rw [inWord_plain, delimits_of_standsIn h]
      rfl
  | escaped c => rfl

theorem Item.isQuote_of_standsIn {i : Item} (h : i.standsIn true = true) : i.isQuote = false := by
  cases i with
  | plain c =>
      have hc : c ≠ '"' := by
        rintro rfl
        cases h
      simpa [isQuote] using hc
  | escaped c => rfl

/-- The items of characters that spell a text can stand in it, and have its characters. -/
theorem Spells.items {quoted : Bool} {cs text : List Char} (h : Spells quoted cs text) :
    ∃ is : List Item, (∀ rest, Source.ofChars (cs ++ rest) = (Source.ofChars rest).prepend is)
      ∧ is.map Item.char = text ∧ ∀ i ∈ is, i.standsIn quoted = true := by
  induction h with
  | nil => exact ⟨[], fun _ => rfl, rfl, fun _ h => absurd h List.not_mem_nil⟩
  | @plain c cs text hc _ ih =>
      obtain ⟨is, his, htext, hstands⟩ := ih
      refine ⟨.plain c :: is, fun rest => ?_, congrArg (c :: ·) htext, List.forall_mem_cons.2 ⟨hc, hstands⟩⟩
      rw [List.cons_append, Source.ofChars_cons (standsIn_ne_backslash hc), his]
      rfl
  | @escaped cs text c _ ih =>
      obtain ⟨is, his, htext, hstands⟩ := ih
      refine ⟨.escaped c :: is, fun rest => ?_, congrArg (c :: ·) htext, List.forall_mem_cons.2 ⟨rfl, hstands⟩⟩
      show Source.cons (.escaped c) (Source.ofChars (cs ++ rest)) = _
      rw [his]
      rfl

/-! ### What is found -/

section

variable {dangling : Bool} {is rest : List Item}

/-- Blanks are skipped. -/
theorem scan_blank {gap : List Char} (h : ∀ c ∈ gap, isBlank c = true) :
    scan dangling (gap.map .plain ++ is) = scan dangling is := by
  have hgap : ∀ i ∈ gap.map Item.plain, i.isBlank = true := by
    intro i hi
    obtain ⟨c, hc, rfl⟩ := List.mem_map.1 hi
    exact h c hc
  simp only [scan]
  rw [List.dropWhile_append_of_pos hgap]

/-- At an item of a word the longest word is found, unless a lone backslash follows it. -/
theorem scan_word {i : Item} (hi : i.inWord = true) (his : ∀ j ∈ is, j.inWord = true)
    (hrest : ∀ j ∈ rest.head?, j.inWord = false) :
    scan dangling (i :: (is ++ rest))
      = if rest.isEmpty && dangling then .error .unterminatedEscape
        else .ok (some (.word (Item.spell (i :: is)), rest)) := by
  have hblank : i.isBlank = false := by
    cases i with
    | plain c =>
        cases hc : isBlank c with
        | false => exact hc
        | true =>
            rw [Item.inWord_plain, delimits_of_isBlank hc] at hi
            cases hi
    | escaped c => rfl
  have hopening : i ≠ .plain '(' := by
    rintro rfl
    cases hi
  have hclosing : i ≠ .plain ')' := by
    rintro rfl
    cases hi
  have hquote : ¬i.isQuote = true := by
    intro h
    obtain rfl : i = .plain '"' := eq_of_beq h
    cases hi
  simp only [scan]
  rw [List.dropWhile_cons_of_neg (by rw [hblank]; exact Bool.false_ne_true)]
  dsimp only
  rw [if_neg hopening, if_neg hclosing, if_neg hquote, dropWhile_append_of_head his hrest,
    takeWhile_append_of_head his hrest]

/-- At a quote the text up to the next quote is found. -/
theorem scan_quoted (his : ∀ j ∈ is, j.isQuote = false) :
    scan dangling (.plain '"' :: (is ++ .plain '"' :: rest)) = .ok (some (.quoted (Item.spell is), rest)) := by
  have hin : ∀ j ∈ is, (!j.isQuote) = true := fun j hj => by rw [his j hj]; rfl
  have hclosing : ∀ j ∈ (Item.plain '"' :: rest).head?, (!j.isQuote) = false := by
    rintro j ⟨⟩
    rfl
  have hblank : ¬(Item.plain '"').isBlank = true := by decide
  simp only [scan]
  rw [List.dropWhile_cons_of_neg hblank]
  dsimp only
  rw [if_neg (by decide), if_neg (by decide), if_pos (by decide), dropWhile_append_of_head hin hclosing,
    takeWhile_append_of_head hin hclosing]

/-- At a quote without another one the source breaks off. -/
theorem scan_unclosed (his : ∀ j ∈ is, j.isQuote = false) :
    scan dangling (.plain '"' :: is) = .error .unterminatedQuote := by
  have hdrop := dropWhile_append_of_head (p := fun j : Item => !j.isQuote) (b := [])
    (fun j hj => by rw [his j hj]; rfl) nofun
  rw [List.append_nil] at hdrop
  have hblank : ¬(Item.plain '"').isBlank = true := by decide
  simp only [scan]
  rw [List.dropWhile_cons_of_neg hblank]
  dsimp only
  rw [if_neg (by decide), if_neg (by decide), if_pos (by decide), hdrop]

end

/-- What follows an unquoted text is no item of a word, and no lone backslash. -/
theorem Source.ends_word {rest : List Char} (hend : ∀ c ∈ rest.head?, delimits c = true) :
    (∀ j ∈ (ofChars rest).items.head?, j.inWord = false)
      ∧ ((ofChars rest).items.isEmpty && (ofChars rest).dangling) = false := by
  cases rest with
  | nil => exact ⟨nofun, rfl⟩
  | cons c after =>
      rw [ofChars_delimiter (hend c rfl)]
      refine ⟨?_, rfl⟩
      rintro j ⟨⟩
      rw [Item.inWord_plain, hend c rfl]
      rfl

/-- **A token of the grammar is found.** -/
theorem Lexeme.scan_eq {t : Token} {cs rest : List Char} (h : Lexeme t cs rest) :
    ∃ is, Source.ofChars (cs ++ rest) = (Source.ofChars rest).prepend is
      ∧ scan (Source.ofChars rest).dangling (is ++ (Source.ofChars rest).items)
        = .ok (some (t, (Source.ofChars rest).items)) := by
  cases h with
  | opening => exact ⟨[.plain '('], rfl, rfl⟩
  | closing => exact ⟨[.plain ')'], rfl, rfl⟩
  | @quoted cs text hspells =>
      obtain ⟨is, his, htext, hstands⟩ := hspells.items
      refine ⟨.plain '"' :: (is ++ [.plain '"']), ?_, ?_⟩
      · rw [List.cons_append, List.append_assoc, Source.ofChars_delimiter rfl, his, List.singleton_append,
          Source.ofChars_delimiter rfl, Source.prepend_prepend, Source.prepend_prepend]
        rfl
      · rw [List.cons_append, List.append_assoc, List.singleton_append,
          scan_quoted fun j hj => Item.isQuote_of_standsIn (hstands j hj), Item.spell, htext]
  | @word cs text _ hspells hne hend =>
      obtain ⟨is, his, htext, hstands⟩ := hspells.items
      refine ⟨is, his rest, ?_⟩
      obtain ⟨hhead, hlone⟩ := Source.ends_word hend
      cases is with
      | nil =>
          subst htext
          cases hspells
          exact absurd rfl hne
      | cons i is =>
          obtain ⟨hi, hstands⟩ := List.forall_mem_cons.1 hstands
          rw [List.cons_append, scan_word (Item.inWord_of_standsIn hi)
            (fun j hj => Item.inWord_of_standsIn (hstands j hj)) hhead, hlone, if_neg Bool.false_ne_true,
            Item.spell, htext]

/-- **Where no token can be had, the end is found.** -/
theorem Break.scan_eq {ending : Option LexError} {cs : List Char} (h : Break ending cs) :
    scan (Source.ofChars cs).dangling (Source.ofChars cs).items = ended ending := by
  cases h with
  | finished => rfl
  | @inQuotes cs text lone hspells hlone =>
      obtain ⟨is, his, -, hstands⟩ := hspells.items
      have hnone : (Source.ofChars lone).items = [] := by
        rcases hlone with rfl | rfl
        · rfl
        · rfl
      rw [Source.ofChars_delimiter rfl, his]
      show scan _ (.plain '"' :: (is ++ (Source.ofChars lone).items)) = _
      rw [hnone, List.append_nil]
      exact scan_unclosed fun j hj => Item.isQuote_of_standsIn (hstands j hj)
  | @escape cs text hspells =>
      obtain ⟨is, his, -, hstands⟩ := hspells.items
      rw [his]
      show scan true (is ++ []) = _
      cases is with
      | nil => rfl
      | cons i is =>
          obtain ⟨hi, hstands⟩ := List.forall_mem_cons.1 hstands
          have hnone : ∀ j ∈ ([] : List Item).head?, j.inWord = false := nofun
          rw [List.cons_append, scan_word (Item.inWord_of_standsIn hi)
            (fun j hj => Item.inWord_of_standsIn (hstands j hj)) hnone]
          rfl

/-! ### The lexer -/

namespace Lexer

/-- A lexer has taken up some characters, and others lie ahead. -/
structure Stands (l : Lexer) (before cs : List Char) : Prop where
  unbroken : l.broken = none
  items : Source.ofChars cs = ⟨l.ahead, l.dangling⟩
  lines : l.lastLine = 1 + lineFeeds before + lineFeeds cs

theorem stands_ofString (source : String) : (ofString source).Stands [] source.toList where
  unbroken := rfl
  items := rfl
  lines := congrArg (1 + ·) (Source.lineFeeds_ofChars source.toList)

theorem Stands.line_eq {l : Lexer} {before cs : List Char} (h : l.Stands before cs) :
    l.line = 1 + lineFeeds before := by
  have hahead : Item.lineFeeds l.ahead = lineFeeds cs := by
    rw [← Source.lineFeeds_ofChars, h.items]
  rw [line, h.lines, hahead, Nat.add_sub_cancel]

/-- Where a lexer stands tells what lies ahead. -/
theorem Stands.cs_eq {l : Lexer} {before before' cs cs' : List Char} (h : l.Stands before cs)
    (h' : l.Stands before' cs') : cs = cs' := by
  rw [← Source.written_ofChars cs, h.items, ← h'.items, Source.written_ofChars]

/-- What is found comes of what is scanned. -/
theorem next_of_unbroken {l : Lexer} (h : l.broken = none) :
    l.next = match scan l.dangling l.ahead with
      | .ok (some (t, rest)) => (.ok (some t), { l with ahead := rest })
      | .ok none => (.ok none, { l with ahead := [] })
      | .error e => (.error e, { l with ahead := [], broken := some e }) := by
  obtain ⟨lastLine, ahead, dangling, broken⟩ := l
  obtain rfl : broken = none := h
  rfl

/-- **The lexer follows its source.** -/
theorem follows : Follows next line Stands where
  line_eq := Stands.line_eq
  token := by
    intro l before gap cs rest t hl hgap hlexeme
    obtain ⟨is, his, hscan⟩ := hlexeme.scan_eq
    have hsource := hl.items
    rw [List.append_assoc, Source.ofChars_blank hgap, his] at hsource
    obtain ⟨hahead, hdangling⟩ := Source.mk.inj hsource
    change gap.map .plain ++ (is ++ (Source.ofChars rest).items) = l.ahead at hahead
    change (Source.ofChars rest).dangling = l.dangling at hdangling
    refine ⟨{ l with ahead := (Source.ofChars rest).items }, ?_, hl.unbroken, ?_, ?_⟩
    · rw [next_of_unbroken hl.unbroken, ← hahead, ← hdangling, scan_blank hgap, hscan]
    · rw [← hdangling]
    · show l.lastLine = _
      rw [hl.lines]
      simp only [Text.lineFeeds_append]
      omega
  ending := by
    intro l before gap cs ending hl hgap hbreak
    have hscan := hbreak.scan_eq
    have hsource := hl.items
    rw [Source.ofChars_blank hgap] at hsource
    obtain ⟨hahead, hdangling⟩ := Source.mk.inj hsource
    change gap.map .plain ++ (Source.ofChars cs).items = l.ahead at hahead
    change (Source.ofChars cs).dangling = l.dangling at hdangling
    have hnext := next_of_unbroken hl.unbroken
    rw [← hahead, ← hdangling, scan_blank hgap, hscan] at hnext
    have hline : l.lastLine = 1 + lineFeeds (before ++ (gap ++ cs)) := by
      rw [hl.lines, Text.lineFeeds_append before, Nat.add_assoc]
    cases ending with
    | none => exact ⟨_, hnext, next_of_finished hnext, hline⟩
    | some e => exact ⟨_, hnext, next_of_broken rfl, hline⟩

end Lexer

theorem ended_injective {α : Type} : Function.Injective (ended (α := α)) := by
  intro e e' h
  cases e with
  | none =>
      cases e' with
      | none => rfl
      | some e' => cases h
  | some e =>
      cases e' with
      | none => cases h
      | some e' => cases h; rfl

/-- The first token of a source, the characters that it takes up, and the rest, as a lexer finds them. -/
theorem Decomposes.next_cons {l : Lexer} {before cs : List Char} {p : Piece} {ps : List Piece}
    {ending : Option LexError} (h : Decomposes cs (p :: ps) ending) (hl : l.Stands before cs) :
    ∃ l' rest, l.next = (.ok (some p.token), l') ∧ l'.Stands (before ++ p.text) rest
      ∧ cs = p.text ++ rest ∧ Decomposes rest ps ending := by
  cases h with
  | @piece _ _ rest _ _ _ hgap hlexeme more =>
      obtain ⟨l', hnext, hl'⟩ := Lexer.follows.token hl hgap hlexeme
      exact ⟨l', rest, hnext, hl', rfl, more⟩

theorem Decomposes.next_nil {l : Lexer} {before cs : List Char} {ending : Option LexError}
    (h : Decomposes cs [] ending) (hl : l.Stands before cs) : l.next.1 = ended ending := by
  cases h with
  | last hgap hbreak =>
      obtain ⟨l', hnext, -⟩ := Lexer.follows.ending hl hgap hbreak
      exact congrArg Prod.fst hnext

/-- **A source is cut into tokens in one way only**: the lexer finds the tokens whatever way it is cut. -/
theorem Decomposes.unique {cs : List Char} {ps ps' : List Piece} {ending ending' : Option LexError}
    (h : Decomposes cs ps ending) (h' : Decomposes cs ps' ending') : ps = ps' ∧ ending = ending' := by
  have hl : ∀ cs, (Lexer.ofString (String.ofList cs)).Stands [] cs := fun cs => by
    have hcs := Lexer.stands_ofString (String.ofList cs)
    rwa [String.toList_ofList] at hcs
  -- a token is not the end
  have hne : ∀ {t : Token} {e : Option LexError}, Except.ok (some t) ≠ ended e := fun {t e} h => by
    cases e <;> cases h
  induction ps generalizing cs ps' with
  | nil =>
      have hnext := h.next_nil (hl cs)
      cases ps' with
      | nil => exact ⟨rfl, ended_injective (hnext.symm.trans (h'.next_nil (hl cs)))⟩
      | cons p' ps' =>
          obtain ⟨_, _, hnext', -⟩ := h'.next_cons (hl cs)
          exact absurd ((congrArg Prod.fst hnext').symm.trans hnext) hne
  | cons p ps ih =>
      obtain ⟨l₁, rest, hnext, hl₁, hcs, hmore⟩ := h.next_cons (hl cs)
      cases ps' with
      | nil => exact absurd ((congrArg Prod.fst hnext).symm.trans (h'.next_nil (hl cs))) hne
      | cons p' ps' =>
          obtain ⟨l₂, rest', hnext', hl₂, hcs', hmore'⟩ := h'.next_cons (hl cs)
          obtain ⟨htoken, rfl⟩ := Prod.mk.inj (hnext.symm.trans hnext')
          obtain rfl := hl₁.cs_eq hl₂
          have hpiece : p = p' := by
            ext1
            · exact List.append_cancel_right (hcs.symm.trans hcs')
            · exact Option.some.inj (Except.ok.inj htoken)
          obtain ⟨rfl, rfl⟩ := ih hmore hmore'
          exact ⟨congrArg (· :: ps) hpiece, rfl⟩

end Daybook
