import Daybook.Lexer
import Daybook.Proofs.Longest

/-!
# Seam — a source with more text after it

Text is written after a source, with a character between that belongs to no word.  A source that ends in a
lone backslash breaks off there by itself; with more text after it the backslash frees the character between.
Otherwise the tokens of the source are found as if nothing came after them, a word at its end included, and
where the source ends the character and the text are next.

* `Source.ofChars_join`: the items of a source with more text after it.
* `scan_seam`, `scan_skip`: a token is found with more text after it, and so is what comes after blanks.
* `Lexer.followedBy`: a lexer that has a character and more text after what lies ahead of it.
* `Lexer.next_followedBy`, `Lexer.next_followedBy_end`: **it finds the same tokens, and then those of the
  text after it**, with the same lines.
-/

namespace Daybook

/-! ### Items -/

namespace Source

/-- The item that a character makes after a source: one that a lone backslash frees of its meaning, or the
character as it stands. -/
def seam (c : Char) (dangling : Bool) : Item := if dangling then .escaped c else .plain c

theorem char_seam (c : Char) (dangling : Bool) : (seam c dangling).char = c := by
  cases dangling <;> rfl

/-- A source, a character and another source in a row. -/
def join (s : Source) (c : Char) (t : Source) : Source :=
  ⟨s.items ++ seam c s.dangling :: t.items, t.dangling⟩

theorem ofChars_cons {c : Char} (h : c ≠ '\\') (cs : List Char) :
    ofChars (c :: cs) = cons (.plain c) (ofChars cs) :=
  ofChars.eq_4 c cs (fun hc _ => h hc) fun _ _ hc _ => h hc

/-- The items of a source with more text after it. -/
theorem ofChars_join {c : Char} (hc : c ≠ '\\') (cs ds : List Char) :
    ofChars (cs ++ c :: ds) = (ofChars cs).join c (ofChars ds) := by
  fun_induction ofChars cs with
  | case1 => exact ofChars_cons hc ds
  | case2 => rfl
  | case3 d cs ih =>
      show cons (.escaped d) (ofChars (cs ++ c :: ds)) = _
      rw [ih]
      rfl
  | case4 d cs hlone hfreed ih =>
      have hd : d ≠ '\\' := by
        cases cs with
        | nil => exact fun hd => hlone hd rfl
        | cons e es => exact fun hd => hfreed e es hd rfl
      rw [List.cons_append, ofChars_cons hd, ih]
      rfl

end Source

open Source (seam)

/-- The character between ends as many lines as it does by itself. -/
theorem Item.lineFeeds_seam (c : Char) (dangling : Bool) (is : List Item) :
    lineFeeds (seam c dangling :: is) = lineFeeds (.plain c :: is) := by
  simp only [lineFeeds, List.map_cons]
  rw [Source.char_seam]
  rfl

/-! ### Tokens -/

section

variable {dangling : Bool} {is rest : List Item} {t : Token}

/-- A token is found with more text after it. -/
theorem scan_seam {c : Char} (hc : (Item.plain c).inWord = false)
    (h : scan dangling is = .ok (some (t, rest))) (dangling' : Bool) (more : List Item) :
    scan dangling' (is ++ seam c dangling :: more)
      = .ok (some (t, rest ++ seam c dangling :: more)) := by
  unfold scan at h ⊢
  cases hblank : is.dropWhile Item.isBlank with
  | nil =>
      rw [hblank] at h
      dsimp only at h
      split at h <;> cases h
  | cons i after =>
      rw [dropWhile_append_cons (.inl (by rw [hblank]; exact List.cons_ne_nil i after)), hblank]
      rw [hblank] at h
      dsimp only [List.cons_append] at h ⊢
      split at h
      · next hopening => cases h; rw [if_pos hopening]
      next hopening =>
      rw [if_neg hopening]
      split at h
      · next hclosing => cases h; rw [if_pos hclosing]
      next hclosing =>
      rw [if_neg hclosing]
      split at h
      · next hquote =>
          -- a quoted text has its end before the character between
          rw [if_pos hquote]
          cases hq : after.dropWhile (!·.isQuote) with
          | nil => rw [hq] at h; cases h
          | cons q last =>
              have hne : after.dropWhile (!·.isQuote) ≠ [] := by rw [hq]; exact List.cons_ne_nil q last
              rw [dropWhile_append_cons (.inl hne), takeWhile_append_cons (.inl hne), hq]
              rw [hq] at h
              cases h
              rfl
      · next hquote =>
          -- a word at the end has no backslash after it, so the character between ends it too
          rw [if_neg hquote]
          split at h
          · cases h
          · next hlone =>
              have hend : after.dropWhile Item.inWord ≠ [] ∨ (seam c dangling).inWord = false := by
                cases dangling with
                | false => exact .inr hc
                | true => exact .inl fun hn => hlone (by rw [hn]; rfl)
              have hmore : ¬((after.dropWhile Item.inWord ++ seam c dangling :: more).isEmpty
                  && dangling') = true := by simp
              rw [dropWhile_append_cons hend, takeWhile_append_cons hend, if_neg hmore]
              cases h
              rfl

/-- Blanks are skipped. -/
theorem scan_skip (h : is.dropWhile Item.isBlank = []) (dangling : Bool) (more : List Item) :
    scan dangling (is ++ more) = scan dangling more := by
  simp only [scan]
  rw [List.dropWhile_append, h, List.isEmpty_nil, if_pos rfl]

end

namespace Lexer

variable {l l' : Lexer} {c : Char} {s : Source}

/-- A lexer that has a character and a source after what lies ahead of it. -/
def followedBy (l : Lexer) (c : Char) (s : Source) : Lexer :=
  { l with
    lastLine := l.lastLine + Item.lineFeeds (.plain c :: s.items)
    ahead := l.ahead ++ seam c l.dangling :: s.items
    dangling := s.dangling }

/-- The line that has been reached is the same. -/
theorem line_followedBy (l : Lexer) (c : Char) (s : Source) : (l.followedBy c s).line = l.line := by
  simp only [line, followedBy]
  rw [Item.lineFeeds_append, Item.lineFeeds_seam, Nat.add_sub_add_right]

/-- What lies ahead keeps its tokens with more text after it. -/
theorem next_followedBy {t : Token} (hc : (Item.plain c).inWord = false)
    (h : l.next = (.ok (some t), l')) : (l.followedBy c s).next = (.ok (some t), l'.followedBy c s) := by
  obtain ⟨hbroken, rest, hscan, rfl⟩ := scan_of_next h
  simp only [next, followedBy]
  rw [hbroken, scan_seam hc hscan]

/-- At the end of a source nothing is left of it, and nothing is amiss. -/
theorem eq_of_next_end (h : l.next = (.ok none, l')) :
    l.dangling = false ∧ l' = ⟨l.lastLine, [], false, none⟩ := by
  obtain ⟨hbroken, hscan, rfl⟩ := scan_of_next_end h
  obtain ⟨hlone, -⟩ := scan_end hscan
  refine ⟨hlone, ?_⟩
  rw [hlone, hbroken]

/-- At the end of a source the text after it is next. -/
theorem next_followedBy_end (h : l.next = (.ok none, l')) :
    (l.followedBy c s).next = (l'.followedBy c s).next := by
  obtain ⟨hbroken, hscan, rfl⟩ := scan_of_next_end h
  simp only [next, followedBy]
  rw [hbroken, scan_skip (scan_end hscan).2, List.nil_append]

/-- A source with more text after it is read by a lexer that has the text after it. -/
theorem ofString_join (hc : c ≠ '\\') (s t : String) :
    ofString (s ++ String.singleton c ++ t) = (ofString s).followedBy c (Source.ofString t) := by
  have hsource : Source.ofString (s ++ String.singleton c ++ t)
      = (Source.ofString s).join c (.ofString t) := by
    have hchars : (s ++ String.singleton c ++ t).toList = s.toList ++ c :: t.toList := by simp
    simp only [Source.ofString]
    rw [hchars, Source.ofChars_join hc]
  simp only [ofString, followedBy]
  rw [hsource]
  simp only [Source.join]
  rw [Item.lineFeeds_append, Item.lineFeeds_seam, ← Nat.add_assoc]

end Lexer

end Daybook
