import Daybook.Proofs.Lines

/-!
# Ending — a source ends, and its end is final

Every token takes up at least one character, so a source has no more tokens than characters, and after as many
calls its end is found, or where it breaks off.  Then every further call finds the same, and changes nothing.  So a
reading that has failed because its source breaks off can be tried again: it fails in the same way, whatever the
words are by then, and leaves everything as it was.

* `Decomposes.length_le`: **a source has no more tokens than characters**.
* `EndsAfter`, `Follows.endsAfter`: **who follows a source comes to its end after as many calls as it has tokens**,
  and stays there.
* `Reader.BreaksOff`, `breaksOff_iff`: the last call that a reading makes for a token fails.
* `read_of_broken`, `read_eq_of_breaksOff`: such a reading fails, and leaves a reader whose readings do.
* `Vocabulary.NeverBreaks`, `breaksOff_of_failed`: where no word fails in the manner of a lexer, no other reading
  fails lexically.
* `lexing_ends`: **lexing ends, the end is final, and a reading that came to it comes to it again**.
-/

namespace Daybook

/-! ### The number of calls -/

/-- **A source has no more tokens than characters.** -/
theorem Decomposes.length_le {cs : List Char} {ps : List Piece} {ending : Option LexError}
    (h : Decomposes cs ps ending) : ps.length ≤ cs.length := by
  induction h with
  | last => exact Nat.zero_le _
  | piece _ hlexeme _ ih =>
      have hpos := List.length_pos_iff.2 hlexeme.ne_nil
      rw [List.length_cons, List.length_append, List.length_append]
      omega

/-- Calls come to an end after some that find tokens: from then on each finds the same, the end of the source or how
it broke off, and leaves the state in which the first of them left it. -/
structure EndsAfter {S : Type} (next : S → Except LexError (Option Token) × S) (s : S) (k : Nat)
    (ending : Option LexError) : Prop where
  token : ∀ n < k, ∃ t, found next s n = .ok (some t)
  finished : ∀ n, k ≤ n → found next s n = ended ending
  unchanged : ∀ n, k ≤ n → pulled next s (n + 1) = pulled next s (k + 1)

/-- **Who follows a source comes to its end** after as many calls as it has tokens, and stays there. -/
theorem Follows.endsAfter {S : Type} {next : S → Except LexError (Option Token) × S} {line : S → Nat}
    {stands : S → List Char → List Char → Prop} {s : S} {before cs : List Char} {ps : List Piece}
    {ending : Option LexError} (h : Follows next line stands) (hd : Decomposes cs ps ending)
    (hs : stands s before cs) : EndsAfter next s ps.length ending where
  token n hn := by
    refine ⟨ps[n].token, ?_⟩
    rw [h.found_eq hd hs, foundAt, List.getElem?_eq_getElem hn]
  finished n hn := (h.ended_pulled hd hs hn).1
  unchanged n hn := by
    obtain ⟨s', hnext, -⟩ := h.next_ended hd hs
    rw [pulled_succ, pulled_succ, hnext n hn, hnext _ (Nat.le_refl _)]

/-! ### Words that fail in the manner of a lexer -/

/-- No word fails in the manner of a lexer. -/
def Vocabulary.NeverBreaks {σ : Type} (v : Vocabulary σ) : Prop :=
  ∀ s w, v s = some w → ∀ d e, (w s d).1 ≠ .error (.failed (.lexical e))

/-- No core word does. -/
theorem Vocabulary.core_neverBreaks : Vocabulary.core.NeverBreaks := by
  intro s w hw d e h
  obtain ⟨ground, hground⟩ := Words.core_refuses (core_mem hw) h
  cases hground

namespace Machine

variable {σ : Type} {v : Vocabulary σ} {l : Lexer} {m : Machine σ}

/-- Without such words no token fails so. -/
theorem step_never_breaks (hv : v.NeverBreaks) (m : Machine σ) (t : Token) (e : LexError) :
    (m.step v t).1 ≠ .error (.failed (.lexical e)) := step_ne nofun nofun fun s w hw d => hv s w hw d e

/-- A run whose lexer is broken at its end has failed, and reports that. -/
theorem outcome_of_broken {e : LexError} (h : (run v l m).lexer.broken = some e) :
    (run v l m).outcome = .failed ⟨(run v l m).lexer.line, .lexical e, none⟩ := by
  -- a call that does not fail leaves a lexer that is not broken
  have unbroken : ∀ {l l' : Lexer} {found : Option Token}, l.next = (.ok found, l') → l'.broken ≠ some e :=
    fun {l l' found} hn hbroken => by
      have hfailed := Lexer.broken_next_iff.1 (hn ▸ hbroken : l.next.2.broken = some e)
      rw [hn] at hfailed
      cases hfailed
  fun_induction run v l m with
  | case1 l m e' l' hn =>
      obtain rfl : e' = e := Option.some.inj ((Lexer.broken_of_next hn).symm.trans h)
      rfl
  | case2 l m l' hn => exact absurd h (unbroken hn)
  | case3 l m t l' hn m' hs ih => exact ih h
  | case4 l m t l' hn m' hs => exact absurd h (unbroken hn)
  | case5 l m t l' hn cause m' hs => exact absurd h (unbroken hn)
  | case6 l m t l' hn excess m' hs => exact absurd h (unbroken hn)

/-- Without words that fail in the manner of a lexer, a run that fails so has a broken lexer at its end. -/
theorem broken_of_outcome (hv : v.NeverBreaks) {report : Report} {e : LexError}
    (h : (run v l m).outcome = .failed report) (hcause : report.cause = .lexical e) :
    (run v l m).lexer.broken = some e := by
  fun_induction run v l m with
  | case1 l m e' l' hn =>
      cases h
      cases hcause
      exact Lexer.broken_of_next hn
  | case2 l m l' hn => cases h
  | case3 l m t l' hn m' hs ih => exact ih h
  | case4 l m t l' hn m' hs => cases h
  | case5 l m t l' hn cause m' hs =>
      cases h
      obtain rfl : cause = .lexical e := hcause
      exact absurd (congrArg Prod.fst hs) (step_never_breaks hv m t e)
  | case6 l m t l' hn excess m' hs => cases h

end Machine

/-! ### Readings -/

namespace Reader

variable {σ : Type} {book : σ → Book} {v : Vocabulary σ} {r : Reader σ} {e : LexError}

/-- The last call that a reading makes for a token fails. -/
def BreaksOff (book : σ → Book) (v : Vocabulary σ) (r : Reader σ) (e : LexError) : Prop :=
  ∃ n, found Lexer.next r.lexer n = .error e ∧ (r.read book v).2.lexer = pulled Lexer.next r.lexer (n + 1)

/-- It does just when the reading leaves a broken lexer. -/
theorem breaksOff_iff : r.BreaksOff book v e ↔ (r.read book v).2.lexer.broken = some e := by
  constructor
  · rintro ⟨n, hfound, hlexer⟩
    rw [hlexer, pulled_succ]
    exact Lexer.broken_next_iff.2 hfound
  · intro h
    obtain ⟨n, hn⟩ := Machine.run_pulled v r.lexer r.machine
    have hlexer : (r.read book v).2.lexer = pulled Lexer.next r.lexer (n + 1) := by rw [read_snd, hn]
    rw [hlexer, pulled_succ] at h
    exact ⟨n, Lexer.broken_next_iff.1 h, hlexer⟩

/-- A reading whose lexer is broken fails, and changes nothing. -/
theorem read_of_broken (book : σ → Book) (v : Vocabulary σ) (h : r.lexer.broken = some e) :
    r.read book v = (.failed ⟨r.lexer.line, .lexical e, some (book r.machine.context).date⟩, r) := by
  simp only [read]
  rw [Machine.run_of_error (Lexer.next_of_broken h)]
  rfl

/-- A reading that breaks off fails with the line that it has reached. -/
theorem read_eq_of_breaksOff (h : r.BreaksOff book v e) :
    r.read book v
      = (.failed ⟨(r.read book v).2.lexer.line, .lexical e,
          some (book (r.read book v).2.machine.context).date⟩, (r.read book v).2) := by
  have hbroken := breaksOff_iff.1 h
  rw [read_snd] at hbroken ⊢
  simp only [read]
  rw [Machine.outcome_of_broken hbroken]
  rfl

/-- Where no word fails in the manner of a lexer, a reading that fails so breaks off. -/
theorem breaksOff_of_failed (hv : v.NeverBreaks) {report : Report}
    (h : (r.read book v).1 = .failed report) (hcause : report.cause = .lexical e) : r.BreaksOff book v e := by
  rw [breaksOff_iff, read_snd]
  have hread := r.read_concludes book v
  rw [h] at hread
  generalize hrun : (Machine.run v r.lexer r.machine).outcome = outcome at hread
  cases hread with
  | uneven => cases hcause
  | failed report => exact Machine.broken_of_outcome hv hrun hcause

/-- A reading that changes nothing can be repeated any number of times. -/
theorem reading_of_unchanged {outcome : Outcome} (h : r.read book v = (outcome, r)) (n : Nat) :
    r.reading book v n = (outcome, r) := by
  induction n with
  | zero => exact h
  | succ n ih =>
      rw [reading_succ, h]
      exact ih

end Reader

/-- **Lexing ends, and the end is final.**  After at most as many calls as a source has characters, each of which
finds a token, the end is found, or how the source breaks off; every further call finds the same and leaves the
lexer as it is, with its line.  So it is for the lexer that goes by items and for the one that reads character by
character.  And a reading that fails because its source breaks off fails again however often it is repeated, with
the same line, cause and date, and leaves the same operands, scopes, silence and context, whatever the words are by
then.  With the core words every reading that fails with a lexical error is of this kind. -/
theorem lexing_ends (source : String) :
    (∃ k ending, k ≤ source.length ∧ EndsAfter Lexer.next (.ofString source) k ending
        ∧ EndsAfter CharLexer.next (.ofString source) k ending)
      ∧ (∀ {σ : Type} (book : σ → Book) (v v' : Vocabulary σ) (r : Reader σ) (e : LexError),
          r.BreaksOff book v e →
            (∃ line date, (r.read book v).1 = .failed ⟨line, .lexical e, some date⟩)
              ∧ ∀ n, (r.read book v).2.reading book v' n = r.read book v)
      ∧ ∀ (r : Reader Book) (report : Report) (e : LexError),
          (r.read id .core).1 = .failed report → report.cause = .lexical e → r.BreaksOff id .core e := by
  refine ⟨?_, fun book v v' r e h => ?_, fun r report e => ?_⟩
  · obtain ⟨ps, ending, hd⟩ := exists_decomposes source.toList
    refine ⟨ps.length, ending, ?_, ?_, ?_⟩
    · rw [← String.length_toList]
      exact hd.length_le
    · exact Lexer.follows.endsAfter hd (Lexer.stands_ofString source)
    · exact CharLexer.follows.endsAfter hd (CharLexer.stands_ofString source)
  · have hread := Reader.read_eq_of_breaksOff h
    refine ⟨⟨_, _, congrArg Prod.fst hread⟩, fun n => ?_⟩
    have hagain := Reader.read_of_broken book v' (Reader.breaksOff_iff.1 h)
    exact (Reader.reading_of_unchanged hagain n).trans hread.symm
  · exact Reader.breaksOff_of_failed Vocabulary.core_neverBreaks

/-- A source that breaks off after a backslash in a quoted text, with a scope open. -/
def halfQuoted : String := "2024 1 5 date (\na\"b\\"

/-- Without any words it fails again where it has failed with the core words. -/
theorem lexing_ends_halfQuoted :
    (Reader.start halfQuoted Book.empty).BreaksOff id .core .unterminatedQuote
      ∧ ∀ n, ((Reader.start halfQuoted Book.empty).read id .core).2.reading id .empty n
        = (.failed ⟨2, .lexical .unterminatedQuote, some ⟨2024, 1, 5⟩⟩,
          ((Reader.start halfQuoted Book.empty).read id .core).2) := by
  have hread : ((Reader.start halfQuoted Book.empty).read id .core).1
      = .failed ⟨2, .lexical .unterminatedQuote, some ⟨2024, 1, 5⟩⟩ := by decide +kernel
  obtain ⟨-, hagain, hcore⟩ := lexing_ends halfQuoted
  have hbreaks := hcore _ _ _ hread rfl
  exact ⟨hbreaks, fun n => ((hagain id .core .empty _ _ hbreaks).2 n).trans (Prod.ext hread rfl)⟩

/-- The parenthesis that ends a word is the next token, and the quote after it is never closed. -/
example : (List.range 5).map (found CharLexer.next (.ofString "a(\"b"))
    = [.ok (some (.word "a")), .ok (some .opening), .error .unterminatedQuote, .error .unterminatedQuote,
      .error .unterminatedQuote] := by
  decide +kernel

end Daybook
