import Daybook.Proofs.Lexing
import Daybook.Proofs.Run
import Daybook.Proofs.Seam
import Daybook.Words.Core

/-!
# Joining — sources one after the other

Two sources with a line feed between them are run like the one and then the other.  The line feed ends a word
that stands at the end of the first source, and is no token of its own; scopes and silence that the first
source leaves open are open in the second.  Only lines are counted on.  A first source that stops or fails
does so before the second, unless it breaks off: then its last token goes on in the second source.

* `Lexer.later`, `run_later`: **a source some lines further down is run the same**, but for the line of a
  failure.
* `run_followedBy`: a run that ends before the end of its source ends there with more text after it too.
* `run_followedBy_completed`: a run that completes goes on in the text after it.
* `run_joined`: **sources in a row are run one after the other**.
-/

namespace Daybook

open Text (lineFeeds)

/-- A report from `n` lines further down. -/
def Report.later (n : Nat) (r : Report) : Report := { r with line := r.line + n }

/-- How a run ends on a source that begins `n` lines further down: a failure is reported there. -/
def Outcome.later (n : Nat) : Outcome → Outcome
  | .failed report => .failed (report.later n)
  | outcome => outcome

/-- Whether a run ends because its source breaks off. -/
def Outcome.brokenOff : Outcome → Bool
  | .failed ⟨_, .lexical _, _⟩ => true
  | _ => false

/-! ### Lines further down -/

/-- What lies ahead after a token is the end of what lay ahead before it. -/
theorem scan_suffix {dangling : Bool} {is rest : List Item} {t : Token}
    (h : scan dangling is = .ok (some (t, rest))) : rest <:+ is := by
  have hblank := List.dropWhile_suffix (l := is) Item.isBlank
  unfold scan at h
  split at h
  · split at h <;> cases h
  next i after heq =>
  have hafter : after <:+ is := (List.suffix_cons i after).trans (heq ▸ hblank)
  split at h
  · cases h; exact hafter
  split at h
  · cases h; exact hafter
  split at h
  · split at h
    · cases h
    next q last hq =>
    have hlast : last <:+ after.dropWhile (!·.isQuote) := hq ▸ List.suffix_cons q last
    cases h
    exact (hlast.trans (List.dropWhile_suffix _)).trans hafter
  · dsimp only at h
    split at h
    · cases h
    · cases h
      exact (List.dropWhile_suffix _).trans hafter

namespace Lexer

variable {l l' : Lexer}

/-- A lexer in a source that begins `n` lines further down. -/
def later (n : Nat) (l : Lexer) : Lexer := { l with lastLine := l.lastLine + n }

/-- The lines that lie ahead are counted among those of the source. -/
def Counted (l : Lexer) : Prop := Item.lineFeeds l.ahead ≤ l.lastLine

theorem counted_ofString (s : String) : (ofString s).Counted := Nat.le_add_left _ 1

/-- Finding a token does not change on which line the source ends. -/
theorem lastLine_of_next {r : Except LexError (Option Token)} (h : l.next = (r, l')) :
    l'.lastLine = l.lastLine := by
  simp only [next] at h
  split at h
  · cases h; rfl
  · split at h <;> · cases h; rfl

theorem Counted.of_next {r : Except LexError (Option Token)} (hl : l.Counted) (h : l.next = (r, l')) :
    l'.Counted := by
  have hnone : Item.lineFeeds [] ≤ l.lastLine := Nat.zero_le _
  simp only [next] at h
  split at h
  · cases h; exact hl
  split at h
  · next hscan =>
      obtain ⟨taken, htaken⟩ := scan_suffix hscan
      rw [Counted, ← htaken, Item.lineFeeds_append] at hl
      cases h
      exact Nat.le_trans (Nat.le_add_left _ _) hl
  · cases h; exact hnone
  · cases h; exact hnone

theorem line_later (h : l.Counted) (n : Nat) : (l.later n).line = l.line + n := Nat.sub_add_comm h

/-- The same is found some lines further down. -/
theorem next_later {r : Except LexError (Option Token)} (n : Nat) (h : l.next = (r, l')) :
    (l.later n).next = (r, l'.later n) := by
  simp only [next] at h
  simp only [next, later]
  split at h
  · next hbroken => cases h; rw [hbroken]
  next hbroken =>
  rw [hbroken]
  split at h
  · cases h; rw [hbroken]
  · cases h; rw [hbroken]
  · cases h; rfl

/-- At the end of a source, a line feed and a text after it are the text on the next line. -/
theorem next_followedBy_newline (lastLine : Nat) (s : String) :
    (followedBy ⟨lastLine, [], false, none⟩ '\n' (Source.ofString s)).next
      = ((ofString s).later lastLine).next := by
  have hblank : [Item.plain '\n'].dropWhile Item.isBlank = [] := rfl
  have hscan := scan_skip hblank (Source.ofString s).dangling (Source.ofString s).items
  have hline : lastLine + Item.lineFeeds ([.plain '\n'] ++ (Source.ofString s).items)
      = 1 + Item.lineFeeds (Source.ofString s).items + lastLine := by
    rw [Item.lineFeeds_append, Nat.add_comm lastLine]
    rfl
  rw [List.singleton_append] at hscan hline
  rw [next_of_unbroken rfl, next_of_unbroken rfl]
  simp only [followedBy, later, ofString, Source.seam, List.nil_append, if_neg Bool.false_ne_true]
  rw [hscan, hline]

end Lexer

namespace Machine

variable {σ : Type} {v : Vocabulary σ} {l l' : Lexer} {m : Machine σ}

/-- **A source some lines further down is run the same**, and a failure is reported so many lines further
down. -/
theorem run_later (n : Nat) (hl : l.Counted) :
    run v (l.later n) m
      = ⟨(run v l m).outcome.later n, (run v l m).lexer.later n, (run v l m).machine⟩ := by
  fun_induction run v l m with
  | case1 l m e l' hn =>
      rw [run_of_error (Lexer.next_later n hn), Lexer.line_later (hl.of_next hn)]
      rfl
  | case2 l m l' hn => exact run_of_end (Lexer.next_later n hn)
  | case3 l m t l' hn m' hs ih =>
      rw [run_of_proceed (Lexer.next_later n hn) hs]
      exact ih (hl.of_next hn)
  | case4 l m t l' hn m' hs =>
      rw [run_of_next (Lexer.next_later n hn), hs]
      rfl
  | case5 l m t l' hn cause m' hs =>
      rw [run_of_next (Lexer.next_later n hn), hs]
      dsimp only
      rw [Lexer.line_later (hl.of_next hn)]
      rfl
  | case6 l m t l' hn excess m' hs =>
      rw [run_of_next (Lexer.next_later n hn), hs]
      rfl

/-! ### More text after a source -/

/-- What comes of a run depends on what is found. -/
theorem run_eq_of_next_eq (h : l.next = l'.next) : run v l m = run v l' m := by
  match hn : l'.next with
  | (.error e, l₁) => rw [run_of_error (h.trans hn), run_of_error hn]
  | (.ok none, l₁) => rw [run_of_end (h.trans hn), run_of_end hn]
  | (.ok (some t), l₁) => rw [run_of_next (h.trans hn), run_of_next hn]

/-- When a run completes, nothing is left of its source. -/
theorem run_lexer_of_completed (h : (run v l m).outcome = .completed) :
    (run v l m).lexer = ⟨l.lastLine, [], false, none⟩ := by
  fun_induction run v l m with
  | case1 => cases h
  | case2 l m l' hn => exact (Lexer.eq_of_next_end hn).2
  | case3 l m t l' hn m' hs ih =>
      rw [ih h, Lexer.lastLine_of_next hn]
  | case4 => cases h
  | case5 => cases h
  | case6 => cases h

section

variable {c : Char} (hc : (Item.plain c).inWord = false) (s : Source)

include hc

/-- **A run that ends before the end of its source ends there with more text after it too**, unless the
source breaks off. -/
theorem run_followedBy (h : (run v l m).outcome ≠ .completed)
    (hwhole : (run v l m).outcome.brokenOff = false) :
    run v (l.followedBy c s) m
      = ⟨(run v l m).outcome, (run v l m).lexer.followedBy c s, (run v l m).machine⟩ := by
  fun_induction run v l m with
  | case1 => cases hwhole
  | case2 => exact absurd rfl h
  | case3 l m t l' hn m' hs ih =>
      rw [run_of_proceed (Lexer.next_followedBy hc hn) hs]
      exact ih h hwhole
  | case4 l m t l' hn m' hs => rw [run_of_next (Lexer.next_followedBy hc hn), hs]
  | case5 l m t l' hn cause m' hs =>
      rw [run_of_next (Lexer.next_followedBy hc hn), hs]
      dsimp only
      rw [Lexer.line_followedBy]
  | case6 l m t l' hn excess m' hs => rw [run_of_next (Lexer.next_followedBy hc hn), hs]

/-- A run that completes goes on in the text after it. -/
theorem run_followedBy_completed (h : (run v l m).outcome = .completed) :
    run v (l.followedBy c s) m = run v ((run v l m).lexer.followedBy c s) (run v l m).machine := by
  fun_induction run v l m with
  | case1 => cases h
  | case2 l m l' hn => exact run_eq_of_next_eq (Lexer.next_followedBy_end hn)
  | case3 l m t l' hn m' hs ih =>
      rw [run_of_proceed (Lexer.next_followedBy hc hn) hs]
      exact ih h
  | case4 => cases h
  | case5 => cases h
  | case6 => cases h

end

/-! ### Sources in a row -/

/-- **Sources in a row are run one after the other.**  If the first completes, the two with a line feed
between them come to what the second comes to on the machine that the first leaves, with the same operands,
scopes, silence and context; only lines are counted on from those of the first.  If the first stops, fails or
exceeds, the two do so as it does, with the same machine and on the same line, unless it breaks off. -/
theorem run_joined (v : Vocabulary σ) (m : Machine σ) (s₁ s₂ : String) :
    let first := run v (.ofString s₁) m
    let second := run v (.ofString s₂) first.machine
    let both := run v (.ofString (s₁ ++ "\n" ++ s₂)) m
    (first.outcome = .completed →
      both.outcome = second.outcome.later (1 + lineFeeds s₁.toList)
        ∧ both.machine = second.machine
        ∧ both.lexer = second.lexer.later (1 + lineFeeds s₁.toList))
    ∧ (first.outcome ≠ .completed → first.outcome.brokenOff = false →
        both.outcome = first.outcome ∧ both.machine = first.machine
          ∧ both.lexer.line = first.lexer.line) := by
  intro first second both
  have hnewline : (Item.plain '\n').inWord = false := rfl
  have hfeed : "\n" = String.singleton '\n' := by decide
  have hboth : both = run v ((Lexer.ofString s₁).followedBy '\n' (Source.ofString s₂)) m := by
    simp only [both]
    rw [hfeed, Lexer.ofString_join (by decide)]
  constructor
  · intro hdone
    have hlines : (Lexer.ofString s₁).lastLine = 1 + lineFeeds s₁.toList :=
      congrArg (1 + ·) (Source.lineFeeds_ofChars s₁.toList)
    rw [hboth, run_followedBy_completed hnewline _ hdone, run_lexer_of_completed hdone, hlines,
      run_eq_of_next_eq (Lexer.next_followedBy_newline _ s₂), run_later _ (Lexer.counted_ofString s₂)]
    exact ⟨rfl, rfl, rfl⟩
  · intro hopen hwhole
    rw [hboth, run_followedBy hnewline _ hopen hwhole]
    exact ⟨rfl, rfl, Lexer.line_followedBy _ _ _⟩

/-- A piece of source that ends in a word, on its second line and in an open scope. -/
def unfinished : String := "(U d commodity) (a\\\nb"

/-- A piece of source that closes a scope with an operand of its own in it. -/
def remainder : String := "c)"

/-- A piece of source that fails on its second line, before a quoted text without an end. -/
def twice : String := "(U d commodity)\n(U d commodity) \""

/-- The remainder fails on its first line with the two operands that are left in the scope, and so on the third
line when it follows the unfinished piece.  The piece that fails does so whatever follows it. -/
theorem run_joined_unfinished :
    let first := run .core (.ofString unfinished) (start Book.empty)
    let second := run .core (.ofString remainder) first.machine
    let both := run .core (.ofString (unfinished ++ "\n" ++ remainder)) (start Book.empty)
    let failing := run .core (.ofString (twice ++ "\n" ++ remainder)) (start Book.empty)
    first.outcome = .completed
      ∧ second.outcome = .failed ⟨1, .scoping (.unconsumed 2), none⟩
      ∧ both.outcome = .failed ⟨3, .scoping (.unconsumed 2), none⟩
      ∧ both.machine = second.machine
      ∧ failing.outcome = .failed ⟨2, .refused ⟨some "commodity", .duplicate (.commodity "U")⟩, none⟩ := by
  intro first second both failing
  have hdone : first.outcome = .completed := by decide +kernel
  have hsecond : second.outcome = .failed ⟨1, .scoping (.unconsumed 2), none⟩ := by decide +kernel
  have htwice : (run .core (.ofString twice) (start Book.empty)).outcome
      = .failed ⟨2, .refused ⟨some "commodity", .duplicate (.commodity "U")⟩, none⟩ := by decide +kernel
  obtain ⟨hboth, hmachine, -⟩ := (run_joined .core (start Book.empty) unfinished remainder).1 hdone
  obtain ⟨hfailing, -, -⟩ := (run_joined .core (start Book.empty) twice remainder).2
    (by rw [htwice]; nofun) (by rw [htwice]; rfl)
  have hline : second.outcome.later (1 + lineFeeds unfinished.toList)
      = .failed ⟨3, .scoping (.unconsumed 2), none⟩ := by
    rw [hsecond]
    decide
  exact ⟨hdone, hsecond, hboth.trans hline, hmachine, hfailing.trans htwice⟩

end Machine

end Daybook
