import Daybook.Proofs.Posting
import Daybook.Proofs.Run

/-!
# Failures — what a failing call leaves as it was

A core word that fails has touched nothing but the operands that it took off the top.  Most words are
whole: they change nothing before they can no longer fail.  The word that applies transactions changes
the book transfer after transfer; that a posting is never refused after the checks is what makes its
refusals harmless.

* `transact_failed`: a transaction that is refused has not touched the book.
* `step_failed_context`: a token that fails leaves the book as it was.
* `core_failed_unchanged`: **a failing call changes nothing but the operands that it took**, and a
  reading that fails leaves the book of the tokens before the failing one.
-/

namespace Daybook

namespace Words

/-- A transaction that is refused has not touched the book. -/
theorem transact_failed {name : String} {d d' : Desk Book} {cause : Cause}
    (h : transact name d = (.error (.failed cause), d')) :
    d'.context = d.context ∧ d'.operands <:+ d.operands := by
  rcases Word.ofAct_error h with ⟨rfl, -⟩ | ⟨o, fault, htake, hact, hfault⟩
  · exact ⟨rfl, List.suffix_refl _⟩
  refine ⟨?_, offTop_takeTransaction _ _ _ htake⟩
  cases fault with
  | exceeded excess => cases hfault
  | refused ground =>
      rcases Act.on_bind_error_iff.1 hact with happly | ⟨_, _, -, hpure⟩
      · rcases Act.on_bind_error_iff.1 happly with hdraft | ⟨x, b, hdraft, hrest⟩
        · exact Act.reads_judge _ _ _ _ hdraft
        obtain ⟨-, rfl⟩ := Act.on_judge_ok_iff.1 hdraft
        rcases Act.on_bind_error_iff.1 hrest with hx | ⟨_, _, -, hpure⟩
        · exact Transaction.apply_refused hx
        · exact absurd hpure (Act.sure_pure _ _ _ _)
      · exact absurd hpure (Act.sure_pure _ _ _ _)

/-- A core word that fails has touched nothing but the operands that it took. -/
theorem core_failed {name called : String} {w : Word Book} (hw : (name, w) ∈ coreWords)
    {d d' : Desk Book} {cause : Cause} (h : w called d = (.error (.failed cause), d')) :
    d'.context = d.context ∧ d'.operands <:+ d.operands := by
  rcases core_whole hw with rfl | hwhole
  · exact transact_failed h
  · exact hwhole called d _ d' h

end Words

/-- A token that fails leaves the book as it was. -/
theorem Machine.step_failed_context {m m' : Machine Book} {t : Token} {cause : Cause}
    (h : m.step .core t = (.error (.failed cause), m')) : m'.context = m.context := by
  by_cases hcalls : ∃ s w, m.Calls t s w
  · obtain ⟨s, w, hcalls⟩ := hcalls
    rw [hcalls.step_eq] at h
    obtain ⟨hr, rfl⟩ := Prod.mk.inj h
    exact (Words.core_failed (Vocabulary.core_mem hcalls.word) (Prod.ext hr rfl)).1
  · rw [← (step_of_not_calls hcalls).1, h]

/-- **A failing call changes nothing but the operands that it took off the top.**  So a reading that fails
leaves the book to which the tokens before the failing one lead. -/
theorem core_failed_unchanged :
    (∀ name w, (name, w) ∈ Words.coreWords → ∀ called stack floor view b cause d',
        Operands.view stack floor = .ok view →
          w called ⟨view.visible, b⟩ = (.error (.failed cause), d') →
            d'.context = b ∧ (d'.operands ++ view.hidden) <:+ stack
              ∧ view.hidden <:+ (d'.operands ++ view.hidden) ∧ view.hidden.length = floor)
      ∧ ∀ source report b, Book.ofSource source = (.failed report, b) →
          ∃ before after m m', (Lexer.ofString source).tokens = before ++ after
            ∧ Machine.Proceeds .core (.start .empty) before m
            ∧ Machine.Fails .core m after report.cause m' ∧ b = m.context := by
  constructor
  · intro name w hw called stack floor view b cause d' hview h
    -- a word sees only what lies above the floor, so it cannot take anything below
    obtain ⟨hb, hops⟩ := Words.core_failed hw h
    simp only [Operands.view] at hview
    split at hview
    · cases hview
    · next hfloor =>
        cases hview
        refine ⟨hb, ?_, List.suffix_append _ _, ?_⟩
        · obtain ⟨taken, htaken⟩ := hops
          refine ⟨taken, ?_⟩
          rw [← List.append_assoc, htaken]
          exact List.take_append_drop _ _
        · rw [List.length_drop]
          omega
  · intro source report b h
    -- the run goes on up to the failing token, which leaves the book as it is
    obtain ⟨before, after, m, m', htokens, hr, hf, rfl⟩ := Book.ofSource_failed h
    refine ⟨before, after, m, m', htokens, hr, hf, ?_⟩
    generalize report.cause = cause at hf
    cases hf with
    | token hs => exact Machine.step_failed_context hs
    | brokenOff e => rfl
    | uneven he => rfl

/-- A ledger with a transaction that does not balance. -/
def unbalanced : String :=
  "(U d commodity) (Assets:A open) x X y Assets:A 1 U xfer Assets:A 2 U xfer xact"

theorem core_failed_unchanged_unbalanced :
    (Words.close "close" ⟨[.text "Assets:A"], .empty⟩).1
        = .error (.failed (.refused ⟨some "close", .unknownAccount (.reference "Assets:A")⟩))
      ∧ (Words.close "close" ⟨[.text "Assets:A"], .empty⟩).2.context = .empty
      ∧ (Book.ofSource unbalanced).1
        = .failed ⟨1, .refused ⟨some "xact", .unbalanced (.sum ⟨⟨false, 3, 0⟩, "U"⟩)⟩, some .zero⟩
      ∧ ∃ before after m m', (Lexer.ofString unbalanced).tokens = before ++ after
          ∧ Machine.Proceeds .core (.start .empty) before m
          ∧ Machine.Fails .core m after
              (.refused ⟨some "xact", .unbalanced (.sum ⟨⟨false, 3, 0⟩, "U"⟩)⟩) m'
          ∧ (Book.ofSource unbalanced).2 = m.context := by
  have hclose : (Words.close "close" ⟨[.text "Assets:A"], .empty⟩).1
      = .error (.failed (.refused ⟨some "close", .unknownAccount (.reference "Assets:A")⟩)) := rfl
  have hread : (Book.ofSource unbalanced).1
      = .failed ⟨1, .refused ⟨some "xact", .unbalanced (.sum ⟨⟨false, 3, 0⟩, "U"⟩)⟩, some .zero⟩ := by
    decide +kernel
  refine ⟨hclose, ?_, hread, core_failed_unchanged.2 unbalanced _ _ (Prod.ext hread rfl)⟩
  exact (core_failed_unchanged.1 "close" Words.close (by simp [Words.coreWords]) "close"
    [.text "Assets:A", .text "x"] 1 ⟨[.text "Assets:A"], [.text "x"]⟩ .empty _ _ rfl
    (Prod.ext hclose rfl)).1

end Daybook
