import Daybook.Proofs.Enclosed
import Daybook.Proofs.Handling
import Daybook.Proofs.Run

/-!
# Scope — what runs in a scope runs as if alone

A machine inside a scope keeps the operands and scopes around it below its own.  A word sees its own
operands only, and the depth at which a silence began is counted from the scope.  So a source between
parentheses does what it does by itself, as long as it closes no scope that it has not opened.

* `Machine.inside`: a machine as it runs in a scope of another one.
* `Machine.step_inside`: **a token does in a scope what it does outside**.
* `Machine.run_inside`, `Machine.run_inside_completed`: so does a source.
* `Machine.run_parenthesised`: **a source in parentheses comes to what it comes to alone**, and leaves
  operands, scopes and silence around it as they were.
-/

namespace Daybook

namespace Machine

variable {σ : Type} {v : Vocabulary σ}

/-- The depth at which a silence began, counted with `n` scopes more around it. -/
def deeper (n silence : Nat) : Nat := if silence = 0 then 0 else silence + n

@[simp] theorem deeper_zero (n : Nat) : deeper n 0 = 0 := rfl

theorem deeper_of_ne_zero (n : Nat) {silence : Nat} (h : silence ≠ 0) :
    deeper n silence = silence + n := if_neg h

/-- The scope in which a silence began is the same, however deep it lies. -/
theorem deeper_close (n silence : Nat) {depth : Nat} (h : depth ≠ 0) :
    (if depth + n = deeper n silence then 0 else deeper n silence)
      = deeper n (if depth = silence then 0 else silence) := by
  by_cases hs : silence = 0
  · rw [hs, deeper_zero, if_neg h, deeper_zero, if_neg (by omega)]
  · rw [deeper_of_ne_zero n hs]
    by_cases hd : depth = silence
    · rw [if_pos (by omega), if_pos hd, deeper_zero]
    · rw [if_neg (by omega), if_neg hd, deeper_of_ne_zero n hs]

/-- A machine as it runs in a scope, among the operands `around` and those of the scopes `outer`. -/
def inside (around : Operands) (outer : List Operands) (m : Machine σ) : Machine σ :=
  { m with
    enclosing := m.enclosing ++ around :: outer
    silence := deeper (outer.length + 1) m.silence }

variable {around : Operands} {outer : List Operands} {m m' : Machine σ}

theorem silenced_inside (m : Machine σ) : (m.inside around outer).silenced = m.silenced := by
  simp only [silenced, inside, deeper]
  cases m.silence with
  | zero => rfl
  | succ n => rfl

theorem depth_inside (m : Machine σ) :
    (m.inside around outer).depth = m.depth + (outer.length + 1) := List.length_append

/-- A scope that is closed inside ends the silence that it ends outside. -/
theorem closeScope_inside {signal : Signal} (h : m.closeScope = (.ok signal, m')) :
    (m.inside around outer).closeScope = (.ok signal, m'.inside around outer) := by
  obtain ⟨visible, enclosing, silence, context⟩ := m
  cases enclosing with
  | nil => cases h
  | cons os rest =>
      cases visible with
      | cons x xs => cases h
      | nil =>
          cases h
          have hlength : (os :: (rest ++ around :: outer)).length
              = (os :: rest).length + (outer.length + 1) :=
            depth_inside ⟨[], os :: rest, silence, context⟩
          have hsilence : (if (os :: (rest ++ around :: outer)).length
                = deeper (outer.length + 1) silence then 0 else deeper (outer.length + 1) silence)
              = deeper (outer.length + 1) (if (os :: rest).length = silence then 0 else silence) := by
            rw [hlength]
            exact deeper_close _ silence (Nat.succ_ne_zero rest.length)
          exact congrArg
            (fun n => (Except.ok Signal.proceed, Machine.mk os (rest ++ around :: outer) n context))
            hsilence

/-- **A token does in a scope what it does outside**, unless scopes do not come out even. -/
theorem step_inside {t : Token} {r : Except Failure Signal} (h : m.step v t = (r, m'))
    (hr : ∀ e, r ≠ .error (.failed (.scoping e))) :
    (m.inside around outer).step v t = (r, m'.inside around outer) := by
  cases t with
  | word s =>
      simp only [step, call] at h ⊢
      rw [silenced_inside]
      split at h
      · next hsilenced =>
          cases h
          rw [if_pos hsilenced]
      next hsilenced =>
      rw [if_neg hsilenced]
      split at h
      · next hsilence =>
          rw [if_pos hsilence]
          obtain ⟨visible, enclosing, silence, context⟩ := m
          cases enclosing with
          | nil =>
              cases h
              exact absurd rfl (hr _)
          | cons os rest =>
              cases h
              have hlength : (os :: (rest ++ around :: outer)).length
                  = deeper (outer.length + 1) (os :: rest).length :=
                (depth_inside ⟨visible, os :: rest, silence, context⟩).trans
                  (deeper_of_ne_zero _ (Nat.succ_ne_zero rest.length)).symm
              exact congrArg
                (fun n => (Except.ok Signal.proceed,
                  Machine.mk visible (os :: (rest ++ around :: outer)) n context)) hlength
      · next hsilence =>
          rw [if_neg hsilence]
          cases hw : v s with
          | none =>
              rw [hw] at h
              cases h
              rfl
          | some w =>
              rw [hw] at h
              cases h
              rfl
  | quoted s =>
      simp only [step] at h ⊢
      cases h
      rw [silenced_inside]
      split <;> rfl
  | opening => cases h; rfl
  | closing =>
      cases r with
      | ok signal => exact closeScope_inside h
      | error failure =>
          simp only [step, closeScope] at h
          split at h
          · cases h
            exact absurd rfl (hr _)
          split at h
          · cases h
          · cases h
            exact absurd rfl (hr _)

/-! ### Runs -/

/-- How a word ends a run: it stops it, refuses, or leaves the range of numbers. -/
inductive ByWord : Outcome → Prop where
  | stopped : ByWord .stopped
  | refused (line : Nat) (refusal : Refusal) : ByWord (.failed ⟨line, .refused refusal, none⟩)
  | exceeded (excess : Excess) : ByWord (.exceeded excess)

/-- **A run that a word ends goes the same way in a scope.** -/
theorem run_inside (l : Lexer) (m : Machine σ) (h : ByWord (run v l m).outcome) :
    run v l.enclosed (m.inside around outer)
      = ⟨(run v l m).outcome, (run v l m).lexer.enclosed, (run v l m).machine.inside around outer⟩ := by
  fun_induction run v l m with
  | case1 => cases h
  | case2 => cases h
  | case3 l m l' t hn m' hs ih =>
      rw [run_of_proceed (Lexer.next_enclosed hn) (step_inside hs (by simp))]
      exact ih h
  | case4 l m l' t hn m' hs =>
      rw [run_of_next (Lexer.next_enclosed hn), step_inside hs (by simp)]
  | case5 l m l' t hn cause m' hs =>
      -- scopes that do not come out even are no matter of a word
      cases h with
      | refused line refusal =>
          rw [run_of_next (Lexer.next_enclosed hn), step_inside hs (by simp)]
          dsimp only
          rw [Lexer.line_enclosed]
  | case6 l m l' t hn excess m' hs =>
      rw [run_of_next (Lexer.next_enclosed hn), step_inside hs (by simp)]

/-- A scope with nothing left in it is closed by the parenthesis. -/
theorem step_closing_inside (context : σ) :
    ((start context).inside around outer).step v .closing
      = (.ok .proceed, ⟨around, outer, 0, context⟩) := by
  have hsilence : (if (around :: outer).length = 0 then 0 else 0) = 0 := ite_self 0
  exact congrArg
    (fun n => (Except.ok Signal.proceed, Machine.mk around outer n context)) hsilence

/-- **A run that comes out even goes the same way in a scope**, and then leaves it. -/
theorem run_inside_completed (l : Lexer) (m : Machine σ) (h : (run v l m).outcome = .completed)
    (heven : (run v l m).machine.finish = none) :
    run v l.enclosed (m.inside around outer)
      = ⟨.completed, (run v l m).lexer, ⟨around, outer, 0, (run v l m).machine.context⟩⟩ := by
  fun_induction run v l m with
  | case1 => cases h
  | case2 l m l' hn =>
      have hm : m = start m.context := finish_eq_none_iff.1 heven
      rw [hm, run_of_proceed (Lexer.next_enclosed_end hn) (step_closing_inside m.context),
        run_of_end (Lexer.next_of_finished hn)]
      rfl
  | case3 l m l' t hn m' hs ih =>
      rw [run_of_proceed (Lexer.next_enclosed hn) (step_inside hs (by simp))]
      exact ih h heven
  | case4 => cases h
  | case5 => cases h
  | case6 => cases h

/-! ### A source in parentheses -/

/-- The machine in a scope just opened is one before its first token. -/
theorem openScope_eq_inside (hm : m.silenced = false) :
    m.openScope = (start m.context).inside m.visible m.enclosing := by
  obtain ⟨visible, enclosing, silence, context⟩ := m
  cases silence with
  | zero => rfl
  | succ n => cases hm

/-- A source in parentheses is a scope in which the source runs. -/
theorem run_parenthesised_eq (source : String) (hm : m.silenced = false) :
    run v (.ofString (parenthesised source)) m
      = run v (Lexer.ofString source).enclosed ((start m.context).inside m.visible m.enclosing) := by
  rw [← openScope_eq_inside hm]
  exact run_of_proceed (Lexer.next_parenthesised source) rfl

/-- A run from a book leaves the transfers that it has as they are. -/
theorem run_transfers (l : Lexer) (b : Book) :
    b.transfers <+: (run .core l (start b)).machine.context.transfers := by
  obtain ⟨ts, -, hm⟩ := run_reached .core l (start b)
  have hapart : (start b).context.Apart b.transfers (start b).stack.transferIds :=
    ⟨List.prefix_refl _, by simp [start, stack, Operands.transferIds]⟩
  rw [hm]
  exact (feed_induction (P := fun m : Machine Book => m.context.Apart b.transfers m.stack.transferIds)
    (fun _ t ha => step_apart ha t) ts hapart).kept

/-- **A source in parentheses comes to what it comes to alone.**  If by itself it completes and comes out
even, then in parentheses it completes on any machine that is not silenced, with the same context, and all
else on the machine is as before: operands, scopes and silence, and the transfers that the book had.  If by
itself it fails because a word refuses, it fails so in parentheses, on the same line and with the same
context. -/
theorem run_parenthesised (source : String) (m : Machine Book) (hm : m.silenced = false) :
    let alone := run .core (.ofString source) (start m.context)
    let enclosed := run .core (.ofString (parenthesised source)) m
    (alone.outcome = .completed → alone.machine.finish = none →
      enclosed.outcome = .completed ∧ enclosed.machine = { m with context := alone.machine.context }
        ∧ m.context.transfers <+: alone.machine.context.transfers)
    ∧ ∀ line refusal, alone.outcome = .failed ⟨line, .refused refusal, none⟩ →
        enclosed.outcome = .failed ⟨line, .refused refusal, none⟩
          ∧ enclosed.machine.context = alone.machine.context := by
  intro alone enclosed
  have henclosed : enclosed = _ := run_parenthesised_eq source hm
  have hsilence : m.silence = 0 := by simpa [silenced] using hm
  constructor
  · intro hdone heven
    rw [henclosed, run_inside_completed _ _ hdone heven, ← hsilence]
    exact ⟨rfl, rfl, run_transfers _ _⟩
  · intro line refusal hfailed
    rw [henclosed, run_inside _ _ (hfailed ▸ .refused line refusal)]
    exact ⟨hfailed, rfl⟩

/-- A machine in a scope, with a transfer drafted outside it and a text inside. -/
def drafting : Machine Book :=
  (run .core (.ofString "(U d commodity) (Assets:A open) Assets:A 1 U xfer ( x") (start .empty)).machine

/-- A piece of source with scopes and a silence of its own. -/
def aside : String := "(Assets:B open) ((silence any thing) 2024 1 1 date)"

/-- A piece of source that fails on its second line, in a scope of its own. -/
def slip : String := "(Assets:B open)\n((Assets:C close) y)"

/-- The aside runs among a transfer and a text, and the slip fails there as it does by itself. -/
theorem run_parenthesised_drafting :
    drafting.stack.length = 2
    ∧ (run .core (.ofString (parenthesised aside)) drafting).outcome = .completed
    ∧ (run .core (.ofString (parenthesised aside)) drafting).machine
        = { drafting with
            context := (run .core (.ofString aside) (start drafting.context)).machine.context }
    ∧ drafting.context.transfers
        <+: (run .core (.ofString aside) (start drafting.context)).machine.context.transfers
    ∧ (run .core (.ofString (parenthesised slip)) drafting).outcome
        = .failed ⟨2, .refused ⟨some "close", .unknownAccount (.reference "Assets:C")⟩, none⟩
    ∧ (run .core (.ofString (parenthesised slip)) drafting).machine.context
        = (run .core (.ofString slip) (start drafting.context)).machine.context := by
  have hm : drafting.silenced = false := by decide +kernel
  have hdone : (run .core (.ofString aside) (start drafting.context)).outcome = .completed := by
    decide +kernel
  have heven : (run .core (.ofString aside) (start drafting.context)).machine.finish = none := by
    decide +kernel
  have hfailed : (run .core (.ofString slip) (start drafting.context)).outcome
      = .failed ⟨2, .refused ⟨some "close", .unknownAccount (.reference "Assets:C")⟩, none⟩ := by
    decide +kernel
  obtain ⟨houtcome, hmachine, hkept⟩ := (run_parenthesised aside drafting hm).1 hdone heven
  exact ⟨by decide +kernel, houtcome, hmachine, hkept,
    (run_parenthesised slip drafting hm).2 _ _ hfailed⟩

end Machine

end Daybook
