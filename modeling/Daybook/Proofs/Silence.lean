import Daybook.Proofs.Run

/-!
# Silence — the rest of a scope is left out

The word `silence` switches pushing and calling off until its scope ends.  Scopes are still opened and
closed meanwhile, so that the end of the one that is silenced is found: silence is kept as the depth of a
scope, and the scopes inside are deeper.  What stands between `silence` and the end of its scope might as
well not be there.

* `Balanced`: tokens that close the scopes that they open, and no others.
* `muted`, `step_muted`: **under silence a token opens or closes a scope, or does nothing**.
* `silence_erases`: so what stands between `silence` and the end of its scope makes no difference.
-/

namespace Daybook

/-! ### Balanced tokens -/

/-- How many scopes are open after a token, if so many are before it; none, if it closes one too many. -/
def Token.scopesAfter : Token → Nat → Option Nat
  | .opening, n => some (n + 1)
  | .closing, 0 => none
  | .closing, n + 1 => some n
  | .word _, n => some n
  | .quoted _, n => some n

/-- How many scopes are open after tokens. -/
def Tokens.scopesAfter : Nat → List Token → Option Nat
  | n, [] => some n
  | n, t :: ts => (t.scopesAfter n).bind fun k => scopesAfter k ts

/-- Tokens that close the scopes that they open, and no others. -/
def Tokens.Balanced (ts : List Token) : Prop := scopesAfter 0 ts = some 0

instance (ts : List Token) : Decidable (Tokens.Balanced ts) :=
  inferInstanceAs (Decidable (Tokens.scopesAfter 0 ts = some 0))

/-- The first of some tokens leave a number of scopes open if all do. -/
theorem Tokens.scopesAfter_append {n k : Nat} {before after : List Token}
    (h : scopesAfter n (before ++ after) = some k) :
    ∃ j, scopesAfter n before = some j ∧ scopesAfter j after = some k := by
  induction before generalizing n with
  | nil => exact ⟨n, rfl, h⟩
  | cons t before ih =>
      obtain ⟨n₁, ht, hrest⟩ := Option.bind_eq_some_iff.1 h
      obtain ⟨j, hj, hafter⟩ := ih hrest
      exact ⟨j, Option.bind_eq_some_iff.2 ⟨n₁, ht, hj⟩, hafter⟩

namespace Machine

variable {σ : Type} {v : Vocabulary σ} {m m' : Machine σ} {t : Token}

/-! ### Under silence -/

/-- A machine that has been silenced, with `n` scopes opened since. -/
def muted (m : Machine σ) : Nat → Machine σ
  | 0 => { m with silence := m.depth }
  | n + 1 => (m.muted n).openScope

theorem depth_muted (m : Machine σ) (n : Nat) : (m.muted n).depth = m.depth + n := by
  induction n with
  | zero => rfl
  | succ n ih => exact congrArg (· + 1) ih

theorem silence_muted (m : Machine σ) (n : Nat) : (m.muted n).silence = m.depth := by
  induction n with
  | zero => rfl
  | succ n ih => exact ih

theorem silenced_muted (hm : m.depth ≠ 0) (n : Nat) : (m.muted n).silenced = true := by
  simp only [silenced]
  rw [silence_muted]
  exact bne_iff_ne.2 hm

/-- A scope that was opened under silence ends empty, and silence goes on. -/
theorem closeScope_muted (m : Machine σ) (n : Nat) :
    (m.muted (n + 1)).closeScope = (.ok .proceed, m.muted n) := by
  have hdeeper : ¬(m.muted (n + 1)).depth = (m.muted (n + 1)).silence := by
    rw [depth_muted, silence_muted]
    omega
  rw [closeScope_eq rfl, if_neg hdeeper]
  rfl

/-- **Under silence a token opens or closes a scope, or does nothing.** -/
theorem step_muted (hm : m.depth ≠ 0) {n k : Nat} (ht : t.scopesAfter n = some k) :
    (m.muted n).step v t = (.ok .proceed, m.muted k) := by
  have hsilenced := silenced_muted hm n
  cases t with
  | word s =>
      cases ht
      simp only [step, call]
      rw [if_pos hsilenced]
  | quoted s =>
      cases ht
      simp only [step]
      rw [if_pos hsilenced]
  | opening =>
      cases ht
      rfl
  | closing =>
      cases n with
      | zero => cases ht
      | succ n =>
          cases ht
          exact m.closeScope_muted _

theorem proceeds_muted (hm : m.depth ≠ 0) {n k : Nat} {ts : List Token}
    (hts : Tokens.scopesAfter n ts = some k) : Proceeds v (m.muted n) ts (m.muted k) := by
  induction ts generalizing n with
  | nil =>
      cases hts
      exact .refl _
  | cons t ts ih =>
      obtain ⟨n₁, ht, hrest⟩ := Option.bind_eq_some_iff.1 hts
      exact .more (step_muted hm ht) (ih hrest)

/-- The word `silence` silences the innermost scope, if there is one. -/
theorem step_silence (hm : m.depth ≠ 0) (hsilence : m.silence = 0) :
    m.step v (.word silenceWord) = (.ok .proceed, m.muted 0) := by
  have hnot : m.silenced = false := by
    simp only [silenced]
    rw [hsilence]
    rfl
  have hopen : ¬m.enclosing.isEmpty = true := by
    rw [List.isEmpty_iff]
    exact fun h => hm (congrArg List.length h)
  simp only [step, call]
  rw [hnot, if_neg Bool.false_ne_true, if_pos trivial, if_neg hopen]
  rfl

/-- Silence makes no difference to the end of its scope. -/
theorem closeScope_muted_zero (hm : m.depth ≠ 0) (hsilence : m.silence = 0) :
    (m.muted 0).closeScope = m.closeScope := by
  obtain ⟨visible, enclosing, silence, context⟩ := m
  obtain rfl : silence = 0 := hsilence
  cases enclosing with
  | nil => exact absurd rfl hm
  | cons outer rest =>
      rw [closeScope_eq rfl, closeScope_eq rfl, if_neg hm]
      show (_, Machine.mk (visible ++ outer) rest
        (if (outer :: rest).length = (outer :: rest).length then 0 else _) context) = _
      rw [if_pos rfl]
      rfl

/-- **What stands between `silence` and the end of its scope makes no difference.**  In a scope that is not
silenced, `silence` and balanced tokens after it are passed over, and then the end of the scope comes to just
what it comes to without them: it goes through or fails alike, and leaves the same machine.  None of the
tokens calls a word, whatever the vocabulary. -/
theorem silence_erases (hm : m.enclosing ≠ []) (hsilence : m.silence = 0) {ts : List Token}
    (hts : Tokens.Balanced ts) (v : Vocabulary σ) :
    ∃ m', Proceeds v m (.word silenceWord :: ts) m' ∧ m'.step v .closing = m.step v .closing
      ∧ ∀ before t after, ts = before ++ t :: after →
          ¬(m.feed v (.word silenceWord :: before)).Invokes v t := by
  have hdepth : m.depth ≠ 0 := fun h => hm (List.length_eq_zero_iff.1 h)
  have hstart := step_silence (v := v) hdepth hsilence
  refine ⟨m.muted 0, .more hstart (proceeds_muted hdepth hts), ?_, ?_⟩
  · exact closeScope_muted_zero hdepth hsilence
  · rintro before t after rfl ⟨hnot, -⟩
    obtain ⟨j, hj, -⟩ := Tokens.scopesAfter_append hts
    rw [(Proceeds.more hstart (proceeds_muted hdepth hj)).feed_eq, silenced_muted hdepth] at hnot
    cases hnot

/-- A scope with an operand, in a book. -/
def inScope : Machine Book := ⟨[.text "a"], [[]], 0, .empty⟩

/-- Tokens that would open a scope, push and call outside silence. -/
def passedOver : List Token :=
  [.opening, .word silenceWord, .quoted "b", .word "xact", .closing, .word "close", .word "c"]

/-- The scope fails for the operand that it has left, and for nothing else. -/
theorem silence_erases_passedOver :
    inScope.enclosing ≠ [] ∧ inScope.silence = 0 ∧ Tokens.Balanced passedOver
      ∧ ∃ m', Proceeds .core inScope (.word silenceWord :: passedOver) m'
        ∧ m'.step .core .closing
          = (.error (.failed (.scoping (.unconsumed 1))), ⟨[.text "a"], [], 0, .empty⟩)
        ∧ ¬(inScope.feed .core (.word silenceWord :: passedOver.take 3)).Invokes .core (.word "xact") := by
  have hopen : inScope.enclosing ≠ [] := by simp [inScope]
  have hbalanced : Tokens.Balanced passedOver := by decide
  obtain ⟨m', hm', hclosing, hcalls⟩ := silence_erases hopen rfl hbalanced .core
  exact ⟨hopen, rfl, hbalanced, m', hm', hclosing, hcalls (passedOver.take 3) (.word "xact") _ rfl⟩

end Machine

end Daybook
