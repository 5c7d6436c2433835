import Daybook.Reader

/-!
# Runs, token by token

A run over a source is followed through its tokens.  Up to the last token that it takes, each lets it
go on; the last one stops it, fails or exceeds, unless the source ends or breaks off first.

* `run_ends`: **how a run ends, by its tokens**.
* `proceeds_or_stuck`: tokens let the machine go on, or there is a first one that does not.
* `run_exceeded_iff`: a run exceeds at the first token that does not let it go on.
* `run_congr`: vocabularies that come to the same at every token of a run have the same runs.
* `run_takes`: the machine at the end of a run is the one to which the tokens that the run takes lead.
* `Machine.Invokes`, `step_of_not_invokes`: tokens that call a word; the vocabulary is nothing to the others.
* `step_uncalled`, `step_ne`: what a token does that calls no word, and what no token comes to if no word does.
* `Machine.Calls`, `step_of_not_calls`: tokens that call a core word, and what the others do.
* `Concludes`, `read_concludes`: **a reading comes to what its run comes to**, but for the check at the end.
* `ofSource_failed`: a reading that fails does so at the first token that fails, or at the end.
* `ofSource_completed`: a reading that completes has gone on after every token.
* `Reached`, `reached_readings`: **the books to which tokens of a source lead**, among them those after
  any number of readings.
-/

namespace Daybook

namespace Lexer

/-- The tokens of a source are those that are found one after the other. -/
theorem tokens_eq (l : Lexer) :
    l.tokens = match l.next with
      | (.ok (some t), l') => t :: l'.tokens
      | _ => [] := by
  rw [tokens]
  split
  · next h => rw [h]
  · next h => rw [h]
  · next h => rw [h]

theorem tokens_of_next {l l' : Lexer} {t : Token} (h : l.next = (.ok (some t), l')) :
    l.tokens = t :: l'.tokens := by rw [tokens_eq, h]

theorem tokens_of_end {l l' : Lexer} (h : l.next = (.ok none, l')) : l.tokens = [] := by
  rw [tokens_eq, h]

theorem tokens_of_error {l l' : Lexer} {e : LexError} (h : l.next = (.error e, l')) :
    l.tokens = [] := by rw [tokens_eq, h]

theorem broken_of_next {l l' : Lexer} {e : LexError} (h : l.next = (.error e, l')) : l'.broken = some e := by
  have hbroken := broken_next_iff.2 (congrArg Prod.fst h)
  rwa [h] at hbroken

/-- After a lexical failure no more tokens are found. -/
theorem tokens_after_error {l l' : Lexer} {e : LexError} (h : l.next = (.error e, l')) :
    l'.tokens = [] := tokens_of_error (next_of_broken (broken_of_next h))

theorem next_of_tokens {l : Lexer} {t : Token} {ts : List Token} (h : l.tokens = t :: ts) :
    ∃ l', l.next = (.ok (some t), l') ∧ l'.tokens = ts := by
  match hn : l.next with
  | (.error e, l') => rw [tokens_of_error hn] at h; cases h
  | (.ok none, l') => rw [tokens_of_end hn] at h; cases h
  | (.ok (some t'), l') =>
      rw [tokens_of_next hn] at h
      cases h
      exact ⟨l', rfl, rfl⟩

end Lexer

theorem Vocabulary.add_self {σ : Type} (v : Vocabulary σ) (s : String) (w : Word σ) :
    v.add s w s = some w := if_pos rfl

theorem Vocabulary.add_of_ne {σ : Type} (v : Vocabulary σ) {s s' : String} (h : s' ≠ s) (w : Word σ) :
    v.add s w s' = v s' := if_neg h

namespace Machine

variable {σ : Type} {v : Vocabulary σ}

/-! ### One token of a run -/

section

variable {l l' : Lexer} {t : Token} {m m' : Machine σ}

/-- A run takes one token and goes on from there. -/
theorem run_eq (v : Vocabulary σ) (l : Lexer) (m : Machine σ) :
    run v l m = match l.next with
      | (.error e, l') => ⟨.failed ⟨l'.line, .lexical e, none⟩, l', m⟩
      | (.ok none, l') => ⟨.completed, l', m⟩
      | (.ok (some t), l') =>
        match m.step v t with
        | (.ok .proceed, m') => run v l' m'
        | (.ok .stop, m') => ⟨.stopped, l', m'⟩
        | (.error (.failed cause), m') => ⟨.failed ⟨l'.line, cause, none⟩, l', m'⟩
        | (.error (.exceeded excess), m') => ⟨.exceeded excess, l', m'⟩ := by
  rw [run]
  split
  · next h => rw [h]
  · next h => rw [h]
  · next h => exact h ▸ rfl

theorem run_of_end (hn : l.next = (.ok none, l')) : run v l m = ⟨.completed, l', m⟩ := by
  rw [run_eq, hn]

theorem run_of_error {e : LexError} (hn : l.next = (.error e, l')) :
    run v l m = ⟨.failed ⟨l'.line, .lexical e, none⟩, l', m⟩ := by rw [run_eq, hn]

theorem run_of_next (hn : l.next = (.ok (some t), l')) :
    run v l m = match m.step v t with
      | (.ok .proceed, m') => run v l' m'
      | (.ok .stop, m') => ⟨.stopped, l', m'⟩
      | (.error (.failed cause), m') => ⟨.failed ⟨l'.line, cause, none⟩, l', m'⟩
      | (.error (.exceeded excess), m') => ⟨.exceeded excess, l', m'⟩ := by
  rw [run_eq, hn]

theorem run_of_proceed (hn : l.next = (.ok (some t), l')) (hs : m.step v t = (.ok .proceed, m')) :
    run v l m = run v l' m' := by
  rw [run_of_next hn, hs]

end

/-- A scope ends in one way, but for what it has left. -/
theorem closeScope_eq {m : Machine σ} {outer : Operands} {rest : List Operands}
    (h : m.enclosing = outer :: rest) :
    m.closeScope =
      (if m.visible.isEmpty then .ok .proceed
        else .error (.failed (.scoping (.unconsumed m.visible.length))),
        { m with
          visible := m.visible ++ outer
          enclosing := rest
          silence := if m.depth = m.silence then 0 else m.silence }) := by
  simp only [closeScope]
  rw [h]
  dsimp only
  split <;> rfl

/-- Scopes, operands and silence come out even in a machine that could begin a source. -/
theorem finish_eq_none_iff {m : Machine σ} : m.finish = none ↔ m = start m.context := by
  constructor
  · intro h
    simp only [finish] at h
    split at h
    · cases h
    next hstack =>
    split at h
    · cases h
    next hscopes =>
    split at h
    · cases h
    next hsilence =>
    obtain ⟨visible, enclosing, silence, context⟩ := m
    obtain rfl : enclosing = [] := by simpa using hscopes
    obtain rfl : visible = [] := by simpa [stack] using hstack
    obtain rfl : silence = 0 := by simpa [silenced] using hsilence
    rfl
  · intro h
    rw [h]
    rfl

/-! ### Tokens in a row -/

/-- The machine after tokens, whatever comes of each. -/
def feed (v : Vocabulary σ) (m : Machine σ) (ts : List Token) : Machine σ :=
  ts.foldl (fun m t => (m.step v t).2) m

/-- A run of tokens each of which lets the machine go on. -/
inductive Proceeds (v : Vocabulary σ) : Machine σ → List Token → Machine σ → Prop where
  | refl (m : Machine σ) : Proceeds v m [] m
  | more {m m₁ m' : Machine σ} {t : Token} {ts : List Token}
      (h : m.step v t = (.ok .proceed, m₁)) (r : Proceeds v m₁ ts m') : Proceeds v m (t :: ts) m'

theorem Proceeds.feed_eq {m m' : Machine σ} {ts : List Token} (h : Proceeds v m ts m') :
    m.feed v ts = m' := by
  induction h with
  | refl => rfl
  | @more m m₁ m' t ts h _ ih =>
      show (m.step v t).2.feed v ts = m'
      rw [h]
      exact ih

/-- Whether each of some tokens lets the machine go on. -/
def goesOn (v : Vocabulary σ) : Machine σ → List Token → Bool
  | _, [] => true
  | m, t :: ts =>
    match m.step v t with
    | (.ok .proceed, m') => goesOn v m' ts
    | _ => false

theorem proceeds_feed_iff {m : Machine σ} {ts : List Token} :
    Proceeds v m ts (m.feed v ts) ↔ goesOn v m ts = true := by
  induction ts generalizing m with
  | nil => exact iff_of_true (.refl m) rfl
  | cons t ts ih =>
      have hfeed : m.feed v (t :: ts) = (m.step v t).2.feed v ts := rfl
      rw [hfeed, goesOn]
      constructor
      · intro h
        cases h with
        | more hs r =>
            rw [hs] at r ⊢
            exact ih.1 r
      · intro h
        split at h
        · next m' hs =>
            rw [hs]
            exact .more hs (ih.2 h)
        · cases h

/-- Tokens let the machine go on, or one of them is the first that does not. -/
theorem proceeds_or_stuck (v : Vocabulary σ) (m : Machine σ) (ts : List Token) :
    (∃ m', Proceeds v m ts m')
      ∨ ∃ before t after m₁, ts = before ++ t :: after ∧ Proceeds v m before m₁
        ∧ (m₁.step v t).1 ≠ .ok .proceed := by
  induction ts generalizing m with
  | nil => exact .inl ⟨m, .refl m⟩
  | cons t ts ih =>
      by_cases hs : (m.step v t).1 = .ok .proceed
      · have hs : m.step v t = (.ok .proceed, (m.step v t).2) := Prod.ext hs rfl
        obtain ⟨m', r⟩ | ⟨before, t', after, m₁, rfl, r, hstuck⟩ := ih (m.step v t).2
        · exact .inl ⟨m', .more hs r⟩
        · exact .inr ⟨t :: before, t', after, m₁, rfl, .more hs r, hstuck⟩
      · exact .inr ⟨[], t, ts, m, rfl, .refl m, hs⟩

/-- What holds of a machine and is kept by every token holds after tokens. -/
theorem feed_induction {P : Machine σ → Prop} (hstep : ∀ m t, P m → P (m.step v t).2)
    {m : Machine σ} (ts : List Token) (hm : P m) : P (m.feed v ts) := by
  induction ts generalizing m with
  | nil => exact hm
  | cons t ts ih => exact ih (hstep m t hm)

/-- How a run from a machine over tokens ends, and with which machine. -/
inductive Ends (v : Vocabulary σ) (m : Machine σ) (ts : List Token) :
    Outcome → Machine σ → Prop where
  | completed {m' : Machine σ} (r : Proceeds v m ts m') : Ends v m ts .completed m'
  | brokenOff {m' : Machine σ} {line : Nat} {e : LexError} (r : Proceeds v m ts m') :
      Ends v m ts (.failed ⟨line, .lexical e, none⟩) m'
  | stopped {m₁ m' : Machine σ} {before after : List Token} {t : Token}
      (hts : ts = before ++ t :: after) (r : Proceeds v m before m₁)
      (h : m₁.step v t = (.ok .stop, m')) : Ends v m ts .stopped m'
  | failed {m₁ m' : Machine σ} {before after : List Token} {t : Token} {line : Nat} {cause : Cause}
      (hts : ts = before ++ t :: after) (r : Proceeds v m before m₁)
      (h : m₁.step v t = (.error (.failed cause), m')) :
      Ends v m ts (.failed ⟨line, cause, none⟩) m'
  | exceeded {m₁ m' : Machine σ} {before after : List Token} {t : Token} {excess : Excess}
      (hts : ts = before ++ t :: after) (r : Proceeds v m before m₁)
      (h : m₁.step v t = (.error (.exceeded excess), m')) : Ends v m ts (.exceeded excess) m'

theorem Ends.more {m m₁ m' : Machine σ} {t : Token} {ts : List Token} {outcome : Outcome}
    (h : m.step v t = (.ok .proceed, m₁)) (e : Ends v m₁ ts outcome m') :
    Ends v m (t :: ts) outcome m' := by
  cases e with
  | completed r => exact .completed (.more h r)
  | brokenOff r => exact .brokenOff (.more h r)
  | stopped hts r h' => exact .stopped (congrArg (t :: ·) hts) (.more h r) h'
  | failed hts r h' => exact .failed (congrArg (t :: ·) hts) (.more h r) h'
  | exceeded hts r h' => exact .exceeded (congrArg (t :: ·) hts) (.more h r) h'

/-- **How a run ends, by its tokens.** -/
theorem run_ends (v : Vocabulary σ) (l : Lexer) (m : Machine σ) :
    Ends v m l.tokens (run v l m).outcome (run v l m).machine := by
  fun_induction run v l m with
  | case1 l m e l' h => rw [Lexer.tokens_of_error h]; exact .brokenOff (.refl m)
  | case2 l m l' h => rw [Lexer.tokens_of_end h]; exact .completed (.refl m)
  | case3 l m t l' h m' hs ih => rw [Lexer.tokens_of_next h]; exact ih.more hs
  | case4 l m t l' h m' hs =>
      rw [Lexer.tokens_of_next h]
      exact .stopped (List.nil_append _).symm (.refl m) hs
  | case5 l m t l' h cause m' hs =>
      rw [Lexer.tokens_of_next h]
      exact .failed (List.nil_append _).symm (.refl m) hs
  | case6 l m t l' h excess m' hs =>
      rw [Lexer.tokens_of_next h]
      exact .exceeded (List.nil_append _).symm (.refl m) hs

/-- Tokens each of which lets the machine go on can be run beforehand. -/
theorem run_of_proceeds {m m₁ : Machine σ} {before after : List Token} (h : Proceeds v m before m₁)
    {l : Lexer} (hl : l.tokens = before ++ after) :
    ∃ l', l'.tokens = after ∧ run v l m = run v l' m₁ := by
  induction h generalizing l with
  | refl => exact ⟨l, hl, rfl⟩
  | more hs _ ih =>
      obtain ⟨l₁, hn, hl₁⟩ := Lexer.next_of_tokens hl
      obtain ⟨l', hl', hrun⟩ := ih hl₁
      exact ⟨l', hl', (run_of_proceed hn hs).trans hrun⟩

/-- Vocabularies that come to the same at every token of a run have the same runs. -/
theorem run_congr {v' : Vocabulary σ} {l : Lexer} {m : Machine σ}
    (h : ∀ before t after m₁, l.tokens = before ++ t :: after → Proceeds v m before m₁ →
      m₁.step v' t = m₁.step v t) : run v' l m = run v l m := by
  -- at its first token a run has come to nothing but where it starts
  have first : ∀ {l l' : Lexer} {m : Machine σ} {t : Token}, l.next = (.ok (some t), l') →
      (∀ before t after m₁, l.tokens = before ++ t :: after → Proceeds v m before m₁ →
        m₁.step v' t = m₁.step v t) → m.step v' t = m.step v t :=
    fun hn h => h [] _ _ _ (Lexer.tokens_of_next hn) (.refl _)
  fun_induction run v l m with
  | case1 l m e l' hn => exact run_of_error hn
  | case2 l m l' hn => exact run_of_end hn
  | case3 l m t l' hn m' hs ih =>
      rw [run_of_next hn, first hn h, hs]
      refine ih fun before t' after m₁ hts r => h (t :: before) t' after m₁ ?_ (.more hs r)
      rw [Lexer.tokens_of_next hn, hts, List.cons_append]
  | case4 l m t l' hn m' hs => rw [run_of_next hn, first hn h, hs]
  | case5 l m t l' hn cause m' hs => rw [run_of_next hn, first hn h, hs]
  | case6 l m t l' hn excess m' hs => rw [run_of_next hn, first hn h, hs]

/-- A run exceeds at the first token that does not let it go on. -/
theorem run_exceeded_iff {l : Lexer} {m : Machine σ} {e : Excess} :
    (run v l m).outcome = .exceeded e
      ↔ ∃ before t after m₁, l.tokens = before ++ t :: after ∧ Proceeds v m before m₁
        ∧ (m₁.step v t).1 = .error (.exceeded e) := by
  constructor
  · intro h
    have hends := run_ends v l m
    rw [h] at hends
    cases hends with
    | exceeded hts r hs => exact ⟨_, _, _, _, hts, r, congrArg Prod.fst hs⟩
  · rintro ⟨before, t, after, m₁, hts, r, hs⟩
    obtain ⟨l', hl', hrun⟩ := run_of_proceeds r hts
    obtain ⟨l'', hn, -⟩ := Lexer.next_of_tokens hl'
    rw [hrun, run_of_next hn, show m₁.step v t = (_, _) from Prod.ext hs rfl]

/-- The machine at the end of a run is the one to which the tokens that the run takes lead. -/
theorem run_takes (v : Vocabulary σ) (l : Lexer) (m : Machine σ) :
    ∃ ts, l.tokens = ts ++ (run v l m).lexer.tokens ∧ (run v l m).machine = m.feed v ts := by
  -- the token at which a run ends otherwise than at the end is the last one taken
  have last : ∀ {l l' : Lexer} {m m' : Machine σ} {t : Token} {r : Except Failure Signal},
      l.next = (.ok (some t), l') → m.step v t = (r, m') →
        ∃ ts, l.tokens = ts ++ l'.tokens ∧ m' = m.feed v ts := fun {l l' m m' t r} h hs =>
    ⟨[t], Lexer.tokens_of_next h, (congrArg Prod.snd hs).symm⟩
  fun_induction run v l m with
  | case1 l m e l' h =>
      exact ⟨[], (Lexer.tokens_of_error h).trans (Lexer.tokens_after_error h).symm, rfl⟩
  | case2 l m l' h =>
      exact ⟨[], (Lexer.tokens_of_end h).trans (Lexer.tokens_of_end (Lexer.next_of_finished h)).symm,
        rfl⟩
  | case3 l m t l' h m' hs ih =>
      obtain ⟨ts, hts, hm⟩ := ih
      refine ⟨t :: ts, by rw [Lexer.tokens_of_next h, hts]; rfl, ?_⟩
      rw [hm]
      show m'.feed v ts = (m.step v t).2.feed v ts
      rw [hs]
  | case4 l m t l' h m' hs => exact last h hs
  | case5 l m t l' h cause m' hs => exact last h hs
  | case6 l m t l' h excess m' hs => exact last h hs

/-- The machine at the end of a run is the one to which some of the first tokens lead. -/
theorem run_reached (v : Vocabulary σ) (l : Lexer) (m : Machine σ) :
    ∃ ts, ts <+: l.tokens ∧ (run v l m).machine = m.feed v ts := by
  obtain ⟨ts, hts, hm⟩ := run_takes v l m
  exact ⟨ts, ⟨_, hts.symm⟩, hm⟩

/-! ### Tokens that call a word -/

section

variable {m : Machine σ} {t : Token}

/-- A token calls a word: it is the name of one, unquoted and outside silence. -/
def Invokes (v : Vocabulary σ) (m : Machine σ) (t : Token) : Prop :=
  m.silenced = false ∧ ∃ s w, t = .word s ∧ s ≠ silenceWord ∧ v s = some w

/-- What is called works on the desk. -/
theorem step_word {s : String} {w : Word σ} (hsilent : m.silenced = false) (hs : s ≠ silenceWord)
    (hw : v s = some w) : m.step v (.word s) = ((w s m.desk).1, m.withDesk (w s m.desk).2) := by
  simp only [step, call]
  rw [hsilent, if_neg Bool.false_ne_true, if_neg hs, hw]

/-- A token that calls no word has nothing to do with the vocabulary. -/
theorem step_of_not_invokes (h : ¬m.Invokes v t) : m.step v t = m.step .empty t := by
  cases t with
  | word s =>
      simp only [step, call]
      split
      · rfl
      next hsilenced =>
      split
      · rfl
      next hword =>
      cases hw : v s with
      | none => rfl
      | some w => exact absurd ⟨by simpa using hsilenced, s, w, rfl, hword, hw⟩ h
  | quoted s => rfl
  | opening => rfl
  | closing => rfl

/-- A token that calls no word leaves the context alone, and fails only if scopes do not come out even. -/
theorem step_uncalled (h : ¬m.Invokes v t) :
    (m.step v t).2.context = m.context
      ∧ ((m.step v t).1 = .ok .proceed ∨ ∃ e, (m.step v t).1 = .error (.failed (.scoping e))) := by
  rw [step_of_not_invokes h]
  cases t with
  | word s =>
      simp only [step, call]
      split
      · exact ⟨rfl, .inl rfl⟩
      split
      · split
        · exact ⟨rfl, .inr ⟨_, rfl⟩⟩
        · exact ⟨rfl, .inl rfl⟩
      · exact ⟨rfl, .inl rfl⟩
  | quoted s =>
      refine ⟨?_, .inl rfl⟩
      simp only [step]
      split <;> rfl
  | opening => exact ⟨rfl, .inl rfl⟩
  | closing =>
      simp only [step, closeScope]
      split
      · exact ⟨rfl, .inr ⟨_, rfl⟩⟩
      · split
        · exact ⟨rfl, .inl rfl⟩
        · exact ⟨rfl, .inr ⟨_, rfl⟩⟩

/-- What no word comes to, no token comes to, but to go on or to find scopes uneven. -/
theorem step_ne {r : Except Failure Signal} (hproceed : r ≠ .ok .proceed)
    (hscoping : ∀ e, r ≠ .error (.failed (.scoping e))) (hv : ∀ s w, v s = some w → ∀ d, (w s d).1 ≠ r) :
    (m.step v t).1 ≠ r := by
  by_cases h : m.Invokes v t
  · obtain ⟨hsilent, s, w, rfl, hs, hw⟩ := h
    rw [step_word hsilent hs hw]
    exact hv s w hw m.desk
  · rcases (step_uncalled h).2 with hstep | ⟨e, hstep⟩
    · rw [hstep]
      exact hproceed.symm
    · rw [hstep]
      exact (hscoping e).symm

/-- A word makes no difference to tokens that do not call it. -/
theorem step_add_of_ne {s : String} (h : t ≠ .word s) (w : Word σ) :
    m.step (v.add s w) t = m.step v t := by
  cases t with
  | word s' =>
      simp only [step, call]
      rw [v.add_of_ne fun hs => h (congrArg Token.word hs)]
  | quoted s => rfl
  | opening => rfl
  | closing => rfl

end

end Machine

/-! ### Tokens that call core words -/

namespace Machine

/-- A token calls a core word: it is its name, unquoted and outside silence. -/
structure Calls (m : Machine Book) (t : Token) (s : String) (w : Word Book) : Prop where
  token : t = .word s
  silent : m.silenced = false
  word : Vocabulary.core s = some w

variable {m : Machine Book} {t : Token}

/-- What is called works on the desk. -/
theorem Calls.step_eq {s : String} {w : Word Book} (h : m.Calls t s w) :
    m.step .core t = ((w s m.desk).1, m.withDesk (w s m.desk).2) := by
  obtain ⟨rfl, hsilent, hw⟩ := h
  have hword : s ≠ silenceWord := by
    rintro rfl
    cases hw
  exact step_word hsilent hword hw

/-- A token that calls no core word leaves the context alone, and fails only if scopes do not come out
even. -/
theorem step_of_not_calls (h : ¬∃ s w, m.Calls t s w) :
    (m.step .core t).2.context = m.context
      ∧ ((m.step .core t).1 = .ok .proceed ∨ ∃ e, (m.step .core t).1 = .error (.failed (.scoping e))) :=
  step_uncalled fun ⟨hsilent, s, w, htoken, _, hw⟩ => h ⟨s, w, htoken, hsilent, hw⟩

end Machine

/-! ### How a reading ends -/

/-- A reading leaves what its run leaves. -/
theorem Reader.read_snd {σ : Type} (book : σ → Book) (v : Vocabulary σ) (r : Reader σ) :
    (r.read book v).2 = ⟨(r.machine.run v r.lexer).lexer, (r.machine.run v r.lexer).machine⟩ := by
  simp only [Reader.read]
  split
  · rfl
  · rfl
  · rfl
  · split <;> rfl

/-- How a run ends, and what its reading comes to, given the line and the date that are reached and what is amiss
at the end of the source. -/
inductive Concludes (line : Nat) (date : Date) (amiss : Option ScopeError) : Outcome → Outcome → Prop where
  | completed (h : amiss = none) : Concludes line date amiss .completed .completed
  | uneven {e : ScopeError} (h : amiss = some e) :
      Concludes line date amiss .completed (.failed ⟨line, .scoping e, some date⟩)
  | stopped : Concludes line date amiss .stopped .stopped
  | failed (report : Report) :
      Concludes line date amiss (.failed report) (.failed ⟨report.line, report.cause, some date⟩)
  | exceeded (excess : Excess) : Concludes line date amiss (.exceeded excess) (.exceeded excess)

/-- **A reading comes to what its run comes to**, but for the check at the end of the source. -/
theorem Reader.read_concludes {σ : Type} (book : σ → Book) (v : Vocabulary σ) (r : Reader σ) :
    Concludes (r.machine.run v r.lexer).lexer.line (book (r.machine.run v r.lexer).machine.context).date
      (r.machine.run v r.lexer).machine.finish (r.machine.run v r.lexer).outcome (r.read book v).1 := by
  simp only [read]
  generalize r.machine.run v r.lexer = run
  obtain ⟨outcome, l, m⟩ := run
  cases outcome with
  | completed =>
      dsimp only
      cases hfinish : m.finish with
      | none => exact .completed rfl
      | some e => exact .uneven rfl
  | stopped => exact .stopped
  | failed report => exact .failed report
  | exceeded excess => exact .exceeded excess

/-- A reading is stopped, or leaves the range of numbers, when its run does. -/
theorem Reader.read_eq_iff {σ : Type} {book : σ → Book} {v : Vocabulary σ} {r : Reader σ} {outcome : Outcome}
    (hcompleted : .completed ≠ outcome) (hfailed : ∀ report, .failed report ≠ outcome) :
    (r.read book v).1 = outcome ↔ (r.machine.run v r.lexer).outcome = outcome := by
  have hread := r.read_concludes book v
  generalize (r.machine.run v r.lexer).outcome = ends at hread ⊢
  generalize (r.read book v).1 = comes at hread ⊢
  cases hread with
  | completed => exact Iff.rfl
  | uneven => exact iff_of_false (hfailed _) hcompleted
  | stopped => exact Iff.rfl
  | failed => exact iff_of_false (hfailed _) (hfailed _)
  | exceeded => exact Iff.rfl

/-- How a reading fails at a machine: at the next token, or at the end, where the source breaks off or
scopes and operands do not come out even. -/
inductive Machine.Fails {σ : Type} (v : Vocabulary σ) (m : Machine σ) :
    List Token → Cause → Machine σ → Prop where
  | token {m' : Machine σ} {t : Token} {after : List Token} {cause : Cause}
      (h : m.step v t = (.error (.failed cause), m')) : Fails v m (t :: after) cause m'
  | brokenOff (e : LexError) : Fails v m [] (.lexical e) m
  | uneven {e : ScopeError} (h : m.finish = some e) : Fails v m [] (.scoping e) m

/-- A reading that fails does so at the first token that does not let it go on, or at the end. -/
theorem Book.ofSource_failed {source : String} {report : Report} {b : Book}
    (h : Book.ofSource source = (.failed report, b)) :
    ∃ before after m m', (Lexer.ofString source).tokens = before ++ after
      ∧ Machine.Proceeds .core (.start .empty) before m
      ∧ Machine.Fails .core m after report.cause m' ∧ b = m'.context := by
  have hends := Machine.run_ends .core (.ofString source) (.start Book.empty)
  have hread := Reader.read_concludes id .core (.start source Book.empty)
  rw [show ((Reader.start source Book.empty).read id .core).1 = .failed report from congrArg Prod.fst h] at hread
  obtain rfl : ((Reader.start source Book.empty).read id .core).2.machine.context = b := congrArg Prod.snd h
  rw [Reader.read_snd]
  simp only [Reader.start] at hread ⊢
  generalize Machine.run .core (.ofString source) (.start Book.empty) = run at hread hends
  obtain ⟨outcome, l, m'⟩ := run
  cases hread with
  | uneven hfinish =>
      cases hends with
      | completed r => exact ⟨_, [], m', m', (List.append_nil _).symm, r, .uneven hfinish, rfl⟩
  | failed =>
      cases hends with
      | brokenOff r => exact ⟨_, [], m', m', (List.append_nil _).symm, r, .brokenOff _, rfl⟩
      | failed hts r hs => exact ⟨_, _, _, m', hts, r, .token hs, rfl⟩

/-- A reading that completes has gone on after every token, and its machine comes out even. -/
theorem Book.ofSource_completed {source : String} {b : Book}
    (h : Book.ofSource source = (.completed, b)) :
    ∃ m, Machine.Proceeds .core (.start .empty) (Lexer.ofString source).tokens m
      ∧ m.finish = none ∧ b = m.context := by
  have hends := Machine.run_ends .core (.ofString source) (.start Book.empty)
  have hread := Reader.read_concludes id .core (.start source Book.empty)
  rw [show ((Reader.start source Book.empty).read id .core).1 = .completed from congrArg Prod.fst h] at hread
  obtain rfl : ((Reader.start source Book.empty).read id .core).2.machine.context = b := congrArg Prod.snd h
  rw [Reader.read_snd]
  simp only [Reader.start] at hread ⊢
  generalize Machine.run .core (.ofString source) (.start Book.empty) = run at hread hends
  obtain ⟨outcome, l, m⟩ := run
  cases hread with
  | completed hfinish =>
      cases hends with
      | completed r => exact ⟨m, r, hfinish, rfl⟩

/-- The machine after tokens, whatever comes of each, from the empty book on. -/
def Machine.after (ts : List Token) : Machine Book := (Machine.start .empty).feed .core ts

theorem Machine.after_append (ts ts' : List Token) :
    Machine.after (ts ++ ts') = (Machine.after ts).feed .core ts' := List.foldl_append

/-- What holds of the machine before the first token, and is kept by every token, holds after tokens. -/
theorem Machine.after_induction {I : Machine Book → Prop} (hstart : I (.start .empty))
    (hI : ∀ m t, I m → I (m.step .core t).2) (ts : List Token) : I (Machine.after ts) :=
  feed_induction hI ts hstart

namespace Book

/-- The book after tokens, whatever comes of each. -/
def after (ts : List Token) : Book := ((Machine.start Book.empty).feed .core ts).context

theorem after_eq (ts : List Token) : after ts = (Machine.after ts).context := rfl

/-- A book to which some of the first tokens of a source lead. -/
def Reached (source : String) (b : Book) : Prop :=
  ∃ ts, ts <+: (Lexer.ofString source).tokens ∧ b = after ts

/-- A reader after a number of readings, each of which goes on from where the one before ended. -/
def readings (r : Reader Book) : Nat → Reader Book
  | 0 => r
  | n + 1 => ((readings r n).read id .core).2

/-- Among them is the one after any number of readings, whatever comes of each. -/
theorem reached_readings (source : String) (n : Nat) :
    Reached source (readings (.start source .empty) n).machine.context := by
  -- the tokens taken so far and those that lie ahead make up the source
  have htaken : ∃ ts, (Lexer.ofString source).tokens
        = ts ++ (readings (.start source .empty) n).lexer.tokens
      ∧ (readings (.start source .empty) n).machine = (Machine.start .empty).feed .core ts := by
    induction n with
    | zero => exact ⟨[], rfl, rfl⟩
    | succ n ih =>
        obtain ⟨ts, hts, hm⟩ := ih
        simp only [readings]
        generalize readings (.start source .empty) n = r at hts hm ⊢
        obtain ⟨ts', hts', hm'⟩ := Machine.run_takes .core r.lexer r.machine
        rw [Reader.read_snd]
        refine ⟨ts ++ ts', by rw [hts, hts', List.append_assoc], ?_⟩
        rw [hm', hm]
        exact List.foldl_append.symm
  obtain ⟨ts, hts, hm⟩ := htaken
  exact ⟨ts, ⟨_, hts.symm⟩, congrArg Machine.context hm⟩

/-- Among them is the one at the end of a reading, however it ends. -/
theorem reached_ofSource (source : String) : Reached source (ofSource source).2 :=
  reached_readings source 1

end Book

end Daybook
