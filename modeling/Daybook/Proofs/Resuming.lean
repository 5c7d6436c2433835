import Daybook.Proofs.CutOff

/-!
# Resuming — a reading that is stopped and goes on

A word can be put in place of another that does what the other does and may then stop the run, on grounds of
its own.  Wherever such words stop a reading, it can be resumed, and then goes on from where it is: what is
left of the source, the operands of all scopes, the silence and the context are those of the reading that is
not stopped.

* `Word.Wraps`, `Vocabulary.Wraps`: words that do what others do, and may stop the run after it.
* `wraps_stoppingWhen`, `wraps_add`: words with a condition under which they stop the run are of this kind.
* `step_wraps`: a token comes to the same under them, but that it may stop the run.
* `run_wraps`: **a run under them is the run without them, or has stopped on its way**.
* `read_resumed`: **resumed until it no longer stops, a reading ends as the one without them**.
-/

namespace Daybook

variable {σ τ : Type}

/-! ### Words that may stop the run -/

/-- A desk whose context is seen in part. -/
def Desk.viewed (view : τ → σ) (d : Desk τ) : Desk σ := ⟨d.operands, view d.context⟩

/-- A machine whose context is seen in part. -/
def Machine.viewed (view : τ → σ) (m : Machine τ) : Machine σ :=
  ⟨m.visible, m.enclosing, m.silence, view m.context⟩

/-- A run whose context is seen in part. -/
def Run.viewed (view : τ → σ) (run : Run τ) : Run σ :=
  ⟨run.outcome, run.lexer, run.machine.viewed view⟩

/-- A reader whose context is seen in part. -/
def Reader.viewed (view : τ → σ) (r : Reader τ) : Reader σ := ⟨r.lexer, r.machine.viewed view⟩

/-- A result, and what it may be turned into: a run that would go on may be stopped. -/
inductive MayStop : Except Failure Signal → Except Failure Signal → Prop where
  | same (r : Except Failure Signal) : MayStop r r
  | stop : MayStop (.ok .proceed) (.ok .stop)

/-- A word does what another word does, and after that may stop the run.  What it keeps in the context for
itself, to decide when to stop, is not in view. -/
structure Word.Wraps (view : τ → σ) (w' : Word τ) (w : Word σ) : Prop where
  desk : ∀ name d, (w' name d).2.viewed view = (w name (d.viewed view)).2
  result : ∀ name d, MayStop (w name (d.viewed view)).1 (w' name d).1

/-- A vocabulary has the words of another one, each wrapped. -/
def Vocabulary.Wraps (view : τ → σ) (v' : Vocabulary τ) (v : Vocabulary σ) : Prop :=
  ∀ name, Option.Rel (Word.Wraps view) (v' name) (v name)

/-- No word of a vocabulary stops the run. -/
def Vocabulary.NeverStops (v : Vocabulary σ) : Prop :=
  ∀ s w, v s = some w → ∀ name d, (w name d).1 ≠ .ok .stop

/-- A word wraps itself. -/
theorem Word.wraps_self (w : Word σ) : w.Wraps id w := ⟨fun _ _ => rfl, fun _ _ => .same _⟩

/-- A word that stops the run under a condition wraps the word without it. -/
theorem Word.wraps_stoppingWhen (w : Word σ) (p : Desk σ → Bool) : (w.stoppingWhen p).Wraps id w where
  desk name d := by
    show ((w.stoppingWhen p) name d).2 = (w name d).2
    simp only [stoppingWhen]
    rcases w name d with ⟨_ | signal, d'⟩
    · rfl
    · rfl
  result name d := by
    show MayStop (w name d).1 ((w.stoppingWhen p) name d).1
    simp only [stoppingWhen]
    rcases w name d with ⟨failure | signal, d'⟩
    · exact .same _
    · dsimp only
      cases p d' with
      | false => exact .same _
      | true =>
          cases signal with
          | proceed => exact .stop
          | stop => exact .same _

/-- A vocabulary is wrapped by wrapping one of its words. -/
theorem Vocabulary.wraps_add {v : Vocabulary σ} {s : String} {w w' : Word σ} (hw : v s = some w)
    (h : w'.Wraps id w) : (v.add s w').Wraps id v := by
  intro name
  by_cases hname : name = s
  · subst hname
    rw [v.add_self, hw]
    exact .some h
  · rw [v.add_of_ne hname]
    cases v name with
    | none => exact .none
    | some w => exact .some w.wraps_self

/-- No core word stops the run. -/
theorem Vocabulary.core_neverStops : Vocabulary.core.NeverStops :=
  fun _ _ hw _ d => Words.core_ne_stop (core_mem hw) d

namespace Machine

variable {view : τ → σ} {v : Vocabulary σ} {v' : Vocabulary τ}

/-! ### One token -/

/-- **A token comes to the same under wrapping words**, but that it may stop the run. -/
theorem step_wraps (h : v'.Wraps view v) (m : Machine τ) (t : Token) :
    (m.step v' t).2.viewed view = ((m.viewed view).step v t).2
      ∧ MayStop ((m.viewed view).step v t).1 (m.step v' t).1 := by
  cases t with
  | word s =>
      simp only [step, call]
      show Machine.viewed view (Prod.snd (if m.silenced then _ else _)) = Prod.snd (if m.silenced then _ else _)
        ∧ MayStop (Prod.fst (if m.silenced then _ else _)) _
      split
      · exact ⟨rfl, .same _⟩
      split
      · show Machine.viewed view (Prod.snd (if m.enclosing.isEmpty then _ else _))
            = Prod.snd (if m.enclosing.isEmpty then _ else _)
          ∧ MayStop (Prod.fst (if m.enclosing.isEmpty then _ else _)) _
        split
        · exact ⟨rfl, .same _⟩
        · exact ⟨rfl, .same _⟩
      have hs := h s
      generalize v s = plain at hs ⊢
      generalize v' s = wrapped at hs ⊢
      cases hs with
      | none => exact ⟨rfl, .same _⟩
      | @some w' w hw =>
          have hdesk := hw.desk s m.desk
          refine ⟨?_, hw.result s m.desk⟩
          show (m.viewed view).withDesk ((w' s m.desk).2.viewed view) = _
          rw [hdesk]
          rfl
  | quoted s =>
      refine ⟨?_, .same _⟩
      show Machine.viewed view (if m.silenced then _ else _) = if m.silenced then _ else _
      split
      · rfl
      · rfl
  | opening => exact ⟨rfl, .same _⟩
  | closing =>
      obtain ⟨visible, enclosing, silence, context⟩ := m
      cases enclosing with
      | nil => exact ⟨rfl, .same _⟩
      | cons outer rest =>
          simp only [step]
          rw [closeScope_eq rfl, closeScope_eq rfl]
          exact ⟨rfl, .same _⟩

/-- Without a word that stops the run no token does. -/
theorem step_never_stops (hv : v.NeverStops) (m : Machine σ) (t : Token) :
    (m.step v t).1 ≠ .ok .stop := step_ne nofun nofun fun s w hw d => hv s w hw s d

/-! ### A run -/

/-- Without a word that stops the run it is not stopped. -/
theorem run_never_stopped (hv : v.NeverStops) (l : Lexer) (m : Machine σ) : (m.run v l).outcome ≠ .stopped := by
  intro h
  have hends := run_ends v l m
  rw [h] at hends
  cases hends with
  | stopped _ _ hs => exact step_never_stops hv _ _ (congrArg Prod.fst hs)

/-- **A run under wrapping words is the run without them, or has stopped on its way**: then the run without
them goes on, from the machine at the stop over the tokens that are left. -/
theorem run_wraps (hv : v.NeverStops) (h : v'.Wraps view v) (l : Lexer) (m : Machine τ) :
    (m.run v' l).viewed view = (m.viewed view).run v l
      ∨ ((m.run v' l).outcome = .stopped
        ∧ (m.run v' l).lexer.tokens.length < l.tokens.length
        ∧ ((m.run v' l).machine.viewed view).run v (m.run v' l).lexer = (m.viewed view).run v l) := by
  -- what a token comes to without the wrapping, given what it comes to with it
  have plain : ∀ {m m' : Machine τ} {t : Token} {r : Except Failure Signal}, m.step v' t = (r, m') →
      (m.viewed view).step v t = (((m.viewed view).step v t).1, m'.viewed view)
        ∧ MayStop ((m.viewed view).step v t).1 r := fun {m m' t r} hs => by
    obtain ⟨hmachine, hresult⟩ := step_wraps h m t
    rw [hs] at hmachine hresult
    exact ⟨Prod.ext rfl hmachine.symm, hresult⟩
  fun_induction run v' l m with
  | case1 l m e l' hn => exact .inl (run_of_error hn).symm
  | case2 l m l' hn => exact .inl (run_of_end hn).symm
  | case3 l m t l' hn m' hs ih =>
      obtain ⟨hplain, hmay⟩ := plain hs
      generalize ((m.viewed view).step v t).1 = r at hplain hmay
      cases hmay with
      | same =>
          rw [run_of_proceed hn hplain, Lexer.tokens_of_next hn]
          obtain hrun | ⟨hstopped, hlt, hrest⟩ := ih
          · exact .inl hrun
          · exact .inr ⟨hstopped, Nat.lt_succ_of_lt hlt, hrest⟩
  | case4 l m t l' hn m' hs =>
      obtain ⟨hplain, hmay⟩ := plain hs
      have hne := step_never_stops hv (m.viewed view) t
      generalize ((m.viewed view).step v t).1 = r at hplain hmay hne
      cases hmay with
      | same => exact absurd rfl hne
      | stop =>
          rw [run_of_proceed hn hplain, Lexer.tokens_of_next hn]
          exact .inr ⟨rfl, Nat.lt_succ_self _, rfl⟩
  | case5 l m t l' hn cause m' hs =>
      obtain ⟨hplain, hmay⟩ := plain hs
      generalize ((m.viewed view).step v t).1 = r at hplain hmay
      cases hmay with
      | same =>
          rw [run_of_next hn, hplain]
          exact .inl rfl
  | case6 l m t l' hn excess m' hs =>
      obtain ⟨hplain, hmay⟩ := plain hs
      generalize ((m.viewed view).step v t).1 = r at hplain hmay
      cases hmay with
      | same =>
          rw [run_of_next hn, hplain]
          exact .inl rfl

end Machine

/-! ### Readings one after the other -/

namespace Reader

variable {book : σ → Book} {view : τ → σ} {v : Vocabulary σ} {v' : Vocabulary τ}

/-- A reader after a number of readings, each of which goes on from where the one before ended. -/
def resumed (book : σ → Book) (v : Vocabulary σ) : Reader σ → Nat → Reader σ
  | r, 0 => r
  | r, n + 1 => resumed book v (r.read book v).2 n

/-- What one of several readings in a row comes to; the first one has number zero. -/
def reading (book : σ → Book) (v : Vocabulary σ) (r : Reader σ) (n : Nat) : Outcome × Reader σ :=
  (r.resumed book v n).read book v

/-- After the first reading the others follow. -/
theorem reading_succ (book : σ → Book) (v : Vocabulary σ) (r : Reader σ) (n : Nat) :
    r.reading book v (n + 1) = (r.read book v).2.reading book v n := rfl

/-- Without a word that stops the run a reading is not stopped. -/
theorem read_never_stopped (book : σ → Book) (hv : v.NeverStops) (r : Reader σ) :
    (r.read book v).1 ≠ .stopped := fun h =>
  Machine.run_never_stopped hv r.lexer r.machine ((read_eq_iff (by simp) (by simp)).1 h)

/-- Runs that are the same in view make readings that are, with the same check at the end. -/
theorem read_viewed (book : σ → Book) {r : Reader τ}
    (hrun : (r.machine.run v' r.lexer).viewed view = (r.machine.viewed view).run v r.lexer) :
    (r.viewed view).read book v
      = ((r.read (book ∘ view) v').1, (r.read (book ∘ view) v').2.viewed view) := by
  simp only [read, viewed]
  rw [← hrun]
  generalize Machine.run v' r.lexer r.machine = run
  obtain ⟨outcome, l, m⟩ := run
  have hfinish : (m.viewed view).finish = m.finish := rfl
  cases outcome with
  | completed =>
      simp only [Run.viewed]
      rw [hfinish]
      cases m.finish with
      | none => rfl
      | some e => rfl
  | stopped => rfl
  | failed report => rfl
  | exceeded excess => rfl

/-- **A reading under wrapping words is the reading without them, or has stopped on its way.** -/
theorem read_wraps (book : σ → Book) (hv : v.NeverStops) (h : v'.Wraps view v) (r : Reader τ) :
    (r.viewed view).read book v
        = ((r.read (book ∘ view) v').1, (r.read (book ∘ view) v').2.viewed view)
      ∨ ((r.read (book ∘ view) v').1 = .stopped
        ∧ (r.read (book ∘ view) v').2.lexer.tokens.length < r.lexer.tokens.length
        ∧ ((r.read (book ∘ view) v').2.viewed view).read book v = (r.viewed view).read book v) := by
  obtain hrun | ⟨hstopped, hlt, hrest⟩ := Machine.run_wraps hv h r.lexer r.machine
  · exact .inl (read_viewed book hrun)
  · rw [read_of_stopped hstopped]
    refine .inr ⟨rfl, hlt, ?_⟩
    simp only [read, viewed]
    rw [hrest]

/-- **Resumed until it no longer stops, a reading ends as the one that is never stopped.**  No word of the
vocabulary `v` stops a run; those of `v'` do what those of `v` do and may then stop it, on any grounds.  After
finitely many readings under `v'`, all of them stopped, there is one that is not.  It comes to what one reading
under `v` comes to: it completes, or fails with the same line, date and cause, and leaves the same context, the
same operands in the same scopes, and the same rest of the source. -/
theorem read_resumed (book : σ → Book) (hv : v.NeverStops) (h : v'.Wraps view v) (r : Reader τ) :
    ∃ n, (∀ k < n, (r.reading (book ∘ view) v' k).1 = .stopped)
      ∧ (r.reading (book ∘ view) v' n).1 ≠ .stopped
      ∧ (r.viewed view).read book v
        = ((r.reading (book ∘ view) v' n).1, (r.reading (book ∘ view) v' n).2.viewed view) := by
  -- by the number of tokens ahead, of which each stopped reading takes at least one
  induction hlength : r.lexer.tokens.length using Nat.strongRecOn generalizing r with
  | ind length ih =>
      obtain hread | ⟨hstopped, hlt, hrest⟩ := read_wraps book hv h r
      · refine ⟨0, fun k hk => absurd hk (Nat.not_lt_zero k), fun hstopped => ?_, hread⟩
        exact read_never_stopped book hv (r.viewed view) ((congrArg Prod.fst hread).trans hstopped)
      · obtain ⟨n, hstops, hends⟩ := ih _ (hlength ▸ hlt) (r.read (book ∘ view) v').2 rfl
        rw [hrest] at hends
        refine ⟨n + 1, fun k hk => ?_, ?_⟩
        · cases k with
          | zero => exact hstopped
          | succ k =>
              rw [reading_succ]
              exact hstops k (Nat.lt_of_succ_lt_succ hk)
        · rw [reading_succ]
          exact hends

/-- A source that comes to three dates after a cut-off, one of them in a scope, and leaves an operand. -/
def interrupted : String := "2024 1 5 date (2024 7 1 date)2024 7 2 date \"a\nb\" 2024 7 3 date"

/-- With a cut-off in June the reading stops at some of them, and then fails as the one without it. -/
theorem read_resumed_interrupted :
    Vocabulary.core.NeverStops ∧ (Vocabulary.endingAfter ⟨2024, 6, 30⟩).Wraps id Vocabulary.core
      ∧ ∃ n, 0 < n
        ∧ (∀ k < n, ((start interrupted Book.empty).reading id (.endingAfter ⟨2024, 6, 30⟩) k).1 = .stopped)
        ∧ ((start interrupted Book.empty).reading id (.endingAfter ⟨2024, 6, 30⟩) n).1
          = .failed ⟨2, .scoping (.leftover 1), some ⟨2024, 7, 3⟩⟩ := by
  have hcore := Vocabulary.core_neverStops
  have hwraps : (Vocabulary.endingAfter ⟨2024, 6, 30⟩).Wraps id Vocabulary.core :=
    Vocabulary.wraps_add rfl (Words.date.wraps_stoppingWhen _)
  obtain ⟨n, hstops, hends, hread⟩ := read_resumed id hcore hwraps (start interrupted Book.empty)
  have hfirst : ((start interrupted Book.empty).reading id (.endingAfter ⟨2024, 6, 30⟩) 0).1 = .stopped := by
    decide +kernel
  refine ⟨hcore, hwraps, n, Nat.pos_of_ne_zero ?_, hstops, (congrArg Prod.fst hread).symm.trans ?_⟩
  · rintro rfl
    exact hends hfirst
  · decide +kernel

end Reader

end Daybook
