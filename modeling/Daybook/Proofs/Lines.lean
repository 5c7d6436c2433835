import Daybook.Proofs.CharLexer
import Daybook.Proofs.Resuming

/-!
# Lines — where a failure is reported

The line of a lexer is the one on which the last token ended; at the end of a source, or where it broke off, it
is the last line.  A reading that fails at a token reports the line of the token, and one that fails at the end
reports the last line, both with the date of the clock at that moment; also if it has been resumed.

* `run_of_passed`: the tokens of a run by the calls that find them.
* `run_pulled`, `resumed_pulled`: a run, and any number of readings, leave the lexer after some number of calls.
* `Reports`: the ways in which a reading fails, with what it reports.
* `read_failed_iff`: **a reading fails in one of these ways**, and reports just that.
* `lines_exact`: **lines are counted to the last character of each token, and reported so**.
-/

namespace Daybook

open Text (lineFeeds)

/-! ### Calls and tokens -/

theorem found_pulled {S R : Type} (next : S → R × S) (s : S) (k n : Nat) :
    found next (pulled next s k) n = found next s (k + n) := by
  rw [found, found, pulled_add]

theorem foundAt_drop (ps : List Piece) (ending : Option LexError) (k n : Nat) :
    foundAt (ps.drop k) ending n = foundAt ps ending (k + n) := by
  rw [foundAt, foundAt, List.getElem?_drop]

/-- What is found at a call while there are tokens. -/
theorem foundAt_of_token {ps : List Piece} {n : Nat} {t : Token} (h : (ps.map Piece.token)[n]? = some t)
    (ending : Option LexError) : foundAt ps ending n = .ok (some t) := by
  rw [List.getElem?_map] at h
  obtain ⟨p, hp, rfl⟩ := Option.map_eq_some_iff.1 h
  rw [foundAt, hp]

theorem foundAt_of_le {ps : List Piece} {n : Nat} (h : ps.length ≤ n) (ending : Option LexError) :
    foundAt ps ending n = ended ending := by
  rw [foundAt, List.getElem?_eq_none h]

theorem takenUp_of_token {ps : List Piece} {n : Nat} {p : Piece} (h : ps[n]? = some p) (cs : List Char) :
    takenUp cs ps (n + 1) = Piece.texts (ps.take (n + 1)) :=
  if_pos (Nat.succ_le_of_lt (List.getElem?_eq_some_iff.1 h).1)

theorem takenUp_of_le {ps : List Piece} {n : Nat} (h : ps.length ≤ n) (cs : List Char) :
    takenUp cs ps (n + 1) = cs := if_neg (Nat.not_le_of_lt (Nat.lt_succ_of_le h))

namespace Lexer

variable {l : Lexer} {n : Nat}

/-- What is found at a call, and what is left after it. -/
theorem next_pulled {r : Except LexError (Option Token)} (h : found next l n = r) :
    (pulled next l n).next = (r, pulled next l (n + 1)) :=
  Prod.ext h (pulled_succ next l n).symm

end Lexer

namespace Machine

variable {σ : Type} {v : Vocabulary σ}

/-- Tokens each of which lets the machine go on are passed by a run. -/
theorem run_of_passed {m m₁ : Machine σ} {ts : List Token} (h : Proceeds v m ts m₁) {l : Lexer}
    (hl : ∀ i t, ts[i]? = some t → found Lexer.next l i = .ok (some t)) :
    run v l m = run v (pulled Lexer.next l ts.length) m₁ := by
  induction h generalizing l with
  | refl => rfl
  | @more m m₁ m' t ts hs _ ih =>
      have hnext : l.next = (.ok (some t), pulled Lexer.next l 1) := Lexer.next_pulled (hl 0 t rfl)
      rw [run_of_proceed hnext hs]
      exact ih fun i t' hi => (found_pulled Lexer.next l 1 i).trans (Nat.add_comm 1 i ▸ hl (i + 1) t' hi)

/-- A run leaves the lexer after some number of calls, one at least. -/
theorem run_pulled (v : Vocabulary σ) (l : Lexer) (m : Machine σ) :
    ∃ n, (run v l m).lexer = pulled Lexer.next l (n + 1) := by
  -- the call at which the run ends is the first one
  have last : ∀ {l l' : Lexer} {r : Except LexError (Option Token)}, l.next = (r, l') →
      ∃ n, l' = pulled Lexer.next l (n + 1) := fun {l l' r} h => ⟨0, (congrArg Prod.snd h).symm⟩
  fun_induction run v l m with
  | case1 l m e l' h => exact last h
  | case2 l m l' h => exact last h
  | case3 l m t l' h m' hs ih =>
      obtain ⟨n, hn⟩ := ih
      refine ⟨n + 1, hn.trans ?_⟩
      show _ = pulled Lexer.next l.next.2 (n + 1)
      rw [h]
  | case4 l m t l' h m' hs => exact last h
  | case5 l m t l' h cause m' hs => exact last h
  | case6 l m t l' h excess m' hs => exact last h

end Machine

namespace Reader

variable {σ : Type} {book : σ → Book} {v : Vocabulary σ}

/-- Readings in a row leave the lexer after some number of calls. -/
theorem resumed_pulled (book : σ → Book) (v : Vocabulary σ) (r : Reader σ) (n : Nat) :
    ∃ k, (r.resumed book v n).lexer = pulled Lexer.next r.lexer k := by
  induction n generalizing r with
  | zero => exact ⟨0, rfl⟩
  | succ n ih =>
      obtain ⟨j, hj⟩ := Machine.run_pulled v r.lexer r.machine
      obtain ⟨k, hk⟩ := ih (r.read book v).2
      refine ⟨j + 1 + k, ?_⟩
      rw [pulled_add, ← hj]
      rw [read_snd] at hk
      rw [resumed, read_snd]
      exact hk

/-- How a reading fails that goes on after a number of calls, `k`, with a machine, given the tokens of its source
with the characters that they take up: at a token, where the source breaks off, or by the check at its end.  A
token is reported with the line to which its last character belongs, and the end with the last line; both with
the date of the clock. -/
inductive Reports (source : List Char) (ps : List Piece) (ending : Option LexError) (book : σ → Book)
    (v : Vocabulary σ) (k : Nat) (m : Machine σ) : Report → Machine σ → Prop where
  | token {i : Nat} {p : Piece} {m₁ m' : Machine σ} {cause : Cause} (hp : ps[k + i]? = some p)
      (r : Machine.Proceeds v m (((ps.drop k).take i).map Piece.token) m₁)
      (h : m₁.step v p.token = (.error (.failed cause), m')) :
      Reports source ps ending book v k m
        ⟨1 + lineFeeds (Piece.texts (ps.take (k + i + 1))), cause, some (book m'.context).date⟩ m'
  | brokenOff {m' : Machine σ} {e : LexError} (hending : ending = some e)
      (r : Machine.Proceeds v m ((ps.drop k).map Piece.token) m') :
      Reports source ps ending book v k m
        ⟨1 + lineFeeds source, .lexical e, some (book m'.context).date⟩ m'
  | uneven {m' : Machine σ} {e : ScopeError} (hending : ending = none)
      (r : Machine.Proceeds v m ((ps.drop k).map Piece.token) m') (h : m'.finish = some e) :
      Reports source ps ending book v k m
        ⟨1 + lineFeeds source, .scoping e, some (book m'.context).date⟩ m'

section

variable {source : String} {ps : List Piece} {ending : Option LexError}

/-- The line after a call. -/
theorem line_pulled (hd : Decomposes source.toList ps ending) (n : Nat) :
    (pulled Lexer.next (.ofString source) n).line = 1 + lineFeeds (takenUp source.toList ps n) :=
  Lexer.follows.line_pulled hd (Lexer.stands_ofString source) n

theorem found_ofString (hd : Decomposes source.toList ps ending) (n : Nat) :
    found Lexer.next (.ofString source) n = foundAt ps ending n :=
  Lexer.follows.found_eq hd (Lexer.stands_ofString source) n

/-- After a number of calls a run passes tokens that let the machine go on. -/
theorem run_passes (hd : Decomposes source.toList ps ending) {k : Nat} {ts : List Token}
    (hts : ts <+: (ps.drop k).map Piece.token) {m m₁ : Machine σ} (r : Machine.Proceeds v m ts m₁) :
    Machine.run v (pulled Lexer.next (.ofString source) k) m
      = Machine.run v (pulled Lexer.next (.ofString source) (k + ts.length)) m₁ := by
  rw [pulled_add]
  refine Machine.run_of_passed r fun i t hi => ?_
  rw [found_pulled, found_ofString hd, ← foundAt_drop]
  obtain ⟨rest, hrest⟩ := hts
  refine foundAt_of_token ?_ ending
  rw [← hrest, List.getElem?_append_left (List.getElem?_eq_some_iff.1 hi).1]
  exact hi

/-- After all tokens the end is found, on the last line. -/
theorem next_end (hd : Decomposes source.toList ps ending) {n : Nat} (hn : ps.length ≤ n) :
    (pulled Lexer.next (.ofString source) n).next = (ended ending, pulled Lexer.next (.ofString source) (n + 1))
      ∧ (pulled Lexer.next (.ofString source) (n + 1)).line = 1 + lineFeeds source.toList := by
  refine ⟨Lexer.next_pulled ?_, ?_⟩
  · rw [found_ofString hd, foundAt_of_le hn]
  · rw [line_pulled hd, takenUp_of_le hn]

theorem le_length_drop (ps : List Piece) (k : Nat) :
    ps.length ≤ k + ((ps.drop k).map Piece.token).length := by
  rw [List.length_map, List.length_drop]
  omega

/-- A reading that fails in one of the ways reports so. -/
theorem read_of_reports (hd : Decomposes source.toList ps ending) {k : Nat} {m m' : Machine σ}
    {report : Report} (h : Reports source.toList ps ending book v k m report m') :
    ∃ l, (Reader.mk (pulled Lexer.next (.ofString source) k) m).read book v = (.failed report, ⟨l, m'⟩) := by
  cases h with
  | @token i p m₁ m' cause hp r h =>
      have hlength : (((ps.drop k).take i).map Piece.token).length = i := by
        have hlt := (List.getElem?_eq_some_iff.1 hp).1
        rw [List.length_map, List.length_take, List.length_drop]
        omega
      have hpassed : ((ps.drop k).take i).map Piece.token <+: (ps.drop k).map Piece.token :=
        List.IsPrefix.map Piece.token (List.take_prefix i (ps.drop k))
      have hfound : found Lexer.next (.ofString source) (k + i) = .ok (some p.token) := by
        rw [found_ofString hd, foundAt, hp]
      refine ⟨pulled Lexer.next (.ofString source) (k + i + 1), ?_⟩
      simp only [read]
      rw [run_passes hd hpassed r, hlength, Machine.run_of_next (Lexer.next_pulled hfound), h]
      dsimp only
      rw [line_pulled hd, takenUp_of_token hp]
      rfl
  | @brokenOff m' e hending r =>
      obtain ⟨hnext, hline⟩ := next_end hd (le_length_drop ps k)
      rw [hending] at hnext
      refine ⟨pulled Lexer.next (.ofString source) (k + ((ps.drop k).map Piece.token).length + 1), ?_⟩
      simp only [read]
      rw [run_passes hd (List.prefix_refl _) r, Machine.run_of_error hnext]
      dsimp only
      rw [hline]
      rfl
  | @uneven m' e hending r h =>
      obtain ⟨hnext, hline⟩ := next_end hd (le_length_drop ps k)
      rw [hending] at hnext
      refine ⟨pulled Lexer.next (.ofString source) (k + ((ps.drop k).map Piece.token).length + 1), ?_⟩
      simp only [read]
      rw [run_passes hd (List.prefix_refl _) r, Machine.run_of_end hnext]
      dsimp only
      rw [h, hline]
      rfl

/-- **A reading fails in one of these ways**, and reports just that. -/
theorem read_failed_iff (hd : Decomposes source.toList ps ending) {k : Nat} {m m' : Machine σ}
    {report : Report} :
    (∃ l, (Reader.mk (pulled Lexer.next (.ofString source) k) m).read book v = (.failed report, ⟨l, m'⟩))
      ↔ Reports source.toList ps ending book v k m report m' := by
  refine ⟨?_, read_of_reports hd⟩
  rintro ⟨l, hread⟩
  -- what is reported in one of the ways is the report
  have same : ∀ {report' : Report} {m₂ : Machine σ}, Reports source.toList ps ending book v k m report' m₂ →
      Reports source.toList ps ending book v k m report m' := fun h => by
    obtain ⟨l', hread'⟩ := read_of_reports hd h
    rw [hread] at hread'
    cases hread'
    exact h
  obtain ⟨m₂, r⟩ | ⟨before, t, after, m₁, hts, r, hstuck⟩ :=
    Machine.proceeds_or_stuck v m ((ps.drop k).map Piece.token)
  · cases hending : ending with
    | some e => exact hending ▸ same (.brokenOff hending r)
    | none =>
        cases hfinish : m₂.finish with
        | some e => exact hending ▸ same (.uneven hending r hfinish)
        | none =>
            -- the reading would complete
            have hnext := (next_end hd (le_length_drop ps k)).1
            rw [hending] at hnext
            simp only [read] at hread
            rw [run_passes hd (List.prefix_refl _) r, Machine.run_of_end hnext] at hread
            dsimp only at hread
            rw [hfinish] at hread
            cases hread
  · obtain ⟨qs, rest, hdrop, rfl, hrest⟩ := List.map_eq_append_iff.1 hts
    obtain ⟨p, rest, rfl, rfl, -⟩ := List.map_eq_cons_iff.1 hrest
    have hp : ps[k + qs.length]? = some p := by
      rw [← List.getElem?_drop, hdrop, List.getElem?_append_right (Nat.le_refl _), Nat.sub_self]
      rfl
    have hfound : found Lexer.next (.ofString source) (k + qs.length) = .ok (some p.token) := by
      rw [found_ofString hd, foundAt, hp]
    have hpassed : qs.map Piece.token <+: (ps.drop k).map Piece.token := by
      rw [hdrop]
      exact List.IsPrefix.map Piece.token (List.prefix_append qs _)
    have hrun := (run_passes hd hpassed r).trans
      (Machine.run_of_next (Lexer.next_pulled (List.length_map Piece.token ▸ hfound)))
    simp only [read] at hread
    rw [hrun] at hread
    rcases hs : m₁.step v p.token with ⟨(cause | excess) | (_ | _), m₂⟩
    · refine same (.token hp ?_ hs)
      rw [hdrop, List.take_left]
      exact r
    · rw [hs] at hread
      cases hread
    · exact absurd (congrArg Prod.fst hs) hstuck
    · rw [hs] at hread
      cases hread

end

end Reader

/-- **Lines are exact.**  After each call the line of a lexer is one more than the number of line feeds up to
the last character of the token found, and after the end of a source, or where it broke off, one more than the
number of all line feeds; for both lexers.  And so a reading reports them, the first one or one that goes on
after others, whatever the words are: it fails with a report just if a token fails, and then with the line of
that token, or if the source breaks off or comes out uneven, and then with the last line; in each case with the
date of the clock at that moment. -/
theorem lines_exact (source : String) :
    ∃ ps ending, Decomposes source.toList ps ending
      ∧ (∀ n, (pulled Lexer.next (.ofString source) n).line = 1 + lineFeeds (takenUp source.toList ps n)
        ∧ (pulled CharLexer.next (.ofString source) n).line = 1 + lineFeeds (takenUp source.toList ps n))
      ∧ ∀ {σ : Type} (book : σ → Book) (v : Vocabulary σ) (context : σ) (n : Nat),
        let r := (Reader.start source context).resumed book v n
        ∃ k, r.lexer = pulled Lexer.next (.ofString source) k
          ∧ ∀ report m', (∃ l, r.read book v = (.failed report, ⟨l, m'⟩))
            ↔ Reader.Reports source.toList ps ending book v k r.machine report m' := by
  obtain ⟨ps, ending, hd⟩ := exists_decomposes source.toList
  refine ⟨ps, ending, hd, fun n => ⟨Reader.line_pulled hd n, ?_⟩, fun book v context n => ?_⟩
  · exact CharLexer.follows.line_pulled hd (CharLexer.stands_ofString source) n
  · obtain ⟨k, hk⟩ := Reader.resumed_pulled book v (Reader.start source context) n
    refine ⟨k, hk, fun report m' => ?_⟩
    have hr : Reader.mk (pulled Lexer.next (.ofString source) k)
        ((Reader.start source context).resumed book v n).machine
          = (Reader.start source context).resumed book v n :=
      congrArg (Reader.mk · _) hk.symm
    rw [← Reader.read_failed_iff hd, hr]

/-- The line feed that ends a word belongs to no token, those in the quotes and after the backslash do. -/
example : (List.range 6).map (fun n => (pulled CharLexer.next (.ofString "a\n\"b\nc\"\\\nd(\n") n).line)
    = [1, 1, 3, 4, 4, 5] := by
  decide +kernel

end Daybook
