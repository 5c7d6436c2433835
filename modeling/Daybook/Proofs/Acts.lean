import Daybook.Words.Core

/-!
# Acts — what they leave behind

An act *reads* if it leaves the book as it is, is *sure* if it never breaks off, and is *whole* if it has
changed nothing when it breaks off.  An act that first judges and then makes one change, or several that
cannot fail, is whole: this is the shape of every core word but the one that applies transactions.

* `on_bind_ok_iff`, `on_bind_error_iff`: how an act of two steps comes to a result, and how it breaks off.
* `Reads.bind_whole`, `Whole.bind_sure`: what two steps make of the whole.
* `Operands.topTexts`, `Taking.AllTexts`: the texts on top, from which words with any number of operands
  take theirs.
* `ofAct_ok`, `ofAct_error`: what a word does to its desk when it goes through, and when it fails.
* `core_whole`: **a core word other than `xact` that fails has not touched the book**.
* `core_ne_stop`, `core_refuses`: no core word stops a run, and what one reports is a refusal in its name.
-/

namespace Daybook

namespace Act

variable {α β : Type}

/-! ### Two steps -/

/-- An act of two steps comes to a result when both do. -/
theorem on_bind_ok_iff {act : Act α} {next : α → Act β} {b b' : Book} {r : β} :
    (act >>= next).on b = (.ok r, b')
      ↔ ∃ a b₁, act.on b = (.ok a, b₁) ∧ (next a).on b₁ = (.ok r, b') := by
  rw [on_bind]
  obtain ⟨r₁, b₁⟩ := act.on b
  cases r₁ with
  | error fault =>
      refine ⟨nofun, ?_⟩
      rintro ⟨a, b₂, h, -⟩
      cases h
  | ok a =>
      refine ⟨fun h => ⟨a, b₁, rfl, h⟩, ?_⟩
      rintro ⟨a', b₂, h, h'⟩
      cases h
      exact h'

/-- An act of two steps breaks off in the first or in the second. -/
theorem on_bind_error_iff {act : Act α} {next : α → Act β} {b b' : Book} {fault : Fault} :
    (act >>= next).on b = (.error fault, b')
      ↔ act.on b = (.error fault, b')
        ∨ ∃ a b₁, act.on b = (.ok a, b₁) ∧ (next a).on b₁ = (.error fault, b') := by
  rw [on_bind]
  obtain ⟨r₁, b₁⟩ := act.on b
  cases r₁ with
  | error fault' =>
      refine ⟨fun h => .inl (by cases h; rfl), ?_⟩
      rintro (h | ⟨a, b₂, h, -⟩)
      · cases h; rfl
      · cases h
  | ok a =>
      refine ⟨fun h => .inr ⟨a, b₁, rfl, h⟩, ?_⟩
      rintro (h | ⟨a', b₂, h, h'⟩)
      · cases h
      · cases h
        exact h'

theorem on_pure_ok_iff {a r : α} {b b' : Book} :
    (pure a : Act α).on b = (.ok r, b') ↔ r = a ∧ b' = b := by
  rw [on_pure, Prod.mk.injEq, Except.ok.injEq, eq_comm, @eq_comm _ b]

theorem on_judge_ok_iff {f : Book → Except Fault α} {b b' : Book} {r : α} :
    (judge f).on b = (.ok r, b') ↔ f b = .ok r ∧ b' = b := by
  rw [on_judge, Prod.mk.injEq, @eq_comm _ b]

/-- An act that begins with a judgement comes to a result when this is passed. -/
theorem on_judge_bind_ok_iff {f : Book → Except Fault α} {next : α → Act β} {b b' : Book} {r : β} :
    (judge f >>= next).on b = (.ok r, b') ↔ ∃ a, f b = .ok a ∧ (next a).on b = (.ok r, b') := by
  rw [on_bind_ok_iff]
  refine exists_congr fun a => ⟨?_, fun h => ⟨b, on_judge_ok_iff.2 ⟨h.1, rfl⟩, h.2⟩⟩
  rintro ⟨b₁, h₁, h⟩
  obtain ⟨ha, rfl⟩ := on_judge_ok_iff.1 h₁
  exact ⟨ha, h⟩

theorem on_change_bind_ok_iff {f : Book → Except Fault Book} {next : Unit → Act β} {b b' : Book}
    {r : β} :
    (change f >>= next).on b = (.ok r, b') ↔ ∃ b₁, f b = .ok b₁ ∧ (next ()).on b₁ = (.ok r, b') := by
  rw [on_bind, on_change]
  cases f b with
  | error fault => exact ⟨fun h => (by cases h), fun ⟨_, h, _⟩ => (by cases h)⟩
  | ok b₁ => exact ⟨fun h => ⟨b₁, rfl, h⟩, fun ⟨_, e, h⟩ => by cases e; exact h⟩

theorem on_enter_bind_ok_iff {f : Book → Book} {next : Unit → Act β} {b b' : Book} {r : β} :
    (enter f >>= next).on b = (.ok r, b') ↔ (next ()).on (f b) = (.ok r, b') := by
  rw [on_bind, on_enter]

theorem on_forM_enter (l : List α) (f : α → Book → Book) (b : Book) :
    (l.forM fun a => enter (f a)).on b = (.ok (), l.foldl (fun b a => f a b) b) := by
  induction l generalizing b with
  | nil => rfl
  | cons a l ih =>
      show (enter (f a) >>= fun _ => l.forM fun a => enter (f a)).on b = _
      rw [on_bind, on_enter]
      exact ih (f a b)

/-- Changes that cannot fail are made one after the other. -/
theorem on_forM_enter_bind_ok_iff {l : List α} {f : α → Book → Book} {next : Unit → Act β}
    {b b' : Book} {r : β} :
    ((l.forM fun a => enter (f a)) >>= next).on b = (.ok r, b')
      ↔ (next ()).on (l.foldl (fun b a => f a b) b) = (.ok r, b') := by
  rw [on_bind, on_forM_enter]

/-- Judgements one after the other are passed when each of them is. -/
theorem on_forM_judge_bind_ok_iff {l : List α} {f : α → Book → Except Fault Unit}
    {next : Unit → Act β} {b b' : Book} {r : β} :
    ((l.forM fun a => judge (f a)) >>= next).on b = (.ok r, b')
      ↔ (∀ a ∈ l, f a b = .ok ()) ∧ (next ()).on b = (.ok r, b') := by
  induction l with
  | nil => exact ⟨fun h => ⟨fun _ ha => absurd ha List.not_mem_nil, h⟩, fun h => h.2⟩
  | cons a l ih =>
      rw [List.forall_mem_cons, and_assoc, ← ih]
      show ((judge (f a) >>= fun _ => l.forM fun a => judge (f a)) >>= next).on b = _ ↔ _
      rw [bind_assoc, on_judge_bind_ok_iff]
      exact ⟨fun ⟨_, ha, h⟩ => ⟨ha, h⟩, fun h => ⟨(), h⟩⟩

/-- What holds of an act that does nothing, and of two steps when it holds of both, holds of a row. -/
theorem forM_induction {P : Act Unit → Prop} (hpure : P (pure ()))
    (hbind : ∀ {act : Act Unit} {next : Unit → Act Unit}, P act → (∀ u, P (next u)) → P (act >>= next))
    {l : List α} {f : α → Act Unit} (h : ∀ a, P (f a)) : P (l.forM f) := by
  induction l with
  | nil => exact hpure
  | cons a l ih => exact hbind (h a) fun _ => ih

/-! ### Acts that read, are sure, or are whole -/

/-- An act that leaves the book as it is, whatever comes of it. -/
def Reads (act : Act α) : Prop := ∀ b r b', act.on b = (r, b') → b' = b

/-- An act that never breaks off. -/
def Sure (act : Act α) : Prop := ∀ b fault b', act.on b ≠ (.error fault, b')

/-- An act that has changed nothing when it breaks off. -/
def Whole (act : Act α) : Prop := ∀ b fault b', act.on b = (.error fault, b') → b' = b

variable {act : Act α} {next : α → Act β}

theorem Reads.whole (h : Reads act) : Whole act := fun b _ b' e => h b _ b' e

theorem Sure.whole (h : Sure act) : Whole act := fun b fault b' e => absurd e (h b fault b')

theorem reads_pure (a : α) : Reads (pure a) := fun b _ _ e => by cases e; rfl

theorem reads_judge (f : Book → Except Fault α) : Reads (judge f) := fun b _ _ e => by cases e; rfl

theorem sure_pure (a : α) : Sure (pure a) := fun b _ _ e => by rw [on_pure] at e; cases e

theorem sure_enter (f : Book → Book) : Sure (enter f) := fun b _ _ e => by rw [on_enter] at e; cases e

theorem whole_change (f : Book → Except Fault Book) : Whole (change f) := by
  intro b fault b' e
  rw [on_change] at e
  cases hf : f b with
  | ok b₁ => rw [hf] at e; cases e
  | error fault' => rw [hf] at e; cases e; rfl

theorem Sure.bind (h : Sure act) (hn : ∀ a, Sure (next a)) : Sure (act >>= next) := by
  intro b fault b' e
  rcases on_bind_error_iff.1 e with e₁ | ⟨a, b₁, -, e₂⟩
  · exact h b fault b' e₁
  · exact hn a b₁ fault b' e₂

/-- After a judgement nothing has been changed yet. -/
theorem Reads.bind_whole (h : Reads act) (hn : ∀ a, Whole (next a)) : Whole (act >>= next) := by
  intro b fault b' e
  rcases on_bind_error_iff.1 e with e₁ | ⟨a, b₁, e₁, e₂⟩
  · exact h b _ b' e₁
  · obtain rfl := h b _ b₁ e₁
    exact hn a b₁ fault b' e₂

/-- Once only steps follow that cannot fail, the act goes through. -/
theorem Whole.bind_sure (h : Whole act) (hn : ∀ a, Sure (next a)) : Whole (act >>= next) := by
  intro b fault b' e
  rcases on_bind_error_iff.1 e with e₁ | ⟨a, b₁, -, e₂⟩
  · exact h b fault b' e₁
  · exact absurd e₂ (hn a b₁ fault b')

theorem Reads.bind (h : Reads act) (hn : ∀ a, Reads (next a)) : Reads (act >>= next) := by
  intro b r b' e
  cases r with
  | error fault => exact h.bind_whole (fun a => (hn a).whole) b fault b' e
  | ok r =>
      obtain ⟨a, b₁, e₁, e₂⟩ := on_bind_ok_iff.1 e
      obtain rfl := h b _ b₁ e₁
      exact hn a b₁ _ b' e₂

/-- A change that cannot fail, after which a result is given. -/
theorem sure_enter_pure (f : Book → Book) (r : β) : Sure (enter f >>= fun _ => pure r) :=
  (sure_enter f).bind fun _ => sure_pure r

theorem sure_forM {l : List α} {f : α → Act Unit} (h : ∀ a, Sure (f a)) : Sure (l.forM f) :=
  forM_induction (sure_pure ()) Sure.bind h

/-- Changes that cannot fail, after which a result is given. -/
theorem sure_forM_enter_pure (l : List α) (f : α → Book → Book) (r : β) :
    Sure ((l.forM fun a => enter (f a)) >>= fun _ => pure r) :=
  (sure_forM fun a => sure_enter (f a)).bind fun _ => sure_pure r

theorem reads_forM {l : List α} {f : α → Act Unit} (h : ∀ a, Reads (f a)) : Reads (l.forM f) :=
  forM_induction (reads_pure ()) Reads.bind h

/-- An act that judges twice. -/
theorem reads_judges {γ : Type} (first : Book → Except Fault α) (second : α → Book → Except Fault β)
    (r : γ) : Reads (do let x ← judge first; let _ ← judge (second x); return r) :=
  (reads_judge _).bind fun _ => (reads_judge _).bind fun _ => reads_pure _

/-- An act that judges twice before it does what cannot fail. -/
theorem whole_judges {γ : Type} {first : Book → Except Fault α} {second : α → Book → Except Fault β}
    {last : α → β → Act γ} (h : ∀ x y, Sure (last x y)) :
    Whole (judge first >>= fun x => judge (second x) >>= last x) :=
  (reads_judge _).bind_whole fun x => (reads_judge _).bind_whole fun y => (h x y).whole

/-- An act that judges and then makes changes that cannot fail. -/
theorem whole_changesEach {γ δ : Type} (find : Book → Except Fault γ) (items : List δ)
    (change : γ → δ → Book → Book) (r : α) :
    Whole (do let x ← judge find; items.forM fun a => enter (change x a); return r) :=
  (reads_judge _).bind_whole fun _ => (sure_forM_enter_pure _ _ _).whole

/-- An act that comes to one result only. -/
def Yields (act : Act α) (r : α) : Prop := ∀ b r' b', act.on b = (.ok r', b') → r' = r

theorem yields_pure (r : α) : Yields (pure r) r := fun _ _ _ e => (on_pure_ok_iff.1 e).1

theorem Yields.after {r : β} (hn : ∀ a, Yields (next a) r) (act : Act α) : Yields (act >>= next) r := by
  intro b r' b' e
  obtain ⟨a, b₁, -, e₂⟩ := on_bind_ok_iff.1 e
  exact hn a b₁ r' b' e₂

theorem yields_bind_pure (act : Act α) (r : β) : Yields (act >>= fun _ => pure r) r :=
  .after (fun _ => yields_pure r) act

end Act

/-! ### Taking operands -/

namespace Operands

/-- The texts on top, in the order in which they were pushed. -/
def topTexts (ops : Operands) : List String := (splitTexts ops).1.reverse

/-- The operands under the texts on top. -/
def underTexts (ops : Operands) : Operands := (splitTexts ops).2

theorem underTexts_suffix (ops : Operands) : ops.underTexts <:+ ops :=
  ⟨_, (splitTexts_eq ops).symm⟩

end Operands

namespace Taking

/-- A way of taking operands that takes them off the top. -/
def OffTop {α : Type} (take : Taking α) : Prop :=
  ∀ ops a rest, take ops = .ok (a, rest) → rest <:+ ops

/-- A way of taking operands that takes all texts on top, of which the first is a name. -/
def AllTexts (take : Taking (String × List String)) : Prop :=
  ∀ ops name texts rest, take ops = .ok ((name, texts), rest) →
    ops.topTexts = name :: texts ∧ rest = ops.underTexts

theorem AllTexts.offTop {take : Taking (String × List String)} (h : AllTexts take) : OffTop take :=
  fun ops _ _ htake => (h _ _ _ _ htake).2 ▸ ops.underTexts_suffix

variable {required : String} {ops rest : Operands}

theorem one_ok_iff {v : Value} : one required ops = .ok (v, rest) ↔ ops = v :: rest := by
  match ops with
  | [] => exact ⟨nofun, nofun⟩
  | _ :: _ => exact ⟨fun h => by cases h; rfl, fun h => by cases h; rfl⟩

theorem two_ok_iff {v w : Value} :
    two required ops = .ok ((v, w), rest) ↔ ops = w :: v :: rest := by
  match ops with
  | [] => exact ⟨nofun, nofun⟩
  | [_] => exact ⟨nofun, nofun⟩
  | _ :: _ :: _ => exact ⟨fun h => by cases h; rfl, fun h => by cases h; rfl⟩

theorem three_ok_iff {u v w : Value} :
    three required ops = .ok ((u, v, w), rest) ↔ ops = w :: v :: u :: rest := by
  match ops with
  | [] => exact ⟨nofun, nofun⟩
  | [_] => exact ⟨nofun, nofun⟩
  | [_, _] => exact ⟨nofun, nofun⟩
  | _ :: _ :: _ :: _ => exact ⟨fun h => by cases h; rfl, fun h => by cases h; rfl⟩

theorem four_ok_iff {t u v w : Value} :
    four required ops = .ok ((t, u, v, w), rest) ↔ ops = w :: v :: u :: t :: rest := by
  match ops with
  | [] => exact ⟨nofun, nofun⟩
  | [_] => exact ⟨nofun, nofun⟩
  | [_, _] => exact ⟨nofun, nofun⟩
  | [_, _, _] => exact ⟨nofun, nofun⟩
  | _ :: _ :: _ :: _ :: _ => exact ⟨fun h => by cases h; rfl, fun h => by cases h; rfl⟩

theorem offTop_one (required : String) : OffTop (one required) := fun _ _ _ h => by
  rw [one_ok_iff.1 h]
  exact List.suffix_cons _ _

theorem offTop_two (required : String) : OffTop (two required) := fun _ (v, w) _ h => by
  rw [two_ok_iff.1 h]
  exact List.suffix_append [w, v] _

theorem offTop_three (required : String) : OffTop (three required) := fun _ (u, v, w) _ h => by
  rw [three_ok_iff.1 h]
  exact List.suffix_append [w, v, u] _

theorem offTop_four (required : String) : OffTop (four required) := fun _ (t, u, v, w) _ h => by
  rw [four_ok_iff.1 h]
  exact List.suffix_append [w, v, u, t] _

theorem allTexts_nameAndTexts (missing : OperandFault) : AllTexts (nameAndTexts missing) := by
  intro ops name texts rest h
  simp only [nameAndTexts] at h
  split at h
  · cases h
  · next htexts => cases h; exact ⟨htexts, rfl⟩

end Taking

namespace Words

theorem allTexts_takeTags (entity : String) : (takeTags entity).AllTexts := by
  intro ops name texts rest h
  simp only [takeTags] at h
  split at h
  · cases h
  · exact Taking.allTexts_nameAndTexts _ _ _ _ _ h

theorem allTexts_takeNotes : takeNotes.AllTexts := by
  intro ops name texts rest h
  simp only [takeNotes] at h
  split at h
  · next htake =>
      split at h
      · cases h
      · cases h
        exact Taking.allTexts_nameAndTexts _ _ _ _ _ htake
  · exact Taking.allTexts_nameAndTexts _ _ _ _ _ h

variable {ops rest : Operands}

theorem takeOnly_ok {v : Value} (h : takeOnly ops = .ok (v, rest)) : ops = v :: rest := by
  simp only [takeOnly] at h
  split at h
  · cases h
  · cases h; rfl
  · cases h

theorem takeExchange_ok {o : ExchangeOperands} (h : takeExchange ops = .ok (o, rest)) :
    ops = .text o.totalCommodity :: .text o.totalAmount :: .text o.unitCommodity :: .text o.unitAmount
      :: .text o.commodity :: .text o.quantity :: .text o.account :: rest := by
  simp only [takeExchange] at h
  split at h
  · cases h; rfl
  · cases h

theorem offTop_takeOnly : takeOnly.OffTop := fun _ _ _ h => by
  rw [takeOnly_ok h]
  exact List.suffix_cons _ _

theorem offTop_takeExchange : takeExchange.OffTop := fun _ _ rest h => by
  rw [takeExchange_ok h]
  exact List.suffix_append [_, _, _, _, _, _, _] rest

/-- A transaction takes the texts on top, the transfers under them, and two operands more. -/
theorem takeTransaction_ok {o : TransactionOperands}
    (h : takeTransaction ops = .ok (o, rest)) :
    ops = o.notes.reverse.map .text
      ++ (o.transfers.reverse.map .transfer ++ o.description :: o.entity :: rest) := by
  -- the texts are split off the operands, then the transfers off what is under them
  have htexts := Operands.splitTexts_eq ops
  have htransfers := Operands.splitTransfers_eq (Operands.splitTexts ops).2
  simp only [takeTransaction] at h
  split at h
  · cases h
  · cases h
  · next hunder =>
      split at h
      · cases h
      split at h
      · cases h
      · cases h
        rw [hunder] at htransfers
        rw [htransfers] at htexts
        simpa using htexts

theorem offTop_takeTransaction : takeTransaction.OffTop := by
  intro ops o rest h
  rw [takeTransaction_ok h, ← List.append_assoc]
  exact (List.suffix_append [o.description, o.entity] rest).trans (List.suffix_append _ _)

end Words

/-! ### Words -/

namespace Word

variable {α : Type} {take : Taking α} {act : α → Act (List Value)} {name : String}
  {d d' : Desk Book}

/-- A word that goes through has taken its operands and acted on the book, and has pushed what came of
it. -/
theorem ofAct_ok {signal : Signal} (h : ofAct take act name d = (.ok signal, d')) :
    signal = .proceed ∧ ∃ taken rest pushed b, take d.operands = .ok (taken, rest)
      ∧ (act taken).on d.context = (.ok pushed, b) ∧ d' = ⟨rest.push pushed, b⟩ := by
  simp only [ofAct, perform] at h
  cases htake : take d.operands with
  | error fault => rw [htake] at h; cases h
  | ok p =>
      obtain ⟨taken, rest⟩ := p
      rw [htake] at h
      dsimp only at h
      cases hact : (act taken).on d.context with
      | mk r b =>
          rw [hact] at h
          cases r with
          | error fault => cases h
          | ok pushed => cases h; exact ⟨rfl, taken, rest, pushed, b, rfl, hact, rfl⟩

/-- A word that goes through and judges its operands first has judged the book as it was. -/
theorem ofAct_judge_ok {β : Type} {first : α → Book → Except Fault β} {next : α → β → Act (List Value)}
    {signal : Signal}
    (h : ofAct take (fun taken => Act.judge (first taken) >>= next taken) name d = (.ok signal, d')) :
    ∃ taken rest x pushed b, take d.operands = .ok (taken, rest) ∧ first taken d.context = .ok x
      ∧ (next taken x).on d.context = (.ok pushed, b) ∧ d' = ⟨rest.push pushed, b⟩ := by
  obtain ⟨-, taken, rest, pushed, b, htake, hact, rfl⟩ := ofAct_ok h
  obtain ⟨x, hx, hact⟩ := Act.on_judge_bind_ok_iff.1 hact
  exact ⟨taken, rest, x, pushed, b, htake, hx, hact, rfl⟩

/-- A word that fails has not found its operands and left its desk alone, or has taken them and
broken off. -/
theorem ofAct_error {failure : Failure} (h : ofAct take act name d = (.error failure, d')) :
    (d' = d ∧ ∃ fault, failure = .failed (.refused ⟨some name, .operands fault⟩))
      ∨ ∃ taken fault, take d.operands = .ok (taken, d'.operands)
        ∧ (act taken).on d.context = (.error fault, d'.context)
        ∧ failure = fault.toFailure (some name) := by
  simp only [ofAct, perform] at h
  cases htake : take d.operands with
  | error fault => rw [htake] at h; cases h; exact .inl ⟨rfl, fault, rfl⟩
  | ok p =>
      obtain ⟨taken, rest⟩ := p
      rw [htake] at h
      dsimp only at h
      cases hact : (act taken).on d.context with
      | mk r b =>
          rw [hact] at h
          cases r with
          | error fault => cases h; exact .inr ⟨taken, fault, rfl, hact, rfl⟩
          | ok pushed => cases h

/-- What a word reports is a refusal in the name under which it was called. -/
theorem ofAct_refuses {cause : Cause} (h : (ofAct take act name d).1 = .error (.failed cause)) :
    ∃ ground, cause = .refused ⟨some name, ground⟩ := by
  rcases ofAct_error (Prod.ext h rfl) with ⟨-, fault, hfailure⟩ | ⟨_, fault, -, -, hfailure⟩
  · cases hfailure
    exact ⟨_, rfl⟩
  · cases fault with
    | refused ground =>
        cases hfailure
        exact ⟨ground, rfl⟩
    | exceeded excess => cases hfailure

/-- A word that has not touched the book when it fails, and has left no operands but those it did not
take. -/
def Whole (w : Word Book) : Prop :=
  ∀ name d failure d', w name d = (.error failure, d') →
    d'.context = d.context ∧ d'.operands <:+ d.operands

theorem whole_ofAct (htake : take.OffTop) (hact : ∀ taken, (act taken).Whole) :
    Whole (ofAct take act) := fun name d failure d' h => by
  rcases ofAct_error h with ⟨rfl, -⟩ | ⟨taken, fault, hd, hb, -⟩
  · exact ⟨rfl, List.suffix_refl _⟩
  · exact ⟨hact taken d.context fault d'.context hb, htake _ _ _ hd⟩

end Word

/-! ### The core words -/

namespace Words

open Act

theorem whole_commodity : Word.Whole commodity :=
  Word.whole_ofAct (Taking.offTop_two _) fun _ =>
    (reads_judge _).bind_whole fun _ => (reads_judge _).bind_whole fun _ =>
      (whole_change _).bind_sure fun _ => sure_pure _

theorem whole_openAccount : Word.Whole openAccount :=
  Word.whole_ofAct (Taking.allTexts_nameAndTexts _).offTop fun _ =>
    (reads_judge _).bind_whole fun _ => (reads_judge _).bind_whole fun _ =>
      (reads_forM fun _ => reads_judge _).bind_whole fun _ =>
        (whole_change _).bind_sure fun _ => sure_pure _

theorem whole_close : Word.Whole close :=
  Word.whole_ofAct (Taking.offTop_one _) fun _ =>
    (reads_judge _).bind_whole fun _ => (reads_judge _).bind_whole fun _ =>
      (reads_judge _).bind_whole fun _ =>
        (sure_enter_pure _ _).whole

theorem whole_closeLot : Word.Whole closeLot :=
  Word.whole_ofAct (Taking.offTop_two _) fun _ =>
    (reads_judge _).bind_whole fun _ => (reads_judge _).bind_whole fun _ =>
      (reads_judge _).bind_whole fun _ => (reads_judge _).bind_whole fun _ =>
        (sure_enter_pure _ _).whole

theorem whole_date : Word.Whole date :=
  Word.whole_ofAct (Taking.offTop_three _) fun _ =>
    (reads_judge _).bind_whole fun _ => (whole_change _).bind_sure fun _ => sure_pure _

theorem whole_tag : Word.Whole tag :=
  Word.whole_ofAct (allTexts_takeTags _).offTop fun _ => whole_changesEach _ _ _ _

theorem whole_tagCommodity : Word.Whole tagCommodity :=
  Word.whole_ofAct (allTexts_takeTags _).offTop fun _ => whole_changesEach _ _ _ _

theorem whole_untag : Word.Whole untag :=
  Word.whole_ofAct (allTexts_takeTags _).offTop fun _ => whole_changesEach _ _ _ _

theorem whole_addNotes : Word.Whole addNotes :=
  Word.whole_ofAct allTexts_takeNotes.offTop fun _ => whole_changesEach _ _ _ _

theorem whole_comment : Word.Whole comment :=
  Word.whole_ofAct offTop_takeOnly fun _ => ((reads_judge _).bind fun _ => reads_pure _).whole

theorem whole_keepDraft (t : Transfer) : (keepDraft t).Whole :=
  (reads_judge _).bind_whole fun _ => (sure_enter_pure _ _).whole

theorem whole_transfer : Word.Whole transfer :=
  Word.whole_ofAct (Taking.offTop_three _) fun _ =>
    (reads_judge _).bind_whole fun t => whole_keepDraft t

theorem whole_exchange : Word.Whole exchange :=
  Word.whole_ofAct offTop_takeExchange fun _ =>
    (reads_judge _).bind_whole fun t => whole_keepDraft t

theorem whole_lot : Word.Whole lot :=
  Word.whole_ofAct (Taking.offTop_two _) fun _ => whole_judges fun _ _ => sure_enter_pure _ _

theorem whole_createLot : Word.Whole createLot :=
  Word.whole_ofAct (Taking.offTop_two _) fun _ =>
    whole_judges fun _ _ => (sure_enter _).bind fun _ => sure_enter_pure _ _

theorem whole_setComment : Word.Whole setComment :=
  Word.whole_ofAct (Taking.offTop_two _) fun _ => whole_judges fun _ _ => sure_enter_pure _ _

theorem whole_assertDefault : Word.Whole assertDefault :=
  Word.whole_ofAct (Taking.offTop_three _) fun _ => (reads_judges _ _ _).whole

theorem whole_assertLot : Word.Whole assertLot :=
  Word.whole_ofAct (Taking.offTop_four _) fun _ => (reads_judges _ _ _).whole

theorem whole_assertLotsSum : Word.Whole assertLotsSum :=
  Word.whole_ofAct (Taking.offTop_three _) fun _ => (reads_judges _ _ _).whole

/-- **A core word other than `xact` that fails has not touched the book**, and has left no operands but
those it did not take. -/
theorem core_whole {name : String} {w : Word Book} (h : (name, w) ∈ coreWords) :
    w = transact ∨ Word.Whole w := by
  have hall : ∀ p ∈ coreWords, p.2 = transact ∨ Word.Whole p.2 := by
    simp only [coreWords, List.forall_mem_cons]
    exact ⟨.inr whole_addNotes, .inr whole_assertDefault, .inr whole_assertLot,
      .inr whole_assertLotsSum, .inr whole_close, .inr whole_closeLot, .inr whole_comment,
      .inr whole_commodity, .inr whole_createLot, .inr whole_date, .inr whole_lot,
      .inr whole_openAccount, .inr whole_setComment, .inr whole_tag, .inr whole_tagCommodity,
      .inr whole_untag, .inl trivial, .inr whole_transfer, .inr whole_exchange,
      fun _ hp => absurd hp List.not_mem_nil⟩
  exact hall (name, w) h

/-- A core word takes operands and acts on the book. -/
theorem core_ofAct {name : String} {w : Word Book} (h : (name, w) ∈ coreWords) :
    ∃ (α : Type) (take : Taking α) (act : α → Act (List Value)), w = .ofAct take act := by
  have hall : ∀ p ∈ coreWords, ∃ (α : Type) (take : Taking α) (act : α → Act (List Value)),
      p.2 = .ofAct take act := by
    simp only [coreWords, List.forall_mem_cons]
    exact ⟨⟨_, _, _, rfl⟩, ⟨_, _, _, rfl⟩, ⟨_, _, _, rfl⟩, ⟨_, _, _, rfl⟩, ⟨_, _, _, rfl⟩, ⟨_, _, _, rfl⟩,
      ⟨_, _, _, rfl⟩, ⟨_, _, _, rfl⟩, ⟨_, _, _, rfl⟩, ⟨_, _, _, rfl⟩, ⟨_, _, _, rfl⟩, ⟨_, _, _, rfl⟩,
      ⟨_, _, _, rfl⟩, ⟨_, _, _, rfl⟩, ⟨_, _, _, rfl⟩, ⟨_, _, _, rfl⟩, ⟨_, _, _, rfl⟩, ⟨_, _, _, rfl⟩,
      ⟨_, _, _, rfl⟩, fun _ hp => absurd hp List.not_mem_nil⟩
  exact hall (name, w) h

/-- No core word stops a run. -/
theorem core_ne_stop {name called : String} {w : Word Book} (hw : (name, w) ∈ coreWords) (d : Desk Book) :
    (w called d).1 ≠ .ok .stop := by
  obtain ⟨α, take, act, rfl⟩ := core_ofAct hw
  intro h
  cases (Word.ofAct_ok (Prod.ext h rfl)).1

/-- What a core word reports is a refusal in the name under which it was called. -/
theorem core_refuses {name called : String} {w : Word Book} (hw : (name, w) ∈ coreWords) {d : Desk Book}
    {cause : Cause} (h : (w called d).1 = .error (.failed cause)) :
    ∃ ground, cause = .refused ⟨some called, ground⟩ := by
  obtain ⟨α, take, act, rfl⟩ := core_ofAct hw
  exact Word.ofAct_refuses h

end Words

end Daybook
