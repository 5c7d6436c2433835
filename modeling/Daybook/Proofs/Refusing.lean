import Daybook.Proofs.Acts

/-!
# Refusing — words that stay in range

A judgement is passed, or refused on a ground, or it leaves the range of numbers.  Most words only look
things up and change one thing or another, and compute nothing: these never leave the range.

* `Refuses`, `Act.Refuses`: judgements and acts that never leave the range, with rules for several steps.
* `bind_eq_error_iff`, `on_bind_exceeded_iff`, `ofAct_exceeded_iff`: where several steps leave it.
* `refuses_commodity`, `refuses_openAccount`, …: the words that never do.
-/

namespace Daybook

/-! ### Judgements that stay in range -/

/-- A judgement that is passed or refused, and does not leave the range of numbers. -/
def Refuses {α : Type} (r : Except Fault α) : Prop := ∀ e, r ≠ .error (.exceeded e)

namespace Refuses

variable {α β : Type}

theorem ok (a : α) : Refuses (.ok a) := nofun

theorem refused (ground : Ground) : Refuses (.error (.refused ground) : Except Fault α) := nofun

theorem bind {r : Except Fault α} {next : α → Except Fault β} (h : Refuses r)
    (hn : ∀ a, Refuses (next a)) : Refuses (r >>= next) := by
  cases r with
  | ok a => exact hn a
  | error fault => exact fun e he => h e (congrArg Except.error (Except.error.inj he))

theorem ite {p : Prop} [Decidable p] {r r' : Except Fault α} (h : Refuses r) (h' : Refuses r') :
    Refuses (if p then r else r') := by
  split
  · exact h
  · exact h'

theorem asText (b : Book) (what : String) (v : Value) : Refuses (b.asText what v) := by
  cases v with
  | text s => exact ok s
  | transfer id => exact refused _
  | foreign name => exact refused _

theorem asTransfer (b : Book) (v : Value) : Refuses (b.asTransfer v) := by
  cases v with
  | text s => exact refused _
  | transfer id => exact ok id
  | foreign name => exact refused _

theorem asAmount (s : String) : Refuses (asAmount s) := by
  simp only [Daybook.asAmount]
  split
  · exact refused _
  · exact ok _

theorem findOpen (b : Book) (name : String) : Refuses (b.findOpen name) := by
  simp only [Book.findOpen]
  split
  · exact refused _
  · exact ite (refused _) (ok _)

theorem findCommodity (b : Book) (role name : String) : Refuses (b.findCommodity role name) :=
  ite (ok _) (refused _)

theorem requireUnopened (b : Book) (name : String) : Refuses (b.requireUnopened name) :=
  ite (refused _) (ok _)

theorem register (b : Book) (name description : String) : Refuses (b.register name description) :=
  ite (refused _) (ok _)

theorem openAccount (b : Book) (name : String) (allowed : List String) :
    Refuses (b.openAccount name allowed) := by
  have hr := requireUnopened b name
  simp only [Book.openAccount]
  split
  · next fault h =>
      rw [h] at hr
      exact fun e he => hr e (congrArg Except.error (Except.error.inj he))
  · exact ok _

theorem advance (b : Book) (date : Date) : Refuses (b.advance date) := ite (refused _) (ok _)

open Words

theorem asInteger (b : Book) (what : String) (v : Value) : Refuses (asInteger b what v) :=
  (asText b what v).bind fun s => by
    split
    · exact refused _
    · exact ok _

theorem requireValidName (name : String) : Refuses (requireValidName name) := ite (ok _) (refused _)

theorem findClosable (b : Book) (name : String) : Refuses (findClosable b name) :=
  ite (refused _) (findOpen b name)

theorem requireEmptyAccount (b : Book) (id : AccountId) (name : String) :
    Refuses (requireEmptyAccount b id name) := by
  simp only [Words.requireEmptyAccount]
  split
  · exact refused _
  · exact ok _

theorem requireEmptyLot (b : Book) (id : AccountId) (name lot : String) :
    Refuses (requireEmptyLot b id name lot) := by
  simp only [Words.requireEmptyLot]
  refine ite (refused _) ?_
  split
  · exact refused _
  · split
    · exact refused _
    · exact ok _

theorem findTagged (b : Book) (name : String) : Refuses (findTagged b name) := by
  simp only [Words.findTagged]
  split
  · exact refused _
  · exact ite (refused _) (ok _)

theorem findTaggedCommodity (b : Book) (name : String) : Refuses (findTaggedCommodity b name) :=
  ite (ok _) (refused _)

theorem requireAllowed (b : Book) (id : AccountId) (commodity : String) :
    Refuses (requireAllowed b id commodity) := ite (ok _) (refused _)

theorem draftTransfer (b : Book) (operands : Value × Value × Value) :
    Refuses (draftTransfer b operands) :=
  (asText b _ _).bind fun _ => (asText b _ _).bind fun _ => (asText b _ _).bind fun _ =>
    (asAmount _).bind fun _ => (findOpen b _).bind fun _ => (findCommodity b _ _).bind fun _ =>
      (requireAllowed b _ _).bind fun _ => ok _

theorem draftExchange (b : Book) (o : ExchangeOperands) : Refuses (draftExchange b o) :=
  (asAmount _).bind fun _ => (asAmount _).bind fun _ => (asAmount _).bind fun _ =>
    (findOpen b _).bind fun _ => (findCommodity b _ _).bind fun _ =>
      (requireAllowed b _ _).bind fun _ => (findCommodity b _ _).bind fun _ =>
        (findCommodity b _ _).bind fun _ => ok _

theorem asBinding (b : Book) (operands : Value × Value) : Refuses (asBinding b operands) :=
  (asTransfer b _).bind fun _ => (asText b _ _).bind fun _ => ite (refused _) (ok _)

theorem requireLot (b : Book) (id : TransferId) (lot : String) : Refuses (requireLot b id lot) :=
  ite (ok _) (refused _)

theorem requireRoom (b : Book) (id : TransferId) (lot : String) : Refuses (requireRoom b id lot) :=
  ite (refused _) (ok _)

theorem asAssertion (b : Book) (operands : Value × Value × Value) :
    Refuses (asAssertion b operands) :=
  (asText b _ _).bind fun _ => (asText b _ _).bind fun _ => (asAmount _).bind fun _ =>
    (asText b _ _).bind fun _ => (findOpen b _).bind fun _ => (findCommodity b _ _).bind fun _ => ok _

theorem asLotAssertion (b : Book) (operands : Value × Value × Value × Value) :
    Refuses (asLotAssertion b operands) :=
  (asText b _ _).bind fun _ => (asText b _ _).bind fun _ => (asAssertion b _).bind fun _ => ok _

end Refuses

/-- A judgement in two steps fails in the first or in the second. -/
theorem bind_eq_error_iff {α β ε : Type} {r : Except ε α} {next : α → Except ε β} {e : ε} :
    r >>= next = .error e ↔ r = .error e ∨ ∃ a, r = .ok a ∧ next a = .error e := by
  cases r with
  | ok a =>
      refine ⟨fun h => .inr ⟨a, rfl, h⟩, ?_⟩
      rintro (h | ⟨a', h, h'⟩)
      · cases h
      · cases h
        exact h'
  | error fault =>
      refine ⟨fun h => .inl (congrArg Except.error (Except.error.inj h)), ?_⟩
      rintro (h | ⟨a', h, -⟩)
      · cases h
        rfl
      · cases h

/-- A first step that stays in range only has to be passed. -/
theorem Refuses.bind_exceeded_iff {α β : Type} {r : Except Fault α} {next : α → Except Fault β}
    {e : Excess} (h : Refuses r) :
    r >>= next = .error (.exceeded e) ↔ ∃ a, r = .ok a ∧ next a = .error (.exceeded e) :=
  bind_eq_error_iff.trans (or_iff_right (h e))

/-! ### Acts that stay in range -/

namespace Act

variable {α β : Type}

/-- An act that does not leave the range of numbers. -/
def Refuses (act : Act α) : Prop := ∀ b, Daybook.Refuses (act.on b).1

theorem refuses_pure (a : α) : Refuses (pure a) := fun _ => .ok a

theorem refuses_judge {f : Book → Except Fault α} (h : ∀ b, Daybook.Refuses (f b)) :
    Refuses (judge f) := h

theorem refuses_enter (f : Book → Book) : Refuses (enter f) := fun _ => .ok ()

theorem refuses_change {f : Book → Except Fault Book} (h : ∀ b, Daybook.Refuses (f b)) :
    Refuses (change f) := by
  intro b e he
  rw [on_change] at he
  cases hf : f b with
  | ok b' => rw [hf] at he; cases he
  | error fault =>
      rw [hf] at he
      exact h b e (hf.trans (congrArg Except.error (Except.error.inj he)))

/-- An act of two steps leaves the range in the first or in the second. -/
theorem on_bind_exceeded_iff {act : Act α} {next : α → Act β} {b : Book} {e : Excess} :
    ((act >>= next).on b).1 = .error (.exceeded e)
      ↔ (act.on b).1 = .error (.exceeded e)
        ∨ ∃ a b₁, act.on b = (.ok a, b₁) ∧ ((next a).on b₁).1 = .error (.exceeded e) := by
  constructor
  · intro h
    rcases on_bind_error_iff.1 (Prod.ext h rfl) with h₁ | ⟨a, b₁, h₁, h₂⟩
    · exact .inl (congrArg Prod.fst h₁)
    · exact .inr ⟨a, b₁, h₁, congrArg Prod.fst h₂⟩
  · rintro (h | ⟨a, b₁, h₁, h₂⟩)
    · exact congrArg Prod.fst (on_bind_error_iff.2 (.inl (Prod.ext h rfl)))
    · exact congrArg Prod.fst (on_bind_error_iff.2 (.inr ⟨a, b₁, h₁, Prod.ext h₂ rfl⟩))

theorem Refuses.bind {act : Act α} {next : α → Act β} (h : Refuses act)
    (hn : ∀ a, Refuses (next a)) : Refuses (act >>= next) := by
  intro b e he
  rcases on_bind_exceeded_iff.1 he with h₁ | ⟨a, b₁, -, h₂⟩
  · exact h b e h₁
  · exact hn a b₁ e h₂

theorem refuses_forM {l : List α} {f : α → Act Unit} (h : ∀ a, Refuses (f a)) :
    Refuses (l.forM f) :=
  forM_induction (refuses_pure ()) Refuses.bind h

theorem refuses_enter_pure (f : Book → Book) (r : α) : Refuses (enter f >>= fun _ => pure r) :=
  (refuses_enter f).bind fun _ => refuses_pure r

/-- An act that judges twice before it does what stays in range. -/
theorem refuses_judges {γ : Type} {first : Book → Except Fault α} {second : α → Book → Except Fault β}
    {last : α → β → Act γ} (hfirst : ∀ b, Daybook.Refuses (first b))
    (hsecond : ∀ x b, Daybook.Refuses (second x b)) (hlast : ∀ x y, Refuses (last x y)) :
    Refuses (judge first >>= fun x => judge (second x) >>= last x) :=
  (refuses_judge hfirst).bind fun x => (refuses_judge (hsecond x)).bind (hlast x)

/-- An act that judges and then makes changes that cannot fail. -/
theorem refuses_changesEach {γ δ : Type} {find : Book → Except Fault γ} {items : List δ}
    {change : γ → δ → Book → Book} {r : α} (h : ∀ b, Daybook.Refuses (find b)) :
    Refuses (do let x ← judge find; items.forM fun a => enter (change x a); return r) :=
  (refuses_judge h).bind fun _ => (refuses_forM fun _ => refuses_enter _).bind fun _ => refuses_pure r

/-- An act that begins with a judgement leaves the range there or after it. -/
theorem on_judge_bind_exceeded_iff {f : Book → Except Fault α} {next : α → Act β} {b : Book}
    {e : Excess} :
    ((judge f >>= next).on b).1 = .error (.exceeded e)
      ↔ f b = .error (.exceeded e) ∨ ∃ a, f b = .ok a ∧ ((next a).on b).1 = .error (.exceeded e) := by
  rw [on_bind_exceeded_iff]
  refine or_congr Iff.rfl (exists_congr fun a => ⟨?_, fun h => ⟨b, Prod.ext h.1 rfl, h.2⟩⟩)
  rintro ⟨b₁, h₁, h₂⟩
  obtain ⟨ha, rfl⟩ := on_judge_ok_iff.1 h₁
  exact ⟨ha, h₂⟩

end Act

namespace Word

variable {α : Type} {take : Taking α} {act : α → Act (List Value)} {called : String} {d : Desk Book}

/-- A word leaves the range when its operands are there and the act does. -/
theorem ofAct_exceeded_iff {e : Excess} :
    (ofAct take act called d).1 = .error (.exceeded e)
      ↔ ∃ taken rest, take d.operands = .ok (taken, rest)
        ∧ ((act taken).on d.context).1 = .error (.exceeded e) := by
  simp only [ofAct, perform]
  cases htake : take d.operands with
  | error fault =>
      refine ⟨fun h => (by cases h), ?_⟩
      rintro ⟨_, _, h, -⟩
      cases h
  | ok p =>
      obtain ⟨taken, rest⟩ := p
      dsimp only
      have hact : (∃ taken' rest', (Except.ok (taken, rest) : Except OperandFault _)
            = .ok (taken', rest') ∧ ((act taken').on d.context).1 = .error (.exceeded e))
          ↔ ((act taken).on d.context).1 = .error (.exceeded e) := by
        refine ⟨?_, fun h => ⟨taken, rest, rfl, h⟩⟩
        rintro ⟨_, _, h, h'⟩
        cases h
        exact h'
      rw [hact]
      obtain ⟨r, b⟩ := (act taken).on d.context
      cases r with
      | ok pushed => exact ⟨fun h => (by cases h), fun h => (by cases h)⟩
      | error fault =>
          cases fault with
          | refused ground => exact ⟨fun h => (by cases h), fun h => (by cases h)⟩
          | exceeded e' => exact ⟨fun h => by cases h; rfl, fun h => by cases h; rfl⟩

/-- A word that does not leave the range of numbers. -/
def Refuses (w : Word Book) : Prop := ∀ called d e, (w called d).1 ≠ .error (.exceeded e)

theorem refuses_ofAct (h : ∀ taken, (act taken).Refuses) : Refuses (ofAct take act) := by
  intro called d e he
  obtain ⟨taken, _, -, hact⟩ := ofAct_exceeded_iff.1 he
  exact h taken d.context e hact

end Word

/-! ### Words that stay in range -/

namespace Words

open Act

theorem refuses_commodity : Word.Refuses commodity :=
  Word.refuses_ofAct fun _ => refuses_judges (fun b => .asText b _ _) (fun _ b => .asText b _ _)
    fun _ _ => (refuses_change fun b => .register b _ _).bind fun _ => refuses_pure _

theorem refuses_openAccount : Word.Refuses openAccount :=
  Word.refuses_ofAct fun _ => (refuses_judge fun _ => .requireValidName _).bind fun _ =>
    (refuses_judge fun b => .requireUnopened b _).bind fun _ =>
      (refuses_forM fun _ => refuses_judge fun b => .findCommodity b _ _).bind fun _ =>
        (refuses_change fun b => .openAccount b _ _).bind fun _ => refuses_pure _

theorem refuses_close : Word.Refuses close :=
  Word.refuses_ofAct fun _ => (refuses_judge fun b => .asText b _ _).bind fun _ =>
    (refuses_judge fun b => .findClosable b _).bind fun _ =>
      (refuses_judge fun b => .requireEmptyAccount b _ _).bind fun _ =>
        (refuses_enter _).bind fun _ => refuses_pure _

theorem refuses_closeLot : Word.Refuses closeLot :=
  Word.refuses_ofAct fun _ => (refuses_judge fun b => .asText b _ _).bind fun _ =>
    (refuses_judge fun b => .asText b _ _).bind fun _ =>
      (refuses_judge fun b => .findOpen b _).bind fun _ =>
        (refuses_judge fun b => .requireEmptyLot b _ _ _).bind fun _ =>
          (refuses_enter _).bind fun _ => refuses_pure _

theorem refuses_tag : Word.Refuses tag :=
  Word.refuses_ofAct fun _ => refuses_changesEach fun b => .findTagged b _

theorem refuses_tagCommodity : Word.Refuses tagCommodity :=
  Word.refuses_ofAct fun _ => refuses_changesEach fun b => .findTaggedCommodity b _

theorem refuses_untag : Word.Refuses untag :=
  Word.refuses_ofAct fun _ => refuses_changesEach fun b => .findTagged b _

theorem refuses_addNotes : Word.Refuses addNotes :=
  Word.refuses_ofAct fun _ => refuses_changesEach fun b => .findOpen b _

theorem refuses_comment : Word.Refuses comment :=
  Word.refuses_ofAct fun _ => (refuses_judge fun b => .asText b _ _).bind fun _ => refuses_pure _

theorem refuses_keepDraft (t : Transfer) : (keepDraft t).Refuses :=
  (refuses_judge fun _ => .ok _).bind fun _ => (refuses_enter _).bind fun _ => refuses_pure _

theorem refuses_transfer : Word.Refuses transfer :=
  Word.refuses_ofAct fun _ => (refuses_judge fun b => .draftTransfer b _).bind refuses_keepDraft

theorem refuses_exchange : Word.Refuses exchange :=
  Word.refuses_ofAct fun _ => (refuses_judge fun b => .draftExchange b _).bind refuses_keepDraft

theorem refuses_lot : Word.Refuses lot :=
  Word.refuses_ofAct fun _ => refuses_judges (fun b => .asBinding b _) (fun _ b => .requireLot b _ _)
    fun _ _ => refuses_enter_pure _ _

theorem refuses_createLot : Word.Refuses createLot :=
  Word.refuses_ofAct fun _ => refuses_judges (fun b => .asBinding b _) (fun _ b => .requireRoom b _ _)
    fun _ _ => (refuses_enter _).bind fun _ => refuses_enter_pure _ _

theorem refuses_setComment : Word.Refuses setComment :=
  Word.refuses_ofAct fun _ => refuses_judges (fun b => .asTransfer b _) (fun _ b => .asText b _ _)
    fun _ _ => refuses_enter_pure _ _

end Words

end Daybook
