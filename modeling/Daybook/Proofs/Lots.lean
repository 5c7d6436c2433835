import Daybook.Proofs.Closing

/-!
# Lots — which words touch lots

An act keeps a view of the book if it leaves what the view shows as it was, whatever comes of the act.
Marks, notes, drafts, the clock and the opening and closing of accounts leave the lots alone; applying a
transaction leaves all the rest alone.

* `Act.Keeps`: acts that leave a view of the book as it was, with rules for acts of several steps.
* `core_keeps_lots`: **only `xact` and `close-lot` touch lots**.
* `transact_keeps_unlotted`: **`xact` touches nothing but lots**.
-/

namespace Daybook

namespace Act

variable {α β γ : Type} {view : Book → γ}

/-- An act that leaves what a view of the book shows as it was, whatever comes of the act. -/
def Keeps (view : Book → γ) (act : Act α) : Prop := ∀ b r b', act.on b = (r, b') → view b' = view b

theorem Reads.keeps {act : Act α} (h : Reads act) : Keeps view act := fun b r b' e =>
  congrArg view (h b r b' e)

theorem keeps_enter {f : Book → Book} (h : ∀ b, view (f b) = view b) : Keeps view (enter f) := by
  intro b r b' e
  cases e
  exact h b

theorem keeps_change {f : Book → Except Fault Book} (h : ∀ b b', f b = .ok b' → view b' = view b) :
    Keeps view (change f) := by
  intro b r b' e
  rw [on_change] at e
  cases hf : f b with
  | ok b₁ => rw [hf] at e; cases e; exact h b _ hf
  | error fault => rw [hf] at e; cases e; rfl

theorem Keeps.bind {act : Act α} {next : α → Act β} (h : Keeps view act)
    (hn : ∀ a, Keeps view (next a)) : Keeps view (act >>= next) := by
  intro b r b' e
  cases r with
  | ok r =>
      obtain ⟨a, b₁, e₁, e₂⟩ := on_bind_ok_iff.1 e
      exact (hn a b₁ _ b' e₂).trans (h b _ b₁ e₁)
  | error fault =>
      rcases on_bind_error_iff.1 e with e₁ | ⟨a, b₁, e₁, e₂⟩
      · exact h b _ b' e₁
      · exact (hn a b₁ _ b' e₂).trans (h b _ b₁ e₁)

theorem keeps_pure (a : α) : Keeps view (pure a) := (reads_pure a).keeps

/-- A judgement keeps every view. -/
theorem keeps_judge_bind {f : Book → Except Fault α} {next : α → Act β}
    (hn : ∀ a, Keeps view (next a)) : Keeps view (judge f >>= next) :=
  (reads_judge f).keeps.bind hn

theorem keeps_forM {l : List α} {f : α → Act Unit} (h : ∀ a, Keeps view (f a)) :
    Keeps view (l.forM f) :=
  forM_induction (keeps_pure ()) Keeps.bind h

theorem keeps_enter_pure {f : Book → Book} {r : α} (h : ∀ b, view (f b) = view b) :
    Keeps view (enter f >>= fun _ => pure r) :=
  (keeps_enter h).bind fun _ => keeps_pure r

/-- An act that judges and then makes changes that cannot fail. -/
theorem keeps_changesEach {find : Book → Except Fault α} {items : List β} {change : α → β → Book → Book}
    {r : List Value} (h : ∀ x a b, view (change x a b) = view b) :
    Keeps view (do let x ← judge find; items.forM fun a => enter (change x a); return r) :=
  keeps_judge_bind fun x => (keeps_forM fun a => keeps_enter (h x a)).bind fun _ => keeps_pure r

end Act

/-- A word that leaves what a view of the book shows as it was, whatever comes of the call. -/
def Word.Keeps {γ : Type} (view : Book → γ) (w : Word Book) : Prop :=
  ∀ called d r d', w called d = (r, d') → view d'.context = view d.context

theorem Word.keeps_ofAct {α γ : Type} {view : Book → γ} {take : Taking α} {act : α → Act (List Value)}
    (h : ∀ taken, (act taken).Keeps view) : Word.Keeps view (Word.ofAct take act) := by
  intro called d r d' e
  cases r with
  | ok signal =>
      obtain ⟨-, taken, rest, pushed, b, -, hact, rfl⟩ := Word.ofAct_ok e
      exact h taken _ _ b hact
  | error failure =>
      rcases Word.ofAct_error e with ⟨rfl, -⟩ | ⟨taken, fault, -, hact, -⟩
      · rfl
      · exact h taken _ _ _ hact

namespace Book

/-- What each step of a row keeps, all of them keep. -/
theorem foldl_keeps {α γ : Type} (view : Book → γ) {f : Book → α → Book}
    (h : ∀ b a, view (f b a) = view b) (l : List α) (b : Book) : view (l.foldl f b) = view b :=
  List.foldlRecOn (motive := fun b' => view b' = view b) l f rfl fun b' hb a _ => (h b' a).trans hb

/-! ### The lots of a book -/

/-- The lots of a book, account by account. -/
def lots (b : Book) (id : AccountId) : Table Lot := (b.account id).lots

theorem held_eq (b : Book) (id : AccountId) (lot c : String) :
    b.held id lot c = ((b.lots id).get? lot).bind (·.get? c) := rfl

theorem hasLot_eq (b : Book) (id : AccountId) (lot : String) :
    b.hasLot id lot = (b.lots id).contains lot := rfl

/-- Books with the same lots have the same entries. -/
theorem hasLot_congr {b b' : Book} (h : b'.lots = b.lots) (id : AccountId) (lot : String) :
    b'.hasLot id lot = b.hasLot id lot := by
  rw [hasLot_eq, hasLot_eq, h]

theorem held_congr {b b' : Book} (h : b'.lots = b.lots) (id : AccountId) (lot c : String) :
    b'.held id lot c = b.held id lot c := by
  rw [held_eq, held_eq, h]

theorem Quiet.lots_eq {b b' : Book} (h : b.Quiet b') : b'.lots = b.lots := funext h.lots

theorem lots_advance {b b' : Book} {date : Date} (h : b.advance date = .ok b') : b'.lots = b.lots := by
  obtain ⟨-, rfl⟩ := advance_ok h
  rfl

theorem lots_draft (b : Book) (t : Transfer) : (b.draft t).lots = b.lots := rfl

/-- A new account has the lots of one that is not in the book: the empty default lot. -/
theorem lots_openAccount {b b' : Book} {name : String} {allowed : List String}
    (h : b.openAccount name allowed = .ok b') : b'.lots = b.lots := by
  obtain ⟨-, rfl⟩ := openAccount_ok h
  funext id
  simp only [lots]
  rw [account_opening]
  split
  · next hid =>
      have hnone : b.account id = default := by
        simp only [account]
        rw [hid, List.getD_eq_getElem?_getD, List.getElem?_eq_none (Nat.le_refl _), Option.getD_none]
      rw [hnone]
      rfl
  · rfl

theorem lots_closeAccount (b : Book) (id : AccountId) : (b.closeAccount id).lots = b.lots := by
  funext i
  show ((b.updateAccount id _).account i).lots = (b.account i).lots
  rw [account_update]
  split <;> rfl

/-- A lot that is closed is there no more, and no other goes with it. -/
theorem get?_lots_closeLot {b : Book} {id : AccountId} (hid : id < b.accounts.length) (lot : String)
    (i : AccountId) (l : String) :
    ((b.closeLot id lot).lots i).get? l
      = if i = id ∧ l = lot then none else ((b.lots i).get? l) := by
  simp only [lots]
  rw [account_closeLot hid]
  by_cases hi : i = id
  · rw [if_pos hi]
    show ((b.account i).lots.erase lot).get? l = _
    rw [Table.get?_erase]
    simp only [hi, true_and]
  · rw [if_neg hi, if_neg fun hk => hi hk.1]

/-! ### The rest of a book -/

/-- A book without its lots, and without the journal. -/
def unlotted (b : Book) : Book :=
  { b with accounts := b.accounts.map fun a => { a with lots := ∅ }, journal := [] }

theorem unlotted_posted (b : Book) (t : Transfer) (h : Holding) :
    (b.posted t h).unlotted = b.unlotted := by
  have haccounts := map_modify_of_eq (g := fun a : Account => { a with lots := ∅ })
    (f := (·.keep t.lot t.quantity.commodity h)) (fun _ => rfl) b.accounts t.account
  simp only [unlotted, posted]
  rw [haccounts]

theorem unlotted_post {b b' : Book} {t : Transfer} (h : b.post t = .ok b') :
    b'.unlotted = b.unlotted := by
  obtain ⟨-, holding, -, rfl⟩ := post_eq_ok_iff.1 h
  exact unlotted_posted b t holding

theorem unlotted_record (b : Book) (e : Event) : (b.record e).unlotted = b.unlotted := rfl

/-- A transaction leaves the rest alone, whatever comes of it. -/
theorem unlotted_apply {b b' : Book} {x : Transaction} {r : Except Fault Unit}
    (h : x.apply.on b = (r, b')) : b'.unlotted = b.unlotted := by
  refine Transaction.apply_invariant (P := fun c => c.unlotted = b.unlotted) ?_ ?_ h rfl
  · exact fun _ c t _ held hc => (unlotted_posted c t held).trans hc
  · exact fun c e hc => (c.unlotted_record e).trans hc

end Book

namespace Words

open Act

theorem keeps_lots_commodity : Word.Keeps Book.lots commodity :=
  Word.keeps_ofAct fun _ => keeps_judge_bind fun _ => keeps_judge_bind fun _ =>
    (keeps_change fun _ _ h => (Book.quiet_register h).lots_eq).bind fun _ => keeps_pure _

theorem keeps_lots_openAccount : Word.Keeps Book.lots openAccount :=
  Word.keeps_ofAct fun _ => keeps_judge_bind fun _ => keeps_judge_bind fun _ =>
    (keeps_forM fun _ => (reads_judge _).keeps).bind fun _ =>
      (keeps_change fun _ _ h => Book.lots_openAccount h).bind fun _ => keeps_pure _

theorem keeps_lots_close : Word.Keeps Book.lots close :=
  Word.keeps_ofAct fun _ => keeps_judge_bind fun _ => keeps_judge_bind fun id =>
    keeps_judge_bind fun _ => keeps_enter_pure fun b => b.lots_closeAccount id

theorem keeps_lots_date : Word.Keeps Book.lots date :=
  Word.keeps_ofAct fun _ => keeps_judge_bind fun _ =>
    (keeps_change fun _ _ h => Book.lots_advance h).bind fun _ => keeps_pure _

theorem keeps_lots_tag : Word.Keeps Book.lots tag :=
  Word.keeps_ofAct fun _ => keeps_changesEach fun e tag b => (b.quiet_tag e tag).lots_eq

theorem keeps_lots_tagCommodity : Word.Keeps Book.lots tagCommodity :=
  Word.keeps_ofAct fun _ => keeps_changesEach fun e tag b => (b.quiet_tag e tag).lots_eq

theorem keeps_lots_untag : Word.Keeps Book.lots untag :=
  Word.keeps_ofAct fun _ => keeps_changesEach fun e tag b => (b.quiet_untag e tag).lots_eq

theorem keeps_lots_addNotes : Word.Keeps Book.lots addNotes :=
  Word.keeps_ofAct fun _ =>
    keeps_changesEach fun id note b => (b.quiet_annotate id note.1 note.2).lots_eq

theorem keeps_lots_comment : Word.Keeps Book.lots comment :=
  Word.keeps_ofAct fun _ => keeps_judge_bind fun _ => keeps_pure _

theorem keeps_lots_keepDraft (t : Transfer) : (keepDraft t).Keeps Book.lots :=
  keeps_judge_bind fun _ => keeps_enter_pure fun b => b.lots_draft t

theorem keeps_lots_transfer : Word.Keeps Book.lots transfer :=
  Word.keeps_ofAct fun _ => keeps_judge_bind fun t => keeps_lots_keepDraft t

theorem keeps_lots_exchange : Word.Keeps Book.lots exchange :=
  Word.keeps_ofAct fun _ => keeps_judge_bind fun t => keeps_lots_keepDraft t

theorem keeps_lots_lot : Word.Keeps Book.lots lot :=
  Word.keeps_ofAct fun _ => keeps_judge_bind fun _ => keeps_judge_bind fun _ =>
    keeps_enter_pure fun b => (b.quiet_bindLot _ _).lots_eq

theorem keeps_lots_createLot : Word.Keeps Book.lots createLot :=
  Word.keeps_ofAct fun _ => keeps_judge_bind fun _ => keeps_judge_bind fun _ =>
    (keeps_enter fun b => (b.quiet_bindLot _ _).lots_eq).bind fun _ =>
      keeps_enter_pure fun b => (b.quiet_letCreate _).lots_eq

theorem keeps_lots_setComment : Word.Keeps Book.lots setComment :=
  Word.keeps_ofAct fun _ => keeps_judge_bind fun _ => keeps_judge_bind fun _ =>
    keeps_enter_pure fun b => (b.quiet_setComment _ _).lots_eq

/-- A word that only judges keeps everything. -/
theorem keeps_assertDefault {γ : Type} (view : Book → γ) : Word.Keeps view assertDefault :=
  Word.keeps_ofAct fun _ => keeps_judge_bind fun _ => keeps_judge_bind fun _ => keeps_pure _

theorem keeps_assertLot {γ : Type} (view : Book → γ) : Word.Keeps view assertLot :=
  Word.keeps_ofAct fun _ => keeps_judge_bind fun _ => keeps_judge_bind fun _ => keeps_pure _

theorem keeps_assertLotsSum {γ : Type} (view : Book → γ) : Word.Keeps view assertLotsSum :=
  Word.keeps_ofAct fun _ => keeps_judge_bind fun _ => keeps_judge_bind fun _ => keeps_pure _

/-- **Only `xact` and `close-lot` touch lots.** -/
theorem core_keeps_lots {name : String} {w : Word Book} (h : (name, w) ∈ coreWords) :
    (name = "xact" ∧ w = transact) ∨ (name = "close-lot" ∧ w = closeLot) ∨ Word.Keeps Book.lots w := by
  have hall : ∀ p ∈ coreWords, (p.1 = "xact" ∧ p.2 = transact)
      ∨ (p.1 = "close-lot" ∧ p.2 = closeLot) ∨ Word.Keeps Book.lots p.2 := by
    simp only [coreWords, List.forall_mem_cons]
    exact ⟨.inr (.inr keeps_lots_addNotes), .inr (.inr (keeps_assertDefault _)),
      .inr (.inr (keeps_assertLot _)), .inr (.inr (keeps_assertLotsSum _)),
      .inr (.inr keeps_lots_close), .inr (.inl ⟨trivial, trivial⟩), .inr (.inr keeps_lots_comment),
      .inr (.inr keeps_lots_commodity), .inr (.inr keeps_lots_createLot),
      .inr (.inr keeps_lots_date), .inr (.inr keeps_lots_lot), .inr (.inr keeps_lots_openAccount),
      .inr (.inr keeps_lots_setComment), .inr (.inr keeps_lots_tag),
      .inr (.inr keeps_lots_tagCommodity), .inr (.inr keeps_lots_untag), .inl ⟨trivial, trivial⟩,
      .inr (.inr keeps_lots_transfer), .inr (.inr keeps_lots_exchange),
      fun _ hp => absurd hp List.not_mem_nil⟩
  exact hall (name, w) h

/-- **`xact` touches nothing but lots**, whatever comes of it. -/
theorem transact_keeps_unlotted : Word.Keeps Book.unlotted transact :=
  Word.keeps_ofAct fun _ =>
    -- the transaction is drafted, then checked, posted and entered in the journal
    (keeps_judge_bind fun _ =>
      (keeps_judge_bind fun _ => keeps_judge_bind fun _ =>
        (keeps_forM fun _ => keeps_change fun _ _ h => Book.unlotted_post h).bind fun _ =>
          keeps_enter fun b => b.unlotted_record _).bind fun _ => keeps_pure _).bind
    fun _ => keeps_pure _

end Words

end Daybook
