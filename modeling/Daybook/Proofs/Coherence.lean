import Daybook.Proofs.Drafts
import Daybook.Proofs.Lots

/-!
# Coherence — what is kept fits together

Names are looked up when a transfer is drafted, and an entry is made when a transaction applies it, any
number of calls later.  In between commodities stay registered, and an account stays and allows what it
allowed, so the entry still fits what the book has registered and opened.

* `Registers`: commodities stay registered, and only their tags change.
* `Fits`, `Filed`: a transfer, and an entry, that fit the rest of the book.
* `Coherent`: a book in which every draft fits, and every entry is filed under its own names.
* `Coherent.deed`: **every deed keeps a book coherent**, if the transfers that it uses are drafts.
* `store_coherent`: so every book of a run is coherent, and keeps its commodities.
-/

namespace Daybook

namespace Book

/-! ### Registered commodities -/

/-- Commodities stay registered under their own names, and only their tags change. -/
structure Registers (b b' : Book) : Prop where
  kept : ∀ name c, b.commodities.get? name = some c →
    ∃ tags, b'.commodities.get? name = some { c with tags }
  named : (∀ name c, b.commodities.get? name = some c → c.name = name) →
    ∀ name c, b'.commodities.get? name = some c → c.name = name

namespace Registers

variable {b b' b'' : Book}

theorem of_eq (h : b'.commodities = b.commodities) : b.Registers b' where
  kept _ c hc := ⟨c.tags, h ▸ hc⟩
  named hb := h ▸ hb

theorem trans (h : b.Registers b') (h' : b'.Registers b'') : b.Registers b'' where
  kept name c hc := by
    obtain ⟨tags, hc'⟩ := h.kept name c hc
    obtain ⟨tags', hc''⟩ := h'.kept name _ hc'
    exact ⟨tags', hc''⟩
  named hb := h'.named (h.named hb)

theorem foldl {α : Type} {f : Book → α → Book} (h : ∀ (b : Book) a, b.Registers (f b a)) (l : List α)
    (b : Book) : b.Registers (l.foldl f b) :=
  List.foldlRecOn l f (of_eq rfl) fun b' hb a _ => hb.trans (h b' a)

theorem contains (h : b.Registers b') {name : String} (hc : b.commodities.contains name = true) :
    b'.commodities.contains name = true := by
  obtain ⟨c, hc⟩ := Option.isSome_iff_exists.1 hc
  obtain ⟨tags, hc'⟩ := h.kept name c hc
  exact Option.isSome_iff_exists.2 ⟨_, hc'⟩

end Registers

theorem registers_register {b b' : Book} {name description : String}
    (h : b.register name description = .ok b') : b.Registers b' := by
  obtain ⟨hfree, rfl⟩ := register_ok h
  refine ⟨?_, ?_⟩
  · intro n c hc
    -- the name that is new was not registered before
    have hne : n ≠ name := by
      rintro rfl
      rw [hfree] at hc
      cases hc
    exact ⟨c.tags, by rw [record, Catalogue.get?_insert, if_neg hne, hc]⟩
  · intro hb n c hc
    rw [record, Catalogue.get?_insert] at hc
    split at hc
    · next hn => cases hc; exact hn.symm
    · exact hb n c hc

theorem registers_updateTags (b : Book) (e : Entity) (f : NameSet → NameSet) :
    b.Registers (b.updateTags e f) := by
  cases e with
  | account id => exact .of_eq rfl
  | commodity name =>
      simp only [updateTags, updateCommodity]
      split
      · exact .of_eq rfl
      · next c hc =>
          refine ⟨?_, ?_⟩
          · intro n c' hc'
            show ∃ tags, (b.commodities.insert name _).get? n = _
            rw [Catalogue.get?_insert]
            by_cases hn : n = name
            · rw [hn, hc] at hc'
              cases hc'
              exact ⟨f c.tags, by rw [if_pos hn]⟩
            · exact ⟨c'.tags, by rw [if_neg hn, hc']⟩
          · intro hb n c' hc'
            replace hc' : (b.commodities.insert name _).get? n = some c' := hc'
            rw [Catalogue.get?_insert] at hc'
            split at hc'
            · next hn =>
                cases hc'
                exact (hb name c hc).trans hn.symm
            · exact hb n c' hc'

theorem registers_index (b : Book) (tagged : Catalogue (List Entity)) : b.Registers { b with tagged } :=
  .of_eq rfl

theorem registers_annotate (b : Book) (id : AccountId) (name note : String) :
    b.Registers (b.annotate id name note) := .of_eq rfl

theorem registers_tag (b : Book) (e : Entity) (tag : String) : b.Registers (b.tag e tag) := by
  simp only [Book.tag]
  exact (b.registers_index _).trans (registers_updateTags _ e _)

theorem registers_untag (b : Book) (e : Entity) (tag : String) : b.Registers (b.untag e tag) := by
  simp only [Book.untag]
  exact (b.registers_index _).trans (registers_updateTags _ e _)

/-- A transaction leaves commodities alone, also where it breaks off. -/
theorem registers_apply {b b' : Book} {x : Transaction} {r : Except Fault Unit}
    (h : x.apply.on b = (r, b')) : b.Registers b' := by
  have hcommodities : b'.commodities = b.commodities := congrArg (·.commodities) (unlotted_apply h)
  exact .of_eq hcommodities

end Book

/-- A deed keeps commodities registered. -/
theorem Deed.registers {d d' : Desk Book} (h : Deed d d') : d.context.Registers d'.context := by
  cases h with
  | taken => exact .of_eq rfl
  | advanced _ _ hb =>
      obtain ⟨-, rfl⟩ := Book.advance_ok hb
      exact .of_eq rfl
  | registered _ hb => exact Book.registers_register hb
  | opened _ _ _ hb =>
      obtain ⟨-, rfl⟩ := Book.openAccount_ok hb
      exact .of_eq rfl
  | closed => exact .of_eq rfl
  | lotClosed => exact .of_eq rfl
  | annotated notes => exact .foldl (fun b _ => b.registers_annotate _ _ _) notes _
  | tagged tags => exact .foldl (fun b tag => b.registers_tag _ tag) tags _
  | untagged tags => exact .foldl (fun b tag => b.registers_untag _ tag) tags _
  | drafted => exact .of_eq rfl
  | bound => exact .of_eq rfl
  | boundNew => exact .of_eq rfl
  | commented => exact .of_eq rfl
  | applied _ _ hb => exact Book.registers_apply hb
  | brokenOff _ _ hb => exact Book.registers_apply hb

namespace Book

/-! ### Transfers that fit and filed entries -/

/-- An exchange rate in registered commodities, or none. -/
def Priced (b : Book) (rate : Option ExchangeRate) : Prop :=
  ∀ r, rate = some r → b.commodities.contains r.unitPrice.commodity = true
    ∧ b.commodities.contains r.totalPrice.commodity = true

/-- A transfer into an account that was opened and allows its commodity, in registered commodities. -/
structure Fits (b : Book) (t : Transfer) : Prop where
  account : t.account < b.accounts.length
  commodity : b.commodities.contains t.quantity.commodity = true
  allowed : (b.account t.account).allows t.quantity.commodity = true
  rate : b.Priced t.rate

/-- What a lot of an account holds of a commodity, as it should be: under its own names, in registered
commodities of which the account allows the one held. -/
structure Filed (b : Book) (id : AccountId) (lot c : String) (h : Holding) : Prop where
  lot : h.lot = lot
  commodity : h.balance.commodity = c
  registered : b.commodities.contains c = true
  allowed : (b.account id).allows c = true
  rate : b.Priced h.rate

/-- A book in which all accounts have a default lot and no other that is empty, every entry is filed as it
should be, commodities have the names under which they are registered, and every draft fits. -/
structure Coherent (b : Book) : Prop where
  default : ∀ id, b.hasLot id defaultLot = true
  named : ∀ id lot, lot ≠ defaultLot → b.hasLot id lot = true → ∃ c h, b.held id lot c = some h
  filed : ∀ id lot c h, b.held id lot c = some h → b.Filed id lot c h
  commodities : ∀ name c, b.commodities.get? name = some c → c.name = name
  drafts : ∀ t ∈ b.transfers, b.Fits t

variable {b b' : Book}

theorem coherent_empty : Coherent .empty where
  default _ := rfl
  named id lot hne h := by
    -- an account that is not in the book has the default lot alone
    have hlot : ((Table.single defaultLot ∅ : Table Lot).get? lot).isSome = true := h
    rw [Table.get?_single, if_neg hne] at hlot
    cases hlot
  filed id lot c h hh := by
    have hnone : Book.empty.held id lot c = none := Account.holding?_new "" .zero ∅ lot c
    rw [hnone] at hh
    cases hh
  commodities _ _ h := by cases h
  drafts _ h := absurd h List.not_mem_nil

/-- What is not in the book holds nothing. -/
theorem lt_of_held {id : AccountId} {lot c : String} {h : Holding} (hh : b.held id lot c = some h) :
    id < b.accounts.length := by
  refine Decidable.byContradiction ?_
  intro hlt
  have hnone : b.account id = default := by
    simp only [account]
    rw [List.getD_eq_getElem?_getD, List.getElem?_eq_none (Nat.not_lt.1 hlt), Option.getD_none]
  simp only [held] at hh
  rw [hnone] at hh
  exact absurd (coherent_empty.filed id lot c h hh).registered Bool.false_ne_true

/-! ### What keeps books coherent -/

theorem Priced.mono (hr : b.Registers b') {rate : Option ExchangeRate} (h : b.Priced rate) :
    b'.Priced rate := fun r hrate => (h r hrate).imp hr.contains hr.contains

/-- A transfer still fits, apart from its binding and comment, while its account allows what it did. -/
theorem Fits.mono (hr : b.Registers b') (hlength : b.accounts.length ≤ b'.accounts.length)
    (hallowed : ∀ id, id < b.accounts.length → (b'.account id).allowed = (b.account id).allowed)
    {t t' : Transfer} (ht : t'.unbound = t.unbound) (h : b.Fits t) : b'.Fits t' := by
  obtain ⟨account, quantity, lot, createsLot, rate, comment⟩ := t
  obtain ⟨account', quantity', lot', createsLot', rate', comment'⟩ := t'
  simp only [Transfer.unbound, Transfer.mk.injEq] at ht
  obtain ⟨rfl, rfl, -, -, rfl, -⟩ := ht
  refine ⟨Nat.lt_of_lt_of_le h.account hlength, hr.contains h.commodity, ?_, h.rate.mono hr⟩
  have := h.allowed
  simp only [Account.allows] at this ⊢
  rwa [hallowed _ h.account]

theorem allowed_posted {t : Transfer} (ht : t.account < b.accounts.length) (h : Holding) (id : AccountId) :
    ((b.posted t h).account id).allowed = (b.account id).allowed :=
  reads_posted Account.allowed (fun _ _ _ _ => rfl) ht h id

/-- What fits still fits after a posting of a transfer that fits. -/
theorem Fits.post {t t' : Transfer} (ht' : b.Fits t') (ht : b.Fits t) (h : b.post t = .ok b') :
    b'.Fits t' := by
  obtain ⟨-, holding, -, rfl⟩ := post_eq_ok_iff.1 h
  have hr : b.Registers (b.posted t holding) := .of_eq rfl
  exact ht'.mono hr (length_accounts_posted b t holding).ge
    (fun id _ => allowed_posted ht.account holding id) rfl

theorem Filed.mono (hr : b.Registers b') {id : AccountId}
    (hallowed : (b'.account id).allowed = (b.account id).allowed) {lot c : String} {h : Holding}
    (hf : b.Filed id lot c h) : b'.Filed id lot c h := by
  refine ⟨hf.lot, hf.commodity, hr.contains hf.registered, ?_, hf.rate.mono hr⟩
  have := hf.allowed
  simp only [Account.allows] at this ⊢
  rwa [hallowed]

namespace Coherent

/-- A change that leaves lots alone, and drafts but for bindings and comments, keeps a book coherent. -/
theorem congr (hb : Coherent b) (hr : b.Registers b') (hlots : b'.lots = b.lots)
    (hlength : b.accounts.length ≤ b'.accounts.length)
    (hallowed : ∀ id, id < b.accounts.length → (b'.account id).allowed = (b.account id).allowed)
    (hdrafts : b'.transfers.map Transfer.unbound = b.transfers.map Transfer.unbound) :
    Coherent b' := by
  have hheld := held_congr hlots
  have hhas := hasLot_congr hlots
  refine ⟨fun id => hhas id _ ▸ hb.default id, ?_, ?_, hr.named hb.commodities, ?_⟩
  · intro id lot hne h
    obtain ⟨c, held, hheld'⟩ := hb.named id lot hne (hhas id lot ▸ h)
    exact ⟨c, held, (hheld id lot c).trans hheld'⟩
  · intro id lot c h hh
    rw [hheld] at hh
    exact (hb.filed id lot c h hh).mono hr (hallowed id (lt_of_held hh))
  · intro t ht
    have hmem := List.mem_map_of_mem (f := Transfer.unbound) ht
    rw [hdrafts] at hmem
    obtain ⟨t₀, ht₀, hunbound⟩ := List.mem_map.1 hmem
    exact (hb.drafts t₀ ht₀).mono hr hlength hallowed hunbound.symm

theorem quiet (hb : Coherent b) (hr : b.Registers b') (h : b.Quiet b') : Coherent b' :=
  hb.congr hr h.lots_eq h.length_accounts.ge (fun id _ => h.allowed id) h.transfers

theorem advance {date : Date} (hb : Coherent b) (h : b.advance date = .ok b') : Coherent b' := by
  obtain ⟨-, rfl⟩ := advance_ok h
  exact hb.congr (.of_eq rfl) rfl (Nat.le_refl _) (fun _ _ => rfl) rfl

theorem openAccount {name : String} {allowed : List String} (hb : Coherent b)
    (h : b.openAccount name allowed = .ok b') : Coherent b' := by
  have hlots := lots_openAccount h
  obtain ⟨-, rfl⟩ := openAccount_ok h
  refine hb.congr (.of_eq rfl) hlots ?_ ?_ rfl
  · rw [length_opening]
    exact Nat.le_succ _
  · intro id hid
    rw [account_opening, if_neg (Nat.ne_of_lt hid)]

theorem closeAccount {id : AccountId} (hb : Coherent b) (hid : id < b.accounts.length) :
    Coherent (b.closeAccount id) := by
  refine hb.congr (.of_eq rfl) (lots_closeAccount b id) (List.length_modify _ _ _).ge ?_ rfl
  intro i _
  rw [account_closeAccount hid]
  split <;> rfl

/-- A lot that is closed takes its entries with it. -/
theorem closeLot {id : AccountId} {lot : String} (hb : Coherent b) (hid : id < b.accounts.length)
    (hlot : lot ≠ defaultLot) : Coherent (b.closeLot id lot) := by
  have hget := get?_lots_closeLot hid lot
  have hallowed : ∀ i, ((b.closeLot id lot).account i).allowed = (b.account i).allowed := fun i => by
    rw [account_closeLot hid]
    split <;> rfl
  have hr : b.Registers (b.closeLot id lot) := .of_eq rfl
  refine ⟨?_, ?_, ?_, hb.commodities, ?_⟩
  · intro i
    rw [hasLot_eq, Table.contains, hget, if_neg fun hk => hlot hk.2.symm]
    exact hb.default i
  · intro i l hne h
    rw [hasLot_eq, Table.contains, hget] at h
    split at h
    · cases h
    · next hk =>
        obtain ⟨c, holding, hheld⟩ := hb.named i l hne h
        refine ⟨c, holding, ?_⟩
        rw [held_eq, hget, if_neg hk]
        exact hheld
  · intro i l c h hh
    rw [held_eq, hget] at hh
    split at hh
    · cases hh
    · exact (hb.filed i l c h hh).mono hr (hallowed i)
  · intro t ht
    exact (hb.drafts t ht).mono hr (List.length_modify _ _ _).ge (fun i _ => hallowed i) rfl

theorem record (hb : Coherent b) (e : Event) : Coherent (b.record e) :=
  hb.congr (.of_eq rfl) rfl (Nat.le_refl _) (fun _ _ => rfl) rfl

theorem draft {t : Transfer} (hb : Coherent b) (ht : b.Fits t) : Coherent (b.draft t) := by
  have hr : b.Registers (b.draft t) := .of_eq rfl
  have hfits : ∀ t', b.Fits t' → (b.draft t).Fits t' := fun t' h =>
    h.mono hr (Nat.le_refl _) (fun _ _ => rfl) rfl
  refine ⟨hb.default, hb.named, fun id lot c h hh => ?_, hb.commodities, ?_⟩
  · exact (hb.filed id lot c h hh).mono hr rfl
  · intro t' ht'
    rcases List.mem_append.1 ht' with ht' | ht'
    · exact hfits t' (hb.drafts t' ht')
    · cases List.mem_singleton.1 ht'
      exact hfits t ht

end Coherent

/-- What is received is kept under the names of lot and commodity that the first transfer had. -/
theorem receive_filed {t : Transfer} {h : Holding} (ht : b.Fits t)
    (hfiled : ∀ h₀, b.held t.account t.lot t.quantity.commodity = some h₀ →
      b.Filed t.account t.lot t.quantity.commodity h₀)
    (hr : b.receive t (b.held t.account t.lot t.quantity.commodity) = .ok h) :
    b.Filed t.account t.lot t.quantity.commodity h := by
  simp only [receive] at hr
  cases hheld : b.held t.account t.lot t.quantity.commodity with
  | none =>
      rw [hheld] at hr
      cases hr
      exact ⟨rfl, rfl, ht.commodity, ht.allowed, ht.rate⟩
  | some h₀ =>
      rw [hheld] at hr
      dsimp only at hr
      obtain ⟨hlot, hcommodity, hregistered, hallowed, hrate⟩ := hfiled h₀ hheld
      cases hadd : h₀.add t.quantity.amount with
      | none => rw [hadd] at hr; cases hr
      | some h₁ =>
          rw [hadd] at hr
          cases hr
          obtain ⟨total, -, rfl⟩ := Option.map_eq_some_iff.1 hadd
          exact ⟨hlot, hcommodity, hregistered, hallowed, hrate⟩

namespace Coherent

theorem post {t : Transfer} (hb : Coherent b) (ht : b.Fits t) (h : b.post t = .ok b') : Coherent b' := by
  have hposted := h
  obtain ⟨-, holding, hreceive, rfl⟩ := post_eq_ok_iff.1 hposted
  have hr : b.Registers (b.posted t holding) := .of_eq rfl
  have hallowed := allowed_posted ht.account holding
  refine ⟨?_, ?_, ?_, hb.commodities, fun t' ht' => (hb.drafts t' ht').post ht h⟩
  · intro id
    rw [hasLot_posted ht.account, hb.default id, Bool.true_or]
  · intro id lot hne hlot
    by_cases hk : id = t.account ∧ lot = t.lot
    · refine ⟨t.quantity.commodity, holding, ?_⟩
      rw [held_posted ht.account, if_pos ⟨hk.1, hk.2, rfl⟩]
    · -- a lot other than that of the posting was there before, and keeps what it held
      rw [hasLot_posted ht.account] at hlot
      have hwas : b.hasLot id lot = true := by simpa [hk] using hlot
      obtain ⟨c, h₀, hheld⟩ := hb.named id lot hne hwas
      exact ⟨c, h₀, by rw [held_posted ht.account, if_neg fun e => hk ⟨e.1, e.2.1⟩, hheld]⟩
  · intro id lot c h' hh
    rw [held_posted ht.account] at hh
    split at hh
    · next hk =>
        obtain ⟨rfl, rfl, rfl⟩ := hk
        cases hh
        exact (receive_filed ht (hb.filed _ _ _) hreceive).mono hr (hallowed _)
    · exact (hb.filed id lot c h' hh).mono hr (hallowed id)

/-- A transaction of transfers that fit keeps a book coherent, also where it breaks off. -/
theorem apply {x : Transaction} {r : Except Fault Unit} (hb : Coherent b)
    (hx : ∀ t ∈ x.transfers.map b.transfer, b.Fits t) (h : x.apply.on b = (r, b')) : Coherent b' := by
  let P (c : Book) : Prop := Coherent c ∧ ∀ t ∈ x.transfers.map b.transfer, c.Fits t
  have hkept : P b' := by
    refine Transaction.apply_induction (P := P) ?_ ?_ h ⟨hb, hx⟩
    · rintro - c c' t ht hpost ⟨hc, hts⟩
      exact ⟨hc.post (hts t ht) hpost, fun t' ht' => (hts t' ht').post (hts t ht) hpost⟩
    · rintro c e ⟨hc, hts⟩
      have hr : c.Registers (c.record e) := .of_eq rfl
      exact ⟨hc.record e, fun t ht => (hts t ht).mono hr le_rfl (fun _ _ => rfl) rfl⟩
  exact hkept.1

/-- Drafts fit, by their numbers. -/
theorem fits (hb : Coherent b) {id : TransferId} (hid : id < b.transfers.length) :
    b.Fits (b.transfer id) := by
  refine hb.drafts _ ?_
  simp only [transfer]
  rw [List.getD_eq_getElem _ _ hid]
  exact List.getElem_mem hid

end Coherent

theorem Admits.fits {t : Transfer} (h : b.Admits t) : b.Fits t := by
  obtain ⟨name, hid⟩ := h.account
  exact ⟨lt_of_findOpen hid, h.commodity, h.allowed, h.rate⟩

/-- The transfers that a transaction takes lie on the stack, so they fit if the drafts there do. -/
theorem Coherent.fits_taken {ops rest : Operands} {o : Words.TransactionOperands} {x : Transaction}
    (hb : Coherent b) (hids : ∀ id ∈ ops.transferIds, id < b.transfers.length)
    (hops : Words.takeTransaction ops = .ok (o, rest)) (hx : Words.draftTransaction b o = .ok x) :
    ∀ t ∈ x.transfers.map b.transfer, b.Fits t := by
  intro t ht
  obtain ⟨id, hid, rfl⟩ := List.mem_map.1 ht
  rw [Words.transfers_draftTransaction hx] at hid
  refine hb.fits (hids id ((Words.transferIds_takeTransaction hops).subset ?_))
  exact List.mem_append_left _ (List.mem_reverse.2 hid)

/-- **Every deed keeps a book coherent**, if the transfers among its operands are drafts. -/
theorem Coherent.deed {d d' : Desk Book} (hb : Coherent d.context)
    (hids : ∀ id ∈ d.operands.transferIds, id < d.context.transfers.length) (h : Deed d d') :
    Coherent d'.context := by
  have hr := h.registers
  cases h with
  | taken => exact hb
  | advanced _ _ h => exact hb.advance h
  | registered _ h => exact hb.quiet hr (quiet_register h)
  | opened _ _ _ h => exact hb.openAccount h
  | closed _ hid => exact hb.closeAccount (lt_of_findOpen hid)
  | lotClosed _ hid hlot => exact hb.closeLot (lt_of_findOpen hid) hlot
  | annotated notes => exact hb.quiet hr (.foldl (fun b _ => b.quiet_annotate _ _ _) notes _)
  | tagged tags => exact hb.quiet hr (.foldl (fun b tag => b.quiet_tag _ tag) tags _)
  | untagged tags => exact hb.quiet hr (.foldl (fun b tag => b.quiet_untag _ tag) tags _)
  | drafted _ ht => exact hb.draft ht.fits
  | bound => exact hb.quiet hr (quiet_bindLot _ _ _)
  | boundNew => exact hb.quiet hr ((quiet_bindLot _ _ _).trans (quiet_letCreate _ _))
  | commented => exact hb.quiet hr (quiet_setComment _ _ _)
  | applied hops hx h => exact hb.apply (hb.fits_taken hids hops hx) h
  | brokenOff hops hx h => exact hb.apply (hb.fits_taken hids hops hx) h

/-- A token keeps a book coherent, if the transfers on the stack are drafts. -/
theorem Coherent.step {m : Machine Book} (hb : Coherent m.context)
    (hids : ∀ id ∈ m.stack.transferIds, id < m.context.transfers.length) (t : Token) :
    Coherent (m.step .core t).2.context :=
  Machine.step_keeps hb
    (fun _ hd => hb.deed (fun id hid => hids id (m.transferIds_visible_subset hid)) hd) t

/-- Every book of a run is coherent. -/
theorem coherent_after (ts : List Token) : Coherent (after ts) := by
  -- the transfers on the stack are drafts all along
  refine (Machine.after_induction (I := fun m => Coherent m.context
    ∧ m.context.UsedOnce m.stack.transferIds) ⟨coherent_empty, .empty⟩ ?_ ts).1
  rintro m t ⟨hb, hids⟩
  exact ⟨hb.step (fun id hid => hids.drafted id (List.mem_append_right _ hid)) t,
    hids.turn (m.step_turn t)⟩

/-- What is registered stays so in every run. -/
theorem registers_after_append (ts ts' : List Token) : (after ts).Registers (after (ts ++ ts')) := by
  rw [after_eq, after_eq, Machine.after_append]
  refine Machine.feed_induction (P := fun m => (Machine.after ts).context.Registers m.context) ?_ ts'
    (.of_eq rfl)
  exact fun m t hm => Machine.step_keeps hm (fun _ hd => hm.trans hd.registers) t

/-- **The books of a run are coherent, keep their commodities, and draft what fits.**  In every book to
which tokens lead, whatever came of each, entries and drafts fit what has been registered and opened, and
commodities stay as they were registered, but for their tags; the transfers on the stack are drafts. -/
theorem store_coherent :
    (∀ ts, Coherent (after ts))
      ∧ (∀ ts ts' name c, (after ts).commodities.get? name = some c →
          ∃ tags, (after (ts ++ ts')).commodities.get? name = some { c with tags })
      ∧ ∀ ts, ∀ id ∈ (Machine.after ts).stack.transferIds,
          id < (after ts).transfers.length ∧ Fits (after ts) ((after ts).transfer id) := by
  refine ⟨coherent_after, fun ts ts' => (registers_after_append ts ts').kept, ?_⟩
  intro ts id hid
  have hlt := (Machine.usedOnce_after ts).drafted id (List.mem_append_right _ hid)
  exact ⟨hlt, (coherent_after ts).fits hlt⟩

/-- A run with an account that allows one commodity, into a lot of which a quantity is exchanged; at its
end one more transfer lies on the stack. -/
def exchanging : List Token :=
  ["U", "d", "commodity", "E", "e", "commodity", "Assets:A", "U", "open", "Equity", "open",
    "x", "y", "Assets:A", "5", "U", "2", "E", "10", "E", "xfer-exch", "L", "create-lot",
    "Equity", "-10", "E", "xfer", "xact", "U", "t", "tag-commodity",
    "Assets:A", "1", "U", "xfer"].map .word

/-- What the run has filed in the lot, and the transfer that it has left on the stack. -/
theorem store_coherent_exchanging :
    (∃ h, (after exchanging).held 0 "L" "U" = some h ∧ (after exchanging).Filed 0 "L" "U" h
        ∧ h.rate = some ⟨⟨⟨false, 2, 0⟩, "E"⟩, ⟨⟨false, 10, 0⟩, "E"⟩⟩)
      ∧ (∃ tags, (after exchanging).commodities.get? "U" = some ⟨"U", "d", .zero, tags⟩)
      ∧ (Machine.after exchanging).stack.transferIds = [2]
      ∧ Fits (after exchanging) ((after exchanging).transfer 2) := by
  have hheld : ((after exchanging).held 0 "L" "U").map (·.rate)
      = some (some ⟨⟨⟨false, 2, 0⟩, "E"⟩, ⟨⟨false, 10, 0⟩, "E"⟩⟩) := by decide +kernel
  have hstack : (Machine.after exchanging).stack.transferIds = [2] := by decide +kernel
  have hregistered : (after (exchanging.take 3)).commodities.get? "U" = some ⟨"U", "d", .zero, ∅⟩ := by
    decide +kernel
  obtain ⟨h, hh, hrate⟩ := Option.map_eq_some_iff.1 hheld
  refine ⟨⟨h, hh, (store_coherent.1 exchanging).filed 0 "L" "U" h hh, hrate⟩, ?_, hstack, ?_⟩
  · exact store_coherent.2.1 (exchanging.take 3) (exchanging.drop 3) "U" _ hregistered
  · exact (store_coherent.2.2 exchanging 2 (by rw [hstack]; exact List.mem_singleton_self 2)).2

end Book

end Daybook
