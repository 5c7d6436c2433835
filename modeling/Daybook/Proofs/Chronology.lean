import Daybook.Proofs.Frozen

/-!
# Chronology — dates are in order

Whatever has a date has it from the clock at the time of writing: commodities at their registration,
accounts at their opening and closing, entries at the first transfer.  The clock moves to calendar days and
not back, names are looked up before they are written down, and an account is written to only while it is
open.  So the dates of a book are in the order of what happened, although a transfer may be drafted long
before it is applied, and an account may be closed and opened again on one day.

* `EntryTimely`, `AccountTimely`, `Timely`: dates in order, of an entry, of an account and of a book.
* `Later`, `Deed.later`: no deed puts back the clock, or takes back what was registered.
* `Timely.deed`: **every deed keeps the dates of a book in order**.
* `chronology`: so they are in order in every run.
-/

namespace Daybook

theorem Date.le_refl (d : Date) : d ≤ d := .inr rfl

/-- Three numbers that are read as a day are one. -/
theorem Words.isDay_of_asDay {date date' : Date} (h : asDay date = .ok date') :
    Calendar.IsDay date' := by
  simp only [asDay] at h
  split at h
  · cases h
  split at h
  · cases h
  · next hcheck =>
      cases h
      exact (Calendar.check_eq_none_iff date).1 hcheck

namespace Book

/-! ### Dates in order -/

/-- The date on which a commodity was registered. -/
def registeredOn (b : Book) (name : String) : Option Date := (b.commodities.get? name).map (·.registered)

/-- A commodity was registered on a date or before. -/
def RegisteredBy (b : Book) (date : Date) (name : String) : Prop :=
  ∃ d, b.registeredOn name = some d ∧ d ≤ date

/-- An entry that was made while its account was open, in commodities that had been registered. -/
structure EntryTimely (b : Book) (a : Account) (h : Holding) : Prop where
  opened : a.opened ≤ h.opened
  closed : ∀ d, a.closed = some d → h.opened ≤ d
  clock : h.opened ≤ b.date
  commodity : b.RegisteredBy h.opened h.balance.commodity
  rate : ∀ r, h.rate = some r → b.RegisteredBy h.opened r.unitPrice.commodity
    ∧ b.RegisteredBy h.opened r.totalPrice.commodity

/-- An account that was opened for commodities that had been registered, was closed after that if it is
closed, and has entries that were made in between. -/
structure AccountTimely (b : Book) (a : Account) : Prop where
  opened : a.opened ≤ b.date
  closed : ∀ d, a.closed = some d → a.opened ≤ d ∧ d ≤ b.date
  allowed : ∀ name, a.allowed.contains name = true → b.RegisteredBy a.opened name
  entries : ∀ lot c h, a.holding? lot c = some h → b.EntryTimely a h

/-- A book with its dates in order: the clock shows its start or a calendar day, nothing was written after
that, and an account was closed before another one was opened under its name. -/
structure Timely (b : Book) : Prop where
  clock : b.date = .zero ∨ Calendar.IsDay b.date
  registered : ∀ name d, b.registeredOn name = some d → d ≤ b.date
  accounts : ∀ id, id < b.accounts.length → b.AccountTimely (b.account id)
  superseded : ∀ i j, i < j → j < b.accounts.length → (b.account i).name = (b.account j).name →
    ∃ d, (b.account i).closed = some d ∧ d ≤ (b.account j).opened

variable {b b' : Book}

theorem timely_empty : Timely .empty where
  clock := .inl rfl
  registered _ _ h := by cases h
  accounts _ h := absurd h (Nat.not_lt_zero _)
  superseded _ _ _ h := absurd h (Nat.not_lt_zero _)

theorem registeredBy_of_contains (hb : Timely b) {name : String}
    (h : b.commodities.contains name = true) : b.RegisteredBy b.date name := by
  obtain ⟨c, hc⟩ := Option.isSome_iff_exists.1 h
  have hon : b.registeredOn name = some c.registered := by
    simp only [registeredOn]
    rw [hc]
    rfl
  exact ⟨_, hon, hb.registered name _ hon⟩

/-! ### The clock and what is registered -/

/-- A book whose clock is no earlier, and shows a calendar day if it has moved.  What was registered stays
so, and what has been registered since has a date no later than the clock. -/
structure Later (b b' : Book) : Prop where
  date : b.date ≤ b'.date
  clock : b'.date = b.date ∨ Calendar.IsDay b'.date
  kept : ∀ name d, b.registeredOn name = some d → b'.registeredOn name = some d
  registered : (∀ name d, b.registeredOn name = some d → d ≤ b.date) →
    ∀ name d, b'.registeredOn name = some d → d ≤ b'.date

theorem Later.of_eq (hdate : b'.date = b.date) (h : b'.registeredOn = b.registeredOn) : b.Later b' where
  date := .inr hdate.symm
  clock := .inl hdate
  kept _ _ hd := h ▸ hd
  registered hb := h ▸ hdate ▸ hb

theorem registeredOn_updateTags (b : Book) (e : Entity) (f : NameSet → NameSet) :
    (b.updateTags e f).registeredOn = b.registeredOn := by
  cases e with
  | account id => rfl
  | commodity name =>
      simp only [updateTags, updateCommodity]
      split
      · rfl
      · next c hc =>
          funext n
          show ((b.commodities.insert name _).get? n).map _ = (b.commodities.get? n).map _
          rw [Catalogue.get?_insert]
          by_cases hn : n = name
          · rw [if_pos hn, hn, hc]
            rfl
          · rw [if_neg hn]

theorem registeredOn_annotate (b : Book) (id : AccountId) (name note : String) :
    (b.annotate id name note).registeredOn = b.registeredOn := rfl

theorem registeredOn_tag (b : Book) (e : Entity) (tag : String) :
    (b.tag e tag).registeredOn = b.registeredOn := by
  simp only [Book.tag]
  exact registeredOn_updateTags _ e _

theorem registeredOn_untag (b : Book) (e : Entity) (tag : String) :
    (b.untag e tag).registeredOn = b.registeredOn := by
  simp only [Book.untag]
  exact registeredOn_updateTags _ e _

theorem later_advance {date : Date} (hday : Calendar.IsDay date) (h : b.advance date = .ok b') :
    b.Later b' := by
  obtain ⟨hlt, rfl⟩ := advance_ok h
  have hle := Date.not_lt.1 hlt
  exact ⟨hle, .inr hday, fun _ _ hd => hd, fun hb name d hd => Date.le_trans (hb name d hd) hle⟩

theorem registeredOn_register {name description : String} (h : b.register name description = .ok b')
    (n : String) : b'.registeredOn n = if n = name then some b.date else b.registeredOn n := by
  obtain ⟨-, rfl⟩ := register_ok h
  simp only [registeredOn, record]
  rw [Catalogue.get?_insert]
  split <;> rfl

theorem later_register {name description : String} (h : b.register name description = .ok b') :
    b.Later b' := by
  have hon := registeredOn_register h
  obtain ⟨hfree, hb'⟩ := register_ok h
  have hdate : b'.date = b.date := by rw [hb', record]
  refine ⟨.inr hdate.symm, .inl hdate, ?_, ?_⟩
  · intro n d hd
    -- the name that is new was not registered before
    have hne : n ≠ name := by
      rintro rfl
      simp only [registeredOn] at hd
      rw [hfree] at hd
      cases hd
    rw [hon, if_neg hne, hd]
  · intro hb n d hd
    rw [hon] at hd
    rw [hdate]
    split at hd
    · cases hd
      exact Date.le_refl _
    · exact hb n d hd

theorem later_apply {x : Transaction} {r : Except Fault Unit} (h : x.apply.on b = (r, b')) :
    b.Later b' := by
  have hkept := unlotted_apply h
  have hdate : b'.date = b.date := congrArg (·.date) hkept
  have hcommodities : b'.commodities = b.commodities := congrArg (·.commodities) hkept
  refine .of_eq hdate (funext fun name => ?_)
  simp only [registeredOn]
  rw [hcommodities]

end Book

/-- **No deed puts back the clock**, or takes back what was registered. -/
theorem Deed.later {d d' : Desk Book} (h : Deed d d') : d.context.Later d'.context := by
  cases h with
  | taken => exact .of_eq rfl rfl
  | advanced _ hday hb => exact Book.later_advance (Words.isDay_of_asDay hday) hb
  | registered _ hb => exact Book.later_register hb
  | opened _ _ _ hb =>
      obtain ⟨-, rfl⟩ := Book.openAccount_ok hb
      exact .of_eq rfl rfl
  | closed => exact .of_eq rfl rfl
  | lotClosed => exact .of_eq rfl rfl
  | annotated notes =>
      exact .of_eq (Book.Quiet.foldl (fun b _ => b.quiet_annotate _ _ _) notes _).date
        (Book.foldl_keeps Book.registeredOn (fun b note => b.registeredOn_annotate _ note.1 note.2) notes _)
  | tagged tags =>
      exact .of_eq (Book.Quiet.foldl (fun b tag => b.quiet_tag _ tag) tags _).date
        (Book.foldl_keeps Book.registeredOn (fun b tag => b.registeredOn_tag _ tag) tags _)
  | untagged tags =>
      exact .of_eq (Book.Quiet.foldl (fun b tag => b.quiet_untag _ tag) tags _).date
        (Book.foldl_keeps Book.registeredOn (fun b tag => b.registeredOn_untag _ tag) tags _)
  | drafted => exact .of_eq rfl rfl
  | bound => exact .of_eq rfl rfl
  | boundNew => exact .of_eq rfl rfl
  | commented => exact .of_eq rfl rfl
  | applied _ _ hb => exact Book.later_apply hb
  | brokenOff _ _ hb => exact Book.later_apply hb

namespace Book

variable {b b' : Book}

/-! ### Accounts and entries later on -/

theorem RegisteredBy.later (hl : b.Later b') {date : Date} {name : String}
    (h : b.RegisteredBy date name) : b'.RegisteredBy date name :=
  h.imp fun _ hd => hd.imp_left (hl.kept name _)

theorem EntryTimely.later (hl : b.Later b') {a : Account} {h : Holding} (he : b.EntryTimely a h) :
    b'.EntryTimely a h where
  opened := he.opened
  closed := he.closed
  clock := Date.le_trans he.clock hl.date
  commodity := he.commodity.later hl
  rate r hr := (he.rate r hr).imp (.later hl) (.later hl)

/-- An entry depends on no more of its account than when that was opened and closed. -/
theorem EntryTimely.congr {a a' : Account} {h : Holding} (he : b.EntryTimely a h)
    (hopened : a'.opened = a.opened) (hclosed : a'.closed = a.closed) : b.EntryTimely a' h where
  opened := hopened ▸ he.opened
  closed := hclosed ▸ he.closed
  clock := he.clock
  commodity := he.commodity
  rate := he.rate

theorem AccountTimely.later (hl : b.Later b') {a : Account} (ha : b.AccountTimely a) :
    b'.AccountTimely a where
  opened := Date.le_trans ha.opened hl.date
  closed d hd := (ha.closed d hd).imp_right fun h => Date.le_trans h hl.date
  allowed name hname := (ha.allowed name hname).later hl
  entries lot c h hh := (ha.entries lot c h hh).later hl

/-- Tags and notes have no dates. -/
theorem AccountTimely.congr {a a' : Account} (h : a'.unmarked = a.unmarked) (ha : b.AccountTimely a) :
    b.AccountTimely a' := by
  obtain ⟨name, opened, closed, allowed, tags, notes, lots⟩ := a
  obtain ⟨name', opened', closed', allowed', tags', notes', lots'⟩ := a'
  simp only [Account.unmarked, Account.mk.injEq] at h
  obtain ⟨-, rfl, rfl, rfl, -, -, rfl⟩ := h
  exact ⟨ha.opened, ha.closed, ha.allowed, fun lot c h hh => (ha.entries lot c h hh).congr rfl rfl⟩

namespace Timely

/-- A change that opens nothing, leaves closed what was closed, and keeps the dates of each account in
order. -/
theorem of_accounts (hb : Timely b) (hl : b.Later b') (hlength : b'.accounts.length = b.accounts.length)
    (hname : ∀ id, (b'.account id).name = (b.account id).name)
    (hopened : ∀ id, (b'.account id).opened = (b.account id).opened)
    (hclosed : ∀ id d, (b.account id).closed = some d → (b'.account id).closed = some d)
    (haccounts : ∀ id, id < b.accounts.length → b'.AccountTimely (b'.account id)) : Timely b' where
  clock := hl.clock.elim (fun h => h ▸ hb.clock) .inr
  registered := hl.registered hb.registered
  accounts id hid := haccounts id (hlength ▸ hid)
  superseded i j hij hj hnames := by
    rw [hname, hname] at hnames
    obtain ⟨d, hd, hle⟩ := hb.superseded i j hij (hlength ▸ hj) hnames
    exact ⟨d, hclosed i d hd, (hopened j).symm ▸ hle⟩

theorem quiet (hb : Timely b) (hl : b.Later b') (h : b.Quiet b') : Timely b' :=
  hb.of_accounts hl h.length_accounts h.name h.opened (fun id _ hd => (h.closed id).trans hd) fun id hid =>
    ((hb.accounts id hid).later hl).congr (h.account id)

/-- A change of nothing but the clock and what is registered. -/
theorem same (hb : Timely b) (hl : b.Later b') (h : b'.accounts = b.accounts) : Timely b' := by
  have haccount : ∀ id, b'.account id = b.account id := fun id => congrArg (·.getD id default) h
  refine hb.of_accounts hl (congrArg List.length h) ?_ ?_ ?_ ?_
  · exact fun id => congrArg Account.name (haccount id)
  · exact fun id => congrArg Account.opened (haccount id)
  · exact fun id d hd => (congrArg Account.closed (haccount id)).trans hd
  · intro id hid
    rw [haccount]
    exact (hb.accounts id hid).later hl

/-- A change of one account that keeps its dates in order, and leaves alone its name and what it has of dates
already. -/
theorem update {f : Account → Account} {id : AccountId} (hb : Timely b) (hl : b.Later b')
    (hlength : b'.accounts.length = b.accounts.length)
    (haccount : ∀ i, b'.account i = if i = id then f (b.account i) else b.account i)
    (hname : (f (b.account id)).name = (b.account id).name)
    (hopened : (f (b.account id)).opened = (b.account id).opened)
    (hclosed : ∀ d, (b.account id).closed = some d → (f (b.account id)).closed = some d)
    (hf : b'.AccountTimely (b.account id) → b'.AccountTimely (f (b.account id))) : Timely b' := by
  have hcases : ∀ i, i = id ∧ b'.account i = f (b.account id) ∨ b'.account i = b.account i := fun i => by
    rw [haccount]
    split
    · next hi => exact .inl ⟨hi, by rw [hi]⟩
    · exact .inr rfl
  refine hb.of_accounts hl hlength ?_ ?_ ?_ ?_
  · intro i
    rcases hcases i with ⟨rfl, hi⟩ | hi
    · rw [hi, hname]
    · rw [hi]
  · intro i
    rcases hcases i with ⟨rfl, hi⟩ | hi
    · rw [hi, hopened]
    · rw [hi]
  · intro i d hd
    rcases hcases i with ⟨rfl, hi⟩ | hi
    · rw [hi, hclosed d hd]
    · rw [hi, hd]
  · intro i hlt
    have hold := (hb.accounts i hlt).later hl
    rcases hcases i with ⟨rfl, hi⟩ | hi
    · rw [hi]
      exact hf hold
    · rw [hi]
      exact hold

/-- A new account is opened on the date of the clock, for commodities that have been registered. -/
theorem accountTimely_new {name : String} {allowed : List String} (hb : Timely b)
    (hallowed : ∀ c ∈ allowed, b.commodities.contains c = true) :
    b.AccountTimely (.new name b.date (.ofList allowed)) where
  opened := Date.le_refl _
  closed d hd := by cases hd
  allowed c hc := by
    have hmem : c ∈ allowed := NameSet.mem_names_ofList.1 (NameSet.mem_names_iff.2 hc)
    exact registeredBy_of_contains hb (hallowed c hmem)
  entries lot c h hh := by
    rw [Account.holding?_new] at hh
    cases hh

/-- The accounts of a name that is free have been closed by the date of the clock. -/
theorem closed_of_free {name : String} (hb : Timely b) (ho : Orderly b)
    (hfree : ∀ id, b.current? name = some id → b.isClosed id = true) {id : AccountId}
    (hid : id < b.accounts.length) (hname : (b.account id).name = name) :
    ∃ d, (b.account id).closed = some d ∧ d ≤ b.date := by
  have hclosed : (b.account id).closed ≠ none := by
    cases hcurrent : b.isCurrent id with
    | false => exact ho.superseded id hid hcurrent
    | true => exact (ho.isClosed_iff id).1 (hfree id (hname ▸ beq_iff_eq.1 hcurrent))
  obtain ⟨d, hd⟩ := Option.ne_none_iff_exists'.1 hclosed
  exact ⟨d, hd, ((hb.accounts id hid).closed d hd).2⟩

theorem opening {name : String} {allowed : List String} (hb : Timely b) (ho : Orderly b)
    (hfree : ∀ id, b.current? name = some id → b.isClosed id = true)
    (hallowed : ∀ c ∈ allowed, b.commodities.contains c = true) : Timely (b.opening name allowed) := by
  have hl : b.Later (b.opening name allowed) := .of_eq rfl rfl
  have haccount := b.account_opening name allowed
  have hbefore : ∀ i, i < (b.opening name allowed).accounts.length → i ≠ b.accounts.length →
      i < b.accounts.length := fun i hi hne => by
    rw [length_opening] at hi
    exact Nat.lt_of_le_of_ne (Nat.lt_succ_iff.1 hi) hne
  refine ⟨hb.clock, hb.registered, ?_, ?_⟩
  · intro id hid
    rw [haccount]
    split
    · exact (hb.accountTimely_new hallowed).later hl
    · next hne => exact (hb.accounts id (hbefore id hid hne)).later hl
  · intro i j hij hj hnames
    have hi : i < b.accounts.length := by
      rw [length_opening] at hj
      exact Nat.lt_of_lt_of_le hij (Nat.lt_succ_iff.1 hj)
    rw [haccount i, if_neg (Nat.ne_of_lt hi), haccount j] at hnames ⊢
    split at hnames
    · next hnew =>
        rw [if_pos hnew]
        exact hb.closed_of_free ho hfree hi hnames
    · next hold =>
        rw [if_neg hold]
        exact hb.superseded i j hij (hbefore j hj hold) hnames

/-- An account is closed on the date of the clock, after all of its entries. -/
theorem closeAccount {id : AccountId} (hb : Timely b) (hid : id < b.accounts.length)
    (hopen : (b.account id).closed = none) : Timely (b.closeAccount id) := by
  refine hb.update (f := fun a => { a with closed := some b.date }) (.of_eq rfl rfl)
    (List.length_modify _ _ _) (account_closeAccount hid) rfl rfl ?_ ?_
  · intro d hd
    rw [hopen] at hd
    cases hd
  · intro hold
    refine ⟨hold.opened, ?_, hold.allowed, ?_⟩
    · rintro d hd
      cases hd
      exact ⟨hold.opened, Date.le_refl _⟩
    · intro lot c h hh
      have he := hold.entries lot c h hh
      refine ⟨he.opened, ?_, he.clock, he.commodity, he.rate⟩
      rintro d hd
      cases hd
      exact he.clock

/-- What is left when a lot is closed was there before. -/
theorem closeLot {id : AccountId} (hb : Timely b) (hid : id < b.accounts.length) (lot : String) :
    Timely (b.closeLot id lot) := by
  refine hb.update (f := fun a => { a with lots := a.lots.erase lot }) (.of_eq rfl rfl)
    (List.length_modify _ _ _) (account_closeLot hid lot) rfl rfl (fun _ hd => hd) ?_
  intro hold
  refine ⟨hold.opened, hold.closed, hold.allowed, ?_⟩
  intro l c h hh
  have hwas : (b.account id).holding? l c = some h := by
    simp only [Account.holding?] at hh ⊢
    rw [Table.get?_erase] at hh
    split at hh
    · cases hh
    · exact hh
  exact (hold.entries l c h hwas).congr rfl rfl

/-- What an open account receives is an entry of the date of the clock, or an earlier one goes on. -/
theorem entryTimely_receive {t : Transfer} {h : Holding} (hb : Timely b) (ht : b.Fits t)
    (hopen : (b.account t.account).closed = none)
    (hr : b.receive t (b.held t.account t.lot t.quantity.commodity) = .ok h) :
    b.EntryTimely (b.account t.account) h := by
  have ha := hb.accounts t.account ht.account
  simp only [Book.receive] at hr
  cases hheld : b.held t.account t.lot t.quantity.commodity with
  | none =>
      rw [hheld] at hr
      cases hr
      refine ⟨ha.opened, ?_, Date.le_refl _, registeredBy_of_contains hb ht.commodity, ?_⟩
      · intro d hd
        rw [hopen] at hd
        cases hd
      · exact fun r hrate => (ht.rate r hrate).imp (registeredBy_of_contains hb) (registeredBy_of_contains hb)
  | some h₀ =>
      rw [hheld] at hr
      dsimp only at hr
      obtain ⟨hopened, hclosed, hclock, hcommodity, hrate⟩ := ha.entries _ _ h₀ hheld
      cases hadd : h₀.add t.quantity.amount with
      | none => rw [hadd] at hr; cases hr
      | some h₁ =>
          rw [hadd] at hr
          cases hr
          obtain ⟨total, -, rfl⟩ := Option.map_eq_some_iff.1 hadd
          exact ⟨hopened, hclosed, hclock, hcommodity, hrate⟩

theorem post {t : Transfer} (hb : Timely b) (ht : b.Fits t)
    (hopen : (b.account t.account).closed = none) (h : b.post t = .ok b') : Timely b' := by
  obtain ⟨-, holding, hreceive, rfl⟩ := post_eq_ok_iff.1 h
  have hl : b.Later (b.posted t holding) := .of_eq rfl rfl
  refine hb.update (f := (·.keep t.lot t.quantity.commodity holding)) hl
    (length_accounts_posted b t holding) (account_posted ht.account holding) rfl rfl (fun _ hd => hd) ?_
  intro hold
  refine ⟨hold.opened, hold.closed, hold.allowed, ?_⟩
  intro lot c h' hh
  rw [Account.holding?_keep] at hh
  split at hh
  · cases hh
    exact ((hb.entryTimely_receive ht hopen hreceive).later hl).congr rfl rfl
  · exact (hold.entries lot c h' hh).congr rfl rfl

/-- A transaction keeps dates in order: drafts fit still when they are applied, and checked ones go to open
accounts. -/
theorem apply {x : Transaction} {r : Except Fault Unit} (hb : Timely b) (ho : Orderly b)
    (hx : ∀ t ∈ x.transfers.map b.transfer, b.Fits t) (h : x.apply.on b = (r, b')) : Timely b' := by
  let P (c : Book) : Prop := Timely c ∧ (∀ t ∈ x.transfers.map b.transfer, c.Fits t)
    ∧ ∀ id, (c.account id).closed = (b.account id).closed
  have hkept : P b' := by
    refine Transaction.apply_induction (P := P) ?_ ?_ h ⟨hb, hx, fun _ => rfl⟩
    · rintro hcheck c c' t ht hpost ⟨hc, hts, hclosed⟩
      have hopen := Transaction.requireOpenAccounts_eq_ok_iff.1 (Transaction.check_eq_ok_iff.1 hcheck).2.1
      have hnot : (c.account t.account).closed = none :=
        (hclosed t.account).trans (ho.closed_of_isClosed (hopen t ht).1)
      refine ⟨hc.post (hts t ht) hnot hpost, ?_, ?_⟩
      · exact fun t' ht' => (hts t' ht').post (hts t ht) hpost
      · obtain ⟨-, holding, -, rfl⟩ := post_eq_ok_iff.1 hpost
        exact fun id => (closed_posted (hts t ht).account holding id).trans (hclosed id)
    · rintro c e ⟨hc, hts, hclosed⟩
      have hr : c.Registers (c.record e) := .of_eq rfl
      refine ⟨hc.same (.of_eq rfl rfl) rfl, ?_, hclosed⟩
      exact fun t ht => (hts t ht).mono hr le_rfl (fun _ _ => rfl) rfl
  exact hkept.1

/-- **Every deed keeps the dates of a book in order**, if the transfers among its operands are drafts. -/
theorem deed {d d' : Desk Book} (hb : Timely d.context) (ho : Orderly d.context) (hc : Coherent d.context)
    (hids : ∀ id ∈ d.operands.transferIds, id < d.context.transfers.length) (h : Deed d d') :
    Timely d'.context := by
  have hl := h.later
  have hopen : ∀ {name id}, d.context.findOpen name = .ok id → (d.context.account id).closed = none :=
    fun hid => ho.closed_of_isClosed (findOpen_eq_ok_iff.1 hid).2
  cases h with
  | taken => exact hb
  | advanced _ _ h =>
      obtain ⟨-, rfl⟩ := advance_ok h
      exact hb.same hl rfl
  | registered _ h =>
      obtain ⟨-, rfl⟩ := register_ok h
      exact hb.same hl rfl
  | opened _ _ hallowed h =>
      obtain ⟨hfree, rfl⟩ := openAccount_ok h
      exact hb.opening ho hfree hallowed
  | closed _ hid => exact hb.closeAccount (lt_of_findOpen hid) (hopen hid)
  | lotClosed _ hid => exact hb.closeLot (lt_of_findOpen hid) _
  | annotated notes => exact hb.quiet hl (.foldl (fun b _ => b.quiet_annotate _ _ _) notes _)
  | tagged tags => exact hb.quiet hl (.foldl (fun b tag => b.quiet_tag _ tag) tags _)
  | untagged tags => exact hb.quiet hl (.foldl (fun b tag => b.quiet_untag _ tag) tags _)
  | drafted => exact hb.same hl rfl
  | bound => exact hb.same hl rfl
  | boundNew => exact hb.same hl rfl
  | commented => exact hb.same hl rfl
  | applied hops hx h => exact hb.apply ho (hc.fits_taken hids hops hx) h
  | brokenOff hops hx h => exact hb.apply ho (hc.fits_taken hids hops hx) h

theorem step {m : Machine Book} (hb : Timely m.context) (ho : Orderly m.context) (hc : Coherent m.context)
    (hids : ∀ id ∈ m.stack.transferIds, id < m.context.transfers.length) (t : Token) :
    Timely (m.step .core t).2.context :=
  Machine.step_keeps hb
    (fun _ hd => hb.deed ho hc (fun id hid => hids id (m.transferIds_visible_subset hid)) hd) t

end Timely

/-! ### Runs -/

/-- Every book of a run has its dates in order. -/
theorem timely_after (ts : List Token) : Timely (after ts) := by
  refine (Machine.after_induction (I := fun m => Timely m.context ∧ Orderly m.context
    ∧ Coherent m.context ∧ m.context.UsedOnce m.stack.transferIds)
    ⟨timely_empty, orderly_empty, coherent_empty, .empty⟩ ?_ ts).1
  rintro m t ⟨hb, ho, hc, hids⟩
  have hlt : ∀ id ∈ m.stack.transferIds, id < m.context.transfers.length :=
    fun id hid => hids.drafted id (List.mem_append_right _ hid)
  exact ⟨hb.step ho hc hlt t, ho.turn (m.step_turn t), hc.step hlt t, hids.turn (m.step_turn t)⟩

/-- **Dates are in order in every run.**  Whatever comes of each token, the clock does not go back; it shows
its start or a calendar day; and every account was opened no later than its entries were made, every entry no
later than its account was closed, and nothing later than the clock shows.  An account that was closed was
so before the next one was opened under its name, an account was opened for commodities that had been
registered, and an entry was made in such. -/
theorem chronology :
    (∀ ts ts', (after ts).date ≤ (after (ts ++ ts')).date) ∧ ∀ ts, Timely (after ts) :=
  ⟨date_after_append, timely_after⟩

/-- A run with a transfer that is applied a day after it was drafted; its account is closed on that day, and
one is opened under its name. -/
def reopened : List Token :=
  ["2024", "1", "5", "date", "U", "d", "commodity", "Assets:A", "U", "open", "Equity", "open",
    "x", "y", "Assets:A", "0", "U", "xfer", "Equity", "0", "U", "xfer", "2024", "1", "6", "date", "xact",
    "Assets:A", "close", "Assets:A", "U", "open", "2024", "1", "7", "date"].map .word

/-- The dates of both accounts and of the entry, and the order in which they are. -/
theorem chronology_reopened :
    (after (reopened.take 4)).date = ⟨2024, 1, 5⟩ ∧ (after reopened).date = ⟨2024, 1, 7⟩
      ∧ (after (reopened.take 4)).date ≤ (after reopened).date
      ∧ ((after reopened).account 0).closed = some ⟨2024, 1, 6⟩
      ∧ ((after reopened).account 2).opened = ⟨2024, 1, 6⟩
      ∧ (∃ h, ((after reopened).account 0).holding? defaultLot "U" = some h ∧ h.opened = ⟨2024, 1, 6⟩
        ∧ (after reopened).EntryTimely ((after reopened).account 0) h)
      ∧ (∃ d, ((after reopened).account 0).closed = some d ∧ d ≤ ((after reopened).account 2).opened) := by
  have hheld : (((after reopened).account 0).holding? defaultLot "U").map (·.opened)
      = some ⟨2024, 1, 6⟩ := by decide +kernel
  have hnames : ((after reopened).account 0).name = ((after reopened).account 2).name := by decide +kernel
  have hlength : (after reopened).accounts.length = 3 := by decide +kernel
  obtain ⟨h, hh, hopened⟩ := Option.map_eq_some_iff.1 hheld
  have htimely := chronology.2 reopened
  refine ⟨by decide +kernel, by decide +kernel, chronology.1 (reopened.take 4) (reopened.drop 4),
    by decide +kernel, by decide +kernel, ⟨h, hh, hopened, ?_⟩, ?_⟩
  · exact (htimely.accounts 0 (by rw [hlength]; decide)).entries _ _ h hh
  · exact htimely.superseded 0 2 (by decide) (by rw [hlength]; decide) hnames

end Book

end Daybook
