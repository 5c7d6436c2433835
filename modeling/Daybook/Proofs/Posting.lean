import Daybook.Proofs.Acts

/-!
# Posting — one transfer, and all of a transaction

A posting keeps a holding in one lot of one account and writes its events into the journal; nothing else
changes.

* `post_eq`: what a posting comes to, as one equation.
* `post_error`: why a posting fails.
* `held_posted`, `balanceOf_posted`, `hasLot_posted`: holdings, balances and lots after a posting.
* `reads_posted`: all else of an account stays.
* `postAll_induction`, `postAll_invariant`: what every single posting keeps, postings keep.
* `postAll_error`: postings break off at the first one that fails, and those before it stay.
* `check_eq_ok_iff`, `account_lt_of_check`: what the checks before the postings establish.
* `requireLots_posted`: the check of lots follows the postings.
* `postAll_not_refused`: **after the checks no posting is refused**.
* `apply_eq_ok_iff`, `apply_error_iff`: how a transaction is applied, and how it breaks off.
* `apply_induction`, `apply_invariant`: what every single posting keeps, a transaction keeps.
-/

namespace Daybook

theorem Table.single_eq_insert {α : Type} (name : String) (a : α) :
    Table.single name a = (∅ : Table α).insert name a := rfl

theorem Table.contains_insert {α : Type} (t : Table α) (name : String) (a : α) (x : String) :
    (t.insert name a).contains x = (x == name || t.contains x) := by
  simp only [contains]
  rw [get?_insert]
  by_cases h : x = name <;> simp [h]

/-- What a list has at its places is the list. -/
theorem map_getD_range {α : Type} [Inhabited α] (l : List α) :
    (List.range l.length).map (l.getD · default) = l := by
  refine List.ext_getElem (by simp) ?_
  intro i _ hi
  simp [List.getD_eq_getElem?_getD, hi]

/-- A balance with an amount added; the first amount is kept as it is. -/
def Decimal.addTo : Option Decimal → Decimal → Option Decimal
  | none, d => some d
  | some total, d => total.add d

/-- A new account holds nothing. -/
theorem Account.holding?_new (name : String) (date : Date) (allowed : NameSet) (lot c : String) :
    (Account.new name date allowed).holding? lot c = none := by
  show ((Table.single defaultLot (∅ : Lot)).get? lot).bind (·.get? c) = none
  rw [Table.single_eq_insert, Table.get?_insert]
  split <;> rfl

/-- An account with a holding kept in a lot, which is there from then on. -/
def Account.keep (a : Account) (lot commodity : String) (h : Holding) : Account :=
  { a with lots := a.lots.insert lot (((a.lots.get? lot).getD ∅).insert commodity h) }

theorem Account.holding?_keep (a : Account) (lot commodity : String) (h : Holding) (l c : String) :
    (a.keep lot commodity h).holding? l c
      = if l = lot ∧ c = commodity then some h else a.holding? l c := by
  simp only [keep, holding?]
  rw [Table.get?_insert]
  by_cases hl : l = lot
  · rw [if_pos hl, Option.bind_some, Table.get?_insert, hl]
    by_cases hc : c = commodity
    · rw [if_pos hc, if_pos ⟨rfl, hc⟩]
    · rw [if_neg hc, if_neg (fun h => hc h.2)]
      cases a.lots.get? lot with
      | none => rfl
      | some held => rfl
  · rw [if_neg hl, if_neg (fun h => hl h.1)]

namespace Book

/-- What a lot holds of a commodity, by the number of the account. -/
def held (b : Book) (id : AccountId) (lot commodity : String) : Option Holding :=
  (b.account id).holding? lot commodity

/-- The balance of a commodity in a lot; `none` before the first amount. -/
def balanceOf (b : Book) (id : AccountId) (lot commodity : String) : Option Decimal :=
  (b.held id lot commodity).map (·.balance.amount)

/-- Whether an account has a lot. -/
def hasLot (b : Book) (id : AccountId) (lot : String) : Bool := (b.account id).lots.contains lot

/-- What is entered of a posting, the last first. -/
def postingEvents (b : Book) (t : Transfer) : List Event :=
  .posted t b.date :: if b.hasLot t.account t.lot then [] else [.lotCreated t.account t.lot]

/-- The book after a posting that makes the holding `h`. -/
def posted (b : Book) (t : Transfer) (h : Holding) : Book :=
  { b with
    accounts := b.accounts.modify t.account (·.keep t.lot t.quantity.commodity h)
    journal := b.postingEvents t ++ b.journal }

/-- Changes that agree on an account change the book alike. -/
theorem updateAccount_congr {b : Book} {id : AccountId} {f g : Account → Account}
    (h : f (b.account id) = g (b.account id)) : b.updateAccount id f = b.updateAccount id g := by
  have hm : b.accounts.modify id f = b.accounts.modify id g := by
    refine List.ext_getElem? ?_
    intro i
    rw [List.getElem?_modify, List.getElem?_modify]
    cases hi : b.accounts[i]? with
    | none => rfl
    | some a =>
        by_cases hid : id = i
        · subst hid
          have ha : b.account id = a := by
            simp only [account]
            rw [List.getD_eq_getElem?_getD, hi, Option.getD_some]
          rw [ha] at h
          simp [h]
        · simp [hid]
  simp only [updateAccount]
  rw [hm]

/-- What a posting comes to: where the lot is there or may be created, the book with the holding that
results. -/
theorem post_eq (b : Book) (t : Transfer) :
    b.post t =
      if b.hasLot t.account t.lot || t.createsLot then
        (b.receive t (b.held t.account t.lot t.quantity.commodity)).map (b.posted t)
      else .error (.refused (.unknownLot (.ofLot (b.account t.account).name t.lot))) := by
  unfold post hasLot held Table.contains Account.holding?
  dsimp only
  cases hl : (b.account t.account).lots.get? t.lot with
  | none =>
      dsimp only
      cases t.createsLot with
      | false => rfl
      | true =>
          show Except.ok (record (record (b.updateAccount _ _) _) _) = Except.ok _
          -- a lot that is created holds nothing before, so it keeps the holding alone
          rw [updateAccount_congr (g := (·.keep t.lot t.quantity.commodity
            ⟨t.lot, b.date, t.quantity, t.rate⟩)) (by unfold Account.keep; rw [hl]; rfl)]
          unfold posted postingEvents hasLot Table.contains
          rw [hl]
          rfl
  | some lot =>
      dsimp only
      show (b.receive t (lot.get? t.quantity.commodity)).bind _
        = (b.receive t (lot.get? t.quantity.commodity)).map _
      cases b.receive t (lot.get? t.quantity.commodity) with
      | error fault => rfl
      | ok h =>
          show Except.ok (record (b.updateAccount _ _) _) = Except.ok _
          rw [updateAccount_congr (g := (·.keep t.lot t.quantity.commodity h))
            (by unfold Account.keep; rw [hl]; rfl)]
          unfold posted postingEvents hasLot Table.contains
          rw [hl]
          rfl

/-- A posting that goes through. -/
theorem post_eq_ok_iff {b b' : Book} {t : Transfer} :
    b.post t = .ok b' ↔ (b.hasLot t.account t.lot || t.createsLot) = true
      ∧ ∃ h, b.receive t (b.held t.account t.lot t.quantity.commodity) = .ok h
        ∧ b' = b.posted t h := by
  rw [post_eq]
  split
  · next hl =>
      rw [and_iff_right hl]
      cases b.receive t _ with
      | error fault =>
          refine ⟨fun e => (by cases e), ?_⟩
          rintro ⟨h', e, -⟩
          cases e
      | ok h =>
          refine ⟨fun e => ⟨h, rfl, by cases e; rfl⟩, ?_⟩
          rintro ⟨h', e, rfl⟩
          cases e
          rfl
  · next hl => exact ⟨fun e => (by cases e), fun h => absurd h.1 hl⟩

/-- What is received is added to the balance. -/
theorem receive_ok {b : Book} {t : Transfer} {held : Option Holding} {h : Holding}
    (e : b.receive t held = .ok h) :
    Decimal.addTo (held.map (·.balance.amount)) t.quantity.amount = some h.balance.amount := by
  simp only [receive] at e
  cases held with
  | none => cases e; rfl
  | some h₀ =>
      dsimp only at e
      simp only [Holding.add] at e
      show h₀.balance.amount.add t.quantity.amount = some h.balance.amount
      cases hs : h₀.balance.amount.add t.quantity.amount with
      | none => rw [hs] at e; cases e
      | some total => rw [hs] at e; cases e; rfl

theorem receive_of_addTo {b : Book} {t : Transfer} {held : Option Holding} {total : Decimal}
    (e : Decimal.addTo (held.map (·.balance.amount)) t.quantity.amount = some total) :
    ∃ h, b.receive t held = .ok h ∧ h.balance.amount = total := by
  cases held with
  | none => cases e; exact ⟨_, rfl, rfl⟩
  | some h₀ =>
      have hs : h₀.balance.amount.add t.quantity.amount = some total := e
      refine ⟨{ h₀ with balance := { h₀.balance with amount := total } }, ?_, rfl⟩
      simp only [receive, Holding.add]
      rw [hs]
      rfl

/-- Nothing but the range stands in the way of receiving. -/
theorem receive_error {b : Book} {t : Transfer} {held : Option Holding} {fault : Fault}
    (e : b.receive t held = .error fault) : fault = .exceeded .amount := by
  simp only [receive] at e
  cases held with
  | none => cases e
  | some h₀ =>
      dsimp only at e
      cases hs : h₀.add t.quantity.amount with
      | none => rw [hs] at e; cases e; rfl
      | some h => rw [hs] at e; cases e

/-- A posting fails where its lot is neither there nor created, and where an amount in the lot leaves the
range. -/
theorem post_error {b : Book} {t : Transfer} {fault : Fault} (h : b.post t = .error fault) :
    ¬(b.hasLot t.account t.lot || t.createsLot) = true
        ∧ fault = .refused (.unknownLot (.ofLot (b.account t.account).name t.lot))
      ∨ b.hasLot t.account t.lot = true ∧ fault = .exceeded .amount := by
  rw [post_eq] at h
  split at h
  · cases hr : b.receive t (b.held t.account t.lot t.quantity.commodity) with
    | ok holding => rw [hr] at h; cases h
    | error fault' =>
        rw [hr] at h
        cases h
        refine .inr ⟨?_, receive_error hr⟩
        -- into a lot that is created a first amount goes, and that is kept as it is
        cases hl : (b.account t.account).lots.get? t.lot with
        | none =>
            simp only [held, Account.holding?] at hr
            rw [hl] at hr
            cases hr
        | some lot =>
            simp only [hasLot, Table.contains]
            rw [hl]
            rfl
  · next hlot =>
      cases h
      exact .inl ⟨hlot, rfl⟩

theorem account_posted {b : Book} {t : Transfer} (ht : t.account < b.accounts.length) (h : Holding)
    (id : AccountId) :
    (b.posted t h).account id
      = if id = t.account then (b.account id).keep t.lot t.quantity.commodity h else b.account id :=
  account_update_of_lt ht (·.keep t.lot t.quantity.commodity h) id

/-- A posting leaves all of the accounts as it is but their lots. -/
theorem reads_posted {γ : Type} (view : Account → γ) (hview : ∀ a lot c h, view (.keep a lot c h) = view a)
    {b : Book} {t : Transfer} (ht : t.account < b.accounts.length) (h : Holding) (id : AccountId) :
    view ((b.posted t h).account id) = view (b.account id) := by
  rw [account_posted ht]
  split
  · exact hview _ _ _ _
  · rfl

theorem name_posted {b : Book} {t : Transfer} (ht : t.account < b.accounts.length) (h : Holding)
    (id : AccountId) : ((b.posted t h).account id).name = (b.account id).name :=
  reads_posted Account.name (fun _ _ _ _ => rfl) ht h id

theorem closed_posted {b : Book} {t : Transfer} (ht : t.account < b.accounts.length) (h : Holding)
    (id : AccountId) : ((b.posted t h).account id).closed = (b.account id).closed :=
  reads_posted Account.closed (fun _ _ _ _ => rfl) ht h id

@[simp] theorem length_accounts_posted (b : Book) (t : Transfer) (h : Holding) :
    (b.posted t h).accounts.length = b.accounts.length := List.length_modify _ _ _

/-- The holdings after a posting. -/
theorem held_posted {b : Book} {t : Transfer} (ht : t.account < b.accounts.length) (h : Holding)
    (id : AccountId) (lot c : String) :
    (b.posted t h).held id lot c
      = if id = t.account ∧ lot = t.lot ∧ c = t.quantity.commodity then some h
        else b.held id lot c := by
  simp only [held]
  rw [account_posted ht]
  by_cases hid : id = t.account
  · rw [if_pos hid, Account.holding?_keep]
    simp only [hid, true_and]
  · rw [if_neg hid, if_neg (fun e => hid e.1)]

/-- The balances after a posting. -/
theorem balanceOf_posted {b : Book} {t : Transfer} (ht : t.account < b.accounts.length) (h : Holding)
    (id : AccountId) (lot c : String) :
    (b.posted t h).balanceOf id lot c
      = if id = t.account ∧ lot = t.lot ∧ c = t.quantity.commodity then some h.balance.amount
        else b.balanceOf id lot c := by
  simp only [balanceOf, held_posted ht]
  split <;> rfl

/-- The lots after a posting. -/
theorem hasLot_posted {b : Book} {t : Transfer} (ht : t.account < b.accounts.length) (h : Holding)
    (id : AccountId) (lot : String) :
    (b.posted t h).hasLot id lot = (b.hasLot id lot || (id == t.account && lot == t.lot)) := by
  simp only [hasLot]
  rw [account_posted ht]
  by_cases hid : id = t.account
  · rw [if_pos hid]
    simp only [Account.keep]
    rw [Table.contains_insert, Bool.or_comm]
    simp [hid]
  · rw [if_neg hid]
    simp [hid]

end Book

/-- A current account is in the book. -/
theorem Book.lt_of_isCurrent {b : Book} {id : AccountId} (h : b.isCurrent id = true) :
    id < b.accounts.length :=
  lastNamed_lt (beq_iff_eq.1 h)

/-! ### All of a transaction -/

namespace Transaction

theorem check_eq_ok_iff {b : Book} {ts : List Transfer} :
    check b ts = .ok ()
      ↔ requireBalance b ts = .ok () ∧ requireOpenAccounts b ts = .ok () ∧ requireLots b ts = .ok () :=
  bind_eq_ok_unit_iff.trans (and_congr_right fun _ => bind_eq_ok_unit_iff)

/-- Transfers to open accounts, which are the current ones of their names. -/
theorem requireOpenAccounts_eq_ok_iff {b : Book} {ts : List Transfer} :
    requireOpenAccounts b ts = .ok ()
      ↔ ∀ t ∈ ts, b.isClosed t.account = false ∧ b.isCurrent t.account = true := by
  simp only [requireOpenAccounts]
  cases hf : ts.find? fun t => b.isClosed t.account || !b.isCurrent t.account with
  | none =>
      refine iff_of_true rfl ?_
      intro t ht
      simpa using List.find?_eq_none.1 hf t ht
  | some t =>
      refine iff_of_false (fun e => by cases e) ?_
      intro h
      obtain ⟨hc, hcur⟩ := h t (List.mem_of_find?_eq_some hf)
      have := List.find?_some hf
      rw [hc, hcur] at this
      cases this

/-- The accounts of checked transfers are in the book. -/
theorem account_lt_of_check {b : Book} {ts : List Transfer} (h : check b ts = .ok ()) :
    ∀ t ∈ ts, t.account < b.accounts.length := fun t ht =>
  Book.lt_of_isCurrent (requireOpenAccounts_eq_ok_iff.1 (check_eq_ok_iff.1 h).2.1 t ht).2

theorem requireLotsFrom_cons (b : Book) (created : List (AccountId × String)) (t : Transfer)
    (ts : List Transfer) :
    requireLotsFrom b created (t :: ts) =
      if b.hasLot t.account t.lot || created.contains (t.account, t.lot) then
        requireLotsFrom b created ts
      else if t.createsLot then requireLotsFrom b ((t.account, t.lot) :: created) ts
      else .error (.refused (.unknownLot (.ofLot (b.account t.account).name t.lot))) := rfl

/-- The check of lots depends on the names of accounts, and on which lots are there or have been created. -/
theorem requireLotsFrom_congr {b b' : Book} {created created' : List (AccountId × String)}
    (hname : ∀ id, (b'.account id).name = (b.account id).name)
    (hlots : ∀ id lot, (b'.hasLot id lot || created'.contains (id, lot))
      = (b.hasLot id lot || created.contains (id, lot)))
    (ts : List Transfer) : requireLotsFrom b' created' ts = requireLotsFrom b created ts := by
  -- the lots created so far grow on the way, on both sides alike
  induction ts generalizing created created' with
  | nil => rfl
  | cons t ts ih =>
      rw [requireLotsFrom_cons, requireLotsFrom_cons, hlots, hname, ih hlots]
      have hlots' : ∀ id lot, (b'.hasLot id lot || ((t.account, t.lot) :: created').contains (id, lot))
          = (b.hasLot id lot || ((t.account, t.lot) :: created).contains (id, lot)) := by
        intro id lot
        rw [List.contains_cons, List.contains_cons, Bool.or_left_comm, hlots, Bool.or_left_comm]
      rw [ih hlots']

/-- A transfer whose lot is there makes no difference to the check of the others. -/
theorem requireLots_cons_of_hasLot {b : Book} {t : Transfer} (h : b.hasLot t.account t.lot = true)
    (ts : List Transfer) : requireLots b (t :: ts) = requireLots b ts := by
  simp only [requireLots]
  rw [requireLotsFrom_cons, h, Bool.true_or, if_pos rfl]

/-- A transfer whose lot is neither there nor created does not pass the check. -/
theorem requireLots_cons_of_not {b : Book} {t : Transfer}
    (h : ¬(b.hasLot t.account t.lot || t.createsLot) = true) (ts : List Transfer) :
    requireLots b (t :: ts)
      = .error (.refused (.unknownLot (.ofLot (b.account t.account).name t.lot))) := by
  obtain ⟨hlot, hcreates⟩ := Bool.or_eq_false_iff.1 (Bool.eq_false_iff.2 h)
  simp only [requireLots]
  rw [requireLotsFrom_cons, hlot, hcreates, List.contains_nil, Bool.or_false]
  rfl

/-- Where a transfer has been posted, the check of the others comes to what it came to with the transfer
before them. -/
theorem requireLots_posted {b : Book} {t : Transfer} (ht : t.account < b.accounts.length)
    (hlot : (b.hasLot t.account t.lot || t.createsLot) = true) (h : Holding) (ts : List Transfer) :
    requireLots (b.posted t h) ts = requireLots b (t :: ts) := by
  have hname := Book.name_posted ht h
  cases hfound : b.hasLot t.account t.lot with
  | true =>
      -- the lot was there before
      rw [requireLots_cons_of_hasLot hfound]
      refine requireLotsFrom_congr hname (fun id lot => ?_) ts
      rw [Book.hasLot_posted ht, List.contains_nil, Bool.or_false, Bool.or_false]
      by_cases hk : id = t.account ∧ lot = t.lot
      · rw [hk.1, hk.2, hfound, Bool.true_or]
      · simp [hk]
  | false =>
      -- the lot that the posting creates is in the book afterwards
      rw [hfound, Bool.false_or] at hlot
      simp only [requireLots]
      rw [requireLotsFrom_cons, hfound, List.contains_nil, Bool.or_false, if_neg Bool.false_ne_true,
        if_pos hlot]
      refine requireLotsFrom_congr hname (fun id lot => ?_) ts
      rw [Book.hasLot_posted ht, List.contains_cons, List.contains_nil, Bool.or_false, Bool.or_false]
      rfl

/-- The first of checked transfers finds its lot or creates it, and the check holds of the others
afterwards. -/
theorem requireLots_cons {b : Book} {t : Transfer} {ts : List Transfer}
    (ht : t.account < b.accounts.length) (h : requireLots b (t :: ts) = .ok ()) :
    (b.hasLot t.account t.lot || t.createsLot) = true
      ∧ ∀ holding, requireLots (b.posted t holding) ts = .ok () := by
  by_cases hlot : (b.hasLot t.account t.lot || t.createsLot) = true
  · exact ⟨hlot, fun holding => (requireLots_posted ht hlot holding ts).trans h⟩
  · rw [requireLots_cons_of_not hlot] at h
    cases h

/-! ### Postings one after the other -/

theorem postAll_cons (t : Transfer) (ts : List Transfer) (b : Book) :
    (postAll (t :: ts)).on b =
      match b.post t with
      | .ok b' => (postAll ts).on b'
      | .error fault => (.error fault, b) := by
  show ((Act.change (·.post t)) >>= fun _ => postAll ts).on b = _
  rw [Act.on_bind, Act.on_change]
  cases b.post t <;> rfl

/-- Postings go through when the first does and the others do after it. -/
theorem postAll_cons_ok_iff {b b' : Book} {t : Transfer} {ts : List Transfer} :
    (postAll (t :: ts)).on b = (.ok (), b')
      ↔ ∃ b₁, b.post t = .ok b₁ ∧ (postAll ts).on b₁ = (.ok (), b') := by
  rw [postAll_cons]
  cases b.post t with
  | ok b₁ => exact ⟨fun h => ⟨b₁, rfl, h⟩, fun ⟨_, e, h⟩ => by cases e; exact h⟩
  | error fault => exact ⟨fun h => (by cases h), fun ⟨_, e, _⟩ => (by cases e)⟩

/-- Postings break off at the first one that fails, and those before it stay. -/
theorem postAll_error {b b' : Book} {ts : List Transfer} {fault : Fault}
    (h : (postAll ts).on b = (.error fault, b')) :
    ∃ before t after, ts = before ++ t :: after ∧ (postAll before).on b = (.ok (), b')
      ∧ b'.post t = .error fault := by
  induction ts generalizing b with
  | nil => cases h
  | cons t ts ih =>
      rw [postAll_cons] at h
      cases hp : b.post t with
      | error fault' =>
          rw [hp] at h
          cases h
          exact ⟨[], t, ts, rfl, rfl, hp⟩
      | ok b₁ =>
          rw [hp] at h
          obtain ⟨before, t', after, rfl, hb, ht'⟩ := ih h
          exact ⟨t :: before, t', after, rfl, postAll_cons_ok_iff.2 ⟨b₁, hp, hb⟩, ht'⟩

/-- What every posting that goes through keeps, postings keep, also where they break off. -/
theorem postAll_induction {P : Book → Prop} {ts : List Transfer}
    (hstep : ∀ b b', ∀ t ∈ ts, b.post t = .ok b' → P b → P b') {b b' : Book} {r : Except Fault Unit}
    (hp : (postAll ts).on b = (r, b')) (hb : P b) : P b' := by
  induction ts generalizing b with
  | nil => cases hp; exact hb
  | cons t ts ih =>
      rw [postAll_cons] at hp
      cases hpost : b.post t with
      | error fault => rw [hpost] at hp; cases hp; exact hb
      | ok b₁ =>
          rw [hpost] at hp
          exact ih (fun b b' t' ht' => hstep b b' t' (List.mem_cons_of_mem _ ht')) hp
            (hstep b b₁ t List.mem_cons_self hpost hb)

/-- What a posting keeps, whatever holding it makes, postings keep. -/
theorem postAll_invariant {P : Book → Prop} {ts : List Transfer}
    (hstep : ∀ b, ∀ t ∈ ts, ∀ h, P b → P (b.posted t h)) {b b' : Book} {r : Except Fault Unit}
    (hp : (postAll ts).on b = (r, b')) (hb : P b) : P b' := by
  refine postAll_induction ?_ hp hb
  intro b b' t ht hpost hb
  obtain ⟨-, h, -, rfl⟩ := Book.post_eq_ok_iff.1 hpost
  exact hstep b t ht h hb

/-- **After the checks no posting is refused.** -/
theorem postAll_not_refused {b b' : Book} {ts : List Transfer} {ground : Ground}
    (hv : ∀ t ∈ ts, t.account < b.accounts.length) (hl : requireLots b ts = .ok ()) :
    (postAll ts).on b ≠ (.error (.refused ground), b') := by
  -- each posting goes into a lot that the check has found, and leaves the check valid for the others
  induction ts generalizing b with
  | nil => exact fun h => by cases h
  | cons t ts ih =>
      obtain ⟨ht, hv⟩ := List.forall_mem_cons.1 hv
      obtain ⟨hlot, hl⟩ := requireLots_cons ht hl
      intro h
      rw [postAll_cons, Book.post_eq, if_pos hlot] at h
      cases hr : b.receive t (b.held t.account t.lot t.quantity.commodity) with
      | error fault =>
          rw [hr] at h
          cases h
          cases Book.receive_error hr
      | ok holding =>
          rw [hr] at h
          exact ih (fun t' ht' => (Book.length_accounts_posted b t holding).symm ▸ hv t' ht')
            (hl holding) h

/-! ### Applying a transaction -/

/-- A transaction is applied when the checks are passed and all postings go through. -/
theorem apply_eq_ok_iff {x : Transaction} {b b' : Book} :
    x.apply.on b = (.ok (), b')
      ↔ check b (x.transfers.map b.transfer) = .ok ()
        ∧ ∃ b₁, (postAll (x.transfers.map b.transfer)).on b = (.ok (), b₁)
          ∧ b' = b₁.record (.applied x.entity x.description x.transfers) := by
  simp only [apply]
  rw [Act.on_judge_bind_ok_iff]
  constructor
  · rintro ⟨ts, hts, h⟩
    cases hts
    obtain ⟨_, hc, h⟩ := Act.on_judge_bind_ok_iff.1 h
    obtain ⟨_, b₁, hp, h⟩ := Act.on_bind_ok_iff.1 h
    cases h
    exact ⟨hc, b₁, hp, rfl⟩
  · rintro ⟨hc, b₁, hp, rfl⟩
    exact ⟨_, rfl, Act.on_judge_bind_ok_iff.2 ⟨(), hc, Act.on_bind_ok_iff.2 ⟨(), b₁, hp, rfl⟩⟩⟩

/-- A transaction breaks off in the checks, or in a posting after them. -/
theorem apply_error_iff {x : Transaction} {b b' : Book} {fault : Fault} :
    x.apply.on b = (.error fault, b')
      ↔ check b (x.transfers.map b.transfer) = .error fault ∧ b' = b
        ∨ check b (x.transfers.map b.transfer) = .ok ()
          ∧ (postAll (x.transfers.map b.transfer)).on b = (.error fault, b') := by
  simp only [apply]
  simp only [Act.on_bind_error_iff, Act.on_judge, Act.on_enter, Prod.mk.injEq]
  constructor
  · rintro (⟨h, -⟩ | ⟨ts, b₀, ⟨hts, rfl⟩, (⟨hc, rfl⟩ | ⟨_, b₁, ⟨hc, rfl⟩, (hp | ⟨_, b₂, -, h, -⟩)⟩)⟩)
    · cases h
    · cases hts
      exact .inl ⟨hc, rfl⟩
    · cases hts
      exact .inr ⟨hc, hp⟩
    · cases h
  · rintro (⟨hc, rfl⟩ | ⟨hc, hp⟩)
    · exact .inr ⟨_, b', ⟨rfl, rfl⟩, .inl ⟨hc, rfl⟩⟩
    · exact .inr ⟨_, b, ⟨rfl, rfl⟩, .inr ⟨(), b, ⟨hc, rfl⟩, .inl hp⟩⟩

/-- What every posting keeps that goes through after the checks, and every event that is recorded, a
transaction keeps, also where it breaks off. -/
theorem apply_induction {P : Book → Prop} {x : Transaction} {b b' : Book} {r : Except Fault Unit}
    (hstep : check b (x.transfers.map b.transfer) = .ok () →
      ∀ c c', ∀ t ∈ x.transfers.map b.transfer, c.post t = .ok c' → P c → P c')
    (hrecord : ∀ c e, P c → P (c.record e)) (h : x.apply.on b = (r, b')) (hb : P b) : P b' := by
  cases r with
  | ok =>
      obtain ⟨hc, b₁, hp, rfl⟩ := apply_eq_ok_iff.1 h
      exact hrecord _ _ (postAll_induction (hstep hc) hp hb)
  | error fault =>
      rcases apply_error_iff.1 h with ⟨-, rfl⟩ | ⟨hc, hp⟩
      · exact hb
      · exact postAll_induction (hstep hc) hp hb

/-- What a posting after the checks keeps, whatever holding it makes, and every event that is recorded, a
transaction keeps. -/
theorem apply_invariant {P : Book → Prop} {x : Transaction} {b b' : Book} {r : Except Fault Unit}
    (hstep : check b (x.transfers.map b.transfer) = .ok () →
      ∀ c, ∀ t ∈ x.transfers.map b.transfer, ∀ h, P c → P (c.posted t h))
    (hrecord : ∀ c e, P c → P (c.record e)) (h : x.apply.on b = (r, b')) (hb : P b) : P b' := by
  refine apply_induction (fun hc c c' t ht hpost hP => ?_) hrecord h hb
  obtain ⟨-, holding, -, rfl⟩ := Book.post_eq_ok_iff.1 hpost
  exact hstep hc c t ht holding hP

/-- A transaction that is refused has not touched the book. -/
theorem apply_refused {x : Transaction} {b b' : Book} {ground : Ground}
    (h : x.apply.on b = (.error (.refused ground), b')) : b' = b := by
  rcases apply_error_iff.1 h with ⟨-, rfl⟩ | ⟨hc, hp⟩
  · rfl
  · exact absurd hp (postAll_not_refused (account_lt_of_check hc) (check_eq_ok_iff.1 hc).2.2)

end Transaction

end Daybook
