import Daybook.Proofs.Posting

/-!
# Judging — what words make sure of

Before it changes the book, a word makes sure of what it is given: that a name is that of an open account,
that a commodity is registered, that an operand is a text, that a lot is empty.  Each judgement is passed
under a condition on the book.

* `findOpen_eq_ok_iff`, `findCommodity_eq_ok_iff`: names that stand for something.
* `advance_ok`, `register_ok`, `openAccount_ok`: the clock, the catalogue and the accounts, which may refuse
  to change.
* `Admits`, `Taggable`: **what may be drafted, and what may be tagged**.
* `requireEmptyLot_eq_ok_iff`, `asBinding_ok`, `draftTransaction_eq_ok_iff` and others: the judgement of
  each word.
-/

namespace Daybook

namespace Book

/-- The open account of a name is its current one, and is not closed. -/
theorem findOpen_eq_ok_iff {b : Book} {name : String} {id : AccountId} :
    b.findOpen name = .ok id ↔ b.current? name = some id ∧ b.isClosed id = false := by
  simp only [findOpen]
  cases b.current? name with
  | none => exact ⟨fun h => (by cases h), fun h => (by cases h.1)⟩
  | some i =>
      dsimp only
      split
      · next hc =>
          refine ⟨fun h => (by cases h), ?_⟩
          rintro ⟨h, ho⟩
          cases h
          rw [hc] at ho
          cases ho
      · next hc =>
          refine ⟨fun h => by cases h; exact ⟨rfl, by simpa using hc⟩, ?_⟩
          rintro ⟨h, -⟩
          cases h
          rfl

theorem findCommodity_eq_ok_iff {b : Book} {role name : String} :
    b.findCommodity role name = .ok () ↔ b.commodities.contains name = true := ite_eq_ok_iff

theorem asText_eq_ok_iff {b : Book} {what s : String} {v : Value} :
    b.asText what v = .ok s ↔ v = .text s := by
  simp only [asText]
  cases v with
  | text s' => exact ⟨fun h => by cases h; rfl, fun h => by cases h; rfl⟩
  | transfer id => exact ⟨fun h => (by cases h), fun h => (by cases h)⟩
  | foreign name => exact ⟨fun h => (by cases h), fun h => (by cases h)⟩

theorem asTransfer_eq_ok_iff {b : Book} {v : Value} {id : TransferId} :
    b.asTransfer v = .ok id ↔ v = .transfer id := by
  simp only [asTransfer]
  cases v with
  | text s => exact ⟨fun h => (by cases h), fun h => (by cases h)⟩
  | transfer id' => exact ⟨fun h => by cases h; rfl, fun h => by cases h; rfl⟩
  | foreign name => exact ⟨fun h => (by cases h), fun h => (by cases h)⟩

/-- The clock is not put back. -/
theorem advance_ok {b b' : Book} {date : Date} (h : b.advance date = .ok b') :
    ¬date < b.date ∧ b' = { b with date } := by
  simp only [advance] at h
  split at h
  · cases h
  · next hlt =>
      cases h
      exact ⟨hlt, rfl⟩

/-- A commodity is registered under a new name. -/
theorem register_ok {b b' : Book} {name description : String}
    (h : b.register name description = .ok b') :
    b.commodities.get? name = none ∧ b' = record
      { b with commodities := b.commodities.insert name ⟨name, description, b.date, ∅⟩ }
      (.registered name description) := by
  simp only [register] at h
  split at h
  · cases h
  · next hfree =>
      cases h
      exact ⟨by simpa [Catalogue.contains] using hfree, rfl⟩

/-- The book with one more account. -/
def opening (b : Book) (name : String) (allowed : List String) : Book :=
  record { b with accounts := b.accounts ++ [.new name b.date (.ofList allowed)] }
    (.opened b.accounts.length)

/-- An account can be opened when the current one of its name is closed. -/
theorem openAccount_ok {b b' : Book} {name : String} {allowed : List String}
    (h : b.openAccount name allowed = .ok b') :
    (∀ id, b.current? name = some id → b.isClosed id = true) ∧ b' = b.opening name allowed := by
  simp only [openAccount] at h
  cases hr : b.requireUnopened name with
  | error fault => rw [hr] at h; cases h
  | ok u =>
      rw [hr] at h
      cases h
      refine ⟨?_, rfl⟩
      intro id hid
      simp only [requireUnopened] at hr
      rw [hid, Option.any_some] at hr
      split at hr
      · cases hr
      · next hc => simpa using hc

/-- A transfer as it may be drafted: into the default lot of an open account, in registered commodities
of which the account allows the one transferred. -/
structure Admits (b : Book) (t : Transfer) : Prop where
  account : ∃ name, b.findOpen name = .ok t.account
  commodity : b.commodities.contains t.quantity.commodity = true
  allowed : (b.account t.account).allows t.quantity.commodity = true
  rate : ∀ r, t.rate = some r → b.commodities.contains r.unitPrice.commodity = true
    ∧ b.commodities.contains r.totalPrice.commodity = true
  lot : t.lot = defaultLot
  createsLot : t.createsLot = false

/-- What may be tagged: an open account, or a registered commodity. -/
inductive Taggable (b : Book) : Entity → Prop where
  | account {name : String} {id : AccountId} (h : b.findOpen name = .ok id) : Taggable b (.account id)
  | commodity {name : String} (h : b.commodities.contains name = true) : Taggable b (.commodity name)

end Book

namespace Words

theorem requireAllowed_eq_ok_iff {b : Book} {id : AccountId} {commodity : String} :
    requireAllowed b id commodity = .ok () ↔ (b.account id).allows commodity = true := ite_eq_ok_iff

theorem admits_of_draftTransfer {b : Book} {operands : Value × Value × Value} {t : Transfer}
    (h : draftTransfer b operands = .ok t) : b.Admits t := by
  simp only [draftTransfer] at h
  simp only [bind_eq_ok_iff, Except.ok.injEq] at h
  obtain ⟨name, -, _, -, commodity, -, amount, -, id, hid, _, hc, _, ha, rfl⟩ := h
  exact ⟨⟨name, hid⟩, Book.findCommodity_eq_ok_iff.1 hc, requireAllowed_eq_ok_iff.1 ha,
    fun _ hr => (by cases hr), rfl, rfl⟩

theorem admits_of_draftExchange {b : Book} {o : ExchangeOperands} {t : Transfer}
    (h : draftExchange b o = .ok t) : b.Admits t := by
  simp only [draftExchange] at h
  simp only [bind_eq_ok_iff, Except.ok.injEq] at h
  obtain ⟨_, -, _, -, _, -, id, hid, _, hc, _, ha, _, hu, _, ht, rfl⟩ := h
  refine ⟨⟨_, hid⟩, Book.findCommodity_eq_ok_iff.1 hc, requireAllowed_eq_ok_iff.1 ha, ?_, rfl, rfl⟩
  intro r hr
  cases hr
  exact ⟨Book.findCommodity_eq_ok_iff.1 hu, Book.findCommodity_eq_ok_iff.1 ht⟩

theorem taggable_of_findTagged {b : Book} {name : String} {e : Entity}
    (h : findTagged b name = .ok e) : ∃ id, b.findOpen name = .ok id ∧ e = .account id := by
  simp only [findTagged] at h
  split at h
  · cases h
  · next id hid =>
      split at h
      · cases h
      · next hc =>
          cases h
          exact ⟨id, Book.findOpen_eq_ok_iff.2 ⟨hid, by simpa using hc⟩, rfl⟩

theorem taggable_of_findTaggedCommodity {b : Book} {name : String} {e : Entity}
    (h : findTaggedCommodity b name = .ok e) :
    b.commodities.contains name = true ∧ e = .commodity name := by
  simp only [findTaggedCommodity] at h
  split at h
  · next hc => cases h; exact ⟨hc, rfl⟩
  · cases h

theorem asInteger_eq_ok_iff {b : Book} {what : String} {v : Value} {n : Int} :
    asInteger b what v = .ok n ↔ ∃ s, v = .text s ∧ Integer.read s = .ok n := by
  simp only [asInteger]
  rw [bind_eq_ok_iff]
  refine exists_congr fun s => and_congr Book.asText_eq_ok_iff ?_
  cases Integer.read s with
  | error e => exact ⟨nofun, nofun⟩
  | ok k => exact ⟨fun h => congrArg Except.ok (Except.ok.inj h), fun h => by cases h; rfl⟩

theorem asAmount_eq_ok_iff {s : String} {d : Decimal} :
    asAmount s = .ok d ↔ Decimal.read s = some d := by
  simp only [asAmount]
  cases Decimal.read s with
  | none => exact ⟨nofun, nofun⟩
  | some d' => exact ⟨fun h => congrArg some (Except.ok.inj h), fun h => by cases h; rfl⟩

/-- An open account, an amount and a registered commodity can be asserted. -/
theorem asAssertion_eq_ok_iff {b : Book} {u v w : Value} {id : AccountId} {q : Quantity} :
    asAssertion b (u, v, w) = .ok (id, q)
      ↔ ∃ name amount, u = .text name ∧ v = .text amount ∧ w = .text q.commodity
        ∧ Decimal.read amount = some q.amount ∧ b.findOpen name = .ok id
        ∧ b.commodities.contains q.commodity = true := by
  obtain ⟨asserted, commodity⟩ := q
  simp only [asAssertion]
  simp only [bind_eq_ok_iff, Book.asText_eq_ok_iff, asAmount_eq_ok_iff]
  constructor
  · rintro ⟨name, hu, amount, hv, d, hd, c, hw, i, hi, _, hc, h⟩
    cases h
    exact ⟨name, amount, hu, hv, hw, hd, hi, Book.findCommodity_eq_ok_iff.1 hc⟩
  · rintro ⟨name, amount, hu, hv, hw, hd, hi, hc⟩
    exact ⟨name, hu, amount, hv, asserted, hd, commodity, hw, id, hi, (),
      Book.findCommodity_eq_ok_iff.2 hc, rfl⟩

theorem asLotAssertion_eq_ok_iff {b : Book} {t u v w : Value} {id : AccountId} {lot : String}
    {q : Quantity} :
    asLotAssertion b (t, u, v, w) = .ok (id, lot, q)
      ↔ u = .text lot ∧ asAssertion b (t, v, w) = .ok (id, q) := by
  simp only [asLotAssertion]
  simp only [bind_eq_ok_iff, Book.asText_eq_ok_iff]
  constructor
  · rintro ⟨account, rfl, l, hl, ⟨i, asserted⟩, h, h'⟩
    cases h'
    exact ⟨hl, h⟩
  · rintro ⟨hu, h⟩
    obtain ⟨name, _, rfl, -⟩ := asAssertion_eq_ok_iff.1 h
    exact ⟨name, rfl, lot, hu, (id, q), h, rfl⟩

/-- Texts for entity and description, and transfers that balance, make a transaction. -/
theorem draftTransaction_eq_ok_iff {b : Book} {o : TransactionOperands} {x : Transaction} :
    draftTransaction b o = .ok x
      ↔ ∃ entity description, o.entity = .text entity ∧ o.description = .text description
        ∧ Transaction.requireBalance b (o.transfers.map b.transfer) = .ok ()
        ∧ x = ⟨entity, description, o.transfers, .ofList (pairs o.notes)⟩ := by
  simp only [draftTransaction]
  simp only [bind_eq_ok_iff, Book.asText_eq_ok_iff]
  constructor
  · rintro ⟨entity, he, description, hd, _, hb, h⟩
    cases h
    exact ⟨entity, description, he, hd, hb, rfl⟩
  · rintro ⟨entity, description, he, hd, hb, rfl⟩
    exact ⟨entity, he, description, hd, (), hb, rfl⟩

/-- A transfer and the name of a lot, with which the account of the transfer may be bound. -/
theorem asBinding_ok {b : Book} {v w : Value} {id : TransferId} {lot : String}
    (h : asBinding b (v, w) = .ok (id, lot)) :
    v = .transfer id ∧ w = .text lot ∧ b.isClosed (b.transfer id).account = false := by
  simp only [asBinding] at h
  simp only [bind_eq_ok_iff] at h
  obtain ⟨id', hid, lot', hlot, h⟩ := h
  split at h
  · cases h
  · next hc =>
      cases h
      exact ⟨Book.asTransfer_eq_ok_iff.1 hid, Book.asText_eq_ok_iff.1 hlot, by simpa using hc⟩

/-- An account that can be closed is the open one of its name. -/
theorem findClosable_ok {b : Book} {name : String} {id : AccountId}
    (h : findClosable b name = .ok id) : b.findOpen name = .ok id := by
  simp only [findClosable] at h
  split at h
  · cases h
  · exact h

theorem requireEmptyAccount_eq_ok_iff {b : Book} {id : AccountId} {name : String} :
    requireEmptyAccount b id name = .ok () ↔ (b.account id).nonzeroHoldings = [] := by
  simp only [requireEmptyAccount]
  split
  · next h => exact iff_of_false (fun e => by cases e) (fun e => by rw [h] at e; cases e)
  · next h => exact iff_of_true rfl h

/-- A lot that can be closed is not the default lot, exists, and holds nothing. -/
theorem requireEmptyLot_eq_ok_iff {b : Book} {id : AccountId} {name lot : String} :
    requireEmptyLot b id name lot = .ok ()
      ↔ lot ≠ defaultLot ∧ ∃ l, (b.account id).lots.get? lot = some l
        ∧ ∀ h ∈ l.values, h.balance.amount.isZero = true := by
  simp only [requireEmptyLot]
  split
  · next hd => exact iff_of_false (fun e => by cases e) (fun h => h.1 hd)
  · next hd =>
      rw [and_iff_right hd]
      cases (b.account id).lots.get? lot with
      | none =>
          refine iff_of_false (fun e => by cases e) ?_
          rintro ⟨l, hl, -⟩
          cases hl
      | some l =>
          dsimp only
          cases hf : l.values.find? (!·.balance.amount.isZero) with
          | none =>
              refine iff_of_true rfl ⟨l, rfl, ?_⟩
              intro h hh
              simpa using List.find?_eq_none.1 hf h hh
          | some h =>
              refine iff_of_false (fun e => by cases e) ?_
              rintro ⟨l', hl, hall⟩
              cases hl
              have hz := hall h (List.mem_of_find?_eq_some hf)
              have := List.find?_some hf
              rw [hz] at this
              cases this

theorem requireValidName_eq_ok_iff {name : String} :
    requireValidName name = .ok () ↔ Account.isValidName name = true := ite_eq_ok_iff

theorem requireLot_eq_ok_iff {b : Book} {id : TransferId} {lot : String} :
    requireLot b id lot = .ok () ↔ b.hasLot (b.transfer id).account lot = true := ite_eq_ok_iff

theorem requireRoom_eq_ok_iff {b : Book} {id : TransferId} {lot : String} :
    requireRoom b id lot = .ok ()
      ↔ b.held (b.transfer id).account lot (b.transfer id).quantity.commodity = none := by
  simp only [requireRoom, Book.held]
  cases ((b.account (b.transfer id).account).holding? lot (b.transfer id).quantity.commodity) with
  | none => exact iff_of_true rfl rfl
  | some h => exact iff_of_false (fun e => by cases e) (fun e => by cases e)

end Words

end Daybook
