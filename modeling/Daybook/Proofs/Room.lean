import Daybook.Proofs.Posting
import Daybook.Reader

/-!
# Room — transactions that are applied as a whole

The checks before the postings see to accounts, lots and the balance, but not to the range of what the
lots will hold.  A book *has room* for transfers if every balance that they change on their way stays in
range.

* `postAll_ok_iff_hasRoom`: after the checks all postings go through just when there is room.
* `allOrNothing_iff_hasRoom`: **a transaction is applied as a whole or not at all just when the book has
  room for what passes the checks**.  Without room, the transfers before the one that leaves the range
  are applied, and no others.
* `apply_partly`: a run that ends with two of five transfers applied.
-/

namespace Daybook

namespace Decimal

/-- Every balance on the way stays in range while amounts are added. -/
def Fits : Option Decimal → List Decimal → Prop
  | _, [] => True
  | balance, d :: ds => ∃ total, addTo balance d = some total ∧ Fits (some total) ds

end Decimal

namespace Transaction

/-- The amounts that go into one commodity in one lot of one account, in their order. -/
def amountsInto (ts : List Transfer) (id : AccountId) (lot commodity : String) : List Decimal :=
  (ts.filter fun t => decide (id = t.account ∧ lot = t.lot ∧ commodity = t.quantity.commodity)).map
    (·.quantity.amount)

/-- Every balance that transfers change on their way stays in range. -/
def HasRoom (b : Book) (ts : List Transfer) : Prop :=
  ∀ id lot commodity, Decimal.Fits (b.balanceOf id lot commodity) (amountsInto ts id lot commodity)

theorem amountsInto_cons (t : Transfer) (ts : List Transfer) (id : AccountId) (lot c : String) :
    amountsInto (t :: ts) id lot c
      = if id = t.account ∧ lot = t.lot ∧ c = t.quantity.commodity then
          t.quantity.amount :: amountsInto ts id lot c
        else amountsInto ts id lot c := by
  simp only [amountsInto]
  rw [List.filter_cons]
  by_cases hk : id = t.account ∧ lot = t.lot ∧ c = t.quantity.commodity
  · rw [if_pos (decide_eq_true hk), if_pos hk, List.map_cons]
  · rw [if_neg (by simpa using hk), if_neg hk]

/-- There is room for transfers if there is room for the first, and for the others after it. -/
theorem hasRoom_cons {b : Book} {t : Transfer} (ts : List Transfer)
    (ht : t.account < b.accounts.length) :
    HasRoom b (t :: ts)
      ↔ ∃ h, b.receive t (b.held t.account t.lot t.quantity.commodity) = .ok h
        ∧ HasRoom (b.posted t h) ts := by
  -- the first transfer changes the one balance under its key, and no other
  constructor
  · intro hroom
    have hfirst := hroom t.account t.lot t.quantity.commodity
    rw [amountsInto_cons, if_pos ⟨rfl, rfl, rfl⟩] at hfirst
    obtain ⟨total, hadd, hrest⟩ := hfirst
    obtain ⟨h, hh, htotal⟩ := Book.receive_of_addTo hadd
    refine ⟨h, hh, fun id lot c => ?_⟩
    have hthis := hroom id lot c
    rw [amountsInto_cons] at hthis
    rw [Book.balanceOf_posted ht]
    by_cases hk : id = t.account ∧ lot = t.lot ∧ c = t.quantity.commodity
    · obtain ⟨rfl, rfl, rfl⟩ := hk
      rw [if_pos ⟨rfl, rfl, rfl⟩, htotal]
      exact hrest
    · rw [if_neg hk] at hthis ⊢
      exact hthis
  · rintro ⟨h, hh, hroom⟩ id lot c
    have hthis := hroom id lot c
    rw [Book.balanceOf_posted ht] at hthis
    rw [amountsInto_cons]
    by_cases hk : id = t.account ∧ lot = t.lot ∧ c = t.quantity.commodity
    · obtain ⟨rfl, rfl, rfl⟩ := hk
      rw [if_pos ⟨rfl, rfl, rfl⟩] at hthis ⊢
      exact ⟨_, Book.receive_ok hh, hthis⟩
    · rw [if_neg hk] at hthis ⊢
      exact hthis

/-- After the checks all postings go through just when there is room. -/
theorem postAll_ok_iff_hasRoom {b : Book} {ts : List Transfer}
    (hv : ∀ t ∈ ts, t.account < b.accounts.length) (hl : requireLots b ts = .ok ()) :
    (∃ b', (postAll ts).on b = (.ok (), b')) ↔ HasRoom b ts := by
  induction ts generalizing b with
  | nil => exact iff_of_true ⟨b, rfl⟩ fun _ _ _ => trivial
  | cons t ts ih =>
      obtain ⟨ht, hv⟩ := List.forall_mem_cons.1 hv
      obtain ⟨hlot, hl⟩ := requireLots_cons ht hl
      rw [hasRoom_cons ts ht]
      have hrest : ∀ h, (∃ b', (postAll ts).on (b.posted t h) = (.ok (), b'))
          ↔ HasRoom (b.posted t h) ts := fun h =>
        ih (fun t' ht' => (Book.length_accounts_posted b t h).symm ▸ hv t' ht') (hl h)
      constructor
      · rintro ⟨b', hb⟩
        obtain ⟨b₁, hpost, hb⟩ := postAll_cons_ok_iff.1 hb
        obtain ⟨-, h, hh, rfl⟩ := Book.post_eq_ok_iff.1 hpost
        exact ⟨h, hh, (hrest h).1 ⟨b', hb⟩⟩
      · rintro ⟨h, hh, hroom⟩
        obtain ⟨b', hb⟩ := (hrest h).2 hroom
        exact ⟨b', postAll_cons_ok_iff.2 ⟨_, Book.post_eq_ok_iff.2 ⟨hlot, h, hh, rfl⟩, hb⟩⟩

/-! ### Transactions as a whole -/

/-- What the checks pass is posted as a whole, and a transaction that breaks off has changed nothing. -/
def AllOrNothing (x : Transaction) (b : Book) : Prop :=
  (check b (x.transfers.map b.transfer) = .ok () →
      ∃ b', (postAll (x.transfers.map b.transfer)).on b = (.ok (), b'))
    ∧ ∀ fault b', x.apply.on b = (.error fault, b') → b' = b

/-- **A transaction is applied as a whole or not at all just when the book has room for what passes the
checks.**  Without room, the transfers before the one that leaves the range are applied, and no others. -/
theorem allOrNothing_iff_hasRoom (x : Transaction) (b : Book) :
    (AllOrNothing x b ↔ (check b (x.transfers.map b.transfer) = .ok () →
        HasRoom b (x.transfers.map b.transfer)))
      ∧ (check b (x.transfers.map b.transfer) = .ok () →
          ¬ HasRoom b (x.transfers.map b.transfer) →
            ∃ before t after b', x.transfers.map b.transfer = before ++ t :: after
              ∧ (postAll before).on b = (.ok (), b')
              ∧ b'.post t = .error (.exceeded .amount)
              ∧ x.apply.on b = (.error (.exceeded .amount), b')) := by
  have hroom : check b (x.transfers.map b.transfer) = .ok () →
      ((∃ b', (postAll (x.transfers.map b.transfer)).on b = (.ok (), b'))
        ↔ HasRoom b (x.transfers.map b.transfer)) := fun hc =>
    postAll_ok_iff_hasRoom (account_lt_of_check hc) (check_eq_ok_iff.1 hc).2.2
  refine ⟨⟨fun h hc => (hroom hc).1 (h.1 hc), fun h => ⟨fun hc => (hroom hc).2 (h hc), ?_⟩⟩, ?_⟩
  · intro fault b' hx
    rcases apply_error_iff.1 hx with ⟨-, rfl⟩ | ⟨hc, hp⟩
    · rfl
    · obtain ⟨b₁, hb₁⟩ := (hroom hc).2 (h hc)
      rw [hb₁] at hp
      cases hp
  · intro hc hno
    cases hp : (postAll (x.transfers.map b.transfer)).on b with
    | mk r b' =>
        cases r with
        | ok u => exact absurd ((hroom hc).1 ⟨b', hp⟩) hno
        | error fault =>
            obtain ⟨before, t, after, hts, hb, ht⟩ := postAll_error hp
            -- no posting is refused after the checks, so this one leaves the range
            have hfault : fault = .exceeded .amount := by
              cases fault with
              | refused ground =>
                  exact absurd hp
                    (postAll_not_refused (account_lt_of_check hc) (check_eq_ok_iff.1 hc).2.2)
              | exceeded excess =>
                  rw [Book.post_eq] at ht
                  split at ht
                  · cases hr : b'.receive t (b'.held t.account t.lot t.quantity.commodity) with
                    | ok h => rw [hr] at ht; cases ht
                    | error fault' =>
                        rw [hr] at ht
                        cases ht
                        exact Book.receive_error hr
                  · cases ht
            subst hfault
            exact ⟨before, t, after, b', hts, hb, ht, apply_error_iff.2 (.inr ⟨hc, hp⟩)⟩

/-- A ledger whose only transaction passes the checks and brings one account out of range on the way,
though not in the end. -/
def outOfRange : String :=
  "(U d commodity) (Assets:A open) (Assets:B open) (Assets:C open) X y
  Assets:A 9E999999 U xfer Assets:B -9E999999 U xfer Assets:A 5E999999 U xfer
  Assets:A -6E999999 U xfer Assets:C 1E999999 U xfer xact"

/-- A run that ends with two of five transfers applied. -/
theorem apply_partly :
    (Book.ofSource outOfRange).1 = .exceeded .amount
      ∧ (Book.ofSource outOfRange).2.accounts.map (·.balance? defaultLot "U")
        = [some ⟨false, 9, 999999⟩, some ⟨true, 9, 999999⟩, some .zero] := by
  decide +kernel

end Transaction

end Daybook
