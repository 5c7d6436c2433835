import Daybook.Proofs.Closing
import Daybook.Proofs.Drafts
import Daybook.Proofs.Run
import Daybook.Proofs.Within

/-!
# Conservation — what accounts hold is what was applied

The amounts that a book has drafted are known, and as long as they stay within fifty digits nothing is
rounded: not in the check of a balance, and not in any lot.  Then the accounts together hold of every
commodity what the exchanges among the applied transfers brought in, and nothing else.

* `Still`: a change that moves no amounts.
* `Conserved`: lots stay within digits, and all accounts together hold what was gained.
* `Conserved.turn`: **every turn keeps a book conserved while its drafts stay within fifty digits**.
* `Sound`: what every token keeps of a machine.
* `worth_eq_gained`: **in every book that a reading reaches, the current accounts hold what the applied
  exchanges brought in**, so nothing at all if there were none.
-/

namespace Daybook

open Decimal (Bounded volume precision)
open Transaction (quantities)

namespace Transfer

/-- The amounts of a transfer: its quantity, and the total price if it is an exchange. -/
def amounts (t : Transfer) : List Decimal :=
  t.quantity.amount :: (t.rate.map (·.totalPrice.amount)).toList

/-- What an exchange brings in of a commodity; other transfers only move it. -/
def gain (t : Transfer) (commodity : String) : ℚ :=
  match t.rate with
  | none => 0
  | some r => t.quantity.into commodity - r.totalPrice.into commodity

/-- What is transferred is what balances, and the gain. -/
theorem into_quantity (t : Transfer) (c : String) :
    t.quantity.into c = t.balancesAs.into c + t.gain c := by
  simp only [balancesAs, gain]
  cases t.rate with
  | none => exact (add_zero _).symm
  | some r => exact (add_sub_cancel _ _).symm

theorem balancesAs_mem_amounts (t : Transfer) : t.balancesAs.amount ∈ t.amounts := by
  simp only [balancesAs, amounts]
  cases t.rate with
  | none => exact List.mem_cons_self
  | some r => exact List.mem_cons_of_mem _ List.mem_cons_self

end Transfer

namespace Transaction

theorem quantities_sublist (ts : List Transfer) :
    (quantities ts).Sublist (ts.flatMap Transfer.amounts) := by
  induction ts with
  | nil => exact .refl _
  | cons t ts ih =>
      rw [List.flatMap_cons]
      exact (ih.trans (List.sublist_append_right _ _)).cons_cons _

theorem amounts_sublist (ts : List Transfer) :
    (amounts ts).Sublist (ts.flatMap Transfer.amounts) := by
  induction ts with
  | nil => exact .refl _
  | cons t ts ih =>
      rw [List.flatMap_cons]
      exact (List.singleton_sublist.2 t.balancesAs_mem_amounts).append ih

/-- Bindings and comments do not matter to what is put into lots. -/
theorem quantities_congr {ts ts' : List Transfer}
    (h : ts'.map Transfer.unbound = ts.map Transfer.unbound) : quantities ts' = quantities ts := by
  have hq := congrArg quantities h
  simp only [quantities] at hq
  rwa [List.map_map, List.map_map] at hq

theorem sum_gain_congr {ts ts' : List Transfer}
    (h : ts'.map Transfer.unbound = ts.map Transfer.unbound) (c : String) :
    (ts'.map (·.gain c)).sum = (ts.map (·.gain c)).sum := by
  have hg := congrArg (fun ts => (ts.map (·.gain c)).sum) h
  rwa [List.map_map, List.map_map] at hg

theorem sum_into_quantity (ts : List Transfer) (c : String) :
    (ts.map (·.quantity.into c)).sum
      = (ts.map (·.balancesAs.into c)).sum + (ts.map (·.gain c)).sum := by
  rw [← List.sum_map_add]
  exact congrArg List.sum (List.map_congr_left fun t _ => t.into_quantity c)

end Transaction

namespace Book

/-- The amounts of all drafts. -/
def amounts (b : Book) : List Decimal := b.transfers.flatMap Transfer.amounts

/-- The transfers that were applied, the last transaction first. -/
def appliedTransfers (b : Book) : List Transfer := b.appliedIds.map b.transfer

/-- What the applied exchanges brought in of a commodity. -/
def gained (b : Book) (commodity : String) : ℚ := (b.appliedTransfers.map (·.gain commodity)).sum

/-! ### Changes that move no amounts -/

/-- A change that moves no amounts: balances stay, or are zero in lots that come or go. -/
structure Still (b b' : Book) : Prop where
  inLot : ∀ id lot c, b'.inLot id lot c = b.inLot id lot c ∨ b'.inLot id lot c = 0
  totalWorth : ∀ c, b'.totalWorth c = b.totalWorth c

theorem inLot_congr {b b' : Book} {id : AccountId} (h : (b'.account id).lots = (b.account id).lots)
    (lot c : String) : b'.inLot id lot c = b.inLot id lot c := by
  simp only [inLot, Account.inLot, Account.holding?]
  rw [h]

theorem Quiet.still {b b' : Book} (h : b.Quiet b') : Still b b' := by
  refine ⟨fun id lot c => .inl (inLot_congr (h.lots id) lot c), ?_⟩
  intro c
  have hsum := congrArg (fun as => (as.map (Account.worth · c)).sum) h.accounts
  rwa [List.map_map, List.map_map] at hsum

theorem still_advance {b b' : Book} {date : Date} (h : b.advance date = .ok b') : Still b b' := by
  obtain ⟨-, rfl⟩ := advance_ok h
  exact ⟨fun _ _ _ => .inl rfl, fun _ => rfl⟩

theorem still_opening (b : Book) (name : String) (allowed : List String) :
    Still b (b.opening name allowed) := by
  constructor
  · intro id lot c
    by_cases hid : id = b.accounts.length
    · refine .inr ?_
      simp only [inLot, Account.inLot]
      rw [account_opening, if_pos hid, Account.holding?_new]
      rfl
    · refine .inl (inLot_congr ?_ lot c)
      rw [account_opening, if_neg hid]
  · intro c
    show ((b.accounts ++ [_]).map _).sum = (b.accounts.map _).sum
    rw [List.map_append, List.sum_append, List.map_singleton, List.sum_singleton, Account.worth_new,
      add_zero]

theorem still_closeAccount {b : Book} {id : AccountId} (h : id < b.accounts.length) :
    Still b (b.closeAccount id) := by
  refine ⟨fun i lot c => .inl (inLot_congr ?_ lot c), ?_⟩
  · rw [account_closeAccount h]
    split <;> rfl
  · intro c
    have hu := totalWorth_update h (fun a => { a with closed := some b.date }) c
    rwa [show (Account.worth { b.account id with closed := some b.date } c) = (b.account id).worth c
      from rfl, sub_self, add_zero] at hu

/-- A lot that is closed held nothing but zeros. -/
theorem still_closeLot {b : Book} {id : AccountId} (h : id < b.accounts.length) {lot : String}
    {l : Lot} (hl : (b.account id).lots.get? lot = some l)
    (hz : ∀ held ∈ l.values, held.balance.amount.isZero = true) : Still b (b.closeLot id lot) := by
  constructor
  · intro i x c
    simp only [inLot, Account.inLot, Account.holding?]
    rw [account_closeLot h]
    split
    · rw [Table.get?_erase]
      split
      · exact .inr rfl
      · exact .inl rfl
    · exact .inl rfl
  · intro c
    have hu := totalWorth_update h (fun a => { a with lots := a.lots.erase lot }) c
    rwa [Account.worth_erase hl hz, sub_self, add_zero] at hu

theorem still_draft (b : Book) (t : Transfer) : Still b (b.draft t) :=
  ⟨fun _ _ _ => .inl rfl, fun _ => rfl⟩

/-! ### What was applied -/

theorem SameDrafts.appliedTransfers {b b' : Book} (h : SameDrafts b b') :
    b'.appliedTransfers.map Transfer.unbound = b.appliedTransfers.map Transfer.unbound := by
  simp only [Book.appliedTransfers]
  rw [h.applied]
  exact h.map_transfer _

/-- One more draft does not change those before. -/
theorem appliedTransfers_draft {b : Book} (h : ∀ id ∈ b.appliedIds, id < b.transfers.length)
    (t : Transfer) : (b.draft t).appliedTransfers = b.appliedTransfers := by
  refine List.map_congr_left ?_
  intro id hid
  show (b.transfers ++ [t]).getD id default = b.transfers.getD id default
  rw [List.getD_append _ _ _ _ (h id hid)]

/-- The amounts of the drafts before a turn are among those after it. -/
theorem amounts_grow {b b' : Book} {ids ids' : List TransferId} (h : Turn ids b ids' b') :
    b.amounts <+: b'.amounts := by
  obtain ⟨more, hmore⟩ := h.transfers_grow
  have hflat := congrArg (List.flatMap Transfer.amounts) hmore
  rw [List.flatMap_append, List.flatMap_map, List.flatMap_map] at hflat
  exact ⟨_, hflat⟩

/-- The lots hold what was applied, to the last digit: no balance exceeds the volume of the applied
quantities, and all accounts together hold what was gained. -/
structure Conserved (k : ℕ) (b : Book) : Prop where
  within : b.Within k (volume (quantities b.appliedTransfers))
  totalWorth : ∀ c, b.totalWorth c = b.gained c

theorem conserved_empty (k : ℕ) : Conserved k .empty := by
  have hnone : ∀ id lot c, inLot .empty id lot c = 0 := by
    intro id lot c
    simp only [inLot, Account.inLot]
    rw [show account .empty id = .new "" .zero ∅ from rfl, Account.holding?_new]
    rfl
  refine ⟨?_, fun _ => rfl⟩
  intro id lot c
  rw [hnone, abs_zero]
  exact ⟨.zero, Decimal.volume_nonneg _⟩

namespace Conserved

variable {k : ℕ} {b b' : Book}

theorem still (hb : Conserved k b) (h : b.Still b')
    (happlied : b'.appliedTransfers.map Transfer.unbound = b.appliedTransfers.map Transfer.unbound) :
    Conserved k b' := by
  constructor
  · rw [Transaction.quantities_congr happlied]
    exact hb.within.of_inLot h.inLot
  · intro c
    rw [h.totalWorth, hb.totalWorth]
    exact (Transaction.sum_gain_congr happlied c).symm

/-- What is taken off the stack is posted without rounding, and the accounts together gain what its
exchanges bring in. -/
theorem postAll (hk : k ≤ 999999) {ids ids' taken : List TransferId} (hb : Conserved k b)
    (hu : b.UsedOnce ids) (hd : Bounded k b.amounts) (hids : (taken.reverse ++ ids').Sublist ids)
    (hc : Transaction.check b (taken.map b.transfer) = .ok ()) :
    ∃ b₁, (Transaction.postAll (taken.map b.transfer)).on b = (.ok (), b₁)
      ∧ b₁.Within k (volume (quantities ((taken ++ b.appliedIds).map b.transfer)))
      ∧ ∀ c, b₁.totalWorth c = (((taken ++ b.appliedIds).map b.transfer).map (·.gain c)).sum := by
  -- what was applied and what is applied now are different drafts, so together they stay in bounds
  obtain ⟨hnodup, hdrafted⟩ := hu.applying hids
  obtain ⟨l, hperm, hsub⟩ := subperm_transfers (List.nodup_append.1 hnodup).1
    fun id hid => hdrafted id (List.mem_append_left _ hid)
  have hall : Bounded k (((taken ++ b.appliedIds).map b.transfer).flatMap Transfer.amounts) :=
    (hd.sublist (hsub.flatMap _)).perm (hperm.flatMap_right _).symm
  rw [List.map_append] at hall ⊢
  have hquantities := hall.sublist (Transaction.quantities_sublist _)
  have hamounts := hall.sublist <| (Transaction.amounts_sublist _).trans <|
    (List.sublist_append_left (taken.map b.transfer) _).flatMap Transfer.amounts
  simp only [quantities] at hquantities ⊢
  rw [List.map_append] at hquantities ⊢
  have hvolume := hquantities.volume_lt
  rw [Decimal.volume_append, Rat.add_comm] at hvolume ⊢
  obtain ⟨hbalance, -, hlots⟩ := Transaction.check_eq_ok_iff.1 hc
  obtain ⟨b₁, hp, hw, hworth⟩ := Transaction.postAll_within hk (Transaction.account_lt_of_check hc)
    hlots hb.within (fun t ht => hquantities.exp_ge _ (List.mem_append_left _ (List.mem_map_of_mem ht)))
    hvolume
  refine ⟨b₁, hp, hw, ?_⟩
  intro c
  rw [hworth, hb.totalWorth, Transaction.sum_into_quantity,
    Transaction.sum_balancesAs_into hk hamounts hbalance, zero_add, List.map_append, List.sum_append,
    Rat.add_comm]
  rfl

/-- **Every turn keeps a book conserved while its drafts stay within fifty digits.** -/
theorem turn (hk : k ≤ 999999) {ids ids' : List TransferId} (hb : Conserved k b)
    (hu : b.UsedOnce ids) (hd : Bounded k b.amounts) (h : Turn ids b ids' b') : Conserved k b' := by
  cases h with
  | quiet _ hq => exact hb.still hq.still hq.sameDrafts.appliedTransfers
  | advanced _ ha => exact hb.still (still_advance ha) (sameDrafts_advance ha).appliedTransfers
  | opened _ ho =>
      have hsame := (sameDrafts_openAccount ho).appliedTransfers
      obtain ⟨-, rfl⟩ := openAccount_ok ho
      exact hb.still (still_opening b _ _) hsame
  | closed _ hid _ => exact hb.still (still_closeAccount (lt_of_findOpen hid)) rfl
  | lotClosed _ hid hl hz => exact hb.still (still_closeLot (lt_of_findOpen hid) hl hz) rfl
  | drafted _ _ =>
      refine hb.still (still_draft b _) ?_
      rw [appliedTransfers_draft fun id hid => hu.drafted id (List.mem_append_left _ hid)]
  | @applied _ _ x hids hx =>
      obtain ⟨hc, b₁, hp, rfl⟩ := Transaction.apply_eq_ok_iff.1 hx
      obtain ⟨b₂, hp₂, hw, hworth⟩ := hb.postAll hk hu hd hids hc
      cases hp.symm.trans hp₂
      -- the record holds what was taken off the stack, and what was applied before
      have hsame := sameDrafts_postAll hp
      have happlied :
          (b₁.record (.applied x.entity x.description x.transfers)).appliedTransfers.map .unbound
            = ((x.transfers ++ b.appliedIds).map b.transfer).map Transfer.unbound := by
        rw [← hsame.map_transfer, ← hsame.applied]
        rfl
      constructor
      · rw [Transaction.quantities_congr happlied]
        exact hw
      · intro c
        exact (hworth c).trans (Transaction.sum_gain_congr happlied c).symm
  | brokenOff hids hx =>
      rcases Transaction.apply_error_iff.1 hx with ⟨-, rfl⟩ | ⟨hc, hp⟩
      · exact hb
      · obtain ⟨b₂, hp₂, -⟩ := hb.postAll hk hu hd hids hc
        cases hp.symm.trans hp₂

end Conserved

/-! ### Books that a reading reaches -/

/-- A machine between two tokens: its book is orderly, transfers are used once, and amounts are conserved
while the drafts stay within fifty digits. -/
structure Sound (k : ℕ) (m : Machine Book) : Prop where
  orderly : m.context.Orderly
  usedOnce : m.context.UsedOnce m.stack.transferIds
  conserved : Bounded k m.context.amounts → Conserved k m.context

theorem Sound.start (k : ℕ) : Sound k (.start .empty) :=
  ⟨orderly_empty, .empty, fun _ => conserved_empty k⟩

/-- Every token keeps a machine sound. -/
theorem Sound.step {k : ℕ} (hk : k ≤ 999999) {m : Machine Book} (h : Sound k m) (t : Token) :
    Sound k (m.step .core t).2 := by
  have hturn := m.step_turn t
  refine ⟨h.orderly.turn hturn, h.usedOnce.turn hturn, ?_⟩
  intro hd'
  -- the drafts before the token are among those after it
  have hd : Bounded k m.context.amounts := hd'.sublist (amounts_grow hturn).sublist
  exact (h.conserved hd).turn hk h.usedOnce hd hturn

/-- So tokens keep a machine sound, whatever they are. -/
theorem Sound.feed {k : ℕ} (hk : k ≤ 999999) (ts : List Token) :
    Sound k ((Machine.start .empty).feed .core ts) :=
  Machine.feed_induction (fun _ t h => h.step hk t) ts (.start k)

/-- **In every book that a reading reaches, the current accounts hold what the applied exchanges brought
in**, as long as the amounts drafted so far stay within fifty digits.  So they hold nothing at all of any
commodity if no exchange was applied. -/
theorem worth_eq_gained {source : String} {k : ℕ} (hk : k ≤ 999999) {b : Book}
    (hb : b.Reached source) (hd : Bounded k b.amounts) (c : String) :
    b.worth c = b.gained c ∧ ((∀ t ∈ b.appliedTransfers, t.rate = none) → b.worth c = 0) := by
  obtain ⟨ts, -, rfl⟩ := hb
  have hsound := Sound.feed hk ts
  have hworth : (after ts).worth c = (after ts).gained c := by
    refine (worth_eq_totalWorth ?_).trans ((hsound.conserved hd).totalWorth c)
    -- accounts that are superseded are closed, and what is closed holds nothing
    intro id hlt hcur
    have hclosed := hsound.orderly.superseded id hlt hcur
    exact Account.worth_of_empty (hsound.orderly.closed_empty id hclosed) c
  refine ⟨hworth, fun hrates => hworth.trans (List.sum_eq_zero ?_)⟩
  intro q hq
  obtain ⟨t, ht, rfl⟩ := List.mem_map.1 hq
  simp only [Transfer.gain]
  rw [hrates t ht]

/-- A ledger that buys two euros for six dollars. -/
def purchase : String :=
  "(USD d commodity) (EUR e commodity) (Assets:A open) (Assets:B open) X y
  Assets:A 2 EUR 3 USD 6 USD xfer-exch Assets:B -6 USD xfer xact"

/-- The accounts hold two euros, and are six dollars short. -/
theorem worth_purchase :
    (ofSource purchase).2.worth "EUR" = 2 ∧ (ofSource purchase).2.worth "USD" = -6 := by
  have hbook : (ofSource purchase).2.appliedIds = [0, 1] ∧ (ofSource purchase).2.transfers =
      [{ account := 0, quantity := ⟨⟨false, 2, 0⟩, "EUR"⟩,
         rate := some ⟨⟨⟨false, 3, 0⟩, "USD"⟩, ⟨⟨false, 6, 0⟩, "USD"⟩⟩ },
       { account := 1, quantity := ⟨⟨true, 6, 0⟩, "USD"⟩ }] := by
    decide +kernel
  have hd : Bounded 0 (ofSource purchase).2.amounts := by
    simp only [amounts]
    rw [hbook.2]
    refine ⟨by decide, ?_⟩
    norm_num [Transfer.amounts, Decimal.volume, Decimal.toRat, Decimal.precision]
  have hworth := fun c => (worth_eq_gained (Nat.zero_le _) (reached_ofSource purchase) hd c).1
  rw [hworth, hworth]
  unfold gained appliedTransfers transfer
  rw [hbook.1, hbook.2]
  norm_num [Transfer.gain, Quantity.into, Decimal.toRat]
  decide

end Book

end Daybook
