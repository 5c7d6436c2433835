import Daybook.Proofs.Balance
import Daybook.Proofs.Worth

/-!
# Within digits — postings that round nothing

While the balances of a book are multiples of a power of ten and stay within fifty digits above it, a
posting adds its quantity to its lot as it is.

* `Within k v`: balances that are multiples of `10 ^ -k` and do not exceed `v`.
* `receive_within`: what is received then is added without rounding.
* `postAll_within`: **checked transfers that stay within the digits are all posted, and the accounts
  together gain the sum of their quantities**.
-/

namespace Daybook

open Decimal (Multiple volume precision)

namespace Book

/-- Every balance is a multiple of `10 ^ -k` and does not exceed `v`. -/
def Within (k : ℕ) (v : ℚ) (b : Book) : Prop :=
  ∀ id lot c, Multiple (-k) (b.inLot id lot c) ∧ |b.inLot id lot c| ≤ v

/-- Balances that are the ones before or zero stay within what held them. -/
theorem Within.of_inLot {k : ℕ} {v : ℚ} {b b' : Book} (hw : b.Within k v)
    (h : ∀ id lot c, b'.inLot id lot c = b.inLot id lot c ∨ b'.inLot id lot c = 0) :
    b'.Within k v := by
  intro id lot c
  obtain ⟨hm, hv⟩ := hw id lot c
  rcases h id lot c with he | he
  · rw [he]
    exact ⟨hm, hv⟩
  · rw [he, abs_zero]
    exact ⟨.zero, (abs_nonneg _).trans hv⟩

/-- Within fifty digits nothing of an amount is lost in its lot. -/
theorem receive_within {k : ℕ} (hk : k ≤ 999999) {v : ℚ} {b : Book} {t : Transfer}
    (hw : b.Within k v) (hd : -(k : ℤ) ≤ t.quantity.amount.exp)
    (hv : v + |t.quantity.amount.toRat| < (10 : ℚ) ^ ((precision : ℤ) - k)) :
    ∃ h, b.receive t (b.held t.account t.lot t.quantity.commodity) = .ok h
      ∧ h.balance.amount.toRat
        = b.inLot t.account t.lot t.quantity.commodity + t.quantity.amount.toRat := by
  obtain ⟨hm, hle⟩ := hw t.account t.lot t.quantity.commodity
  rw [inLot_eq] at hm hle ⊢
  cases hheld : b.held t.account t.lot t.quantity.commodity with
  | none => exact ⟨_, rfl, (zero_add _).symm⟩
  | some h₀ =>
      rw [hheld] at hm hle
      have hsum : |h₀.balance.amount.toRat + t.quantity.amount.toRat|
          < (10 : ℚ) ^ ((precision : ℤ) - k) :=
        (abs_add_le _ _).trans_lt ((add_le_add_left hle _).trans_lt hv)
      obtain ⟨s, hs, hval⟩ := Decimal.add_of_kept <| Decimal.kept_of_multiple hk
        (hm.add ((Decimal.multiple_toRat t.quantity.amount).mono hd)) hsum
      have hadd : Decimal.addTo ((some h₀).map (·.balance.amount)) t.quantity.amount = some s := hs
      obtain ⟨h, hh, htotal⟩ := receive_of_addTo hadd
      exact ⟨h, hh, htotal ▸ hval⟩

/-- A posting that adds its quantity as it is keeps a book within digits. -/
theorem Within.posted {k : ℕ} {v : ℚ} {b : Book} {t : Transfer} {h : Holding} (hw : b.Within k v)
    (ht : t.account < b.accounts.length) (hd : -(k : ℤ) ≤ t.quantity.amount.exp)
    (hh : h.balance.amount.toRat
      = b.inLot t.account t.lot t.quantity.commodity + t.quantity.amount.toRat) :
    (b.posted t h).Within k (v + |t.quantity.amount.toRat|) := by
  intro id lot c
  rw [inLot_posted ht]
  split
  · obtain ⟨hm, hle⟩ := hw t.account t.lot t.quantity.commodity
    rw [hh]
    exact ⟨hm.add ((Decimal.multiple_toRat _).mono hd),
      (abs_add_le _ _).trans (add_le_add_left hle _)⟩
  · obtain ⟨hm, hle⟩ := hw id lot c
    exact ⟨hm, hle.trans (le_add_of_nonneg_right (abs_nonneg _))⟩

end Book

namespace Transaction

/-- The amounts that transfers put into lots. -/
def quantities (ts : List Transfer) : List Decimal := ts.map (·.quantity.amount)

/-- **Checked transfers that stay within the digits are all posted**, and the accounts together gain the
sum of their quantities. -/
theorem postAll_within {k : ℕ} (hk : k ≤ 999999) {v : ℚ} {b : Book} {ts : List Transfer}
    (haccount : ∀ t ∈ ts, t.account < b.accounts.length) (hl : requireLots b ts = .ok ())
    (hw : b.Within k v) (hd : ∀ t ∈ ts, -(k : ℤ) ≤ t.quantity.amount.exp)
    (hv : v + volume (quantities ts) < (10 : ℚ) ^ ((precision : ℤ) - k)) :
    ∃ b', (postAll ts).on b = (.ok (), b') ∧ b'.Within k (v + volume (quantities ts))
      ∧ ∀ c, b'.totalWorth c = b.totalWorth c + (ts.map (·.quantity.into c)).sum := by
  -- what is used of the digits grows with every posting, so the volume is part of the induction
  induction ts generalizing b v with
  | nil =>
      refine ⟨b, rfl, ?_, ?_⟩
      · rw [quantities, List.map_nil, Decimal.volume_nil, add_zero]
        exact hw
      · intro c
        rw [List.map_nil, List.sum_nil, add_zero]
  | cons t ts ih =>
      obtain ⟨ht, haccount⟩ := List.forall_mem_cons.1 haccount
      obtain ⟨hdt, hd⟩ := List.forall_mem_cons.1 hd
      obtain ⟨hlot, hl⟩ := requireLots_cons ht hl
      have hvolume : v + volume (quantities (t :: ts))
          = v + |t.quantity.amount.toRat| + volume (quantities ts) := by
        simp only [quantities]
        rw [List.map_cons, Decimal.volume_cons, add_assoc]
      rw [hvolume] at hv ⊢
      have hfirst := (le_add_of_nonneg_right (Decimal.volume_nonneg (quantities ts))).trans_lt hv
      obtain ⟨h, hh, hval⟩ := Book.receive_within hk hw hdt hfirst
      obtain ⟨b', hb', hw', hworth⟩ := ih
        (fun t' ht' => (Book.length_accounts_posted b t h).symm ▸ haccount t' ht') (hl h)
        (hw.posted ht hdt hval) hd hv
      have hpost : b.post t = .ok (b.posted t h) := Book.post_eq_ok_iff.2 ⟨hlot, h, hh, rfl⟩
      refine ⟨b', postAll_cons_ok_iff.2 ⟨_, hpost, hb'⟩, hw', ?_⟩
      intro c
      rw [hworth, Book.totalWorth_posted ht, hval, add_sub_cancel_left, List.map_cons, List.sum_cons,
        add_assoc]
      rfl

/-- Transfers that balance within fifty digits are worth nothing together, in every commodity. -/
theorem sum_balancesAs_into {k : ℕ} (hk : k ≤ 999999) {b : Book} {ts : List Transfer}
    (hd : Decimal.Bounded k (amounts ts)) (h : requireBalance b ts = .ok ()) (c : String) :
    (ts.map (·.balancesAs.into c)).sum = 0 := by
  obtain ⟨⟨c₀, hc₀⟩, htotal⟩ := (requireBalance_of_bounded b hk hd).1 h
  -- in the commodity of the transaction the sum is that of the check, in any other it is empty
  by_cases hc : c = c₀
  · rw [← htotal]
    simp only [Decimal.exactTotal, amounts]
    rw [List.map_map]
    refine congrArg List.sum (List.map_congr_left fun t ht => ?_)
    exact if_pos (hc.trans (hc₀ t ht).symm)
  · refine List.sum_eq_zero ?_
    intro q hq
    obtain ⟨t, ht, rfl⟩ := List.mem_map.1 hq
    exact if_neg fun h => hc (h.trans (hc₀ t ht))

end Transaction

end Daybook
