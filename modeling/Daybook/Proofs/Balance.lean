import Daybook.Proofs.Decimal.Running
import Daybook.Transaction

/-!
# Balance — what the check of a transaction accepts

Transfers balance if all are in one commodity and their exact sum is zero.  The check adds the amounts
up with rounding after each, so it decides on what the rounding leaves.

* `requireBalance_eq_ok_iff`: transfers are accepted just when they are in one commodity and the
  roundings on the way take away the whole of their sum.
* `requireBalance_exact_iff`: **where the check decides as exact arithmetic would**: the roundings take
  away nothing from a sum of zero, and do not take away the whole of any other one.  They take away
  nothing, in any order, from amounts that stay within fifty digits.
* `requireBalance_not_exact`: the check accepts a sum of one, and refuses a sum of zero that it accepts
  in another order.
-/

namespace Daybook.Transaction

open Decimal (roundingLoss exactTotal Bounded)

/-- The amounts that take part in balancing. -/
def amounts (ts : List Transfer) : List Decimal := ts.map (·.balancesAs.amount)

/-- All transfers balance in one commodity. -/
def OneCommodity (ts : List Transfer) : Prop := ∃ c, ∀ t ∈ ts, t.balancesAs.commodity = c

theorem oneCommodity_perm {ts ts' : List Transfer} (h : ts'.Perm ts) :
    OneCommodity ts' ↔ OneCommodity ts :=
  exists_congr fun _ => forall_congr' fun _ => imp_congr_left h.mem_iff

theorem addUp_eq_ok_iff (b : Book) (first : Transfer) {total s : Decimal} {ts : List Transfer} :
    addUp b first total ts = .ok s
      ↔ (∀ t ∈ ts, t.balancesAs.commodity = first.balancesAs.commodity)
        ∧ (amounts ts).foldlM Decimal.add total = some s := by
  induction ts generalizing total with
  | nil => simp [addUp, amounts]
  | cons t ts ih =>
      have hfold : (amounts (t :: ts)).foldlM Decimal.add total
          = (total.add t.balancesAs.amount).bind fun r => (amounts ts).foldlM Decimal.add r :=
        List.foldlM_cons
      rw [hfold, List.forall_mem_cons]
      simp only [addUp]
      by_cases hc : t.balancesAs.commodity = first.balancesAs.commodity
      · rw [if_neg (not_not_intro hc), and_iff_right hc]
        cases total.add t.balancesAs.amount with
        | none => exact ⟨nofun, nofun⟩
        | some r => exact ih
      · rw [if_pos hc]
        exact ⟨nofun, fun h => absurd h.1.1 hc⟩

/-- Transfers are accepted when they are in one commodity and their running sum ends at zero. -/
theorem requireBalance_eq_ok_iff_sum (b : Book) (ts : List Transfer) :
    requireBalance b ts = .ok ()
      ↔ OneCommodity ts ∧ ∃ s, Decimal.sum (amounts ts) = some s ∧ s.toRat = 0 := by
  cases ts with
  | nil => exact ⟨fun _ => ⟨⟨"", fun _ => nofun⟩, .zero, rfl, Decimal.toRat_zero⟩, fun _ => rfl⟩
  | cons first ts =>
      have hcheck : requireBalance b (first :: ts) = .ok ()
          ↔ ∃ s, addUp b first .zero (first :: ts) = .ok s ∧ s.isZero = true := by
        refine bind_eq_ok_iff.trans (exists_congr fun s => and_congr_right fun _ => ?_)
        cases s.isZero with
        | true => exact ⟨fun _ => rfl, fun _ => rfl⟩
        | false => exact ⟨nofun, nofun⟩
      rw [hcheck]
      -- the check compares with the first transfer; the statement asks for some commodity in common
      constructor
      · rintro ⟨s, hs, hz⟩
        obtain ⟨hc, hsum⟩ := (addUp_eq_ok_iff b first).1 hs
        exact ⟨⟨_, hc⟩, s, hsum, Decimal.toRat_eq_zero_iff.2 hz⟩
      · rintro ⟨⟨c, hc⟩, s, hsum, hz⟩
        refine ⟨s, (addUp_eq_ok_iff b first).2 ⟨?_, hsum⟩, Decimal.toRat_eq_zero_iff.1 hz⟩
        intro t ht
        rw [hc t ht, hc first List.mem_cons_self]

/-- Transfers are accepted just when they are in one commodity and the roundings on the way take away
the whole of their sum. -/
theorem requireBalance_eq_ok_iff (b : Book) (ts : List Transfer) :
    requireBalance b ts = .ok ()
      ↔ OneCommodity ts
        ∧ roundingLoss .zero (amounts ts) = some (exactTotal (amounts ts)) := by
  rw [requireBalance_eq_ok_iff_sum, Decimal.roundingLoss_eq, Decimal.toRat_zero, zero_add]
  refine and_congr_right ?_
  intro _
  show (∃ s, (amounts ts).foldlM Decimal.add .zero = some s ∧ _) ↔ _
  cases (amounts ts).foldlM Decimal.add .zero with
  | none => exact ⟨nofun, nofun⟩
  | some s => simp [sub_eq_self]

/-- Amounts that stay within fifty digits are accepted when their exact sum is zero. -/
theorem requireBalance_of_bounded (b : Book) {k : ℕ} (hk : k ≤ 999999) {ts : List Transfer}
    (h : Bounded k (amounts ts)) :
    requireBalance b ts = .ok () ↔ OneCommodity ts ∧ exactTotal (amounts ts) = 0 := by
  obtain ⟨s, hs, hval⟩ := Decimal.sum_of_bounded hk h
  rw [requireBalance_eq_ok_iff_sum, ← hval]
  refine and_congr_right fun _ => ⟨?_, fun hz => ⟨s, hs, hz⟩⟩
  rintro ⟨r, hr, hr₀⟩
  cases hs.symm.trans hr
  exact hr₀

/-- **The check decides as exact arithmetic would** on transfers in one commodity just when the roundings
take away nothing from a sum of zero, and do not take away the whole of any other sum.  On amounts that
stay within fifty digits it does so in any order. -/
theorem requireBalance_exact_iff (b : Book) (ts : List Transfer) :
    ((requireBalance b ts = .ok () ↔ OneCommodity ts ∧ exactTotal (amounts ts) = 0)
        ↔ (OneCommodity ts →
          if exactTotal (amounts ts) = 0 then roundingLoss .zero (amounts ts) = some 0
          else roundingLoss .zero (amounts ts) ≠ some (exactTotal (amounts ts))))
      ∧ ∀ k : ℕ, k ≤ 999999 → Bounded k (amounts ts) → ∀ ts', ts'.Perm ts →
          (requireBalance b ts' = .ok () ↔ OneCommodity ts ∧ exactTotal (amounts ts) = 0) := by
  constructor
  · rw [requireBalance_eq_ok_iff, and_congr_right_iff]
    refine imp_congr_right ?_
    intro _
    split
    · next h => rw [h, iff_true_right rfl]
    · next h => rw [iff_false_right h]
  · intro k hk h ts' hp
    have hp' : (amounts ts').Perm (amounts ts) := hp.map _
    rw [requireBalance_of_bounded b hk (h.perm hp'), oneCommodity_perm hp,
      Decimal.exactTotal_perm hp']

/-- A transfer of dollars that is not bound to a lot. -/
def dollars (amount : Decimal) : Transfer := { account := 0, quantity := ⟨amount, "USD"⟩ }

/-- The check accepts `1E60`, `1` and `-1E60`, whose sum is one.  It refuses `1E60`, `1`, `-1E60` and
`-1`, whose sum is zero, and accepts the same amounts in another order. -/
theorem requireBalance_not_exact :
    (requireBalance .empty ([⟨false, 1, 60⟩, ⟨false, 1, 0⟩, ⟨true, 1, 60⟩].map dollars) = .ok ()
        ∧ exactTotal (amounts ([⟨false, 1, 60⟩, ⟨false, 1, 0⟩, ⟨true, 1, 60⟩].map dollars)) = 1)
      ∧ (requireBalance .empty
            ([⟨false, 1, 60⟩, ⟨false, 1, 0⟩, ⟨true, 1, 60⟩, ⟨true, 1, 0⟩].map dollars) ≠ .ok ()
        ∧ exactTotal (amounts
            ([⟨false, 1, 60⟩, ⟨false, 1, 0⟩, ⟨true, 1, 60⟩, ⟨true, 1, 0⟩].map dollars)) = 0)
      ∧ requireBalance .empty
            ([⟨false, 1, 60⟩, ⟨true, 1, 60⟩, ⟨false, 1, 0⟩, ⟨true, 1, 0⟩].map dollars) = .ok () := by
  refine ⟨⟨rfl, ?_⟩, ⟨?_, ?_⟩, rfl⟩
  · norm_num [amounts, dollars, Transfer.balancesAs, Decimal.toRat]
  · intro h
    have hz : ∃ s, Decimal.sum (amounts
        ([⟨false, 1, 60⟩, ⟨false, 1, 0⟩, ⟨true, 1, 60⟩, ⟨true, 1, 0⟩].map dollars)) = some s
          ∧ s.toRat = 0 := ((requireBalance_eq_ok_iff_sum _ _).1 h).2
    obtain ⟨s, hs, hs₀⟩ := hz
    cases hs.symm.trans (show _ = some ⟨true, 1, 0⟩ by decide +kernel)
    norm_num [Decimal.toRat] at hs₀
  · norm_num [amounts, dollars, Transfer.balancesAs, Decimal.toRat]

end Daybook.Transaction
