import Daybook.Proofs.Decimal.Rounding
import Mathlib.Algebra.Order.BigOperators.Group.List

/-!
# Decimal — running sums

A list of decimals is added up term by term, with rounding after each.  What the roundings take away on
the way is the *loss* of the running sum.

* `roundingLoss_eq`: the loss is what the running sum falls short of the exact one, and there is a loss
  just when there is a running sum.
* `Bounded k ds`: multiples of `10 ^ -k` whose absolute values add up to less than `10 ^ (50 - k)`.
* `sum_of_bounded`: **nothing is lost among such amounts**.
-/

namespace Daybook.Decimal

/-- The exact sum of a list. -/
def exactTotal (ds : List Decimal) : ℚ := (ds.map toRat).sum

/-- The sum of the absolute values of a list. -/
def volume (ds : List Decimal) : ℚ := (ds.map (|·.toRat|)).sum

/-- What roundings take away while a list is added to a total; `none` if a sum becomes too large. -/
def roundingLoss : Decimal → List Decimal → Option ℚ
  | _, [] => some 0
  | total, d :: ds =>
    match total.add d with
    | none => none
    | some s => (roundingLoss s ds).map (total.toRat + d.toRat - s.toRat + ·)

/-- Amounts that stay within fifty digits, in whatever order they are added up: none has a digit below
`10 ^ -k`, and their absolute values add up to less than `10 ^ (50 - k)`. -/
structure Bounded (k : ℕ) (ds : List Decimal) : Prop where
  exp_ge : ∀ d ∈ ds, -(k : ℤ) ≤ d.exp
  volume_lt : volume ds < (10 : ℚ) ^ ((precision : ℤ) - k)

@[simp] theorem exactTotal_nil : exactTotal [] = 0 := rfl

@[simp] theorem exactTotal_cons (d : Decimal) (ds : List Decimal) :
    exactTotal (d :: ds) = d.toRat + exactTotal ds := List.sum_cons

@[simp] theorem volume_nil : volume [] = 0 := rfl

@[simp] theorem volume_cons (d : Decimal) (ds : List Decimal) :
    volume (d :: ds) = |d.toRat| + volume ds := List.sum_cons

theorem volume_nonneg (ds : List Decimal) : 0 ≤ volume ds :=
  List.sum_nonneg fun q hq => by
    obtain ⟨d, -, rfl⟩ := List.mem_map.1 hq
    exact abs_nonneg _

theorem exactTotal_perm {ds ds' : List Decimal} (h : ds.Perm ds') : exactTotal ds = exactTotal ds' :=
  (h.map _).sum_eq

theorem volume_perm {ds ds' : List Decimal} (h : ds.Perm ds') : volume ds = volume ds' :=
  (h.map _).sum_eq

/-- The loss is what the running sum falls short of the exact one. -/
theorem roundingLoss_eq (total : Decimal) (ds : List Decimal) :
    roundingLoss total ds
      = (ds.foldlM add total).map fun s => total.toRat + exactTotal ds - s.toRat := by
  induction ds generalizing total with
  | nil => simp [roundingLoss]
  | cons d ds ih =>
      rw [List.foldlM_cons]
      simp only [roundingLoss]
      cases total.add d with
      | none => rfl
      | some s =>
          show Option.map _ (roundingLoss s ds) = Option.map _ (ds.foldlM add s)
          rw [ih s, Option.map_map]
          congr 1
          funext r
          simp only [Function.comp, exactTotal_cons]
          ring

@[simp] theorem volume_append (ds ds' : List Decimal) : volume (ds ++ ds') = volume ds + volume ds' := by
  simp only [volume]
  rw [List.map_append, List.sum_append]

theorem volume_sublist {ds ds' : List Decimal} (h : ds.Sublist ds') : volume ds ≤ volume ds' :=
  (h.map _).sum_le_sum fun q hq => by
    obtain ⟨d, -, rfl⟩ := List.mem_map.1 hq
    exact abs_nonneg _

theorem Bounded.sublist {k : ℕ} {ds ds' : List Decimal} (h : Bounded k ds') (hs : ds.Sublist ds') :
    Bounded k ds :=
  ⟨fun d hd => h.exp_ge d (hs.subset hd), (volume_sublist hs).trans_lt h.volume_lt⟩

theorem Bounded.perm {k : ℕ} {ds ds' : List Decimal} (h : Bounded k ds') (hp : ds.Perm ds') :
    Bounded k ds :=
  ⟨fun d hd => h.exp_ge d (hp.mem_iff.1 hd), (volume_perm hp).trans_lt h.volume_lt⟩

/-- A running sum that begins at a total keeps every digit of amounts that stay within fifty. -/
theorem foldlM_add_of_bounded {k : ℕ} (hk : k ≤ 999999) {total : Decimal} {ds : List Decimal}
    (ht : Multiple (-k) total.toRat) (hd : ∀ d ∈ ds, -(k : ℤ) ≤ d.exp)
    (hb : |total.toRat| + volume ds < (10 : ℚ) ^ ((precision : ℤ) - k)) :
    ∃ s, ds.foldlM add total = some s ∧ s.toRat = total.toRat + exactTotal ds := by
  induction ds generalizing total with
  | nil => exact ⟨total, rfl, by simp⟩
  | cons d ds ih =>
      obtain ⟨hd₁, hd⟩ := List.forall_mem_cons.1 hd
      rw [volume_cons] at hb
      have hv := volume_nonneg ds
      have habs := abs_add_le total.toRat d.toRat
      -- the partial sum is a multiple again and stays below the bound, so it is kept as it is
      have hmul : Multiple (-k) (total.toRat + d.toRat) := ht.add ((multiple_toRat d).mono hd₁)
      obtain ⟨s, hs, hval⟩ := add_of_kept (kept_of_multiple hk hmul (by linarith))
      obtain ⟨r, hr, hr'⟩ := ih (hval ▸ hmul) hd (by rw [hval]; linarith)
      refine ⟨r, ?_, ?_⟩
      · rw [List.foldlM_cons, hs]
        exact hr
      · rw [hr', hval, exactTotal_cons]
        ring

/-- **Nothing is lost among amounts that stay within fifty digits.** -/
theorem sum_of_bounded {k : ℕ} (hk : k ≤ 999999) {ds : List Decimal} (h : Bounded k ds) :
    ∃ s, sum ds = some s ∧ s.toRat = exactTotal ds := by
  have hz : Multiple (-k) zero.toRat := toRat_zero ▸ .zero
  obtain ⟨s, hs, hval⟩ := foldlM_add_of_bounded hk hz h.exp_ge
    (by rw [toRat_zero, abs_zero, zero_add]; exact h.volume_lt)
  rw [toRat_zero, zero_add] at hval
  exact ⟨s, hs, hval⟩

end Daybook.Decimal
