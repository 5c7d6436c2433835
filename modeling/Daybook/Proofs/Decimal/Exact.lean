import Daybook.Decimal.Sum
import Mathlib.Algebra.Order.Field.Power
import Mathlib.Data.Rat.Cast.Order
import Mathlib.Tactic.FieldSimp
import Mathlib.Tactic.Linarith
import Mathlib.Tactic.NormNum
import Mathlib.Tactic.Positivity
import Mathlib.Tactic.Ring

/-!
# Decimal — values, and sums before rounding

A decimal stands for a rational number (`toRat`), which is a multiple of the power of ten of its exponent and is below
the power of ten after its first digit.

* `exactSum_toRat`: the sum before rounding has the value of the sum.
* `Multiple`: the integer multiples of a power of ten.
* `sameValue_iff`: **decimals are compared by what they stand for**.
-/

namespace Daybook

theorem powerOfTen_cast (k : ℕ) : (powerOfTen k : ℚ) = (10 : ℚ) ^ (k : ℤ) := by
  induction k with
  | zero => rfl
  | succ k ih =>
      rw [powerOfTen_succ, Nat.cast_mul, ih, Nat.cast_add, zpow_add₀ (by norm_num)]
      norm_num

/-- A number that is not zero reaches its first digit. -/
theorem powerOfTen_le_of_digitCount {n k : ℕ} (h : k < digitCount n) (hn : n ≠ 0) :
    powerOfTen k ≤ n := by
  rcases Nat.eq_zero_or_pos k with rfl | hk
  · exact Nat.one_le_iff_ne_zero.2 hn
  · by_contra hlt
    exact absurd ((Nat.length_toDigits_le_iff (by decide) hk).2 (Nat.lt_of_not_le hlt))
      (Nat.not_le.2 h)

theorem digitCount_pos (n : ℕ) : 0 < digitCount n := Nat.length_toDigits_pos

namespace Decimal

/-- The rational number that a decimal stands for. -/
def toRat (d : Decimal) : ℚ := (if d.neg then -1 else 1) * d.coeff * (10 : ℚ) ^ d.exp

theorem ten_zpow_pos (e : ℤ) : (0 : ℚ) < 10 ^ e := zpow_pos (by norm_num) e

theorem abs_toRat (d : Decimal) : |d.toRat| = d.coeff * (10 : ℚ) ^ d.exp := by
  simp only [toRat]
  rw [abs_mul, abs_mul, abs_of_pos (ten_zpow_pos d.exp), Nat.abs_cast]
  split <;> simp

theorem toRat_eq_zero_iff {d : Decimal} : d.toRat = 0 ↔ d.isZero = true := by
  rw [isZero_iff, ← abs_eq_zero, abs_toRat, mul_eq_zero, Nat.cast_eq_zero]
  exact or_iff_left (ten_zpow_pos d.exp).ne'

@[simp] theorem toRat_zero : zero.toRat = 0 := toRat_eq_zero_iff.2 rfl

/-- No decimal reaches the power of ten after its first digit. -/
theorem abs_toRat_lt (d : Decimal) : |d.toRat| < (10 : ℚ) ^ (d.adjusted + 1) := by
  rw [abs_toRat, show d.adjusted + 1 = (digitCount d.coeff : ℤ) + d.exp by unfold adjusted; omega,
    zpow_add₀ (by norm_num), ← powerOfTen_cast]
  exact mul_lt_mul_of_pos_right (by exact_mod_cast lt_powerOfTen_digitCount d.coeff) (ten_zpow_pos _)

/-- A decimal that is not zero reaches the power of ten of its first digit. -/
theorem le_abs_toRat {d : Decimal} (h : d.isZero = false) : (10 : ℚ) ^ d.adjusted ≤ |d.toRat| := by
  have hn : d.coeff ≠ 0 := fun e => by simp [isZero, e] at h
  have hd := digitCount_pos d.coeff
  have hle := powerOfTen_le_of_digitCount (Nat.sub_lt hd Nat.one_pos) hn
  rw [abs_toRat, show d.adjusted = ((digitCount d.coeff - 1 : ℕ) : ℤ) + d.exp by
    unfold adjusted; omega, zpow_add₀ (by norm_num), ← powerOfTen_cast]
  exact mul_le_mul_of_nonneg_right (by exact_mod_cast hle) (ten_zpow_pos _).le

theorem zpow_le_of_exponent {m n : ℤ} (h : m ≤ n) : (10 : ℚ) ^ m ≤ 10 ^ n :=
  zpow_le_zpow_right₀ (by norm_num) h

theorem exponent_lt_of_zpow {m n : ℤ} (h : (10 : ℚ) ^ m < 10 ^ n) : m < n :=
  (zpow_lt_zpow_iff_right₀ (by norm_num)).1 h

/-! ### Sums before rounding -/

theorem shifted_cast (d : Decimal) {e : ℤ} (h : e ≤ d.exp) :
    (d.shifted (d.exp - e).toNat : ℚ) * (10 : ℚ) ^ e = d.coeff * (10 : ℚ) ^ d.exp := by
  rw [shifted_eq, Nat.cast_mul, powerOfTen_cast, Int.toNat_of_nonneg (by omega), mul_assoc,
    ← zpow_add₀ (by norm_num)]
  congr 2
  omega

/-- The sum before rounding has the value of the sum. -/
theorem exactSum_toRat (a b : Decimal) : (exactSum a b).toRat = a.toRat + b.toRat := by
  have ha := shifted_cast a (min_le_left a.exp b.exp)
  have hb := shifted_cast b (min_le_right a.exp b.exp)
  simp only [exactSum]
  generalize a.shifted (a.exp - min a.exp b.exp).toNat = x at ha ⊢
  generalize b.shifted (b.exp - min a.exp b.exp).toNat = y at hb ⊢
  generalize min a.exp b.exp = e at ha hb ⊢
  have hA : a.toRat = (if a.neg then -1 else 1) * (x * (10 : ℚ) ^ e) := by
    rw [ha, toRat, mul_assoc]
  have hB : b.toRat = (if b.neg then -1 else 1) * (y * (10 : ℚ) ^ e) := by
    rw [hb, toRat, mul_assoc]
  rw [hA, hB]
  -- equal signs add the coefficients, different ones subtract the smaller from the larger
  by_cases hs : a.neg = b.neg
  · rw [if_pos hs, toRat, ← hs]
    push_cast
    ring
  · have hs' : b.neg = !a.neg := by
      revert hs
      cases a.neg <;> cases b.neg <;> simp
    rw [if_neg hs, hs']
    rcases lt_trichotomy x y with hxy | rfl | hxy
    · rw [if_neg hxy.ne, if_pos hxy, toRat]
      dsimp only
      rw [Nat.cast_sub hxy.le]
      cases a.neg <;> simp <;> ring
    · rw [if_pos rfl, toRat]
      cases a.neg <;> simp
    · rw [if_neg hxy.ne', if_neg (Nat.lt_asymm hxy), toRat]
      dsimp only
      rw [Nat.cast_sub hxy.le]
      cases a.neg <;> simp <;> ring

/-! ### Multiples of powers of ten -/

/-- `q` is an integer times `10 ^ e`. -/
def Multiple (e : ℤ) (q : ℚ) : Prop := ∃ n : ℤ, q = n * (10 : ℚ) ^ e

/-- A decimal is a multiple of the power of ten that its exponent names. -/
theorem multiple_toRat (d : Decimal) : Multiple d.exp d.toRat := by
  refine ⟨(if d.neg then -1 else 1) * d.coeff, ?_⟩
  simp only [toRat]
  split <;> push_cast <;> rfl

namespace Multiple

variable {e f : ℤ} {p q : ℚ}

theorem zero : Multiple e 0 := ⟨0, by simp⟩

theorem mono (h : Multiple e q) (hf : f ≤ e) : Multiple f q := by
  obtain ⟨n, rfl⟩ := h
  obtain ⟨k, hk⟩ := Int.eq_ofNat_of_zero_le (Int.sub_nonneg.2 hf)
  refine ⟨n * 10 ^ k, ?_⟩
  rw [show e = (k : ℤ) + f by omega, zpow_add₀ (by norm_num), zpow_natCast]
  push_cast
  ring

theorem add (hp : Multiple e p) (hq : Multiple e q) : Multiple e (p + q) := by
  obtain ⟨m, rfl⟩ := hp
  obtain ⟨n, rfl⟩ := hq
  exact ⟨m + n, by push_cast; ring⟩

theorem sub (hp : Multiple e p) (hq : Multiple e q) : Multiple e (p - q) := by
  obtain ⟨m, rfl⟩ := hp
  obtain ⟨n, rfl⟩ := hq
  exact ⟨m - n, by push_cast; ring⟩

/-- A multiple that is not zero is at least as large as the power of ten. -/
theorem le_abs (h : Multiple e q) (hq : q ≠ 0) : (10 : ℚ) ^ e ≤ |q| := by
  obtain ⟨n, rfl⟩ := h
  have hn : n ≠ 0 := fun h₀ => hq (by simp [h₀])
  rw [abs_mul, abs_of_pos (ten_zpow_pos e)]
  refine le_mul_of_one_le_left (ten_zpow_pos e).le ?_
  rw [← Int.cast_abs]
  exact_mod_cast Int.one_le_abs hn

end Multiple

/-! ### Comparison -/

/-- A decimal has the sign that it shows. -/
theorem toRat_eq_sign (d : Decimal) : d.toRat = (if d.neg then -1 else 1) * |d.toRat| := by
  rw [abs_toRat, ← mul_assoc]
  rfl

/-- **Decimals are compared by what they stand for.** -/
theorem sameValue_iff {a b : Decimal} : a.sameValue b = true ↔ a.toRat = b.toRat := by
  cases ha : a.isZero with
  | true =>
      have hzero : (0 : ℚ) = b.toRat ↔ b.isZero = true := eq_comm.trans toRat_eq_zero_iff
      rw [toRat_eq_zero_iff.2 ha, hzero]
      simp [sameValue, ha]
  | false =>
  cases hb : b.isZero with
  | true =>
      rw [toRat_eq_zero_iff.2 hb, toRat_eq_zero_iff]
      simp [sameValue, ha, hb]
  | false =>
  -- brought to one exponent, the coefficients are the absolute values
  have hA := shifted_cast a (min_le_left a.exp b.exp)
  have hB := shifted_cast b (min_le_right a.exp b.exp)
  rw [← abs_toRat, shifted_eq, show (a.exp - min a.exp b.exp).toNat = (a.exp - b.exp).toNat by omega] at hA
  rw [← abs_toRat, shifted_eq, show (b.exp - min a.exp b.exp).toNat = (b.exp - a.exp).toNat by omega] at hB
  have hpos := ten_zpow_pos (min a.exp b.exp)
  generalize (10 : ℚ) ^ min a.exp b.exp = u at hA hB hpos
  simp only [sameValue, ha, hb, Bool.or_self, Bool.false_eq_true, if_false, Bool.and_eq_true, beq_iff_eq]
  constructor
  · rintro ⟨⟨hneg, -⟩, hcoeff⟩
    rw [toRat_eq_sign a, toRat_eq_sign b, ← hA, ← hB, hcoeff, hneg]
  · intro h
    have habs : |a.toRat| = |b.toRat| := congrArg _ h
    refine ⟨⟨?_, ?_⟩, ?_⟩
    · -- opposite signs leave nothing but zero
      have hne : |b.toRat| ≠ 0 := by rw [abs_ne_zero, ne_eq, toRat_eq_zero_iff, hb]; exact Bool.false_ne_true
      rw [toRat_eq_sign a, toRat_eq_sign b, habs] at h
      have hsign := mul_right_cancel₀ hne h
      revert hsign
      cases a.neg <;> cases b.neg <;> norm_num
    · have hab := exponent_lt_of_zpow ((le_abs_toRat ha).trans_lt (habs ▸ abs_toRat_lt b))
      have hba := exponent_lt_of_zpow ((le_abs_toRat hb).trans_lt (habs ▸ abs_toRat_lt a))
      omega
    · rw [← hA, ← hB] at habs
      exact_mod_cast mul_right_cancel₀ hpos.ne' habs

end Decimal

end Daybook
