import Daybook.Proofs.Decimal.Nearest

/-!
# Decimal — sums are rounded to the nearest number

A sum is taken exactly and then rounded once.  A term far below the last digit of the other one is shortened first,
which leaves the sum where it was between all numbers that rounding has to choose from.

* `nearest_spec`: **rounding gives the nearest number, and this is compact**; `lt_adjusted_iff` says when it is out of
  the range.
* `nearest_of_far`: a short term in place of one far below changes nothing.
* `nearest_add`: **a sum is rounded to the nearest number, and this is compact**.
* `add_eq_none_iff`: a sum is refused just when it is out of the range after it is rounded to fifty digits.
* `Kept`, `add_of_kept`: a sum that can be kept is exact; `kept_of_multiple` says so of multiples of `10 ^ -k` below
  `10 ^ (50 - k)`.
-/

namespace Daybook

namespace Decimal

variable {a b d : Decimal} {e : ℤ}

/-! ### Dropping digits -/

/-- The rounded quotient is within half a unit of the quotient, and even if it is half a unit off. -/
theorem divHalfEven_near {n k : ℕ} (hk : 0 < k) :
    2 * |(n - divHalfEven n k * k : ℤ)| ≤ k
      ∧ (2 * |(n - divHalfEven n k * k : ℤ)| = k → Even (divHalfEven n k : ℤ)) := by
  have hdiv := Nat.div_add_mod n k
  have hmod := Nat.mod_lt n hk
  simp only [divHalfEven]
  generalize n / k = q at hdiv ⊢
  generalize n % k = r at hdiv hmod ⊢
  subst hdiv
  split
  · next hlow =>
      have hrest : ((k * q + r : ℕ) - (q : ℕ) * k : ℤ) = r := by push_cast; ring
      rw [hrest, Nat.abs_cast]
      exact ⟨by omega, fun h => by omega⟩
  split
  · next hhigh =>
      have hrest : ((k * q + r : ℕ) - (q + 1 : ℕ) * k : ℤ) = -((k - r : ℕ) : ℤ) := by
        rw [Nat.cast_sub hmod.le]; push_cast; ring
      rw [hrest, abs_neg, Nat.abs_cast]
      exact ⟨by omega, fun h => by omega⟩
  · next hlow hhigh =>
      have heven : Even ((q + q % 2 : ℕ) : ℤ) := by
        rw [Int.even_coe_nat, Nat.even_iff]
        omega
      refine ⟨?_, fun _ => heven⟩
      rcases Nat.mod_two_eq_zero_or_one q with hq | hq
      · have hrest : ((k * q + r : ℕ) - (q + q % 2 : ℕ) * k : ℤ) = r := by
          rw [hq]; push_cast; ring
        rw [hrest, Nat.abs_cast]
        omega
      · have hrest : ((k * q + r : ℕ) - (q + q % 2 : ℕ) * k : ℤ) = -((k - r : ℕ) : ℤ) := by
          rw [hq, Nat.cast_sub hmod.le]; push_cast; ring
        rw [hrest, abs_neg, Nat.abs_cast]
        omega

/-- A number brought to an exponent has the digits that are left there, also where a carry makes one more of them. -/
theorem toRat_roundTo (d : Decimal) (e : ℤ) :
    (d.roundTo e).toRat = (if d.neg then -1 else 1) * dropDigits d.coeff (e - d.exp).toNat * (10 : ℚ) ^ e := by
  unfold roundTo
  dsimp only
  split
  · next hfull =>
      rw [hfull, toRat]
      dsimp only
      rw [powerOfTen_cast, powerOfTen_cast,
        show ((precision : ℕ) : ℤ) = ((precision - 1 : ℕ) : ℤ) + 1 from rfl,
        zpow_add₀ (by norm_num), zpow_add₀ (by norm_num)]
      ring
  · rfl

/-- The sign and the digits that are left of a number at an exponent. -/
def signedDigits (d : Decimal) (e : ℤ) : ℤ := (if d.neg then -1 else 1) * dropDigits d.coeff (e - d.exp).toNat

/-- A number brought to an exponent is the nearest multiple of its power of ten. -/
theorem roundedAt_roundTo (he : d.exp ≤ e) :
    RoundedAt e d.toRat (d.signedDigits e) ∧ (d.roundTo e).toRat = d.signedDigits e * (10 : ℚ) ^ e := by
  have hpos : 0 < powerOfTen (e - d.exp).toNat := Nat.pow_pos (by decide)
  obtain ⟨hnear, heven⟩ := divHalfEven_near (n := d.coeff) hpos
  rw [← dropDigits_eq] at hnear heven
  have hunit : (10 : ℚ) ^ e = powerOfTen (e - d.exp).toNat * (10 : ℚ) ^ d.exp := by
    rw [powerOfTen_cast, Int.toNat_of_nonneg (by omega), ← zpow_add₀ (by norm_num), sub_add_cancel]
  simp only [signedDigits]
  have hvalue := toRat_roundTo d e
  generalize dropDigits d.coeff (e - d.exp).toNat = c at hnear heven hvalue ⊢
  generalize powerOfTen (e - d.exp).toNat = k at hnear heven hunit
  -- the distance in units of the last digit
  have hdist : |d.toRat - ((if d.neg then -1 else 1) * (c : ℤ) : ℤ) * (10 : ℚ) ^ e|
      = (|(d.coeff - c * k : ℤ)| : ℤ) * (10 : ℚ) ^ d.exp := by
    have hfactor : d.toRat - ((if d.neg then -1 else 1) * (c : ℤ) : ℤ) * (10 : ℚ) ^ e
        = (if d.neg then -1 else 1) * ((d.coeff - c * k : ℤ) : ℚ) * (10 : ℚ) ^ d.exp := by
      rw [hunit, toRat]
      split <;> push_cast <;> ring
    rw [hfactor, abs_mul, abs_mul, abs_of_pos (ten_zpow_pos d.exp), Int.cast_abs]
    split <;> simp
  refine ⟨⟨?_, fun htie => ?_⟩, ?_⟩
  · rw [hdist, hunit, ← mul_assoc]
    refine mul_le_mul_of_nonneg_right ?_ (ten_zpow_pos d.exp).le
    exact_mod_cast hnear
  · rw [hdist, hunit, ← mul_assoc] at htie
    have hc : Even (c : ℤ) := heven (by exact_mod_cast mul_right_cancel₀ (ten_zpow_pos d.exp).ne' htie)
    exact hc.mul_left _
  · rw [hvalue]
    split <;> push_cast <;> rfl

/-! ### Rounding -/

/-- A decimal as a sum is kept: of at most fifty digits, and with no exponent below the least. -/
def Compact (d : Decimal) : Prop := d.coeff < powerOfTen precision ∧ minExponent ≤ d.exp

/-- A compact decimal is representable. -/
theorem Compact.representable (h : d.Compact) : Representable minExponent d.toRat := by
  refine ⟨(if d.neg then -1 else 1) * d.coeff, ?_, d.exp, WithBot.coe_le_coe.2 h.2, ?_⟩
  · have := h.1
    split <;> omega
  · simp only [toRat]
    split <;> push_cast <;> rfl

/-- What a number is rounded to before the range is judged. -/
def nearest (d : Decimal) : Decimal :=
  if d.isZero then { d with exp := max minExponent (min d.exp maxExponent) }
  else if d.roundingExponent = d.exp then d else d.roundTo d.roundingExponent

theorem adjusted_of_isZero (h : d.isZero = true) : d.adjusted = d.exp := by
  rw [isZero_iff] at h
  have hone : digitCount 0 = 1 := rfl
  rw [adjusted, h, hone]
  omega

/-- A zero stays within the range, whatever its exponent. -/
theorem adjusted_nearest_of_isZero (hz : d.isZero = true) : d.nearest.adjusted ≤ maxExponent := by
  have hzero : d.nearest.isZero = true := by
    rw [nearest, if_pos hz]
    exact hz
  rw [adjusted_of_isZero hzero, nearest, if_pos hz]
  dsimp only
  unfold minExponent maxExponent
  omega

/-- Rounding gives the nearest number unless it leaves the range. -/
theorem round_eq (d : Decimal) : d.round = if maxExponent < d.nearest.adjusted then none else some d.nearest := by
  by_cases hz : d.isZero = true
  · rw [if_neg (Int.not_lt.2 (adjusted_nearest_of_isZero hz)), round, nearest, if_pos hz, if_pos hz]
  · rw [round, nearest, if_neg hz, if_neg hz]

theorem digitCount_le_of_roundingExponent (he : d.roundingExponent = d.exp) : digitCount d.coeff ≤ precision := by
  simp only [roundingExponent, adjusted] at he
  omega

/-- The exponent to which a number with more digits or a smaller exponent is rounded. -/
theorem grid_roundingExponent (hz : d.isZero = false) (he : d.roundingExponent ≠ d.exp) :
    Grid minExponent d.roundingExponent d.toRat := by
  have hcases : d.roundingExponent = d.adjusted - (precision - 1) ∨ d.roundingExponent = minExponent := by
    simp only [roundingExponent] at he ⊢
    omega
  have hge : minExponent ≤ d.roundingExponent ∧ d.adjusted - (precision - 1) ≤ d.roundingExponent := by
    simp only [roundingExponent]
    omega
  refine ⟨WithBot.coe_le_coe.2 hge.1, (abs_toRat_lt d).trans_le (zpow_le_of_exponent (by omega)), ?_⟩
  rcases hcases with heq | heq
  · refine .inl ((zpow_le_of_exponent ?_).trans (le_abs_toRat hz))
    omega
  · exact .inr (congrArg _ heq.symm)

theorem exp_le_roundingExponent (d : Decimal) : d.exp ≤ d.roundingExponent := le_max_left _ _

/-- What is left is compact, also after a carry. -/
theorem compact_roundTo (he : minExponent ≤ e) (hd : (d.signedDigits e).natAbs ≤ powerOfTen precision) :
    (d.roundTo e).Compact := by
  have hdigits : dropDigits d.coeff (e - d.exp).toNat ≤ powerOfTen precision := by
    simp only [signedDigits] at hd
    split at hd <;> omega
  unfold roundTo
  dsimp only
  split
  · exact ⟨Nat.pow_lt_pow_right (by decide) (by decide), Int.le_trans he (Int.le.intro 1 rfl)⟩
  · next hne => exact ⟨Nat.lt_of_le_of_ne hdigits hne, he⟩

/-- A number of few enough digits and no exponent below the least is kept as it is. -/
theorem nearest_eq_self (hz : d.isZero = false) (he : d.roundingExponent = d.exp) : d.nearest = d := by
  rw [nearest, if_neg (by rw [hz]; exact Bool.false_ne_true), if_pos he]

/-- Other numbers are rounded to a multiple of a power of ten. -/
theorem nearest_eq_roundTo (hz : d.isZero = false) (he : d.roundingExponent ≠ d.exp) :
    d.nearest = d.roundTo d.roundingExponent := by
  rw [nearest, if_neg (by rw [hz]; exact Bool.false_ne_true), if_neg he]

/-- **Rounding gives the nearest number, and this is compact.** -/
theorem nearest_spec (d : Decimal) : d.nearest.Compact ∧ Nearest minExponent d.toRat d.nearest.toRat := by
  cases hz : d.isZero with
  | true =>
      have hcompact : d.nearest.Compact := by
        rw [nearest, if_pos hz]
        exact ⟨by rw [isZero_iff.1 hz]; exact Nat.pow_pos (by decide), le_max_left _ _⟩
      have hvalue : d.nearest.toRat = d.toRat := by
        rw [nearest, if_pos hz, toRat_eq_zero_iff.2 hz]
        exact toRat_eq_zero_iff.2 hz
      exact ⟨hcompact, hvalue ▸ nearest_self (hvalue ▸ hcompact.representable)⟩
  | false =>
      by_cases he : d.roundingExponent = d.exp
      · have hcompact : d.Compact := by
          refine ⟨(lt_powerOfTen_digitCount d.coeff).trans_le (powerOfTen_le ?_), ?_⟩
          · exact digitCount_le_of_roundingExponent he
          · rw [← he]
            exact (le_max_right _ _).trans (le_max_right _ _)
        rw [nearest_eq_self hz he]
        exact ⟨hcompact, nearest_self hcompact.representable⟩
      · have hgrid := grid_roundingExponent hz he
        obtain ⟨hrounded, hvalue⟩ := roundedAt_roundTo (exp_le_roundingExponent d)
        rw [nearest_eq_roundTo hz he, hvalue]
        exact ⟨compact_roundTo (WithBot.coe_le_coe.1 hgrid.least_le) (hrounded.natAbs_le hgrid), hrounded.nearest hgrid⟩

/-! ### The range -/

theorem exp_roundTo_of_isZero (h : (d.roundTo e).isZero = true) : (d.roundTo e).exp = e := by
  unfold roundTo at h ⊢
  dsimp only at h ⊢
  split at h
  · cases isZero_iff.1 h
  · next hne => rw [if_neg hne]

/-- What is rounded to zero is within the range: it is below the least exponent. -/
theorem adjusted_nearest_le (h : d.nearest.isZero = true) : d.nearest.adjusted ≤ maxExponent := by
  cases hz : d.isZero with
  | true => exact adjusted_nearest_of_isZero hz
  | false =>
      by_cases he : d.roundingExponent = d.exp
      · rw [nearest_eq_self hz he, hz] at h
        cases h
      · have hgrid := grid_roundingExponent hz he
        obtain ⟨hrounded, hvalue⟩ := roundedAt_roundTo (exp_le_roundingExponent d)
        rw [adjusted_of_isZero h]
        rw [nearest_eq_roundTo hz he] at h ⊢
        rw [exp_roundTo_of_isZero h]
        rcases hgrid.le_abs with hlarge | hleast
        · have hnear := hrounded.near
          rw [← hvalue, toRat_eq_zero_iff.2 h, sub_zero] at hnear
          have hpos := ten_zpow_pos d.roundingExponent
          have hunit : (10 : ℚ) ^ d.roundingExponent ≤ 10 ^ (d.roundingExponent + precision - 1) :=
            zpow_le_of_exponent (by unfold precision; omega)
          linarith
        · rw [← WithBot.coe_inj.1 hleast]
          decide

/-- **The range is left just when the nearest number is out of it.** -/
theorem lt_adjusted_iff (d : Decimal) :
    maxExponent < d.nearest.adjusted ↔ (10 : ℚ) ^ (maxExponent + 1) ≤ |d.nearest.toRat| := by
  constructor
  · intro h
    have hz : d.nearest.isZero = false := by
      rw [Bool.eq_false_iff]
      exact fun hz => absurd (adjusted_nearest_le hz) (Int.not_le.2 h)
    exact (zpow_le_of_exponent h).trans (le_abs_toRat hz)
  · intro h
    have := exponent_lt_of_zpow (h.trans_lt (abs_toRat_lt d.nearest))
    omega

/-! ### Terms far below the last digit -/

theorem exp_exactSum (a b : Decimal) : (exactSum a b).exp = min a.exp b.exp := by
  simp only [exactSum]
  split
  · rfl
  split
  · rfl
  split <;> rfl

/-- A term far below the last digit of the other one, neither of them zero. -/
def Far (a b : Decimal) : Prop := a.isZero = false ∧ b.isZero = false ∧ a.adjusted < b.exp - horizon

/-- What takes the place of a term far below the last digit of the other one. -/
def short (a b : Decimal) : Decimal := ⟨a.neg, 1, b.exp - horizon⟩

theorem beside_of_far (h : Far a b) : a.beside b = short a b := by
  obtain ⟨ha, hb, hfar⟩ := h
  rw [beside, ha, hb, if_neg Bool.false_ne_true, if_neg Bool.false_ne_true, if_pos hfar, short]

/-- A term that is not far below the other one counts with its value. -/
theorem toRat_beside (h : ¬Far a b) : (a.beside b).toRat = a.toRat := by
  simp only [beside]
  cases hb : b.isZero with
  | true => rfl
  | false =>
  cases ha : a.isZero with
  | true =>
      rw [toRat_eq_zero_iff.2 ha]
      exact toRat_eq_zero_iff.2 ha
  | false =>
      rw [if_neg Bool.false_ne_true, if_neg Bool.false_ne_true, if_neg fun hfar => h ⟨ha, hb, hfar⟩]

theorem exp_le_adjusted (d : Decimal) : d.exp ≤ d.adjusted := by
  have := digitCount_pos d.coeff
  unfold adjusted
  omega

/-- Of two terms one at most is far below the other. -/
theorem beside_of_far_swap (h : Far a b) : b.beside a = b := by
  obtain ⟨ha, hb, hfar⟩ := h
  have hnot : ¬b.adjusted < a.exp - horizon := by
    have := exp_le_adjusted a
    have := exp_le_adjusted b
    omega
  rw [beside, ha, hb, if_neg Bool.false_ne_true, if_neg Bool.false_ne_true, if_neg hnot]

theorem abs_toRat_pos (h : d.isZero = false) : 0 < |d.toRat| := by
  rw [abs_pos, ne_eq, toRat_eq_zero_iff, h]
  exact Bool.false_ne_true

/-- Terms of one sign below a power of ten leave a multiple of it on the same side of all others. -/
theorem sameSide_of_neg_eq {a' : Decimal} {m : ℤ} {q : ℚ} (hq : Multiple m q) (hneg : a.neg = a'.neg)
    (ha : a.isZero = false ∧ |a.toRat| < (10 : ℚ) ^ m) (ha' : a'.isZero = false ∧ |a'.toRat| < (10 : ℚ) ^ m) :
    SameSide m (a.toRat + q) (a'.toRat + q) := by
  have hpos := abs_toRat_pos ha.1
  have hpos' := abs_toRat_pos ha'.1
  rw [toRat_eq_sign a, toRat_eq_sign a', ← hneg]
  cases a.neg with
  | false =>
      rw [if_neg Bool.false_ne_true, one_mul, one_mul]
      exact sameSide_of_pos hq ⟨hpos, ha.2⟩ ⟨hpos', ha'.2⟩
  | true =>
      have hside := (sameSide_of_pos (Multiple.zero.sub hq) ⟨hpos, ha.2⟩ ⟨hpos', ha'.2⟩).neg
      rw [if_pos rfl, neg_one_mul, neg_one_mul]
      rwa [zero_sub, neg_add, neg_add, neg_neg] at hside

theorem abs_toRat_short (a b : Decimal) : |(short a b).toRat| = (10 : ℚ) ^ (b.exp - horizon) := by
  rw [abs_toRat, short, Nat.cast_one, one_mul]

/-- The sum with a short term keeps the digits of the greater term. -/
theorem le_abs_short_add (a : Decimal) (hb : b.isZero = false) :
    (10 : ℚ) ^ (b.exp - 1) ≤ |(short a b).toRat + b.toRat| := by
  have hterm := (zpow_le_of_exponent (exp_le_adjusted b)).trans (le_abs_toRat hb)
  have hrest := abs_sub_abs_le_abs_sub b.toRat (-(short a b).toRat)
  rw [abs_neg, sub_neg_eq_add, Rat.add_comm, abs_toRat_short] at hrest
  have hsmall : (10 : ℚ) ^ (b.exp - horizon) ≤ 10 ^ (b.exp - 1) := zpow_le_of_exponent (by unfold horizon; omega)
  have hstep : (10 : ℚ) ^ b.exp = 10 * 10 ^ (b.exp - 1) := by
    rw [← zpow_one_add₀ (by norm_num)]
    congr 1
    omega
  have hpos := ten_zpow_pos (b.exp - 1)
  linarith

/-- A short term in place of one far below leaves the sum on the same side of the multiples of a power of ten above
both. -/
theorem sameSide_short (h : Far a b) :
    SameSide (b.exp - horizon + 1) ((short a b).toRat + b.toRat) (a.toRat + b.toRat) := by
  obtain ⟨ha, -, hfar⟩ := h
  refine sameSide_of_neg_eq ((multiple_toRat b).mono ?_) rfl ⟨rfl, ?_⟩ ⟨ha, ?_⟩
  · unfold horizon
    omega
  · rw [abs_toRat_short]
    exact zpow_lt_zpow_right₀ (by norm_num) (by omega)
  · exact (abs_toRat_lt a).trans_le (zpow_le_of_exponent (by omega))

/-- **A short term in place of one far below the last digit does not change what the sum is rounded to.**  All
multiples of the power of ten to which the sum is rounded, and what is halfway between them, are multiples of a smaller
power of ten that both terms fall below. -/
theorem nearest_of_far (h : Far a b) :
    Nearest minExponent (a.toRat + b.toRat) (exactSum (a.beside b) (b.beside a)).nearest.toRat := by
  have hsum := exactSum_toRat (short a b) b
  have hlarge := le_abs_short_add a h.2.1
  have hside := sameSide_short h
  have hlast : (exactSum (short a b) b).exp = b.exp - horizon := by
    rw [exp_exactSum]
    exact min_eq_left (Int.sub_le_self _ (Int.natCast_nonneg _))
  rw [beside_of_far h, beside_of_far_swap h]
  rw [← hsum] at hlarge hside
  generalize exactSum (short a b) b = d at hlarge hside hlast ⊢
  have hz : d.isZero = false := by
    rw [Bool.eq_false_iff]
    intro hz
    rw [toRat_eq_zero_iff.2 hz, abs_zero] at hlarge
    exact absurd hlarge (not_le.2 (ten_zpow_pos _))
  -- the sum has more digits than are kept, so that it is rounded
  have hfirst : b.exp - 1 < d.adjusted + 1 := exponent_lt_of_zpow (hlarge.trans_lt (abs_toRat_lt d))
  have hunit : b.exp - horizon + 1 < d.roundingExponent := by
    simp only [roundingExponent, horizon, precision]
    omega
  have he : d.roundingExponent ≠ d.exp := by omega
  obtain ⟨hrounded, hvalue⟩ := roundedAt_roundTo (exp_le_roundingExponent d)
  rw [nearest_eq_roundTo hz he, hvalue]
  exact (hside.roundedAt hunit hrounded).nearest (hside.grid hunit.le (grid_roundingExponent hz he))

/-- **A sum is rounded to the nearest number, and this is compact.** -/
theorem nearest_add (a b : Decimal) :
    ∃ r : Decimal, r.Compact ∧ Nearest minExponent (a.toRat + b.toRat) r.toRat
      ∧ a.add b = if (10 : ℚ) ^ (maxExponent + 1) ≤ |r.toRat| then none else some r := by
  refine ⟨(exactSum (a.beside b) (b.beside a)).nearest, (nearest_spec _).1, ?_, ?_⟩
  · by_cases hab : Far a b
    · exact nearest_of_far hab
    by_cases hba : Far b a
    · rw [exactSum_comm, Rat.add_comm]
      exact nearest_of_far hba
    · have hspec := (nearest_spec (exactSum (a.beside b) (b.beside a))).2
      rwa [exactSum_toRat, toRat_beside hab, toRat_beside hba] at hspec
  · rw [add, round_eq]
    simp only [lt_adjusted_iff]

/-- Whether the nearest number is out of the range is decided without the least exponent: numbers near to it are far
from the end of the range. -/
theorem out_of_range_iff {s r : ℚ} (h : Nearest minExponent s r) :
    (10 : ℚ) ^ (maxExponent + 1) ≤ |r| ↔ ∃ q, Nearest ⊥ s q ∧ (10 : ℚ) ^ (maxExponent + 1) ≤ |q| := by
  by_cases hs : (10 : ℚ) ^ (minExponent + precision - 1) ≤ |s|
  · have hfree := h.free hs
    exact ⟨fun hr => ⟨r, hfree, hr⟩, fun ⟨q, hq, hlarge⟩ => hfree.unique hq ▸ hlarge⟩
  · have hsmall := (not_le.1 hs).le
    have hlt : (10 : ℚ) ^ (minExponent + precision - 1) < (10 : ℚ) ^ (maxExponent + 1) :=
      zpow_lt_zpow_right₀ (by norm_num) (by unfold minExponent maxExponent precision; omega)
    have hle : (minExponent : WithBot ℤ) ≤ (minExponent + precision - 1 : ℤ) := by
      rw [WithBot.coe_le_coe]
      unfold precision
      omega
    refine iff_of_false (not_le.2 ((h.abs_le hle hsmall).trans_lt hlt)) ?_
    rintro ⟨q, hq, hlarge⟩
    exact absurd hlarge (not_le.2 ((hq.abs_le bot_le hsmall).trans_lt hlt))

/-- A sum is refused just when it is out of the range after it is rounded to fifty digits. -/
theorem add_eq_none_iff (a b : Decimal) :
    a.add b = none ↔ ∃ r, Nearest ⊥ (a.toRat + b.toRat) r ∧ (10 : ℚ) ^ (maxExponent + 1) ≤ |r| := by
  obtain ⟨r, -, hr, hadd⟩ := nearest_add a b
  rw [hadd, ← out_of_range_iff hr]
  simp

/-- A sum that is not refused is the nearest number, and compact. -/
theorem nearest_of_add_eq_some {s : Decimal} (h : a.add b = some s) :
    s.Compact ∧ Nearest minExponent (a.toRat + b.toRat) s.toRat := by
  obtain ⟨r, hcompact, hr, hadd⟩ := nearest_add a b
  rw [hadd] at h
  split at h
  · cases h
  · cases h
    exact ⟨hcompact, hr⟩

/-! ### Sums that are exact -/

/-- `q` can be kept without rounding: it is a multiple of a power of ten that is not below the least
exponent, has no more digits above it than a sum keeps, and lies within the range. -/
def Kept (q : ℚ) : Prop :=
  |q| < (10 : ℚ) ^ (maxExponent + 1) ∧
    ∃ e : ℤ, minExponent ≤ e ∧ Multiple e q ∧ |q| < (10 : ℚ) ^ (e + precision)

/-- Multiples of `10 ^ -k` below `10 ^ (50 - k)` can be kept. -/
theorem kept_of_multiple {k : ℕ} {q : ℚ} (hk : k ≤ 999999) (hm : Multiple (-k) q)
    (hq : |q| < (10 : ℚ) ^ ((precision : ℤ) - k)) : Kept q := by
  refine ⟨hq.trans_le (zpow_le_of_exponent ?_), -k, ?_, hm, ?_⟩
  · unfold precision maxExponent; omega
  · unfold minExponent; omega
  · rwa [show -(k : ℤ) + precision = precision - k by omega]

/-- What can be kept is representable. -/
theorem Kept.representable {q : ℚ} (h : Kept q) : Representable minExponent q := by
  obtain ⟨-, e, he, ⟨n, rfl⟩, hlt⟩ := h
  exact ⟨n, abs_lt_zpow_iff.1 hlt, e, WithBot.coe_le_coe.2 he, rfl⟩

/-- **A sum that can be kept is exact.** -/
theorem add_of_kept (h : Kept (a.toRat + b.toRat)) : ∃ s, a.add b = some s ∧ s.toRat = a.toRat + b.toRat := by
  obtain ⟨r, -, hr, hadd⟩ := nearest_add a b
  have hexact := hr.eq_of_representable h.representable
  rw [if_neg (not_le.2 (hexact ▸ h.1))] at hadd
  exact ⟨r, hadd, hexact⟩

end Decimal

end Daybook
