import Daybook.Proofs.Decimal.Exact
import Mathlib.Algebra.Group.Int.Even
import Mathlib.Data.Int.ConditionallyCompleteOrder
import Mathlib.Order.WithBot

/-!
# Decimal — the nearest number

A number is *representable* if it is an integer of at most fifty digits at a power of ten that is not below a least
exponent, or at any power if there is none.  What a rational number is rounded to is the representable number nearest to
it, and of two nearest ones that with an even coefficient.

* `Coefficient`, `Representable`, `Nearest`: this rounding, said without a word on how it is done.
* `Nearest.unique`: **there is one nearest number at most**.
* `Nearest.free`: the least exponent does not matter to numbers that have fifty digits above it.
* `Grid`, `RoundedAt`: the power of ten to whose multiples a number is rounded, and the multiple.
* `RoundedAt.nearest`: **the nearest multiple of this power is the nearest number**.
* `SameSide`, `SameSide.roundedAt`: numbers that no multiple of a smaller power parts are rounded alike.
-/

namespace Daybook.Decimal

variable {least : WithBot ℤ} {s r r' u : ℚ} {E e m n : ℤ}

/-! ### The nearest number -/

/-- `n` is a coefficient of the number: an integer of at most fifty digits, at a power of ten not below the least. -/
def Coefficient (least : WithBot ℤ) (q : ℚ) (n : ℤ) : Prop :=
  n.natAbs < powerOfTen precision ∧ ∃ e : ℤ, least ≤ e ∧ q = n * (10 : ℚ) ^ e

/-- A number that has a coefficient. -/
def Representable (least : WithBot ℤ) (q : ℚ) : Prop := ∃ n, Coefficient least q n

/-- `r` is what `s` is rounded to: no representable number is nearer to `s`, and if another one is as near then `r` has
an even coefficient. -/
structure Nearest (least : WithBot ℤ) (s r : ℚ) : Prop where
  representable : Representable least r
  closest : ∀ r', Representable least r' → |s - r| ≤ |s - r'|
  even : ∀ r', Representable least r' → r' ≠ r → |s - r| = |s - r'| → ∃ n, Coefficient least r n ∧ Even n

/-- A representable number is its own nearest. -/
theorem nearest_self (h : Representable least s) : Nearest least s s where
  representable := h
  closest := fun r' _ => by
    rw [sub_self, abs_zero]
    exact abs_nonneg _
  even := fun r' _ hne htie => by
    rw [sub_self, abs_zero, eq_comm, abs_eq_zero, sub_eq_zero] at htie
    exact absurd htie.symm hne

/-- A representable number is rounded to itself. -/
theorem Nearest.eq_of_representable (h : Nearest least s r) (hs : Representable least s) : r = s := by
  have hclosest := h.closest s hs
  rw [sub_self, abs_zero] at hclosest
  exact (sub_eq_zero.1 (abs_eq_zero.1 (le_antisymm hclosest (abs_nonneg _)))).symm

/-- The nearest number is found among candidates if all other numbers are farther away. -/
theorem nearest_of_candidates {P : ℚ → Prop} (hr : Representable least r)
    (hother : ∀ r', Representable least r' → ¬P r' → |s - r| < |s - r'|)
    (hclosest : ∀ r', P r' → |s - r| ≤ |s - r'|)
    (heven : ∀ r', P r' → r' ≠ r → |s - r| = |s - r'| → ∃ n, Coefficient least r n ∧ Even n) : Nearest least s r where
  representable := hr
  closest := fun r' hr' => by
    by_cases hp : P r'
    · exact hclosest r' hp
    · exact (hother r' hr' hp).le
  even := fun r' hr' hne htie => by
    by_cases hp : P r'
    · exact heven r' hp hne htie
    · exact absurd htie (hother r' hr' hp).ne

theorem natAbs_cast (n : ℤ) : ((n.natAbs : ℕ) : ℚ) = |(n : ℚ)| := by
  rw [Nat.cast_natAbs, Int.cast_abs]

theorem zpow_add_precision (e : ℤ) : (10 : ℚ) ^ (e + precision) = powerOfTen precision * (10 : ℚ) ^ e := by
  rw [Int.add_comm, zpow_add₀ (by norm_num), ← powerOfTen_cast]

theorem abs_mul_zpow (n e : ℤ) : |n * (10 : ℚ) ^ e| = n.natAbs * (10 : ℚ) ^ e := by
  rw [abs_mul, abs_of_pos (ten_zpow_pos e), natAbs_cast]

/-- An integer of at most fifty digits has no more than these above its exponent. -/
theorem abs_lt_zpow_iff : |n * (10 : ℚ) ^ e| < (10 : ℚ) ^ (e + precision) ↔ n.natAbs < powerOfTen precision := by
  rw [abs_mul_zpow, zpow_add_precision, mul_lt_mul_iff_left₀ (ten_zpow_pos e), Nat.cast_lt]

theorem abs_le_zpow_iff : |n * (10 : ℚ) ^ e| ≤ (10 : ℚ) ^ (e + precision) ↔ n.natAbs ≤ powerOfTen precision := by
  rw [abs_mul_zpow, zpow_add_precision, mul_le_mul_iff_left₀ (ten_zpow_pos e), Nat.cast_le]

/-- One digit more is allowed to powers of ten: a multiple that has fifty digits but for a carry is representable, with
an even coefficient if it is an even multiple. -/
theorem coefficient_of_le (he : least ≤ e) (hn : n.natAbs ≤ powerOfTen precision) :
    ∃ k, Coefficient least (n * (10 : ℚ) ^ e) k ∧ (Even n → Even k) := by
  rcases Nat.lt_or_eq_of_le hn with hlt | hcarry
  · exact ⟨n, ⟨hlt, e, he, rfl⟩, id⟩
  · have hstep : powerOfTen precision = powerOfTen (precision - 1) * 10 := rfl
    have hpos : 0 < powerOfTen (precision - 1) := Nat.pow_pos (by decide)
    obtain ⟨k, rfl⟩ : (10 : ℤ) ∣ n := by
      rw [← Int.natAbs_dvd_natAbs, hcarry]
      exact ⟨powerOfTen (precision - 1), by rw [hstep, Nat.mul_comm]; rfl⟩
    have hk : k.natAbs = powerOfTen (precision - 1) := by omega
    refine ⟨k, ⟨by omega, e + 1, he.trans (by exact_mod_cast Int.le.intro 1 rfl), ?_⟩, fun _ => ?_⟩
    · rw [zpow_add₀ (by norm_num)]
      push_cast
      ring
    · rw [← Int.natAbs_even, hk]
      exact ⟨5 * powerOfTen (precision - 2), by decide⟩

/-! ### Distances -/

/-- One of a number and its negation is as far from `s` as their absolute values are. -/
theorem exists_signed (s u : ℚ) : ∃ p, (p = u ∨ p = -u) ∧ |s - p| = |(|s| - u)| := by
  rcases le_total 0 s with hs | hs
  · exact ⟨u, .inl rfl, by rw [abs_of_nonneg hs]⟩
  · refine ⟨-u, .inr rfl, ?_⟩
    rw [abs_of_nonpos hs, ← abs_neg]
    congr 1
    ring

section Closer

variable (hr : ∀ p, p = u ∨ p = -u → |s - r| ≤ |s - p|)
include hr

/-- What is nearer than a bound on either side does not pass the bound. -/
theorem abs_le_of_closer (hs : |s| ≤ u) : |r| ≤ u := by
  obtain ⟨p, hp, hdist⟩ := exists_signed s u
  have hcloser := hr p hp
  rw [hdist, abs_of_nonpos (sub_nonpos.2 hs), abs_sub_comm] at hcloser
  have := abs_sub_abs_le_abs_sub r s
  linarith

/-- What is below a bound is farther away than what is nearer than the bound on either side. -/
theorem closer_than_short (hs : u ≤ |s|) (hr' : |r'| < u) : |s - r| < |s - r'| := by
  obtain ⟨p, hp, hdist⟩ := exists_signed s u
  have hcloser := hr p hp
  rw [hdist, abs_of_nonneg (sub_nonneg.2 hs)] at hcloser
  have := abs_sub_abs_le_abs_sub s r'
  linarith

end Closer

theorem representable_signed {p : ℚ} (he : least ≤ e) (hp : p = (10 : ℚ) ^ e ∨ p = -(10 : ℚ) ^ e) :
    Representable least p := by
  rcases hp with rfl | rfl
  · exact ⟨1, by decide, e, he, by rw [Int.cast_one, one_mul]⟩
  · exact ⟨-1, by decide, e, he, by rw [Int.cast_neg, Int.cast_one, neg_one_mul]⟩

namespace Nearest

/-- Rounding does not pass a power of ten. -/
theorem abs_le (h : Nearest least s r) (he : least ≤ e) (hs : |s| ≤ (10 : ℚ) ^ e) : |r| ≤ (10 : ℚ) ^ e :=
  abs_le_of_closer (fun p hp => h.closest p (representable_signed he hp)) hs

/-- The least exponent does not matter to numbers that have fifty digits above it. -/
theorem free {l : ℤ} (h : Nearest l s r) (hs : (10 : ℚ) ^ (l + precision - 1) ≤ |s|) : Nearest ⊥ s r := by
  have hle : (l : WithBot ℤ) ≤ (l + precision - 1 : ℤ) := by
    rw [WithBot.coe_le_coe]
    unfold precision
    omega
  -- with a smaller exponent a number is too short
  have hshort : ∀ r', Representable ⊥ r' → ¬Representable l r' → |s - r| < |s - r'| := by
    rintro r' ⟨n, hn, e, -, rfl⟩ hr'
    have he : e < l := Int.not_le.1 fun he => hr' ⟨n, hn, e, WithBot.coe_le_coe.2 he, rfl⟩
    exact closer_than_short (fun p hp => h.closest p (representable_signed hle hp)) hs
      ((abs_lt_zpow_iff.2 hn).trans_le (zpow_le_of_exponent (by omega)))
  obtain ⟨k, hk, e, -, hr⟩ := h.representable
  refine nearest_of_candidates ⟨k, hk, e, bot_le, hr⟩ hshort h.closest fun r' hl hne htie => ?_
  obtain ⟨n, ⟨hn, e', -, hr⟩, heven⟩ := h.even r' hl hne htie
  exact ⟨n, ⟨hn, e', bot_le, hr⟩, heven⟩

end Nearest

/-! ### There is one nearest number -/

/-- Between a number with an even coefficient and another that is even at the same exponent there is a third one, which
is nearer to what is halfway. -/
theorem not_halfway (hr : Nearest least s r) (hn : n.natAbs < powerOfTen precision) (he : least ≤ e)
    (hrn : r = n * (10 : ℚ) ^ e) {k : ℤ} (hk : k ≠ 0) : s ≠ r + k * (10 : ℚ) ^ e := by
  intro hs
  have hnext : (n + k.sign).natAbs ≤ powerOfTen precision := by
    have := Int.natAbs_add_le n k.sign
    rw [Int.natAbs_sign_of_ne_zero hk] at this
    omega
  obtain ⟨c, hc, -⟩ := coefficient_of_le he hnext
  have hclosest := hr.closest _ ⟨c, hc⟩
  have hdist : s - r = k * (10 : ℚ) ^ e := by rw [hs, add_sub_cancel_left]
  have hdist' : s - ((n + k.sign : ℤ) : ℚ) * (10 : ℚ) ^ e = ((k - k.sign : ℤ) : ℚ) * (10 : ℚ) ^ e := by
    rw [hs, hrn]
    push_cast
    ring
  rw [hdist, hdist', abs_mul_zpow, abs_mul_zpow, mul_le_mul_iff_left₀ (ten_zpow_pos e), Nat.cast_le] at hclosest
  rcases Int.lt_or_gt_of_ne hk with hneg | hpos
  · rw [Int.sign_eq_neg_one_of_neg hneg] at hclosest
    omega
  · rw [Int.sign_eq_one_of_pos hpos] at hclosest
    omega

/-- An even coefficient at an exponent makes half of the number a multiple of the power of ten. -/
theorem multiple_half (hn : Even n) (hr : r = n * (10 : ℚ) ^ e) : Multiple e (r / 2) := by
  obtain ⟨k, rfl⟩ := hn
  exact ⟨k, by rw [hr]; push_cast; ring⟩

theorem eq_of_halfway (h : Nearest least s r) (hn : n.natAbs < powerOfTen precision) (he : least ≤ e)
    (hr : r = n * (10 : ℚ) ^ e) (heven : Even n) (hr' : Multiple e (r' / 2)) (hmid : s = (r + r') / 2) : r = r' := by
  obtain ⟨k, hk⟩ := hr'.sub (multiple_half heven hr)
  by_contra hne
  refine not_halfway h hn he hr (k := k) ?_ (by linarith)
  rintro rfl
  rw [Int.cast_zero, zero_mul] at hk
  exact hne (by linarith)

/-- **There is one nearest number at most.** -/
theorem Nearest.unique (h : Nearest least s r) (h' : Nearest least s r') : r = r' := by
  by_contra hne
  have htie : |s - r| = |s - r'| :=
    le_antisymm (h.closest r' h'.representable) (h'.closest r h.representable)
  obtain ⟨n, ⟨hn, e, he, hr⟩, heven⟩ := h.even r' h'.representable (Ne.symm hne) htie
  obtain ⟨n', ⟨hn', e', he', hr'⟩, heven'⟩ := h'.even r h.representable hne htie.symm
  -- what is rounded lies halfway between two numbers, and both are even where the smaller exponent is
  have hmid : s = (r + r') / 2 := by
    rcases abs_eq_abs.1 htie with heq | heq
    · exact absurd (sub_right_injective heq) hne
    · linarith
  rcases le_total e e' with hle | hle
  · exact hne (eq_of_halfway h hn he hr heven ((multiple_half heven' hr').mono hle) hmid)
  · have hmid' : s = (r' + r) / 2 := by linarith
    exact hne (eq_of_halfway h' hn' he' hr' heven' ((multiple_half heven hr).mono hle) hmid').symm

/-! ### Rounding to multiples of a power of ten -/

/-- `10 ^ E` is the power of ten to whose multiples `s` is rounded: `s` has fifty digits above it, or fewer if there is
no smaller exponent. -/
structure Grid (least : WithBot ℤ) (E : ℤ) (s : ℚ) : Prop where
  least_le : least ≤ E
  abs_lt : |s| < (10 : ℚ) ^ (E + precision)
  le_abs : (10 : ℚ) ^ (E + precision - 1) ≤ |s| ∨ least = E

/-- `n · 10 ^ E` is the multiple of `10 ^ E` nearest to `s`, and of two the one that is even. -/
structure RoundedAt (E : ℤ) (s : ℚ) (n : ℤ) : Prop where
  near : 2 * |s - n * (10 : ℚ) ^ E| ≤ (10 : ℚ) ^ E
  even : 2 * |s - n * (10 : ℚ) ^ E| = (10 : ℚ) ^ E → Even n

theorem multiple_signed {p : ℚ} (he : E ≤ e) (hp : p = (10 : ℚ) ^ e ∨ p = -(10 : ℚ) ^ e) : Multiple E p := by
  rcases hp with rfl | rfl
  · exact Multiple.mono ⟨1, by rw [Int.cast_one, one_mul]⟩ he
  · exact Multiple.mono ⟨-1, by rw [Int.cast_neg, Int.cast_one, neg_one_mul]⟩ he

namespace RoundedAt

variable {p : ℚ} (h : RoundedAt E s n) (hp : Multiple E p)
include h hp

/-- Another multiple is at least half a unit away. -/
theorem unit_le (hne : p ≠ n * (10 : ℚ) ^ E) : (10 : ℚ) ^ E ≤ 2 * |s - p| := by
  have hstep := (hp.sub ⟨n, rfl⟩).le_abs (sub_ne_zero.2 hne)
  have htriangle := abs_sub_le p s (n * (10 : ℚ) ^ E)
  have hnear := h.near
  rw [abs_sub_comm p s] at htriangle
  linarith

theorem closest : |s - n * (10 : ℚ) ^ E| ≤ |s - p| := by
  by_cases hne : p = n * (10 : ℚ) ^ E
  · rw [hne]
  · have hunit := h.unit_le hp hne
    have hnear := h.near
    linarith

/-- If another multiple is as near, the multiple is even. -/
theorem even_of_tie (hne : p ≠ n * (10 : ℚ) ^ E) (htie : |s - n * (10 : ℚ) ^ E| = |s - p|) : Even n := by
  have hunit := h.unit_le hp hne
  rw [← htie] at hunit
  exact h.even (le_antisymm h.near hunit)

end RoundedAt

/-- Fifty digits are left but for a carry. -/
theorem RoundedAt.natAbs_le (h : RoundedAt E s n) (hg : Grid least E s) : n.natAbs ≤ powerOfTen precision := by
  refine abs_le_zpow_iff.1 (abs_le_of_closer (fun p hp => h.closest (multiple_signed ?_ hp)) hg.abs_lt.le)
  omega

/-- **The nearest multiple of the power of ten is the nearest number.** -/
theorem RoundedAt.nearest (h : RoundedAt E s n) (hg : Grid least E s) : Nearest least s (n * (10 : ℚ) ^ E) := by
  have hE : E ≤ E + precision - 1 := by unfold precision; omega
  obtain ⟨k, hk, heven⟩ := coefficient_of_le hg.least_le (h.natAbs_le hg)
  -- what is no multiple is too short
  have hshort : ∀ r', Representable least r' → ¬Multiple E r' → |s - n * (10 : ℚ) ^ E| < |s - r'| := by
    rintro r' ⟨n', hn', e, he, rfl⟩ hr'
    have hlt : e < E := Int.not_le.1 fun hle => hr' (Multiple.mono ⟨n', rfl⟩ hle)
    rcases hg.le_abs with hs | hleast
    · exact closer_than_short (fun p hp => h.closest (multiple_signed hE hp)) hs
        ((abs_lt_zpow_iff.2 hn').trans_le (zpow_le_of_exponent (by omega)))
    · rw [hleast, WithBot.coe_le_coe] at he
      omega
  exact nearest_of_candidates ⟨k, hk⟩ hshort (fun r' hm => h.closest hm) fun r' hm hne htie =>
    ⟨k, hk, heven (h.even_of_tie hm hne htie)⟩

/-! ### Numbers that are rounded alike -/

/-- No multiple of `10 ^ m` lies between the two numbers, nor on one of them alone. -/
def SameSide (m : ℤ) (s s' : ℚ) : Prop := ∀ p, Multiple m p → (p ≤ s ↔ p ≤ s') ∧ (s ≤ p ↔ s' ≤ p)

theorem SameSide.neg {s' : ℚ} (h : SameSide m s s') : SameSide m (-s) (-s') := by
  rintro p ⟨k, hk⟩
  obtain ⟨hle, hge⟩ := h (-p) ⟨-k, by rw [hk, Int.cast_neg, neg_mul]⟩
  exact ⟨by rw [le_neg, hge, ← le_neg], by rw [neg_le, hle, ← neg_le]⟩

/-- A positive number below the power of ten is passed by the positive multiples. -/
theorem multiple_le_iff {q a : ℚ} (hq : Multiple m q) (ha : 0 < a) (hlt : a < (10 : ℚ) ^ m) :
    (q ≤ a ↔ q ≤ 0) ∧ (a ≤ q ↔ 0 < q) := by
  rcases lt_or_ge 0 q with hpos | hneg
  · have hle := hq.le_abs hpos.ne'
    rw [abs_of_pos hpos] at hle
    exact ⟨iff_of_false (not_le.2 (hlt.trans_le hle)) (not_le.2 hpos), iff_of_true (hlt.le.trans hle) hpos⟩
  · exact ⟨iff_of_true (hneg.trans ha.le) hneg, iff_of_false (not_le.2 (hneg.trans_lt ha)) (not_lt.2 hneg)⟩

/-- What is added to a multiple matters only by its sign, if it is less than the power of ten. -/
theorem sameSide_of_pos {a a' b : ℚ} (hb : Multiple m b) (ha : 0 < a ∧ a < (10 : ℚ) ^ m)
    (ha' : 0 < a' ∧ a' < (10 : ℚ) ^ m) : SameSide m (a + b) (a' + b) := by
  intro p hp
  obtain ⟨hle, hge⟩ := multiple_le_iff (hp.sub hb) ha.1 ha.2
  obtain ⟨hle', hge'⟩ := multiple_le_iff (hp.sub hb) ha'.1 ha'.2
  exact ⟨by rw [← sub_le_iff_le_add, ← sub_le_iff_le_add, hle, hle'],
    by rw [← le_sub_iff_add_le, ← le_sub_iff_add_le, hge, hge']⟩

namespace SameSide

variable {s' : ℚ} (h : SameSide m s s')
include h

/-- Numbers on the same side of all multiples are rounded to the multiples of the same power of ten. -/
theorem grid (hm : m ≤ E) (hg : Grid least E s) : Grid least E s' := by
  have hsides : ∀ {e : ℤ}, E ≤ e → ((10 : ℚ) ^ e ≤ |s| ↔ (10 : ℚ) ^ e ≤ |s'|) := by
    intro e he
    have hpos := (h _ (multiple_signed (hm.trans he) (.inl rfl))).1
    have hneg := (h _ (multiple_signed (hm.trans he) (.inr rfl))).2
    rw [le_abs, le_abs, le_neg, le_neg (b := s'), hpos, hneg]
  refine ⟨hg.least_le, ?_, ?_⟩
  · rw [← not_le, ← hsides (by omega), not_le]
    exact hg.abs_lt
  · rw [← hsides (by unfold precision; omega)]
    exact hg.le_abs

/-- Numbers on the same side of all multiples are rounded alike to the multiples of a greater power of ten: half of this
power is a multiple too. -/
theorem roundedAt (hm : m < E) (hr : RoundedAt E s n) : RoundedAt E s' n := by
  have hhalf : Multiple m ((10 : ℚ) ^ E / 2) := by
    refine Multiple.mono (e := E - 1) ⟨5, ?_⟩ (by omega)
    rw [show E = E - 1 + 1 by omega, zpow_add₀ (by norm_num), show E - 1 + 1 - 1 = E - 1 by omega]
    ring
  have hn : Multiple m (n * (10 : ℚ) ^ E) := Multiple.mono ⟨n, rfl⟩ hm.le
  obtain ⟨hlow, hlow'⟩ := h _ (hn.sub hhalf)
  obtain ⟨hhigh, hhigh'⟩ := h _ (hn.add hhalf)
  have hnear : ∀ t : ℚ, 2 * |t - n * (10 : ℚ) ^ E| ≤ (10 : ℚ) ^ E
      ↔ n * (10 : ℚ) ^ E - (10 : ℚ) ^ E / 2 ≤ t ∧ t ≤ n * (10 : ℚ) ^ E + (10 : ℚ) ^ E / 2 := by
    intro t
    rw [← le_div_iff₀' (by norm_num), abs_le]
    constructor <;> rintro ⟨h₁, h₂⟩ <;> constructor <;> linarith
  have hfar : ∀ t : ℚ, (10 : ℚ) ^ E ≤ 2 * |t - n * (10 : ℚ) ^ E|
      ↔ n * (10 : ℚ) ^ E + (10 : ℚ) ^ E / 2 ≤ t ∨ t ≤ n * (10 : ℚ) ^ E - (10 : ℚ) ^ E / 2 := by
    intro t
    rw [← div_le_iff₀' (by norm_num), le_abs]
    constructor
    · rintro (h₁ | h₁)
      · exact .inl (by linarith)
      · exact .inr (by linarith)
    · rintro (h₁ | h₁)
      · exact .inl (by linarith)
      · exact .inr (by linarith)
  refine ⟨?_, fun htie => hr.even (le_antisymm hr.near ?_)⟩
  · rw [hnear, ← hlow, ← hhigh', ← hnear]
    exact hr.near
  · rw [hfar, hhigh, hlow', ← hfar]
    exact htie.ge

end SameSide

end Daybook.Decimal
