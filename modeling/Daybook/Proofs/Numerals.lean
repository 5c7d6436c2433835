import Daybook.Decimal.Basic
import Daybook.Text.Digit
import Mathlib.Data.List.Induction
import Mathlib.Data.Nat.Digits.Defs

/-!
# Numerals

A number is written with digits, the most significant first, and a sign may stand before them.

* `ofDigits_eq`: digits write their positional value.
* `ofDigits_numeral`, `ofDigits_zeros`: a numeral writes its number, also after zeros.
* `eq_filled`: digits of a given width are determined by the number that they write.
* `Sign`: what may be taken off a text as its sign.
-/

namespace Daybook

namespace Text

/-! ### Digits -/

theorem digit?_of_isDigit {c : Char} (h : c.isDigit = true) : digit? c = some (asciiValue c) := by
  simp only [Char.isDigit, Bool.and_eq_true, decide_eq_true_eq] at h
  have h₁ : 48 ≤ c.toNat := h.1
  have h₂ : c.toNat ≤ 57 := h.2
  have hfirst : digitZeros.find? (fun z => z ≤ c.toNat && c.toNat < z + 10) = some 48 := by
    refine List.find?_cons_of_pos ?_
    simp only [Bool.and_eq_true, decide_eq_true_eq]
    omega
  rw [digit?, hfirst]
  rfl

/-- An ASCII digit is determined by its value. -/
theorem digitChar_asciiValue {c : Char} (h : c.isDigit = true) : (asciiValue c).digitChar = c := by
  simp only [Char.isDigit, Bool.and_eq_true, decide_eq_true_eq] at h
  have h₁ : 48 ≤ c.toNat := h.1
  have h₂ : c.toNat ≤ 57 := h.2
  have hchar : ∀ n < 58, 48 ≤ n → (n - 48).digitChar = Char.ofNat n := by decide
  exact (hchar c.toNat (by omega) h₁).trans (Char.ofNat_toNat c)

theorem map_digitChar_asciiValue {cs : List Char} (h : ∀ c ∈ cs, c.isDigit = true) :
    (cs.map asciiValue).map Nat.digitChar = cs := by
  rw [List.map_map]
  exact (List.map_congr_left fun c hc => digitChar_asciiValue (h c hc)).trans (List.map_id cs)

/-- Digits write their positional value. -/
theorem ofDigits_eq (ds : List Nat) : ofDigits ds = Nat.ofDigits 10 ds.reverse := by
  induction ds using List.reverseRecOn with
  | nil => rfl
  | append_singleton ds d ih =>
      rw [ofDigits_append_singleton, List.reverse_append, List.reverse_singleton, List.singleton_append,
        Nat.ofDigits_cons, ih, Nat.add_comm]

/-! ### Numerals -/

theorem isDigit_of_mem_numeral {n : Nat} {c : Char} (h : c ∈ numeral n) : c.isDigit = true :=
  Nat.isDigit_of_mem_toDigits (by decide) (by decide) h

theorem numeral_ne_nil (n : Nat) : numeral n ≠ [] := Nat.toDigits_ne_nil

/-- A numeral stands for its number. -/
theorem ofDigits_numeral (n : Nat) : ofDigits ((numeral n).map asciiValue) = n := by
  simp only [ofDigits]
  rw [List.foldl_map]
  exact Nat.ofDigitChars_toDigits (by decide) (by decide)

/-- Zeros before digits count nothing. -/
theorem ofDigits_zeros (k : Nat) (ds : List Nat) : ofDigits (List.replicate k 0 ++ ds) = ofDigits ds := by
  induction k with
  | zero => rfl
  | succ k ih => exact ih

/-- A numeral after zeros. -/
def padded (zeros n : Nat) : List Char := List.replicate zeros '0' ++ numeral n

theorem isDigit_of_mem_padded {zeros n : Nat} {c : Char} (h : c ∈ padded zeros n) : c.isDigit = true := by
  rcases List.mem_append.1 h with h | h
  · rw [List.eq_of_mem_replicate h]
    rfl
  · exact isDigit_of_mem_numeral h

/-- A numeral after zeros stands for its number. -/
theorem ofDigits_padded (zeros n : Nat) : ofDigits ((padded zeros n).map asciiValue) = n := by
  rw [padded, List.map_append, List.map_replicate]
  exact (ofDigits_zeros _ _).trans (ofDigits_numeral n)

theorem padded_ne_nil (zeros n : Nat) : padded zeros n ≠ [] :=
  List.append_ne_nil_of_right_ne_nil _ (numeral_ne_nil n)

theorem length_padded (zeros n : Nat) : (padded zeros n).length = zeros + digitCount n := by
  rw [padded, List.length_append, List.length_replicate]
  rfl

/-! ### Numerals of a width -/

/-- A numeral that zeros fill up to a width. -/
def filled (width n : Nat) : List Char := padded (width - digitCount n) n

/-- Digits write less than the power of ten of their number. -/
theorem ofDigits_lt {ds : List Nat} (h : ∀ d ∈ ds, d < 10) : ofDigits ds < powerOfTen ds.length := by
  induction ds using List.reverseRecOn with
  | nil => exact Nat.one_pos
  | append_singleton ds d ih =>
      have hd : d < 10 := h d (List.mem_append_right _ List.mem_cons_self)
      have hds := ih fun d hd => h d (List.mem_append_left _ hd)
      rw [ofDigits_append_singleton, List.length_append, List.length_singleton, powerOfTen_succ]
      omega

theorem digitCount_le {width n : Nat} (hw : 0 < width) (h : n < powerOfTen width) : digitCount n ≤ width :=
  (Nat.length_toDigits_le_iff (by decide) hw).2 h

theorem length_filled {width n : Nat} (hw : 0 < width) (h : n < powerOfTen width) :
    (filled width n).length = width := by
  have := digitCount_le hw h
  rw [filled, length_padded]
  omega

/-- Digits are determined by how many they are and by the number that they write. -/
theorem digits_ext {cs ds : List Char} (hcs : ∀ c ∈ cs, c.isDigit = true) (hds : ∀ c ∈ ds, c.isDigit = true)
    (hlength : cs.length = ds.length)
    (hvalue : ofDigits (cs.map asciiValue) = ofDigits (ds.map asciiValue)) : cs = ds := by
  have hlt : ∀ l : List Char, (∀ c ∈ l, c.isDigit = true) → ∀ d ∈ (l.map asciiValue).reverse, d < 10 := by
    intro l hl d hd
    obtain ⟨c, hc, rfl⟩ := List.mem_map.1 (List.mem_reverse.1 hd)
    exact asciiValue_lt (hl c hc)
  have hvalues : (cs.map asciiValue).reverse = (ds.map asciiValue).reverse := by
    refine Nat.ofDigits_inj_of_len_eq (by decide) (by simp [hlength]) (hlt cs hcs) (hlt ds hds) ?_
    rw [← ofDigits_eq, ← ofDigits_eq, hvalue]
  rw [← map_digitChar_asciiValue hcs, List.reverse_inj.1 hvalues, map_digitChar_asciiValue hds]

theorem value_lt {cs : List Char} (h : ∀ c ∈ cs, c.isDigit = true) :
    ofDigits (cs.map asciiValue) < powerOfTen cs.length := by
  rw [← List.length_map asciiValue]
  refine ofDigits_lt fun d hd => ?_
  obtain ⟨c, hc, rfl⟩ := List.mem_map.1 hd
  exact asciiValue_lt (h c hc)

/-- Digits are the numeral of what they write, filled up to their number. -/
theorem eq_filled {cs : List Char} (hne : cs ≠ []) (h : ∀ c ∈ cs, c.isDigit = true) :
    cs = filled cs.length (ofDigits (cs.map asciiValue)) := by
  refine digits_ext h (fun c hc => isDigit_of_mem_padded hc)
    (length_filled (List.length_pos_iff.2 hne) (value_lt h)).symm ?_
  rw [filled, ofDigits_padded]

/-! ### Signs -/

/-- A sign that may stand before a number, and whether it is a minus. -/
inductive Sign : List Char → Bool → Prop
  | absent : Sign [] false
  | plus : Sign ['+'] false
  | minus : Sign ['-'] true

/-- A sign is taken off what does not begin with another one. -/
theorem takeSign_append {sign cs : List Char} {minus : Bool} (h : Sign sign minus)
    (hcs : ∀ c ∈ cs.head?, c ≠ '-' ∧ c ≠ '+') : takeSign (sign ++ cs) = (minus, cs) := by
  cases h with
  | absent =>
      cases cs with
      | nil => rfl
      | cons c cs =>
          obtain ⟨hminus, hplus⟩ := hcs c rfl
          rw [List.nil_append, takeSign, if_neg hminus, if_neg hplus]
  | plus => rfl
  | minus => rfl

theorem exists_sign (cs : List Char) : ∃ sign, Sign sign (takeSign cs).1 ∧ cs = sign ++ (takeSign cs).2 := by
  cases cs with
  | nil => exact ⟨[], .absent, rfl⟩
  | cons c cs =>
      simp only [takeSign]
      split
      · next h => exact ⟨['-'], .minus, by rw [h]; rfl⟩
      split
      · next h => exact ⟨['+'], .plus, by rw [h]; rfl⟩
      · exact ⟨[], .absent, rfl⟩

theorem ne_sign_of_isDigit {c : Char} (h : c.isDigit = true) : c ≠ '-' ∧ c ≠ '+' := by
  constructor <;> (rintro rfl; cases h)

end Text

end Daybook
