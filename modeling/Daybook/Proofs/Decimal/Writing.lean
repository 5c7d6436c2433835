import Daybook.Decimal.Scientific
import Daybook.Proofs.Decimal.Reading

/-!
# Decimal — reading what was written

A number is written in one of three layouts: as an integer, with a point among its digits or before zeros and
them, or with one digit before the point and a power of ten.  In each of them it has digits before the point,
digits after it if there is one, and a power of ten if it is marked; the digits are those of the coefficient after
zeros, and the power less the number of digits after the point is the exponent.

* `sign_chars`, `mantissa_chars`, `power_chars`: the parts of a written number, in the grammar of numbers.
* `exists_layout`: how a number is laid out.
* `writes_written`: the written form of a number writes it.
* `readPlain_written`: **a number is read as it was written**, if it is within the limits at all.
* `Punctuated`, `read_punctuated`: a text with more commas is read alike.
* `read_toString`: **a number that was read is read again from its written form, with commas anywhere**.
-/

namespace Daybook

namespace Decimal

open Text (Sign numeral ofDigits asciiValue isDigit_of_mem_numeral)

variable {whole fraction tail : List Char} {neg : Bool} {p : Int}

/-! ### Parts of a number -/

/-- Digits, and digits after a point if there are any. -/
def mantissa (whole fraction : List Char) : List Char :=
  if fraction = [] then whole else whole ++ '.' :: fraction

/-- A minus, or nothing. -/
def signChars (neg : Bool) : List Char := if neg then ['-'] else []

/-- The parts of a written number are those of the grammar. -/
theorem sign_chars (neg : Bool) : Sign (signChars neg) neg := by
  cases neg with
  | true => exact .minus
  | false => exact .absent

theorem mantissa_chars (h : ∀ c ∈ whole ++ fraction, c.isDigit = true) :
    Mantissa (mantissa whole fraction) (whole.map asciiValue) (fraction.map asciiValue) := by
  obtain ⟨hw, hf⟩ := List.forall_mem_append.1 h
  simp only [mantissa]
  split
  · next hempty =>
      rw [hempty]
      exact .plain (digits_of_isDigit hw)
  · exact .pointed (digits_of_isDigit hw) (digits_of_isDigit hf)

theorem power_chars (e : Int) : Power (power e) e := by
  have hdigits := digits_of_isDigit fun c hc => isDigit_of_mem_numeral (n := e.natAbs) hc
  have hvalue : positional ((numeral e.natAbs).map asciiValue) = e.natAbs := by
    rw [positional, ← Text.ofDigits_eq, Text.ofDigits_numeral]
  have hsign : Sign [if e < 0 then '-' else '+'] (decide (e < 0)) := by
    by_cases h : e < 0
    · rw [if_pos h, decide_eq_true h]
      exact .minus
    · rw [if_neg h, decide_eq_false h]
      exact .plus
  have hpower := Power.marked (.inr rfl) hsign hdigits (Text.numeral_ne_nil e.natAbs)
  rwa [hvalue, show (if decide (e < 0) then -1 else 1) * (e.natAbs : Int) = e by
    simp only [decide_eq_true_eq]
    split <;> omega] at hpower

theorem mem_mantissa {c : Char} (h : c ∈ mantissa whole fraction) : c ∈ whole ++ fraction ∨ c = '.' := by
  simp only [mantissa] at h
  split at h
  · exact .inl (List.mem_append_left _ h)
  · rcases List.mem_append.1 h with h | h
    · exact .inl (List.mem_append_left _ h)
    · rcases List.mem_cons.1 h with h | h
      · exact .inr h
      · exact .inl (List.mem_append_right _ h)

/-! ### Layouts -/

/-- Digits with a point have the digits after zeros, and as many after the point as do not stand before it. -/
theorem exists_pointed {ds : List Char} (before : Int) (hds : ds ≠ []) (hbefore : before ≤ ds.length) :
    ∃ whole fraction zeros, pointed ds before = mantissa whole fraction ∧ whole ≠ []
      ∧ whole ++ fraction = List.replicate zeros '0' ++ ds ∧ (fraction.length : Int) = ds.length - before := by
  simp only [pointed]
  split
  · next hneg =>
      -- zeros stand before the digits, the first of them before the point
      refine ⟨['0'], List.replicate (-before).toNat '0' ++ ds, (-before).toNat + 1, ?_, nofun, rfl, ?_⟩
      · rw [mantissa, if_neg (List.append_ne_nil_of_right_ne_nil _ hds)]
        rfl
      · rw [List.length_append, List.length_replicate]
        omega
  split
  · next hpos hle =>
      have hlength : before.toNat - ds.length = 0 := by omega
      refine ⟨ds, [], 0, ?_, hds, List.append_nil ds, ?_⟩
      · rw [hlength, mantissa, if_pos rfl, List.replicate_zero, List.append_nil]
      · show (0 : Int) = _
        omega
  · next hpos hlt =>
      have hrest : (ds.drop before.toNat).length = ds.length - before.toNat := List.length_drop
      refine ⟨ds.take before.toNat, ds.drop before.toNat, 0, ?_, ?_, List.take_append_drop _ ds, ?_⟩
      · rw [mantissa, if_neg]
        intro h
        rw [h] at hrest
        have hzero : 0 = ds.length - before.toNat := hrest
        omega
      · intro h
        rcases List.take_eq_nil_iff.1 h with h | h
        · omega
        · exact hds h
      · rw [hrest]
        omega

/-- A number is written with a point alone, or with a power of ten after one digit and a point. -/
theorem written_eq (d : Decimal) :
    d.written
      = if d.exp ≤ 0 ∧ plainFrom ≤ d.adjusted then
          signChars d.neg ++ pointed (numeral d.coeff) (d.exp + (numeral d.coeff).length)
        else signChars d.neg ++ (pointed (numeral d.coeff) 1 ++ power d.adjusted) := by
  have hlength : 0 < (numeral d.coeff).length := List.length_pos_iff.2 (Text.numeral_ne_nil _)
  have hadjusted : d.adjusted = d.exp + (numeral d.coeff).length - 1 := rfl
  simp only [written, signChars]
  split
  · rfl
  · next hplain =>
      -- the first digit is not the units digit, which would be written plainly
      have hne : d.adjusted ≠ 0 := by
        simp only [plainFrom] at hplain
        omega
      rw [if_neg hne, List.append_assoc]

/-- How a number is laid out. -/
theorem exists_layout (d : Decimal) :
    ∃ whole fraction zeros tail p, d.written = signChars d.neg ++ (mantissa whole fraction ++ tail)
      ∧ whole ≠ [] ∧ whole ++ fraction = List.replicate zeros '0' ++ numeral d.coeff
      ∧ p - (fraction.length : Int) = d.exp
      ∧ (d.exp ≤ 0 ∧ plainFrom ≤ d.adjusted ∧ tail = [] ∧ p = 0
        ∨ ¬(d.exp ≤ 0 ∧ plainFrom ≤ d.adjusted) ∧ tail = power p) := by
  have hne := Text.numeral_ne_nil d.coeff
  have hlength : 0 < (numeral d.coeff).length := List.length_pos_iff.2 hne
  have hadjusted : d.adjusted = d.exp + (numeral d.coeff).length - 1 := rfl
  rw [written_eq]
  split
  · next hplain =>
      obtain ⟨whole, fraction, zeros, hpointed, hwhole, hdigits, hfraction⟩ :=
        exists_pointed (d.exp + (numeral d.coeff).length) hne (by omega)
      refine ⟨whole, fraction, zeros, [], 0, ?_, hwhole, hdigits, by omega,
        .inl ⟨hplain.1, hplain.2, rfl, rfl⟩⟩
      rw [hpointed, List.append_nil]
  · next hscientific =>
      obtain ⟨whole, fraction, zeros, hpointed, hwhole, hdigits, hfraction⟩ :=
        exists_pointed 1 hne (by omega)
      refine ⟨whole, fraction, zeros, power d.adjusted, d.adjusted, ?_, hwhole, hdigits, by omega,
        .inr ⟨hscientific, rfl⟩⟩
      rw [hpointed]

/-- The digits of a layout are digits, and write the coefficient. -/
theorem digits_of_layout {ds : List Char} {zeros : Nat} {d : Decimal}
    (h : ds = List.replicate zeros '0' ++ numeral d.coeff) :
    (∀ c ∈ ds, c.isDigit = true) ∧ ofDigits (ds.map asciiValue) = d.coeff := by
  subst h
  exact ⟨fun c hc => Text.isDigit_of_mem_padded hc, Text.ofDigits_padded zeros d.coeff⟩

/-- The written form of a number writes it. -/
theorem writes_written (d : Decimal) : Writes d.written d := by
  obtain ⟨whole, fraction, zeros, tail, p, hwritten, hwhole, hlayout, hexp, htail⟩ := exists_layout d
  obtain ⟨hdigits, hvalue⟩ := digits_of_layout hlayout
  have hpower : Power tail p := by
    rcases htail with ⟨-, -, rfl, rfl⟩ | ⟨-, rfl⟩
    · exact .absent
    · exact power_chars p
  have hwrites := Writes.mk (sign_chars d.neg) (mantissa_chars hdigits) (by simp [hwhole]) hpower
  rwa [← List.map_append, positional, ← Text.ofDigits_eq, hvalue, List.length_map, hexp, ← hwritten] at hwrites

/-- **A number is read as it was written**, if it is within the limits. -/
theorem readPlain_written (d : Decimal) : readPlain d.written = if d.isReadable then some d else none :=
  readPlain_of_writes (writes_written d)

/-- The characters of a written form that are no digits. -/
theorem isDigit_or_of_mem_written {d : Decimal} {c : Char} (h : c ∈ d.written) :
    c.isDigit = true ∨ c = '-' ∨ c = '.' ∨ ¬(d.exp ≤ 0 ∧ plainFrom ≤ d.adjusted) ∧ (c = 'E' ∨ c = '+') := by
  obtain ⟨whole, fraction, zeros, tail, p, hwritten, -, hlayout, -, htail⟩ := exists_layout d
  rw [hwritten] at h
  rcases List.mem_append.1 h with h | h
  · simp only [signChars] at h
    split at h
    · exact .inr (.inl (List.mem_singleton.1 h))
    · cases h
  rcases List.mem_append.1 h with h | h
  · rcases mem_mantissa h with h | h
    · exact .inl ((digits_of_layout hlayout).1 c h)
    · exact .inr (.inr (.inl h))
  rcases htail with ⟨-, -, rfl, -⟩ | ⟨hscientific, rfl⟩
  · cases h
  · simp only [power] at h
    rcases List.mem_cons.1 h with h | h
    · exact .inr (.inr (.inr ⟨hscientific, .inl h⟩))
    rcases List.mem_cons.1 h with h | h
    · split at h
      · exact .inr (.inl h)
      · exact .inr (.inr (.inr ⟨hscientific, .inr h⟩))
    · exact .inl (isDigit_of_mem_numeral h)

/-- A power of ten is written just when a number is not written plainly. -/
theorem mem_written_iff {d : Decimal} : 'E' ∈ d.written ↔ ¬(d.exp ≤ 0 ∧ plainFrom ≤ d.adjusted) := by
  constructor
  · intro h
    rcases isDigit_or_of_mem_written h with h | h | h | ⟨h, -⟩
    · cases h
    · cases h
    · cases h
    · exact h
  · intro hscientific
    obtain ⟨_, _, _, tail, p, hwritten, -, -, -, htail⟩ := exists_layout d
    rw [hwritten]
    rcases htail with ⟨hexp, hplain, -⟩ | ⟨-, rfl⟩
    · exact absurd ⟨hexp, hplain⟩ hscientific
    · exact List.mem_append_right _ (List.mem_append_right _ List.mem_cons_self)

/-! ### Commas -/

/-- A text with commas put in, before and behind any of its characters. -/
inductive Punctuated : List Char → List Char → Prop
  | nil : Punctuated [] []
  | keep (c : Char) {cs cs' : List Char} (h : Punctuated cs cs') : Punctuated (c :: cs) (c :: cs')
  | comma {cs cs' : List Char} (h : Punctuated cs cs') : Punctuated cs (',' :: cs')

theorem Punctuated.filter_eq {cs cs' : List Char} (h : Punctuated cs cs') :
    cs'.filter (· != ',') = cs.filter (· != ',') := by
  induction h with
  | nil => rfl
  | keep c _ ih => simp only [List.filter_cons, ih]
  | comma _ ih => exact ih

/-- A text with more commas is read alike. -/
theorem read_punctuated {s : String} {cs : List Char} (h : Punctuated s.toList cs) :
    read (String.ofList cs) = read s := by
  simp only [read]
  rw [String.toList_ofList, h.filter_eq]

theorem read_toString_eq (d : Decimal) : read d.toString = if d.isReadable then some d else none := by
  have hcommas : d.written.filter (· != ',') = d.written := by
    refine List.filter_eq_self.2 fun c hc => bne_iff_ne.2 ?_
    rintro rfl
    rcases isDigit_or_of_mem_written hc with h | h | h | ⟨-, h | h⟩ <;> cases h
  simp only [read, toString]
  rw [String.toList_ofList, hcommas]
  exact readPlain_written d

/-- **A number that was read is read again from its written form**: sign, coefficient and exponent are the same,
and commas may be put in anywhere.  It has a power of ten unless its exponent is not positive and its first digit
stands at the sixth place after the point or before. -/
theorem read_toString {s : String} {d : Decimal} (h : read s = some d) :
    read d.toString = some d
      ∧ (∀ cs, Punctuated d.toString.toList cs → read (String.ofList cs) = some d)
      ∧ ('E' ∈ d.toString.toList ↔ ¬(d.exp ≤ 0 ∧ -6 ≤ d.adjusted)) := by
  have hread : read d.toString = some d := by
    rw [read_toString_eq, if_pos (writes_of_readPlain h).2]
  refine ⟨hread, fun cs hcs => (read_punctuated hcs).trans hread, ?_⟩
  rw [toString, String.toList_ofList]
  exact mem_written_iff

/-- A negative zero of two places, written with commas; a number just within the limits, written with another power
of ten than it was read with; and zeros beyond those that are written plainly. -/
theorem read_toString_layouts :
    (read "-0.0,0" = some ⟨true, 0, -2⟩ ∧ toString ⟨true, 0, -2⟩ = "-0.00"
        ∧ read (String.ofList ['-', ',', '0', '.', '0', ',', '0', ',']) = some ⟨true, 0, -2⟩)
      ∧ (read "12.50e+999999999999999998" = some ⟨false, 1250, 999999999999999996⟩
        ∧ toString ⟨false, 1250, 999999999999999996⟩ = "1.250E+999999999999999999"
        ∧ read "1.250E+999999999999999999" = some ⟨false, 1250, 999999999999999996⟩)
      ∧ read "0.0000000" = some ⟨false, 0, -7⟩ ∧ toString ⟨false, 0, -7⟩ = "0E-7"
      ∧ read "0E-7" = some ⟨false, 0, -7⟩ := by
  obtain ⟨hzero, hzero', hgreat, hgreat', hplaces, hplaces'⟩ :
      read "-0.0,0" = some ⟨true, 0, -2⟩ ∧ toString ⟨true, 0, -2⟩ = "-0.00"
        ∧ read "12.50e+999999999999999998" = some ⟨false, 1250, 999999999999999996⟩
        ∧ toString ⟨false, 1250, 999999999999999996⟩ = "1.250E+999999999999999999"
        ∧ read "0.0000000" = some ⟨false, 0, -7⟩ ∧ toString ⟨false, 0, -7⟩ = "0E-7" := by decide +kernel
  have hcommas : Punctuated "-0.00".toList ['-', ',', '0', '.', '0', ',', '0', ','] :=
    .keep _ (.comma (.keep _ (.keep _ (.keep _ (.comma (.keep _ (.comma .nil)))))))
  refine ⟨⟨hzero, hzero', (read_toString hzero).2.1 _ (hzero' ▸ hcommas)⟩, ⟨hgreat, hgreat', ?_⟩,
    hplaces, hplaces', ?_⟩
  · rw [← hgreat']
    exact (read_toString hgreat).1
  · rw [← hplaces']
    exact (read_toString hplaces).1

end Decimal

end Daybook
