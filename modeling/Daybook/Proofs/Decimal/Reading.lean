import Daybook.Act
import Daybook.Proofs.Longest
import Daybook.Proofs.Numerals
import Daybook.Text.Blank
import Mathlib.Data.List.Forall2
import Mathlib.Data.List.TakeWhile
import Mathlib.Tactic.Ring

/-!
# Decimal — what is read

The texts that write a number are given by a grammar (`Writes`): an optional sign, digits of any script with at most
one point among them, and optionally a power of ten.  A number that is written says how, as its coefficient is the
positional value of all the digits, and its exponent the power less the number of digits after the point.

* `digits?_eq_some_iff`, `readPower_eq_some_iff`: the parts of a number are read as the grammar has them.
* `Denotes`: what a text with commas writes without them, within the limits.
* `readPlain_of_writes`, `writes_of_readPlain`: a text is read just when it writes a number within the limits.
* `Writes.mem`, `not_writes_of_isBlank`, `not_writes_of_named`: the characters of a number, among which there are no
  blanks and no letters but the mark of a power.
* `read_exactly`: **a text is read as what it writes without its commas**, and every other text is refused.
-/

namespace Daybook.Decimal

open Text (Sign)

/-! ### The grammar -/

/-- Decimal digits of any script, and their values. -/
def Digits (cs : List Char) (ds : List Nat) : Prop := List.Forall₂ (fun c d => Text.digit? c = some d) cs ds

/-- The positional value of digits, the most significant first. -/
def positional (ds : List Nat) : Nat := Nat.ofDigits 10 ds.reverse

/-- Digits with at most one point among them: those before the point, and those after it. -/
inductive Mantissa : List Char → List Nat → List Nat → Prop
  | plain {cs ds} (h : Digits cs ds) : Mantissa cs ds []
  | pointed {cs cs' ds ds'} (h : Digits cs ds) (h' : Digits cs' ds') : Mantissa (cs ++ '.' :: cs') ds ds'

/-- A power of ten, if there is one. -/
inductive Power : List Char → Int → Prop
  | absent : Power [] 0
  | marked {mark sign cs ds minus} (hmark : mark = 'e' ∨ mark = 'E') (hsign : Sign sign minus)
      (hdigits : Digits cs ds) (hne : cs ≠ []) :
      Power (mark :: (sign ++ cs)) ((if minus then -1 else 1) * (positional ds : Int))

/-- A text writes a number. -/
inductive Writes : List Char → Decimal → Prop
  | mk {sign cs tail minus whole fraction p} (hsign : Sign sign minus) (hmantissa : Mantissa cs whole fraction)
      (hne : whole ++ fraction ≠ []) (hpower : Power tail p) :
      Writes (sign ++ (cs ++ tail)) ⟨minus, positional (whole ++ fraction), p - fraction.length⟩

/-- A text writes a number without its commas, and the number is within the limits. -/
def Denotes (s : String) (d : Decimal) : Prop :=
  Writes (s.toList.filter (· != ',')) d ∧ d.adjusted ≤ 999999999999999999 ∧ -1999999999999999997 ≤ d.exp

variable {cs tail : List Char} {ds whole fraction : List Nat} {p : Int} {d : Decimal}

/-! ### The parts of a number -/

theorem digits?_eq_some_iff : digits? cs = some ds ↔ Digits cs ds := by
  simp only [digits?, Digits]
  induction cs generalizing ds with
  | nil =>
      rw [List.mapM_nil, List.forall₂_nil_left_iff]
      exact ⟨fun h => (Option.some.inj h).symm, fun h => congrArg some h.symm⟩
  | cons c cs ih =>
      rw [List.mapM_cons, List.forall₂_cons_left_iff]
      simp only [Option.bind_eq_bind, Option.bind_eq_some_iff, ih]
      constructor
      · rintro ⟨d, hd, ds', hds, h⟩
        exact ⟨d, ds', hd, hds, (Option.some.inj h).symm⟩
      · rintro ⟨d, ds', hd, hds, rfl⟩
        exact ⟨d, hd, ds', hds, rfl⟩

theorem digits_of_isDigit (h : ∀ c ∈ cs, c.isDigit = true) : Digits cs (cs.map Text.asciiValue) :=
  List.forall₂_map_right_iff.2 (List.forall₂_same.2 fun c hc => Text.digit?_of_isDigit (h c hc))

/-- The characters of a number that are no digits. -/
def isMark (c : Char) : Bool := c == '-' || c == '+' || c == '.' || isPowerMark c

theorem digit?_of_isMark {c : Char} (h : isMark c = true) : Text.digit? c = none := by
  simp only [isMark, isPowerMark, Bool.or_eq_true, beq_iff_eq] at h
  rcases h with ((rfl | rfl) | rfl) | rfl | rfl <;> decide

/-- Digits have values. -/
theorem Digits.digit? (h : Digits cs ds) : ∀ c ∈ cs, ∃ d, Text.digit? c = some d := by
  induction h with
  | nil => exact nofun
  | cons hd _ ih => exact List.forall_mem_cons.2 ⟨⟨_, hd⟩, ih⟩

/-- No digit is a mark. -/
theorem Digits.not_isMark (h : Digits cs ds) : ∀ c ∈ cs, isMark c = false := by
  intro c hc
  obtain ⟨d, hd⟩ := h.digit? c hc
  by_contra hmark
  rw [digit?_of_isMark (Bool.not_eq_false _ ▸ hmark)] at hd
  cases hd

theorem isMark_eq_false_iff {c : Char} :
    isMark c = false ↔ (c ≠ '-' ∧ c ≠ '+') ∧ (c != '.') = true ∧ (!isPowerMark c) = true := by
  simp [isMark, isPowerMark, and_assoc]

/-- A power of ten is read as it is marked. -/
theorem readPower_eq_some_iff (h : ∀ c ∈ tail.head?, isPowerMark c = true) :
    readPower tail = some p ↔ Power tail p := by
  cases tail with
  | nil =>
      constructor
      · intro hp
        cases hp
        exact .absent
      · rintro ⟨⟩
        rfl
  | cons mark cs =>
      have hmark : mark = 'e' ∨ mark = 'E' := by simpa [isPowerMark] using h mark rfl
      have hvalue : ∀ (minus : Bool) (ds : List Nat),
          (if minus then -(Text.ofDigits ds : Int) else Text.ofDigits ds)
            = (if minus then -1 else 1) * (positional ds : Int) := by
        intro minus ds
        rw [positional, Text.ofDigits_eq]
        cases minus with
        | true => exact (neg_one_mul _).symm
        | false => exact (one_mul _).symm
      constructor
      · intro hp
        obtain ⟨sign, hsign, hcs⟩ := Text.exists_sign cs
        simp only [readPower] at hp
        split at hp
        · cases hp
        · cases hp
        · next d ds hds =>
            rw [digits?_eq_some_iff] at hds
            rw [hvalue, Option.some_inj] at hp
            rw [hcs, ← hp]
            refine .marked hmark hsign hds ?_
            rintro hnil
            rw [hnil] at hds
            cases hds
      · intro hp
        cases hp with
        | @marked _ sign cs ds minus _ hsign hdigits hne =>
            obtain ⟨c, cs, rfl⟩ := List.exists_cons_of_ne_nil hne
            cases hdigits with
            | @cons _ d _ ds hd hds =>
                have hhead : ∀ c' ∈ (c :: cs).head?, c' ≠ '-' ∧ c' ≠ '+' := by
                  intro c' hc'
                  cases hc'
                  exact (isMark_eq_false_iff.1 (Digits.not_isMark (.cons hd hds) _ List.mem_cons_self)).1
                simp only [readPower]
                rw [Text.takeSign_append hsign hhead]
                dsimp only
                rw [digits?_eq_some_iff.2 (.cons hd hds), ← hvalue]

/-- A mantissa is taken apart at its point. -/
theorem mantissa_iff :
    digits? (cs.takeWhile (· != '.')) = some whole ∧ digits? ((cs.dropWhile (· != '.')).drop 1) = some fraction
      ↔ Mantissa cs whole fraction := by
  rw [digits?_eq_some_iff, digits?_eq_some_iff]
  constructor
  · rintro ⟨hw, hf⟩
    have hcs := List.takeWhile_append_dropWhile (p := (· != '.')) (l := cs)
    have hpoint := head_dropWhile (p := (· != '.')) cs
    cases hrest : cs.dropWhile (· != '.') with
    | nil =>
        rw [hrest] at hcs hf
        cases hf
        rw [← hcs, List.append_nil]
        exact .plain hw
    | cons c rest =>
        rw [hrest] at hcs hf hpoint
        obtain rfl : c = '.' := by simpa using hpoint c rfl
        rw [← hcs]
        exact .pointed hw hf
  · intro h
    have hplain : ∀ {cs ds}, Digits cs ds → ∀ c ∈ cs, (c != '.') = true :=
      fun h c hc => (isMark_eq_false_iff.1 (h.not_isMark c hc)).2.1
    cases h with
    | plain hw =>
        rw [List.takeWhile_eq_self_iff.2 (hplain hw), List.dropWhile_eq_nil_iff.2 (hplain hw)]
        exact ⟨hw, .nil⟩
    | @pointed cs cs' _ _ hw hf =>
        have hpoint : ∀ c ∈ ('.' :: cs').head?, (c != '.') = false := by
          intro c hc
          cases hc
          rfl
        rw [takeWhile_append_of_head (hplain hw) hpoint, dropWhile_append_of_head (hplain hw) hpoint]
        exact ⟨hw, hf⟩

/-- A mantissa is made of digits and a point. -/
theorem Mantissa.mem (h : Mantissa cs whole fraction) :
    ∀ c ∈ cs, (∃ d, Text.digit? c = some d) ∨ c = '.' := by
  intro c hc
  cases h with
  | plain hw => exact .inl (hw.digit? c hc)
  | pointed hw hf =>
      rcases List.mem_append.1 hc with hc | hc
      · exact .inl (hw.digit? c hc)
      · rcases List.mem_cons.1 hc with hc | hc
        · exact .inr hc
        · exact .inl (hf.digit? c hc)

theorem Mantissa.ne_nil (h : Mantissa cs whole fraction) (hne : whole ++ fraction ≠ []) : cs ≠ [] := by
  cases h with
  | plain hw =>
      rintro rfl
      cases hw
      exact hne rfl
  | pointed => exact List.append_ne_nil_of_right_ne_nil _ (List.cons_ne_nil _ _)

theorem Power.head (h : Power tail p) : ∀ c ∈ tail.head?, isPowerMark c = true := by
  intro c hc
  cases h with
  | absent => cases hc
  | marked hmark =>
      cases hc
      rcases hmark with rfl | rfl <;> rfl

/-! ### Numbers -/

/-- What a text writes is read, if it is within the limits. -/
theorem readPlain_of_writes (h : Writes cs d) : readPlain cs = if d.isReadable then some d else none := by
  cases h with
  | @mk sign cs tail minus whole fraction p hsign hmantissa hne hpower =>
      -- the mantissa holds no sign and no mark of a power
      have hmarks : ∀ c ∈ cs, (c ≠ '-' ∧ c ≠ '+') ∧ (!isPowerMark c) = true := by
        intro c hc
        rcases hmantissa.mem c hc with ⟨v, hv⟩ | rfl
        · have hmark : isMark c = false := by
            by_contra hmark
            rw [digit?_of_isMark (Bool.not_eq_false _ ▸ hmark)] at hv
            cases hv
          obtain ⟨hsign, -, hpower⟩ := isMark_eq_false_iff.1 hmark
          exact ⟨hsign, hpower⟩
        · decide
      have hhead : ∀ c ∈ (cs ++ tail).head?, c ≠ '-' ∧ c ≠ '+' := by
        obtain ⟨c, cs, rfl⟩ := List.exists_cons_of_ne_nil (hmantissa.ne_nil hne)
        intro c' hc'
        cases hc'
        exact (hmarks c List.mem_cons_self).1
      have htail : ∀ c ∈ tail.head?, (!isPowerMark c) = false := fun c hc => by rw [hpower.head c hc]; rfl
      have hplain : ∀ c ∈ cs, (!isPowerMark c) = true := fun c hc => (hmarks c hc).2
      obtain ⟨hw, hf⟩ := mantissa_iff.2 hmantissa
      simp only [readPlain]
      rw [Text.takeSign_append hsign hhead]
      dsimp only
      rw [takeWhile_append_of_head hplain htail, dropWhile_append_of_head hplain htail, hw, hf,
        (readPower_eq_some_iff hpower.head).2 hpower]
      simp only [Option.bind_eq_bind, Option.bind_some]
      rw [if_neg (by rwa [List.isEmpty_iff]), Text.ofDigits_eq]
      rfl

/-- What is read of a text is what it writes. -/
theorem writes_of_readPlain (h : readPlain cs = some d) : Writes cs d ∧ d.isReadable = true := by
  obtain ⟨sign, hsign, hcs⟩ := Text.exists_sign cs
  simp only [readPlain, Option.bind_eq_bind, Option.bind_eq_some_iff] at h
  obtain ⟨whole, hw, fraction, hf, p, hp, h⟩ := h
  have hmark : ∀ c ∈ ((Text.takeSign cs).2.dropWhile (!isPowerMark ·)).head?, isPowerMark c = true :=
    fun c hc => by simpa using head_dropWhile (p := (!isPowerMark ·)) _ c hc
  split at h
  · cases h
  · next hne =>
      split at h
      · next hreadable =>
          cases h
          have hwrites := Writes.mk hsign (mantissa_iff.1 ⟨hw, hf⟩) (by simpa using hne)
            ((readPower_eq_some_iff hmark).1 hp)
          rw [List.takeWhile_append_dropWhile, ← hcs, positional, ← Text.ofDigits_eq] at hwrites
          exact ⟨hwrites, hreadable⟩
      · cases h

theorem isReadable_iff : d.isReadable = true ↔ d.adjusted ≤ maxAdjusted ∧ minReadExponent ≤ d.exp := by
  simp [isReadable]

/-- What is read of a text is what it writes without its commas. -/
theorem read_eq_some_iff {s : String} : read s = some d ↔ Denotes s d :=
  ⟨fun h => (writes_of_readPlain h).imp_right isReadable_iff.1,
    fun h => (readPlain_of_writes h.1).trans (if_pos (isReadable_iff.2 h.2))⟩

/-! ### Other texts -/

/-- A number is made of digits and marks. -/
theorem Writes.mem (h : Writes cs d) : ∀ c ∈ cs, (∃ v, Text.digit? c = some v) ∨ isMark c = true := by
  have hsigns : ∀ {sign minus}, Sign sign minus → ∀ c ∈ sign, isMark c = true := by
    intro sign minus hsign c hc
    cases hsign with
    | absent => cases hc
    | plus => rw [List.mem_singleton.1 hc]; rfl
    | minus => rw [List.mem_singleton.1 hc]; rfl
  intro c hc
  cases h with
  | mk hsign hmantissa hne hpower =>
      rcases List.mem_append.1 hc with hc | hc
      · exact .inr (hsigns hsign c hc)
      rcases List.mem_append.1 hc with hc | hc
      · rcases hmantissa.mem c hc with hdigit | rfl
        · exact .inl hdigit
        · exact .inr rfl
      · cases hpower with
        | absent => cases hc
        | marked hmark hsign' hdigits =>
            rcases List.mem_cons.1 hc with rfl | hc
            · rcases hmark with rfl | rfl <;> exact .inr rfl
            rcases List.mem_append.1 hc with hc | hc
            · exact .inr (hsigns hsign' c hc)
            · exact .inl (hdigits.digit? c hc)

/-- A text with a character that is neither digit nor mark writes no number. -/
theorem not_writes_of_mem {c : Char} (hc : c ∈ cs) (hdigit : Text.digit? c = none) (hmark : isMark c = false) :
    ¬Writes cs d := by
  intro h
  rcases h.mem c hc with ⟨v, hv⟩ | h
  · rw [hdigit] at hv
    cases hv
  · rw [hmark] at h
    cases h

/-- No script has its digits among the blanks. -/
theorem digit?_of_isBlank {c : Char} (h : Text.isBlank c = true) : Text.digit? c = none := by
  have hapart : ∀ r ∈ Text.blankRanges, ∀ z ∈ Text.digitZeros, r.2 < z ∨ z + 10 ≤ r.1 := by decide
  obtain ⟨r, hr, hrange⟩ := List.any_eq_true.1 h
  simp only [Bool.and_eq_true, decide_eq_true_eq] at hrange
  refine Option.map_eq_none_iff.2 (List.find?_eq_none.2 fun z hz => ?_)
  simp only [Bool.and_eq_true, decide_eq_true_eq]
  have := hapart r hr z hz
  omega

theorem not_writes_of_isBlank {c : Char} (hc : c ∈ cs) (h : Text.isBlank c = true) : ¬Writes cs d := by
  refine not_writes_of_mem hc (digit?_of_isBlank h) ?_
  by_contra hmark
  simp only [isMark, isPowerMark, Bool.not_eq_false, Bool.or_eq_true, beq_iff_eq] at hmark
  rcases hmark with ((rfl | rfl) | rfl) | rfl | rfl <;> cases h

/-- The names of what is no finite number. -/
def names : List String := ["inf", "infinity", "nan", "snan"]

/-- A text that begins with one of these names, in letters of either case and after a sign. -/
def Named (cs : List Char) : Prop :=
  ∃ sign minus letters rest, ∃ name ∈ names, Sign sign minus ∧ cs = sign ++ (letters ++ rest)
    ∧ List.Forall₂ (fun c l => c = l ∨ c = l.toUpper) letters name.toList

theorem not_writes_of_named (h : Named cs) : ¬Writes cs d := by
  obtain ⟨sign, minus, letters, rest, name, hname, -, rfl, hletters⟩ := h
  -- each of the names has an n
  obtain ⟨c, hc, hn⟩ : ∃ c ∈ letters, c = 'n' ∨ c = 'N' := by
    have hn : ∀ name ∈ names, 'n' ∈ name.toList := by decide
    obtain ⟨i, hi, hget⟩ := List.getElem_of_mem (hn name hname)
    have hi' : i < letters.length := hletters.length_eq ▸ hi
    have := hletters.get hi' hi
    rw [List.get_eq_getElem, List.get_eq_getElem, hget] at this
    exact ⟨letters[i], List.getElem_mem hi', this⟩
  refine not_writes_of_mem (List.mem_append_right _ (List.mem_append_left _ hc)) ?_ ?_ <;>
    rcases hn with rfl | rfl <;> decide

theorem asAmount_eq {s : String} (h : ∀ d, read s ≠ some d) : asAmount s = .error (.refused (.amount s)) := by
  simp only [asAmount]
  rw [Option.eq_none_iff_forall_ne_some.2 h]

/-- **A text is read as what it writes without its commas**, if the number is within the limits, and no digit of it is
lost.  Every other text is refused, among them those with an underscore or a blank and those that name an infinity or
no number. -/
theorem read_exactly (s : String) :
    (∀ d, read s = some d ↔ Denotes s d)
      ∧ ((∀ d, ¬Denotes s d) → read s = none ∧ asAmount s = .error (.refused (.amount s)))
      ∧ ((∃ c ∈ s.toList, c = '_' ∨ Text.isBlank c = true) ∨ Named (s.toList.filter (· != ',')) →
          read s = none ∧ asAmount s = .error (.refused (.amount s))) := by
  have hrefused : (∀ d, ¬Denotes s d) → read s = none ∧ asAmount s = .error (.refused (.amount s)) := by
    intro h
    have hnone : ∀ d, read s ≠ some d := fun d hd => h d (read_eq_some_iff.1 hd)
    exact ⟨Option.eq_none_iff_forall_ne_some.2 hnone, asAmount_eq hnone⟩
  refine ⟨fun d => read_eq_some_iff, hrefused, fun h => hrefused fun d hd => ?_⟩
  rcases h with ⟨c, hc, h⟩ | h
  · -- neither an underscore nor a blank is a comma
    have hne : c ≠ ',' := by
      rintro rfl
      rcases h with h | h <;> cases h
    have hc : c ∈ s.toList.filter (· != ',') := List.mem_filter.2 ⟨hc, by simpa using hne⟩
    rcases h with rfl | h
    · exact not_writes_of_mem hc (by decide) (by decide) hd.1
    · exact not_writes_of_isBlank hc h hd.1
  · exact not_writes_of_named h hd.1

/-- Digits of two scripts, a comma behind the point, and a power of ten with a plus; and a name with a comma in it. -/
theorem read_exactly_scripts :
    (read "-1٢.,50E+3" = some ⟨true, 1250, 1⟩)
      ∧ Named ("-I,nf7".toList.filter (· != ',')) ∧ asAmount "-I,nf7" = .error (.refused (.amount "-I,nf7")) := by
  have hwhole : Digits ['1', '٢'] [1, 2] := .cons (by decide) (.cons (by decide) .nil)
  have hfraction : Digits ['5', '0'] [5, 0] := .cons (by decide) (.cons (by decide) .nil)
  have hdigits : Digits ['3'] [3] := .cons (by decide) .nil
  have hpower : Power ['E', '+', '3'] 3 := .marked (.inr rfl) .plus hdigits (List.cons_ne_nil _ _)
  have hwrites : Writes ("-1٢.,50E+3".toList.filter (· != ',')) ⟨true, 1250, 1⟩ := by
    rw [show "-1٢.,50E+3".toList.filter (· != ',') = ['-', '1', '٢', '.', '5', '0', 'E', '+', '3'] by decide]
    exact .mk .minus (.pointed hwhole hfraction) (List.cons_ne_nil _ _) hpower
  have hnamed : Named ("-I,nf7".toList.filter (· != ',')) :=
    ⟨['-'], true, ['I', 'n', 'f'], ['7'], "inf", by decide, .minus, by decide,
      .cons (by decide) (.cons (by decide) (.cons (by decide) .nil))⟩
  exact ⟨((read_exactly _).1 _).2 ⟨hwrites, by decide, by decide⟩, hnamed, ((read_exactly _).2.2 (.inr hnamed)).2⟩

end Daybook.Decimal
