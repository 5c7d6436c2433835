import Daybook.Integer
import Daybook.Proofs.Longest
import Daybook.Proofs.Numerals
import Mathlib.Data.List.TakeWhile
import Mathlib.Tactic.Ring

/-!
# Integers — what is read

An integer is written with an optional sign and ASCII digits.  It is read also where a line feed follows.

* `Signed`, `Writes`: the texts that write an integer.
* `read_stands`, `read_of_not_stands`: what is read of such a text, alone or with a line feed after it, and that nothing
  else is read.
* `read_exact_iff`: **reading is exact unless a line feed follows an integer**; all other texts are refused.
* `read_lineFeed`: an integer with a line feed after it is read, though it is none.
-/

namespace Daybook.Integer

open Text (Sign asciiValue)

variable {cs ds : List Char} {minus : Bool} {n : Int} {s : String}

/-- An optional sign, and digits. -/
def Signed (cs : List Char) (minus : Bool) (ds : List Char) : Prop :=
  (∃ sign, Sign sign minus ∧ cs = sign ++ ds) ∧ ds ≠ [] ∧ ∀ c ∈ ds, c.isDigit = true

/-- The signed positional value of digits. -/
def value (minus : Bool) (ds : List Char) : Int :=
  (if minus then -1 else 1) * (Nat.ofDigits 10 (ds.map asciiValue).reverse : Nat)

/-- A text that writes an integer of no more digits than are allowed. -/
def Writes (cs : List Char) (n : Int) : Prop :=
  ∃ minus ds, Signed cs minus ds ∧ ds.length ≤ maxDigits ∧ n = value minus ds

/-- An integer, or one with a line feed after it. -/
def Stands (s : String) (minus : Bool) (ds : List Char) : Prop :=
  ∃ cs, Signed cs minus ds ∧ (s.toList = cs ∨ s.toList = cs ++ ['\n'])

theorem value_eq (minus : Bool) (ds : List Char) :
    value minus ds = if minus then -(Text.ofDigits (ds.map asciiValue) : Int)
      else Text.ofDigits (ds.map asciiValue) := by
  rw [value, Text.ofDigits_eq]
  cases minus with
  | true => exact neg_one_mul _
  | false => exact one_mul _

/-- What is read of an integer, and of one with a line feed after it. -/
theorem read_stands (h : Stands s minus ds) :
    read s = if maxDigits < ds.length then .error (.tooLong ds.length) else .ok (value minus ds) := by
  obtain ⟨cs, ⟨⟨sign, hsign, rfl⟩, hne, hdigits⟩, hs⟩ := h
  obtain ⟨rest, hrest, hs⟩ : ∃ rest, endsLine rest = true ∧ s.toList = sign ++ (ds ++ rest) := by
    rcases hs with hs | hs
    · exact ⟨[], rfl, by rw [hs, List.append_nil]⟩
    · exact ⟨['\n'], rfl, by rw [hs, List.append_assoc]⟩
  -- what follows the digits does not begin with one
  have hstop : ∀ c ∈ rest.head?, c.isDigit = false := by
    simp only [endsLine, Bool.or_eq_true, List.isEmpty_iff, beq_iff_eq] at hrest
    rcases hrest with rfl | rfl
    · exact nofun
    · intro c hc
      cases hc
      rfl
  have hhead : ∀ c ∈ (ds ++ rest).head?, c ≠ '-' ∧ c ≠ '+' := by
    obtain ⟨d, ds', rfl⟩ := List.exists_cons_of_ne_nil hne
    intro c hc
    cases hc
    exact Text.ne_sign_of_isDigit (hdigits d List.mem_cons_self)
  have hempty : ds.isEmpty = false := by
    rw [List.isEmpty_eq_false_iff]
    exact hne
  simp only [read]
  rw [hs, Text.takeSign_append hsign hhead]
  dsimp only
  rw [takeWhile_append_of_head hdigits hstop, dropWhile_append_of_head hdigits hstop, hrest, hempty, value_eq]
  rfl

/-- Every other text is refused as malformed. -/
theorem read_of_not_stands (h : ¬∃ minus ds, Stands s minus ds) : read s = .error (.malformed s) := by
  obtain ⟨sign, hsign, hs⟩ := Text.exists_sign s.toList
  simp only [read]
  refine if_pos ?_
  by_contra hread
  simp only [Bool.or_eq_true, Bool.not_eq_true', not_or, List.isEmpty_iff, Bool.not_eq_false] at hread
  obtain ⟨hne, hend⟩ := hread
  have hsplit := List.takeWhile_append_dropWhile (p := Char.isDigit) (l := (Text.takeSign s.toList).2)
  refine h ⟨_, _, _, ⟨⟨sign, hsign, rfl⟩, hne, fun c hc => List.mem_takeWhile_imp hc⟩, ?_⟩
  simp only [endsLine, Bool.or_eq_true, List.isEmpty_iff, beq_iff_eq] at hend
  rcases hend with hend | hend
  · rw [hend, List.append_nil] at hsplit
    exact .inl (hsplit.symm ▸ hs)
  · rw [hend] at hsplit
    exact .inr (by rw [List.append_assoc, hsplit]; exact hs)

/-- An integer ends in a digit. -/
theorem isDigit_of_writes {c : Char} (h : Writes (cs ++ [c]) n) : c.isDigit = true := by
  obtain ⟨minus, ds, ⟨⟨sign, -, hcs⟩, hne, hdigits⟩, -⟩ := h
  have hlast := congrArg List.getLast? hcs
  rw [List.getLast?_concat, List.getLast?_append, List.getLast?_eq_some_getLast hne, Option.some_or] at hlast
  cases hlast
  exact hdigits _ (List.getLast_mem hne)

/-- An integer with a line feed after it is no integer. -/
theorem not_writes_lineFeed (cs : List Char) : ¬Writes (cs ++ ['\n']) n :=
  fun h => Bool.false_ne_true (isDigit_of_writes h)

/-- The integers that are read are those that are written, alone or with a line feed after them. -/
theorem read_eq_ok_iff :
    read s = .ok n ↔ ∃ cs, Writes cs n ∧ (s.toList = cs ∨ s.toList = cs ++ ['\n']) := by
  constructor
  · intro h
    by_cases hstands : ∃ minus ds, Stands s minus ds
    · obtain ⟨minus, ds, hstands⟩ := hstands
      rw [read_stands hstands] at h
      split at h
      · cases h
      · next hlength =>
          obtain ⟨cs, hsigned, hs⟩ := hstands
          cases h
          exact ⟨cs, ⟨minus, ds, hsigned, Nat.not_lt.1 hlength, rfl⟩, hs⟩
    · rw [read_of_not_stands hstands] at h
      cases h
  · rintro ⟨cs, ⟨minus, ds, hsigned, hlength, rfl⟩, hs⟩
    rw [read_stands ⟨cs, hsigned, hs⟩, if_neg (Nat.not_lt.2 hlength)]

theorem read_eq_tooLong_iff {k : Nat} :
    read s = .error (.tooLong k) ↔ maxDigits < k ∧ ∃ minus ds, Stands s minus ds ∧ ds.length = k := by
  constructor
  · intro h
    by_cases hstands : ∃ minus ds, Stands s minus ds
    · obtain ⟨minus, ds, hstands⟩ := hstands
      rw [read_stands hstands] at h
      split at h
      · next hlength =>
          cases h
          exact ⟨hlength, minus, ds, hstands, rfl⟩
      · cases h
    · rw [read_of_not_stands hstands] at h
      cases h
  · rintro ⟨hlength, minus, ds, hstands, rfl⟩
    rw [read_stands hstands, if_pos hlength]

theorem read_eq_malformed_iff {t : String} :
    read s = .error (.malformed t) ↔ t = s ∧ ¬∃ minus ds, Stands s minus ds := by
  constructor
  · intro h
    by_cases hstands : ∃ minus ds, Stands s minus ds
    · obtain ⟨minus, ds, hstands⟩ := hstands
      rw [read_stands hstands] at h
      split at h <;> cases h
    · rw [read_of_not_stands hstands] at h
      cases h
      exact ⟨rfl, hstands⟩
  · rintro ⟨rfl, h⟩
    exact read_of_not_stands h

/-- A numeral writes its number, with a minus if it is negative and with zeros before it. -/
theorem writes_padded {zeros : Nat} (n : Int) (h : zeros + digitCount n.natAbs ≤ maxDigits) :
    Writes ((if n < 0 then ['-'] else []) ++ Text.padded zeros n.natAbs) n := by
  refine ⟨decide (n < 0), Text.padded zeros n.natAbs,
    ⟨⟨_, ?_, rfl⟩, Text.padded_ne_nil _ _, fun c hc => Text.isDigit_of_mem_padded hc⟩, ?_, ?_⟩
  · split
    · next hneg => rw [decide_eq_true hneg]; exact .minus
    · next hneg => rw [decide_eq_false hneg]; exact .absent
  · rwa [Text.length_padded]
  · rw [value_eq, Text.ofDigits_padded]
    simp only [decide_eq_true_eq]
    omega

/-- **Reading is exact unless a line feed follows an integer.**  An integer is read as its value, alone or with one
line feed after it, and every other text is refused: as too long if it has too many digits, and as malformed
otherwise.  So a numeral is read with any zeros before it that are not too many. -/
theorem read_exact_iff (s : String) :
    ((∀ n, read s = .ok n ↔ Writes s.toList n) ↔ ¬∃ cs n, Writes cs n ∧ s.toList = cs ++ ['\n'])
      ∧ (∀ n, read s = .ok n ↔ ∃ cs, Writes cs n ∧ (s.toList = cs ∨ s.toList = cs ++ ['\n']))
      ∧ (∀ k, read s = .error (.tooLong k)
          ↔ maxDigits < k ∧ ∃ minus ds, Stands s minus ds ∧ ds.length = k)
      ∧ (∀ t, read s = .error (.malformed t) ↔ t = s ∧ ¬∃ minus ds, Stands s minus ds)
      ∧ ∀ (n : Int) (zeros : Nat), zeros + digitCount n.natAbs ≤ maxDigits →
          read (String.ofList ((if n < 0 then ['-'] else []) ++ Text.padded zeros n.natAbs)) = .ok n := by
  refine ⟨?_, fun n => read_eq_ok_iff, fun k => read_eq_tooLong_iff, fun t => read_eq_malformed_iff, ?_⟩
  · constructor
    · rintro hexact ⟨cs, n, hwrites, hs⟩
      have hread := (hexact n).1 (read_eq_ok_iff.2 ⟨cs, hwrites, .inr hs⟩)
      exact not_writes_lineFeed cs (hs ▸ hread)
    · intro hline n
      rw [read_eq_ok_iff]
      constructor
      · rintro ⟨cs, hwrites, hs | hs⟩
        · exact hs ▸ hwrites
        · exact absurd ⟨cs, n, hwrites, hs⟩ hline
      · exact fun h => ⟨_, h, .inl rfl⟩
  · intro n zeros h
    exact read_eq_ok_iff.2 ⟨_, writes_padded n h, .inl String.toList_ofList⟩

/-- A negative number is read after zeros. -/
theorem read_exact_iff_negative :
    2 + digitCount (-7 : Int).natAbs ≤ maxDigits ∧ read "-007" = .ok (-7) := by
  have hdigits : 2 + digitCount (-7 : Int).natAbs ≤ maxDigits := by decide
  exact ⟨hdigits, (read_exact_iff "").2.2.2.2 (-7) 2 hdigits⟩

/-- A digit with a line feed after it is read, though it writes no integer. -/
theorem read_lineFeed : read "5\n" = .ok 5 ∧ ∀ n, ¬Writes "5\n".toList n :=
  ⟨by decide, fun _ => not_writes_lineFeed ['5']⟩

end Daybook.Integer
