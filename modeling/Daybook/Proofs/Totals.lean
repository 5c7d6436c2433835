import Daybook.Proofs.Exceeding
import Daybook.Proofs.Run
import Daybook.Proofs.Worth

/-!
# Totals — what is asserted of all lots together

An asserted amount is compared with a balance as it is.  The balances of all lots are first added up, in the
order in which the lots were created and with rounding after each, so what is asserted of all lots is compared
with what the roundings leave.

* `requireBalance_eq_ok_iff`, `requireTotal_eq_ok_iff`: what is accepted of one lot, and of all together.
* `assertLotsSum_exact_iff`: **where the verdict on all lots is that of the exact sum**: the roundings take away
  nothing when the sum is asserted, and not just the difference when another amount is.  They take away nothing,
  in any order of the lots, from balances that stay within fifty digits.
* `assertLotsSum_not_exact`: an exact sum is refused, and one that it is not is accepted; and an amount in
  the default lot alone is refused for all lots.
-/

namespace Daybook

open Decimal (roundingLoss exactTotal Bounded)

namespace Words

variable {b : Book} {id : AccountId} {asserted : Quantity}

/-- A comparison is passed when the amounts are of one value. -/
theorem compare_eq_ok_iff {actual : Decimal} {mismatch : Decimal → Mismatch} :
    (if actual.sameValue asserted.amount then .ok ()
      else do
        let d ← difference actual asserted.amount
        .error (.refused (.mismatch (mismatch d))) : Except Fault Unit) = .ok ()
      ↔ actual.toRat = asserted.amount.toRat := by
  rw [← Decimal.sameValue_iff]
  cases actual.sameValue asserted.amount with
  | true => exact iff_of_true rfl rfl
  | false =>
      refine iff_of_false (fun h => ?_) Bool.false_ne_true
      obtain ⟨_, -, h⟩ := bind_eq_ok_iff.1 h
      cases h

/-- Of a lot its balance is accepted, and zero if it holds nothing. -/
theorem requireBalance_eq_ok_iff {lot : String} {label : LotLabel} :
    requireBalance b id lot label asserted = .ok ()
      ↔ asserted.amount.toRat = b.inLot id lot asserted.commodity := by
  have hzero : ∀ fault : Fault, (if asserted.amount.isZero then .ok () else .error fault : Except Fault Unit)
      = .ok () ↔ asserted.amount.toRat = 0 := fun fault => by
    rw [Decimal.toRat_eq_zero_iff]
    exact ite_eq_ok_iff
  simp only [requireBalance, Book.inLot, Account.inLot, Account.holding?]
  cases (b.account id).lots.get? lot with
  | none => exact hzero _
  | some holdings =>
      dsimp only [Option.bind_some]
      cases holdings.get? asserted.commodity with
      | none => exact hzero _
      | some h => exact compare_eq_ok_iff.trans eq_comm

/-- Of all lots together that amount is accepted by which their exact sum exceeds what the roundings take away
from it. -/
theorem requireTotal_eq_ok_iff :
    requireTotal b id asserted = .ok ()
      ↔ roundingLoss .zero ((b.account id).balances asserted.commodity)
        = some ((b.account id).worth asserted.commodity - asserted.amount.toRat) := by
  rw [Decimal.roundingLoss_eq, Decimal.toRat_zero, zero_add]
  simp only [requireTotal, Account.total, Decimal.sum, Account.worth]
  cases ((b.account id).balances asserted.commodity).foldlM Decimal.add .zero with
  | none => exact iff_of_false (fun h => by cases h) (fun h => by cases h)
  | some total =>
      refine compare_eq_ok_iff.trans ?_
      rw [Option.map_some, Option.some_inj, sub_right_inj]

/-- Of balances that stay within fifty digits the exact sum is accepted. -/
theorem requireTotal_of_bounded {k : ℕ} (hk : k ≤ 999999)
    (h : Bounded k ((b.account id).balances asserted.commodity)) :
    requireTotal b id asserted = .ok ()
      ↔ asserted.amount.toRat = (b.account id).worth asserted.commodity := by
  obtain ⟨s, hs, hval⟩ := Decimal.sum_of_bounded hk h
  simp only [requireTotal, Account.total]
  rw [hs]
  refine compare_eq_ok_iff.trans ?_
  rw [hval]
  exact eq_comm

variable {called : String} {d : Desk Book}

/-- What a word that only judges comes to, by its last judgement. -/
def verdict (called : String) (r : Except Fault Unit) : Except Failure Signal :=
  (r.map fun _ => .proceed).mapError (·.toFailure (some called))

theorem verdict_eq_proceed_iff {r : Except Fault Unit} : verdict called r = .ok .proceed ↔ r = .ok () := by
  cases r with
  | error fault => exact iff_of_false (fun h => by cases h) (fun h => by cases h)
  | ok => exact iff_of_true rfl rfl

/-- A word that judges twice leaves the book as it is, and goes through when both judgements are passed. -/
theorem judges_eq {α β : Type} {w : Word Book} {take : Taking α} {first : α → Book → Except Fault β}
    {second : β → Book → Except Fault Unit} {taken : α} {rest : Operands}
    (hw : w = .ofAct take fun taken => do
      let x ← Act.judge (first taken)
      Act.judge (second x)
      return [])
    (htake : take d.operands = .ok (taken, rest)) :
    w called d
      = (verdict called (first taken d.context >>= fun x => second x d.context), ⟨rest, d.context⟩) := by
  rw [hw]
  simp only [Word.ofAct, perform]
  rw [htake]
  simp only [Act.on_bind, Act.on_judge]
  cases first taken d.context with
  | error fault => rfl
  | ok x =>
      dsimp only
      rw [show (Except.ok x >>= fun x => second x d.context) = second x d.context from rfl]
      cases second x d.context <;> rfl

/-- A word that judges twice goes through when its second judgement is passed, if its first is. -/
theorem judges_ok_iff {α β : Type} {w : Word Book} {take : Taking α} {first : α → Book → Except Fault β}
    {second : β → Book → Except Fault Unit} {taken : α} {rest : Operands} {x : β}
    (hw : w = .ofAct take fun taken => do
      let x ← Act.judge (first taken)
      Act.judge (second x)
      return [])
    (htake : take d.operands = .ok (taken, rest)) (hfirst : first taken d.context = .ok x) :
    (w called d).1 = .ok .proceed ↔ second x d.context = .ok () := by
  rw [judges_eq hw htake, hfirst]
  exact verdict_eq_proceed_iff

/-- A desk at which an amount of a commodity is asserted of an account. -/
def asserting (account amount commodity : String) (rest : Operands) (b : Book) : Desk Book :=
  ⟨.text commodity :: .text amount :: .text account :: rest, b⟩

section

variable {account amount : String} (hasserts : Asserts b account amount id asserted) (rest : Operands)

include hasserts

/-- What is asserted of the default lot is accepted when it is what the lot holds. -/
theorem assertDefault_ok_iff :
    (assertDefault called (asserting account amount asserted.commodity rest b)).1 = .ok .proceed
      ↔ asserted.amount.toRat = b.inLot id defaultLot asserted.commodity := by
  have hfirst := asAssertion_ok_iff_asserts.2 ⟨account, amount, rfl, rfl, rfl, hasserts⟩
  rw [judges_ok_iff assertDefault_eq (Taking.three_ok_iff.2 rfl) hfirst]
  exact requireBalance_eq_ok_iff

theorem assertLotsSum_ok_iff :
    (assertLotsSum called (asserting account amount asserted.commodity rest b)).1 = .ok .proceed
      ↔ requireTotal b id asserted = .ok () := by
  have hfirst := asAssertion_ok_iff_asserts.2 ⟨account, amount, rfl, rfl, rfl, hasserts⟩
  rw [judges_ok_iff assertLotsSum_eq (Taking.three_ok_iff.2 rfl) hfirst]
  rfl

end

/-- **The verdict on all lots together is that of their exact sum** just when the roundings take away nothing
if the sum is asserted, and do not take away the difference if another amount is.  On balances that stay within
fifty digits it is so in any order of the lots.  An account that holds the commodity in the default lot alone is
compared exactly by the word for this lot. -/
theorem assertLotsSum_exact_iff (called : String) (rest : Operands) {b : Book} {account amount : String}
    {id : AccountId} {asserted : Quantity} (hasserts : Asserts b account amount id asserted) :
    let held := (b.account id).balances asserted.commodity
    let desk := asserting account amount asserted.commodity rest
    (((assertLotsSum called (desk b)).1 = .ok .proceed ↔ asserted.amount.toRat = exactTotal held)
        ↔ if asserted.amount.toRat = exactTotal held then roundingLoss .zero held = some 0
          else roundingLoss .zero held ≠ some (exactTotal held - asserted.amount.toRat))
      ∧ (∀ k : ℕ, k ≤ 999999 → Bounded k held → ∀ b' id', Asserts b' account amount id' asserted →
          ((b'.account id').balances asserted.commodity).Perm held →
          ((assertLotsSum called (desk b')).1 = .ok .proceed ↔ asserted.amount.toRat = exactTotal held))
      ∧ ((∀ lot, lot ≠ defaultLot → b.held id lot asserted.commodity = none) →
          ((assertDefault called (desk b)).1 = .ok .proceed ↔ asserted.amount.toRat = exactTotal held)) := by
  intro held desk
  refine ⟨?_, ?_, ?_⟩
  · rw [assertLotsSum_ok_iff hasserts rest, requireTotal_eq_ok_iff]
    show (roundingLoss .zero held = some (exactTotal held - asserted.amount.toRat) ↔ _) ↔ _
    split
    · next h => rw [h, sub_self, iff_true_right rfl]
    · next h => rw [iff_false_right h]
  · intro k hk hheld b' id' hasserts' hperm
    rw [assertLotsSum_ok_iff hasserts' rest, requireTotal_of_bounded hk (hheld.perm hperm), Account.worth,
      Decimal.exactTotal_perm hperm]
  · intro honly
    rw [assertDefault_ok_iff hasserts rest]
    exact iff_of_eq (congrArg _ (Account.worth_of_default_only honly).symm)

/-- A book in which an account holds `1.5` and `2` in two lots, and another one `-3.5` in the default lot. -/
def modest : Book := .after
  (["U", "d", "commodity", "Assets:A", "open", "Equity", "open", "X", "y",
    "Assets:A", "1.5", "U", "xfer", "Assets:A", "2", "U", "xfer", "L", "create-lot",
    "Equity", "-3.5", "U", "xfer", "xact"].map .word)

/-- The sum of the two lots is accepted and no other amount near it, and so is what the default lot holds. -/
theorem assertLotsSum_exact_iff_modest :
    (assertLotsSum "assert-lots-sum" (asserting "Assets:A" "3.5" "U" [] modest)).1 = .ok .proceed
      ∧ (assertLotsSum "assert-lots-sum" (asserting "Assets:A" "3.4" "U" [] modest)).1 ≠ .ok .proceed
      ∧ (assertDefault "assert" (asserting "Equity" "-3.50" "U" [] modest)).1 = .ok .proceed := by
  obtain ⟨hsum, hnear, hdefault, hopen, hequity, hu, hheld, hbalance, hlots⟩ :
      Decimal.read "3.5" = some ⟨false, 35, -1⟩ ∧ Decimal.read "3.4" = some ⟨false, 34, -1⟩
        ∧ Decimal.read "-3.50" = some ⟨true, 350, -2⟩
        ∧ modest.findOpen "Assets:A" = .ok 0 ∧ modest.findOpen "Equity" = .ok 1
        ∧ modest.commodities.contains "U" = true
        ∧ (modest.account 0).balances "U" = [⟨false, 15, -1⟩, ⟨false, 2, 0⟩]
        ∧ (modest.account 1).balances "U" = [⟨true, 35, -1⟩]
        ∧ (modest.account 1).lots.names = [defaultLot] := by decide +kernel
  have hbounded : Bounded 1 ((modest.account 0).balances "U") := by
    rw [hheld]
    exact ⟨by decide, by norm_num [Decimal.volume, Decimal.toRat, Decimal.precision]⟩
  have htotal : exactTotal ((modest.account 0).balances "U") = 7 / 2 := by
    rw [hheld]
    norm_num [exactTotal, Decimal.toRat]
  have hdebt : exactTotal ((modest.account 1).balances "U") = -7 / 2 := by
    rw [hbalance]
    norm_num [exactTotal, Decimal.toRat]
  have hasserts : Asserts modest "Assets:A" "3.5" 0 ⟨⟨false, 35, -1⟩, "U"⟩ := ⟨hsum, hopen, hu⟩
  have hasserts' : Asserts modest "Assets:A" "3.4" 0 ⟨⟨false, 34, -1⟩, "U"⟩ := ⟨hnear, hopen, hu⟩
  have hasserts'' : Asserts modest "Equity" "-3.50" 1 ⟨⟨true, 350, -2⟩, "U"⟩ := ⟨hdefault, hequity, hu⟩
  have honly : ∀ lot, lot ≠ defaultLot → modest.held 1 lot "U" = none := by
    intro lot hlot
    have hnone : (modest.account 1).lots.get? lot = none := by
      refine Entries.lookup_eq_none_iff.2 fun hmem => hlot (List.mem_singleton.1 ?_)
      rw [← hlots]
      exact hmem
    simp only [Book.held, Account.holding?]
    rw [hnone]
    rfl
  obtain ⟨-, hexact, -⟩ := assertLotsSum_exact_iff "assert-lots-sum" [] hasserts
  obtain ⟨-, hexact', -⟩ := assertLotsSum_exact_iff "assert-lots-sum" [] hasserts'
  obtain ⟨-, -, hlot⟩ := assertLotsSum_exact_iff "assert" [] hasserts''
  have hvalue : Decimal.toRat ⟨false, 35, -1⟩ = 7 / 2 := by norm_num [Decimal.toRat]
  have hother : Decimal.toRat ⟨false, 34, -1⟩ ≠ 7 / 2 := by norm_num [Decimal.toRat]
  have howed : Decimal.toRat ⟨true, 350, -2⟩ = -7 / 2 := by norm_num [Decimal.toRat]
  exact ⟨(hexact 1 (by decide) hbounded modest 0 hasserts (.refl _)).2 (hvalue.trans htotal.symm),
    fun h => hother (((hexact' 1 (by decide) hbounded modest 0 hasserts' (.refl _)).1 h).trans htotal),
    (hlot honly).2 (howed.trans hdebt.symm)⟩

/-- A book in which an account has got `1E60`, `-1` and `-1E60` in three lots, and another one an amount of
fifty-one digits in the default lot. -/
def rounded : Book := .after
  (["U", "d", "commodity", "V", "d", "commodity", "Assets:A", "open", "Equity", "open", "X", "y",
    "Assets:A", "-1", "U", "xfer", "L", "create-lot",
    "Equity", "111111111111111111111111111111111111111111111111111", "V", "1", "U", "1", "U", "xfer-exch",
    "Assets:A", "1E60", "U", "xfer", "Assets:A", "-1E60", "U", "xfer", "M", "create-lot", "xact"].map .word)

/-- Three lots whose exact sum is minus one are taken for zero.  And an amount in the default lot alone is accepted
of this lot, but not of all lots. -/
theorem assertLotsSum_not_exact :
    ((assertLotsSum "assert-lots-sum" (asserting "Assets:A" "-1" "U" [] rounded)).1 ≠ .ok .proceed
        ∧ (assertLotsSum "assert-lots-sum" (asserting "Assets:A" "0" "U" [] rounded)).1 = .ok .proceed
        ∧ exactTotal ((rounded.account 0).balances "U") = -1)
      ∧ (rounded.account 1).lots.names = [defaultLot]
      ∧ (assertDefault "assert"
          (asserting "Equity" "111111111111111111111111111111111111111111111111111" "V" [] rounded)).1
        = .ok .proceed
      ∧ (assertLotsSum "assert-lots-sum"
          (asserting "Equity" "111111111111111111111111111111111111111111111111111" "V" [] rounded)).1
        ≠ .ok .proceed := by
  obtain ⟨hrefused, haccepted, hheld⟩ :
      (assertLotsSum "assert-lots-sum" (asserting "Assets:A" "-1" "U" [] rounded)).1 ≠ .ok .proceed
        ∧ (assertLotsSum "assert-lots-sum" (asserting "Assets:A" "0" "U" [] rounded)).1 = .ok .proceed
        ∧ (rounded.account 0).balances "U" = [⟨false, 1, 60⟩, ⟨true, 1, 0⟩, ⟨true, 1, 60⟩] := by
    decide +kernel
  refine ⟨⟨hrefused, haccepted, ?_⟩, by decide +kernel⟩
  rw [hheld]
  norm_num [exactTotal, Decimal.toRat]

end Words

end Daybook
