import Daybook.Proofs.Decimal.Rounding
import Daybook.Proofs.Posting

/-!
# Receiving — what is added to a balance

A lot that holds a commodity receives more of it by one rounded sum.

* `on_post_of_held`: what a posting to such a lot comes to.
* `Holding.add_rounded`: **the new balance is the number nearest to the exact sum**, and the amount is refused just when
  this is out of the range.
-/

namespace Daybook

open Decimal

/-- A posting to a commodity that is held goes through when its amount can be added, and otherwise leaves the book as it
is. -/
theorem Book.on_post_of_held {b : Book} {t : Transfer} {h : Holding}
    (hheld : b.held t.account t.lot t.quantity.commodity = some h) :
    (Act.change (·.post t)).on b =
      match h.add t.quantity.amount with
      | none => (.error (.exceeded .amount), b)
      | some h' => (.ok (), b.posted t h') := by
  have hlot : b.hasLot t.account t.lot = true := by
    simp only [held, Account.holding?] at hheld
    obtain ⟨lot, hlot, -⟩ := Option.bind_eq_some_iff.1 hheld
    rw [hasLot, Table.contains, hlot]
    rfl
  have hpost : b.post t = (b.receive t (some h)).map (b.posted t) := by
    rw [post_eq, hlot, Bool.true_or, if_pos rfl, hheld]
  rw [Act.on_change]
  simp only [hpost, receive]
  cases h.add t.quantity.amount <;> rfl

/-- **What is added to a balance is rounded once, to the nearest number.**  The exact sum is rounded to fifty digits
and to no exponent below the least, of two nearest numbers to that with an even coefficient, and it is kept as it is if
it has such a coefficient.  The amount is refused just when the sum, rounded to fifty digits, is out of the range; then
a posting of it changes nothing.  The amount and the balance may be exchanged, down to the exponent and the sign of a
zero. -/
theorem Holding.add_rounded (h : Holding) (amount : Decimal) :
    (h.add amount = none
        ↔ ∃ r, Nearest ⊥ (h.balance.amount.toRat + amount.toRat) r ∧ (10 : ℚ) ^ (maxExponent + 1) ≤ |r|)
      ∧ (∀ h', h.add amount = some h' → ∃ total : Decimal,
          h' = { h with balance := { h.balance with amount := total } }
          ∧ total.Compact ∧ Nearest minExponent (h.balance.amount.toRat + amount.toRat) total.toRat
          ∧ (Representable minExponent (h.balance.amount.toRat + amount.toRat)
              → total.toRat = h.balance.amount.toRat + amount.toRat))
      ∧ h.balance.amount.add amount = amount.add h.balance.amount
      ∧ ∀ (b : Book) (t : Transfer), b.held t.account t.lot t.quantity.commodity = some h →
          t.quantity.amount = amount → (Act.change (·.post t)).on b =
            match h.add amount with
            | none => (.error (.exceeded .amount), b)
            | some h' => (.ok (), b.posted t h') := by
  refine ⟨?_, fun h' hadd => ?_, Decimal.add_comm _ _, fun b t hheld hamount => ?_⟩
  · rw [← add_eq_none_iff, add, Option.map_eq_none_iff]
  · obtain ⟨total, htotal, rfl⟩ := Option.map_eq_some_iff.1 hadd
    obtain ⟨hcompact, hnearest⟩ := nearest_of_add_eq_some htotal
    exact ⟨total, rfl, hcompact, hnearest, hnearest.eq_of_representable⟩
  · rw [← hamount]
    exact Book.on_post_of_held hheld

/-- One more than fifty nines has a digit more, and is kept as it is. -/
theorem Holding.add_rounded_carry :
    let nines : Decimal := ⟨false, powerOfTen 50 - 1, 0⟩
    let one : Decimal := ⟨false, 1, 0⟩
    let sum : Decimal := ⟨false, powerOfTen 49, 1⟩
    let h : Holding := ⟨defaultLot, .zero, ⟨nines, "USD"⟩, none⟩
    let h' : Holding := ⟨defaultLot, .zero, ⟨sum, "USD"⟩, none⟩
    let b : Book := { Book.empty with accounts := [(Account.new "Assets" .zero ∅).keep defaultLot "USD" h] }
    let t : Transfer := { account := 0, quantity := ⟨one, "USD"⟩ }
    b.held t.account t.lot t.quantity.commodity = some h
      ∧ h.add one = some h' ∧ Representable minExponent (nines.toRat + one.toRat)
      ∧ sum.toRat = nines.toRat + one.toRat
      ∧ (Act.change (·.post t)).on b = (.ok (), b.posted t h') := by
  intro nines one sum h h' b t
  have hheld : b.held t.account t.lot t.quantity.commodity = some h := by decide +kernel
  have hadd : h.add one = some h' := by decide +kernel
  have hsum : Representable minExponent (nines.toRat + one.toRat) :=
    ⟨powerOfTen 49, by decide, 1, WithBot.coe_le_coe.2 (by decide), by norm_num [nines, one, toRat, powerOfTen]⟩
  obtain ⟨-, hsome, -, hpost⟩ := Holding.add_rounded h one
  obtain ⟨total, htotal, -, -, hexact⟩ := hsome h' hadd
  have hpost := hpost b t hheld rfl
  rw [hadd] at hpost
  have htotal : sum = total := congrArg (·.balance.amount) htotal
  exact ⟨hheld, hadd, hsum, htotal ▸ hexact hsum, hpost⟩

end Daybook
