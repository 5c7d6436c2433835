import Daybook.Proofs.Balance
import Daybook.Proofs.Deeds
import Daybook.Proofs.Refusing
import Daybook.Proofs.Room
import Daybook.Proofs.Run

/-!
# Exceeding — calls that leave the range of numbers

A call ends outside the range of numbers where a part of a date does not fit the clock, or where a sum or
a difference of amounts becomes too large.  Everything else that is wrong with a call is refused.

* `requireBalance_exceeded_iff`, `apply_exceeded_iff`: when a transaction leaves the range.
* `Exceeds`: the calls that leave it, by word and operands.
* `core_exceeded_iff`: **a call of a core word leaves the range in these cases and in no others**.
-/

namespace Daybook

/-! ### Transactions -/

namespace Transaction

/-- Some of the first transfers are in one commodity and have no sum. -/
def SumLeaves (ts : List Transfer) : Prop :=
  ∃ before, before <+: ts ∧ OneCommodity before ∧ Decimal.sum (amounts before) = none

theorem addUp_exceeded_iff (b : Book) (first : Transfer) {total : Decimal} {ts : List Transfer}
    {e : Excess} :
    addUp b first total ts = .error (.exceeded e)
      ↔ e = .amount ∧ ∃ before, before <+: ts
        ∧ (∀ t ∈ before, t.balancesAs.commodity = first.balancesAs.commodity)
        ∧ (amounts before).foldlM Decimal.add total = none := by
  induction ts generalizing total with
  | nil =>
      refine ⟨fun h => (by cases h), ?_⟩
      rintro ⟨-, before, hprefix, -, hsum⟩
      obtain rfl := List.prefix_nil.1 hprefix
      cases hsum
  | cons t ts ih =>
      have hfold : ∀ before, (amounts (t :: before)).foldlM Decimal.add total
          = (total.add t.balancesAs.amount).bind fun r => (amounts before).foldlM Decimal.add r :=
        fun _ => List.foldlM_cons
      simp only [addUp]
      by_cases hc : t.balancesAs.commodity = first.balancesAs.commodity
      · rw [if_neg (not_not_intro hc)]
        cases hadd : total.add t.balancesAs.amount with
        | none =>
            refine ⟨fun h => ⟨by cases h; rfl, [t], List.prefix_append [t] ts, by simpa using hc, ?_⟩,
              fun h => by rw [h.1]⟩
            rw [hfold, hadd]
            rfl
        | some r =>
            dsimp only
            rw [ih]
            refine and_congr_right fun _ => ⟨?_, ?_⟩
            · rintro ⟨before, hprefix, hall, hsum⟩
              refine ⟨t :: before, List.cons_prefix_cons.2 ⟨rfl, hprefix⟩,
                List.forall_mem_cons.2 ⟨hc, hall⟩, ?_⟩
              rw [hfold, hadd]
              exact hsum
            · rintro ⟨before, hprefix, hall, hsum⟩
              rcases List.prefix_cons_iff.1 hprefix with rfl | ⟨before, rfl, hrest⟩
              · cases hsum
              · rw [hfold, hadd] at hsum
                exact ⟨before, hrest, (List.forall_mem_cons.1 hall).2, hsum⟩
      · rw [if_pos hc]
        refine ⟨fun h => (by cases h), ?_⟩
        rintro ⟨-, before, hprefix, hall, hsum⟩
        rcases List.prefix_cons_iff.1 hprefix with rfl | ⟨before, rfl, -⟩
        · cases hsum
        · exact absurd (hall t List.mem_cons_self) hc

/-- The check of the balance leaves the range when the sum does. -/
theorem requireBalance_exceeded_iff {b : Book} {ts : List Transfer} {e : Excess} :
    requireBalance b ts = .error (.exceeded e) ↔ e = .amount ∧ SumLeaves ts := by
  cases ts with
  | nil =>
      refine ⟨fun h => (by cases h), ?_⟩
      rintro ⟨-, before, hprefix, -, hsum⟩
      obtain rfl := List.prefix_nil.1 hprefix
      cases hsum
  | cons first ts =>
      have hcheck : requireBalance b (first :: ts) = .error (.exceeded e)
          ↔ addUp b first .zero (first :: ts) = .error (.exceeded e) := by
        refine bind_eq_error_iff.trans (or_iff_left ?_)
        rintro ⟨s, -, h⟩
        exact Refuses.ite (.ok ()) (.refused _) e h
      rw [hcheck, addUp_exceeded_iff]
      refine and_congr_right fun _ => ⟨?_, ?_⟩
      · rintro ⟨before, hprefix, hall, hsum⟩
        exact ⟨before, hprefix, ⟨_, hall⟩, hsum⟩
      · rintro ⟨before, hprefix, ⟨c, hc⟩, hsum⟩
        refine ⟨before, hprefix, ?_, hsum⟩
        rcases List.prefix_cons_iff.1 hprefix with rfl | ⟨before, rfl, -⟩
        · cases hsum
        · exact fun t ht => (hc t ht).trans (hc first List.mem_cons_self).symm

theorem refuses_requireOpenAccounts (b : Book) (ts : List Transfer) :
    Refuses (requireOpenAccounts b ts) := by
  simp only [requireOpenAccounts]
  split
  · exact .refused _
  · exact .ok ()

theorem refuses_requireLotsFrom (b : Book) (created : List (AccountId × String))
    (ts : List Transfer) : Refuses (requireLotsFrom b created ts) := by
  induction ts generalizing created with
  | nil => exact .ok ()
  | cons t ts ih =>
      rw [requireLotsFrom_cons]
      exact .ite (ih _) (.ite (ih _) (.refused _))

/-- The checks leave the range when the sum does. -/
theorem check_exceeded_iff {b : Book} {ts : List Transfer} {e : Excess} :
    check b ts = .error (.exceeded e) ↔ e = .amount ∧ SumLeaves ts := by
  refine bind_eq_error_iff.trans ((or_iff_left ?_).trans requireBalance_exceeded_iff)
  rintro ⟨_, -, h⟩
  exact (refuses_requireOpenAccounts b ts).bind (fun _ => refuses_requireLotsFrom b [] ts) e h

/-- A posting leaves the range by its amount. -/
theorem post_exceeded {b : Book} {t : Transfer} {e : Excess} (h : b.post t = .error (.exceeded e)) :
    e = .amount := by
  obtain ⟨-, hfault⟩ | ⟨-, hfault⟩ := Book.post_error h
  · cases hfault
  · cases hfault
    rfl

/-- After the checks, postings leave the range when the book has no room for them. -/
theorem postAll_exceeded_iff {b : Book} {ts : List Transfer} {e : Excess}
    (hv : ∀ t ∈ ts, t.account < b.accounts.length) (hl : requireLots b ts = .ok ()) :
    ((postAll ts).on b).1 = .error (.exceeded e) ↔ e = .amount ∧ ¬HasRoom b ts := by
  rw [← postAll_ok_iff_hasRoom hv hl]
  cases hp : (postAll ts).on b with
  | mk r b' =>
      cases r with
      | ok u => exact iff_of_false nofun fun h => h.2 ⟨b', rfl⟩
      | error fault =>
          cases fault with
          | refused ground => exact absurd hp (postAll_not_refused hv hl)
          | exceeded e' =>
              obtain ⟨before, t, after, -, -, hpost⟩ := postAll_error hp
              obtain rfl := post_exceeded hpost
              refine ⟨fun h => ⟨by cases h; rfl, ?_⟩, fun h => by rw [h.1]⟩
              rintro ⟨b₁, h₁⟩
              cases h₁

/-- A transaction leaves the range in its sum, or for want of room after the checks. -/
theorem apply_exceeded_iff {x : Transaction} {b : Book} {e : Excess} :
    (x.apply.on b).1 = .error (.exceeded e)
      ↔ e = .amount ∧ (SumLeaves (x.transfers.map b.transfer)
        ∨ check b (x.transfers.map b.transfer) = .ok () ∧ ¬HasRoom b (x.transfers.map b.transfer)) := by
  have hroom : check b (x.transfers.map b.transfer) = .ok () →
      (((postAll (x.transfers.map b.transfer)).on b).1 = .error (.exceeded e)
        ↔ e = .amount ∧ ¬HasRoom b (x.transfers.map b.transfer)) := fun hc =>
    postAll_exceeded_iff (account_lt_of_check hc) (check_eq_ok_iff.1 hc).2.2
  have happly : (x.apply.on b).1 = .error (.exceeded e)
      ↔ check b (x.transfers.map b.transfer) = .error (.exceeded e)
        ∨ check b (x.transfers.map b.transfer) = .ok ()
          ∧ ((postAll (x.transfers.map b.transfer)).on b).1 = .error (.exceeded e) := by
    constructor
    · intro h
      rcases apply_error_iff.1 (Prod.ext h rfl) with ⟨hc, -⟩ | ⟨hc, hp⟩
      · exact .inl hc
      · exact .inr ⟨hc, congrArg Prod.fst hp⟩
    · rintro (hc | ⟨hc, hp⟩)
      · rw [apply_error_iff.2 (.inl ⟨hc, rfl⟩)]
      · rw [apply_error_iff.2 (.inr ⟨hc, Prod.ext hp rfl⟩)]
  rw [happly, check_exceeded_iff]
  constructor
  · rintro (⟨he, hsum⟩ | ⟨hc, hp⟩)
    · exact ⟨he, .inl hsum⟩
    · obtain ⟨he, hno⟩ := (hroom hc).1 hp
      exact ⟨he, .inr ⟨hc, hno⟩⟩
  · rintro ⟨he, hsum | ⟨hc, hno⟩⟩
    · exact .inl ⟨he, hsum⟩
    · exact .inr ⟨hc, (hroom hc).2 ⟨he, hno⟩⟩

end Transaction

/-! ### Words -/

namespace Words

open Act

variable {called : String} {d : Desk Book} {e : Excess}

/-- Three integers lie on top of which one does not fit the clock. -/
def BeyondClock (ops : Operands) : Prop :=
  ∃ year month day y m k rest, ops = .text day :: .text month :: .text year :: rest
    ∧ Integer.read year = .ok y ∧ Integer.read month = .ok m ∧ Integer.read day = .ok k
    ∧ (fitsClock y && fitsClock m && fitsClock k) = false

/-- An amount differs from an asserted one, and by too much to say by how much. -/
def TooFar (actual asserted : Decimal) : Prop :=
  actual.sameValue asserted = false ∧ actual.sub asserted = none

/-- What a lot holds is too far from an asserted quantity. -/
def LotTooFar (b : Book) (id : AccountId) (lot : String) (asserted : Quantity) : Prop :=
  ∃ h, b.held id lot asserted.commodity = some h ∧ TooFar h.balance.amount asserted.amount

/-- What all lots hold has no sum, or one that is too far from an asserted quantity. -/
def TotalTooFar (b : Book) (id : AccountId) (asserted : Quantity) : Prop :=
  (b.account id).total asserted.commodity = none
    ∨ ∃ total, (b.account id).total asserted.commodity = some total ∧ TooFar total asserted.amount

/-- The transfers of a transaction have no sum, or they pass the checks and there is no room for them. -/
def TooMuch (b : Book) (ts : List Transfer) : Prop :=
  Transaction.SumLeaves ts ∨ Transaction.check b ts = .ok () ∧ ¬Transaction.HasRoom b ts

theorem asDay_exceeded_iff {date : Date} :
    asDay date = .error (.exceeded e)
      ↔ e = .date ∧ (fitsClock date.year && fitsClock date.month && fitsClock date.day) = false := by
  simp only [asDay]
  cases fitsClock date.year && fitsClock date.month && fitsClock date.day with
  | false => exact ⟨fun h => by cases h; exact ⟨rfl, rfl⟩, fun h => by rw [h.1]; rfl⟩
  | true =>
      refine ⟨fun h => ?_, fun h => absurd h.2 (by simp)⟩
      simp only [Bool.not_true, Bool.false_eq_true, if_false] at h
      split at h
      · cases h
      · cases h

/-- The clock is left by three integers of which one does not fit it. -/
theorem date_exceeded_iff :
    (date called d).1 = .error (.exceeded e) ↔ e = .date ∧ BeyondClock d.operands := by
  have hact : ∀ u v w,
      ((judge (asDate · (u, v, w)) >>= fun date => do change (·.advance date); return []
          : Act (List Value)).on d.context).1 = .error (.exceeded e)
        ↔ asDate d.context (u, v, w) = .error (.exceeded e) := by
    intro u v w
    refine on_judge_bind_exceeded_iff.trans (or_iff_left ?_)
    rintro ⟨date, -, h⟩
    exact ((refuses_change fun b => .advance b date).bind fun _ => refuses_pure _) _ _ h
  have hdate : ∀ u v w, asDate d.context (u, v, w) = .error (.exceeded e)
      ↔ ∃ y m k, asInteger d.context "year" u = .ok y ∧ asInteger d.context "month" v = .ok m
        ∧ asInteger d.context "day" w = .ok k ∧ asDay ⟨y, m, k⟩ = .error (.exceeded e) := by
    intro u v w
    simp only [asDate]
    rw [(Refuses.asInteger _ _ _).bind_exceeded_iff]
    refine exists_congr fun y => ?_
    rw [(Refuses.asInteger _ _ _).bind_exceeded_iff]
    simp only [(Refuses.asInteger _ _ _).bind_exceeded_iff, exists_and_left]
  refine Word.ofAct_exceeded_iff.trans ⟨?_, ?_⟩
  · rintro ⟨⟨u, v, w⟩, rest, htake, h⟩
    obtain ⟨y, m, k, hy, hm, hk, hday⟩ := (hdate u v w).1 ((hact u v w).1 h)
    obtain ⟨year, rfl, hyear⟩ := asInteger_eq_ok_iff.1 hy
    obtain ⟨month, rfl, hmonth⟩ := asInteger_eq_ok_iff.1 hm
    obtain ⟨day, rfl, hday'⟩ := asInteger_eq_ok_iff.1 hk
    obtain ⟨rfl, hfits⟩ := asDay_exceeded_iff.1 hday
    exact ⟨rfl, year, month, day, y, m, k, rest, Taking.three_ok_iff.1 htake, hyear, hmonth, hday',
      hfits⟩
  · rintro ⟨rfl, year, month, day, y, m, k, rest, hops, hy, hm, hk, hfits⟩
    refine ⟨(.text year, .text month, .text day), rest, Taking.three_ok_iff.2 hops,
      (hact _ _ _).2 ((hdate _ _ _).2 ⟨y, m, k, ?_, ?_, ?_, asDay_exceeded_iff.2 ⟨rfl, hfits⟩⟩)⟩
    · exact asInteger_eq_ok_iff.2 ⟨year, rfl, hy⟩
    · exact asInteger_eq_ok_iff.2 ⟨month, rfl, hm⟩
    · exact asInteger_eq_ok_iff.2 ⟨day, rfl, hk⟩

theorem difference_exceeded_iff {actual asserted : Decimal} :
    difference actual asserted = .error (.exceeded e) ↔ e = .amount ∧ actual.sub asserted = none := by
  simp only [difference]
  cases actual.sub asserted with
  | none => exact ⟨fun h => by cases h; exact ⟨rfl, rfl⟩, fun h => by rw [h.1]⟩
  | some d => exact ⟨nofun, fun h => nomatch h.2⟩

/-- An amount that differs from an asserted one is refused with the difference, if there is one. -/
theorem mismatch_exceeded_iff {actual asserted : Decimal} {mismatch : Decimal → Mismatch} :
    (if actual.sameValue asserted then .ok ()
      else do
        let d ← difference actual asserted
        .error (.refused (.mismatch (mismatch d))) : Except Fault Unit) = .error (.exceeded e)
      ↔ e = .amount ∧ TooFar actual asserted := by
  simp only [TooFar]
  cases actual.sameValue asserted with
  | true => exact ⟨nofun, fun h => nomatch h.2.1⟩
  | false =>
      rw [if_neg Bool.false_ne_true, and_iff_right rfl, ← difference_exceeded_iff]
      refine bind_eq_error_iff.trans (or_iff_left ?_)
      rintro ⟨d, -, h⟩
      cases h

theorem requireBalance_exceeded_iff {b : Book} {id : AccountId} {lot : String} {label : LotLabel}
    {asserted : Quantity} :
    requireBalance b id lot label asserted = .error (.exceeded e)
      ↔ e = .amount ∧ LotTooFar b id lot asserted := by
  have hnone : b.held id lot asserted.commodity = none → ¬LotTooFar b id lot asserted := by
    rintro hn ⟨h, hh, -⟩
    rw [hn] at hh
    cases hh
  simp only [requireBalance]
  cases hl : (b.account id).lots.get? lot with
  | none =>
      dsimp only
      refine iff_of_false (Refuses.ite (.ok ()) (.refused _) e) fun h => hnone ?_ h.2
      simp only [Book.held, Account.holding?]
      rw [hl]
      rfl
  | some holdings =>
      have hheld : b.held id lot asserted.commodity = holdings.get? asserted.commodity := by
        simp only [Book.held, Account.holding?]
        rw [hl]
        rfl
      cases hc : holdings.get? asserted.commodity with
      | none =>
          dsimp only
          rw [hc]
          exact iff_of_false (Refuses.ite (.ok ()) (.refused _) e) fun h => hnone (hheld.trans hc) h.2
      | some h =>
          dsimp only
          rw [hc]
          refine mismatch_exceeded_iff.trans (and_congr_right fun _ => ⟨fun hf => ⟨h, hheld.trans hc, hf⟩, ?_⟩)
          rintro ⟨h', hh', hf⟩
          obtain rfl := Option.some.inj ((hheld.trans hc).symm.trans hh')
          exact hf

theorem requireTotal_exceeded_iff {b : Book} {id : AccountId} {asserted : Quantity} :
    requireTotal b id asserted = .error (.exceeded e) ↔ e = .amount ∧ TotalTooFar b id asserted := by
  simp only [requireTotal, TotalTooFar]
  cases (b.account id).total asserted.commodity with
  | none => exact ⟨fun h => by cases h; exact ⟨rfl, .inl rfl⟩, fun h => by rw [h.1]⟩
  | some total =>
      refine mismatch_exceeded_iff.trans (and_congr_right fun _ => ⟨fun h => .inr ⟨total, rfl, h⟩, ?_⟩)
      rintro (h | ⟨total', h, hf⟩)
      · cases h
      · cases h
        exact hf

/-- Two texts name an open account and a quantity, of which the commodity is registered. -/
structure Asserts (b : Book) (account amount : String) (id : AccountId) (asserted : Quantity) : Prop where
  amount : Decimal.read amount = some asserted.amount
  account : b.findOpen account = .ok id
  commodity : b.commodities.contains asserted.commodity = true

theorem asAssertion_ok_iff_asserts {b : Book} {u v w : Value} {id : AccountId} {q : Quantity} :
    asAssertion b (u, v, w) = .ok (id, q)
      ↔ ∃ account amount, u = .text account ∧ v = .text amount ∧ w = .text q.commodity
        ∧ Asserts b account amount id q := by
  rw [asAssertion_eq_ok_iff]
  refine exists_congr fun account => exists_congr fun amount => and_congr_right fun _ =>
    and_congr_right fun _ => and_congr_right fun _ => ?_
  exact ⟨fun h => ⟨h.1, h.2.1, h.2.2⟩, fun h => ⟨h.amount, h.account, h.commodity⟩⟩

/-- A quantity is asserted of the account on top, and a condition on the two holds. -/
def OnTop (d : Desk Book) (p : AccountId → Quantity → Prop) : Prop :=
  ∃ account amount id asserted rest,
    d.operands = .text asserted.commodity :: .text amount :: .text account :: rest
      ∧ Asserts d.context account amount id asserted ∧ p id asserted

/-- A quantity is asserted of a lot of the account on top, and a condition on the three holds. -/
def OnTopOfLot (d : Desk Book) (p : AccountId → String → Quantity → Prop) : Prop :=
  ∃ account lot amount id asserted rest,
    d.operands = .text asserted.commodity :: .text amount :: .text lot :: .text account :: rest
      ∧ Asserts d.context account amount id asserted ∧ p id lot asserted

/-- A word that judges twice leaves the range in its second judgement, if it cannot in its first. -/
theorem judges_exceeded_iff {α β : Type} {w : Word Book} {take : Taking α}
    {first : α → Book → Except Fault β} {second : β → Book → Except Fault Unit}
    (hw : w = .ofAct take fun taken => do
      let x ← judge (first taken)
      judge (second x)
      return []) (hfirst : ∀ taken b, Refuses (first taken b)) :
    (w called d).1 = .error (.exceeded e)
      ↔ ∃ taken rest x, take d.operands = .ok (taken, rest) ∧ first taken d.context = .ok x
        ∧ second x d.context = .error (.exceeded e) := by
  rw [hw, Word.ofAct_exceeded_iff]
  refine exists_congr fun taken => exists_congr fun rest => ?_
  rw [exists_and_left]
  refine and_congr_right fun _ => on_judge_bind_exceeded_iff.trans ?_
  rw [or_iff_right (hfirst taken d.context e)]
  refine exists_congr fun x => and_congr_right fun _ =>
    on_judge_bind_exceeded_iff.trans (or_iff_left ?_)
  rintro ⟨_, -, h⟩
  cases h

/-- A condition on an asserted quantity, for a word that judges it, is one on the top of the operands. -/
theorem taken_iff_onTop {p : AccountId → Quantity → Prop} :
    (∃ taken rest x, takeAssertion d.operands = .ok (taken, rest)
        ∧ asAssertion d.context taken = .ok x ∧ e = .amount ∧ p x.1 x.2) ↔ e = .amount ∧ OnTop d p := by
  constructor
  · rintro ⟨⟨u, v, w⟩, rest, ⟨id, q⟩, htake, hq, he, hp⟩
    obtain ⟨account, amount, rfl, rfl, rfl, hasserts⟩ := asAssertion_ok_iff_asserts.1 hq
    exact ⟨he, account, amount, id, q, rest, Taking.three_ok_iff.1 htake, hasserts, hp⟩
  · rintro ⟨he, account, amount, id, q, rest, hops, hasserts, hp⟩
    exact ⟨(.text account, .text amount, .text q.commodity), rest, (id, q),
      Taking.three_ok_iff.2 hops,
      asAssertion_ok_iff_asserts.2 ⟨account, amount, rfl, rfl, rfl, hasserts⟩, he, hp⟩

/-! The words that assert judge twice: their operands, and then what is asserted. -/

theorem assertDefault_eq : assertDefault = .ofAct takeAssertion fun operands => do
    let x ← judge fun b => asAssertion b operands
    judge fun b => requireBalance b x.1 defaultLot .default x.2
    return [] := rfl

theorem assertLotsSum_eq : assertLotsSum = .ofAct takeAssertion fun operands => do
    let x ← judge fun b => asAssertion b operands
    judge fun b => requireTotal b x.1 x.2
    return [] := rfl

theorem assertLot_eq :
    assertLot = .ofAct (Taking.four "account name, lot name, amount, and commodity") fun operands => do
      let x ← judge fun b => asLotAssertion b operands
      judge fun b => requireBalance b x.1 x.2.1 (.named x.2.1) x.2.2
      return [] := rfl

theorem assertDefault_exceeded_iff :
    (assertDefault called d).1 = .error (.exceeded e)
      ↔ e = .amount ∧ OnTop d fun id => LotTooFar d.context id defaultLot := by
  rw [judges_exceeded_iff assertDefault_eq fun taken b => .asAssertion b taken]
  simp only [requireBalance_exceeded_iff]
  exact taken_iff_onTop (p := fun id => LotTooFar d.context id defaultLot)

theorem assertLotsSum_exceeded_iff :
    (assertLotsSum called d).1 = .error (.exceeded e)
      ↔ e = .amount ∧ OnTop d (TotalTooFar d.context) := by
  rw [judges_exceeded_iff assertLotsSum_eq fun taken b => .asAssertion b taken]
  simp only [requireTotal_exceeded_iff]
  exact taken_iff_onTop

theorem assertLot_exceeded_iff :
    (assertLot called d).1 = .error (.exceeded e)
      ↔ e = .amount ∧ OnTopOfLot d (LotTooFar d.context) := by
  rw [judges_exceeded_iff assertLot_eq fun taken b => .asLotAssertion b taken]
  simp only [requireBalance_exceeded_iff]
  constructor
  · rintro ⟨⟨t, u, v, w⟩, rest, ⟨id, lot, q⟩, htake, hq, he, hfar⟩
    obtain ⟨rfl, hq'⟩ := asLotAssertion_eq_ok_iff.1 hq
    obtain ⟨account, amount, rfl, rfl, rfl, hasserts⟩ := asAssertion_ok_iff_asserts.1 hq'
    exact ⟨he, account, lot, amount, id, q, rest, Taking.four_ok_iff.1 htake, hasserts, hfar⟩
  · rintro ⟨he, account, lot, amount, id, q, rest, hops, hasserts, hfar⟩
    exact ⟨(.text account, .text lot, .text amount, .text q.commodity), rest, (id, lot, q),
      Taking.four_ok_iff.2 hops, asLotAssertion_eq_ok_iff.2 ⟨rfl,
        asAssertion_ok_iff_asserts.2 ⟨account, amount, rfl, rfl, rfl, hasserts⟩⟩, he, hfar⟩

/-- A transaction with texts for entity and description lies on top, and is too much. -/
def TransactsTooMuch (d : Desk Book) : Prop :=
  ∃ o rest entity description, takeTransaction d.operands = .ok (o, rest)
    ∧ o.entity = .text entity ∧ o.description = .text description
    ∧ TooMuch d.context (o.transfers.map d.context.transfer)

theorem draftTransaction_exceeded_iff {b : Book} {o : TransactionOperands} :
    draftTransaction b o = .error (.exceeded e)
      ↔ ∃ entity description, o.entity = .text entity ∧ o.description = .text description
        ∧ e = .amount ∧ Transaction.SumLeaves (o.transfers.map b.transfer) := by
  simp only [draftTransaction]
  rw [(Refuses.asText _ _ _).bind_exceeded_iff]
  refine exists_congr fun entity => ?_
  rw [(Refuses.asText _ _ _).bind_exceeded_iff]
  simp only [Book.asText_eq_ok_iff, exists_and_left]
  refine and_congr_right fun _ => exists_congr fun description => and_congr_right fun _ => ?_
  rw [← Transaction.requireBalance_exceeded_iff]
  refine bind_eq_error_iff.trans (or_iff_left ?_)
  rintro ⟨_, -, h⟩
  cases h

/-- A transaction leaves the range while it is drafted or while it is applied. -/
theorem applyTransaction_exceeded_iff {b : Book} {o : TransactionOperands} :
    ((applyTransaction o).on b).1 = .error (.exceeded e)
      ↔ ∃ entity description, o.entity = .text entity ∧ o.description = .text description
        ∧ e = .amount ∧ TooMuch b (o.transfers.map b.transfer) := by
  have happlied : ∀ x : Transaction,
      ((x.apply >>= fun _ => pure x : Act Transaction).on b).1 = .error (.exceeded e)
        ↔ (x.apply.on b).1 = .error (.exceeded e) := by
    intro x
    refine on_bind_exceeded_iff.trans (or_iff_left ?_)
    rintro ⟨_, _, -, h⟩
    cases h
  refine on_judge_bind_exceeded_iff.trans ⟨?_, ?_⟩
  · rintro (h | ⟨x, hx, h⟩)
    · obtain ⟨entity, description, hentity, hdescription, he, hsum⟩ := draftTransaction_exceeded_iff.1 h
      exact ⟨entity, description, hentity, hdescription, he, .inl hsum⟩
    · obtain ⟨entity, description, hentity, hdescription, -, rfl⟩ := draftTransaction_eq_ok_iff.1 hx
      obtain ⟨he, hmuch⟩ := Transaction.apply_exceeded_iff.1 ((happlied _).1 h)
      exact ⟨entity, description, hentity, hdescription, he, hmuch⟩
  · rintro ⟨entity, description, hentity, hdescription, he, hsum | ⟨hcheck, hroom⟩⟩
    · exact .inl (draftTransaction_exceeded_iff.2 ⟨entity, description, hentity, hdescription, he, hsum⟩)
    · have hx := draftTransaction_eq_ok_iff.2 ⟨entity, description, hentity, hdescription,
        (Transaction.check_eq_ok_iff.1 hcheck).1, rfl⟩
      exact .inr ⟨_, hx, (happlied _).2 (Transaction.apply_exceeded_iff.2 ⟨he, .inr ⟨hcheck, hroom⟩⟩)⟩

theorem transact_exceeded_iff :
    (transact called d).1 = .error (.exceeded e) ↔ e = .amount ∧ TransactsTooMuch d := by
  have hact : ∀ o, ((do
        let _ ← applyTransaction o
        return [] : Act (List Value)).on d.context).1 = .error (.exceeded e)
      ↔ ((applyTransaction o).on d.context).1 = .error (.exceeded e) := by
    intro o
    refine on_bind_exceeded_iff.trans (or_iff_left ?_)
    rintro ⟨x, b, -, h⟩
    cases h
  refine Word.ofAct_exceeded_iff.trans ⟨?_, ?_⟩
  · rintro ⟨o, rest, htake, h⟩
    obtain ⟨entity, description, hentity, hdescription, he, hmuch⟩ :=
      applyTransaction_exceeded_iff.1 ((hact o).1 h)
    exact ⟨he, o, rest, entity, description, htake, hentity, hdescription, hmuch⟩
  · rintro ⟨he, o, rest, entity, description, htake, hentity, hdescription, hmuch⟩
    exact ⟨o, rest, htake, (hact o).2
      (applyTransaction_exceeded_iff.2 ⟨entity, description, hentity, hdescription, he, hmuch⟩)⟩

end Words

/-! ### The calls that leave the range -/

open Words in
/-- The calls that leave the range of numbers, by the word that is called and what lies on its desk. -/
inductive Exceeds (name : String) (d : Desk Book) : Excess → Prop where
  | date (hname : name = "date") (h : BeyondClock d.operands) : Exceeds name d .date
  | assertDefault (hname : name = "assert")
      (h : OnTop d fun id => LotTooFar d.context id defaultLot) : Exceeds name d .amount
  | assertLot (hname : name = "assert-lot") (h : OnTopOfLot d (LotTooFar d.context)) :
      Exceeds name d .amount
  | assertLotsSum (hname : name = "assert-lots-sum") (h : OnTop d (TotalTooFar d.context)) :
      Exceeds name d .amount
  | transact (hname : name = "xact") (h : TransactsTooMuch d) : Exceeds name d .amount

namespace Words

variable {called : String} {d : Desk Book} {e : Excess}

/-- A call that leaves the range is one of these. -/
theorem exceeds_of_core {name : String} {w : Word Book} (hw : (name, w) ∈ coreWords)
    (h : (w called d).1 = .error (.exceeded e)) : Exceeds name d e := by
  have stays : ∀ {w : Word Book} {name : String}, Word.Refuses w →
      (w called d).1 = .error (.exceeded e) → Exceeds name d e := fun hw h =>
    absurd h (hw called d e)
  have hall : ∀ p ∈ coreWords, (p.2 called d).1 = .error (.exceeded e) → Exceeds p.1 d e := by
    simp only [coreWords, List.forall_mem_cons]
    refine ⟨stays refuses_addNotes, ?assert, ?assertLot, ?assertLotsSum, stays refuses_close,
      stays refuses_closeLot, stays refuses_comment, stays refuses_commodity, stays refuses_createLot,
      ?date, stays refuses_lot, stays refuses_openAccount, stays refuses_setComment,
      stays refuses_tag, stays refuses_tagCommodity, stays refuses_untag, ?xact,
      stays refuses_transfer, stays refuses_exchange, fun _ hp => absurd hp List.not_mem_nil⟩
    case assert =>
      intro h
      obtain ⟨rfl, hfar⟩ := assertDefault_exceeded_iff.1 h
      exact .assertDefault rfl hfar
    case assertLot =>
      intro h
      obtain ⟨rfl, hfar⟩ := assertLot_exceeded_iff.1 h
      exact .assertLot rfl hfar
    case assertLotsSum =>
      intro h
      obtain ⟨rfl, hfar⟩ := assertLotsSum_exceeded_iff.1 h
      exact .assertLotsSum rfl hfar
    case date =>
      intro h
      obtain ⟨rfl, hbeyond⟩ := date_exceeded_iff.1 h
      exact .date rfl hbeyond
    case xact =>
      intro h
      obtain ⟨rfl, hmuch⟩ := transact_exceeded_iff.1 h
      exact .transact rfl hmuch
  exact hall (name, w) hw h

end Words

/-- Each of these calls has a word, and leaves the range. -/
theorem Exceeds.called {name : String} {d : Desk Book} {e : Excess} (h : Exceeds name d e) :
    ∃ w, Vocabulary.core name = some w ∧ (w name d).1 = .error (.exceeded e) := by
  cases h with
  | date hname h =>
      subst hname
      exact ⟨Words.date, rfl, Words.date_exceeded_iff.2 ⟨rfl, h⟩⟩
  | assertDefault hname h =>
      subst hname
      exact ⟨Words.assertDefault, rfl, Words.assertDefault_exceeded_iff.2 ⟨rfl, h⟩⟩
  | assertLot hname h =>
      subst hname
      exact ⟨Words.assertLot, rfl, Words.assertLot_exceeded_iff.2 ⟨rfl, h⟩⟩
  | assertLotsSum hname h =>
      subst hname
      exact ⟨Words.assertLotsSum, rfl, Words.assertLotsSum_exceeded_iff.2 ⟨rfl, h⟩⟩
  | transact hname h =>
      subst hname
      exact ⟨Words.transact, rfl, Words.transact_exceeded_iff.2 ⟨rfl, h⟩⟩

/-- **A call of a core word leaves the range in these cases and in no others.** -/
theorem Vocabulary.core_exceeded_iff {name : String} {w : Word Book}
    (hw : Vocabulary.core name = some w) {d : Desk Book} {e : Excess} :
    (w name d).1 = .error (.exceeded e) ↔ Exceeds name d e := by
  refine ⟨Words.exceeds_of_core (Vocabulary.core_mem hw), fun h => ?_⟩
  obtain ⟨w', hw', h'⟩ := h.called
  obtain rfl := Option.some.inj (hw.symm.trans hw')
  exact h'

end Daybook
