import Daybook.Proofs.Coherence
import Daybook.Proofs.Totals

/-!
# Accepting — what is accepted of a lot, and what may be closed

The balances of lots are looked at in four places: where one is read, where one is asserted, where an account is
closed, and where a lot is.  Each deals in its own way with a lot that is not there, with a commodity that a lot
has never held, and with zeros of any sign and exponent.  They agree, for every entry is filed under a registered
commodity.

* `inLot_eq_balance?`: what is read of a lot.
* `nonzeroHoldings_eq_nil_iff`, `Lot.forall_isZero_iff`: accounts and lots that hold nothing.
* `assertLot_ok_iff`, `assertDefault_eq_assertLot`: what is asserted of a lot, and of the default lot.
* `close_ok_iff`, `closeLot_ok_iff`: what may be closed.
* `assertions_agree`: **an amount is accepted just when it is what is read, and an account or a lot may be closed
  just when zero is accepted of it in every registered commodity**.
-/

namespace Daybook

/-! ### Reading, and holding nothing -/

/-- A lot holds nothing but zeros just when it is worth nothing in every commodity. -/
theorem Lot.forall_isZero_iff {l : Lot} :
    (∀ h ∈ l.values, h.balance.amount.isZero = true) ↔ ∀ c, l.worth c = 0 := by
  simp only [Lot.worth]
  constructor
  · intro hz c
    cases hc : l.get? c with
    | none => rfl
    | some h => exact Decimal.toRat_eq_zero_iff.2 (hz h (Table.mem_values_of_get? hc))
  · intro hworth h hh
    obtain ⟨c, hc⟩ := Table.exists_get?_of_mem_values hh
    have hzero := hworth c
    rw [hc] at hzero
    exact Decimal.toRat_eq_zero_iff.1 hzero

namespace Account

variable {a : Account} {lot c : String}

theorem isSome_balance? : (a.balance? lot c).isSome = a.lots.contains lot := by
  simp only [balance?, Table.contains, Option.isSome_map]

/-- What a lot holds is what is read of it; a lot that is not there holds nothing. -/
theorem inLot_eq_balance? : a.inLot lot c = ((a.balance? lot c).map (·.toRat)).getD 0 := by
  simp only [inLot, holding?, balance?]
  cases a.lots.get? lot with
  | none => rfl
  | some l =>
      show ((l.get? c).map _).getD 0 = (((l.get? c).map _).getD Decimal.zero).toRat
      cases l.get? c with
      | none => exact Decimal.toRat_zero.symm
      | some h => rfl

/-- An amount that a lot holds is read of it, or is zero where the lot is not there. -/
theorem eq_inLot_iff {q : Decimal} :
    q.toRat = a.inLot lot c
      ↔ (∃ d, a.balance? lot c = some d ∧ d.toRat = q.toRat)
        ∨ a.lots.contains lot = false ∧ q.toRat = 0 := by
  rw [inLot_eq_balance?, ← isSome_balance? (c := c)]
  cases a.balance? lot c with
  | none => simp
  | some d => simp [eq_comm]

/-- An account holds nothing but zeros just when all its lots are worth nothing. -/
theorem nonzeroHoldings_eq_nil_iff : a.nonzeroHoldings = [] ↔ ∀ lot c, a.inLot lot c = 0 := by
  have hlots : a.nonzeroHoldings = []
      ↔ ∀ l ∈ a.lots.values, ∀ h ∈ l.values, h.balance.amount.isZero = true := by
    simp only [nonzeroHoldings, holdings, List.filter_eq_nil_iff, List.mem_flatMap]
    constructor
    · intro hz l hl h hh
      simpa using hz h ⟨l, hl, hh⟩
    · rintro hz h ⟨l, hl, hh⟩
      simpa using hz l hl h hh
  rw [hlots]
  constructor
  · intro hz lot c
    rw [← lot_worth_eq]
    cases hl : a.lots.get? lot with
    | none => rfl
    | some l => exact Lot.forall_isZero_iff.1 (hz l (Table.mem_values_of_get? hl)) c
  · intro hworth l hl
    obtain ⟨lot, hlot⟩ := Table.exists_get?_of_mem_values hl
    refine Lot.forall_isZero_iff.2 fun c => ?_
    have hzero := hworth lot c
    rw [← lot_worth_eq, hlot] at hzero
    exact hzero

end Account

/-- What is not registered is held nowhere. -/
theorem Book.Coherent.inLot_of_unregistered {b : Book} (hb : b.Coherent) {c : String}
    (hc : b.commodities.contains c = false) (id : AccountId) (lot : String) : b.inLot id lot c = 0 := by
  rw [Book.inLot_eq]
  cases hheld : b.held id lot c with
  | none => rfl
  | some h =>
      have hregistered := (hb.filed id lot c h hheld).registered
      rw [hc] at hregistered
      cases hregistered

/-- A lot that is not there holds nothing. -/
theorem Book.inLot_of_not_hasLot {b : Book} {id : AccountId} {lot : String} (h : b.hasLot id lot = false)
    (c : String) : b.inLot id lot c = 0 := by
  have hnone : (b.account id).balance? lot c = none := by
    rw [← Option.not_isSome_iff_eq_none, Account.isSome_balance?]
    exact ne_true_of_eq_false h
  simp only [Book.inLot]
  rw [Account.inLot_eq_balance?, hnone]
  rfl

/-- A word goes through when its act comes to a result on the operands taken. -/
theorem Word.ofAct_proceeds_iff {α : Type} {take : Taking α} {act : α → Act (List Value)} {called : String}
    {d : Desk Book} {taken : α} {rest : Operands} (htake : take d.operands = .ok (taken, rest)) :
    (Word.ofAct take act called d).1 = .ok .proceed
      ↔ ∃ pushed b, (act taken).on d.context = (.ok pushed, b) := by
  simp only [Word.ofAct, perform]
  rw [htake]
  dsimp only
  obtain ⟨r, b⟩ := (act taken).on d.context
  cases r with
  | error fault =>
      refine iff_of_false (fun h => by cases h) ?_
      rintro ⟨_, _, h⟩
      cases h
  | ok pushed => exact iff_of_true rfl ⟨pushed, b, rfl⟩

namespace Words

open Act

variable {called : String} {b : Book} {name account amount c lot : String} {id : AccountId} {rest : Operands}

/-! ### Assertions -/

/-- A desk at which an amount of a commodity is asserted of a lot. -/
def assertingLot (account lot amount commodity : String) (rest : Operands) (b : Book) : Desk Book :=
  ⟨.text commodity :: .text amount :: .text lot :: .text account :: rest, b⟩

/-- What is asserted of a lot is accepted when it is what the lot holds. -/
theorem assertLot_ok_iff {asserted : Quantity} (hasserts : Asserts b account amount id asserted)
    (called lot : String) (rest : Operands) :
    (assertLot called (assertingLot account lot amount asserted.commodity rest b)).1 = .ok .proceed
      ↔ asserted.amount.toRat = b.inLot id lot asserted.commodity := by
  have hfirst : asLotAssertion b (.text account, .text lot, .text amount, .text asserted.commodity)
      = .ok (id, lot, asserted) :=
    asLotAssertion_eq_ok_iff.2
      ⟨rfl, asAssertion_ok_iff_asserts.2 ⟨account, amount, rfl, rfl, rfl, hasserts⟩⟩
  rw [judges_ok_iff assertLot_eq (Taking.four_ok_iff.2 rfl) hfirst]
  exact requireBalance_eq_ok_iff

/-- A failure in which a lot is called by another label. -/
def relabelled (label : LotLabel) : Failure → Failure
  | .failed (.refused ⟨word, .mismatch (.absent _ account commodity)⟩) =>
    .failed (.refused ⟨word, .mismatch (.absent label account commodity)⟩)
  | .failed (.refused ⟨word, .mismatch (.balance _ account actual asserted difference)⟩) =>
    .failed (.refused ⟨word, .mismatch (.balance label account actual asserted difference)⟩)
  | failure => failure

/-- What is judged before a lot is looked at has nothing to do with its label. -/
theorem relabelled_of_asAssertion {fault : Fault} {label : LotLabel} {word : Option String}
    (h : asAssertion b (.text account, .text amount, .text c) = .error fault) :
    relabelled label (fault.toFailure word) = fault.toFailure word := by
  have hsteps : (asAmount amount >>= fun d => b.findOpen account >>= fun i =>
      b.findCommodity "commodity" c >>= fun _ => .ok (i, (⟨d, c⟩ : Quantity))) = .error fault := h
  rcases bind_eq_error_iff.1 hsteps with hd | ⟨d, -, hsteps⟩
  · simp only [asAmount] at hd
    split at hd
    · cases hd; rfl
    · cases hd
  rcases bind_eq_error_iff.1 hsteps with hi | ⟨i, -, hsteps⟩
  · simp only [Book.findOpen] at hi
    split at hi
    · cases hi; rfl
    · split at hi
      · cases hi; rfl
      · cases hi
  rcases bind_eq_error_iff.1 hsteps with hc | ⟨_, -, hsteps⟩
  · simp only [Book.findCommodity] at hc
    split at hc
    · cases hc
    · cases hc; rfl
  · cases hsteps

/-- A lot is judged alike under all labels. -/
theorem verdict_requireBalance_relabelled (label label' : LotLabel) (asserted : Quantity) :
    (verdict called (requireBalance b id lot label asserted)).mapError (relabelled label')
      = verdict called (requireBalance b id lot label' asserted) := by
  simp only [requireBalance]
  cases (b.account id).lots.get? lot with
  | none => cases asserted.amount.isZero <;> rfl
  | some holdings =>
      dsimp only
      cases holdings.get? asserted.commodity with
      | none => cases asserted.amount.isZero <;> rfl
      | some h =>
          dsimp only
          cases h.balance.amount.sameValue asserted.amount with
          | true => rfl
          | false =>
              simp only [difference]
              cases h.balance.amount.sub asserted.amount <;> rfl

/-- **The default lot is asserted of like any other**, and a failure only calls it by another label. -/
theorem assertDefault_eq_assertLot (called account amount c : String) (rest : Operands) (b : Book) :
    assertDefault called (asserting account amount c rest b)
      = (((assertLot called (assertingLot account defaultLot amount c rest b)).1).mapError
            (relabelled .default),
          (assertLot called (assertingLot account defaultLot amount c rest b)).2) := by
  have hdefault : assertDefault called (asserting account amount c rest b) = _ :=
    judges_eq assertDefault_eq (Taking.three_ok_iff.2 rfl)
  have hlot : assertLot called (assertingLot account defaultLot amount c rest b) = _ :=
    judges_eq assertLot_eq (Taking.four_ok_iff.2 rfl)
  have hsame : asLotAssertion b (.text account, .text defaultLot, .text amount, .text c)
      = (asAssertion b (.text account, .text amount, .text c)).map fun x => (x.1, defaultLot, x.2) := rfl
  rw [hdefault, hlot]
  refine Prod.ext ?_ rfl
  dsimp only [asserting, assertingLot]
  rw [hsame]
  cases h : asAssertion b (.text account, .text amount, .text c) with
  | error fault => exact congrArg Except.error (relabelled_of_asAssertion h).symm
  | ok x => exact (verdict_requireBalance_relabelled (.named defaultLot) .default x.2).symm

/-! ### Closing -/

/-- An open account may be closed when it holds nothing. -/
theorem close_ok_iff (hopen : b.findOpen name = .ok id) :
    (close called ⟨.text name :: rest, b⟩).1 = .ok .proceed ↔ ∀ lot c, b.inLot id lot c = 0 := by
  have hclosable : findClosable b name = .ok id := by
    obtain ⟨hcurrent, hnot⟩ := Book.findOpen_eq_ok_iff.1 hopen
    simp only [findClosable]
    rw [hcurrent, Option.any_some, hnot, if_neg Bool.false_ne_true]
    exact hopen
  have htake : Taking.one "account name" (.text name :: rest) = .ok (.text name, rest) := rfl
  rw [close, Word.ofAct_proceeds_iff htake]
  simp only [on_judge_bind_ok_iff, on_enter_bind_ok_iff, on_pure_ok_iff]
  constructor
  · rintro ⟨-, -, _, hname, i, hi, _, hempty, -, -⟩
    obtain rfl := Value.text.inj (Book.asText_eq_ok_iff.1 hname)
    obtain rfl := Except.ok.inj (hclosable.symm.trans hi)
    exact Account.nonzeroHoldings_eq_nil_iff.1 (requireEmptyAccount_eq_ok_iff.1 hempty)
  · intro hzero
    exact ⟨_, _, name, Book.asText_eq_ok_iff.2 rfl, id, hclosable, _,
      requireEmptyAccount_eq_ok_iff.2 (Account.nonzeroHoldings_eq_nil_iff.2 hzero), rfl, rfl⟩

/-- A lot of an open account may be closed when it is there, is not the default lot and holds nothing. -/
theorem closeLot_ok_iff (hopen : b.findOpen name = .ok id) :
    (closeLot called ⟨.text lot :: .text name :: rest, b⟩).1 = .ok .proceed
      ↔ (b.hasLot id lot = true ∧ lot ≠ defaultLot) ∧ ∀ c, b.inLot id lot c = 0 := by
  have hempty : requireEmptyLot b id name lot = .ok ()
      ↔ (b.hasLot id lot = true ∧ lot ≠ defaultLot) ∧ ∀ c, b.inLot id lot c = 0 := by
    rw [requireEmptyLot_eq_ok_iff]
    simp only [Book.hasLot, Table.contains, Book.inLot, ← Account.lot_worth_eq]
    cases (b.account id).lots.get? lot with
    | none =>
        refine iff_of_false ?_ ?_
        · rintro ⟨-, _, h, -⟩
          cases h
        · rintro ⟨⟨h, -⟩, -⟩
          cases h
    | some l =>
        constructor
        · rintro ⟨hne, l', hl, hz⟩
          obtain rfl := Option.some.inj hl
          exact ⟨⟨rfl, hne⟩, Lot.forall_isZero_iff.1 hz⟩
        · rintro ⟨⟨-, hne⟩, hz⟩
          exact ⟨hne, l, rfl, Lot.forall_isZero_iff.2 hz⟩
  have htake : Taking.two "account name and lot name" (.text lot :: .text name :: rest)
      = .ok ((.text name, .text lot), rest) := rfl
  rw [← hempty, closeLot, Word.ofAct_proceeds_iff htake]
  simp only [on_judge_bind_ok_iff, on_enter_bind_ok_iff, on_pure_ok_iff]
  constructor
  · rintro ⟨-, -, _, hname, _, hlot, i, hi, _, hrequired, -, -⟩
    obtain rfl := Value.text.inj (Book.asText_eq_ok_iff.1 hname)
    obtain rfl := Value.text.inj (Book.asText_eq_ok_iff.1 hlot)
    obtain rfl := Except.ok.inj (hopen.symm.trans hi)
    exact hrequired
  · intro hrequired
    exact ⟨_, _, name, Book.asText_eq_ok_iff.2 rfl, lot, Book.asText_eq_ok_iff.2 rfl, id, hopen, _,
      hrequired, rfl, rfl⟩

/-! ### Agreement -/

/-- **The readers of balances agree**, of an open account at any time: an amount is accepted of a lot when it is
what is read of it, or is zero and there is no such lot; the default lot is asserted of like any other; no
assertion changes the book.  And the account may be closed when zero is accepted of each of its lots in every
registered commodity, and a lot when it is there, is not the default lot, and zero is so accepted of it. -/
theorem assertions_agree (ts : List Token) {name : String} {id : AccountId}
    (hopen : (Book.after ts).findOpen name = .ok id) (called : String) (rest : Operands) :
    let b := Book.after ts
    let Accepted lot amount c := (assertLot called (assertingLot name lot amount c rest b)).1 = .ok .proceed
    (∀ lot amount q c, Decimal.read amount = some q → b.commodities.contains c = true →
      (Accepted lot amount c
        ↔ (∃ d, (b.account id).balance? lot c = some d ∧ d.toRat = q.toRat)
          ∨ b.hasLot id lot = false ∧ q.toRat = 0))
      ∧ (∀ amount c, assertDefault called (asserting name amount c rest b)
          = ((assertLot called (assertingLot name defaultLot amount c rest b)).1.mapError (relabelled .default),
            (assertLot called (assertingLot name defaultLot amount c rest b)).2))
      ∧ (∀ d : Desk Book,
          (assertLot called d).2.context = d.context ∧ (assertDefault called d).2.context = d.context)
      ∧ ∀ zero z, Decimal.read zero = some z → z.toRat = 0 → ∀ closing,
        ((close closing ⟨.text name :: rest, b⟩).1 = .ok .proceed
            ↔ ∀ lot c, b.hasLot id lot = true → b.commodities.contains c = true → Accepted lot zero c)
          ∧ ∀ lot, (closeLot closing ⟨.text lot :: .text name :: rest, b⟩).1 = .ok .proceed
            ↔ (b.hasLot id lot = true ∧ lot ≠ defaultLot)
              ∧ ∀ c, b.commodities.contains c = true → Accepted lot zero c := by
  intro b Accepted
  have haccepted : ∀ {lot amount q c}, Decimal.read amount = some q → b.commodities.contains c = true →
      (Accepted lot amount c ↔ q.toRat = b.inLot id lot c) := by
    intro lot amount q c hread hc
    have hasserts : Asserts b name amount id ⟨q, c⟩ := ⟨hread, hopen, hc⟩
    exact assertLot_ok_iff hasserts called lot rest
  refine ⟨?_, fun amount c => assertDefault_eq_assertLot called name amount c rest b,
    fun d => ⟨keeps_assertLot (fun b => b) called d _ _ rfl, keeps_assertDefault (fun b => b) called d _ _ rfl⟩, ?_⟩
  · intro lot amount q c hread hc
    rw [haccepted hread hc]
    exact Account.eq_inLot_iff
  · intro zero z hread hz closing
    -- no lot holds anything of a commodity that is not registered, so that the registered ones are enough
    have hall : ∀ lot, (∀ c, b.inLot id lot c = 0)
        ↔ ∀ c, b.commodities.contains c = true → Accepted lot zero c := by
      intro lot
      constructor
      · intro hzero c hc
        exact (haccepted hread hc).2 (hz.trans (hzero c).symm)
      · intro h c
        cases hc : b.commodities.contains c with
        | false => exact (Book.coherent_after ts).inLot_of_unregistered hc id lot
        | true => exact ((haccepted hread hc).1 (h c hc)).symm.trans hz
    refine ⟨?_, fun lot => ?_⟩
    · rw [close_ok_iff hopen]
      constructor
      · intro hzero lot c _ hc
        exact (hall lot).1 (hzero lot) c hc
      · intro h lot
        cases hlot : b.hasLot id lot with
        | false => exact fun c => Book.inLot_of_not_hasLot hlot c
        | true => exact (hall lot).2 fun c hc => h lot c hlot hc
    · rw [closeLot_ok_iff hopen, hall]

/-- A book in which an account holds `1.50` in the default lot and a signed zero in another one. -/
def nearlyEmpty : List Token :=
  ["U", "d", "commodity", "V", "d", "commodity", "Assets:A", "open", "Equity", "open", "X", "y",
    "Assets:A", "1.50", "U", "xfer", "Assets:A", "-0E-3", "U", "xfer", "L", "create-lot",
    "Equity", "-1.5", "U", "xfer", "xact"].map .word

/-- The default lot is found to hold `1.5`, so that the account stays open; the signed zero is taken for zero, so
that its lot may be closed, and zero is accepted of it in a commodity that it never held; and of a lot that is not
there, zero is accepted alone. -/
theorem assertions_agree_nearlyEmpty :
    (Book.after nearlyEmpty).findOpen "Assets:A" = .ok 0
      ∧ (assertDefault "assert" (asserting "Assets:A" "1.5" "U" [] (.after nearlyEmpty))).1 = .ok .proceed
      ∧ (close "close" ⟨[.text "Assets:A"], .after nearlyEmpty⟩).1 ≠ .ok .proceed
      ∧ (closeLot "close-lot" ⟨[.text "L", .text "Assets:A"], .after nearlyEmpty⟩).1 = .ok .proceed
      ∧ (assertLot "assert-lot" (assertingLot "Assets:A" "L" "0E7" "V" [] (.after nearlyEmpty))).1 = .ok .proceed
      ∧ (assertLot "assert-lot" (assertingLot "Assets:A" "M" "-0" "V" [] (.after nearlyEmpty))).1 = .ok .proceed
      ∧ (assertLot "assert-lot" (assertingLot "Assets:A" "M" "1" "V" [] (.after nearlyEmpty))).1
        ≠ .ok .proceed := by
  obtain ⟨hopen, hdefault, hlot, hmissing, hclosed, hu, hv⟩ :
      (Book.after nearlyEmpty).findOpen "Assets:A" = .ok 0
        ∧ ((Book.after nearlyEmpty).account 0).balance? defaultLot "U" = some ⟨false, 150, -2⟩
        ∧ (Book.after nearlyEmpty).hasLot 0 defaultLot = true
        ∧ (Book.after nearlyEmpty).hasLot 0 "M" = false
        ∧ (closeLot "close-lot" ⟨[.text "L", .text "Assets:A"], .after nearlyEmpty⟩).1 = .ok .proceed
        ∧ (Book.after nearlyEmpty).commodities.contains "U" = true
        ∧ (Book.after nearlyEmpty).commodities.contains "V" = true := by decide +kernel
  have hzero : ∀ neg e, Decimal.toRat ⟨neg, 0, e⟩ = 0 := fun _ _ => Decimal.toRat_eq_zero_iff.2 rfl
  have hvalue : Decimal.toRat ⟨false, 150, -2⟩ = Decimal.toRat ⟨false, 15, -1⟩ := by norm_num [Decimal.toRat]
  have hnonzero : Decimal.toRat ⟨false, 150, -2⟩ ≠ 0 := by norm_num [Decimal.toRat]
  have hone : Decimal.toRat ⟨false, 1, 0⟩ ≠ 0 := by norm_num [Decimal.toRat]
  obtain ⟨haccepted, -, -, hclosing⟩ := assertions_agree nearlyEmpty hopen "assert-lot" []
  obtain ⟨haccepted', hlike, -, -⟩ := assertions_agree nearlyEmpty hopen "assert" []
  have hfirst : (assertLot "assert"
      (assertingLot "Assets:A" defaultLot "1.5" "U" [] (.after nearlyEmpty))).1 = .ok .proceed :=
    (haccepted' defaultLot "1.5" ⟨false, 15, -1⟩ "U" rfl hu).2 (.inl ⟨_, hdefault, hvalue⟩)
  refine ⟨hopen, ?_, fun h => ?_, hclosed, ?_, ?_, fun h => ?_⟩
  · rw [hlike "1.5" "U", hfirst]
    rfl
  · have hempty := ((hclosing "0" _ rfl (hzero false 0) "close").1.1 h) defaultLot "U" hlot hu
    rcases (haccepted _ _ _ _ rfl hu).1 hempty with ⟨d, hd, hvalue⟩ | ⟨hnone, -⟩
    · rw [hdefault] at hd
      cases hd
      exact hnonzero (hvalue.trans (hzero false 0))
    · rw [hlot] at hnone
      cases hnone
  · exact (((hclosing "0E7" _ rfl (hzero false 7) "close-lot").2 "L").1 hclosed).2 "V" hv
  · exact (haccepted _ _ _ _ rfl hv).2 (.inr ⟨hmissing, hzero true 0⟩)
  · rcases (haccepted _ _ ⟨false, 1, 0⟩ _ rfl hv).1 h with ⟨d, hd, -⟩ | ⟨-, hvalue⟩
    · have hsome : (Book.after nearlyEmpty).hasLot 0 "M" = true := by
        refine (Account.isSome_balance? (c := "V")).symm.trans ?_
        rw [hd]
        rfl
      rw [hmissing] at hsome
      cases hsome
    · exact hone hvalue

end Words

end Daybook
