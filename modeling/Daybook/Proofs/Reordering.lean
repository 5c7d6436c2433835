import Daybook.Proofs.Layout
import Daybook.Proofs.Lots
import Daybook.Proofs.Room
import Daybook.Proofs.Run
import Daybook.Proofs.Worth

/-!
# Reordering — transactions in another order

The first transfer into a lot may make the lot, the first one of a commodity makes its entry and is kept as it is,
and those after it are added to it.  When transactions are applied in another order, others come first.  As long
as no addition is rounded, an entry holds in the end the sum of all that went into it, with what it held before.

* `Decimal.addsExactly_iff`: when an addition takes nothing away.
* `Book.Received`: what transfers leave in a book, said without their order.
* `received_postAll`, `received_apply`, `received_applyAll`: postings, transactions and rows of transactions that
  are exact leave this.
* `applyAll_perm`: **transactions applied in another order lead to the same lots, the same entries in them and the
  same balances**, if nothing is rounded in either order.
-/

namespace Daybook

open Decimal (exactTotal)

/-- Whether a sum is not rounded; one that is too large is none. -/
def Decimal.addsExactly (a b : Decimal) : Bool := (a.add b).all (·.sameValue (exactSum a b))

theorem Decimal.addsExactly_iff {a b : Decimal} :
    a.addsExactly b = true ↔ ∀ s, a.add b = some s → s.toRat = a.toRat + b.toRat := by
  simp only [addsExactly]
  cases a.add b with
  | none => exact iff_of_true rfl nofun
  | some s =>
      rw [Option.all_some, sameValue_iff, exactSum_toRat]
      exact ⟨fun h s' hs => by cases hs; exact h, fun h => h s rfl⟩

/-! ### What transfers leave -/

namespace Book

open Transaction (amountsInto)

variable {b b₁ b₂ b' : Book} {t : Transfer} {ts us : List Transfer}

/-- Whether a transfer is added to its entry without rounding; the first one into an entry always is. -/
def receivesExactly (b : Book) (t : Transfer) : Bool :=
  (b.balanceOf t.account t.lot t.quantity.commodity).all (·.addsExactly t.quantity.amount)

/-- What transfers leave in a book: the lots and the entries into which one of them goes are there, and an entry
holds the sum of what goes into it besides what it held before. -/
structure Received (b : Book) (ts : List Transfer) (b' : Book) : Prop where
  lots : ∀ id lot, b'.hasLot id lot = (b.hasLot id lot || ts.any fun t => id == t.account && lot == t.lot)
  entries : ∀ id lot c, (b'.balanceOf id lot c).isSome
    = ((b.balanceOf id lot c).isSome || ts.any fun t => id = t.account ∧ lot = t.lot ∧ c = t.quantity.commodity)
  sums : ∀ id lot c, b'.inLot id lot c = b.inLot id lot c + exactTotal (amountsInto ts id lot c)

theorem Received.nil (b : Book) : b.Received [] b where
  lots _ _ := (Bool.or_false _).symm
  entries _ _ _ := (Bool.or_false _).symm
  sums _ _ _ := (add_zero _).symm

theorem Received.append (h : b.Received ts b₁) (h' : b₁.Received us b₂) : b.Received (ts ++ us) b₂ := by
  have hamounts : ∀ id lot c, amountsInto (ts ++ us) id lot c = amountsInto ts id lot c ++ amountsInto us id lot c :=
    fun id lot c => by simp only [amountsInto, List.filter_append, List.map_append]
  constructor
  · intro id lot
    rw [h'.lots, h.lots, List.any_append, Bool.or_assoc]
  · intro id lot c
    rw [h'.entries, h.entries, List.any_append, Bool.or_assoc]
  · intro id lot c
    rw [h'.sums, h.sums, hamounts, exactTotal, exactTotal, exactTotal, List.map_append, List.sum_append]
    ring

/-- What is left does not depend on the order of the transfers. -/
theorem Received.perm (h : b.Received ts b') (hperm : ts.Perm us) : b.Received us b' := by
  have hamounts : ∀ id lot c, (amountsInto ts id lot c).Perm (amountsInto us id lot c) :=
    fun _ _ _ => (hperm.filter _).map _
  constructor
  · intro id lot
    rw [h.lots, hperm.any_eq]
  · intro id lot c
    rw [h.entries, hperm.any_eq]
  · intro id lot c
    rw [h.sums, Decimal.exactTotal_perm (hamounts id lot c)]

/-- A posting that is not rounded leaves its transfer. -/
theorem Received.post (ht : t.account < b.accounts.length) (hpost : b.post t = .ok b')
    (hexact : b.receivesExactly t = true) : b.Received [t] b' := by
  obtain ⟨-, h, hreceive, rfl⟩ := post_eq_ok_iff.1 hpost
  have hsum : h.balance.amount.toRat
      = b.inLot t.account t.lot t.quantity.commodity + t.quantity.amount.toRat := by
    have hadd := receive_ok hreceive
    simp only [receivesExactly, balanceOf] at hexact
    rw [inLot_eq]
    cases hheld : b.held t.account t.lot t.quantity.commodity with
    | none =>
        rw [hheld] at hadd
        rw [← Option.some.inj hadd]
        exact (zero_add _).symm
    | some h₀ =>
        rw [hheld] at hadd hexact
        exact Decimal.addsExactly_iff.1 hexact _ hadd
  have hamounts : ∀ id lot c, amountsInto [t] id lot c
      = if id = t.account ∧ lot = t.lot ∧ c = t.quantity.commodity then [t.quantity.amount] else [] :=
    Transaction.amountsInto_cons t []
  constructor
  · intro id lot
    rw [hasLot_posted ht, List.any_cons, List.any_nil, Bool.or_false]
  · intro id lot c
    rw [balanceOf_posted ht, List.any_cons, List.any_nil, Bool.or_false]
    split
    · next hk => rw [decide_eq_true hk, Bool.or_true, Option.isSome_some]
    · next hk => rw [decide_eq_false hk, Bool.or_false]
  · intro id lot c
    rw [inLot_posted ht, hamounts]
    split
    · next hk =>
        obtain ⟨rfl, rfl, rfl⟩ := hk
        rw [hsum, Decimal.exactTotal_cons, Decimal.exactTotal_nil, add_zero]
    · exact (add_zero _).symm

theorem inLot_eq_balanceOf (b : Book) (id : AccountId) (lot c : String) :
    b.inLot id lot c = ((b.balanceOf id lot c).map (·.toRat)).getD 0 := by
  rw [inLot_eq, balanceOf, Option.map_map]
  rfl

/-- Books in which the same is left have the same lots and entries, and the same balances in them. -/
theorem Received.agree (h₁ : b.Received ts b₁) (h₂ : b.Received ts b₂) :
    (∀ id lot, b₁.hasLot id lot = b₂.hasLot id lot)
      ∧ ∀ id lot c, (b₁.balanceOf id lot c).map (·.toRat) = (b₂.balanceOf id lot c).map (·.toRat) := by
  refine ⟨fun id lot => (h₁.lots id lot).trans (h₂.lots id lot).symm, fun id lot c => ?_⟩
  have hsome := (h₁.entries id lot c).trans (h₂.entries id lot c).symm
  have hsum := (h₁.sums id lot c).trans (h₂.sums id lot c).symm
  rw [inLot_eq_balanceOf, inLot_eq_balanceOf] at hsum
  cases h₁ : b₁.balanceOf id lot c with
  | none =>
      rw [h₁, Option.isSome_none] at hsome
      rw [Option.isNone_iff_eq_none.1 (Option.isSome_eq_false_iff.1 hsome.symm)]
  | some d₁ =>
      rw [h₁, Option.isSome_some] at hsome
      obtain ⟨d₂, h₂⟩ := Option.isSome_iff_exists.1 hsome.symm
      rw [h₁, h₂] at hsum
      rw [h₂]
      exact congrArg some hsum

end Book

namespace Transaction

/-! ### Transactions one after the other -/

/-- Applies transactions one after the other, as far as it goes. -/
def applyAll (xs : List Transaction) : Act Unit := xs.forM apply

/-- Whether nothing is rounded while transfers are posted, as far as it goes. -/
def postsExactly (b : Book) : List Transfer → Bool
  | [] => true
  | t :: ts =>
    b.receivesExactly t &&
      match b.post t with
      | .ok b' => postsExactly b' ts
      | .error _ => true

/-- Whether nothing is rounded while transactions are posted, as far as it goes. -/
def appliesExactly (b : Book) : List Transaction → Bool
  | [] => true
  | x :: xs => postsExactly b (x.transfers.map b.transfer) && appliesExactly (x.apply.on b).2 xs

variable {b b' : Book} {x : Transaction} {xs ys : List Transaction} {ts : List Transfer}

theorem applyAll_cons_ok_iff :
    (applyAll (x :: xs)).on b = (.ok (), b')
      ↔ ∃ b₁, x.apply.on b = (.ok (), b₁) ∧ (applyAll xs).on b₁ = (.ok (), b') := by
  show (x.apply >>= fun _ => applyAll xs).on b = _ ↔ _
  rw [Act.on_bind_ok_iff]
  exact ⟨fun ⟨_, b₁, h⟩ => ⟨b₁, h⟩, fun ⟨b₁, h⟩ => ⟨(), b₁, h⟩⟩

/-- Postings of which none is rounded leave their transfers. -/
theorem received_postAll (hv : ∀ t ∈ ts, t.account < b.accounts.length)
    (hpost : (postAll ts).on b = (.ok (), b')) (hexact : postsExactly b ts = true) : b.Received ts b' := by
  induction ts generalizing b with
  | nil =>
      cases hpost
      exact .nil _
  | cons t ts ih =>
      obtain ⟨b₁, hfirst, hrest⟩ := postAll_cons_ok_iff.1 hpost
      obtain ⟨ht, hv⟩ := List.forall_mem_cons.1 hv
      simp only [postsExactly, hfirst, Bool.and_eq_true] at hexact
      have hlength : b₁.accounts.length = b.accounts.length := by
        obtain ⟨-, h, -, rfl⟩ := Book.post_eq_ok_iff.1 hfirst
        exact Book.length_accounts_posted b t h
      exact (Book.Received.post ht hfirst hexact.1).append
        (ih (fun t' ht' => hlength ▸ hv t' ht') hrest hexact.2)

/-- A transaction of which no posting is rounded leaves its transfers. -/
theorem received_apply (hx : x.apply.on b = (.ok (), b'))
    (hexact : postsExactly b (x.transfers.map b.transfer) = true) :
    b.Received (x.transfers.map b.transfer) b' := by
  obtain ⟨hcheck, b₁, hpost, rfl⟩ := apply_eq_ok_iff.1 hx
  have h := received_postAll (account_lt_of_check hcheck) hpost hexact
  exact ⟨h.lots, h.entries, h.sums⟩

/-- Transactions leave their transfers, as these are drafted at first, if nothing is rounded. -/
theorem received_applyAll (hxs : (applyAll xs).on b = (.ok (), b')) (hexact : appliesExactly b xs = true) :
    b.Received (xs.flatMap fun x => x.transfers.map b.transfer) b' := by
  induction xs generalizing b with
  | nil =>
      cases hxs
      exact .nil _
  | cons x xs ih =>
      obtain ⟨b₁, hx, hxs⟩ := applyAll_cons_ok_iff.1 hxs
      simp only [appliesExactly, hx, Bool.and_eq_true] at hexact
      -- applying a transaction changes no draft
      have hdrafts : b₁.transfer = b.transfer := by
        have htransfers : b₁.transfers = b.transfers := by
          show b₁.unlotted.transfers = b.unlotted.transfers
          rw [Book.unlotted_apply hx]
        funext id
        simp only [Book.transfer]
        rw [htransfers]
      have hrest := ih hxs hexact.2
      rw [hdrafts] at hrest
      rw [List.flatMap_cons]
      exact (received_apply hx hexact.1).append hrest

/-- **Transactions applied in another order lead to the same lots, the same entries in them and the same
balances**: if they can be applied in both orders and nothing is rounded in either, an account has a lot in the
end of both or of neither, and a commodity has an entry in it with one value in both, or has none in either. -/
theorem applyAll_perm {b₁ b₂ : Book} (hperm : xs.Perm ys)
    (hxs : (applyAll xs).on b = (.ok (), b₁)) (hys : (applyAll ys).on b = (.ok (), b₂))
    (hexact : appliesExactly b xs = true) (hexact' : appliesExactly b ys = true) :
    (∀ id lot, b₁.hasLot id lot = b₂.hasLot id lot)
      ∧ ∀ id lot c, (b₁.balanceOf id lot c).map (·.toRat) = (b₂.balanceOf id lot c).map (·.toRat) := by
  have h₁ := (received_applyAll hxs hexact).perm (hperm.flatMap_right _)
  exact h₁.agree (received_applyAll hys hexact')

/-- A book with the drafts of two transactions, of which either creates the same lot. -/
def twoDrafted : Book := .after
  (["U", "d", "commodity", "Assets:A", "open", "Equity", "open", "X", "y",
    "Assets:A", "1.50", "U", "xfer", "L", "create-lot", "Equity", "-1.5", "U", "xfer", "Z", "w",
    "Assets:A", "0.5", "U", "xfer", "L", "create-lot", "Equity", "-0.50", "U", "xfer"].map .word)

/-- The transaction over the first two of these drafts. -/
def earlier : Transaction := ⟨"X", "y", [0, 1], ∅⟩

/-- The transaction over the other two. -/
def later : Transaction := ⟨"Z", "w", [2, 3], ∅⟩

/-- The two transactions are those that the operands describe.  Whichever comes first creates the lot, and the other
one adds to it: the lot holds the same in the end. -/
theorem applyAll_perm_twoDrafted :
    ((Words.parseTransaction "xact"
          ⟨[.transfer 1, .transfer 0, .text "y", .text "X"], twoDrafted⟩).1 = .ok earlier
        ∧ (Words.parseTransaction "xact"
          ⟨[.transfer 3, .transfer 2, .text "w", .text "Z"], twoDrafted⟩).1 = .ok later)
      ∧ ∃ b₁ b₂, (applyAll [earlier, later]).on twoDrafted = (.ok (), b₁)
        ∧ (applyAll [later, earlier]).on twoDrafted = (.ok (), b₂)
        ∧ (b₁.held 0 "L" "U").map (·.balance.amount) = some ⟨false, 200, -2⟩
        ∧ b₁.hasLot 0 "L" = b₂.hasLot 0 "L"
        ∧ (b₁.balanceOf 0 "L" "U").map (·.toRat) = (b₂.balanceOf 0 "L" "U").map (·.toRat) := by
  obtain ⟨hparsed, hok, hok', hexact, hexact', hheld⟩ :
      ((Words.parseTransaction "xact"
            ⟨[.transfer 1, .transfer 0, .text "y", .text "X"], twoDrafted⟩).1 = .ok earlier
          ∧ (Words.parseTransaction "xact"
            ⟨[.transfer 3, .transfer 2, .text "w", .text "Z"], twoDrafted⟩).1 = .ok later)
        ∧ ((applyAll [earlier, later]).on twoDrafted).1 = .ok ()
        ∧ ((applyAll [later, earlier]).on twoDrafted).1 = .ok ()
        ∧ appliesExactly twoDrafted [earlier, later] = true
        ∧ appliesExactly twoDrafted [later, earlier] = true
        ∧ (((applyAll [earlier, later]).on twoDrafted).2.held 0 "L" "U").map (·.balance.amount)
          = some ⟨false, 200, -2⟩ := by decide +kernel
  have hrun : ∀ xs, ((applyAll xs).on twoDrafted).1 = .ok () →
      (applyAll xs).on twoDrafted = (.ok (), ((applyAll xs).on twoDrafted).2) := fun _ h => Prod.ext h rfl
  obtain ⟨hlots, hbalances⟩ :=
    applyAll_perm (.swap later earlier []) (hrun _ hok) (hrun _ hok') hexact hexact'
  exact ⟨hparsed, _, _, hrun _ hok, hrun _ hok', hheld, hlots 0 "L", hbalances 0 "L" "U"⟩

end Transaction

end Daybook
