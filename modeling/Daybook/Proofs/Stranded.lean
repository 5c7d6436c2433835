import Daybook.Proofs.Bindings

/-!
# Stranded — transfers that find no lot

When a transaction is applied, each transfer must find its lot: in its account, or created by itself or by
a transfer before it.  A lot can be gone that was there when the transfer was bound to it.  What counts then
is who may create the lot, which is not told by the last bindings: a transfer that was bound by `create-lot`
and by `lot` after that may still create what `lot` took for existing.

* `Stranded`: some transfer finds its lot missing, and none up to it creates it.
* `requireLots_eq_ok_iff`: the check of lots is passed just when no transfer is stranded.
* `Deed.creates`: **a lot is created on behalf of a transfer that may create it**.
* `transact_noLot_iff`: a transaction is refused for a lot just when a transfer is stranded.
* `lots_created`: both in every run, by the bindings of the transfers.
-/

namespace Daybook

/-- What holds of each member of a row and of the members before it holds of the first member, and of the
others with the first put before them. -/
theorem forall_split_cons {α : Type} {P : List α → α → Prop} {a : α} {l : List α} :
    (∀ before x after, a :: l = before ++ x :: after → P before x)
      ↔ P [] a ∧ ∀ before x after, l = before ++ x :: after → P (a :: before) x := by
  constructor
  · intro h
    exact ⟨h [] a l rfl, fun before x after hl => h (a :: before) x after (congrArg (a :: ·) hl)⟩
  · rintro ⟨hfirst, hrest⟩ (_ | ⟨y, before⟩) x after hl
    · obtain ⟨rfl, -⟩ := List.cons.inj hl
      exact hfirst
    · obtain ⟨rfl, htail⟩ := List.cons.inj hl
      exact hrest before x after htail

namespace Book

variable {b b' : Book}

/-- The account of a transfer does not have its lot. -/
def LacksLot (b : Book) (x : TransferId) : Prop :=
  b.hasLot (b.transfer x).account (b.transfer x).lot = false

instance (b : Book) (x : TransferId) : Decidable (b.LacksLot x) := inferInstanceAs (Decidable (_ = _))

/-- Two transfers go into the same lot of the same account. -/
def SameLot (b : Book) (x y : TransferId) : Prop :=
  (b.transfer y).account = (b.transfer x).account ∧ (b.transfer y).lot = (b.transfer x).lot

theorem SameLot.lacksLot {x y : TransferId} (h : b.SameLot x y) (hx : b.LacksLot x) : b.LacksLot y := by
  simp only [LacksLot]
  rw [h.1, h.2]
  exact hx

/-- Some transfer in a row finds its lot missing, where neither it nor one before it creates this lot. -/
def Stranded (b : Book) (creates : TransferId → Prop) (ids : List TransferId) : Prop :=
  ∃ before x after, ids = before ++ x :: after
    ∧ b.LacksLot x ∧ ∀ y ∈ before ++ [x], b.SameLot x y → ¬creates y

/-- It depends on the transfers that find their lot missing alone who creates lots. -/
theorem Stranded.congr {creates creates' : TransferId → Prop} {ids : List TransferId}
    (h : ∀ y ∈ ids, b.LacksLot y → (creates y ↔ creates' y)) :
    b.Stranded creates ids ↔ b.Stranded creates' ids := by
  refine exists_congr fun before => exists_congr fun x => exists_congr fun after => ?_
  refine and_congr_right fun hids => and_congr_right fun hmissing => ?_
  refine forall_congr' fun y => imp_congr_right fun hy => imp_congr_right fun hsame => ?_
  refine not_congr (h y ?_ (hsame.lacksLot hmissing))
  rw [hids, List.append_cons]
  exact List.mem_append_left _ hy

/-- A transfer finds its lot: it is there, or is among those created before a row, or is created by a
transfer in the row before it or by itself. -/
def FindsLot (b : Book) (created : List (AccountId × String)) (before : List TransferId)
    (x : TransferId) : Prop :=
  (b.hasLot (b.transfer x).account (b.transfer x).lot
      || created.contains ((b.transfer x).account, (b.transfer x).lot)) = true
    ∨ ∃ y ∈ before ++ [x], b.SameLot x y ∧ (b.transfer y).createsLot = true

/-- A transfer that creates no lot, since its own is there, makes no difference to those after it. -/
theorem findsLot_cons_of_found {created : List (AccountId × String)} {x₀ : TransferId}
    (h : (b.hasLot (b.transfer x₀).account (b.transfer x₀).lot
      || created.contains ((b.transfer x₀).account, (b.transfer x₀).lot)) = true)
    (before : List TransferId) (x : TransferId) :
    b.FindsLot created (x₀ :: before) x ↔ b.FindsLot created before x := by
  constructor
  · rintro (hx | ⟨y, hy, hsame, hc⟩)
    · exact .inl hx
    · rcases List.mem_cons.1 hy with rfl | hy
      · rw [hsame.1, hsame.2] at h
        exact .inl h
      · exact .inr ⟨y, hy, hsame, hc⟩
  · exact Or.imp_right fun ⟨y, hy, hsame⟩ => ⟨y, List.mem_cons_of_mem _ hy, hsame⟩

/-- The lot of a transfer that may create it is among those created, for the transfers after it. -/
theorem findsLot_cons_of_creates {created : List (AccountId × String)} {x₀ : TransferId}
    (h : (b.transfer x₀).createsLot = true) (before : List TransferId) (x : TransferId) :
    b.FindsLot created (x₀ :: before) x
      ↔ b.FindsLot (((b.transfer x₀).account, (b.transfer x₀).lot) :: created) before x := by
  simp only [FindsLot]
  rw [List.contains_cons]
  constructor
  · rintro (hx | ⟨y, hy, hsame, hc⟩)
    · rcases Bool.or_eq_true _ _ ▸ hx with hx | hx
      · exact .inl (by rw [hx, Bool.true_or])
      · exact .inl (by rw [hx, Bool.or_true, Bool.or_true])
    · rcases List.mem_cons.1 hy with rfl | hy
      · refine .inl ?_
        rw [hsame.1, hsame.2, beq_self_eq_true, Bool.true_or, Bool.or_true]
      · exact .inr ⟨y, hy, hsame, hc⟩
  · rintro (hx | ⟨y, hy, hsame⟩)
    · by_cases hk : ((b.transfer x).account, (b.transfer x).lot)
          = ((b.transfer x₀).account, (b.transfer x₀).lot)
      · obtain ⟨haccount, hlot⟩ := Prod.mk.inj hk
        exact .inr ⟨x₀, List.mem_cons_self, ⟨haccount.symm, hlot.symm⟩, h⟩
      · rw [beq_eq_false_iff_ne.2 hk, Bool.false_or] at hx
        exact .inl hx
    · exact .inr ⟨y, List.mem_cons_of_mem _ hy, hsame⟩

/-- The check of lots is passed just when each transfer of the row finds its lot. -/
theorem requireLotsFrom_eq_ok_iff {created : List (AccountId × String)} {ids : List TransferId} :
    Transaction.requireLotsFrom b created (ids.map b.transfer) = .ok ()
      ↔ ∀ before x after, ids = before ++ x :: after → b.FindsLot created before x := by
  -- the lots created so far grow on the way
  induction ids generalizing created with
  | nil =>
      refine iff_of_true rfl fun before x after h => ?_
      exact absurd h.symm (List.append_ne_nil_of_right_ne_nil _ nofun)
  | cons x₀ ids ih =>
      rw [List.map_cons, Transaction.requireLotsFrom_cons, forall_split_cons]
      split
      · next hfound =>
          rw [ih]
          simp only [findsLot_cons_of_found hfound]
          exact (and_iff_right (.inl hfound)).symm
      split
      · next hcreates =>
          rw [ih]
          simp only [findsLot_cons_of_creates hcreates]
          exact (and_iff_right (.inr ⟨x₀, List.mem_singleton_self _, ⟨rfl, rfl⟩, hcreates⟩)).symm
      · next hmissing hcreates =>
          refine iff_of_false (fun h => by cases h) ?_
          rintro ⟨hx | ⟨y, hy, -, hc⟩, -⟩
          · exact hmissing hx
          · obtain rfl := List.mem_singleton.1 hy
            exact hcreates hc

/-- The check of lots is passed just when no transfer is stranded. -/
theorem requireLots_eq_ok_iff {ids : List TransferId} :
    Transaction.requireLots b (ids.map b.transfer) = .ok ()
      ↔ ¬b.Stranded (fun y => (b.transfer y).createsLot = true) ids := by
  simp only [Transaction.requireLots]
  rw [requireLotsFrom_eq_ok_iff]
  constructor
  · rintro h ⟨before, x, after, hids, hmissing, hnone⟩
    rcases h before x after hids with hx | ⟨y, hy, hsame, hc⟩
    · rw [show b.hasLot (b.transfer x).account (b.transfer x).lot = false from hmissing] at hx
      cases hx
    · exact hnone y hy hsame hc
  · intro h before x after hids
    refine Decidable.or_iff_not_imp_left.2 fun hx => ?_
    refine Classical.byContradiction fun hnone => h ⟨before, x, after, hids, ?_, ?_⟩
    · simpa [LacksLot] using hx
    · exact fun y hy hsame hc => hnone ⟨y, hy, hsame, hc⟩

/-- The ground for refusing a transfer whose lot does not exist. -/
def noLot (b : Book) (t : Transfer) : Ground := .unknownLot (.ofLot (b.account t.account).name t.lot)

/-- What is amiss with the lots of transfers is that one of them does not exist. -/
theorem requireLotsFrom_error {created : List (AccountId × String)} {ts : List Transfer}
    (h : Transaction.requireLotsFrom b created ts ≠ .ok ()) :
    ∃ t ∈ ts, b.hasLot t.account t.lot = false
      ∧ Transaction.requireLotsFrom b created ts = .error (.refused (b.noLot t)) := by
  induction ts generalizing created with
  | nil => exact absurd rfl h
  | cons t ts ih =>
      rw [Transaction.requireLotsFrom_cons] at h ⊢
      split
      · next hfound =>
          rw [if_pos hfound] at h
          obtain ⟨t', ht', hmissing, herror⟩ := ih h
          exact ⟨t', List.mem_cons_of_mem _ ht', hmissing, herror⟩
      · next hmissing =>
          rw [if_neg hmissing] at h
          split
          · next hcreates =>
              rw [if_pos hcreates] at h
              obtain ⟨t', ht', hmissing, herror⟩ := ih h
              exact ⟨t', List.mem_cons_of_mem _ ht', hmissing, herror⟩
          · refine ⟨t, List.mem_cons_self, ?_, rfl⟩
            simp only [Bool.or_eq_true, not_or] at hmissing
            exact eq_false_of_ne_true hmissing.1

/-! ### Lots that are created -/

/-- Of the lots that are there after a transaction, those that were not there before are lots of its
transfers that may create them. -/
theorem hasLot_apply {x : Transaction} {r : Except Fault Unit} (h : x.apply.on b = (r, b'))
    {id : AccountId} {lot : String} (hlot : b'.hasLot id lot = true) :
    b.hasLot id lot = true ∨ ∃ y ∈ x.transfers, (b.transfer y).account = id
      ∧ (b.transfer y).lot = lot ∧ (b.transfer y).createsLot = true := by
  let P (c : Book) : Prop := c.accounts.length = b.accounts.length
    ∧ (c.hasLot id lot = true → b.hasLot id lot = true ∨ ∃ y ∈ x.transfers,
        (b.transfer y).account = id ∧ (b.transfer y).lot = lot ∧ (b.transfer y).createsLot = true)
  have hP : P b' := by
    refine Transaction.apply_induction (P := P) ?_ (fun _ _ hc => hc) h ⟨rfl, .inl⟩
    rintro hcheck c c' t ht hpost ⟨hlength, hc⟩
    obtain ⟨hfound, holding, -, rfl⟩ := post_eq_ok_iff.1 hpost
    refine ⟨(length_accounts_posted _ _ _).trans hlength, fun hlot => ?_⟩
    rw [hasLot_posted (hlength ▸ Transaction.account_lt_of_check hcheck t ht)] at hlot
    rcases Bool.or_eq_true _ _ ▸ hlot with hlot | hlot
    · exact hc hlot
    · obtain ⟨rfl, rfl⟩ : id = t.account ∧ lot = t.lot := by simpa using hlot
      -- the posting found its lot, or was one that may create it
      rcases Bool.or_eq_true _ _ ▸ hfound with hfound | hcreates
      · exact hc hfound
      · obtain ⟨y, hy, rfl⟩ := List.mem_map.1 ht
        exact .inr ⟨y, hy, rfl, rfl, hcreates⟩
  exact hP.2 hlot

end Book

/-- **A lot is created on behalf of a transfer that may create it**, and that a transaction takes off the
stack. -/
theorem Deed.creates {d d' : Desk Book} (h : Deed d d') {id : AccountId} {lot : String}
    (hlot : d'.context.hasLot id lot = true) :
    d.context.hasLot id lot = true ∨ ∃ x ∈ d.operands.ready, (d.context.transfer x).account = id
      ∧ (d.context.transfer x).lot = lot ∧ (d.context.transfer x).createsLot = true := by
  have hsame : d'.context.lots = d.context.lots → d.context.hasLot id lot = true := fun h =>
    Book.hasLot_congr h id lot ▸ hlot
  cases h with
  | taken => exact .inl hlot
  | advanced _ _ hb => exact .inl (hsame (Book.lots_advance hb))
  | registered _ hb => exact .inl (hsame (Book.quiet_register hb).lots_eq)
  | opened _ _ _ hb => exact .inl (hsame (Book.lots_openAccount hb))
  | closed => exact .inl (hsame (Book.lots_closeAccount _ _))
  | lotClosed _ hid =>
      refine .inl ?_
      rw [Book.hasLot_eq, Table.contains, Book.get?_lots_closeLot (Book.lt_of_findOpen hid)] at hlot
      split at hlot
      · cases hlot
      · exact hlot
  | annotated notes =>
      exact .inl (hsame (Book.Quiet.foldl (fun b _ => b.quiet_annotate _ _ _) notes _).lots_eq)
  | tagged tags => exact .inl (hsame (Book.Quiet.foldl (fun b tag => b.quiet_tag _ tag) tags _).lots_eq)
  | untagged tags =>
      exact .inl (hsame (Book.Quiet.foldl (fun b tag => b.quiet_untag _ tag) tags _).lots_eq)
  | drafted => exact .inl (hsame (Book.lots_draft _ _))
  | bound => exact .inl (hsame (Book.quiet_bindLot _ _ _).lots_eq)
  | boundNew =>
      exact .inl (hsame ((Book.quiet_bindLot _ _ _).trans (Book.quiet_letCreate _ _)).lots_eq)
  | commented => exact .inl (hsame (Book.quiet_setComment _ _ _).lots_eq)
  | applied hops hx hb =>
      rw [Operands.ready_of_ok hops, ← Words.transfers_draftTransaction hx]
      exact Book.hasLot_apply hb hlot
  | brokenOff hops hx hb =>
      rw [Operands.ready_of_ok hops, ← Words.transfers_draftTransaction hx]
      exact Book.hasLot_apply hb hlot

/-- No token creates a lot, unless a transaction does so on behalf of a transfer that may create it. -/
theorem Machine.step_creates (m : Machine Book) (t : Token) {id : AccountId} {lot : String}
    (hlot : (m.step .core t).2.context.hasLot id lot = true) :
    m.context.hasLot id lot = true ∨ ∃ x ∈ m.visible.ready, (m.context.transfer x).account = id
      ∧ (m.context.transfer x).lot = lot ∧ (m.context.transfer x).createsLot = true := by
  rcases m.step_deed t with ⟨d, hd, hstep⟩ | ⟨hcontext, -⟩
  · rw [hstep] at hlot
    exact hd.creates hlot
  · exact .inl (hcontext ▸ hlot)

/-! ### Transactions that are refused for a lot -/

namespace Words

open Act

variable (called : String) {d : Desk Book} {o : TransactionOperands} {rest : Operands} {x : Transaction}

/-- A transaction that has been drafted is applied. -/
theorem transact_eq (htake : takeTransaction d.operands = .ok (o, rest))
    (hdraft : draftTransaction d.context o = .ok x) :
    transact called d =
      match x.apply.on d.context with
      | (.ok _, b) => (.ok .proceed, ⟨rest, b⟩)
      | (.error fault, b) => (.error (fault.toFailure (some called)), ⟨rest, b⟩) := by
  simp only [transact, Word.ofAct, perform, applyTransaction]
  rw [htake]
  simp only [on_bind, on_judge]
  rw [hdraft]
  dsimp only
  obtain ⟨r, b⟩ := x.apply.on d.context
  cases r <;> rfl

/-- A transaction that balances and whose accounts are open is refused for a lot just when a transfer is
stranded.  The book stays as it is. -/
theorem transact_noLot_iff (htake : takeTransaction d.operands = .ok (o, rest))
    (hdraft : draftTransaction d.context o = .ok x)
    (haccounts : Transaction.requireOpenAccounts d.context (o.transfers.map d.context.transfer) = .ok ()) :
    (∃ y ∈ o.transfers, d.context.LacksLot y ∧ transact called d = (.error (.failed (.refused
        ⟨some called, d.context.noLot (d.context.transfer y)⟩)), ⟨rest, d.context⟩))
      ↔ d.context.Stranded (fun y => (d.context.transfer y).createsLot = true) o.transfers := by
  have htransfers : x.transfers = o.transfers := transfers_draftTransaction hdraft
  obtain ⟨-, -, -, -, hbalance, -⟩ := draftTransaction_eq_ok_iff.1 hdraft
  have hcheck : Transaction.check d.context (x.transfers.map d.context.transfer)
      = Transaction.requireLots d.context (o.transfers.map d.context.transfer) := by
    simp only [Transaction.check]
    rw [htransfers, hbalance, haccounts]
    rfl
  rw [transact_eq called htake hdraft]
  constructor
  · rintro ⟨y, -, -, h⟩
    cases happly : x.apply.on d.context with
    | mk r b =>
        rw [happly] at h
        cases r with
        | ok => cases h
        | error fault =>
            cases fault with
            | exceeded e => cases h
            | refused ground =>
                rcases Transaction.apply_error_iff.1 happly with ⟨herror, -⟩ | ⟨hpassed, hp⟩
                · -- the check of lots is the only one that is left
                  refine Classical.not_not.1 fun hfound => ?_
                  rw [hcheck, Book.requireLots_eq_ok_iff.2 hfound] at herror
                  cases herror
                · exact absurd hp (Transaction.postAll_not_refused
                    (Transaction.account_lt_of_check hpassed) (Transaction.check_eq_ok_iff.1 hpassed).2.2)
  · intro hstranded
    obtain ⟨t, ht, hmissing, herror⟩ := Book.requireLotsFrom_error
      (mt Book.requireLots_eq_ok_iff.1 (not_not.2 hstranded))
    obtain ⟨y, hy, rfl⟩ := List.mem_map.1 ht
    refine ⟨y, hy, hmissing, ?_⟩
    rw [Transaction.apply_error_iff.2 (.inl ⟨hcheck.trans herror, rfl⟩)]
    rfl

end Words

/-! ### Lots in every run -/

namespace Machine

/-- At a machine, it is for some of the transfers to create lots, and not for the others. -/
structure CreatedBy (m : Machine Book) (creates : TransferId → Prop) : Prop where
  /-- A lot that a token brings into being is that of such a transfer, which is on top of the stack. -/
  created : ∀ t id lot, m.context.hasLot id lot = false →
    (m.step .core t).2.context.hasLot id lot = true →
    ∃ x ∈ m.visible.ready, (m.context.transfer x).account = id ∧ (m.context.transfer x).lot = lot
      ∧ creates x
  /-- A transaction that balances and whose accounts are open is refused for a lot just when a transfer
  finds its lot missing, and neither it nor one before it is such a transfer.  The book stays as it is. -/
  refused : ∀ o rest x, m.silenced = false → Words.takeTransaction m.visible = .ok (o, rest) →
    Words.draftTransaction m.context o = .ok x →
    Transaction.requireOpenAccounts m.context (o.transfers.map m.context.transfer) = .ok () →
    ((∃ y ∈ o.transfers, m.context.LacksLot y ∧ m.step .core (.word "xact") = (.error (.failed (.refused
        ⟨some "xact", m.context.noLot (m.context.transfer y)⟩)), m.withDesk ⟨rest, m.context⟩))
      ↔ m.context.Stranded creates o.transfers)

/-- It is for the transfers with the mark that `create-lot` sets. -/
theorem createdBy_createsLot (m : Machine Book) :
    m.CreatedBy fun y => (m.context.transfer y).createsLot = true where
  created t id lot hmissing hlot := by
    rcases m.step_creates t hlot with h | h
    · rw [hmissing] at h
      cases h
    · exact h
  refused o rest x hsilent htake hdraft haccounts := by
    have hcalls : m.Calls (.word "xact") "xact" Words.transact := ⟨rfl, hsilent, rfl⟩
    refine Iff.trans ?_ (Words.transact_noLot_iff "xact" (d := m.desk) htake hdraft haccounts)
    rw [hcalls.step_eq]
    refine exists_congr fun y => and_congr_right fun _ => and_congr_right fun _ => ?_
    constructor
    · intro h
      obtain ⟨hr, hd⟩ := Prod.mk.inj h
      exact Prod.ext hr (congrArg Machine.desk hd)
    · intro h
      rw [h]
      rfl

theorem CreatedBy.congr {m : Machine Book} {creates creates' : TransferId → Prop}
    (h : m.CreatedBy creates)
    (hsame : ∀ y ∈ m.visible.ready, m.context.LacksLot y → (creates y ↔ creates' y)) :
    m.CreatedBy creates' where
  created t id lot hmissing hlot := by
    obtain ⟨x, hx, rfl, rfl, hcreates⟩ := h.created t id lot hmissing hlot
    exact ⟨x, hx, rfl, rfl, (hsame x hx hmissing).1 hcreates⟩
  refused o rest x hsilent htake hdraft haccounts := by
    rw [h.refused o rest x hsilent htake hdraft haccounts]
    exact Book.Stranded.congr (Operands.ready_of_ok htake ▸ hsame)

end Machine

namespace Book

/-- **In every run the lot of a draft is that of its last binding, and it is for the transfers that were
bound by `create-lot` at some time to create lots.**  They are those whose last binding was made by
`create-lot`, where none of the transfers that a transaction takes was bound by `lot` after `create-lot` to
a lot that is gone. -/
theorem lots_created (ts : List Token) :
    (∀ id, ((after ts).transfer id).lot
        = ((Binding.last id (bindings ts)).map Binding.lot).getD defaultLot)
      ∧ (Machine.after ts).CreatedBy (Binding.EverFresh (bindings ts))
      ∧ ((∀ y ∈ (Machine.after ts).visible.ready, (after ts).LacksLot y →
            Binding.EverFresh (bindings ts) y → Binding.LastFresh (bindings ts) y) →
          (Machine.after ts).CreatedBy (Binding.LastFresh (bindings ts))) := by
  have hbound := bound_after ts
  have hever : (Machine.after ts).CreatedBy (Binding.EverFresh (bindings ts)) :=
    (Machine.after ts).createdBy_createsLot.congr fun y _ _ => hbound.creates y
  refine ⟨hbound.lot, hever, fun hlast => hever.congr fun y hy hmissing => ?_⟩
  exact ⟨hlast y hy hmissing, Binding.LastFresh.everFresh⟩

/-- A run that leaves a transaction whose first transfer was bound to a lot that has been closed since. -/
def lapsed : List Token :=
  ["U", "d", "commodity", "Assets:A", "open", "Equity", "open",
    "x", "y", "Assets:A", "0", "U", "xfer", "L", "create-lot", "Equity", "0", "U", "xfer", "xact",
    "x", "y", "Assets:A", "1", "U", "xfer", "L", "lot", "Assets:A", "L", "close-lot",
    "Equity", "-1", "U", "xfer"].map .word

/-- The same run, but the first transfer was bound by `create-lot` to another lot before. -/
def revived : List Token :=
  ["U", "d", "commodity", "Assets:A", "open", "Equity", "open",
    "x", "y", "Assets:A", "0", "U", "xfer", "L", "create-lot", "Equity", "0", "U", "xfer", "xact",
    "x", "y", "Assets:A", "1", "U", "xfer", "M", "create-lot", "L", "lot", "Assets:A", "L", "close-lot",
    "Equity", "-1", "U", "xfer"].map .word

/-- The transaction is refused, since it is not for the first transfer to create its lot again. -/
theorem lots_created_lapsed :
    (Machine.after lapsed).CreatedBy (Binding.LastFresh (bindings lapsed))
      ∧ (Machine.after lapsed).step .core (.word "xact")
        = (.error (.failed (.refused ⟨some "xact", .unknownLot (.ofLot "Assets:A" "L")⟩)),
          (Machine.after lapsed).withDesk ⟨[], after lapsed⟩) := by
  have hvisible : (Machine.after lapsed).visible
      = [.transfer 3, .transfer 2, .text "y", .text "x"] := by decide +kernel
  have htake : Words.takeTransaction (Machine.after lapsed).visible
      = .ok (⟨.text "x", .text "y", [2, 3], []⟩, []) := by
    rw [hvisible]
    rfl
  have hbindings : bindings lapsed = [.fresh 0 "L", .existing 2 "L"] := by decide +kernel
  have hnever : ∀ y ∈ [2, 3], ¬Binding.EverFresh (bindings lapsed) y := by
    rw [hbindings]
    rintro y hy ⟨lot, hfresh⟩
    rcases List.mem_pair.1 hy with rfl | rfl
    · simp at hfresh
    · simp at hfresh
  have hready : (Machine.after lapsed).visible.ready = [2, 3] := Operands.ready_of_ok htake
  have hlaw := (lots_created lapsed).2.2 fun y hy _ hfresh => absurd hfresh (hnever y (hready ▸ hy))
  refine ⟨hlaw, ?_⟩
  -- the first transfer is stranded, and the lot of the other is there
  have hmissing : (after lapsed).LacksLot 2 := by decide +kernel
  have hfound : ¬(after lapsed).LacksLot 3 := by decide +kernel
  have hground : (after lapsed).noLot ((after lapsed).transfer 2)
      = .unknownLot (.ofLot "Assets:A" "L") := by decide +kernel
  have hbalance : Transaction.requireBalance (after lapsed) ([2, 3].map (after lapsed).transfer)
      = .ok () := by decide +kernel
  have haccounts : Transaction.requireOpenAccounts (after lapsed) ([2, 3].map (after lapsed).transfer)
      = .ok () := by decide +kernel
  have hstranded : (after lapsed).Stranded (Binding.LastFresh (bindings lapsed)) [2, 3] := by
    refine ⟨[], 2, [3], rfl, hmissing, fun y hy _ hlast => ?_⟩
    obtain rfl := List.mem_singleton.1 hy
    exact hnever 2 List.mem_cons_self hlast.everFresh
  obtain ⟨y, hy, hy', hstep⟩ := (hlaw.refused _ _ _ (by decide +kernel) htake
    (Words.draftTransaction_eq_ok_iff.2 ⟨"x", "y", rfl, rfl, hbalance, rfl⟩) haccounts).2 hstranded
  rcases List.mem_pair.1 hy with rfl | rfl
  · rw [hstep, ← hground]
    rfl
  · exact absurd hy' hfound

/-- **Here the last bindings do not tell**: the transaction goes through and creates the lot, though the
first transfer was bound to it by `lot` and the other was not bound. -/
theorem lots_created_revived :
    bindings revived = [.fresh 0 "L", .fresh 2 "M", .existing 2 "L"]
      ∧ (after revived).hasLot 0 "L" = false
      ∧ ((Machine.after revived).step .core (.word "xact")).1 = .ok .proceed
      ∧ ((Machine.after revived).step .core (.word "xact")).2.context.hasLot 0 "L" = true
      ∧ ¬(Machine.after revived).CreatedBy (Binding.LastFresh (bindings revived)) := by
  have hbindings : bindings revived = [.fresh 0 "L", .fresh 2 "M", .existing 2 "L"] := by decide +kernel
  have hmissing : (after revived).hasLot 0 "L" = false := by decide +kernel
  have hcreated : ((Machine.after revived).step .core (.word "xact")).2.context.hasLot 0 "L" = true := by
    decide +kernel
  have hready : (Machine.after revived).visible.ready = [2, 3] := by decide +kernel
  refine ⟨hbindings, hmissing, by decide +kernel, hcreated, fun h => ?_⟩
  obtain ⟨x, hx, -, -, lot, hlast⟩ := h.created (.word "xact") 0 "L" hmissing hcreated
  rw [hbindings] at hlast
  rw [hready] at hx
  rcases List.mem_pair.1 hx with rfl | rfl
  · cases hlast
  · cases hlast

end Book

end Daybook
