import Daybook.Proofs.Lots
import Mathlib.Data.List.DropRight

/-!
# Replay — lots as the replay of a log

A log lists the postings of transfers and the closings of lots, the first first.  What happened to a lot
before it was closed for the last time no longer counts.  Since then the lot has come into being with a
transfer that may create it, and holds of each commodity what the transfers have brought into it: the
first amount as it stands, and the later ones added to it in their order.

* `Entry.postingsInto`: the postings into a lot that count.
* `Replays`: the lots of a book are the replay of a log.
* `Replays.post`, `Replays.closeLot`, `Replays.apply`: **postings and closings are replayed by their
  entries**.
-/

namespace Daybook

/-- What is done to lots: a transfer is posted on a date, or a lot is closed. -/
inductive Entry where
  | posting (transfer : Transfer) (date : Date)
  | closing (account : AccountId) (lot : String)
  deriving DecidableEq, Repr

namespace Entry

/-- The entries since a lot was closed for the last time. -/
def since (id : AccountId) (lot : String) (log : List Entry) : List Entry :=
  log.rtakeWhile (· ≠ .closing id lot)

/-- The transfer and the date of a posting into a lot. -/
def into? (id : AccountId) (lot : String) : Entry → Option (Transfer × Date)
  | .posting t date => if id = t.account ∧ lot = t.lot then some (t, date) else none
  | .closing _ _ => none

/-- The postings into a lot since it was closed for the last time, the first first. -/
def postingsInto (id : AccountId) (lot : String) (log : List Entry) : List (Transfer × Date) :=
  (since id lot log).filterMap (into? id lot)

/-- Those of a commodity. -/
def postingsOf (id : AccountId) (lot c : String) (log : List Entry) : List (Transfer × Date) :=
  (postingsInto id lot log).filter (c = ·.1.quantity.commodity)

variable {id : AccountId} {lot : String} {log : List Entry}

theorem postingsInto_posting (t : Transfer) (date : Date) :
    postingsInto id lot (log ++ [.posting t date])
      = if id = t.account ∧ lot = t.lot then postingsInto id lot log ++ [(t, date)]
        else postingsInto id lot log := by
  simp only [postingsInto, since]
  rw [List.rtakeWhile_concat_pos _ _ _ (by simp), List.filterMap_append]
  by_cases h : id = t.account ∧ lot = t.lot
  · rw [if_pos h, List.filterMap_cons_some (by rw [into?, if_pos h]), List.filterMap_nil]
  · rw [if_neg h, List.filterMap_cons_none (by rw [into?, if_neg h]), List.filterMap_nil,
      List.append_nil]

theorem postingsInto_closing (i : AccountId) (l : String) :
    postingsInto id lot (log ++ [.closing i l])
      = if id = i ∧ lot = l then [] else postingsInto id lot log := by
  simp only [postingsInto, since]
  by_cases h : id = i ∧ lot = l
  · rw [if_pos h, h.1, h.2, List.rtakeWhile_concat_neg _ _ _ (by simp), List.filterMap_nil]
  · have hne : Entry.closing i l ≠ .closing id lot := by
      intro he
      cases he
      exact h ⟨rfl, rfl⟩
    rw [if_neg h, List.rtakeWhile_concat_pos _ _ _ (by exact decide_eq_true hne), List.filterMap_append,
      List.filterMap_cons_none rfl, List.filterMap_nil, List.append_nil]

theorem postingsOf_posting (c : String) (t : Transfer) (date : Date) :
    postingsOf id lot c (log ++ [.posting t date])
      = if id = t.account ∧ lot = t.lot ∧ c = t.quantity.commodity then
          postingsOf id lot c log ++ [(t, date)]
        else postingsOf id lot c log := by
  simp only [postingsOf]
  rw [postingsInto_posting]
  by_cases h : id = t.account ∧ lot = t.lot
  · rw [if_pos h, List.filter_append]
    by_cases hc : c = t.quantity.commodity
    · rw [if_pos ⟨h.1, h.2, hc⟩]
      simp [hc]
    · rw [if_neg fun h' => hc h'.2.2]
      simp [hc]
  · rw [if_neg h, if_neg fun h' => h ⟨h'.1, h'.2.1⟩]

theorem postingsOf_closing (c : String) (i : AccountId) (l : String) :
    postingsOf id lot c (log ++ [.closing i l])
      = if id = i ∧ lot = l then [] else postingsOf id lot c log := by
  simp only [postingsOf]
  rw [postingsInto_closing]
  split <;> rfl

end Entry

/-! ### What postings make of a holding -/

/-- What a lot holds of a commodity after postings: nothing before the first, whose date and rate are kept;
and the amount of the first as it stands, to which the later amounts are added in their order. -/
def Replayed (lot c : String) : List (Transfer × Date) → Option Holding → Prop
  | [], held => held = none
  | (t, date) :: later, held =>
    ∃ amount, (later.map (·.1.quantity.amount)).foldlM Decimal.add t.quantity.amount = some amount
      ∧ held = some ⟨lot, date, ⟨amount, c⟩, t.rate⟩

/-- One more posting is received by what is held. -/
theorem Replayed.receive {b : Book} {t : Transfer} {postings : List (Transfer × Date)}
    {held : Option Holding} {h : Holding} (hr : Replayed t.lot t.quantity.commodity postings held)
    (e : b.receive t held = .ok h) :
    Replayed t.lot t.quantity.commodity (postings ++ [(t, b.date)]) (some h) := by
  cases postings with
  | nil =>
      obtain rfl : held = none := hr
      cases e
      exact ⟨t.quantity.amount, rfl, rfl⟩
  | cons first later =>
      obtain ⟨amount, hsum, rfl⟩ := hr
      simp only [Book.receive, Holding.add] at e
      cases hadd : amount.add t.quantity.amount with
      | none => rw [hadd] at e; cases e
      | some total =>
          rw [hadd] at e
          cases e
          refine ⟨total, ?_, rfl⟩
          show ((later ++ [(t, b.date)]).map _).foldlM Decimal.add _ = _
          rw [List.map_append, List.foldlM_append, hsum]
          simp [hadd]

/-! ### Books and logs -/

open Entry

/-- The lots of a book are the replay of a log: a lot is there if it is the default lot or a posting that
counts created it, and it holds what the postings make of it. -/
structure Replays (log : List Entry) (b : Book) : Prop where
  lots : ∀ id lot, b.hasLot id lot = true
    ↔ lot = defaultLot ∨ ∃ p ∈ postingsInto id lot log, p.1.createsLot = true
  holdings : ∀ id lot c, Replayed lot c (postingsOf id lot c log) (b.held id lot c)

namespace Replays

variable {log : List Entry} {b b' : Book}

/-- A book without accounts has the default lots of accounts to come. -/
theorem empty : Replays [] .empty := by
  have hlots : ∀ id, Book.empty.lots id = Table.insert ∅ defaultLot ∅ := fun id =>
    Table.single_eq_insert defaultLot ∅
  refine ⟨fun id lot => ?_, fun id lot c => ?_⟩
  · have hnone : (∅ : Table Lot).contains lot = false := rfl
    rw [Book.hasLot_eq, hlots, Table.contains_insert, hnone]
    simp [postingsInto, since]
  · show Book.held .empty id lot c = none
    rw [Book.held_eq, hlots, Table.get?_insert]
    split <;> rfl

theorem congr (h : Replays log b) (hb : b'.lots = b.lots) : Replays log b' := by
  refine ⟨fun id lot => ?_, fun id lot c => ?_⟩
  · rw [Book.hasLot_eq, hb, ← Book.hasLot_eq]
    exact h.lots id lot
  · rw [Book.held_eq, hb, ← Book.held_eq]
    exact h.holdings id lot c

/-- A posting is replayed by its entry. -/
theorem post (h : Replays log b) {t : Transfer} (ht : t.account < b.accounts.length)
    (hb : b.post t = .ok b') : Replays (log ++ [.posting t b.date]) b' := by
  obtain ⟨hlot, holding, hreceive, rfl⟩ := Book.post_eq_ok_iff.1 hb
  refine ⟨fun id lot => ?_, fun id lot c => ?_⟩
  · rw [Book.hasLot_posted ht, postingsInto_posting]
    by_cases hk : id = t.account ∧ lot = t.lot
    · -- the lot was there already, or this transfer has created it
      rw [if_pos hk]
      obtain ⟨rfl, rfl⟩ := hk
      refine iff_of_true (by simp) ?_
      rcases Bool.or_eq_true_iff.1 hlot with hhas | hcreates
      · rcases (h.lots _ _).1 hhas with hdefault | ⟨p, hp, hcreated⟩
        · exact .inl hdefault
        · exact .inr ⟨p, List.mem_append_left _ hp, hcreated⟩
      · exact .inr ⟨_, List.mem_append_right _ (List.mem_singleton.2 rfl), hcreates⟩
    · rw [if_neg hk, ← h.lots id lot]
      have hother : (id == t.account && lot == t.lot) = false := by simpa using hk
      rw [hother, Bool.or_false]
  · rw [Book.held_posted ht, postingsOf_posting]
    by_cases hk : id = t.account ∧ lot = t.lot ∧ c = t.quantity.commodity
    · rw [if_pos hk, if_pos hk]
      obtain ⟨rfl, rfl, rfl⟩ := hk
      exact (h.holdings _ _ _).receive hreceive
    · rw [if_neg hk, if_neg hk]
      exact h.holdings id lot c

/-- The closing of a lot is replayed by its entry. -/
theorem closeLot (h : Replays log b) {id : AccountId} {lot : String} (hid : id < b.accounts.length)
    (hlot : lot ≠ defaultLot) : Replays (log ++ [.closing id lot]) (b.closeLot id lot) := by
  refine ⟨fun i l => ?_, fun i l c => ?_⟩
  · rw [Book.hasLot_eq, Table.contains, Book.get?_lots_closeLot hid, postingsInto_closing]
    by_cases hk : i = id ∧ l = lot
    · rw [if_pos hk, if_pos hk]
      refine iff_of_false (by simp) ?_
      rintro (hdefault | ⟨p, hp, -⟩)
      · exact hlot (hk.2 ▸ hdefault)
      · exact absurd hp List.not_mem_nil
    · rw [if_neg hk, if_neg hk]
      exact h.lots i l
  · rw [Book.held_eq, Book.get?_lots_closeLot hid, postingsOf_closing]
    by_cases hk : i = id ∧ l = lot
    · rw [if_pos hk, if_pos hk]
      rfl
    · rw [if_neg hk, if_neg hk]
      exact h.holdings i l c

/-- Postings are replayed by their entries. -/
theorem postAll (h : Replays log b) {ts : List Transfer} (hts : ∀ t ∈ ts, t.account < b.accounts.length)
    (hb : (Transaction.postAll ts).on b = (.ok (), b')) :
    Replays (log ++ ts.map (.posting · b.date)) b' := by
  induction ts generalizing log b with
  | nil =>
      cases hb
      rw [List.map_nil, List.append_nil]
      exact h
  | cons t ts ih =>
      obtain ⟨ht, hts⟩ := List.forall_mem_cons.1 hts
      obtain ⟨b₁, hpost, hb⟩ := Transaction.postAll_cons_ok_iff.1 hb
      have hposted := h.post ht hpost
      -- a posting leaves the clock and the number of the accounts alone
      obtain ⟨-, holding, -, rfl⟩ := Book.post_eq_ok_iff.1 hpost
      have hrest := ih hposted ((Book.length_accounts_posted b t holding).symm ▸ hts) hb
      rw [List.append_assoc] at hrest
      exact hrest

/-- A transaction that is applied is replayed by the postings of its transfers. -/
theorem apply (h : Replays log b) {x : Transaction} (hx : x.apply.on b = (.ok (), b')) :
    Replays (log ++ (x.transfers.map b.transfer).map (.posting · b.date)) b' := by
  obtain ⟨hcheck, b₁, hb, rfl⟩ := Transaction.apply_eq_ok_iff.1 hx
  exact (h.postAll (Transaction.account_lt_of_check hcheck) hb).congr rfl

end Replays

end Daybook
