import Daybook.Proofs.Decimal.Running
import Daybook.Proofs.Posting

/-!
# Worth — what accounts hold of a commodity

The worth of an account in a commodity is the exact sum of the balances that its lots hold of it.

* `Table.sum_insert`, `Table.sum_erase`: what keeping and giving up a value does to a sum over a table.
* `worth_keep`, `worth_erase`: what a posting and the closing of a lot do to the worth of an account.
* `worth_of_empty`: an account that holds nothing but zeros is worth nothing.
* `worth_of_default_only`: an account that holds a commodity in the default lot alone.
* `totalWorth_posted`: **a posting adds to the worth of all accounts what it adds to its lot**.
-/

namespace Daybook

/-! ### Sums over tables -/

namespace Entries

variable {α : Type}

theorem replace_of_notMem {name : String} {es : List (String × α)} (h : name ∉ es.map (·.1)) (a : α) :
    replace name a es = es := by
  simp only [replace]
  refine (List.map_congr_left fun e he => if_neg fun hn => h ?_).trans (List.map_id es)
  exact hn ▸ List.mem_map_of_mem he

theorem without_of_notMem {name : String} {es : List (String × α)} (h : name ∉ es.map (·.1)) :
    without name es = es := by
  refine List.filter_eq_self.2 fun e he => decide_eq_true fun hn => h ?_
  exact hn ▸ List.mem_map_of_mem he

theorem sum_replace (f : α → ℚ) {name : String} {a old : α} {es : List (String × α)}
    (hn : (es.map (·.1)).Nodup) (h : es.lookup name = some old) :
    ((replace name a es).map (f ·.2)).sum = (es.map (f ·.2)).sum + f a - f old := by
  induction es with
  | nil => cases h
  | cons e es ih =>
      rw [List.map_cons, List.nodup_cons] at hn
      rw [lookup_cons_eq] at h
      simp only [replace] at ih ⊢
      rw [List.map_cons, List.map_cons, List.sum_cons, List.map_cons, List.sum_cons]
      by_cases he : name = e.1
      · -- the name stands here and nowhere else
        rw [if_pos he] at h
        cases h
        have hrest := replace_of_notMem (he ▸ hn.1) a
        simp only [replace] at hrest
        rw [if_pos he.symm, hrest]
        ring
      · rw [if_neg he] at h
        rw [if_neg (fun e' => he e'.symm), ih hn.2 h]
        ring

theorem sum_without (f : α → ℚ) (name : String) {es : List (String × α)}
    (hn : (es.map (·.1)).Nodup) :
    ((without name es).map (f ·.2)).sum
      = (es.map (f ·.2)).sum - ((es.lookup name).map f).getD 0 := by
  induction es with
  | nil => simp [without]
  | cons e es ih =>
      rw [List.map_cons, List.nodup_cons] at hn
      rw [lookup_cons_eq, List.map_cons, List.sum_cons]
      by_cases he : name = e.1
      · have hrest := without_of_notMem (he ▸ hn.1)
        simp only [without] at hrest ⊢
        rw [if_pos he, List.filter_cons_of_neg (by simpa using he.symm), hrest]
        simp
      · have hrest := ih hn.2
        simp only [without] at hrest ⊢
        rw [if_neg he, List.filter_cons_of_pos (by simpa using fun e' => he e'.symm), List.map_cons,
          List.sum_cons, hrest]
        ring

/-- An entry is found under its name. -/
theorem lookup_of_mem {es : List (String × α)} (hn : (es.map (·.1)).Nodup) {name : String} {a : α}
    (h : (name, a) ∈ es) : es.lookup name = some a := by
  induction es with
  | nil => cases h
  | cons e es ih =>
      rw [List.map_cons, List.nodup_cons] at hn
      rw [lookup_cons_eq]
      rcases List.mem_cons.1 h with rfl | h
      · rw [if_pos rfl]
      · have hne : name ≠ e.1 := fun he => hn.1 (he ▸ List.mem_map_of_mem h)
        rw [if_neg hne, ih hn.2 h]

end Entries

namespace Table

variable {α : Type}

/-- A value that is kept counts in the place of the one before. -/
theorem sum_insert (f : α → ℚ) (t : Table α) (name : String) (a : α) :
    ((t.insert name a).values.map f).sum
      = (t.values.map f).sum + f a - ((t.get? name).map f).getD 0 := by
  simp only [values]
  rw [List.map_map, List.map_map]
  simp only [insert]
  split
  · next h =>
      obtain ⟨old, hold⟩ := Option.isSome_iff_exists.1 h
      rw [hold]
      exact Entries.sum_replace f t.nodup hold
  · next h =>
      have hnone : t.get? name = none := Option.not_isSome_iff_eq_none.1 h
      rw [hnone, List.map_append, List.sum_append]
      simp

/-- A value that is given up counts no longer. -/
theorem sum_erase (f : α → ℚ) (t : Table α) (name : String) :
    ((t.erase name).values.map f).sum = (t.values.map f).sum - ((t.get? name).map f).getD 0 := by
  simp only [values]
  rw [List.map_map, List.map_map]
  exact Entries.sum_without f name t.nodup

theorem mem_values_of_get? {t : Table α} {name : String} {a : α} (h : t.get? name = some a) :
    a ∈ t.values :=
  List.mem_map.2 ⟨_, Entries.mem_of_lookup h, rfl⟩

/-- Each value is kept under some name. -/
theorem exists_get?_of_mem_values {t : Table α} {a : α} (h : a ∈ t.values) :
    ∃ name, t.get? name = some a := by
  obtain ⟨⟨name, a⟩, he, rfl⟩ := List.mem_map.1 h
  exact ⟨name, Entries.lookup_of_mem t.nodup he⟩

theorem values_erase_subset (t : Table α) (name : String) : (t.erase name).values ⊆ t.values :=
  (List.filter_sublist.map _).subset

end Table

/-! ### The worth of an account -/

/-- The exact amount of a commodity that a lot holds. -/
def Lot.worth (l : Lot) (commodity : String) : ℚ :=
  ((l.get? commodity).map (·.balance.amount.toRat)).getD 0

namespace Account

/-- The exact sum of a commodity over all lots. -/
def worth (a : Account) (commodity : String) : ℚ := Decimal.exactTotal (a.balances commodity)

theorem worth_eq_sum (a : Account) (commodity : String) :
    a.worth commodity = (a.lots.values.map (Lot.worth · commodity)).sum := by
  simp only [worth, balances]
  induction a.lots.values with
  | nil => rfl
  | cons l ls ih =>
      rw [List.map_cons, List.sum_cons, ← ih]
      simp only [Lot.worth]
      cases hl : l.get? commodity with
      | none => simp [hl]
      | some h => simp [hl]

@[simp] theorem worth_new (name : String) (date : Date) (allowed : NameSet) (commodity : String) :
    (new name date allowed).worth commodity = 0 := rfl

/-- The exact amount of a commodity in a lot; zero if there is no such lot. -/
def inLot (a : Account) (lot commodity : String) : ℚ :=
  ((a.holding? lot commodity).map (·.balance.amount.toRat)).getD 0

theorem lot_worth_eq (a : Account) (lot commodity : String) :
    ((a.lots.get? lot).map (Lot.worth · commodity)).getD 0 = a.inLot lot commodity := by
  simp only [inLot, holding?, Lot.worth]
  cases a.lots.get? lot with
  | none => rfl
  | some l => rfl

/-- A holding that is kept counts in the place of the one before. -/
theorem worth_keep (a : Account) (lot commodity : String) (h : Holding) (c : String) :
    (a.keep lot commodity h).worth c
      = a.worth c + if c = commodity then h.balance.amount.toRat - a.inLot lot commodity else 0 := by
  rw [worth_eq_sum, worth_eq_sum]
  simp only [keep]
  rw [Table.sum_insert, lot_worth_eq]
  have hlot : Lot.worth (((a.lots.get? lot).getD ∅).insert commodity h) c
      = if c = commodity then h.balance.amount.toRat
        else a.inLot lot c := by
    simp only [Lot.worth, inLot, holding?, Table.get?_insert]
    by_cases hc : c = commodity
    · rw [if_pos hc, if_pos hc]
      rfl
    · rw [if_neg hc, if_neg hc]
      cases a.lots.get? lot with
      | none => rfl
      | some l => rfl
  rw [hlot]
  by_cases hc : c = commodity
  · rw [if_pos hc, if_pos hc, hc]
    ring
  · rw [if_neg hc, if_neg hc]
    ring

/-- A lot that holds nothing but zeros may be given up. -/
theorem worth_erase {a : Account} {lot : String} {l : Lot} (hl : a.lots.get? lot = some l)
    (hz : ∀ h ∈ l.values, h.balance.amount.isZero = true) (c : String) :
    worth { a with lots := a.lots.erase lot } c = a.worth c := by
  rw [worth_eq_sum, worth_eq_sum]
  dsimp only
  rw [Table.sum_erase, hl]
  have hzero : Lot.worth l c = 0 := by
    simp only [Lot.worth]
    cases hc : l.get? c with
    | none => rfl
    | some h => exact Decimal.toRat_eq_zero_iff.2 (hz h (Table.mem_values_of_get? hc))
  rw [Option.map_some, Option.getD_some, hzero, sub_zero]

/-- An account that holds nothing but zeros is worth nothing. -/
theorem worth_of_empty {a : Account} (h : a.nonzeroHoldings = []) (c : String) : a.worth c = 0 := by
  rw [worth_eq_sum]
  refine List.sum_eq_zero ?_
  intro q hq
  obtain ⟨l, hl, rfl⟩ := List.mem_map.1 hq
  simp only [Lot.worth]
  cases hc : l.get? c with
  | none => rfl
  | some held =>
      have hmem : held ∈ a.holdings := List.mem_flatMap.2 ⟨l, hl, Table.mem_values_of_get? hc⟩
      have hz := List.filter_eq_nil_iff.1 h held hmem
      exact Decimal.toRat_eq_zero_iff.2 (by simpa using hz)

/-- An account that holds a commodity in the default lot alone is worth what this lot holds. -/
theorem worth_of_default_only {a : Account} {c : String}
    (h : ∀ lot, lot ≠ defaultLot → a.holding? lot c = none) : a.worth c = a.inLot defaultLot c := by
  -- without the default lot nothing is left of the sum
  have hrest := Table.sum_erase (Lot.worth · c) a.lots defaultLot
  rw [lot_worth_eq, ← worth_eq_sum] at hrest
  have hzero : (((a.lots.erase defaultLot).values.map (Lot.worth · c)).sum : ℚ) = 0 := by
    refine List.sum_eq_zero fun q hq => ?_
    obtain ⟨l, hl, rfl⟩ := List.mem_map.1 hq
    obtain ⟨lot, hlot⟩ := Table.exists_get?_of_mem_values hl
    rw [Table.get?_erase] at hlot
    split at hlot
    · cases hlot
    next hne =>
    have hnone := h lot hne
    simp only [holding?] at hnone
    rw [hlot, Option.bind_some] at hnone
    simp only [Lot.worth]
    rw [hnone]
    rfl
  rw [hzero] at hrest
  linarith

end Account

/-! ### The worth of all accounts -/

theorem sum_map_modify {α : Type} [Inhabited α] (g : α → ℚ) (f : α → α) {l : List α} {i : Nat}
    (hi : i < l.length) :
    ((l.modify i f).map g).sum = (l.map g).sum + (g (f (l.getD i default)) - g (l.getD i default)) := by
  induction l generalizing i with
  | nil => cases hi
  | cons a l ih =>
      cases i with
      | zero =>
          rw [List.modify_zero_cons, List.map_cons, List.sum_cons, List.map_cons, List.sum_cons]
          show _ = _ + (g (f a) - g a)
          ring
      | succ i =>
          rw [List.modify_succ_cons, List.map_cons, List.sum_cons, List.map_cons, List.sum_cons,
            ih (Nat.lt_of_succ_lt_succ hi)]
          show _ = _ + (g (f (l.getD i default)) - g (l.getD i default))
          ring

/-- What a quantity amounts to in a commodity. -/
def Quantity.into (q : Quantity) (commodity : String) : ℚ :=
  if commodity = q.commodity then q.amount.toRat else 0

namespace Book

/-- The exact sum of a commodity over all accounts ever opened. -/
def totalWorth (b : Book) (commodity : String) : ℚ := (b.accounts.map (·.worth commodity)).sum

theorem totalWorth_update {b : Book} {id : AccountId} (h : id < b.accounts.length)
    (f : Account → Account) (c : String) :
    (b.updateAccount id f).totalWorth c
      = b.totalWorth c + ((f (b.account id)).worth c - (b.account id).worth c) :=
  sum_map_modify (Account.worth · c) f h

/-- The exact amount of a commodity in a lot, by the number of the account. -/
def inLot (b : Book) (id : AccountId) (lot commodity : String) : ℚ := (b.account id).inLot lot commodity

theorem inLot_eq (b : Book) (id : AccountId) (lot c : String) :
    b.inLot id lot c = ((b.held id lot c).map (·.balance.amount.toRat)).getD 0 := rfl

theorem inLot_posted {b : Book} {t : Transfer} (ht : t.account < b.accounts.length) (h : Holding)
    (id : AccountId) (lot c : String) :
    (b.posted t h).inLot id lot c
      = if id = t.account ∧ lot = t.lot ∧ c = t.quantity.commodity then h.balance.amount.toRat
        else b.inLot id lot c := by
  rw [inLot_eq, inLot_eq, held_posted ht]
  split <;> rfl

/-- **A posting adds to the worth of all accounts what it adds to its lot.** -/
theorem totalWorth_posted {b : Book} {t : Transfer} (ht : t.account < b.accounts.length) (h : Holding)
    (c : String) :
    (b.posted t h).totalWorth c
      = b.totalWorth c + if c = t.quantity.commodity then
          h.balance.amount.toRat - b.inLot t.account t.lot t.quantity.commodity
        else 0 := by
  have hu := totalWorth_update ht (·.keep t.lot t.quantity.commodity h) c
  rw [Account.worth_keep, add_sub_cancel_left] at hu
  exact hu

/-- The current account of a name has this name. -/
theorem name_of_lastNamed {name : String} {as : List Account} {i : Nat}
    (h : lastNamed name as = some i) : (as.getD i default).name = name := by
  induction as generalizing i with
  | nil => cases h
  | cons a as ih =>
      simp only [lastNamed] at h
      split at h
      · next j hj =>
          cases h
          exact ih hj
      · split at h
        · next hn => cases h; exact hn
        · cases h

/-- The accounts that are the current ones of their names, by name. -/
def currentAccounts (b : Book) : List Account := (b.accountNames.filterMap b.current?).map b.account

/-- The exact sum of a commodity over all lots of all current accounts. -/
def worth (b : Book) (commodity : String) : ℚ := (b.currentAccounts.map (·.worth commodity)).sum

end Book

theorem NameSet.mem_names_iff {s : NameSet} {name : String} :
    name ∈ s.names ↔ s.contains name = true := by
  simp only [Catalogue.names, Catalogue.contains, Catalogue.get?]
  rw [← not_iff_not, ← Entries.lookup_eq_none_iff, Bool.not_eq_true, Option.isSome_eq_false_iff,
    Option.isNone_iff_eq_none]

theorem NameSet.mem_names_ofList {names : List String} {name : String} :
    name ∈ (ofList names).names ↔ name ∈ names := by
  have hfold : ∀ (s : NameSet), (names.foldl add s).contains name = true
      ↔ s.contains name = true ∨ name ∈ names := by
    induction names with
    | nil => exact fun s => ⟨.inl, fun h => h.elim id fun h => absurd h List.not_mem_nil⟩
    | cons n names ih =>
        intro s
        rw [List.foldl_cons, ih, contains_add, List.mem_cons, Bool.or_eq_true, beq_iff_eq, or_assoc,
          or_left_comm]
  rw [mem_names_iff, ofList, hfold]
  exact or_iff_right (fun h => by cases h)

namespace Book

/-- The numbers of the current accounts, by name. -/
theorem nodup_currentIds (b : Book) : (b.accountNames.filterMap b.current?).Nodup := by
  have hnames : b.accountNames.Nodup := by
    refine List.Pairwise.imp ?_ (Catalogue.names_sorted _)
    rintro n _ h rfl
    exact String.lt_irrefl n h
  refine List.Nodup.filterMap (fun n n' id hn hn' => ?_) hnames
  exact (name_of_lastNamed hn).symm.trans (name_of_lastNamed hn')

theorem mem_currentIds_iff {b : Book} {id : AccountId} :
    id ∈ b.accountNames.filterMap b.current? ↔ b.isCurrent id = true := by
  rw [List.mem_filterMap]
  constructor
  · rintro ⟨name, -, h⟩
    have hname : (b.account id).name = name := name_of_lastNamed h
    exact beq_iff_eq.2 (hname.symm ▸ h)
  · intro h
    refine ⟨_, ?_, beq_iff_eq.1 h⟩
    have hlt := lt_of_isCurrent h
    have hmem : b.account id ∈ b.accounts := by
      simp only [account]
      rw [List.getD_eq_getElem?_getD, List.getElem?_eq_getElem hlt]
      exact List.getElem_mem hlt
    exact NameSet.mem_names_ofList.2 (List.mem_map_of_mem hmem)

/-- Where the accounts that are superseded hold nothing, the current ones hold all. -/
theorem worth_eq_totalWorth {b : Book} {c : String}
    (h : ∀ id, id < b.accounts.length → b.isCurrent id = false → (b.account id).worth c = 0) :
    b.worth c = b.totalWorth c := by
  have hall : (List.range b.accounts.length).map b.account = b.accounts := map_getD_range b.accounts
  -- the current accounts are those that a filter leaves of all numbers, in another order
  have hperm : (b.accountNames.filterMap b.current?).Perm
      ((List.range b.accounts.length).filter b.isCurrent) := by
    refine (List.perm_ext_iff_of_nodup b.nodup_currentIds (List.nodup_range.filter _)).2 ?_
    intro id
    rw [mem_currentIds_iff, List.mem_filter, List.mem_range]
    exact ⟨fun hid => ⟨lt_of_isCurrent hid, hid⟩, fun hid => hid.2⟩
  -- what the filter drops is worth nothing
  have hfilter : ∀ ids : List Nat, (∀ id ∈ ids, id < b.accounts.length) →
      ((ids.filter b.isCurrent).map fun id => (b.account id).worth c).sum
        = (ids.map fun id => (b.account id).worth c).sum := by
    intro ids hids
    induction ids with
    | nil => rfl
    | cons id ids ih =>
        obtain ⟨hid, hids⟩ := List.forall_mem_cons.1 hids
        rw [List.map_cons, List.sum_cons, ← ih hids, List.filter_cons]
        cases hc : b.isCurrent id with
        | true => rw [if_pos rfl, List.map_cons, List.sum_cons]
        | false => rw [if_neg Bool.false_ne_true, h id hid hc, zero_add]
  simp only [worth, totalWorth, currentAccounts]
  rw [List.map_map, (hperm.map _).sum_eq]
  refine (hfilter _ fun id hid => List.mem_range.1 hid).trans ?_
  conv_rhs => rw [← hall, List.map_map]
  rfl

end Book

end Daybook
