import Daybook.Proofs.Turns
import Daybook.Proofs.Worth

/-!
# Closing — accounts that are over

An account is closed on the date of the clock, and the clock does not go back.  So it stays closed, it is
not posted to any more, and as it held nothing when it was closed it never holds anything again.  A name
is opened again only when its current account is closed.

* `Orderly`: accounts were closed in the past, hold nothing, and are closed before they are superseded.
* `Orderly.isClosed_iff`: so an account is closed at the date of the clock once it has been closed.
* `Orderly.turn`: **every turn keeps a book orderly**.
-/

namespace Daybook

namespace Book

/-- Accounts were closed in the past, hold nothing, and are closed before they are superseded. -/
structure Orderly (b : Book) : Prop where
  closed_le : ∀ id d, (b.account id).closed = some d → d ≤ b.date
  closed_empty : ∀ id, (b.account id).closed ≠ none → (b.account id).nonzeroHoldings = []
  superseded : ∀ id, id < b.accounts.length → b.isCurrent id = false → (b.account id).closed ≠ none

theorem orderly_empty : Orderly .empty :=
  ⟨fun _ _ h => (by cases h), fun _ h => absurd rfl h, fun _ h => absurd h (Nat.not_lt_zero _)⟩

theorem lt_of_findOpen {b : Book} {name : String} {id : AccountId} (h : b.findOpen name = .ok id) :
    id < b.accounts.length :=
  lastNamed_lt (findOpen_eq_ok_iff.1 h).1

/-! ### Opening and closing -/

theorem length_opening (b : Book) (name : String) (allowed : List String) :
    (b.opening name allowed).accounts.length = b.accounts.length + 1 := List.length_append

theorem account_opening (b : Book) (name : String) (allowed : List String) (id : AccountId) :
    (b.opening name allowed).account id
      = if id = b.accounts.length then .new name b.date (.ofList allowed) else b.account id :=
  getD_concat b.accounts _ id default

theorem current?_opening (b : Book) (name : String) (allowed : List String) (n : String) :
    (b.opening name allowed).current? n = if name = n then some b.accounts.length else b.current? n :=
  lastNamed_append n b.accounts (.new name b.date (.ofList allowed))

/-- A change that keeps names keeps which accounts are current. -/
theorem isCurrent_update {f : Account → Account} (h : ∀ a, (f a).name = a.name) (b : Book)
    (id i : AccountId) : (b.updateAccount id f).isCurrent i = b.isCurrent i := by
  have hname : ((b.updateAccount id f).account i).name = (b.account i).name := by
    rw [account_update]
    split
    · exact h _
    · rfl
  have hcurrent : ∀ name, (b.updateAccount id f).current? name = b.current? name :=
    lastNamed_congr (map_modify_of_eq h b.accounts id)
  simp only [isCurrent]
  rw [hname, hcurrent]

theorem account_closeAccount {b : Book} {id : AccountId} (h : id < b.accounts.length)
    (i : AccountId) :
    (b.closeAccount id).account i
      = if i = id then { b.account i with closed := some b.date } else b.account i :=
  account_update_of_lt h _ i

theorem account_closeLot {b : Book} {id : AccountId} (h : id < b.accounts.length) (lot : String)
    (i : AccountId) :
    (b.closeLot id lot).account i
      = if i = id then { b.account i with lots := (b.account i).lots.erase lot } else b.account i :=
  account_update_of_lt h _ i

theorem isCurrent_closeAccount (b : Book) (id i : AccountId) :
    (b.closeAccount id).isCurrent i = b.isCurrent i :=
  isCurrent_update (fun a => (rfl : { a with closed := some b.date }.name = a.name)) b id i

theorem isCurrent_closeLot (b : Book) (id : AccountId) (lot : String) (i : AccountId) :
    (b.closeLot id lot).isCurrent i = b.isCurrent i :=
  isCurrent_update (fun a => (rfl : { a with lots := a.lots.erase lot }.name = a.name)) b id i

theorem isCurrent_posted (b : Book) (t : Transfer) (h : Holding) (i : AccountId) :
    (b.posted t h).isCurrent i = b.isCurrent i :=
  isCurrent_update (fun a => (rfl : (a.keep t.lot t.quantity.commodity h).name = a.name)) b t.account i

end Book

/-- What is left when a lot is given up held nothing if all held nothing. -/
theorem Account.nonzeroHoldings_erase {a : Account} (h : a.nonzeroHoldings = []) (lot : String) :
    nonzeroHoldings { a with lots := a.lots.erase lot } = [] := by
  refine List.filter_eq_nil_iff.2 fun held hheld => List.filter_eq_nil_iff.1 h held ?_
  obtain ⟨l, hl, hmem⟩ := List.mem_flatMap.1 hheld
  exact List.mem_flatMap.2 ⟨l, Table.values_erase_subset a.lots lot hl, hmem⟩

/-! ### Orderly books -/

namespace Book.Orderly

variable {b b' : Book}

/-- An account is closed at the date of the clock once it has been closed. -/
theorem isClosed_iff (hb : Orderly b) (id : AccountId) :
    b.isClosed id = true ↔ (b.account id).closed ≠ none := by
  simp only [isClosed, Account.isClosed]
  cases hc : (b.account id).closed with
  | none => exact iff_of_false Bool.false_ne_true fun h => h rfl
  | some d => exact iff_of_true (decide_eq_true (hb.closed_le id d hc)) fun h => (by cases h)

theorem closed_of_isClosed (hb : Orderly b) {id : AccountId} (h : b.isClosed id = false) :
    (b.account id).closed = none := by
  refine Decidable.byContradiction ?_
  intro hc
  rw [(hb.isClosed_iff id).2 hc] at h
  cases h

/-- A change that closes nothing, and leaves empty what was closed, keeps a book orderly. -/
theorem of_closed (hb : Orderly b) (hdate : b'.date = b.date)
    (hlength : b'.accounts.length = b.accounts.length)
    (hcurrent : ∀ id, b'.isCurrent id = b.isCurrent id)
    (hclosed : ∀ id, (b'.account id).closed = (b.account id).closed)
    (hempty : ∀ id, (b.account id).closed ≠ none → (b.account id).nonzeroHoldings = [] →
      (b'.account id).nonzeroHoldings = []) : Orderly b' where
  closed_le id d hd := hdate ▸ hb.closed_le id d (hclosed id ▸ hd)
  closed_empty id hc := hempty id (hclosed id ▸ hc) (hb.closed_empty id (hclosed id ▸ hc))
  superseded id hlt hc := by
    rw [hclosed]
    exact hb.superseded id (hlength ▸ hlt) (hcurrent id ▸ hc)

theorem quiet (hb : Orderly b) (h : b.Quiet b') : Orderly b' := by
  refine hb.of_closed h.date h.length_accounts h.isCurrent h.closed ?_
  intro id _ hempty
  simp only [Account.nonzeroHoldings, Account.holdings] at hempty ⊢
  rwa [h.lots id]

theorem advance {date : Date} (hb : Orderly b) (h : b.advance date = .ok b') : Orderly b' := by
  obtain ⟨hlt, rfl⟩ := Book.advance_ok h
  exact ⟨fun id d hd => Date.le_trans (hb.closed_le id d hd) (Date.not_lt.1 hlt),
    hb.closed_empty, hb.superseded⟩

theorem opening {name : String} (hb : Orderly b)
    (hfree : ∀ id, b.current? name = some id → b.isClosed id = true) (allowed : List String) :
    Orderly (b.opening name allowed) := by
  refine ⟨?_, ?_, ?_⟩
  · intro id d hd
    rw [account_opening] at hd
    split at hd
    · cases hd
    · exact hb.closed_le id d hd
  · intro id hc
    rw [account_opening] at hc ⊢
    split at hc
    · exact absurd rfl hc
    · next hid =>
        rw [if_neg hid]
        exact hb.closed_empty id hc
  · intro id hlt hcur
    simp only [isCurrent] at hcur
    rw [account_opening, current?_opening] at hcur
    rw [account_opening]
    by_cases hid : id = b.accounts.length
    · rw [if_pos hid, if_pos (show name = (Account.new name _ _).name from rfl), hid,
        beq_self_eq_true] at hcur
      cases hcur
    rw [if_neg hid] at hcur ⊢
    rw [length_opening] at hlt
    have hlt' : id < b.accounts.length := by omega
    by_cases hname : name = (b.account id).name
    · -- the new account supersedes at most one that is closed
      cases hwas : b.isCurrent id with
      | false => exact hb.superseded id hlt' hwas
      | true => exact (hb.isClosed_iff id).1 (hfree id (hname ▸ beq_iff_eq.1 hwas))
    · rw [if_neg hname] at hcur
      exact hb.superseded id hlt' hcur

theorem closeAccount {name : String} {id : AccountId} (hb : Orderly b)
    (hid : b.findOpen name = .ok id) (hz : (b.account id).nonzeroHoldings = []) :
    Orderly (b.closeAccount id) := by
  have haccount := account_closeAccount (lt_of_findOpen hid)
  refine ⟨?_, ?_, ?_⟩
  · intro i d hd
    rw [haccount] at hd
    split at hd
    · cases hd; exact .inr rfl
    · exact hb.closed_le i d hd
  · intro i hc
    rw [haccount] at hc ⊢
    split at hc
    · next hi => rw [if_pos hi, hi]; exact hz
    · next hi => rw [if_neg hi]; exact hb.closed_empty i hc
  · intro i hlt hcur
    rw [haccount]
    split
    · exact fun h => (by cases h)
    · refine hb.superseded i ?_ (isCurrent_closeAccount b id i ▸ hcur)
      exact lt_of_lt_of_eq hlt (List.length_modify _ _ _)

theorem closeLot {name : String} {id : AccountId} (hb : Orderly b) (hid : b.findOpen name = .ok id)
    (lot : String) : Orderly (b.closeLot id lot) := by
  have haccount := account_closeLot (lt_of_findOpen hid) lot
  refine hb.of_closed rfl (List.length_modify _ _ _) (isCurrent_closeLot b id lot) ?_ ?_
  · intro i
    rw [haccount]
    split <;> rfl
  · intro i _ hempty
    rw [haccount]
    split
    · exact Account.nonzeroHoldings_erase hempty lot
    · exact hempty

/-- A posting to an account that has not been closed keeps a book orderly. -/
theorem posted {t : Transfer} (hb : Orderly b) (ht : t.account < b.accounts.length)
    (hopen : (b.account t.account).closed = none) (h : Holding) : Orderly (b.posted t h) := by
  refine hb.of_closed rfl (length_accounts_posted b t h) (isCurrent_posted b t h)
    (closed_posted ht h) ?_
  intro i hc hempty
  rw [account_posted ht]
  split
  · next hi => exact absurd (hi ▸ hopen) hc
  · exact hempty

/-- Checked transfers go to accounts that have not been closed, so postings keep a book orderly. -/
theorem postAll {ts : List Transfer} {r : Except Fault Unit} (hb : Orderly b)
    (hc : Transaction.check b ts = .ok ()) (h : (Transaction.postAll ts).on b = (r, b')) :
    Orderly b' := by
  have hvalid := Transaction.account_lt_of_check hc
  have hopen := Transaction.requireOpenAccounts_eq_ok_iff.1 (Transaction.check_eq_ok_iff.1 hc).2.1
  have hkept : Orderly b' ∧ ∀ t ∈ ts, t.account < b'.accounts.length
      ∧ (b'.account t.account).closed = none := by
    refine Transaction.postAll_invariant (P := fun b => Orderly b ∧ ∀ t ∈ ts,
      t.account < b.accounts.length ∧ (b.account t.account).closed = none) ?_ h
      ⟨hb, fun t ht => ⟨hvalid t ht, hb.closed_of_isClosed (hopen t ht).1⟩⟩
    rintro b t ht held ⟨hb, hts⟩
    refine ⟨hb.posted (hts t ht).1 (hts t ht).2 held, fun t' ht' => ⟨?_, ?_⟩⟩
    · rw [length_accounts_posted]
      exact (hts t' ht').1
    · rw [closed_posted (hts t ht).1]
      exact (hts t' ht').2
  exact hkept.1

/-- **Every turn keeps a book orderly.** -/
theorem turn {ids ids' : List TransferId} (hb : Orderly b) (h : Turn ids b ids' b') :
    Orderly b' := by
  cases h with
  | quiet _ hq => exact hb.quiet hq
  | advanced _ h => exact hb.advance h
  | opened _ h =>
      obtain ⟨hfree, rfl⟩ := openAccount_ok h
      exact hb.opening hfree _
  | closed _ hid hz => exact hb.closeAccount hid hz
  | lotClosed _ hid _ _ => exact hb.closeLot hid _
  | drafted _ _ => exact ⟨hb.closed_le, hb.closed_empty, hb.superseded⟩
  | applied _ h =>
      obtain ⟨hc, b₁, hp, rfl⟩ := Transaction.apply_eq_ok_iff.1 h
      have hb₁ := hb.postAll hc hp
      exact ⟨hb₁.closed_le, hb₁.closed_empty, hb₁.superseded⟩
  | brokenOff _ h =>
      rcases Transaction.apply_error_iff.1 h with ⟨-, rfl⟩ | ⟨hc, hp⟩
      · exact hb
      · exact hb.postAll hc hp

end Book.Orderly

end Daybook
