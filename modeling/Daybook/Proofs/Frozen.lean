import Daybook.Proofs.Coherence
import Daybook.Proofs.Openings

/-!
# Frozen — closed accounts stay as they are

Closing is a date and not a mark, and drafts keep the numbers of accounts that were closed after they were
drafted.  But the clock does not go back, and whatever changes an account makes sure that it is open.

* `Deed.account_eq`: **no deed touches a closed account**.
* `Turn.date_le`, `Turn.accounts`: the clock goes on, and accounts are opened empty.
* `Coherent.asBinding_eq`: that an account is not closed is all that `xact` asks of it.
* `closed_frozen`: so closed accounts are frozen in every run, and each name has at most one that is open.
-/

namespace Daybook

namespace Book

variable {b b' : Book}

/-! ### Accounts that are not touched -/

theorem account_updateTags_of_ne {e : Entity} {id : AccountId} (h : e ≠ .account id) (b : Book)
    (f : NameSet → NameSet) : (b.updateTags e f).account id = b.account id := by
  cases e with
  | commodity name =>
      simp only [updateTags, updateCommodity]
      split <;> rfl
  | account i =>
      simp only [updateTags]
      rw [account_update, if_neg fun hk => h (congrArg Entity.account hk.1.symm)]

theorem account_tag_of_ne {e : Entity} {id : AccountId} (h : e ≠ .account id) (b : Book)
    (tag : String) : (b.tag e tag).account id = b.account id := by
  simp only [Book.tag]
  exact account_updateTags_of_ne h _ _

theorem account_untag_of_ne {e : Entity} {id : AccountId} (h : e ≠ .account id) (b : Book)
    (tag : String) : (b.untag e tag).account id = b.account id := by
  simp only [Book.untag]
  exact account_updateTags_of_ne h _ _

theorem account_annotate_of_ne {id i : AccountId} (h : i ≠ id) (b : Book) (name note : String) :
    (b.annotate id name note).account i = b.account i := by
  simp only [annotate]
  rw [account_update, if_neg fun hk => h hk.1]

theorem account_posted_of_ne {t : Transfer} {id : AccountId} (h : id ≠ t.account) (b : Book)
    (held : Holding) : (b.posted t held).account id = b.account id := by
  show (b.updateAccount t.account _).account id = _
  rw [account_update, if_neg fun hk => h hk.1]

/-- An account that was closed is in the book. -/
theorem lt_of_closed {id : AccountId} (h : (b.account id).closed ≠ none) : id < b.accounts.length := by
  refine Decidable.byContradiction ?_
  intro hlt
  refine h ?_
  simp only [account]
  rw [List.getD_eq_getElem?_getD, List.getElem?_eq_none (Nat.not_lt.1 hlt), Option.getD_none]
  rfl

/-- Checked transfers go to accounts that have not been closed, so a transaction leaves the closed ones
alone. -/
theorem Orderly.account_apply {x : Transaction} {r : Except Fault Unit} (hb : Orderly b)
    (h : x.apply.on b = (r, b')) {id : AccountId} (hid : (b.account id).closed ≠ none) :
    b'.account id = b.account id := by
  refine Transaction.apply_invariant (P := fun c => c.account id = b.account id) ?_ ?_ h rfl
  · intro hcheck c t ht held hc
    have hopen := Transaction.requireOpenAccounts_eq_ok_iff.1 (Transaction.check_eq_ok_iff.1 hcheck).2.1
    have hne : id ≠ t.account := by
      rintro rfl
      exact hid (hb.closed_of_isClosed (hopen t ht).1)
    rw [account_posted_of_ne hne]
    exact hc
  · exact fun _ _ hc => hc

end Book

/-- **No deed touches a closed account.** -/
theorem Deed.account_eq {d d' : Desk Book} (hb : d.context.Orderly) (h : Deed d d') {id : AccountId}
    (hid : (d.context.account id).closed ≠ none) : d'.context.account id = d.context.account id := by
  -- an account that is found open is another one
  have hfound : ∀ {name i}, d.context.findOpen name = .ok i → id ≠ i := fun hi => by
    rintro rfl
    exact hid (hb.closed_of_isClosed (Book.findOpen_eq_ok_iff.1 hi).2)
  have htaggable : ∀ {e}, d.context.Taggable e → e ≠ .account id := fun he => by
    rintro rfl
    cases he with
    | account hi => exact hfound hi rfl
  cases h with
  | taken => rfl
  | advanced _ _ h =>
      obtain ⟨-, rfl⟩ := Book.advance_ok h
      rfl
  | registered _ h =>
      obtain ⟨-, rfl⟩ := Book.register_ok h
      rfl
  | opened _ _ _ h =>
      obtain ⟨-, rfl⟩ := Book.openAccount_ok h
      rw [Book.account_opening, if_neg (Nat.ne_of_lt (Book.lt_of_closed hid))]
  | closed _ hi => rw [Book.account_closeAccount (Book.lt_of_findOpen hi), if_neg (hfound hi)]
  | lotClosed _ hi => rw [Book.account_closeLot (Book.lt_of_findOpen hi), if_neg (hfound hi)]
  | annotated notes _ hi =>
      exact Book.foldl_keeps (·.account id)
        (fun b _ => Book.account_annotate_of_ne (hfound hi) b _ _) notes _
  | tagged tags _ he =>
      exact Book.foldl_keeps (·.account id)
        (fun b tag => Book.account_tag_of_ne (htaggable he) b tag) tags _
  | untagged tags _ he =>
      exact Book.foldl_keeps (·.account id)
        (fun b tag => Book.account_untag_of_ne (htaggable he) b tag) tags _
  | drafted => rfl
  | bound => rfl
  | boundNew => rfl
  | commented => rfl
  | applied _ _ h => exact hb.account_apply h hid
  | brokenOff _ _ h => exact hb.account_apply h hid

/-! ### The clock, and accounts that are opened -/

namespace Turn

variable {ids ids' : List TransferId} {b b' : Book}

/-- A transaction leaves alone the clock, and how many accounts there are. -/
theorem apply_leaves {x : Transaction} {r : Except Fault Unit} (h : x.apply.on b = (r, b')) :
    b'.date = b.date ∧ b'.accounts.length = b.accounts.length := by
  have hkept := Book.unlotted_apply h
  have hdate : b'.date = b.date := congrArg (·.date) hkept
  have hlength := congrArg (·.accounts.length) hkept
  simp only [Book.unlotted, List.length_map] at hlength
  exact ⟨hdate, hlength⟩

/-- The clock does not go back. -/
theorem date_le (h : Turn ids b ids' b') : b.date ≤ b'.date := by
  have hsame : ∀ {b' : Book}, b'.date = b.date → b.date ≤ b'.date := fun h => .inr h.symm
  cases h with
  | quiet _ hq => exact hsame hq.date
  | advanced _ h =>
      obtain ⟨hlt, rfl⟩ := Book.advance_ok h
      exact Date.not_lt.1 hlt
  | opened _ h =>
      obtain ⟨-, rfl⟩ := Book.openAccount_ok h
      exact hsame rfl
  | closed => exact hsame rfl
  | lotClosed => exact hsame rfl
  | drafted => exact hsame rfl
  | applied _ h => exact hsame (apply_leaves h).1
  | brokenOff _ h => exact hsame (apply_leaves h).1

/-- A turn opens one account, or none. -/
theorem accounts (h : Turn ids b ids' b') :
    b'.accounts.length = b.accounts.length ∨ ∃ name allowed, b' = b.opening name allowed := by
  cases h with
  | quiet _ hq => exact .inl hq.length_accounts
  | advanced _ h =>
      obtain ⟨-, rfl⟩ := Book.advance_ok h
      exact .inl rfl
  | opened _ h => exact .inr ⟨_, _, (Book.openAccount_ok h).2⟩
  | closed => exact .inl (List.length_modify _ _ _)
  | lotClosed => exact .inl (List.length_modify _ _ _)
  | drafted => exact .inl rfl
  | applied _ h => exact .inl (apply_leaves h).2
  | brokenOff _ h => exact .inl (apply_leaves h).2

end Turn

namespace Book

variable {b : Book}

/-! ### The checks of accounts -/

/-- **That an account is not closed is all that `xact` asks of it**: `lot` and `create-lot`, which ask no
more, pass on the same transfers and refuse the others on the same ground. -/
theorem Coherent.asBinding_eq (hb : Coherent b) (ho : Orderly b) {id : TransferId}
    (hid : id < b.transfers.length) (lot : String) :
    (Words.asBinding b (.transfer id, .text lot)).map (fun _ => ())
      = Transaction.requireOpenAccounts b [b.transfer id] := by
  have hlt := (hb.fits hid).account
  simp only [Transaction.requireOpenAccounts]
  rw [List.find?_singleton]
  show Except.map _ (if b.isClosed (b.transfer id).account = true then _ else _) = _
  cases hclosed : b.isClosed (b.transfer id).account with
  | true => simp [Except.map]
  | false =>
      -- an account that is not closed is the current one of its name
      have hcurrent : b.isCurrent (b.transfer id).account = true := by
        refine Decidable.byContradiction ?_
        intro hc
        rw [(ho.isClosed_iff _).2 (ho.superseded _ hlt (by simpa using hc))] at hclosed
        cases hclosed
      simp [Except.map, hcurrent]

/-! ### Runs -/

theorem orderly_after (ts : List Token) : Orderly (after ts) :=
  Machine.after_induction (I := fun m => Orderly m.context) orderly_empty
    (fun m t hm => hm.turn (m.step_turn t)) ts

/-- An account that has been closed stays as it is, whatever tokens follow. -/
theorem account_after_append {ts : List Token} {id : AccountId}
    (h : ((after ts).account id).closed ≠ none) (ts' : List Token) :
    (after (ts ++ ts')).account id = (after ts).account id := by
  rw [after_eq (ts ++ ts'), Machine.after_append]
  refine (Machine.feed_induction
    (P := fun m => Orderly m.context ∧ m.context.account id = (after ts).account id) ?_ ts'
    ⟨orderly_after ts, rfl⟩).2
  rintro m t ⟨hb, haccount⟩
  exact ⟨hb.turn (m.step_turn t), Machine.step_keeps (I := fun b => b.account id = _) haccount
    (fun _ hd => (hd.account_eq hb (haccount ▸ h)).trans haccount) t⟩

theorem date_after_append (ts ts' : List Token) : (after ts).date ≤ (after (ts ++ ts')).date := by
  rw [after_eq (ts ++ ts'), Machine.after_append]
  exact Machine.feed_induction (P := fun m => (after ts).date ≤ m.context.date)
    (fun m t hm => Date.le_trans hm (m.step_turn t).date_le) ts' (.inr rfl)

theorem accounts_after_concat (ts : List Token) (t : Token) :
    (after (ts ++ [t])).accounts.length = (after ts).accounts.length
      ∨ ∃ name allowed, after (ts ++ [t]) = (after ts).opening name allowed := by
  rw [after_eq (ts ++ [t]), Machine.after_append]
  exact ((Machine.after ts).step_turn t).accounts

/-- **Closed accounts are frozen, and each name has at most one account that is open.**  In every run,
whatever came of each token: an account that has been closed stays as it is and holds nothing, and is closed
at every later date; one that is opened begins with nothing; one that is not the current account of its name
is closed; the words that bind a transfer to a lot refuse it for its account just when `xact` does; and
the accounts that are listed as open are those whose names were opened last and not closed since. -/
theorem closed_frozen :
    (∀ ts ts' id, ((after ts).account id).closed ≠ none →
        (after (ts ++ ts')).account id = (after ts).account id
          ∧ (∀ h ∈ ((after ts).account id).holdings, h.balance.amount.isZero = true)
          ∧ (after (ts ++ ts')).isClosed id = true
          ∧ ∀ date, (after ts).date ≤ date → ((after ts).account id).isClosed date = true)
      ∧ (∀ ts t id, (after ts).accounts.length ≤ id → id < (after (ts ++ [t])).accounts.length →
          ((after (ts ++ [t])).account id).closed = none
            ∧ ((after (ts ++ [t])).account id).tags = ∅ ∧ ((after (ts ++ [t])).account id).notes = ∅
            ∧ ((after (ts ++ [t])).account id).lots = .single defaultLot ∅)
      ∧ (∀ ts id, id < (after ts).accounts.length → (after ts).isCurrent id = false →
          (after ts).isClosed id = true)
      ∧ (∀ ts id lot, id < (after ts).transfers.length →
          (Words.asBinding (after ts) (.transfer id, .text lot)).map (fun _ => ())
            = Transaction.requireOpenAccounts (after ts) [(after ts).transfer id])
      ∧ ∀ ts, ((after ts).openAccounts.map (·.name)).Pairwise (· < ·)
          ∧ ∀ name, name ∈ (after ts).openAccounts.map (·.name)
            ↔ lastOf (fun o => o.name == name) (openings ts) = some (.opened name) := by
  refine ⟨?_, ?_, ?_, ?_, ?_⟩
  · intro ts ts' id hid
    have hsame := account_after_append hid ts'
    have hclosed : ∀ date, (after ts).date ≤ date → ((after ts).account id).isClosed date = true :=
      fun date hdate => Account.isClosed_mono hdate (((orderly_after ts).isClosed_iff id).2 hid)
    refine ⟨hsame, ?_, ?_, hclosed⟩
    · intro h hh
      simpa using List.filter_eq_nil_iff.1 ((orderly_after ts).closed_empty id hid) h hh
    · simp only [isClosed]
      rw [hsame]
      exact hclosed _ (date_after_append ts ts')
  · intro ts t id hold hnew
    rcases accounts_after_concat ts t with hlength | ⟨name, allowed, hopening⟩
    · exact absurd (hlength ▸ hnew) (Nat.not_lt.2 hold)
    · rw [hopening] at hnew ⊢
      rw [length_opening] at hnew
      have hid : id = (after ts).accounts.length := Nat.le_antisymm (Nat.lt_succ_iff.1 hnew) hold
      rw [account_opening, if_pos hid]
      exact ⟨rfl, rfl, rfl, rfl⟩
  · intro ts id hlt hcurrent
    exact ((orderly_after ts).isClosed_iff id).2 ((orderly_after ts).superseded id hlt hcurrent)
  · intro ts id lot hid
    exact (coherent_after ts).asBinding_eq (orderly_after ts) hid lot
  · intro ts
    rw [names_openAccounts]
    refine ⟨openNames_sorted _, fun name => ?_⟩
    rw [mem_openNames_iff, ← unclosed_iff]
    refine exists_congr fun id => and_congr_right fun _ => ?_
    rw [← Bool.not_eq_true, (orderly_after ts).isClosed_iff, not_not]

/-- A run in which an account is closed, with a transfer to it still on the stack. -/
def closing : List Token :=
  ["U", "d", "commodity", "Equity", "open", "Equity", "1", "U", "xfer", "Equity", "close"].map .word

/-- The run gone on with: the name is opened again on the same date. -/
def reopening : List Token := ["Equity", "open"].map .word

/-- The account that was closed stays as it is, the new one begins with nothing, and the transfer to the
first is refused by `lot` and by `xact` on the same ground. -/
theorem closed_frozen_reopening :
    (after (closing ++ reopening)).account 0 = (after closing).account 0
      ∧ (after (closing ++ reopening)).isClosed 0 = true
      ∧ ((after (closing ++ reopening)).account 1).lots = .single defaultLot ∅
      ∧ (Words.asBinding (after (closing ++ reopening)) (.transfer 0, .text "L")).map (fun _ => ())
        = .error (.refused (.closedAccount (.transfer "Equity")))
      ∧ "Equity" ∈ (after (closing ++ reopening)).openAccounts.map (·.name) := by
  have hclosed : ((after closing).account 0).closed ≠ none := by decide +kernel
  have hcurrent : (after (closing ++ reopening)).isCurrent 0 = false := by decide +kernel
  have hlt : 0 < (after (closing ++ reopening)).accounts.length := by decide +kernel
  have hold : (after (closing ++ reopening.take 1)).accounts.length ≤ 1 := by decide +kernel
  have hnew : 1 < (after (closing ++ reopening.take 1 ++ [.word "open"])).accounts.length := by
    decide +kernel
  have hdrafted : 0 < (after (closing ++ reopening)).transfers.length := by decide +kernel
  have hrefused : Transaction.requireOpenAccounts (after (closing ++ reopening))
      [(after (closing ++ reopening)).transfer 0]
        = .error (.refused (.closedAccount (.transfer "Equity"))) := by decide +kernel
  have hlast : lastOf (fun o => o.name == "Equity") (openings (closing ++ reopening))
      = some (.opened "Equity") := by decide +kernel
  refine ⟨(closed_frozen.1 closing reopening 0 hclosed).1, ?_, ?_, ?_, ?_⟩
  · exact closed_frozen.2.2.1 (closing ++ reopening) 0 hlt hcurrent
  · exact (closed_frozen.2.1 (closing ++ reopening.take 1) (.word "open") 1 hold hnew).2.2.2
  · exact (closed_frozen.2.2.2.1 (closing ++ reopening) 0 "L" hdrafted).trans hrefused
  · exact ((closed_frozen.2.2.2.2 (closing ++ reopening)).2 "Equity").2 hlast

end Book

end Daybook
