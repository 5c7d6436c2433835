import Daybook.Proofs.Deeds
import Mathlib.Data.List.GetD

/-!
# Turns — what a token does to a book

Most deeds leave the ledger proper alone: they put on marks and notes, bind drafts to lots, comment on
them, or register a commodity.  Such a change is *quiet*: clock, accounts, drafts and applied transactions
are as before, apart from marks and bindings.  With the quiet changes taken together, few turns remain
that a token can take.

* `Quiet.account`, `Quiet.reads`: an account after a quiet change.
* `Deed.turn`: **a deed is a quiet change unless it moves the clock, opens or closes, drafts or posts**.
* `Machine.step_turn`: so a token is a turn, of the book and of the transfers that lie on the stack.
-/

namespace Daybook

/-- An account without its tags and notes. -/
def Account.unmarked (a : Account) : Account := { a with tags := ∅, notes := ∅ }

/-- A transfer without the lot to which it is bound and its comment. -/
def Transfer.unbound (t : Transfer) : Transfer :=
  { t with lot := defaultLot, createsLot := false, comment := "" }

/-- The transfers of a transaction that was entered. -/
def Event.appliedIds : Event → List TransferId
  | .applied _ _ ids => ids
  | _ => []

namespace Book

/-- The numbers of the transfers that were applied, the last transaction first. -/
def appliedIds (b : Book) : List TransferId := b.journal.flatMap Event.appliedIds

/-- A book with the clock, the accounts, the drafts and the applied transactions of another, apart from
tags, notes, bindings and comments. -/
structure Quiet (b b' : Book) : Prop where
  date : b'.date = b.date
  accounts : b'.accounts.map Account.unmarked = b.accounts.map Account.unmarked
  transfers : b'.transfers.map Transfer.unbound = b.transfers.map Transfer.unbound
  applied : b'.appliedIds = b.appliedIds

namespace Quiet

variable {b b' b'' : Book}

theorem refl (b : Book) : Quiet b b := ⟨rfl, rfl, rfl, rfl⟩

theorem trans (h : Quiet b b') (h' : Quiet b' b'') : Quiet b b'' :=
  ⟨h'.date.trans h.date, h'.accounts.trans h.accounts, h'.transfers.trans h.transfers,
    h'.applied.trans h.applied⟩

theorem foldl {α : Type} {f : Book → α → Book} (h : ∀ b a, Quiet b (f b a)) (l : List α) (b : Book) :
    Quiet b (l.foldl f b) :=
  List.foldlRecOn l f (refl b) fun b' hb a _ => hb.trans (h b' a)

theorem length_accounts (h : Quiet b b') : b'.accounts.length = b.accounts.length := by
  have hl := congrArg List.length h.accounts
  rwa [List.length_map, List.length_map] at hl

/-- An account after a quiet change is the same but for its marks. -/
theorem account (h : Quiet b b') (id : AccountId) :
    (b'.account id).unmarked = (b.account id).unmarked := by
  have hd := congrArg (·.getD id (default : Account).unmarked) h.accounts
  rwa [List.getD_map, List.getD_map] at hd

/-- What can be read off an account without its marks stays. -/
theorem reads {γ : Type} (h : Quiet b b') (view : Account → γ) (hview : ∀ a, view a.unmarked = view a)
    (id : AccountId) : view (b'.account id) = view (b.account id) := by
  rw [← hview, h.account, hview]

theorem lots (h : Quiet b b') (id : AccountId) : (b'.account id).lots = (b.account id).lots :=
  h.reads Account.lots (fun _ => rfl) id

theorem closed (h : Quiet b b') (id : AccountId) : (b'.account id).closed = (b.account id).closed :=
  h.reads Account.closed (fun _ => rfl) id

theorem opened (h : Quiet b b') (id : AccountId) : (b'.account id).opened = (b.account id).opened :=
  h.reads Account.opened (fun _ => rfl) id

theorem allowed (h : Quiet b b') (id : AccountId) :
    (b'.account id).allowed = (b.account id).allowed :=
  h.reads Account.allowed (fun _ => rfl) id

theorem name (h : Quiet b b') (id : AccountId) : (b'.account id).name = (b.account id).name :=
  h.reads Account.name (fun _ => rfl) id

end Quiet

/-- Which account is the last with a name is a matter of names alone. -/
theorem lastNamed_congr {as as' : List Account} (h : as.map (·.name) = as'.map (·.name))
    (name : String) : lastNamed name as = lastNamed name as' := by
  -- both lists are gone through together, since their names agree place by place
  induction as generalizing as' with
  | nil =>
      cases as' with
      | nil => rfl
      | cons a' as' => cases h
  | cons a as ih =>
      cases as' with
      | nil => cases h
      | cons a' as' =>
          obtain ⟨ha, has⟩ := List.cons.inj h
          simp only [lastNamed]
          rw [ih has, show a.name = a'.name from ha]

theorem Quiet.current? {b b' : Book} (h : Quiet b b') (name : String) :
    b'.current? name = b.current? name := by
  refine lastNamed_congr ?_ name
  have hn := congrArg (List.map Account.name) h.accounts
  rwa [List.map_map, List.map_map] at hn

theorem Quiet.isCurrent {b b' : Book} (h : Quiet b b') (id : AccountId) :
    b'.isCurrent id = b.isCurrent id := by
  simp only [Book.isCurrent]
  rw [h.name, h.current?]

/-! ### The quiet changes -/

theorem map_modify_of_eq {α β : Type} {g : α → β} {f : α → α} (h : ∀ a, g (f a) = g a) (l : List α)
    (i : Nat) : (l.modify i f).map g = l.map g := by
  induction l generalizing i with
  | nil => simp
  | cons a l ih =>
      cases i with
      | zero => rw [List.modify_zero_cons, List.map_cons, List.map_cons, h]
      | succ i => rw [List.modify_succ_cons, List.map_cons, List.map_cons, ih]

theorem quiet_updateAccount {b : Book} {id : AccountId} {f : Account → Account}
    (h : ∀ a, (f a).unmarked = a.unmarked) : Quiet b (b.updateAccount id f) :=
  ⟨rfl, map_modify_of_eq h b.accounts id, rfl, rfl⟩

theorem quiet_updateTransfer {b : Book} {id : TransferId} {f : Transfer → Transfer}
    (h : ∀ t, (f t).unbound = t.unbound) : Quiet b (b.updateTransfer id f) :=
  ⟨rfl, rfl, map_modify_of_eq h b.transfers id, rfl⟩

theorem quiet_updateCommodity (b : Book) (name : String) (f : Commodity → Commodity) :
    Quiet b (b.updateCommodity name f) := by
  simp only [updateCommodity]
  split
  · exact .refl b
  · exact ⟨rfl, rfl, rfl, rfl⟩

theorem quiet_updateTags (b : Book) (e : Entity) (f : NameSet → NameSet) :
    Quiet b (b.updateTags e f) := by
  cases e with
  | commodity name => exact quiet_updateCommodity b name _
  | account id => exact quiet_updateAccount fun _ => rfl

theorem quiet_register {b b' : Book} {name description : String}
    (h : b.register name description = .ok b') : Quiet b b' := by
  obtain ⟨-, rfl⟩ := register_ok h
  exact ⟨rfl, rfl, rfl, rfl⟩

theorem quiet_annotate (b : Book) (id : AccountId) (name note : String) :
    Quiet b (b.annotate id name note) :=
  quiet_updateAccount fun _ => rfl

theorem quiet_index (b : Book) (tagged : Catalogue (List Entity)) : Quiet b { b with tagged } :=
  ⟨rfl, rfl, rfl, rfl⟩

theorem quiet_tag (b : Book) (e : Entity) (tag : String) : Quiet b (b.tag e tag) := by
  simp only [Book.tag]
  exact (quiet_index b _).trans (quiet_updateTags _ e _)

theorem quiet_untag (b : Book) (e : Entity) (tag : String) : Quiet b (b.untag e tag) := by
  simp only [Book.untag]
  exact (quiet_index b _).trans (quiet_updateTags _ e _)

theorem quiet_bindLot (b : Book) (id : TransferId) (lot : String) : Quiet b (b.bindLot id lot) :=
  quiet_updateTransfer fun _ => rfl

theorem quiet_letCreate (b : Book) (id : TransferId) : Quiet b (b.letCreate id) :=
  quiet_updateTransfer fun _ => rfl

theorem quiet_setComment (b : Book) (id : TransferId) (comment : String) :
    Quiet b (b.setComment id comment) :=
  quiet_updateTransfer fun _ => rfl

end Book

/-! ### Turns -/

namespace Operands

/-- The numbers of the transfers among operands, the last pushed first. -/
def transferIds (ops : Operands) : List TransferId := ops.filterMap Value.transfer?

theorem transferIds_append (ops ops' : Operands) :
    (ops ++ ops').transferIds = ops.transferIds ++ ops'.transferIds := List.filterMap_append

theorem transferIds_texts (ss : List String) : transferIds (ss.map .text) = [] := by
  simp only [transferIds]
  rw [List.filterMap_map]
  exact List.filterMap_eq_nil_iff.2 fun _ _ => rfl

theorem transferIds_transfers (ids : List TransferId) : transferIds (ids.map .transfer) = ids := by
  simp only [transferIds]
  rw [List.filterMap_map]
  exact List.filterMap_some

theorem transferIds_sublist {ops rest : Operands} (h : rest <:+ ops) :
    rest.transferIds.Sublist ops.transferIds := h.sublist.filterMap _

end Operands

/-- What a token does to a book, and to the transfers that lie on the stack. -/
inductive Turn (ids : List TransferId) (b : Book) : List TransferId → Book → Prop where
  | quiet {ids' : List TransferId} {b' : Book} (hids : ids'.Sublist ids) (hb : b.Quiet b') :
      Turn ids b ids' b'
  | advanced {ids' : List TransferId} {b' : Book} {date : Date} (hids : ids'.Sublist ids)
      (hb : b.advance date = .ok b') : Turn ids b ids' b'
  | opened {ids' : List TransferId} {b' : Book} {name : String} {allowed : List String}
      (hids : ids'.Sublist ids) (hb : b.openAccount name allowed = .ok b') : Turn ids b ids' b'
  | closed {ids' : List TransferId} {name : String} {id : AccountId} (hids : ids'.Sublist ids)
      (hid : b.findOpen name = .ok id) (hz : (b.account id).nonzeroHoldings = []) :
      Turn ids b ids' (b.closeAccount id)
  | lotClosed {ids' : List TransferId} {name lot : String} {id : AccountId} {l : Lot}
      (hids : ids'.Sublist ids) (hid : b.findOpen name = .ok id)
      (hl : (b.account id).lots.get? lot = some l)
      (hz : ∀ h ∈ l.values, h.balance.amount.isZero = true) : Turn ids b ids' (b.closeLot id lot)
  | drafted {ids' : List TransferId} {t : Transfer} (hids : ids'.Sublist ids) (ht : b.Admits t) :
      Turn ids b (b.transfers.length :: ids') (b.draft t)
  | applied {ids' : List TransferId} {b' : Book} {x : Transaction}
      (hids : (x.transfers.reverse ++ ids').Sublist ids) (hb : x.apply.on b = (.ok (), b')) :
      Turn ids b ids' b'
  | brokenOff {ids' : List TransferId} {b' : Book} {x : Transaction} {fault : Fault}
      (hids : (x.transfers.reverse ++ ids').Sublist ids) (hb : x.apply.on b = (.error fault, b')) :
      Turn ids b ids' b'

namespace Turn

variable {ids ids' : List TransferId} {b b' : Book}

/-- Transfers further down on the stack take no part. -/
theorem append (h : Turn ids b ids' b') (below : List TransferId) :
    Turn (ids ++ below) b (ids' ++ below) b' := by
  cases h with
  | quiet hids hb => exact .quiet (hids.append_right below) hb
  | advanced hids hb => exact .advanced (hids.append_right below) hb
  | opened hids hb => exact .opened (hids.append_right below) hb
  | closed hids hid hz => exact .closed (hids.append_right below) hid hz
  | lotClosed hids hid hl hz => exact .lotClosed (hids.append_right below) hid hl hz
  | drafted hids ht => exact .drafted (hids.append_right below) ht
  | applied hids hb =>
      exact .applied (by rw [← List.append_assoc]; exact hids.append_right below) hb
  | brokenOff hids hb =>
      exact .brokenOff (by rw [← List.append_assoc]; exact hids.append_right below) hb

end Turn

/-- The transfers that a word sees lie on the stack. -/
theorem Machine.transferIds_visible_subset (m : Machine Book) :
    m.desk.operands.transferIds ⊆ m.stack.transferIds := by
  simp only [stack]
  rw [Operands.transferIds_append]
  exact List.subset_append_left _ _

/-- The transfers that a transaction takes lie together on the stack, on top of all others. -/
theorem Words.transferIds_eq_of_takeTransaction {ops rest : Operands} {o : Words.TransactionOperands}
    (h : Words.takeTransaction ops = .ok (o, rest)) :
    ops.transferIds
      = o.transfers.reverse ++ Operands.transferIds (o.description :: o.entity :: rest) := by
  rw [Words.takeTransaction_ok h, Operands.transferIds_append, Operands.transferIds_texts,
    Operands.transferIds_append, Operands.transferIds_transfers, List.nil_append]

theorem Words.transferIds_takeTransaction {ops rest : Operands} {o : Words.TransactionOperands}
    (h : Words.takeTransaction ops = .ok (o, rest)) :
    (o.transfers.reverse ++ rest.transferIds).Sublist ops.transferIds := by
  rw [Words.transferIds_eq_of_takeTransaction h]
  exact (Operands.transferIds_sublist (List.suffix_append [_, _] rest)).append_left _

theorem Words.transfers_draftTransaction {b : Book} {o : Words.TransactionOperands} {x : Transaction}
    (h : Words.draftTransaction b o = .ok x) : x.transfers = o.transfers := by
  obtain ⟨_, _, -, -, -, rfl⟩ := draftTransaction_eq_ok_iff.1 h
  rfl

/-- A deed is a turn. -/
theorem Deed.turn {d d' : Desk Book} (h : Deed d d') :
    Turn d.operands.transferIds d.context d'.operands.transferIds d'.context := by
  cases h with
  | taken hops => exact .quiet (Operands.transferIds_sublist hops) (.refl _)
  | advanced hops _ hb => exact .advanced (Operands.transferIds_sublist hops) hb
  | registered hops hb => exact .quiet (Operands.transferIds_sublist hops) (Book.quiet_register hb)
  | opened hops _ _ hb => exact .opened (Operands.transferIds_sublist hops) hb
  | closed hops hid hz => exact .closed (Operands.transferIds_sublist hops) hid hz
  | lotClosed hops hid _ hl hz => exact .lotClosed (Operands.transferIds_sublist hops) hid hl hz
  | annotated notes hops _ =>
      exact .quiet (Operands.transferIds_sublist hops)
        (.foldl (fun b _ => Book.quiet_annotate b _ _ _) notes _)
  | tagged tags hops _ =>
      exact .quiet (Operands.transferIds_sublist hops)
        (.foldl (fun b tag => Book.quiet_tag b _ tag) tags _)
  | untagged tags hops _ =>
      exact .quiet (Operands.transferIds_sublist hops)
        (.foldl (fun b tag => Book.quiet_untag b _ tag) tags _)
  | drafted hops ht => exact .drafted (Operands.transferIds_sublist hops) ht
  | bound => exact .quiet (List.Sublist.refl _) (Book.quiet_bindLot _ _ _)
  | boundNew =>
      exact .quiet (List.Sublist.refl _)
        ((Book.quiet_bindLot _ _ _).trans (Book.quiet_letCreate _ _))
  | commented => exact .quiet (List.Sublist.refl _) (Book.quiet_setComment _ _ _)
  | applied hops hx hb =>
      refine .applied ?_ hb
      rw [Words.transfers_draftTransaction hx]
      exact Words.transferIds_takeTransaction hops
  | brokenOff hops hx hb =>
      refine .brokenOff ?_ hb
      rw [Words.transfers_draftTransaction hx]
      exact Words.transferIds_takeTransaction hops

/-- **A token is a turn.** -/
theorem Machine.step_turn (m : Machine Book) (t : Token) :
    Turn m.stack.transferIds m.context (m.step .core t).2.stack.transferIds
      (m.step .core t).2.context := by
  rcases m.step_deed t with ⟨d, hd, hm⟩ | ⟨hb, hstack | ⟨s, hstack⟩⟩
  · rw [hm]
    simp only [stack]
    rw [Operands.transferIds_append, Operands.transferIds_append]
    exact hd.turn.append _
  · rw [hb, hstack]
    exact .quiet (List.Sublist.refl _) (.refl _)
  · rw [hb, hstack]
    exact .quiet (List.Sublist.refl _) (.refl _)

end Daybook
