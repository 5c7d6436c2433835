import Daybook.Proofs.Run
import Daybook.Proofs.Turns
import Mathlib.Data.List.Perm.Subperm

/-!
# Drafts — transfers are used once

A transfer is drafted onto the stack under a number of its own, and is taken off it by the transaction
that applies it.  No word pushes one again that was taken off for good.

* `Turn.drafts`: what a turn does to the drafts and to the transfers on the stack.
* `UsedOnce`: transfers on the stack and applied ones are drafts, and each of them is there once.
* `UsedOnce.turn`: **every turn keeps it so**.
* `subperm_transfers`: drafts with different numbers are a part of all drafts.
-/

namespace Daybook

namespace Book

/-- A book with the drafts and the applied transactions of another, apart from bindings and comments. -/
structure SameDrafts (b b' : Book) : Prop where
  transfers : b'.transfers.map Transfer.unbound = b.transfers.map Transfer.unbound
  applied : b'.appliedIds = b.appliedIds

theorem SameDrafts.refl (b : Book) : SameDrafts b b := ⟨rfl, rfl⟩

theorem Quiet.sameDrafts {b b' : Book} (h : b.Quiet b') : SameDrafts b b' := ⟨h.transfers, h.applied⟩

theorem SameDrafts.length_transfers {b b' : Book} (h : SameDrafts b b') :
    b'.transfers.length = b.transfers.length := by
  have hl := congrArg List.length h.transfers
  rwa [List.length_map, List.length_map] at hl

/-- A draft is the same but for its binding and comment. -/
theorem SameDrafts.transfer {b b' : Book} (h : SameDrafts b b') (id : TransferId) :
    (b'.transfer id).unbound = (b.transfer id).unbound := by
  have hd := congrArg (·.getD id (default : Transfer).unbound) h.transfers
  rwa [List.getD_map, List.getD_map] at hd

theorem SameDrafts.map_transfer {b b' : Book} (h : SameDrafts b b') (ids : List TransferId) :
    (ids.map b'.transfer).map Transfer.unbound = (ids.map b.transfer).map Transfer.unbound := by
  rw [List.map_map, List.map_map]
  exact List.map_congr_left fun id _ => h.transfer id

theorem sameDrafts_advance {b b' : Book} {date : Date} (h : b.advance date = .ok b') :
    SameDrafts b b' := by
  obtain ⟨-, rfl⟩ := advance_ok h
  exact ⟨rfl, rfl⟩

theorem sameDrafts_openAccount {b b' : Book} {name : String} {allowed : List String}
    (h : b.openAccount name allowed = .ok b') : SameDrafts b b' := by
  obtain ⟨-, rfl⟩ := openAccount_ok h
  exact ⟨rfl, rfl⟩

theorem sameDrafts_posted (b : Book) (t : Transfer) (h : Holding) : SameDrafts b (b.posted t h) := by
  refine ⟨rfl, ?_⟩
  have hevents : (b.postingEvents t).flatMap Event.appliedIds = [] := by
    simp only [postingEvents]
    split <;> rfl
  simp only [appliedIds, posted]
  rw [List.flatMap_append, hevents, List.nil_append]

theorem SameDrafts.trans {b b' b'' : Book} (h : SameDrafts b b') (h' : SameDrafts b' b'') :
    SameDrafts b b'' :=
  ⟨h'.transfers.trans h.transfers, h'.applied.trans h.applied⟩

/-- Postings leave the drafts alone, also where they break off. -/
theorem sameDrafts_postAll {b b' : Book} {ts : List Transfer} {r : Except Fault Unit}
    (h : (Transaction.postAll ts).on b = (r, b')) : SameDrafts b b' :=
  Transaction.postAll_invariant (fun b₁ t _ held hb => hb.trans (sameDrafts_posted b₁ t held)) h
    (.refl b)

end Book

/-- What a turn does to the drafts and to the transfers on the stack: nothing, apart from taking some off
the stack; or one more draft; or a transaction is applied. -/
theorem Turn.drafts {ids ids' : List TransferId} {b b' : Book} (h : Turn ids b ids' b') :
    ids'.Sublist ids ∧ b.SameDrafts b'
      ∨ (∃ t below, below.Sublist ids ∧ ids' = b.transfers.length :: below ∧ b' = b.draft t)
      ∨ ∃ (b₁ : Book) (x : Transaction), (x.transfers.reverse ++ ids').Sublist ids
        ∧ b.SameDrafts b₁ ∧ b' = b₁.record (.applied x.entity x.description x.transfers) := by
  cases h with
  | quiet hids hb => exact .inl ⟨hids, hb.sameDrafts⟩
  | advanced hids hb => exact .inl ⟨hids, Book.sameDrafts_advance hb⟩
  | opened hids hb => exact .inl ⟨hids, Book.sameDrafts_openAccount hb⟩
  | closed hids => exact .inl ⟨hids, rfl, rfl⟩
  | lotClosed hids => exact .inl ⟨hids, rfl, rfl⟩
  | drafted hids => exact .inr (.inl ⟨_, _, hids, rfl, rfl⟩)
  | applied hids hb =>
      obtain ⟨-, b₁, hp, rfl⟩ := Transaction.apply_eq_ok_iff.1 hb
      exact .inr (.inr ⟨b₁, _, hids, Book.sameDrafts_postAll hp, rfl⟩)
  | brokenOff hids hb =>
      have hids' := (List.sublist_append_right _ _).trans hids
      rcases Transaction.apply_error_iff.1 hb with ⟨-, rfl⟩ | ⟨-, hp⟩
      · exact .inl ⟨hids', .refl _⟩
      · exact .inl ⟨hids', Book.sameDrafts_postAll hp⟩

/-- Drafts stay, apart from bindings and comments. -/
theorem Turn.transfers_grow {ids ids' : List TransferId} {b b' : Book} (h : Turn ids b ids' b') :
    b.transfers.map Transfer.unbound <+: b'.transfers.map Transfer.unbound := by
  rcases h.drafts with ⟨-, hb⟩ | ⟨t, below, -, -, rfl⟩ | ⟨b₁, x, -, hb, rfl⟩
  · exact ⟨[], (List.append_nil _).trans hb.transfers.symm⟩
  · exact (List.prefix_append _ [t]).map _
  · exact ⟨[], (List.append_nil _).trans hb.transfers.symm⟩

/-- The numbers of the transfers that lie on the stack, and of those that were applied, are numbers of
drafts, and none of them is there twice. -/
structure Book.UsedOnce (b : Book) (ids : List TransferId) : Prop where
  nodup : (b.appliedIds ++ ids).Nodup
  drafted : ∀ id ∈ b.appliedIds ++ ids, id < b.transfers.length

namespace Book.UsedOnce

variable {b b' : Book} {ids ids' : List TransferId}

theorem empty : UsedOnce .empty [] := ⟨List.nodup_nil, fun _ h => absurd h List.not_mem_nil⟩

theorem sublist (h : UsedOnce b ids) (hids : ids'.Sublist ids) : UsedOnce b ids' :=
  ⟨h.nodup.sublist (hids.append_left _), fun id hid => h.drafted id ((hids.append_left _).subset hid)⟩

/-- What a transaction takes off the stack can be counted among what was applied. -/
theorem applying (h : UsedOnce b ids) {taken : List TransferId}
    (hids : (taken.reverse ++ ids').Sublist ids) :
    ((taken ++ b.appliedIds) ++ ids').Nodup
      ∧ ∀ id ∈ (taken ++ b.appliedIds) ++ ids', id < b.transfers.length := by
  have hperm : ((taken ++ b.appliedIds) ++ ids').Perm (b.appliedIds ++ (taken.reverse ++ ids')) := by
    rw [List.append_assoc]
    refine List.perm_append_comm_assoc _ _ _ |>.trans ?_
    exact ((List.reverse_perm taken).symm.append_right ids').append_left _
  have h' := h.sublist hids
  exact ⟨hperm.nodup_iff.2 h'.nodup, fun id hid => h'.drafted id (hperm.mem_iff.1 hid)⟩

/-- **Every turn keeps it so that transfers are used once.** -/
theorem turn (h : UsedOnce b ids) (ht : Turn ids b ids' b') : UsedOnce b' ids' := by
  rcases ht.drafts with ⟨hids, hb⟩ | ⟨t, below, hids, rfl, rfl⟩ | ⟨b₁, x, hids, hb, rfl⟩
  · have h' := h.sublist hids
    exact ⟨hb.applied ▸ h'.nodup, fun id hid => hb.length_transfers ▸ h'.drafted id (hb.applied ▸ hid)⟩
  · -- the number of a new draft is larger than all before
    have h' := h.sublist hids
    have hperm : (b.appliedIds ++ b.transfers.length :: below).Perm
        (b.transfers.length :: (b.appliedIds ++ below)) := List.perm_middle
    have hlength : (b.draft t).transfers.length = b.transfers.length + 1 := List.length_append
    refine ⟨hperm.nodup_iff.2 (List.nodup_cons.2 ⟨?_, h'.nodup⟩), ?_⟩
    · intro hmem
      exact Nat.lt_irrefl _ (h'.drafted _ hmem)
    · intro id hid
      rw [hlength]
      rcases List.mem_cons.1 (hperm.mem_iff.1 hid) with rfl | hid
      · exact Nat.lt_succ_self _
      · exact Nat.lt_succ_of_lt (h'.drafted id hid)
  · obtain ⟨hnodup, hdrafted⟩ := h.applying hids
    have happlied : (b₁.record (.applied x.entity x.description x.transfers)).appliedIds
        = x.transfers ++ b.appliedIds := by
      rw [← hb.applied]
      rfl
    exact ⟨happlied.symm ▸ hnodup,
      fun id hid => hb.length_transfers.symm ▸ hdrafted id (happlied ▸ hid)⟩

end Book.UsedOnce

/-- So it is in every run. -/
theorem Machine.usedOnce_after (ts : List Token) :
    (Machine.after ts).context.UsedOnce (Machine.after ts).stack.transferIds :=
  after_induction (I := fun m => m.context.UsedOnce m.stack.transferIds) .empty
    (fun m t hm => hm.turn (m.step_turn t)) ts

/-- Drafts with different numbers are a part of all drafts. -/
theorem Book.subperm_transfers {b : Book} {ids : List TransferId} (hn : ids.Nodup)
    (hlt : ∀ id ∈ ids, id < b.transfers.length) : (ids.map b.transfer).Subperm b.transfers := by
  -- different numbers below the length are a part of the range, in some order
  obtain ⟨l, hl, hs⟩ : ids.Subperm (List.range b.transfers.length) :=
    List.subperm_of_subset hn fun id hid => List.mem_range.2 (hlt id hid)
  exact ⟨l.map b.transfer, hl.map _, map_getD_range b.transfers ▸ hs.map b.transfer⟩

end Daybook
