import Daybook.Proofs.Lossless
import Daybook.Proofs.Run

/-!
# Settling — every draft is applied once

A token posts some of the transfers that lie ready on the stack for a transaction, and takes them off it.
No word pushes them again, so none of them is posted twice.  In a run that completes no word loses a
transfer either, and at the end the stack is empty: then every draft has been applied.

* `Machine.posts`, `Machine.postedBy`: the transfers that tokens post.
* `Book.Spent`, `Machine.feed_spent`: **no transfer is posted twice, and none that lies on the stack has
  been posted**.
* `Machine.Accounted`, `Machine.proceeds_accounted`: while a run goes on, a draft lies on the stack or has
  been applied.
* `Book.transfers_settled`: both, and so what a completed reading has done with its transfers.
-/

namespace Daybook

namespace Machine

/-- The transfers that a token posts: of those that lie ready on top, as many of the first as there are
new postings. -/
def posts (m : Machine Book) (t : Token) : List TransferId :=
  (Operands.ready m.visible).take
    ((m.step .core t).2.context.postings.length - m.context.postings.length)

/-- The transfers that tokens post, the last first. -/
def postedBy (m : Machine Book) : List Token → List TransferId
  | [] => []
  | t :: ts => postedBy (m.step .core t).2 ts ++ (m.posts t).reverse

end Machine

/-! ### Posted once -/

/-- The postings of a book are of the transfers `posted`, the last first.  None of these is there twice,
and none of them lies on the stack. -/
structure Book.Spent (b : Book) (posted ids : List TransferId) : Prop where
  postings : b.postings = posted.map b.transfer
  nodup : (posted ++ ids).Nodup
  drafted : ∀ id ∈ posted ++ ids, id < b.transfers.length
  applied : b.appliedIds ⊆ posted

namespace Book.Spent

variable {b b' : Book} {posted ids ids' : List TransferId}

theorem empty : Spent .empty [] [] :=
  ⟨rfl, List.nodup_nil, fun _ h => absurd h List.not_mem_nil, List.Subset.refl _⟩

/-- Transfers that are taken off the stack are posted. -/
theorem post (h : Spent b posted ids) {taken : List TransferId}
    (hids : (taken.reverse ++ ids').Sublist ids) (hb : b'.transfers = b.transfers)
    (happlied : b'.appliedIds ⊆ taken ++ b.appliedIds)
    (hpostings : b'.postings = (taken.map b.transfer).reverse ++ b.postings) :
    Spent b' (taken.reverse ++ posted) ids' := by
  have htransfer : b'.transfer = b.transfer := by
    funext id
    simp only [transfer]
    rw [hb]
  have hperm : ((taken.reverse ++ posted) ++ ids').Perm (posted ++ (taken.reverse ++ ids')) := by
    rw [List.append_assoc]
    exact List.perm_append_comm_assoc _ _ _
  have hsub : (posted ++ (taken.reverse ++ ids')).Sublist (posted ++ ids) := hids.append_left posted
  refine ⟨?_, hperm.nodup_iff.2 (h.nodup.sublist hsub), ?_, ?_⟩
  · rw [hpostings, h.postings, htransfer, List.map_append, List.map_reverse]
  · intro id hid
    rw [hb]
    exact h.drafted id (hsub.subset (hperm.mem_iff.1 hid))
  · intro id hid
    rcases List.mem_append.1 (happlied hid) with htaken | hbefore
    · exact List.mem_append_left _ (List.mem_reverse.2 htaken)
    · exact List.mem_append_right _ (h.applied hbefore)

/-- What is posted is no later draft. -/
theorem draft (h : Spent b posted ids) (t : Transfer) (hids : ids'.Sublist ids) :
    Spent (b.draft t) posted (b.transfers.length :: ids') := by
  have hsub : (posted ++ ids').Sublist (posted ++ ids) := hids.append_left posted
  have hperm : (posted ++ b.transfers.length :: ids').Perm (b.transfers.length :: (posted ++ ids')) :=
    List.perm_middle
  have hlength : (b.draft t).transfers.length = b.transfers.length + 1 := List.length_append
  refine ⟨?_, ?_, ?_, h.applied⟩
  · refine h.postings.trans (List.map_congr_left fun id hid => ?_)
    have hlt := h.drafted id (List.mem_append_left _ hid)
    simp only [transfer, Book.draft]
    rw [List.getD_eq_getElem?_getD, List.getD_eq_getElem?_getD, List.getElem?_append_left hlt]
  · refine hperm.nodup_iff.2 (List.nodup_cons.2 ⟨?_, h.nodup.sublist hsub⟩)
    intro hid
    exact Nat.lt_irrefl _ (h.drafted _ (hsub.subset hid))
  · intro id hid
    rw [hlength]
    rcases List.mem_cons.1 (hperm.mem_iff.1 hid) with rfl | hid
    · exact Nat.lt_succ_self _
    · exact Nat.lt_succ_of_lt (h.drafted id (hsub.subset hid))

/-- What is changed on the stack has not been posted. -/
theorem update (h : Spent b posted ids) {id : TransferId} (hid : id ∈ ids) (f : Transfer → Transfer) :
    Spent (b.updateTransfer id f) posted ids := by
  refine ⟨?_, h.nodup, fun i hi => ?_, h.applied⟩
  · refine h.postings.trans (List.map_congr_left fun i hi => ?_)
    have hne : id ≠ i := by
      rintro rfl
      exact (List.nodup_append.1 h.nodup).2.2 _ hi _ hid rfl
    simp only [transfer, updateTransfer]
    rw [List.getD_eq_getElem?_getD, List.getD_eq_getElem?_getD, List.getElem?_modify_ne _ _ hne]
  · simp only [updateTransfer]
    rw [List.length_modify]
    exact h.drafted i hi

end Book.Spent

/-- A word posts transfers that it takes off the stack. -/
theorem Handling.spent {d d' : Desk Book} (h : Handling d d') {posted below : List TransferId}
    (hs : d.context.Spent posted (d.operands.transferIds ++ below)) :
    d'.context.Spent
      (((Operands.ready d.operands).take
        (d'.context.postings.length - d.context.postings.length)).reverse ++ posted)
      (d'.operands.transferIds ++ below) := by
  -- as many are posted as there are new postings
  have hcount : ∀ {taken : List TransferId},
      d'.context.postings = (taken.map d.context.transfer).reverse ++ d.context.postings →
        d'.context.postings.length - d.context.postings.length = taken.length := fun hpostings => by
    rw [hpostings, List.length_append, List.length_reverse, List.length_map, Nat.add_sub_cancel]
  cases h with
  | idle hids hb =>
      rw [hb.postings, Nat.sub_self, List.take_zero]
      exact hs.post (hids.append_right below) hb.transfers (hb.applied ▸ List.Subset.refl _)
        hb.postings
  | @drafted t ids hbelow hids hb =>
      rw [hb, hids]
      show (d.context.draft t).Spent (((Operands.ready d.operands).take
        (d.context.postings.length - d.context.postings.length)).reverse ++ posted) _
      rw [Nat.sub_self, List.take_zero]
      exact hs.draft t (hbelow.append_right below)
  | @changed id f hid hids hb =>
      rw [hb, hids]
      show (d.context.updateTransfer id f).Spent (((Operands.ready d.operands).take
        (d.context.postings.length - d.context.postings.length)).reverse ++ posted) _
      rw [Nat.sub_self, List.take_zero]
      exact hs.update (List.mem_append_left _ hid) f
  | @applied o hops hb happlied hpostings =>
      rw [hcount hpostings, Operands.ready_of_ok hops, List.take_length]
      refine hs.post ?_ hb (happlied ▸ List.Subset.refl _) hpostings
      rw [← List.append_assoc]
      exact (Words.transferIds_takeTransaction hops).append_right below
  | @brokenOff o n hops hn hb happlied hpostings =>
      rw [hcount hpostings, Operands.ready_of_ok hops, List.length_take_of_le hn]
      refine hs.post ?_ hb ?_ hpostings
      · rw [← List.append_assoc]
        have hfirst : (o.transfers.take n).reverse.Sublist o.transfers.reverse :=
          (List.take_sublist n _).reverse
        exact ((hfirst.append_right _).trans (Words.transferIds_takeTransaction hops)).append_right below
      · rw [happlied]
        exact List.subset_append_right _ _

namespace Machine

/-- A token posts transfers that it takes off the stack. -/
theorem step_spent {m : Machine Book} {posted : List TransferId}
    (hs : m.context.Spent posted m.stack.transferIds) (t : Token) :
    (m.step .core t).2.context.Spent ((m.posts t).reverse ++ posted)
      (m.step .core t).2.stack.transferIds := by
  have hnone : (m.step .core t).2.context = m.context → m.posts t = [] := fun hb => by
    simp only [posts]
    rw [hb, Nat.sub_self, List.take_zero]
  rcases m.step_deed t with ⟨d, hd, hm⟩ | ⟨hb, hstack | ⟨s, hstack⟩⟩
  · simp only [posts]
    rw [hm]
    simp only [stack] at hs ⊢
    rw [Operands.transferIds_append] at hs ⊢
    exact hd.handling.spent hs
  · rw [hnone hb, hb, hstack]
    exact hs
  · rw [hnone hb, hb, hstack]
    exact hs

/-- **No transfer is posted twice, and none that lies on the stack has been posted.** -/
theorem feed_spent {m : Machine Book} {posted : List TransferId} (ts : List Token)
    (hs : m.context.Spent posted m.stack.transferIds) :
    (m.feed .core ts).context.Spent (m.postedBy ts ++ posted) (m.feed .core ts).stack.transferIds := by
  induction ts generalizing m posted with
  | nil => exact hs
  | cons t ts ih =>
      have hrest := ih (step_spent hs t)
      rw [← List.append_assoc] at hrest
      exact hrest

/-! ### None is lost -/

/-- Every draft lies on the stack or has been applied, by number. -/
def Accounted (m : Machine Book) : Prop :=
  m.context.appliedIds.length + m.stack.transferIds.length = m.context.transfers.length

end Machine

/-- By number: a word applies transfers that it takes off the stack, or makes one more draft. -/
theorem Handling.count {d d' : Desk Book} (h : Handling d d') :
    (∃ k, d'.context.appliedIds.length = k + d.context.appliedIds.length
        ∧ k + d'.operands.transferIds.length ≤ d.operands.transferIds.length
        ∧ d'.context.transfers.length = d.context.transfers.length)
      ∨ d.context.transfers.length ∈ d'.operands.transferIds
        ∧ d'.context.appliedIds.length = d.context.appliedIds.length
        ∧ d'.operands.transferIds.length ≤ d.operands.transferIds.length + 1
        ∧ d'.context.transfers.length = d.context.transfers.length + 1 := by
  cases h with
  | idle hids hb =>
      refine .inl ⟨0, ?_, (Nat.zero_add _).symm ▸ hids.length_le, congrArg List.length hb.transfers⟩
      rw [hb.applied, Nat.zero_add]
  | @drafted t below hbelow hids hb =>
      refine .inr ⟨hids ▸ List.mem_cons_self, ?_, ?_, ?_⟩
      · rw [hb]
        rfl
      · rw [hids]
        exact Nat.succ_le_succ hbelow.length_le
      · rw [hb]
        exact List.length_append
  | @changed id f hid hids hb =>
      refine .inl ⟨0, ?_, ?_, ?_⟩
      · rw [hb, Nat.zero_add]
        rfl
      · exact Nat.le_of_eq (by rw [hids, Nat.zero_add])
      · rw [hb]
        exact List.length_modify _ _ _
  | @applied o hops hb happlied =>
      refine .inl ⟨o.transfers.length, ?_, ?_, congrArg List.length hb⟩
      · rw [happlied, List.length_append]
      · simpa using (Words.transferIds_takeTransaction hops).length_le
  | brokenOff hops hn hb happlied =>
      refine .inl ⟨0, ?_, ?_, congrArg List.length hb⟩
      · rw [happlied, Nat.zero_add]
      · rw [Nat.zero_add]
        exact (Words.transferIds_taken hops).length_le

/-- A word that goes through leaves no draft without account. -/
theorem Lossless.accounted {d d' : Desk Book} (h : Lossless d d') (hd : Handling d d')
    (hlt : ∀ id ∈ d.operands.transferIds, id < d.context.transfers.length) :
    d'.context.appliedIds.length + d'.operands.transferIds.length + d.context.transfers.length
      = d.context.appliedIds.length + d.operands.transferIds.length + d'.context.transfers.length := by
  rcases hd.count with ⟨k, happlied, hids, hlength⟩ | ⟨hnew, happlied, hids, hlength⟩
  · cases h with
    | kept hkept => rw [hkept] at hids ⊢; omega
    | drafted hdrafted => rw [hdrafted, List.length_cons] at hids; omega
    | applied htaken happlied' =>
        rw [htaken, List.length_append, List.length_reverse] at hids ⊢
        rw [happlied', List.length_append] at happlied ⊢
        omega
  · -- the number of a new draft did not lie on the stack before
    have hnot : d.context.transfers.length ∉ d.operands.transferIds :=
      fun hid => Nat.lt_irrefl _ (hlt _ hid)
    cases h with
    | kept hkept => exact absurd (hkept ▸ hnew) hnot
    | drafted hdrafted => rw [hdrafted, List.length_cons]; omega
    | applied htaken _ => exact absurd (htaken ▸ List.mem_append_right _ hnew) hnot

namespace Machine

/-- A token that goes on leaves no draft without account. -/
theorem step_accounted {m m' : Machine Book} {t : Token} {signal : Signal}
    (hm : m.context.UsedOnce m.stack.transferIds) (h : m.step .core t = (.ok signal, m'))
    (ha : m.Accounted) : m'.Accounted := by
  cases t with
  | word s =>
      simp only [step, call] at h
      split at h
      · cases h; exact ha
      split at h
      · split at h
        · cases h
        · cases h; exact ha
      split at h
      · cases h; exact ha
      · next w hw =>
          have hmem := Vocabulary.core_mem hw
          cases hd : w s m.desk with
          | mk r d =>
              rw [hd] at h
              cases h
              have hlt : ∀ id ∈ m.desk.operands.transferIds, id < m.desk.context.transfers.length :=
                fun id hid => hm.drafted id (List.mem_append_right _ (by
                  rw [stack, Operands.transferIds_append]
                  exact List.mem_append_left _ hid))
              have hcount := (Words.core_lossless hmem hd).accounted (Words.core_deed hmem hd).handling hlt
              simp only [Accounted, stack, withDesk] at ha ⊢
              rw [Operands.transferIds_append, List.length_append] at ha ⊢
              simp only [desk] at hcount
              omega
  | quoted s =>
      simp only [step] at h
      cases h
      split
      · exact ha
      · exact ha
  | opening => cases h; exact ha
  | closing =>
      simp only [step, closeScope] at h
      split at h
      · cases h
      · next outer rest henclosing =>
          split at h
          · cases h
            simp only [Accounted, stack] at ha ⊢
            rw [henclosing, List.flatten_cons, ← List.append_assoc] at ha
            exact ha
          · cases h

/-- **While a run goes on, every draft lies on the stack or has been applied.** -/
theorem proceeds_accounted {m m' : Machine Book} {ts : List Token} (h : Proceeds .core m ts m')
    (hm : m.context.UsedOnce m.stack.transferIds) (ha : m.Accounted) : m'.Accounted := by
  induction h with
  | refl => exact ha
  | @more m m₁ m' t ts hs r ih =>
      have hturn := m.step_turn t
      rw [hs] at hturn
      exact ih (hm.turn hturn) (step_accounted hm hs ha)

end Machine

namespace Book

/-- Every number of a draft is in a list of different ones, if it is as long as there are drafts. -/
theorem perm_range {n : ℕ} {ids : List TransferId} (hn : ids.Nodup) (hlt : ∀ id ∈ ids, id < n)
    (hlength : n ≤ ids.length) : ids.Perm (List.range n) :=
  (List.subperm_of_subset hn fun id hid => List.mem_range.2 (hlt id hid)).perm_of_length_le
    (by rwa [List.length_range])

/-- **Transfers are used once.**  After any tokens, the postings are of different transfers, of which
none lies on the stack, and the transfers on the stack are different ones.  After a reading that
completes, every draft has been posted and is in one applied transaction. -/
theorem transfers_settled :
    (∀ ts : List Token,
      let m := (Machine.start .empty).feed .core ts
      let posted := (Machine.start .empty).postedBy ts
      m.context.postings = posted.map m.context.transfer
        ∧ (posted ++ m.stack.transferIds).Nodup)
    ∧ ∀ source b, ofSource source = (.completed, b) →
        ((Machine.start .empty).postedBy (Lexer.ofString source).tokens).Perm
            (List.range b.transfers.length)
          ∧ b.appliedIds.Perm (List.range b.transfers.length) := by
  have hspent : ∀ ts : List Token,
      ((Machine.start .empty).feed .core ts).context.Spent ((Machine.start .empty).postedBy ts)
        ((Machine.start .empty).feed .core ts).stack.transferIds := fun ts => by
    have h := Machine.feed_spent (m := .start .empty) ts Spent.empty
    rwa [List.append_nil] at h
  refine ⟨fun ts => ⟨(hspent ts).postings, (hspent ts).nodup⟩, fun source b h => ?_⟩
  obtain ⟨m, hr, heven, rfl⟩ := ofSource_completed h
  have hposted := hspent (Lexer.ofString source).tokens
  have hused : m.context.UsedOnce m.stack.transferIds := by
    rw [← hr.feed_eq]
    exact Machine.feed_induction (P := fun m : Machine Book => m.context.UsedOnce m.stack.transferIds)
      (fun m t hm => hm.turn (m.step_turn t)) _ UsedOnce.empty
  have haccounted : m.Accounted := Machine.proceeds_accounted hr UsedOnce.empty rfl
  -- at the end nothing is left on the stack
  have hstack : m.stack.transferIds = [] := by
    rw [Machine.finish_eq_none_iff.1 heven]
    rfl
  rw [hr.feed_eq, hstack] at hposted
  rw [hstack] at hused
  have hlength : m.context.transfers.length ≤ m.context.appliedIds.length := by
    simp only [Machine.Accounted] at haccounted
    rw [hstack] at haccounted
    exact Nat.le_of_eq haccounted.symm
  have hnodup : m.context.appliedIds.Nodup := (List.nodup_append.1 hused.nodup).1
  have hle := (List.subperm_of_subset hnodup hposted.applied).length_le
  exact ⟨perm_range (List.nodup_append.1 hposted.nodup).1
      (fun id hid => hposted.drafted id (List.mem_append_left _ hid)) (Nat.le_trans hlength hle),
    perm_range hnodup (fun id hid => hused.drafted id (List.mem_append_left _ hid)) hlength⟩

/-- A ledger in which a transfer waits while another transaction is made in a scope. -/
def waiting : String :=
  "(U d commodity) (Equity open) x y Equity 1 U xfer
  (x y Equity 2 U xfer Equity -2 U xfer xact) Equity -1 U xfer xact"

/-- All four transfers are applied, those of the inner transaction first. -/
theorem transfers_settled_waiting :
    (ofSource waiting).1 = .completed
      ∧ (ofSource waiting).2.appliedIds = [0, 3, 1, 2]
      ∧ (ofSource waiting).2.transfers.length = 4
      ∧ ((Machine.start .empty).postedBy (Lexer.ofString waiting).tokens).Perm
        (List.range (ofSource waiting).2.transfers.length) := by
  have hread : (ofSource waiting).1 = .completed ∧ (ofSource waiting).2.appliedIds = [0, 3, 1, 2]
      ∧ (ofSource waiting).2.transfers.length = 4 := by
    decide +kernel
  exact ⟨hread.1, hread.2.1, hread.2.2, (transfers_settled.2 waiting _ (Prod.ext hread.1 rfl)).1⟩

end Book

end Daybook
