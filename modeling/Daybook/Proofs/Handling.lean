import Daybook.Proofs.Drafts

/-!
# Handling — what a word does to transfers

A book keeps its drafts for good.  A word puts one more after them, or changes the one that lies under the
text on top, or posts those that a transaction takes, as far as it goes; or it leaves drafts and postings
as they are.  So a draft that does not lie on the stack is out of reach.

* `Deed.handling`: **what a deed does to the drafts, to those that lie on the stack, and to the postings**.
* `Book.Apart`, `Machine.step_apart`: drafts that do not lie on the stack stay as they are.
-/

namespace Daybook

/-- The transfer of a posting. -/
def Event.posted? : Event → Option Transfer
  | .posted t _ => some t
  | _ => none

namespace Book

/-- The transfers whose quantities went into lots, the last first. -/
def postings (b : Book) : List Transfer := b.journal.filterMap Event.posted?

/-! ### Changes that leave drafts and postings alone -/

/-- A book with the drafts, the postings and the applied transactions of another. -/
structure Idle (b b' : Book) : Prop where
  transfers : b'.transfers = b.transfers
  postings : b'.postings = b.postings
  applied : b'.appliedIds = b.appliedIds

namespace Idle

variable {b b' b'' : Book}

theorem refl (b : Book) : Idle b b := ⟨rfl, rfl, rfl⟩

theorem trans (h : Idle b b') (h' : Idle b' b'') : Idle b b'' :=
  ⟨h'.transfers.trans h.transfers, h'.postings.trans h.postings, h'.applied.trans h.applied⟩

theorem foldl {α : Type} {f : Book → α → Book} (h : ∀ b a, Idle b (f b a)) (l : List α) (b : Book) :
    Idle b (l.foldl f b) :=
  List.foldlRecOn l f (refl b) fun b' hb a _ => hb.trans (h b' a)

end Idle

theorem idle_updateTags (b : Book) (e : Entity) (f : NameSet → NameSet) : Idle b (b.updateTags e f) := by
  cases e with
  | account id => exact ⟨rfl, rfl, rfl⟩
  | commodity name =>
      simp only [updateTags, updateCommodity]
      split
      · exact .refl b
      · exact ⟨rfl, rfl, rfl⟩

theorem idle_index (b : Book) (tagged : Catalogue (List Entity)) : Idle b { b with tagged } := ⟨rfl, rfl, rfl⟩

theorem idle_tag (b : Book) (e : Entity) (tag : String) : Idle b (b.tag e tag) := by
  simp only [Book.tag]
  exact (idle_index b _).trans (idle_updateTags _ e _)

theorem idle_untag (b : Book) (e : Entity) (tag : String) : Idle b (b.untag e tag) := by
  simp only [Book.untag]
  exact (idle_index b _).trans (idle_updateTags _ e _)

theorem idle_annotate (b : Book) (id : AccountId) (name note : String) :
    Idle b (b.annotate id name note) := ⟨rfl, rfl, rfl⟩

theorem idle_advance {b b' : Book} {date : Date} (h : b.advance date = .ok b') : Idle b b' := by
  obtain ⟨-, rfl⟩ := advance_ok h
  exact ⟨rfl, rfl, rfl⟩

theorem idle_register {b b' : Book} {name description : String}
    (h : b.register name description = .ok b') : Idle b b' := by
  obtain ⟨-, rfl⟩ := register_ok h
  exact ⟨rfl, rfl, rfl⟩

theorem idle_openAccount {b b' : Book} {name : String} {allowed : List String}
    (h : b.openAccount name allowed = .ok b') : Idle b b' := by
  obtain ⟨-, rfl⟩ := openAccount_ok h
  exact ⟨rfl, rfl, rfl⟩

/-! ### Postings -/

theorem postings_posted (b : Book) (t : Transfer) (h : Holding) :
    (b.posted t h).postings = t :: b.postings := by
  have hevents : (b.postingEvents t).filterMap Event.posted? = [t] := by
    simp only [postingEvents]
    split <;> rfl
  simp only [postings, posted]
  rw [List.filterMap_append, hevents, List.singleton_append]

/-- Postings that go through are entered, the last first. -/
theorem postings_postAll_ok {b b' : Book} {ts : List Transfer}
    (h : (Transaction.postAll ts).on b = (.ok (), b')) : b'.postings = ts.reverse ++ b.postings := by
  induction ts generalizing b with
  | nil => cases h; rfl
  | cons t ts ih =>
      obtain ⟨b₁, hpost, h⟩ := Transaction.postAll_cons_ok_iff.1 h
      obtain ⟨-, held, -, rfl⟩ := post_eq_ok_iff.1 hpost
      rw [ih h, postings_posted, List.reverse_cons, List.append_assoc, List.singleton_append]

/-- Postings leave the drafts and the applied transactions alone, also where they break off. -/
theorem kept_postAll {b b' : Book} {ts : List Transfer} {r : Except Fault Unit}
    (h : (Transaction.postAll ts).on b = (r, b')) :
    b'.transfers = b.transfers ∧ b'.appliedIds = b.appliedIds :=
  ⟨Transaction.postAll_invariant (P := fun b₁ => b₁.transfers = b.transfers) (fun _ _ _ _ hb => hb) h
    rfl, (sameDrafts_postAll h).applied⟩

/-- A transaction that is applied has posted all its transfers. -/
theorem postings_apply_ok {b b' : Book} {x : Transaction} (h : x.apply.on b = (.ok (), b')) :
    b'.transfers = b.transfers ∧ b'.appliedIds = x.transfers ++ b.appliedIds
      ∧ b'.postings = (x.transfers.map b.transfer).reverse ++ b.postings := by
  obtain ⟨-, b₁, hp, rfl⟩ := Transaction.apply_eq_ok_iff.1 h
  have hpostings : b₁.postings = _ := postings_postAll_ok hp
  obtain ⟨htransfers, happlied⟩ := kept_postAll hp
  exact ⟨htransfers, congrArg (x.transfers ++ ·) happlied, hpostings⟩

/-- A transaction that breaks off has posted some of the first of its transfers. -/
theorem postings_apply_error {b b' : Book} {x : Transaction} {fault : Fault}
    (h : x.apply.on b = (.error fault, b')) :
    b'.transfers = b.transfers ∧ b'.appliedIds = b.appliedIds
      ∧ ∃ n ≤ x.transfers.length,
        b'.postings = ((x.transfers.take n).map b.transfer).reverse ++ b.postings := by
  rcases Transaction.apply_error_iff.1 h with ⟨-, rfl⟩ | ⟨-, hp⟩
  · exact ⟨rfl, rfl, 0, Nat.zero_le _, rfl⟩
  obtain ⟨htransfers, happlied⟩ := kept_postAll hp
  -- the postings before the failing one went through
  obtain ⟨before, t, after, hts, hb, -⟩ := Transaction.postAll_error hp
  refine ⟨htransfers, happlied, before.length, ?_, ?_⟩
  · rw [← List.length_map (f := b.transfer), hts, List.length_append]
    exact Nat.le_add_right _ _
  · rw [List.map_take, hts, List.take_left]
    exact postings_postAll_ok hb

end Book

/-! ### Drafts and the stack -/

theorem Words.transferIds_taken {ops rest : Operands} {o : Words.TransactionOperands}
    (h : Words.takeTransaction ops = .ok (o, rest)) : rest.transferIds.Sublist ops.transferIds :=
  (List.sublist_append_right _ _).trans (Words.transferIds_takeTransaction h)

/-- The transfers that a transaction would take off the top. -/
def Operands.ready (ops : Operands) : List TransferId :=
  match Words.takeTransaction ops with
  | .ok (o, _) => o.transfers
  | .error _ => []

theorem Operands.ready_of_ok {ops rest : Operands} {o : Words.TransactionOperands}
    (h : Words.takeTransaction ops = .ok (o, rest)) : ready ops = o.transfers := by
  simp only [ready]
  rw [h]

/-- What is done to the drafts of a book, to those that lie on the stack, and to the postings. -/
inductive Handling (d d' : Desk Book) : Prop where
  /-- Drafts and postings are left alone; some transfers may be taken off the stack. -/
  | idle (hids : d'.operands.transferIds.Sublist d.operands.transferIds)
      (hb : d.context.Idle d'.context)
  /-- One more draft is put into the book and on top of the stack. -/
  | drafted {t : Transfer} {below : List TransferId} (hbelow : below.Sublist d.operands.transferIds)
      (hids : d'.operands.transferIds = d.context.transfers.length :: below)
      (hb : d'.context = d.context.draft t)
  /-- A draft that lies on the stack is changed. -/
  | changed {id : TransferId} {f : Transfer → Transfer} (hid : id ∈ d.operands.transferIds)
      (hids : d'.operands.transferIds = d.operands.transferIds)
      (hb : d'.context = d.context.updateTransfer id f)
  /-- A transaction takes drafts off the stack and posts all of them. -/
  | applied {o : Words.TransactionOperands}
      (hops : Words.takeTransaction d.operands = .ok (o, d'.operands))
      (hb : d'.context.transfers = d.context.transfers)
      (happlied : d'.context.appliedIds = o.transfers ++ d.context.appliedIds)
      (hpostings : d'.context.postings
        = (o.transfers.map d.context.transfer).reverse ++ d.context.postings)
  /-- A transaction takes drafts off the stack and posts some of the first. -/
  | brokenOff {o : Words.TransactionOperands} {n : Nat}
      (hops : Words.takeTransaction d.operands = .ok (o, d'.operands)) (hn : n ≤ o.transfers.length)
      (hb : d'.context.transfers = d.context.transfers)
      (happlied : d'.context.appliedIds = d.context.appliedIds)
      (hpostings : d'.context.postings
        = ((o.transfers.take n).map d.context.transfer).reverse ++ d.context.postings)

/-- **What a deed does to the drafts, to those that lie on the stack, and to the postings.** -/
theorem Deed.handling {d d' : Desk Book} (h : Deed d d') : Handling d d' := by
  cases h with
  | taken hops => exact .idle (Operands.transferIds_sublist hops) (.refl _)
  | advanced hops _ hb => exact .idle (Operands.transferIds_sublist hops) (Book.idle_advance hb)
  | registered hops hb => exact .idle (Operands.transferIds_sublist hops) (Book.idle_register hb)
  | opened hops _ _ hb => exact .idle (Operands.transferIds_sublist hops) (Book.idle_openAccount hb)
  | closed hops => exact .idle (Operands.transferIds_sublist hops) ⟨rfl, rfl, rfl⟩
  | lotClosed hops => exact .idle (Operands.transferIds_sublist hops) ⟨rfl, rfl, rfl⟩
  | annotated notes hops =>
      exact .idle (Operands.transferIds_sublist hops)
        (.foldl (fun b _ => b.idle_annotate _ _ _) notes _)
  | tagged tags hops =>
      exact .idle (Operands.transferIds_sublist hops) (.foldl (fun b tag => b.idle_tag _ tag) tags _)
  | untagged tags hops =>
      exact .idle (Operands.transferIds_sublist hops) (.foldl (fun b tag => b.idle_untag _ tag) tags _)
  | drafted hops => exact .drafted (Operands.transferIds_sublist hops) rfl rfl
  | bound => exact .changed List.mem_cons_self rfl rfl
  | @boundNew rest b id lot _ _ =>
      refine .changed (f := fun t => { t with lot, createsLot := true }) List.mem_cons_self rfl ?_
      exact congrArg (fun transfers => { b with transfers }) (List.modify_modify_eq _ _ _ _)
  | commented => exact .changed List.mem_cons_self rfl rfl
  | applied hops hx hb =>
      obtain ⟨htransfers, happlied, hpostings⟩ := Book.postings_apply_ok hb
      rw [Words.transfers_draftTransaction hx] at happlied hpostings
      exact .applied hops htransfers happlied hpostings
  | brokenOff hops hx hb =>
      obtain ⟨htransfers, happlied, n, hn, hpostings⟩ := Book.postings_apply_error hb
      rw [Words.transfers_draftTransaction hx] at hn hpostings
      exact .brokenOff hops hn htransfers happlied hpostings

/-! ### Drafts out of reach -/

/-- The transfers `ts` are the first that a book keeps, and none of them is among operands. -/
structure Book.Apart (b : Book) (ts : List Transfer) (ids : List TransferId) : Prop where
  kept : ts <+: b.transfers
  beyond : ∀ id ∈ ids, ts.length ≤ id

/-- Drafts that do not lie on the stack stay as they are. -/
theorem Deed.apart {d d' : Desk Book} (h : Deed d d') {ts : List Transfer} {below : List TransferId}
    (ha : d.context.Apart ts (d.operands.transferIds ++ below)) :
    d'.context.Apart ts (d'.operands.transferIds ++ below) := by
  have hsublist : ∀ {ids : List TransferId}, ids.Sublist d.operands.transferIds →
      ∀ id ∈ ids ++ below, ts.length ≤ id := fun hids id hid =>
    ha.beyond id ((hids.append_right below).subset hid)
  cases h.handling with
  | idle hids hb => exact ⟨hb.transfers ▸ ha.kept, hsublist hids⟩
  | drafted hbelow hids hb =>
      refine ⟨hb ▸ ha.kept.trans (List.prefix_append _ _), ?_⟩
      rw [hids, List.cons_append, List.forall_mem_cons]
      exact ⟨ha.kept.length_le, hsublist hbelow⟩
  | @changed id f hid hids hb =>
      -- the change is made beyond the transfers that are kept
      have hbeyond : ts.length ≤ id := ha.beyond id (List.mem_append_left _ hid)
      have hkept : (d.context.transfers.modify id f).take ts.length
          = d.context.transfers.take ts.length := by
        rw [List.take_modify, List.modify_eq_self (Nat.le_trans (List.length_take_le _ _) hbeyond)]
      refine ⟨List.prefix_iff_eq_take.2 ?_, hsublist (hids ▸ List.Sublist.refl _)⟩
      rw [hb]
      exact (List.prefix_iff_eq_take.1 ha.kept).trans hkept.symm
  | applied hops hb => exact ⟨hb ▸ ha.kept, hsublist (Words.transferIds_taken hops)⟩
  | brokenOff hops _ hb => exact ⟨hb ▸ ha.kept, hsublist (Words.transferIds_taken hops)⟩

/-- A token leaves the drafts as they are that do not lie on the stack. -/
theorem Machine.step_apart {m : Machine Book} {ts : List Transfer}
    (ha : m.context.Apart ts m.stack.transferIds) (t : Token) :
    (m.step .core t).2.context.Apart ts (m.step .core t).2.stack.transferIds := by
  rcases m.step_deed t with ⟨d, hd, hm⟩ | ⟨hb, hstack | ⟨s, hstack⟩⟩
  · rw [hm]
    simp only [stack] at ha ⊢
    rw [Operands.transferIds_append] at ha ⊢
    exact hd.apart ha
  · rw [hb, hstack]
    exact ha
  · rw [hb, hstack]
    exact ha

end Daybook
