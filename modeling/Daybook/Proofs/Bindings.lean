import Daybook.Proofs.Calls
import Daybook.Proofs.Handling

/-!
# Bindings — which lots transfers go into

A transfer goes into the default lot until it is bound to another, and then into the lot of its last
binding.  Whether it may create this lot is a mark that `create-lot` sets and nothing takes away.

* `bindings`: the log of what was bound to which lot.
* `Effect.bonds`: **only `lot` and `create-lot` touch bindings**, and a draft begins without one.
* `bound_after`: so the lot of a draft is that of its last binding, and it may create its lot when any of
  its bindings was made by `create-lot`.
-/

namespace Daybook

/-! ### The log of bindings -/

/-- A transfer was bound to a lot: to one that exists, or to one that may be created for it. -/
inductive Binding where
  | existing (id : TransferId) (lot : String)
  | fresh (id : TransferId) (lot : String)
  deriving DecidableEq, Repr

namespace Binding

/-- The transfer that was bound. -/
def transfer : Binding → TransferId
  | existing id _ => id
  | fresh id _ => id

/-- The lot to which it was bound. -/
def lot : Binding → String
  | existing _ lot => lot
  | fresh _ lot => lot

/-- The last binding of a transfer. -/
def last (id : TransferId) (log : List Binding) : Option Binding := lastOf (fun x => x.transfer == id) log

/-- A transfer was bound by `create-lot` at some time. -/
def EverFresh (log : List Binding) (id : TransferId) : Prop := ∃ lot, fresh id lot ∈ log

/-- A transfer was bound by `create-lot` and not bound again since. -/
def LastFresh (log : List Binding) (id : TransferId) : Prop := ∃ lot, last id log = some (fresh id lot)

theorem last_concat (id : TransferId) (log : List Binding) (x : Binding) :
    last id (log ++ [x]) = if x.transfer = id then some x else last id log := by
  simp only [last]
  rw [lastOf_concat]
  by_cases h : x.transfer = id
  · simp [h]
  · simp [h]

theorem last_eq_none {id : TransferId} {log : List Binding} (h : ∀ x ∈ log, x.transfer ≠ id) :
    last id log = none := by
  refine List.find?_eq_none.2 fun x hx => ?_
  simpa using h x (List.mem_reverse.1 hx)

theorem LastFresh.everFresh {log : List Binding} {id : TransferId} (h : LastFresh log id) :
    EverFresh log id := by
  obtain ⟨lot, h⟩ := h
  exact ⟨lot, List.mem_reverse.1 (List.mem_of_find?_eq_some h)⟩

end Binding

/-- What a call binds. -/
def Call.bindings (c : Call) : List Binding :=
  match c.desk.operands with
  | .text lot :: .transfer id :: _ =>
    if c.name = "lot" then [.existing id lot]
    else if c.name = "create-lot" then [.fresh id lot]
    else []
  | _ => []

theorem Call.bindings_of_notMem {s : String} (hs : s ∉ ["lot", "create-lot"]) (d : Desk Book) :
    bindings ⟨s, d⟩ = [] := by
  simp only [List.mem_cons, not_or] at hs
  obtain ⟨hl, hc, -⟩ := hs
  simp only [bindings]
  split
  · rw [if_neg hl, if_neg hc]
  · rfl

namespace Book

/-- What the calls of a run have bound. -/
def bindings (ts : List Token) : List Binding := logOf Call.bindings ts

/-! ### Drafts and their bindings -/

/-- The lot of each draft, and whether it may create it. -/
def bonds (b : Book) : List (String × Bool) := b.transfers.map fun t => (t.lot, t.createsLot)

theorem bonds_congr {b b' : Book} (h : b'.transfers = b.transfers) : b'.bonds = b.bonds :=
  congrArg (List.map fun t : Transfer => (t.lot, t.createsLot)) h

theorem Idle.bonds {b b' : Book} (h : b.Idle b') : b'.bonds = b.bonds := bonds_congr h.transfers

theorem bonds_setComment (b : Book) (id : TransferId) (comment : String) :
    (b.setComment id comment).bonds = b.bonds :=
  map_modify_of_eq (f := fun t : Transfer => { t with comment }) (fun _ => rfl) b.transfers id

theorem bonds_of_unlotted {b b' : Book} (h : b'.unlotted = b.unlotted) : b'.bonds = b.bonds := by
  have htransfers : b'.transfers = b.transfers := congrArg (·.transfers) h
  exact bonds_congr htransfers

theorem bond_eq {b b' : Book} (h : b'.bonds = b.bonds) (id : TransferId) :
    (b'.transfer id).lot = (b.transfer id).lot
      ∧ (b'.transfer id).createsLot = (b.transfer id).createsLot := by
  have hd := congrArg
    (fun l => l.getD id ((default : Transfer).lot, (default : Transfer).createsLot)) h
  simp only [bonds] at hd
  rw [List.getD_map, List.getD_map] at hd
  exact ⟨congrArg Prod.fst hd, congrArg Prod.snd hd⟩

theorem transfer_update_of_lt {b : Book} {id : TransferId} (hid : id < b.transfers.length)
    (f : Transfer → Transfer) (i : TransferId) :
    (b.updateTransfer id f).transfer i = if i = id then f (b.transfer i) else b.transfer i := by
  refine (getD_modify b.transfers id f i default).trans ?_
  simp only [and_iff_left hid]
  rfl

theorem transfer_bindLot {b : Book} {id : TransferId} (hid : id < b.transfers.length) (lot : String)
    (i : TransferId) :
    (b.bindLot id lot).transfer i = if i = id then { b.transfer i with lot } else b.transfer i :=
  transfer_update_of_lt hid _ i

theorem transfer_letCreate {b : Book} {id : TransferId} (hid : id < b.transfers.length)
    (i : TransferId) :
    (b.letCreate id).transfer i
      = if i = id then { b.transfer i with createsLot := true } else b.transfer i :=
  transfer_update_of_lt hid _ i

theorem transfer_draft (b : Book) (t : Transfer) (i : TransferId) :
    (b.draft t).transfer i = if i = b.transfers.length then t else b.transfer i :=
  getD_concat b.transfers t i default

end Book

/-- **Only `lot` and `create-lot` touch bindings**: a call drafts a transfer, which is not bound yet, or
binds one, or leaves bindings as they are. -/
theorem Effect.bonds {s : String} {d d' : Desk Book} (h : Effect s d d') :
    (∃ t, Call.bindings ⟨s, d⟩ = [] ∧ d.context.Admits t ∧ d'.context = d.context.draft t)
      ∨ (∃ id lot, Call.bindings ⟨s, d⟩ = [.existing id lot] ∧ id ∈ d.operands.transferIds
        ∧ d'.context = d.context.bindLot id lot)
      ∨ (∃ id lot, Call.bindings ⟨s, d⟩ = [.fresh id lot] ∧ id ∈ d.operands.transferIds
        ∧ d'.context = (d.context.bindLot id lot).letCreate id)
      ∨ Call.bindings ⟨s, d⟩ = [] ∧ d'.context.bonds = d.context.bonds := by
  have hnone : ∀ {s : String}, s ∉ ["lot", "create-lot"] → Call.bindings ⟨s, d⟩ = [] := fun hs =>
    Call.bindings_of_notMem hs d
  cases h with
  | advanced _ hb => exact .inr (.inr (.inr ⟨hnone (by decide), (Book.idle_advance hb).bonds⟩))
  | registered hb => exact .inr (.inr (.inr ⟨hnone (by decide), (Book.idle_register hb).bonds⟩))
  | opened _ _ _ hb => exact .inr (.inr (.inr ⟨hnone (by decide), (Book.idle_openAccount hb).bonds⟩))
  | closed => exact .inr (.inr (.inr ⟨hnone (by decide), rfl⟩))
  | lotClosed => exact .inr (.inr (.inr ⟨hnone (by decide), rfl⟩))
  | annotated =>
      exact .inr (.inr (.inr ⟨hnone (by decide),
        (Book.Idle.foldl (fun b _ => b.idle_annotate _ _ _) _ _).bonds⟩))
  | tagged =>
      exact .inr (.inr (.inr ⟨hnone (by decide),
        (Book.Idle.foldl (fun b tag => b.idle_tag _ tag) _ _).bonds⟩))
  | taggedCommodity =>
      exact .inr (.inr (.inr ⟨hnone (by decide),
        (Book.Idle.foldl (fun b tag => b.idle_tag _ tag) _ _).bonds⟩))
  | untagged =>
      exact .inr (.inr (.inr ⟨hnone (by decide),
        (Book.Idle.foldl (fun b tag => b.idle_untag _ tag) _ _).bonds⟩))
  | @drafted s _ _ _ t hs _ ht =>
      have hnot : ∀ s ∈ ["xfer", "xfer-exch"], s ∉ ["lot", "create-lot"] := by decide
      exact .inl ⟨t, hnone (hnot s hs), ht, rfl⟩
  | bound => exact .inr (.inl ⟨_, _, rfl, List.mem_cons_self, rfl⟩)
  | boundNew => exact .inr (.inr (.inl ⟨_, _, rfl, List.mem_cons_self, rfl⟩))
  | commented => exact .inr (.inr (.inr ⟨hnone (by decide), Book.bonds_setComment _ _ _⟩))
  | applied _ _ hb =>
      obtain ⟨htransfers, -, -⟩ := Book.postings_apply_ok hb
      exact .inr (.inr (.inr ⟨hnone (by decide), Book.bonds_congr htransfers⟩))
  | @judged s _ _ _ hs =>
      have hnot : ∀ s ∈ ["assert", "assert-lot", "assert-lots-sum", "comment"],
          s ∉ ["lot", "create-lot"] := by decide
      exact .inr (.inr (.inr ⟨hnone (hnot s hs), rfl⟩))

/-! ### Drafts and the log -/

namespace Book

/-- Drafts that are bound as a log has it. -/
structure Bound (log : List Binding) (b : Book) : Prop where
  drafted : ∀ x ∈ log, x.transfer < b.transfers.length
  lot : ∀ id, (b.transfer id).lot = ((Binding.last id log).map Binding.lot).getD defaultLot
  creates : ∀ id, (b.transfer id).createsLot = true ↔ Binding.EverFresh log id

namespace Bound

variable {b b' : Book} {log : List Binding} {id : TransferId} {lot : String}

theorem empty : Bound [] .empty where
  drafted _ h := absurd h List.not_mem_nil
  lot _ := rfl
  creates _ := iff_of_false Bool.false_ne_true fun ⟨_, h⟩ => absurd h List.not_mem_nil

theorem congr (h : Bound log b) (hb : b'.bonds = b.bonds) : Bound log b' := by
  have hlength : b'.transfers.length = b.transfers.length := by
    have hl := congrArg List.length hb
    simpa [bonds] using hl
  refine ⟨hlength ▸ h.drafted, fun id => ?_, fun id => ?_⟩
  · rw [(bond_eq hb id).1]
    exact h.lot id
  · rw [(bond_eq hb id).2]
    exact h.creates id

/-- A new draft is not bound yet. -/
theorem draft (h : Bound log b) {t : Transfer} (ht : b.Admits t) : Bound log (b.draft t) := by
  have hnever : ∀ x ∈ log, x.transfer ≠ b.transfers.length := fun x hx => Nat.ne_of_lt (h.drafted x hx)
  refine ⟨?_, ?_, ?_⟩
  · intro x hx
    have hlength : (b.draft t).transfers.length = b.transfers.length + 1 := List.length_append
    rw [hlength]
    exact Nat.lt_succ_of_lt (h.drafted x hx)
  · intro id
    by_cases hid : id = b.transfers.length
    · rw [transfer_draft, if_pos hid, ht.lot, hid, Binding.last_eq_none hnever]
      rfl
    · rw [transfer_draft, if_neg hid]
      exact h.lot id
  · intro id
    by_cases hid : id = b.transfers.length
    · rw [transfer_draft, if_pos hid, ht.createsLot, hid]
      exact iff_of_false Bool.false_ne_true fun ⟨_, hx⟩ => hnever _ hx rfl
    · rw [transfer_draft, if_neg hid]
      exact h.creates id

/-- A binding of a draft is one more of drafts. -/
theorem drafted_concat (h : Bound log b) {x : Binding} (hx : x.transfer < b.transfers.length) :
    ∀ y ∈ log ++ [x], y.transfer < b.transfers.length := by
  intro y hy
  rcases List.mem_append.1 hy with hlog | hlast
  · exact h.drafted y hlog
  · cases List.mem_singleton.1 hlast
    exact hx

/-- `lot` binds to a lot that exists, and leaves it at that. -/
theorem bindLot (h : Bound log b) (hid : id < b.transfers.length) (lot : String) :
    Bound (log ++ [.existing id lot]) (b.bindLot id lot) := by
  have htransfer := transfer_bindLot hid lot
  have hlength : (b.bindLot id lot).transfers.length = b.transfers.length := List.length_modify _ _ _
  refine ⟨?_, ?_, ?_⟩
  · rw [hlength]
    exact h.drafted_concat hid
  · intro i
    rw [htransfer, Binding.last_concat]
    by_cases hi : i = id
    · rw [if_pos hi, if_pos (show (Binding.existing id lot).transfer = i from hi.symm)]
      rfl
    · rw [if_neg hi, if_neg (show ¬(Binding.existing id lot).transfer = i from fun e => hi e.symm)]
      exact h.lot i
  · intro i
    have hsame : ((b.bindLot id lot).transfer i).createsLot = (b.transfer i).createsLot := by
      rw [htransfer]
      split <;> rfl
    rw [hsame, h.creates i]
    simp [Binding.EverFresh]

/-- `create-lot` also lets the transfer create its lot. -/
theorem letCreate (h : Bound log b) (hid : id < b.transfers.length) (lot : String) :
    Bound (log ++ [.fresh id lot]) ((b.bindLot id lot).letCreate id) := by
  have hbound : (b.bindLot id lot).transfers.length = b.transfers.length := List.length_modify _ _ _
  have hlength : ((b.bindLot id lot).letCreate id).transfers.length = b.transfers.length :=
    (List.length_modify _ _ _).trans hbound
  have htransfer := transfer_letCreate (b := b.bindLot id lot) (hbound ▸ hid)
  refine ⟨?_, ?_, ?_⟩
  · rw [hlength]
    exact h.drafted_concat hid
  · intro i
    rw [htransfer, Binding.last_concat]
    by_cases hi : i = id
    · rw [if_pos hi, if_pos (show (Binding.fresh id lot).transfer = i from hi.symm)]
      show ((b.bindLot id lot).transfer i).lot = lot
      rw [transfer_bindLot hid, if_pos hi]
    · rw [if_neg hi, if_neg (show ¬(Binding.fresh id lot).transfer = i from fun e => hi e.symm),
        transfer_bindLot hid, if_neg hi]
      exact h.lot i
  · intro i
    rw [htransfer]
    by_cases hi : i = id
    · rw [if_pos hi, hi]
      exact iff_of_true rfl ⟨lot, List.mem_append_right _ (List.mem_singleton_self _)⟩
    · rw [if_neg hi, transfer_bindLot hid, if_neg hi, h.creates i]
      simp [Binding.EverFresh, hi]

end Bound

/-- **In every run the lot of a draft is that of its last binding, and it may create its lot when any of its
bindings was made by `create-lot`.** -/
theorem bound_after (ts : List Token) : Bound (bindings ts) (after ts) := by
  refine after_recorded Call.bindings Bound
    (I := fun m => m.context.UsedOnce m.stack.transferIds) .empty (fun m t hm => hm.turn (m.step_turn t))
    ?_ ?_ .empty ts
  · intro m s d log hm he h
    -- a transfer that is bound lies on the stack, so it is a draft
    have hdrafted : ∀ id ∈ m.desk.operands.transferIds, id < m.desk.context.transfers.length := by
      intro id hid
      exact hm.drafted id (List.mem_append_right _ (m.transferIds_visible_subset hid))
    rcases he.bonds with ⟨t, hentries, ht, hb⟩ | ⟨id, lot, hentries, hid, hb⟩
      | ⟨id, lot, hentries, hid, hb⟩ | ⟨hentries, hb⟩
    · rw [hentries, hb, List.append_nil]
      exact h.draft ht
    · rw [hentries, hb]
      exact h.bindLot (hdrafted id hid) lot
    · rw [hentries, hb]
      exact h.letCreate (hdrafted id hid) lot
    · rw [hentries, List.append_nil]
      exact h.congr hb
  · exact fun log b b' hb h => h.congr (bonds_of_unlotted hb)

end Book

end Daybook
