import Daybook.Proofs.Calls

/-!
# Markings — the log of what was tagged and untagged

Tags are kept twice: each entity has its tags, and each tag its carriers.  Both change in three words only,
and what these put on and take off makes a log.  When a tag was put on can be read from the log alone.

* `markings`, `Marking.addedAt`: the log, and where in it the tagging stands that put a tag on.
* `marks_opening`, `marks_register` and others: changes that leave tags and carriers as they are.
* `Effect.marks`: **only `tag`, `tag-commodity` and `untag` touch tags**.
-/

namespace Daybook

/-! ### The log of taggings -/

/-- A tag was put on an entity, or taken off. -/
inductive Marking where
  | tagging (e : Entity) (tag : String)
  | untagging (e : Entity) (tag : String)
  deriving DecidableEq, Repr

namespace Marking

variable {e e' : Entity} {tag tag' : String} {log : List Marking} {i : Nat}

/-- Where in a log, given with its last entry first, the tagging stands that put a tag on an entity; none
if the tag is not on it. -/
def addedAt (e : Entity) (tag : String) : List Marking → Option Nat
  | [] => none
  | x :: before =>
    if x = .untagging e tag then none
    else
      match addedAt e tag before with
      | some i => some i
      | none => if x = .tagging e tag then some before.length else none

theorem lt_of_addedAt (h : addedAt e tag log = some i) : i < log.length := by
  induction log with
  | nil => cases h
  | cons x before ih =>
      rw [List.length_cons]
      simp only [addedAt] at h
      split at h
      · cases h
      split at h
      · next hi =>
          cases h
          exact Nat.lt_succ_of_lt (ih hi)
      · split at h
        · cases h; exact Nat.lt_succ_self _
        · cases h

/-- A tagging puts a tag on if it is not on yet. -/
theorem addedAt_tagging (e : Entity) (tag : String) (log : List Marking) :
    addedAt e tag (.tagging e tag :: log) = some ((addedAt e tag log).getD log.length) := by
  simp only [addedAt, if_true]
  rw [if_neg nofun]
  cases addedAt e tag log <;> rfl

theorem addedAt_tagging_of_some (h : addedAt e tag log = some i) (x : Entity) (t : String) :
    addedAt e tag (.tagging x t :: log) = some i := by
  simp only [addedAt]
  rw [if_neg nofun, h]

theorem addedAt_cons_of_ne {x : Marking} (hon : x ≠ .tagging e tag) (hoff : x ≠ .untagging e tag) :
    addedAt e tag (x :: log) = addedAt e tag log := by
  simp only [addedAt]
  rw [if_neg hoff, if_neg hon]
  cases addedAt e tag log <;> rfl

theorem addedAt_tagging_of_ne (h : ¬(e = e' ∧ tag = tag')) :
    addedAt e tag (.tagging e' tag' :: log) = addedAt e tag log :=
  addedAt_cons_of_ne (by rintro ⟨⟩; exact h ⟨rfl, rfl⟩) nofun

theorem addedAt_untagging (e : Entity) (tag : String) (log : List Marking) :
    addedAt e tag (.untagging e tag :: log) = none := if_pos rfl

theorem addedAt_untagging_of_ne (h : ¬(e = e' ∧ tag = tag')) :
    addedAt e tag (.untagging e' tag' :: log) = addedAt e tag log :=
  addedAt_cons_of_ne nofun (by rintro ⟨⟩; exact h ⟨rfl, rfl⟩)

end Marking

/-- What a call puts on and takes off. -/
def Call.markings (c : Call) : List Marking :=
  match c.desk.operands.topTexts with
  | [] => []
  | name :: tags =>
    if c.name = "tag" then
      (c.desk.context.current? name).toList.flatMap fun id => tags.map (.tagging (.account id))
    else if c.name = "tag-commodity" then tags.map (.tagging (.commodity name))
    else if c.name = "untag" then
      (c.desk.context.current? name).toList.flatMap fun id => tags.map (.untagging (.account id))
    else []

theorem Call.markings_of_notMem {s : String} (hs : s ∉ ["tag", "tag-commodity", "untag"])
    (d : Desk Book) : markings ⟨s, d⟩ = [] := by
  simp only [List.mem_cons, not_or] at hs
  obtain ⟨ht, hc, hu, -⟩ := hs
  simp only [markings]
  split
  · rfl
  · rw [if_neg ht, if_neg hc, if_neg hu]

namespace Book

/-- What the calls of a run have put on and taken off. -/
def markings (ts : List Token) : List Marking := logOf Call.markings ts

/-! ### Tags and carriers -/

/-- The carriers of tags, and the tags of entities. -/
def marks (b : Book) : Catalogue (List Entity) × (Entity → NameSet) := (b.tagged, b.tagsOf)

/-- An entity that the book has. -/
def Has (b : Book) : Entity → Prop
  | .commodity name => b.commodities.contains name = true
  | .account id => id < b.accounts.length

theorem marks_of_map (view : Account → Account) (hview : ∀ a, (view a).tags = a.tags) {b b' : Book}
    (htagged : b'.tagged = b.tagged) (hcommodities : b'.commodities = b.commodities)
    (haccounts : b'.accounts.map view = b.accounts.map view) : b'.marks = b.marks := by
  refine Prod.ext htagged (funext fun e => ?_)
  cases e with
  | commodity name =>
      simp only [marks, tagsOf]
      rw [hcommodities]
  | account id =>
      have htags := congrArg (fun l => ((l.getD id (view default)) : Account).tags) haccounts
      simp only [List.getD_map, hview] at htags
      exact htags

theorem marks_updateAccount {f : Account → Account} (hf : ∀ a, (f a).tags = a.tags) (b : Book)
    (id : AccountId) : (b.updateAccount id f).marks = b.marks := by
  refine marks_of_map (fun a => ⟨"", .zero, none, ∅, a.tags, ∅, ∅⟩) (fun _ => rfl) rfl rfl ?_
  exact map_modify_of_eq (fun a => by rw [hf]) b.accounts id

theorem marks_closeAccount (b : Book) (id : AccountId) : (b.closeAccount id).marks = b.marks :=
  marks_updateAccount (f := fun a => { a with closed := some b.date }) (fun _ => rfl) b id

theorem marks_closeLot (b : Book) (id : AccountId) (lot : String) : (b.closeLot id lot).marks = b.marks :=
  marks_updateAccount (f := fun a => { a with lots := a.lots.erase lot }) (fun _ => rfl) b id

theorem marks_annotate (b : Book) (id : AccountId) (name note : String) :
    (b.annotate id name note).marks = b.marks :=
  marks_updateAccount (f := fun a => { a with notes := a.notes.insert name note }) (fun _ => rfl) b id

theorem marks_register {b b' : Book} {name description : String}
    (h : b.register name description = .ok b') : b'.marks = b.marks := by
  obtain ⟨hfree, rfl⟩ := register_ok h
  refine Prod.ext rfl (funext fun e => ?_)
  cases e with
  | account id => rfl
  | commodity n =>
      show (((b.commodities.insert name _).get? n).map (·.tags)).getD ∅ = _
      rw [Catalogue.get?_insert]
      split
      · next hn =>
          simp only [marks, tagsOf]
          rw [hn, hfree]
          rfl
      · rfl

theorem marks_opening (b : Book) (name : String) (allowed : List String) :
    (b.opening name allowed).marks = b.marks := by
  refine Prod.ext rfl (funext fun e => ?_)
  cases e with
  | commodity n => rfl
  | account id =>
      simp only [marks, tagsOf]
      rw [account_opening]
      split
      · next hid =>
          -- an account that is not in the book carries no tags
          have hnone : b.account id = default := by
            simp only [account]
            rw [hid, List.getD_eq_getElem?_getD, List.getElem?_eq_none (Nat.le_refl _), Option.getD_none]
          rw [hnone]
          rfl
      · rfl

theorem marks_of_unlotted {b b' : Book} (h : b'.unlotted = b.unlotted) : b'.marks = b.marks := by
  have htagged : b'.tagged = b.tagged := congrArg (·.tagged) h
  have hcommodities : b'.commodities = b.commodities := congrArg (·.commodities) h
  refine marks_of_map (fun a => { a with lots := ∅ }) ?_ htagged hcommodities (congrArg (·.accounts) h)
  exact fun _ => rfl

end Book

/-- **Only `tag`, `tag-commodity` and `untag` touch tags**: a call puts tags on an entity that the book has,
or takes them off it, or leaves tags and carriers as they are. -/
theorem Effect.marks {s : String} {d d' : Desk Book} (h : Effect s d d') :
    (∃ (e : Entity) (tags : List String), Call.markings ⟨s, d⟩ = tags.map (.tagging e)
        ∧ d.context.Has e ∧ d'.context = tags.foldl (fun b tag => b.tag e tag) d.context)
      ∨ (∃ (e : Entity) (tags : List String), Call.markings ⟨s, d⟩ = tags.map (.untagging e)
        ∧ d.context.Has e ∧ d'.context = tags.foldl (fun b tag => b.untag e tag) d.context)
      ∨ Call.markings ⟨s, d⟩ = [] ∧ d'.context.marks = d.context.marks := by
  have hnone : ∀ {s : String}, s ∉ ["tag", "tag-commodity", "untag"] → Call.markings ⟨s, d⟩ = [] :=
    fun hs => Call.markings_of_notMem hs d
  cases h with
  | advanced _ hb =>
      obtain ⟨-, rfl⟩ := Book.advance_ok hb
      exact .inr (.inr ⟨hnone (by decide), rfl⟩)
  | registered hb =>
      exact .inr (.inr ⟨hnone (by decide), Book.marks_register hb⟩)
  | opened _ _ _ hb =>
      obtain ⟨-, rfl⟩ := Book.openAccount_ok hb
      exact .inr (.inr ⟨hnone (by decide), Book.marks_opening _ _ _⟩)
  | closed => exact .inr (.inr ⟨hnone (by decide), Book.marks_closeAccount _ _⟩)
  | lotClosed => exact .inr (.inr ⟨hnone (by decide), Book.marks_closeLot _ _ _⟩)
  | annotated =>
      exact .inr (.inr ⟨hnone (by decide),
        Book.foldl_keeps Book.marks (fun b (note : String × String) => b.marks_annotate _ note.1 note.2)
          _ _⟩)
  | @tagged name tags ops b id hops hid =>
      refine .inl ⟨.account id, tags, ?_, Book.lt_of_findOpen hid, rfl⟩
      simp [Call.markings, hops, (Book.findOpen_eq_ok_iff.1 hid).1]
  | @taggedCommodity name tags ops b hops hc =>
      refine .inl ⟨.commodity name, tags, ?_, hc, rfl⟩
      simp [Call.markings, hops]
  | @untagged name tags ops b id hops hid =>
      refine .inr (.inl ⟨.account id, tags, ?_, Book.lt_of_findOpen hid, rfl⟩)
      simp [Call.markings, hops, (Book.findOpen_eq_ok_iff.1 hid).1]
  | @drafted s _ _ _ _ hs =>
      have hnot : ∀ s ∈ ["xfer", "xfer-exch"], s ∉ ["tag", "tag-commodity", "untag"] := by decide
      exact .inr (.inr ⟨hnone (hnot s hs), rfl⟩)
  | bound => exact .inr (.inr ⟨hnone (by decide), rfl⟩)
  | boundNew => exact .inr (.inr ⟨hnone (by decide), rfl⟩)
  | commented => exact .inr (.inr ⟨hnone (by decide), rfl⟩)
  | applied _ _ hb =>
      exact .inr (.inr ⟨hnone (by decide), Book.marks_of_unlotted (Book.unlotted_apply hb)⟩)
  | @judged s _ _ _ hs =>
      have hnot : ∀ s ∈ ["assert", "assert-lot", "assert-lots-sum", "comment"],
          s ∉ ["tag", "tag-commodity", "untag"] := by decide
      exact .inr (.inr ⟨hnone (hnot s hs), rfl⟩)

end Daybook
