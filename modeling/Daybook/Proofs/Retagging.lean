import Daybook.Proofs.Closing
import Daybook.Proofs.Layout
import Daybook.Proofs.Tagging

/-!
# Retagging — tags as sets

The tags of a call are put on an account one after the other, and taken off one after the other, in the lists of
carriers and among the tags of the account.  What comes of it depends on which tags are named, not on their order
and not on how often each is named.

* `eq_of_untagged`: books that differ at most in their tags, and have the same, are equal.
* `get?_tagged_tagAll`, `contains_tagsOf_tagAll` and so on: the carriers of each tag, and the tags of each entity.
* `tagAll_congr`, `untagAll_congr`: **it does the same as another row of the same tags**.
* `Agrees.untagAll_of_not_carried`, `Agrees.untagAll_tagAll`: tags that are not carried are taken off in vain, and
  are taken off without a trace when they have been put on.
* `retagging`: so it is with calls of `tag` and `untag` at any time.
-/

namespace Daybook

namespace Book

variable {b b' : Book} {e : Entity} {id : AccountId} {ts us : List String}

/-! ### The rest of a book -/

/-- A book without the lists of carriers and without the tags of accounts. -/
def untagged (b : Book) : Book :=
  { b with tagged := ∅, accounts := b.accounts.map fun a => { a with tags := ∅ } }

/-- Books that differ at most in their tags, and have the same, are equal. -/
theorem eq_of_untagged (h : b'.untagged = b.untagged) (htagged : b'.tagged = b.tagged)
    (htags : ∀ id, (b'.account id).tags = (b.account id).tags) : b' = b := by
  have haccounts : b'.accounts = b.accounts := by
    have hmap : b'.accounts.map (fun a : Account => { a with tags := ∅ }) = b.accounts.map _ :=
      congrArg Book.accounts h
    have hlength : b'.accounts.length = b.accounts.length := by
      simpa using congrArg List.length hmap
    refine List.ext_getElem hlength fun i hi hi' => ?_
    have hrest := List.getElem_of_eq hmap (by simpa using hi)
    rw [List.getElem_map, List.getElem_map] at hrest
    have htag := htags i
    simp only [account, List.getD_eq_getElem _ _ hi, List.getD_eq_getElem _ _ hi'] at htag
    generalize b'.accounts[i] = a' at hrest htag
    generalize b.accounts[i] = a at hrest htag
    cases a
    cases a'
    cases htag
    cases hrest
    rfl
  cases b
  cases b'
  cases htagged
  cases haccounts
  cases h
  rfl

theorem untagged_updateTags (b : Book) (tagged : Catalogue (List Entity)) (id : AccountId)
    (f : NameSet → NameSet) : ({ b with tagged }.updateTags (.account id) f).untagged = b.untagged := by
  have haccounts := map_modify_of_eq (g := fun a : Account => { a with tags := ∅ })
    (f := fun a => { a with tags := f a.tags }) (fun _ => rfl) b.accounts id
  simp only [untagged, updateTags, updateAccount]
  rw [haccounts]

theorem untagged_tag (b : Book) (id : AccountId) (tag : String) :
    (b.tag (.account id) tag).untagged = b.untagged := untagged_updateTags b _ id _

theorem untagged_untag (b : Book) (id : AccountId) (tag : String) :
    (b.untag (.account id) tag).untagged = b.untagged := untagged_updateTags b _ id _

/-! ### Rows of tags -/

/-- Puts tags on an entity, one after the other. -/
def tagAll (b : Book) (e : Entity) (ts : List String) : Book := ts.foldl (fun b t => b.tag e t) b

/-- Takes tags off an entity, one after the other. -/
def untagAll (b : Book) (e : Entity) (ts : List String) : Book := ts.foldl (fun b t => b.untag e t) b

/-- The carriers of a tag when an entity has got it, too. -/
def carriersWith (b : Book) (e : Entity) (t : String) : List Entity :=
  if e ∈ b.carriers t then b.carriers t else b.carriers t ++ [e]

/-- The carriers of a tag without an entity, if there are any. -/
def carriersWithout (b : Book) (e : Entity) (t : String) : Option (List Entity) :=
  if (b.carriers t).filter (· != e) = [] then none else some ((b.carriers t).filter (· != e))

theorem get?_tagged_tag (b : Book) (e : Entity) (tag t : String) :
    (b.tag e tag).tagged.get? t = if t = tag then some (b.carriersWith e t) else b.tagged.get? t := by
  rw [tagged_tag, Catalogue.get?_insert]
  by_cases ht : t = tag
  · rw [if_pos ht, if_pos ht, ht, carriersWith]
  · rw [if_neg ht, if_neg ht]

theorem get?_tagged_untag (b : Book) (e : Entity) (tag t : String) :
    (b.untag e tag).tagged.get? t = if t = tag then b.carriersWithout e t else b.tagged.get? t := by
  rw [tagged_untag]
  by_cases ht : t = tag
  · rw [if_pos ht, carriersWithout, ht]
    split
    · rw [Catalogue.get?_erase, if_pos rfl]
    · rw [Catalogue.get?_insert, if_pos rfl]
  · rw [if_neg ht]
    split
    · rw [Catalogue.get?_erase, if_neg ht]
    · rw [Catalogue.get?_insert, if_neg ht]

/-- A tag that is put on twice is carried as if it were put on once. -/
theorem carriersWith_tag (b : Book) (e : Entity) (tag t : String) :
    (b.tag e tag).carriersWith e t = b.carriersWith e t := by
  simp only [carriersWith]
  rw [carriers_tag]
  by_cases ht : t = tag
  · subst ht
    rw [if_pos rfl]
    by_cases he : e ∈ b.carriers t
    · simp [he]
    · simp [he]
  · rw [if_neg ht]

theorem carriersWithout_untag (b : Book) (e : Entity) (tag t : String) :
    (b.untag e tag).carriersWithout e t = b.carriersWithout e t := by
  simp only [carriersWithout]
  rw [carriers_untag]
  by_cases ht : t = tag
  · subst ht
    rw [if_pos rfl, List.filter_filter]
    simp only [Bool.and_self]
  · rw [if_neg ht]

/-- The carriers of the tags that are put on, and of the others. -/
theorem get?_tagged_tagAll (b : Book) (e : Entity) (ts : List String) (t : String) :
    (b.tagAll e ts).tagged.get? t = if t ∈ ts then some (b.carriersWith e t) else b.tagged.get? t :=
  foldl_tagwise (fun _ => True) (·.tag e ·) (fun b t => b.tagged.get? t)
    (fun b t => some (b.carriersWith e t)) (fun _ _ _ => trivial) (fun b tag t _ => get?_tagged_tag b e tag t)
    (fun b tag t _ => congrArg some (carriersWith_tag b e tag t)) trivial ts t

/-- The carriers of the tags that are taken off, and of the others. -/
theorem get?_tagged_untagAll (b : Book) (e : Entity) (ts : List String) (t : String) :
    (b.untagAll e ts).tagged.get? t = if t ∈ ts then b.carriersWithout e t else b.tagged.get? t :=
  foldl_tagwise (fun _ => True) (·.untag e ·) (fun b t => b.tagged.get? t)
    (fun b t => b.carriersWithout e t) (fun _ _ _ => trivial) (fun b tag t _ => get?_tagged_untag b e tag t)
    (fun b tag t _ => carriersWithout_untag b e tag t) trivial ts t

/-- What a row of changes does to the tags of entities when each change does it to one tag of one of them. -/
theorem contains_tagsOf_foldl {f : Book → String → Book} {x : Entity} {g : Bool → Bool → Bool}
    (hfalse : ∀ c, g false c = c) (htwice : ∀ c, g true (g true c) = g true c)
    (hhas : ∀ b tag, Has b e → (f b tag).Has e)
    (hstep : ∀ b tag t, Has b e → ((f b tag).tagsOf x).contains t
      = g (decide (x = e ∧ t = tag)) ((b.tagsOf x).contains t))
    (he : b.Has e) (ts : List String) (t : String) :
    ((ts.foldl f b).tagsOf x).contains t
      = if t ∈ ts then g (decide (x = e)) ((b.tagsOf x).contains t) else (b.tagsOf x).contains t := by
  refine foldl_tagwise (·.Has e) f (fun b t => (b.tagsOf x).contains t)
    (fun b t => g (decide (x = e)) ((b.tagsOf x).contains t)) hhas (fun b tag t he => ?_)
    (fun b tag t he => ?_) he ts t
  · rw [hstep b tag t he]
    by_cases ht : t = tag <;> simp [ht, hfalse]
  · rw [hstep b tag t he]
    by_cases hx : x = e
    · by_cases ht : t = tag <;> simp [hx, ht, hfalse, htwice]
    · simp [hx, hfalse]

/-- The tags of entities after a row of tags is put on one of them. -/
theorem contains_tagsOf_tagAll (he : b.Has e) (ts : List String) (x : Entity) (t : String) :
    ((b.tagAll e ts).tagsOf x).contains t
      = if t ∈ ts then decide (x = e) || (b.tagsOf x).contains t else (b.tagsOf x).contains t := by
  have hstep : ∀ b tag t, Has b e → ((b.tag e tag).tagsOf x).contains t
      = (decide (x = e ∧ t = tag) || (b.tagsOf x).contains t) := fun b tag t he => by
    rw [Bool.eq_iff_iff, contains_tagsOf_tag he, Bool.or_eq_true, decide_eq_true_iff]
  exact contains_tagsOf_foldl (g := or) Bool.false_or (fun _ => rfl)
    (fun _ _ he => has_updateTags he _ e _) hstep he ts t

/-- The tags of entities after a row of tags is taken off one of them. -/
theorem contains_tagsOf_untagAll (he : b.Has e) (ts : List String) (x : Entity) (t : String) :
    ((b.untagAll e ts).tagsOf x).contains t
      = if t ∈ ts then !decide (x = e) && (b.tagsOf x).contains t else (b.tagsOf x).contains t := by
  have hstep : ∀ b tag t, Has b e → ((b.untag e tag).tagsOf x).contains t
      = (!decide (x = e ∧ t = tag) && (b.tagsOf x).contains t) := fun b tag t he => by
    rw [Bool.eq_iff_iff, contains_tagsOf_untag he, Bool.and_eq_true, Bool.not_eq_true',
      decide_eq_false_iff_not]
  exact contains_tagsOf_foldl (g := fun off c => !off && c) Bool.true_and (fun _ => rfl)
    (fun _ _ he => has_updateTags he _ e _) hstep he ts t

theorem untagged_tagAll (b : Book) (id : AccountId) (ts : List String) :
    (b.tagAll (.account id) ts).untagged = b.untagged :=
  foldl_keeps untagged (fun b t => untagged_tag b id t) ts b

theorem untagged_untagAll (b : Book) (id : AccountId) (ts : List String) :
    (b.untagAll (.account id) ts).untagged = b.untagged :=
  foldl_keeps untagged (fun b t => untagged_untag b id t) ts b

/-- Books that differ at most in their tags are equal when these are the same, tag by tag. -/
theorem eq_of_tagwise (h : b'.untagged = b.untagged) (htagged : ∀ t, b'.tagged.get? t = b.tagged.get? t)
    (htags : ∀ id t, (b'.tagsOf (.account id)).contains t = (b.tagsOf (.account id)).contains t) : b' = b :=
  eq_of_untagged h (Catalogue.ext_get? htagged) fun id => NameSet.ext_contains (htags id)

/-- Rows of the same tags do the same when what they do to each tag depends on whether it is among them. -/
theorem eq_of_rows {all : List String → Book} {new : String → Option (List Entity)}
    {newTags : Entity → String → Bool} (hrest : ∀ ts, (all ts).untagged = b.untagged)
    (htagged : ∀ ts t, (all ts).tagged.get? t = if t ∈ ts then new t else b.tagged.get? t)
    (htags : ∀ ts x t, ((all ts).tagsOf x).contains t
      = if t ∈ ts then newTags x t else (b.tagsOf x).contains t)
    (h : ∀ t, t ∈ ts ↔ t ∈ us) : all ts = all us := by
  refine eq_of_tagwise ?_ (fun t => ?_) fun i t => ?_
  · rw [hrest, hrest]
  · simp only [htagged, h]
  · simp only [htags, h]

/-- **A row of tags does the same as another row of the same tags** when they are put on an account. -/
theorem tagAll_congr (he : b.Has (.account id)) (h : ∀ t, t ∈ ts ↔ t ∈ us) :
    b.tagAll (.account id) ts = b.tagAll (.account id) us :=
  eq_of_rows (untagged_tagAll b id) (get?_tagged_tagAll b _) (contains_tagsOf_tagAll he · · ·) h

/-- **A row of tags does the same as another row of the same tags** when they are taken off an account. -/
theorem untagAll_congr (he : b.Has (.account id)) (h : ∀ t, t ∈ ts ↔ t ∈ us) :
    b.untagAll (.account id) ts = b.untagAll (.account id) us :=
  eq_of_rows (untagged_untagAll b id) (get?_tagged_untagAll b _) (contains_tagsOf_untagAll he · · ·) h

/-- Where rows of the same tags do the same, a second row changes nothing more. -/
theorem foldl_twice {f : Book → String → Book}
    (hcongr : ∀ {ts us : List String}, (∀ t, t ∈ ts ↔ t ∈ us) → ts.foldl f b = us.foldl f b)
    (h : ∀ t, t ∈ ts ↔ t ∈ us) : us.foldl f (ts.foldl f b) = ts.foldl f b := by
  rw [← List.foldl_append]
  exact hcongr fun t => by rw [List.mem_append, h, or_self]

theorem tagAll_twice (he : b.Has (.account id)) (h : ∀ t, t ∈ ts ↔ t ∈ us) :
    (b.tagAll (.account id) ts).tagAll (.account id) us = b.tagAll (.account id) ts :=
  foldl_twice (tagAll_congr he) h

theorem untagAll_twice (he : b.Has (.account id)) (h : ∀ t, t ∈ ts ↔ t ∈ us) :
    (b.untagAll (.account id) ts).untagAll (.account id) us = b.untagAll (.account id) ts :=
  foldl_twice (untagAll_congr he) h

/-! ### Tags that are not carried -/

/-- The carriers of a tag that is put on are the same, but for the entity. -/
theorem filter_carriers_tagAll (b : Book) (e : Entity) (ts : List String) (t : String) :
    ((b.tagAll e ts).carriers t).filter (· != e) = (b.carriers t).filter (· != e) := by
  simp only [carriers]
  rw [get?_tagged_tagAll]
  split
  · show (b.carriersWith e t).filter (· != e) = (b.carriers t).filter (· != e)
    rw [carriersWith]
    split
    · rfl
    · simp
  · rfl

theorem filter_carriers_untagAll (b : Book) (e : Entity) (ts : List String) (t : String) :
    ((b.untagAll e ts).carriers t).filter (· != e) = (b.carriers t).filter (· != e) := by
  rw [untagAll, carriers_foldl_untag]
  split
  · rw [List.filter_filter]
    simp only [Bool.and_self]
  · rfl

theorem has_tagAll {x : Entity} (hx : b.Has x) (e : Entity) (ts : List String) : (b.tagAll e ts).Has x := by
  induction ts generalizing b with
  | nil => exact hx
  | cons t ts ih => exact ih (has_updateTags hx _ e _)

/-- The tags of other entities stay. -/
theorem tagsOf_tagAll_of_ne (he : b.Has e) (ts : List String) {x : Entity} (hx : x ≠ e) :
    (b.tagAll e ts).tagsOf x = b.tagsOf x := by
  refine NameSet.ext_contains fun t => ?_
  rw [contains_tagsOf_tagAll he, decide_eq_false hx, Bool.false_or, ite_self]

theorem tagsOf_untagAll_of_ne (he : b.Has e) (ts : List String) {x : Entity} (hx : x ≠ e) :
    (b.untagAll e ts).tagsOf x = b.tagsOf x := by
  refine NameSet.ext_contains fun t => ?_
  rw [contains_tagsOf_untagAll he, decide_eq_false hx, Bool.not_false, Bool.true_and, ite_self]

namespace Agrees

variable {log : List Marking}

/-- An entity that does not carry a tag is missed by none who do. -/
theorem carriersWithout_eq (h : Agrees log b) {t : String} (hnot : (b.tagsOf e).contains t = false) :
    b.carriersWithout e t = b.tagged.get? t := by
  have hmem : e ∉ b.carriers t := fun hmem => by
    rw [(h.carried e t).1 hmem] at hnot
    cases hnot
  have hall : (b.carriers t).filter (· != e) = b.carriers t :=
    List.filter_eq_self.2 fun x hx => bne_iff_ne.2 fun hxe => hmem (hxe ▸ hx)
  rw [carriersWithout, hall]
  cases hget : b.tagged.get? t with
  | none =>
      have hempty : b.carriers t = [] := by
        rw [carriers, hget]
        rfl
      rw [if_pos hempty]
  | some l =>
      have hl : b.carriers t = l := by
        rw [carriers, hget]
        rfl
      rw [hl, if_neg (h.nonempty t l hget)]

/-- **Tags that an account does not carry are taken off in vain.** -/
theorem untagAll_of_not_carried (h : Agrees log b) (he : b.Has (.account id))
    (hnot : ∀ t ∈ ts, (b.tagsOf (.account id)).contains t = false) : b.untagAll (.account id) ts = b := by
  refine eq_of_tagwise (untagged_untagAll b id ts) (fun t => ?_) fun i t => ?_
  · rw [get?_tagged_untagAll]
    split
    · next ht => exact h.carriersWithout_eq (hnot t ht)
    · rfl
  · rw [contains_tagsOf_untagAll he]
    split
    · next ht =>
        by_cases hi : Entity.account i = .account id
        · rw [hi, hnot t ht, Bool.and_false]
        · rw [decide_eq_false hi, Bool.not_false, Bool.true_and]
    · rfl

/-- **Tags that are put on an account that carried none of them are taken off it without a trace.** -/
theorem untagAll_tagAll (h : Agrees log b) (he : b.Has (.account id))
    (hnot : ∀ t ∈ ts, (b.tagsOf (.account id)).contains t = false) (hsame : ∀ t, t ∈ ts ↔ t ∈ us) :
    (b.tagAll (.account id) ts).untagAll (.account id) us = b := by
  have he' := has_tagAll he (.account id) ts
  refine eq_of_tagwise ?_ (fun t => ?_) fun i t => ?_
  · rw [untagged_untagAll, untagged_tagAll]
  · rw [get?_tagged_untagAll]
    by_cases ht : t ∈ ts
    · rw [if_pos ((hsame t).1 ht), carriersWithout, filter_carriers_tagAll]
      exact h.carriersWithout_eq (hnot t ht)
    · rw [if_neg fun hu => ht ((hsame t).2 hu), get?_tagged_tagAll, if_neg ht]
  · rw [contains_tagsOf_untagAll he']
    by_cases ht : t ∈ ts
    · rw [if_pos ((hsame t).1 ht)]
      by_cases hi : Entity.account i = .account id
      · rw [decide_eq_true hi, Bool.not_true, Bool.false_and, hi, hnot t ht]
      · rw [decide_eq_false hi, Bool.not_false, Bool.true_and, tagsOf_tagAll_of_ne he ts hi]
    · rw [if_neg fun hu => ht ((hsame t).2 hu), contains_tagsOf_tagAll he, if_neg ht]

end Agrees

/-- An account stays open when its tags change. -/
theorem Quiet.findOpen_eq_ok (h : b.Quiet b') {name : String} (hopen : b.findOpen name = .ok id) :
    b'.findOpen name = .ok id := by
  obtain ⟨hcurrent, hnot⟩ := findOpen_eq_ok_iff.1 hopen
  refine findOpen_eq_ok_iff.2 ⟨(h.current? name).trans hcurrent, ?_⟩
  simp only [isClosed, Account.isClosed] at hnot ⊢
  rw [h.closed, h.date]
  exact hnot

end Book

/-! ### Calls -/

namespace Words

variable {b b' : Book} {name called : String} {id : AccountId} {ts us : List String} {rest : Operands}

/-- A desk at which tags are put on an account, or taken off it. -/
def marking (name : String) (ts : List String) (rest : Operands) (b : Book) : Desk Book :=
  ⟨rest.push ((name :: ts).map .text), b⟩

theorem takeTags_marking (hrest : ∀ v ∈ rest.head?, v.isText = false) (hts : ts ≠ []) (entity : String) :
    takeTags entity (rest.push ((name :: ts).map .text)) = .ok ((name, ts), rest) := by
  have hops : rest.push ((name :: ts).map .text) = (name :: ts).reverse.map Value.text ++ rest := by
    rw [Operands.push, List.map_reverse]
  have htake : Taking.nameAndTexts (.noTag entity) (rest.push ((name :: ts).map .text))
      = .ok ((name, ts), rest) := by
    simp only [Taking.nameAndTexts]
    rw [hops, Operands.splitTexts_append hrest, List.reverse_reverse]
  simp only [takeTags]
  rw [htake]
  cases ts with
  | nil => exact absurd rfl hts
  | cons t ts => rfl

theorem findTagged_of_findOpen (hopen : b.findOpen name = .ok id) : findTagged b name = .ok (.account id) := by
  obtain ⟨hcurrent, hnot⟩ := Book.findOpen_eq_ok_iff.1 hopen
  simp only [findTagged]
  rw [hcurrent]
  dsimp only
  rw [if_neg (ne_true_of_eq_false hnot)]

section

variable (hopen : b.findOpen name = .ok id) (hrest : ∀ v ∈ rest.head?, v.isText = false) (hts : ts ≠ [])

include hopen hrest hts

/-- A call that makes one change after the other, for each of its tags, makes them of an open account. -/
theorem ofAct_marking {w : Word Book} {f : Entity → String → Book → Book}
    (hw : w = .ofAct (takeTags "account") fun x => do
      let e ← Act.judge (findTagged · x.1)
      x.2.forM fun t => Act.enter (f e t)
      return []) :
    w called (marking name ts rest b)
      = (.ok .proceed, ⟨rest, ts.foldl (fun b t => f (.account id) t b) b⟩) := by
  rw [hw]
  simp only [marking, Word.ofAct, perform]
  rw [takeTags_marking hrest hts]
  simp only [Act.on_bind, Act.on_judge]
  rw [findTagged_of_findOpen hopen]
  simp only [Act.on_forM_enter]
  rfl

/-- A call puts its tags on an open account. -/
theorem tag_marking :
    tag called (marking name ts rest b) = (.ok .proceed, ⟨rest, b.tagAll (.account id) ts⟩) :=
  ofAct_marking (f := fun e t b => b.tag e t) hopen hrest hts rfl

/-- A call takes its tags off an open account. -/
theorem untag_marking :
    untag called (marking name ts rest b) = (.ok .proceed, ⟨rest, b.untagAll (.account id) ts⟩) :=
  ofAct_marking (f := fun e t b => b.untag e t) hopen hrest hts rfl

end

/-- **Tags are put on and taken off as a set**, at any time and on any open account.  A row of tags and another row
of the same tags lead to one book, and a second call changes nothing more.  Tags that the account does not carry
are taken off in vain, and when they have been put on, they are taken off without a trace.  The account has got the
tags, or has lost them; and the tags of all else stay, and the order of its entries in the lists of carriers. -/
theorem retagging (run : List Token) (hopen : (Book.after run).findOpen name = .ok id)
    (hrest : ∀ v ∈ rest.head?, v.isText = false) (hts : ts ≠ []) (hsame : ∀ t, t ∈ ts ↔ t ∈ us) :
    let b := Book.after run
    let Makes (w : Word Book) ts b b' :=
      ∀ called, w called (marking name ts rest b) = (.ok .proceed, ⟨rest, b'⟩)
    ∃ tagged untagged,
      (Makes tag ts b tagged ∧ Makes tag us b tagged ∧ Makes tag us tagged tagged)
        ∧ (Makes untag ts b untagged ∧ Makes untag us b untagged ∧ Makes untag us untagged untagged)
        ∧ ((∀ t ∈ ts, (b.tagsOf (.account id)).contains t = false) → untagged = b ∧ Makes untag us tagged b)
        ∧ (∀ t, (tagged.tagsOf (.account id)).contains t
            = (decide (t ∈ ts) || (b.tagsOf (.account id)).contains t))
        ∧ (∀ t, (untagged.tagsOf (.account id)).contains t
            = (!decide (t ∈ ts) && (b.tagsOf (.account id)).contains t))
        ∧ ∀ b' ∈ [tagged, untagged], ∀ e ≠ .account id, b'.tagsOf e = b.tagsOf e
          ∧ ∀ t, (b'.carriers t).filter (· != .account id) = (b.carriers t).filter (· != .account id) := by
  intro b Makes
  have he : b.Has (.account id) := Book.lt_of_findOpen hopen
  have hus : us ≠ [] := by
    obtain ⟨t, ht⟩ := List.exists_mem_of_ne_nil ts hts
    exact List.ne_nil_of_mem ((hsame t).1 ht)
  have hopen₁ : (b.tagAll (.account id) ts).findOpen name = .ok id :=
    (Book.Quiet.foldl (fun b t => Book.quiet_tag b _ t) ts b).findOpen_eq_ok hopen
  have hopen₂ : (b.untagAll (.account id) ts).findOpen name = .ok id :=
    (Book.Quiet.foldl (fun b t => Book.quiet_untag b _ t) ts b).findOpen_eq_ok hopen
  refine ⟨b.tagAll (.account id) ts, b.untagAll (.account id) ts,
    ⟨fun _ => tag_marking hopen hrest hts, fun _ => ?_, fun _ => ?_⟩,
    ⟨fun _ => untag_marking hopen hrest hts, fun _ => ?_, fun _ => ?_⟩, fun hnot => ⟨?_, fun _ => ?_⟩,
    fun t => ?_, fun t => ?_, ?_⟩
  · rw [Book.tagAll_congr he hsame]
    exact tag_marking hopen hrest hus
  · rw [tag_marking hopen₁ hrest hus, Book.tagAll_twice he hsame]
  · rw [Book.untagAll_congr he hsame]
    exact untag_marking hopen hrest hus
  · rw [untag_marking hopen₂ hrest hus, Book.untagAll_twice he hsame]
  · exact (Book.agrees_after run).untagAll_of_not_carried he hnot
  · rw [untag_marking hopen₁ hrest hus, (Book.agrees_after run).untagAll_tagAll he hnot hsame]
  · rw [Book.contains_tagsOf_tagAll he, decide_eq_true rfl]
    by_cases ht : t ∈ ts <;> simp [ht]
  · rw [Book.contains_tagsOf_untagAll he, decide_eq_true rfl]
    by_cases ht : t ∈ ts <;> simp [ht]
  · intro b' hb' e hne
    rcases List.mem_pair.1 hb' with rfl | rfl
    · exact ⟨Book.tagsOf_tagAll_of_ne he ts hne, Book.filter_carriers_tagAll b _ ts⟩
    · exact ⟨Book.tagsOf_untagAll_of_ne he ts hne, Book.filter_carriers_untagAll b _ ts⟩

/-- A run in which a commodity and a closed account carry a tag, and their successor under this name carries
another one. -/
def succeeded : List Token :=
  ["U", "d", "commodity", "Assets:A", "open", "Assets:A", "t", "tag", "U", "t", "tag-commodity",
    "2020", "1", "1", "date", "Assets:A", "close", "2020", "1", "2", "date", "Assets:A", "open",
    "Assets:A", "s", "tag"].map .word

/-- Two tags are put on the successor, one of them twice, and taken off it in another order: the closed account of
its name and the commodity are listed as before, and nobody under the tag that was new. -/
theorem retagging_succeeded :
    (Book.after succeeded).findOpen "Assets:A" = .ok 1
      ∧ (Book.after succeeded).carriers "t" = [.account 0, .commodity "U"]
      ∧ ∃ tagged,
        tag "tag" (marking "Assets:A" ["t", "u", "t"] [.transfer 0] (.after succeeded))
            = (.ok .proceed, ⟨[.transfer 0], tagged⟩)
          ∧ tag "tag" (marking "Assets:A" ["u", "t"] [.transfer 0] (.after succeeded))
            = (.ok .proceed, ⟨[.transfer 0], tagged⟩)
          ∧ (tagged.tagsOf (.account 1)).contains "u" = true
          ∧ untag "untag" (marking "Assets:A" ["u", "t"] [.transfer 0] tagged)
            = (.ok .proceed, ⟨[.transfer 0], .after succeeded⟩) := by
  obtain ⟨hopen, hcarriers, hnot⟩ : (Book.after succeeded).findOpen "Assets:A" = .ok 1
      ∧ (Book.after succeeded).carriers "t" = [.account 0, .commodity "U"]
      ∧ ∀ t ∈ ["t", "u", "t"], ((Book.after succeeded).tagsOf (.account 1)).contains t = false := by
    decide +kernel
  have hrest : ∀ v ∈ List.head? [Value.transfer 0], v.isText = false := by
    intro v hv
    cases hv
    rfl
  have hsame : ∀ t, t ∈ ["t", "u", "t"] ↔ t ∈ ["u", "t"] := fun t => by simp [or_comm]
  obtain ⟨tagged, _, ⟨htag, hother, -⟩, -, hrestored, hcarried, -, -⟩ :=
    retagging succeeded hopen hrest (List.cons_ne_nil _ _) hsame
  refine ⟨hopen, hcarriers, tagged, htag "tag", hother "tag", ?_, (hrestored hnot).2 "untag"⟩
  rw [hcarried "u"]
  rfl

end Words

end Daybook
