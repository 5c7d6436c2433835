import Daybook.Proofs.Markings

/-!
# Tagging — the tags of entities and the carriers of tags

A word that puts a tag on or takes it off changes the tags of an entity and the carriers of the tag, each by
itself.  The two agree all the same, and carriers are listed in the order in which the log has them tagged.

* `carriers_tag`, `contains_tagsOf_tag`, `carriers_untag`, `contains_tagsOf_untag`: what a tagging and an
  untagging do.
* `Agrees`: tags and carriers agree with each other and with the log.
* `Agrees.tag`, `Agrees.untag`: **they still do after a tagging, and after an untagging**.
* `foldl_tagwise`: what a row of tags does is found tag by tag.
* `tags_agree`: so they do in every run.
-/

namespace Daybook

namespace Book

/-! ### One tag put on, or taken off -/

variable {b b' : Book} {e : Entity} {tag : String}

theorem tagged_updateTags (b : Book) (e : Entity) (f : NameSet → NameSet) :
    (b.updateTags e f).tagged = b.tagged := by
  cases e with
  | account id => rfl
  | commodity name =>
      simp only [updateTags, updateCommodity]
      split <;> rfl

/-- What a change of tags does to the tags of every entity, whatever the carriers are meanwhile. -/
theorem tagsOf_updateTags (he : b.Has e) (tagged : Catalogue (List Entity)) (f : NameSet → NameSet)
    (x : Entity) :
    ({ b with tagged }.updateTags e f).tagsOf x = if x = e then f (b.tagsOf x) else b.tagsOf x := by
  cases e with
  | account id =>
      cases x with
      | commodity name => rfl
      | account i =>
          show ((b.updateAccount id fun a => { a with tags := f a.tags }).account i).tags = _
          rw [account_update]
          by_cases hi : i = id
          · subst hi
            rw [if_pos ⟨rfl, he⟩, if_pos rfl]
            rfl
          · rw [if_neg fun h => hi h.1, if_neg fun h => hi (Entity.account.inj h)]
            rfl
  | commodity name =>
      obtain ⟨c, hc⟩ := Option.isSome_iff_exists.1 he
      have hupdate : { b with tagged }.updateTags (.commodity name) f
          = { b with tagged, commodities := b.commodities.insert name { c with tags := f c.tags } } := by
        simp only [updateTags, updateCommodity]
        rw [hc]
      rw [hupdate]
      cases x with
      | account i => rfl
      | commodity n =>
          simp only [tagsOf]
          rw [Catalogue.get?_insert]
          by_cases hn : n = name
          · subst hn
            rw [if_pos rfl, if_pos rfl, hc]
            rfl
          · rw [if_neg hn, if_neg fun h => hn (Entity.commodity.inj h)]

theorem has_updateTags {x : Entity} (hx : b.Has x) (tagged : Catalogue (List Entity)) (e : Entity)
    (f : NameSet → NameSet) : ({ b with tagged }.updateTags e f).Has x := by
  cases e with
  | account id =>
      cases x with
      | commodity name => exact hx
      | account i => exact lt_of_lt_of_eq hx (List.length_modify _ _ _).symm
  | commodity name =>
      simp only [updateTags, updateCommodity]
      split
      · exact hx
      cases x with
      | account i => exact hx
      | commodity n =>
          show ((b.commodities.insert name _).get? n).isSome = true
          rw [Catalogue.get?_insert]
          split
          · rfl
          · exact hx

theorem tagged_tag (b : Book) (e : Entity) (tag : String) :
    (b.tag e tag).tagged
      = b.tagged.insert tag (if e ∈ b.carriers tag then b.carriers tag else b.carriers tag ++ [e]) := by
  simp only [Book.tag, List.contains_iff_mem]
  exact tagged_updateTags _ e _

theorem tagged_untag (b : Book) (e : Entity) (tag : String) :
    (b.untag e tag).tagged
      = if (b.carriers tag).filter (· != e) = [] then b.tagged.erase tag
        else b.tagged.insert tag ((b.carriers tag).filter (· != e)) := by
  simp only [Book.untag, List.isEmpty_iff]
  exact tagged_updateTags _ e _

theorem carriers_tag (b : Book) (e : Entity) (tag t : String) :
    (b.tag e tag).carriers t
      = if t = tag then
          if e ∈ b.carriers tag then b.carriers tag else b.carriers tag ++ [e]
        else b.carriers t := by
  rw [carriers, tagged_tag, Catalogue.get?_insert]
  split <;> rfl

/-- Taking a tag off leaves the order of the other carriers. -/
theorem carriers_untag (b : Book) (e : Entity) (tag t : String) :
    (b.untag e tag).carriers t
      = if t = tag then (b.carriers tag).filter (· != e) else b.carriers t := by
  rw [carriers, tagged_untag]
  by_cases hempty : (b.carriers tag).filter (· != e) = []
  · rw [if_pos hempty, Catalogue.get?_erase, hempty]
    split <;> rfl
  · rw [if_neg hempty, Catalogue.get?_insert]
    split <;> rfl

theorem tagsOf_tag (he : b.Has e) (tag : String) (x : Entity) :
    (b.tag e tag).tagsOf x = if x = e then (b.tagsOf x).add tag else b.tagsOf x := by
  simp only [Book.tag]
  exact tagsOf_updateTags he _ _ x

theorem tagsOf_untag (he : b.Has e) (tag : String) (x : Entity) :
    (b.untag e tag).tagsOf x = if x = e then (b.tagsOf x).erase tag else b.tagsOf x := by
  simp only [Book.untag]
  exact tagsOf_updateTags he _ _ x

theorem contains_tagsOf_tag (he : b.Has e) (tag : String) (x : Entity) (t : String) :
    ((b.tag e tag).tagsOf x).contains t = true
      ↔ (x = e ∧ t = tag) ∨ (b.tagsOf x).contains t = true := by
  rw [tagsOf_tag he]
  by_cases hx : x = e
  · rw [if_pos hx, NameSet.contains_add]
    simp [hx]
  · simp [hx]

theorem contains_tagsOf_untag (he : b.Has e) (tag : String) (x : Entity) (t : String) :
    ((b.untag e tag).tagsOf x).contains t = true
      ↔ ¬(x = e ∧ t = tag) ∧ (b.tagsOf x).contains t = true := by
  rw [tagsOf_untag he]
  by_cases hx : x = e
  · rw [if_pos hx]
    simp only [Catalogue.contains, Catalogue.get?_erase]
    by_cases ht : t = tag
    · simp [ht, hx]
    · simp [ht]
  · simp [hx]

end Book

/-! ### Agreement -/

/-- A tag was put on an entity before it was put on another, as it is now on both. -/
def Marking.Before (log : List Marking) (tag : String) (e e' : Entity) : Prop :=
  ∃ i j, addedAt e tag log.reverse = some i ∧ addedAt e' tag log.reverse = some j ∧ i < j

namespace Book

/-- Tags and carriers that agree with each other and with a log of taggings. -/
structure Agrees (log : List Marking) (b : Book) : Prop where
  carried : ∀ e tag, e ∈ b.carriers tag ↔ (b.tagsOf e).contains tag = true
  added : ∀ e tag, e ∈ b.carriers tag ↔ Marking.addedAt e tag log.reverse ≠ none
  ordered : ∀ tag, (b.carriers tag).Pairwise (Marking.Before log tag)
  nonempty : ∀ tag l, b.tagged.get? tag = some l → l ≠ []

namespace Agrees

variable {b b' : Book} {e : Entity} {log : List Marking}

theorem empty : Agrees [] .empty where
  carried e tag := by
    refine iff_of_false List.not_mem_nil fun h => ?_
    cases e with
    | commodity name => cases h
    | account id => cases h
  added _ _ := iff_of_false List.not_mem_nil fun h => h rfl
  ordered _ := .nil
  nonempty _ _ h := by cases h

theorem congr (h : Agrees log b) (hb : b'.marks = b.marks) : Agrees log b' := by
  obtain ⟨htagged, htags⟩ := Prod.mk.inj hb
  have hcarriers : b'.carriers = b.carriers := by
    funext tag
    simp only [carriers]
    rw [htagged]
  refine ⟨?_, ?_, ?_, htagged ▸ h.nonempty⟩
  · rw [hcarriers, htags]
    exact h.carried
  · rw [hcarriers]
    exact h.added
  · rw [hcarriers]
    exact h.ordered

/-- No entity is listed twice. -/
theorem nodup (h : Agrees log b) (tag : String) : (b.carriers tag).Nodup := by
  refine (h.ordered tag).imp ?_
  rintro e _ ⟨i, j, hi, hj, hlt⟩ rfl
  rw [hi] at hj
  cases hj
  exact Nat.lt_irrefl i hlt

/-- **A tagging keeps agreement**: an entity that is tagged anew is listed last. -/
theorem tag (h : Agrees log b) (he : b.Has e) (tag : String) :
    Agrees (log ++ [.tagging e tag]) (b.tag e tag) := by
  have hlog : (log ++ [Marking.tagging e tag]).reverse = .tagging e tag :: log.reverse :=
    List.reverse_concat
  -- those that were listed before stay in their order
  have hkept : ∀ {t x y}, Marking.Before log t x y → Marking.Before (log ++ [.tagging e tag]) t x y := by
    rintro t x y ⟨i, j, hi, hj, hlt⟩
    refine ⟨i, j, ?_, ?_, hlt⟩
    · rw [hlog]
      exact Marking.addedAt_tagging_of_some hi e tag
    · rw [hlog]
      exact Marking.addedAt_tagging_of_some hj e tag
  have hmem : ∀ x t, x ∈ (b.tag e tag).carriers t ↔ (x = e ∧ t = tag) ∨ x ∈ b.carriers t := by
    intro x t
    rw [carriers_tag]
    by_cases ht : t = tag
    · rw [if_pos ht]
      split
      · next hc =>
          refine ⟨fun hx => .inr (ht ▸ hx), ?_⟩
          rintro (⟨rfl, -⟩ | hx)
          · exact hc
          · exact ht ▸ hx
      · simp [ht, or_comm]
    · simp [ht]
  refine ⟨?_, ?_, ?_, ?_⟩
  · intro x t
    rw [hmem, contains_tagsOf_tag he, h.carried]
  · intro x t
    rw [hmem, hlog]
    by_cases hx : x = e ∧ t = tag
    · obtain ⟨rfl, rfl⟩ := hx
      rw [Marking.addedAt_tagging]
      exact iff_of_true (.inl ⟨rfl, rfl⟩) nofun
    · rw [Marking.addedAt_tagging_of_ne hx, or_iff_right hx]
      exact h.added x t
  · intro t
    rw [carriers_tag]
    by_cases ht : t = tag
    · subst ht
      rw [if_pos rfl]
      split
      · exact (h.ordered t).imp hkept
      · next hnew =>
          refine List.pairwise_append.2 ⟨(h.ordered t).imp hkept, List.pairwise_singleton _ _, ?_⟩
          intro x hx y hy
          cases List.mem_singleton.1 hy
          obtain ⟨i, hi⟩ := Option.ne_none_iff_exists'.1 ((h.added x t).1 hx)
          have hnone : Marking.addedAt e t log.reverse = none :=
            Decidable.byContradiction fun hadded => hnew ((h.added e t).2 hadded)
          refine ⟨i, log.reverse.length, ?_, ?_, Marking.lt_of_addedAt hi⟩
          · rw [hlog]
            exact Marking.addedAt_tagging_of_some hi e t
          · rw [hlog, Marking.addedAt_tagging, hnone]
            rfl
    · rw [if_neg ht]
      exact (h.ordered t).imp hkept
  · intro t l hl
    rw [tagged_tag, Catalogue.get?_insert] at hl
    split at hl
    · cases hl
      split
      · next hc => exact List.ne_nil_of_mem hc
      · exact List.append_ne_nil_of_right_ne_nil _ nofun
    · exact h.nonempty t l hl

/-- **An untagging keeps agreement.** -/
theorem untag (h : Agrees log b) (he : b.Has e) (tag : String) :
    Agrees (log ++ [.untagging e tag]) (b.untag e tag) := by
  have hlog : (log ++ [Marking.untagging e tag]).reverse = .untagging e tag :: log.reverse :=
    List.reverse_concat
  have hkept : ∀ {t x y}, ¬(x = e ∧ t = tag) → ¬(y = e ∧ t = tag) → Marking.Before log t x y →
      Marking.Before (log ++ [.untagging e tag]) t x y := by
    rintro t x y hx hy ⟨i, j, hi, hj, hlt⟩
    refine ⟨i, j, ?_, ?_, hlt⟩
    · rw [hlog, Marking.addedAt_untagging_of_ne hx, hi]
    · rw [hlog, Marking.addedAt_untagging_of_ne hy, hj]
  have hmem : ∀ x t, x ∈ (b.untag e tag).carriers t ↔ ¬(x = e ∧ t = tag) ∧ x ∈ b.carriers t := by
    intro x t
    rw [carriers_untag]
    by_cases ht : t = tag
    · rw [if_pos ht, List.mem_filter, ht, bne_iff_ne, and_comm]
      simp
    · rw [if_neg ht]
      simp [ht]
  refine ⟨?_, ?_, ?_, ?_⟩
  · intro x t
    rw [hmem, contains_tagsOf_untag he, h.carried]
  · intro x t
    rw [hmem, hlog]
    by_cases hx : x = e ∧ t = tag
    · obtain ⟨rfl, rfl⟩ := hx
      rw [Marking.addedAt_untagging]
      exact iff_of_false (fun hk => hk.1 ⟨rfl, rfl⟩) fun hk => hk rfl
    · rw [Marking.addedAt_untagging_of_ne hx, and_iff_right hx]
      exact h.added x t
  · intro t
    rw [carriers_untag]
    by_cases ht : t = tag
    · subst ht
      rw [if_pos rfl]
      have hfiltered := (h.ordered t).filter (· != e)
      refine hfiltered.imp_of_mem ?_
      intro x y hx hy
      have hxe : x ≠ e := by simpa using (List.mem_filter.1 hx).2
      have hye : y ≠ e := by simpa using (List.mem_filter.1 hy).2
      exact hkept (fun hk => hxe hk.1) (fun hk => hye hk.1)
    · rw [if_neg ht]
      exact (h.ordered t).imp (hkept (fun hk => ht hk.2) fun hk => ht hk.2)
  · intro t l hl
    rw [tagged_untag] at hl
    split at hl
    · rw [Catalogue.get?_erase] at hl
      split at hl
      · cases hl
      · exact h.nonempty t l hl
    · next hne =>
        rw [Catalogue.get?_insert] at hl
        split at hl
        · cases hl
          exact hne
        · exact h.nonempty t l hl

/-- Changes that keep agreement tag by tag keep it in a row. -/
theorem foldl {f : Book → String → Book} {mark : String → Marking}
    (hstep : ∀ {log b} tag, Agrees log b → b.Has e → Agrees (log ++ [mark tag]) (f b tag))
    (hhas : ∀ {b} tag, b.Has e → (f b tag).Has e) (h : Agrees log b) (he : b.Has e)
    (tags : List String) : Agrees (log ++ tags.map mark) (tags.foldl f b) := by
  induction tags generalizing log b with
  | nil => rwa [List.map_nil, List.append_nil]
  | cons tag tags ih =>
      rw [List.map_cons, List.append_cons]
      exact ih (hstep tag h he) (hhas tag he)

theorem foldl_tag (h : Agrees log b) (he : b.Has e) (tags : List String) :
    Agrees (log ++ tags.map (.tagging e)) (tags.foldl (fun b tag => b.tag e tag) b) :=
  foldl (fun tag h he => h.tag he tag) (fun _ he => has_updateTags he _ e _) h he tags

theorem foldl_untag (h : Agrees log b) (he : b.Has e) (tags : List String) :
    Agrees (log ++ tags.map (.untagging e)) (tags.foldl (fun b tag => b.untag e tag) b) :=
  foldl (fun tag h he => h.untag he tag) (fun _ he => has_updateTags he _ e _) h he tags

end Agrees

/-- In every run tags and carriers agree. -/
theorem agrees_after (ts : List Token) : Agrees (markings ts) (after ts) := by
  refine after_recorded Call.markings Agrees (I := fun _ => True) trivial (fun _ _ _ => trivial)
    ?_ ?_ .empty ts
  · intro m s d log _ he h
    rcases he.marks with ⟨e, tags, hentries, hhas, hb⟩ | ⟨e, tags, hentries, hhas, hb⟩ | ⟨hentries, hb⟩
    · rw [hentries, hb]
      exact h.foldl_tag hhas tags
    · rw [hentries, hb]
      exact h.foldl_untag hhas tags
    · rw [hentries, List.append_nil]
      exact h.congr hb
  · exact fun log b b' hb h => h.congr (marks_of_unlotted hb)

/-- What a row of tags does to a view of the book, tag by tag, when each tag does the same whenever its turn
comes. -/
theorem foldl_tagwise {γ : Type} (I : Book → Prop) (f : Book → String → Book) (view new : Book → String → γ)
    (hI : ∀ b tag, I b → I (f b tag))
    (hstep : ∀ b tag t, I b → view (f b tag) t = if t = tag then new b t else view b t)
    (hnew : ∀ b tag t, I b → new (f b tag) t = new b t) (hb : I b) (ts : List String) (t : String) :
    view (ts.foldl f b) t = if t ∈ ts then new b t else view b t := by
  induction ts generalizing b with
  | nil => rfl
  | cons tag ts ih =>
      rw [List.foldl_cons, ih (hI b tag hb), hnew b tag t hb, hstep b tag t hb]
      by_cases hmem : t ∈ ts
      · rw [if_pos hmem, if_pos (List.mem_cons_of_mem _ hmem)]
      · rw [if_neg hmem]
        by_cases ht : t = tag
        · rw [if_pos ht, if_pos (ht ▸ List.mem_cons_self)]
        · rw [if_neg ht, if_neg (by simp [ht, hmem])]

/-- Taking tags off leaves the order of the other carriers, tag by tag. -/
theorem carriers_foldl_untag (b : Book) (e : Entity) (tags : List String) (t : String) :
    (tags.foldl (fun b tag => b.untag e tag) b).carriers t
      = if t ∈ tags then (b.carriers t).filter (· != e) else b.carriers t := by
  refine foldl_tagwise (fun _ => True) (·.untag e ·) carriers (fun b t => (b.carriers t).filter (· != e))
    (fun _ _ _ => trivial) (fun b tag t _ => ?_) (fun b tag t _ => ?_) trivial tags t
  · rw [carriers_untag]
    by_cases ht : t = tag
    · rw [if_pos ht, if_pos ht, ht]
    · rw [if_neg ht, if_neg ht]
  · rw [carriers_untag]
    split
    · next ht =>
        rw [List.filter_filter, ht]
        simp only [Bool.and_self]
    · rfl

/-- **The tags of entities and the carriers of tags always agree.**  In every run, whatever came of each
token, an entity is listed under a tag just when it carries it; no list is empty, and none has an entity
twice; entities are listed in the order in which the tag was put on them, as the log has it.  A call of
`untag` takes the account out of the lists of its tags, and leaves the order of the others. -/
theorem tags_agree :
    (∀ ts e tag, e ∈ (after ts).carriers tag ↔ ((after ts).tagsOf e).contains tag = true)
      ∧ (∀ ts tag l, (after ts).tagged.get? tag = some l → l ≠ [] ∧ l.Nodup)
      ∧ (∀ ts tag, ((after ts).carriers tag).Pairwise (Marking.Before (markings ts) tag))
      ∧ ∀ d signal d', Words.untag "untag" d = (.ok signal, d') →
          ∃ name tags id, d.operands.topTexts = name :: tags ∧ d.context.findOpen name = .ok id
            ∧ ∀ tag, d'.context.carriers tag
              = if tag ∈ tags then (d.context.carriers tag).filter (· != .account id)
                else d.context.carriers tag := by
  refine ⟨fun ts => (agrees_after ts).carried, ?_, fun ts => (agrees_after ts).ordered, ?_⟩
  · intro ts tag l hl
    have hcarriers : (after ts).carriers tag = l := by
      simp only [carriers]
      rw [hl]
      rfl
    exact ⟨(agrees_after ts).nonempty tag l hl, hcarriers ▸ (agrees_after ts).nodup tag⟩
  · intro d signal d' h
    obtain ⟨name, tags, id, hops, hid, rfl⟩ := Words.untag_ok h
    exact ⟨name, tags, id, hops, hid, carriers_foldl_untag d.context (.account id) tags⟩

/-- A run in which three entities are tagged, and the first is untagged and tagged again. -/
def tagging : List Token :=
  ["U", "d", "commodity", "Equity", "open", "Assets:A", "open", "Equity", "t", "tag",
    "Assets:A", "t", "tag", "U", "t", "tag-commodity", "Equity", "t", "untag", "Equity", "t", "tag",
    "Assets:A", "t", "tag"].map .word

/-- A call that takes the tag off the first once more. -/
def untagging : Desk Book := ⟨[.text "t", .text "Equity"], after tagging⟩

/-- The first is listed last from then on, and the order of the others stays when it is untagged. -/
theorem tags_agree_tagging :
    (after tagging).carriers "t" = [.account 1, .commodity "U", .account 0]
      ∧ [Entity.account 1, .commodity "U", .account 0].Nodup
      ∧ Marking.Before (markings tagging) "t" (.account 1) (.account 0)
      ∧ (Words.untag "untag" untagging).2.context.carriers "t" = [.account 1, .commodity "U"] := by
  have hget : (after tagging).tagged.get? "t"
      = some [.account 1, .commodity "U", .account 0] := by decide +kernel
  have hcarriers : (after tagging).carriers "t" = [.account 1, .commodity "U", .account 0] := by
    simp only [carriers]
    rw [hget]
    rfl
  have hordered := tags_agree.2.2.1 tagging "t"
  rw [hcarriers] at hordered
  have hcall : (Words.untag "untag" untagging).1 = .ok .proceed := by decide +kernel
  have huntag : Words.untag "untag" untagging = (.ok .proceed, (Words.untag "untag" untagging).2) := by
    rw [← hcall]
  refine ⟨hcarriers, (tags_agree.2.1 tagging "t" _ hget).2, ?_, ?_⟩
  · exact (List.pairwise_cons.1 hordered).1 _ (by simp)
  · obtain ⟨name, tags, id, hops, hid, hleft⟩ := tags_agree.2.2.2 untagging _ _ huntag
    obtain ⟨rfl, rfl⟩ : name = "Equity" ∧ tags = ["t"] := by
      cases hops
      exact ⟨rfl, rfl⟩
    have hcurrent : untagging.context.current? "Equity" = some 0 := by decide +kernel
    obtain rfl : id = 0 := Option.some.inj ((findOpen_eq_ok_iff.1 hid).1.symm.trans hcurrent)
    rw [hleft "t"]
    simp only [untagging]
    rw [hcarriers]
    decide

end Book

end Daybook
