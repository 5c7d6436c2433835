import Daybook.Entries

/-!
# Catalogues

A catalogue keeps values under names, sorted by name.  Two catalogues that answer alike are equal
(`Catalogue.ext_get?`), so it does not show in which order a catalogue was filled.

* `get?_insert`, `get?_erase`: what a change does to every answer.
* `names_sorted`: the names are listed in increasing order, none twice.
-/

namespace Daybook

/-- Values under names, sorted by name. -/
structure Catalogue (α : Type) where
  entries : List (String × α)
  sorted : entries.Pairwise fun a b => a.1 < b.1

namespace Catalogue

variable {α : Type}

instance [DecidableEq α] : DecidableEq (Catalogue α) := fun a b =>
  decidable_of_iff (a.entries = b.entries) ⟨fun h => by cases a; cases b; cases h; rfl, fun h => h ▸ rfl⟩

/-- The catalogue without entries. -/
def empty : Catalogue α := ⟨[], .nil⟩

instance : EmptyCollection (Catalogue α) := ⟨empty⟩

instance : Inhabited (Catalogue α) := ⟨empty⟩

/-- The value under a name. -/
def get? (c : Catalogue α) (name : String) : Option α := c.entries.lookup name

/-- Whether there is a value under a name. -/
def contains (c : Catalogue α) (name : String) : Bool := (c.get? name).isSome

/-- The names, in increasing order. -/
def names (c : Catalogue α) : List String := c.entries.map (·.1)

/-- The number of entries. -/
def size (c : Catalogue α) : Nat := c.entries.length

/-- Whether there are no entries. -/
def isEmpty (c : Catalogue α) : Bool := c.entries.isEmpty

/-- Puts an entry into a sorted list, in the place of one with the same name. -/
def insertInto (name : String) (a : α) : List (String × α) → List (String × α)
  | [] => [(name, a)]
  | e :: es =>
    if name < e.1 then (name, a) :: e :: es
    else if name = e.1 then (name, a) :: es
    else e :: insertInto name a es

theorem mem_insertInto {name : String} {a : α} {es : List (String × α)} {e : String × α}
    (h : e ∈ insertInto name a es) : e = (name, a) ∨ e ∈ es := by
  induction es with
  | nil => simpa [insertInto] using h
  | cons e' es ih =>
    simp only [insertInto] at h
    split at h
    · simpa using h
    split at h
    · rcases List.mem_cons.1 h with h | h
      · exact .inl h
      · exact .inr (List.mem_cons_of_mem _ h)
    · rcases List.mem_cons.1 h with h | h
      · exact .inr (h ▸ List.mem_cons_self)
      · exact (ih h).imp id (List.mem_cons_of_mem _)

theorem lt_of_not_lt_of_ne {a b : String} (h : ¬ a < b) (hne : ¬ a = b) : b < a := by
  refine Decidable.byContradiction fun h' => hne ?_
  exact String.le_antisymm (String.not_lt.1 h') (String.not_lt.1 h)

theorem sorted_insertInto (name : String) (a : α) {es : List (String × α)}
    (h : es.Pairwise fun a b => a.1 < b.1) :
    (insertInto name a es).Pairwise fun a b => a.1 < b.1 := by
  induction es with
  | nil => simp [insertInto]
  | cons e es ih =>
    obtain ⟨he, hes⟩ := List.pairwise_cons.1 h
    simp only [insertInto]
    split
    · next hlt =>
      refine List.pairwise_cons.2 ⟨fun e' he' => ?_, h⟩
      rcases List.mem_cons.1 he' with rfl | he'
      · exact hlt
      · exact String.lt_trans hlt (he e' he')
    split
    · next heq =>
      exact List.pairwise_cons.2 ⟨fun e' he' => heq ▸ he e' he', hes⟩
    · next hlt hne =>
      refine List.pairwise_cons.2 ⟨fun e' he' => ?_, ih hes⟩
      rcases mem_insertInto he' with rfl | he'
      · exact lt_of_not_lt_of_ne hlt hne
      · exact he e' he'

/-- Keeps a value under a name, in place of the one before. -/
def insert (c : Catalogue α) (name : String) (a : α) : Catalogue α :=
  ⟨insertInto name a c.entries, sorted_insertInto name a c.sorted⟩

/-- Keeps nothing under a name. -/
def erase (c : Catalogue α) (name : String) : Catalogue α :=
  ⟨Entries.without name c.entries, c.sorted.filter _⟩

/-- The catalogue of a list of entries; of two with one name the later counts. -/
def ofList (es : List (String × α)) : Catalogue α := es.foldl (fun c e => c.insert e.1 e.2) ∅

@[simp] theorem get?_empty (name : String) : (∅ : Catalogue α).get? name = none := rfl

theorem lookup_insertInto (name : String) (a : α) (es : List (String × α)) (x : String) :
    (insertInto name a es).lookup x = if x = name then some a else es.lookup x := by
  induction es with
  | nil => exact Entries.lookup_cons_eq _ _ _
  | cons e es ih =>
    simp only [insertInto]
    split
    · exact Entries.lookup_cons_eq _ _ _
    split
    · next heq =>
      rw [Entries.lookup_cons_eq, Entries.lookup_cons_eq]
      by_cases h : x = name
      · simp [h]
      · rw [if_neg h, if_neg h, if_neg (heq ▸ h)]
    · next hne =>
      rw [Entries.lookup_cons_eq, Entries.lookup_cons_eq, ih]
      by_cases h : x = name
      · subst h
        rw [if_neg hne, if_pos rfl, if_pos rfl]
      · rw [if_neg h, if_neg h]

/-- The value under a name after a value has been kept. -/
theorem get?_insert (c : Catalogue α) (name : String) (a : α) (x : String) :
    (c.insert name a).get? x = if x = name then some a else c.get? x :=
  lookup_insertInto name a c.entries x

/-- The value under a name after a name has been given up. -/
theorem get?_erase (c : Catalogue α) (name x : String) :
    (c.erase name).get? x = if x = name then none else c.get? x :=
  Entries.lookup_without name c.entries x

/-- The names are listed in increasing order, none twice. -/
theorem names_sorted (c : Catalogue α) : c.names.Pairwise (· < ·) := by
  simpa [names, List.pairwise_map] using c.sorted

theorem lookup_eq_none_of_forall_lt {es : List (String × α)} {x : String} (h : ∀ e ∈ es, x < e.1) :
    es.lookup x = none := by
  rw [Entries.lookup_eq_none_iff, List.mem_map]
  rintro ⟨e, he, rfl⟩
  exact String.lt_irrefl _ (h e he)

theorem entries_ext {es fs : List (String × α)} (hes : es.Pairwise fun a b => a.1 < b.1)
    (hfs : fs.Pairwise fun a b => a.1 < b.1) (h : ∀ x, es.lookup x = fs.lookup x) : es = fs := by
  induction es generalizing fs with
  | nil =>
    cases fs with
    | nil => rfl
    | cons f fs =>
      have h₁ := h f.1
      rw [Entries.lookup_cons_eq, if_pos rfl] at h₁
      cases h₁
  | cons e es ih =>
    cases fs with
    | nil =>
      have h₁ := h e.1
      rw [Entries.lookup_cons_eq, if_pos rfl] at h₁
      cases h₁
    | cons f fs =>
      obtain ⟨he, hes⟩ := List.pairwise_cons.1 hes
      obtain ⟨hf, hfs⟩ := List.pairwise_cons.1 hfs
      have hkey : e.1 = f.1 := by
        refine Decidable.byContradiction fun hne => ?_
        by_cases hlt : e.1 < f.1
        · have h₁ := h e.1
          have hn : (f :: fs).lookup e.1 = none := lookup_eq_none_of_forall_lt fun g hg => by
            rcases List.mem_cons.1 hg with rfl | hg
            · exact hlt
            · exact String.lt_trans hlt (hf g hg)
          rw [hn, Entries.lookup_cons_eq, if_pos rfl] at h₁
          cases h₁
        · have hgt := lt_of_not_lt_of_ne hlt hne
          have h₁ := h f.1
          have hn : (e :: es).lookup f.1 = none := lookup_eq_none_of_forall_lt fun g hg => by
            rcases List.mem_cons.1 hg with rfl | hg
            · exact hgt
            · exact String.lt_trans hgt (he g hg)
          rw [hn, Entries.lookup_cons_eq, if_pos rfl] at h₁
          cases h₁
      have hval : e.2 = f.2 := by
        have h₁ := h e.1
        rw [Entries.lookup_cons_eq, Entries.lookup_cons_eq, if_pos rfl, if_pos hkey] at h₁
        exact Option.some.inj h₁
      have htail : es = fs := by
        refine ih hes hfs fun x => ?_
        by_cases hx : x = e.1
        · rw [lookup_eq_none_of_forall_lt fun g hg => hx ▸ he g hg,
            lookup_eq_none_of_forall_lt fun g hg => hx ▸ hkey ▸ hf g hg]
        · have h₁ := h x
          rwa [Entries.lookup_cons_eq, Entries.lookup_cons_eq, if_neg hx, if_neg (hkey ▸ hx)] at h₁
      rw [htail, show e = f from Prod.ext hkey hval]

/-- Two catalogues that answer alike are equal. -/
theorem ext_get? {c d : Catalogue α} (h : ∀ x, c.get? x = d.get? x) : c = d := by
  obtain ⟨es, hes⟩ := c
  obtain ⟨fs, hfs⟩ := d
  cases entries_ext hes hfs h
  rfl

end Catalogue

/-- A set of names. -/
abbrev NameSet := Catalogue Unit

namespace NameSet

/-- Puts a name into a set. -/
def add (s : NameSet) (name : String) : NameSet := s.insert name ()

/-- The set of the names in a list. -/
def ofList (names : List String) : NameSet := names.foldl add ∅

theorem contains_add (s : NameSet) (name x : String) :
    (s.add name).contains x = (x == name || s.contains x) := by
  by_cases h : x = name <;> simp [add, Catalogue.contains, Catalogue.get?_insert, h]

/-- Two sets with the same names are equal. -/
theorem ext_contains {s s' : NameSet} (h : ∀ x, s.contains x = s'.contains x) : s = s' := by
  refine Catalogue.ext_get? fun x => ?_
  have hx := h x
  simp only [Catalogue.contains] at hx
  cases hs : s.get? x with
  | none =>
      rw [hs, Option.isSome_none] at hx
      exact (Option.isNone_iff_eq_none.1 (Option.isSome_eq_false_iff.1 hx.symm)).symm
  | some u =>
      rw [hs, Option.isSome_some] at hx
      exact (Option.isSome_iff_exists.1 hx.symm).elim fun _ hx => hx.symm

end NameSet

end Daybook
