import Daybook.Entries

/-!
# Tables

A table keeps values under names in the order in which the names were first used.  A name that has
been given up and is used again comes last.

* `get?_insert`, `get?_erase`: what a change does to every answer.
* `names_insert_of_contains`, `names_insert_of_not_contains`: a new value leaves a name where it is, a new
  name goes to the end.
-/

namespace Daybook

/-- Values under names, in the order of first use. -/
structure Table (α : Type) where
  entries : List (String × α)
  nodup : (entries.map (·.1)).Nodup

namespace Table

variable {α : Type}

instance [DecidableEq α] : DecidableEq (Table α) := fun a b =>
  decidable_of_iff (a.entries = b.entries) ⟨fun h => by cases a; cases b; cases h; rfl, fun h => h ▸ rfl⟩

/-- The table without entries. -/
def empty : Table α := ⟨[], .nil⟩

instance : EmptyCollection (Table α) := ⟨empty⟩

instance : Inhabited (Table α) := ⟨empty⟩

/-- The table with one entry. -/
def single (name : String) (a : α) : Table α := ⟨[(name, a)], by simp⟩

/-- The value under a name. -/
def get? (t : Table α) (name : String) : Option α := t.entries.lookup name

/-- Whether there is a value under a name. -/
def contains (t : Table α) (name : String) : Bool := (t.get? name).isSome

/-- The names, in the order of first use. -/
def names (t : Table α) : List String := t.entries.map (·.1)

/-- The values, in the order in which their names were first used. -/
def values (t : Table α) : List α := t.entries.map (·.2)

/-- Keeps a value under a name: in place of the one before, or else at the end. -/
def insert (t : Table α) (name : String) (a : α) : Table α :=
  if h : t.contains name = true then
    ⟨Entries.replace name a t.entries, by rw [Entries.names_replace]; exact t.nodup⟩
  else
    ⟨t.entries ++ [(name, a)], by
      have hn : name ∉ t.entries.map (·.1) := by
        rw [← Entries.lookup_eq_none_iff]
        exact Option.not_isSome_iff_eq_none.1 h
      rw [List.map_append, List.nodup_append]
      refine ⟨t.nodup, by simp, fun x hx y hy hxy => hn ?_⟩
      rw [hxy, List.mem_singleton.1 hy] at hx
      exact hx⟩

/-- Keeps nothing under a name. -/
def erase (t : Table α) (name : String) : Table α :=
  ⟨Entries.without name t.entries, t.nodup.sublist (List.filter_sublist.map _)⟩

@[simp] theorem get?_empty (name : String) : (∅ : Table α).get? name = none := rfl

theorem get?_single (name : String) (a : α) (x : String) :
    (single name a).get? x = if x = name then some a else none :=
  Entries.lookup_cons_eq _ _ _

/-- The value under a name after a value has been kept. -/
theorem get?_insert (t : Table α) (name : String) (a : α) (x : String) :
    (t.insert name a).get? x = if x = name then some a else t.get? x := by
  simp only [insert]
  split
  · next h =>
    show (Entries.replace name a t.entries).lookup x = _
    rw [Entries.lookup_replace]
    by_cases hx : x = name
    · subst hx
      have : (t.entries.lookup x).isSome = true := h
      simp [this]
    · simp [hx, get?]
  · next h =>
    show (t.entries ++ [(name, a)]).lookup x = _
    have hn : t.entries.lookup name = none := Option.not_isSome_iff_eq_none.1 h
    rw [List.lookup_append, Entries.lookup_cons_eq]
    by_cases hx : x = name
    · subst hx
      simp [hn]
    · simp [hx, get?]

/-- The value under a name after a name has been given up. -/
theorem get?_erase (t : Table α) (name x : String) :
    (t.erase name).get? x = if x = name then none else t.get? x :=
  Entries.lookup_without name t.entries x

/-- A new value leaves a name where it is. -/
theorem names_insert_of_contains {t : Table α} {name : String} {a : α} (h : t.contains name = true) :
    (t.insert name a).names = t.names := by
  simp only [insert, h, dite_true, names]
  exact Entries.names_replace name a t.entries

/-- A new name goes to the end. -/
theorem names_insert_of_not_contains {t : Table α} {name : String} {a : α}
    (h : t.contains name = false) : (t.insert name a).names = t.names ++ [name] := by
  simp [insert, h, names]

end Table

end Daybook
