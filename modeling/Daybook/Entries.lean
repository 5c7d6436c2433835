/-!
# Named entries

Lists of values under names, read by the first entry with a name.  Catalogues and tables are such lists,
kept sorted and kept in order of first use.

* `lookup_cons_eq`: the first entry with a name counts.
* `lookup_without`: nothing is found under a name whose entries have been taken out.
* `lookup_replace`: a new value is found where there was one.
-/

namespace Daybook.Entries

variable {α : Type}

/-- The entries under other names. -/
def without (name : String) (es : List (String × α)) : List (String × α) :=
  es.filter fun e => decide (e.1 ≠ name)

/-- The entries, with a new value wherever the name stands. -/
def replace (name : String) (a : α) (es : List (String × α)) : List (String × α) :=
  es.map fun e => if e.1 = name then (name, a) else e

/-- The first entry with a name counts. -/
theorem lookup_cons_eq (e : String × α) (es : List (String × α)) (x : String) :
    (e :: es).lookup x = if x = e.1 then some e.2 else es.lookup x := by
  obtain ⟨k, v⟩ := e
  by_cases h : x = k
  · simp [h]
  · have h' : (x == k) = false := by simpa using h
    simp [List.lookup_cons, h, h']

theorem lookup_eq_none_iff {es : List (String × α)} {x : String} :
    es.lookup x = none ↔ x ∉ es.map (·.1) := by
  induction es with
  | nil => simp
  | cons e es ih =>
    rw [lookup_cons_eq, List.map_cons, List.mem_cons]
    split
    · next h => simp [h]
    · next h => simp only [ih, h, false_or]

theorem mem_of_lookup {es : List (String × α)} {x : String} {a : α} (h : es.lookup x = some a) :
    (x, a) ∈ es := by
  induction es with
  | nil => cases h
  | cons e es ih =>
    rw [lookup_cons_eq] at h
    split at h
    · next hx =>
      cases h
      rw [hx]
      exact List.mem_cons_self
    · exact List.mem_cons_of_mem _ (ih h)

/-- Nothing is found under a name whose entries have been taken out. -/
theorem lookup_without (name : String) (es : List (String × α)) (x : String) :
    (without name es).lookup x = if x = name then none else es.lookup x := by
  induction es with
  | nil => simp [without]
  | cons e es ih =>
    simp only [without] at ih ⊢
    rw [List.filter_cons, lookup_cons_eq]
    by_cases he : e.1 = name
    · rw [if_neg (by simpa using he), ih]
      by_cases h : x = name
      · simp [h]
      · rw [if_neg h, if_neg h, if_neg (he ▸ h)]
    · rw [if_pos (by simpa using he), lookup_cons_eq, ih]
      by_cases h : x = e.1
      · rw [if_pos h, if_pos h, if_neg (h ▸ he)]
      · rw [if_neg h, if_neg h]

theorem names_replace (name : String) (a : α) (es : List (String × α)) :
    (replace name a es).map (·.1) = es.map (·.1) := by
  induction es with
  | nil => rfl
  | cons e es ih =>
    simp only [replace] at ih ⊢
    rw [List.map_cons, List.map_cons, List.map_cons, ih]
    split
    · next h => rw [h]
    · rfl

/-- A new value is found where there was one. -/
theorem lookup_replace (name : String) (a : α) (es : List (String × α)) (x : String) :
    (replace name a es).lookup x
      = if x = name ∧ (es.lookup x).isSome = true then some a else es.lookup x := by
  induction es with
  | nil => simp [replace]
  | cons e es ih =>
    simp only [replace] at ih ⊢
    rw [List.map_cons, lookup_cons_eq, lookup_cons_eq, ih]
    by_cases he : e.1 = name
    · by_cases h : x = name
      · simp [he, h]
      · simp [he, h]
    · by_cases h : x = e.1
      · simp [he, h]
      · simp only [he, h, if_false]

end Daybook.Entries
