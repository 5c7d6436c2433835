/-!
# Longest beginnings

Readers take the longest beginning of a text whose characters are of one kind, and go on with the rest.  What stands
before and after the seam of two texts says where such a beginning ends.

* `dropWhile_append_of_head`, `takeWhile_append_of_head`: a beginning ends where another kind begins the rest.
* `dropWhile_append_cons`, `takeWhile_append_cons`: what comes after does not matter to a beginning that has ended.
* `head_dropWhile`: the rest begins with another kind.
-/

namespace Daybook

variable {α : Type} {p : α → Bool}

/-- What is dropped ends where an element that is to be kept begins the rest. -/
theorem dropWhile_append_of_head {a b : List α} (ha : ∀ x ∈ a, p x = true) (hb : ∀ y ∈ b.head?, p y = false) :
    (a ++ b).dropWhile p = b := by
  rw [List.dropWhile_append_of_pos ha]
  cases b with
  | nil => rfl
  | cons y ys => exact List.dropWhile_cons_of_neg (by rw [hb y rfl]; exact Bool.false_ne_true)

theorem takeWhile_append_of_head {a b : List α} (ha : ∀ x ∈ a, p x = true) (hb : ∀ y ∈ b.head?, p y = false) :
    (a ++ b).takeWhile p = a := by
  have hall := List.takeWhile_append_dropWhile (p := p) (l := a ++ b)
  rw [dropWhile_append_of_head ha hb] at hall
  exact List.append_cancel_right hall

/-- What comes after does not matter to what is dropped if dropping ends before it, or there. -/
theorem dropWhile_append_cons {xs : List α} {y : α} (h : xs.dropWhile p ≠ [] ∨ p y = false) (ys : List α) :
    (xs ++ y :: ys).dropWhile p = xs.dropWhile p ++ y :: ys := by
  rw [List.dropWhile_append]
  cases hd : xs.dropWhile p with
  | cons z zs => rfl
  | nil =>
      have hy : p y = false := h.resolve_left fun hn => hn hd
      simp [hy]

theorem takeWhile_append_cons {xs : List α} {y : α} (h : xs.dropWhile p ≠ [] ∨ p y = false) (ys : List α) :
    (xs ++ y :: ys).takeWhile p = xs.takeWhile p := by
  -- what is taken is what stands before what is left
  have hall := List.takeWhile_append_dropWhile (p := p) (l := xs ++ y :: ys)
  rw [dropWhile_append_cons h, ← List.append_assoc] at hall
  have hxs := List.append_cancel_right hall
  exact List.append_cancel_right (hxs.trans List.takeWhile_append_dropWhile.symm)

/-- What is left begins with an element that is not dropped. -/
theorem head_dropWhile (xs : List α) : ∀ y ∈ (xs.dropWhile p).head?, p y = false := by
  intro y hy
  have hhead := List.head?_dropWhile_not p xs
  rw [Option.mem_def.1 hy] at hhead
  exact hhead

end Daybook
