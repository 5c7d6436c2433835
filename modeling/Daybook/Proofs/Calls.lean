import Daybook.Proofs.Lots
import Daybook.Proofs.Unchanged

/-!
# Calls — what a run has called

A run calls core words one after the other, and some calls go through.  Apart from lots and the journal, a
book changes in these calls only, so what a book has come to can be read from them.  What is read from a
call is an entry of a log.

* `Machine.calls`: the calls of a run that go through.
* `Machine.step_call`: **a token has the effect of a call that goes through, or touches nothing but lots**.
* `after_recorded`: so what each such call keeps, of a log and of a book without its lots, holds in every
  run.
* `lastOf`: the last entry of a log with a property.
-/

namespace Daybook

/-- A call of a core word: the name of the word, and the desk on which it works. -/
structure Call where
  name : String
  desk : Desk Book

/-! ### Logs -/

section

variable {α : Type}

/-- The last entry of a log with a property. -/
def lastOf (p : α → Bool) (log : List α) : Option α := log.reverse.find? p

theorem lastOf_concat (p : α → Bool) (log : List α) (a : α) :
    lastOf p (log ++ [a]) = if p a then some a else lastOf p log := by
  simp only [lastOf]
  rw [List.reverse_append, List.reverse_singleton, List.singleton_append, List.find?_cons]
  cases p a <;> rfl

end

namespace Machine

variable {m : Machine Book} {t : Token}

/-- The call that a token makes, if it makes one that goes through. -/
def callOf (m : Machine Book) : Token → List Call
  | .word s =>
    if m.silenced || (Vocabulary.core s).isNone then []
    else
      match (m.step .core (.word s)).1 with
      | .ok _ => [⟨s, m.desk⟩]
      | .error _ => []
  | _ => []

/-- The calls that tokens make and that go through, in their order. -/
def calls (m : Machine Book) : List Token → List Call
  | [] => []
  | t :: ts => m.callOf t ++ calls (m.step .core t).2 ts

theorem Calls.callOf_eq {s : String} {w : Word Book} (h : m.Calls t s w) :
    m.callOf t =
      match (m.step .core t).1 with
      | .ok _ => [⟨s, m.desk⟩]
      | .error _ => [] := by
  obtain ⟨rfl, hsilent, hw⟩ := h
  simp [callOf, hsilent, hw]

theorem callOf_of_not_calls (h : ¬∃ s w, m.Calls t s w) : m.callOf t = [] := by
  cases t with
  | word s =>
      cases hsilent : m.silenced with
      | true => simp [callOf, hsilent]
      | false =>
          cases hw : Vocabulary.core s with
          | none => simp [callOf, hw]
          | some w => exact absurd ⟨s, w, rfl, hsilent, hw⟩ h
  | quoted s => rfl
  | opening => rfl
  | closing => rfl

/-- A call of a core word that does not go through touches nothing but lots. -/
theorem unlotted_of_error {s called : String} {w : Word Book} {d d' : Desk Book} {failure : Failure}
    (hw : (s, w) ∈ Words.coreWords) (h : w called d = (.error failure, d')) :
    d'.context.unlotted = d.context.unlotted := by
  rcases Words.core_whole hw with rfl | hwhole
  · exact Words.transact_keeps_unlotted called d _ d' h
  · rw [(hwhole called d failure d' h).1]

/-- **A token has the effect of a call that goes through, or touches nothing but lots.** -/
theorem step_call (m : Machine Book) (t : Token) :
    (∃ s d, m.callOf t = [⟨s, m.desk⟩] ∧ Effect s m.desk d ∧ (m.step .core t).2 = m.withDesk d)
      ∨ m.callOf t = [] ∧ (m.step .core t).2.context.unlotted = m.context.unlotted := by
  by_cases hcalls : ∃ s w, m.Calls t s w
  · obtain ⟨s, w, hcalls⟩ := hcalls
    have hw := Vocabulary.core_mem hcalls.word
    rw [hcalls.callOf_eq, hcalls.step_eq]
    cases hr : w s m.desk with
    | mk r d =>
        cases r with
        | ok signal => exact .inl ⟨s, d, rfl, Words.core_effect hw hr, rfl⟩
        | error failure => exact .inr ⟨rfl, unlotted_of_error hw hr⟩
  · exact .inr ⟨callOf_of_not_calls hcalls, congrArg Book.unlotted (step_of_not_calls hcalls).1⟩

/-- What each call that goes through keeps, of a log and of a book without its lots, is kept by every run.
`I` is what holds of machines besides. -/
theorem feed_recorded {α : Type} {entries : Call → List α} {P : List α → Book → Prop}
    {I : Machine Book → Prop} (hI : ∀ m t, I m → I (m.step .core t).2)
    (hcall : ∀ (m : Machine Book) s d log, I m → Effect s m.desk d → P log m.desk.context →
      P (log ++ entries ⟨s, m.desk⟩) d.context)
    (hrest : ∀ log b b', b'.unlotted = b.unlotted → P log b → P log b')
    {m : Machine Book} {log : List α} (ts : List Token) (hm : I m) (h : P log m.context) :
    P (log ++ (m.calls ts).flatMap entries) (m.feed .core ts).context := by
  -- token by token, with the entries of the tokens before as the log
  induction ts generalizing m log with
  | nil =>
      simp only [calls, List.flatMap_nil, List.append_nil]
      exact h
  | cons t ts ih =>
      rw [calls, List.flatMap_append, ← List.append_assoc]
      refine ih (hI m t hm) ?_
      rcases m.step_call t with ⟨s, d, hc, he, hstep⟩ | ⟨hc, hkept⟩
      · rw [hc, hstep, List.flatMap_singleton]
        exact hcall m s d log hm he h
      · rw [hc, List.flatMap_nil, List.append_nil]
        exact hrest log _ _ hkept h

end Machine

namespace Book

/-- The log of a run from the empty book, by what is read from each call. -/
def logOf {α : Type} (entries : Call → List α) (ts : List Token) : List α :=
  ((Machine.start Book.empty).calls ts).flatMap entries

/-- What holds of the empty log and the empty book, and is kept by each call that goes through, holds of the
log and the book of every run. -/
theorem after_recorded {α : Type} (entries : Call → List α) (P : List α → Book → Prop)
    {I : Machine Book → Prop} (hstart : I (.start .empty)) (hI : ∀ m t, I m → I (m.step .core t).2)
    (hcall : ∀ (m : Machine Book) s d log, I m → Effect s m.desk d → P log m.desk.context →
      P (log ++ entries ⟨s, m.desk⟩) d.context)
    (hrest : ∀ log b b', b'.unlotted = b.unlotted → P log b → P log b') (hempty : P [] .empty)
    (ts : List Token) : P (logOf entries ts) (after ts) :=
  Machine.feed_recorded hI hcall hrest ts hstart hempty

end Book

end Daybook
