import Daybook.Text.Numeral
import Daybook.Text.Quoted

/-!
# Calendar — dates

A date is a year, a month and a day, ordered in this order.  The clock of a book starts at the zero
date, which is no calendar day; whether a date is one is a question of its own (`Calendar.Gregorian`).

* `Date.lt_irrefl`, `Date.lt_trans`, `Date.lt_trichotomy`: dates are in a strict order.
-/

namespace Daybook

/-- A date. -/
structure Date where
  year : Int
  month : Int
  day : Int
  deriving DecidableEq, Repr, Inhabited

namespace Date

/-- The date at which a clock starts. -/
def zero : Date := ⟨0, 0, 0⟩

/-- Whether a date is the start of the clock. -/
def isZero (d : Date) : Bool := d == zero

/-- Dates are ordered by year, then by month, then by day. -/
protected def lt (a b : Date) : Prop :=
  a.year < b.year ∨ a.year = b.year ∧ (a.month < b.month ∨ a.month = b.month ∧ a.day < b.day)

instance : LT Date := ⟨Date.lt⟩

instance (a b : Date) : Decidable (a < b) :=
  inferInstanceAs (Decidable (_ ∨ _ ∧ (_ ∨ _ ∧ _)))

instance : LE Date := ⟨fun a b => a < b ∨ a = b⟩

instance (a b : Date) : Decidable (a ≤ b) := inferInstanceAs (Decidable (_ ∨ _))

/-- A date with four digits for the year and two each for month and day. -/
def toString (d : Date) : String :=
  Text.zeroPadded 4 d.year ++ "-" ++ Text.zeroPadded 2 d.month ++ "-" ++ Text.zeroPadded 2 d.day

instance : ToString Date := ⟨toString⟩

theorem lt_def {a b : Date} : a < b ↔
    a.year < b.year ∨ a.year = b.year ∧ (a.month < b.month ∨ a.month = b.month ∧ a.day < b.day) :=
  Iff.rfl

theorem lt_irrefl (a : Date) : ¬ a < a := by
  simp only [lt_def]
  omega

theorem lt_trans {a b c : Date} (h₁ : a < b) (h₂ : b < c) : a < c := by
  simp only [lt_def] at *
  omega

theorem le_trans {a b c : Date} (h₁ : a ≤ b) (h₂ : b ≤ c) : a ≤ c := by
  rcases h₁ with h₁ | rfl
  · rcases h₂ with h₂ | rfl
    · exact .inl (lt_trans h₁ h₂)
    · exact .inl h₁
  · exact h₂

theorem lt_trichotomy (a b : Date) : a < b ∨ a = b ∨ b < a := by
  obtain ⟨y, m, d⟩ := a
  obtain ⟨y', m', d'⟩ := b
  simp only [lt_def, Date.mk.injEq]
  omega

theorem not_lt {a b : Date} : ¬ a < b ↔ b ≤ a := by
  constructor
  · intro h
    rcases lt_trichotomy a b with h' | h' | h'
    · exact absurd h' h
    · exact .inr h'.symm
    · exact .inl h'
  · rintro (h | rfl) h'
    · exact lt_irrefl _ (lt_trans h h')
    · exact lt_irrefl _ h'

end Date

/-- Why a text or three numbers are no calendar day. -/
inductive DateError where
  | malformed (text : String)
  | year (y : Int)
  | month
  | day
  deriving DecidableEq, Repr

/-- The message of a refused date. -/
def DateError.message : DateError → String
  | malformed s => "Invalid isoformat string: " ++ Text.quoted s
  | year y => "year " ++ toString y ++ " is out of range"
  | month => "month must be in 1..12"
  | day => "day is out of range for month"

end Daybook
