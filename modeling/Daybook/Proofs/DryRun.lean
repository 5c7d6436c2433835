import Daybook.Proofs.Posting
import Daybook.Proofs.Run
import Mathlib.Control.Monad.Basic

/-!
# DryRun — the check of lots and the postings

Before a transaction is applied, its lots are checked without posting anything: the check keeps a list of the
lots that transfers will have created.  The postings look into the book, where a created lot then is.  Both
come to the same: what the check says of transfers is what posting them one after the other says, amounts that
leave the range aside.

* `attempts`: what comes of posting transfers one after the other, going on past those that fail.
* `requireLots_cons_eq`: the check follows the postings, one after the other.
* `requireLots_eq_missing`: **the check says what the first attempt says that finds no lot**.
* `postAll_eq_requireLots`: postings that break off at the first failure come to the same, if none exceeds.
* `requireLots_attempts`: both, for all transfers on all books.
-/

namespace Daybook

namespace Transaction

variable {b : Book} {t : Transfer} {ts : List Transfer}

/-- What comes of posting transfers one after the other, where one that fails leaves the book as it is and
the others go on. -/
def attempts (b : Book) : List Transfer → List (Except Fault Unit)
  | [] => []
  | t :: ts =>
    match b.post t with
    | .ok b' => .ok () :: attempts b' ts
    | .error fault => .error fault :: attempts b ts

/-- Whether an attempt fails because there is no lot to post into. -/
def lacksLot : Except Fault Unit → Bool
  | .error (.refused (.unknownLot _)) => true
  | _ => false

/-- What the first of some attempts says that finds no lot; all is well if each one finds its lot. -/
def missing (rs : List (Except Fault Unit)) : Except Fault Unit := (rs.find? lacksLot).getD (.ok ())

theorem missing_cons_of_not {r : Except Fault Unit} (h : lacksLot r = false)
    (rs : List (Except Fault Unit)) : missing (r :: rs) = missing rs := by
  simp only [missing]
  rw [List.find?_cons_of_neg (by rw [h]; exact Bool.false_ne_true)]

/-- What the check of lots says of transfers is what it says of the others once the first has been posted, or
has left the range; and where the first finds no lot, that is what it says. -/
theorem requireLots_cons_eq (ht : t.account < b.accounts.length) (ts : List Transfer) :
    requireLots b (t :: ts) =
      match b.post t with
      | .ok b' => requireLots b' ts
      | .error (.refused ground) => .error (.refused ground)
      | .error (.exceeded _) => requireLots b ts := by
  cases hpost : b.post t with
  | ok b' =>
      obtain ⟨hlot, h, -, rfl⟩ := Book.post_eq_ok_iff.1 hpost
      exact (requireLots_posted ht hlot h ts).symm
  | error fault =>
      obtain ⟨hlot, rfl⟩ | ⟨hfound, rfl⟩ := Book.post_error hpost
      · exact requireLots_cons_of_not hlot ts
      · exact requireLots_cons_of_hasLot hfound ts

/-- A posting that goes through leaves transfers with accounts of the book. -/
theorem accounts_lt_of_post {b' : Book} (hpost : b.post t = .ok b')
    (hv : ∀ t' ∈ ts, t'.account < b.accounts.length) : ∀ t' ∈ ts, t'.account < b'.accounts.length := by
  obtain ⟨-, h, -, rfl⟩ := Book.post_eq_ok_iff.1 hpost
  rwa [Book.length_accounts_posted]

/-- **The check of lots says what the first attempt says that finds no lot.** -/
theorem requireLots_eq_missing (hv : ∀ t ∈ ts, t.account < b.accounts.length) :
    requireLots b ts = missing (attempts b ts) := by
  induction ts generalizing b with
  | nil => rfl
  | cons t ts ih =>
      obtain ⟨ht, hv⟩ := List.forall_mem_cons.1 hv
      rw [requireLots_cons_eq ht, attempts]
      cases hpost : b.post t with
      | ok b' => exact (ih (accounts_lt_of_post hpost hv)).trans (missing_cons_of_not rfl _).symm
      | error fault =>
          obtain ⟨-, rfl⟩ | ⟨-, rfl⟩ := Book.post_error hpost
          · rfl
          · exact (ih hv).trans (missing_cons_of_not rfl _).symm

/-- Postings that break off at the first failure come to what the check of lots says, if no amount leaves the
range. -/
theorem postAll_eq_requireLots (hv : ∀ t ∈ ts, t.account < b.accounts.length)
    (hkept : ∀ e, ((postAll ts).on b).1 ≠ .error (.exceeded e)) :
    ((postAll ts).on b).1 = requireLots b ts := by
  induction ts generalizing b with
  | nil => rfl
  | cons t ts ih =>
      obtain ⟨ht, hv⟩ := List.forall_mem_cons.1 hv
      rw [postAll_cons] at hkept ⊢
      rw [requireLots_cons_eq ht]
      cases hpost : b.post t with
      | ok b' =>
          rw [hpost] at hkept
          exact ih (accounts_lt_of_post hpost hv) hkept
      | error fault =>
          rw [hpost] at hkept
          cases fault with
          | refused ground => rfl
          | exceeded e => exact absurd rfl (hkept e)

/-- **The check of lots is a dry run of the postings.**  It is passed just when posting the transfers one
after the other never finds a lot missing; and if it fails, it fails as the first of them does that finds none,
with its message.  When the postings break off at the first failure, and no amount leaves the range, they come
to just what the check says. -/
theorem requireLots_attempts (b : Book) (ts : List Transfer)
    (hv : ∀ t ∈ ts, t.account < b.accounts.length) :
    (requireLots b ts = .ok () ↔ ∀ r ∈ attempts b ts, lacksLot r = false)
    ∧ (∀ fault, requireLots b ts = .error fault
        ↔ (attempts b ts).find? lacksLot = some (.error fault))
    ∧ ((∀ e, ((postAll ts).on b).1 ≠ .error (.exceeded e)) →
        ((postAll ts).on b).1 = requireLots b ts) := by
  have hmissing := requireLots_eq_missing hv
  refine ⟨?_, ?_, postAll_eq_requireLots hv⟩
  · rw [hmissing, missing]
    cases hfind : (attempts b ts).find? lacksLot with
    | none =>
        refine iff_of_true rfl fun r hr => ?_
        exact Bool.eq_false_iff.2 (List.find?_eq_none.1 hfind r hr)
    | some r =>
        have hr : lacksLot r = true := List.find?_some hfind
        refine iff_of_false ?_ fun h => ?_
        · rintro rfl
          cases hr
        · rw [h r (List.mem_of_find?_eq_some hfind)] at hr
          cases hr
  · intro fault
    rw [hmissing, missing]
    cases (attempts b ts).find? lacksLot with
    | none => exact iff_of_false nofun nofun
    | some r => exact ⟨fun h => congrArg some h, fun h => Option.some.inj h⟩

/-- A book in which the first of two accounts holds almost as much as the range allows. -/
def full : Book := .after
  (["U", "d", "commodity", "Assets:A", "open", "Assets:B", "open", "X", "y",
    "Assets:A", "9E999999", "U", "xfer", "Assets:B", "-9E999999", "U", "xfer", "xact"].map .word)

/-- Transfers into a lot that is created on the way, and into one that is created too late, after an amount
that leaves the range. -/
def mixed : List Transfer :=
  [{ account := 0, quantity := ⟨⟨false, 9, 999999⟩, "U"⟩ },
   { account := 1, quantity := ⟨⟨false, 1, 0⟩, "U"⟩, lot := "L", createsLot := true },
   { account := 1, quantity := ⟨⟨false, 2, 0⟩, "U"⟩, lot := "L" },
   { account := 1, quantity := ⟨⟨false, 1, 0⟩, "U"⟩, lot := "M" },
   { account := 1, quantity := ⟨⟨false, 1, 0⟩, "U"⟩, lot := "M", createsLot := true },
   { account := 0, quantity := ⟨⟨false, 1, 0⟩, "U"⟩, lot := "L" }]

/-- The first amount leaves the range, and the fourth transfer is the first that finds no lot; those before it
pass the check.  The three after the first amount break off there when they are posted. -/
theorem requireLots_attempts_mixed :
    (attempts full mixed).map lacksLot = [false, false, false, true, false, true]
      ∧ (attempts full mixed).head? = some (.error (.exceeded .amount))
      ∧ requireLots full mixed = .error (.refused (.unknownLot (.ofLot "Assets:B" "M")))
      ∧ requireLots full (mixed.take 3) = .ok ()
      ∧ requireLots full (mixed.tail.take 3)
          = .error (.refused (.unknownLot (.ofLot "Assets:B" "M"))) := by
  obtain ⟨hv, hall, hfirst, hhead, hfound, htail⟩ :
      (∀ t ∈ mixed, t.account < full.accounts.length)
        ∧ (attempts full mixed).map lacksLot = [false, false, false, true, false, true]
        ∧ (attempts full mixed).find? lacksLot
          = some (.error (.refused (.unknownLot (.ofLot "Assets:B" "M"))))
        ∧ (attempts full mixed).head? = some (.error (.exceeded .amount))
        ∧ (∀ r ∈ attempts full (mixed.take 3), lacksLot r = false)
        ∧ ((postAll (mixed.tail.take 3)).on full).1
          = .error (.refused (.unknownLot (.ofLot "Assets:B" "M"))) := by decide +kernel
  obtain ⟨-, hmixed, -⟩ := requireLots_attempts full mixed hv
  obtain ⟨hpassed, -, -⟩ := requireLots_attempts full (mixed.take 3) fun t ht =>
    hv t (List.mem_of_mem_take ht)
  obtain ⟨-, -, hrest⟩ := requireLots_attempts full (mixed.tail.take 3) fun t ht =>
    hv t (List.mem_of_mem_tail (List.mem_of_mem_take ht))
  exact ⟨hall, hhead, (hmixed _).2 hfirst, hpassed.2 hfound,
    (hrest (by rw [htail]; nofun)).symm.trans htail⟩

end Transaction

end Daybook
