import Daybook.Account
import Daybook.Commodity
import Daybook.Value

/-!
# Book

A book holds all that a ledger builds: the clock, the commodities, the accounts, the tags, the transfers
that have been drafted, and a journal of what was entered.  Accounts and transfers are known by their
numbers in the book.  A name may stand for several accounts one after the other; the last one opened is
the current one.

* `lastNamed_append`, `lastNamed_lt`: the current account of a name is the last one in the book.
* `account_update`: what a change of one account does to every account.
-/

namespace Daybook

/-- What can carry tags: a commodity, by its name, or an account. -/
inductive Entity where
  | commodity (name : String)
  | account (id : AccountId)
  deriving DecidableEq, Repr

/-- What was entered in a book. -/
inductive Event where
  | registered (name description : String)
  | opened (account : AccountId)
  | closed (account : AccountId)
  | lotCreated (account : AccountId) (lot : String)
  | lotClosed (account : AccountId) (lot : String)
  /-- A quantity went into a lot on a date. -/
  | posted (transfer : Transfer) (date : Date)
  /-- All transfers of a transaction were posted. -/
  | applied (entity description : String) (transfers : List TransferId)
  deriving DecidableEq, Repr

/-- All that a ledger builds. -/
structure Book where
  /-- The date of the clock. -/
  date : Date
  commodities : Catalogue Commodity
  /-- The accounts in the order of opening, closed ones included. -/
  accounts : List Account
  /-- What carries a tag, in the order of tagging. -/
  tagged : Catalogue (List Entity)
  /-- The transfers in the order of drafting. -/
  transfers : List Transfer
  /-- What was entered, the last first. -/
  journal : List Event
  deriving DecidableEq

namespace Book

/-- The book before anything is entered. -/
def empty : Book := ⟨.zero, ∅, [], ∅, [], []⟩

instance : Inhabited Book := ⟨empty⟩

/-- The account with a number. -/
def account (b : Book) (id : AccountId) : Account := b.accounts.getD id default

/-- The transfer with a number. -/
def transfer (b : Book) (id : TransferId) : Transfer := b.transfers.getD id default

/-- The place of the last account with a name. -/
def lastNamed (name : String) : List Account → Option Nat
  | [] => none
  | a :: as =>
    match lastNamed name as with
    | some i => some (i + 1)
    | none => if a.name = name then some 0 else none

/-- The current account of a name. -/
def current? (b : Book) (name : String) : Option AccountId := lastNamed name b.accounts

/-- Whether an account is the current one of its name. -/
def isCurrent (b : Book) (id : AccountId) : Bool := b.current? (b.account id).name == some id

/-- Whether an account is closed at the date of the clock. -/
def isClosed (b : Book) (id : AccountId) : Bool := (b.account id).isClosed b.date

/-- The names of all accounts ever opened, in increasing order. -/
def accountNames (b : Book) : List String := (NameSet.ofList (b.accounts.map (·.name))).names

/-- The names of the accounts that are open, in increasing order. -/
def openNames (b : Book) : List String :=
  b.accountNames.filter fun name => (b.current? name).any (!b.isClosed ·)

/-- The accounts that are open, by name. -/
def openAccounts (b : Book) : List Account :=
  (b.openNames.filterMap b.current?).map b.account

/-- What carries a tag, in the order of tagging. -/
def carriers (b : Book) (tag : String) : List Entity := (b.tagged.get? tag).getD []

/-- The tags that an entity carries. -/
def tagsOf (b : Book) : Entity → NameSet
  | .commodity name => ((b.commodities.get? name).map (·.tags)).getD ∅
  | .account id => (b.account id).tags

/-- A book with one account changed. -/
def updateAccount (b : Book) (id : AccountId) (f : Account → Account) : Book :=
  { b with accounts := b.accounts.modify id f }

/-- A book with one commodity changed. -/
def updateCommodity (b : Book) (name : String) (f : Commodity → Commodity) : Book :=
  match b.commodities.get? name with
  | none => b
  | some c => { b with commodities := b.commodities.insert name (f c) }

/-- A book with one transfer changed. -/
def updateTransfer (b : Book) (id : TransferId) (f : Transfer → Transfer) : Book :=
  { b with transfers := b.transfers.modify id f }

/-- A book with one more transfer, whose number is that of the transfers before it. -/
def draft (b : Book) (t : Transfer) : Book := { b with transfers := b.transfers ++ [t] }

/-- A book with one more event in its journal. -/
def record (b : Book) (e : Event) : Book := { b with journal := e :: b.journal }

theorem lastNamed_append (name : String) (as : List Account) (a : Account) :
    lastNamed name (as ++ [a]) = if a.name = name then some as.length else lastNamed name as := by
  induction as with
  | nil => simp [lastNamed]
  | cons a' as ih =>
    rw [List.cons_append]
    simp only [lastNamed]
    rw [ih]
    by_cases h : a.name = name <;> simp [h]

theorem lastNamed_lt {name : String} {as : List Account} {i : Nat}
    (h : lastNamed name as = some i) : i < as.length := by
  induction as generalizing i with
  | nil => simp [lastNamed] at h
  | cons a as ih =>
    simp only [lastNamed] at h
    split at h
    · next j hj =>
      cases h
      have := ih hj
      simp only [List.length_cons]
      omega
    · split at h
      · cases h; simp
      · cases h

/-- What is known by its number in a list of which one element is changed. -/
theorem getD_modify {α : Type} (l : List α) (i : Nat) (f : α → α) (j : Nat) (d : α) :
    (l.modify i f).getD j d = if j = i ∧ i < l.length then f (l.getD j d) else l.getD j d := by
  simp only [List.getD_eq_getElem?_getD, List.getElem?_modify]
  by_cases h : i = j
  · subst h
    by_cases hl : i < l.length
    · simp [hl]
    · simp [hl]
  · have h' : ¬ j = i := fun e => h e.symm
    simp [h, h']

/-- What is known by its number in a list with one more element. -/
theorem getD_concat {α : Type} (l : List α) (a : α) (i : Nat) (d : α) :
    (l ++ [a]).getD i d = if i = l.length then a else l.getD i d := by
  rw [List.getD_eq_getElem?_getD, List.getD_eq_getElem?_getD, List.getElem?_append]
  by_cases hlt : i < l.length
  · rw [if_pos hlt, if_neg (Nat.ne_of_lt hlt)]
  · rw [if_neg hlt, List.getElem?_eq_none (Nat.not_lt.1 hlt)]
    by_cases hi : i = l.length
    · rw [if_pos hi, hi, Nat.sub_self]
      rfl
    · have hgt : l.length < i := Nat.lt_of_le_of_ne (Nat.not_lt.1 hlt) (Ne.symm hi)
      rw [if_neg hi, List.getElem?_eq_none (Nat.sub_pos_of_lt hgt)]

theorem account_update (b : Book) (id : AccountId) (f : Account → Account) (i : AccountId) :
    (b.updateAccount id f).account i
      = if i = id ∧ id < b.accounts.length then f (b.account i) else b.account i :=
  getD_modify b.accounts id f i default

theorem account_update_of_lt {b : Book} {id : AccountId} (h : id < b.accounts.length)
    (f : Account → Account) (i : AccountId) :
    (b.updateAccount id f).account i = if i = id then f (b.account i) else b.account i := by
  rw [account_update]
  simp only [and_iff_left h]

end Book

end Daybook
