import Daybook.Proofs.Judging
import Mathlib.Data.List.Basic
import Mathlib.Data.List.Induction

/-!
# Layout — the operands of a transaction

A transaction takes what lies on top of the operands: texts that are its notes, under them its transfers, and
under these the description and the entity.  How many it takes is not told beforehand; the runs of texts and
of transfers are as long as they can be.  Since the description is no transfer, there is one way only to read
operands as a transaction, whatever lies under the entity.

* `Runs`, `runs_values`: the transfers and the texts after them in which operands end.
* `LaidOut`: operands as they are laid out for a transaction, in the order in which they were pushed.
* `takeTransaction_eq_ok_iff`: **operands are taken just when they are laid out for a transaction**.
* `takeTransaction_eq_error_iff`: they are not taken just when a number of operands is wrong.
* `parseTransaction`, `transact_eq_parse`: a transaction is read off the operands and then applied.
* `parseTransaction_layout`: **which operands are a transaction, which one, and what is left of them**.
-/

namespace Daybook

/-! ### Notes -/

/-- A value is the last one given under a name. -/
def LastGiven (notes : List (String × String)) (name value : String) : Prop :=
  ∃ before after, notes = before ++ (name, value) :: after ∧ ∀ n ∈ after, n.1 ≠ name

/-- One more note counts if it has the name, and makes no difference otherwise. -/
theorem lastGiven_concat {notes : List (String × String)} {note : String × String} {name value : String} :
    LastGiven (notes ++ [note]) name value
      ↔ if name = note.1 then note.2 = value else LastGiven notes name value := by
  constructor
  · rintro ⟨before, after, hnotes, hafter⟩
    rcases List.eq_nil_or_concat after with rfl | ⟨after, last, rfl⟩
    · obtain ⟨-, hnote⟩ := List.append_inj' hnotes rfl
      obtain rfl := List.singleton_inj.1 hnote
      rw [if_pos rfl]
    · rw [List.concat_eq_append] at hnotes hafter
      rw [← List.cons_append, ← List.append_assoc] at hnotes
      obtain ⟨hbefore, hlast⟩ := List.append_inj' hnotes rfl
      obtain rfl := List.singleton_inj.1 hlast
      have hne : note.1 ≠ name := hafter note (List.mem_append_right _ (List.mem_singleton_self note))
      rw [if_neg hne.symm]
      exact ⟨before, after, hbefore, fun n hn => hafter n (List.mem_append_left _ hn)⟩
  · intro h
    split at h
    · next hname =>
        subst hname h
        exact ⟨notes, [], rfl, nofun⟩
    · next hname =>
        obtain ⟨before, after, rfl, hafter⟩ := h
        refine ⟨before, after ++ [note], by simp, fun n hn => ?_⟩
        rcases List.mem_append.1 hn with hn | hn
        · exact hafter n hn
        · rw [List.mem_singleton.1 hn]
          exact fun hn => hname hn.symm

namespace Catalogue

/-- Of two values with one name the later counts. -/
theorem get?_ofList_eq_some_iff {notes : List (String × String)} {name value : String} :
    (ofList notes).get? name = some value ↔ LastGiven notes name value := by
  induction notes using List.reverseRecOn with
  | nil =>
      refine iff_of_false nofun ?_
      rintro ⟨before, after, hnotes, -⟩
      exact absurd hnotes.symm (List.append_ne_nil_of_right_ne_nil _ (List.cons_ne_nil _ _))
  | append_singleton notes note ih =>
      have hlast : ofList (notes ++ [note]) = (ofList notes).insert note.1 note.2 := by
        simp only [ofList]
        rw [List.foldl_append]
        rfl
      rw [hlast, get?_insert, lastGiven_concat]
      split
      · exact Option.some_inj
      · exact ih

end Catalogue

namespace Words

/-- The texts of notes, for each one its name and its value. -/
def noteTexts (notes : List (String × String)) : List String := notes.flatMap fun n => [n.1, n.2]

@[simp] theorem pairs_noteTexts (notes : List (String × String)) : pairs (noteTexts notes) = notes := by
  induction notes with
  | nil => rfl
  | cons n notes ih => exact congrArg (n :: ·) ih

theorem even_noteTexts (notes : List (String × String)) : (noteTexts notes).length % 2 = 0 := by
  induction notes with
  | nil => rfl
  | cons n notes ih => exact (Nat.add_mod_right _ 2).trans ih

/-- An even number of texts can be read in pairs. -/
theorem noteTexts_pairs {texts : List String} (h : texts.length % 2 = 0) :
    noteTexts (pairs texts) = texts := by
  fun_induction pairs texts with
  | case1 a b texts ih =>
      have heven : texts.length % 2 = 0 := (Nat.add_mod_right _ 2).symm.trans h
      exact congrArg (a :: b :: ·) (ih heven)
  | case2 texts hpair =>
      match texts, hpair with
      | [], _ => rfl
      | [a], _ => cases h
      | a :: b :: rest, hpair => exact absurd rfl (hpair a b rest)

end Words

/-! ### Runs of operands -/

namespace Operands

/-- Texts on top are split off from what is no text. -/
theorem splitTexts_append {ops : Operands} (h : ∀ v ∈ ops.head?, v.isText = false) (texts : List String) :
    splitTexts (texts.map .text ++ ops) = (texts, ops) := by
  induction texts with
  | nil =>
      cases ops with
      | nil => rfl
      | cons v ops =>
          cases v with
          | text s => cases h _ rfl
          | transfer id => rfl
          | foreign name => rfl
  | cons s texts ih =>
      show (s :: (splitTexts (texts.map .text ++ ops)).1, (splitTexts (texts.map .text ++ ops)).2) = _
      rw [ih]

/-- Transfers on top are split off from what is no transfer. -/
theorem splitTransfers_append {ops : Operands} (h : ∀ v ∈ ops.head?, v.isTransfer = false)
    (ids : List TransferId) : splitTransfers (ids.map .transfer ++ ops) = (ids, ops) := by
  induction ids with
  | nil =>
      cases ops with
      | nil => rfl
      | cons v ops =>
          cases v with
          | text s => rfl
          | transfer id => cases h _ rfl
          | foreign name => rfl
  | cons id ids ih =>
      show (id :: (splitTransfers (ids.map .transfer ++ ops)).1,
        (splitTransfers (ids.map .transfer ++ ops)).2) = _
      rw [ih]

theorem head?_splitTexts (ops : Operands) : ∀ v ∈ (splitTexts ops).2.head?, v.isText = false := by
  fun_induction splitTexts ops with
  | case1 s ops ih => exact ih
  | case2 ops hno =>
      intro v hv
      cases v with
      | text s =>
          obtain ⟨rest, rfl⟩ := List.head?_eq_some_iff.1 hv
          exact absurd rfl (hno s rest)
      | transfer id => rfl
      | foreign name => rfl

theorem head?_splitTransfers (ops : Operands) :
    ∀ v ∈ (splitTransfers ops).2.head?, v.isTransfer = false := by
  fun_induction splitTransfers ops with
  | case1 s ops ih => exact ih
  | case2 ops hno =>
      intro v hv
      cases v with
      | text s => rfl
      | transfer id =>
          obtain ⟨rest, rfl⟩ := List.head?_eq_some_iff.1 hv
          exact absurd rfl (hno id rest)
      | foreign name => rfl

end Operands

/-- Values end in a run of transfers and a run of texts after them, both as long as they can be. -/
structure Runs (values under : List Value) (ids : List TransferId) (texts : List String) : Prop where
  values_eq : values = under ++ ids.map .transfer ++ texts.map .text
  before_texts : ∀ v ∈ (under ++ ids.map Value.transfer).getLast?, v.isText = false
  before_transfers : ∀ v ∈ under.getLast?, v.isTransfer = false

/-- Values as they are laid out for a transaction, after others: two texts, two transfers or more, and texts
in pairs. -/
structure LaidOut (values rest : List Value) (entity description : String) (ids : List TransferId)
    (notes : List (String × String)) : Prop where
  values_eq : values = rest ++ [.text entity, .text description] ++ ids.map .transfer
    ++ (Words.noteTexts notes).map .text
  transfers : 2 ≤ ids.length

/-- A transaction begins with the runs in which its operands end, and what is under them is a text. -/
theorem LaidOut.runs {values rest : List Value} {entity description : String} {ids : List TransferId}
    {notes : List (String × String)} (h : LaidOut values rest entity description ids notes) :
    Runs values (rest ++ [.text entity, .text description]) ids (Words.noteTexts notes) where
  values_eq := h.values_eq
  before_texts := by
    intro v hv
    have hids : ids.map Value.transfer ≠ [] := by
      intro hnil
      have := h.transfers
      rw [List.map_eq_nil_iff.1 hnil] at this
      cases this
    rw [List.getLast?_append_of_ne_nil _ hids, List.getLast?_map] at hv
    obtain ⟨id, -, rfl⟩ := Option.map_eq_some_iff.1 hv
    rfl
  before_transfers := by
    intro v hv
    have hlast : (rest ++ [Value.text entity, .text description]).getLast? = some (.text description) := by
      simp
    rw [hlast] at hv
    cases hv
    rfl

/-- Every row of operands ends in such runs. -/
theorem runs_values (ops : Operands) : ∃ under ids texts, Runs ops.values under ids texts := by
  have htexts := ops.splitTexts_eq
  have htransfers := ops.splitTexts.2.splitTransfers_eq
  have hno := ops.head?_splitTexts
  generalize ops.splitTexts = s at htexts htransfers hno
  obtain ⟨texts, under⟩ := s
  dsimp only at htexts htransfers hno
  have hno' := under.head?_splitTransfers
  generalize under.splitTransfers = s at htransfers hno'
  obtain ⟨ids, rest⟩ := s
  dsimp only at htransfers hno'
  refine ⟨rest.reverse, ids.reverse, texts.reverse, ?_, ?_, ?_⟩
  · rw [htexts, htransfers]
    simp [Operands.values]
  · rw [htransfers] at hno
    rwa [List.map_reverse, ← List.reverse_append, List.getLast?_reverse]
  · rwa [List.getLast?_reverse]

/-! ### What is taken -/

namespace Words

variable {ops rest : Operands} {under : List Value} {ids : List TransferId} {texts : List String}

/-- What is wrong with the number of operands before the transfers, of the transfers, and of the texts after
them. -/
def miscount (before transfers texts : Nat) : Option OperandFault :=
  if before = 0 then some .noEntity
  else if before = 1 then some .noDescription
  else if transfers < 2 then some .tooFewTransfers
  else if texts % 2 ≠ 0 then some (.oddNotes texts)
  else none

/-- What is taken for a transaction, by the runs in which the operands end. -/
theorem takeTransaction_of_runs (h : Runs ops.values under ids texts) :
    takeTransaction ops =
      match under.reverse with
      | [] => .error .noEntity
      | [_] => .error .noDescription
      | description :: entity :: rest =>
        if ids.length < 2 then .error .tooFewTransfers
        else if texts.length % 2 ≠ 0 then .error (.oddNotes texts.length)
        else .ok (⟨entity, description, ids, texts⟩, rest) := by
  have hops : ops = texts.reverse.map .text ++ (ids.reverse.map .transfer ++ under.reverse) := by
    rw [← List.reverse_reverse ops]
    show ops.values.reverse = _
    rw [h.values_eq]
    simp
  have htexts : ∀ v ∈ (ids.reverse.map Value.transfer ++ under.reverse).head?, v.isText = false := by
    rw [List.map_reverse, ← List.reverse_append, List.head?_reverse]
    exact h.before_texts
  have htransfers : ∀ v ∈ under.reverse.head?, v.isTransfer = false := by
    rw [List.head?_reverse]
    exact h.before_transfers
  rw [hops]
  simp only [takeTransaction]
  rw [Operands.splitTexts_append htexts]
  dsimp only
  rw [Operands.splitTransfers_append htransfers]
  dsimp only
  simp only [List.length_reverse, List.reverse_reverse]
  rfl

/-- **Operands are not taken just when a number of operands is wrong.** -/
theorem takeTransaction_eq_error_iff (h : Runs ops.values under ids texts) {fault : OperandFault} :
    takeTransaction ops = .error fault ↔ miscount under.length ids.length texts.length = some fault := by
  have hlength : under.length = under.reverse.length := List.length_reverse.symm
  rw [takeTransaction_of_runs h, hlength]
  generalize under.reverse = below
  simp only [miscount]
  match below with
  | [] => exact ⟨fun h => by cases h; rfl, fun h => by cases h; rfl⟩
  | [v] => exact ⟨fun h => by cases h; rfl, fun h => by cases h; rfl⟩
  | description :: entity :: rest =>
      dsimp only [List.length_cons]
      rw [if_neg (Nat.succ_ne_zero _), if_neg (by omega : ¬rest.length + 1 + 1 = 1)]
      split
      · exact ⟨fun h => by cases h; rfl, fun h => by cases h; rfl⟩
      split
      · exact ⟨fun h => by cases h; rfl, fun h => by cases h; rfl⟩
      · exact iff_of_false nofun nofun

/-- **Operands are taken just when they are laid out for a transaction.** -/
theorem takeTransaction_eq_ok_iff {entity description : String} :
    takeTransaction ops = .ok (⟨.text entity, .text description, ids, texts⟩, rest)
      ↔ ∃ notes, texts = noteTexts notes
        ∧ LaidOut ops.values rest.values entity description ids notes := by
  constructor
  · intro h
    obtain ⟨under, ids', texts', hruns⟩ := runs_values ops
    rw [takeTransaction_of_runs hruns] at h
    split at h
    · cases h
    · cases h
    next hunder =>
    split at h
    · cases h
    next hids =>
    split at h
    · cases h
    next htexts =>
    cases h
    have hpairs := noteTexts_pairs (Decidable.not_not.1 htexts)
    have hunder : under = rest.values ++ [.text entity, .text description] := by
      rw [← List.reverse_reverse under, hunder]
      simp [Operands.values]
    refine ⟨pairs texts, hpairs.symm, ?_, Nat.le_of_not_lt hids⟩
    rw [hruns.values_eq, hunder, hpairs]
  · rintro ⟨notes, rfl, h⟩
    have hreverse : (rest.values ++ [Value.text entity, .text description]).reverse
        = Value.text description :: .text entity :: rest := by simp [Operands.values]
    rw [takeTransaction_of_runs h.runs, hreverse]
    dsimp only
    rw [if_neg (Nat.not_lt_of_le h.transfers), if_neg (by rw [even_noteTexts]; exact fun h => h rfl)]

/-! ### Transactions -/

variable (word : String) (d : Desk Book)

/-- Reads a transaction off the operands. -/
def parseTransaction (word : String) (d : Desk Book) : Except Failure Transaction × Desk Book :=
  perform takeTransaction (fun o => .judge (draftTransaction · o)) word d

/-- A transaction is read off the operands and then applied. -/
theorem transact_eq_parse :
    transact word d =
      match parseTransaction word d with
      | (.error failure, d') => (.error failure, d')
      | (.ok x, d') =>
        match x.apply.on d'.context with
        | (.ok _, b) => (.ok .proceed, ⟨d'.operands, b⟩)
        | (.error fault, b) => (.error (fault.toFailure (some word)), ⟨d'.operands, b⟩) := by
  simp only [transact, parseTransaction, Word.ofAct, perform, applyTransaction]
  cases takeTransaction d.operands with
  | error fault => rfl
  | ok p =>
      obtain ⟨o, rest⟩ := p
      simp only [Act.on_bind, Act.on_judge]
      cases draftTransaction d.context o with
      | error fault => rfl
      | ok x =>
          dsimp only
          obtain ⟨r, b⟩ := x.apply.on d.context
          cases r <;> rfl

variable {word d}

/-- A transaction is read off operands that are taken and make one. -/
theorem parseTransaction_eq_ok_iff {x : Transaction} {d' : Desk Book} :
    parseTransaction word d = (.ok x, d')
      ↔ ∃ o, takeTransaction d.operands = .ok (o, d'.operands) ∧ draftTransaction d.context o = .ok x
        ∧ d'.context = d.context := by
  simp only [parseTransaction, perform]
  cases takeTransaction d.operands with
  | error fault =>
      constructor
      · intro h
        cases h
      · rintro ⟨o, htake, -⟩
        cases htake
  | ok p =>
      obtain ⟨o, rest⟩ := p
      simp only [Act.on_judge]
      constructor
      · intro h
        cases hdraft : draftTransaction d.context o with
        | error fault => rw [hdraft] at h; cases h
        | ok y => rw [hdraft] at h; cases h; exact ⟨o, rfl, hdraft, rfl⟩
      · rintro ⟨o', htake, hdraft, hcontext⟩
        cases htake
        rw [hdraft, ← hcontext]

/-- The operands stay untouched by a transaction that fails just when a number of them is wrong. -/
theorem parseTransaction_untouched_iff {under : List Value} {ids : List TransferId} {texts : List String}
    (h : Runs d.operands.values under ids texts) {failure : Failure} :
    parseTransaction word d = (.error failure, d)
      ↔ ∃ fault, miscount under.length ids.length texts.length = some fault
        ∧ failure = .failed (.refused ⟨some word, .operands fault⟩) := by
  simp only [← takeTransaction_eq_error_iff h, parseTransaction, perform]
  cases htake : takeTransaction d.operands with
  | error fault =>
      constructor
      · intro h
        cases h
        exact ⟨fault, rfl, rfl⟩
      · rintro ⟨fault', hfault, rfl⟩
        cases hfault
        rfl
  | ok p =>
      obtain ⟨o, rest⟩ := p
      refine iff_of_false (fun h => ?_) (by rintro ⟨fault, htake, -⟩; cases htake)
      -- what is taken is gone
      have hrest : rest = d.operands := by
        simp only [Act.on_judge] at h
        split at h
        · cases h
        · exact congrArg (·.2.operands) h
      have hlength := congrArg List.length (takeTransaction_ok htake)
      rw [hrest] at hlength
      simp only [List.length_append, List.length_cons] at hlength
      omega

/-- **Which operands are a transaction, which one, and what is left of them.**  A transaction is read off
just when the operands are laid out for one whose transfers balance, whatever lies before it.  It has that
entity, that description, these transfers in their order, and under each name the last value given in the notes;
the operands before it are left, and the book is as it was.  When a number of operands before the transfers, of
transfers or of texts after them is wrong, the operands are left as they are, and in no other failure. -/
theorem parseTransaction_layout (word : String) (d : Desk Book) :
    ((∃ x d', parseTransaction word d = (.ok x, d'))
      ↔ ∃ rest entity description ids notes,
        LaidOut d.operands.values rest entity description ids notes
          ∧ Transaction.requireBalance d.context (ids.map d.context.transfer) = .ok ())
    ∧ (∀ rest entity description ids notes, LaidOut d.operands.values rest entity description ids notes →
        ∀ x d', parseTransaction word d = (.ok x, d') →
          x.entity = entity ∧ x.description = description ∧ x.transfers = ids
            ∧ (∀ name value, x.notes.get? name = some value ↔ LastGiven notes name value)
            ∧ d'.operands.values = rest ∧ d'.context = d.context)
    ∧ ∃ under ids texts, Runs d.operands.values under ids texts
        ∧ ∀ failure, parseTransaction word d = (.error failure, d)
          ↔ ∃ fault, miscount under.length ids.length texts.length = some fault
            ∧ failure = .failed (.refused ⟨some word, .operands fault⟩) := by
  have hvalues (ops : List Value) : Operands.values (Operands.values ops) = ops := List.reverse_reverse ops
  refine ⟨⟨?_, ?_⟩, ?_, ?_⟩
  · rintro ⟨x, d', h⟩
    obtain ⟨⟨e, f, ids, texts⟩, htake, hdraft, -⟩ := parseTransaction_eq_ok_iff.1 h
    obtain ⟨entity, description, rfl, rfl, hbalance, -⟩ := draftTransaction_eq_ok_iff.1 hdraft
    obtain ⟨notes, -, hlaid⟩ := takeTransaction_eq_ok_iff.1 htake
    exact ⟨d'.operands.values, entity, description, ids, notes, hlaid, hbalance⟩
  · rintro ⟨rest, entity, description, ids, notes, hlaid, hbalance⟩
    rw [← hvalues rest] at hlaid
    have htake := takeTransaction_eq_ok_iff.2 ⟨notes, rfl, hlaid⟩
    have hdraft : draftTransaction d.context ⟨.text entity, .text description, ids, noteTexts notes⟩ = .ok _ :=
      draftTransaction_eq_ok_iff.2 ⟨entity, description, rfl, rfl, hbalance, rfl⟩
    exact ⟨_, ⟨_, d.context⟩, parseTransaction_eq_ok_iff.2 ⟨_, htake, hdraft, rfl⟩⟩
  · intro rest entity description ids notes hlaid x d' h
    rw [← hvalues rest] at hlaid
    have htake := takeTransaction_eq_ok_iff.2 ⟨notes, rfl, hlaid⟩
    obtain ⟨o, htake', hdraft, hcontext⟩ := parseTransaction_eq_ok_iff.1 h
    obtain ⟨rfl, hrest⟩ := Prod.mk.inj (Except.ok.inj (htake.symm.trans htake'))
    obtain ⟨_, _, hentity, hdescription, -, rfl⟩ := draftTransaction_eq_ok_iff.1 hdraft
    cases hentity
    cases hdescription
    refine ⟨rfl, rfl, rfl, fun name value => ?_, ?_, hcontext⟩
    · rw [pairs_noteTexts]
      exact Catalogue.get?_ofList_eq_some_iff
    · rw [← hrest, hvalues]
  · obtain ⟨under, ids, texts, hruns⟩ := runs_values d.operands
    exact ⟨under, ids, texts, hruns, fun failure => parseTransaction_untouched_iff hruns⟩

/-- Operands of all kinds, with a transfer and a text among them. -/
def clutter : List Value := [.transfer 0, .text "z", .foreign "f"]

/-- A desk with two transfers that balance and a note that is given twice, after the clutter. -/
def cluttered : Desk Book :=
  ⟨Operands.values (clutter ++ [.text "X", .text "y"] ++ [0, 1].map .transfer
      ++ (noteTexts [("k", "1"), ("k", "2")]).map .text),
    { Book.empty with
      transfers := [{ account := 0, quantity := ⟨⟨false, 1, 0⟩, "U"⟩ },
        { account := 1, quantity := ⟨⟨true, 1, 0⟩, "U"⟩ }] }⟩

/-- The transaction is found after the clutter, which is left; without its last text it is not taken. -/
theorem parseTransaction_layout_cluttered :
    (∃ x d', parseTransaction "xact" cluttered = (.ok x, d') ∧ x.entity = "X" ∧ x.transfers = [0, 1]
        ∧ x.notes.get? "k" = some "2" ∧ d'.operands.values = clutter)
      ∧ parseTransaction "xact" ⟨cluttered.operands.tail, cluttered.context⟩
        = (.error (.failed (.refused ⟨some "xact", .operands (.oddNotes 3)⟩)),
          ⟨cluttered.operands.tail, cluttered.context⟩) := by
  constructor
  · have hlaid : LaidOut cluttered.operands.values clutter "X" "y" [0, 1] [("k", "1"), ("k", "2")] :=
      ⟨by decide, by decide⟩
    obtain ⟨hiff, hread, -⟩ := parseTransaction_layout "xact" cluttered
    obtain ⟨x, d', h⟩ := hiff.2 ⟨clutter, "X", "y", [0, 1], _, hlaid, by decide⟩
    obtain ⟨hentity, -, htransfers, hnotes, hrest, -⟩ := hread _ _ _ _ _ hlaid x d' h
    exact ⟨x, d', h, hentity, htransfers, (hnotes "k" "2").2 ⟨[("k", "1")], [], rfl, nofun⟩, hrest⟩
  · have hruns : Runs (Operands.values cluttered.operands.tail) (clutter ++ [.text "X", .text "y"]) [0, 1]
        ["k", "1", "k"] := ⟨by decide, by decide, by decide⟩
    exact (parseTransaction_untouched_iff hruns).2 ⟨_, rfl, rfl⟩

end Words

end Daybook
