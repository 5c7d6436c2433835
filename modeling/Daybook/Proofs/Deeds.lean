import Daybook.Proofs.Effects

/-!
# Deeds — what a core word may do

Whatever comes of a call, there are few things that a core word may have done to its desk.  Each is a
*deed*; what holds before every deed and is kept by it holds in every run.

* `Effect.deed`: what a call that goes through does is a deed.
* `core_deed`: **a call of a core word is a deed**, whether it goes through or fails.
* `step_deed`, `step_keeps`: so a token does a deed, or else pushes a text or moves a scope.
-/

namespace Daybook

/-- What a core word may do to its desk, whatever comes of the call. -/
inductive Deed : Desk Book → Desk Book → Prop where
  /-- Operands are taken off the top, and nothing else is done. -/
  | taken {ops rest : Operands} {b : Book} (hops : rest <:+ ops) : Deed ⟨ops, b⟩ ⟨rest, b⟩
  | advanced {ops rest : Operands} {b b' : Book} {date : Date} (hops : rest <:+ ops)
      (hday : Words.asDay date = .ok date) (hb : b.advance date = .ok b') : Deed ⟨ops, b⟩ ⟨rest, b'⟩
  | registered {ops rest : Operands} {b b' : Book} {name description : String} (hops : rest <:+ ops)
      (hb : b.register name description = .ok b') : Deed ⟨ops, b⟩ ⟨rest, b'⟩
  | opened {ops rest : Operands} {b b' : Book} {name : String} {allowed : List String}
      (hops : rest <:+ ops) (hname : Account.isValidName name = true)
      (hallowed : ∀ c ∈ allowed, b.commodities.contains c = true)
      (hb : b.openAccount name allowed = .ok b') : Deed ⟨ops, b⟩ ⟨rest, b'⟩
  | closed {ops rest : Operands} {b : Book} {name : String} {id : AccountId} (hops : rest <:+ ops)
      (hid : b.findOpen name = .ok id) (hz : (b.account id).nonzeroHoldings = []) :
      Deed ⟨ops, b⟩ ⟨rest, b.closeAccount id⟩
  | lotClosed {ops rest : Operands} {b : Book} {name lot : String} {id : AccountId} {l : Lot}
      (hops : rest <:+ ops) (hid : b.findOpen name = .ok id) (hlot : lot ≠ defaultLot)
      (hl : (b.account id).lots.get? lot = some l)
      (hz : ∀ h ∈ l.values, h.balance.amount.isZero = true) :
      Deed ⟨ops, b⟩ ⟨rest, b.closeLot id lot⟩
  | annotated {ops rest : Operands} {b : Book} {name : String} {id : AccountId}
      (notes : List (String × String)) (hops : rest <:+ ops) (hid : b.findOpen name = .ok id) :
      Deed ⟨ops, b⟩ ⟨rest, notes.foldl (fun b note => b.annotate id note.1 note.2) b⟩
  | tagged {ops rest : Operands} {b : Book} {e : Entity} (tags : List String) (hops : rest <:+ ops)
      (he : b.Taggable e) : Deed ⟨ops, b⟩ ⟨rest, tags.foldl (fun b tag => b.tag e tag) b⟩
  | untagged {ops rest : Operands} {b : Book} {e : Entity} (tags : List String) (hops : rest <:+ ops)
      (he : b.Taggable e) : Deed ⟨ops, b⟩ ⟨rest, tags.foldl (fun b tag => b.untag e tag) b⟩
  | drafted {ops rest : Operands} {b : Book} {t : Transfer} (hops : rest <:+ ops) (ht : b.Admits t) :
      Deed ⟨ops, b⟩ ⟨.transfer b.transfers.length :: rest, b.draft t⟩
  | bound {rest : Operands} {b : Book} {id : TransferId} {lot : String}
      (hopen : b.isClosed (b.transfer id).account = false)
      (hlot : b.hasLot (b.transfer id).account lot = true) :
      Deed ⟨.text lot :: .transfer id :: rest, b⟩ ⟨.transfer id :: rest, b.bindLot id lot⟩
  | boundNew {rest : Operands} {b : Book} {id : TransferId} {lot : String}
      (hopen : b.isClosed (b.transfer id).account = false)
      (hroom : b.held (b.transfer id).account lot (b.transfer id).quantity.commodity = none) :
      Deed ⟨.text lot :: .transfer id :: rest, b⟩
        ⟨.transfer id :: rest, (b.bindLot id lot).letCreate id⟩
  | commented {rest : Operands} {b : Book} {id : TransferId} {comment : String} :
      Deed ⟨.text comment :: .transfer id :: rest, b⟩ ⟨.transfer id :: rest, b.setComment id comment⟩
  /-- A transaction is applied. -/
  | applied {ops rest : Operands} {b b' : Book} {o : Words.TransactionOperands} {x : Transaction}
      (hops : Words.takeTransaction ops = .ok (o, rest)) (hx : Words.draftTransaction b o = .ok x)
      (hb : x.apply.on b = (.ok (), b')) : Deed ⟨ops, b⟩ ⟨rest, b'⟩
  /-- A transaction breaks off. -/
  | brokenOff {ops rest : Operands} {b b' : Book} {o : Words.TransactionOperands} {x : Transaction}
      {fault : Fault} (hops : Words.takeTransaction ops = .ok (o, rest))
      (hx : Words.draftTransaction b o = .ok x) (hb : x.apply.on b = (.error fault, b')) :
      Deed ⟨ops, b⟩ ⟨rest, b'⟩

/-- What a call that goes through does is a deed. -/
theorem Effect.deed {s : String} {d d' : Desk Book} (h : Effect s d d') : Deed d d' := by
  cases h with
  | advanced hday hb => exact .advanced (List.suffix_append [_, _, _] _) hday hb
  | registered hb => exact .registered (List.suffix_append [_, _] _) hb
  | opened hops hname hallowed hb =>
      exact .opened (Operands.underTexts_suffix _) hname hallowed hb
  | closed hid hz => exact .closed (List.suffix_cons _ _) hid hz
  | lotClosed hid hlot hl hz => exact .lotClosed (List.suffix_append [_, _] _) hid hlot hl hz
  | annotated hops hid => exact .annotated _ (Operands.underTexts_suffix _) hid
  | tagged hops hid => exact .tagged _ (Operands.underTexts_suffix _) (.account hid)
  | taggedCommodity hops hc => exact .tagged _ (Operands.underTexts_suffix _) (.commodity hc)
  | untagged hops hid => exact .untagged _ (Operands.underTexts_suffix _) (.account hid)
  | drafted hs hops ht => exact .drafted hops ht
  | bound hopen hlot => exact .bound hopen hlot
  | boundNew hopen hroom => exact .boundNew hopen hroom
  | commented => exact .commented
  | applied hops hx hb => exact .applied hops hx hb
  | judged hs hops => exact .taken hops

namespace Words

open Act

variable {called : String} {d d' : Desk Book}

/-- A transaction is applied or breaks off, or does not come about. -/
theorem deed_transact {r : Except Failure Signal} (h : transact called d = (r, d')) : Deed d d' := by
  cases r with
  | ok signal => exact (effect_transact h).deed
  | error failure =>
      rcases Word.ofAct_error h with ⟨rfl, -⟩ | ⟨o, fault, htake, hact, -⟩
      · exact .taken (List.suffix_refl _)
      obtain ⟨ops, b⟩ := d
      obtain ⟨rest, b'⟩ := d'
      -- it breaks off while the transaction is drafted or while it is applied, and not after that
      rcases on_bind_error_iff.1 hact with happly | ⟨_, _, -, hpure⟩
      · rcases on_bind_error_iff.1 happly with hdraft | ⟨x, b₁, hdraft, hrest⟩
        · obtain rfl := reads_judge _ _ _ _ hdraft
          exact .taken (offTop_takeTransaction _ _ _ htake)
        obtain ⟨hx, rfl⟩ := on_judge_ok_iff.1 hdraft
        rcases on_bind_error_iff.1 hrest with hb | ⟨_, _, -, hpure⟩
        · exact .brokenOff htake hx hb
        · exact absurd hpure (sure_pure _ _ _ _)
      · exact absurd hpure (sure_pure _ _ _ _)

/-- **A call of a core word is a deed**, whether it goes through or fails. -/
theorem core_deed {name : String} {w : Word Book} (hw : (name, w) ∈ coreWords)
    {r : Except Failure Signal} (h : w called d = (r, d')) : Deed d d' := by
  rcases core_whole hw with rfl | hwhole
  · exact deed_transact h
  cases r with
  | error failure =>
      obtain ⟨hb, hops⟩ := hwhole called d failure d' h
      obtain ⟨ops, b⟩ := d
      obtain ⟨rest, b'⟩ := d'
      obtain rfl := hb
      exact .taken hops
  | ok signal => exact (core_effect hw h).deed

end Words

/-- A token does a deed, or else it pushes a text, moves a scope or does nothing. -/
theorem Machine.step_deed (m : Machine Book) (t : Token) :
    (∃ d, Deed m.desk d ∧ (m.step .core t).2 = m.withDesk d)
      ∨ (m.step .core t).2.context = m.context
        ∧ ((m.step .core t).2.stack = m.stack
          ∨ ∃ s, (m.step .core t).2.stack = .text s :: m.stack) := by
  cases t with
  | word s =>
      simp only [step, call]
      split
      · exact .inr ⟨rfl, .inl rfl⟩
      split
      · split
        · exact .inr ⟨rfl, .inl rfl⟩
        · exact .inr ⟨rfl, .inl rfl⟩
      split
      · exact .inr ⟨rfl, .inr ⟨s, rfl⟩⟩
      · next w hw => exact .inl ⟨_, Words.core_deed (Vocabulary.core_mem hw) rfl, rfl⟩
  | quoted s =>
      simp only [step]
      split
      · exact .inr ⟨rfl, .inl rfl⟩
      · exact .inr ⟨rfl, .inr ⟨s, rfl⟩⟩
  | opening => exact .inr ⟨rfl, .inl rfl⟩
  | closing =>
      simp only [step, closeScope]
      split
      · exact .inr ⟨rfl, .inl rfl⟩
      · next outer rest h =>
          -- the operands of a scope that ends lie on those of the scope around it
          have hstack : (m.visible ++ outer) ++ rest.flatten = m.stack := by
            simp only [stack]
            rw [h, List.flatten_cons, List.append_assoc]
          split
          · exact .inr ⟨rfl, .inl hstack⟩
          · exact .inr ⟨rfl, .inl hstack⟩

/-- What every deed on the desk leads to, a token leads to. -/
theorem Machine.step_keeps {I : Book → Prop} {m : Machine Book} (hm : I m.context)
    (hdeed : ∀ d, Deed m.desk d → I d.context) (t : Token) : I (m.step .core t).2.context := by
  rcases m.step_deed t with ⟨d, hd, hstep⟩ | ⟨hstep, -⟩
  · rw [hstep]
    exact hdeed d hd
  · rwa [hstep]

end Daybook
