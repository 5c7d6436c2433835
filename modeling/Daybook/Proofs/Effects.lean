import Daybook.Proofs.Judging

/-!
# Effects — what a call that goes through does

A call of a core word that goes through has found its operands and judged the book, and has changed the one
thing that the word is there for.  Each word has its effect, which says all of this.

* `Effect`: **what each word does to its desk when a call of it goes through**.
* `changesEach_ok`, `binding_ok`, `effect_of_drafts`, `effect_of_judges`: words that are built alike.
* `core_effect`: a call that goes through has the effect of its word.
-/

namespace Daybook

/-- What a call of a core word that goes through does to its desk, by the name of the word. -/
inductive Effect : String → Desk Book → Desk Book → Prop where
  | advanced {u v w : Value} {rest : Operands} {b b' : Book} {date : Date}
      (hday : Words.asDay date = .ok date) (hb : b.advance date = .ok b') :
      Effect "date" ⟨w :: v :: u :: rest, b⟩ ⟨rest, b'⟩
  | registered {name description : String} {rest : Operands} {b b' : Book}
      (hb : b.register name description = .ok b') :
      Effect "commodity" ⟨.text description :: .text name :: rest, b⟩ ⟨rest, b'⟩
  | opened {name : String} {allowed : List String} {ops : Operands} {b b' : Book}
      (hops : ops.topTexts = name :: allowed) (hname : Account.isValidName name = true)
      (hallowed : ∀ c ∈ allowed, b.commodities.contains c = true)
      (hb : b.openAccount name allowed = .ok b') : Effect "open" ⟨ops, b⟩ ⟨ops.underTexts, b'⟩
  | closed {name : String} {rest : Operands} {b : Book} {id : AccountId}
      (hid : b.findOpen name = .ok id) (hz : (b.account id).nonzeroHoldings = []) :
      Effect "close" ⟨.text name :: rest, b⟩ ⟨rest, b.closeAccount id⟩
  | lotClosed {name lot : String} {rest : Operands} {b : Book} {id : AccountId} {l : Lot}
      (hid : b.findOpen name = .ok id) (hlot : lot ≠ defaultLot)
      (hl : (b.account id).lots.get? lot = some l)
      (hz : ∀ h ∈ l.values, h.balance.amount.isZero = true) :
      Effect "close-lot" ⟨.text lot :: .text name :: rest, b⟩ ⟨rest, b.closeLot id lot⟩
  | annotated {name : String} {texts : List String} {ops : Operands} {b : Book} {id : AccountId}
      (hops : ops.topTexts = name :: texts) (hid : b.findOpen name = .ok id) :
      Effect "add-notes" ⟨ops, b⟩
        ⟨ops.underTexts, (Words.pairs texts).foldl (fun b note => b.annotate id note.1 note.2) b⟩
  | tagged {name : String} {tags : List String} {ops : Operands} {b : Book} {id : AccountId}
      (hops : ops.topTexts = name :: tags) (hid : b.findOpen name = .ok id) :
      Effect "tag" ⟨ops, b⟩ ⟨ops.underTexts, tags.foldl (fun b tag => b.tag (.account id) tag) b⟩
  | taggedCommodity {name : String} {tags : List String} {ops : Operands} {b : Book}
      (hops : ops.topTexts = name :: tags) (hc : b.commodities.contains name = true) :
      Effect "tag-commodity" ⟨ops, b⟩
        ⟨ops.underTexts, tags.foldl (fun b tag => b.tag (.commodity name) tag) b⟩
  | untagged {name : String} {tags : List String} {ops : Operands} {b : Book} {id : AccountId}
      (hops : ops.topTexts = name :: tags) (hid : b.findOpen name = .ok id) :
      Effect "untag" ⟨ops, b⟩
        ⟨ops.underTexts, tags.foldl (fun b tag => b.untag (.account id) tag) b⟩
  | drafted {s : String} {ops rest : Operands} {b : Book} {t : Transfer}
      (hs : s ∈ ["xfer", "xfer-exch"]) (hops : rest <:+ ops) (ht : b.Admits t) :
      Effect s ⟨ops, b⟩ ⟨.transfer b.transfers.length :: rest, b.draft t⟩
  | bound {lot : String} {rest : Operands} {b : Book} {id : TransferId}
      (hopen : b.isClosed (b.transfer id).account = false)
      (hlot : b.hasLot (b.transfer id).account lot = true) :
      Effect "lot" ⟨.text lot :: .transfer id :: rest, b⟩ ⟨.transfer id :: rest, b.bindLot id lot⟩
  | boundNew {lot : String} {rest : Operands} {b : Book} {id : TransferId}
      (hopen : b.isClosed (b.transfer id).account = false)
      (hroom : b.held (b.transfer id).account lot (b.transfer id).quantity.commodity = none) :
      Effect "create-lot" ⟨.text lot :: .transfer id :: rest, b⟩
        ⟨.transfer id :: rest, (b.bindLot id lot).letCreate id⟩
  | commented {comment : String} {rest : Operands} {b : Book} {id : TransferId} :
      Effect "set-comment" ⟨.text comment :: .transfer id :: rest, b⟩
        ⟨.transfer id :: rest, b.setComment id comment⟩
  | applied {ops rest : Operands} {b b' : Book} {o : Words.TransactionOperands} {x : Transaction}
      (hops : Words.takeTransaction ops = .ok (o, rest)) (hx : Words.draftTransaction b o = .ok x)
      (hb : x.apply.on b = (.ok (), b')) : Effect "xact" ⟨ops, b⟩ ⟨rest, b'⟩
  /-- Operands are judged, or discarded. -/
  | judged {s : String} {ops rest : Operands} {b : Book}
      (hs : s ∈ ["assert", "assert-lot", "assert-lots-sum", "comment"]) (hops : rest <:+ ops) :
      Effect s ⟨ops, b⟩ ⟨rest, b⟩

namespace Words

open Act

/-! ### The effect of each word -/

variable {called : String} {d d' : Desk Book} {signal : Signal}

theorem effect_date (h : date called d = (.ok signal, d')) : Effect "date" d d' := by
  obtain ⟨-, ⟨y, m, v⟩, rest, pushed, b, htake, hact, rfl⟩ := Word.ofAct_ok h
  simp only [on_judge_bind_ok_iff, on_change_bind_ok_iff, on_pure_ok_iff] at hact
  obtain ⟨date, hdate, b', hb, rfl, rfl⟩ := hact
  simp only [asDate] at hdate
  simp only [bind_eq_ok_iff] at hdate
  obtain ⟨year, -, month, -, day, -, hday⟩ := hdate
  -- a day that was read from its fields is judged the same once more
  have hsame : asDay date = .ok date := by
    simp only [asDay] at hday ⊢
    split at hday
    · cases hday
    · next hfits =>
        split at hday
        · cases hday
        · next hcheck =>
            cases hday
            rw [if_neg hfits, hcheck]
  obtain ⟨ops, b⟩ := d
  obtain rfl := Taking.three_ok_iff.1 htake
  exact .advanced hsame hb

theorem effect_commodity (h : commodity called d = (.ok signal, d')) : Effect "commodity" d d' := by
  obtain ⟨-, ⟨v, w⟩, rest, pushed, b, htake, hact, rfl⟩ := Word.ofAct_ok h
  simp only [on_judge_bind_ok_iff, on_change_bind_ok_iff, on_pure_ok_iff] at hact
  obtain ⟨name, hname, description, hdescription, b', hb, rfl, rfl⟩ := hact
  obtain rfl := Book.asText_eq_ok_iff.1 hname
  obtain rfl := Book.asText_eq_ok_iff.1 hdescription
  obtain ⟨ops, b⟩ := d
  obtain rfl := Taking.two_ok_iff.1 htake
  exact .registered hb

theorem effect_openAccount (h : openAccount called d = (.ok signal, d')) : Effect "open" d d' := by
  obtain ⟨-, ⟨name, commodities⟩, rest, pushed, b, htake, hact, rfl⟩ := Word.ofAct_ok h
  simp only [on_judge_bind_ok_iff, on_forM_judge_bind_ok_iff, on_change_bind_ok_iff,
    on_pure_ok_iff] at hact
  obtain ⟨_, hname, _, -, hcommodities, b', hb, rfl, rfl⟩ := hact
  obtain ⟨hops, rfl⟩ := Taking.allTexts_nameAndTexts _ _ _ _ _ htake
  exact .opened hops (requireValidName_eq_ok_iff.1 hname)
    (fun c hc => Book.findCommodity_eq_ok_iff.1 (hcommodities c hc)) hb

theorem effect_close (h : close called d = (.ok signal, d')) : Effect "close" d d' := by
  obtain ⟨-, v, rest, pushed, b, htake, hact, rfl⟩ := Word.ofAct_ok h
  simp only [on_judge_bind_ok_iff, on_enter_bind_ok_iff, on_pure_ok_iff] at hact
  obtain ⟨name, hname, id, hid, _, hz, rfl, rfl⟩ := hact
  obtain rfl := Book.asText_eq_ok_iff.1 hname
  obtain ⟨ops, b⟩ := d
  obtain rfl := Taking.one_ok_iff.1 htake
  exact .closed (findClosable_ok hid) (requireEmptyAccount_eq_ok_iff.1 hz)

/-- A lot that is closed is one of an open account and not its default lot, and holds nothing. -/
theorem closeLot_ok (h : closeLot called d = (.ok signal, d')) :
    ∃ name lot id l rest, d.operands = .text lot :: .text name :: rest
      ∧ d.context.findOpen name = .ok id ∧ lot ≠ defaultLot
      ∧ (d.context.account id).lots.get? lot = some l
      ∧ (∀ h ∈ l.values, h.balance.amount.isZero = true) ∧ d' = ⟨rest, d.context.closeLot id lot⟩ := by
  obtain ⟨-, ⟨v, w⟩, rest, pushed, b, htake, hact, rfl⟩ := Word.ofAct_ok h
  simp only [on_judge_bind_ok_iff, on_enter_bind_ok_iff, on_pure_ok_iff] at hact
  obtain ⟨name, hname, lot, hlot, id, hid, _, hempty, rfl, rfl⟩ := hact
  obtain rfl := Book.asText_eq_ok_iff.1 hname
  obtain rfl := Book.asText_eq_ok_iff.1 hlot
  obtain ⟨hne, l, hl, hz⟩ := requireEmptyLot_eq_ok_iff.1 hempty
  exact ⟨name, lot, id, l, rest, Taking.two_ok_iff.1 htake, hid, hne, hl, hz, rfl⟩

theorem effect_closeLot (h : closeLot called d = (.ok signal, d')) : Effect "close-lot" d d' := by
  obtain ⟨ops, b⟩ := d
  obtain ⟨name, lot, id, l, rest, rfl, hid, hne, hl, hz, rfl⟩ := closeLot_ok h
  exact .lotClosed hid hne hl hz

/-- A word that takes texts and makes changes one after the other to what it has found by them. -/
theorem changesEach_ok {β γ : Type} {take : Taking (String × List String)}
    {find : String × List String → Book → Except Fault β} {items : String × List String → List γ}
    {change : β → γ → Book → Book}
    (htake : take.AllTexts)
    (h : Word.ofAct take (fun taken => do
        let x ← judge (find taken)
        (items taken).forM fun a => enter (change x a)
        return []) called d = (.ok signal, d')) :
    ∃ name texts x, d.operands.topTexts = name :: texts ∧ find (name, texts) d.context = .ok x
      ∧ d' = ⟨d.operands.underTexts,
        (items (name, texts)).foldl (fun b a => change x a b) d.context⟩ := by
  obtain ⟨⟨name, texts⟩, rest, x, pushed, b, hd, hx, hact, rfl⟩ := Word.ofAct_judge_ok h
  rw [on_forM_enter_bind_ok_iff, on_pure_ok_iff] at hact
  obtain ⟨rfl, rfl⟩ := hact
  obtain ⟨hops, rfl⟩ := htake _ _ _ _ hd
  exact ⟨name, texts, x, hops, hx, rfl⟩

theorem effect_addNotes (h : addNotes called d = (.ok signal, d')) : Effect "add-notes" d d' := by
  obtain ⟨name, texts, id, hops, hid, rfl⟩ := changesEach_ok allTexts_takeNotes h
  exact .annotated hops hid

theorem effect_tag (h : tag called d = (.ok signal, d')) : Effect "tag" d d' := by
  obtain ⟨name, tags, e, hops, he, rfl⟩ := changesEach_ok (allTexts_takeTags _) h
  obtain ⟨id, hid, rfl⟩ := taggable_of_findTagged he
  exact .tagged hops hid

theorem effect_tagCommodity (h : tagCommodity called d = (.ok signal, d')) :
    Effect "tag-commodity" d d' := by
  obtain ⟨name, tags, e, hops, he, rfl⟩ := changesEach_ok (allTexts_takeTags _) h
  obtain ⟨hc, rfl⟩ := taggable_of_findTaggedCommodity he
  exact .taggedCommodity hops hc

/-- Tags that are taken off are taken off an open account. -/
theorem untag_ok (h : untag called d = (.ok signal, d')) :
    ∃ name tags id, d.operands.topTexts = name :: tags ∧ d.context.findOpen name = .ok id
      ∧ d' = ⟨d.operands.underTexts, tags.foldl (fun b tag => b.untag (.account id) tag) d.context⟩ := by
  obtain ⟨name, tags, e, hops, he, rfl⟩ := changesEach_ok (allTexts_takeTags _) h
  obtain ⟨id, hid, rfl⟩ := taggable_of_findTagged he
  exact ⟨name, tags, id, hops, hid, rfl⟩

theorem effect_untag (h : untag called d = (.ok signal, d')) : Effect "untag" d d' := by
  obtain ⟨ops, b⟩ := d
  obtain ⟨name, tags, id, hops, hid, rfl⟩ := untag_ok h
  exact .untagged hops hid

/-- A transfer that is kept is the last of the book, and its number is pushed. -/
theorem keepDraft_ok {t : Transfer} {b b' : Book} {pushed : List Value}
    (h : (keepDraft t).on b = (.ok pushed, b')) :
    pushed = [.transfer b.transfers.length] ∧ b' = b.draft t := by
  simp only [keepDraft] at h
  simp only [on_judge_bind_ok_iff, on_enter_bind_ok_iff, on_pure_ok_iff] at h
  obtain ⟨id, hid, rfl, rfl⟩ := h
  cases hid
  exact ⟨rfl, rfl⟩

/-- A word that judges its operands and keeps the transfer that they make. -/
theorem effect_of_drafts {α : Type} {s : String} {take : Taking α}
    {first : α → Book → Except Fault Transfer} (hs : s ∈ ["xfer", "xfer-exch"]) (htake : take.OffTop)
    (hadmits : ∀ {taken b t}, first taken b = .ok t → b.Admits t)
    (h : Word.ofAct take (fun taken => do
        let t ← judge (first taken)
        keepDraft t) called d = (.ok signal, d')) : Effect s d d' := by
  obtain ⟨taken, rest, t, pushed, b, hd, ht, hact, rfl⟩ := Word.ofAct_judge_ok h
  obtain ⟨rfl, rfl⟩ := keepDraft_ok hact
  exact .drafted hs (htake _ _ _ hd) (hadmits ht)

theorem effect_transfer (h : transfer called d = (.ok signal, d')) : Effect "xfer" d d' :=
  effect_of_drafts (by decide) (Taking.offTop_three _) admits_of_draftTransfer h

theorem effect_exchange (h : exchange called d = (.ok signal, d')) : Effect "xfer-exch" d d' :=
  effect_of_drafts (by decide) offTop_takeExchange admits_of_draftExchange h

/-- A word that binds the transfer under the text on top to a lot, once its account is seen to be open. -/
theorem binding_ok {next : TransferId × String → Act (List Value)}
    (h : Word.ofAct takeBinding (fun operands => judge (asBinding · operands) >>= next) called d
      = (.ok signal, d')) :
    ∃ id lot, ∃ rest : Operands, ∃ pushed b, d.operands = .text lot :: .transfer id :: rest
      ∧ d.context.isClosed (d.context.transfer id).account = false
      ∧ (next (id, lot)).on d.context = (.ok pushed, b) ∧ d' = ⟨rest.push pushed, b⟩ := by
  obtain ⟨⟨v, w⟩, rest, ⟨id, lot⟩, pushed, b, htake, hbinding, hact, rfl⟩ := Word.ofAct_judge_ok h
  obtain ⟨rfl, rfl, hopen⟩ := asBinding_ok hbinding
  exact ⟨id, lot, rest, pushed, b, Taking.two_ok_iff.1 htake, hopen, hact, rfl⟩

theorem effect_lot (h : lot called d = (.ok signal, d')) : Effect "lot" d d' := by
  obtain ⟨ops, b⟩ := d
  obtain ⟨id, lot, rest, pushed, b', rfl, hopen, hact, rfl⟩ := binding_ok h
  simp only [on_judge_bind_ok_iff, on_enter_bind_ok_iff, on_pure_ok_iff] at hact
  obtain ⟨_, hlot, rfl, rfl⟩ := hact
  exact .bound hopen (requireLot_eq_ok_iff.1 hlot)

theorem effect_createLot (h : createLot called d = (.ok signal, d')) : Effect "create-lot" d d' := by
  obtain ⟨ops, b⟩ := d
  obtain ⟨id, lot, rest, pushed, b', rfl, hopen, hact, rfl⟩ := binding_ok h
  simp only [on_judge_bind_ok_iff, on_enter_bind_ok_iff, on_pure_ok_iff] at hact
  obtain ⟨_, hroom, rfl, rfl⟩ := hact
  exact .boundNew hopen (requireRoom_eq_ok_iff.1 hroom)

theorem effect_setComment (h : setComment called d = (.ok signal, d')) : Effect "set-comment" d d' := by
  obtain ⟨-, ⟨v, w⟩, rest, pushed, b, htake, hact, rfl⟩ := Word.ofAct_ok h
  simp only [on_judge_bind_ok_iff, on_enter_bind_ok_iff, on_pure_ok_iff] at hact
  obtain ⟨id, hid, comment, hcomment, rfl, rfl⟩ := hact
  obtain rfl := Book.asTransfer_eq_ok_iff.1 hid
  obtain rfl := Book.asText_eq_ok_iff.1 hcomment
  obtain ⟨ops, b⟩ := d
  obtain rfl := Taking.two_ok_iff.1 htake
  exact .commented

/-- A word that only judges takes its operands and does nothing else. -/
theorem effect_of_reads {α : Type} {s : String} {take : Taking α} {act : α → Act (List Value)}
    (hs : s ∈ ["assert", "assert-lot", "assert-lots-sum", "comment"]) (htake : take.OffTop)
    (hreads : ∀ taken, (act taken).Reads) (hpushed : ∀ taken, (act taken).Yields [])
    (h : Word.ofAct take act called d = (.ok signal, d')) : Effect s d d' := by
  obtain ⟨-, taken, rest, pushed, b, hd, hact, rfl⟩ := Word.ofAct_ok h
  obtain rfl := hreads _ _ _ _ hact
  obtain rfl := hpushed _ _ _ _ hact
  exact .judged hs (htake _ _ _ hd)

/-- A word that judges twice and pushes nothing. -/
theorem effect_of_judges {α β γ : Type} {s : String} {take : Taking α}
    {first : α → Book → Except Fault β} {second : α → β → Book → Except Fault γ}
    (hs : s ∈ ["assert", "assert-lot", "assert-lots-sum", "comment"]) (htake : take.OffTop)
    (h : Word.ofAct take (fun taken => do
        let x ← judge (first taken)
        let _ ← judge (second taken x)
        return []) called d = (.ok signal, d')) : Effect s d d' :=
  effect_of_reads hs htake (fun _ => reads_judges _ _ _)
    (fun _ => .after (fun _ => yields_bind_pure _ _) _) h

theorem effect_comment (h : comment called d = (.ok signal, d')) : Effect "comment" d d' :=
  effect_of_reads (by decide) offTop_takeOnly (fun _ => (reads_judge _).bind fun _ => reads_pure _)
    (fun _ => yields_bind_pure _ _) h

theorem effect_assertDefault (h : assertDefault called d = (.ok signal, d')) : Effect "assert" d d' :=
  effect_of_judges (by decide) (Taking.offTop_three _) h

theorem effect_assertLot (h : assertLot called d = (.ok signal, d')) : Effect "assert-lot" d d' :=
  effect_of_judges (by decide) (Taking.offTop_four _) h

theorem effect_assertLotsSum (h : assertLotsSum called d = (.ok signal, d')) :
    Effect "assert-lots-sum" d d' :=
  effect_of_judges (by decide) (Taking.offTop_three _) h

/-- A transaction that goes through has been drafted and applied. -/
theorem transact_ok (h : transact called d = (.ok signal, d')) :
    ∃ o rest x b, takeTransaction d.operands = .ok (o, rest) ∧ draftTransaction d.context o = .ok x
      ∧ x.apply.on d.context = (.ok (), b) ∧ d' = ⟨rest, b⟩ := by
  obtain ⟨-, o, rest, pushed, b, htake, hact, rfl⟩ := Word.ofAct_ok h
  obtain ⟨x, b₁, happly, hpure⟩ := on_bind_ok_iff.1 hact
  obtain ⟨rfl, rfl⟩ := on_pure_ok_iff.1 hpure
  obtain ⟨x', hx, hrest⟩ := on_judge_bind_ok_iff.1 happly
  obtain ⟨_, b₂, hb, hpure⟩ := on_bind_ok_iff.1 hrest
  obtain ⟨rfl, rfl⟩ := on_pure_ok_iff.1 hpure
  exact ⟨o, rest, x, b, htake, hx, hb, rfl⟩

theorem effect_transact (h : transact called d = (.ok signal, d')) : Effect "xact" d d' := by
  obtain ⟨ops, b⟩ := d
  obtain ⟨o, rest, x, b', htake, hx, hb, rfl⟩ := transact_ok h
  exact .applied htake hx hb

/-- **A call that goes through has the effect of its word.** -/
theorem core_effect {name : String} {w : Word Book} (hw : (name, w) ∈ coreWords)
    (h : w called d = (.ok signal, d')) : Effect name d d' := by
  have hall : ∀ p ∈ coreWords, p.2 called d = (.ok signal, d') → Effect p.1 d d' := by
    simp only [coreWords, List.forall_mem_cons]
    exact ⟨effect_addNotes, effect_assertDefault, effect_assertLot, effect_assertLotsSum,
      effect_close, effect_closeLot, effect_comment, effect_commodity, effect_createLot,
      effect_date, effect_lot, effect_openAccount, effect_setComment, effect_tag,
      effect_tagCommodity, effect_untag, effect_transact, effect_transfer, effect_exchange,
      fun _ hp => absurd hp List.not_mem_nil⟩
  exact hall (name, w) hw h

end Words

end Daybook
