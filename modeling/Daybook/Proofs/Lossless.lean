import Daybook.Proofs.Handling

/-!
# Lossless — what a word that goes through takes off the stack

A word that takes a transfer off the stack where it wants a text is refused.  So a word that goes through
has taken nothing but texts, or has put the transfer back, or was the transaction that applied it.

* `Effect.lossless`: an effect that names the operands it takes loses no transfer.
* `lossless_of_judged`, `lossless_of_drafts`: nor does a word that takes what it judges to be texts.
* `core_lossless`: **a core word that goes through loses no transfer**.
-/

namespace Daybook

/-! ### Effects that name what they take -/

theorem Operands.transferIds_underTexts (ops : Operands) :
    ops.underTexts.transferIds = ops.transferIds := by
  conv_rhs => rw [splitTexts_eq ops, transferIds_append, transferIds_texts, List.nil_append]
  rfl

/-- What becomes of the transfers on the stack that loses none: all stay there; or one more draft lies on
them; or those are taken off that a transaction has applied. -/
inductive Lossless (d d' : Desk Book) : Prop where
  | kept (hids : d'.operands.transferIds = d.operands.transferIds)
  | drafted (hids : d'.operands.transferIds = d.context.transfers.length :: d.operands.transferIds)
  | applied {taken : List TransferId}
      (hids : d.operands.transferIds = taken.reverse ++ d'.operands.transferIds)
      (happlied : d'.context.appliedIds = taken ++ d.context.appliedIds)

/-- An effect names the operands that it takes, unless they are judged all at once.  Those that it names are
texts, or transfers that are put back or applied. -/
theorem Effect.lossless {s : String} {d d' : Desk Book} (h : Effect s d d')
    (hs : s ∉ "date" :: (["xfer", "xfer-exch"]
      ++ ["assert", "assert-lot", "assert-lots-sum", "comment"])) : Lossless d d' := by
  cases h with
  -- the effects that leave open what was judged
  | advanced => exact absurd List.mem_cons_self hs
  | drafted hdrafts => exact absurd (List.mem_cons_of_mem _ (List.mem_append_left _ hdrafts)) hs
  | judged hjudges => exact absurd (List.mem_cons_of_mem _ (List.mem_append_right _ hjudges)) hs
  | registered => exact .kept rfl
  | closed => exact .kept rfl
  | lotClosed => exact .kept rfl
  | opened => exact .kept (Operands.transferIds_underTexts _)
  | annotated => exact .kept (Operands.transferIds_underTexts _)
  | tagged => exact .kept (Operands.transferIds_underTexts _)
  | taggedCommodity => exact .kept (Operands.transferIds_underTexts _)
  | untagged => exact .kept (Operands.transferIds_underTexts _)
  | bound => exact .kept rfl
  | boundNew => exact .kept rfl
  | commented => exact .kept rfl
  | applied hops hx hb =>
      have happlied := (Book.postings_apply_ok hb).2.1
      rw [Words.transfers_draftTransaction hx] at happlied
      refine .applied ?_ happlied
      -- entity and description are texts, as the notes are
      obtain ⟨_, _, hentity, hdescription, -⟩ := Words.draftTransaction_eq_ok_iff.1 hx
      dsimp only
      rw [Words.transferIds_eq_of_takeTransaction hops, hentity, hdescription]
      rfl

/-! ### Operands that are judged all at once -/

namespace Taking

variable {α β : Type}

/-- What is taken is texts if it is judged well. -/
def JudgedTexts (take : Taking α) (first : α → Book → Except Fault β) : Prop :=
  ∀ ops taken rest b x, take ops = .ok (taken, rest) → first taken b = .ok x →
    rest.transferIds = ops.transferIds

theorem judgedTexts_three {first : Value × Value × Value → Book → Except Fault β} (required : String)
    (h : ∀ b u v w x, first (u, v, w) b = .ok x → ∃ r s t, u = .text r ∧ v = .text s ∧ w = .text t) :
    JudgedTexts (three required) first := by
  rintro ops ⟨u, v, w⟩ rest b x htake hx
  obtain ⟨_, _, _, rfl, rfl, rfl⟩ := h b u v w x hx
  rw [three_ok_iff.1 htake]
  rfl

end Taking

namespace Words

open Act Taking

variable {called : String} {d d' : Desk Book} {signal : Signal}

theorem judgedTexts_date (required : String) :
    JudgedTexts (three required) fun operands b => asDate b operands :=
  judgedTexts_three required fun b u v w date h => by
    simp only [asDate] at h
    simp only [bind_eq_ok_iff, asInteger_eq_ok_iff] at h
    obtain ⟨_, ⟨y, hy, -⟩, _, ⟨m, hm, -⟩, _, ⟨d, hd, -⟩, -⟩ := h
    exact ⟨y, m, d, hy, hm, hd⟩

theorem judgedTexts_transfer : JudgedTexts takeTransfer fun operands b => draftTransfer b operands :=
  judgedTexts_three _ fun b u v w t h => by
    simp only [draftTransfer] at h
    simp only [bind_eq_ok_iff, Book.asText_eq_ok_iff] at h
    obtain ⟨account, hu, amount, hv, commodity, hw, -⟩ := h
    exact ⟨account, amount, commodity, hu, hv, hw⟩

theorem judgedTexts_exchange : JudgedTexts takeExchange fun operands b => draftExchange b operands := by
  intro ops o rest b t htake _
  rw [takeExchange_ok htake]
  rfl

theorem judgedTexts_assertion : JudgedTexts takeAssertion fun operands b => asAssertion b operands :=
  judgedTexts_three _ fun b u v w x h => by
    obtain ⟨account, amount, hu, hv, hw, -⟩ := asAssertion_eq_ok_iff.1 h
    exact ⟨account, amount, x.2.commodity, hu, hv, hw⟩

theorem judgedTexts_lotAssertion (required : String) :
    JudgedTexts (four required) fun operands b => asLotAssertion b operands := by
  rintro ops ⟨t, u, v, w⟩ rest b x htake h
  obtain ⟨rfl, hamount⟩ := asLotAssertion_eq_ok_iff.1 h
  obtain ⟨_, _, rfl, rfl, rfl, -⟩ := asAssertion_eq_ok_iff.1 hamount
  rw [four_ok_iff.1 htake]
  rfl

theorem judgedTexts_comment (what : String) : JudgedTexts takeOnly fun v b => b.asText what v := by
  intro ops v rest b s htake h
  obtain rfl := Book.asText_eq_ok_iff.1 h
  rw [takeOnly_ok htake]
  rfl

/-- A word that takes what it judges to be texts, and pushes nothing. -/
theorem lossless_of_judged {α β : Type} {take : Taking α} {first : α → Book → Except Fault β}
    {next : α → β → Act (List Value)} (htexts : JudgedTexts take first)
    (hpushed : ∀ taken x, (next taken x).Yields [])
    (h : Word.ofAct take (fun taken => judge (first taken) >>= next taken) called d
      = (.ok signal, d')) : Lossless d d' := by
  obtain ⟨taken, rest, x, pushed, b, htake, hx, hact, rfl⟩ := Word.ofAct_judge_ok h
  obtain rfl := hpushed _ _ _ _ _ hact
  exact .kept (htexts _ _ _ _ _ htake hx)

/-- A word that takes what it judges to be texts, and keeps the transfer that they make. -/
theorem lossless_of_drafts {α : Type} {take : Taking α} {first : α → Book → Except Fault Transfer}
    (htexts : JudgedTexts take first)
    (h : Word.ofAct take (fun taken => judge (first taken) >>= keepDraft) called d = (.ok signal, d')) :
    Lossless d d' := by
  obtain ⟨taken, rest, t, pushed, b, htake, ht, hact, rfl⟩ := Word.ofAct_judge_ok h
  obtain ⟨rfl, -⟩ := keepDraft_ok hact
  exact .drafted (congrArg (d.context.transfers.length :: ·) (htexts _ _ _ _ _ htake ht))

/-- **A core word that goes through loses no transfer.** -/
theorem core_lossless {name : String} {w : Word Book} (hw : (name, w) ∈ coreWords)
    (h : w called d = (.ok signal, d')) : Lossless d d' := by
  have hall : ∀ p ∈ coreWords, p.2 called d = (.ok signal, d') → Lossless d d' := by
    simp only [coreWords, List.forall_mem_cons]
    exact ⟨fun h => (effect_addNotes h).lossless (by decide),
      lossless_of_judged judgedTexts_assertion fun _ _ => yields_bind_pure _ _,
      lossless_of_judged (judgedTexts_lotAssertion _) fun _ _ => yields_bind_pure _ _,
      lossless_of_judged judgedTexts_assertion fun _ _ => yields_bind_pure _ _,
      fun h => (effect_close h).lossless (by decide),
      fun h => (effect_closeLot h).lossless (by decide),
      lossless_of_judged (judgedTexts_comment _) fun _ _ => yields_pure [],
      fun h => (effect_commodity h).lossless (by decide),
      fun h => (effect_createLot h).lossless (by decide),
      lossless_of_judged (judgedTexts_date _) fun _ _ => yields_bind_pure _ _,
      fun h => (effect_lot h).lossless (by decide),
      fun h => (effect_openAccount h).lossless (by decide),
      fun h => (effect_setComment h).lossless (by decide),
      fun h => (effect_tag h).lossless (by decide),
      fun h => (effect_tagCommodity h).lossless (by decide),
      fun h => (effect_untag h).lossless (by decide),
      fun h => (effect_transact h).lossless (by decide),
      lossless_of_drafts judgedTexts_transfer,
      lossless_of_drafts judgedTexts_exchange,
      fun _ hp => absurd hp List.not_mem_nil⟩
  exact hall (name, w) hw h

end Words

end Daybook
