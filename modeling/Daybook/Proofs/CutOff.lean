import Daybook.Calendar.Iso
import Daybook.Proofs.Chronology
import Daybook.Proofs.Reporting

/-!
# Cut-off — a run that ends at a date is the beginning of the full run

The word `date` can be put in place of itself with a cut-off date, and again with another one; the run then
stops after the call that moves the clock past one of them.  Up to that call both vocabularies come to the
same at every token, and after it nothing more of the source is read.

* `Words.cutOff_eq`: **nested cut-offs come to the earliest one**.
* `Effect.clock`, `step_clock`: only a call of `date` moves the clock.
* `step_endingAfter`, `step_endingAfter_past`: a cut-off makes a difference to the call that passes it alone.
* `Crosses`: the call of `date` in a reading that moves the clock past a date.
* `read_endingAfter`, `read_endingAfter_crosses`: **with a cut-off a reading stops at that call**, and is the
  full reading if there is none.
* `cut_off`: so it does with any number of cut-offs, and all that is dated in its book is dated by then.
-/

namespace Daybook

/-! ### Cut-off dates -/

theorem Date.lt_of_le_of_lt {a b c : Date} (h : a ≤ b) (h' : b < c) : a < c := by
  rcases h with h | rfl
  · exact Date.lt_trans h h'
  · exact h'

/-- Among dates there is an earliest one. -/
theorem Date.exists_earliest {dates : List Date} (h : dates ≠ []) :
    ∃ earliest ∈ dates, ∀ d ∈ dates, earliest ≤ d := by
  induction dates with
  | nil => exact absurd rfl h
  | cons d dates ih =>
      by_cases hd : dates = []
      · rw [hd]
        exact ⟨d, List.mem_singleton_self d, fun d' hd' => .inr (List.mem_singleton.1 hd').symm⟩
      · obtain ⟨earliest, hmem, hle⟩ := ih hd
        by_cases hlt : earliest < d
        · exact ⟨earliest, List.mem_cons_of_mem d hmem, List.forall_mem_cons.2 ⟨.inl hlt, hle⟩⟩
        · refine ⟨d, List.mem_cons_self, List.forall_mem_cons.2 ⟨Date.le_refl d, fun d' hd' => ?_⟩⟩
          exact Date.le_trans (Date.not_lt.1 hlt) (hle d' hd')

/-- A date that is read is later than the one at which a clock starts. -/
theorem Date.zero_lt_of_read {s : String} {date : Date} (h : Date.read s = .ok date) : Date.zero < date := by
  have hyear : 0 < date.year := by
    simp only [Date.read] at h
    split at h
    · cases h
    · split at h
      · cases h
      · next hcheck =>
          cases h
          exact ((Calendar.check_eq_none_iff _).1 hcheck).1.1
    · split at h
      · split at h
        · cases h
        · next hcheck =>
            cases h
            simp only [Calendar.checkWeekDay] at hcheck
            split at hcheck
            · cases hcheck
            · next hyear => omega
      · cases h
  exact .inl hyear

namespace Word

variable {σ : Type}

theorem stoppingWhen_false (w : Word σ) : w.stoppingWhen (fun _ => false) = w := by
  funext name d
  simp only [stoppingWhen]
  rcases w name d with ⟨_ | signal, d'⟩
  · rfl
  · rfl

/-- A word that stops the run on two grounds stops it on either. -/
theorem stoppingWhen_stoppingWhen (w : Word σ) (p q : Desk σ → Bool) :
    (w.stoppingWhen p).stoppingWhen q = w.stoppingWhen fun d => p d || q d := by
  funext name d
  simp only [stoppingWhen]
  rcases w name d with ⟨_ | signal, d'⟩
  · rfl
  · by_cases hp : p d' = true
    · by_cases hq : q d' = true <;> simp [hp, hq]
    · simp [hp]

end Word

namespace Words

/-- The word `date` with cut-offs, one around the other. -/
def cutOff (cutoffs : List Date) : Word Book := cutoffs.foldl (fun w c => endingAfter c w) date

theorem foldl_endingAfter (cutoffs : List Date) (w : Word Book) :
    cutoffs.foldl (fun w c => endingAfter c w) w
      = w.stoppingWhen fun d => cutoffs.any fun c => decide (c < d.context.date) := by
  induction cutoffs generalizing w with
  | nil => exact w.stoppingWhen_false.symm
  | cons c cutoffs ih =>
      rw [List.foldl_cons, ih]
      exact w.stoppingWhen_stoppingWhen _ _

/-- **Nested cut-offs come to the earliest one.** -/
theorem cutOff_eq {cutoffs : List Date} {earliest : Date} (hmem : earliest ∈ cutoffs)
    (hle : ∀ c ∈ cutoffs, earliest ≤ c) : cutOff cutoffs = endingAfter earliest date := by
  have hany : ∀ d : Date, cutoffs.any (fun c => decide (c < d)) = decide (earliest < d) := fun d => by
    rw [Bool.eq_iff_iff, List.any_eq_true, decide_eq_true_iff]
    constructor
    · rintro ⟨c, hc, hlt⟩
      exact Date.lt_of_le_of_lt (hle c hc) (of_decide_eq_true hlt)
    · exact fun hlt => ⟨earliest, hmem, decide_eq_true hlt⟩
  rw [cutOff, foldl_endingAfter]
  exact congrArg (Word.stoppingWhen · date) (funext fun d => hany d.context.date)

end Words

/-- The core vocabulary with a cut-off date. -/
def Vocabulary.endingAfter (cutoff : Date) : Vocabulary Book :=
  Vocabulary.core.add "date" (Words.endingAfter cutoff Words.date)

/-- The core vocabulary with cut-off dates. -/
def Vocabulary.cutOff (cutoffs : List Date) : Vocabulary Book :=
  Vocabulary.core.add "date" (Words.cutOff cutoffs)

/-! ### The clock -/

/-- Only `date` moves the clock. -/
theorem Effect.clock {s : String} {d d' : Desk Book} (h : Effect s d d') :
    (s = "date" ∧ ∃ date, d.context.advance date = .ok d'.context) ∨ d'.context.date = d.context.date := by
  cases h with
  | advanced _ hb => exact .inl ⟨rfl, _, hb⟩
  | registered hb => exact .inr (Book.quiet_register hb).date
  | opened _ _ _ hb =>
      obtain ⟨-, rfl⟩ := Book.openAccount_ok hb
      exact .inr rfl
  | closed => exact .inr rfl
  | lotClosed => exact .inr rfl
  | annotated => exact .inr (Book.Quiet.foldl (fun b _ => b.quiet_annotate _ _ _) _ _).date
  | tagged => exact .inr (Book.Quiet.foldl (fun b tag => b.quiet_tag _ tag) _ _).date
  | taggedCommodity => exact .inr (Book.Quiet.foldl (fun b tag => b.quiet_tag _ tag) _ _).date
  | untagged => exact .inr (Book.Quiet.foldl (fun b tag => b.quiet_untag _ tag) _ _).date
  | drafted => exact .inr rfl
  | bound => exact .inr rfl
  | boundNew => exact .inr rfl
  | commented => exact .inr rfl
  | applied _ _ hb => exact .inr (Turn.apply_leaves hb).1
  | judged => exact .inr rfl

namespace Machine

variable {m m' : Machine Book} {t : Token} {cutoff : Date}

/-- A token that moves the clock calls `date`, and the machine goes on. -/
theorem step_clock (h : (m.step .core t).2.context.date ≠ m.context.date) :
    m.Calls t "date" Words.date ∧ (m.step .core t).1 = .ok .proceed
      ∧ ∃ date, m.context.advance date = .ok (m.step .core t).2.context := by
  by_cases hcalls : ∃ s w, m.Calls t s w
  · obtain ⟨s, w, hcalls⟩ := hcalls
    have hw := Vocabulary.core_mem hcalls.word
    have hstop := m.step_ne_stop (t := t)
    rw [hcalls.step_eq] at h hstop ⊢
    cases hr : w s m.desk with
    | mk r d =>
        rw [hr] at h hstop
        cases r with
        | error failure => exact absurd (congrArg (·.date) (unlotted_of_error hw hr)) h
        | ok signal =>
            rcases (Words.core_effect hw hr).clock with ⟨rfl, hadvance⟩ | hkept
            · obtain rfl : w = Words.date := Option.some.inj (hcalls.word.symm.trans rfl)
              cases signal with
              | proceed => exact ⟨hcalls, rfl, hadvance⟩
              | stop => exact absurd rfl hstop
            · exact absurd hkept h
  · exact absurd (congrArg (·.date) (step_of_not_calls hcalls).1) h

theorem Proceeds.date_le {ts : List Token} (h : Proceeds .core m ts m') :
    m.context.date ≤ m'.context.date := by
  induction h with
  | refl => exact Date.le_refl _
  | @more m m₁ m' t ts hs _ ih =>
      have hle := (m.step_turn t).date_le
      rw [hs] at hle
      exact Date.le_trans hle ih

/-- If the clock is past a date after tokens, it was moved past it by one of them, a call of `date`. -/
theorem Proceeds.exists_past {ts : List Token} (h : Proceeds .core m ts m')
    (hm : m.context.date ≤ cutoff) (hpast : cutoff < m'.context.date) :
    ∃ before after m₁ m₂, ts = before ++ .word "date" :: after ∧ Proceeds .core m before m₁
      ∧ m₁.context.date ≤ cutoff ∧ m₁.step .core (.word "date") = (.ok .proceed, m₂)
      ∧ cutoff < m₂.context.date := by
  induction h with
  | refl => exact absurd hpast (Date.not_lt.2 hm)
  | @more m m₁ m' t ts hs r ih =>
      by_cases hfirst : cutoff < m₁.context.date
      · have hmoved : (m.step .core t).2.context.date ≠ m.context.date := by
          rw [hs]
          exact fun he => Date.not_lt.2 hm (he ▸ hfirst)
        obtain rfl := (step_clock hmoved).1.token
        exact ⟨[], ts, m, m₁, rfl, .refl m, hm, hs, hfirst⟩
      · obtain ⟨before, after, m₂, m₃, rfl, hbefore, hrest⟩ := ih (Date.not_lt.1 hfirst) hpast
        exact ⟨t :: before, after, m₂, m₃, rfl, .more hs hbefore, hrest⟩

/-! ### One token under a cut-off -/

/-- What a call of `date` comes to under a cut-off. -/
theorem step_endingAfter_date (hsilent : m.silenced = false) (cutoff : Date) :
    m.step (.endingAfter cutoff) (.word "date")
      = match m.step .core (.word "date") with
        | (.ok signal, m') => (.ok (if cutoff < m'.context.date then .stop else signal), m')
        | (.error failure, m') => (.error failure, m') := by
  have hword : ("date" : String) ≠ silenceWord := by decide
  have hcore : Vocabulary.core "date" = some Words.date := rfl
  have hadded : Vocabulary.endingAfter cutoff "date" = some (Words.endingAfter cutoff Words.date) :=
    Vocabulary.core.add_self "date" _
  rw [step_word hsilent hword hadded, step_word hsilent hword hcore]
  simp only [Words.endingAfter, Word.stoppingWhen]
  rcases Words.date "date" m.desk with ⟨_ | signal, d⟩
  · rfl
  · by_cases hpast : cutoff < d.context.date <;> simp [hpast, withDesk]

/-- A cut-off makes no difference to a token that leaves the clock before it. -/
theorem step_endingAfter (h : ¬cutoff < (m.step .core t).2.context.date) :
    m.step (.endingAfter cutoff) t = m.step .core t := by
  by_cases ht : t = .word "date"
  · subst ht
    cases hsilent : m.silenced with
    | true =>
        simp only [step, call]
        rw [hsilent]
        rfl
    | false =>
        rw [step_endingAfter_date hsilent]
        rcases hs : m.step .core (.word "date") with ⟨_ | signal, m'⟩
        · rfl
        · rw [hs] at h
          dsimp only
          rw [if_neg h]
  · exact step_add_of_ne ht _

/-- The call of `date` that moves the clock past the cut-off stops the run. -/
theorem step_endingAfter_past (hm : m.context.date ≤ cutoff)
    (hs : m.step .core (.word "date") = (.ok .proceed, m')) (hpast : cutoff < m'.context.date) :
    m.step (.endingAfter cutoff) (.word "date") = (.ok .stop, m') := by
  have hmoved : (m.step .core (.word "date")).2.context.date ≠ m.context.date := by
    rw [hs]
    exact fun he => Date.not_lt.2 hm (he ▸ hpast)
  rw [step_endingAfter_date (step_clock hmoved).1.silent, hs]
  dsimp only
  rw [if_pos hpast]

theorem Proceeds.endingAfter {ts : List Token} (h : Proceeds .core m ts m')
    (hm' : m'.context.date ≤ cutoff) : Proceeds (.endingAfter cutoff) m ts m' := by
  induction h with
  | refl m => exact .refl m
  | @more m m₁ m' t ts hs r ih =>
      have hle : (m.step .core t).2.context.date ≤ cutoff := by
        rw [hs]
        exact Date.le_trans r.date_le hm'
      exact .more ((step_endingAfter (Date.not_lt.2 hle)).trans hs) (ih hm')

end Machine

/-! ### Readings under a cut-off -/

/-- The call of `date` in a reading that moves the clock past a date: the tokens before it and after it, and
the machine before and after the call. -/
structure Crosses (source : String) (cutoff : Date) (before after : List Token) (m m' : Machine Book) :
    Prop where
  tokens : (Lexer.ofString source).tokens = before ++ .word "date" :: after
  run : Machine.Proceeds .core (.start .empty) before m
  within : m.context.date ≤ cutoff
  step : m.step .core (.word "date") = (.ok .proceed, m')
  past : cutoff < m'.context.date

namespace Reader

variable {source : String} {cutoff : Date}

/-- **A cut-off that the clock does not pass makes no difference to a reading.** -/
theorem read_endingAfter (hcutoff : Date.zero ≤ cutoff)
    (h : ¬∃ before after m m', Crosses source cutoff before after m m') :
    (start source Book.empty).read id (.endingAfter cutoff) = (start source Book.empty).read id .core := by
  have hrun : Machine.run (.endingAfter cutoff) (.ofString source) (.start .empty)
      = Machine.run .core (.ofString source) (.start .empty) := by
    refine Machine.run_congr fun before t after m₁ hts r => Machine.step_endingAfter fun hpast => h ?_
    by_cases hm₁ : m₁.context.date ≤ cutoff
    · -- the token itself moves the clock past the cut-off
      have hmoved : (m₁.step .core t).2.context.date ≠ m₁.context.date := fun he =>
        Date.not_lt.2 hm₁ (he ▸ hpast)
      obtain ⟨hcalls, hproceed, -⟩ := Machine.step_clock hmoved
      obtain rfl := hcalls.token
      exact ⟨before, after, m₁, _, hts, r, hm₁, Prod.ext hproceed rfl, hpast⟩
    · obtain ⟨before', after', m₂, m₃, rfl, hbefore, hm₂, hs, hm₃⟩ :=
        r.exists_past hcutoff (Decidable.byContradiction fun hlt => hm₁ (Date.not_lt.1 hlt))
      refine ⟨before', after' ++ t :: after, m₂, m₃, ?_, hbefore, hm₂, hs, hm₃⟩
      rw [hts, List.append_assoc, List.cons_append]
  simp only [read, start]
  rw [hrun]

/-- **A reading stops at the call of `date` that moves the clock past the cut-off**, and reads no further. -/
theorem read_endingAfter_crosses {before after : List Token} {m m' : Machine Book}
    (h : Crosses source cutoff before after m m') :
    ∃ r, (start source Book.empty).read id (.endingAfter cutoff) = (.stopped, r)
      ∧ r.lexer.tokens = after ∧ r.machine = m' := by
  obtain ⟨l₁, hl₁, hrun₁⟩ := Machine.run_of_proceeds (h.run.endingAfter h.within) h.tokens
  obtain ⟨l₂, hnext, hl₂⟩ := Lexer.next_of_tokens hl₁
  have hrun : Machine.run (.endingAfter cutoff) (.ofString source) (.start .empty) = ⟨.stopped, l₂, m'⟩ := by
    rw [hrun₁, Machine.run_of_next hnext, Machine.step_endingAfter_past h.within h.step h.past]
  refine ⟨⟨l₂, m'⟩, ?_, hl₂, rfl⟩
  simp only [read, start]
  rw [hrun]

end Reader

namespace Book

/-! ### What is dated by a date -/

/-- All that is dated in a book, but for the clock, has a date no later than a given one. -/
structure DatedBy (b : Book) (date : Date) : Prop where
  registered : ∀ name d, b.registeredOn name = some d → d ≤ date
  opened : ∀ id, id < b.accounts.length → (b.account id).opened ≤ date
  closed : ∀ id d, (b.account id).closed = some d → d ≤ date
  entries : ∀ id lot c h, b.held id lot c = some h → h.opened ≤ date

variable {b b' : Book} {date : Date}

/-- In a book with its dates in order nothing is dated after the clock. -/
theorem Timely.datedBy (hb : Timely b) (h : b.date ≤ date) : b.DatedBy date where
  registered name d hd := Date.le_trans (hb.registered name d hd) h
  opened id hid := Date.le_trans (hb.accounts id hid).opened h
  closed id d hd := by
    have hid : id < b.accounts.length := lt_of_closed (by rw [hd]; exact Option.some_ne_none d)
    exact Date.le_trans ((hb.accounts id hid).closed d hd).2 h
  entries id lot c holding hh :=
    Date.le_trans ((hb.accounts id (lt_of_held hh)).entries lot c holding hh).clock h

/-- The clock dates nothing by moving on. -/
theorem DatedBy.advance {day : Date} (hb : b.DatedBy date) (h : b.advance day = .ok b') :
    b'.DatedBy date := by
  obtain ⟨-, rfl⟩ := advance_ok h
  exact ⟨hb.registered, hb.opened, hb.closed, hb.entries⟩

/-- What is dated is dated by then when the clock is moved past a date. -/
theorem datedBy_of_crosses {source : String} {before after : List Token} {m m' : Machine Book}
    (h : Crosses source date before after m m') : m'.context.DatedBy date := by
  have hbefore : (Book.after before).DatedBy date := by
    refine (timely_after before).datedBy ?_
    rw [after_eq, Machine.after, h.run.feed_eq]
    exact h.within
  have hmoved : (m.step .core (.word "date")).2.context.date ≠ m.context.date := by
    rw [h.step]
    exact fun he => Date.not_lt.2 h.within (he ▸ h.past)
  obtain ⟨-, -, day, hday⟩ := Machine.step_clock hmoved
  rw [h.step] at hday
  rw [after_eq, Machine.after, h.run.feed_eq] at hbefore
  exact hbefore.advance hday

/-- **A run that is cut off is the beginning of the full run.**  With any number of cut-off dates, one around
the other, the earliest one counts.  If no call of `date` in the full reading moves the clock past it, the
reading comes to what the full one comes to.  Otherwise it stops at the call that does, with the machine that
the full reading has after that call, and without having read any further; and all that is dated in the book
is dated by the cut-off, while the clock is past it. -/
theorem cut_off (source : String) {cutoffs : List Date} (hsome : cutoffs ≠ [])
    (hread : ∀ c ∈ cutoffs, ∃ s, Date.read s = .ok c) :
    ∃ earliest ∈ cutoffs, (∀ c ∈ cutoffs, earliest ≤ c)
      ∧ ((¬∃ before after m m', Crosses source earliest before after m m') →
          (Reader.start source Book.empty).read id (.cutOff cutoffs)
            = (Reader.start source Book.empty).read id .core)
      ∧ ∀ before after m m', Crosses source earliest before after m m' →
          ∃ r, (Reader.start source Book.empty).read id (.cutOff cutoffs) = (.stopped, r)
            ∧ r.lexer.tokens = after ∧ r.machine = m'
            ∧ m'.context.DatedBy earliest ∧ earliest < m'.context.date := by
  obtain ⟨earliest, hmem, hle⟩ := Date.exists_earliest hsome
  have hv : Vocabulary.cutOff cutoffs = .endingAfter earliest :=
    congrArg (Vocabulary.core.add "date") (Words.cutOff_eq hmem hle)
  obtain ⟨s, hs⟩ := hread earliest hmem
  rw [hv]
  refine ⟨earliest, hmem, hle, Reader.read_endingAfter (.inl (Date.zero_lt_of_read hs)), ?_⟩
  intro before after m m' h
  obtain ⟨r, hr, hlexer, hmachine⟩ := Reader.read_endingAfter_crosses h
  exact ⟨r, hr, hlexer, hmachine, datedBy_of_crosses h, h.past⟩

/-- A source that goes on after a cut-off date, and fails there. -/
def overrunning : String := "2024 1 5 date U d commodity Assets:A open 2024 7 1 date )"

/-- With the earlier of two cut-offs the reading stops before the failure, and all is dated in January. -/
theorem cut_off_overrunning :
    ((Reader.start overrunning Book.empty).read id .core).1
        = .failed ⟨1, .scoping .unmatchedClosing, some ⟨2024, 7, 1⟩⟩
      ∧ ∃ r, (Reader.start overrunning Book.empty).read id (.cutOff [⟨2025, 1, 1⟩, ⟨2024, 6, 30⟩])
          = (.stopped, r)
        ∧ r.lexer.tokens = [.closing] ∧ r.machine.context.DatedBy ⟨2024, 6, 30⟩
        ∧ r.machine.context.date = ⟨2024, 7, 1⟩ := by
  have hyear : Date.read "2025-01-01" = .ok ⟨2025, 1, 1⟩ := by decide +kernel
  have hweek : Date.read "2024-W26-7" = .ok ⟨2024, 6, 30⟩ := by decide +kernel
  have hread : ∀ c ∈ [(⟨2025, 1, 1⟩ : Date), ⟨2024, 6, 30⟩], ∃ s, Date.read s = .ok c :=
    List.forall_mem_cons.2 ⟨⟨_, hyear⟩, List.forall_mem_cons.2 ⟨⟨_, hweek⟩, List.forall_mem_nil _⟩⟩
  obtain ⟨earliest, hmem, hle, -, hstops⟩ := cut_off overrunning (List.cons_ne_nil _ _) hread
  obtain rfl : earliest = ⟨2024, 6, 30⟩ := by
    have hjune : earliest ≤ ⟨2024, 6, 30⟩ := hle _ (by decide)
    rcases List.mem_cons.1 hmem with rfl | hmem
    · exact absurd hjune (by decide)
    · exact List.mem_singleton.1 hmem
  let before : List Token :=
    ["2024", "1", "5", "date", "U", "d", "commodity", "Assets:A", "open", "2024", "7", "1"].map .word
  have hproceeds : Machine.Proceeds .core (.start .empty) before (Machine.after before) :=
    Machine.proceeds_feed_iff.2 (by decide +kernel)
  have hcrosses : Crosses overrunning ⟨2024, 6, 30⟩ before [.closing] (Machine.after before)
      (Machine.after (before ++ [.word "date"])) :=
    ⟨by decide +kernel, hproceeds, by decide +kernel, Prod.ext (by decide +kernel) rfl, by decide +kernel⟩
  obtain ⟨r, hr, hlexer, hmachine, hdated, -⟩ := hstops _ _ _ _ hcrosses
  refine ⟨by decide +kernel, r, hr, hlexer, hmachine ▸ hdated, ?_⟩
  rw [hmachine]
  decide +kernel

end Book

end Daybook
