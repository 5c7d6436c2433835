import Daybook.Proofs.Exceeding

/-!
# Reporting — readings that end with a report

A reading completes, or it fails and says where and why, unless a call leaves the range of numbers: then it
ends without a report.  No core word stops a reading.

* `step_exceeded_iff`: a token leaves the range when it calls a word that does.
* `ofSource_reports_iff`: **a reading completes or fails with a report just when no call that it comes to
  leaves the range of numbers**.
* `ofSource_unreported`: a date, a sum and a difference of amounts that do.
-/

namespace Daybook

/-! ### One token -/

namespace Machine

variable {m : Machine Book} {t : Token}

/-- No token stops a run. -/
theorem step_ne_stop : (m.step .core t).1 ≠ .ok .stop :=
  step_ne nofun nofun fun _ _ hw d => Words.core_ne_stop (Vocabulary.core_mem hw) d

/-- A token leaves the range when it calls a word that does. -/
theorem step_exceeded_iff {e : Excess} :
    (m.step .core t).1 = .error (.exceeded e)
      ↔ ∃ s, t = .word s ∧ m.silenced = false ∧ Exceeds s m.desk e := by
  constructor
  · intro hexceeded
    by_cases h : ∃ s w, m.Calls t s w
    · obtain ⟨s, w, hcalls⟩ := h
      rw [hcalls.step_eq] at hexceeded
      exact ⟨s, hcalls.token, hcalls.silent, (Vocabulary.core_exceeded_iff hcalls.word).1 hexceeded⟩
    · rcases (step_of_not_calls h).2 with hstep | ⟨e, hstep⟩
      · rw [hstep] at hexceeded
        cases hexceeded
      · rw [hstep] at hexceeded
        cases hexceeded
  · rintro ⟨s, htoken, hsilent, hs⟩
    obtain ⟨w, hw, hexceeded⟩ := hs.called
    rw [Calls.step_eq ⟨htoken, hsilent, hw⟩]
    exact hexceeded

end Machine

/-! ### A whole reading -/

namespace Book

/-- A reading comes to a call that leaves the range of numbers. -/
def LeavesRange (source : String) (e : Excess) : Prop :=
  ∃ before s after m, (Lexer.ofString source).tokens = before ++ .word s :: after
    ∧ Machine.Proceeds .core (.start .empty) before m ∧ m.silenced = false ∧ Exceeds s m.desk e

/-- No reading is stopped. -/
theorem ofSource_ne_stopped (source : String) : (ofSource source).1 ≠ .stopped := by
  intro h
  have hends := Machine.run_ends .core (.ofString source) (.start empty)
  have hstopped : (Machine.run .core (.ofString source) (.start empty)).outcome = .stopped :=
    (Reader.read_eq_iff (by simp) (by simp)).1 h
  rw [hstopped] at hends
  cases hends with
  | stopped hts r hs => exact Machine.step_ne_stop (congrArg Prod.fst hs)

/-- A reading leaves the range when it comes to a call that does. -/
theorem ofSource_exceeded_iff {source : String} {e : Excess} :
    (ofSource source).1 = .exceeded e ↔ LeavesRange source e := by
  refine ((Reader.read_eq_iff (by simp) (by simp)).trans Machine.run_exceeded_iff).trans ?_
  constructor
  · rintro ⟨before, t, after, m, hts, r, hs⟩
    obtain ⟨s, rfl, hsilent, hexceeds⟩ := Machine.step_exceeded_iff.1 hs
    exact ⟨before, s, after, m, hts, r, hsilent, hexceeds⟩
  · rintro ⟨before, s, after, m, hts, r, hsilent, hexceeds⟩
    exact ⟨before, .word s, after, m, hts, r, Machine.step_exceeded_iff.2 ⟨s, rfl, hsilent, hexceeds⟩⟩

/-- **A reading completes or fails with a report just when no call that it comes to leaves the range of
numbers.**  Otherwise it ends without a report. -/
theorem ofSource_reports_iff (source : String) :
    ((ofSource source).1 = .completed ∨ (∃ report, (ofSource source).1 = .failed report)
        ↔ ∀ e, ¬LeavesRange source e)
      ∧ ∀ e, (ofSource source).1 = .exceeded e ↔ LeavesRange source e := by
  refine ⟨?_, fun e => ofSource_exceeded_iff⟩
  simp only [← ofSource_exceeded_iff]
  have hstopped := ofSource_ne_stopped source
  generalize (ofSource source).1 = outcome at hstopped ⊢
  cases outcome with
  | completed => exact iff_of_true (.inl rfl) fun _ h => (by cases h)
  | stopped => exact absurd rfl hstopped
  | failed report => exact iff_of_true (.inr ⟨report, rfl⟩) fun _ h => (by cases h)
  | exceeded excess =>
      refine iff_of_false ?_ fun h => h excess rfl
      rintro (h | ⟨report, h⟩)
      · cases h
      · cases h

/-- Sources of which a date, a sum of transfers and the difference of an assertion leave the range. -/
def beyondRange : List String :=
  ["2147483648 1 1 date",
   "(U d commodity) (Assets:A open) X y Assets:A 9E999999 U xfer Assets:A 9E999999 U xfer xact",
   "(U d commodity) (Assets:A open) (Assets:B open) X y Assets:A 9E999999 U xfer
     Assets:B -9E999999 U xfer xact Assets:A -9E999999 U assert"]

/-- None of them completes or fails with a report. -/
theorem ofSource_unreported :
    beyondRange.map (fun source => (ofSource source).1)
        = [.exceeded .date, .exceeded .amount, .exceeded .amount]
      ∧ ∀ source ∈ beyondRange,
          ¬((ofSource source).1 = .completed ∨ ∃ report, (ofSource source).1 = .failed report) := by
  have houtcomes : beyondRange.map (fun source => (ofSource source).1)
      = [.exceeded .date, .exceeded .amount, .exceeded .amount] := by decide +kernel
  refine ⟨houtcomes, fun source hsource h => ?_⟩
  have hmem := List.mem_map_of_mem (f := fun source => (ofSource source).1) hsource
  rw [houtcomes] at hmem
  rcases h with h | ⟨report, h⟩
  · rw [h] at hmem
    simp at hmem
  · rw [h] at hmem
    simp at hmem

end Book

end Daybook
