import Daybook.Proofs.Exceeding
import Daybook.Proofs.Handling
import Daybook.Proofs.Replay
import Daybook.Proofs.Unchanged

/-!
# History — the lots that a run leaves

A run keeps its log by the calls that go through: `xact` enters the postings of the transfers that lie
ready, on the date of the clock, and `close-lot` enters the closing of its lot.  Nothing else touches lots,
unless a transaction breaks off because an amount leaves the range.

* `Machine.entries`, `Machine.log`: what tokens enter in the log.
* `Machine.step_replays`, `Machine.feed_replays`: **the lots stay the replay of the log**.
* `core_keeps_balances`: what is no transaction, or one that is refused, leaves every balance as it is,
  and closing a lot takes away zeros.
* `lots_replayed`: both, and that a transaction touches nothing but lots.
-/

namespace Daybook

/-! ### What a call enters -/

/-- What a call enters in the log, by the name under which it is made and what comes of it. -/
def Desk.entries (d : Desk Book) (name : String) : Except Failure Signal → List Entry
  | .error _ => []
  | .ok _ =>
    if name = "xact" then
      d.operands.ready.map fun id => .posting (d.context.transfer id) d.context.date
    else if name = "close-lot" then
      match d.operands with
      | .text lot :: .text account :: _ => (d.context.current? account).toList.map (.closing · lot)
      | _ => []
    else []

theorem Desk.entries_of_ne {d : Desk Book} {name : String} {r : Except Failure Signal}
    (hx : name ≠ "xact") (hc : name ≠ "close-lot") : d.entries name r = [] := by
  cases r with
  | error failure => rfl
  | ok signal => rw [entries, if_neg hx, if_neg hc]

section

variable {name : String} {w : Word Book} {d d' : Desk Book} {r : Except Failure Signal}

/-- A transaction goes through or leaves the range, or the closing of a lot goes through, or no lot is
touched and nothing is entered. -/
theorem Vocabulary.core_touches (hw : Vocabulary.core name = some w) (h : w name d = (r, d')) :
    (∃ signal, r = .ok signal ∧ name = "xact" ∧ w = Words.transact)
      ∨ (r = .error (.exceeded .amount) ∧ name = "xact")
      ∨ (∃ signal, r = .ok signal ∧ name = "close-lot" ∧ w = Words.closeLot)
      ∨ d'.context.lots = d.context.lots ∧ d.entries name r = [] := by
  by_cases hx : name = "xact"
  · subst hx
    obtain rfl : Words.transact = w := Option.some.inj hw
    cases r with
    | ok signal => exact .inl ⟨signal, rfl, rfl, rfl⟩
    | error failure =>
        cases failure with
        | failed cause =>
            refine .inr (.inr (.inr ⟨?_, rfl⟩))
            rw [(Words.transact_failed h).1]
        | exceeded e =>
            obtain ⟨rfl, -⟩ := Words.transact_exceeded_iff.1 (congrArg Prod.fst h)
            exact .inr (.inl ⟨rfl, rfl⟩)
  by_cases hc : name = "close-lot"
  · subst hc
    obtain rfl : Words.closeLot = w := Option.some.inj hw
    cases r with
    | ok signal => exact .inr (.inr (.inl ⟨signal, rfl, rfl, rfl⟩))
    | error failure =>
        refine .inr (.inr (.inr ⟨?_, rfl⟩))
        rw [(Words.whole_closeLot _ _ _ _ h).1]
  · refine .inr (.inr (.inr ⟨?_, Desk.entries_of_ne hx hc⟩))
    rcases Words.core_keeps_lots (Vocabulary.core_mem hw) with ⟨h', -⟩ | ⟨h', -⟩ | hkeeps
    · exact absurd h' hx
    · exact absurd h' hc
    · exact hkeeps _ _ _ _ h

/-- A call enters what it does to lots. -/
theorem Vocabulary.core_replays (hw : Vocabulary.core name = some w) (h : w name d = (r, d'))
    (hr : r ≠ .error (.exceeded .amount)) {log : List Entry} (hd : Replays log d.context) :
    Replays (log ++ d.entries name r) d'.context := by
  rcases core_touches hw h with
    ⟨signal, rfl, rfl, rfl⟩ | ⟨rfl, -⟩ | ⟨signal, rfl, rfl, rfl⟩ | ⟨hlots, hnone⟩
  · obtain ⟨o, rest, x, b, htake, hx, hb, rfl⟩ := Words.transact_ok h
    have happly := hd.apply hb
    rw [Words.transfers_draftTransaction hx, List.map_map] at happly
    rw [Desk.entries, if_pos rfl, Operands.ready_of_ok htake]
    exact happly
  · exact absurd rfl hr
  · obtain ⟨account, lot, id, l, rest, hops, hid, hlot, -, -, rfl⟩ := Words.closeLot_ok h
    have hentries : d.entries "close-lot" (.ok signal) = [.closing id lot] := by
      rw [Desk.entries, if_neg (by decide), if_pos rfl, hops]
      dsimp only
      rw [(Book.findOpen_eq_ok_iff.1 hid).1]
      rfl
    rw [hentries]
    exact hd.closeLot (Book.lt_of_findOpen hid) hlot
  · rw [hnone, List.append_nil]
    exact hd.congr hlots

/-- What is no transaction, or one that is refused, leaves every balance as it is, but for the zeros of a
lot that is closed. -/
theorem Vocabulary.core_keeps_balances (hw : Vocabulary.core name = some w) (h : w name d = (r, d'))
    (hx : name = "xact" → ∃ cause, r = .error (.failed cause))
    (id : AccountId) (lot c : String) :
    d'.context.balanceOf id lot c = d.context.balanceOf id lot c
      ∨ name = "close-lot" ∧ d'.context.balanceOf id lot c = none
        ∧ ∃ zero, d.context.balanceOf id lot c = some zero ∧ zero.isZero = true := by
  rcases core_touches hw h with
    ⟨signal, rfl, rfl, -⟩ | ⟨rfl, rfl⟩ | ⟨signal, rfl, rfl, rfl⟩ | ⟨hlots, -⟩
  · obtain ⟨cause, hr⟩ := hx rfl
    cases hr
  · obtain ⟨cause, hr⟩ := hx rfl
    cases hr
  · obtain ⟨account, l, i, held, rest, -, hid, -, hl, hz, rfl⟩ := Words.closeLot_ok h
    simp only [Book.balanceOf, Book.held_eq]
    rw [Book.get?_lots_closeLot (Book.lt_of_findOpen hid)]
    by_cases hk : id = i ∧ lot = l
    · rw [if_pos hk]
      obtain ⟨rfl, rfl⟩ := hk
      rw [show (d.context.lots id).get? lot = some held from hl]
      cases hc : held.get? c with
      | none => exact .inl (by simp [hc])
      | some holding =>
          exact .inr ⟨trivial, rfl, holding.balance.amount, by simp [hc],
            hz holding (Table.mem_values_of_get? hc)⟩
    · rw [if_neg hk]
      exact .inl rfl
  · refine .inl ?_
    simp only [Book.balanceOf, Book.held_eq]
    rw [hlots]

end

/-! ### What tokens enter -/

namespace Machine

/-- What a token enters in the log. -/
def entries (m : Machine Book) : Token → List Entry
  | .word s => if m.silenced then [] else m.desk.entries s (m.step .core (.word s)).1
  | _ => []

/-- What tokens enter in the log, whatever comes of each. -/
def log (m : Machine Book) : List Token → List Entry
  | [] => []
  | t :: ts => m.entries t ++ log (m.step .core t).2 ts

/-- No token brings an amount out of range. -/
def InRange (m : Machine Book) : List Token → Prop
  | [] => True
  | t :: ts => (m.step .core t).1 ≠ .error (.exceeded .amount) ∧ InRange (m.step .core t).2 ts

instance decidableInRange : ∀ (m : Machine Book) (ts : List Token), Decidable (m.InRange ts)
  | _, [] => inferInstanceAs (Decidable True)
  | m, t :: ts =>
    have := decidableInRange (m.step .core t).2 ts
    inferInstanceAs (Decidable (_ ∧ _))

theorem Calls.entries_eq {m : Machine Book} {t : Token} {s : String} {w : Word Book}
    (h : m.Calls t s w) : m.entries t = m.desk.entries s (m.step .core t).1 := by
  obtain ⟨rfl, hsilent, -⟩ := h
  rw [Machine.entries, if_neg (by simp [hsilent])]

theorem entries_of_not_calls {m : Machine Book} {t : Token} (h : ¬∃ s w, m.Calls t s w) :
    m.entries t = [] := by
  cases t with
  | word s =>
      simp only [Machine.entries]
      split
      · rfl
      next hsilent =>
      -- a word that enters something is a core word
      refine Desk.entries_of_ne ?_ ?_
      · rintro rfl
        exact h ⟨"xact", Words.transact, rfl, by simpa using hsilent, rfl⟩
      · rintro rfl
        exact h ⟨"close-lot", Words.closeLot, rfl, by simpa using hsilent, rfl⟩
  | quoted s => rfl
  | opening => rfl
  | closing => rfl

/-- A token enters what it does to lots. -/
theorem step_replays {m : Machine Book} {t : Token} {log : List Entry} (h : Replays log m.context)
    (hr : (m.step .core t).1 ≠ .error (.exceeded .amount)) :
    Replays (log ++ m.entries t) (m.step .core t).2.context := by
  by_cases hcalls : ∃ s w, m.Calls t s w
  · obtain ⟨s, w, hcalls⟩ := hcalls
    rw [hcalls.entries_eq]
    rw [hcalls.step_eq] at hr ⊢
    exact Vocabulary.core_replays hcalls.word rfl hr h
  · rw [entries_of_not_calls hcalls, (step_of_not_calls hcalls).1, List.append_nil]
    exact h

/-- **The lots stay the replay of the log.** -/
theorem feed_replays {m : Machine Book} {log : List Entry} (ts : List Token)
    (h : Replays log m.context) (hr : m.InRange ts) :
    Replays (log ++ m.log ts) (m.feed .core ts).context := by
  induction ts generalizing m log with
  | nil =>
      rw [Machine.log, List.append_nil]
      exact h
  | cons t ts ih =>
      rw [Machine.log, ← List.append_assoc]
      exact ih (step_replays h hr.1) hr.2

end Machine

/-! ### The lots of a run -/

/-- **The lots of a book are the replay of the transfers that were applied and the lots that were
closed**, as long as no amount leaves the range.  No other word, and no refused transaction, changes a
balance; and a transaction changes nothing but lots. -/
theorem Book.lots_replayed :
    (∀ ts : List Token, (Machine.start .empty).InRange ts →
        Replays ((Machine.start .empty).log ts) (after ts))
      ∧ (∀ name w, Vocabulary.core name = some w → ∀ d : Desk Book,
          (name = "xact" → ∃ cause, (w name d).1 = .error (.failed cause)) → ∀ id lot c,
            (w name d).2.context.balanceOf id lot c = d.context.balanceOf id lot c
              ∨ name = "close-lot" ∧ (w name d).2.context.balanceOf id lot c = none
                ∧ ∃ zero, d.context.balanceOf id lot c = some zero ∧ zero.isZero = true)
      ∧ ∀ d : Desk Book, (Words.transact "xact" d).2.context.unlotted = d.context.unlotted :=
  ⟨fun ts hr => Machine.feed_replays ts Replays.empty hr,
    fun _ _ hw _ hx => Vocabulary.core_keeps_balances hw rfl hx,
    fun d => Words.transact_keeps_unlotted "xact" d _ _ rfl⟩

/-- A run in which a lot is closed, and created again by a later transaction of three transfers. -/
def Book.recreated : List Token :=
  ["U", "d", "commodity", "Equity", "open", "2024", "1", "1", "date",
    "x", "y", "Equity", "5", "U", "xfer", "L", "create-lot", "Equity", "-5", "U", "xfer", "xact",
    "x", "y", "Equity", "-5", "U", "xfer", "L", "lot", "Equity", "5", "U", "xfer", "xact",
    "Equity", "L", "close-lot", "2024", "2", "1", "date",
    "x", "y", "Equity", "7", "U", "xfer", "L", "create-lot", "Equity", "-3", "U", "xfer", "L",
    "create-lot", "Equity", "-4", "U", "xfer", "xact"].map .word

/-- Of the four transfers into the lot, the last two count. -/
theorem Book.lots_replayed_recreated :
    (Machine.start .empty).InRange recreated
      ∧ Replays ((Machine.start .empty).log recreated) (after recreated)
      ∧ (Entry.postingsOf 0 "L" "U" ((Machine.start .empty).log recreated)).map
          (fun p => (p.1.quantity.amount, p.2))
        = [(⟨false, 7, 0⟩, ⟨2024, 2, 1⟩), (⟨true, 3, 0⟩, ⟨2024, 2, 1⟩)]
      ∧ (after recreated).held 0 "L" "U" = some ⟨"L", ⟨2024, 2, 1⟩, ⟨⟨false, 4, 0⟩, "U"⟩, none⟩
      ∧ (Words.transact "xact" ⟨[], .empty⟩).1
        = .error (.failed (.refused ⟨some "xact", .operands .noEntity⟩))
      ∧ (Words.transact "xact" ⟨[], .empty⟩).2.context.balanceOf 0 "L" "U" = none := by
  have hrange : (Machine.start .empty).InRange recreated := by decide +kernel
  have hrefused : (Words.transact "xact" ⟨[], .empty⟩).1
      = .error (.failed (.refused ⟨some "xact", .operands .noEntity⟩)) := rfl
  refine ⟨hrange, lots_replayed.1 _ hrange, by decide +kernel, by decide +kernel, hrefused, ?_⟩
  have hbalances := lots_replayed.2.1 "xact" Words.transact rfl ⟨[], .empty⟩
    (fun _ => ⟨_, hrefused⟩) 0 "L" "U"
  rcases hbalances with h | ⟨h, -⟩
  · exact h
  · exact absurd h (by decide)

end Daybook
