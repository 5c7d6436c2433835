import Daybook.Proofs.Calls

/-!
# Openings — which names are open

A name is opened and closed in turn.  The roster of a book, which has the name of each account and the date
of its closing, changes in these calls only.

* `openings`: the log of what was opened and closed.
* `Effect.roster`: **only `open` and `close` touch the roster**.
* `unclosed_iff`: a name is open when its last entry in the log is an opening.
* `mem_openNames_iff`, `names_openAccounts`: the names that are listed.
-/

namespace Daybook

/-! ### The log of openings -/

/-- An account was opened or closed, by its name. -/
inductive Opening where
  | opened (name : String)
  | closed (name : String)
  deriving DecidableEq, Repr

/-- The name that was opened or closed. -/
def Opening.name : Opening → String
  | .opened name => name
  | .closed name => name

/-- What a call opens or closes. -/
def Call.openings (c : Call) : List Opening :=
  if c.name = "open" then c.desk.operands.topTexts.head?.toList.map .opened
  else if c.name = "close" then
    match c.desk.operands with
    | .text name :: _ => [.closed name]
    | _ => []
  else []

theorem Call.openings_of_notMem {s : String} (hs : s ∉ ["open", "close"]) (d : Desk Book) :
    openings ⟨s, d⟩ = [] := by
  simp only [List.mem_cons, not_or] at hs
  obtain ⟨ho, hc, -⟩ := hs
  rw [openings, if_neg ho, if_neg hc]

namespace Book

/-- What the calls of a run have opened and closed. -/
def openings (ts : List Token) : List Opening := logOf Call.openings ts

/-! ### The roster -/

/-- The name of each account and the date of its closing. -/
def roster (b : Book) : List (String × Option Date) := b.accounts.map fun a => (a.name, a.closed)

/-- What shows the names and closings of accounts shows the roster. -/
theorem roster_of_map (view : Account → Account)
    (hview : ∀ a, ((view a).name, (view a).closed) = (a.name, a.closed)) {b b' : Book}
    (h : b'.accounts.map view = b.accounts.map view) : b'.roster = b.roster := by
  have hs := congrArg (List.map fun a => (a.name, a.closed)) h
  rw [List.map_map, List.map_map] at hs
  have hcomp : (fun a : Account => (a.name, a.closed)) ∘ view = fun a => (a.name, a.closed) :=
    funext hview
  rwa [hcomp] at hs

theorem Quiet.roster {b b' : Book} (h : b.Quiet b') : b'.roster = b.roster :=
  roster_of_map Account.unmarked (fun _ => rfl) h.accounts

theorem roster_of_unlotted {b b' : Book} (h : b'.unlotted = b.unlotted) : b'.roster = b.roster := by
  refine roster_of_map (fun a => { a with lots := ∅ }) ?_ (congrArg Book.accounts h)
  exact fun _ => rfl

theorem roster_update {f : Account → Account} (hname : ∀ a, (f a).name = a.name)
    (hclosed : ∀ a, (f a).closed = a.closed) (b : Book) (id : AccountId) :
    (b.updateAccount id f).roster = b.roster :=
  map_modify_of_eq (fun a => Prod.ext (hname a) (hclosed a)) b.accounts id

end Book

/-- **Only `open` and `close` touch the roster**: a call opens a name, or closes one, or leaves the roster
as it is. -/
theorem Effect.roster {s : String} {d d' : Desk Book} (h : Effect s d d') :
    (∃ name allowed, Call.openings ⟨s, d⟩ = [.opened name]
        ∧ d.context.openAccount name allowed = .ok d'.context)
      ∨ (∃ name id, Call.openings ⟨s, d⟩ = [.closed name] ∧ d.context.findOpen name = .ok id
        ∧ d'.context = d.context.closeAccount id)
      ∨ Call.openings ⟨s, d⟩ = [] ∧ d'.context.roster = d.context.roster := by
  have hnone : ∀ {s : String}, s ∉ ["open", "close"] → Call.openings ⟨s, d⟩ = [] := fun hs =>
    Call.openings_of_notMem hs d
  cases h with
  | advanced _ hb =>
      obtain ⟨-, rfl⟩ := Book.advance_ok hb
      exact .inr (.inr ⟨hnone (by decide), rfl⟩)
  | registered hb =>
      exact .inr (.inr ⟨hnone (by decide), (Book.quiet_register hb).roster⟩)
  | @opened name allowed _ _ _ hops _ _ hb =>
      refine .inl ⟨name, allowed, ?_, hb⟩
      rw [Call.openings, if_pos rfl]
      show List.map _ (Operands.topTexts _).head?.toList = _
      rw [hops]
      rfl
  | closed hid _ => exact .inr (.inl ⟨_, _, rfl, hid, rfl⟩)
  | lotClosed =>
      refine .inr (.inr ⟨hnone (by decide), ?_⟩)
      refine Book.roster_update ?_ ?_ _ _
      · exact fun _ => rfl
      · exact fun _ => rfl
  | annotated =>
      exact .inr (.inr ⟨hnone (by decide),
        (Book.Quiet.foldl (fun b _ => b.quiet_annotate _ _ _) _ _).roster⟩)
  | tagged =>
      exact .inr (.inr ⟨hnone (by decide),
        (Book.Quiet.foldl (fun b tag => b.quiet_tag _ tag) _ _).roster⟩)
  | taggedCommodity =>
      exact .inr (.inr ⟨hnone (by decide),
        (Book.Quiet.foldl (fun b tag => b.quiet_tag _ tag) _ _).roster⟩)
  | untagged =>
      exact .inr (.inr ⟨hnone (by decide),
        (Book.Quiet.foldl (fun b tag => b.quiet_untag _ tag) _ _).roster⟩)
  | @drafted s _ _ _ _ hs =>
      have hnot : ∀ s ∈ ["xfer", "xfer-exch"], s ∉ ["open", "close"] := by decide
      exact .inr (.inr ⟨hnone (hnot s hs), rfl⟩)
  | bound => exact .inr (.inr ⟨hnone (by decide), rfl⟩)
  | boundNew => exact .inr (.inr ⟨hnone (by decide), rfl⟩)
  | commented => exact .inr (.inr ⟨hnone (by decide), rfl⟩)
  | applied _ _ hb =>
      exact .inr (.inr ⟨hnone (by decide), Book.roster_of_unlotted (Book.unlotted_apply hb)⟩)
  | @judged s _ _ _ hs =>
      have hnot : ∀ s ∈ ["assert", "assert-lot", "assert-lots-sum", "comment"], s ∉ ["open", "close"] := by
        decide
      exact .inr (.inr ⟨hnone (hnot s hs), rfl⟩)

namespace Book

/-! ### Names that are open -/

/-- A name stands for an account that has not been closed. -/
def Unclosed (b : Book) (name : String) : Prop :=
  ∃ id, b.current? name = some id ∧ (b.account id).closed = none

/-- It shows in the roster which names are open. -/
theorem unclosed_congr {b b' : Book} (h : b'.roster = b.roster) (name : String) :
    b'.Unclosed name ↔ b.Unclosed name := by
  have hcurrent : b'.current? name = b.current? name := by
    refine lastNamed_congr ?_ name
    have hn := congrArg (List.map Prod.fst) h
    simp only [roster] at hn
    rwa [List.map_map, List.map_map] at hn
  have hclosed : ∀ id, (b'.account id).closed = (b.account id).closed := fun id => by
    have hd := congrArg (fun l => (l.getD id ((default : Account).name, (default : Account).closed)).2) h
    simp only [roster] at hd
    rwa [List.getD_map, List.getD_map] at hd
  simp only [Unclosed]
  rw [hcurrent]
  exact exists_congr fun id => by rw [hclosed]

theorem unclosed_opening {b : Book} {name : String} {allowed : List String} (n : String) :
    (b.opening name allowed).Unclosed n ↔ name = n ∨ b.Unclosed n := by
  simp only [Unclosed]
  rw [current?_opening]
  by_cases hn : name = n
  · rw [if_pos hn]
    refine iff_of_true ⟨_, rfl, ?_⟩ (.inl hn)
    rw [account_opening, if_pos rfl]
    rfl
  · rw [if_neg hn, or_iff_right hn]
    refine exists_congr fun id => and_congr_right fun hid => ?_
    rw [account_opening, if_neg (Nat.ne_of_lt (lastNamed_lt hid))]

theorem unclosed_closeAccount {b : Book} {name : String} {id : AccountId}
    (hid : b.findOpen name = .ok id) (n : String) :
    (b.closeAccount id).Unclosed n ↔ name ≠ n ∧ b.Unclosed n := by
  have haccount := account_closeAccount (lt_of_findOpen hid)
  have hcurrent : (b.closeAccount id).current? n = b.current? n :=
    lastNamed_congr (map_modify_of_eq (g := (·.name)) (f := fun a => { a with closed := some b.date })
      (fun _ => rfl) b.accounts id) n
  have hname := (findOpen_eq_ok_iff.1 hid).1
  simp only [Unclosed]
  rw [hcurrent]
  by_cases hn : name = n
  · -- the account of the name is the one that was closed
    refine iff_of_false ?_ fun h => h.1 hn
    rintro ⟨i, hi, hnone⟩
    rw [← hn, hname] at hi
    cases hi
    rw [haccount, if_pos rfl] at hnone
    cases hnone
  · rw [and_iff_right hn]
    refine exists_congr fun i => and_congr_right fun hi => ?_
    have hne : i ≠ id := by
      rintro rfl
      exact hn ((name_of_lastNamed hname).symm.trans (name_of_lastNamed hi))
    rw [haccount, if_neg hne]

/-- A name is open when its last entry in the log is an opening. -/
theorem unclosed_iff (ts : List Token) (name : String) :
    (after ts).Unclosed name
      ↔ lastOf (fun o => o.name == name) (openings ts) = some (.opened name) := by
  refine after_recorded Call.openings
    (fun log b => ∀ n, b.Unclosed n ↔ lastOf (fun o => o.name == n) log = some (.opened n))
    (I := fun _ => True) trivial (fun _ _ _ => trivial) ?_ ?_ ?_ ts name
  · -- each call that touches the roster adds the entry that says what it does
    intro m s d log _ he hlog n
    rcases he.roster with ⟨name, allowed, hentries, hb⟩ | ⟨name, id, hentries, hid, hb⟩ | ⟨hentries, hb⟩
    · obtain ⟨-, hb⟩ := openAccount_ok hb
      rw [hb, unclosed_opening, hlog n, hentries, lastOf_concat]
      by_cases hn : name = n
      · simp [Opening.name, hn]
      · simp [Opening.name, hn]
    · rw [hb, unclosed_closeAccount hid, hlog n, hentries, lastOf_concat]
      by_cases hn : name = n
      · simp [Opening.name, hn]
      · simp [Opening.name, hn]
    · rw [hentries, List.append_nil, unclosed_congr hb n]
      exact hlog n
  · exact fun log b b' hb hlog n => (unclosed_congr (roster_of_unlotted hb) n).trans (hlog n)
  · exact fun n => iff_of_false (fun ⟨_, h, _⟩ => by cases h) (fun h => by cases h)

/-! ### Names that are listed -/

theorem mem_openNames_iff {b : Book} {name : String} :
    name ∈ b.openNames ↔ ∃ id, b.current? name = some id ∧ b.isClosed id = false := by
  simp only [openNames]
  rw [List.mem_filter]
  constructor
  · rintro ⟨-, h⟩
    obtain ⟨id, hid, ho⟩ := (Option.any_eq_true _ _).1 h
    exact ⟨id, hid, by simpa using ho⟩
  · rintro ⟨id, hid, ho⟩
    refine ⟨?_, (Option.any_eq_true _ _).2 ⟨id, hid, by rw [ho]; rfl⟩⟩
    have hlt := lastNamed_lt hid
    have hname : (b.accounts.getD id default).name = name := name_of_lastNamed hid
    rw [List.getD_eq_getElem _ _ hlt] at hname
    exact NameSet.mem_names_ofList.2 (List.mem_map.2 ⟨_, List.getElem_mem hlt, hname⟩)

/-- The open accounts are listed by name. -/
theorem names_openAccounts (b : Book) : b.openAccounts.map (·.name) = b.openNames := by
  have hnames : ∀ names : List String, (∀ name ∈ names, (b.current? name).isSome = true) →
      ((names.filterMap b.current?).map b.account).map (·.name) = names := by
    intro names h
    induction names with
    | nil => rfl
    | cons name names ih =>
        obtain ⟨hname, hnames⟩ := List.forall_mem_cons.1 h
        obtain ⟨id, hid⟩ := Option.isSome_iff_exists.1 hname
        rw [List.filterMap_cons_some hid, List.map_cons, List.map_cons, ih hnames]
        exact congrArg (· :: names) (name_of_lastNamed hid)
  refine hnames _ ?_
  intro name hname
  obtain ⟨id, hid, -⟩ := mem_openNames_iff.1 hname
  rw [hid]
  rfl

theorem openNames_sorted (b : Book) : b.openNames.Pairwise (· < ·) :=
  (Catalogue.names_sorted _).filter _

end Book

end Daybook
