import Daybook.Proofs.Run

/-!
# One stack — scopes as marks on it

The machine keeps the operands of each scope apart, so a word cannot reach those of another scope.  Built
with one stack it has to see to that: it marks the height at which each scope begins, and lends out the
stack through a view that pops down to the innermost mark and no further.  Whatever a word does through the
view, and however its call ends, the marks stay in order and under the top of the stack.

* `Script`, `through_append`: what a word may do through a view; what lies below its floor is left alone.
* `Flat`, `Flat.step`: the machine with one stack and marks.
* `Scoped`, `Scoped.step`: **every token keeps the marks in order**, whatever comes of it.
* `flat_step`, `flat_feed`: the machine with one stack goes along with the machine, and every view can be had.
* `exists_flat`: any stack with marks in order is that of a machine.
* `one_stack`: so it does in all runs of any vocabulary.
-/

namespace Daybook

variable {σ : Type}

/-! ### Words through a view -/

namespace Operands

/-- The values of a stack up to a height. -/
def below (stack : Operands) (height : Nat) : Operands := stack.drop (stack.length - height)

theorem below_append (visible hidden : Operands) : below (visible ++ hidden) hidden.length = hidden := by
  rw [below, List.length_append, Nat.add_sub_cancel, List.drop_left]

theorem length_below {stack : Operands} {height : Nat} (h : height ≤ stack.length) :
    (stack.below height).length = height := by
  rw [below, List.length_drop, Nat.sub_sub_self h]

/-- A stack is what lies above a height and what lies below it. -/
theorem take_append_below (stack : Operands) (height : Nat) :
    stack.take (stack.length - height) ++ stack.below height = stack := List.take_append_drop _ _

/-- A push does not reach down. -/
theorem below_cons {stack : Operands} {height : Nat} (h : height ≤ stack.length) (v : Value) :
    below (v :: stack) height = stack.below height := by
  rw [below, below, List.length_cons, Nat.succ_sub h, List.drop_succ_cons]

end Operands

/-- What a word does with its operands: it pushes, pops and looks at values, as it sees fit after what it has
been given, and in the end goes through or fails. -/
inductive Script (σ : Type) where
  | done (result : Except Failure Signal) (context : σ)
  | push (values : List Value) (next : Script σ)
  | pop (count : Int) (next : List Value → Script σ)
  | look (next : List Value → Script σ)

/-- What comes of a script on a stack above a floor.  No more is popped than lies above the floor. -/
def Script.through (floor : Nat) : Script σ → Operands → Except Failure Signal × Operands × σ
  | .done result context, stack => (result, stack, context)
  | .push values next, stack => next.through floor (stack.push values)
  | .pop count next, stack =>
    let popped := stack.pop (min count.toNat (stack.length - floor))
    (next popped.1).through floor popped.2
  | .look next, stack => (next (Operands.values (stack.take (stack.length - floor)))).through floor stack

/-- What lies below the floor makes no difference to a script, and is left alone. -/
theorem Script.through_append (s : Script σ) (visible hidden : Operands) :
    s.through hidden.length (visible ++ hidden)
      = ((s.through 0 visible).1, (s.through 0 visible).2.1 ++ hidden, (s.through 0 visible).2.2) := by
  have hlength : (visible ++ hidden).length - hidden.length = visible.length := by
    rw [List.length_append, Nat.add_sub_cancel]
  induction s generalizing visible with
  | done result context => rfl
  | push values next ih =>
      simp only [through, Operands.push]
      rw [← List.append_assoc]
      exact ih _ (by rw [List.length_append, Nat.add_sub_cancel])
  | pop count next ih =>
      simp only [through, Operands.pop]
      rw [hlength, Nat.sub_zero, List.take_append_of_le_length (Nat.min_le_right _ _),
        List.drop_append_of_le_length (Nat.min_le_right _ _)]
      exact ih _ _ (by rw [List.length_append, Nat.add_sub_cancel])
  | look next ih =>
      simp only [through]
      rw [hlength, Nat.sub_zero, List.take_left, List.take_length]
      exact ih _ _ hlength

/-- The words that can be called, by name, each as a script. -/
abbrev Registry (σ : Type) := String → Option (String → σ → Script σ)

/-- The word of a script: all of its operands lie above the floor. -/
def Word.ofScript (script : String → σ → Script σ) : Word σ := fun name d =>
  let ended := (script name d.context).through 0 d.operands
  (ended.1, ⟨ended.2.1, ended.2.2⟩)

/-- The words of a registry. -/
def Registry.words (reg : Registry σ) : Vocabulary σ := fun name => (reg name).map Word.ofScript

/-- The script of a word: it looks at all operands, pops them and pushes those that are left. -/
def Word.script (w : Word σ) (name : String) (context : σ) : Script σ :=
  .look fun values => .pop values.length fun _ =>
    let ended := w name ⟨values.reverse, context⟩
    .push ended.2.operands.reverse (.done ended.1 ended.2.context)

theorem Word.ofScript_script (w : Word σ) : Word.ofScript w.script = w := by
  funext name d
  obtain ⟨operands, context⟩ := d
  simp only [ofScript, script, Script.through, Operands.values, Operands.pop, Operands.push]
  rw [Nat.sub_zero, List.take_length, List.reverse_reverse, List.length_reverse, Int.toNat_natCast,
    Nat.min_self, List.drop_length, List.reverse_reverse, List.append_nil]

/-- **Every vocabulary is that of a registry**: a word can do no more than a script, and no less. -/
theorem Vocabulary.exists_registry (v : Vocabulary σ) : ∃ reg : Registry σ, reg.words = v := by
  refine ⟨fun name => (v name).map Word.script, funext fun name => ?_⟩
  simp only [Registry.words]
  rw [Option.map_map]
  cases v name with
  | none => rfl
  | some w => exact congrArg some w.ofScript_script

/-! ### The machine with one stack -/

/-- A machine with one stack, on which the heights are marked at which scopes begin. -/
structure Flat (σ : Type) where
  /-- All operands, the last pushed first. -/
  stack : Operands
  /-- The heights at which the open scopes begin, the innermost first. -/
  markers : List Nat
  /-- The depth of the scope that is silenced; zero if none is. -/
  silence : Nat
  context : σ

namespace Flat

/-- A machine before its first token. -/
def start (context : σ) : Flat σ := ⟨[], [], 0, context⟩

/-- The height at which the operands begin that a word sees. -/
def floor (f : Flat σ) : Nat := f.markers.headD 0

/-- Pushes a text. -/
def pushText (f : Flat σ) (s : String) : Flat σ := { f with stack := .text s :: f.stack }

/-- Runs an unquoted text; a word is called with a view from the innermost marker. -/
def call (reg : Registry σ) (f : Flat σ) (s : String) :
    Except FloorError (Except Failure Signal × Flat σ) :=
  if f.silence != 0 then .ok (.ok .proceed, f)
  else if s = silenceWord then
    if f.markers.isEmpty then .ok (.error (.failed (.scoping .silenceOutside)), f)
    else .ok (.ok .proceed, { f with silence := f.markers.length })
  else
    match reg s with
    | none => .ok (.ok .proceed, f.pushText s)
    | some script =>
      match f.stack.view f.floor with
      | .error e => .error e
      | .ok _ =>
        let ended := (script s f.context).through f.floor f.stack
        .ok (ended.1, { f with stack := ended.2.1, context := ended.2.2 })

/-- Ends a scope: takes its marker off, and fails unless the stack is as high as it was. -/
def closeScope (f : Flat σ) : Except Failure Signal × Flat σ :=
  match f.markers with
  | [] => (.error (.failed (.scoping .unmatchedClosing)), f)
  | marker :: rest =>
    (if marker = f.stack.length then .ok .proceed
      else .error (.failed (.scoping (.unconsumed (f.stack.length - marker)))),
      { f with markers := rest, silence := if f.markers.length = f.silence then 0 else f.silence })

theorem closeScope_eq {f : Flat σ} {marker : Nat} {rest : List Nat} (h : f.markers = marker :: rest) :
    f.closeScope =
      (if marker = f.stack.length then .ok .proceed
        else .error (.failed (.scoping (.unconsumed (f.stack.length - marker)))),
        { f with markers := rest, silence := if f.markers.length = f.silence then 0 else f.silence }) := by
  simp only [closeScope]
  split
  · next hnone => rw [h] at hnone; cases hnone
  · next hsome => rw [h] at hsome; cases hsome; rfl

/-- Runs a token. -/
def step (reg : Registry σ) (f : Flat σ) : Token → Except FloorError (Except Failure Signal × Flat σ)
  | .word s => f.call reg s
  | .quoted s => .ok (.ok .proceed, if f.silence != 0 then f else f.pushText s)
  | .opening => .ok (.ok .proceed, { f with markers := f.stack.length :: f.markers })
  | .closing => .ok f.closeScope

/-- Runs tokens, whatever comes of each, unless a view cannot be had. -/
def feed (reg : Registry σ) : Flat σ → List Token → Except FloorError (Flat σ)
  | f, [] => .ok f
  | f, t :: ts =>
    match f.step reg t with
    | .error e => .error e
    | .ok (_, f') => f'.feed reg ts

/-! ### Marks in order -/

/-- The marks are in order and under the top of the stack, and no deeper scope is silenced than is open. -/
structure Scoped (f : Flat σ) : Prop where
  nested : f.markers.Pairwise (· ≥ ·)
  within : ∀ height ∈ f.markers, height ≤ f.stack.length
  silence : f.silence ≤ f.markers.length

variable {reg : Registry σ} {f f' : Flat σ} {t : Token} {r : Except Failure Signal}

theorem scoped_start (context : σ) : (start context).Scoped :=
  ⟨.nil, fun _ h => absurd h List.not_mem_nil, Nat.le_refl 0⟩

namespace Scoped

theorem floor_le (h : f.Scoped) : f.floor ≤ f.stack.length := by
  simp only [floor]
  cases hm : f.markers with
  | nil => exact Nat.zero_le _
  | cons marker rest => exact h.within marker (hm ▸ List.mem_cons_self)

/-- The innermost mark is the highest. -/
theorem le_floor (h : f.Scoped) {height : Nat} (hmem : height ∈ f.markers) : height ≤ f.floor := by
  have hnested := h.nested
  simp only [floor]
  cases hm : f.markers with
  | nil => rw [hm] at hmem; exact absurd hmem List.not_mem_nil
  | cons marker rest =>
      rw [hm] at hmem hnested
      rcases List.mem_cons.1 hmem with rfl | hrest
      · exact Nat.le_refl _
      · exact List.rel_of_pairwise_cons hnested hrest

/-- **The view of a word can be had.** -/
theorem view_ok (h : f.Scoped) :
    f.stack.view f.floor
      = .ok ⟨f.stack.take (f.stack.length - f.floor), f.stack.below f.floor⟩ :=
  if_neg (Nat.not_lt.2 h.floor_le)

end Scoped

/-- What a token may do: work on the stack above the innermost mark and on the context, silence a scope,
begin one or end one. -/
inductive Moves (f : Flat σ) : Flat σ → Prop where
  | worked {stack : Operands} {context : σ} (hle : f.floor ≤ stack.length)
      (hbelow : stack.below f.floor = f.stack.below f.floor) : Moves f { f with stack, context }
  | silenced : Moves f { f with silence := f.markers.length }
  | began : Moves f { f with markers := f.stack.length :: f.markers }
  | ended {marker : Nat} {rest : List Nat} (hm : f.markers = marker :: rest) :
      Moves f { f with markers := rest, silence := if f.markers.length = f.silence then 0 else f.silence }

/-- A machine that is left as it is has worked on nothing. -/
theorem Moves.refl (h : f.Scoped) : f.Moves f := .worked h.floor_le rfl

theorem moves_pushText (h : f.Scoped) (s : String) : f.Moves (f.pushText s) :=
  .worked (Nat.le_succ_of_le h.floor_le) (Operands.below_cons h.floor_le _)

/-- A script works above its floor. -/
theorem moves_through (h : f.Scoped) (script : Script σ) :
    f.Moves { f with stack := (script.through f.floor f.stack).2.1,
                     context := (script.through f.floor f.stack).2.2 } := by
  have hlength := Operands.length_below h.floor_le
  have hsplit := script.through_append (f.stack.take (f.stack.length - f.floor)) (f.stack.below f.floor)
  rw [hlength, Operands.take_append_below] at hsplit
  have hstack := congrArg (·.2.1) hsplit
  refine .worked ?_ ?_
  · rw [hstack, List.length_append, hlength]
    exact Nat.le_add_left _ _
  · rw [hstack]
    exact (congrArg (Operands.below _) hlength.symm).trans (Operands.below_append _ _)

/-- **A token moves a machine**, whatever comes of it, if its marks are in order. -/
theorem moves_step (h : f.Scoped) (hs : f.step reg t = .ok (r, f')) : f.Moves f' := by
  cases t with
  | word s =>
      simp only [step, call] at hs
      split at hs
      · cases hs
        exact .refl h
      split at hs
      · split at hs
        · cases hs
          exact .refl h
        · cases hs
          exact .silenced
      split at hs
      · cases hs
        exact moves_pushText h s
      · rw [h.view_ok] at hs
        cases hs
        exact moves_through h _
  | quoted s =>
      cases hs
      split
      · exact .refl h
      · exact moves_pushText h s
  | opening =>
      cases hs
      exact .began
  | closing =>
      simp only [step, closeScope] at hs
      split at hs
      · cases hs
        exact .refl h
      · next hm =>
          cases hs
          exact .ended hm

namespace Scoped

theorem moves (h : f.Scoped) (hm : f.Moves f') : f'.Scoped := by
  cases hm with
  | worked hle => exact ⟨h.nested, fun _ hmem => Nat.le_trans (h.le_floor hmem) hle, h.silence⟩
  | silenced => exact ⟨h.nested, h.within, Nat.le_refl _⟩
  | began =>
      refine ⟨List.pairwise_cons.2 ⟨h.within, h.nested⟩, ?_, Nat.le_succ_of_le h.silence⟩
      exact List.forall_mem_cons.2 ⟨Nat.le_refl _, h.within⟩
  | @ended marker rest hm =>
      have hnested := h.nested
      rw [hm] at hnested
      refine ⟨hnested.of_cons, fun _ hmem => h.within _ (hm ▸ List.mem_cons_of_mem _ hmem), ?_⟩
      -- a silence that goes on began further out
      have hsilence := h.silence
      rw [hm, List.length_cons] at hsilence
      rw [hm, List.length_cons]
      show (if _ then 0 else f.silence) ≤ rest.length
      split
      · exact Nat.zero_le _
      · next hne => exact Nat.le_of_lt_succ (Nat.lt_of_le_of_ne hsilence (Ne.symm hne))

/-- **Every token keeps the marks in order**, whatever comes of it. -/
theorem step (h : f.Scoped) (hs : f.step reg t = .ok (r, f')) : f'.Scoped := h.moves (moves_step h hs)

/-- No token changes what lies below the innermost mark. -/
theorem below_eq (h : f.Scoped) (hs : f.step reg t = .ok (r, f')) :
    f'.stack.below f.floor = f.stack.below f.floor := by
  cases moves_step h hs with
  | worked _ hbelow => exact hbelow
  | silenced => rfl
  | began => rfl
  | ended => rfl

/-- Operands that a scope has left are counted, unless a word fails on that ground by itself. -/
theorem unconsumed (h : f.Scoped) {n : Nat}
    (hs : f.step reg t = .ok (.error (.failed (.scoping (.unconsumed n))), f')) :
    1 ≤ n ∨ ∃ s script, t = .word s ∧ reg s = some script
      ∧ ((script s f.context).through f.floor f.stack).1
        = .error (.failed (.scoping (.unconsumed n))) := by
  cases t with
  | word s =>
      simp only [Flat.step, call] at hs
      split at hs
      · cases hs
      split at hs
      · split at hs
        · cases hs
        · cases hs
      split at hs
      · cases hs
      · next script hscript =>
          rw [h.view_ok] at hs
          exact .inr ⟨s, script, rfl, hscript, congrArg Prod.fst (Except.ok.inj hs)⟩
  | quoted s => cases hs
  | opening => cases hs
  | closing =>
      simp only [Flat.step, closeScope] at hs
      split at hs
      · cases hs
      · next marker rest hm =>
          obtain ⟨hfailed, -⟩ := Prod.mk.inj (Except.ok.inj hs)
          split at hfailed
          · cases hfailed
          · next hne =>
              cases hfailed
              have hle : marker ≤ f.stack.length := h.within marker (hm ▸ List.mem_cons_self)
              exact .inl (Nat.sub_pos_of_lt (Nat.lt_of_le_of_ne hle hne))

end Scoped

end Flat

/-! ### The machine and its stack -/

namespace Machine

variable {reg : Registry σ} {m : Machine σ}

/-- A machine with the operands of its scopes on one stack. -/
def flat (m : Machine σ) : Flat σ := ⟨m.stack, m.markers, m.silence, m.context⟩

theorem length_heights (scopes : List Operands) : (heights scopes).length = scopes.length := by
  induction scopes with
  | nil => rfl
  | cons operands rest ih => rw [heights, List.length_cons, List.length_cons, ih]

theorem length_markers (m : Machine σ) : m.markers.length = m.depth := length_heights m.enclosing

theorem isEmpty_markers (m : Machine σ) : m.markers.isEmpty = m.enclosing.isEmpty := by
  simp only [markers]
  cases m.enclosing <;> rfl

/-- The innermost mark is the height of what a word does not see. -/
theorem floor_flat (m : Machine σ) : m.flat.floor = m.enclosing.flatten.length := by
  simp only [flat, Flat.floor, markers]
  cases m.enclosing <;> rfl

theorem view_flat (m : Machine σ) :
    m.flat.stack.view m.flat.floor = .ok ⟨m.visible, m.enclosing.flatten⟩ := by
  show Operands.view (m.visible ++ m.enclosing.flatten) m.flat.floor = _
  rw [floor_flat, Operands.view, List.length_append, if_neg (Nat.not_lt.2 (Nat.le_add_left _ _)),
    Nat.add_sub_cancel, List.take_left, List.drop_left]

/-- A text comes to the same on one stack: a script does not notice what lies below its floor. -/
theorem flat_call (m : Machine σ) (s : String) :
    m.flat.call reg s = .ok ((m.call reg.words s).1, (m.call reg.words s).2.flat) := by
  simp only [call, Flat.call, Registry.words]
  show (if m.silenced then _ else if s = silenceWord then if m.markers.isEmpty then _ else _ else _) = _
  rw [isEmpty_markers]
  split
  · rfl
  split
  · split
    · rfl
    · show Except.ok (_, { m.flat with silence := m.markers.length }) = _
      rw [length_markers]
      rfl
  cases reg s with
  | none => rfl
  | some script =>
      have hthrough := (script s m.context).through_append m.visible m.enclosing.flatten
      rw [← floor_flat] at hthrough
      rw [view_flat]
      show Except.ok (((script s m.context).through m.flat.floor (m.visible ++ m.enclosing.flatten)).1,
        { m.flat with
          stack := ((script s m.context).through m.flat.floor (m.visible ++ m.enclosing.flatten)).2.1
          context := ((script s m.context).through m.flat.floor (m.visible ++ m.enclosing.flatten)).2.2 }) = _
      rw [hthrough]
      rfl

/-- A scope has left operands where the stack is higher than the mark that is taken off. -/
theorem flat_closeScope (m : Machine σ) : m.flat.closeScope = (m.closeScope.1, m.closeScope.2.flat) := by
  obtain ⟨visible, enclosing, silence, context⟩ := m
  cases enclosing with
  | nil => rfl
  | cons outer rest =>
      have hdepth : (heights (outer :: rest)).length = (outer :: rest).length := length_heights _
      have hstack : visible ++ (outer :: rest).flatten = (visible ++ outer) ++ rest.flatten := by
        rw [List.flatten_cons, List.append_assoc]
      rw [closeScope_eq rfl, Flat.closeScope_eq rfl]
      refine Prod.ext ?_ ?_
      · show (if (outer :: rest).flatten.length = (visible ++ (outer :: rest).flatten).length then _ else _)
          = if visible.isEmpty then _ else _
        cases visible with
        | nil => exact if_pos rfl
        | cons v vs =>
            rw [if_neg (by rw [List.length_append, List.length_cons]; omega)]
            show Except.error (Failure.failed (.scoping (.unconsumed (List.length (_ ++ _) - List.length _)))) = _
            rw [List.length_append, Nat.add_sub_cancel]
            rfl
      · show Flat.mk (visible ++ (outer :: rest).flatten) (heights rest)
            (if (heights (outer :: rest)).length = silence then 0 else silence) context
          = Flat.mk (visible ++ outer ++ rest.flatten) (heights rest)
            (if (outer :: rest).length = silence then 0 else silence) context
        rw [hstack, hdepth]

theorem flat_step (m : Machine σ) (t : Token) :
    m.flat.step reg t = .ok ((m.step reg.words t).1, (m.step reg.words t).2.flat) := by
  cases t with
  | word s => exact m.flat_call s
  | quoted s =>
      simp only [step, Flat.step]
      show Except.ok (_, if m.silenced then _ else _) = _
      split <;> rfl
  | opening => rfl
  | closing => exact congrArg Except.ok m.flat_closeScope

theorem flat_feed (m : Machine σ) (ts : List Token) :
    m.flat.feed reg ts = .ok (m.feed reg.words ts).flat := by
  induction ts generalizing m with
  | nil => rfl
  | cons t ts ih =>
      simp only [Flat.feed]
      rw [flat_step]
      exact ih _

/-- A stack with marks in order is cut at the marks into the operands of scopes. -/
theorem exists_heights {markers : List Nat} (hnested : markers.Pairwise (· ≥ ·)) {stack : Operands}
    (hwithin : ∀ height ∈ markers, height ≤ stack.length) :
    ∃ visible enclosing, visible ++ enclosing.flatten = stack ∧ heights enclosing = markers := by
  induction markers generalizing stack with
  | nil => exact ⟨stack, [], List.append_nil _, rfl⟩
  | cons marker rest ih =>
      obtain ⟨hle, hrest⟩ := List.pairwise_cons.1 hnested
      have hlength := Operands.length_below (hwithin marker List.mem_cons_self)
      obtain ⟨outer, enclosing, hstack, hheights⟩ :=
        ih hrest fun height hmem => hlength.symm ▸ hle height hmem
      refine ⟨stack.take (stack.length - marker), outer :: enclosing, ?_, ?_⟩
      · rw [List.flatten_cons, hstack, Operands.take_append_below]
      · rw [heights, List.flatten_cons, hstack, hlength, hheights]

/-- Every machine with one stack whose marks are in order is a machine. -/
theorem exists_flat {f : Flat σ} (h : f.Scoped) : ∃ m : Machine σ, m.flat = f := by
  obtain ⟨visible, enclosing, hstack, hheights⟩ := exists_heights h.nested h.within
  obtain ⟨stack, markers, silence, context⟩ := f
  refine ⟨⟨visible, enclosing, silence, context⟩, ?_⟩
  show Flat.mk (visible ++ enclosing.flatten) (heights enclosing) silence context = _
  rw [hstack, hheights]

/-- The machine after runs over sources, each of which goes on from where the one before ended. -/
def runs (v : Vocabulary σ) (m : Machine σ) (ls : List Lexer) : Machine σ :=
  ls.foldl (fun m l => (m.run v l).machine) m

/-- Runs come to tokens in a row, whatever came of each run. -/
theorem runs_takes (v : Vocabulary σ) (m : Machine σ) (ls : List Lexer) :
    ∃ ts, m.runs v ls = m.feed v ts := by
  induction ls generalizing m with
  | nil => exact ⟨[], rfl⟩
  | cons l ls ih =>
      obtain ⟨ts, -, hm⟩ := run_takes v l m
      obtain ⟨ts', hls⟩ := ih (run v l m).machine
      refine ⟨ts ++ ts', ?_⟩
      rw [feed, List.foldl_append]
      show (run v l m).machine.runs v ls = (m.feed v ts).feed v ts'
      rw [hls, hm]

/-- Marks are in order after tokens, whatever comes of each. -/
theorem scoped_feed (v : Vocabulary σ) (context : σ) (ts : List Token) :
    ((start context).feed v ts).flat.Scoped := by
  obtain ⟨reg, rfl⟩ := v.exists_registry
  exact feed_induction (P := fun m => m.flat.Scoped) (fun m t hm => hm.step (m.flat_step t)) ts
    (Flat.scoped_start context)

/-- Silence does not outlast the scopes. -/
theorem finish_ne_silencedAtEnd (h : m.flat.Scoped) : m.finish ≠ some .silencedAtEnd := by
  intro hfinish
  simp only [finish] at hfinish
  split at hfinish
  · cases hfinish
  split at hfinish
  · cases hfinish
  next hscopes =>
  split at hfinish
  · next hsilenced =>
      have hle : m.silence ≤ m.markers.length := h.silence
      have hnone : m.enclosing = [] := by simpa using hscopes
      rw [length_markers, depth, hnone, List.length_nil, Nat.le_zero] at hle
      simp only [silenced] at hsilenced
      rw [hle] at hsilenced
      cases hsilenced
  · cases hfinish

/-- **One stack with marks does for all scopes, whatever the words are.**  Over any sources, and after stops
and failures too, runs of the machine are runs of tokens; and after any tokens the machine with one stack is
where the machine is.  There the marks are in order and under the top of the stack, and no deeper scope is
silenced than is open; so the view of a word can be had; every token goes through to a result, leaves alone
what lies below the innermost mark, and where it finds that a scope has left operands counts at least one;
and the end of a source does not find silence without an open scope. -/
theorem one_stack (reg : Registry σ) (context : σ) :
    (∀ ls, ∃ ts, (start context).runs reg.words ls = (start context).feed reg.words ts)
      ∧ ∀ ts,
        let m := (start context).feed reg.words ts
        let f := m.flat
        (Flat.start context).feed reg ts = .ok f ∧ f.Scoped
          ∧ (∃ view, f.stack.view f.floor = .ok view)
          ∧ (∀ t, ∃ r f', f.step reg t = .ok (r, f') ∧ r = (m.step reg.words t).1
            ∧ f'.stack.below f.floor = f.stack.below f.floor
            ∧ ∀ n, r = .error (.failed (.scoping (.unconsumed n))) →
              1 ≤ n ∨ ∃ s script, t = .word s ∧ reg s = some script
                ∧ ((script s f.context).through f.floor f.stack).1 = r)
          ∧ m.finish ≠ some .silencedAtEnd := by
  refine ⟨runs_takes reg.words (start context), fun ts => ?_⟩
  have hscoped := scoped_feed reg.words context ts
  refine ⟨flat_feed (start context) ts, hscoped, ⟨_, hscoped.view_ok⟩, ?_,
    finish_ne_silencedAtEnd hscoped⟩
  intro t
  have hstep : ((start context).feed reg.words ts).flat.step reg t = _ := flat_step _ t
  refine ⟨_, _, hstep, rfl, hscoped.below_eq hstep, ?_⟩
  intro n hn
  rw [hn] at hstep ⊢
  exact hscoped.unconsumed hstep

/-- A scope that has left an operand fails, but it has ended and the operand stays. -/
example : (Flat.start ()).feed (fun _ => none) [.opening, .quoted "a", .closing, .quoted "b"]
    = .ok ⟨[.text "b", .text "a"], [], 0, ()⟩ := rfl

end Machine

end Daybook
