import Folio.Proofs.Chain
import Folio.Proofs.Unit.Execution
import Folio.Proofs.Unit.History

/-! Which units run, and how the others fail. A run fails at the first line that is faulty given the
lines before it, with the error of that line, or at its end if an element was left open. The state
of a run reflects the lines that it has carried out, which is all that a line can be faulty for.
-/

namespace Folio.Unit

open Folio.Tree (Kind Built)

variable {σ : Type} {env : Environment}

-----------------------------------------------------------------------------------------
-- What a line does
-----------------------------------------------------------------------------------------

/-- What a line that is not faulty does to the state of a run, one case for each kind of line. -/
inductive LineStep (build : TreeBuilder σ) (env : Environment) (before : List (List Char))
    (line : List Char) (state : State σ)
    : State σ → Prop where
  | empty (nothing : line = []) : LineStep build env before line state state
  | imported {name : String} (read : Instruction.ofLine line = .ok (.bind name))
      (bound : env.has name = true)
      : LineStep build env before line state { state with imported := name :: state.imported }
  | opened {kind : Kind} (isStandIn : Bool) (opening : OpensAs env before line kind)
      : LineStep build env before line state
          (state.openElement kind isStandIn (lineNumber before))
  | keyed {key : String} {e : Pending} {outer : List Pending}
      (read : Instruction.ofLine line = .ok (.key key)) (top : state.stack = e :: outer)
      : LineStep build env before line state
          { state with stack := { e with key := some key } :: outer }
  | furnished {name : String} {value : Json.Value} {e : Pending} {outer : List Pending}
      (read : Instruction.ofLine line = .ok (.prop name value)) (top : state.stack = e :: outer)
      : LineStep build env before line state
          { state with stack := { e with props := e.props.insert name (.ofJson value) } :: outer }
  | wrote {text : String} (read : Instruction.ofLine line = .ok (.text text))
      : LineStep build env before line state (state.push (.string text))
  | closed {e : Pending} {outer : List Pending} (read : Instruction.ofLine line = .ok .close)
      (top : state.stack = e :: outer)
      : LineStep build env before line state
          (State.take { state with stack := outer }
            (build (e.request (outer.head?.map Pending.kind)) state.builder))

-----------------------------------------------------------------------------------------
-- What is open
-----------------------------------------------------------------------------------------

/-- Open elements, innermost first, are those that lines leave open: each was opened by a line after
which the lines are balanced, up to the line that opened the next one.
-/
inductive Standing (env : Environment) : List (List Char) → List Pending → Prop where
  | none {lines : List (List Char)} (balanced : Balanced lines) : Standing env lines []
  | some {before after : List (List Char)} {line : List Char} {e : Pending} {outer : List Pending}
      (below : Standing env before outer) (opening : OpensAs env before line e.kind)
      (number : e.line = lineNumber before) (balanced : Balanced after)
      : Standing env (before ++ line :: after) (e :: outer)

namespace Standing

variable {lines more : List (List Char)} {stack outer : List Pending} {e : Pending}

/-- So many elements are open as lines have opened and not closed. -/
theorem count (h : Standing env lines stack) : stack.length + closes lines = opens lines := by
  induction h with
  | none balanced => simp [balanced.same]
  | some below opening _ balanced ih =>
      have closesNothing := isClosing_of_isOpening opening.isOpening
      simp [opening.isOpening, closesNothing, balanced.same]
      omega

/-- Balanced lines leave open what was open. -/
theorem append (h : Standing env lines stack) (balanced : Balanced more)
    : Standing env (lines ++ more) stack := by
  cases h with
  | none before => exact .none (before.append balanced)
  | some below opening number inner =>
      rw [List.append_assoc, List.cons_append]
      exact .some below opening number (inner.append balanced)

/-- It does not matter what the innermost element holds. -/
theorem changed (h : Standing env lines (e :: outer)) {other : Pending}
    (kind : other.kind = e.kind) (number : other.line = e.line)
    : Standing env lines (other :: outer) := by
  cases h with
  | some below opening same balanced =>
      exact .some below (kind ▸ opening) (number.trans same) balanced

theorem push {state : State σ} (h : Standing env lines state.stack) (node : Built)
    : Standing env lines (state.push node).stack := by
  unfold State.push
  split
  · exact h
  · next top => exact (top ▸ h).changed rfl rfl

/-- A line that closes an element closes the innermost one. -/
theorem close (h : Standing env lines (e :: outer)) {line : List Char}
    (closing : isClosing line = true)
    : Standing env (lines ++ [line]) outer := by
  cases h with
  | some below opening _ balanced =>
      rw [List.append_assoc, List.cons_append]
      exact below.append (balanced.enclose opening.isOpening closing)

end Standing

-----------------------------------------------------------------------------------------
-- Lines and states
-----------------------------------------------------------------------------------------

/-- Holds for a state in which a run may be after some lines: it knows what they import, and has
open what they leave open.
-/
structure State.Reflects (env : Environment) (lines : List (List Char)) (state : State σ)
    : Prop where
  imported : ∀ name, name ∈ state.imported ↔ name ∈ imports lines
  bound : ∀ name ∈ imports lines, env.has name = true
  standing : Standing env lines state.stack

theorem reflects_start (builder : σ) : State.Reflects env [] { builder } where
  imported := fun name => by simp [imports]
  bound := List.forall_mem_nil _
  standing := .none balanced_nil

/-- A line that neither imports nor opens or closes anything changes nothing that later lines depend
on.
-/
theorem State.Reflects.idle {lines : List (List Char)} {line : List Char} {state next : State σ}
    (h : state.Reflects env lines) (noImport : imported? line = none)
    (noOpening : isOpening line = false) (noClosing : isClosing line = false)
    (imported : next.imported = state.imported) (standing : Standing env lines next.stack)
    : next.Reflects env (lines ++ [line]) := by
  have same : imports (lines ++ [line]) = imports lines := by
    simp [noImport]
  refine ⟨?_, ?_, standing.append (balanced_idle noOpening noClosing)⟩
  · rw [imported, same]
    exact h.imported
  · rw [same]
    exact h.bound

/-- After one line more, a state reflects it too. -/
theorem LineStep.reflects {build : TreeBuilder σ} {before : List (List Char)} {line : List Char}
    {state next : State σ} (step : LineStep build env before line state next)
    (h : state.Reflects env before)
    : next.Reflects env (before ++ [line]) := by
  cases step with
  | empty nothing =>
      subst nothing
      exact h.idle rfl rfl rfl rfl h.standing
  | @imported name read bound =>
      have noOpening : isOpening line = false := by simp [isOpening, read]
      have noClosing : isClosing line = false := by simp [isClosing, read]
      have imports : imports (before ++ [line]) = imports before ++ [name] := by
        simp [imported?, read]
      refine ⟨fun other => ?_, ?_, h.standing.append (balanced_idle noOpening noClosing)⟩
      · rw [imports, List.mem_cons, List.mem_append, List.mem_singleton, h.imported other, or_comm]
      · rw [imports]
        exact List.forall_mem_append.mpr ⟨h.bound, List.forall_mem_singleton.mpr bound⟩
  | opened isStandIn opening =>
      have same : imports (before ++ [line]) = imports before := by
        simp [opening.imported?_eq_none]
      refine ⟨?_, ?_, .some h.standing opening rfl balanced_nil⟩
      · rw [same]
        exact h.imported
      · rw [same]
        exact h.bound
  | keyed read top =>
      refine h.idle ?_ ?_ ?_ rfl ((top ▸ h.standing).changed rfl rfl)
      · simp [imported?, read]
      · simp [isOpening, read]
      · simp [isClosing, read]
  | furnished read top =>
      refine h.idle ?_ ?_ ?_ rfl ((top ▸ h.standing).changed rfl rfl)
      · simp [imported?, read]
      · simp [isOpening, read]
      · simp [isClosing, read]
  | wrote read =>
      refine h.idle ?_ ?_ ?_ (push_frame _ _).2.1 (h.standing.push _)
      · simp [imported?, read]
      · simp [isOpening, read]
      · simp [isClosing, read]
  | closed read top =>
      have closing : isClosing line = true := by simp [isClosing, read]
      have same : imports (before ++ [line]) = imports before := by
        simp [imported?, read]
      refine ⟨?_, ?_, Standing.push ((top ▸ h.standing).close closing) _⟩
      · rw [same, State.take, (push_frame _ _).2.1]
        exact h.imported
      · rw [same]
        exact h.bound

/-- An element is open exactly if more were opened than closed. -/
theorem State.Reflects.stack_eq_nil_iff {lines : List (List Char)} {state : State σ}
    (h : state.Reflects env lines)
    : state.stack = [] ↔ opens lines ≤ closes lines := by
  have count := h.standing.count
  rw [← List.length_eq_zero_iff]
  omega

-----------------------------------------------------------------------------------------
-- Runs
-----------------------------------------------------------------------------------------

/-- Lines are carried out one after the other, by induction on the first ones. -/
theorem runLines_append (build : TreeBuilder σ) (env : Environment) (state : State σ) (line : Nat)
    (first later : List (List Char))
    : runLines build env state line (first ++ later)
      = runLines build env state line first >>= fun next =>
          runLines build env next (line + first.length) later := by
  induction first generalizing state line with
  | nil => rfl
  | cons text rest ih =>
      have shift : line + (text :: rest).length = line + 1 + rest.length := by
        rw [List.length_cons]
        omega
      rw [List.cons_append, runLines, runLines, shift]
      split
      · exact ih state (line + 1)
      · split
        · rfl
        · next i _ =>
            cases state.step build env line i with
            | error fault => rfl
            | ok next => exact ih next (line + 1)

/-- A line with an instruction does what the instruction does. -/
theorem runLines_read (build : TreeBuilder σ) {line : List Char} {i : Instruction}
    (read : Instruction.ofLine line = .ok i) (state : State σ) (number : Nat)
    : runLines build env state number [line] = state.step build env number i := by
  have filled : line.isEmpty = false := by
    cases line with
    | nil => cases read
    | cons c rest => rfl
  rw [runLines, filled, read]
  exact bind_pure _

/-- A line that is not faulty is carried out. -/
theorem State.Reflects.exists_lineStep (build : TreeBuilder σ) {before : List (List Char)}
    {line : List Char} {state : State σ} (h : state.Reflects env before)
    (clean : fault? env before line = none)
    : ∃ next,
        runLines build env state (lineNumber before) [line] = .ok next
        ∧ LineStep build env before line state next := by
  have top_of_needs {i : Instruction} (needs : i.needsElement = true)
      (other : (if i.needsElement && opens before ≤ closes before then
          some (RunError.noOpenElement i.word (lineNumber before)) else none) = none)
      : ∃ e outer, state.stack = e :: outer := by
    apply List.exists_cons_of_ne_nil
    intro nothing
    simp [needs, h.stack_eq_nil_iff.mp nothing] at other
  unfold fault? at clean
  split at clean
  · next nothing =>
      obtain rfl := List.isEmpty_iff.mp nothing
      exact ⟨state, rfl, .empty rfl⟩
  · cases read : Instruction.ofLine line with
    | error fault => simp [read] at clean
    | ok i =>
        rw [runLines_read build read]
        rw [read] at clean
        cases i with
        | bind name =>
            have bound : env.has name = true := by simpa using clean
            exact ⟨_, by rw [State.step, if_pos bound], .imported read bound⟩
        | openTag name => exact ⟨_, rfl, .opened false (.tag read)⟩
        | openComponent name =>
            have imported : name ∈ imports before := by simpa using clean
            have known : state.imported.contains name = true :=
              List.contains_iff_mem.mpr ((h.imported name).mpr imported)
            obtain ⟨binding, bound⟩ := Option.isSome_iff_exists.mp (h.bound name imported)
            refine ⟨_, ?_, .opened binding.isStandIn (.component read imported bound)⟩
            simp only [State.step, known, bound, Bool.not_true, Bool.false_eq_true, if_false]
        | key key =>
            obtain ⟨e, outer, top⟩ := top_of_needs rfl clean
            exact ⟨_, by rw [State.step, State.modifyTop, top], .keyed read top⟩
        | prop name value =>
            obtain ⟨e, outer, top⟩ := top_of_needs rfl clean
            exact ⟨_, by rw [State.step, State.modifyTop, top], .furnished read top⟩
        | text text => exact ⟨_, rfl, .wrote read⟩
        | close =>
            obtain ⟨e, outer, top⟩ := top_of_needs rfl clean
            exact ⟨_, by rw [State.step, top]; rfl, .closed read top⟩

/-- A run fails at a faulty line, with its error. -/
theorem State.Reflects.runLines_fault (build : TreeBuilder σ) {before : List (List Char)}
    {line : List Char} {state : State σ} (h : state.Reflects env before) {error : RunError}
    (faulty : fault? env before line = some error)
    : runLines build env state (lineNumber before) [line] = .error error := by
  unfold fault? at faulty
  split at faulty
  · cases faulty
  · next filled =>
      cases read : Instruction.ofLine line with
      | error fault =>
          rw [read] at faulty
          obtain rfl := Option.some.inj faulty
          rw [runLines, if_neg filled, read]
      | ok i =>
          rw [runLines_read build read]
          rw [read] at faulty
          cases i with
          | bind name =>
              simp only at faulty
              split at faulty
              · cases faulty
              · next unbound =>
                  obtain rfl := Option.some.inj faulty
                  rw [State.step, if_neg unbound]
          | openTag name => cases faulty
          | openComponent name =>
              simp only at faulty
              split at faulty
              · cases faulty
              · next missing =>
                  obtain rfl := Option.some.inj faulty
                  have unknown : state.imported.contains name = false := by
                    simpa [h.imported] using missing
                  simp only [State.step, unknown, Bool.not_false, if_true]
          | text text => cases faulty
          | key _ | prop _ _ | close =>
              simp only [Instruction.needsElement, Bool.true_and, decide_eq_true_eq,
                Option.ite_none_right_eq_some, Option.some.injEq] at faulty
              obtain ⟨nothing, rfl⟩ := faulty
              have top := h.stack_eq_nil_iff.mpr nothing
              simp only [State.step, State.modifyTop, top, Instruction.word]

/-- Clean lines are carried out, and what each of them keeps holds at their end. By induction on the
lines from the end.
-/
theorem Clean.exists_run (build : TreeBuilder σ) (builder : σ)
    {motive : List (List Char) → State σ → Prop} (start : motive [] { builder })
    (keeps : ∀ {before line} {state next : State σ}, state.Reflects env before →
      LineStep build env before line state next → motive before state →
      motive (before ++ [line]) next)
    {lines : List (List Char)} (clean : Clean env lines)
    : ∃ last,
        runLines build env { builder } 2 lines = .ok last
        ∧ last.Reflects env lines
        ∧ motive lines last := by
  induction lines using List.reverseRecOn with
  | nil => exact ⟨_, rfl, reflects_start builder, start⟩
  | append_singleton before line ih =>
      obtain ⟨cleanBefore, notFaulty⟩ := clean_concat.mp clean
      obtain ⟨state, ran, reflects, holds⟩ := ih cleanBefore
      obtain ⟨next, stepped, step⟩ := reflects.exists_lineStep build notFaulty
      refine ⟨next, ?_, step.reflects reflects, keeps reflects step holds⟩
      rw [runLines_append, ran, Nat.add_comm]
      exact stepped

/-- A run of lines of which one is faulty, and none before it, fails with the error of that line. -/
theorem runLines_firstFault (build : TreeBuilder σ) (builder : σ) {before : List (List Char)}
    {line : List Char} {error : RunError} (clean : Clean env before)
    (faulty : fault? env before line = some error) (after : List (List Char))
    : runLines build env { builder } 2 (before ++ line :: after) = .error error := by
  obtain ⟨state, ran, reflects, -⟩ :=
    clean.exists_run build builder (motive := fun _ _ => True) trivial fun _ _ _ => trivial
  have split : before ++ line :: after = before ++ ([line] ++ after) := rfl
  have failed := reflects.runLines_fault build faulty
  rw [lineNumber, Nat.add_comm] at failed
  rw [split, runLines_append, ran]
  exact (runLines_append build env state _ [line] after).trans (by rw [failed]; rfl)

-----------------------------------------------------------------------------------------
-- What the builder is asked for
-----------------------------------------------------------------------------------------

def State.withoutLog (state : State (σ × List Request)) : State σ where
  imported := state.imported
  stack := state.stack
  root := state.root
  builder := state.builder.1

/-- A builder that records does what it does without recording. -/
theorem step_recording (build : TreeBuilder σ) (env : Environment)
    (state : State (σ × List Request)) (line : Nat) (i : Instruction)
    : (state.step build.recording env line i).map State.withoutLog
      = state.withoutLog.step build env line i := by
  have same : state.withoutLog.imported = state.imported := rfl
  cases i with
  | bind name =>
      simp only [State.step]
      split <;> rfl
  | openTag name => rfl
  | openComponent name =>
      simp only [State.step, same]
      by_cases missing : (!state.imported.contains name) = true
      · simp only [if_pos missing]
        rfl
      · simp only [if_neg missing]
        cases env.get? name <;> rfl
  | key _ | prop _ _ | text _ =>
      obtain ⟨imported, stack, root, builder⟩ := state
      cases stack <;> rfl
  | close =>
      obtain ⟨imported, stack, root, builder⟩ := state
      cases stack with
      | nil => rfl
      | cons e outer => cases outer <;> rfl

theorem runLines_recording (build : TreeBuilder σ) (env : Environment)
    (state : State (σ × List Request)) (line : Nat) (lines : List (List Char))
    : (runLines build.recording env state line lines).map State.withoutLog
      = runLines build env state.withoutLog line lines := by
  induction lines generalizing state line with
  | nil => rfl
  | cons text rest ih =>
      rw [runLines, runLines]
      split
      · exact ih state (line + 1)
      · split
        · rfl
        · next i _ =>
            rw [← step_recording]
            cases state.step build.recording env line i with
            | error fault => rfl
            | ok next => exact ih next (line + 1)

/-- A run with a builder that records gives what it gives without recording. -/
theorem runWith_recording (build : TreeBuilder σ) (builder : σ) (log : List Request)
    (env : Environment) (text : String)
    : (runWith build.recording (builder, log) env text).map (fun made => (made.1, made.2.1))
      = runWith build builder env text := by
  unfold runWith
  split
  · rfl
  · next first rest _ =>
      split
      · rfl
      · have ran := runLines_recording build env { builder := (builder, log) } 2 rest
        have start : State.withoutLog { builder := (builder, log) } = { builder } := rfl
        rw [start] at ran
        rw [← ran]
        cases runLines build.recording env { builder := (builder, log) } 2 rest with
        | error fault => rfl
        | ok last =>
            obtain ⟨imported, stack, root, state⟩ := last
            cases stack <;> rfl

/-- The kinds of the open elements do not depend on what is put into them. -/
theorem map_kind_push (state : State σ) (node : Built)
    : (state.push node).stack.map Pending.kind = state.stack.map Pending.kind := by
  unfold State.push
  split <;> simp_all

/-- Holds after lines if each element that they opened is open or was asked for, but not both. -/
def AskedFor (env : Environment) (lines : List (List Char)) (state : State (σ × List Request))
    : Prop :=
  ∃ kinds,
    Opened env lines kinds
    ∧ (state.builder.2.map Request.kind ++ state.stack.map Pending.kind).Perm kinds

/-- What a line that opens nothing has to keep. -/
theorem AskedFor.idle {lines : List (List Char)} {line : List Char}
    {state next : State (σ × List Request)} (h : AskedFor env lines state)
    (noOpening : isOpening line = false)
    (same : (next.builder.2.map Request.kind ++ next.stack.map Pending.kind).Perm
      (state.builder.2.map Request.kind ++ state.stack.map Pending.kind))
    : AskedFor env (lines ++ [line]) next := by
  obtain ⟨kinds, opened, asked⟩ := h
  exact ⟨kinds, opened.idle noOpening, same.trans asked⟩

/-- A line opens an element, or asks for one that was open, or does neither. -/
theorem LineStep.askedFor {build : TreeBuilder σ} {before : List (List Char)} {line : List Char}
    {state next : State (σ × List Request)}
    (step : LineStep build.recording env before line state next) (h : AskedFor env before state)
    : AskedFor env (before ++ [line]) next := by
  cases step with
  | empty nothing =>
      subst nothing
      exact h.idle rfl .rfl
  | imported read bound => exact h.idle (by simp [isOpening, read]) .rfl
  | opened isStandIn opening =>
      obtain ⟨kinds, opened, asked⟩ := h
      refine ⟨_, opened.concat opening, ?_⟩
      exact List.perm_middle.trans ((asked.cons _).trans (List.perm_append_singleton _ _).symm)
  | keyed read top =>
      refine h.idle (by simp [isOpening, read]) ?_
      simp [top]
  | furnished read top =>
      refine h.idle (by simp [isOpening, read]) ?_
      simp [top]
  | wrote read =>
      refine h.idle (by simp [isOpening, read]) ?_
      rw [map_kind_push, (push_frame _ _).2.2]
  | closed read top =>
      refine h.idle (by simp [isOpening, read]) ?_
      rw [State.take, map_kind_push, (push_frame _ _).2.2, top]
      exact List.perm_middle.symm

-----------------------------------------------------------------------------------------
-- All units
-----------------------------------------------------------------------------------------

/-- A unit is run line by line after its header. -/
theorem runWith_eq (build : TreeBuilder σ) (builder : σ) (env : Environment) {text : String}
    {body : List (List Char)} (unit : Text.lines text.toList = header.toList :: body)
    : runWith build builder env text
      = runLines build env { builder } 2 body >>= fun last => last.finish build := by
  rw [runWith, unit]
  simp only [bne_self_eq_false, Bool.false_eq_true, if_false]

/-- Clean lines that open more elements than they close are an unfinished unit: the last of the
elements that are open was opened by a line after which the lines are balanced.
-/
theorem exists_unterminated (build : TreeBuilder σ) (builder : σ) {body : List (List Char)}
    (clean : Clean env body) (more : closes body < opens body)
    : ∃ before line after kind,
        body = before ++ line :: after
        ∧ OpensAs env before line kind
        ∧ Balanced after
        ∧ (runLines build env { builder } 2 body >>= fun last => last.finish build)
          = .error (.unterminatedElement kind.identifier (lineNumber before)) := by
  obtain ⟨last, ran, reflects, -⟩ :=
    clean.exists_run build builder (motive := fun _ _ => True) trivial fun _ _ _ => trivial
  have standing := reflects.standing
  have open_ : last.stack ≠ [] := fun nothing =>
    Nat.not_le_of_lt more (reflects.stack_eq_nil_iff.mp nothing)
  obtain ⟨e, outer, top⟩ := List.exists_cons_of_ne_nil open_
  rw [top] at standing
  cases standing with
  | @some before after line _ _ below opening number balanced =>
      refine ⟨before, line, after, e.kind, rfl, opening, balanced, ?_⟩
      rw [ran, ← number]
      show last.finish build = _
      rw [State.finish, top]

/-- Clean lines that close all that they open are a finished unit, for which the builder is asked
for one element for each line that opens one, and for the group of all.
-/
theorem exists_finished (build : TreeBuilder σ) (builder : σ) {body : List (List Char)}
    (clean : Clean env body) (closed : opens body ≤ closes body)
    : ∃ tree own root requests kinds,
        (runLines build.recording env { builder := (builder, []) } 2 body >>= fun last =>
          last.finish build.recording)
        = .ok (tree, own, root :: requests)
        ∧ root.kind = .grouping
        ∧ Opened env body kinds
        ∧ (requests.map Request.kind).Perm kinds := by
  obtain ⟨last, ran, reflects, kinds, opened, asked⟩ :=
    clean.exists_run build.recording (builder, []) (motive := AskedFor env)
      ⟨[], opened_nil env, .rfl⟩ fun _ step holds => step.askedFor holds
  have nothing := reflects.stack_eq_nil_iff.mpr closed
  obtain ⟨imported, stack, nodes, own, requests⟩ := last
  obtain rfl : stack = [] := nothing
  let root := State.groupRequest { root := nodes, builder := own }
  refine ⟨(build root own).1, (build root own).2, root, requests, kinds, ?_, rfl, opened, ?_⟩
  · rw [ran]
    rfl
  · rwa [List.map_nil, List.append_nil] at asked

/-- Which units run, and how the others fail. If a line is faulty given the lines before it, there
is a first such line, and every unit with the same lines up to there fails with the error of that
line. If none is faulty but more elements are opened than closed, the unit fails for the last
element that stays open: the lines after the one that opened it are balanced. Otherwise it runs, and
the builder is asked for one element of the right kind for each line that opens one, and for the
group of all.
-/
theorem runWith_of_history (env : Environment) {text : String} {body : List (List Char)}
    (unit : Text.lines text.toList = header.toList :: body)
    (build : TreeBuilder σ) (builder : σ)
    : (¬Clean env body →
        ∃ before line after error,
          body = before ++ line :: after
          ∧ Clean env before
          ∧ fault? env before line = some error
          ∧ runWith build builder env text = .error error
          ∧ ∀ {τ : Type} (other : TreeBuilder τ) (state : τ) (likewise : String) more,
              Text.lines likewise.toList = header.toList :: (before ++ line :: more) →
              runWith other state env likewise = .error error)
      ∧ (Clean env body → closes body < opens body →
          ∃ before line after kind,
            body = before ++ line :: after
            ∧ OpensAs env before line kind
            ∧ Balanced after
            ∧ runWith build builder env text
              = .error (.unterminatedElement kind.identifier (lineNumber before)))
      ∧ (Clean env body → opens body ≤ closes body →
          ∃ tree own root requests kinds,
            runWith build builder env text = .ok (tree, own)
            ∧ runWith build.recording (builder, []) env text = .ok (tree, own, root :: requests)
            ∧ root.kind = .grouping
            ∧ requests.length = opens body
            ∧ Opened env body kinds
            ∧ (requests.map Request.kind).Perm kinds) := by
  refine ⟨fun unclean => ?_, fun clean more => ?_, fun clean closed => ?_⟩
  · obtain ⟨before, line, after, error, rfl, clean, faulty⟩ := exists_firstFault unclean
    have fails {τ : Type} (other : TreeBuilder τ) (state : τ) (likewise : String)
        (more : List (List Char))
        (lines : Text.lines likewise.toList = header.toList :: (before ++ line :: more))
        : runWith other state env likewise = .error error := by
      rw [runWith_eq other state env lines, runLines_firstFault other state clean faulty]
      rfl
    exact ⟨before, line, after, error, rfl, clean, faulty, fails build builder text after unit,
      fails⟩
  · obtain ⟨before, line, after, kind, split, opening, balanced, failed⟩ :=
      exists_unterminated build builder clean more
    rw [runWith_eq build builder env unit]
    exact ⟨before, line, after, kind, split, opening, balanced, failed⟩
  · obtain ⟨tree, own, root, requests, kinds, ran, grouping, opened, asked⟩ :=
      exists_finished build builder clean closed
    rw [← runWith_eq build.recording (builder, []) env unit] at ran
    have plain := runWith_recording build builder [] env text
    rw [ran] at plain
    refine ⟨tree, own, root, requests, kinds, plain.symm, ran, grouping, ?_, opened, asked⟩
    have length := asked.length_eq
    rw [List.length_map] at length
    rw [length, ← opened.length_eq, length_openings]

def unitOf (body : List String) : String :=
  String.ofList (Text.unlines (header.toList :: body.map String.toList))

/-- The lines of a unit of which the third one is the first that is faulty. -/
def faultyLines : List String :=
  ["open div", "", "open @A", "key k", "jump"]

def openLines : List String :=
  ["import A", "open div", "open @A", "key \"k\"", "open p", "close", ""]

def closedLines : List String :=
  openLines ++ ["close", "text \"t\"", "close"]

/-- The three units fail for a component that is not imported, fail for the second of their
elements, and run.
-/
theorem runWith_sampleUnits
    : (Text.lines (unitOf faultyLines).toList
          = header.toList :: faultyLines.map String.toList
        ∧ ¬Clean (.standIns ["A"]) (faultyLines.map String.toList)
        ∧ ∃ before line after error,
            faultyLines.map String.toList = before ++ line :: after
            ∧ Clean (.standIns ["A"]) before
            ∧ fault? (.standIns ["A"]) before line = some error
            ∧ runWith TreeBuilder.factory () (.standIns ["A"]) (unitOf faultyLines) = .error error)
      ∧ (Text.lines (unitOf openLines).toList = header.toList :: openLines.map String.toList
        ∧ Clean (.standIns ["A"]) (openLines.map String.toList)
        ∧ closes (openLines.map String.toList) < opens (openLines.map String.toList)
        ∧ ∃ before line after kind,
            openLines.map String.toList = before ++ line :: after
            ∧ OpensAs (.standIns ["A"]) before line kind
            ∧ Balanced after
            ∧ runWith TreeBuilder.factory () (.standIns ["A"]) (unitOf openLines)
              = .error (.unterminatedElement kind.identifier (lineNumber before)))
      ∧ (Text.lines (unitOf closedLines).toList = header.toList :: closedLines.map String.toList
        ∧ Clean (.standIns ["A"]) (closedLines.map String.toList)
        ∧ opens (closedLines.map String.toList) ≤ closes (closedLines.map String.toList)
        ∧ ∃ tree own root requests kinds,
            runWith TreeBuilder.factory () (.standIns ["A"]) (unitOf closedLines) = .ok (tree, own)
            ∧ runWith TreeBuilder.factory.recording ((), []) (.standIns ["A"]) (unitOf closedLines)
              = .ok (tree, own, root :: requests)
            ∧ root.kind = .grouping
            ∧ requests.length = opens (closedLines.map String.toList)
            ∧ Opened (.standIns ["A"]) (closedLines.map String.toList) kinds
            ∧ (requests.map Request.kind).Perm kinds) := by
  refine ⟨?faulty, ?open_, ?closed⟩
  case faulty =>
    have unit : Text.lines (unitOf faultyLines).toList
        = header.toList :: faultyLines.map String.toList := by decide +kernel
    have unclean : ¬Clean (.standIns ["A"]) (faultyLines.map String.toList) := by decide +kernel
    obtain ⟨before, line, after, error, split, clean, faulty, failed, -⟩ :=
      (runWith_of_history _ unit TreeBuilder.factory ()).1 unclean
    exact ⟨unit, unclean, before, line, after, error, split, clean, faulty, failed⟩
  case open_ =>
    have unit : Text.lines (unitOf openLines).toList
        = header.toList :: openLines.map String.toList := by decide +kernel
    have clean : Clean (.standIns ["A"]) (openLines.map String.toList) := by decide +kernel
    have more : closes (openLines.map String.toList) < opens (openLines.map String.toList) := by
      decide +kernel
    exact ⟨unit, clean, more, (runWith_of_history _ unit TreeBuilder.factory ()).2.1 clean more⟩
  case closed =>
    have unit : Text.lines (unitOf closedLines).toList
        = header.toList :: closedLines.map String.toList := by decide +kernel
    have clean : Clean (.standIns ["A"]) (closedLines.map String.toList) := by decide +kernel
    have all : opens (closedLines.map String.toList) ≤ closes (closedLines.map String.toList) := by
      decide +kernel
    exact ⟨unit, clean, all, (runWith_of_history _ unit TreeBuilder.factory ()).2.2 clean all⟩

end Folio.Unit
