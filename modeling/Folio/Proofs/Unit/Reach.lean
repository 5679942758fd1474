import Folio.Proofs.Json.Fields
import Folio.Proofs.Tree.Elements
import Folio.Proofs.Unit.Faults

/-! A unit reaches only what it imports. What an environment binds to other names makes no
difference to a run, and the elements of the tree are, one by one, those that the lines of the unit
open.
-/

namespace Folio.Unit

open Folio.Tree (Kind Built Props Node)

-----------------------------------------------------------------------------------------
-- Environments
-----------------------------------------------------------------------------------------

section

variable {σ : Type} {env other : Environment}

/-- A name is imported by the instruction that says so. -/
theorem mem_imported_of_step {build : TreeBuilder σ} {state next : State σ} {line : Nat}
    {i : Instruction} (stepped : state.step build env line i = .ok next) {name : String}
    (member : name ∈ next.imported)
    : name ∈ state.imported ∨ i = .bind name := by
  cases i with
  | bind bound =>
      simp only [State.step] at stepped
      split at stepped
      · obtain rfl := Except.ok.inj stepped
        rcases List.mem_cons.mp member with rfl | old
        · exact .inr rfl
        · exact .inl old
      · cases stepped
  | openTag _ =>
      obtain rfl := Except.ok.inj stepped
      exact .inl member
  | openComponent _ =>
      simp only [State.step] at stepped
      split at stepped
      · cases stepped
      · split at stepped
        · obtain rfl := Except.ok.inj stepped
          exact .inl member
        · cases stepped
  | key _ | prop _ _ =>
      simp only [State.step, State.modifyTop] at stepped
      split at stepped
      · cases stepped
      · obtain rfl := Except.ok.inj stepped
        exact .inl member
  | text text =>
      obtain rfl := Except.ok.inj stepped
      exact .inl ((push_frame state (.string text)).2.1 ▸ member)
  | close =>
      simp only [State.step] at stepped
      split at stepped
      · cases stepped
      · obtain rfl := Except.ok.inj stepped
        rw [(push_frame _ _).2.1] at member
        exact .inl member

/-- An instruction does the same in environments that agree on the name that it imports and on those
that were imported before.
-/
theorem step_agree (build : TreeBuilder σ) {state : State σ} (line : Nat) {i : Instruction}
    (agree : ∀ name, name ∈ state.imported ∨ i = .bind name → other.get? name = env.get? name)
    : state.step build other line i = state.step build env line i := by
  cases i with
  | bind name =>
      have same : other.has name = env.has name :=
        congrArg Option.isSome (agree name (.inr rfl))
      rw [State.step, State.step, same]
  | openComponent name =>
      rw [State.step, State.step]
      by_cases known : state.imported.contains name = true
      · rw [agree name (.inl (List.contains_iff_mem.mp known))]
      · simp only [known, Bool.not_false, if_true]
  | openTag _ | key _ | prop _ _ | text _ | close => rfl

/-- Lines do the same in environments that agree on all names that they import and on those that
were imported before. By induction on the lines.
-/
theorem runLines_agree (build : TreeBuilder σ) {lines : List (List Char)} {state : State σ}
    (agree : ∀ name, name ∈ state.imported ∨ name ∈ imports lines →
      other.get? name = env.get? name)
    (line : Nat)
    : runLines build other state line lines = runLines build env state line lines := by
  induction lines generalizing state line with
  | nil => rfl
  | cons text rest ih =>
      have later {name : String} (member : name ∈ imports rest)
          : name ∈ imports (text :: rest) := by
        obtain ⟨line, inRest, found⟩ := List.mem_filterMap.mp member
        exact List.mem_filterMap.mpr ⟨line, List.mem_cons_of_mem text inRest, found⟩
      rw [runLines, runLines]
      split
      · exact ih (fun name known => agree name (known.imp_right later)) (line + 1)
      · split
        · rfl
        · next i read =>
            have here {name : String} (same : i = .bind name) : name ∈ imports (text :: rest) :=
              List.mem_filterMap.mpr ⟨text, List.mem_cons_self, by simp [imported?, read, same]⟩
            rw [step_agree build line fun name known => agree name (known.imp_right here)]
            cases stepped : state.step build env line i with
            | error fault => rfl
            | ok next =>
                refine ih (fun name known => ?_) (line + 1)
                rcases known with known | known
                · exact agree name ((mem_imported_of_step stepped known).imp_right here)
                · exact agree name (.inr (later known))

/-- A unit does the same in environments that agree on all names that it imports. -/
theorem runWith_agree (build : TreeBuilder σ) (builder : σ) {text : String}
    (agree : ∀ name ∈ imports (Text.lines text.toList), other.get? name = env.get? name)
    : runWith build builder other text = runWith build builder env text := by
  unfold runWith
  split
  · rfl
  · next first rest lines =>
      split
      · rfl
      · have same
            : runLines build other { builder } 2 rest = runLines build env { builder } 2 rest := by
          refine runLines_agree build (fun name known => ?_) 2
          rcases known with known | known
          · cases known
          · obtain ⟨line, inRest, found⟩ := List.mem_filterMap.mp known
            refine agree name ?_
            rw [lines]
            exact List.mem_filterMap.mpr ⟨line, List.mem_cons_of_mem first inRest, found⟩
        rw [same]

end

-----------------------------------------------------------------------------------------
-- Elements
-----------------------------------------------------------------------------------------

/-- The kinds of all elements in a node, an element before those inside it. -/
def kindsIn (node : Built) : List Kind :=
  (node.elements fun _ => false).map Tree.Element.kind

def IsBare (props : Props Kind) : Prop :=
  ∀ prop ∈ props, prop.2.elements (fun _ => false) = []

theorem IsBare.insert {props : Props Kind} (h : IsBare props) (name : String) {node : Built}
    (bare : node.elements (fun _ => false) = [])
    : IsBare (props.insert name node) := by
  intro prop member
  rcases Json.Fields.mem_insert member with rfl | old
  · exact bare
  · exact h prop old

theorem elementsOfProps_of_isBare {props : Props Kind} (h : IsBare props)
    : Node.elementsOfProps (fun _ => false) props = [] := by
  induction props with
  | nil => rfl
  | cons prop rest ih =>
      obtain ⟨first, later⟩ := List.forall_mem_cons.mp h
      simp [Node.elementsOfProps, first, ih later]

/-- A property that is put among bare ones has all the elements. -/
theorem elementsOfProps_insert {props : Props Kind} (h : IsBare props) (name : String)
    (node : Built)
    : Node.elementsOfProps (fun _ => false) (props.insert name node)
      = node.elements fun _ => false := by
  induction props with
  | nil => simp [Json.Fields.insert, Node.elementsOfProps]
  | cons prop rest ih =>
      obtain ⟨first, later⟩ := List.forall_mem_cons.mp h
      unfold Json.Fields.insert
      split
      · simp [Node.elementsOfProps, elementsOfProps_of_isBare later]
      · split
        · simp [Node.elementsOfProps, first, elementsOfProps_of_isBare later]
        · simp [Node.elementsOfProps, first, ih later]

theorem elementsOfItems_eq (items : List Built)
    : Node.elementsOfItems (fun _ => false) items
      = items.flatMap fun node => node.elements fun _ => false := by
  induction items with
  | nil => rfl
  | cons node rest ih => simp [Node.elementsOfItems, ih]

/-- The elements of bare properties with children are those of the children, however they are
stored.
-/
theorem elementsOfProps_withChildren {props : Props Kind} (h : IsBare props)
    (children : List Built)
    : Node.elementsOfProps (fun _ => false) (props.withChildren children)
      = children.flatMap fun node => node.elements fun _ => false := by
  match children with
  | [] => exact elementsOfProps_of_isBare fun prop member => h prop (List.mem_filter.mp member).1
  | [child] =>
      rw [Props.withChildren, elementsOfProps_insert h]
      simp
  | first :: second :: rest =>
      rw [← elementsOfItems_eq]
      exact elementsOfProps_insert h _ _

/-- The notes about an element have no elements. -/
theorem isBare_request {e : Pending} (h : IsBare e.props) (outer : Option Kind)
    : IsBare (e.request outer).props := by
  have note (name : String) {props : Props Kind} (bare : IsBare props) (text : String)
      : IsBare (props.insert name (.string text)) :=
    bare.insert name rfl
  unfold Pending.request
  cases outer <;> cases e.isStandIn
  · exact note _ h _
  · exact note _ (note _ h _) _
  · exact note _ (note _ h _) _
  · exact note _ (note _ (note _ h _) _) _

/-- An element that is made has its own kind and the kinds in its children. -/
theorem kindsIn_made {e : Pending} (h : IsBare e.props) (outer : Option Kind)
    : kindsIn (TreeBuilder.factory (e.request outer) ()).1
      = e.kind :: e.children.reverse.flatMap kindsIn := by
  have below := elementsOfProps_withChildren (isBare_request h outer) e.children.reverse
  show List.map Tree.Element.kind (_ :: Node.elementsOfProps _ _) = _
  rw [List.map_cons]
  refine congrArg (e.kind :: ·) ?_
  refine (congrArg (List.map Tree.Element.kind) below).trans ?_
  rw [List.map_flatMap]
  rfl

/-- The kinds of all elements of a state, those that are open included, in the order in which they
were opened.
-/
def State.kinds {σ : Type} (state : State σ) : List Kind :=
  state.root.reverse.flatMap kindsIn
    ++ state.stack.reverse.flatMap fun e => e.kind :: e.children.reverse.flatMap kindsIn

/-- What is added to a state comes last in it. -/
theorem kinds_push {σ : Type} (state : State σ) (node : Built)
    : (state.push node).kinds = state.kinds ++ kindsIn node := by
  obtain ⟨imported, stack, root, builder⟩ := state
  cases stack with
  | nil => simp [State.push, State.kinds]
  | cons e outer => simp [State.push, State.kinds]

/-- Holds after lines if the elements that they opened are those of the state, and no other property
than the children has elements.
-/
structure Grown (env : Environment) (lines : List (List Char)) (state : State Unit) : Prop where
  opened : Opened env lines state.kinds
  bare : ∀ e ∈ state.stack, IsBare e.props

theorem bare_push {σ : Type} {state : State σ} (h : ∀ e ∈ state.stack, IsBare e.props)
    (node : Built)
    : ∀ e ∈ (state.push node).stack, IsBare e.props := by
  unfold State.push
  split
  · exact h
  · next e outer top =>
      obtain ⟨here, below⟩ := List.forall_mem_cons.mp (top ▸ h)
      exact List.forall_mem_cons.mpr ⟨here, below⟩

theorem grown_start (env : Environment) : Grown env [] { builder := () } :=
  ⟨opened_nil env, List.forall_mem_nil _⟩

/-- A line adds the element that it opens, and no other. -/
theorem LineStep.grown {env : Environment} {before : List (List Char)} {line : List Char}
    {state next : State Unit} (step : LineStep TreeBuilder.factory env before line state next)
    (h : Grown env before state)
    : Grown env (before ++ [line]) next := by
  cases step with
  | empty nothing =>
      subst nothing
      exact ⟨h.opened.idle rfl, h.bare⟩
  | imported read bound => exact ⟨h.opened.idle (by simp [isOpening, read]), h.bare⟩
  | @opened kind isStandIn opening =>
      refine ⟨?_, List.forall_mem_cons.mpr ⟨List.forall_mem_nil _, h.bare⟩⟩
      have last : (state.openElement kind isStandIn (lineNumber before)).kinds
          = state.kinds ++ [kind] := by
        simp [State.openElement, State.kinds]
      rw [last]
      exact h.opened.concat opening
  | keyed read top =>
      have bare := h.bare
      rw [top] at bare
      obtain ⟨here, below⟩ := List.forall_mem_cons.mp bare
      refine ⟨?_, List.forall_mem_cons.mpr ⟨here, below⟩⟩
      have opened : Opened env (before ++ [line]) state.kinds :=
        h.opened.idle (by simp [isOpening, read])
      simpa [State.kinds, top] using opened
  | furnished read top =>
      have bare := h.bare
      rw [top] at bare
      obtain ⟨here, below⟩ := List.forall_mem_cons.mp bare
      refine ⟨?_, List.forall_mem_cons.mpr ⟨here.insert _ ?_, below⟩⟩
      · have opened : Opened env (before ++ [line]) state.kinds :=
          h.opened.idle (by simp [isOpening, read])
        simpa [State.kinds, top] using opened
      · exact Node.elements_ofJson _ _
  | wrote read =>
      refine ⟨?_, bare_push h.bare _⟩
      rw [kinds_push]
      exact (List.append_nil state.kinds).symm ▸ h.opened.idle (by simp [isOpening, read])
  | @closed e outer read top =>
      have bare := h.bare
      rw [top] at bare
      obtain ⟨here, below⟩ := List.forall_mem_cons.mp bare
      refine ⟨?_, bare_push below _⟩
      have opened : Opened env (before ++ [line]) state.kinds :=
        h.opened.idle (by simp [isOpening, read])
      rw [State.take, kinds_push, kindsIn_made here]
      simpa [State.kinds, top] using opened

/-- Lines whose run does not fail are clean. -/
theorem clean_of_runLines {σ : Type} {build : TreeBuilder σ} {builder : σ} {env : Environment}
    {lines : List (List Char)} {last : State σ}
    (ran : runLines build env { builder } 2 lines = .ok last)
    : Clean env lines := by
  by_contra unclean
  obtain ⟨before, line, after, error, rfl, clean, faulty⟩ := exists_firstFault unclean
  rw [runLines_firstFault build builder clean faulty] at ran
  cases ran

/-- What is run to its end has a header, lines that do not fail, and nothing open after them. -/
theorem exists_of_run {env : Environment} {text : String} {tree : Built}
    (ran : run env text = .ok tree)
    : ∃ body last,
        Text.lines text.toList = header.toList :: body
        ∧ runLines TreeBuilder.factory env { builder := () } 2 body = .ok last
        ∧ last.stack = []
        ∧ tree = (TreeBuilder.factory last.groupRequest ()).1 := by
  unfold run runWith at ran
  split at ran
  · cases ran
  · next first body lines =>
      split at ran
      · cases ran
      · next same =>
          obtain rfl : first = header.toList := by simpa using same
          cases result : runLines TreeBuilder.factory env { builder := () } 2 body with
          | error fault =>
              rw [result] at ran
              cases ran
          | ok last =>
              rw [result] at ran
              obtain ⟨imported, stack, root, builder⟩ := last
              cases stack with
              | nil => exact ⟨body, _, lines, result, rfl, (Except.ok.inj ran).symm⟩
              | cons e outer => cases ran

/-- The elements of a tree other than its group are those that the lines of its unit open, in the
same order.
-/
theorem opened_of_run {env : Environment} {text : String} {tree : Built}
    (ran : run env text = .ok tree)
    : ∃ body props,
        Text.lines text.toList = header.toList :: body
        ∧ tree = .element .grouping none props
        ∧ Opened env body
            ((Node.elementsOfProps (fun _ => false) props).map Tree.Element.kind) := by
  obtain ⟨body, last, lines, ranLines, nothing, rfl⟩ := exists_of_run ran
  obtain ⟨_, ranAgain, -, grown⟩ :=
    (clean_of_runLines ranLines).exists_run TreeBuilder.factory () (motive := Grown env)
      (grown_start env) fun _ step holds => step.grown holds
  obtain rfl := Except.ok.inj (ranLines.symm.trans ranAgain)
  refine ⟨body, _, lines, rfl, ?_⟩
  have noted : IsBare last.groupRequest.props :=
    List.forall_mem_singleton.mpr rfl
  have kinds : last.kinds = last.root.reverse.flatMap kindsIn := by
    simp [State.kinds, nothing]
  have opened := grown.opened
  rw [kinds] at opened
  rw [elementsOfProps_withChildren noted, List.map_flatMap]
  exact opened

/-- A unit reaches only what it imports. In two environments that agree on all names that it imports
it gives the same result with every builder. Apart from the group around all, the elements of the
tree are one by one those that its lines open: tags whose names these lines spell, and what the
environment binds to names that earlier lines import. No property smuggles in another one.
-/
theorem run_reaches_imports (env : Environment) (text : String)
    : (∀ other : Environment,
          (∀ name ∈ imports (Text.lines text.toList), other.get? name = env.get? name) →
          ∀ {σ : Type} (build : TreeBuilder σ) (builder : σ),
            runWith build builder other text = runWith build builder env text)
      ∧ ∀ tree, run env text = .ok tree →
          ∃ body props,
            Text.lines text.toList = header.toList :: body
            ∧ tree = .element .grouping none props
            ∧ List.Forall₂ (fun opening e => OpensAs env opening.1 opening.2 e.kind)
                (openings body) (Node.elementsOfProps (fun _ => false) props) := by
  refine ⟨fun other agree {σ} build builder => runWith_agree build builder agree, ?_⟩
  intro tree ran
  obtain ⟨body, props, lines, isGroup, opened⟩ := opened_of_run ran
  exact ⟨body, props, lines, isGroup, List.forall₂_map_right_iff.mp opened⟩

/-- A unit that imports one of two names, with a property that looks like an element of the other
one.
-/
def disguisedUnit : String :=
  "#!weave-unit 1\nimport A\nopen @A\nprop x [\"$r\",\"B\",null,\x7b\x7d]\nopen p\nclose\nclose\n"

/-- It is built in the same way without the other name, and has the two elements that it opens. -/
theorem run_disguisedUnit
    : (∀ name ∈ imports (Text.lines disguisedUnit.toList),
        (Environment.standIns ["A"]).get? name = (Environment.standIns ["A", "B"]).get? name)
      ∧ runWith TreeBuilder.factory () (.standIns ["A"]) disguisedUnit
        = runWith TreeBuilder.factory () (.standIns ["A", "B"]) disguisedUnit
      ∧ ∃ tree,
          run (.standIns ["A", "B"]) disguisedUnit = .ok tree
          ∧ ∃ body props,
              Text.lines disguisedUnit.toList = header.toList :: body
              ∧ tree = .element .grouping none props
              ∧ List.Forall₂
                  (fun opening e => OpensAs (.standIns ["A", "B"]) opening.1 opening.2 e.kind)
                  (openings body) (Node.elementsOfProps (fun _ => false) props) := by
  obtain ⟨twoRuns, elements⟩ := run_reaches_imports (.standIns ["A", "B"]) disguisedUnit
  have agree : ∀ name ∈ imports (Text.lines disguisedUnit.toList),
      (Environment.standIns ["A"]).get? name = (Environment.standIns ["A", "B"]).get? name := by
    have one : imports (Text.lines disguisedUnit.toList) = ["A"] := by decide +kernel
    rw [one, List.forall_mem_singleton]
    rfl
  have runs : (run (.standIns ["A", "B"]) disguisedUnit).isOk = true := by decide +kernel
  obtain ⟨tree, ran⟩ := exists_of_isOk runs
  exact ⟨agree, twoRuns _ agree TreeBuilder.factory (), tree, ran, elements tree ran⟩

end Folio.Unit
