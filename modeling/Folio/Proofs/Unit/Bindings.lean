import Folio.Proofs.Tree.Bare
import Folio.Proofs.Unit.Mirror
import Mathlib.Data.List.Forall2

/-! What a name is bound to only shows in its kind. Two runs of a unit in environments that bind the
same names to the same kinds fail alike or build trees that differ in the notes about their elements
at most, since the notes alone tell stand-ins.
-/

namespace Folio.Unit

open Folio.Tree (Kind Built Node Props)

-----------------------------------------------------------------------------------------
-- Environments with the same kinds
-----------------------------------------------------------------------------------------

/-- Holds for environments that bind the same names, and each of them to the same kind. -/
def SameKinds (env other : Environment) : Prop :=
  ∀ name, (other.get? name).map Binding.kind = (env.get? name).map Binding.kind

/-- The environment in which each name is bound to the component of that name. -/
def Environment.components (names : List String) : Environment :=
  names.foldl (fun env name => env.bind name (.component name)) []

/-- Bindings that are put in under a name, of the same kind. -/
theorem SameKinds.insert {env other : Environment} (same : SameKinds env other) (name : String)
    {binding otherBinding : Binding} (kind : otherBinding.kind = binding.kind)
    : SameKinds (Json.Fields.insert env name binding)
        (Json.Fields.insert other name otherBinding) := by
  intro n
  rw [Json.Fields.get?_insert, Json.Fields.get?_insert]
  split
  · exact congrArg some kind
  · exact same n

/-- Stand-ins are of the kinds of the components that they stand for, by induction on the names. -/
theorem sameKinds_components (names : List String)
    : SameKinds (.standIns names) (.components names) := by
  have fold (env other : Environment) (same : SameKinds env other)
      : SameKinds
          ((names.map fun name =>
            (name, ({ kind := .component name, isStandIn := true } : Binding))).foldl
              (fun fields entry => Json.Fields.insert fields entry.1 entry.2) env)
          (names.foldl (fun env name => env.bind name (.component name)) other) := by
    induction names generalizing env other with
    | nil => exact same
    | cons name rest ih => exact ih _ _ (same.insert name rfl)
  exact fold [] [] fun _ => rfl

theorem SameKinds.has {env other : Environment} (same : SameKinds env other) (name : String)
    : Json.Fields.has other name = Json.Fields.has env name := by
  have found := congrArg Option.isSome (same name)
  rwa [Option.isSome_map, Option.isSome_map] at found

-----------------------------------------------------------------------------------------
-- Elements with the same kinds
-----------------------------------------------------------------------------------------

/-- A built tree without the notes about its elements. -/
def bare (node : Built) : Built :=
  node.bare Tree.internalProps.contains

/-- The notes about an element are hidden. -/
theorem bareProps_request (e : Pending) (outer : Option Kind)
    : Node.bareProps Tree.internalProps.contains (e.request outer).props
      = Node.bareProps Tree.internalProps.contains e.props := by
  unfold Pending.request
  cases outer with
  | none =>
      dsimp only
      rw [Node.bareProps_insert_hidden rfl]
      split
      · exact Node.bareProps_insert_hidden rfl _ _
      · rfl
  | some kind =>
      dsimp only
      rw [Node.bareProps_insert_hidden rfl, Node.bareProps_insert_hidden rfl]
      split
      · exact Node.bareProps_insert_hidden rfl _ _
      · rfl

/-- Holds for open elements that differ in whether they are stand-ins, and inside their children in
notes, but not otherwise.
-/
structure Pending.Matches (e other : Pending) : Prop where
  kind : other.kind = e.kind
  line : other.line = e.line
  key : other.key = e.key
  props : other.props = e.props
  sorted : Json.Fields.Sorted e.props
  children : other.children.map bare = e.children.map bare

/-- What is made of an element, without its notes. -/
theorem bare_made {e : Pending} (sorted : Json.Fields.Sorted e.props) (outer : Option Kind)
    : bare (TreeBuilder.factory (e.request outer) ()).1
      = .element e.kind e.key
          (Props.withChildren (Node.bareProps Tree.internalProps.contains e.props)
            (e.children.reverse.map bare)) := by
  have hidden : Tree.internalProps.contains Tree.childrenProp = false := by decide
  show Node.element e.kind e.key
    (Node.bareProps Tree.internalProps.contains
      (Props.withChildren (e.request outer).props e.children.reverse)) = _
  rw [Node.bareProps_withChildren hidden (sorted_request sorted outer), bareProps_request]
  rfl

theorem Pending.Matches.made {e other : Pending} (h : e.Matches other) (outer : Option Kind)
    : bare (TreeBuilder.factory (other.request outer) ()).1
      = bare (TreeBuilder.factory (e.request outer) ()).1 := by
  rw [bare_made h.sorted, bare_made (h.props ▸ h.sorted), h.kind, h.key, h.props, List.map_reverse,
    List.map_reverse, h.children]

-----------------------------------------------------------------------------------------
-- Two runs
-----------------------------------------------------------------------------------------

/-- Holds for results that are the same error, or values that are related. -/
inductive Together {ε α : Type} (R : α → α → Prop) : Except ε α → Except ε α → Prop where
  | error (e : ε) : Together R (.error e) (.error e)
  | ok {value other : α} (related : R value other) : Together R (.ok value) (.ok other)

theorem Together.bind {ε α β : Type} {R : α → α → Prop} {S : β → β → Prop}
    {first second : Except ε α} {next also : α → Except ε β} (h : Together R first second)
    (later : ∀ value other, R value other → Together S (next value) (also other))
    : Together S (first >>= next) (second >>= also) := by
  cases h with
  | error e => exact .error e
  | ok related => exact later _ _ related

/-- Holds for units that have come equally far, and have built the same apart from notes. -/
structure State.Matches (s other : State PUnit) : Prop where
  imported : other.imported = s.imported
  stack : List.Forall₂ Pending.Matches s.stack other.stack
  root : other.root.map bare = s.root.map bare

namespace State.Matches

variable {s other : State PUnit} {env otherEnv : Environment}

theorem push (h : s.Matches other) {node otherNode : Built} (same : bare otherNode = bare node)
    : (s.push node).Matches (other.push otherNode) := by
  obtain ⟨imported, stack, root, builder⟩ := s
  obtain ⟨otherImported, otherStack, otherRoot, otherBuilder⟩ := other
  obtain ⟨imports, pairs, roots⟩ := h
  dsimp only at imports pairs roots
  unfold State.push
  cases pairs with
  | nil =>
      refine ⟨imports, .nil, ?_⟩
      dsimp only
      rw [List.map_cons, List.map_cons, same, roots]
  | cons top below =>
      refine ⟨imports, .cons ⟨top.kind, top.line, top.key, top.props, top.sorted, ?_⟩ below, roots⟩
      rw [List.map_cons, List.map_cons, same, top.children]

theorem modifyTop (h : s.Matches other) (instruction : String) (line : Nat)
    {change : Pending → Pending}
    (changed : ∀ e e' : Pending, e.Matches e' → (change e).Matches (change e'))
    : Together Matches (s.modifyTop instruction line change)
        (other.modifyTop instruction line change) := by
  obtain ⟨imported, stack, root, builder⟩ := s
  obtain ⟨otherImported, otherStack, otherRoot, otherBuilder⟩ := other
  obtain ⟨imports, pairs, roots⟩ := h
  dsimp only at imports pairs roots
  unfold State.modifyTop
  cases pairs with
  | nil => exact .error _
  | cons top below => exact .ok ⟨imports, .cons (changed _ _ top) below, roots⟩

theorem openElement (h : s.Matches other) (kind : Kind) (isStandIn isStandIn' : Bool) (line : Nat)
    : (s.openElement kind isStandIn line).Matches (other.openElement kind isStandIn' line) where
  imported := h.imported
  stack := .cons ⟨rfl, rfl, rfl, rfl, List.Pairwise.nil, rfl⟩ h.stack
  root := h.root

/-- Elements that are closed in both runs are put where they stood open. -/
theorem close (h : s.Matches other) (line : Nat)
    : Together Matches (s.step TreeBuilder.factory env line .close)
        (other.step TreeBuilder.factory otherEnv line .close) := by
  obtain ⟨imported, stack, root, builder⟩ := s
  obtain ⟨otherImported, otherStack, otherRoot, otherBuilder⟩ := other
  obtain ⟨imports, pairs, roots⟩ := h
  dsimp only at imports pairs roots
  unfold State.step
  cases pairs with
  | nil => exact .error _
  | @cons e otherE below otherBelow top rest =>
      have kinds : (otherBelow.head?).map Pending.kind = (below.head?).map Pending.kind := by
        cases rest with
        | nil => rfl
        | cons outer _ => exact congrArg some outer.kind
      refine .ok (push ⟨imports, rest, roots⟩ ?_)
      rw [kinds]
      exact top.made _

/-- An instruction leads to states that match, or fails in both runs with the same error. -/
theorem step (h : s.Matches other) (same : SameKinds env otherEnv) (line : Nat) (i : Instruction)
    : Together Matches (s.step TreeBuilder.factory env line i)
        (other.step TreeBuilder.factory otherEnv line i) := by
  cases i with
  | bind name =>
      simp only [State.step, same.has]
      split
      · exact .ok ⟨congrArg (name :: ·) h.imported, h.stack, h.root⟩
      · exact .error _
  | openTag name => exact .ok (h.openElement _ _ _ line)
  | openComponent name =>
      simp only [State.step, h.imported]
      split
      · exact .error _
      · have kinds := same name
        revert kinds
        cases Json.Fields.get? env name with
        | none =>
            cases Json.Fields.get? otherEnv name with
            | none => exact fun _ => .error _
            | some binding => exact fun kinds => by cases kinds
        | some binding =>
            cases Json.Fields.get? otherEnv name with
            | none => exact fun kinds => by cases kinds
            | some otherBinding =>
                intro kinds
                have kind : otherBinding.kind = binding.kind := Option.some.inj kinds
                dsimp only
                rw [kind]
                exact .ok (h.openElement _ _ _ line)
  | key key =>
      apply h.modifyTop
      intro e e' top
      exact ⟨top.kind, top.line, rfl, top.props, top.sorted, top.children⟩
  | prop name value =>
      apply h.modifyTop
      intro e e' top
      refine ⟨top.kind, top.line, top.key, ?_, top.sorted.insert _ _, top.children⟩
      dsimp only
      rw [top.props]
  | text text => exact .ok (h.push rfl)
  | close => exact h.close line

/-- Lines lead to states that match, or both runs fail with the same error. By induction on the
lines.
-/
theorem runLines (h : s.Matches other) (same : SameKinds env otherEnv) (line : Nat)
    (lines : List (List Char))
    : Together Matches (Unit.runLines TreeBuilder.factory env s line lines)
        (Unit.runLines TreeBuilder.factory otherEnv other line lines) := by
  induction lines generalizing s other line with
  | nil => exact .ok h
  | cons text rest ih =>
      unfold Unit.runLines
      split
      · exact ih h (line + 1)
      · split
        · exact .error _
        · next i _ =>
            apply (h.step same line i).bind
            intro next otherNext later
            exact ih later (line + 1)

/-- Units that have built the same apart from notes are finished alike. -/
theorem finish (h : s.Matches other)
    : Together (fun made otherMade => bare otherMade.1 = bare made.1)
        (s.finish TreeBuilder.factory) (other.finish TreeBuilder.factory) := by
  obtain ⟨imported, stack, root, builder⟩ := s
  obtain ⟨otherImported, otherStack, otherRoot, otherBuilder⟩ := other
  obtain ⟨imports, pairs, roots⟩ := h
  dsimp only at imports pairs roots
  unfold State.finish
  cases pairs with
  | nil =>
      refine .ok ?_
      have group (nodes : List Built)
          : bare (.element .grouping none
              (Props.withChildren [("debugType", .string Kind.grouping.identifier)] nodes.reverse))
            = .element .grouping none (Props.withChildren [] (nodes.map bare).reverse) := by
        show Node.element Kind.grouping none
          (Node.bareProps Tree.internalProps.contains (Props.withChildren _ _)) = _
        rw [Node.bareProps_withChildren rfl (List.pairwise_singleton _ _), List.map_reverse]
        rfl
      show bare (.element .grouping none
          (Props.withChildren [("debugType", .string Kind.grouping.identifier)] otherRoot.reverse))
        = _
      rw [group, roots]
      exact (group root).symm
  | cons top below =>
      dsimp only
      rw [top.kind, top.line]
      exact .error _

end State.Matches

/-- Two runs of a unit, in environments that bind the same names to the same kinds, fail with the
same error or build trees that are the same without the notes about their elements.
-/
theorem run_sameKinds {env other : Environment} (same : SameKinds env other) (text : String)
    : (run other text).map bare = (run env text).map bare := by
  have together : Together (fun made otherMade => bare otherMade.1 = bare made.1)
      (runWith TreeBuilder.factory () env text) (runWith TreeBuilder.factory () other text) := by
    unfold runWith
    split
    · exact .error _
    · split
      · exact .error _
      · have start : State.Matches { builder := () } { builder := () } := ⟨rfl, .nil, rfl⟩
        apply (start.runLines same 2 _).bind
        intro last otherLast related
        exact related.finish
  unfold run
  generalize runWith TreeBuilder.factory () env text = first at together ⊢
  generalize runWith TreeBuilder.factory () other text = second at together ⊢
  cases together with
  | error e => rfl
  | ok related => exact congrArg Except.ok related

end Folio.Unit
