import Folio.Proofs.Unit.Lines
import Folio.Unit.Run

/-! Running the lines of a document builds it: children first, and then the element that holds them.
The lines of a node leave the elements that are open as they were, whatever is open and whatever
lines follow.
-/

namespace Folio.Unit

open Folio.Tree (Kind Built Props)

variable {σ : Type}

-----------------------------------------------------------------------------------------
-- The nodes that can be written
-----------------------------------------------------------------------------------------

/-- Holds for names that stand before a blank on a line. -/
def IsPropName (name : String) : Prop :=
  ' ' ∉ name.toList ∧ '\n' ∉ name.toList

instance (name : String) : Decidable (IsPropName name) :=
  inferInstanceAs (Decidable (_ ∧ _))

/-- Holds for elements whose names fit into the lines of a unit that binds some names. -/
structure Named (bindings : List String) (kind : Document.Kind) (attributes : Document.Attributes)
    : Prop where
  tag : ∀ name, kind = .tag name → IsOpenable name.toList
  component : ∀ name, kind = .component name → name ∈ bindings
  names : ∀ entry ∈ attributes, IsPropName entry.1

/-- Holds for elements whose names fit, and whose values are read as they are written. -/
structure Writable (bindings : List String) (kind : Document.Kind)
    (attributes : Document.Attributes)
    : Prop
    extends Named bindings kind attributes where
  values : ∀ entry ∈ attributes, Json.parse entry.2.render = .ok entry.2

def Environment.Binds (env : Environment) (names : List String) : Prop :=
  ∀ name ∈ names, env.has name = true

instance (env : Environment) (names : List String) : Decidable (env.Binds names) :=
  List.decidableBAll (fun name => env.has name = true) names

-----------------------------------------------------------------------------------------
-- What a builder makes of a document
-----------------------------------------------------------------------------------------

/-- The binding under which an element is opened. A tag is no stand-in. -/
def bindingOf? (env : Environment) : Document.Kind → Option Binding
  | .tag name => some { kind := .tag name, isStandIn := false }
  | .component name => env.get? name

def requestFor (binding : Binding) (outer : Option Kind) (key : Option String)
    (attributes : Document.Attributes) (children : List Built)
    : Request :=
  let notNoted : Pending :=
    {
      kind := binding.kind
      isStandIn := binding.isStandIn
      line := 0
      key
      props :=
        attributes.foldl (fun props entry => Json.Fields.insert props entry.1 (.ofJson entry.2)) []
      children := children.reverse
    }
  notNoted.request outer

def rootRequest (children : List Built) : Request :=
  { kind := .grouping, key := none, props := [("debugType", .string "#group")], children }

mutual

/-- What a builder makes of a node inside an element of a kind. -/
def made (build : TreeBuilder σ) (env : Environment) (outer : Option Kind)
    : Document.Node → σ → Built × σ
  | .text t, builder => (.string t, builder)
  | .element kind key attributes children, builder =>
      let binding := (bindingOf? env kind).getD default
      let (images, builder) := madeAll build env (some binding.kind) children builder
      build (requestFor binding outer key attributes images) builder

def madeAll (build : TreeBuilder σ) (env : Environment) (outer : Option Kind)
    : List Document.Node → σ → List Built × σ
  | [], builder => ([], builder)
  | node :: rest, builder =>
      let (image, builder) := made build env outer node builder
      let (images, builder) := madeAll build env outer rest builder
      (image :: images, builder)

end

-----------------------------------------------------------------------------------------
-- Steps
-----------------------------------------------------------------------------------------

/-- A readable line is carried out. -/
theorem runLines_words (build : TreeBuilder σ) (env : Environment) (state : State σ) (line : Nat)
    {i : Instruction} (h : i.Readable) (rest : List (List Char))
    : runLines build env state line (i.words :: rest)
      = (state.step build env line i).bind fun state =>
          runLines build env state (line + 1) rest := by
  have filled : i.words.isEmpty = false := List.isEmpty_eq_false_iff.mpr h.notEmpty
  rw [runLines, h.read]
  simp only [filled]
  rfl

/-- The imports of a unit bind its names, by induction on the names. -/
theorem runLines_imports (build : TreeBuilder σ) {env : Environment} {names : List String}
    (fits : ∀ name ∈ names, Text.IsLine name.toList) (bound : env.Binds names)
    (state : State σ) (line : Nat) (rest : List (List Char))
    : ∃ next,
        runLines build env state line ((names.map Instruction.bind).map Instruction.words ++ rest)
        = runLines build env { state with imported := names.reverse ++ state.imported } next
            rest := by
  induction names generalizing state line with
  | nil => exact ⟨line, rfl⟩
  | cons name names ih =>
      obtain ⟨first, later⟩ := List.forall_mem_cons.mp fits
      obtain ⟨has, bound⟩ := List.forall_mem_cons.mp bound
      obtain ⟨next, run⟩ :=
        ih later bound { state with imported := name :: state.imported } (line + 1)
      refine ⟨next, ?_⟩
      rw [List.map_cons, List.map_cons, List.cons_append,
        runLines_words build env state line (readable_bind first), State.step, if_pos has]
      simp only [Except.bind, run, List.reverse_cons, List.append_assoc, List.singleton_append]

/-- The properties of an element are put under their names, by induction on the attributes. -/
theorem runLines_props (build : TreeBuilder σ) (env : Environment)
    {attributes : List (String × Json.Value)}
    (readable : ∀ entry ∈ attributes, (Instruction.prop entry.1 entry.2).Readable)
    (state : State σ) (e : Pending) (outer : List Pending) (line : Nat) (rest : List (List Char))
    : ∃ next,
        runLines build env { state with stack := e :: outer } line
          ((attributes.map fun entry => Instruction.prop entry.1 entry.2).map Instruction.words
            ++ rest)
        = runLines build env
            {
              state with
              stack :=
                {
                  e with
                  props :=
                    attributes.foldl
                      (fun props entry => Json.Fields.insert props entry.1 (.ofJson entry.2))
                      e.props
                } :: outer
            }
            next rest := by
  induction attributes generalizing e line with
  | nil => exact ⟨line, rfl⟩
  | cons entry attributes ih =>
      obtain ⟨first, later⟩ := List.forall_mem_cons.mp readable
      obtain ⟨next, run⟩ :=
        ih later { e with props := e.props.insert entry.1 (.ofJson entry.2) } (line + 1)
      refine ⟨next, ?_⟩
      rw [List.map_cons, List.map_cons, List.cons_append, runLines_words build env _ line first]
      exact run

/-- The key of an element is set, if it has one. -/
theorem runLines_key (build : TreeBuilder σ) (env : Environment) (key : Option String)
    (state : State σ) {e : Pending} (noKey : e.key = none) (outer : List Pending) (line : Nat)
    (rest : List (List Char))
    : ∃ next,
        runLines build env { state with stack := e :: outer } line
          ((key.map Instruction.key).toList.map Instruction.words ++ rest)
        = runLines build env { state with stack := { e with key } :: outer } next rest := by
  cases key with
  | none =>
      obtain ⟨_, _, _, _, _, _⟩ := e
      obtain rfl := noKey
      exact ⟨line, rfl⟩
  | some k =>
      refine ⟨line + 1, ?_⟩
      exact runLines_words build env _ line (readable_key k) rest

/-- The line that opens an element, inside a unit that has imported its name. -/
theorem step_opening (build : TreeBuilder σ) {env : Environment} {bindings : List String}
    (bound : env.Binds bindings) {kind : Document.Kind}
    (declared : ∀ name, kind = .component name → name ∈ bindings)
    {state : State σ} (imported : bindings ⊆ state.imported) (line : Nat)
    : state.step build env line (.opening kind)
      = .ok
          (state.openElement ((bindingOf? env kind).getD default).kind
            ((bindingOf? env kind).getD default).isStandIn line) := by
  cases kind with
  | tag name => rfl
  | component name =>
      have member := declared name rfl
      have known : state.imported.contains name = true :=
        List.contains_iff_mem.mpr (imported member)
      obtain ⟨binding, found⟩ := Option.isSome_iff_exists.mp (bound name member)
      simp only [Instruction.opening, State.step, known, found, bindingOf?, Option.getD_some]
      rfl

-----------------------------------------------------------------------------------------
-- Whole nodes
-----------------------------------------------------------------------------------------

def State.inside (state : State σ) : Option Kind :=
  state.stack.head?.map Pending.kind

/-- The state after a node was built and put into the innermost element. -/
def State.take (state : State σ) (result : Built × σ) : State σ :=
  { state with builder := result.2 }.push result.1

def State.takeAll (state : State σ) (result : List Built × σ) : State σ :=
  result.1.foldl State.push { state with builder := result.2 }

/-- Adding a node only adds it: what is open and imported and the state of the builder stay. -/
theorem push_frame (state : State σ) (node : Built)
    : (state.push node).inside = state.inside
      ∧ (state.push node).imported = state.imported
      ∧ (state.push node).builder = state.builder := by
  unfold State.push State.inside
  split <;> simp_all

/-- Nodes that are added become children of the innermost element, by induction on the nodes. -/
theorem foldl_push_open (state : State σ) (e : Pending) (outer : List Pending) (nodes : List Built)
    : nodes.foldl State.push { state with stack := e :: outer }
      = { state with stack := { e with children := nodes.reverse ++ e.children } :: outer } := by
  induction nodes generalizing e with
  | nil => rfl
  | cons node rest ih =>
      rw [List.reverse_cons, List.append_assoc, List.singleton_append]
      exact ih { e with children := node :: e.children }

/-- Nodes that are added outside of all elements stay there, by induction on the nodes. -/
theorem foldl_push_root (state : State σ) (nodes : List Built)
    : nodes.foldl State.push { state with stack := [] }
      = { state with stack := [], root := nodes.reverse ++ state.root } := by
  induction nodes generalizing state with
  | nil => rfl
  | cons node rest ih =>
      rw [List.reverse_cons, List.append_assoc, List.singleton_append]
      exact ih { state with root := node :: state.root }

/-- Taking one node and then others is taking all of them, with the last state of the builder. -/
theorem takeAll_take (state : State σ) (first : Built × σ) (later : List Built × σ)
    : (state.take first).takeAll later = state.takeAll (first.1 :: later.1, later.2) := by
  have same : { state.take first with builder := later.2 }
      = ({ state with builder := later.2 } : State σ).push first.1 := by
    unfold State.take State.push
    cases state.stack <;> rfl
  rw [State.takeAll, State.takeAll, List.foldl_cons, same]

/-- The instruction that opens a writable element is readable. -/
theorem readable_opening {bindings : List String} {kind : Document.Kind}
    {attributes : Document.Attributes} (fits : ∀ name ∈ bindings, Text.IsLine name.toList)
    (writable : Writable bindings kind attributes)
    : (Instruction.opening kind).Readable := by
  cases kind with
  | tag name => exact readable_openTag (writable.tag name rfl)
  | component name => exact readable_openComponent (fits name (writable.component name rfl))

/-- The instructions that give a writable element its properties are readable. -/
theorem readable_attributes {bindings : List String} {kind : Document.Kind}
    {attributes : Document.Attributes} (writable : Writable bindings kind attributes)
    : ∀ entry ∈ attributes, (Instruction.prop entry.1 entry.2).Readable := by
  intro entry member
  obtain ⟨noBlank, noFeed⟩ := writable.names entry member
  exact readable_prop noBlank noFeed (writable.values entry member)

section

variable {P : Instruction → Prop}

mutual

/-- What holds of the instructions of each element, and of texts, keys and ends, holds of all
instructions of a node. By induction on the node.
-/
theorem forall_mem_lower (texts : ∀ t, P (.text t)) (keys : ∀ k, P (.key k)) (ends : P .close)
    (node : Document.Node)
    (elements : ∀ e ∈ node.elements,
      P (.opening e.kind) ∧ ∀ entry ∈ e.attributes, P (.prop entry.1 entry.2))
    : ∀ i ∈ lower node, P i := by
  match node with
  | .text t => exact List.forall_mem_singleton.mpr (texts t)
  | .element kind key attributes children =>
      obtain ⟨⟨opened, given⟩, below⟩ := List.forall_mem_cons.mp elements
      intro i member
      simp only [lower, List.cons_append, List.mem_cons, List.mem_append, List.not_mem_nil,
        or_false] at member
      rcases member with rfl | (((keyed | furnished) | inner) | rfl)
      · exact opened
      · obtain ⟨k, _, rfl⟩ := Option.map_eq_some_iff.mp (Option.mem_toList.mp keyed)
        exact keys k
      · obtain ⟨entry, isOne, rfl⟩ := List.mem_map.mp furnished
        exact given entry isOne
      · exact forall_mem_lowerList texts keys ends children below i inner
      · exact ends

/-- The same for nodes, by induction on the nodes. -/
theorem forall_mem_lowerList (texts : ∀ t, P (.text t)) (keys : ∀ k, P (.key k)) (ends : P .close)
    (nodes : List Document.Node)
    (elements : ∀ e ∈ Document.Node.listElements nodes,
      P (.opening e.kind) ∧ ∀ entry ∈ e.attributes, P (.prop entry.1 entry.2))
    : ∀ i ∈ lowerList nodes, P i := by
  match nodes with
  | [] => exact List.forall_mem_nil _
  | node :: rest =>
      obtain ⟨here, below⟩ := List.forall_mem_append.mp elements
      exact List.forall_mem_append.mpr
        ⟨forall_mem_lower texts keys ends node here,
          forall_mem_lowerList texts keys ends rest below⟩

end

end

/-- All instructions of a unit for writable nodes are readable. -/
theorem readable_program {bindings : List String}
    (fits : ∀ name ∈ bindings, Text.IsLine name.toList) {nodes : List Document.Node}
    (writable : ∀ e ∈ Document.Node.listElements nodes, Writable bindings e.kind e.attributes)
    : ∀ i ∈ program bindings nodes, i.Readable := by
  refine List.forall_mem_append.mpr ⟨?_, ?_⟩
  · exact List.forall_mem_map.mpr fun name member => readable_bind (fits name member)
  · refine forall_mem_lowerList readable_text readable_key readable_close nodes ?_
    exact fun e member =>
      ⟨readable_opening fits (writable e member), readable_attributes (writable e member)⟩

section

variable {env : Environment} {bindings : List String}

mutual

/-- The lines of a node build what the builder makes of it, and put it into the innermost element.
By induction on the node: after the lines of the children, the element that they are in is innermost
again.
-/
theorem runLines_lower (build : TreeBuilder σ) (bound : env.Binds bindings)
    (fits : ∀ name ∈ bindings, Text.IsLine name.toList) (node : Document.Node)
    (writable : ∀ e ∈ node.elements, Writable bindings e.kind e.attributes)
    (state : State σ) (imported : bindings ⊆ state.imported) (line : Nat) (rest : List (List Char))
    : ∃ next,
        runLines build env state line ((lower node).map Instruction.words ++ rest)
        = runLines build env (state.take (made build env state.inside node state.builder)) next
            rest := by
  match node with
  | .text t => exact ⟨line + 1, runLines_words build env state line (readable_text t) rest⟩
  | .element kind key attributes children =>
      obtain ⟨here, below⟩ := List.forall_mem_cons.mp writable
      let binding := (bindingOf? env kind).getD default
      let opened : Pending := { kind := binding.kind, isStandIn := binding.isStandIn, line }
      let given : Pending :=
        {
          opened with
          key
          props :=
            attributes.foldl
              (fun props entry => Json.Fields.insert props entry.1 (.ofJson entry.2)) []
        }
      let images := madeAll build env (some binding.kind) children state.builder
      let later := (lowerList children).map Instruction.words ++ Instruction.close.words :: rest
      obtain ⟨afterKey, keyed⟩ :=
        runLines_key build env key state (e := opened) rfl state.stack (line + 1)
          ((attributes.map fun entry => Instruction.prop entry.1 entry.2).map Instruction.words
            ++ later)
      obtain ⟨afterProps, furnished⟩ :=
        runLines_props build env (readable_attributes here) state { opened with key } state.stack
          afterKey later
      obtain ⟨afterChildren, filled⟩ :=
        runLines_lowerList build bound fits children below
          { state with stack := given :: state.stack } imported afterProps
          (Instruction.close.words :: rest)
      have closed
          : runLines build env
                (State.takeAll { state with stack := given :: state.stack } images)
                afterChildren (Instruction.close.words :: rest)
            = runLines build env
                (state.take
                  (made build env state.inside (.element kind key attributes children)
                    state.builder))
                (afterChildren + 1) rest := by
        have within := foldl_push_open { state with builder := images.2 } given state.stack images.1
        rw [State.takeAll, within, runLines_words _ _ _ _ readable_close, List.append_nil]
        rfl
      refine ⟨afterChildren + 1, ?_⟩
      have shape : (lower (.element kind key attributes children)).map Instruction.words ++ rest
          = (Instruction.opening kind).words
              :: ((key.map Instruction.key).toList.map Instruction.words
                ++ ((attributes.map fun entry => Instruction.prop entry.1 entry.2).map
                    Instruction.words ++ later)) := by
        simp [lower, later]
      rw [shape, runLines_words build env state line (readable_opening fits here),
        step_opening build bound here.component imported line]
      exact keyed.trans (furnished.trans (filled.trans closed))

/-- The lines of nodes build what the builder makes of them, by induction on the nodes. -/
theorem runLines_lowerList (build : TreeBuilder σ) (bound : env.Binds bindings)
    (fits : ∀ name ∈ bindings, Text.IsLine name.toList) (nodes : List Document.Node)
    (writable : ∀ e ∈ Document.Node.listElements nodes, Writable bindings e.kind e.attributes)
    (state : State σ) (imported : bindings ⊆ state.imported) (line : Nat) (rest : List (List Char))
    : ∃ next,
        runLines build env state line ((lowerList nodes).map Instruction.words ++ rest)
        = runLines build env (state.takeAll (madeAll build env state.inside nodes state.builder))
            next rest := by
  match nodes with
  | [] => exact ⟨line, rfl⟩
  | node :: nodes =>
      obtain ⟨here, below⟩ := List.forall_mem_append.mp writable
      let result := made build env state.inside node state.builder
      obtain ⟨middle, first⟩ :=
        runLines_lower build bound fits node here state imported line
          ((lowerList nodes).map Instruction.words ++ rest)
      obtain ⟨sameInside, sameImported, sameBuilder⟩ :=
        push_frame { state with builder := result.2 } result.1
      obtain ⟨next, later⟩ :=
        runLines_lowerList build bound fits nodes below (state.take result)
          (sameImported ▸ imported) middle rest
      refine ⟨next, ?_⟩
      rw [lowerList, List.map_append, List.append_assoc, first, later, takeAll_take, State.take,
        sameInside, sameBuilder]
      rfl

end

/-- A unit that was written for writable nodes runs: its result is the group of what the builder
makes of the nodes.
-/
theorem runWith_program (build : TreeBuilder σ) (builder : σ) (bound : env.Binds bindings)
    (fits : ∀ name ∈ bindings, Text.IsLine name.toList) {nodes : List Document.Node}
    (writable : ∀ e ∈ Document.Node.listElements nodes, Writable bindings e.kind e.attributes)
    : runWith build builder env (render (program bindings nodes))
      = .ok
          (build (rootRequest (madeAll build env none nodes builder).1)
            (madeAll build env none nodes builder).2) := by
  let start : State σ := { builder }
  let ready : State σ := { start with imported := bindings.reverse ++ [] }
  let images := madeAll build env none nodes builder
  obtain ⟨afterImports, imports⟩ :=
    runLines_imports build fits bound start 2
      ((lowerList nodes).map Instruction.words ++ [])
  obtain ⟨last, body⟩ :=
    runLines_lowerList build bound fits nodes writable ready (by simp [ready]) afterImports []
  have lines : (program bindings nodes).map Instruction.words
      = (bindings.map Instruction.bind).map Instruction.words
        ++ ((lowerList nodes).map Instruction.words ++ []) := by
    simp [program]
  have whole : runLines build env start 2 ((program bindings nodes).map Instruction.words)
      = .ok (ready.takeAll images) :=
    (congrArg _ lines).trans (imports.trans body)
  have finished : (ready.takeAll images).finish build
      = .ok (build (rootRequest images.1) images.2) := by
    have root : ready.takeAll images
        = { ready with root := images.1.reverse ++ [], builder := images.2 } :=
      foldl_push_root { ready with builder := images.2 } images.1
    rw [root, State.finish, State.groupRequest, List.append_nil, List.reverse_reverse]
    rfl
  rw [runWith, lines_render (readable_program fits writable)]
  simp only [bne_self_eq_false, Bool.false_eq_true, if_false]
  exact (congrArg (· >>= fun state => State.finish build state) whole).trans finished

/-- The same with the builder of plain elements. -/
theorem run_program (bound : env.Binds bindings)
    (fits : ∀ name ∈ bindings, Text.IsLine name.toList) {nodes : List Document.Node}
    (writable : ∀ e ∈ Document.Node.listElements nodes, Writable bindings e.kind e.attributes)
    : run env (render (program bindings nodes))
      = .ok
          (TreeBuilder.factory (rootRequest (madeAll TreeBuilder.factory env none nodes ()).1)
            ()).1 := by
  rw [run, runWith_program TreeBuilder.factory () bound fits writable]
  rfl

end

end Folio.Unit
