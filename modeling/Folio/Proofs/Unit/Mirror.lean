import Folio.Proofs.Json.Fields
import Folio.Proofs.Unit.Execution

/-! The tree that a unit builds mirrors the syntax tree that it was written for, node for node. The
builder is asked for each element once, for the children before the element that holds them, and for
the group of all at the end.
-/

namespace Folio.Unit

open Folio.Tree (Kind Built Props)

-----------------------------------------------------------------------------------------
-- What it means to mirror a document
-----------------------------------------------------------------------------------------

/-- The children of an element as its property: no property without children, one child as it is,
and otherwise a list.
-/
def stored : List Built → Option Built
  | [] => none
  | [child] => some child
  | children => some (.list children)

/-- What a builder is given under a name for an element: three notes, and the attributes. -/
def noted (binding : Binding) (outer : Option Kind) (attributes : Document.Attributes)
    (name : String)
    : Option Built :=
  if name = "debugType" then some (.string binding.kind.identifier)
  else if name = "originalType" then
    if binding.isStandIn then some (.string binding.kind.identifier) else none
  else if name = "parentName" then outer.map fun kind => .string kind.identifier
  else (attributes.get? name).map .ofJson

/-- The properties `held` are those that the builder was given, and the children. -/
structure Holds (given held : Props Kind) (children : List Built) : Prop where
  sorted : Json.Fields.Sorted held
  here : ∀ name, held.get? name = if name = "children" then stored children else given.get? name

mutual

/-- A built node mirrors a node of a document inside an element of a kind, and is what the requests
have led to.
-/
inductive Mirrors (env : Environment)
    : Option Kind → Document.Node → Built → List Request → Prop where
  | text {outer : Option Kind} (t : String) : Mirrors env outer (.text t) (.string t) []
  | element {outer : Option Kind} {kind : Document.Kind} {key : Option String}
      {attributes : Document.Attributes} {children : List Document.Node} {binding : Binding}
      {images : List Built} {requests : List Request} {given held : Props Kind}
      (bound : bindingOf? env kind = some binding)
      (below : MirrorsAll env (some binding.kind) children images requests)
      (sorted : Json.Fields.Sorted given)
      (asked : ∀ name, given.get? name = noted binding outer attributes name)
      (holds : Holds given held images)
      : Mirrors env outer (.element kind key attributes children) (.element binding.kind key held)
          (requests ++ [{ kind := binding.kind, key, props := given, children := images }])

inductive MirrorsAll (env : Environment)
    : Option Kind → List Document.Node → List Built → List Request → Prop where
  | nil {outer : Option Kind} : MirrorsAll env outer [] [] []
  | cons {outer : Option Kind} {node : Document.Node} {nodes : List Document.Node} {image : Built}
      {images : List Built} {first later : List Request}
      (here : Mirrors env outer node image first)
      (rest : MirrorsAll env outer nodes images later)
      : MirrorsAll env outer (node :: nodes) (image :: images) (first ++ later)

end

-----------------------------------------------------------------------------------------
-- Properties
-----------------------------------------------------------------------------------------

/-- Holds for elements whose attributes are a map and have none of the names that the building of a
tree uses.
-/
structure Unreserved (attributes : Document.Attributes) : Prop where
  sorted : Json.Fields.Sorted attributes
  names : ∀ entry ∈ attributes, entry.1 ≠ "children" ∧ entry.1 ∉ Tree.internalProps

/-- The children are found as they are stored, and under other names nothing changes. -/
theorem get?_withChildren (given : Props Kind) (children : List Built) (name : String)
    : (given.withChildren children).get? name
      = if name = "children" then stored children else given.get? name := by
  match children with
  | [] =>
      rw [Props.withChildren, Json.Fields.get?_erase]
      simp only [Tree.childrenProp, stored, eq_comm]
  | [child] =>
      rw [Props.withChildren, Json.Fields.get?_insert]
      simp only [Tree.childrenProp, stored, eq_comm]
  | first :: second :: rest =>
      simp only [Props.withChildren, Json.Fields.get?_insert, Tree.childrenProp, stored, eq_comm]

/-- Properties with children hold both. -/
theorem holds_withChildren {given : Props Kind} (sorted : Json.Fields.Sorted given)
    (children : List Built)
    : Holds given (given.withChildren children) children := by
  refine ⟨?_, get?_withChildren given children⟩
  match children with
  | [] => exact sorted.erase _
  | [child] => exact sorted.insert _ _
  | first :: second :: rest => exact sorted.insert _ _

/-- The notes are put into properties in order, and the order is kept. -/
theorem sorted_request {e : Pending} (sorted : Json.Fields.Sorted e.props) (outer : Option Kind)
    : Json.Fields.Sorted (e.request outer).props := by
  unfold Pending.request
  cases outer <;> cases e.isStandIn
  · exact sorted.insert _ _
  · exact (sorted.insert _ _).insert _ _
  · exact (sorted.insert _ _).insert _ _
  · exact ((sorted.insert _ _).insert _ _).insert _ _

/-- The properties of a request are in order. -/
theorem sorted_requestFor (binding : Binding) (outer : Option Kind) (key : Option String)
    (attributes : Document.Attributes) (children : List Built)
    : Json.Fields.Sorted (requestFor binding outer key attributes children).props :=
  sorted_request (Json.Fields.sorted_foldl_insert attributes _ List.Pairwise.nil) outer

/-- The properties of a request are the notes and the attributes. -/
theorem get?_requestFor (binding : Binding) (outer : Option Kind) (key : Option String)
    {attributes : Document.Attributes} (sorted : Json.Fields.Sorted attributes)
    (free : ∀ entry ∈ attributes, entry.1 ∉ Tree.internalProps) (children : List Built)
    (name : String)
    : (requestFor binding outer key attributes children).props.get? name
      = noted binding outer attributes name := by
  have unused (internal : String) (h : internal ∈ Tree.internalProps)
      : attributes.get? internal = none :=
    Json.Fields.get?_eq_none fun entry member same => free entry member (same ▸ h)
  have noOriginal := unused "originalType" (by decide)
  have noParent := unused "parentName" (by decide)
  have given := Json.Fields.get?_foldl_insert sorted (Tree.Node.ofJson (κ := Kind)) [] name
  rw [Json.Fields.get?_nil, Option.or_none] at given
  unfold requestFor Pending.request noted
  -- Only one of the names can be the one that is looked up, so that the order of the notes is no
  -- matter.
  cases outer <;> cases binding.isStandIn <;>
    simp only [Json.Fields.get?_insert, given, if_true, if_false, Bool.false_eq_true,
      Option.map_none, Option.map_some] <;>
    grind

-----------------------------------------------------------------------------------------
-- What is built mirrors the document
-----------------------------------------------------------------------------------------

section

variable {env : Environment} {bindings : List String}

/-- An element whose names are bound has a binding. -/
theorem bindingOf?_of_bound (bound : env.Binds bindings) {kind : Document.Kind}
    (declared : ∀ name, kind = .component name → name ∈ bindings)
    : bindingOf? env kind = some ((bindingOf? env kind).getD default) := by
  cases kind with
  | tag name => rfl
  | component name =>
      obtain ⟨binding, found⟩ := Option.isSome_iff_exists.mp (bound name (declared name rfl))
      simp only [bindingOf?, found, Option.getD_some]

/-- An element is what the builder makes of its request, once the children are made. -/
theorem made_element {σ : Type} {build : TreeBuilder σ} {kind : Document.Kind}
    (outer : Option Kind) (key : Option String) (attributes : Document.Attributes)
    {children : List Document.Node} {images : List Built} {before after : σ}
    (h : madeAll build env (some ((bindingOf? env kind).getD default).kind) children before
      = (images, after))
    : made build env outer (.element kind key attributes children) before
      = build (requestFor ((bindingOf? env kind).getD default) outer key attributes images)
          after := by
  rw [made]
  simp only [h]

mutual

/-- What the builder of plain elements makes of a node mirrors the node, and is what it makes
without notes. By induction on the node: the requests for the children come before that for the
element.
-/
theorem made_mirrors (bound : env.Binds bindings) (outer : Option Kind) (node : Document.Node)
    (writable : ∀ e ∈ node.elements,
      Writable bindings e.kind e.attributes ∧ Unreserved e.attributes) (log : List Request)
    : ∃ image requests,
        Mirrors env outer node image requests
        ∧ made TreeBuilder.factory env outer node () = (image, ())
        ∧ made TreeBuilder.factory.recording env outer node ((), log)
          = (image, (), requests.reverse ++ log) := by
  match node with
  | .text t => exact ⟨.string t, [], .text t, rfl, rfl⟩
  | .element kind key attributes children =>
      obtain ⟨⟨here, unreserved⟩, below⟩ := List.forall_mem_cons.mp writable
      let binding := (bindingOf? env kind).getD default
      obtain ⟨images, requests, mirrors, plain, noted⟩ :=
        madeAll_mirrors bound (some binding.kind) children below log
      let request := requestFor binding outer key attributes images
      have sorted := sorted_requestFor binding outer key attributes images
      have asked :=
        get?_requestFor binding outer key unreserved.sorted
          (fun entry member => (unreserved.names entry member).2) images
      have whole : request
          = { kind := binding.kind, key, props := request.props, children := images } := by
        simp [request, requestFor, Pending.request]
      refine ⟨.element binding.kind key (request.props.withChildren images),
        requests ++ [request], ?_, ?_, ?_⟩
      · rw [whole]
        exact .element (bindingOf?_of_bound bound here.component) mirrors sorted asked
          (holds_withChildren sorted images)
      · refine (made_element outer key attributes plain).trans ?_
        change TreeBuilder.factory request () = _
        rw [whole]
        rfl
      · refine (made_element outer key attributes noted).trans ?_
        change TreeBuilder.factory.recording request _ = _
        rw [whole, List.reverse_append]
        rfl

/-- What the builder of plain elements makes of nodes mirrors them, by induction on the nodes. -/
theorem madeAll_mirrors (bound : env.Binds bindings) (outer : Option Kind)
    (nodes : List Document.Node)
    (writable : ∀ e ∈ Document.Node.listElements nodes,
      Writable bindings e.kind e.attributes ∧ Unreserved e.attributes)
    (log : List Request)
    : ∃ images requests,
        MirrorsAll env outer nodes images requests
        ∧ madeAll TreeBuilder.factory env outer nodes () = (images, ())
        ∧ madeAll TreeBuilder.factory.recording env outer nodes ((), log)
          = (images, (), requests.reverse ++ log) := by
  match nodes with
  | [] => exact ⟨[], [], .nil, rfl, rfl⟩
  | node :: rest =>
      obtain ⟨here, below⟩ := List.forall_mem_append.mp writable
      obtain ⟨image, first, mirrors, plain, noted⟩ := made_mirrors bound outer node here log
      obtain ⟨images, later, others, plainOthers, notedOthers⟩ :=
        madeAll_mirrors bound outer rest below (first.reverse ++ log)
      refine ⟨image :: images, first ++ later, .cons mirrors others, ?_, ?_⟩
      · simp only [madeAll, plain, plainOthers]
      · simp only [madeAll, noted, notedOthers, List.reverse_append, List.append_assoc]

end

/-- Whatever characters the texts, keys and values of a document hold: its unit runs in every
environment that binds the names, and gives a group whose children mirror the nodes. The builder is
asked for each element once, children first, and for the group last. The names of the bindings must
each fit on a line, as all names do that can be declared.
-/
theorem run_program_mirrors (fits : ∀ name ∈ bindings, Text.IsLine name.toList)
    {nodes : List Document.Node}
    (writable : ∀ e ∈ Document.Node.listElements nodes,
      Writable bindings e.kind e.attributes ∧ Unreserved e.attributes)
    (bound : env.Binds bindings)
    : ∃ images requests held,
        MirrorsAll env none nodes images requests
        ∧ Holds [("debugType", .string "#group")] held images
        ∧ run env (render (program bindings nodes)) = .ok (.element .grouping none held)
        ∧ runWith TreeBuilder.factory.recording ((), []) env (render (program bindings nodes))
          = .ok
              (.element .grouping none held, (),
                (requests ++ [rootRequest images]).reverse) := by
  obtain ⟨images, requests, mirrors, plain, noted⟩ := madeAll_mirrors bound none nodes writable []
  have own := fun e member => (writable e member).1
  have sorted : Json.Fields.Sorted ([("debugType", .string "#group")] : Props Kind) :=
    List.pairwise_singleton _ _
  refine ⟨images, requests, _, mirrors, holds_withChildren sorted images, ?_, ?_⟩
  · rw [run_program bound fits own, plain]
    rfl
  · rw [runWith_program TreeBuilder.factory.recording ((), []) bound fits own, noted,
      List.reverse_append, List.append_nil]
    rfl

end

/-- A name that does not fit on a line is not imported as it is, even if it is bound: a line feed
makes it two lines, and a carriage return at its end is lost.
-/
theorem run_brokenNames
    : ((∀ e ∈ Document.Node.listElements [],
          Writable ["A\nB"] e.kind e.attributes ∧ Unreserved e.attributes)
        ∧ (Environment.standIns ["A\nB"]).Binds ["A\nB"]
        ∧ (run (Environment.standIns ["A\nB"]) (render (program ["A\nB"] []))).isOk = false)
      ∧ (∀ e ∈ Document.Node.listElements [],
          Writable ["A\r"] e.kind e.attributes ∧ Unreserved e.attributes)
        ∧ (Environment.standIns ["A\r"]).Binds ["A\r"]
        ∧ (run (Environment.standIns ["A\r"]) (render (program ["A\r"] []))).isOk = false := by
  refine ⟨⟨?writableFeed, ?boundFeed, ?failsFeed⟩, ?writableReturn, ?boundReturn, ?failsReturn⟩
  case writableFeed | writableReturn => simp [Document.Node.listElements]
  case boundFeed | boundReturn => decide
  case failsFeed | failsReturn => decide +kernel

/-- A document whose texts, key and values look like ends of lines with instructions after them. -/
def lineEnds : List Document.Node :=
  [
    .text "a\nclose\n",
    .element (.component "A") (some "k\"\r\nclose")
      [("title", .string "\nopen @A"), ("wide", .bool true)]
      [.element (.tag "em") none [] [.text "\r\nimport B"], .text ""]
  ]

/-- Such a document is built as it is. -/
theorem run_lineEnds
    : (∀ name ∈ ["A"], Text.IsLine name.toList)
      ∧ (∀ e ∈ Document.Node.listElements lineEnds,
          Writable ["A"] e.kind e.attributes ∧ Unreserved e.attributes)
      ∧ (Environment.standIns ["A"]).Binds ["A"]
      ∧ ∃ images requests held,
          MirrorsAll (Environment.standIns ["A"]) none lineEnds images requests
          ∧ Holds [("debugType", .string "#group")] held images
          ∧ run (Environment.standIns ["A"]) (render (program ["A"] lineEnds))
            = .ok (.element .grouping none held)
          ∧ runWith TreeBuilder.factory.recording ((), []) (Environment.standIns ["A"])
                (render (program ["A"] lineEnds))
            = .ok
                (.element .grouping none held, (),
                  (requests ++ [rootRequest images]).reverse) := by
  have fits : ∀ name ∈ ["A"], Text.IsLine name.toList := by
    intro name member
    obtain rfl := List.mem_singleton.mp member
    exact Text.Unbroken.isLine (by decide)
  have writable : ∀ e ∈ Document.Node.listElements lineEnds,
      Writable ["A"] e.kind e.attributes ∧ Unreserved e.attributes := by
    simp only [lineEnds, Document.Node.listElements, Document.Node.elements, List.nil_append,
      List.append_nil, List.forall_mem_cons]
    refine ⟨
      ⟨⟨⟨by simp, by simp, by decide⟩, ?_⟩, ⟨by decide, by decide⟩⟩,
      ⟨⟨⟨?_, by simp, by simp⟩, by simp⟩, ⟨.nil, by simp⟩⟩,
      by simp
    ⟩
    · simp only [List.forall_mem_cons]
      exact ⟨Json.parse_quote _, Json.parse_bool _, by simp⟩
    · intro name same
      obtain rfl := Document.Kind.tag.inj same
      show IsOpenable "em".toList
      decide
  have bound : (Environment.standIns ["A"]).Binds ["A"] := by
    decide
  exact ⟨fits, writable, bound, run_program_mirrors fits writable bound⟩

end Folio.Unit
