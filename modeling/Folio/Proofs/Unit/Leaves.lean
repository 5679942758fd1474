import Folio.Proofs.Chain
import Folio.Proofs.Tree.Written
import Folio.Proofs.Unit.Mirror
import Folio.Proofs.Unit.Reach

/-! Elements without children keep their attributes, whatever else stands in the document. A run
only adds to the elements that it has built, so that those of a document are found among them in the
order in which they stand in it, even where names with blanks or line ends make other instructions
of an element than its own.
-/

namespace Folio.Unit

open Folio.Tree (Kind Built Props)

variable {env : Environment}

-----------------------------------------------------------------------------------------
-- What a run has built
-----------------------------------------------------------------------------------------

section

variable {σ : Type}

/-- The elements that were built so far, in this order. Those that are open are not among them, but
what is already inside them is.
-/
def State.built (state : State σ) : List (Tree.Element Kind) :=
  state.root.reverse.flatMap Built.inBuildOrder
    ++ state.stack.reverse.flatMap fun e => e.children.reverse.flatMap Built.inBuildOrder

theorem built_push (state : State σ) (node : Built)
    : (state.push node).built = state.built ++ node.inBuildOrder := by
  obtain ⟨imported, stack, root, builder⟩ := state
  cases stack <;> simp [State.push, State.built]

/-- A change of the innermost element is carried out if there is one. -/
theorem exists_of_modifyTop {state next : State σ} {instruction : String} {line : Nat}
    {change : Pending → Pending} (changed : state.modifyTop instruction line change = .ok next)
    : ∃ e outer, state.stack = e :: outer ∧ next = { state with stack := change e :: outer } := by
  unfold State.modifyTop at changed
  split at changed
  · cases changed
  · next e outer top => exact ⟨e, outer, top, (Except.ok.inj changed).symm⟩

/-- A line that is not empty is an instruction, which is carried out first. -/
theorem exists_of_runLines_cons {build : TreeBuilder σ} {state last : State σ} {line : Nat}
    {text : List Char} {rest : List (List Char)} (filled : text ≠ [])
    (ran : runLines build env state line (text :: rest) = .ok last)
    : ∃ i next,
        Instruction.ofLine text = .ok i
        ∧ state.step build env line i = .ok next
        ∧ runLines build env next (line + 1) rest = .ok last := by
  rw [runLines, if_neg (by simpa using filled)] at ran
  split at ran
  · cases ran
  · next i read =>
      obtain ⟨next, stepped, later⟩ := bind_eq_ok.mp ran
      exact ⟨i, next, read, stepped, later⟩

theorem exists_of_runLines_append {build : TreeBuilder σ} {state last : State σ} {line : Nat}
    {first later : List (List Char)}
    (ran : runLines build env state line (first ++ later) = .ok last)
    : ∃ next,
        runLines build env state line first = .ok next
        ∧ runLines build env next (line + first.length) later = .ok last :=
  bind_eq_ok.mp (runLines_append build env state line first later ▸ ran)

end

/-- The element that a builder of plain elements makes of an open one. -/
def Pending.element (e : Pending) (outer : Option Kind) : Tree.Element Kind :=
  {
    kind := e.kind
    key := e.key
    props := (e.request outer).props.withChildren e.children.reverse
  }

/-- The end of an element builds this element, after what is inside it. -/
theorem built_close {state next : State Unit} {line : Nat} {e : Pending} {outer : List Pending}
    (top : state.stack = e :: outer)
    (stepped : state.step TreeBuilder.factory env line .close = .ok next)
    : next.built = state.built ++ [e.element (outer.head?.map Pending.kind)] := by
  simp only [State.step, top] at stepped
  obtain rfl := Except.ok.inj stepped
  rw [built_push, TreeBuilder.factory, Built.inBuildOrder,
    Built.childrenInBuildOrder_withChildren, ← List.append_assoc]
  simp [State.built, top, Pending.element, Pending.request]

/-- An instruction leaves what was built. -/
theorem built_isPrefix_step {state next : State Unit} {line : Nat} {i : Instruction}
    (stepped : state.step TreeBuilder.factory env line i = .ok next)
    : state.built <+: next.built := by
  cases i with
  | bind name =>
      rw [State.step] at stepped
      split at stepped
      · obtain rfl := Except.ok.inj stepped
        exact List.prefix_refl _
      · cases stepped
  | openTag name =>
      obtain rfl := Except.ok.inj stepped
      simp [State.openElement, State.built]
  | openComponent name =>
      rw [State.step] at stepped
      split at stepped
      · cases stepped
      · split at stepped
        · obtain rfl := Except.ok.inj stepped
          simp [State.openElement, State.built]
        · cases stepped
  | key _ | prop _ _ =>
      obtain ⟨e, outer, top, rfl⟩ := exists_of_modifyTop stepped
      simp [State.built, top]
  | text text =>
      obtain rfl := Except.ok.inj stepped
      exact built_push state _ ▸ List.prefix_append _ _
  | close =>
      cases top : state.stack with
      | nil => simp [State.step, top] at stepped
      | cons e outer => exact built_close top stepped ▸ List.prefix_append _ _

/-- Lines leave what was built, by induction on the lines. -/
theorem built_isPrefix_runLines {lines : List (List Char)} {state last : State Unit} {line : Nat}
    (ran : runLines TreeBuilder.factory env state line lines = .ok last)
    : state.built <+: last.built := by
  induction lines generalizing state line with
  | nil =>
      obtain rfl := Except.ok.inj ran
      exact List.prefix_refl _
  | cons text rest ih =>
      by_cases nothing : text = []
      · subst nothing
        exact ih ran
      · obtain ⟨i, next, -, stepped, later⟩ := exists_of_runLines_cons nothing ran
        exact (built_isPrefix_step stepped).trans (ih later)

-----------------------------------------------------------------------------------------
-- The lines of an element without children
-----------------------------------------------------------------------------------------

/-- The value that is read from the written form of a value. -/
def readBack (v : Json.Value) : Json.Value :=
  (Json.parse v.render).toOption.getD .null

def Pending.given (e : Pending) (key : Option String) (attributes : Document.Attributes)
    : Pending :=
  {
    e with
    key := key.or e.key
    props :=
      attributes.foldl
        (fun props entry => Json.Fields.insert props entry.1 (.ofJson (readBack entry.2))) e.props
  }

/-- A state whose innermost element was changed, if there is one. -/
def State.mapTop (state : State Unit) (change : Pending → Pending) : State Unit :=
  { state with stack := state.stack.modifyHead change }

theorem mapTop_mapTop (state : State Unit) (first later : Pending → Pending)
    : (state.mapTop first).mapTop later = state.mapTop (later ∘ first) := by
  obtain ⟨imported, stack, root, builder⟩ := state
  cases stack <;> rfl

/-- An instruction that changes the innermost element changes nothing else. -/
theorem eq_mapTop_of_modifyTop {state next : State Unit} {instruction : String} {line : Nat}
    {change : Pending → Pending} (changed : state.modifyTop instruction line change = .ok next)
    : next = state.mapTop change := by
  obtain ⟨e, outer, top, rfl⟩ := exists_of_modifyTop changed
  rw [State.mapTop, top, List.modifyHead_cons]

/-- Without lines nothing is given. -/
theorem eq_mapTop_of_runLines_nil {state next : State Unit} {line : Nat}
    (ran : runLines TreeBuilder.factory env state line (linesOf []) = .ok next)
    : next = state.mapTop fun e => e.given none [] := by
  rw [linesOf_nil] at ran
  obtain rfl := Except.ok.inj ran
  obtain ⟨imported, stack, root, builder⟩ := state
  cases stack <;> rfl

/-- A readable line is carried out as its instruction. -/
theorem step_of_runLines {i : Instruction} (readable : i.Readable) {state next : State Unit}
    {line : Nat} (ran : runLines TreeBuilder.factory env state line (linesOf [i]) = .ok next)
    : state.step TreeBuilder.factory env line i = .ok next := by
  rw [linesOf_singleton readable.isLine] at ran
  obtain ⟨j, other, read, stepped, rest⟩ := exists_of_runLines_cons readable.notEmpty ran
  obtain rfl := Except.ok.inj rest
  obtain rfl := Except.ok.inj (readable.read.symm.trans read)
  exact stepped

/-- The line of a key gives it to the innermost element. -/
theorem eq_mapTop_of_runLines_key {key : Option String} {state next : State Unit} {line : Nat}
    (ran : runLines TreeBuilder.factory env state line (linesOf (key.map Instruction.key).toList)
      = .ok next)
    : next = state.mapTop fun e => e.given key [] := by
  cases key with
  | none => exact eq_mapTop_of_runLines_nil ran
  | some k => exact eq_mapTop_of_modifyTop (step_of_runLines (readable_key k) ran)

/-- A name that breaks the line of its property leaves a line on which no value follows. -/
theorem exists_linesOf_broken {name : String} (noBlank : ' ' ∉ name.toList)
    (feed : '\n' ∈ name.toList) (v : Json.Value)
    : ∃ argument rest,
        ' ' ∉ argument ∧ linesOf [.prop name v] = ("prop".toList ++ ' ' :: argument) :: rest := by
  obtain ⟨before, after, split, noFeed⟩ := List.eq_append_cons_of_mem feed
  have plain : ' ' ∉ before := fun member => noBlank (split ▸ List.mem_append_left _ member)
  have shape : [Instruction.prop name v].flatMap Instruction.line
      = ("prop ".toList ++ before) ++ '\n' :: (after ++ ' ' :: (v.chars ++ ['\n'])) := by
    simp [Instruction.line, Instruction.words, Instruction.word, Instruction.argument?, split]
  have word : Text.Unbroken "prop ".toList := by decide
  rw [linesOf, shape]
  by_cases returned : before.getLast? = some '\r'
  · obtain ⟨argument, rfl⟩ := List.getLast?_eq_some_iff.mp returned
    have noFeed : '\n' ∉ "prop ".toList ++ argument := by simpa using noFeed
    have first := Text.lines_append_return_feed noFeed (after ++ ' ' :: (v.chars ++ ['\n']))
    refine ⟨argument, _, fun member => plain (List.mem_append_left _ member), .trans ?_ first⟩
    simp
  · exact ⟨before, _, plain, Text.lines_append_feed (word.append_isLine ⟨noFeed, returned⟩) _⟩

/-- What follows the word of a property is taken apart at the blank, if the name has none. -/
theorem eq_of_propArgument {name : String} (noBlank : ' ' ∉ name.toList) {v : Json.Value}
    {i : Instruction} (read : propArgument (name.toList ++ ' ' :: v.chars) = .ok i)
    : Json.parse v.render = .ok (readBack v) ∧ i = .prop name (readBack v) := by
  simp only [propArgument, splitAtBlank?_append noBlank, String.ofList_toList] at read
  unfold readBack
  cases parsed : Json.parse v.render with
  | error fault =>
      rw [Json.Value.render] at parsed
      rw [parsed] at read
      cases read
  | ok w =>
      rw [Json.Value.render] at parsed
      rw [parsed] at read
      exact ⟨rfl, (Except.ok.inj read).symm⟩

/-- The line of a property whose name has no blank puts the value that is read under this name. -/
theorem eq_mapTop_of_runLines_prop {name : String} (noBlank : ' ' ∉ name.toList) {v : Json.Value}
    {state next : State Unit} {line : Nat}
    (ran : runLines TreeBuilder.factory env state line (linesOf [.prop name v]) = .ok next)
    : Json.parse v.render = .ok (readBack v)
      ∧ next = state.mapTop fun e =>
          { e with props := e.props.insert name (.ofJson (readBack v)) } := by
  by_cases feed : '\n' ∈ name.toList
  · obtain ⟨argument, rest, noValue, lines⟩ := exists_linesOf_broken noBlank feed v
    rw [lines] at ran
    obtain ⟨i, other, read, -⟩ :=
      exists_of_runLines_cons (List.append_ne_nil_of_left_ne_nil (by decide) _) ran
    rw [ofLine_prop, propArgument, splitAtBlank?_eq_none.mpr noValue] at read
    cases read
  have filled : (Instruction.prop name v).words ≠ [] := by
    simp [Instruction.words, Instruction.word]
  rw [linesOf_singleton (isLine_words rfl (isLine_property feed v))] at ran
  obtain ⟨i, other, read, stepped, rest⟩ := exists_of_runLines_cons filled ran
  obtain rfl := Except.ok.inj rest
  rw [words_of_argument rfl, Instruction.word, ofLine_prop] at read
  obtain ⟨parsed, rfl⟩ := eq_of_propArgument noBlank read
  exact ⟨parsed, eq_mapTop_of_modifyTop stepped⟩

/-- The lines of attributes give them to the innermost element, by induction on the attributes. -/
theorem eq_mapTop_of_runLines_props {attributes : Document.Attributes}
    (noBlank : ∀ entry ∈ attributes, ' ' ∉ entry.1.toList) {state next : State Unit} {line : Nat}
    (ran : runLines TreeBuilder.factory env state line
        (linesOf (attributes.map fun entry => .prop entry.1 entry.2))
      = .ok next)
    : (∀ entry ∈ attributes, Json.parse entry.2.render = .ok (readBack entry.2))
      ∧ next = state.mapTop fun e => e.given none attributes := by
  induction attributes generalizing state line with
  | nil => exact ⟨List.forall_mem_nil _, eq_mapTop_of_runLines_nil ran⟩
  | cons entry rest ih =>
      obtain ⟨first, later⟩ := List.forall_mem_cons.mp noBlank
      rw [List.map_cons, ← List.singleton_append, linesOf_append] at ran
      obtain ⟨other, own, ran⟩ := exists_of_runLines_append ran
      obtain ⟨parsed, rfl⟩ := eq_mapTop_of_runLines_prop first own
      obtain ⟨parsedLater, rfl⟩ := ih later ran
      exact ⟨List.forall_mem_cons.mpr ⟨parsed, parsedLater⟩, mapTop_mapTop _ _ _⟩

/-- An element that is read as it is written is opened as the innermost one, with its own kind. -/
theorem exists_of_runLines_opening {kind : Document.Kind}
    (readable : (Instruction.opening kind).Readable) {state next : State Unit} {line : Nat}
    (ran : runLines TreeBuilder.factory env state line (linesOf [.opening kind]) = .ok next)
    : ∃ binding,
        bindingOf? env kind = some binding
        ∧ next = state.openElement binding.kind binding.isStandIn line := by
  have stepped := step_of_runLines readable ran
  cases kind with
  | tag name => exact ⟨_, rfl, (Except.ok.inj stepped).symm⟩
  | component name =>
      simp only [Instruction.opening, State.step] at stepped
      split at stepped
      · cases stepped
      · split at stepped
        · next binding bound => exact ⟨binding, bound, (Except.ok.inj stepped).symm⟩
        · cases stepped

/-- The notes about an element are under other names than its attributes. -/
theorem get?_request (e : Pending) (outer : Option Kind) {name : String}
    (free : name ∉ Tree.internalProps)
    : (e.request outer).props.get? name = e.props.get? name := by
  simp only [Tree.internalProps, List.mem_cons, List.not_mem_nil, or_false, not_or] at free
  obtain ⟨noDebug, noOriginal, noParent⟩ := free
  unfold Pending.request
  cases outer <;> cases e.isStandIn <;>
    simp [Json.Fields.get?_insert, Ne.symm noDebug, Ne.symm noOriginal, Ne.symm noParent]

-----------------------------------------------------------------------------------------
-- Images of elements
-----------------------------------------------------------------------------------------

/-- A built element has a JSON value under a name, and the value is written as a literal there. -/
structure Shows (image : Tree.Element Kind) (name : String) (v : Json.Value) : Prop where
  prop : image.props.get? name = some (.ofJson v)
  written
    : ∃ fields : Json.Fields Json.Value,
        image.wire
          = .array
              [.string "$r", .string image.kind.identifier,
                (image.key.map Json.Value.string).getD .null, .object fields]
        ∧ fields.get? name = some (Tree.literal v)

/-- What is not a note is written. -/
theorem shows_of_get? {image : Tree.Element Kind} {name : String} {v : Json.Value}
    (free : name ∉ Tree.internalProps) (found : image.props.get? name = some (.ofJson v))
    : Shows image name v := by
  refine ⟨found, _, rfl, ?_⟩
  have shown : Tree.internalProps.contains name = false := by simpa using free
  rw [Tree.Node.get?_wireProps _ _ shown, found, Option.map_some, Tree.Node.wire_ofJson]

/-- Holds for elements without children whose attributes have no blanks in their names. -/
def isPlainLeaf (e : Document.Element) : Bool :=
  e.children.isEmpty && e.attributes.all fun entry => !entry.1.toList.contains ' '

/-- A built element carries the attributes of an element of a document, save for one under the name
of the children and those that notes replace. It is the element itself, without children, if this is
opened by the line that is written for it.
-/
structure Carries (env : Environment) (e : Document.Element) (image : Tree.Element Kind)
    : Prop where
  attributes
    : ∀ entry ∈ e.attributes,
        entry.1 ∉ Tree.internalProps →
        entry.1 ≠ Tree.childrenProp →
        ∃ v, Json.parse entry.2.render = .ok v ∧ Shows image entry.1 v
  itself
    : (Instruction.opening e.kind).Readable →
        image.key = e.key
        ∧ (bindingOf? env e.kind).map Binding.kind = some image.kind
        ∧ image.props.get? Tree.childrenProp = none

/-- The attributes that were given to an open element are found in what is made of it. -/
theorem get?_element_given (e : Pending) (key : Option String) {attributes : Document.Attributes}
    (sorted : Json.Fields.Sorted attributes) (outer : Option Kind) {entry : String × Json.Value}
    (member : entry ∈ attributes) (free : entry.1 ∉ Tree.internalProps)
    (other : entry.1 ≠ Tree.childrenProp)
    : ((e.given key attributes).element outer).props.get? entry.1
      = some (.ofJson (readBack entry.2)) := by
  have given := Json.Fields.get?_foldl_insert sorted
    (fun v => (Tree.Node.ofJson (readBack v) : Built)) e.props entry.1
  rw [Json.Fields.get?_of_mem sorted member, Option.map_some, Option.some_or] at given
  have notChildren : ¬entry.1 = "children" := other
  rw [Pending.element, get?_withChildren, if_neg notChildren, get?_request _ _ free]
  exact given

/-- The lines of an element without children build an element that carries its attributes. -/
theorem exists_of_runLines_leaf {e : Document.Element} (leaf : isPlainLeaf e = true)
    (sorted : Json.Fields.Sorted e.attributes) {state last : State Unit} {line : Nat}
    (ran : runLines TreeBuilder.factory env state line
        (linesOf (lower (.element e.kind e.key e.attributes e.children)))
      = .ok last)
    : ∃ before image, last.built = state.built ++ before ++ [image] ∧ Carries env e image := by
  obtain ⟨kind, key, attributes, children⟩ := e
  obtain ⟨nothing, plain⟩ := Bool.and_eq_true_iff.mp leaf
  obtain rfl : children = [] := by simpa using nothing
  have plain : ∀ entry ∈ attributes, ' ' ∉ entry.1.toList := by simpa using plain
  have split : lower (.element kind key attributes [])
      = [.opening kind]
        ++ ((key.map Instruction.key).toList
          ++ (attributes.map (fun entry => .prop entry.1 entry.2) ++ [.close])) := by
    simp [lower, lowerList]
  rw [split, linesOf_append, linesOf_append, linesOf_append] at ran
  obtain ⟨opened, opening, ran⟩ := exists_of_runLines_append ran
  obtain ⟨keyed, keying, ran⟩ := exists_of_runLines_append ran
  obtain ⟨filled, furnishing, ran⟩ := exists_of_runLines_append ran
  obtain rfl := eq_mapTop_of_runLines_key keying
  obtain ⟨parsed, rfl⟩ := eq_mapTop_of_runLines_props plain furnishing
  have closing := step_of_runLines readable_close ran
  -- Whichever element is innermost after the first line, it is given the attributes and closed.
  cases stack : opened.stack with
  | nil => simp [State.step, State.mapTop, stack] at closing
  | cons top outer =>
      have given : ((opened.mapTop fun e => e.given key []).mapTop
          fun e => e.given none attributes).stack = top.given key attributes :: outer := by
        simp [State.mapTop, stack, Pending.given]
      have built := built_close given closing
      obtain ⟨before, earlier⟩ := built_isPrefix_runLines opening
      refine ⟨before, (top.given key attributes).element (outer.head?.map Pending.kind), ?_, ?_, ?_⟩
      · rw [built, earlier]
        simp [State.mapTop, State.built, stack, Pending.given]
      · intro entry member free other
        refine ⟨_, parsed entry member, shows_of_get? free ?_⟩
        exact get?_element_given top key sorted _ member free other
      · intro readable
        obtain ⟨binding, bound, rfl⟩ := exists_of_runLines_opening readable opening
        obtain ⟨rfl, rfl⟩ := List.cons.inj stack
        refine ⟨?_, ?_, ?_⟩
        · simp [Pending.element, Pending.given]
        · rw [bound]
          rfl
        · exact get?_withChildren _ [] _

-----------------------------------------------------------------------------------------
-- Whole documents
-----------------------------------------------------------------------------------------

/-- Between two states, elements were built among which are the images of the plain leaves among
elements of a document, in their order.
-/
def Adds (env : Environment) (elements : List Document.Element) (state last : State Unit) : Prop :=
  ∃ more images,
    last.built = state.built ++ more
    ∧ images.Sublist more
    ∧ List.Forall₂ (Carries env) (elements.filter isPlainLeaf) images

theorem Adds.append {elements others : List Document.Element} {state next last : State Unit}
    (first : Adds env elements state next) (later : Adds env others next last)
    : Adds env (elements ++ others) state last := by
  obtain ⟨more, images, built, among, carry⟩ := first
  obtain ⟨moreLater, imagesLater, builtLater, amongLater, carryLater⟩ := later
  refine ⟨more ++ moreLater, images ++ imagesLater, ?_, among.append amongLater, ?_⟩
  · rw [builtLater, built, List.append_assoc]
  · rw [List.filter_append]
    exact List.rel_append carry carryLater

/-- Elements that are no plain leaves have no images. -/
theorem adds_of_runLines {elements : List Document.Element}
    (none : elements.filter isPlainLeaf = []) {lines : List (List Char)} {state last : State Unit}
    {line : Nat} (ran : runLines TreeBuilder.factory env state line lines = .ok last)
    : Adds env elements state last := by
  obtain ⟨more, built⟩ := built_isPrefix_runLines ran
  exact ⟨more, [], built.symm, List.nil_sublist more, none ▸ .nil⟩

mutual

/-- The lines of a node build images of its plain leaves, by induction on the node. -/
theorem adds_of_runLines_lower {node : Document.Node}
    (sorted : ∀ e ∈ node.elements, Json.Fields.Sorted e.attributes)
    {state last : State Unit} {line : Nat}
    (ran : runLines TreeBuilder.factory env state line (linesOf (lower node)) = .ok last)
    : Adds env node.elements state last := by
  match node with
  | .text t => exact adds_of_runLines rfl ran
  | .element kind key attributes children =>
      obtain ⟨own, below⟩ := List.forall_mem_cons.mp sorted
      by_cases leaf : isPlainLeaf { kind, key, attributes, children } = true
      · obtain ⟨before, image, built, carries⟩ := exists_of_runLines_leaf leaf own ran
        obtain rfl : children = [] := by simpa using (Bool.and_eq_true_iff.mp leaf).1
        refine ⟨before ++ [image], [image], ?_, List.sublist_append_right before [image], ?_⟩
        · rw [built, List.append_assoc]
        · rw [Document.Node.elements, Document.Node.listElements, List.filter_cons_of_pos leaf]
          exact .cons carries .nil
      · rw [lower, linesOf_append, linesOf_append] at ran
        obtain ⟨filled, inside, closing⟩ := exists_of_runLines_append ran
        obtain ⟨opened, opening, inside⟩ := exists_of_runLines_append inside
        let e : Document.Element := { kind, key, attributes, children }
        have none : [e].filter isPlainLeaf = [] := List.filter_cons_of_neg leaf
        have around := (adds_of_runLines none opening).append
          (adds_of_runLines_lowerList below inside)
        rw [Document.Node.elements, ← List.append_nil (_ :: _)]
        exact around.append (adds_of_runLines rfl closing)

/-- The lines of nodes build images of their plain leaves, by induction on the nodes. -/
theorem adds_of_runLines_lowerList {nodes : List Document.Node}
    (sorted : ∀ e ∈ Document.Node.listElements nodes, Json.Fields.Sorted e.attributes)
    {state last : State Unit} {line : Nat}
    (ran : runLines TreeBuilder.factory env state line (linesOf (lowerList nodes)) = .ok last)
    : Adds env (Document.Node.listElements nodes) state last := by
  match nodes with
  | [] => exact adds_of_runLines rfl ran
  | node :: rest =>
      obtain ⟨here, later⟩ := List.forall_mem_append.mp sorted
      rw [lowerList, linesOf_append] at ran
      obtain ⟨next, first, others⟩ := exists_of_runLines_append ran
      exact (adds_of_runLines_lower here first).append (adds_of_runLines_lowerList later others)

end

/-- No attribute of an element without children is lost, save for one under the name of the
children. In the tree of a document whose unit runs there is an element for each element without
children whose attributes have no blanks in their names, in the order of the document. It has each
attribute under its name, unless a note replaces it, with the value that is read from the written
form of the attribute, and this value is written as a literal in its wire form, which is a part of
that of the tree. What else is in the document makes no difference, not even names that are not read
as they are written.
-/
theorem run_carries_leaves {bindings : List String} {nodes : List Document.Node}
    (sorted : ∀ e ∈ Document.Node.listElements nodes, Json.Fields.Sorted e.attributes)
    {tree : Built} (ran : run env (render (program bindings nodes)) = .ok tree)
    : ∃ props images,
        tree = .element .grouping none props
        ∧ images.Sublist (Built.childrenInBuildOrder props)
        ∧ List.Forall₂ (Carries env)
            ((Document.Node.listElements nodes).filter isPlainLeaf) images
        ∧ ∀ image ∈ images, image.wire ∈ tree.wire.parts := by
  obtain ⟨body, last, lines, ranLines, closed, rfl⟩ := exists_of_run ran
  obtain rfl : linesOf (program bindings nodes) = body :=
    (List.cons.inj ((lines_header (program bindings nodes)).symm.trans lines)).2
  rw [program, linesOf_append] at ranLines
  obtain ⟨ready, imported, ranLines⟩ := exists_of_runLines_append ranLines
  have nothing : Adds env [] { builder := () } ready := adds_of_runLines rfl imported
  obtain ⟨more, images, built, among, carry⟩ :=
    nothing.append (adds_of_runLines_lowerList sorted ranLines)
  have whole : Built.childrenInBuildOrder (last.groupRequest.props.withChildren
        last.groupRequest.children)
      = more := by
    rw [Built.childrenInBuildOrder_withChildren]
    simpa [State.built, State.groupRequest, closed] using built
  refine ⟨_, images, rfl, whole ▸ among, carry, fun image member => Built.wire_mem_parts ?_⟩
  exact List.mem_append_left _ (whole ▸ among.mem member)

/-- A component without children, after a text and in an element with an attribute that loses the
blank in its name.
-/
def nestedNote : List Document.Node :=
  [
    .element (.tag "div") none [("a ", .bool true)]
      [
        .text "t",
        .element (.component "Note") (some "k")
          [("class", .null), ("data", .array [.string "$r", .string "p"]), ("key", .string "\n")]
          []
      ]
  ]

/-- Its attributes are found in the element that is built for it. -/
theorem run_carries_nestedNote
    : ((Document.Node.listElements nestedNote).filter isPlainLeaf).length = 1
      ∧ (∀ e ∈ Document.Node.listElements nestedNote, Json.Fields.Sorted e.attributes)
      ∧ ∃ tree,
          run (Environment.standIns ["Note"]) (render (program ["Note"] nestedNote)) = .ok tree
          ∧ ∃ props images,
              tree = .element .grouping none props
              ∧ images.Sublist (Built.childrenInBuildOrder props)
              ∧ List.Forall₂ (Carries (Environment.standIns ["Note"]))
                  ((Document.Node.listElements nestedNote).filter isPlainLeaf) images
              ∧ ∀ image ∈ images, image.wire ∈ tree.wire.parts := by
  have sorted : ∀ e ∈ Document.Node.listElements nestedNote, Json.Fields.Sorted e.attributes := by
    decide
  have runs
      : (run (Environment.standIns ["Note"]) (render (program ["Note"] nestedNote))).isOk
        = true := by
    decide +kernel
  obtain ⟨tree, ran⟩ := exists_of_isOk runs
  exact ⟨by decide, sorted, tree, ran, run_carries_leaves sorted ran⟩

/-- Holds for documents whose unit runs, but with an element without children that has an attribute
which no element of the tree shows.
-/
def LosesAttribute (env : Environment) (bindings : List String) (nodes : List Document.Node)
    : Prop :=
  ∃ tree,
    run env (render (program bindings nodes)) = .ok tree
    ∧ ∃ e ∈ Document.Node.listElements nodes,
        e.children = []
        ∧ Json.Fields.Sorted e.attributes
        ∧ ∃ entry ∈ e.attributes,
            entry.1 ∉ Tree.internalProps
            ∧ ∀ image ∈ tree.inBuildOrder, ¬Shows image entry.1 entry.2

def paragraph (attributes : Document.Attributes) : List Document.Node :=
  [.element (.tag "p") none attributes []]

theorem losesAttribute_paragraph {attributes : Document.Attributes}
    (sorted : Json.Fields.Sorted attributes) {entry : String × Json.Value}
    (member : entry ∈ attributes) (free : entry.1 ∉ Tree.internalProps)
    (self : (Tree.Node.ofJson entry.2 : Built).same (.ofJson entry.2) = true)
    (none : (run [] (render (program [] (paragraph attributes)))).map (fun tree =>
        tree.inBuildOrder.any fun image =>
          (image.props.get? entry.1).any (·.same (.ofJson entry.2)))
      = .ok false)
    : LosesAttribute [] [] (paragraph attributes) := by
  cases ran : run [] (render (program [] (paragraph attributes))) with
  | error fault =>
      rw [ran] at none
      cases none
  | ok tree =>
      rw [ran] at none
      refine ⟨tree, ran, _, List.mem_singleton_self _, rfl, sorted, entry, member, free, ?_⟩
      intro image built shows
      have absent := List.any_eq_false.mp (Except.ok.inj none) image built
      rw [shows.prop, Option.any_some, self] at absent
      exact absent rfl

/-- A fraction whose written form is read as another one. -/
def unsteadyFraction : Json.Value :=
  (Json.parse "908.8633635614762").toOption.getD .null

/-- An attribute under the name of the children is taken away with them; one whose name has a blank
is put under another name, in place of the attribute that has it; and the last digit of a fraction
may change.
-/
theorem losesAttribute_paragraphs
    : LosesAttribute [] [] (paragraph [("children", .string "x")])
      ∧ LosesAttribute [] [] (paragraph [("a", .bool false), ("a ", .bool true)])
      ∧ LosesAttribute [] [] (paragraph [("x", unsteadyFraction)]) := by
  refine ⟨?children, ?blank, ?fraction⟩
  case children =>
    refine losesAttribute_paragraph (by decide) List.mem_cons_self (by decide) (by decide) ?_
    decide +kernel
  case blank =>
    refine losesAttribute_paragraph (by decide) List.mem_cons_self (by decide) (by decide) ?_
    decide +kernel
  case fraction =>
    refine losesAttribute_paragraph (by decide) List.mem_cons_self (by decide) ?_ ?_ <;>
      decide +kernel

end Folio.Unit
