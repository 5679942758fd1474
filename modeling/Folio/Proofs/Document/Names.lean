import Folio.Document.Compile
import Folio.Proofs.Chain
import Folio.Proofs.Document.MarkupNames
import Folio.Proofs.Document.Prelude
import Folio.Proofs.Json.Fields
import Folio.Proofs.Markdown.Headings
import Folio.Proofs.Unit.Execution

/-! The names in the syntax tree of a document fit into the lines of a unit. They come from three
places: tags of markup, attribute blocks of headings, and the names that were declared. Each event
keeps what is known of the tree that is being built.
-/

namespace Folio.Document

open Folio.Unit (IsOpenable IsPropName)

variable {names : List String}

-----------------------------------------------------------------------------------------
-- Nodes
-----------------------------------------------------------------------------------------

/-- Holds for the names of tags: a unit can open them, and they start with a small letter. -/
structure IsTagName (name : List Char) : Prop extends IsOpenable name where
  lower : name.head?.any Char.isLower = true

instance (name : List Char) : Decidable (IsTagName name) :=
  decidable_of_iff (IsOpenable name ∧ name.head?.any Char.isLower = true)
    ⟨fun ⟨opens, lower⟩ => ⟨opens, lower⟩, fun h => ⟨h.toIsOpenable, h.lower⟩⟩

/-- Holds for elements whose names fit, the name of a tag starting with a small letter. -/
structure Fits (names : List String) (kind : Kind) (attributes : Attributes) : Prop
    extends Unit.Named names kind attributes where
  lower : ∀ name, kind = .tag name → name.toList.head?.any Char.isLower = true

def Node.Named (names : List String) (node : Node) : Prop :=
  ∀ e ∈ node.elements, Fits names e.kind e.attributes

/-- The elements of nodes have names that fit if those of each node have. -/
theorem fits_listElements {nodes : List Node} (h : ∀ node ∈ nodes, node.Named names)
    : ∀ e ∈ Node.listElements nodes, Fits names e.kind e.attributes := by
  induction nodes with
  | nil => exact List.forall_mem_nil _
  | cons node rest ih =>
      obtain ⟨first, later⟩ := List.forall_mem_cons.mp h
      exact List.forall_mem_append.mpr ⟨first, ih later⟩

theorem named_listElements {nodes : List Node} (h : ∀ node ∈ nodes, node.Named names)
    : ∀ e ∈ Node.listElements nodes, Unit.Named names e.kind e.attributes :=
  fun e member => (fits_listElements h e member).toNamed

theorem named_text (t : String) : (Node.text t).Named names :=
  List.forall_mem_nil _

theorem named_element {kind : Kind} {key : Option String} {attributes : Attributes}
    {children : List Node} (own : Fits names kind attributes)
    (inside : ∀ node ∈ children, node.Named names)
    : (Node.element kind key attributes children).Named names :=
  List.forall_mem_cons.mpr ⟨own, fits_listElements inside⟩

/-- A tag has a name that fits, as long as it has no attributes. -/
theorem fits_tag {name : String} (h : IsTagName name.toList) : Fits names (.tag name) [] where
  tag _ same := Kind.tag.inj same ▸ h.toIsOpenable
  component _ same := nomatch same
  names := List.forall_mem_nil _
  lower _ same := Kind.tag.inj same ▸ h.lower

theorem named_insert {kind : Kind} {attributes : Attributes} (h : Unit.Named names kind attributes)
    {name : String} (fits : IsPropName name) (value : Json.Value)
    : Unit.Named names kind (attributes.insert name value) where
  tag := h.tag
  component := h.component
  names := by
    intro entry member
    rcases Json.Fields.mem_insert member with rfl | old
    · exact fits
    · exact h.names entry old

theorem fits_insert {kind : Kind} {attributes : Attributes} (h : Fits names kind attributes)
    {name : String} (fits : IsPropName name) (value : Json.Value)
    : Fits names kind (attributes.insert name value) :=
  { named_insert h.toNamed fits value with lower := h.lower }

/-- A node without children has names that fit if those of its attributes do. -/
theorem named_leafNode {name : String} (isTag : IsTagName name.toList)
    {attributes : List (String × Json.Value)} (fits : ∀ entry ∈ attributes, IsPropName entry.1)
    : (leafNode name attributes).Named names := by
  refine named_element ?_ (List.forall_mem_nil _)
  have fold (kept : Attributes) (h : Fits names (.tag name) kept)
      : Fits names (.tag name)
          (attributes.foldl (fun fields entry => Json.Fields.insert fields entry.1 entry.2)
            kept) := by
    induction attributes generalizing kept with
    | nil => exact h
    | cons entry rest ih =>
        obtain ⟨first, later⟩ := List.forall_mem_cons.mp fits
        exact ih later _ (fits_insert h first _)
  exact fold [] (fits_tag isTag)

/-- Putting a node before others adds it, or joins two texts. -/
theorem Node.Named.addTo {node : Node} (h : node.Named names) {before : List Node}
    (others : ∀ other ∈ before, other.Named names)
    : ∀ other ∈ node.addTo before, other.Named names := by
  unfold Node.addTo
  split
  · exact List.forall_mem_cons.mpr ⟨named_text _, (List.forall_mem_cons.mp others).2⟩
  · exact List.forall_mem_cons.mpr ⟨h, others⟩

-----------------------------------------------------------------------------------------
-- The tree that is being built
-----------------------------------------------------------------------------------------

structure OpenElement.Named (names : List String) (e : OpenElement) : Prop where
  own : Fits names e.kind e.attributes
  inside : ∀ node ∈ e.children, node.Named names

structure Builder.Named (names : List String) (b : Builder) : Prop where
  stack : ∀ e ∈ b.stack, e.Named names
  root : ∀ node ∈ b.root, node.Named names

theorem OpenElement.Named.node {e : OpenElement} (h : e.Named names) : e.node.Named names :=
  named_element h.own fun node member => h.inside node (List.mem_reverse.mp member)

theorem OpenElement.Named.with {e : OpenElement} (h : e.Named names) {name : String}
    (fits : IsPropName name) (value : Json.Value)
    : (e.with name value).Named names :=
  ⟨fits_insert h.own fits value, h.inside⟩

theorem named_markdown {name : String} (isTag : IsTagName name.toList) (line : Nat)
    : (OpenElement.markdown name line).Named names :=
  ⟨fits_tag isTag, List.forall_mem_nil _⟩

namespace Builder.Named

variable {b b' : Builder}

/-- Only the elements of a tree count. -/
theorem of_same (h : b.Named names) (stack : b'.stack = b.stack) (root : b'.root = b.root)
    : b'.Named names :=
  ⟨stack ▸ h.stack, root ▸ h.root⟩

theorem push (h : b.Named names) {node : Node} (named : node.Named names)
    : (b.push node).Named names := by
  unfold Builder.push
  split
  · exact ⟨h.stack, named.addTo h.root⟩
  · next e outer open_ =>
      obtain ⟨here, below⟩ := List.forall_mem_cons.mp (open_ ▸ h.stack)
      exact ⟨List.forall_mem_cons.mpr ⟨⟨here.own, named.addTo here.inside⟩, below⟩, h.root⟩

theorem openElement (h : b.Named names) {e : OpenElement} (named : e.Named names)
    : (b.openElement e).Named names :=
  ⟨List.forall_mem_cons.mpr ⟨named, h.stack⟩, h.root⟩

/-- Closing an element of Markdown puts its node inside the next one. -/
theorem closeMarkdown (h : b.Named names) (closed : b.closeMarkdown = .ok b')
    : b'.Named names := by
  unfold Builder.closeMarkdown at closed
  split at closed
  · obtain rfl := Except.ok.inj closed
    exact h
  · next e outer open_ =>
      obtain ⟨here, below⟩ := List.forall_mem_cons.mp (open_ ▸ h.stack)
      split at closed
      · exact nomatch closed
      · have rest : Builder.Named names { b with stack := outer } := ⟨below, h.root⟩
        obtain rfl := Except.ok.inj closed
        exact rest.push here.node

/-- Closing an image gives it the text of its children in their place. -/
theorem closeImage (h : b.Named names) (closed : b.closeImage = .ok b') : b'.Named names := by
  unfold Builder.closeImage at closed
  split at closed
  · obtain rfl := Except.ok.inj closed
    exact h
  · next e outer open_ =>
      obtain ⟨here, below⟩ := List.forall_mem_cons.mp (open_ ▸ h.stack)
      split at closed
      · exact nomatch closed
      · have rest : Builder.Named names { b with stack := outer } := ⟨below, h.root⟩
        have bare : OpenElement.Named names { e with children := [] } :=
          ⟨here.own, List.forall_mem_nil _⟩
        have fits : IsPropName "alt" := by decide
        obtain rfl := Except.ok.inj closed
        exact rest.push (bare.with fits _).node

/-- Closing two elements of Markdown, one after the other. -/
theorem closeMarkdown_twice (h : b.Named names)
    (closed : (b.closeMarkdown >>= Builder.closeMarkdown) = .ok b')
    : b'.Named names := by
  obtain ⟨between, first, second⟩ := bind_eq_ok.mp closed
  exact (h.closeMarkdown first).closeMarkdown second

end Builder.Named

-----------------------------------------------------------------------------------------
-- Markdown
-----------------------------------------------------------------------------------------

theorem not_isBlank_of_isDigit {c : Char} (h : c.isDigit = true) : Text.isBlank c = false := by
  refine Markup.not_isBlank_of_isTagNameChar ?_
  simp [Markup.isTagNameChar, Char.isAlphanum, h]

/-- The name of a heading is that of a tag, whatever its level. -/
theorem isTagName_heading (level : Nat) : IsTagName ("h" ++ toString level).toList := by
  have name : ("h" ++ toString level).toList = 'h' :: Nat.toDigits 10 level := by
    simp
  rw [name]
  refine ⟨⟨by simp, ?_, by simp⟩, rfl⟩
  refine List.forall_mem_cons.mpr ⟨by decide, fun c member => ?_⟩
  exact not_isBlank_of_isDigit (Nat.isDigit_of_mem_toDigits (by decide) (by decide) member)

/-- A name without ASCII blanks fits before a blank. -/
theorem isPropName_of_noBlank {name : String} (h : Markdown.NoBlank name.toList)
    : IsPropName name := by
  constructor <;> intro member <;> exact absurd (h _ member) (by decide)

/-- A heading with plain attributes has names that fit, by induction on the attributes. -/
theorem named_heading (level line : Nat) {a : Markdown.HeadingAttributes} (plain : a.Plain)
    : (Builder.heading level a line).Named names := by
  have start : OpenElement.Named names (.markdown ("h" ++ toString level) line) :=
    named_markdown (isTagName_heading level) line
  have fold (attributes : List (String × Option String))
      (noBlank : ∀ entry ∈ attributes, Markdown.NoBlank entry.1.toList) (e : OpenElement)
      (h : e.Named names)
      : OpenElement.Named names
          (attributes.foldl
            (fun e entry => e.with entry.1 ((entry.2.map Json.Value.string).getD (.bool true)))
            e) := by
    induction attributes generalizing e with
    | nil => exact h
    | cons entry rest ih =>
        obtain ⟨first, later⟩ := List.forall_mem_cons.mp noBlank
        exact ih later _ (h.with (isPropName_of_noBlank first) _)
  unfold Builder.heading
  refine fold a.attributes plain _ ?_
  have classed {e : OpenElement} (h : e.Named names) (value : Json.Value)
      : (e.with "className" value).Named names :=
    h.with (by decide) value
  split
  · split
    · exact start.with (by decide) _
    · exact start
  · refine classed ?_ _
    split
    · exact start.with (by decide) _
    · exact start

theorem named_linkElement {name target : String} (isTag : IsTagName name.toList)
    (fits : IsPropName target) (destination title : List Char) (line : Nat)
    : (Builder.linkElement name target destination title line).Named names := by
  have element : OpenElement.Named names (.markdown name line) := named_markdown isTag line
  unfold Builder.linkElement
  split
  · exact element.with fits _
  · exact (element.with fits _).with (by decide) _

/-- Opening a construct of Markdown keeps all names fitting, if those of headings are plain. -/
theorem Builder.Named.enter {b : Builder} (h : b.Named names) {construct : Markdown.Construct}
    (plain : (Markdown.Event.enter construct).Plain) (line : Nat)
    : (b.enter construct line).Named names := by
  have plainly (b : Builder) (h : b.Named names) (name : String) (isTag : IsTagName name.toList)
      : Builder.Named names (b.openElement (.markdown name line)) :=
    h.openElement (named_markdown isTag line)
  have with_ (b : Builder) (h : b.Named names) (name : String) (isTag : IsTagName name.toList)
      (key : String) (fits : IsPropName key) (value : Json.Value)
      : Builder.Named names (b.openElement ((OpenElement.markdown name line).with key value)) :=
    h.openElement ((named_markdown isTag line).with fits value)
  unfold Builder.enter
  cases construct with
  | heading level attributes => exact h.openElement (named_heading level line plain)
  | paragraph | quote | item | definitions | term | definition => exact plainly b h _ (by decide)
  | html => exact h
  | link destination title =>
      exact h.openElement (named_linkElement (by decide) (by decide) destination title line)
  | image destination title =>
      exact h.openElement (named_linkElement (by decide) (by decide) destination title line)
  | emphasis kind => cases kind <;> exact plainly b h _ (by decide)
  | code info =>
      have outer := plainly b h "pre" (by decide)
      simp only
      split
      · exact with_ _ outer _ (by decide) _ (by decide) _
      · exact plainly _ outer _ (by decide)
  | list start =>
      -- A list whose numbers start at one is opened without that number.
      rcases start with _ | _ | _ | n
      · exact plainly b h "ul" (by decide)
      · exact with_ b h "ol" (by decide) "start" (by decide) _
      · exact plainly b h "ol" (by decide)
      · exact with_ b h "ol" (by decide) "start" (by decide) _
  | table alignments => exact (plainly b h "table" (by decide)).of_same rfl rfl
  | tableHead =>
      have outer := plainly b h "thead" (by decide)
      refine plainly _ (outer.of_same ?_ ?_) "tr" (by decide) <;> rfl
  | tableRow =>
      have body : Builder.Named names
          (if b.isInside "table" then b.openElement (.markdown "tbody" line) else b) := by
        split
        · exact plainly b h _ (by decide)
        · exact h
      refine plainly _ (body.of_same ?_ ?_) "tr" (by decide) <;> rfl
  | tableCell =>
      have isTag : IsTagName (if b.inTableHead then "th" else "td").toList := by
        cases b.inTableHead <;> decide
      simp only
      split
      · exact with_ b h _ isTag _ (by decide) _
      · exact plainly b h _ isTag

/-- Closing a construct of Markdown keeps all names fitting. -/
theorem Builder.Named.leave {b b' : Builder} (h : b.Named names) (construct : Markdown.Construct)
    (left : b.leave construct = .ok b')
    : b'.Named names := by
  unfold Builder.leave at left
  split at left
  · obtain rfl := Except.ok.inj left
    exact h
  · exact h.closeMarkdown_twice left
  · exact Builder.Named.closeMarkdown_twice (b := { b with inTableHead := false })
      (h.of_same rfl rfl) left
  · exact Builder.Named.closeMarkdown (b := { b with column := b.column + 1 })
      (h.of_same rfl rfl) left
  · have ended {body : Builder} (inner : body.Named names)
        (closed : Builder.closeMarkdown { body with alignments := [] } = .ok b')
        : b'.Named names :=
      Builder.Named.closeMarkdown (b := { body with alignments := [] })
        (inner.of_same rfl rfl) closed
    simp only at left
    split at left
    · obtain ⟨body, closed, last⟩ := bind_eq_ok.mp left
      exact ended (h.closeMarkdown closed) last
    · exact ended h left
  · exact h.closeImage left
  · exact h.closeMarkdown left

-----------------------------------------------------------------------------------------
-- Markup
-----------------------------------------------------------------------------------------

/-- The names of tags and attributes in markup fit before a blank. -/
theorem isPropName_of_isName {name : List Char} (h : Markup.IsName name)
    : IsPropName (String.ofList name) := by
  rw [IsPropName, String.toList_ofList]
  constructor <;> intro member <;> exact absurd (h.noBlank _ member) (by decide)

/-- The names of tags in markup can be opened. -/
theorem isOpenable_of_isName {name : List Char} (h : Markup.IsName name) : IsOpenable name where
  notEmpty := by
    rintro rfl
    exact absurd h.start (by decide)
  noBlank := h.noBlank
  notComponent := by
    intro at_
    have start := h.start
    rw [at_] at start
    exact absurd start (by decide)

/-- The attributes of a tag are put into its element, by induction on the attributes. -/
theorem OpenElement.Named.addAttributes {e e' : OpenElement} (h : e.Named names) {line : Nat}
    {attributes : List (List Char × Markup.AttributeValue)}
    (fits : ∀ entry ∈ attributes, Markup.IsName entry.1)
    (added : Builder.addAttributes e line attributes = .ok e')
    : e'.Named names := by
  induction attributes generalizing e with
  | nil =>
      obtain rfl := Except.ok.inj added
      exact h
  | cons entry rest ih =>
      obtain ⟨name, written⟩ := entry
      obtain ⟨first, later⟩ := List.forall_mem_cons.mp fits
      have keyed (key : String) : OpenElement.Named names { e with key := some key } :=
        ⟨h.own, h.inside⟩
      unfold Builder.addAttributes at added
      simp only at added
      split at added
      · exact nomatch added
      · split at added
        · split at added
          · exact ih (keyed _) later added
          · exact ih (keyed _) later added
          · exact nomatch added
        · exact ih (h.with (isPropName_of_isName first) _) later added

/-- The element that a tag opens is a tag with a name, or a component that was declared. -/
theorem named_tagElement {name : List Char} (isName : Markup.IsName name)
    {attributes : List (List Char × Markup.AttributeValue)}
    (fits : ∀ entry ∈ attributes, Markup.IsName entry.1) {line : Nat} {e : OpenElement}
    (opened : Builder.tagElement names (String.ofList name) attributes line = .ok e)
    : e.Named names := by
  unfold Builder.tagElement at opened
  simp only at opened
  split at opened
  · next lower =>
      refine OpenElement.Named.addAttributes ⟨fits_tag ⟨?_, lower⟩, List.forall_mem_nil _⟩ fits
        opened
      rw [String.toList_ofList]
      exact isOpenable_of_isName isName
  · split at opened
    · next declared =>
        refine OpenElement.Named.addAttributes ⟨?_, List.forall_mem_nil _⟩ fits opened
        refine ⟨⟨fun _ same => (nomatch same), fun _ same => ?_, List.forall_mem_nil _⟩,
          fun _ same => nomatch same⟩
        exact Kind.component.inj same ▸ List.contains_iff_mem.mp declared
    · exact nomatch opened

theorem Builder.Named.closeTag {b b' : Builder} (h : b.Named names) {name : String} {line : Nat}
    (closed : b.closeTag name line = .ok b')
    : b'.Named names := by
  have stray (ended : (if Html.voidTags.contains name then .ok b
      else .error (.unexpectedClosingTag name line) : Except CompileError Builder) = .ok b')
      : b'.Named names := by
    split at ended
    · obtain rfl := Except.ok.inj ended
      exact h
    · exact nomatch ended
  unfold Builder.closeTag at closed
  simp only at closed
  split at closed
  · exact stray closed
  · next e outer open_ =>
      obtain ⟨here, below⟩ := List.forall_mem_cons.mp (open_ ▸ h.stack)
      split at closed
      · exact stray closed
      · split at closed
        · have rest : Builder.Named names { b with stack := outer } := ⟨below, h.root⟩
          obtain rfl := Except.ok.inj closed
          exact rest.push here.node
        · exact nomatch closed

/-- Taking a token in keeps all names fitting. -/
theorem Builder.Named.token {b b' : Builder} (h : b.Named names) {t : Markup.Token}
    (wellNamed : t.WellNamed) {line : Nat} (taken : b.token names t line = .ok b')
    : b'.Named names := by
  unfold Builder.token at taken
  split at taken
  · obtain rfl := Except.ok.inj taken
    exact h.push (named_text _)
  · exact h.closeTag taken
  · next name attributes selfClosing =>
      obtain ⟨e, opened, placed⟩ := bind_eq_ok.mp taken
      have named := named_tagElement wellNamed.1 wellNamed.2 opened
      split at placed
      · obtain rfl := Except.ok.inj placed
        exact h.push named.node
      · obtain rfl := Except.ok.inj placed
        exact h.openElement named

/-- Taking the tokens of a markup in keeps all names fitting, by induction on the tokens. -/
theorem Builder.Named.markup {source : Source} {offset : Nat} {tokens : List Markup.Placed}
    (wellNamed : ∀ t ∈ tokens, t.token.WellNamed) {b b' : Builder} (h : b.Named source.names)
    (taken : Builder.markup source offset b tokens = .ok b')
    : b'.Named source.names := by
  induction tokens generalizing b with
  | nil =>
      obtain rfl := Except.ok.inj taken
      exact h
  | cons t rest ih =>
      obtain ⟨first, later⟩ := List.forall_mem_cons.mp wellNamed
      obtain ⟨between, step, last⟩ := bind_eq_ok.mp taken
      exact ih later (h.token first step) last

-----------------------------------------------------------------------------------------
-- Whole documents
-----------------------------------------------------------------------------------------

/-- Taking an event in keeps all names fitting. -/
theorem Builder.Named.event {source : Source} {b b' : Builder} (h : b.Named source.names)
    {e : Markdown.Placed} (plain : e.event.Plain) (taken : Builder.event source b e = .ok b')
    : b'.Named source.names := by
  unfold Builder.event at taken
  split at taken
  · next construct same =>
      obtain rfl := Except.ok.inj taken
      rw [same] at plain
      exact h.enter plain _
  · exact h.leave _ taken
  · obtain rfl := Except.ok.inj taken
    exact h.push (named_text _)
  · obtain rfl := Except.ok.inj taken
    refine h.push (named_element (fits_tag (by decide)) ?_)
    exact List.forall_mem_singleton.mpr (named_text _)
  · exact h.markup (Markup.wellNamed_tokens _) taken
  · obtain rfl := Except.ok.inj taken
    exact h.push (named_text _)
  · obtain rfl := Except.ok.inj taken
    exact h.push (named_leafNode (by decide) (List.forall_mem_nil _))
  · obtain rfl := Except.ok.inj taken
    exact h.push (named_leafNode (by decide) (List.forall_mem_nil _))
  · obtain rfl := Except.ok.inj taken
    refine h.push (named_leafNode (by decide) ?_)
    simp only [List.forall_mem_cons]
    exact ⟨by decide, by decide, by decide, List.forall_mem_nil _⟩

/-- Taking events in keeps all names fitting, by induction on the events. -/
theorem Builder.Named.run {source : Source} {events : List Markdown.Placed}
    (plain : Markdown.AllPlain events) {b b' : Builder} (h : b.Named source.names)
    (ran : Builder.run source b events = .ok b')
    : b'.Named source.names := by
  induction events generalizing b with
  | nil =>
      obtain rfl := Except.ok.inj ran
      exact h
  | cons e rest ih =>
      obtain ⟨first, later⟩ := List.forall_mem_cons.mp plain
      obtain ⟨between, step, last⟩ := bind_eq_ok.mp ran
      exact ih later (h.event first step) last

/-- The names in the syntax tree of a body fit into the lines of a unit. -/
theorem named_parseBody {body : List Char} {nodes : List Node}
    (parsed : parseBody names body = .ok nodes)
    : ∀ node ∈ nodes, node.Named names := by
  unfold parseBody at parsed
  obtain ⟨⟨skipped, lines⟩, _, built⟩ := bind_eq_ok.mp parsed
  obtain ⟨b, ran, finished⟩ := bind_eq_ok.mp built
  have start : Builder.Named names {} := ⟨List.forall_mem_nil _, List.forall_mem_nil _⟩
  let source : Source := { names, text := lines.flatten, firstLine := skipped + 1 }
  have named : Builder.Named source.names b :=
    Builder.Named.run (Markdown.plain_events _) start ran
  unfold Builder.finish at finished
  split at finished
  · obtain rfl := Except.ok.inj finished
    exact fun node member => named.root node (List.mem_reverse.mp member)
  · exact nomatch finished

end Folio.Document
