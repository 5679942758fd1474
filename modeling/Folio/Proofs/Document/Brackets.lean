import Folio.Document.Builder
import Folio.Proofs.Markdown.Balance

/-! Documents as sequences of brackets. The start and the end of a construct of Markdown are
brackets, as are opening and closing tags; all else is a node that stands between brackets. Brackets
that nest properly have a tree, and others have a first fault.
-/

namespace Folio.Document

open Markdown (Placed Construct Event)

-----------------------------------------------------------------------------------------
-- Constructs and the elements that they open
-----------------------------------------------------------------------------------------

/-- Where a document is in its tables: in a head or not, with the alignments of the columns and the
number of the next column.
-/
structure TablePlace where
  inHead : Bool := false
  alignments : List Markdown.Alignment := []
  column : Nat := 0

def Builder.at (b : Builder) (t : TablePlace) : Builder :=
  { b with inTableHead := t.inHead, alignments := t.alignments, column := t.column }

namespace TablePlace

def enter (t : TablePlace) : Construct → TablePlace
  | .table alignments => { t with alignments }
  | .tableHead => { t with inHead := true, column := 0 }
  | .tableRow => { t with column := 0 }
  | _ => t

def leave (t : TablePlace) : Construct → TablePlace
  | .table _ => { t with alignments := [] }
  | .tableHead => { t with inHead := false }
  | .tableCell => { t with column := t.column + 1 }
  | _ => t

def after (t : TablePlace) : Event → TablePlace
  | .enter c => t.enter c
  | .leave c => t.leave c
  | _ => t

/-- The elements that a construct opens, innermost first. The body of a table is not one of them: it
is opened for the first row and closed with the table.
-/
def opened (t : TablePlace) (c : Construct) (line : Nat) : List OpenElement :=
  ((({} : Builder).at t).enter c line).stack

end TablePlace

structure OpenElement.Fresh (e : OpenElement) : Prop where
  isTag : e.isTag = false
  children : e.children = []

namespace OpenElement.Fresh

theorem markdown (name : String) (line : Nat)
    : (OpenElement.markdown name line).Fresh :=
  ⟨rfl, rfl⟩

theorem set {e : OpenElement} (h : e.Fresh) (name : String) (value : Json.Value)
    : (e.with name value).Fresh :=
  ⟨h.isTag, h.children⟩

theorem linkElement (name target : String) (destination title : List Char) (line : Nat)
    : (Builder.linkElement name target destination title line).Fresh := by
  have plain := (markdown name line).set target (.string (String.ofList destination))
  simp only [Builder.linkElement]
  split
  · exact plain
  · exact plain.set _ _

theorem heading (level : Nat) (a : Markdown.HeadingAttributes) (line : Nat)
    : (Builder.heading level a line).Fresh := by
  have attributes (entries : List (String × Option String)) (e : OpenElement) (h : e.Fresh)
      : (entries.foldl
          (fun e entry => e.with entry.1 ((entry.2.map Json.Value.string).getD (.bool true)))
            e).Fresh := by
    induction entries generalizing e with
    | nil => exact h
    | cons entry rest ih => exact ih _ (h.set _ _)
  have plain := markdown ("h" ++ toString level) line
  refine attributes a.attributes _ ?_
  cases a.id <;> split
  · exact plain
  · exact plain.set _ _
  · exact plain.set _ _
  · exact (plain.set _ _).set _ _

end OpenElement.Fresh

theorem enter_list (start : Option Nat) (line : Nat)
    : ∃ e : OpenElement, e.Fresh ∧ ∀ b : Builder, b.enter (.list start) line = b.openElement e := by
  have ordered := OpenElement.Fresh.markdown "ol" line
  rcases start with _ | _ | _ | n
  · exact ⟨_, .markdown "ul" line, fun _ => rfl⟩
  · exact ⟨_, ordered.set _ _, fun _ => rfl⟩
  · exact ⟨_, ordered, fun _ => rfl⟩
  · exact ⟨_, ordered.set _ _, fun _ => rfl⟩

/-- Nothing that a construct opens has children, by cases on the construct. -/
theorem opened_fresh (t : TablePlace) (c : Construct) (line : Nat)
    : ∀ e ∈ t.opened c line, e.Fresh := by
  have one {e : OpenElement} (h : e.Fresh) : ∀ x ∈ [e], OpenElement.Fresh x :=
    List.forall_mem_singleton.mpr h
  cases c with
  | html => exact List.forall_mem_nil _
  | heading level a => exact one (.heading level a line)
  | link destination title => exact one (.linkElement _ _ _ _ _)
  | image destination title => exact one (.linkElement _ _ _ _ _)
  | tableHead => exact List.forall_mem_cons.mpr ⟨.markdown "tr" line, one (.markdown "thead" line)⟩
  | code info =>
      simp only [TablePlace.opened, Builder.enter]
      have outer := one (.markdown "pre" line)
      have code := OpenElement.Fresh.markdown "code" line
      split
      · exact List.forall_mem_cons.mpr ⟨code.set _ _, outer⟩
      · exact List.forall_mem_cons.mpr ⟨code, outer⟩
  | list start =>
      obtain ⟨e, fresh, enter⟩ := enter_list start line
      rw [TablePlace.opened, enter]
      exact one fresh
  | tableCell =>
      simp only [TablePlace.opened, Builder.enter]
      split
      · exact one (.set (.markdown _ _) _ _)
      · exact one (.markdown _ _)
  | _ => exact one (.markdown _ line)

def elementCount : Construct → Nat
  | .html => 0
  | .code _ | .tableHead => 2
  | _ => 1

theorem length_opened (t : TablePlace) (c : Construct) (line : Nat)
    : (t.opened c line).length = elementCount c := by
  cases c with
  | code info =>
      simp only [TablePlace.opened, Builder.enter]
      split <;> rfl
  | list start =>
      obtain ⟨e, -, enter⟩ := enter_list start line
      rw [TablePlace.opened, enter]
      rfl
  | tableCell =>
      simp only [TablePlace.opened, Builder.enter]
      split <;> rfl
  | _ => rfl

-----------------------------------------------------------------------------------------
-- The nodes of constructs
-----------------------------------------------------------------------------------------

def OpenElement.around (e : OpenElement) (children : List Node) : Node :=
  .element e.kind e.key e.attributes children

def wrap (elements : List OpenElement) (children : List Node) : List Node :=
  elements.foldl (fun inside e => [e.around inside]) children

def Node.isText : Node → Bool
  | .text _ => true
  | .element _ _ _ _ => false

def Node.isRow : Node → Bool
  | .text _ => false
  | .element kind _ _ _ => kind == .tag "tr"

def tableHeads (parts : List Node) : List Node :=
  parts.takeWhile fun part => !part.isRow

/-- What belongs into the body of a table: the first row and all that comes after it. -/
def tableRows (parts : List Node) : List Node :=
  parts.dropWhile fun part => !part.isRow

/-- The children of a table: its heads, and a body if it has rows. -/
def withBody (parts : List Node) : List Node :=
  if tableRows parts = [] then tableHeads parts
  else tableHeads parts ++ [.element (.tag "tbody") none [] (tableRows parts)]

/-- The node of a construct that has opened elements and stands around children. An image keeps the
text of its children as an attribute.
-/
def constructNode (c : Construct) (opened : List OpenElement) (children : List Node) : List Node :=
  match c with
  | .image _ _ => opened.map fun e => (e.with "alt" (.string (Node.listContent children))).around []
  | .table _ => wrap opened (withBody children)
  | _ => wrap opened children

/-- Nodes as a list of children: texts that meet are one text. -/
def Node.joined (nodes : List Node) : List Node :=
  (nodes.foldl (fun before node => node.addTo before) []).reverse

theorem Node.addTo_element {node : Node} (notText : node.isText = false) (before : List Node)
    : node.addTo before = node :: before := by
  cases node with
  | text t => cases notText
  | element kind key attributes children => rfl

/-- Nodes that are no texts stay as they are. -/
theorem Node.joined_elements {nodes : List Node} (noTexts : ∀ node ∈ nodes, node.isText = false)
    : Node.joined nodes = nodes := by
  have added (before : List Node)
      : nodes.foldl (fun before node => node.addTo before) before = nodes.reverse ++ before := by
    induction nodes generalizing before with
    | nil => rfl
    | cons node rest ih =>
        obtain ⟨first, others⟩ := List.forall_mem_cons.mp noTexts
        rw [List.foldl_cons, Node.addTo_element first, ih others, List.reverse_cons,
          List.append_assoc]
        rfl
  rw [Node.joined, added, List.append_nil, List.reverse_reverse]

-----------------------------------------------------------------------------------------
-- The sequence of a document
-----------------------------------------------------------------------------------------

structure Tag where
  kind : Kind
  key : Option String
  attributes : Attributes
  line : Nat

def Tag.opened (tag : Tag) : OpenElement :=
  { kind := tag.kind, key := tag.key, attributes := tag.attributes, children := [], isTag := true,
    line := tag.line }

def OpenElement.tag (e : OpenElement) : Tag :=
  { kind := e.kind, key := e.key, attributes := e.attributes, line := e.line }

/-- A part of a document: a node, or a bracket. -/
inductive Piece where
  | node (node : Node)
  | enter (construct : Construct) (place : TablePlace) (line : Nat)
  | leave (construct : Construct)
  | opening (tag : Tag)
  | closing (name : String) (line : Nat)

def isKey : Json.Value → Bool
  | .string _ | .number _ => true
  | _ => false

/-- Holds for attributes that have a value; the attribute `key` needs one that may be a key. -/
def isValidAttribute (entry : List Char × Markup.AttributeValue) : Bool :=
  match Builder.attributeValue entry.2 with
  | .error _ => false
  | .ok value => String.ofList entry.1 != "key" || isKey value

/-- Holds for all but opening tags that are neither in lower case nor declared, or that have an
attribute which is not valid.
-/
def isValidToken (names : List String) : Markup.Token → Bool
  | .opening name attributes _ =>
      (name.head?.any Char.isLower || names.contains (String.ofList name))
        && attributes.all isValidAttribute
  | _ => true

def hasValidTags (names : List String) : Event → Bool
  | .html text => (Markup.tokens text).all fun t => isValidToken names t.token
  | _ => true

/-- The piece of a token. A tag that closes itself or has no end is a node. -/
def tokenPieces (names : List String) (line : Nat) : Markup.Token → List Piece
  | .text text => [.node (.text (String.ofList text))]
  | .closing name => [.closing (String.ofList name) line]
  | .opening name attributes selfClosing =>
      match Builder.tagElement names (String.ofList name) attributes line with
      | .error _ => []
      | .ok e =>
          if selfClosing || Html.voidTags.contains (String.ofList name) then
            [.node (e.tag.opened.around [])]
          else [.opening e.tag]

/-- The pieces of an event. Blocks of HTML are no brackets. -/
def eventPieces (source : Source) (t : TablePlace) (e : Placed) : List Piece :=
  match e.event with
  | .enter .html | .leave .html => []
  | .enter c => [.enter c t (source.lineAt e.offset)]
  | .leave c => [.leave c]
  | .text text => [.node (.text (String.ofList text))]
  | .code text => [.node (.element (.tag "code") none [] [.text (String.ofList text)])]
  | .html text =>
      (Markup.tokens text).flatMap fun token =>
        tokenPieces source.names (source.lineAt (e.offset + token.offset)) token.token
  | .softBreak => [.node (.text "\n")]
  | .hardBreak => [.node (leafNode "br" [])]
  | .rule => [.node (leafNode "hr" [])]
  | .task ticked => [.node (Builder.taskBox ticked)]

theorem eventPieces_enter {source : Source} {t : TablePlace} {c : Construct} (h : c ≠ .html)
    (offset : Nat)
    : eventPieces source t ⟨.enter c, offset⟩ = [.enter c t (source.lineAt offset)] := by
  cases c <;> first | rfl | contradiction

theorem eventPieces_leave {source : Source} {t : TablePlace} {c : Construct} (h : c ≠ .html)
    (offset : Nat)
    : eventPieces source t ⟨.leave c, offset⟩ = [.leave c] := by
  cases c <;> first | rfl | contradiction

def pieces (source : Source) : TablePlace → List Placed → List Piece
  | _, [] => []
  | t, e :: rest => eventPieces source t e ++ pieces source (t.after e.event) rest

theorem pieces_append (source : Source) (t : TablePlace) (before after : List Placed)
    : pieces source t (before ++ after)
      = pieces source t before
        ++ pieces source (before.foldl (fun t e => t.after e.event) t) after := by
  induction before generalizing t with
  | nil => rfl
  | cons e rest ih => simp only [List.cons_append, pieces, ih, List.append_assoc, List.foldl_cons]

/-- The pieces of an event are among those of all events, wherever it comes among them. -/
theorem mem_pieces {source : Source} {events : List Placed} {e : Placed} (member : e ∈ events)
    (t : TablePlace)
    : ∃ t', ∀ piece ∈ eventPieces source t' e, piece ∈ pieces source t events := by
  induction events generalizing t with
  | nil => cases member
  | cons first rest ih =>
      rcases List.mem_cons.mp member with rfl | later
      · exact ⟨t, fun piece inFirst => List.mem_append_left _ inFirst⟩
      · obtain ⟨t', inRest⟩ := ih later (t.after first.event)
        exact ⟨t', fun piece here => List.mem_append_right _ (inRest piece here)⟩

-----------------------------------------------------------------------------------------
-- Nesting
-----------------------------------------------------------------------------------------

/-- What stands right around a piece: a construct or nothing at all, a table, or a tag. -/
inductive Surround where
  | markdown
  | table
  | tag
deriving DecidableEq

def constructSurround (c : Construct) : Surround :=
  if c.inner = .table then .table else .markdown

/-- Holds for constructs that may stand there: parts of tables stand in tables, and all others stand
outside of them. Blocks of HTML are no brackets.
-/
structure MayStand (c : Construct) (s : Surround) : Prop where
  table : c.region = .table ↔ s = .table
  bracket : c ≠ .html

/-- Pieces that nest properly, with the nodes that they are. A closing tag without children is
skipped unless a tag surrounds it.
-/
inductive Nested : Surround → List Piece → List Node → Prop where
  | nil {s : Surround} : Nested s [] []
  | node {s : Surround} {node : Node} {rest : List Piece} {nodes : List Node}
      (outside : s ≠ .table) (after : Nested s rest nodes)
      : Nested s (.node node :: rest) (node :: nodes)
  | skipped {name : String} {line : Nat} {rest : List Piece} {nodes : List Node}
      (isVoid : Html.voidTags.contains name = true) (after : Nested .markdown rest nodes)
      : Nested .markdown (.closing name line :: rest) nodes
  | construct {s : Surround} {c : Construct} {t : TablePlace} {line : Nat}
      {inside rest : List Piece} {children nodes : List Node} (mayStand : MayStand c s)
      (within : Nested (constructSurround c) inside children) (after : Nested s rest nodes)
      : Nested s (.enter c t line :: (inside ++ .leave c :: rest))
          (constructNode c (t.opened c line) (Node.joined children) ++ nodes)
  | tag {s : Surround} {tag : Tag} {line : Nat} {inside rest : List Piece}
      {children nodes : List Node} (outside : s ≠ .table) (within : Nested .tag inside children)
      (after : Nested s rest nodes)
      : Nested s (.opening tag :: (inside ++ .closing tag.kind.name line :: rest))
          (tag.opened.around (Node.joined children) :: nodes)

theorem Nested.append {s : Surround} {before after : List Piece} {nodes more : List Node}
    (h : Nested s before nodes) (later : Nested s after more)
    : Nested s (before ++ after) (nodes ++ more) := by
  induction h with
  | nil => exact later
  | node outside _ ih => exact .node outside (ih later)
  | skipped isVoid _ ih => exact .skipped isVoid (ih later)
  | construct mayStand within _ _ ih =>
      simpa only [List.cons_append, List.append_assoc] using .construct mayStand within (ih later)
  | tag outside within _ _ ih =>
      simpa only [List.cons_append, List.append_assoc] using .tag outside within (ih later)

inductive Bracket where
  | construct (construct : Construct)
  | tag (tag : Tag)

/-- What is right around the next piece while brackets are open, innermost first. -/
def surround : List Bracket → Surround
  | [] => .markdown
  | .construct c :: _ => constructSurround c
  | .tag _ :: _ => .tag

/-- Pieces that nest properly but for the brackets that are open at their end. -/
inductive Opened : List Bracket → List Piece → Prop where
  | outside {before : List Piece} {nodes : List Node} (nested : Nested .markdown before nodes)
      : Opened [] before
  | construct {outer : List Bracket} {c : Construct} {t : TablePlace} {line : Nat}
      {before inside : List Piece} {nodes : List Node} (standing : Opened outer before)
      (mayStand : MayStand c (surround outer)) (within : Nested (constructSurround c) inside nodes)
      : Opened (.construct c :: outer) (before ++ .enter c t line :: inside)
  | tag {outer : List Bracket} {tag : Tag} {before inside : List Piece} {nodes : List Node}
      (standing : Opened outer before) (notTable : surround outer ≠ .table)
      (within : Nested .tag inside nodes)
      : Opened (.tag tag :: outer) (before ++ .opening tag :: inside)

/-- Why a piece may not come next while brackets are open: a closing tag has another name than the
innermost tag, or no tag is innermost that it could close; or a construct ends in which a tag is
open.
-/
inductive Fault : List Bracket → Piece → CompileError → Prop where
  | mismatched {outer : List Bracket} {tag : Tag} {name : String} {line : Nat}
      (different : tag.kind.name ≠ name)
      : Fault (.tag tag :: outer) (.closing name line) (.mismatchedTag tag.kind.name name line)
  | unexpected {outer : List Bracket} {name : String} {line : Nat}
      (noTag : surround outer ≠ .tag) (notVoid : Html.voidTags.contains name = false)
      : Fault outer (.closing name line) (.unexpectedClosingTag name line)
  | unclosed {outer : List Bracket} {tag : Tag} {c : Construct} (isBracket : c ≠ .html)
      : Fault (.tag tag :: outer) (.leave c) (.unclosedTag tag.kind.name tag.line)

/-- The error of the first piece that is at fault, with everything before it nested properly; or of
the innermost tag that is open at the end.
-/
inductive FirstFault : List Piece → CompileError → Prop where
  | piece {outer : List Bracket} {before after : List Piece} {piece : Piece} {error : CompileError}
      (standing : Opened outer before) (fault : Fault outer piece error)
      : FirstFault (before ++ piece :: after) error
  | atEnd {outer : List Bracket} {tag : Tag} {before : List Piece}
      (standing : Opened (.tag tag :: outer) before)
      : FirstFault before (.unclosedTag tag.kind.name tag.line)

end Folio.Document
