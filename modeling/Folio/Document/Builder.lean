import Folio.Document.Body
import Folio.Document.Syntax
import Folio.Html
import Folio.Json.Reader
import Folio.Markdown.Event

/-! The syntax tree from the events of a document. Markdown and tags open and close elements; both
must nest properly, and a tag may not be left open inside the construct that it stands in.
-/

namespace Folio.Document

open Markdown (Placed Construct Event)

/-- An element that is open, with its children last first. -/
structure OpenElement where
  kind : Kind
  key : Option String
  attributes : Attributes
  children : List Node
  /-- It was opened by a tag, and not by Markdown. -/
  isTag : Bool
  line : Nat
deriving Inhabited

/-- The node of an element whose end was found. -/
def OpenElement.node (e : OpenElement) : Node :=
  .element e.kind e.key e.attributes e.children.reverse

/-- An element of Markdown without attributes. -/
def OpenElement.markdown (name : String) (line : Nat) : OpenElement :=
  { kind := .tag name, key := none, attributes := [], children := [], isTag := false, line }

def OpenElement.with (e : OpenElement) (name : String) (value : Json.Value) : OpenElement :=
  { e with attributes := e.attributes.insert name value }

/-- A node without children. -/
def leafNode (name : String) (attributes : List (String × Json.Value)) : Node :=
  .element (.tag name) none (Json.Fields.ofList attributes) []

/-- What a tree is built from: the declared names, and a text. Its Markdown starts after `base`
characters. Lines are counted from `firstLine`, which is below one if the text has a prelude.
-/
structure Source where
  names : List String
  text : List Char
  firstLine : Int
  base : Nat := 0

/-- The line of an offset of the Markdown. What stands in a prelude is on the first line. -/
def Source.lineAt (s : Source) (offset : Nat) : Nat :=
  max 1 (s.firstLine + (s.text.take (s.base + offset)).count '\n').toNat

/-- A tree that is being built. -/
structure Builder where
  /-- Open elements, innermost first. -/
  stack : List OpenElement := []
  /-- Finished nodes outside all elements, last first. -/
  root : List Node := []
  inTableHead : Bool := false
  alignments : List Markdown.Alignment := []
  column : Nat := 0
deriving Inhabited

namespace Builder

/-- Puts a node inside the innermost element. -/
def push (b : Builder) (node : Node) : Builder :=
  match b.stack with
  | [] => { b with root := node.addTo b.root }
  | e :: outer => { b with stack := { e with children := node.addTo e.children } :: outer }

def openElement (b : Builder) (e : OpenElement) : Builder :=
  { b with stack := e :: b.stack }

/-- Holds if the innermost element is the tag `name`. -/
def isInside (b : Builder) (name : String) : Bool :=
  match b.stack with
  | [] => false
  | e :: _ => e.kind == .tag name

/-- Closes the innermost element of Markdown, if there is one. -/
def closeMarkdown (b : Builder) : Except CompileError Builder :=
  match b.stack with
  | [] => .ok b
  | e :: outer =>
      if e.isTag then .error (.unclosedTag e.kind.name e.line)
      else .ok ({ b with stack := outer }.push e.node)

/-- Closes an image: its children are replaced by their text. -/
def closeImage (b : Builder) : Except CompileError Builder :=
  match b.stack with
  | [] => .ok b
  | e :: outer =>
      if e.isTag then .error (.unclosedTag e.kind.name e.line)
      else
        let alt := Node.listContent e.children.reverse
        let e := { e with children := [] }.with "alt" (.string alt)
        .ok ({ b with stack := outer }.push e.node)

def heading (level : Nat) (a : Markdown.HeadingAttributes) (line : Nat) : OpenElement :=
  let e := OpenElement.markdown ("h" ++ toString level) line
  let e := match a.id with
    | some id => e.with "id" (.string id)
    | none => e
  let e := if a.classes.isEmpty then e else e.with "className" (.string (" ".intercalate a.classes))
  a.attributes.foldl
    (fun e (name, value) => e.with name ((value.map Json.Value.string).getD (.bool true))) e

/-- The attribute of a cell in a column. -/
def alignmentText? : Option Markdown.Alignment → Option String
  | some .left => some "left"
  | some .center => some "center"
  | some .right => some "right"
  | _ => none

def linkElement (name target : String) (destination title : List Char) (line : Nat)
    : OpenElement :=
  let e := (OpenElement.markdown name line).with target (.string (String.ofList destination))
  if title.isEmpty then e else e.with "title" (.string (String.ofList title))

def emphasisName : Markdown.Emphasis → String
  | .emphasis => "em"
  | .strong => "strong"
  | .strikethrough => "del"
  | .superscript => "sup"
  | .subscript => "sub"

/-- The number of the first item of a list as an attribute. -/
def startNumber (n : Nat) : Json.Value :=
  match Json.Number.ofInt? n with
  | some number => .number number
  | none => .null

/-- Opens the elements of a construct of Markdown. -/
def enter (b : Builder) (construct : Construct) (line : Nat) : Builder :=
  let plain (name : String) : Builder := b.openElement (.markdown name line)
  match construct with
  | .paragraph => plain "p"
  | .heading level attributes => b.openElement (heading level attributes line)
  | .quote => plain "blockquote"
  | .code info =>
      let b := plain "pre"
      let code := OpenElement.markdown "code" line
      match info.bind fun info => (Text.wordsBy Text.isBlank info).head? with
      | some language =>
          b.openElement (code.with "className" (.string ("language-" ++ String.ofList language)))
      | none => b.openElement code
  | .html => b
  | .list none => plain "ul"
  | .list (some 1) => plain "ol"
  | .list (some n) => b.openElement ((OpenElement.markdown "ol" line).with "start" (startNumber n))
  | .item => plain "li"
  | .definitions => plain "dl"
  | .term => plain "dt"
  | .definition => plain "dd"
  | .table alignments => { plain "table" with alignments }
  | .tableHead =>
      let b := { plain "thead" with inTableHead := true, column := 0 }
      b.openElement (.markdown "tr" line)
  | .tableRow =>
      let b := if b.isInside "table" then plain "tbody" else b
      { b with column := 0 }.openElement (.markdown "tr" line)
  | .tableCell =>
      let e := OpenElement.markdown (if b.inTableHead then "th" else "td") line
      match alignmentText? b.alignments[b.column]? with
      | some text => b.openElement (e.with "align" (.string text))
      | none => b.openElement e
  | .emphasis kind => plain (emphasisName kind)
  | .link destination title => b.openElement (linkElement "a" "href" destination title line)
  | .image destination title => b.openElement (linkElement "img" "src" destination title line)

/-- Closes the elements of a construct of Markdown. -/
def leave (b : Builder) (construct : Construct) : Except CompileError Builder :=
  match construct with
  | .html => .ok b
  | .code _ => do (← b.closeMarkdown).closeMarkdown
  | .tableHead => do ({ b with inTableHead := false } : Builder).closeMarkdown >>= closeMarkdown
  | .tableCell => ({ b with column := b.column + 1 } : Builder).closeMarkdown
  | .table _ => do
      let b ← if b.isInside "tbody" then b.closeMarkdown else .ok b
      ({ b with alignments := [] } : Builder).closeMarkdown
  | .image _ _ => b.closeImage
  | _ => b.closeMarkdown

def attributeValue (value : Markup.AttributeValue) : Except AttributeFault Json.Value :=
  match value with
  | .literal text => .ok (.string (String.ofList text))
  | .flag => .ok (.bool true)
  | .expression text => (Json.parse (String.ofList text)).mapError .json

/-- Adds the attributes of a tag to an element. The attribute `key` is its key. -/
def addAttributes (e : OpenElement) (line : Nat)
    : List (List Char × Markup.AttributeValue) → Except CompileError OpenElement
  | [] => .ok e
  | (name, value) :: rest =>
      let name := String.ofList name
      match attributeValue value with
      | .error fault => .error (.invalidAttribute name fault line)
      | .ok value =>
          if name == "key" then
            match value with
            | .string key => addAttributes { e with key := some key } line rest
            | .number n => addAttributes { e with key := some (String.ofList n.text) } line rest
            | _ => .error (.invalidAttribute name .keyKind line)
          else addAttributes (e.with name value) line rest

/-- The element that a tag opens. Names in lower case are tags; all others must be declared. -/
def tagElement (names : List String) (name : String)
    (attributes : List (List Char × Markup.AttributeValue)) (line : Nat)
    : Except CompileError OpenElement :=
  let element (kind : Kind) : OpenElement :=
    { kind, key := none, attributes := [], children := [], isTag := true, line }
  if name.toList.head?.any Char.isLower then addAttributes (element (.tag name)) line attributes
  else if names.contains name then addAttributes (element (.component name)) line attributes
  else .error (.unknownComponent name line)

/-- Closes the element of a tag. The closing tag of an element without children says nothing. -/
def closeTag (b : Builder) (name : String) (line : Nat) : Except CompileError Builder :=
  let stray : Except CompileError Builder :=
    if Html.voidTags.contains name then .ok b else .error (.unexpectedClosingTag name line)
  match b.stack with
  | [] => stray
  | e :: outer =>
      if !e.isTag then stray
      else if e.kind.name == name then .ok ({ b with stack := outer }.push e.node)
      else .error (.mismatchedTag e.kind.name name line)

def token (names : List String) (b : Builder) (t : Markup.Token) (line : Nat)
    : Except CompileError Builder :=
  match t with
  | .text text => .ok (b.push (.text (String.ofList text)))
  | .closing name => b.closeTag (String.ofList name) line
  | .opening name attributes selfClosing => do
      let name := String.ofList name
      let e ← tagElement names name attributes line
      if selfClosing || Html.voidTags.contains name then return b.push e.node
      else return b.openElement e

def markup (source : Source) (offset : Nat)
    : Builder → List Markup.Placed → Except CompileError Builder
  | b, [] => .ok b
  | b, t :: rest => do
      markup source offset (← token source.names b t.token (source.lineAt (offset + t.offset))) rest

def taskBox (ticked : Bool) : Node :=
  leafNode "input"
    [("type", .string "checkbox"), ("checked", .bool ticked), ("disabled", .bool true)]

def event (source : Source) (b : Builder) (e : Placed) : Except CompileError Builder :=
  match e.event with
  | .enter construct => .ok (b.enter construct (source.lineAt e.offset))
  | .leave construct => b.leave construct
  | .text text => .ok (b.push (.text (String.ofList text)))
  | .code text => .ok (b.push (.element (.tag "code") none [] [.text (String.ofList text)]))
  | .html text => markup source e.offset b (Markup.tokens text)
  | .softBreak => .ok (b.push (.text "\n"))
  | .hardBreak => .ok (b.push (leafNode "br" []))
  | .rule => .ok (b.push (leafNode "hr" []))
  | .task ticked => .ok (b.push (taskBox ticked))

def run (source : Source) : Builder → List Placed → Except CompileError Builder
  | b, [] => .ok b
  | b, e :: rest => do run source (← event source b e) rest

/-- The tree, when all elements are closed. -/
def finish (b : Builder) : Except CompileError (List Node) :=
  match b.stack with
  | [] => .ok b.root.reverse
  | e :: _ => .error (.unclosedTag e.kind.name e.line)

def build (source : Source) (events : List Placed) : Except CompileError (List Node) := do
  (← run source {} events).finish

end Builder

/-- The syntax tree of a text, and the names that it imports. Its first `prelude` lines stand before
the body.
-/
def parse (prelude : Nat) (text : List Char) : Except CompileError (List String × List Node) := do
  let (names, base) ← readImports prelude [] 0 0 (Text.linesWithEnds text)
  let source : Source := { names, text, firstLine := 1 - prelude, base }
  return (names, ← Builder.build source (Markdown.events (joinTags (text.drop base))))

end Folio.Document
