import Folio.Markdown.Span
import Folio.Markdown.Structure

/-! Documents as events: the start and the end of each construct, and the text, code, markup and
breaks between them, each with its offset in the document. Starts and ends are balanced.
-/

namespace Folio.Markdown

/-- A construct with a start and an end. -/
inductive Construct where
  | paragraph
  | heading (level : Nat) (attributes : HeadingAttributes)
  | quote
  | code (info : Option (List Char))
  | html
  | list (start : Option Nat)
  | item
  | definitions
  | term
  | definition
  | table (alignments : List Alignment)
  | tableHead
  | tableRow
  | tableCell
  | emphasis (kind : Emphasis)
  | link (destination title : List Char)
  | image (destination title : List Char)
deriving DecidableEq, Inhabited

/-- An event of a document. -/
inductive Event where
  | enter (construct : Construct)
  | leave (construct : Construct)
  | text (text : List Char)
  | code (text : List Char)
  | html (text : List Char)
  | softBreak
  | hardBreak
  | rule
  | task (ticked : Bool)
deriving DecidableEq, Inhabited

/-- An event with its offset in the document. Only the offsets of markup are exact; other events
have the offset of the block around them.
-/
structure Placed where
  event : Event
  offset : Nat
deriving DecidableEq, Inhabited

/-- The events between the start and the end of a construct. -/
def enclose (construct : Construct) (offset : Nat) (inside : List Placed) : List Placed :=
  { event := .enter construct, offset } :: inside ++ [{ event := .leave construct, offset }]

mutual

def Span.events (offset : Nat) : Span → List Placed
  | .text s => [{ event := .text s, offset }]
  | .code s => [{ event := .code s, offset }]
  | .html start s => [{ event := .html s, offset := start }]
  | .softBreak => [{ event := .softBreak, offset }]
  | .hardBreak => [{ event := .hardBreak, offset }]
  | .emphasis kind children => enclose (.emphasis kind) offset (Span.listEvents offset children)
  | .link destination title children =>
      enclose (.link destination title) offset (Span.listEvents offset children)
  | .image destination title children =>
      enclose (.image destination title) offset (Span.listEvents offset children)

def Span.listEvents (offset : Nat) : List Span → List Placed
  | [] => []
  | span :: rest => span.events offset ++ Span.listEvents offset rest

end

/-- The events of a text; the box of a task comes first. -/
def Prose.events (definition? : List Char → Option LinkDefinition) (text : Prose) : List Placed :=
  let offset := match text.items with
    | [] => text.stop
    | item :: _ => item.start.offset
  let box : List Placed := text.task.toList.map fun ticked => { event := .task ticked, offset := 0 }
  box ++ Span.listEvents offset (text.spans definition?)

/-- The events of a piece of an HTML block: indentation is text. -/
def HtmlPiece.placed : HtmlPiece → Placed
  | .indentation columns => { event := .text (List.replicate columns ' '), offset := 0 }
  | .line start text => { event := .html text, offset := start }

def rowEvents (definition? : List Char → Option LinkDefinition) (construct : Construct)
    (cells : List Prose) : List Placed :=
  enclose construct 0 (cells.flatMap fun cell => enclose .tableCell 0 (cell.events definition?))

mutual

def Block.events (definition? : List Char → Option LinkDefinition) : Block → List Placed
  | .paragraph true text => text.events definition?
  | .paragraph false text => enclose .paragraph 0 (text.events definition?)
  | .heading level attributes start text =>
      enclose (.heading level attributes) start (text.events definition?)
  | .rule => [{ event := .rule, offset := 0 }]
  | .code info pieces =>
      enclose (.code info) 0
        (pieces.map fun text => { event := .text text, offset := 0 })
  | .html pieces => enclose .html 0 (pieces.map HtmlPiece.placed)
  | .quote children => enclose .quote 0 (Block.listEvents definition? children)
  | .list start items => enclose (.list start) 0 (Block.listEvents definition? items)
  | .item children => enclose .item 0 (Block.listEvents definition? children)
  | .task ticked => [{ event := .task ticked, offset := 0 }]
  | .table alignments head rows =>
      enclose (.table alignments) 0
        (rowEvents definition? .tableHead head ++ rows.flatMap (rowEvents definition? .tableRow))
  | .definitions children => enclose .definitions 0 (Block.listEvents definition? children)
  | .term _ text => enclose .term 0 (text.events definition?)
  | .definition children => enclose .definition 0 (Block.listEvents definition? children)

def Block.listEvents (definition? : List Char → Option LinkDefinition) : List Block → List Placed
  | [] => []
  | block :: rest => block.events definition? ++ Block.listEvents definition? rest

end

def events (text : List Char) : List Placed :=
  let (blocks, definitions) := structureOf text
  Block.listEvents (fun key => definitions.find? fun d => d.key == key) blocks

end Folio.Markdown
