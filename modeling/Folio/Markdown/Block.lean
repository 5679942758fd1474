import Folio.Markdown.Item
import Folio.Markdown.LineStart

/-! The blocks of a document, and the containers that are open at a line. Text inside a block is
kept as items; what they mean depends on link definitions, which may stand anywhere in the document.
-/

namespace Folio.Markdown

/-- How a column of a table is aligned. -/
inductive Alignment where
  | none
  | left
  | center
  | right
deriving DecidableEq, Inhabited

/-- What an attribute block after a heading says. -/
structure HeadingAttributes where
  id : Option String := none
  classes : List String := []
  attributes : List (String × Option String) := []
deriving DecidableEq, Inhabited

/-- A container that is open. An item or a definition goes on as long as lines are indented by
`indent` columns.
-/
inductive Container where
  | quote
  | list (tight : Bool) (marker : Char) (start : Nat)
  | item (indent : Nat)
  | definitions (tight : Bool)
  | definition (indent : Nat)
deriving DecidableEq, Inhabited

/-- Text with markup: the box of a task before it, its items, the offset where it ends, and the
containers whose prefixes stand before its lines, outermost first.
-/
structure Prose where
  task : Option Bool := none
  items : List Item
  stop : Nat
  containers : List Container
  inTable : Bool
deriving Inhabited

/-- A part of an HTML block: indentation that was taken off, or a line. -/
inductive HtmlPiece where
  | indentation (columns : Nat)
  | line (start : Nat) (text : List Char)
deriving Inhabited

/-- A block of a document. -/
inductive Block where
  | paragraph (tight : Bool) (text : Prose)
  | heading (level : Nat) (attributes : HeadingAttributes) (start : Nat) (text : Prose)
  | rule
  | code (info : Option (List Char)) (pieces : List (List Char))
  | html (pieces : List HtmlPiece)
  | quote (children : List Block)
  | list (start : Option Nat) (items : List Block)
  | item (children : List Block)
  | task (ticked : Bool)
  | table (alignments : List Alignment) (head : List Prose) (rows : List (List Prose))
  | definitions (children : List Block)
  | term (settled : Bool) (text : Prose)
  | definition (children : List Block)
deriving Inhabited

/-- Takes the prefixes of containers, outermost first, from a line, and counts the containers that
do not go on. A blank line continues items and definitions.
-/
def takePrefixes : List Container → LineStart → Nat × LineStart
  | [], l => (0, l)
  | .quote :: inner, l =>
      match (l.blanks 3).2.quoteMarker? with
      | some l => takePrefixes inner l
      | none => (inner.length + 1, l)
  | .item indent :: inner, l =>
      let (full, after) := l.blanks indent
      if full || after.atEnd then takePrefixes inner after else (inner.length + 1, l)
  | .definition indent :: inner, l =>
      let (full, after) := l.blanks indent
      if full || after.atEnd then takePrefixes inner after else (inner.length + 1, l)
  | _ :: inner, l => takePrefixes inner l

/-- The length of the prefixes of containers at the start of a line. -/
def prefixLength (containers : List Container) (line : List Char) : Nat :=
  (takePrefixes containers (.ofCursor (.ofText line))).2.cursor.offset

end Folio.Markdown
