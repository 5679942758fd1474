import Folio.Markdown.Attributes
import Folio.Markdown.Interrupt

/-! The blocks that hold lines and no other blocks: code, HTML, headings on one line and tables.
Each reader takes lines from a place on and gives the block and the place after it.
-/

namespace Folio.Markdown

/-- A line without the carriage return before its last character. -/
def dropReturn (line : List Char) : List Char :=
  match line.reverse with
  | last :: '\r' :: before => (last :: before).reverse
  | _ => line

/-- The line of code at a place that `spare` columns of a tab precede. -/
def codeLine (spare : Nat) (c : Cursor) : List Char :=
  List.replicate spare ' ' ++ dropReturn (c.rest.take (lineLength c.rest))

/-- The place after the line at a place. -/
def afterLine (c : Cursor) : Cursor :=
  c.advance (lineLength c.rest)

/-- The lines of a fenced code block through its closing fence, and the place after it. `room` is at
least the length of the text.
-/
def fencedLines (containers : List Container) (indent : Nat) (fence : Char) (count : Nat)
    : (room : Nat) → Cursor → List (List Char) × Cursor
  | 0, c => ([], c)
  | room + 1, c =>
      let (lacking, line) := takePrefixes containers (.ofCursor c)
      if lacking != 0 then ([], c)
      else
        let line := (line.blanks indent).2
        let (deep, closing) := line.blanks (4 - indent)
        let closed? := if deep then none else closingFence? fence count closing.cursor.rest
        match closed? with
        | some n =>
            let c := closing.cursor.advance n
            ([], c.advance ((blankLine? c.rest).getD 0))
        | none =>
            let (lines, next) :=
              fencedLines containers indent fence count room (afterLine line.cursor)
            (codeLine line.spare line.cursor :: lines, next)

/-- A fenced code block whose fence stands at a place. -/
def fencedCode (containers : List Container) (indent : Nat) (fence : Char) (count : Nat)
    (c : Cursor)
    : Block × Cursor :=
  let info := c.advance count
  let info := info.advance (inlineBlanks info.rest)
  let text := Text.dropEndWhile Text.isAsciiBlank (info.rest.take (lineLength info.rest))
  let next := afterLine info
  let (lines, next) := fencedLines containers indent fence count (next.rest.length + 1) next
  (.code (some (unescape false text)) lines, next)

/-- The lines of an indented code block, each with a note whether it is blank, and the place after
them.
-/
def indentedLines (containers : List Container)
    : (room : Nat) → (spare : Nat) → Cursor → List (Bool × List Char) × Cursor
  | 0, _, c => ([], c)
  | room + 1, spare, c =>
      let entry := ((blankLine? c.rest).isSome, codeLine spare c)
      let next := afterLine c
      let (lacking, line) := takePrefixes containers (.ofCursor next)
      let (deep, line) := line.blanks 4
      if lacking != 0 || !(deep || line.atEnd) || line.cursor.rest.isEmpty then ([entry], next)
      else
        let (lines, next) := indentedLines containers room line.spare line.cursor
        (entry :: lines, next)

/-- The lines through the last one that is not blank. -/
def dropBlankLines (lines : List (Bool × List Char)) : List (List Char) :=
  ((lines.reverse.dropWhile (·.1)).reverse).map (·.2)

/-- An indented code block, the place after it, and whether its last line was blank. -/
def indentedCode (containers : List Container) (spare : Nat) (c : Cursor) : Block × Cursor × Bool :=
  match indentedLines containers (c.rest.length + 1) spare c with
  | ([], next) => (.code none [], next, false)
  | ((_, first) :: lines, next) =>
      (.code none (dropBlankLines ((false, first) :: lines)), next,
        (lines.getLast?.map (·.1)).getD false)

/-- The pieces of a line of HTML: the indentation that was taken off, and the line. -/
def htmlPieces (indent : Nat) (c : Cursor) : List HtmlPiece :=
  let line := c.rest.take (lineLength c.rest)
  let pieces :=
    match line.reverse with
    | last :: '\r' :: before =>
        [.line c.offset before.reverse, .line (c.offset + line.length - 1) [last]]
    | _ => [.line c.offset line]
  if indent > 0 then .indentation indent :: pieces else pieces

/-- The lines of an HTML block that ends at a line with `close`, or at a blank line if there is no
such text.
-/
def htmlLines (containers : List Container) (close : Option (List Char))
    : (room : Nat) → (indent : Nat) → Cursor → List HtmlPiece × Cursor
  | 0, _, c => ([], c)
  | room + 1, indent, c =>
      let pieces := htmlPieces indent c
      let next := afterLine c
      let (lacking, line) := takePrefixes containers (.ofCursor next)
      let closed :=
        match close with
        | some text => (Html.lengthThrough? text (c.rest.take (lineLength c.rest))).isSome
        | none => (blankLine? line.cursor.rest).isSome
      if lacking != 0 || closed || line.cursor.rest.isEmpty then (pieces, next)
      else
        let (more, next) := htmlLines containers close room line.spare line.cursor
        (pieces ++ more, next)

def htmlBlock (containers : List Container) (close : Option (List Char)) (indent : Nat) (c : Cursor)
    : Block × Cursor :=
  let (pieces, next) := htmlLines containers close (c.rest.length + 1) indent c
  (.html pieces, next)

/-- Shortens the last of some items, given last first, to an offset. -/
def cutLast (stop : Nat) : List Item → List Item
  | [] => []
  | item :: before => { item with stop } :: before

/-- How much of the text of a heading on one line is left when its closing hash signs are taken
off.
-/
def withoutClosingHashes (text : List Char) : Nat :=
  let limit := (Text.dropEndWhile (fun c => c == '\n' || c == '\r' || c == ' ') text).length
  let body := text.take limit
  let beforeHashes := Text.dropEndWhile (· == '#') body
  if beforeHashes.isEmpty then 0
  else
    let trimmed := Text.dropEndWhile (· == ' ') beforeHashes
    if trimmed.length < beforeHashes.length then trimmed.length else limit

/-- A heading on one line whose hash signs stand at a place. -/
def hashHeading (containers : List Container) (level : Nat) (c : Cursor) : Block × Cursor :=
  let start := c.offset
  let c := c.advance level
  match lineEnd? c.rest with
  | some n =>
      (.heading level {} start { items := [], stop := c.offset + n, containers, inTable := false },
        c.advance n)
  | none =>
      let c := c.advance (inlineBlanks c.rest)
      let text := c.rest.take (lineLength c.rest)
      let next := afterLine c
      let (length, attributes) := splitAttributes text
      let line := Line.scan .plain (some (c.offset + length)) c
      let items := cutLast (c.offset + withoutClosingHashes (text.take length)) line.items
      (.heading level (attributes.getD {}) start
        { items := items.reverse, stop := next.offset, containers, inTable := false }, next)

def rowCells (containers : List Container) : (room : Nat) → Cursor → List Prose × Cursor
  | 0, c => ([], c)
  | room + 1, c =>
      let c := if c.peek? == some '|' then c.advance 1 else c
      let c := c.advance (inlineBlanks c.rest)
      match lineEnd? c.rest with
      | some n => ([], c.advance n)
      | none =>
          let line := Line.scan .border none c
          let cell : Prose :=
            { items := line.items.reverse, stop := line.next.offset, containers, inTable := true }
          let (cells, next) := rowCells containers room line.next
          (cell :: cells, next)

/-- A row of `columns` cells: missing ones are empty, and what is too many is dropped. -/
def tableRow (containers : List Container) (columns : Nat) (c : Cursor)
    : List Prose × Nat × Cursor :=
  let (cells, next) := rowCells containers (c.rest.length + 1) c
  let empty : Prose := { items := [], stop := next.offset, containers, inTable := true }
  ((cells ++ List.replicate (columns - cells.length) empty).take columns, cells.length, next)

def tableRows (containers : List Container) (columns : Nat)
    : (room : Nat) → Cursor → List (List Prose) × Cursor
  | 0, c => ([], c)
  | room + 1, c =>
      let (lacking, line) := takePrefixes containers (.ofCursor c)
      let line := line.allBlanks
      if lacking != 0
          || startsOtherBlock containers { current := true, inTable := true } line.cursor.rest then
        ([], c)
      else
        let (cells, count, next) := tableRow containers columns line.cursor
        if count == 0 then ([], c)
        else
          let (rows, next) := tableRows containers columns room next
          (cells :: rows, next)

/-- The table whose header row stands at one place and whose other rows start at another. -/
def table (containers : List Container) (alignments : List Alignment) (head body : Cursor)
    : Block × Cursor :=
  let (cells, _, _) := tableRow containers alignments.length head
  let (rows, next) := tableRows containers alignments.length (body.rest.length + 1) body
  (.table alignments cells rows, next)

end Folio.Markdown
