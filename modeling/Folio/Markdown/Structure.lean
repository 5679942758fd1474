import Folio.Markdown.Definition
import Folio.Markdown.Leaf
import Folio.Markdown.Outline

/-! The block structure of a document. Lines are read one after the other: first the containers that
go on in a line, then the markers of new ones, then the block that the rest of the line starts.
-/

namespace Folio.Markdown

/-- What the markers at the start of a line leave: content to read, or nothing. -/
inductive Opened where
  | content (outline : Outline) (line : LineStart)
  | done (outline : Outline) (next : Cursor)

/-- Opens a list item and reads the box of a task in it. The box begins the next paragraph; only if
nothing follows it in the line does it stand in the item itself.
-/
def openItem (o : Outline) (marker : Char) (number indent : Nat) (line : LineStart)
    : Outline × LineStart × Option Cursor :=
  let o := (o.continueList marker number).openFrame (.item indent) []
  match blankLine? line.cursor.rest with
  | some n => ({ o with emptyItem := true }, line, some (line.cursor.advance n))
  | none =>
      match line.taskMarker? with
      | none => (o, line, none)
      | some (ticked, line) =>
          match blankLine? line.cursor.rest with
          | some n =>
              ({ o.append (.task ticked) with emptyItem := true }, line,
                some (line.cursor.advance n))
          | none => ({ o with task := some ticked }, line, none)

/-- Opens an alert, whose tag takes a line of its own. The next line may go on lazily, as if the tag
were part of a paragraph.
-/
def openAlert (o : Outline) (next : Cursor) : Opened :=
  let (lacking, line) := takePrefixes o.containers (.ofCursor next)
  let (deep, line) := line.blanks 4
  if !deep && interrupts o.containers { current := lacking == 0 } line.cursor.rest then .done o next
  else .content o line.allBlanks

/-- Opens the containers whose markers stand at a place. `room` bounds how many there may be. -/
def openContainers (o : Outline) (line : LineStart) : (room : Nat) → Opened
  | 0 => .content o line
  | room + 1 =>
      let (outer, inner) := line.blanksUpTo 4
      if outer ≥ 4 then .content o line
      else
        match inner.listMarker? outer with
        | some (marker, number, indent, after) =>
            match openItem o marker number indent after with
            | (o, _, some next) => .done o next
            | (o, after, none) => openContainers o after room
        | none =>
            let definition? : Option (Outline × LineStart) := do
              let (indent, after) ← inner.definitionMarker? outer
              let o ← o.startDefinition? indent
              return (o, after)
            match definition? with
            | some (o, after) =>
                match blankLine? after.cursor.rest with
                | some n => .done { o with emptyItem := true } (after.cursor.advance n)
                | none => openContainers o after room
            | none =>
                match inner.quoteMarker? with
                | some after =>
                    let o := o.finishList.openFrame .quote []
                    match after.alertTag? with
                    | some tagged => openAlert o tagged.cursor
                    | none => openContainers o after room
                | none => .content o line

/-- A backslash before a line end after which the paragraph does not go on is plain text. -/
def trailingBackslash (lineBreak : Option Item) : List Item :=
  match lineBreak with
  | some { start, mark := .hardBreak true, .. } =>
      [{ start, stop := start.offset + 1, mark := .text }]
  | _ => []

/-- How the lines of a paragraph ended. -/
inductive ParagraphEnd where
  /-- Another block or a blank line follows. -/
  | plain (items : List Item) (next : Cursor)
  /-- The last line is the underline of a heading; `tail` is the backslash before it. -/
  | underlined (level : Nat) (items tail : List Item) (next : Cursor)

/-- Shortens items, given last first, to what stands before an offset. A backslash that escaped the
first character after it is plain text then.
-/
def cutItems (stop : Nat) (items : List Item) : List Item :=
  match items with
  | [] => []
  | item :: before =>
      if item.stop ≤ stop then item :: before
      else if item.start.offset < stop then { item with stop } :: before
      else if item.start.offset == stop && item.start.previous? == some '\\' then
        { start := item.start.back 1, stop, mark := .text } :: before
      else cutItems stop before

/-- Reads the lines of a paragraph after its first one: `items` are those of the lines before, last
first, and `lineBreak` ends the last of them.
-/
def paragraphLines (containers : List Container)
    : (room : Nat) → (items : List Item) → (lineBreak : Option Item) → Cursor → ParagraphEnd
  | 0, items, _, next => .plain items next
  | room + 1, items, lineBreak, next =>
      let (lacking, line) := takePrefixes containers (.ofCursor next)
      let current := lacking == 0
      let (deep, line) := line.blanks 4
      let rest := line.cursor.rest
      match if !deep && current then underline? rest else none with
      | some (n, level) =>
          .underlined level items (trailingBackslash lineBreak) (line.cursor.advance n)
      | none =>
          let line := line.allBlanks
          if (!deep && interrupts containers { current, inParagraph := true } rest)
              || line.atEnd then
            .plain (trailingBackslash lineBreak ++ items) next
          else
            let scanned := Line.scan .plain none line.cursor
            paragraphLines containers room (scanned.items ++ lineBreak.toList ++ items)
              scanned.lineBreak scanned.next

def underlinedHeading (task : Option Bool) (containers : List Container) (level : Nat)
    (start : Cursor) (items tail : List Item) (next : Cursor) : Block :=
  let prose (items : List Item) : Prose :=
    { task, items := (tail ++ items).reverse, stop := next.offset, containers, inTable := false }
  match items with
  | [] => .heading level {} start.offset (prose [])
  | last :: _ =>
      let text := start.textTo last.stop
      let (length, attributes) := splitAttributes text
      let length :=
        if !tail.isEmpty then length
        else (Text.dropEndWhile Text.isInlineBlank (text.take length)).length
      let stop := start.offset + length
      match attributes with
      | some a => .heading level a start.offset (prose (cutLast stop (cutItems stop items)))
      | none => .heading level {} start.offset (prose (cutLast stop items))

/-- The table whose header row is the first line of a paragraph. -/
def tableAfter? (containers : List Container) (start : Cursor) (line : Line)
    : Option (List Alignment × Cursor) :=
  if line.pipes == 0 then none
  else
    match line.lineBreak with
    | none => none
    | some { mark := .hardBreak true, .. } => none
    | some _ =>
        let (lacking, below) := takePrefixes containers (.ofCursor line.next)
        if lacking != 0 then none
        else
          match delimiterRow? below.cursor.rest with
          | none => none
          | some row =>
              let afterLast := (start.moveTo (line.lastPipe + 1)).rest
              if row.length > 0
                  && row.alignments.length == headerColumns start.rest line.pipes afterLast then
                some (row.alignments, below.cursor.advance row.length)
              else none

/-- Reads a paragraph, or the heading or table that it turns out to be. Right after a definition, a
paragraph may be the term of the next one.
-/
def paragraph (o : Outline) (start : Cursor) : Outline × Cursor :=
  let mayBeTerm :=
    match o.innermost? with
    | some (.definitions _) =>
        match o.last? with
        | none => true
        | some (.definition _) => true
        | some _ => false
    | _ => false
  let o := if mayBeTerm then { o with lastBlank := false } else o.finishList
  let task := o.task
  let o := { o with task := none }
  let containers := o.containers
  let line := Line.scan .counted none start
  match tableAfter? containers start line with
  | some (alignments, body) =>
      let (block, next) := table containers alignments start body
      (o.append block, next)
  | none =>
      let ended :=
        paragraphLines containers (start.rest.length + 1) line.items line.lineBreak line.next
      match ended with
      | .underlined level items tail next =>
          (o.append (underlinedHeading task containers level start items tail next), next)
      | .plain items next =>
          let text : Prose :=
            { task, items := items.reverse, stop := next.offset, containers, inTable := false }
          (o.append (if mayBeTerm then .term false text else .paragraph false text), next)

/-- Reads the link definitions at a place. What is left is content at a place, or a line that starts
another block.
-/
def definitions (o : Outline) (c : Cursor) : (room : Nat) → Outline × Cursor × Bool
  | 0 => (o, c, true)
  | room + 1 =>
      match Definition.scan? o.containers c.rest with
      | none => (o, c, true)
      | some (n, label, destination, title) =>
          let definition : LinkDefinition := { key := Link.labelKey label, destination, title }
          let o := { o with definitions := definition :: o.definitions }
          let next := c.advance n
          let next := next.advance ((blankLine? next.rest).getD 0)
          let (lacking, line) := takePrefixes o.containers (.ofCursor next)
          let (deep, line) := line.blanks 4
          if !deep && interrupts o.containers { current := lacking == 0 } line.cursor.rest then
            (o.finishList, next, false)
          else definitions o line.allBlanks.cursor room

/-- Reads the block that content at the start of a line begins. -/
def leaf (o : Outline) (line : LineStart) : Outline × Cursor :=
  let spare := line.spare
  let (indent, line) := line.blanksUpTo 4
  let c := line.cursor
  if indent ≥ 4 then
    let o := o.finishList
    let (block, next, blank) := indentedCode o.containers line.spare c
    ({ o.append block with lastBlank := blank }, next)
  else
    let html? : Option (Option (List Char)) :=
      match c.rest with
      | '<' :: rest =>
          match Html.blockEnd? rest with
          | some close => some (some close)
          | none =>
              if Html.startsNamedBlock rest || Html.startsTagLine rest then some none else none
      | _ => none
    match html? with
    | some close =>
        let o := o.finishList
        let (block, next) := htmlBlock o.containers close (max spare indent) c
        (o.append block, next)
    | none =>
        match thematicBreak? c.rest with
        | some n => (o.finishList.append .rule, c.advance n)
        | none =>
            match hashLevel? c.rest with
            | some level =>
                let o := o.finishList
                let (block, next) := hashHeading o.containers level c
                (o.append block, next)
            | none =>
                match fence? c.rest with
                | some (count, fence) =>
                    let o := o.finishList
                    let (block, next) := fencedCode o.containers indent fence count c
                    (o.append block, next)
                | none =>
                    match definitions o c (c.rest.length + 1) with
                    | (o, next, false) => (o, next)
                    | (o, start, true) => paragraph o start

/-- Reads the block at the start of a line, and gives the place after it. -/
def readBlock (o : Outline) (start : Cursor) : Outline × Cursor :=
  let (lacking, line) := takePrefixes o.containers (.ofCursor start)
  let o := o.closeMany lacking
  match openContainers o line (start.rest.length + 1) with
  | .done o next => (o, next)
  | .content o line =>
      match blankLine? line.cursor.rest with
      | some n => (o.noteBlankLine, line.cursor.advance n)
      | none => leaf o line

/-- Reads blocks to the end of the text. -/
def readBlocks (o : Outline) (c : Cursor) : (room : Nat) → Outline
  | 0 => o
  | room + 1 =>
      if c.rest.isEmpty then o
      else
        let (o, next) := readBlock o c
        readBlocks o next room

/-- The blocks of a document, and its link definitions: of several with one key the first counts. -/
def structureOf (text : List Char) : List Block × List LinkDefinition :=
  let o := readBlocks {} (.ofText text) (text.length + 1)
  (o.blocks, o.definitions.reverse)

end Folio.Markdown
