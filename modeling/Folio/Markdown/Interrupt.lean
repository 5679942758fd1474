import Folio.Markdown.Block
import Folio.Markdown.Html

/-! What ends a paragraph: the lines that start another block although no blank line stands before
them, the underlines of headings, and the delimiter rows of tables.
-/

namespace Folio.Markdown

/-- The level of a heading that starts with hash signs. -/
def hashLevel? (s : List Char) : Option Nat :=
  let level := runLength '#' s
  let ends := match s.drop level with
    | [] => true
    | c :: _ => Text.isAsciiBlank c
  if 1 ≤ level && level ≤ 6 && ends then some level else none

/-- The length of an underline with its line end, and the level of the heading above it. -/
def underline? (s : List Char) : Option (Nat × Nat) :=
  match s with
  | [] => none
  | c :: _ =>
      if c == '=' || c == '-' then
        let n := runLength c s
        (blankLine? (s.drop n)).map fun m => (n + m, if c == '=' then 1 else 2)
      else none

/-- The length and the character of the fence of a code block. -/
def fence? (s : List Char) : Option (Nat × Char) :=
  match s with
  | [] => none
  | c :: _ =>
      if c == '`' || c == '~' then
        let n := runLength c s
        if n < 3 then none
        else if c == '`' && ((s.drop n).take (lineLength (s.drop n))).contains '`' then none
        else some (n, c)
      else none

/-- The length of the closing fence of a code block, if the text starts with one. -/
def closingFence? (c : Char) (count : Nat) (s : List Char) : Option Nat :=
  if s.isEmpty then some 0
  else
    let n := runLength c s
    if n < count then none
    else
      let blanks := ((s.drop n).takeWhile fun x => x == ' ' || x == '\t').length
      (lineEnd? (s.drop (n + blanks))).map fun _ => n + blanks

/-- A list item at the start of a text: how many characters its marker takes, whether it is ordered,
and its number.
-/
def itemMarker? (s : List Char) : Option (Nat × Bool × Nat) :=
  let marker? : Option (Nat × Bool × Nat) :=
    match s with
    | [] => none
    | c :: _ =>
        if c == '-' || c == '+' || c == '*' then some (1, false, 0)
        else
          let digits := (s.take 9).takeWhile Char.isDigit
          if digits.isEmpty then none
          else
            match s.drop digits.length with
            | d :: _ =>
                if d == '.' || d == ')' then
                  some (digits.length + 1, true,
                    digits.foldl (fun v x => v * 10 + (x.toNat - 48)) 0)
                else none
            | [] => none
  match marker? with
  | none => none
  | some (width, ordered, number) =>
      let after := s.drop width
      let blanks := (after.takeWhile fun c => c == ' ' || c == '\t').length
      if blanks == 0 && (lineEnd? after).isNone then none
      else if (blankLine? after).isSome then some (width, ordered, number)
      else
        let columns := ((LineStart.ofCursor (.ofText after)).blanksUpTo 5).1
        some (width + (if columns > 4 then 1 else blanks), ordered, number)

/-- Holds if two blank lines start here. -/
def startsEmpty (s : List Char) : Bool :=
  match blankLine? s with
  | none => false
  | some n => (blankLine? (s.drop n)).isSome

/-- How the columns of a table are aligned, from its delimiter row: the length of the row with its
line end, and the alignments; no alignments if it is no such row.
-/
structure DelimiterRow where
  length : Nat
  alignments : List Alignment
deriving Inhabited

/-- What is known of a delimiter row while it is read. -/
structure DelimiterState where
  done : List Alignment := []
  column : Alignment := .none
  startOfColumn : Bool := true
  pipe : Bool := false
  hyphen : Bool := false
  hyphenInColumn : Bool := false

/-- Reads a delimiter row; none if two pipes follow each other. -/
def delimiterCells (st : DelimiterState) (length : Nat) (s : List Char) : Option DelimiterRow :=
  let finish (length : Nat) : Option DelimiterRow :=
    let columns := if st.startOfColumn then st.done.reverse else (st.column :: st.done).reverse
    some { length, alignments := if st.pipe && st.hyphen then columns else [] }
  match s with
  | [] => finish length
  | '\n' :: _ => finish (length + 1)
  | '\r' :: '\n' :: _ => finish (length + 2)
  | '\r' :: _ => finish (length + 1)
  | ' ' :: rest => delimiterCells st (length + 1) rest
  | ':' :: rest =>
      let column :=
        match st.startOfColumn, st.column with
        | true, .none => .left
        | false, .left => .center
        | false, .none => .right
        | _, column => column
      delimiterCells { st with column, startOfColumn := false } (length + 1) rest
  | '-' :: rest =>
      delimiterCells { st with startOfColumn := false, hyphen := true, hyphenInColumn := true }
        (length + 1) rest
  | '|' :: rest =>
      if !st.hyphenInColumn then none
      else
        delimiterCells
          { st with
            done := st.column :: st.done, column := .none, startOfColumn := true, pipe := true,
            hyphenInColumn := false }
          (length + 1) rest
  | _ => some { length, alignments := [] }

/-- The delimiter row at the start of a line. -/
def delimiterRow? (s : List Char) : Option DelimiterRow :=
  let blanks := (s.takeWhile fun c => c == ' ' || c == '\t').length
  let columns := ((LineStart.ofCursor (.ofText s)).blanksUpTo 4).1
  let body := s.drop blanks
  if columns > 3 || body.isEmpty then none
  else
    match body with
    | '|' :: rest => delimiterCells { pipe := true } (blanks + 1) rest
    | body => delimiterCells {} blanks body

/-- How many columns a header row has, from the pipes in it: `afterLast` is the text after the last
one.
-/
def headerColumns (row : List Char) (pipes : Nat) (afterLast : List Char) : Nat :=
  let pipes := if (row.drop (inlineBlanks row)).head? == some '|' then pipes - 1 else pipes
  if (blankLine? afterLast).isSome then pipes else pipes + 1

/-- The pipes of a line that are not escaped, the text after the last one, and the text after the
line, if the line has an end.
-/
def countPipes (escaped : Bool) (pipes : Nat) (afterLast : List Char)
    : List Char → Nat × List Char × Option (List Char)
  | [] => (pipes, afterLast, none)
  | c :: rest =>
      if c == '\\' then countPipes true pipes afterLast rest
      else if c == '|' && !escaped then countPipes false (pipes + 1) rest rest
      else if c == '\n' then (pipes, afterLast, some rest)
      else if c == '\r' then
        (pipes, afterLast, some (if rest.head? == some '\n' then rest.drop 1 else rest))
      else countPipes false pipes afterLast rest

/-- Holds if a table starts here whose header row begins with a pipe. -/
def startsTable (containers : List Container) (s : List Char) : Bool :=
  if s.head? != some '|' then false
  else
    match countPipes false 0 s s with
    | (_, _, none) => false
    | (pipes, afterLast, some next) =>
        let (lacking, line) := takePrefixes containers (.ofCursor (.ofText next))
        if lacking != 0 then false
        else
          match delimiterRow? line.cursor.rest with
          | none => false
          | some row =>
              row.length > 0 && row.alignments.length == headerColumns s pipes afterLast

/-- Where the line stands that may end a paragraph. -/
structure LinePlace where
  /-- All containers go on in the line. -/
  current : Bool
  /-- The line follows a line of a paragraph. -/
  inParagraph : Bool := false
  inTable : Bool := false

def Container.isDefinition : Container → Bool
  | definition _ => true
  | _ => false

/-- Holds if a text starts a block that may stand right after the line of a paragraph, tables
aside. A colon does so in a paragraph, and where a line leaves a definition.
-/
def startsOtherBlock (containers : List Container) (place : LinePlace) (s : List Char) : Bool :=
  (lineEnd? s).isSome
    || (thematicBreak? s).isSome
    || (hashLevel? s).isSome
    || (fence? s).isSome
    || s.head? == some '>'
    || (match itemMarker? s with
        | none => false
        | some (n, ordered, number) =>
            !place.current || place.inTable
              || ((!ordered || number == 1) && !startsEmpty (s.drop n)))
    || (match s with
        | '<' :: rest => (Html.blockEnd? rest).isSome || Html.startsNamedBlock rest
        | _ => false)
    || (s.head? == some ':'
        && (if place.current then place.inParagraph else containers.any Container.isDefinition))

/-- Holds if a text starts a block that may stand right after the line of a paragraph. -/
def interrupts (containers : List Container) (place : LinePlace) (s : List Char) : Bool :=
  startsOtherBlock containers place s || startsTable containers s

end Folio.Markdown
