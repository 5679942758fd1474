import Folio.Markdown.Reference
import Folio.Markdown.Cursor

/-! The items of a line of text: runs of plain text between the characters that may turn out to be
markup. What becomes of an item is decided later, when the whole text is known.
-/

namespace Folio.Markdown

/-- What an item may be. -/
inductive Mark where
  /-- Plain text, as it stands in the document. -/
  | text
  /-- Plain text that something else stands for. -/
  | given (text : List Char)
  /-- A run of backquotes; `escaped` tells that the first one stands after a backslash. -/
  | backquotes (count : Nat) (escaped : Bool)
  | angle
  | linkOpen
  | imageOpen
  /-- A closing bracket; `referable` tells that it may end a reference by its own text. -/
  | linkClose (referable : Bool)
  /-- A character of a run of delimiters; `count` is how many of the run are left from it on. -/
  | delimiter (char : Char) (count : Nat) (opens closes : Bool)
  | softBreak
  | hardBreak (backslash : Bool)
deriving DecidableEq, Inhabited

/-- An item with its extent. -/
structure Item where
  start : Cursor
  stop : Nat
  mark : Mark
deriving Inhabited

def Item.chars (item : Item) : List Char :=
  match item.mark with
  | .given text => text
  | _ => item.start.textTo item.stop

/-- How pipes are read: as the borders of cells, counted, or not at all. -/
inductive PipeMode where
  | border
  | counted
  | plain
deriving DecidableEq

/-- Holds if the place stands after the border of a cell. -/
def afterBorder (before : List Char) : Bool :=
  match before with
  | '|' :: '\\' :: _ => false
  | '|' :: _ => true
  | _ => false

/-- Holds if a run of `count` delimiters at the place can open a span: what follows is not blank,
and the run does not stand inside a word unless its kind may.
-/
def canOpen (c : Cursor) (delimiter : Char) (count : Nat) (mode : PipeMode) : Bool :=
  match c.rest.drop count, c.before with
  | [], _ => false
  | next :: _, [] => !Text.isBlank next
  | next :: _, previous :: _ =>
      if Text.isBlank next then false
      else if mode == .border && afterBorder c.before then true
      else if mode == .border && next == '|' then false
      else if delimiter == '*' && !Text.isPunctuation next then true
      else if delimiter == '~' && count > 1 then true
      else if delimiter == '~' && previous == '~' && !Text.isPunctuation next then true
      else Text.isBlank previous || Text.isPunctuation previous

/-- Holds if a run of `count` delimiters at the place can close a span. -/
def canClose (c : Cursor) (delimiter : Char) (count : Nat) (mode : PipeMode) : Bool :=
  match c.before, c.rest.drop count with
  | [], _ => false
  | previous :: _, [] => !Text.isBlank previous
  | previous :: _, next :: _ =>
      if Text.isBlank previous then false
      else if mode == .border && afterBorder c.before then false
      else if mode == .border && next == '|' then true
      else if (delimiter == '*' || (delimiter == '~' && count > 1))
          && !Text.isPunctuation previous then
        true
      else if delimiter == '~' && previous == '~' then true
      else Text.isBlank next || Text.isPunctuation next

/-- The items of a line, last first, and what ends the line: the place after it, a break if a line
end was read, and the pipes that were counted.
-/
structure Line where
  items : List Item
  next : Cursor
  lineBreak : Option Item
  pipes : Nat
  lastPipe : Nat
deriving Inhabited

namespace Line

/-- What is known while a line is read: the items, last first, and where the plain text after them
starts.
-/
structure Partial where
  items : List Item
  textStart : Cursor
  pipes : Nat
  lastPipe : Nat

/-- The items with the plain text up to an offset. -/
def Partial.flush (p : Partial) (stop : Nat) : List Item :=
  if p.textStart.offset < stop then { start := p.textStart, stop, mark := .text } :: p.items
  else p.items

/-- Puts an item of `length` characters after the plain text before it. -/
def Partial.push (p : Partial) (c : Cursor) (length : Nat) (mark : Mark) : Partial :=
  { p with
    items := { start := c, stop := c.offset + length, mark } :: p.flush c.offset,
    textStart := c.advance length }

/-- Puts the items of a run of delimiters, one for each character. -/
def Partial.pushRun (p : Partial) (c : Cursor) (delimiter : Char) (opens closes : Bool)
    : Nat → Partial
  | 0 => p
  | count + 1 =>
      pushRun (p.push c 1 (.delimiter delimiter (count + 1) opens closes)) (c.advance 1) delimiter
        opens closes count

/-- The line when its text ends at a place without a line end; trailing blanks are dropped. -/
def Partial.finish (p : Partial) (c : Cursor) : Line :=
  let trailing := c.countBack p.textStart.offset Text.isInlineBlank
  { items := p.flush (c.offset - trailing), next := c, lineBreak := none, pipes := p.pipes,
    lastPipe := p.lastPipe }

/-- The line when its text ends at a line end of `length` characters. Two or more blanks before it
make a hard break, and so does a backslash, unless nothing follows.
-/
def Partial.finishAtLineEnd (p : Partial) (c : Cursor) (length : Nat) (last : Bool) : Line :=
  let next := c.advance length
  let backslashes := c.countBack 0 (· == '\\')
  let blanks := c.countBack 0 Text.isInlineBlank
  let (stop, mark) :=
    if backslashes % 2 == 1 && !last then (c.offset - 1, Mark.hardBreak true)
    else if blanks ≥ 2 then (c.offset - blanks, Mark.hardBreak false)
    else (c.offset - blanks, Mark.softBreak)
  { items := p.flush stop,
    next,
    lineBreak := some { start := c.back (c.offset - stop), stop := next.offset, mark },
    pipes := p.pipes,
    lastPipe := p.lastPipe }

/-- What the character at a place does to the reading of a line. -/
inductive Step where
  | finish (line : Line)
  /-- The character and `more` others after it are read. -/
  | next (p : Partial) (more : Nat)

/-- Reads what begins with the character `x` at the place `c`; `rest` is what follows it up to the
limit.
-/
def step (mode : PipeMode) (p : Partial) (c : Cursor) (x : Char) (rest : List Char) : Step :=
  match x with
  | '\n' | '\r' =>
      if mode == .border then .finish (p.finish c)
      else
        let length := if x == '\r' && rest.head? == some '\n' then 2 else 1
        .finish (p.finishAtLineEnd c length (rest.drop (length - 1)).isEmpty)
  | '\\' =>
      match rest with
      | e :: more =>
          if !Text.isAsciiPunctuation e then .next p 0
          else
            let before := p.flush c.offset
            if e == '`' then
              let count := runLength '`' rest
              let item : Item :=
                { start := c.advance 1, stop := c.offset + 1 + count,
                  mark := .backquotes count true }
              .next { p with items := item :: before, textStart := c.advance (count + 1) } count
            else if mode == .border && e == '\\' && more.head? == some '|' then
              .next { p with items := before, textStart := c.advance 2 } 2
            else .next { p with items := before, textStart := c.advance 1 } 1
      | [] => .next p 0
  | '*' | '_' | '~' | '^' =>
      let count := runLength x rest
      let opens := canOpen c x (count + 1) mode
      let closes := canClose c x (count + 1) mode
      if (opens || closes) && (x != '~' || count + 1 ≤ 2) then
        .next (p.pushRun c x opens closes (count + 1)) count
      else .next p count
  | '`' =>
      let count := runLength '`' rest
      .next (p.push c (count + 1) (.backquotes (count + 1) false)) count
  | '<' => if rest.head? == some '\\' then .next p 0 else .next (p.push c 1 .angle) 0
  | '!' => if rest.head? == some '[' then .next (p.push c 2 .imageOpen) 1 else .next p 0
  | '[' => .next (p.push c 1 .linkOpen) 0
  | ']' => .next (p.push c 1 (.linkClose true)) 0
  | '&' =>
      match referenceAfterAmp? rest with
      | some (n, text) => .next (p.push c (n + 1) (.given text)) n
      | none => .next p 0
  | '|' =>
      if mode == .border then .finish (p.finish c)
      else .next { p with pipes := p.pipes + 1, lastPipe := c.offset } 0
  | _ => .next p 0

/-- Reads a line from the place `c` on, up to the offset `limit`. -/
def scanFrom (mode : PipeMode) (limit : Option Nat) (p : Partial) (c : Cursor) : Line :=
  match _h : c.rest with
  | [] => p.finish c
  | x :: rest =>
      if limit.any (· ≤ c.offset) then p.finish c
      else
        let rest := match limit with
          | none => rest
          | some stop => rest.take (stop - c.offset - 1)
        match step mode p c x rest with
        | .finish line => line
        | .next p more => scanFrom mode limit p (c.advance (more + 1))
termination_by c.rest.length
decreasing_by exact Cursor.length_rest_advance_lt ‹_› more

def scan (mode : PipeMode) (limit : Option Nat) (c : Cursor) : Line :=
  scanFrom mode limit { items := [], textStart := c, pipes := 0, lastPipe := c.offset } c

end Line

end Folio.Markdown
