import Folio.Markdown.Html
import Folio.Markdown.Outline

/-! Spans of text: what the items of a text mean. Brackets, code, raw markup and autolinks are found
from left to right; what then is left of the runs of delimiters is paired to emphasis.
-/

namespace Folio.Markdown

/-- What a pair of delimiter runs makes of the text between them. -/
inductive Emphasis where
  | emphasis
  | strong
  | strikethrough
  | superscript
  | subscript
deriving DecidableEq, Inhabited

/-- A span of text. -/
inductive Span where
  | text (text : List Char)
  | code (text : List Char)
  | html (start : Nat) (text : List Char)
  | softBreak
  | hardBreak
  | emphasis (kind : Emphasis) (children : List Span)
  | link (destination title : List Char) (children : List Span)
  | image (destination title : List Char) (children : List Span)
deriving Inhabited

/-- A piece of text whose delimiters are not paired yet. -/
inductive Piece where
  | item (item : Item)
  | span (span : Span)
deriving Inhabited

/-- A run of delimiters that waits for its end: `before` is what stands before it, last first. -/
structure OpenRun where
  char : Char
  count : Nat
  runLength : Nat
  both : Bool
  before : List Span
deriving Inhabited

namespace OpenRun

/-- Holds if a run can end this one. Runs that can both open and close pair only if their lengths
do not add to a multiple of three, unless both are such multiples; tildes and carets pair only with
runs of the same length.
-/
def matches_ (r : OpenRun) (char : Char) (runLength : Nat) (both : Bool) : Bool :=
  if (char == '~' || char == '^') && runLength != r.runLength then false
  else
    r.char == char
      && ((!both && !r.both) || (runLength + r.runLength) % 3 != 0 || runLength % 3 == 0)

/-- The delimiters of the run as plain text. -/
def plain (r : OpenRun) : Span :=
  .text (List.replicate r.count r.char)

end OpenRun

/-- Puts `count` delimiters on both sides around spans: pairs of them inside, a single one outside.
-/
def wrap (char : Char) : (count : Nat) → List Span → List Span
  | 0, spans => spans
  | 1, spans =>
      let kind :=
        if char == '~' then Emphasis.subscript
        else if char == '^' then .superscript
        else .emphasis
      [.emphasis kind spans]
  | count + 2, spans =>
      let kind :=
        if char == '~' then Emphasis.strikethrough
        else if char == '^' then .superscript
        else .strong
      wrap char count [.emphasis kind spans]

/-- Gives up the innermost open run: its delimiters are plain text. -/
def dropRun (r : OpenRun) (after : List Span) : List Span :=
  after ++ r.plain :: r.before

/-- Finds the innermost open run that a run can end; those inside it are given up. -/
def findRun (char : Char) (runLength : Nat) (both : Bool)
    : List OpenRun → (after : List Span) → Option (OpenRun × List OpenRun × List Span)
  | [], _ => none
  | r :: stack, after =>
      if r.matches_ char runLength both then some (r, stack, after)
      else findRun char runLength both stack (dropRun r after)

/-- Ends open runs with the `count` delimiters of a run, as long as there are some that match. -/
def closeRuns (char : Char) (runLength : Nat) (both : Bool)
    : (count : Nat) → (room : Nat) → List OpenRun → List Span → Nat × List OpenRun × List Span
  | count, 0, stack, after => (count, stack, after)
  | 0, _, stack, after => (0, stack, after)
  | count + 1, room + 1, stack, after =>
      match findRun char runLength both stack after with
      | none => (count + 1, stack, after)
      | some (r, stack, inside) =>
          let used := min (count + 1) r.count
          let wrapped := wrap char used inside.reverse
          if used < r.count then
            closeRuns char runLength both (count + 1 - used) room
              ({ r with count := r.count - used } :: stack) wrapped
          else closeRuns char runLength both (count + 1 - used) room stack (wrapped ++ r.before)

/-- Pairs the runs of delimiters. `skip` pieces belong to the run before them. -/
def pair (stack : List OpenRun) (after : List Span) : (skip : Nat) → List Piece → List Span
  | _, [] => (stack.foldl (fun after r => dropRun r after) after).reverse
  | skip + 1, _ :: rest => pair stack after skip rest
  | 0, .span s :: rest => pair stack (s :: after) 0 rest
  | 0, .item item :: rest =>
      match item.mark with
      | .delimiter char runLength opens closes =>
          let both := opens && closes
          let (count, stack, after) :=
            if closes then closeRuns char runLength both runLength (runLength + 1) stack after
            else (runLength, stack, after)
          if count == 0 then pair stack after (runLength - 1) rest
          else if opens then
            pair ({ char, count, runLength, both, before := after } :: stack) [] (runLength - 1)
              rest
          else pair stack (.text (List.replicate count char) :: after) (runLength - 1) rest
      | .softBreak => pair stack (.softBreak :: after) 0 rest
      | .hardBreak _ => pair stack (.hardBreak :: after) 0 rest
      | _ => pair stack (.text item.chars :: after) 0 rest

/-- Holds for the characters of runs of delimiters. -/
def Piece.isDelimiter : Piece → Bool
  | .item { mark := .delimiter .., .. } => true
  | _ => false

/-- The spans of pieces. A backslash before the line end that ends them is plain text where runs of
delimiters were paired.
-/
def spansOf (pieces : List Piece) : List Span :=
  let pieces :=
    match pieces.getLast? with
    | some (.item { mark := .hardBreak true, .. }) =>
        if pieces.any Piece.isDelimiter then pieces.dropLast ++ [.span (.text ['\\'])] else pieces
    | _ => pieces
  pair [] [] 0 pieces

/-- An opening bracket that waits for its end: `before` is what stands before it, last first. -/
structure Bracket where
  item : Item
  image : Bool
  active : Bool
  before : List Piece
deriving Inhabited

/-- The items from an offset on; the first one is cut if it starts before. -/
def itemsFrom (offset : Nat) : List Item → List Item
  | [] => []
  | item :: rest =>
      if item.stop ≤ offset then itemsFrom offset rest
      else { item with start := item.start.moveTo (max item.start.offset offset) } :: rest

/-- The first run of `count` backquotes among items: where it starts, and the items after it. -/
def findBackquotes? (count : Nat) : List Item → Option (Nat × List Item)
  | [] => none
  | item :: rest =>
      match item.mark with
      | .backquotes n _ =>
          if n == count then some (item.start.offset, rest) else findBackquotes? count rest
      | _ => findBackquotes? count rest

/-- What resolving a text needs to know: its link definitions, what stands before its lines, whether
it is in a table, and where it ends.
-/
structure SpanContext where
  definition? : List Char → Option LinkDefinition
  prose : Prose

namespace SpanContext

/-- The text from a place to the end of the whole text. -/
def textFrom (ctx : SpanContext) (c : Cursor) : List Char :=
  c.textTo ctx.prose.stop

/-- The length of what the containers put before a line. -/
def hidden (ctx : SpanContext) (line : List Char) : Nat :=
  prefixLength ctx.prose.containers line

/-- Code with each line end made a blank; in a table, a pipe needs a backslash. -/
def codeText (ctx : SpanContext) : (room : Nat) → List Char → List Char
  | 0, _ => []
  | room + 1, s =>
      match s with
      | [] => []
      | '\r' :: '\n' :: rest => ' ' :: codeText ctx room (rest.drop (ctx.hidden rest))
      | '\\' :: '|' :: rest =>
          if ctx.prose.inTable then '|' :: codeText ctx room rest
          else '\\' :: codeText ctx room ('|' :: rest)
      | c :: rest =>
          if c == '\n' || c == '\r' then ' ' :: codeText ctx room (rest.drop (ctx.hidden rest))
          else c :: codeText ctx room rest

/-- The code between two runs of backquotes. One blank is taken off at each end, if there is one at
both ends and something else between.
-/
def codeSpan (ctx : SpanContext) (s : List Char) : Span :=
  let text := ctx.codeText (s.length + 1) s
  if text.all (· == ' ') then .code text
  else
    match text with
    | ' ' :: rest => if rest.getLast? == some ' ' then .code rest.dropLast else .code text
    | _ => .code text

/-- The blanks between the parts of a link, of which one may be a line end. -/
def separator (ctx : SpanContext) (s : List Char) : Nat :=
  let n := inlineBlanks s
  match lineEnd? (s.drop n) with
  | none => n
  | some m =>
      let n := n + m
      let n := n + ctx.hidden (s.drop n)
      n + inlineBlanks (s.drop n)

/-- The rest of a title through the delimiter `close`, and its length. A line end skips what stands
before the next item.
-/
def title (ctx : SpanContext) (open_ close : Char) (items : List Item)
    : (room : Nat) → Cursor → Option (List Char × Cursor)
  | 0, _ => none
  | room + 1, c =>
      let goOn (text : List Char) (c : Cursor) : Option (List Char × Cursor) :=
        (title ctx open_ close items room c).map fun (more, c) => (text ++ more, c)
      match ctx.textFrom c with
      | [] => none
      | x :: rest =>
          if x == close then some ([], c.advance 1)
          else if x == open_ then none
          else if x == '\n' || x == '\r' then
            match items.dropWhile fun item => item.stop ≤ c.offset + 1 with
            | item :: _ =>
                if item.start.offset > c.offset then goOn ['\n'] (c.moveTo item.start.offset)
                else goOn [x] (c.advance 1)
            | [] => goOn [x] (c.advance 1)
          else if x == '&' then
            match referenceAfterAmp? rest with
            | some (n, value) => goOn value (c.advance (n + 1))
            | none => goOn [x] (c.advance 1)
          else if x == '\\' then
            match rest with
            | '\\' :: '|' :: _ =>
                if ctx.prose.inTable then goOn ['|'] (c.advance 3) else goOn ['\\'] (c.advance 2)
            | e :: _ =>
                if Text.isAsciiPunctuation e then goOn [e] (c.advance 2) else goOn [x] (c.advance 1)
            | [] => none
          else goOn [x] (c.advance 1)

/-- The destination and the title in parentheses after a closing bracket, and the offset after
them. `items` are those after the bracket.
-/
def inlineLink? (ctx : SpanContext) (c : Cursor) (items : List Item)
    : Option (Nat × List Char × List Char) :=
  match ctx.textFrom c with
  | '(' :: s =>
      let c := c.advance 1
      let before := ctx.separator s
      match Link.destination? (s.drop before) with
      | none => none
      | some (written, length) =>
          let destination := unescape ctx.prose.inTable written
          let c := c.advance (before + length)
          let c := c.advance (ctx.separator (ctx.textFrom c))
          let (text, c) : List Char × Cursor :=
            match ctx.textFrom c with
            | x :: rest =>
                if x == '\'' || x == '"' || x == '(' then
                  let close := if x == '(' then ')' else x
                  match ctx.title x close items (rest.length + 1) (c.advance 1) with
                  | some (text, after) => (text, after.advance (ctx.separator (ctx.textFrom after)))
                  | none => ([], c)
                else ([], c)
            | [] => ([], c)
          match ctx.textFrom c with
          | ')' :: _ => some (c.offset + 1, destination, text)
          | _ => none
  | _ => none

/-- The label at a bracket: its text and the offset after it. -/
def label? (ctx : SpanContext) (c : Cursor) (stop : Nat) : Option (List Char × Nat) :=
  match c.textTo stop with
  | '[' :: s =>
      (Link.label? (fun line => some (ctx.hidden line)) s).map fun (text, n) =>
        (text, c.offset + 1 + n)
  | _ => none

/-- Which reference a closing bracket ends: its label, and the items after it. -/
structure Reference where
  label : List Char
  after : List Item

/-- The reference that ends at a closing bracket or at the label after it. Along with it come the
items after the bracket, among which a label that was tried is not tried again.
-/
def reference? (ctx : SpanContext) (bracket close : Item) (referable : Bool) (items : List Item)
    : Option Reference × List Item :=
  let own (after : List Item) : Option Reference :=
    if !referable then none
    else
      let start := bracket.start.moveTo (bracket.stop - 1)
      match ctx.label? start close.stop with
      | some (label, stop) => if stop == close.stop then some { label, after } else none
      | none => none
  match items with
  | [] => (own [], [])
  | next :: rest =>
      match ctx.textFrom next.start with
      | '[' :: ']' :: _ => (own (rest.drop 1), items)
      | _ =>
          match ctx.label? next.start ctx.prose.stop with
          | none => (own items, items)
          | some (label, stop) =>
              let before := items.takeWhile fun item => item.stop ≤ stop - 1
              match items.drop before.length with
              | [] => (none, items)
              | closing :: after =>
                  (some { label, after },
                    before ++ { closing with mark := .linkClose false } :: after)

/-- What the items of a text mean before delimiters are paired. `out` holds the pieces since the
innermost open bracket, last first.
-/
def resolve (ctx : SpanContext) (stack : List Bracket) (out : List Piece)
    : (room : Nat) → List Item → List Piece
  | 0, _ => []
  | _, [] =>
      (stack.foldl (fun out b => out ++ .item { b.item with mark := .text } :: b.before)
        out).reverse
  | room + 1, item :: rest =>
      match item.mark with
      | .angle =>
          let plain (rest : List Item) : List Piece :=
            resolve ctx stack (.item { item with mark := .text } :: out) room rest
          match rest with
          | [] => plain rest
          | next :: _ =>
              let s := ctx.textFrom next.start
              let address? := (Link.address? s).orElse fun _ => Link.mailAddress? s
              match address? with
              | some address =>
                  let link := Span.link address [] [.text address]
                  resolve ctx stack (.span link :: out) room
                    (itemsFrom (next.start.offset + address.length + 1) rest)
              | none =>
                  match Html.inline? ctx.hidden s with
                  | some piece =>
                      let html := Span.html item.start.offset ('<' :: piece.text)
                      resolve ctx stack (.span html :: out) room
                        (itemsFrom (next.start.offset + piece.length) rest)
                  | none => plain rest
      | .backquotes n escaped =>
          let count := if escaped then n - 1 else n
          let found? := if count == 0 then none else findBackquotes? count rest
          match found? with
          | none => resolve ctx stack (.item { item with mark := .text } :: out) room rest
          | some (stop, after) =>
              let inside := (item.start.moveTo item.stop).textTo stop
              let out := if escaped then .span (.text ['`']) :: out else out
              resolve ctx stack (.span (ctx.codeSpan inside) :: out) room after
      | .linkOpen =>
          resolve ctx ({ item, image := false, active := true, before := out } :: stack) [] room
            rest
      | .imageOpen =>
          resolve ctx ({ item, image := true, active := true, before := out } :: stack) [] room rest
      | .linkClose referable =>
          match stack with
          | [] => resolve ctx [] (.item { item with mark := .text } :: out) room rest
          | bracket :: stack =>
              let plain (rest : List Item) : List Piece :=
                resolve ctx stack
                  (.item { item with mark := .text }
                    :: (out ++ .item { bracket.item with mark := .text } :: bracket.before))
                  room rest
              let linked (destination title : List Char) (rest : List Item) : List Piece :=
                let children := spansOf out.reverse
                let span :=
                  if bracket.image then Span.image destination title children
                  else .link destination title children
                let stack :=
                  if bracket.image then stack
                  else stack.map fun b => if b.image then b else { b with active := false }
                resolve ctx stack (.span span :: bracket.before) room rest
              if !bracket.active then plain rest
              else
                match ctx.inlineLink? (item.start.moveTo item.stop) rest with
                | some (stop, destination, title) => linked destination title (itemsFrom stop rest)
                | none =>
                    match ctx.reference? bracket.item item referable rest with
                    | (none, rest) => plain rest
                    | (some reference, rest) =>
                        match ctx.definition? (Link.labelKey reference.label) with
                        | some d => linked d.destination d.title reference.after
                        | none => plain rest
      | _ => resolve ctx stack (.item item :: out) room rest

end SpanContext

def Prose.spans (definition? : List Char → Option LinkDefinition) (text : Prose) : List Span :=
  let ctx : SpanContext := { definition?, prose := text }
  spansOf (ctx.resolve [] [] (text.items.length + 1) text.items)

end Folio.Markdown
