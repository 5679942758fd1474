import Folio.Text.Digits
import Folio.Yaml.Token

/-! Reading scalars: plain ones, those in quotes, and blocks of lines. Line ends inside of a scalar
are folded: a single one becomes a space, and of several all but the first stay.
-/

namespace Folio.Yaml

/-- Blanks and line ends between the words of a scalar. -/
structure Gap where
  /-- Blanks before the first line end. -/
  blanks : List Char := []
  /-- The first line end. -/
  first : Option (List Char) := none
  /-- The line ends after it. -/
  more : List Char := []
deriving Inhabited

def Gap.text (g : Gap) : List Char :=
  match g.first with
  | none => g.blanks
  | some ['\n'] => if g.more.isEmpty then [' '] else g.more
  | some first => first ++ g.more

/-- Holds if a gap has a line end. -/
def Gap.hasBreak (g : Gap) : Bool :=
  g.first.isSome

/-- Adds a line end to a gap. -/
def Gap.addBreak (g : Gap) (text : List Char) : Gap :=
  match g.first with
  | none => { g with blanks := [], first := some text }
  | some _ => { g with more := g.more ++ text }

/-- Reads the blanks and line ends at a place. With `indent`, a tab before that column is refused
on later lines.
-/
def scanGap (indent : Option Nat) (began : Mark) (g : Gap) (c : Cursor)
    : (room : Nat) → Except SyntaxError (Gap × Cursor)
  | 0 => .ok (g, c)
  | room + 1 =>
      match c.rest with
      | [] => .ok (g, c)
      | x :: _ =>
          if isBlank x then
            if g.hasBreak && x == '\t' && indent.any fun n => c.mark.column < n then
              .error (.during .plainScalar began .tabBeforePlain c.mark)
            else
              scanGap indent began
                (if g.hasBreak then g else { g with blanks := g.blanks ++ [x] }) c.next room
          else if isBreak x then
            let (text, after) := c.lineBreak
            scanGap indent began (g.addBreak text) after room
          else .ok (g, c)

/-! Quoted scalars. -/

/-- What a letter after a backslash stands for: a character, or a number of hexadecimal digits. -/
def escapeMeaning? : Char → Option (Char ⊕ Nat)
  | '0' => some (.inl '\x00')
  | 'a' => some (.inl '\x07')
  | 'b' => some (.inl '\x08')
  | 't' | '\t' => some (.inl '\t')
  | 'n' => some (.inl '\n')
  | 'v' => some (.inl '\x0b')
  | 'f' => some (.inl '\x0c')
  | 'r' => some (.inl '\r')
  | 'e' => some (.inl '\x1b')
  | ' ' => some (.inl ' ')
  | '"' => some (.inl '"')
  | '/' => some (.inl '/')
  | '\\' => some (.inl '\\')
  | 'N' => some (.inl '\u0085')
  | '_' => some (.inl '\u00a0')
  | 'L' => some (.inl '\u2028')
  | 'P' => some (.inl '\u2029')
  | 'x' => some (.inr 2)
  | 'u' => some (.inr 4)
  | 'U' => some (.inr 8)
  | _ => none

def scanEscape (began : Mark) (c : Cursor) : Except SyntaxError (Char × Cursor) :=
  let fail (what : Problem) (place : Mark) : Except SyntaxError (Char × Cursor) :=
    .error (.during .quotedEscape began what place)
  match c.next.rest.head?.bind escapeMeaning? with
  | none => fail .unknownEscape c.mark
  | some (.inl x) => .ok (x, c.skip 2)
  | some (.inr n) =>
      let digits := c.skip 2
      match Text.hexNumber? n digits.rest with
      | none => fail .noHexDigit digits.mark
      | some value =>
          if (0xd800 ≤ value && value ≤ 0xdfff) || 0x10ffff < value then
            fail .noSuchCharacter digits.mark
          else .ok (Char.ofNat value, digits.skip n)

/-- Reads the characters of a quoted scalar up to the next blank, line end or quote. The last part
of the result tells whether an escaped line end stopped it.
-/
def scanQuotedWord (single : Bool) (began : Mark) (text : List Char) (c : Cursor)
    : (room : Nat) → Except SyntaxError (List Char × Cursor × Bool)
  | 0 => .ok (text, c, false)
  | room + 1 =>
      match c.rest with
      | [] => .ok (text, c, false)
      | x :: rest =>
          if isBlank x || isBreak x then .ok (text, c, false)
          else if single && x == '\'' && rest.head? == some '\'' then
            scanQuotedWord single began ('\'' :: text) (c.skip 2) room
          else if x == (if single then '\'' else '"') then .ok (text, c, false)
          else if !single && x == '\\' then
            if rest.head?.any isBreak then .ok (text, c.next.lineBreak.2, true)
            else
              match scanEscape began c with
              | .error e => .error e
              | .ok (y, c) => scanQuotedWord single began (y :: text) c room
          else scanQuotedWord single began (x :: text) c.next room

/-- Reads a quoted scalar after its opening quote; `text` is what was read, last first. -/
def scanQuotedFrom (single : Bool) (began : Mark) (text : List Char) (c : Cursor)
    : (room : Nat) → Except SyntaxError (List Char × Cursor)
  | 0 => .error (.during .quotedScalar began .endInQuotes c.mark)
  | room + 1 => do
      if c.mark.column == 0
          && (atDocumentIndicator '-' c.rest || atDocumentIndicator '.' c.rest) then
        throw (.during .quotedScalar began .documentIndicatorInQuotes c.mark)
      if c.rest.isEmpty then throw (.during .quotedScalar began .endInQuotes c.mark)
      let (text, c, folded) ← scanQuotedWord single began text c c.rest.length
      if c.sees (if single then '\'' else '"') then return (text.reverse, c.next)
      let gap : Gap := if folded then { first := some [] } else {}
      let (gap, c) ← scanGap none began gap c c.rest.length
      scanQuotedFrom single began (gap.text.reverse ++ text) c room

def scanQuoted (single : Bool) (c : Cursor) : Except SyntaxError (PlacedToken × Cursor) := do
  let (text, after) ← scanQuotedFrom single c.mark [] c.next (c.rest.length + 1)
  let style := if single then Style.singleQuoted else Style.doubleQuoted
  let token : Token := .scalar (String.ofList text) style
  return ({ token, start := c.mark, stop := after.mark }, after)

/-! Plain scalars. -/

/-- Holds for the brackets, braces and the comma, which have a meaning inside of flow
collections.
-/
def isFlowIndicator (c : Char) : Bool :=
  c == ',' || c == '[' || c == ']' || c == '\x7b' || c == '\x7d'

/-- Reads the characters of a plain scalar up to the next blank, line end or indicator. -/
def scanPlainWord (inFlow : Bool) (began : Mark) (text : List Char) (c : Cursor)
    : (room : Nat) → Except SyntaxError (List Char × Cursor)
  | 0 => .ok (text, c)
  | room + 1 =>
      match c.rest with
      | [] => .ok (text, c)
      | x :: rest =>
          if isBlank x || isBreak x then .ok (text, c)
          else if inFlow && x == ':' && rest.head?.any fun y => isFlowIndicator y || y == '?' then
            .error (.during .plainScalar began .colonInFlow c.mark)
          else if (x == ':' && atBlank rest) || (inFlow && isFlowIndicator x) then .ok (text, c)
          else scanPlainWord inFlow began (x :: text) c.next room

/-- Reads a plain scalar. `text` is what was read, last first, `gap` what stands after it, and
`stop` where it ended. The result also tells whether a line end follows the scalar.
-/
def scanPlainFrom (inFlow : Bool) (indent : Nat) (began : Mark) (text : List Char) (gap : Gap)
    (stop : Mark) (c : Cursor)
    : (room : Nat) → Except SyntaxError (List Char × Mark × Bool × Cursor)
  | 0 => .ok (text.reverse, stop, gap.hasBreak, c)
  | room + 1 =>
      if c.mark.column == 0
          && (atDocumentIndicator '-' c.rest || atDocumentIndicator '.' c.rest) then
        .ok (text.reverse, stop, gap.hasBreak, c)
      else if c.sees '#' then .ok (text.reverse, stop, gap.hasBreak, c)
      else do
        let (word, after) ← scanPlainWord inFlow began [] c c.rest.length
        if word.isEmpty then return (text.reverse, stop, gap.hasBreak, c)
        let text := word ++ gap.text.reverse ++ text
        if !after.seesAny fun x => isBlank x || isBreak x then
          return (text.reverse, after.mark, false, after)
        let (gap, c) ← scanGap (some indent) began {} after after.rest.length
        if !inFlow && c.mark.column < indent then
          return (text.reverse, after.mark, gap.hasBreak, c)
        scanPlainFrom inFlow indent began text gap after.mark c room

/-- Reads a plain scalar whose later lines are indented by `indent` columns, and tells whether a
line end follows it.
-/
def scanPlain (inFlow : Bool) (indent : Nat) (c : Cursor)
    : Except SyntaxError (PlacedToken × Bool × Cursor) := do
  let (text, stop, hasBreak, after) ←
    scanPlainFrom inFlow indent c.mark [] {} c.mark c (c.rest.length + 1)
  return ({ token := .scalar (String.ofList text) .plain, start := c.mark, stop }, hasBreak, after)

/-! Block scalars. -/

/-- What happens to the line ends at the end of a block scalar. -/
inductive Chomping where
  | strip
  | clip
  | keep
deriving DecidableEq, Inhabited

/-- Reads the indicators of a block scalar: chomping and indentation, in any order. -/
def scanBlockHeader (began : Mark) (c : Cursor)
    : Except SyntaxError (Chomping × Option Nat × Cursor) :=
  let chomping? (c : Cursor) : Option Chomping :=
    if c.sees '+' then some .keep else if c.sees '-' then some .strip else none
  let digit (c : Cursor) : Except SyntaxError (Option Nat × Cursor) :=
    match c.rest with
    | '0' :: _ => .error (.during .blockScalar began .zeroIndentation c.mark)
    | x :: _ => if x.isDigit then .ok (some (x.toNat - 48), c.next) else .ok (none, c)
    | [] => .ok (none, c)
  match chomping? c with
  | some chomping => (digit c.next).map fun (n, c) => (chomping, n, c)
  | none => do
      let (n, c) ← digit c
      match n, chomping? c with
      | some n, some chomping => return (chomping, some n, c.next)
      | n, _ => return (.clip, n, c)

/-- Reads the blank lines of a block scalar and the indentation of the line after them. Without a
known indentation, the deepest one that is seen is noted.
-/
def scanBlockBreaks (began : Mark) (indent : Option Nat) (deepest : Nat) (breaks : List Char)
    (stop : Mark) (c : Cursor)
    : (room : Nat) → Except SyntaxError (Nat × List Char × Mark × Cursor)
  | 0 => .ok (deepest, breaks, stop, c)
  | room + 1 =>
      let spaces := (c.rest.takeWhile (· == ' ')).length
      let c := c.skip (match indent with
        | none => spaces
        | some n => min spaces (n - c.mark.column))
      let deepest := max deepest c.mark.column
      if c.sees '\t' && indent.all fun n => c.mark.column < n then
        .error (.during .blockScalar began .tabInIndentation c.mark)
      else if !c.seesAny isBreak then .ok (deepest, breaks, stop, c)
      else
        let (text, after) := c.lineBreak
        scanBlockBreaks began indent deepest (breaks ++ text) after.mark after room

/-- Reads the lines of a block scalar that are indented by `indent` columns. `leading` is the line
end before the current line, `trailing` the blank lines after that, and `wasBlank` tells whether the
line before started with a blank.
-/
def scanBlockLines (began : Mark) (folded : Bool) (indent : Nat) (text leading trailing : List Char)
    (wasBlank : Bool) (stop : Mark) (c : Cursor)
    : (room : Nat) → Except SyntaxError (List Char × List Char × List Char × Mark × Cursor)
  | 0 => .ok (text, leading, trailing, stop, c)
  | room + 1 => do
      if c.mark.column != indent || c.rest.isEmpty then return (text, leading, trailing, stop, c)
      let startsBlank := c.seesAny isBlank
      let between :=
        if folded && leading == ['\n'] && !wasBlank && !startsBlank then
          if trailing.isEmpty then [' '] else trailing
        else leading ++ trailing
      let line := c.rest.takeWhile fun x => !isBreak x
      let (leading, c) := (c.skip line.length).lineBreak
      let (_, trailing, stop, c) ←
        scanBlockBreaks began (some indent) 0 [] c.mark c (c.rest.length + 1)
      scanBlockLines began folded indent (text ++ between ++ line) leading trailing startsBlank stop
        c room

/-- Reads a block scalar inside a block that is indented by `outer` columns, if by any. -/
def scanBlock (folded : Bool) (outer : Option Nat) (c : Cursor)
    : Except SyntaxError (PlacedToken × Cursor) := do
  let began := c.mark
  let (chomping, increment, c) ← scanBlockHeader began c.next
  let c := (c.skipWhile isBlank).skipComment
  if !atBreak c.rest then throw (.during .blockScalar began .noCommentOrBreak c.mark)
  let c := c.lineBreak.2
  let given := increment.map fun n => outer.getD 0 + n
  let (deepest, trailing, stop, c) ←
    scanBlockBreaks began given 0 [] c.mark c (c.rest.length + 1)
  let least := match outer with
    | none => 1
    | some n => n + 1
  let indent := given.getD (max deepest least)
  let (text, leading, trailing, stop, c) ←
    scanBlockLines began folded indent [] [] trailing false stop c (c.rest.length + 1)
  let tail :=
    match chomping with
    | .strip => []
    | .clip => leading
    | .keep => leading ++ trailing
  let style := if folded then Style.folded else Style.literal
  return ({ token := .scalar (String.ofList (text ++ tail)) style, start := began, stop }, c)

end Folio.Yaml
