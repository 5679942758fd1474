import Folio.Yaml.Error

/-! Reading a YAML text character by character. -/

namespace Folio.Yaml

/-- The rest of a text and the place where it starts. -/
structure Cursor where
  rest : List Char
  mark : Mark
deriving Inhabited

/-- A problem at a place, found in the course of an activity that began elsewhere. -/
def SyntaxError.during (activity : Activity) (began : Mark) (what : Problem) (place : Mark)
    : SyntaxError :=
  .problem what place (some (activity, began))

/-- Holds for spaces and tabs. -/
def isBlank (c : Char) : Bool :=
  c == ' ' || c == '\t'

/-- Holds for the characters that end a line. -/
def isBreak (c : Char) : Bool :=
  c == '\r' || c == '\n' || c == '\u0085' || c == '\u2028' || c == '\u2029'

/-- Holds for the characters of names of anchors and tag handles. -/
def isWordChar (c : Char) : Bool :=
  c.isAlphanum || c == '_' || c == '-'

/-- Holds at the end of a line or of the text. -/
def atBreak (s : List Char) : Bool :=
  match s with
  | [] => true
  | c :: _ => isBreak c

/-- Holds at a blank, and at the end of a line or of the text. -/
def atBlank (s : List Char) : Bool :=
  match s with
  | [] => true
  | c :: _ => isBlank c || isBreak c

/-- Holds at an indicator of a document: three dashes or three dots that stand alone. -/
def atDocumentIndicator (c : Char) (s : List Char) : Bool :=
  match s with
  | x :: y :: z :: rest => x == c && y == c && z == c && atBlank rest
  | _ => false

namespace Cursor

def ofText (text : List Char) : Cursor :=
  { rest := text, mark := {} }

/-- The place after the next character, which is no line end. -/
def next (c : Cursor) : Cursor :=
  match c.rest with
  | [] => c
  | _ :: rest =>
      { rest, mark := { c.mark with index := c.mark.index + 1, column := c.mark.column + 1 } }

/-- The place after the next `n` characters. -/
def skip (c : Cursor) : Nat → Cursor
  | 0 => c
  | n + 1 => c.next.skip n

/-- The place after the characters that satisfy `p`. -/
def skipWhile (c : Cursor) (p : Char → Bool) : Cursor :=
  c.skip (c.rest.takeWhile p).length

/-- What a line end is read as, and the place after it. At any other place there is none. -/
def lineBreak (c : Cursor) : List Char × Cursor :=
  let after (n : Nat) : Cursor :=
    { rest := c.rest.drop n,
      mark := { index := c.mark.index + n, line := c.mark.line + 1, column := 0 } }
  match c.rest with
  | '\r' :: '\n' :: _ => (['\n'], after 2)
  | '\r' :: _ | '\n' :: _ | '\u0085' :: _ => (['\n'], after 1)
  | '\u2028' :: _ => (['\u2028'], after 1)
  | '\u2029' :: _ => (['\u2029'], after 1)
  | _ => ([], c)

/-- Holds if the next character is `x`. -/
def sees (c : Cursor) (x : Char) : Bool :=
  c.rest.head? == some x

/-- Holds if the next character satisfies `p`. -/
def seesAny (c : Cursor) (p : Char → Bool) : Bool :=
  c.rest.head?.any p

/-- The place after a comment, if there is one. -/
def skipComment (c : Cursor) : Cursor :=
  if c.sees '#' then c.skipWhile fun x => !isBreak x else c

end Cursor

/-- The offset in bytes of the first character that may not stand in a text. A mark of byte order
before the text counts.
-/
def controlOffset? (offset : Nat) : List Char → Option Nat
  | [] => none
  | c :: rest =>
      let n := c.toNat
      if n == 0x09 || n == 0x0a || n == 0x0d || (0x20 ≤ n && n ≤ 0x7e) || n == 0x85
          || (0xa0 ≤ n && n ≤ 0xfffd) || 0x10000 ≤ n then
        controlOffset? (offset + c.utf8Size) rest
      else some offset

end Folio.Yaml
