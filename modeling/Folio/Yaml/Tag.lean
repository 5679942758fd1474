import Folio.Number.Power
import Folio.Yaml.Scalar

/-! Reading what stands before nodes and documents: anchors, tags and directives. -/

namespace Folio.Yaml

/-- Reads the name of an anchor or an alias after its indicator. -/
def scanAnchor (isAlias : Bool) (c : Cursor) : Except SyntaxError (PlacedToken × Cursor) :=
  let name := c.next.rest.takeWhile isWordChar
  let after := c.next.skip name.length
  let ends := atBlank after.rest || after.seesAny fun x => "?:,]\x7d%@`".toList.contains x
  if name.isEmpty || !ends then
    .error (.during (if isAlias then .aliasName else .anchor) c.mark .noAnchorName after.mark)
  else
    let name := String.ofList name
    .ok ({ token := if isAlias then .aliasOf name else .anchor name, start := c.mark,
           stop := after.mark }, after)

/-- Reads the handle of a tag: an exclamation mark, and perhaps a word and a second mark. -/
def scanTagHandle (directive : Bool) (began : Mark) (c : Cursor)
    : Except SyntaxError (List Char × Cursor) :=
  if !c.sees '!' then
    .error (.during (if directive then .tagDirectiveHandle else .tag) began .noTagMark c.mark)
  else
    let word := c.next.rest.takeWhile isWordChar
    let after := c.next.skip word.length
    if after.sees '!' then .ok ('!' :: word ++ ['!'], after.next)
    else if directive && !word.isEmpty then
      .error (.during .tagDirectiveUri began .noTagMark after.mark)
    else .ok ('!' :: word, after)

/-- Holds for the characters of a tag after its handle. Inside of angle brackets three more may
stand.
-/
def isTagChar (inBrackets : Bool) (c : Char) : Bool :=
  isWordChar c || ";/?:@&=+$.%!~*'()".toList.contains c
    || (inBrackets && (c == ',' || c == '[' || c == ']'))

/-- The number of bytes of a character by the first one of them. -/
def utf8Width? (lead : Nat) : Option Nat :=
  if lead < 0x80 then some 1
  else if 0xc0 ≤ lead && lead < 0xe0 then some 2
  else if 0xe0 ≤ lead && lead < 0xf0 then some 3
  else if 0xf0 ≤ lead && lead < 0xf8 then some 4
  else none

/-- Reads one escaped byte of a tag. -/
def scanOctet (activity : Activity) (began : Mark) (c : Cursor)
    : Except SyntaxError (Nat × Cursor) :=
  match c.rest with
  | '%' :: rest =>
      match Text.hexNumber? 2 rest with
      | some n => .ok (n, c.skip 3)
      | none => .error (.during activity began .noEscapedOctet c.mark)
  | _ => .error (.during activity began .noEscapedOctet c.mark)

/-- Reads the `n` bytes that continue an escaped character. -/
def scanTrailingOctets (activity : Activity) (began : Mark) (value : Nat) (c : Cursor)
    : (n : Nat) → Except SyntaxError (Nat × Cursor)
  | 0 => .ok (value, c)
  | n + 1 => do
      let (octet, after) ← scanOctet activity began c
      if octet / 0x40 != 2 then throw (.during activity began .badTrailingOctet c.mark)
      scanTrailingOctets activity began (value * 0x40 + octet % 0x40) after n

/-- Reads a character of a tag that is written as escaped bytes. -/
def scanUriEscape (activity : Activity) (began : Mark) (c : Cursor)
    : Except SyntaxError (Char × Cursor) := do
  let (lead, after) ← scanOctet activity began c
  match utf8Width? lead with
  | none => throw (.during activity began .badLeadingOctet c.mark)
  | some width =>
      let bits := if width == 1 then lead else lead % Number.twoTo (7 - width)
      let (value, after) ← scanTrailingOctets activity began bits after (width - 1)
      return (Char.ofNat value, after)

/-- Reads the characters of a tag after its handle; `text` is what was read, last first. -/
def scanTagChars (inBrackets : Bool) (activity : Activity) (began : Mark) (text : List Char)
    (c : Cursor) : (room : Nat) → Except SyntaxError (List Char × Cursor)
  | 0 => .ok (text.reverse, c)
  | room + 1 =>
      match c.rest with
      | [] => .ok (text.reverse, c)
      | x :: _ =>
          if !isTagChar inBrackets x then .ok (text.reverse, c)
          else if x == '%' then
            match scanUriEscape activity began c with
            | .error e => .error e
            | .ok (y, after) => scanTagChars inBrackets activity began (y :: text) after room
          else scanTagChars inBrackets activity began (x :: text) c.next room

/-- Reads a tag after its handle. It may be empty only after a mark that is no handle. -/
def scanTagUri (inBrackets directive mayBeEmpty : Bool) (began : Mark) (c : Cursor)
    : Except SyntaxError (List Char × Cursor) := do
  let activity := if directive then Activity.tagDirectiveUri else .tagUri
  let (text, after) ← scanTagChars inBrackets activity began [] c c.rest.length
  if text.isEmpty && !mayBeEmpty then throw (.during activity began .noTagUri after.mark)
  return (text, after)

/-- Reads a tag without what must follow it: in angle brackets, with a handle, or with one mark
alone.
-/
def scanTagBody (c : Cursor) : Except SyntaxError (WrittenTag × Cursor) := do
  if c.next.sees '<' then
    let (suffix, after) ← scanTagUri true false false c.mark (c.skip 2)
    if !after.sees '>' then throw (.during .tag c.mark .noTagClose after.mark)
    return ({ handle := "", suffix := String.ofList suffix }, after.next)
  else
    let (handle, after) ← scanTagHandle false c.mark c
    if handle.length > 1 && handle.getLast? == some '!' then
      let (suffix, after) ← scanTagUri false false false c.mark after
      return ({ handle := String.ofList handle, suffix := String.ofList suffix }, after)
    else
      let (rest, after) ← scanTagUri false false true c.mark after
      match handle.drop 1 ++ rest with
      | [] => return ({ handle := "", suffix := "!" }, after)
      | suffix => return ({ handle := "!", suffix := String.ofList suffix }, after)

def scanTag (inFlow : Bool) (c : Cursor) : Except SyntaxError (PlacedToken × Cursor) := do
  let (tag, after) ← scanTagBody c
  if !(inFlow && after.sees ',') && !atBlank after.rest then
    throw (.during .tag c.mark .noBlankOrBreak after.mark)
  return ({ token := .tag tag, start := c.mark, stop := after.mark }, after)

/-! Directives. -/

def scanVersionNumber (began : Mark) (c : Cursor) : Except SyntaxError (Nat × Cursor) :=
  let digits := c.rest.takeWhile Char.isDigit
  if digits.length > 9 then
    .error (.during .versionDirective began .longVersion (c.skip 9).mark)
  else if digits.isEmpty then .error (.during .versionDirective began .noVersion c.mark)
  else .ok ((Text.digitsNumber? 10 digits).getD 0, c.skip digits.length)

/-- Reads a version after the name of its directive. -/
def scanVersion (began : Mark) (c : Cursor) : Except SyntaxError (Token × Cursor) := do
  let (major, c) ← scanVersionNumber began (c.skipWhile isBlank)
  if !c.sees '.' then throw (.during .versionDirective began .noVersionDot c.mark)
  let (minor, c) ← scanVersionNumber began c.next
  return (.versionDirective major minor, c)

/-- Reads a handle and what it stands for after the name of their directive. -/
def scanTagDirective (began : Mark) (c : Cursor) : Except SyntaxError (Token × Cursor) := do
  let (handle, c) ← scanTagHandle true began (c.skipWhile isBlank)
  if !c.seesAny isBlank then throw (.during .tagDirective began .noBlank c.mark)
  let (lead, c) ← scanTagUri true true false began (c.skipWhile isBlank)
  if !atBlank c.rest then throw (.during .tagDirective began .noBlankOrBreak c.mark)
  return (.tagDirective (String.ofList handle) (String.ofList lead), c)

/-- Reads a directive and the rest of its line. -/
def scanDirective (c : Cursor) : Except SyntaxError (PlacedToken × Cursor) := do
  let began := c.mark
  let name := c.next.rest.takeWhile isWordChar
  let after := c.next.skip name.length
  if name.isEmpty then throw (.during .directive began .noDirectiveName after.mark)
  if !atBlank after.rest then throw (.during .directive began .directiveNameEnd after.mark)
  let (token, after) ←
    if name == "YAML".toList then scanVersion began after
    else if name == "TAG".toList then scanTagDirective began after
    else throw (.during .directive began .unknownDirective after.mark)
  let stop := after.mark
  let after := (after.skipWhile isBlank).skipComment
  if !atBreak after.rest then throw (.during .directive began .noCommentOrBreak after.mark)
  return ({ token, start := began, stop }, after.lineBreak.2)

end Folio.Yaml
