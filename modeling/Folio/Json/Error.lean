import Folio.Json.Number

/-! What can be wrong with a JSON text, and where. -/

namespace Folio.Json

/-- A place in a JSON text. Lines are counted from one; a column is the number of bytes since the
line began.
-/
structure Position where
  line : Nat
  column : Nat
deriving DecidableEq, Inhabited

namespace Position

/-- The place where a text begins. -/
def start : Position :=
  { line := 1, column := 0 }

/-- The place after a character. -/
def next (p : Position) (c : Char) : Position :=
  if c == '\n' then { line := p.line + 1, column := 0 }
  else { p with column := p.column + c.utf8Size }

/-- The place after the first byte of a character. -/
def peek (p : Position) (c : Char) : Position :=
  if c == '\n' then { line := p.line + 1, column := 0 } else { p with column := p.column + 1 }

/-- The place after a text. -/
def after (p : Position) (s : List Char) : Position :=
  s.foldl next p

/-- The place `count` bytes further on, if the text has so many. -/
def afterBytes? (p : Position) : Nat → List Char → Option Position
  | 0, _ => some p
  | _ + 1, [] => none
  | count + 1, c :: rest =>
      if count + 1 < c.utf8Size then some { p with column := p.column + (count + 1) }
      else afterBytes? (p.next c) (count + 1 - c.utf8Size) rest
termination_by _ s => s.length

end Position

/-- What is wrong with a JSON text. -/
inductive Fault where
  | eofInList
  | eofInObject
  | eofInString
  | eofInValue
  | expectedColon
  | expectedListCommaOrEnd
  | expectedObjectCommaOrEnd
  | expectedIdent
  | expectedValue
  | invalidCodePoint
  | invalidEscape
  | invalidNumber
  | numberOutOfRange
  | controlCharacter
  | keyNotString
  | loneSurrogate
  | trailingComma
  | trailingCharacters
  | unexpectedEndOfEscape
  | recursionLimit
  | invalidType (found expected : String)
  | invalidLength (found : Nat) (expected : String)
  | missingField (name : String)
  | duplicateField (name : String)
  | noVariant (name : String)
  | invalidValue (message : String)
deriving DecidableEq, Inhabited

namespace Fault

def message : Fault → String
  | eofInList => "EOF while parsing a list"
  | eofInObject => "EOF while parsing an object"
  | eofInString => "EOF while parsing a string"
  | eofInValue => "EOF while parsing a value"
  | expectedColon => "expected `:`"
  | expectedListCommaOrEnd => "expected `,` or `]`"
  | expectedObjectCommaOrEnd => "expected `,` or `\x7d`"
  | expectedIdent => "expected ident"
  | expectedValue => "expected value"
  | invalidCodePoint => "invalid unicode code point"
  | invalidEscape => "invalid escape"
  | invalidNumber => "invalid number"
  | numberOutOfRange => "number out of range"
  | controlCharacter =>
      "control character (\\u0000-\\u001F) found while parsing a string"
  | keyNotString => "key must be a string"
  | loneSurrogate => "lone leading surrogate in hex escape"
  | trailingComma => "trailing comma"
  | trailingCharacters => "trailing characters"
  | unexpectedEndOfEscape => "unexpected end of hex escape"
  | recursionLimit => "recursion limit exceeded"
  | invalidType found expected => "invalid type: " ++ found ++ ", expected " ++ expected
  | invalidLength found expected =>
      "invalid length " ++ toString found ++ ", expected " ++ expected
  | missingField name => "missing field `" ++ name ++ "`"
  | duplicateField name => "duplicate field `" ++ name ++ "`"
  | noVariant name => "data did not match any variant of untagged enum " ++ name
  | invalidValue message => message

end Fault

/-- A fault at a place, or at no particular place. -/
structure Error where
  fault : Fault
  position : Option Position
deriving DecidableEq, Inhabited

namespace Error

def at_ (fault : Fault) (position : Position) : Error :=
  { fault, position := some position }

/-- The text of an error: the fault and, where it is known, the place. -/
def message (e : Error) : String :=
  match e.position with
  | none => e.fault.message
  | some p =>
      e.fault.message ++ " at line " ++ toString p.line ++ " column " ++ toString p.column

end Error

end Folio.Json
