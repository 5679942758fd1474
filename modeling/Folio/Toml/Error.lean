import Folio.Text.Lines
import Folio.Text.Utf8

/-! What can be wrong with a TOML text, and where. An error is shown with the line in which it
stands.
-/

namespace Folio.Toml

/-- A stretch of a text, in bytes from its start. -/
structure Span where
  start : Nat
  stop : Nat
deriving DecidableEq, Inhabited

namespace Span

/-- The stretch without length before another one. -/
def before (s : Span) : Span :=
  { start := s.start, stop := s.start }

/-- The stretch without length after another one. -/
def after (s : Span) : Span :=
  { start := s.stop, stop := s.stop }

/-- The stretch from one to another. -/
def through (s t : Span) : Span :=
  { start := s.start, stop := t.stop }

/-- The stretch from one place to another within a stretch. -/
def within (s : Span) (start stop : Nat) : Span :=
  { start := s.start + start, stop := s.start + stop }

end Span

/-- What would have been right instead. -/
inductive Expected where
  | literal (text : String)
  | words (text : String)
deriving DecidableEq, Inhabited

/-- How a text is quoted. -/
inductive Quoting where
  | basic
  | literal
  | multilineBasic
  | multilineLiteral
deriving DecidableEq, Inhabited

/-- What is read next in an inline table. -/
inductive TableState where
  | key
  | equals
  | value
  | comma
deriving DecidableEq, Inhabited

/-- A number base other than ten. -/
inductive Radix where
  | hexadecimal
  | octal
  | binary
deriving DecidableEq, Inhabited

/-- A part of a number with a fraction. -/
inductive RealPart where
  | mantissa
  | fraction
  | exponent
deriving DecidableEq, Inhabited

/-- A part of a date with a time. -/
inductive MomentPart where
  | moment
  | date
  | time
  | dateAndTime
  | offset
deriving DecidableEq, Inhabited

/-- What is wrong with a TOML text. -/
inductive Fault where
  | unclosedTable
  | unclosedTableList (closing : String)
  | unclosedArray
  | unclosedInlineTable
  | missingTableOpening
  | missingArrayOpening
  | missingInlineTableOpening
  | extraEquals
  | keyWithoutValue
  /-- A key without a value that begins with a dot. -/
  | dotWithoutValue
  | notAnEntry
  | trailing
  | loneCarriageReturn
  | commentCharacter
  | tooDeep
  | extraCommaInArray
  | equalsInArray
  | missingCommaInArray
  | extraCommaInTable (state : TableState)
  | extraEqualsInTable (state : TableState)
  | missingKeyInTable (state : TableState)
  | strayBracketInTable (state : TableState)
  | missingEqualsInTable
  | missingCommaInTable
  | emptyKey
  | keyCharacter
  | multilineKey (quoting : Quoting)
  | unclosedText (quoting : Quoting)
  | textCharacter (quoting : Quoting)
  | missingEscape
  | fewEscapeDigits
  | escapeValue
  | escapeBeforeText
  | unquoted
  | missingQuote (quote : String)
  | redundantSign
  | signedRadix
  | radixCase (radix : Radix)
  | redundantRadix
  | signAfterRadix
  | radixDigit (radix : Radix)
  | leadingZero
  | underscore
  | missingDigits (part : RealPart)
  | trailingInReal
  | notBoolean (word : String)
  | notReal (word : String)
  | notMoment (part : MomentPart) (expected : Option String)
  | duplicateKey
  | notExtensible (type : String)
  | invalidType (found expected : String)
  | integerOverflow
  | realOverflow
deriving DecidableEq, Inhabited

/-- The name of a kind of quoted texts. -/
def Quoting.name : Quoting → String
  | basic => "basic string"
  | literal => "literal string"
  | multilineBasic => "multi-line basic string"
  | multilineLiteral => "multi-line literal string"

/-- The quote at the end of a text. -/
def Quoting.quote : Quoting → String
  | basic | multilineBasic => "\""
  | literal | multilineLiteral => "'"

/-- What an inline table should go on with. -/
def TableState.expected : TableState → Expected
  | key => .words "key"
  | equals => .literal "="
  | value => .words "value"
  | comma => .literal ","

/-- The letter that stands for a base. -/
def Radix.letter : Radix → Char
  | hexadecimal => 'x'
  | octal => 'o'
  | binary => 'b'

def Radix.name : Radix → String
  | hexadecimal => "hexadecimal"
  | octal => "octal"
  | binary => "binary"

def RealPart.name : RealPart → String
  | mantissa => "mantissa"
  | fraction => "fraction"
  | exponent => "exponent"

/-- The name of a part of a date with a time. -/
def MomentPart.name : MomentPart → String
  | moment => "datetime"
  | date => "date"
  | time => "time"
  | dateAndTime => "date-time"
  | offset => "offset"

/-- The characters of which keys without quotes are made. -/
def keyCharacters : List Expected :=
  [.words "letters", .words "numbers", .literal "-", .literal "_"]

/-- The characters that may follow a backslash. -/
def escapes : List Expected :=
  ["b", "e", "f", "n", "r", "\\", "\"", "x", "u", "U"].map Expected.literal

/-- The characters that may stand between quotes. -/
def Quoting.characters : Quoting → List Expected
  | basic => [.words "non-double-quote visible characters", .literal "\\"]
  | literal => [.words "non-single-quote visible characters"]
  | multilineBasic => [.literal "\\", .words "characters"]
  | multilineLiteral => [.words "non-single-quote characters"]

namespace Fault

/-- What a fault is, and what would have been right instead if that can be said. -/
def description : Fault → String × Option (List Expected)
  | unclosedTable => ("unclosed table", some [.literal "]"])
  | unclosedTableList closing => ("unclosed array table", some [.literal closing])
  | unclosedArray => ("unclosed array", some [.literal "]"])
  | unclosedInlineTable => ("unclosed inline table", some [.literal "\x7d"])
  | missingTableOpening => ("missing table open", some [.literal "["])
  | missingArrayOpening => ("missing array opening", some [.literal "["])
  | missingInlineTableOpening => ("missing inline table opening", some [.literal "\x7b"])
  | extraEquals => ("extra \x60=\x60", some [])
  | keyWithoutValue => ("key with no value", some [.literal "="])
  | dotWithoutValue => ("missing value for key", some [.literal "="])
  | notAnEntry => ("invalid key-value pair", some [.words "key"])
  | trailing => ("unexpected key or value", some [.words "newline", .literal "#"])
  | loneCarriageReturn =>
      ("carriage return must be followed by newline", some [.words "newline"])
  | commentCharacter => ("invalid comment character", some [.words "printable characters"])
  | tooDeep => ("cannot recurse further; max recursion depth met", none)
  | extraCommaInArray => ("extra comma in array", some [.words "value"])
  | equalsInArray => ("unexpected \x60=\x60 in array", some [.words "value", .literal "]"])
  | missingCommaInArray => ("missing comma between array elements", some [.literal ","])
  | extraCommaInTable state => ("extra comma in inline table", some [state.expected])
  | extraEqualsInTable state => ("extra assignment between key-value pairs", some [state.expected])
  | missingKeyInTable state => ("missing key for inline table element", some [state.expected])
  | strayBracketInTable state => ("invalid inline table element", some [state.expected])
  | missingEqualsInTable =>
      ("missing assignment between key-value pairs", some [.literal "="])
  | missingCommaInTable => ("missing comma between key-value pairs", some [.literal ","])
  | emptyKey => ("unquoted keys cannot be empty", some keyCharacters)
  | keyCharacter => ("invalid unquoted key", some keyCharacters)
  | multilineKey quoting =>
      ("keys cannot be " ++ quoting.name ++ "s",
        some [.words Quoting.basic.name, .words Quoting.literal.name])
  | unclosedText quoting => ("invalid " ++ quoting.name, some [.literal quoting.quote])
  | textCharacter quoting => ("invalid " ++ quoting.name, some quoting.characters)
  | missingEscape => ("missing escaped value", some escapes)
  | fewEscapeDigits =>
      ("too few unicode value digits", some [.words "unicode hexadecimal value"])
  | escapeValue => ("invalid value", some [.words "unicode hexadecimal value"])
  | escapeBeforeText => ("invalid " ++ Quoting.multilineBasic.name, some [.words "newline"])
  | unquoted => ("string values must be quoted", some [.words "literal string"])
  | missingQuote quote => ("missing opening quote", some [.literal quote])
  | redundantSign => ("redundant numeric sign", some [])
  | signedRadix => ("integers with a radix cannot be signed", some [])
  | radixCase radix =>
      ("radix must be lowercase", some [.literal (String.ofList ['0', radix.letter])])
  | redundantRadix => ("redundant integer number prefix", some [])
  | signAfterRadix => ("unexpected sign", some [])
  | radixDigit radix => ("invalid " ++ radix.name ++ " number", none)
  | leadingZero => ("unexpected leading zero", some [])
  | underscore => ("\x60_\x60 may only go between digits", some [])
  | missingDigits part => ("invalid " ++ part.name, some [.words "digits"])
  | trailingInReal => ("invalid float", some [])
  | notBoolean word => ("invalid boolean", some [.literal word])
  | notReal word => ("invalid float", some [.literal word])
  | notMoment part expected =>
      ("invalid " ++ part.name, expected.map fun text => [.words text])
  | duplicateKey => ("duplicate key", none)
  | notExtensible type => ("cannot extend value of type " ++ type ++ " with a dotted key", none)
  | invalidType found expected => ("invalid type: " ++ found ++ ", expected " ++ expected, none)
  | integerOverflow => ("integer number overflowed", none)
  | realOverflow => ("floating-point number overflowed", none)

/-- What would have been right, as messages show it. -/
def expectedText : Expected → String
  | .literal text => "\x60" ++ text ++ "\x60"
  | .words text => text

def message (f : Fault) : String :=
  match f.description with
  | (text, none) => text
  | (text, some []) => text ++ ", expected nothing"
  | (text, some expected) => text ++ ", expected " ++ ", ".intercalate (expected.map expectedText)

end Fault

/-- A fault and where it is. -/
structure Error where
  fault : Fault
  span : Span
deriving DecidableEq, Inhabited

/-- A line of a text and what is to be shown of a stretch in it. -/
structure Excerpt where
  /-- The number of the line, counted from zero. -/
  line : Nat
  /-- The characters before the stretch, counted from zero. -/
  column : Nat
  content : String
deriving DecidableEq, Inhabited

/-- The characters of a line that begin before an offset in bytes. At an offset within a character
bytes are counted.
-/
def columnAt (line : List UInt8) (offset : Nat) : Nat :=
  match Text.ofUtf8? (line.take (offset + 1)) with
  | some text => text.length - 1
  | none => offset

/-- The place of an offset in a text. What lies beyond the end counts from the last byte on. -/
def excerpt (text : String) (offset : Nat) : Excerpt :=
  let bytes := Text.utf8 text
  let index := min offset (bytes.length - 1)
  let before := bytes.take index
  let line := before.count 10
  let start := index - (before.reverse.takeWhile (· != 10)).length
  let column := if bytes.isEmpty then 0 else columnAt (bytes.drop start) (index - start)
  let lines := Text.splitBy (· == '\n') text.toList
  { line, column := column + (offset - index), content := String.ofList (lines.getD line []) }

/-- The text of an error in a text: where it is, the line with marks under the stretch, and what it
is.
-/
def Error.message (text : String) (e : Error) : String :=
  let place := excerpt text e.span.start
  let number := toString (place.line + 1)
  let margin := String.ofList (List.replicate (number.length + 1) ' ') ++ "|"
  let width := min (e.span.stop - e.span.start) (place.content.utf8ByteSize - place.column)
  let marks := List.replicate (place.column + 1) ' ' ++ List.replicate (max width 1) '^'
  "TOML parse error at line " ++ number ++ ", column " ++ toString (place.column + 1) ++ "\n"
    ++ margin ++ "\n" ++ number ++ " | " ++ place.content ++ "\n"
    ++ margin ++ String.ofList marks ++ "\n" ++ e.fault.message ++ "\n"

end Folio.Toml
