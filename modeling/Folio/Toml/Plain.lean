import Folio.Number.Decimal
import Folio.Number.Named
import Folio.Toml.Moment
import Folio.Toml.Quoted

/-! Reading values without quotes: truth values, integers, fractions and moments. The first
character decides what is read, and with digits what comes after them.
-/

namespace Folio.Toml

open Folio.Number (Binary64)

/-- A value that is no container. -/
inductive Scalar where
  | text (s : String)
  | boolean (b : Bool)
  /-- An integer. It has no value here if it is written wrongly or has more than 128 bits. -/
  | integer (n : Option Int)
  /-- A fraction. It has no value here if it is too great. -/
  | real (x : Option Binary64)
  | moment (m : Moment)
deriving DecidableEq, Inhabited

/-- The base of the numbers that a kind of prefix announces. -/
def Radix.base : Radix → Nat
  | hexadecimal => 16
  | octal => 8
  | binary => 2

/-- The base that a letter after a zero announces, in either case. -/
def Radix.ofLetter? (c : Char) : Option Radix :=
  [hexadecimal, octal, binary].find? fun radix => radix.letter == c.toLower

namespace Piece

/-- The fault of a piece that is nothing. Perhaps only its first quote is missing. -/
def unknown (p : Piece) : Error :=
  let endings := ["'''", "\"\"\"", "'", "\""]
  match endings.find? fun quote => quote.toList.isSuffixOf p.content with
  | some quote => p.faultAt 0 0 (.missingQuote quote)
  | none => p.faultAt 0 (size p.content) .unquoted

def faultAtFirst (p : Piece) (rest : List Char) (fault : Fault) : Error :=
  p.faultAt (p.offsetOf rest) (p.offsetOf rest + 1) fault

/-- The place of the first underscore in a text that does not stand between two digits. -/
def strayUnderscore? (isDigit : Char → Bool) (before : Option Char) : List Char → Option (List Char)
  | [] => none
  | '_' :: rest =>
      if before.any isDigit && rest.head?.any isDigit then
        strayUnderscore? isDigit (some '_') rest
      else some ('_' :: rest)
  | c :: rest => strayUnderscore? isDigit (some c) rest

/-- Refuses underscores that do not stand between digits. -/
def checkUnderscores (p : Piece) (isDigit : Char → Bool) (s : List Char) : Except Error Unit :=
  match strayUnderscore? isDigit none s with
  | some rest => .error (p.faultAtFirst rest .underscore)
  | none => .ok ()

/-- Refuses a zero before other digits. -/
def checkLeadingZero (p : Piece) (s : List Char) : Except Error Unit :=
  match s with
  | '0' :: _ :: _ => .error (p.faultAtFirst s .leadingZero)
  | _ => .ok ()

def withoutUnderscores (s : List Char) : List Char :=
  s.filter (· != '_')

/-- The integer of a sign and digits, if it has at most 128 bits. -/
def integerOf (negative : Bool) (base : Nat) (digits : List Char) : Option Int :=
  (Text.digitsNumber? base digits).bind fun n =>
    let n : Int := if negative then -n else n
    if Number.fits128 n then some n else none

/-- Holds for the characters that may stand beside an underscore. -/
def isAnyDigit (c : Char) : Bool :=
  (Text.hexValue? c).isSome

/-- Reads an integer in base ten whose sign was read. -/
def readInteger (p : Piece) (negative : Bool) (s : List Char) : Except Error Scalar := do
  p.checkLeadingZero s
  p.checkUnderscores isAnyDigit s
  return .integer (integerOf negative 10 (withoutUnderscores s))

/-- Reads an integer in another base, after the prefix for it. -/
def readRadix (p : Piece) (radix : Radix) (s : List Char) : Except Error Scalar := do
  if s.head? == some '+' || s.head? == some '-' then throw (p.faultAtFirst s .signAfterRadix)
  match Text.splitAtFirst? (fun c => c != '_' && !(Text.digitsNumber? radix.base [c]).isSome) s with
  | some (digits, _) => throw (p.faultBefore (s.drop digits.length) (.radixDigit radix))
  | none =>
      p.checkUnderscores isAnyDigit s
      return .integer (integerOf false radix.base (withoutUnderscores s))

/-- Takes the digits of a part of a fraction, with the underscores among them. -/
def takePart (p : Piece) (part : RealPart) (s : List Char) : Except Error (List Char × List Char) :=
  let digits := s.takeWhile fun c => c.isDigit || c == '_'
  let count := (withoutUnderscores digits).length
  if count == 0 then .error (p.faultBefore s (.missingDigits part))
  else if part == .mantissa && count > 1 && s.head? == some '0' then
    .error (p.faultAtFirst s .leadingZero)
  else .ok (digits, s.drop digits.length)

/-- Reads a fraction whose sign was read. -/
def readReal (p : Piece) (negative : Bool) (s : List Char) : Except Error Scalar := do
  let (whole, rest) ← p.takePart .mantissa s
  let (fraction, rest) ←
    match rest with
    | '.' :: rest => p.takePart .fraction rest
    | rest => pure ([], rest)
  let (exponent, rest) ←
    match rest with
    | c :: rest =>
        if c.toLower == 'e' then
          let (sign, rest) : Int × List Char :=
            match rest with
            | '-' :: rest => (-1, rest)
            | '+' :: rest => (1, rest)
            | rest => (1, rest)
          let (digits, rest) ← p.takePart .exponent rest
          let n := (Text.digitsNumber? 10 (withoutUnderscores digits)).getD 0
          pure (sign * (n : Int), rest)
        else pure (0, c :: rest)
    | [] => pure (0, [])
  if !rest.isEmpty then
    throw (p.faultAt (p.offsetOf rest) (size p.content) .trailingInReal)
  p.checkUnderscores Char.isDigit s
  let digits := withoutUnderscores (whole ++ fraction)
  let x := Binary64.ofDigits? digits (exponent - (withoutUnderscores fraction).length)
  return .real (if negative then x.map Binary64.neg else x)

/-- Reads what begins with a digit, an underscore or a point after the sign. -/
def readNumber (p : Piece) (negative : Bool) (s : List Char) : Except Error Scalar :=
  let rest := s.dropWhile Char.isDigit
  match rest with
  | '-' :: _ | ':' :: _ =>
      match Moment.read p.content with
      | .ok m => .ok (.moment m)
      | .error fault => .error (p.faultAt 0 (size p.content) fault)
  | rest =>
      if rest.contains ' ' then .error p.unknown
      else if rest.any fun c => c == '.' || c.toLower == 'e' then p.readReal negative s
      else if rest.isEmpty || rest.head? == some '_' then p.readInteger negative s
      else .error p.unknown

/-- Reads what begins with a zero after the sign. -/
def readZero (p : Piece) (signed negative : Bool) (s : List Char) : Except Error Scalar :=
  match s with
  | '0' :: letter :: rest =>
      if ! ['x', 'o', 'b', 'd'].contains letter.toLower then p.readNumber negative s
      else if rest.contains ' ' then .error p.unknown
      else if signed then .error (p.faultAt 0 1 .signedRadix)
      else
        match Radix.ofLetter? letter with
        | some radix =>
            if letter.isUpper then .error (p.faultAt 0 2 (.radixCase radix))
            else p.readRadix radix rest
        | none => .error (p.faultAt 0 2 .redundantRadix)
  | s => p.readNumber negative s

def readWord (p : Piece) (s : List Char) (word : String) (value : Scalar) (fault : String → Fault)
    : Except Error Scalar :=
  if s == word.toList then .ok value
  else if s.contains ' ' then .error p.unknown
  else .error (p.faultAt (p.offsetOf s) (size p.content) (fault word))

/-- Reads what follows a sign, or begins a value without one. -/
def readUnsigned (p : Piece) (signed negative : Bool) (s : List Char) : Except Error Scalar :=
  let turned (x : Binary64) : Scalar := .real (some (if negative then x.neg else x))
  match s with
  | [] => .error p.unknown
  | c :: _ =>
      if c == '0' then p.readZero signed negative s
      else if c.isDigit || c == '_' then p.readNumber negative s
      else if c == '.' then
        .error (if s.contains ' ' then p.unknown else p.faultAt 0 0 (.missingDigits .mantissa))
      else if c.toLower == 'i' then p.readWord s "inf" (turned .infinity) .notReal
      else if c.toLower == 'n' then p.readWord s "nan" (turned .notANumber) .notReal
      else if signed then .error p.unknown
      else if c.toLower == 't' then p.readWord s "true" (.boolean true) .notBoolean
      else if c.toLower == 'f' then p.readWord s "false" (.boolean false) .notBoolean
      else .error p.unknown

/-- Reads a value without quotes. -/
def readPlain (p : Piece) : Except Error Scalar :=
  match p.content with
  | '+' :: rest | '-' :: rest =>
      if rest.contains ' ' then .error p.unknown
      else if rest.head? == some '+' || rest.head? == some '-' then
        .error (p.faultAtFirst rest .redundantSign)
      else p.readUnsigned true (p.content.head? == some '-') rest
  | s => p.readUnsigned false false s

end Piece

/-- Reads a value that is no container. -/
def Written.scalar (w : Written) : Except Error Scalar :=
  match w.quoting with
  | none => w.piece.readPlain
  | some quoting => (quoting.read w.piece).map .text

/-- Holds for the characters of keys without quotes. -/
def isKeyChar (c : Char) : Bool :=
  c.isAlphanum || c == '-' || c == '_'

def Written.name (w : Written) : Except Error String :=
  let p := w.piece
  match w.quoting with
  | none =>
      if p.content.isEmpty then .error (p.faultAt 0 0 .emptyKey)
      else
        match Text.splitAtFirst? (!isKeyChar ·) p.content with
        | none => .ok (String.ofList p.content)
        | some (before, rest) =>
            let start := Piece.size before
            .error (p.faultAt start (Piece.size p.content - Piece.size rest) .keyCharacter)
  | some .multilineBasic | some .multilineLiteral =>
      .error { fault := .multilineKey (w.quoting.getD .basic), span := p.span }
  | some quoting => quoting.read p

end Folio.Toml
