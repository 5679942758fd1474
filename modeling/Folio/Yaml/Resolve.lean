import Folio.Number.Decimal
import Folio.Number.Named
import Folio.Text.Quoted
import Folio.Yaml.Token

/-! What a scalar is read as. A plain scalar may be nothing, a truth value, an integer or a
fraction; all else is text.
-/

namespace Folio.Yaml

open Folio.Number (Binary64)

/-- What a scalar is read as. -/
inductive Resolved where
  | null
  | bool (value : Bool)
  | integer (value : Int)
  | real (value : Binary64)
  | text (text : String)
deriving DecidableEq, Inhabited

def isNullWord (s : String) : Bool :=
  ["null", "Null", "NULL", "~"].contains s

/-- The truth value that a word is. -/
def boolWord? (s : String) : Option Bool :=
  if ["true", "True", "TRUE"].contains s then some true
  else if ["false", "False", "FALSE"].contains s then some false
  else none

/-- Holds for digits that write no number, because a zero leads. -/
def hasLeadingZero (s : List Char) : Bool :=
  s.length > 1 && s.head? == some '0' && s.all Char.isDigit

/-- The number that a text without a sign writes, in base 16, 8, 2 or 10. -/
def magnitude? (s : List Char) : Option Nat :=
  match s with
  | '0' :: 'x' :: digits => Text.digitsNumber? 16 digits
  | '0' :: 'o' :: digits => Text.digitsNumber? 8 digits
  | '0' :: 'b' :: digits => Text.digitsNumber? 2 digits
  | s => if hasLeadingZero s then none else Text.digitsNumber? 10 s

def integer? (s : List Char) : Option Int :=
  match s with
  | '-' :: rest => (magnitude? rest).map fun n => -(n : Int)
  | '+' :: rest => (magnitude? rest).map Int.ofNat
  | s => (magnitude? s).map Int.ofNat

/-- The integer that a text writes, if it has at most 128 bits. -/
def boundedInteger? (s : List Char) : Option Int :=
  (integer? s).filter Number.fits128

/-- The exponent that follows the digits of a fraction, if there is one and nothing after it. -/
def exponentPart? (s : List Char) : Option Int :=
  let signed (s : List Char) : Option Int :=
    match s with
    | '-' :: digits => (Text.digitsNumber? 10 digits).map fun n => -(n : Int)
    | '+' :: digits => (Text.digitsNumber? 10 digits).map Int.ofNat
    | digits => (Text.digitsNumber? 10 digits).map Int.ofNat
  match s with
  | [] => some 0
  | 'e' :: rest | 'E' :: rest => signed rest
  | _ => none

/-- The fraction that a text without a sign writes: digits with a point anywhere or nowhere, and
perhaps an exponent.
-/
def unsignedReal? (s : List Char) : Option Binary64 := do
  let whole := s.takeWhile Char.isDigit
  let rest := s.drop whole.length
  let (part, rest) :=
    match rest with
    | '.' :: rest =>
        let part := rest.takeWhile Char.isDigit
        (part, rest.drop part.length)
    | rest => ([], rest)
  if whole.isEmpty && part.isEmpty then none
  else Binary64.ofDigits? (whole ++ part) ((← exponentPart? rest) - part.length)

/-- The infinite value. -/
def infinityWord? (s : String) : Option Binary64 :=
  if [".inf", ".Inf", ".INF"].contains s then some .infinity else none

/-- The fraction that a text writes. -/
def real? (s : String) : Option Binary64 :=
  match s.toList with
  | '+' :: rest =>
      match rest with
      | '+' :: _ | '-' :: _ => none
      | rest => (infinityWord? (String.ofList rest)).or (unsignedReal? rest)
  | '-' :: rest =>
      ((infinityWord? (String.ofList rest)).or (unsignedReal? rest)).map Binary64.neg
  | rest =>
      if [".nan", ".NaN", ".NAN"].contains s then some .notANumber
      else (infinityWord? s).or (unsignedReal? rest)

/-- What a plain scalar without a tag is read as. -/
def resolvePlain (s : String) : Resolved :=
  if s.isEmpty || isNullWord s then .null
  else
    match boolWord? s with
    | some b => .bool b
    | none =>
        match boundedInteger? s.toList with
        | some n => .integer n
        | none =>
            let digits :=
              match s.toList with
              | '-' :: rest | '+' :: rest => rest
              | rest => rest
            if hasLeadingZero digits then .text s
            else
              match real? s with
              | some x => .real x
              | none => .text s

/-- The text of an integer, and its type if it has more than 64 bits. -/
def integerText (n : Int) : String :=
  let text := Number.integerName n
  if Number.fits64 n then text else if n < 0 then text ++ " as i128" else text ++ " as u128"

/-- What a scalar is read as, as messages name it. -/
def Resolved.named : Resolved → String
  | null => "unit value"
  | bool b => Number.booleanName b
  | integer n => integerText n
  | real x => Number.realName x
  | text s => "string " ++ Text.quoted s

end Folio.Yaml
