import Folio.Json.Error
import Folio.Json.Value
import Folio.Text.Digits

/-! The lexemes of a JSON text. A text is cut into brackets, commas, colons, strings, numbers and
the three words; the first lexical fault ends the list. Each lexeme knows its place, so that what
reads them can name it.
-/

namespace Folio.Json

open Folio.Number (Binary64 tenTo)

/-- A lexeme without its place. -/
inductive Token where
  | punctuation (c : Char)
  | string (s : String)
  | number (n : Number)
  | null
  | bool (b : Bool)
  | stray (c : Char)
  | faulty (first : Char) (error : Error)
  | finish
deriving Inhabited

/-- A lexeme: `place` is where it begins, `start` the place after its first byte and `stop` the
place after its last.
-/
structure Lexeme where
  token : Token
  place : Position
  start : Position
  stop : Position
deriving Inhabited

/-- The error of an escape `\u` without four hexadecimal digits after it. -/
def hexFault (p : Position) (rest : List Char) : Error :=
  match p.afterBytes? 4 rest with
  | some q => .at_ .invalidEscape q
  | none => .at_ .eofInString (p.after rest)

/-- The trailing half of a pair of surrogates, after the digits `n` of the leading half. -/
def scanTrailing (p : Position) (n : Nat) (s : List Char) : Except Error Char :=
  match s with
  | [] => .error (.at_ .eofInString p)
  | ['\\'] => .error (.at_ .eofInString (p.next '\\'))
  | '\\' :: 'u' :: rest =>
      let p := p.after ['\\', 'u']
      match rest with
      | a :: b :: c :: d :: _ =>
          match Text.hexNumber? 4 [a, b, c, d] with
          | none => .error (hexFault p rest)
          | some m =>
              if m < 0xdc00 || 0xdfff < m then .error (.at_ .loneSurrogate (p.after [a, b, c, d]))
              else .ok (Char.ofNat ((n - 0xd800) * 1024 + (m - 0xdc00) + 0x10000))
      | _ => .error (hexFault p rest)
  | '\\' :: c :: _ => .error (.at_ .unexpectedEndOfEscape ((p.next '\\').peek c))
  | c :: _ => .error (.at_ .unexpectedEndOfEscape (p.peek c))

/-- The character of an escape `\u` whose digits start here, and how many characters the escape
takes from here on: four digits, or ten characters for a pair of surrogates.
-/
def scanUnicode (p : Position) (s : List Char) : Except Error (Char × Nat) :=
  match s with
  | a :: b :: c :: d :: rest =>
      match Text.hexNumber? 4 [a, b, c, d] with
      | none => .error (hexFault p s)
      | some n =>
          let p := p.after [a, b, c, d]
          if 0xdc00 ≤ n && n ≤ 0xdfff then .error (.at_ .loneSurrogate p)
          else if n < 0xd800 || 0xdbff < n then .ok (Char.ofNat n, 4)
          else (scanTrailing p n rest).map fun c => (c, 10)
  | _ => .error (hexFault p s)

/-- The character that a letter after a backslash stands for. -/
def escapeOf? : Char → Option Char
  | '"' => some '"'
  | '\\' => some '\\'
  | '/' => some '/'
  | 'b' => some '\x08'
  | 'f' => some '\x0c'
  | 'n' => some '\n'
  | 'r' => some '\r'
  | 't' => some '\t'
  | _ => none

/-- The text of a string whose opening quote was read, with the place and text after its closing
quote.
-/
def scanString (p : Position) (s : List Char) : Except Error (List Char × Position × List Char) :=
  match s with
  | [] => .error (.at_ .eofInString p)
  | '"' :: rest => .ok ([], p.next '"', rest)
  | '\\' :: [] => .error (.at_ .eofInString (p.next '\\'))
  | '\\' :: 'u' :: rest =>
      match scanUnicode ((p.next '\\').next 'u') rest with
      | .error e => .error e
      | .ok (c, count) =>
          (scanString (p.after ('\\' :: 'u' :: rest.take count)) (rest.drop count)).map
            fun (s, r) => (c :: s, r)
  | '\\' :: e :: rest =>
      match escapeOf? e with
      | none => .error (.at_ .invalidEscape ((p.next '\\').peek e))
      | some c => (scanString ((p.next '\\').next e) rest).map fun (s, r) => (c :: s, r)
  | c :: rest =>
      if c.toNat < 32 then .error (.at_ .controlCharacter (p.peek c))
      else (scanString (p.next c) rest).map fun (s, r) => (c :: s, r)
termination_by s.length
decreasing_by all_goals (simp only [List.length_drop, List.length_cons]; omega)

/-- The greatest natural number of 64 bits. -/
def maxUnsigned : Nat :=
  18446744073709551615

/-- Leading digits taken into a significand while it fits 64 bits: the significand, how many digits
were taken, and the rest of the text.
-/
def takeSignificand (significand count : Nat) : List Char → Nat × Nat × List Char
  | [] => (significand, count, [])
  | c :: rest =>
      if c.isDigit && significand * 10 + (c.toNat - 48) ≤ maxUnsigned then
        takeSignificand (significand * 10 + (c.toNat - 48)) (count + 1) rest
      else (significand, count, c :: rest)

/-- The decimal digits at the start of a text. -/
def leadingDigits (s : List Char) : List Char :=
  s.takeWhile Char.isDigit

/-- The nearest fraction to `10 ^ n`, for `n ≤ 308`. -/
def powerOfTen (n : Nat) : Binary64 :=
  Binary64.ofNat (tenTo n)

/-- The product of two finite fractions. -/
def mulReal (x y : Binary64) : Binary64 :=
  Binary64.ofRatio (x.ratio.1 * y.ratio.1) (x.ratio.2 * y.ratio.2)

/-- The quotient of two finite fractions, the second not zero. -/
def divReal (x y : Binary64) : Binary64 :=
  Binary64.ofRatio (x.ratio.1 * y.ratio.2) (x.ratio.2 * y.ratio.1)

/-- Divides by `10 ^ 308` until the negative exponent is small enough for one division. -/
def scaleDown (x : Binary64) (exponent : Nat) : Binary64 :=
  if exponent ≤ 308 then divReal x (powerOfTen exponent)
  else if x.isZero then x
  else scaleDown (divReal x (powerOfTen 308)) (exponent - 308)
termination_by exponent

/-- A decimal as a fraction: the significand is rounded, then scaled by one power of ten after the
other, each step rounded. Too large a value is none.
-/
def decimalReal? (significand : Nat) (exponent : Int) : Option Binary64 :=
  let x := Binary64.ofNat significand
  if exponent < 0 then some (scaleDown x exponent.natAbs)
  else if exponent ≤ 308 then
    let y := mulReal x (powerOfTen exponent.toNat)
    if y.isFinite then some y else none
  else if x.isZero then some x
  else none

/-- A scanned number, with the place and text after it. -/
abbrev ScannedNumber :=
  Except Error (Number × Position × List Char)

/-- Gives a decimal its sign and makes it a number. -/
def finishReal (positive : Bool) (significand : Nat) (exponent : Int) (p : Position)
    (rest : List Char) : ScannedNumber :=
  match decimalReal? significand exponent with
  | none => .error (.at_ .numberOutOfRange p)
  | some x =>
      match Number.ofReal? (if positive then x else x.neg) with
      | some n => .ok (n, p, rest)
      | none => .error (.at_ .numberOutOfRange p)

/-- The greatest exponent that is read exactly. -/
def maxExponent : Nat :=
  2147483647

/-- The digits of an exponent, of which at least the first one fits: the exponent, or none with the
count of digits read when it grows too large.
-/
def takeExponent (value count : Nat) : List Char → Except Nat (Nat × Nat)
  | [] => .ok (value, count)
  | c :: rest =>
      if c.isDigit then
        let next := value * 10 + (c.toNat - 48)
        if next > maxExponent then .error (count + 1) else takeExponent next (count + 1) rest
      else .ok (value, count)

/-- The exponent part of a number after its letter, and the number. -/
def scanExponent (positive : Bool) (significand : Nat) (start : Int) (p : Position)
    (s : List Char) : ScannedNumber :=
  let (negative, p, s) :=
    match s with
    | '+' :: rest => (false, p.next '+', rest)
    | '-' :: rest => (true, p.next '-', rest)
    | _ => (false, p, s)
  match s with
  | [] => .error (.at_ .eofInValue p)
  | c :: _ =>
      if !c.isDigit then .error (.at_ .invalidNumber (p.peek c))
      else
        match takeExponent 0 0 s with
        | .ok (value, count) =>
            let exponent := if negative then start - value else start + value
            finishReal positive significand exponent (p.after (s.take count)) (s.drop count)
        | .error count =>
            if significand != 0 && !negative then
              .error (.at_ .numberOutOfRange (p.after (s.take count)))
            else
              let digits := leadingDigits s
              finishReal positive 0 0 (p.after digits) (s.drop digits.length)

/-- The rest of a number after its digits with an optional fraction. -/
def scanAfterFraction (positive : Bool) (significand : Nat) (exponent : Int) (p : Position)
    (s : List Char) : ScannedNumber :=
  match s with
  | 'e' :: rest => scanExponent positive significand exponent (p.next 'e') rest
  | 'E' :: rest => scanExponent positive significand exponent (p.next 'E') rest
  | _ => finishReal positive significand exponent p s

/-- The fraction of a number after its point. Digits that no longer fit are skipped. -/
def scanFraction (positive : Bool) (significand : Nat) (exponent : Int) (p : Position)
    (s : List Char) : ScannedNumber :=
  let (value, count, rest) := takeSignificand significand 0 s
  let q := p.after (s.take count)
  match count, leadingDigits rest with
  | 0, [] =>
      match rest with
      | [] => .error (.at_ .eofInValue q)
      | c :: _ => .error (.at_ .invalidNumber (q.peek c))
  | _, extra =>
      scanAfterFraction positive value (exponent - count) (q.after extra) (rest.drop extra.length)

/-- A number that starts with a digit, its sign having been read. -/
def scanNumber (positive : Bool) (p : Position) (s : List Char) : ScannedNumber :=
  match s with
  | [] => .error (.at_ .eofInValue p)
  | '0' :: rest =>
      let p := p.next '0'
      match rest with
      | c :: _ =>
          if c.isDigit then .error (.at_ .invalidNumber (p.peek c))
          else wholeOrReal 0 p rest
      | [] => wholeOrReal 0 p rest
  | c :: _ =>
      if !c.isDigit then .error (.at_ .invalidNumber (p.peek c))
      else
        let (value, count, rest) := takeSignificand 0 0 s
        let q := p.after (s.take count)
        match leadingDigits rest with
        | [] => wholeOrReal value q rest
        | extra =>
            let q := q.after extra
            let rest := rest.drop extra.length
            match rest with
            | '.' :: after => scanFraction positive value extra.length (q.next '.') after
            | _ => scanAfterFraction positive value extra.length q rest
where
  wholeOrReal (value : Nat) (p : Position) (rest : List Char) : ScannedNumber :=
    match rest with
    | '.' :: after => scanFraction positive value 0 (p.next '.') after
    | 'e' :: after => scanExponent positive value 0 (p.next 'e') after
    | 'E' :: after => scanExponent positive value 0 (p.next 'E') after
    | _ =>
        match Number.ofInt? (if positive then (value : Int) else -(value : Int)) with
        | some n =>
            if !positive && value == 0 then finishReal positive 0 0 p rest else .ok (n, p, rest)
        | none => finishReal positive value 0 p rest

def scanWord (p : Position) : (word s : List Char) → Except Error (Position × List Char)
  | [], s => .ok (p, s)
  | _ :: _, [] => .error (.at_ .eofInValue p)
  | a :: word, c :: rest =>
      if a == c then scanWord (p.next c) word rest
      else .error (.at_ .expectedIdent (p.peek c))

/-- One lexeme of a text that starts with `c`, and the text after it. -/
def scanLexeme (p : Position) (c : Char) (rest : List Char) : Lexeme × List Char :=
  let start := p.peek c
  let faulty (e : Error) : Lexeme × List Char :=
    ({ token := .faulty c e, place := p, start, stop := start }, [])
  let word (text : List Char) (token : Token) : Lexeme × List Char :=
    match scanWord (p.next c) text rest with
    | .ok (q, after) => ({ token, place := p, start, stop := q }, after)
    | .error e => faulty e
  let number (r : ScannedNumber) : Lexeme × List Char :=
    match r with
    | .ok (n, q, after) => ({ token := .number n, place := p, start, stop := q }, after)
    | .error e => faulty e
  match c with
  | 'n' => word "ull".toList .null
  | 't' => word "rue".toList (.bool true)
  | 'f' => word "alse".toList (.bool false)
  | '-' => number (scanNumber false (p.next c) rest)
  | '"' =>
      match scanString (p.next c) rest with
      | .ok (s, q, after) =>
          ({ token := .string (String.ofList s), place := p, start, stop := q }, after)
      | .error e => faulty e
  | '[' | ']' | '\x7b' | '\x7d' | ',' | ':' =>
      ({ token := .punctuation c, place := p, start, stop := p.next c }, rest)
  | c =>
      if c.isDigit then number (scanNumber true p (c :: rest))
      else ({ token := .stray c, place := p, start, stop := p.next c }, rest)

def isJsonBlank (c : Char) : Bool :=
  c == ' ' || c == '\n' || c == '\t' || c == '\r'

/-- The lexemes of a text from a place on. A lexeme takes at least its first character, which the
bound on the rest makes plain.
-/
def lexemesFrom (p : Position) (s : List Char) : List Lexeme :=
  match s with
  | [] => [{ token := .finish, place := p, start := p, stop := p }]
  | c :: rest =>
      if isJsonBlank c then lexemesFrom (p.next c) rest
      else
        let (lexeme, after) := scanLexeme p c rest
        if after.length ≤ rest.length then
          match lexeme.token with
          | .faulty _ _ => [lexeme]
          | _ => lexeme :: lexemesFrom lexeme.stop after
        else [lexeme]
termination_by s.length

/-- The lexemes of a text. The last one is `finish` or the first fault. -/
def lexemes (text : String) : List Lexeme :=
  lexemesFrom .start text.toList

end Folio.Json
