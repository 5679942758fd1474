import Folio.Json.Decode
import Folio.Text.Utf8

/-! JSON texts as bytes. Bytes that write no character are faults: in a string when it ends, and
elsewhere like any character that does not fit.
-/

namespace Folio.Json

/-- The first character of bytes, and how many bytes write it. -/
def firstChar? (bytes : List UInt8) : Option (Char × Nat) :=
  [1, 2, 3, 4].findSome? fun count =>
    match (Text.ofUtf8? (bytes.take count)).map String.toList with
    | some [c] => some (c, count)
    | _ => none

/-- The characters of bytes, and the places of bytes that write none. A character of one byte that
is allowed in strings alone stands for such a byte.
-/
def readChars (place : Position) : (room : Nat) → List UInt8 → List Char × List Position
  | 0, _ | _, [] => ([], [])
  | room + 1, bytes =>
      match firstChar? bytes with
      | some (c, count) =>
          let (s, strays) := readChars (place.next c) room (bytes.drop count)
          (c :: s, strays)
      | none =>
          let (s, strays) := readChars (place.next '\x7f') room (bytes.drop 1)
          ('\x7f' :: s, place :: strays)

/-- Holds if a place comes before another one. -/
def Position.isBefore (p q : Position) : Bool :=
  p.line < q.line || (p.line == q.line && p.column < q.column)

/-- The lexeme, unless it is a string that holds one of some places. -/
def Lexeme.checkStrays (strays : List Position) (x : Lexeme) : Lexeme :=
  match x.token with
  | .string _ =>
      if strays.any fun p => !p.isBefore x.place && p.isBefore x.stop then
        { x with token := .faulty '"' (.at_ .invalidCodePoint x.stop) }
      else x
  | _ => x

def lexemesOf (bytes : List UInt8) : List Lexeme :=
  match Text.ofUtf8? bytes with
  | some text => lexemes text
  | none =>
      let (s, strays) := readChars .start bytes.length bytes
      (lexemes (String.ofList s)).map (Lexeme.checkStrays strays)

end Folio.Json
