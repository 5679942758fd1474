import Folio.Text.Digits
import Folio.Toml.Expression

/-! Reading what stands in quotes. In double quotes backslashes begin escapes; in triple quotes
there may be line ends, of which one at the start does not count.
-/

namespace Folio.Toml

namespace Piece

def faultAt (p : Piece) (start stop : Nat) (fault : Fault) : Error :=
  { fault, span := p.span.within start stop }

/-- The offset in a piece at which a rest of it begins. -/
def offsetOf (p : Piece) (rest : List Char) : Nat :=
  size p.content - size rest

def faultBefore (p : Piece) (rest : List Char) (fault : Fault) : Error :=
  p.faultAt (p.offsetOf rest) (p.offsetOf rest) fault

/-- What is left of a piece after some characters. -/
def drop (p : Piece) (count : Nat) : Piece :=
  { start := p.start + size (p.content.take count), content := p.content.drop count }

end Piece

/-- Holds for the characters that are not allowed in quotes. Line ends are looked at apart. -/
def isControl (c : Char) : Bool :=
  isForbiddenInComment c

/-- The quotes at both ends of a quoted text. -/
def Quoting.delimiter : Quoting → List Char
  | basic => ['"']
  | literal => ['\'']
  | multilineBasic => ['"', '"', '"']
  | multilineLiteral => ['\'', '\'', '\'']

/-- What stands between the quotes of a piece. -/
def Quoting.unquote (quoting : Quoting) (p : Piece) : Except Error Piece :=
  let delimiter := quoting.delimiter
  match Text.stripLead? delimiter p.content with
  | none => .error (p.faultAt 0 0 (.unclosedText quoting))
  | some inner =>
      match Text.stripLead? delimiter inner.reverse with
      | none => .error (p.faultBefore [] (.unclosedText quoting))
      | some content =>
          .ok { start := p.start + Piece.size delimiter, content := content.reverse }

/-- The number of characters of a line end at the start of a text. -/
def lineEndLength : List Char → Nat
  | '\n' :: _ => 1
  | '\r' :: '\n' :: _ => 2
  | _ => 0

/-- The number of characters of the first blanks and line ends of a text. -/
def spaceLength : List Char → Nat
  | '\r' :: '\n' :: rest => spaceLength rest + 2
  | c :: rest => if isBlankChar c || c == '\n' then spaceLength rest + 1 else 0
  | [] => 0

/-- The character that a letter after a backslash stands for. -/
def escapeOf? : Char → Option Char
  | 'b' => some '\x08'
  | 'e' => some '\x1b'
  | 'f' => some '\x0c'
  | 'n' => some '\n'
  | 'r' => some '\r'
  | 't' => some '\t'
  | '\\' => some '\\'
  | '"' => some '"'
  | _ => none

/-- The number of digits after a letter that begins the number of a character. -/
def escapeDigits? : Char → Option Nat
  | 'x' => some 2
  | 'u' => some 4
  | 'U' => some 8
  | _ => none

/-- The character of an escape whose backslash was read, and the number of its other characters. -/
def readEscape (p : Piece) (s : List Char) : Except Error (Char × Nat) :=
  match s with
  | [] => .error (p.faultBefore s .missingEscape)
  | letter :: rest =>
      match escapeOf? letter, escapeDigits? letter with
      | some c, _ => .ok (c, 1)
      | none, none => .error (p.faultBefore s .missingEscape)
      | none, some count =>
          let digits := (rest.take count).takeWhile fun c => (Text.hexValue? c).isSome
          let n := (Text.digitsNumber? 16 digits).getD 0
          if digits.length < count then
            .error (p.faultBefore (rest.drop digits.length) .fewEscapeDigits)
          else if n.isValidChar then .ok (Char.ofNat n, count + 1)
          else .error (p.faultBefore rest .escapeValue)

/-- A fault at the first characters of a rest that are not allowed. -/
def controlFault (p : Piece) (rest : List Char) (quoting : Quoting) : Error :=
  let after := rest.dropWhile fun c => isControl c && !(quoting == .multilineBasic && isLineEnd c)
  p.faultAt (p.offsetOf rest) (p.offsetOf after) (.textCharacter quoting)
where
  /-- Holds for the characters of line ends. -/
  isLineEnd (c : Char) : Bool :=
    c == '\r' || c == '\n'

/-- The text of a piece in simple double quotes, from a rest of it on. -/
def readBasic (p : Piece) : List Char → Except Error (List Char)
  | [] => .ok []
  | '\\' :: rest =>
      match readEscape p rest with
      | .error e => .error e
      | .ok (c, count) => (readBasic p (rest.drop count)).map (c :: ·)
  | c :: rest =>
      if isControl c then .error (controlFault p (c :: rest) .basic)
      else (readBasic p rest).map (c :: ·)
termination_by s => s.length
decreasing_by all_goals (simp only [List.length_drop, List.length_cons]; omega)

/-- The text of a piece in triple double quotes, from a rest of it on. A backslash before a line end
takes all blanks and line ends that follow away.
-/
def readMultilineBasic (p : Piece) : List Char → Except Error (List Char)
  | [] => .ok []
  | '\\' :: rest =>
      let blanks := (rest.takeWhile isBlankChar).length
      let after := rest.drop blanks
      match after with
      | '\r' :: next =>
          if next.head? == some '\n' then readMultilineBasic p (rest.drop (spaceLength rest))
          else .error (p.faultBefore next .loneCarriageReturn)
      | '\n' :: _ => readMultilineBasic p (rest.drop (spaceLength rest))
      | after =>
          if blanks > 0 then .error (p.faultBefore after .escapeBeforeText)
          else
            match readEscape p rest with
            | .error e => .error e
            | .ok (c, count) => (readMultilineBasic p (rest.drop count)).map (c :: ·)
  | '\r' :: rest =>
      if rest.head? == some '\n' then (readMultilineBasic p rest).map ('\r' :: ·)
      else .error (p.faultBefore rest .loneCarriageReturn)
  | c :: rest =>
      if isControl c && c != '\n' then .error (controlFault p (c :: rest) .multilineBasic)
      else (readMultilineBasic p rest).map (c :: ·)
termination_by s => s.length
decreasing_by all_goals (simp only [List.length_drop, List.length_cons]; omega)

/-- The text of a piece in single quotes, from a rest of it on. -/
def readLiteral (p : Piece) : List Char → Except Error (List Char)
  | [] => .ok []
  | c :: rest =>
      if isControl c then .error (p.faultBefore (c :: rest) (.textCharacter .literal))
      else (readLiteral p rest).map (c :: ·)

/-- The text of a piece in triple single quotes, from a rest of it on. -/
def readMultilineLiteral (p : Piece) : List Char → Except Error (List Char)
  | [] => .ok []
  | '\r' :: rest =>
      if rest.head? == some '\n' then (readMultilineLiteral p rest).map ('\r' :: ·)
      else .error (p.faultBefore rest .loneCarriageReturn)
  | c :: rest =>
      if isControl c && c != '\n' then
        .error (p.faultBefore (c :: rest) (.textCharacter .multilineLiteral))
      else (readMultilineLiteral p rest).map (c :: ·)

def Quoting.read (quoting : Quoting) (p : Piece) : Except Error String := do
  let inner ← quoting.unquote p
  let content ←
    match quoting with
    | .basic => readBasic inner inner.content
    | .literal => readLiteral inner inner.content
    | .multilineBasic =>
        let inner := inner.drop (lineEndLength inner.content)
        readMultilineBasic inner inner.content
    | .multilineLiteral =>
        let inner := inner.drop (lineEndLength inner.content)
        readMultilineLiteral inner inner.content
  return String.ofList content

end Folio.Toml
