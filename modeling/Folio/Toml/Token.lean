import Folio.Toml.Error

/-! The tokens of a TOML text. They cover the text without a gap: each knows where it begins and
which characters it holds. What stands between quotes is not yet read, and what stands without
quotes is cut only at blanks and punctuation.
-/

namespace Folio.Toml

/-- A piece of a text and the offset in bytes at which it begins. -/
structure Piece where
  start : Nat
  content : List Char
deriving DecidableEq, Inhabited

namespace Piece

/-- The number of bytes of some characters. -/
def size (s : List Char) : Nat :=
  s.foldl (fun n c => n + c.utf8Size) 0

/-- The offset at which a piece ends. -/
def stop (p : Piece) : Nat :=
  p.start + size p.content

/-- The stretch of a text that a piece covers. -/
def span (p : Piece) : Span :=
  { start := p.start, stop := p.stop }

/-- A piece without characters. -/
def emptyAt (offset : Nat) : Piece :=
  { start := offset, content := [] }

/-- A piece with another one right after it. -/
def append (p q : Piece) : Piece :=
  { p with content := p.content ++ q.content }

end Piece

/-- What a token is. -/
inductive TokenKind where
  | dot
  | equals
  | comma
  | openBracket
  | closeBracket
  | openBrace
  | closeBrace
  | blank
  | comment
  | newline
  | quoted (quoting : Quoting)
  | atom
  | finish
deriving DecidableEq, Inhabited

/-- A token and its place. -/
structure Token where
  kind : TokenKind
  piece : Piece
deriving DecidableEq, Inhabited

/-- The kind of the tokens that are a single character. -/
def TokenKind.ofPunctuation? : Char → Option TokenKind
  | '.' => some dot
  | '=' => some equals
  | ',' => some comma
  | '[' => some openBracket
  | ']' => some closeBracket
  | '\x7b' => some openBrace
  | '\x7d' => some closeBrace
  | _ => none

def isBlankChar (c : Char) : Bool :=
  c == ' ' || c == '\t'

/-- Holds for the characters of what stands without quotes. -/
def isAtomChar (c : Char) : Bool :=
  !isBlankChar c && c != '#' && c != '\r' && c != '\n' && (TokenKind.ofPunctuation? c).isNone

/-- The length of what stands in simple quotes, after the opening one: through the closing one, or
to the end of the line. Where there are escapes, an escaped quote closes nothing.
-/
def quotedLength (quote : Char) (escapes : Bool) : List Char → Nat
  | [] => 0
  | '\n' :: _ => 0
  | '\\' :: c :: rest =>
      if escapes && (c == '\\' || c == quote) then quotedLength quote escapes rest + 2
      else quotedLength quote escapes (c :: rest) + 1
  | c :: rest => if c == quote then 1 else quotedLength quote escapes rest + 1

/-- The length of what stands in triple quotes, after the opening ones: through the closing ones, or
to the end of the text. Up to two quotes before the closing ones belong to the content.
-/
def multilineLength (quote : Char) (escapes : Bool) : List Char → Nat
  | [] => 0
  | '\\' :: c :: rest =>
      if escapes && (c == '\\' || c == quote) then multilineLength quote escapes rest + 2
      else multilineLength quote escapes (c :: rest) + 1
  | c :: rest =>
      if Text.startsWith [quote, quote, quote] (c :: rest) then
        3 + (((rest.drop 2).take 2).takeWhile (· == quote)).length
      else multilineLength quote escapes rest + 1

/-- The kind of the first token of a text that is not empty, and its length. A text is never cut
between the two characters of a line end.
-/
def tokenAt (c : Char) (rest : List Char) : TokenKind × Nat :=
  match TokenKind.ofPunctuation? c, c, rest with
  | some kind, _, _ => (kind, 1)
  | none, '\n', _ => (.newline, 1)
  | none, '\r', '\n' :: _ => (.newline, 2)
  | none, '\r', _ => (.newline, 1)
  | none, '#', rest => (.comment, 1 + (rest.takeWhile fun c => c != '\r' && c != '\n').length)
  | none, '\'', '\'' :: '\'' :: rest =>
      (.quoted .multilineLiteral, 3 + multilineLength '\'' false rest)
  | none, '\'', rest => (.quoted .literal, 1 + quotedLength '\'' false rest)
  | none, '"', '"' :: '"' :: rest => (.quoted .multilineBasic, 3 + multilineLength '"' true rest)
  | none, '"', rest => (.quoted .basic, 1 + quotedLength '"' true rest)
  | none, c, rest =>
      if isBlankChar c then (.blank, 1 + (rest.takeWhile isBlankChar).length)
      else (.atom, 1 + (rest.takeWhile isAtomChar).length)

/-- The tokens of a text that begins at an offset. -/
def tokensFrom (offset : Nat) : List Char → List Token
  | [] => [{ kind := .finish, piece := .emptyAt offset }]
  | c :: rest =>
      let (kind, length) := tokenAt c rest
      let piece := { start := offset, content := c :: rest.take (length - 1) }
      { kind, piece } :: tokensFrom piece.stop (rest.drop (length - 1))
termination_by s => s.length
decreasing_by simp only [List.length_drop, List.length_cons]; omega

/-- The tokens of a text. A byte order mark at its start is none of them. -/
def tokens (text : String) : List Token :=
  match text.toList with
  | '\uFEFF' :: rest => tokensFrom 3 rest
  | s => tokensFrom 0 s

end Folio.Toml
