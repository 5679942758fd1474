import Folio.Markdown.ReferenceTable
import Folio.Text.Punctuation

/-! Character references and backslash escapes. -/

namespace Folio.Markdown

def digitValue? (base : Nat) (c : Char) : Option Nat :=
  let n :=
    if c.isDigit then c.toNat - 48
    else if 'a' ≤ c && c ≤ 'f' then c.toNat - 87
    else if 'A' ≤ c && c ≤ 'F' then c.toNat - 55
    else base
  if n < base then some n else none

/-- The number that at most `limit` leading digits spell, and how many digits there were. -/
def leadingNumber (base limit : Nat) (s : List Char) : Nat × Nat :=
  let digits := (s.take limit).takeWhile fun c => (digitValue? base c).isSome
  (digits.foldl (fun n c => n * base + (digitValue? base c).getD 0) 0, digits.length)

/-- The character with a code point; zero and what is no code point give the replacement
character.
-/
def charOfCode (n : Nat) : Char :=
  if n == 0 || n > 0x10ffff || (0xd800 ≤ n && n ≤ 0xdfff) then '\ufffd' else Char.ofNat n

/-- The length and the text of the character reference after an ampersand. -/
def referenceAfterAmp? (s : List Char) : Option (Nat × List Char) :=
  match s with
  | '#' :: rest =>
      let (skipped, n, count) :=
        match rest with
        | 'x' :: digits => let (n, count) := leadingNumber 16 6 digits; (2, n, count)
        | 'X' :: digits => let (n, count) := leadingNumber 16 6 digits; (2, n, count)
        | digits => let (n, count) := leadingNumber 10 7 digits; (1, n, count)
      let length := skipped + count
      if count == 0 || (s.drop length).head? != some ';' then none
      else some (length + 1, [charOfCode n])
  | s =>
      let name := s.takeWhile Char.isAlphanum
      if (s.drop name.length).head? != some ';' then none
      else (namedReference? (String.ofList name)).map fun text => (name.length + 1, text)

/-- The length and the text of the character reference at the start of a text. -/
def reference? : List Char → Option (Nat × List Char)
  | '&' :: rest => (referenceAfterAmp? rest).map fun (n, text) => (n + 1, text)
  | _ => none

/-- A text without its backslash escapes, references and carriage returns. In a table a pipe is
escaped once more.
-/
def unescape (inTable : Bool) (s : List Char) : List Char :=
  match s with
  | [] => []
  | '\\' :: '\\' :: '|' :: rest =>
      if inTable then '|' :: unescape inTable rest else '\\' :: unescape inTable ('|' :: rest)
  | '\\' :: c :: rest =>
      if Text.isAsciiPunctuation c then c :: unescape inTable rest
      else '\\' :: unescape inTable (c :: rest)
  | '&' :: rest =>
      match referenceAfterAmp? rest with
      | some (n, text) => text ++ unescape inTable (rest.drop n)
      | none => '&' :: unescape inTable rest
  | '\r' :: rest => unescape inTable rest
  | c :: rest => c :: unescape inTable rest
termination_by s.length
decreasing_by all_goals (simp only [List.length_drop, List.length_cons]; omega)

end Folio.Markdown
