import Folio.Text.Lines

/-! Splitting a document into its frontmatter and its body. The frontmatter stands between a first
line of three dashes and the next line of three dashes. A document that does not begin so, or in
which no such line follows, is all body.
-/

namespace Folio.Content

/-- Three dashes. -/
def fence : List Char :=
  ['-', '-', '-']

/-- A document in two parts. -/
structure Split where
  frontmatter : Option (List Char)
  body : List Char
deriving DecidableEq, Inhabited

/-- Holds for lines that are a fence, however they end. -/
def isFence (line : List Char) : Bool :=
  Text.dropEndWhile (fun c => c == '\r' || c == '\n') line == fence

/-- The text of the lines before the first fence and of those after it. -/
def splitAtFence? : List (List Char) → Option (List Char × List Char)
  | [] => none
  | line :: rest =>
      if isFence line then some ([], rest.flatten)
      else (splitAtFence? rest).map fun (before, after) => (line ++ before, after)

/-- What follows a first line that is a fence. -/
def afterOpening? (text : List Char) : Option (List Char) :=
  match Text.stripLead? fence text with
  | some ('\n' :: rest) => some rest
  | some ('\r' :: '\n' :: rest) => some rest
  | _ => none

/-- A text less the mark at its start that tells the order of its bytes. -/
def dropByteOrderMark : List Char → List Char
  | '\ufeff' :: rest => rest
  | text => text

def split (document : List Char) : Split :=
  let text := dropByteOrderMark document
  match (afterOpening? text).bind fun rest => splitAtFence? (Text.linesWithEnds rest) with
  | some (frontmatter, body) => { frontmatter := some frontmatter, body }
  | none => { frontmatter := none, body := text }

end Folio.Content
