import Folio.Document.Error
import Folio.Document.Markup

/-! What comes before the Markdown of a body: lines of imports, of which the first ones make the
declared names known, and tags that go over several lines, which are joined into one.
-/

namespace Folio.Document

/-- The name that a line imports, if it is an import:
`import Name from "address";` with blanks between the parts.
-/
def importedName? (line : List Char) : Option (List Char) := do
  let rest ← Text.stripLead? "import".toList line
  let rest ← blanks1 rest
  let name := rest.takeWhile isNameChar
  if !name.head?.any isNameStart then none
  let rest ← blanks1 (rest.drop name.length)
  let rest ← Text.stripLead? "from".toList rest
  let rest ← blanks1 rest
  let rest ← Text.stripLead? ['"'] rest
  let address := rest.takeWhile (· != '"')
  let rest ← Text.stripLead? ['"'] (rest.drop address.length)
  let rest := Text.trimStart rest
  let rest := if rest.head? == some ';' then rest.drop 1 else rest
  if Text.isAllBlank rest then some name else none
where
  /-- The text after at least one blank. -/
  blanks1 (s : List Char) : Option (List Char) :=
    if s.head?.any Text.isBlank then some (Text.trimStart s) else none

/-- The line that makes a name known: it imports the name from an address of the same name. -/
def importLine (name : String) : String :=
  "import " ++ name ++ " from \"" ++ name ++ "\";\n"

/-- A body after the prelude that makes names known: their imports and an empty line. -/
def withPrelude (names : List String) (body : List Char) : List Char :=
  names.flatMap (fun name => (importLine name).toList) ++ '\n' :: body

/-- Reads the blank lines and imports that a text starts with: the names that are imported, in
order, and where the rest of the text starts. `bound` holds the names of the lines before, of which
there are `index` with `base` characters. Only the lines of the prelude may import new names.
-/
def readImports (prelude : Nat) (bound : List String) (index base : Nat)
    : List (List Char) → Except CompileError (List String × Nat)
  | [] => .ok (bound, base)
  | line :: rest =>
      let trimmed := Text.trim line
      if trimmed.isEmpty then readImports prelude bound (index + 1) (base + line.length) rest
      else
        match importedName? trimmed with
        | none => .ok (bound, base)
        | some name =>
            let name := String.ofList name
            if bound.contains name then
              readImports prelude bound (index + 1) (base + line.length) rest
            else if index < prelude then
              readImports prelude (bound ++ [name]) (index + 1) (base + line.length) rest
            else .error (.unresolvedImport name (index - prelude + 1))

/-- The length of the opening tag at the start of a text, if it ends on a later line and no line of
it is blank.
-/
def manyLineTag? (s : List Char) : Option Nat :=
  match s with
  | [] => none
  | _ :: after =>
      match Markup.findTagEnd? after with
      | none => none
      | some stop =>
          let tag := s.take (stop + 2)
          if !tag.contains '\n' then none
          else if ((Text.lines tag).drop 1).any Text.isAllBlank then none
          else some (stop + 2)

/-- How many blanks a line starts with. -/
def indentOf (line : List Char) : Nat :=
  (line.takeWhile (· == ' ')).length

/-- Holds if `<` and a letter start a text. -/
def startsTag (s : List Char) : Bool :=
  match s with
  | '<' :: c :: _ => c.isAlpha
  | _ => false

/-- A text with its line ends made blanks. -/
def flatten (s : List Char) : List Char :=
  s.map fun c => if c == '\n' || c == '\r' then ' ' else c

/-- The marker of a fence that a line starts with. -/
def fenceMarker? (content : List Char) : Option (List Char) :=
  let marker := content.take 3
  if marker == ['`', '`', '`'] || marker == ['~', '~', '~'] then some marker else none

/-- Joins opening tags that start a line and go over several lines. `fence` is the marker of the
fenced code that the text is in.
-/
def joinTagsFrom (fence : Option (List Char)) (s : List Char) : List Char :=
  match s with
  | [] => []
  | c :: rest =>
      let line := (Text.firstLine (c :: rest)).1
      let next := (Text.firstLine (c :: rest)).2
      have := Text.length_firstLine_lt c rest
      let indent := indentOf line
      let content := Text.trimEnd (line.drop indent)
      match fence with
      | some marker =>
          let closed := indent < 4 && Text.startsWith marker content
          line ++ joinTagsFrom (if closed then none else some marker) next
      | none =>
          let marker? := if indent < 4 then fenceMarker? content else none
          if marker?.isSome then line ++ joinTagsFrom marker? next
          else
            let tag? :=
              if indent < 4 && startsTag content then manyLineTag? ((c :: rest).drop indent)
              else none
            match tag? with
            | none => line ++ joinTagsFrom none next
            | some length =>
                let stop := indent + max length 1
                let tail := Text.firstLine ((c :: rest).drop stop)
                flatten ((c :: rest).take stop) ++ tail.1 ++ joinTagsFrom none tail.2
termination_by s.length
decreasing_by
  all_goals try simpa using this
  refine Nat.lt_of_le_of_lt (Text.length_firstLine_le _) ?_
  simp only [List.length_drop, List.length_cons]
  omega

/-- A body whose tags that start a line stand on one line each. No character moves. -/
def joinTags (body : List Char) : List Char :=
  joinTagsFrom none body

end Folio.Document
