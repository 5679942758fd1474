/-! What is known of HTML: tags that have no end, text as it is written, and names in kebab case. -/

namespace Folio.Html

/-- Tags that have no children and no closing tag. -/
def voidTags : List String :=
  ["area", "base", "br", "col", "embed", "hr", "img", "input", "link", "meta", "source", "track",
    "wbr"]

/-- A character as it is written, in text as well as in quotes. -/
def escapeChar : Char → List Char
  | '&' => "&amp;".toList
  | '<' => "&lt;".toList
  | '>' => "&gt;".toList
  | '"' => "&quot;".toList
  | '\'' => "&#x27;".toList
  | c => [c]

/-- A text as it is written. -/
def escape (s : List Char) : List Char :=
  s.flatMap escapeChar

/-- A capital letter in lower case, with a dash before it; all else stays. -/
def dashedLower (c : Char) : List Char :=
  if c.isUpper then ['-', c.toLower] else [c]

/-- A name in camel case as a name in kebab case: a dash goes before each capital letter but the
first character.
-/
def kebabCase : List Char → List Char
  | [] => []
  | c :: rest => c.toLower :: rest.flatMap dashedLower

/-- The CSS property of a key in camel case. A capital letter that comes first marks a property of a
vendor, which starts with a dash.
-/
def cssProperty (key : List Char) : List Char :=
  if key.head?.any Char.isUpper then '-' :: kebabCase key else kebabCase key

end Folio.Html
