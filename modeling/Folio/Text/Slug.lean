import Folio.Text.Blank

/-! Slugs: the form of a text that can stand in an address. -/

namespace Folio.Text

/-- Holds for the characters that a slug keeps: ASCII letters and digits. -/
def isSlugWord (c : Char) : Bool :=
  c.isAlphanum

/-- Holds for the characters that separate the words of a slug. -/
def isSlugBreak (c : Char) : Bool :=
  isBlank c || c == '-' || c == '_'

/-- The slug of the text from a place on. `started` tells that a word stands before that place,
and `pending` that a break stands between the last word and that place.
-/
def slugFrom (started pending : Bool) : List Char → List Char
  | [] => []
  | c :: rest =>
      if isSlugWord c then
        if started && pending then '-' :: c.toLower :: slugFrom true false rest
        else c.toLower :: slugFrom true false rest
      else slugFrom started (pending || isSlugBreak c) rest

/-- The words of a text in lower case with single dashes between them: ASCII letters and digits
are kept, blanks, dashes and underscores separate words, and all else is dropped.
-/
def slug (text : String) : String :=
  String.ofList (slugFrom false false text.toList)

end Folio.Text
