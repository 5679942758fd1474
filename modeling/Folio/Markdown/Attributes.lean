import Folio.Markdown.Block

/-! Attribute blocks after headings, such as a name and classes in braces. -/

namespace Folio.Markdown

namespace HeadingAttributes

/-- Adds one word of an attribute block. A word of one character says nothing. -/
def addWord (a : HeadingAttributes) (word : List Char) : HeadingAttributes :=
  match word with
  | [] => a
  | [_] => a
  | '#' :: name => { a with id := some (String.ofList name) }
  | '.' :: name => { a with classes := a.classes ++ [String.ofList name] }
  | word =>
      let name := word.takeWhile (· != '=')
      let value :=
        match word.drop name.length with
        | '=' :: value => some (String.ofList value)
        | _ => none
      { a with attributes := a.attributes ++ [(String.ofList name, value)] }

/-- The attributes that the inside of an attribute block gives. -/
def ofInside (inside : List Char) : HeadingAttributes :=
  (Text.wordsBy Text.isAsciiBlank inside).foldl addWord {}

end HeadingAttributes

/-- Holds for the blanks that may follow an attribute block. -/
def endsHeading (c : Char) : Bool :=
  c == '\n' || c == '\r' || c == ' ' || c == '\t'

/-- Holds for the characters that may stand inside an attribute block. -/
def isInsideAttributes (c : Char) : Bool :=
  !(c == '\x7b' || c == '\x7d' || c == '<' || c == '>' || c == '\\' || c == '\n' || c == '\r')

/-- Cuts the attribute block off the end of a heading: the length of what stands before it, and the
attributes.
-/
def splitAttributes (heading : List Char) : Nat × Option HeadingAttributes :=
  match heading.reverse.dropWhile endsHeading with
  | '\x7d' :: before =>
      let inside := before.takeWhile isInsideAttributes
      match before.drop inside.length with
      | '\x7b' :: content => (content.length, some (.ofInside inside.reverse))
      | _ => (heading.length, none)
  | _ => (heading.length, none)

end Folio.Markdown
