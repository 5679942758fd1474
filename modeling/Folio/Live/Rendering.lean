import Folio.Html
import Folio.Live.Element
import Folio.Text.Lines

/-! Live trees as HTML. Fragments are their children, tags are written, and components are drawn by
their implementation. Maps and truth values are nothing.
-/

namespace Folio.Live

/-- How implementations of components draw an element: from its properties, and from its children,
which are HTML.
-/
abbrev Drawing (ι : Type) :=
  ι → Tree.Props (Kind ι) → (children : List Char) → List Char

/-- The name under which a property is written. -/
def attributeName (name : String) : String :=
  match name with
  | "className" => "class"
  | "htmlFor" => "for"
  | name => name

/-- A text or a number as the value of an attribute. -/
def plainValue? : Node ι → Option (List Char)
  | .string s => some s.toList
  | .number n => some n.text
  | _ => none

/-- The declarations of a style, with semicolons between them. -/
def styleText (fields : List (String × Node ι)) : List Char :=
  Text.joinWith [';'] (fields.filterMap fun (key, node) =>
    (plainValue? node).map fun value => Html.cssProperty key.toList ++ ':' :: value)

def valuedAttribute (name : String) (value : List Char) : List Char :=
  ' ' :: name.toList ++ '=' :: '"' :: Html.escape value ++ ['"']

/-- A property as an attribute. A flag that is set has no value, and only a style may be a map. -/
def propAttribute (name : String) (node : Node ι) : List Char :=
  let name := attributeName name
  match node with
  | .bool true => ' ' :: name.toList
  | .string s => valuedAttribute name s.toList
  | .number n => valuedAttribute name n.text
  | .map fields => if name == "style" then valuedAttribute name (styleText fields) else []
  | .null | .bool false | .list _ | .element _ _ _ => []

def propAttributes (props : List (String × Node ι)) : List Char :=
  props.flatMap fun (name, node) =>
    if name == Tree.childrenProp then [] else propAttribute name node

/-- A tag with its attributes and what stands in it. -/
def tagHtml (tag : String) (attributes inside : List Char) : List Char :=
  let opening := '<' :: tag.toList ++ attributes ++ ['>']
  if Html.voidTags.contains tag then opening
  else opening ++ inside ++ '<' :: '/' :: tag.toList ++ ['>']

mutual

def html (draw : Drawing ι) : Node ι → List Char
  | .number n => n.text
  | .string s => Html.escape s.toList
  | .list items => htmlOf draw items
  | .element .fragment _ props => childrenHtml draw props
  | .element (.intrinsic tag) _ props =>
      tagHtml tag (propAttributes props) (childrenHtml draw props)
  | .element (.component _ implementation) _ props =>
      draw implementation props (childrenHtml draw props)
  | .null | .bool _ | .map _ => []

def htmlOf (draw : Drawing ι) : List (Node ι) → List Char
  | [] => []
  | node :: rest => html draw node ++ htmlOf draw rest

/-- The HTML of the children among properties. -/
def childrenHtml (draw : Drawing ι) : List (String × Node ι) → List Char
  | [] => []
  | (name, node) :: rest =>
      if name = Tree.childrenProp then html draw node else childrenHtml draw rest

end

end Folio.Live
