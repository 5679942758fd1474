import Folio.Document.Name
import Folio.Tree.Wire

/-! Trees as units build them: their elements are tags, components by name, and groups. -/

namespace Folio.Tree

/-- What an element of a built tree is. -/
inductive Kind where
  /-- A tag of markup. -/
  | tag (name : String)
  /-- A component, which the reader of the tree resolves. -/
  | component (name : String)
  /-- A container that only contributes its children. -/
  | grouping
deriving DecidableEq, Inhabited

/-- The name under which a kind is written. -/
def Kind.identifier : Kind → String
  | tag name => name
  | component name => name
  | grouping => Document.groupName

/-- A tree as a unit builds it. -/
abbrev Built :=
  Node Kind

namespace Built

/-- The wire form of a built tree. -/
def wire (node : Built) : Json.Value :=
  Node.wire Kind.identifier internalProps.contains node

mutual

/-- The text of a node: strings, numbers, and the text of the children of elements. -/
def text : Built → String
  | .string s => s
  | .number n => String.ofList n.text
  | .list items => textOf items
  | .element _ _ props => childrenText props
  | .null | .bool _ | .map _ => ""

def textOf : List Built → String
  | [] => ""
  | node :: rest => text node ++ textOf rest

/-- The text of the children among properties. -/
def childrenText : List (String × Built) → String
  | [] => ""
  | (name, node) :: rest => if name = childrenProp then text node else childrenText rest

end

mutual

/-- The identifiers of the elements of a tree, children before the element that holds them: the
order in which a unit builds them.
-/
def identifiers : Built → List String
  | .element kind _ props => childIdentifiers props ++ [kind.identifier]
  | .list items => identifiersOf items
  | _ => []

/-- The identifiers of the elements of nodes. -/
def identifiersOf : List Built → List String
  | [] => []
  | node :: rest => identifiers node ++ identifiersOf rest

/-- The identifiers of the elements among the children. -/
def childIdentifiers : List (String × Built) → List String
  | [] => []
  | (name, node) :: rest => if name = childrenProp then identifiers node else childIdentifiers rest

end

end Built

end Folio.Tree
