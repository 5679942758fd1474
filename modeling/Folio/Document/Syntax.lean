import Folio.Json.Value

/-! The syntax tree of a document: text, and elements with attributes and children. -/

namespace Folio.Document

/-- What an element is: a tag of markup, or a component that was declared. -/
inductive Kind where
  | tag (name : String)
  | component (name : String)
deriving DecidableEq, Inhabited

/-- The name of an element as it is written. -/
def Kind.name : Kind → String
  | tag name => name
  | component name => name

/-- Attributes in the order of their names. -/
abbrev Attributes :=
  Json.Fields Json.Value

/-- A node of the syntax tree. -/
inductive Node where
  | text (text : String)
  | element (kind : Kind) (key : Option String) (attributes : List (String × Json.Value))
      (children : List Node)
deriving Inhabited

namespace Node

/-- Puts a node before others, one text with a text that they start with. The lists of the builder
hold nodes last first, so that this adds the next node.
-/
def addTo (node : Node) (before : List Node) : List Node :=
  match node, before with
  | text t, text s :: rest => text (s ++ t) :: rest
  | node, before => node :: before

mutual

/-- The text of all descendants. -/
def content : Node → String
  | text t => t
  | element _ _ _ children => listContent children

/-- The text of all descendants of nodes. -/
def listContent : List Node → String
  | [] => ""
  | node :: rest => node.content ++ listContent rest

end

end Node

/-- An element, taken out of its tree. -/
structure Element where
  kind : Kind
  key : Option String
  attributes : Attributes
  children : List Node
deriving Inhabited

mutual

/-- The elements of a tree in document order: an element comes before those inside it. -/
def Node.elements : Node → List Element
  | .text _ => []
  | .element kind key attributes children =>
      { kind, key, attributes, children } :: Node.listElements children

/-- The elements of trees in document order. -/
def Node.listElements : List Node → List Element
  | [] => []
  | node :: rest => Node.elements node ++ Node.listElements rest

end

def Kind.headingLevel? : Kind → Option Nat
  | tag "h1" => some 1
  | tag "h2" => some 2
  | tag "h3" => some 3
  | tag "h4" => some 4
  | tag "h5" => some 5
  | tag "h6" => some 6
  | _ => none

end Folio.Document
