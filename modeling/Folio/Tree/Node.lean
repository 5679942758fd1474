import Folio.Json.Printer

/-! Trees of values in which elements stand. What an element may be is a parameter: a tree that a
unit builds names its components, and a live tree has their implementations.
-/

namespace Folio.Tree

/-- A value of a tree, with elements of the kinds `κ`. -/
inductive Node (κ : Type) where
  | null
  | bool (value : Bool)
  | number (value : Json.Number)
  | string (value : String)
  | list (items : List (Node κ))
  | map (fields : List (String × Node κ))
  | element (kind : κ) (key : Option String) (props : List (String × Node κ))
deriving Inhabited

/-- Properties in the order of their names. -/
abbrev Props (κ : Type) :=
  Json.Fields (Node κ)

/-- The name of the property that holds the children of an element. -/
def childrenProp : String :=
  "children"

/-- The properties in which the building of a tree keeps notes. They are not written. -/
def internalProps : List String :=
  ["debugType", "originalType", "parentName"]

namespace Node

def asString? : Node κ → Option String
  | string s => some s
  | _ => none

mutual

/-- A JSON value as a node. It has no elements. -/
def ofJson : Json.Value → Node κ
  | .null => null
  | .bool b => bool b
  | .number n => number n
  | .string s => string s
  | .array items => list (ofItems items)
  | .object fields => map (ofFields fields)

def ofItems : List Json.Value → List (Node κ)
  | [] => []
  | v :: rest => ofJson v :: ofItems rest

def ofFields : List (String × Json.Value) → List (String × Node κ)
  | [] => []
  | (name, v) :: rest => (name, ofJson v) :: ofFields rest

end

/-- A node as a list of children: the items of a list, and one child otherwise. -/
def asChildren : Node κ → List (Node κ)
  | list items => items
  | node => [node]

mutual

/-- Equality by value. A zero equals a zero of the other sign. -/
def same [BEq κ] : Node κ → Node κ → Bool
  | null, null => true
  | bool a, bool b => a == b
  | number a, number b => a.same b
  | string a, string b => a == b
  | list as, list bs => sameItems as bs
  | map as, map bs => sameFields as bs
  | element kind key props, element kind' key' props' =>
      kind == kind' && key == key' && sameFields props props'
  | _, _ => false

/-- Equality of items by value. -/
def sameItems [BEq κ] : List (Node κ) → List (Node κ) → Bool
  | [], [] => true
  | a :: as, b :: bs => same a b && sameItems as bs
  | _, _ => false

/-- Equality of fields by value. -/
def sameFields [BEq κ] : List (String × Node κ) → List (String × Node κ) → Bool
  | [], [] => true
  | (n, a) :: as, (m, b) :: bs => n == m && same a b && sameFields as bs
  | _, _ => false

end

end Node

namespace Props

/-- The children among properties, however they are stored. -/
def children (props : Props κ) : List (Node κ) :=
  ((props.get? childrenProp).map Node.asChildren).getD []

/-- Properties with other children. One child stands alone, and without children there is no such
property.
-/
def withChildren (props : Props κ) : (children : List (Node κ)) → Props κ
  | [] => props.erase childrenProp
  | [child] => props.insert childrenProp child
  | children => props.insert childrenProp (.list children)

def string? (props : Props κ) (name : String) : Option String :=
  (props.get? name).bind Node.asString?

end Props

end Folio.Tree
