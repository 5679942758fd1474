import Folio.Tree.Node

/-! The wire form of trees: JSON in which an element is an array that starts with a marker and names
what it is. A list that starts like such an array is escaped, so that reading can tell the two
apart.
-/

namespace Folio.Tree

/-- The first item of an element. -/
def elementMarker : String :=
  "$r"

/-- The first item of an escaped list. -/
def listMarker : String :=
  "$l"

def isMarker (s : String) : Bool :=
  s == elementMarker || s == listMarker

namespace Node

/-- Holds for lists that have to be escaped, because a marker stands first. -/
def startsWithMarker : List (Node κ) → Bool
  | string s :: _ => isMarker s
  | _ => false

mutual

/-- The wire form of a node. Elements are written under the name of their kind, and without the
properties that are `hidden`.
-/
def wire (name : κ → String) (hidden : String → Bool) : Node κ → Json.Value
  | null => .null
  | bool b => .bool b
  | number n => .number n
  | string s => .string s
  | list items =>
      let written := wireItems name hidden items
      .array (if startsWithMarker items then .string listMarker :: written else written)
  | map fields => .object (wireFields name hidden fields)
  | element kind key props =>
      .array
        [.string elementMarker, .string (name kind), (key.map Json.Value.string).getD .null,
          .object (wireProps name hidden props)]

def wireItems (name : κ → String) (hidden : String → Bool) : List (Node κ) → List Json.Value
  | [] => []
  | node :: rest => wire name hidden node :: wireItems name hidden rest

/-- The wire form of the fields of a map. -/
def wireFields (name : κ → String) (hidden : String → Bool)
    : List (String × Node κ) → List (String × Json.Value)
  | [] => []
  | (n, node) :: rest => (n, wire name hidden node) :: wireFields name hidden rest

/-- The wire form of the properties that are not hidden. -/
def wireProps (name : κ → String) (hidden : String → Bool)
    : List (String × Node κ) → List (String × Json.Value)
  | [] => []
  | (n, node) :: rest =>
      if hidden n then wireProps name hidden rest
      else (n, wire name hidden node) :: wireProps name hidden rest

end

end Node

end Folio.Tree
