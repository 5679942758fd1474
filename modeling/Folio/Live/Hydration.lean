import Folio.Document.Name
import Folio.Json.Reader
import Folio.Live.Element
import Folio.Text.Lowercase

/-! Reading live trees from their wire form, and writing them. Names are resolved by a registry; an
element with an unknown name is kept as a fragment of its children, and a warning is given.
-/

namespace Folio.Live

/-- What is wrong with an array that is marked as an element. -/
inductive ElementFault where
  | length
  | identifier
  | key
  | props
deriving DecidableEq, Inhabited

/-- Why a live tree cannot be read. -/
inductive HydrationError where
  | json (error : Json.Error)
  | malformed (fault : ElementFault)
deriving DecidableEq, Inhabited

def ElementFault.message : ElementFault → String
  | length => "expected 4 items"
  | identifier => "identifier must be a string"
  | key => "key must be a string or null"
  | props => "props must be an object"

def HydrationError.message : HydrationError → String
  | json error => "Invalid JSON: " ++ error.message
  | malformed fault => "Malformed element: " ++ fault.message

/-- The text of the warning that a name is unknown. -/
def warningText (name : String) : String :=
  "unknown component " ++ name ++ ": rendering its children only"

/-- How the name of an element is resolved. -/
inductive Resolution (ι : Type) where
  /-- The element is of this kind and keeps its properties. -/
  | kept (kind : Kind ι)
  /-- The element is a group. -/
  | group
  | unknown
deriving DecidableEq, Inhabited

/-- Resolves a name. The name of groups cannot be registered, and registered names may hide
tags.
-/
def resolve (registry : Registry ι) (name : String) : Resolution ι :=
  if name == Document.groupName then .group
  else
    match registry.get? name with
    | some implementation => .kept (.component name implementation)
    | none => if name.toList.head?.any Text.isLowercase then .kept (.intrinsic name) else .unknown

/-- The key that an item of an element array gives. -/
def elementKey? : Json.Value → Option (Option String)
  | .null => some none
  | .string key => some (some key)
  | _ => none

/-- What is wrong with an element array, given without its marker, that names no element or whose
properties are no object.
-/
def elementFault : List Json.Value → ElementFault
  | [.string _, key, _] => if (elementKey? key).isSome then .props else .key
  | [_, _, _] => .identifier
  | _ => .length

/-- A node, nodes or fields with the names that could not be resolved. -/
abbrev Revived (α : Type) :=
  α × List String

mutual

def revive (registry : Registry ι) : Json.Value → Except ElementFault (Revived (Node ι))
  | .null => .ok (.null, [])
  | .bool b => .ok (.bool b, [])
  | .number n => .ok (.number n, [])
  | .string s => .ok (.string s, [])
  | .object fields => do
      let (fields, warnings) ← reviveFields registry fields
      return (.map fields, warnings)
  | .array (.string marker :: rest) =>
      if marker == Tree.elementMarker then reviveElement registry rest
      else do
        let (items, warnings) ← reviveItems registry rest
        let items := if marker == Tree.listMarker then items else .string marker :: items
        return (.list items, warnings)
  | .array items => do
      let (items, warnings) ← reviveItems registry items
      return (.list items, warnings)

/-- The nodes of wire values. -/
def reviveItems (registry : Registry ι)
    : List Json.Value → Except ElementFault (Revived (List (Node ι)))
  | [] => .ok ([], [])
  | v :: rest => do
      let (node, warnings) ← revive registry v
      let (nodes, more) ← reviveItems registry rest
      return (node :: nodes, warnings ++ more)

def reviveFields (registry : Registry ι)
    : List (String × Json.Value) → Except ElementFault (Revived (List (String × Node ι)))
  | [] => .ok ([], [])
  | (name, v) :: rest => do
      let (node, warnings) ← revive registry v
      let (fields, more) ← reviveFields registry rest
      return ((name, node) :: fields, warnings ++ more)

/-- The children among wire properties, as the only property. -/
def reviveChildren (registry : Registry ι)
    : List (String × Json.Value) → Except ElementFault (Revived (List (String × Node ι)))
  | [] => .ok ([], [])
  | (name, v) :: rest =>
      if name = Tree.childrenProp then do
        let (node, warnings) ← revive registry v
        return ([(name, node)], warnings)
      else reviveChildren registry rest

/-- The element of an element array, given without its marker. -/
def reviveElement (registry : Registry ι)
    : List Json.Value → Except ElementFault (Revived (Node ι))
  | [.string name, key, .object fields] =>
      match elementKey? key with
      | none => .error .key
      | some key =>
          match resolve registry name with
          | .kept kind => do
              let (props, warnings) ← reviveFields registry fields
              return (.element kind key props, warnings)
          | .group => do
              let (props, warnings) ← reviveChildren registry fields
              return (.element .fragment key props, warnings)
          | .unknown => do
              let (props, warnings) ← reviveChildren registry fields
              return (.element .fragment key props, name :: warnings)
  | items => .error (elementFault items)

end

/-- The live tree of a wire value, and the names that could not be resolved. -/
def fromWire (registry : Registry ι) (v : Json.Value)
    : Except HydrationError (Node ι × List String) :=
  (revive registry v).mapError .malformed

/-- Reads a live tree. -/
def read (registry : Registry ι) (text : String)
    : Except HydrationError (Node ι × List String) := do
  fromWire registry (← (Json.parse text).mapError .json)

/-- The name under which a kind is written. -/
def Kind.identifier : Kind ι → String
  | fragment => Document.groupName
  | intrinsic tag => tag
  | component name _ => name

/-- The wire form of a live tree. -/
def wire (node : Node ι) : Json.Value :=
  Tree.Node.wire Kind.identifier (fun _ => false) node

end Folio.Live
