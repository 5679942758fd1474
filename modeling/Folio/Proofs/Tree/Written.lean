import Folio.Proofs.Tree.Bare
import Folio.Proofs.Tree.Elements

/-! What is found in the wire form of a built tree: every element that a unit builds for it, and its
properties under their names. JSON values are written as literals, so that no value is taken for an
element.
-/

namespace Folio.Tree

-----------------------------------------------------------------------------------------
-- Literals
-----------------------------------------------------------------------------------------

mutual

/-- The wire form of a JSON value that is no element, whatever it looks like: the value as it is,
save that arrays are escaped that begin like an element or like an array that was escaped.
-/
def literal : Json.Value → Json.Value
  | .array (.string s :: rest) =>
      if isMarker s then .array (.string listMarker :: .string s :: literalItems rest)
      else .array (.string s :: literalItems rest)
  | .array items => .array (literalItems items)
  | .object fields => .object (literalFields fields)
  | v => v

def literalItems : List Json.Value → List Json.Value
  | [] => []
  | v :: rest => literal v :: literalItems rest

def literalFields : List (String × Json.Value) → List (String × Json.Value)
  | [] => []
  | (name, v) :: rest => (name, literal v) :: literalFields rest

end

namespace Node

variable {κ : Type} (name : κ → String) (hidden : String → Bool)

mutual

/-- A JSON value is written as a literal, by induction on the value. -/
theorem wire_ofJson (v : Json.Value) : (ofJson v).wire name hidden = literal v := by
  match v with
  | .null | .bool _ | .number _ | .string _ => rfl
  | .object fields => rw [ofJson, wire, wireFields_ofFields fields, literal]
  | .array [] => rfl
  | .array (.string s :: rest) =>
      rw [ofJson, wire, ofItems, ofJson, wireItems, wireItems_ofItems rest, wire, literal,
        startsWithMarker, apply_ite Json.Value.array]
  | .array (.null :: rest) | .array (.bool _ :: rest) | .array (.number _ :: rest)
  | .array (.array _ :: rest) | .array (.object _ :: rest) =>
      rw [ofJson, wire, wireItems_ofItems (_ :: rest)]
      rfl

theorem wireItems_ofItems (items : List Json.Value)
    : wireItems name hidden (ofItems items) = literalItems items := by
  match items with
  | [] => rfl
  | v :: rest => rw [ofItems, wireItems, wire_ofJson v, wireItems_ofItems rest, literalItems]

theorem wireFields_ofFields (fields : List (String × Json.Value))
    : wireFields name hidden (ofFields fields) = literalFields fields := by
  match fields with
  | [] => rfl
  | (n, v) :: rest =>
      rw [ofFields, wireFields, wire_ofJson v, wireFields_ofFields rest, literalFields]

end

/-- A property that is not hidden is found in the wire form of an element under its name. -/
theorem get?_wireProps {prop : String} (shown : hidden prop = false) (props : Props κ)
    : Json.Fields.get? (wireProps name hidden props) prop
      = (Json.Fields.get? props prop).map (wire name hidden) := by
  induction props with
  | nil => rfl
  | cons first rest ih =>
      obtain ⟨n, node⟩ := first
      rw [wireProps, Json.Fields.get?_cons]
      split
      · next covered =>
          have other : n ≠ prop := by
            rintro rfl
            rw [shown] at covered
            cases covered
          rw [if_neg other, ih]
      · rw [Json.Fields.get?_cons, ih]
        split <;> rfl

end Node

-----------------------------------------------------------------------------------------
-- Elements
-----------------------------------------------------------------------------------------

def Element.wire (e : Element Kind) : Json.Value :=
  Built.wire (.element e.kind e.key e.props)

namespace Built

mutual

/-- The elements of a tree, children before the element that holds them. Elements in other
properties than the children do not count: no unit builds such.
-/
def inBuildOrder : Built → List (Element Kind)
  | .element kind key props => childrenInBuildOrder props ++ [{ kind, key, props }]
  | .list items => itemsInBuildOrder items
  | _ => []

def itemsInBuildOrder : List Built → List (Element Kind)
  | [] => []
  | node :: rest => inBuildOrder node ++ itemsInBuildOrder rest

def childrenInBuildOrder : List (String × Built) → List (Element Kind)
  | [] => []
  | (name, node) :: rest =>
      if name = childrenProp then inBuildOrder node else childrenInBuildOrder rest

end

theorem itemsInBuildOrder_eq (items : List Built)
    : itemsInBuildOrder items = items.flatMap inBuildOrder := by
  induction items with
  | nil => rfl
  | cons node rest ih => rw [itemsInBuildOrder, ih, List.flatMap_cons]

theorem childrenInBuildOrder_eq (props : Props Kind)
    : childrenInBuildOrder props = ((props.get? childrenProp).map inBuildOrder).getD [] := by
  induction props with
  | nil => rfl
  | cons prop rest ih =>
      rw [childrenInBuildOrder, Json.Fields.get?_cons]
      split
      · rfl
      · exact ih

/-- The elements among children are theirs, however they are stored. -/
theorem childrenInBuildOrder_withChildren (props : Props Kind) (children : List Built)
    : childrenInBuildOrder (props.withChildren children) = children.flatMap inBuildOrder := by
  rw [childrenInBuildOrder_eq]
  match children with
  | [] =>
      rw [Props.withChildren, Json.Fields.get?_erase, if_pos rfl]
      rfl
  | [child] =>
      rw [Props.withChildren, Json.Fields.get?_insert, if_pos rfl]
      simp
  | first :: second :: rest =>
      rw [← itemsInBuildOrder_eq, Props.withChildren, Json.Fields.get?_insert, if_pos rfl]
      · rfl
      · exact fun none => by cases none
      · exact fun child one => by cases one

mutual

/-- The wire form of an element is a part of that of its tree, by induction on the tree. The
children are written, because they are not hidden.
-/
theorem wire_mem_parts {node : Built} {e : Element Kind} (member : e ∈ node.inBuildOrder)
    : e.wire ∈ node.wire.parts := by
  match node with
  | .element kind key props =>
      rcases List.mem_append.mp member with inside | same
      · have written := wire_mem_partsOfProps inside
        simp [Built.wire, Node.wire, Json.Value.parts, Json.Value.partsOfItems, written]
      · obtain rfl := List.mem_singleton.mp same
        exact List.mem_cons_self
  | .list items =>
      have written := wire_mem_partsOfItems member
      rw [Built.wire, Node.wire, Json.Value.parts]
      refine List.mem_cons_of_mem _ ?_
      split
      · exact List.mem_append_right _ written
      · exact written
  | .null | .bool _ | .number _ | .string _ | .map _ => cases member

theorem wire_mem_partsOfItems {items : List Built} {e : Element Kind}
    (member : e ∈ itemsInBuildOrder items)
    : e.wire
      ∈ Json.Value.partsOfItems
          (Node.wireItems Kind.identifier internalProps.contains items) := by
  match items with
  | [] => cases member
  | node :: rest =>
      refine List.mem_append.mpr ((List.mem_append.mp member).imp ?_ ?_)
      · exact wire_mem_parts
      · exact wire_mem_partsOfItems

theorem wire_mem_partsOfProps {props : List (String × Built)} {e : Element Kind}
    (member : e ∈ childrenInBuildOrder props)
    : e.wire
      ∈ Json.Value.partsOfFields
          (Node.wireProps Kind.identifier internalProps.contains props) := by
  match props with
  | [] => cases member
  | (name, node) :: rest =>
      rw [childrenInBuildOrder] at member
      rw [Node.wireProps]
      split at member
      · next isChildren =>
          subst isChildren
          rw [if_neg (by decide)]
          exact List.mem_append_left _ (wire_mem_parts member)
      · have written := wire_mem_partsOfProps member
        split
        · exact written
        · exact List.mem_append_right _ written

end

end Built

end Folio.Tree
