import Folio.Tree.Node

/-! The elements of a tree, wherever they stand in it: among the items of lists, in maps, and in the
properties of other elements, save for those that are hidden.
-/

namespace Folio.Tree

/-- An element, taken out of its tree. -/
structure Element (κ : Type) where
  kind : κ
  key : Option String
  props : Props κ

namespace Node

mutual

/-- The elements of a tree, an element before those inside it. What is in a `hidden` property does
not count.
-/
def elements (hidden : String → Bool) : Node κ → List (Element κ)
  | .null | .bool _ | .number _ | .string _ => []
  | .list items => elementsOfItems hidden items
  | .map fields => elementsOfFields hidden fields
  | .element kind key props => { kind, key, props } :: elementsOfProps hidden props

def elementsOfItems (hidden : String → Bool) : List (Node κ) → List (Element κ)
  | [] => []
  | node :: rest => elements hidden node ++ elementsOfItems hidden rest

def elementsOfFields (hidden : String → Bool) : List (String × Node κ) → List (Element κ)
  | [] => []
  | (_, node) :: rest => elements hidden node ++ elementsOfFields hidden rest

/-- The elements in the properties that are not hidden. -/
def elementsOfProps (hidden : String → Bool) : List (String × Node κ) → List (Element κ)
  | [] => []
  | (name, node) :: rest =>
      if hidden name then elementsOfProps hidden rest
      else elements hidden node ++ elementsOfProps hidden rest

end

/-- Where nothing is hidden, properties are like the fields of a map. -/
theorem elementsOfProps_eq_elementsOfFields (props : List (String × Node κ))
    : elementsOfProps (fun _ => false) props = elementsOfFields (fun _ => false) props := by
  induction props with
  | nil => rfl
  | cons prop rest ih => exact congrArg (elements _ prop.2 ++ ·) ih

mutual

/-- Elements that count where properties are hidden count where none is, by induction on the tree.
-/
theorem mem_elements_of_hidden {hidden : String → Bool} {e : Element κ} {node : Node κ}
    (member : e ∈ node.elements hidden)
    : e ∈ node.elements fun _ => false := by
  match node with
  | .null | .bool _ | .number _ | .string _ => cases member
  | .list items => exact mem_elementsOfItems_of_hidden member
  | .map fields => exact mem_elementsOfFields_of_hidden member
  | .element kind key props =>
      rcases List.mem_cons.mp member with rfl | inside
      · exact List.mem_cons_self
      · exact List.mem_cons_of_mem _ (mem_elementsOfProps_of_hidden inside)

theorem mem_elementsOfItems_of_hidden {hidden : String → Bool} {e : Element κ}
    {items : List (Node κ)} (member : e ∈ elementsOfItems hidden items)
    : e ∈ elementsOfItems (fun _ => false) items := by
  match items with
  | [] => cases member
  | node :: rest =>
      refine List.mem_append.mpr ((List.mem_append.mp member).imp ?_ ?_)
      · exact mem_elements_of_hidden
      · exact mem_elementsOfItems_of_hidden

theorem mem_elementsOfFields_of_hidden {hidden : String → Bool} {e : Element κ}
    {fields : List (String × Node κ)} (member : e ∈ elementsOfFields hidden fields)
    : e ∈ elementsOfFields (fun _ => false) fields := by
  match fields with
  | [] => cases member
  | (_, node) :: rest =>
      refine List.mem_append.mpr ((List.mem_append.mp member).imp ?_ ?_)
      · exact mem_elements_of_hidden
      · exact mem_elementsOfFields_of_hidden

theorem mem_elementsOfProps_of_hidden {hidden : String → Bool} {e : Element κ}
    {props : List (String × Node κ)} (member : e ∈ elementsOfProps hidden props)
    : e ∈ elementsOfProps (fun _ => false) props := by
  match props with
  | [] => cases member
  | (name, node) :: rest =>
      unfold elementsOfProps at member
      split at member
      · exact List.mem_append_right _ (mem_elementsOfProps_of_hidden member)
      · refine List.mem_append.mpr ((List.mem_append.mp member).imp ?_ ?_)
        · exact mem_elements_of_hidden
        · exact mem_elementsOfProps_of_hidden

end

/-- An element in a property is one of those in all properties, where none is hidden. -/
theorem mem_elementsOfProps {e : Element κ} {props : List (String × Node κ)}
    {prop : String × Node κ} (known : prop ∈ props)
    (member : e ∈ prop.2.elements fun _ => false)
    : e ∈ elementsOfProps (fun _ => false) props := by
  induction props with
  | nil => cases known
  | cons first rest ih =>
      rcases List.mem_cons.mp known with rfl | later
      · exact List.mem_append_left _ member
      · exact List.mem_append_right _ (ih later)

section

variable {Q : Element κ → Prop} {hidden : String → Bool}

/-- What holds of all elements of items is what holds of those of each, by induction on the items.
-/
theorem forall_elementsOfItems {items : List (Node κ)}
    : (∀ e ∈ elementsOfItems hidden items, Q e)
      ↔ ∀ node ∈ items, ∀ e ∈ node.elements hidden, Q e := by
  induction items with
  | nil => exact iff_of_true (List.forall_mem_nil _) (List.forall_mem_nil _)
  | cons node rest ih => rw [elementsOfItems, List.forall_mem_append, List.forall_mem_cons, ih]

/-- What holds of the elements in each property holds of all, by induction on the properties. -/
theorem forall_elementsOfProps {props : List (String × Node κ)}
    (h : ∀ prop ∈ props, ∀ e ∈ prop.2.elements hidden, Q e)
    : ∀ e ∈ elementsOfProps hidden props, Q e := by
  induction props with
  | nil => exact List.forall_mem_nil _
  | cons prop rest ih =>
      obtain ⟨first, later⟩ := List.forall_mem_cons.mp h
      unfold elementsOfProps
      split
      · exact ih later
      · exact List.forall_mem_append.mpr ⟨first, ih later⟩

end

mutual

/-- A JSON value holds no elements, whatever its arrays look like. -/
theorem elements_ofJson (hidden : String → Bool) (v : Json.Value)
    : (ofJson v : Node κ).elements hidden = [] := by
  match v with
  | .null | .bool _ | .number _ | .string _ => rfl
  | .array items => exact elementsOfItems_ofItems hidden items
  | .object fields => exact elementsOfFields_ofFields hidden fields

theorem elementsOfItems_ofItems (hidden : String → Bool) (items : List Json.Value)
    : elementsOfItems hidden (ofItems items : List (Node κ)) = [] := by
  match items with
  | [] => rfl
  | v :: rest =>
      rw [ofItems, elementsOfItems, elements_ofJson hidden v, elementsOfItems_ofItems hidden rest,
        List.append_nil]

theorem elementsOfFields_ofFields (hidden : String → Bool) (fields : List (String × Json.Value))
    : elementsOfFields hidden (ofFields fields : List (String × Node κ)) = [] := by
  match fields with
  | [] => rfl
  | (name, v) :: rest =>
      rw [ofFields, elementsOfFields, elements_ofJson hidden v,
        elementsOfFields_ofFields hidden rest, List.append_nil]

end

end Node

end Folio.Tree
