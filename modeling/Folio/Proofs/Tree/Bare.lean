import Folio.Proofs.Json.Fields
import Folio.Tree.Built

/-! Trees without the properties that are hidden. Taking them away, wherever elements stand, changes
nothing in the wire form; and no array of a wire form that begins like an element has one of them.
-/

namespace Folio.Json.Value

mutual

def parts : Value → List Value
  | .array items => .array items :: partsOfItems items
  | .object fields => .object fields :: partsOfFields fields
  | v => [v]

def partsOfItems : List Value → List Value
  | [] => []
  | v :: rest => parts v ++ partsOfItems rest

def partsOfFields : List (String × Value) → List Value
  | [] => []
  | (_, v) :: rest => parts v ++ partsOfFields rest

end

end Folio.Json.Value

namespace Folio.Tree.Node

variable {κ : Type} {hidden : String → Bool}

-----------------------------------------------------------------------------------------
-- Taking hidden properties away
-----------------------------------------------------------------------------------------

mutual

/-- A tree without the `hidden` properties of its elements. Maps keep all their fields. -/
def bare (hidden : String → Bool) : Node κ → Node κ
  | null => null
  | bool b => bool b
  | number n => number n
  | string s => string s
  | list items => list (bareItems hidden items)
  | map fields => map (bareFields hidden fields)
  | element kind key props => element kind key (bareProps hidden props)

def bareItems (hidden : String → Bool) : List (Node κ) → List (Node κ)
  | [] => []
  | node :: rest => bare hidden node :: bareItems hidden rest

def bareFields (hidden : String → Bool) : List (String × Node κ) → List (String × Node κ)
  | [] => []
  | (name, node) :: rest => (name, bare hidden node) :: bareFields hidden rest

def bareProps (hidden : String → Bool) : List (String × Node κ) → List (String × Node κ)
  | [] => []
  | (name, node) :: rest =>
      if hidden name then bareProps hidden rest
      else (name, bare hidden node) :: bareProps hidden rest

end

theorem bareItems_eq_map (items : List (Node κ))
    : bareItems hidden items = items.map (bare hidden) := by
  induction items with
  | nil => rfl
  | cons node rest ih => rw [bareItems, ih, List.map_cons]

/-- What is left of properties has their names. -/
theorem exists_of_mem_bareProps {props : List (String × Node κ)} {prop : String × Node κ}
    (member : prop ∈ bareProps hidden props)
    : ∃ node, (prop.1, node) ∈ props := by
  induction props with
  | nil => cases member
  | cons first rest ih =>
      unfold bareProps at member
      split at member
      · obtain ⟨node, old⟩ := ih member
        exact ⟨node, List.mem_cons_of_mem _ old⟩
      · rcases List.mem_cons.mp member with rfl | later
        · exact ⟨first.2, List.mem_cons_self⟩
        · obtain ⟨node, old⟩ := ih later
          exact ⟨node, List.mem_cons_of_mem _ old⟩

/-- Under a name that is not hidden there is what was there, without what is hidden in it. -/
theorem get?_bareProps {props : Props κ} {name : String} (shown : hidden name = false)
    : Json.Fields.get? (bareProps hidden props) name
      = (Json.Fields.get? props name).map (bare hidden) := by
  induction props with
  | nil => rfl
  | cons first rest ih =>
      obtain ⟨n, node⟩ := first
      rw [bareProps, Json.Fields.get?_cons]
      split
      · next covered =>
          have other : n ≠ name := by
            rintro rfl
            rw [shown] at covered
            cases covered
          rw [if_neg other, ih]
      · rw [Json.Fields.get?_cons, ih]
        split <;> rfl

/-- A hidden property that is put in is not seen. -/
theorem bareProps_insert_hidden {name : String} (covered : hidden name = true) (props : Props κ)
    (node : Node κ)
    : bareProps hidden (Json.Fields.insert props name node) = bareProps hidden props := by
  induction props with
  | nil => exact if_pos covered
  | cons first rest ih =>
      obtain ⟨n, held⟩ := first
      unfold Json.Fields.insert
      split
      · next same =>
          rw [bareProps, if_pos covered, bareProps, if_pos (same ▸ covered)]
      · split
        · rw [bareProps, if_pos covered]
        · rw [bareProps, bareProps, ih]

/-- A property that is not hidden is put in where it would be without the hidden ones. By induction
on the properties, whose order decides where it is put.
-/
theorem bareProps_insert_shown {name : String} (shown : hidden name = false) {props : Props κ}
    (sorted : Json.Fields.Sorted props) (node : Node κ)
    : bareProps hidden (Json.Fields.insert props name node)
      = Json.Fields.insert (bareProps hidden props) name (bare hidden node) := by
  have visible : ¬hidden name = true := ne_true_of_eq_false shown
  induction props with
  | nil => exact if_neg visible
  | cons first rest ih =>
      obtain ⟨n, held⟩ := first
      obtain ⟨smallest, sorted⟩ := List.pairwise_cons.mp sorted
      by_cases same : n = name
      · subst same
        rw [Json.Fields.insert, if_pos rfl, bareProps, if_neg visible, bareProps, if_neg visible,
          Json.Fields.insert, if_pos rfl]
      · by_cases before : name < n
        · have first : ∀ prop ∈ bareProps hidden ((n, held) :: rest), name < prop.1 := by
            intro prop member
            obtain ⟨node, old⟩ := exists_of_mem_bareProps member
            rcases List.mem_cons.mp old with here | later
            · rw [(Prod.mk.inj here).1]
              exact before
            · exact String.lt_trans before (smallest (prop.1, node) later)
          rw [Json.Fields.insert, if_neg same, if_pos before, bareProps, if_neg visible,
            Json.Fields.insert_of_lt first]
        · rw [Json.Fields.insert, if_neg same, if_neg before, bareProps, bareProps]
          split
          · exact ih sorted
          · rw [Json.Fields.insert, if_neg same, if_neg before, ih sorted]

theorem bareProps_erase (props : Props κ) (name : String)
    : bareProps hidden (Json.Fields.erase props name)
      = Json.Fields.erase (bareProps hidden props) name := by
  induction props with
  | nil => rfl
  | cons first rest ih =>
      obtain ⟨n, node⟩ := first
      unfold Json.Fields.erase at ih ⊢
      rw [List.filter_cons, bareProps]
      split
      · next other =>
          rw [bareProps, ih]
          split
          · rfl
          · rw [List.filter_cons, if_pos other]
      · next same =>
          rw [ih]
          split
          · rfl
          · rw [List.filter_cons, if_neg same]

/-- The children are seen as they are stored, each without what is hidden in it. -/
theorem bareProps_withChildren (shown : hidden childrenProp = false) {props : Props κ}
    (sorted : Json.Fields.Sorted props) (children : List (Node κ))
    : bareProps hidden (props.withChildren children)
      = Props.withChildren (bareProps hidden props) (children.map (bare hidden)) := by
  match children with
  | [] => exact bareProps_erase props childrenProp
  | [child] => exact bareProps_insert_shown shown sorted child
  | first :: second :: rest =>
      have items : bare hidden (.list (first :: second :: rest))
          = .list ((first :: second :: rest).map (bare hidden)) := by
        rw [bare, bareItems_eq_map]
      show bareProps hidden (Json.Fields.insert props childrenProp _) = _
      rw [bareProps_insert_shown shown sorted, items]
      rfl

/-- The children of properties without what is hidden. -/
theorem children_bareProps (shown : hidden childrenProp = false) (props : Props κ)
    : Props.children (bareProps hidden props) = props.children.map (bare hidden) := by
  unfold Props.children
  rw [get?_bareProps shown]
  cases Json.Fields.get? props childrenProp with
  | none => rfl
  | some node =>
      cases node with
      | list items => exact bareItems_eq_map items
      | _ => rfl

-----------------------------------------------------------------------------------------
-- The wire form
-----------------------------------------------------------------------------------------

theorem startsWithMarker_bareItems (items : List (Node κ))
    : startsWithMarker (bareItems hidden items) = startsWithMarker items := by
  cases items with
  | nil => rfl
  | cons node rest => cases node <;> rfl

mutual

/-- What is hidden does not show in the wire form. -/
theorem wire_bare (name : κ → String) (node : Node κ)
    : (bare hidden node).wire name hidden = node.wire name hidden := by
  match node with
  | .null | .bool _ | .number _ | .string _ => rfl
  | .list items =>
      rw [bare, wire, wire, wireItems_bareItems name items, startsWithMarker_bareItems]
  | .map fields => rw [bare, wire, wire, wireFields_bareFields name fields]
  | .element kind key props => rw [bare, wire, wire, wireProps_bareProps name props]

theorem wireItems_bareItems (name : κ → String) (items : List (Node κ))
    : wireItems name hidden (bareItems hidden items) = wireItems name hidden items := by
  match items with
  | [] => rfl
  | node :: rest =>
      rw [bareItems, wireItems, wireItems, wire_bare name node, wireItems_bareItems name rest]

theorem wireFields_bareFields (name : κ → String) (fields : List (String × Node κ))
    : wireFields name hidden (bareFields hidden fields) = wireFields name hidden fields := by
  match fields with
  | [] => rfl
  | (n, node) :: rest =>
      rw [bareFields, wireFields, wireFields, wire_bare name node, wireFields_bareFields name rest]

theorem wireProps_bareProps (name : κ → String) (props : List (String × Node κ))
    : wireProps name hidden (bareProps hidden props) = wireProps name hidden props := by
  match props with
  | [] => rfl
  | (n, node) :: rest =>
      rw [bareProps, wireProps]
      split
      · exact wireProps_bareProps name rest
      · next shown =>
          rw [wireProps, if_neg shown, wire_bare name node, wireProps_bareProps name rest]

end

/-- Holds if each array among JSON values that begins like an element is one, and has no hidden
property.
-/
def Seals (hidden : String → Bool) (values : List Json.Value) : Prop :=
  ∀ items, .array (.string elementMarker :: items) ∈ values →
    ∃ name key props, items = [.string name, key, .object props]
      ∧ ∀ prop ∈ props, hidden prop.1 = false

theorem seals_append {values more : List Json.Value} (first : Seals hidden values)
    (second : Seals hidden more)
    : Seals hidden (values ++ more) := by
  intro items member
  rcases List.mem_append.mp member with here | there
  · exact first items here
  · exact second items there

theorem seals_string (s : String) : Seals hidden (Json.Value.parts (.string s)) := by
  intro items member
  cases List.mem_singleton.mp member

/-- A map is no element, whatever its fields are called. -/
theorem seals_object {fields : List (String × Json.Value)}
    (inside : Seals hidden (Json.Value.partsOfFields fields))
    : Seals hidden (Json.Value.parts (.object fields)) := by
  intro items member
  rcases List.mem_cons.mp member with here | there
  · cases here
  · exact inside items there

/-- The properties that are written are not hidden. -/
theorem shown_of_mem_wireProps {name : κ → String} {props : List (String × Node κ)}
    {prop : String × Json.Value} (member : prop ∈ wireProps name hidden props)
    : hidden prop.1 = false := by
  induction props with
  | nil => cases member
  | cons first rest ih =>
      unfold wireProps at member
      split at member
      · exact ih member
      · next shown =>
          rcases List.mem_cons.mp member with rfl | later
          · exact eq_false_of_ne_true shown
          · exact ih later

/-- A list is written as no element: if the marker of elements stands first in it, another one is
written before.
-/
theorem ne_of_startsWithMarker (name : κ → String) (items : List (Node κ)) (rest : List Json.Value)
    : (if startsWithMarker items then .string listMarker :: wireItems name hidden items
        else wireItems name hidden items)
      ≠ .string elementMarker :: rest := by
  intro same
  split at same
  · have marker : listMarker = elementMarker := by
      injection same with first
      injection first
    exact absurd marker (by decide)
  · next unmarked =>
      cases items with
      | nil => cases same
      | cons node later =>
          rw [wireItems] at same
          injection same with first
          cases node with
          | string s =>
              rw [wire] at first
              injection first with marker
              subst marker
              exact unmarked rfl
          | _ => cases first

mutual

/-- All elements in a wire form are without hidden properties, by induction on the tree. -/
theorem seals_wire (name : κ → String) (node : Node κ)
    : Seals hidden (node.wire name hidden).parts := by
  match node with
  | .null | .bool _ | .number _ | .string _ =>
      intro items member
      cases List.mem_singleton.mp member
  | .list items =>
      intro rest member
      rw [wire, Json.Value.parts] at member
      rcases List.mem_cons.mp member with here | inside
      · injection here with here
        exact absurd here.symm (ne_of_startsWithMarker name items rest)
      · split at inside
        · exact seals_append (seals_string listMarker) (seals_wireItems name items) rest inside
        · exact seals_wireItems name items rest inside
  | .map fields => exact seals_object (seals_wireFields name fields)
  | .element kind key props =>
      intro rest member
      rw [wire, Json.Value.parts] at member
      rcases List.mem_cons.mp member with here | inside
      · injection here with here
        injection here with _ here
        exact ⟨name kind, _, _, here, fun prop member => shown_of_mem_wireProps member⟩
      · have keyed : Seals hidden ((key.map Json.Value.string).getD .null).parts := by
          cases key with
          | none =>
              intro items member
              cases List.mem_singleton.mp member
          | some key => exact seals_string key
        have empty : Seals hidden [] := fun _ member => absurd member List.not_mem_nil
        exact seals_append (seals_string elementMarker) (seals_append (seals_string (name kind))
          (seals_append keyed (seals_append (seals_object (seals_wireProps name props)) empty)))
          rest inside

theorem seals_wireItems (name : κ → String) (items : List (Node κ))
    : Seals hidden (Json.Value.partsOfItems (wireItems name hidden items)) := by
  match items with
  | [] => exact fun _ member => absurd member List.not_mem_nil
  | node :: rest => exact seals_append (seals_wire name node) (seals_wireItems name rest)

theorem seals_wireFields (name : κ → String) (fields : List (String × Node κ))
    : Seals hidden (Json.Value.partsOfFields (wireFields name hidden fields)) := by
  match fields with
  | [] => exact fun _ member => absurd member List.not_mem_nil
  | (n, node) :: rest => exact seals_append (seals_wire name node) (seals_wireFields name rest)

theorem seals_wireProps (name : κ → String) (props : List (String × Node κ))
    : Seals hidden (Json.Value.partsOfFields (wireProps name hidden props)) := by
  match props with
  | [] => exact fun _ member => absurd member List.not_mem_nil
  | (n, node) :: rest =>
      unfold wireProps
      split
      · exact seals_wireProps name rest
      · exact seals_append (seals_wire name node) (seals_wireProps name rest)

end

end Folio.Tree.Node
