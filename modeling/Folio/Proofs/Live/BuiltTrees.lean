import Folio.Live.Hydration
import Folio.Tree.Built

/-! Reading a built tree back from its wire form never fails, whatever strings, lists and properties
the tree holds. The result and the warnings are those of a recursion over the tree alone, in which
the name of an element decides what becomes of it.
-/

namespace Folio.Live

open Folio.Tree (Built)

variable {ι κ : Type}

-----------------------------------------------------------------------------------------
-- What a built tree becomes
-----------------------------------------------------------------------------------------

inductive Role (ι : Type) where
  /-- A fragment of its children. -/
  | group
  /-- A component that is registered, with all properties. -/
  | component (implementation : ι)
  /-- A tag of markup, with all properties. -/
  | tag
  /-- A fragment of its children, about which the reader warns. -/
  | stranger

/-- The role of an element by its name alone: the name of groups comes before the registry, and the
registry before the names in lower case.
-/
def role (registry : Registry ι) (name : String) : Role ι :=
  if name = "#group" then .group
  else if let some implementation := registry.get? name then .component implementation
  else if name.toList.head?.any Text.isLowercase then .tag
  else .stranger

mutual

def hydrated (registry : Registry ι) : Built → Node ι
  | .null => .null
  | .bool b => .bool b
  | .number n => .number n
  | .string s => .string s
  | .list items => .list (hydratedItems registry items)
  | .map fields => .map (hydratedFields registry fields)
  | .element kind key props =>
      let name := kind.identifier
      match role registry name with
      | .group | .stranger => .element .fragment key (hydratedChildren registry props)
      | .component implementation =>
          .element (.component name implementation) key (hydratedProps registry props)
      | .tag => .element (.intrinsic name) key (hydratedProps registry props)

def hydratedItems (registry : Registry ι) : List Built → List (Node ι)
  | [] => []
  | node :: rest => hydrated registry node :: hydratedItems registry rest

def hydratedFields (registry : Registry ι) : List (String × Built) → List (String × Node ι)
  | [] => []
  | (name, node) :: rest => (name, hydrated registry node) :: hydratedFields registry rest

/-- The live trees of all properties but the internal ones. -/
def hydratedProps (registry : Registry ι) : List (String × Built) → List (String × Node ι)
  | [] => []
  | (name, node) :: rest =>
      if name ∈ Tree.internalProps then hydratedProps registry rest
      else (name, hydrated registry node) :: hydratedProps registry rest

/-- The children as the only property, if there are any. -/
def hydratedChildren (registry : Registry ι) : List (String × Built) → List (String × Node ι)
  | [] => []
  | (name, node) :: rest =>
      if name = "children" then [(name, hydrated registry node)]
      else hydratedChildren registry rest

end

mutual

/-- The names of the strangers in a built tree, an element before those inside it. What is in a
property that is dropped does not count.
-/
def strangers (registry : Registry ι) : Built → List String
  | .null | .bool _ | .number _ | .string _ => []
  | .list items => strangersOfItems registry items
  | .map fields => strangersOfFields registry fields
  | .element kind _ props =>
      match role registry kind.identifier with
      | .group => strangersOfChildren registry props
      | .stranger => kind.identifier :: strangersOfChildren registry props
      | .component _ | .tag => strangersOfProps registry props

def strangersOfItems (registry : Registry ι) : List Built → List String
  | [] => []
  | node :: rest => strangers registry node ++ strangersOfItems registry rest

def strangersOfFields (registry : Registry ι) : List (String × Built) → List String
  | [] => []
  | (_, node) :: rest => strangers registry node ++ strangersOfFields registry rest

/-- The names of the strangers in all properties but the internal ones. -/
def strangersOfProps (registry : Registry ι) : List (String × Built) → List String
  | [] => []
  | (name, node) :: rest =>
      if name ∈ Tree.internalProps then strangersOfProps registry rest
      else strangers registry node ++ strangersOfProps registry rest

def strangersOfChildren (registry : Registry ι) : List (String × Built) → List String
  | [] => []
  | (name, node) :: rest =>
      if name = "children" then strangers registry node else strangersOfChildren registry rest

end

-----------------------------------------------------------------------------------------
-- The reader takes the same decisions
-----------------------------------------------------------------------------------------

/-- How the reader resolves a name, in terms of roles: by the same three tests in the same order. -/
theorem resolve_eq_role (registry : Registry ι) (name : String)
    : resolve registry name
      = match role registry name with
        | .group => .group
        | .component implementation => .kept (.component name implementation)
        | .tag => .kept (.intrinsic name)
        | .stranger => .unknown := by
  unfold resolve role
  by_cases isGroup : name = "#group"
  · simp [isGroup, Document.groupName]
  · cases found : Json.Fields.get? registry name with
    | some implementation => simp [isGroup, Document.groupName]
    | none =>
        cases lower : name.toList.head?.any Text.isLowercase <;>
          simp [isGroup, Document.groupName]

/-- A node is written as a string only if it is that string. -/
theorem wire_eq_string {name : κ → String} {hidden : String → Bool} {node : Tree.Node κ}
    {s : String} (h : Tree.Node.wire name hidden node = .string s)
    : node = .string s := by
  cases node <;> simp_all [Tree.Node.wire]

/-- An array that starts with no marker is read item by item: the first item is not a marker, so
that a string there is put back as it is.
-/
theorem revive_array (registry : Registry ι) (items : List Json.Value)
    (unmarked : ∀ s, items.head? = some (.string s) → Tree.isMarker s = false)
    : revive registry (.array items)
      = (reviveItems registry items).map fun read => (.list read.1, read.2) := by
  cases items with
  | nil => rfl
  | cons item rest =>
      cases item with
      | string s =>
          obtain ⟨notElement, notList⟩ : s ≠ Tree.elementMarker ∧ s ≠ Tree.listMarker := by
            simpa [Tree.isMarker] using unmarked s rfl
          cases read : reviveItems registry rest <;>
            simp [revive, reviveItems, notElement, notList, read, bind, Except.bind, pure,
              Except.pure, Except.map]
      | _ =>
          simp only [revive]
          cases reviveItems registry _ <;> rfl

/-- A list is written so that it is read item by item: a marker at its start is escaped. -/
theorem revive_wire_list (registry : Registry ι) (name : κ → String) (hidden : String → Bool)
    (items : List (Tree.Node κ))
    : revive registry (Tree.Node.wire name hidden (.list items))
      = (reviveItems registry (Tree.Node.wireItems name hidden items)).map
          fun read => (.list read.1, read.2) := by
  cases marked : Tree.Node.startsWithMarker items with
  | true =>
      simp only [Tree.Node.wire, marked, if_true, revive]
      cases reviveItems registry _ <;> rfl
  | false =>
      simp only [Tree.Node.wire, marked]
      apply revive_array
      intro s first
      cases items with
      | nil => simp [Tree.Node.wireItems] at first
      | cons node rest =>
          obtain rfl : node = .string s :=
            wire_eq_string (by simpa [Tree.Node.wireItems] using first)
          simpa [Tree.Node.startsWithMarker] using marked

/-- The key of an element is read as it was written. -/
theorem elementKey?_wire (key : Option String)
    : elementKey? ((key.map Json.Value.string).getD .null) = some key := by
  cases key <;> rfl

mutual

/-- Reading a written node gives its live tree and its strangers, by induction on the node. -/
theorem revive_wire (registry : Registry ι) (node : Built)
    : revive registry (Tree.Node.wire Tree.Kind.identifier Tree.internalProps.contains node)
      = .ok (hydrated registry node, strangers registry node) := by
  cases node with
  | null | bool _ | number _ | string _ => rfl
  | list items =>
      rw [revive_wire_list, reviveItems_wireItems]
      rfl
  | map fields =>
      simp only [Tree.Node.wire, revive, reviveFields_wireFields]
      rfl
  | element kind key props =>
      simp only [Tree.Node.wire, revive, beq_self_eq_true, if_true, reviveElement,
        elementKey?_wire, resolve_eq_role, hydrated, strangers]
      cases role registry kind.identifier with
      | group | stranger =>
          simp only [reviveChildren_wireProps]
          rfl
      | component _ | tag =>
          simp only [reviveFields_wireProps]
          rfl

/-- Reading written items, by induction on the items. -/
theorem reviveItems_wireItems (registry : Registry ι) (items : List Built)
    : reviveItems registry
          (Tree.Node.wireItems Tree.Kind.identifier Tree.internalProps.contains items)
      = .ok (hydratedItems registry items, strangersOfItems registry items) := by
  cases items with
  | nil => rfl
  | cons node rest =>
      simp only [Tree.Node.wireItems, reviveItems, revive_wire registry node,
        reviveItems_wireItems registry rest]
      rfl

/-- Reading the written fields of a map, by induction on the fields. -/
theorem reviveFields_wireFields (registry : Registry ι) (fields : List (String × Built))
    : reviveFields registry
          (Tree.Node.wireFields Tree.Kind.identifier Tree.internalProps.contains fields)
      = .ok (hydratedFields registry fields, strangersOfFields registry fields) := by
  cases fields with
  | nil => rfl
  | cons field rest =>
      obtain ⟨name, node⟩ := field
      simp only [Tree.Node.wireFields, reviveFields, revive_wire registry node,
        reviveFields_wireFields registry rest]
      rfl

/-- Reading written properties: the internal ones were left out. -/
theorem reviveFields_wireProps (registry : Registry ι) (props : List (String × Built))
    : reviveFields registry
          (Tree.Node.wireProps Tree.Kind.identifier Tree.internalProps.contains props)
      = .ok (hydratedProps registry props, strangersOfProps registry props) := by
  cases props with
  | nil => rfl
  | cons prop rest =>
      obtain ⟨name, node⟩ := prop
      by_cases internal : name ∈ Tree.internalProps
      · simp only [Tree.Node.wireProps, List.contains_iff_mem, internal, if_true, hydratedProps,
          strangersOfProps, reviveFields_wireProps registry rest]
      · simp only [Tree.Node.wireProps, List.contains_iff_mem, internal, if_false, hydratedProps,
          strangersOfProps, reviveFields, revive_wire registry node,
          reviveFields_wireProps registry rest]
        rfl

/-- Reading the children among written properties. They are not internal, so that they are
there.
-/
theorem reviveChildren_wireProps (registry : Registry ι) (props : List (String × Built))
    : reviveChildren registry
          (Tree.Node.wireProps Tree.Kind.identifier Tree.internalProps.contains props)
      = .ok (hydratedChildren registry props, strangersOfChildren registry props) := by
  cases props with
  | nil => rfl
  | cons prop rest =>
      obtain ⟨name, node⟩ := prop
      by_cases isChildren : name = "children"
      · subst isChildren
        have visible : "children" ∉ Tree.internalProps := by decide
        simp only [Tree.Node.wireProps, List.contains_iff_mem, visible, if_false, reviveChildren,
          Tree.childrenProp, revive_wire registry node, hydratedChildren, strangersOfChildren,
          if_true]
        rfl
      · have later := reviveChildren_wireProps registry rest
        simp only [hydratedChildren, strangersOfChildren, if_neg isChildren, ← later]
        by_cases internal : name ∈ Tree.internalProps
        · simp only [Tree.Node.wireProps, List.contains_iff_mem, internal, if_true]
        · have other : name ≠ Tree.childrenProp := isChildren
          simp only [Tree.Node.wireProps, List.contains_iff_mem, internal, if_false, reviveChildren,
            if_neg other]

end

/-- What is built is read: for each tree and registry the reader gives the live tree with one
warning for each stranger.
-/
theorem fromWire_wire (registry : Registry ι) (node : Built)
    : fromWire registry node.wire = .ok (hydrated registry node, strangers registry node) := by
  rw [fromWire, Tree.Built.wire, revive_wire]
  rfl

/-- A list that looks like an element is a list again. -/
example
    : fromWire ([] : Registry Unit) (Built.wire (.list [.string "$r", .string "p"]))
      = .ok (.list [.string "$r", .string "p"], []) :=
  rfl

end Folio.Live
