import Folio.Proofs.Json.Fields
import Folio.Proofs.Live.BuiltTrees
import Folio.Proofs.Tree.Elements

/-! A built tree that was read is written as it was exactly if nothing of it was lost. Two things
can be lost: the name and the properties of an element that the reader does not know, about which it
warns, and the properties of a group other than its children.
-/

namespace Folio.Live

open Folio.Tree (Built)

variable {ι : Type} {registry : Registry ι}

-----------------------------------------------------------------------------------------
-- What can be lost
-----------------------------------------------------------------------------------------

/-- Holds unless the element is a group with a property besides its children that is written. -/
def KeepsProps (e : Tree.Element Tree.Kind) : Prop :=
  e.kind.identifier = "#group"
    → ∀ prop ∈ e.props, prop.1 ∉ Tree.internalProps → prop.1 = "children"

/-- Holds unless the element is a group whose properties are not a map. -/
def IsMapIfGroup (e : Tree.Element Tree.Kind) : Prop :=
  e.kind.identifier = "#group" → Json.Fields.Sorted e.props

/-- What holds of the first and of the later ones holds of all, for warnings and elements together.
-/
theorem faithful_append {first later : List String} {P Q : Prop}
    : (first = [] ∧ P) ∧ (later = [] ∧ Q) ↔ first ++ later = [] ∧ P ∧ Q := by
  rw [List.append_eq_nil_iff, and_and_and_comm]

/-- The role of an element is that of a group only by its name. -/
theorem role_eq_group {name : String} : role registry name = .group ↔ name = "#group" := by
  unfold role
  constructor
  · intro isGroup
    split at isGroup
    · assumption
    · split at isGroup
      · cases isGroup
      · split at isGroup <;> cases isGroup
  · intro isGroup
    rw [if_pos isGroup]

/-- A list starts with a marker for the reader exactly if it did when it was written. -/
theorem startsWithMarker_hydratedItems (items : List Built)
    : Tree.Node.startsWithMarker (hydratedItems registry items)
      = Tree.Node.startsWithMarker items := by
  cases items with
  | nil => rfl
  | cons node rest =>
      cases node with
      | element kind key props =>
          simp only [hydratedItems, hydrated]
          split <;> rfl
      | _ => rfl

theorem wireProps_internal {name : String} (internal : name ∈ Tree.internalProps) (node : Built)
    (rest : List (String × Built))
    : Tree.Node.wireProps Tree.Kind.identifier Tree.internalProps.contains ((name, node) :: rest)
      = Tree.Node.wireProps Tree.Kind.identifier Tree.internalProps.contains rest := by
  rw [Tree.Node.wireProps, if_pos (List.contains_iff_mem.mpr internal)]

theorem wireProps_visible {name : String} (visible : name ∉ Tree.internalProps) (node : Built)
    (rest : List (String × Built))
    : Tree.Node.wireProps Tree.Kind.identifier Tree.internalProps.contains ((name, node) :: rest)
      = (name, node.wire)
        :: Tree.Node.wireProps Tree.Kind.identifier Tree.internalProps.contains rest := by
  rw [Tree.Node.wireProps, if_neg (mt List.contains_iff_mem.mp visible)]
  rfl

/-- All properties of a live tree are written. -/
theorem wireProps_kept (name : String) (node : Node ι) (rest : List (String × Node ι))
    : Tree.Node.wireProps Kind.identifier (fun _ => false) ((name, node) :: rest)
      = (name, wire node) :: Tree.Node.wireProps Kind.identifier (fun _ => false) rest :=
  rfl

/-- Two elements of one key are written in the same way if their names and properties are. -/
theorem wire_element_iff {live : Kind ι} {kind : Tree.Kind} (key : Option String)
    {kept : List (String × Node ι)} {props : List (String × Built)}
    : wire (.element live key kept) = Tree.Built.wire (.element kind key props)
      ↔ live.identifier = kind.identifier
        ∧ Tree.Node.wireProps Kind.identifier (fun _ => false) kept
          = Tree.Node.wireProps Tree.Kind.identifier Tree.internalProps.contains props := by
  simp [wire, Tree.Built.wire, Tree.Node.wire]

/-- Nothing is written of properties exactly if all are internal, by induction on the properties. -/
theorem wireProps_eq_nil_iff {props : List (String × Built)}
    : Tree.Node.wireProps Tree.Kind.identifier Tree.internalProps.contains props = []
      ↔ ∀ prop ∈ props, prop.1 ∈ Tree.internalProps := by
  induction props with
  | nil => exact iff_of_true rfl (List.forall_mem_nil _)
  | cons prop rest ih =>
      obtain ⟨name, node⟩ := prop
      rw [List.forall_mem_cons]
      by_cases internal : name ∈ Tree.internalProps
      · rw [wireProps_internal internal, ih, and_iff_right internal]
      · rw [wireProps_visible internal]
        exact iff_of_false (List.cons_ne_nil _ _) fun all => internal all.1

/-- Elements in internal properties do not count. -/
theorem elementsOfProps_internal {props : List (String × Built)}
    (internal : ∀ prop ∈ props, prop.1 ∈ Tree.internalProps)
    : Tree.Node.elementsOfProps Tree.internalProps.contains props = [] := by
  induction props with
  | nil => rfl
  | cons prop rest ih =>
      obtain ⟨first, later⟩ := List.forall_mem_cons.mp internal
      rw [Tree.Node.elementsOfProps, if_pos (List.contains_iff_mem.mpr first), ih later]

/-- What a group keeps of its properties is the children or nothing, by induction on the properties.
-/
theorem hydratedChildren_cases (registry : Registry ι) (props : List (String × Built))
    : hydratedChildren registry props = []
      ∨ ∃ image, hydratedChildren registry props = [("children", image)] := by
  induction props with
  | nil => exact .inl rfl
  | cons prop rest ih =>
      obtain ⟨name, node⟩ := prop
      rw [hydratedChildren]
      split
      · next isChildren => exact .inr ⟨_, by rw [isChildren]⟩
      · exact ih

-----------------------------------------------------------------------------------------
-- Writing what was read
-----------------------------------------------------------------------------------------

mutual

/-- A node is written as it was exactly if nothing of it is lost, by induction on the node. -/
theorem wire_hydrated_iff (node : Built)
    (maps : ∀ e ∈ node.elements Tree.internalProps.contains, IsMapIfGroup e)
    : wire (hydrated registry node) = node.wire
      ↔ strangers registry node = []
        ∧ ∀ e ∈ node.elements Tree.internalProps.contains, KeepsProps e := by
  match node with
  | .null | .bool _ | .number _ | .string _ =>
      exact iff_of_true rfl ⟨rfl, List.forall_mem_nil _⟩
  | .list items =>
      rw [strangers, Tree.Node.elements, ← wireItems_hydratedItems_iff items maps, wire,
        Tree.Built.wire, hydrated, Tree.Node.wire, Tree.Node.wire, startsWithMarker_hydratedItems]
      cases Tree.Node.startsWithMarker items <;> simp
  | .map fields =>
      rw [strangers, Tree.Node.elements, ← wireFields_hydratedFields_iff fields maps, wire,
        Tree.Built.wire, hydrated, Tree.Node.wire, Tree.Node.wire, Json.Value.object.injEq]
  | .element kind key props =>
      obtain ⟨own, inside⟩ := List.forall_mem_cons.mp maps
      rw [Tree.Node.elements, List.forall_mem_cons, strangers, hydrated]
      cases resolved : role registry kind.identifier with
      | group =>
          have isGroup : kind.identifier = "#group" := role_eq_group.mp resolved
          have keeps : KeepsProps { kind, key, props }
              ↔ ∀ prop ∈ props, prop.1 ∉ Tree.internalProps → prop.1 = "children" :=
            forall_prop_of_true isGroup
          rw [wire_element_iff, keeps, ← wireProps_hydratedChildren_iff props (own isGroup) inside,
            isGroup]
          exact and_iff_right rfl
      | stranger =>
          have notGroup : "#group" ≠ kind.identifier := fun same =>
            nomatch resolved.symm.trans (role_eq_group.mpr same.symm)
          rw [wire_element_iff]
          exact iff_of_false (fun same => notGroup same.1) fun kept => nomatch kept.1
      | component _ | tag =>
          have notGroup : kind.identifier ≠ "#group" := fun same =>
            nomatch resolved.symm.trans (role_eq_group.mpr same)
          have keeps : KeepsProps { kind, key, props } := fun isGroup => absurd isGroup notGroup
          rw [wire_element_iff, and_iff_right keeps]
          exact (and_iff_right rfl).trans (wireProps_hydratedProps_iff props inside)

/-- The same for items, by induction on the items. -/
theorem wireItems_hydratedItems_iff (items : List Built)
    (maps : ∀ e ∈ Tree.Node.elementsOfItems Tree.internalProps.contains items, IsMapIfGroup e)
    : Tree.Node.wireItems Kind.identifier (fun _ => false) (hydratedItems registry items)
        = Tree.Node.wireItems Tree.Kind.identifier Tree.internalProps.contains items
      ↔ strangersOfItems registry items = []
        ∧ ∀ e ∈ Tree.Node.elementsOfItems Tree.internalProps.contains items, KeepsProps e := by
  match items with
  | [] => exact iff_of_true rfl ⟨rfl, List.forall_mem_nil _⟩
  | node :: rest =>
      obtain ⟨first, later⟩ := List.forall_mem_append.mp maps
      rw [strangersOfItems, Tree.Node.elementsOfItems, List.forall_mem_append, ← faithful_append,
        ← wire_hydrated_iff node first, ← wireItems_hydratedItems_iff rest later, hydratedItems,
        Tree.Node.wireItems, Tree.Node.wireItems, List.cons.injEq]
      rfl

/-- The same for the fields of a map, by induction on the fields. -/
theorem wireFields_hydratedFields_iff (fields : List (String × Built))
    (maps : ∀ e ∈ Tree.Node.elementsOfFields Tree.internalProps.contains fields, IsMapIfGroup e)
    : Tree.Node.wireFields Kind.identifier (fun _ => false) (hydratedFields registry fields)
        = Tree.Node.wireFields Tree.Kind.identifier Tree.internalProps.contains fields
      ↔ strangersOfFields registry fields = []
        ∧ ∀ e ∈ Tree.Node.elementsOfFields Tree.internalProps.contains fields, KeepsProps e := by
  match fields with
  | [] => exact iff_of_true rfl ⟨rfl, List.forall_mem_nil _⟩
  | (name, node) :: rest =>
      obtain ⟨first, later⟩ := List.forall_mem_append.mp maps
      rw [strangersOfFields, Tree.Node.elementsOfFields, List.forall_mem_append, ← faithful_append,
        ← wire_hydrated_iff node first, ← wireFields_hydratedFields_iff rest later, hydratedFields,
        Tree.Node.wireFields, Tree.Node.wireFields, List.cons.injEq, Prod.mk.injEq, eq_self,
        true_and]
      rfl

/-- The same for properties that are all kept, by induction on the properties. -/
theorem wireProps_hydratedProps_iff (props : List (String × Built))
    (maps : ∀ e ∈ Tree.Node.elementsOfProps Tree.internalProps.contains props, IsMapIfGroup e)
    : Tree.Node.wireProps Kind.identifier (fun _ => false) (hydratedProps registry props)
        = Tree.Node.wireProps Tree.Kind.identifier Tree.internalProps.contains props
      ↔ strangersOfProps registry props = []
        ∧ ∀ e ∈ Tree.Node.elementsOfProps Tree.internalProps.contains props, KeepsProps e := by
  match props with
  | [] => exact iff_of_true rfl ⟨rfl, List.forall_mem_nil _⟩
  | (name, node) :: rest =>
      rw [Tree.Node.elementsOfProps] at maps ⊢
      rw [strangersOfProps, hydratedProps]
      by_cases internal : name ∈ Tree.internalProps
      · rw [if_pos (List.contains_iff_mem.mpr internal)] at maps ⊢
        rw [if_pos internal, if_pos internal, wireProps_internal internal]
        exact wireProps_hydratedProps_iff rest maps
      · rw [if_neg (mt List.contains_iff_mem.mp internal)] at maps ⊢
        obtain ⟨first, later⟩ := List.forall_mem_append.mp maps
        rw [if_neg internal, if_neg internal, wireProps_visible internal, List.forall_mem_append,
          ← faithful_append, ← wire_hydrated_iff node first,
          ← wireProps_hydratedProps_iff rest later, wireProps_kept, List.cons.injEq,
          Prod.mk.injEq, eq_self, true_and]

/-- A group is written as it was exactly if its children are the only property that is written, and
nothing of them is lost. By induction on the properties, which are a map.
-/
theorem wireProps_hydratedChildren_iff (props : List (String × Built))
    (sorted : Json.Fields.Sorted props)
    (maps : ∀ e ∈ Tree.Node.elementsOfProps Tree.internalProps.contains props, IsMapIfGroup e)
    : Tree.Node.wireProps Kind.identifier (fun _ => false) (hydratedChildren registry props)
        = Tree.Node.wireProps Tree.Kind.identifier Tree.internalProps.contains props
      ↔ strangersOfChildren registry props = []
        ∧ (∀ prop ∈ props, prop.1 ∉ Tree.internalProps → prop.1 = "children")
        ∧ ∀ e ∈ Tree.Node.elementsOfProps Tree.internalProps.contains props, KeepsProps e := by
  match props with
  | [] => exact iff_of_true rfl ⟨rfl, List.forall_mem_nil _, List.forall_mem_nil _⟩
  | (name, node) :: rest =>
      rw [Tree.Node.elementsOfProps] at maps ⊢
      rw [strangersOfChildren, hydratedChildren, List.forall_mem_cons]
      by_cases isChildren : name = "children"
      · subst isChildren
        have visible : "children" ∉ Tree.internalProps := by decide
        rw [if_neg (mt List.contains_iff_mem.mp visible)] at maps ⊢
        rw [if_pos rfl, if_pos rfl, wireProps_visible visible, wireProps_kept, List.cons.injEq,
          Prod.mk.injEq, eq_self, true_and,
          wire_hydrated_iff node (List.forall_mem_append.mp maps).1]
        constructor
        · rintro ⟨⟨known, kept⟩, alone⟩
          have internal := wireProps_eq_nil_iff.mp alone.symm
          refine ⟨known, ⟨fun _ => trivial, fun prop member visible => ?_⟩, ?_⟩
          · exact absurd (internal prop member) visible
          · rw [elementsOfProps_internal internal, List.append_nil]
            exact kept
        · rintro ⟨known, ⟨-, only⟩, kept⟩
          refine ⟨⟨known, (List.forall_mem_append.mp kept).1⟩, (wireProps_eq_nil_iff.mpr ?_).symm⟩
          intro prop member
          apply Decidable.byContradiction
          intro visible
          exact sorted.ne_head prop member (only prop member visible)
      · rw [if_neg isChildren, if_neg isChildren]
        by_cases internal : name ∈ Tree.internalProps
        · rw [if_pos (List.contains_iff_mem.mpr internal)] at maps ⊢
          have later := wireProps_hydratedChildren_iff rest (List.pairwise_cons.mp sorted).2 maps
          rw [wireProps_internal internal, later,
            and_iff_right fun visible => absurd internal visible]
        · rw [if_neg (mt List.contains_iff_mem.mp internal)] at maps ⊢
          refine iff_of_false ?_ fun kept => isChildren (kept.2.1.1 internal)
          rw [wireProps_visible internal]
          intro same
          rcases hydratedChildren_cases registry rest with none | ⟨image, one⟩
          · rw [none] at same
            cases same
          · rw [one, wireProps_kept] at same
            exact isChildren (congrArg Prod.fst (List.cons.inj same).1).symm

end

-----------------------------------------------------------------------------------------
-- Trees in which all names are known
-----------------------------------------------------------------------------------------

mutual

/-- The reader does not warn about a tree in which it knows all names, by induction on the tree. -/
theorem strangers_eq_nil (node : Built)
    (known : ∀ e ∈ node.elements Tree.internalProps.contains,
      role registry e.kind.identifier ≠ .stranger)
    : strangers registry node = [] := by
  match node with
  | .null | .bool _ | .number _ | .string _ => rfl
  | .list items => exact strangersOfItems_eq_nil items known
  | .map fields => exact strangersOfFields_eq_nil fields known
  | .element kind key props =>
      obtain ⟨own, inside⟩ := List.forall_mem_cons.mp known
      rw [strangers]
      cases resolved : role registry kind.identifier with
      | group => exact strangersOfChildren_eq_nil props inside
      | stranger => exact absurd resolved own
      | component _ | tag => exact strangersOfProps_eq_nil props inside

theorem strangersOfItems_eq_nil (items : List Built)
    (known : ∀ e ∈ Tree.Node.elementsOfItems Tree.internalProps.contains items,
      role registry e.kind.identifier ≠ .stranger)
    : strangersOfItems registry items = [] := by
  match items with
  | [] => rfl
  | node :: rest =>
      obtain ⟨first, later⟩ := List.forall_mem_append.mp known
      rw [strangersOfItems, strangers_eq_nil node first, strangersOfItems_eq_nil rest later,
        List.append_nil]

theorem strangersOfFields_eq_nil (fields : List (String × Built))
    (known : ∀ e ∈ Tree.Node.elementsOfFields Tree.internalProps.contains fields,
      role registry e.kind.identifier ≠ .stranger)
    : strangersOfFields registry fields = [] := by
  match fields with
  | [] => rfl
  | (name, node) :: rest =>
      obtain ⟨first, later⟩ := List.forall_mem_append.mp known
      rw [strangersOfFields, strangers_eq_nil node first, strangersOfFields_eq_nil rest later,
        List.append_nil]

theorem strangersOfProps_eq_nil (props : List (String × Built))
    (known : ∀ e ∈ Tree.Node.elementsOfProps Tree.internalProps.contains props,
      role registry e.kind.identifier ≠ .stranger)
    : strangersOfProps registry props = [] := by
  match props with
  | [] => rfl
  | (name, node) :: rest =>
      rw [Tree.Node.elementsOfProps] at known
      rw [strangersOfProps]
      by_cases internal : name ∈ Tree.internalProps
      · rw [if_pos (List.contains_iff_mem.mpr internal)] at known
        rw [if_pos internal, strangersOfProps_eq_nil rest known]
      · rw [if_neg (mt List.contains_iff_mem.mp internal)] at known
        obtain ⟨first, later⟩ := List.forall_mem_append.mp known
        rw [if_neg internal, strangers_eq_nil node first, strangersOfProps_eq_nil rest later,
          List.append_nil]

theorem strangersOfChildren_eq_nil (props : List (String × Built))
    (known : ∀ e ∈ Tree.Node.elementsOfProps Tree.internalProps.contains props,
      role registry e.kind.identifier ≠ .stranger)
    : strangersOfChildren registry props = [] := by
  match props with
  | [] => rfl
  | (name, node) :: rest =>
      rw [Tree.Node.elementsOfProps] at known
      rw [strangersOfChildren]
      by_cases internal : name ∈ Tree.internalProps
      · rw [if_pos (List.contains_iff_mem.mpr internal)] at known
        have other : name ≠ "children" := by
          rintro rfl
          exact absurd internal (by decide)
        rw [if_neg other, strangersOfChildren_eq_nil rest known]
      · rw [if_neg (mt List.contains_iff_mem.mp internal)] at known
        obtain ⟨first, later⟩ := List.forall_mem_append.mp known
        split
        · exact strangers_eq_nil node first
        · exact strangersOfChildren_eq_nil rest later

end

-----------------------------------------------------------------------------------------
-- What was lost
-----------------------------------------------------------------------------------------

/-- Writing what was read of a built tree gives its wire form again exactly if nothing was lost: the
reader gave no warning, and no group has a property besides its children that is written.
-/
theorem wire_fromWire_iff (registry : Registry ι) {node : Built}
    (maps : ∀ e ∈ node.elements Tree.internalProps.contains, Json.Fields.Sorted e.props)
    : ∃ live warnings,
        fromWire registry node.wire = .ok (live, warnings)
        ∧ (wire live = node.wire
          ↔ warnings = []
            ∧ ∀ e ∈ node.elements Tree.internalProps.contains,
                e.kind.identifier = "#group"
                  → ∀ prop ∈ e.props, prop.1 ∉ Tree.internalProps → prop.1 = "children") := by
  refine ⟨hydrated registry node, strangers registry node, ?_, ?_⟩
  · rw [fromWire, Tree.Built.wire, revive_wire]
    rfl
  · exact wire_hydrated_iff node fun e member _ => maps e member

/-- A group with a note, a property that is lost, and a list that looks like an element. -/
def labelledGroup : Built :=
  .element .grouping (some "g")
    [
      ("children",
        .element (.component "Badge") none
          [("parentName", .element (.tag "Q") none []), ("tags", .list [.string "$r", .null])]),
      ("debugType", .string "#group"),
      ("label", .string "new")
    ]

/-- Its properties are maps, so that what is lost of it shows. -/
theorem wire_labelledGroup
    : (∀ e ∈ labelledGroup.elements Tree.internalProps.contains, Json.Fields.Sorted e.props)
      ∧ ∃ live warnings,
          fromWire [("Badge", ())] labelledGroup.wire = .ok (live, warnings)
          ∧ (wire live = labelledGroup.wire
            ↔ warnings = []
              ∧ ∀ e ∈ labelledGroup.elements Tree.internalProps.contains,
                  e.kind.identifier = "#group"
                    → ∀ prop ∈ e.props, prop.1 ∉ Tree.internalProps → prop.1 = "children") := by
  have maps : ∀ e ∈ labelledGroup.elements Tree.internalProps.contains,
      Json.Fields.Sorted e.props := by
    decide
  exact ⟨maps, wire_fromWire_iff [("Badge", ())] maps⟩

end Folio.Live
