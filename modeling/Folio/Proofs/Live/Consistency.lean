import Folio.Proofs.Chain
import Folio.Proofs.Json.Fields
import Folio.Proofs.Live.BuiltTrees
import Folio.Proofs.Tree.Elements

/-! Live trees that reading gives, and live trees that come back when they are written and read: for
one registry they are the same, the trees of which each element is what the registry makes of its
name. Every other live tree is read too, but comes back changed or with a warning.
-/

namespace Folio.Live

variable {ι : Type} {registry : Registry ι} {α β γ : Type}

-----------------------------------------------------------------------------------------
-- Elements that fit a registry
-----------------------------------------------------------------------------------------

/-- Holds for elements that are what a registry makes of their name: a component that is registered,
a tag that is not and is in lower case, or a fragment of nothing but children.
-/
def IsConsistent (registry : Registry ι) (e : Tree.Element (Kind ι)) : Prop :=
  match e.kind with
  | .component name implementation =>
      name ≠ "#group" ∧ registry.get? name = some implementation
  | .intrinsic tag =>
      tag ≠ "#group" ∧ registry.get? tag = none
        ∧ tag.toList.head?.any Text.isLowercase = true
  | .fragment => ∀ prop ∈ e.props, prop.1 = "children"

/-- The elements of a live tree. All of its properties are written. -/
abbrev elements (node : Node ι) : List (Tree.Element (Kind ι)) :=
  node.elements fun _ => false

abbrev elementsOfProps (props : List (String × Node ι)) : List (Tree.Element (Kind ι)) :=
  Tree.Node.elementsOfProps (fun _ => false) props

/-- A name other than that of groups is looked up. -/
theorem resolve_of_ne {name : String} (notGroup : name ≠ "#group")
    : resolve registry name
      = match registry.get? name with
        | some implementation => .kept (.component name implementation)
        | none =>
            if name.toList.head?.any Text.isLowercase then .kept (.intrinsic name) else .unknown :=
  if_neg (by simpa [Document.groupName] using notGroup)

/-- An element of the kind that its name is resolved to is consistent, and is written under that
name.
-/
theorem isConsistent_of_resolve {name : String} {kind : Kind ι}
    (resolved : resolve registry name = .kept kind) (key : Option String)
    (props : Tree.Props (Kind ι))
    : IsConsistent registry { kind, key, props } := by
  have notGroup : name ≠ "#group" := by
    rintro rfl
    cases resolved
  rw [resolve_of_ne notGroup] at resolved
  cases found : registry.get? name with
  | some implementation =>
      rw [found] at resolved
      obtain rfl := Resolution.kept.inj resolved
      exact ⟨notGroup, found⟩
  | none =>
      simp only [found] at resolved
      split at resolved
      · next lower =>
          obtain rfl := Resolution.kept.inj resolved
          exact ⟨notGroup, found, lower⟩
      · cases resolved

/-- The name of a consistent element is resolved to its kind and no other, or to a group if the
element is a fragment.
-/
theorem resolves_of_isConsistent {kind : Kind ι} {key : Option String}
    {props : Tree.Props (Kind ι)} (consistent : IsConsistent registry { kind, key, props })
    : (∀ found, resolve registry kind.identifier = .kept found → found = kind)
      ∧ (resolve registry kind.identifier = .group → kind = .fragment)
      ∧ resolve registry kind.identifier ≠ .unknown := by
  cases kind with
  | fragment =>
      have resolved : resolve registry (Kind.fragment : Kind ι).identifier = .group := rfl
      simp [resolved]
  | intrinsic tag =>
      obtain ⟨notGroup, unregistered, lower⟩ := consistent
      have resolved : resolve registry tag = .kept (.intrinsic tag) := by
        simp only [resolve_of_ne notGroup, unregistered, if_pos lower]
      simp [Kind.identifier, resolved, eq_comm]
  | component name implementation =>
      obtain ⟨notGroup, registered⟩ := consistent
      have resolved : resolve registry name = .kept (.component name implementation) := by
        simp only [resolve_of_ne notGroup, registered]
      simp [Kind.identifier, resolved, eq_comm]

-----------------------------------------------------------------------------------------
-- What is read is consistent
-----------------------------------------------------------------------------------------

mutual

/-- The elements of what is read from a value are consistent, by induction on the value. -/
theorem consistent_of_revive {v : Json.Value} {read : Revived (Node ι)}
    (h : revive registry v = .ok read)
    : ∀ e ∈ elements read.1, IsConsistent registry e := by
  match v with
  | .null | .bool _ | .number _ | .string _ =>
      obtain rfl := Except.ok.inj h
      exact List.forall_mem_nil _
  | .object fields =>
      obtain ⟨inside, readInside, same⟩ := bind_eq_ok.mp h
      obtain rfl := Except.ok.inj same
      simp only [elements, Tree.Node.elements, ← Tree.Node.elementsOfProps_eq_elementsOfFields]
      exact consistent_of_reviveFields readInside
  | .array [] =>
      obtain rfl := Except.ok.inj h
      exact List.forall_mem_nil _
  | .array (.string marker :: rest) =>
      rw [revive] at h
      split at h
      · exact consistent_of_reviveElement h
      · obtain ⟨inside, readInside, same⟩ := bind_eq_ok.mp h
        obtain rfl := Except.ok.inj same
        have consistent := consistent_of_reviveItems readInside
        simp only
        split
        · exact consistent
        · exact consistent
  | .array (.null :: rest) | .array (.bool _ :: rest) | .array (.number _ :: rest)
  | .array (.array _ :: rest) | .array (.object _ :: rest) =>
      obtain ⟨inside, readInside, same⟩ := bind_eq_ok.mp h
      obtain rfl := Except.ok.inj same
      exact consistent_of_reviveItems readInside

/-- The same for items, by induction on the items. -/
theorem consistent_of_reviveItems {items : List Json.Value} {read : Revived (List (Node ι))}
    (h : reviveItems registry items = .ok read)
    : ∀ e ∈ Tree.Node.elementsOfItems (fun _ => false) read.1, IsConsistent registry e := by
  match items with
  | [] =>
      obtain rfl := Except.ok.inj h
      exact List.forall_mem_nil _
  | v :: rest =>
      obtain ⟨first, readFirst, h⟩ := bind_eq_ok.mp h
      obtain ⟨later, readLater, same⟩ := bind_eq_ok.mp h
      obtain rfl := Except.ok.inj same
      exact List.forall_mem_append.mpr
        ⟨consistent_of_revive readFirst, consistent_of_reviveItems readLater⟩

/-- The same for fields, which are those of a map or properties, by induction on the fields. -/
theorem consistent_of_reviveFields {fields : List (String × Json.Value)}
    {read : Revived (List (String × Node ι))} (h : reviveFields registry fields = .ok read)
    : ∀ e ∈ elementsOfProps read.1, IsConsistent registry e := by
  match fields with
  | [] =>
      obtain rfl := Except.ok.inj h
      exact List.forall_mem_nil _
  | (name, v) :: rest =>
      obtain ⟨first, readFirst, h⟩ := bind_eq_ok.mp h
      obtain ⟨later, readLater, same⟩ := bind_eq_ok.mp h
      obtain rfl := Except.ok.inj same
      exact List.forall_mem_append.mpr
        ⟨consistent_of_revive readFirst, consistent_of_reviveFields readLater⟩

/-- Only children are read of the properties of a group, by induction on the properties. -/
theorem consistent_of_reviveChildren {fields : List (String × Json.Value)}
    {read : Revived (List (String × Node ι))} (h : reviveChildren registry fields = .ok read)
    : (∀ prop ∈ read.1, prop.1 = "children")
      ∧ ∀ e ∈ elementsOfProps read.1, IsConsistent registry e := by
  match fields with
  | [] =>
      obtain rfl := Except.ok.inj h
      exact ⟨List.forall_mem_nil _, List.forall_mem_nil _⟩
  | (name, v) :: rest =>
      rw [reviveChildren] at h
      split at h
      · next isChildren =>
          obtain ⟨child, readChild, same⟩ := bind_eq_ok.mp h
          obtain rfl := Except.ok.inj same
          refine ⟨List.forall_mem_singleton.mpr isChildren, ?_⟩
          exact List.forall_mem_append.mpr
            ⟨consistent_of_revive readChild, List.forall_mem_nil _⟩
      · exact consistent_of_reviveChildren h

/-- An element is of the kind that its name is resolved to, or a fragment of its children. -/
theorem consistent_of_reviveElement {items : List Json.Value} {read : Revived (Node ι)}
    (h : reviveElement registry items = .ok read)
    : ∀ e ∈ elements read.1, IsConsistent registry e := by
  rw [reviveElement.eq_def] at h
  split at h
  · split at h
    · cases h
    · split at h
      · next resolved =>
          obtain ⟨props, readProps, same⟩ := bind_eq_ok.mp h
          obtain rfl := Except.ok.inj same
          exact List.forall_mem_cons.mpr
            ⟨isConsistent_of_resolve resolved _ _, consistent_of_reviveFields readProps⟩
      all_goals
        obtain ⟨props, readProps, same⟩ := bind_eq_ok.mp h
        obtain rfl := Except.ok.inj same
        exact List.forall_mem_cons.mpr (consistent_of_reviveChildren readProps)
  · cases h

end

-----------------------------------------------------------------------------------------
-- What is consistent comes back
-----------------------------------------------------------------------------------------

/-- A reading succeeds. It gives `whole` again, without warnings, if the elements of `whole` are
consistent and their properties are maps.
-/
def Recovers (registry : Registry ι) (elements : List (Tree.Element (Kind ι))) (whole : α)
    (result : Except ElementFault (Revived α))
    : Prop :=
  ∃ read,
    result = .ok read
    ∧ ((∀ e ∈ elements, Json.Fields.Sorted e.props ∧ IsConsistent registry e)
        → read = (whole, []))

namespace Recovers

variable {first later : List (Tree.Element (Kind ι))} {whole : α} {next : β}
  {result : Except ElementFault (Revived α)} {following : Except ElementFault (Revived β)}

theorem map (h : Recovers registry first whole result) (use : α → β)
    : Recovers registry first (use whole)
        (do let read ← result; return (use read.1, read.2)) := by
  obtain ⟨read, rfl, back⟩ := h
  refine ⟨(use read.1, read.2), rfl, ?_⟩
  intro consistent
  rw [back consistent]

theorem append (h : Recovers registry first whole result)
    (others : Recovers registry later next following) (use : α → β → γ)
    : Recovers registry (first ++ later) (use whole next)
        (do
          let read ← result
          let more ← following
          return (use read.1 more.1, read.2 ++ more.2)) := by
  obtain ⟨read, rfl, back⟩ := h
  obtain ⟨more, rfl, backToo⟩ := others
  refine ⟨(use read.1 more.1, read.2 ++ more.2), rfl, ?_⟩
  intro consistent
  obtain ⟨here, there⟩ := List.forall_mem_append.mp consistent
  rw [back here, backToo there]
  rfl

end Recovers

/-- All properties of a live tree are written, as if they were the fields of a map. -/
theorem wireProps_eq_wireFields (props : List (String × Node ι))
    : Tree.Node.wireProps Kind.identifier (fun _ => false) props
      = Tree.Node.wireFields Kind.identifier (fun _ => false) props := by
  induction props with
  | nil => rfl
  | cons prop rest ih => exact congrArg ((prop.1, wire prop.2) :: ·) ih

mutual

/-- A live tree is read from its wire form, and comes back if it is consistent. By induction on the
tree.
-/
theorem recovers_wire (node : Node ι)
    : Recovers registry (elements node) node (revive registry (wire node)) := by
  match node with
  | .null | .bool _ | .number _ | .string _ => exact ⟨_, rfl, fun _ => rfl⟩
  | .list items =>
      obtain ⟨read, readItems, back⟩ := recovers_wireItems items
      rw [wire, revive_wire_list, readItems]
      refine ⟨_, rfl, ?_⟩
      intro consistent
      rw [back consistent]
  | .map fields =>
      have inside := (recovers_wireProps fields).map Tree.Node.map
      rw [elements, Tree.Node.elements, ← Tree.Node.elementsOfProps_eq_elementsOfFields, wire,
        Tree.Node.wire, ← wireProps_eq_wireFields]
      exact inside
  | .element kind key props =>
      simp only [wire, Tree.Node.wire, revive, beq_self_eq_true, if_true, reviveElement,
        elementKey?_wire]
      cases resolved : resolve registry kind.identifier with
      | kept found =>
          obtain ⟨read, readProps, back⟩ := recovers_wireProps props
          rw [readProps]
          refine ⟨_, rfl, ?_⟩
          intro consistent
          obtain ⟨⟨-, own⟩, inside⟩ := List.forall_mem_cons.mp consistent
          obtain rfl := (resolves_of_isConsistent own).1 found resolved
          rw [back inside]
      | group =>
          obtain ⟨read, readChildren, back⟩ := recovers_wireChildren props
          rw [readChildren]
          refine ⟨_, rfl, ?_⟩
          intro consistent
          obtain ⟨⟨sorted, own⟩, inside⟩ := List.forall_mem_cons.mp consistent
          obtain rfl := (resolves_of_isConsistent own).2.1 resolved
          rw [back sorted own inside]
      | unknown =>
          obtain ⟨read, readChildren, -⟩ := recovers_wireChildren props
          rw [readChildren]
          refine ⟨_, rfl, ?_⟩
          intro consistent
          obtain ⟨⟨-, own⟩, -⟩ := List.forall_mem_cons.mp consistent
          exact absurd resolved (resolves_of_isConsistent own).2.2

/-- The same for items, by induction on the items. -/
theorem recovers_wireItems (items : List (Node ι))
    : Recovers registry (Tree.Node.elementsOfItems (fun _ => false) items) items
        (reviveItems registry (Tree.Node.wireItems Kind.identifier (fun _ => false) items)) := by
  match items with
  | [] => exact ⟨_, rfl, fun _ => rfl⟩
  | node :: rest => exact (recovers_wire node).append (recovers_wireItems rest) List.cons

theorem recovers_wireProps (props : List (String × Node ι))
    : Recovers registry (elementsOfProps props) props
        (reviveFields registry (Tree.Node.wireProps Kind.identifier (fun _ => false) props)) := by
  match props with
  | [] => exact ⟨_, rfl, fun _ => rfl⟩
  | (name, node) :: rest =>
      exact (recovers_wire node).append (recovers_wireProps rest) fun node nodes =>
        (name, node) :: nodes

/-- The children among the properties of a group, by induction on the properties: they come back if
there are no others.
-/
theorem recovers_wireChildren (props : List (String × Node ι))
    : ∃ read,
        reviveChildren registry (Tree.Node.wireProps Kind.identifier (fun _ => false) props)
          = .ok read
        ∧ (Json.Fields.Sorted props → (∀ prop ∈ props, prop.1 = "children")
            → (∀ e ∈ elementsOfProps props,
                Json.Fields.Sorted e.props ∧ IsConsistent registry e)
            → read = (props, [])) := by
  match props with
  | [] => exact ⟨_, rfl, fun _ _ _ => rfl⟩
  | (name, node) :: rest =>
      by_cases isChildren : name = "children"
      · subst isChildren
        obtain ⟨read, readChild, back⟩ := recovers_wire node
        refine ⟨([("children", read.1)], read.2), ?_, ?_⟩
        · exact bind_eq_ok.mpr ⟨read, readChild, rfl⟩
        · intro sorted only inside
          have alone : rest = [] := by
            apply List.eq_nil_iff_forall_not_mem.mpr
            intro prop member
            exact sorted.ne_head prop member (only prop (List.mem_cons_of_mem _ member))
          subst alone
          rw [back (List.forall_mem_append.mp inside).1]
      · obtain ⟨read, readLater, -⟩ := recovers_wireChildren rest
        refine ⟨read, ?_, ?_⟩
        · exact (if_neg isChildren).trans readLater
        · intro _ only _
          exact absurd (only (name, node) List.mem_cons_self) isChildren

end

/-- Every live tree is read from its wire form. It comes back as it was, without warnings, exactly
if each of its elements is what the registry makes of its name; and so are the elements of all that
is read from any value.
-/
theorem fromWire_wire_iff (registry : Registry ι) {node : Node ι}
    (maps : ∀ e ∈ elements node, Json.Fields.Sorted e.props)
    : (∃ live warnings,
        fromWire registry (wire node) = .ok (live, warnings)
        ∧ (live = node ∧ warnings = [] ↔ ∀ e ∈ elements node, IsConsistent registry e))
      ∧ ∀ v live warnings,
          fromWire registry v = .ok (live, warnings)
            → ∀ e ∈ elements live, IsConsistent registry e := by
  have consistent (v : Json.Value) (live : Node ι) (warnings : List String)
      (h : fromWire registry v = .ok (live, warnings))
      : ∀ e ∈ elements live, IsConsistent registry e := by
    cases revived : revive registry v with
    | error fault =>
        rw [fromWire, revived] at h
        cases h
    | ok read =>
        rw [fromWire, revived] at h
        obtain rfl := Except.ok.inj h
        exact consistent_of_revive revived
  have recovered : Recovers registry (elements node) node (revive registry (wire node)) :=
    recovers_wire node
  obtain ⟨⟨live, warnings⟩, revived, back⟩ := recovered
  have read : fromWire registry (wire node) = .ok (live, warnings) := by
    rw [fromWire, revived]
    rfl
  refine ⟨⟨live, warnings, read, ?_, ?_⟩, consistent⟩
  · rintro ⟨rfl, rfl⟩
    exact consistent _ _ _ read
  · intro all
    exact Prod.mk.inj (back fun e member => ⟨maps e member, all e member⟩)

/-- A tree with a tag that the registry takes for a component, and a list that looks like an element
of the name of groups.
-/
def hiddenTag : Node Nat :=
  .element .fragment none
    [
      ("children",
        .list
          [
            .list [.string "$r", .string "#group", .null],
            .element (.intrinsic "p") (some "k") [("children", .string "$l"), ("wide", .bool true)],
            .element (.component "Note" 7) none []
          ])
    ]

/-- Its properties are maps, so that it is read, and comes back exactly if the tag is a tag. -/
theorem fromWire_hiddenTag
    : (∀ e ∈ elements hiddenTag, Json.Fields.Sorted e.props)
      ∧ (∃ live warnings,
          fromWire [("Note", 7), ("p", 8)] (wire hiddenTag) = .ok (live, warnings)
          ∧ (live = hiddenTag ∧ warnings = []
            ↔ ∀ e ∈ elements hiddenTag, IsConsistent [("Note", 7), ("p", 8)] e))
      ∧ ∀ v live warnings,
          fromWire [("Note", 7), ("p", 8)] v = .ok (live, warnings)
            → ∀ e ∈ elements live, IsConsistent [("Note", 7), ("p", 8)] e := by
  have maps : ∀ e ∈ elements hiddenTag, Json.Fields.Sorted e.props := by
    decide
  exact ⟨maps, fromWire_wire_iff [("Note", 7), ("p", 8)] maps⟩

end Folio.Live
