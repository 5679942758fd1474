import Folio.Proofs.Json.Fields
import Folio.Proofs.Json.Numbers
import Folio.Proofs.Live.BuiltTrees

/-! The written form of a built tree is read as a live tree exactly if it does not nest too deep. No
name, list, number or property of the tree stands in the way of reading it, under any registry.
-/

namespace Folio.Tree.Built

-----------------------------------------------------------------------------------------
-- How deep trees nest
-----------------------------------------------------------------------------------------

mutual

/-- How deep the written form of a tree nests. A list and a map are one level, an element is two:
its array, and the object of those properties that are written.
-/
def depth : Built → Nat
  | .null | .bool _ | .number _ | .string _ => 0
  | .list items => depthOfItems items + 1
  | .map fields => depthOfFields fields + 1
  | .element _ _ props => depthOfProps props + 2

def depthOfItems : List Built → Nat
  | [] => 0
  | node :: rest => max node.depth (depthOfItems rest)

def depthOfFields : List (String × Built) → Nat
  | [] => 0
  | (_, node) :: rest => max node.depth (depthOfFields rest)

def depthOfProps : List (String × Built) → Nat
  | [] => 0
  | (name, node) :: rest =>
      if internalProps.contains name then depthOfProps rest
      else max node.depth (depthOfProps rest)

end

mutual

/-- The depth of a tree is that of its written form, by induction on the tree. -/
theorem depth_wire (node : Built)
    : (Node.wire Kind.identifier internalProps.contains node).depth = node.depth := by
  match node with
  | .null | .bool _ | .number _ | .string _ => rfl
  | .list items =>
      have inside := depthOfItems_wire items
      cases marked : Node.startsWithMarker items <;>
        simp [Node.wire, marked, Json.Value.depth, Json.Value.depthOfItems, depth, inside]
  | .map fields =>
      simp only [Node.wire, Json.Value.depth, depth, depthOfFields_wire fields]
  | .element kind key props =>
      have inside := depthOfProps_wire props
      cases key <;>
        simp [Node.wire, Json.Value.depth, Json.Value.depthOfItems, depth, inside]

theorem depthOfItems_wire (items : List Built)
    : Json.Value.depthOfItems (Node.wireItems Kind.identifier internalProps.contains items)
      = depthOfItems items := by
  match items with
  | [] => rfl
  | node :: rest =>
      simp only [Node.wireItems, Json.Value.depthOfItems, depthOfItems, depth_wire node,
        depthOfItems_wire rest]

theorem depthOfFields_wire (fields : List (String × Built))
    : Json.Value.depthOfFields (Node.wireFields Kind.identifier internalProps.contains fields)
      = depthOfFields fields := by
  match fields with
  | [] => rfl
  | (name, node) :: rest =>
      simp only [Node.wireFields, Json.Value.depthOfFields, depthOfFields, depth_wire node,
        depthOfFields_wire rest]

theorem depthOfProps_wire (props : List (String × Built))
    : Json.Value.depthOfFields (Node.wireProps Kind.identifier internalProps.contains props)
      = depthOfProps props := by
  match props with
  | [] => rfl
  | (name, node) :: rest =>
      rw [Node.wireProps, depthOfProps]
      split
      · exact depthOfProps_wire rest
      · rw [Json.Value.depthOfFields, depth_wire node, depthOfProps_wire rest]

end

end Folio.Tree.Built

namespace Folio.Live

open Folio.Tree (Built)

variable {ι : Type} {registry : Registry ι} {f : Json.Number → Json.Number}

-----------------------------------------------------------------------------------------
-- Values that are read as live trees
-----------------------------------------------------------------------------------------

def Revives (registry : Registry ι) (v : Json.Value) : Prop :=
  ∃ read, revive registry v = .ok read

theorem reviveItems_ok {items : List Json.Value} (h : ∀ v ∈ items, Revives registry v)
    : ∃ read, reviveItems registry items = .ok read := by
  induction items with
  | nil => exact ⟨_, rfl⟩
  | cons v rest ih =>
      obtain ⟨first, readFirst⟩ := h v List.mem_cons_self
      obtain ⟨others, readOthers⟩ := ih fun w member => h w (List.mem_cons_of_mem v member)
      simp only [reviveItems, readFirst, readOthers]
      exact ⟨_, rfl⟩

theorem reviveFields_ok {fields : List (String × Json.Value)}
    (h : ∀ entry ∈ fields, Revives registry entry.2)
    : ∃ read, reviveFields registry fields = .ok read := by
  induction fields with
  | nil => exact ⟨_, rfl⟩
  | cons entry rest ih =>
      obtain ⟨first, readFirst⟩ := h entry List.mem_cons_self
      obtain ⟨others, readOthers⟩ := ih fun w member => h w (List.mem_cons_of_mem entry member)
      simp only [reviveFields, readFirst, readOthers]
      exact ⟨_, rfl⟩

theorem reviveChildren_ok {fields : List (String × Json.Value)}
    (h : ∀ entry ∈ fields, Revives registry entry.2)
    : ∃ read, reviveChildren registry fields = .ok read := by
  induction fields with
  | nil => exact ⟨_, rfl⟩
  | cons entry rest ih =>
      obtain ⟨name, v⟩ := entry
      by_cases isChildren : name = Tree.childrenProp
      · obtain ⟨node, read⟩ := h (name, v) List.mem_cons_self
        simp only [reviveChildren, if_pos isChildren, read]
        exact ⟨_, rfl⟩
      · simp only [reviveChildren, if_neg isChildren]
        exact ih fun w member => h w (List.mem_cons_of_mem _ member)

/-- An element of any name is read if its properties are. -/
theorem revives_element (name : String) {key : Json.Value} {k : Option String}
    (hasKey : elementKey? key = some k) {fields : List (String × Json.Value)}
    (h : ∀ entry ∈ fields, Revives registry entry.2)
    : Revives registry
        (.array [.string Tree.elementMarker, .string name, key, .object fields]) := by
  obtain ⟨props, readProps⟩ := reviveFields_ok h
  obtain ⟨children, readChildren⟩ := reviveChildren_ok h
  simp only [Revives, revive, beq_self_eq_true, if_true, reviveElement, hasKey]
  cases resolve registry name with
  | kept kind =>
      simp only [readProps]
      exact ⟨_, rfl⟩
  | group | unknown =>
      simp only [readChildren]
      exact ⟨_, rfl⟩

-----------------------------------------------------------------------------------------
-- Written trees
-----------------------------------------------------------------------------------------

theorem mem_rereadFields {before fields : Json.Fields Json.Value} {entry : String × Json.Value}
    (h : entry ∈ Json.Value.rereadFields f before fields)
    : entry ∈ before ∨ ∃ old ∈ fields, entry = (old.1, old.2.reread f) := by
  induction fields generalizing before with
  | nil => exact .inl h
  | cons field rest ih =>
      rcases ih h with put | ⟨old, member, same⟩
      · rcases Json.Fields.mem_insert put with new | earlier
        · exact .inr ⟨field, List.mem_cons_self, new⟩
        · exact .inl earlier
      · exact .inr ⟨old, List.mem_cons_of_mem _ member, same⟩

/-- Fields that are read in the order of their names. -/
theorem revives_rereadFields {fields : Json.Fields Json.Value}
    (h : ∀ entry ∈ fields, Revives registry (entry.2.reread f))
    : ∀ entry ∈ Json.Value.rereadFields f [] fields, Revives registry entry.2 := by
  intro entry member
  rcases mem_rereadFields member with none | ⟨old, earlier, rfl⟩
  · cases none
  · exact h old earlier

theorem reread_eq_string {v : Json.Value} {s : String} (h : v.reread f = .string s)
    : v = .string s := by
  cases v <;> simp_all [Json.Value.reread]

mutual

/-- What is read of a written tree is a live tree, by induction on the tree. -/
theorem revives_wire (registry : Registry ι) (f : Json.Number → Json.Number) (node : Built)
    : Revives registry
        ((Tree.Node.wire Tree.Kind.identifier Tree.internalProps.contains node).reread f) := by
  match node with
  | .null | .bool _ | .number _ | .string _ => exact ⟨_, rfl⟩
  | .list items =>
      obtain ⟨read, reads⟩ := reviveItems_ok (revives_wireItems registry f items)
      cases marked : Tree.Node.startsWithMarker items with
      | true =>
          simp only [Revives, Tree.Node.wire, marked, if_true, Json.Value.reread,
            Json.Value.rereadItems, revive, reads]
          exact ⟨_, rfl⟩
      | false =>
          simp only [Revives, Tree.Node.wire, marked, Bool.false_eq_true, if_false,
            Json.Value.reread]
          refine ⟨_, (revive_array registry _ ?_).trans (by rw [reads]; rfl)⟩
          intro s first
          cases items with
          | nil => cases first
          | cons node rest =>
              have wired := reread_eq_string (Option.some.inj first)
              obtain rfl := wire_eq_string wired
              simpa [Tree.Node.startsWithMarker] using marked
  | .map fields =>
      obtain ⟨read, reads⟩ :=
        reviveFields_ok (revives_rereadFields (revives_wireFields registry f fields))
      simp only [Revives, Tree.Node.wire, Json.Value.reread, revive, reads]
      exact ⟨_, rfl⟩
  | .element kind key props =>
      refine revives_element (k := key) kind.identifier ?_
        (revives_rereadFields (revives_wireProps registry f props))
      cases key <;> rfl

theorem revives_wireItems (registry : Registry ι) (f : Json.Number → Json.Number)
    (items : List Built)
    : ∀ v ∈ Json.Value.rereadItems f
          (Tree.Node.wireItems Tree.Kind.identifier Tree.internalProps.contains items),
        Revives registry v := by
  match items with
  | [] => exact fun v member => by cases member
  | node :: rest =>
      intro v member
      rcases List.mem_cons.mp member with rfl | later
      · exact revives_wire registry f node
      · exact revives_wireItems registry f rest v later

theorem revives_wireFields (registry : Registry ι) (f : Json.Number → Json.Number)
    (fields : List (String × Built))
    : ∀ entry ∈ Tree.Node.wireFields Tree.Kind.identifier Tree.internalProps.contains fields,
        Revives registry (entry.2.reread f) := by
  match fields with
  | [] => exact fun entry member => by cases member
  | (name, node) :: rest =>
      intro entry member
      rcases List.mem_cons.mp member with rfl | later
      · exact revives_wire registry f node
      · exact revives_wireFields registry f rest entry later

theorem revives_wireProps (registry : Registry ι) (f : Json.Number → Json.Number)
    (props : List (String × Built))
    : ∀ entry ∈ Tree.Node.wireProps Tree.Kind.identifier Tree.internalProps.contains props,
        Revives registry (entry.2.reread f) := by
  match props with
  | [] => exact fun entry member => by cases member
  | (name, node) :: rest =>
      intro entry member
      rw [Tree.Node.wireProps] at member
      split at member
      · exact revives_wireProps registry f rest entry member
      · rcases List.mem_cons.mp member with rfl | later
        · exact revives_wire registry f node
        · exact revives_wireProps registry f rest entry later

end

/-- The written form of a built tree is read exactly if it does not nest too deep. -/
theorem read_render (registry : Registry ι) (node : Built)
    : if node.depth ≤ Json.maxDepth then ∃ live, read registry node.wire.render = .ok live
      else
        ∃ place, read registry node.wire.render = .error (.json (.at_ .recursionLimit place)) := by
  obtain ⟨f, readAs⟩ := Json.exists_readAs_all
  have parsed := Json.parse_render readAs node.wire
  have depth : node.wire.depth = node.depth := Tree.Built.depth_wire node
  rw [depth] at parsed
  split
  · next fits =>
      rw [if_pos fits] at parsed
      obtain ⟨result, revived⟩ := revives_wire registry f node
      have same : read registry node.wire.render = fromWire registry (node.wire.reread f) := by
        rw [read, parsed]
        rfl
      rw [same, fromWire, Tree.Built.wire, revived]
      exact ⟨_, rfl⟩
  · next deep =>
      rw [if_neg deep] at parsed
      obtain ⟨place, failed⟩ := parsed
      refine ⟨place, ?_⟩
      rw [read, failed]
      rfl

end Folio.Live
