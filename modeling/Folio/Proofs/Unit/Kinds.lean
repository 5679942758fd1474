import Folio.Proofs.Unit.Reach

/-! What a unit builds are elements of the kinds that its lines open, and the group around them.
Whatever holds of the kinds that lines open holds of all elements of the tree.
-/

namespace Folio.Unit

open Folio.Tree (Kind Built Props)

variable {P : Kind → Prop} {env : Environment}

def Instruction.Opens (env : Environment) (kind : Kind) : Instruction → Prop
  | .openTag name => kind = .tag name
  | .openComponent name => ∃ binding, env.get? name = some binding ∧ kind = binding.kind
  | _ => False

-----------------------------------------------------------------------------------------
-- Nodes
-----------------------------------------------------------------------------------------

/-- Holds for trees whose elements are all of some kinds, save for those in internal properties. -/
def OnlyKinds (P : Kind → Prop) (node : Built) : Prop :=
  ∀ e ∈ node.elements Tree.internalProps.contains, P e.kind

theorem onlyKinds_list {items : List Built}
    : OnlyKinds P (.list items) ↔ ∀ node ∈ items, OnlyKinds P node :=
  Tree.Node.forall_elementsOfItems

theorem onlyKinds_insert {props : Props Kind} (h : ∀ prop ∈ props, OnlyKinds P prop.2)
    (name : String) {node : Built} (only : OnlyKinds P node)
    : ∀ prop ∈ props.insert name node, OnlyKinds P prop.2 := by
  intro prop member
  rcases Json.Fields.mem_insert member with rfl | old
  · exact only
  · exact h prop old

/-- The children among properties are of the same kinds, however they are stored. -/
theorem onlyKinds_children {props : Props Kind} (h : ∀ prop ∈ props, OnlyKinds P prop.2)
    : ∀ node ∈ props.children, OnlyKinds P node := by
  unfold Props.children
  cases found : props.get? Tree.childrenProp with
  | none => exact List.forall_mem_nil _
  | some node =>
      have only : OnlyKinds P node := h _ (Json.Fields.mem_of_get? found)
      cases node with
      | list items => exact onlyKinds_list.mp only
      | _ => exact List.forall_mem_singleton.mpr only

/-- Properties with other children hold those children, or none. -/
theorem onlyKinds_withChildren {props : Props Kind} (h : ∀ prop ∈ props, OnlyKinds P prop.2)
    {children : List Built} (only : ∀ node ∈ children, OnlyKinds P node)
    : ∀ prop ∈ props.withChildren children, OnlyKinds P prop.2 := by
  match children with
  | [] => exact fun prop member => h prop (List.mem_filter.mp member).1
  | [child] => exact onlyKinds_insert h _ (only child List.mem_cons_self)
  | _ :: _ :: _ => exact onlyKinds_insert h _ (onlyKinds_list.mpr only)

-----------------------------------------------------------------------------------------
-- Lines
-----------------------------------------------------------------------------------------

theorem mem_of_mem_withEarlier {earlier lines : List (List Char)}
    {entry : List (List Char) × List Char} (member : entry ∈ withEarlier earlier lines)
    : entry.2 ∈ lines := by
  induction lines generalizing earlier with
  | nil => cases member
  | cons line rest ih =>
      rcases List.mem_cons.mp member with rfl | later
      · exact List.mem_cons_self
      · exact List.mem_cons_of_mem _ (ih later)

/-- The kind of what a line opens is one that its instruction opens. -/
theorem OpensAs.exists_opens {before : List (List Char)} {line : List Char} {kind : Kind}
    (h : OpensAs env before line kind)
    : ∃ i, Instruction.ofLine line = .ok i ∧ i.Opens env kind := by
  cases h with
  | tag read => exact ⟨_, read, rfl⟩
  | component read _ bound => exact ⟨_, read, _, bound, rfl⟩

/-- What holds of the kinds that lines open holds of those of the elements that they opened. -/
theorem Opened.forall_kinds {lines : List (List Char)} {kinds : List Kind}
    (h : Opened env lines kinds)
    (opened : ∀ line ∈ lines, ∀ i, Instruction.ofLine line = .ok i →
      ∀ kind, i.Opens env kind → P kind)
    : ∀ kind ∈ kinds, P kind := by
  have known : ∀ opening ∈ openings lines, opening.2 ∈ lines := fun opening member =>
    mem_of_mem_withEarlier (List.mem_filter.mp member).1
  rw [Opened] at h
  generalize openings lines = entries at h known
  induction h with
  | nil => exact List.forall_mem_nil _
  | cons opens _ ih =>
      obtain ⟨here, later⟩ := List.forall_mem_cons.mp known
      obtain ⟨i, read, isOpened⟩ := opens.exists_opens
      exact List.forall_mem_cons.mpr ⟨opened _ here i read _ isOpened, ih later⟩

/-- A run gives a group. Apart from the group, all its elements are of the kinds that the lines
after the header open.
-/
theorem onlyKinds_of_run {text : String} {tree : Built} (ran : run env text = .ok tree)
    (opened : ∀ line ∈ (Text.lines text.toList).tail, ∀ i, Instruction.ofLine line = .ok i →
      ∀ kind, i.Opens env kind → P kind)
    : ∃ props, tree = .element .grouping none props ∧ ∀ prop ∈ props, OnlyKinds P prop.2 := by
  obtain ⟨body, props, lines, isGroup, kinds⟩ := opened_of_run ran
  rw [lines, List.tail_cons] at opened
  refine ⟨props, isGroup, fun prop known e member => ?_⟩
  have inside : e ∈ Tree.Node.elementsOfProps (fun _ => false) props :=
    Tree.Node.mem_elementsOfProps known (Tree.Node.mem_elements_of_hidden member)
  exact kinds.forall_kinds opened e.kind (List.mem_map_of_mem inside)

end Folio.Unit
