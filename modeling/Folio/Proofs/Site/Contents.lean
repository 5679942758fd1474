import Mathlib.Data.List.Basic
import Folio.Proofs.Json.Fields
import Folio.Site.Toc

/-! What a table of contents lists: for each heading of the content that is inside no other one it
has an entry, in the order of the document, and no other entry but the one for the top of the page.
Headings are found by their places in the content, which is stored otherwise than the tree that the
table was made from.
-/

namespace Folio.Site

open Content (LogicalPath)
open Folio.Tree (Built Kind Node Props)

-----------------------------------------------------------------------------------------
-- Places
-----------------------------------------------------------------------------------------

/-- A place in a tree: which node to go down to, step by step. The order of places is that of the
document.
-/
abbrev Place :=
  List Nat

/-- The nodes right below a node: the items of a list, and the children of an element. -/
def below : Built → List Built
  | .list items => items
  | .element _ _ props => Props.children props
  | _ => []

def at? (node : Built) : Place → Option Built
  | [] => some node
  | i :: place => (below node)[i]?.bind (at? · place)

theorem at?_cons {node found : Built} {i : Nat} {place : Place}
    : at? node (i :: place) = some found
      ↔ ∃ child, (below node)[i]? = some child ∧ at? child place = some found :=
  Option.bind_eq_some_iff

/-- The nodes below a node are smaller. -/
theorem sizeOf_lt_of_mem_below {node child : Built} (member : child ∈ below node)
    : sizeOf child < sizeOf node := by
  cases node with
  | list items =>
      have smaller : sizeOf child < sizeOf items := List.sizeOf_lt_of_mem member
      simp only [Node.list.sizeOf_spec]
      omega
  | element kind key props =>
      simp only [below, Props.children] at member
      cases found : Json.Fields.get? props Tree.childrenProp with
      | none =>
          rw [found] at member
          cases member
      | some node =>
          have inside := List.sizeOf_lt_of_mem (Json.Fields.mem_of_get? found)
          simp only [Prod.mk.sizeOf_spec] at inside
          have small : sizeOf child ≤ sizeOf node := by
            rw [found] at member
            cases node with
            | list items =>
                have smaller : sizeOf child < sizeOf items := List.sizeOf_lt_of_mem member
                simp only [Node.list.sizeOf_spec]
                omega
            | _ => exact Nat.le_of_eq (congrArg sizeOf (List.mem_singleton.mp member))
          simp only [Node.element.sizeOf_spec]
          omega
  | _ => cases member

/-- What holds of a node if it holds of the nodes below it holds of all nodes. -/
theorem induction_below {P : Built → Prop}
    (step : ∀ node, (∀ child ∈ below node, P child) → P node) (node : Built)
    : P node :=
  step node fun child _ => induction_below step child
termination_by sizeOf node
decreasing_by exact sizeOf_lt_of_mem_below ‹_›

-----------------------------------------------------------------------------------------
-- Headings
-----------------------------------------------------------------------------------------

/-- Holds for a heading of the second or third level with a text as its id, and for the entry that
it has: this leads to the id, and has the level of the heading, and its text without blanks at the
ends.
-/
inductive Lists : Built → TocEntry → Prop
  | heading {tag : String} {depth : Nat} (level : (tag, depth) ∈ [("h2", 2), ("h3", 3)])
    {key : Option String} {props : Props Kind} {id : String}
    (given : Json.Fields.get? props "id" = some (.string id))
    : Lists (.element (.tag tag) key props)
        {
          url := "#" ++ id
          depth
          text := String.ofList
            (Text.trim (Built.text (.element (.tag tag) key props)).toList)
        }

def IsListed (node : Built) : Prop :=
  ∃ entry, Lists node entry

/-- Holds for the place of a heading that is inside no other one, and for the entry of the heading.
-/
structure IsEntryAt (root : Built) (place : Place) (entry : TocEntry) : Prop where
  lists : ∃ node, at? root place = some node ∧ Lists node entry
  outermost : ∀ outer inner, place = outer ++ inner → inner ≠ [] →
    ∀ node, at? root outer = some node → ¬IsListed node

/-- Holds for the headings of a tree that are inside no other ones, with their entries, in the order
of the document.
-/
structure Outlines (root : Built) (placed : List (Place × TocEntry)) : Prop where
  ordered : placed.Pairwise fun a b => a.1 < b.1
  exact : ∀ place entry, (place, entry) ∈ placed ↔ IsEntryAt root place entry

theorem tocDepth?_eq_some {kind : Kind} {depth : Nat}
    : tocDepth? kind = some depth
      ↔ ∃ tag, kind = .tag tag ∧ (tag, depth) ∈ [("h2", 2), ("h3", 3)] := by
  unfold tocDepth?
  split <;> grind

/-- The entry that is made for an element is the one that the element has. -/
theorem tocEntry?_eq_some {kind : Kind} {key : Option String} {props : Props Kind}
    {entry : TocEntry}
    : tocEntry? kind props = some entry ↔ Lists (.element kind key props) entry := by
  constructor
  · intro made
    obtain ⟨depth, isHeading, withDepth⟩ := Option.bind_eq_some_iff.mp made
    obtain ⟨id, hasId, withId⟩ := Option.bind_eq_some_iff.mp withDepth
    obtain ⟨node, given, isString⟩ := Option.bind_eq_some_iff.mp hasId
    obtain ⟨tag, rfl, level⟩ := tocDepth?_eq_some.mp isHeading
    obtain rfl := Option.some.inj withId
    cases node with
    | string s =>
        obtain rfl := Option.some.inj isString
        exact .heading level given
    | _ => cases isString
  · intro lists
    cases lists with
    | @heading tag depth level _ _ id given =>
        have isHeading : tocDepth? (.tag tag) = some depth :=
          tocDepth?_eq_some.mpr ⟨tag, rfl, level⟩
        have hasId : props.string? "id" = some id := by
          rw [Props.string?, given]
          rfl
        unfold tocEntry?
        rw [isHeading, hasId]
        rfl

/-- Only elements have entries. -/
theorem Lists.exists_element {node : Built} {entry : TocEntry} (h : Lists node entry)
    : ∃ kind key props, node = .element kind key props ∧ tocEntry? kind props = some entry := by
  cases h with
  | heading level given => exact ⟨_, _, _, rfl, tocEntry?_eq_some.mpr (.heading level given)⟩

theorem Lists.unique {node : Built} {entry other : TocEntry} (h : Lists node entry)
    (again : Lists node other)
    : entry = other := by
  obtain ⟨kind, key, props, rfl, made⟩ := h.exists_element
  rw [tocEntry?_eq_some.mpr again] at made
  exact (Option.some.inj made).symm

theorem not_isListed_list (items : List Built) : ¬IsListed (.list items) := by
  intro listed
  obtain ⟨entry, lists⟩ := listed
  cases lists

/-- A group is no heading. -/
theorem not_isListed_group (key : Option String) (props : Props Kind)
    : ¬IsListed (.element .grouping key props) := by
  intro listed
  obtain ⟨entry, lists⟩ := listed
  cases lists

-----------------------------------------------------------------------------------------
-- What is listed of a tree
-----------------------------------------------------------------------------------------

/-- The headings in a node are those in the children that it stands for. -/
theorem headingsOf_asChildren (node : Built) : headingsOf node.asChildren = headings node := by
  cases node with
  | list items => rfl
  | _ => exact List.append_nil _

theorem childHeadings_eq (props : Props Kind)
    : childHeadings props = headingsOf (Props.children props) := by
  induction props with
  | nil => rfl
  | cons first rest ih =>
      obtain ⟨name, node⟩ := first
      rw [childHeadings, Props.children, Json.Fields.get?_cons]
      by_cases isChildren : name = Tree.childrenProp
      · rw [if_pos isChildren, if_pos isChildren]
        exact (headingsOf_asChildren node).symm
      · rw [if_neg isChildren, if_neg isChildren]
        exact ih

/-- Of a heading with an entry nothing else is listed. -/
theorem headings_of_lists {node : Built} {entry : TocEntry} (h : Lists node entry)
    : headings node = [entry] := by
  obtain ⟨kind, key, props, rfl, made⟩ := h.exists_element
  rw [headings, made]

/-- Of any other node that is listed which is listed of the nodes below it. -/
theorem headings_of_not_isListed {node : Built} (h : ¬IsListed node)
    : headings node = headingsOf (below node) := by
  cases node with
  | element kind key props =>
      have made : tocEntry? kind props = none := by
        apply Option.eq_none_iff_forall_not_mem.mpr
        intro entry made
        exact h ⟨entry, tocEntry?_eq_some.mp made⟩
      rw [headings, made]
      exact childHeadings_eq props
  | _ => rfl

theorem isEntryAt_nil {node : Built} {entry : TocEntry}
    : IsEntryAt node [] entry ↔ Lists node entry := by
  constructor
  · intro h
    obtain ⟨found, here, lists⟩ := h.lists
    obtain rfl := Option.some.inj here
    exact lists
  · intro lists
    refine ⟨⟨node, rfl, lists⟩, ?_⟩
    intro outer inner whole notNil
    exact absurd (List.append_eq_nil_iff.mp whole.symm).2 notNil

/-- An entry further down is one of a node below, and no heading holds it. -/
theorem isEntryAt_cons {node : Built} {i : Nat} {place : Place} {entry : TocEntry}
    : IsEntryAt node (i :: place) entry
      ↔ ¬IsListed node
        ∧ ∃ child, (below node)[i]? = some child ∧ IsEntryAt child place entry := by
  constructor
  · intro h
    obtain ⟨found, here, lists⟩ := h.lists
    obtain ⟨child, step, inside⟩ := at?_cons.mp here
    refine ⟨h.outermost [] (i :: place) rfl (List.cons_ne_nil i place) node rfl, child, step,
      ⟨found, inside, lists⟩, ?_⟩
    intro outer inner whole notNil other there
    refine h.outermost (i :: outer) inner (congrArg (i :: ·) whole) notNil other ?_
    exact at?_cons.mpr ⟨child, step, there⟩
  · intro h
    obtain ⟨plain, child, step, inside⟩ := h
    obtain ⟨found, here, lists⟩ := inside.lists
    refine ⟨⟨found, at?_cons.mpr ⟨child, step, here⟩, lists⟩, ?_⟩
    intro outer inner whole notNil other there
    cases outer with
    | nil =>
        obtain rfl := Option.some.inj there
        exact plain
    | cons j outer =>
        obtain ⟨rfl, later⟩ := List.cons.inj whole
        obtain ⟨same, stepAgain, there⟩ := at?_cons.mp there
        obtain rfl := Option.some.inj (step.symm.trans stepAgain)
        exact inside.outermost outer inner later notNil other there

/-- Around or at each heading there is one that is inside no other one, by induction on its place.
-/
theorem exists_isEntryAt {root node : Built} {place : Place} (here : at? root place = some node)
    (listed : IsListed node)
    : ∃ outer entry, IsEntryAt root outer entry := by
  induction place generalizing root with
  | nil =>
      obtain rfl := Option.some.inj here
      obtain ⟨entry, lists⟩ := listed
      exact ⟨[], entry, isEntryAt_nil.mpr lists⟩
  | cons i place ih =>
      by_cases rootListed : IsListed root
      · obtain ⟨entry, lists⟩ := rootListed
        exact ⟨[], entry, isEntryAt_nil.mpr lists⟩
      · obtain ⟨child, step, inside⟩ := at?_cons.mp here
        obtain ⟨outer, entry, found⟩ := ih inside
        exact ⟨i :: outer, entry, isEntryAt_cons.mpr ⟨rootListed, child, step, found⟩⟩

namespace Outlines

variable {node : Built} {placed : List (Place × TocEntry)}

/-- A heading outlines itself. -/
theorem of_lists {entry : TocEntry} (lists : Lists node entry) : Outlines node [([], entry)] where
  ordered := List.pairwise_singleton _ _
  exact := by
    intro place other
    rw [List.mem_singleton, Prod.mk.injEq]
    constructor
    · intro same
      obtain ⟨rfl, rfl⟩ := same
      exact isEntryAt_nil.mpr lists
    · intro found
      cases place with
      | nil => exact ⟨rfl, (isEntryAt_nil.mp found).unique lists⟩
      | cons i place => exact absurd ⟨entry, lists⟩ (isEntryAt_cons.mp found).1

/-- Any other node is outlined as the list of the nodes below it. -/
theorem of_below (plain : ¬IsListed node) (h : Outlines (.list (below node)) placed)
    : Outlines node placed where
  ordered := h.ordered
  exact := by
    intro place entry
    rw [h.exact]
    cases place with
    | nil =>
        rw [isEntryAt_nil, isEntryAt_nil]
        exact iff_of_false (fun lists => not_isListed_list _ ⟨entry, lists⟩)
          (fun lists => plain ⟨entry, lists⟩)
    | cons i place =>
        rw [isEntryAt_cons, isEntryAt_cons]
        exact and_congr_left fun _ => iff_of_true (not_isListed_list _) plain

theorem nil : Outlines (.list []) [] where
  ordered := .nil
  exact := by
    intro place entry
    refine iff_of_false List.not_mem_nil fun found => ?_
    cases place with
    | nil => exact not_isListed_list [] ⟨entry, isEntryAt_nil.mp found⟩
    | cons i place =>
        obtain ⟨-, child, step, -⟩ := isEntryAt_cons.mp found
        cases step

end Outlines

/-- The place of a node in a list after one more node was put in front. -/
def Place.next : Place → Place
  | [] => []
  | i :: place => (i + 1) :: place

/-- In a list with one more node in front the entries of that node come first, and those of the
others have moved on.
-/
theorem isEntryAt_list_cons {node : Built} {rest : List Built} {place : Place} {entry : TocEntry}
    : IsEntryAt (.list (node :: rest)) place entry
      ↔ (∃ inner, IsEntryAt node inner entry ∧ 0 :: inner = place)
        ∨ ∃ old, IsEntryAt (.list rest) old entry ∧ Place.next old = place := by
  constructor
  · intro found
    cases place with
    | nil => exact absurd ⟨entry, isEntryAt_nil.mp found⟩ (not_isListed_list _)
    | cons i place =>
        obtain ⟨-, child, step, inside⟩ := isEntryAt_cons.mp found
        cases i with
        | zero =>
            obtain rfl := Option.some.inj step
            exact .inl ⟨place, inside, rfl⟩
        | succ i =>
            exact .inr ⟨i :: place,
              isEntryAt_cons.mpr ⟨not_isListed_list rest, child, step, inside⟩,
              rfl⟩
  · intro found
    rcases found with ⟨inner, inside, rfl⟩ | ⟨old, inside, rfl⟩
    · exact isEntryAt_cons.mpr ⟨not_isListed_list _, node, rfl, inside⟩
    · cases old with
      | nil => exact absurd ⟨entry, isEntryAt_nil.mp inside⟩ (not_isListed_list _)
      | cons i place =>
          obtain ⟨-, child, step, inside⟩ := isEntryAt_cons.mp inside
          exact isEntryAt_cons.mpr ⟨not_isListed_list _, child, step, inside⟩

/-- Moving on keeps the order of places in a list. -/
theorem next_lt_next {rest : List Built} {a b : Place} {entry other : TocEntry}
    (ha : IsEntryAt (.list rest) a entry) (hb : IsEntryAt (.list rest) b other) (before : a < b)
    : a.next < b.next := by
  cases a with
  | nil => exact absurd ⟨entry, isEntryAt_nil.mp ha⟩ (not_isListed_list rest)
  | cons i a =>
      cases b with
      | nil => exact absurd ⟨other, isEntryAt_nil.mp hb⟩ (not_isListed_list rest)
      | cons j b =>
          apply List.cons_lt_cons_iff.mpr
          exact (List.cons_lt_cons_iff.mp before).imp Nat.succ_lt_succ
            fun ⟨same, inside⟩ => ⟨congrArg Nat.succ same, inside⟩

theorem Outlines.cons {node : Built} {rest : List Built} {placed others : List (Place × TocEntry)}
    (first : Outlines node placed) (later : Outlines (.list rest) others)
    : Outlines (.list (node :: rest))
        (placed.map (fun entry => (0 :: entry.1, entry.2))
          ++ others.map fun entry => (entry.1.next, entry.2)) where
  ordered := by
    refine List.pairwise_append.mpr ⟨?_, ?_, ?_⟩
    · refine List.pairwise_map.mpr (first.ordered.imp fun before => ?_)
      exact List.cons_lt_cons_iff.mpr (.inr ⟨rfl, before⟩)
    · refine List.pairwise_map.mpr (later.ordered.imp_of_mem fun ha hb before => ?_)
      exact next_lt_next ((later.exact _ _).mp ha) ((later.exact _ _).mp hb) before
    · intro a ha b hb
      obtain ⟨⟨inner, entry⟩, -, rfl⟩ := List.mem_map.mp ha
      obtain ⟨⟨old, other⟩, member, rfl⟩ := List.mem_map.mp hb
      cases old with
      | nil =>
          have found := (later.exact [] other).mp member
          exact absurd ⟨other, isEntryAt_nil.mp found⟩ (not_isListed_list rest)
      | cons i old => exact List.cons_lt_cons_iff.mpr (.inl (Nat.succ_pos i))
  exact := by
    intro place entry
    rw [isEntryAt_list_cons, List.mem_append, List.mem_map, List.mem_map]
    simp only [Prod.exists, Prod.mk.injEq, first.exact, later.exact]
    constructor
    · intro found
      rcases found with ⟨inner, _, inside, same, rfl⟩ | ⟨old, _, inside, same, rfl⟩
      · exact .inl ⟨inner, inside, same⟩
      · exact .inr ⟨old, inside, same⟩
    · intro found
      rcases found with ⟨inner, inside, same⟩ | ⟨old, inside, same⟩
      · exact .inl ⟨inner, entry, inside, same, rfl⟩
      · exact .inr ⟨old, entry, inside, same, rfl⟩

/-- The entries of nodes that are outlined are those of the list of them, by induction on the nodes.
-/
theorem exists_outlines_list {nodes : List Built}
    (h : ∀ node ∈ nodes,
      ∃ placed, Outlines node placed ∧ placed.map Prod.snd = headings node)
    : ∃ placed, Outlines (.list nodes) placed ∧ placed.map Prod.snd = headingsOf nodes := by
  induction nodes with
  | nil => exact ⟨[], .nil, rfl⟩
  | cons node rest ih =>
      obtain ⟨here, there⟩ := List.forall_mem_cons.mp h
      obtain ⟨placed, first, entries⟩ := here
      obtain ⟨others, later, more⟩ := ih there
      refine ⟨_, first.cons later, ?_⟩
      rw [List.map_append, List.map_map, List.map_map, headingsOf, ← entries, ← more]
      rfl

/-- Nothing is listed exactly if there is no heading, also inside of other ones. -/
theorem Outlines.eq_nil_iff {root : Built} {placed : List (Place × TocEntry)}
    (outlines : Outlines root placed)
    : placed = [] ↔ ¬∃ place node, at? root place = some node ∧ IsListed node := by
  constructor
  · intro nothing found
    obtain ⟨place, node, here, listed⟩ := found
    obtain ⟨outer, entry, isEntry⟩ := exists_isEntryAt here listed
    have member := (outlines.exact outer entry).mpr isEntry
    rw [nothing] at member
    cases member
  · intro noHeading
    apply List.eq_nil_iff_forall_not_mem.mpr
    intro entry member
    obtain ⟨node, here, lists⟩ := ((outlines.exact entry.1 entry.2).mp member).lists
    exact noHeading ⟨entry.1, node, here, entry.2, lists⟩

/-- What is listed of a tree are the entries of its headings in the order of their places. -/
theorem exists_outlines (root : Built)
    : ∃ placed, Outlines root placed ∧ placed.map Prod.snd = headings root := by
  induction root using induction_below with
  | step node ih =>
      by_cases listed : IsListed node
      · obtain ⟨entry, lists⟩ := listed
        exact ⟨[([], entry)], .of_lists lists, (headings_of_lists lists).symm⟩
      · obtain ⟨placed, outlines, entries⟩ := exists_outlines_list ih
        exact ⟨placed, outlines.of_below listed, (headings_of_not_isListed listed).symm ▸ entries⟩

-----------------------------------------------------------------------------------------
-- The content
-----------------------------------------------------------------------------------------

/-- Strings without anything but blanks hold no heading. -/
theorem headingsOf_filter (nodes : List Built)
    : headingsOf (nodes.filter (!isBlankNode ·)) = headingsOf nodes := by
  induction nodes with
  | nil => rfl
  | cons node rest ih =>
      rw [headingsOf, List.filter_cons]
      split
      · rw [headingsOf, ih]
      · next isBlank =>
          cases node with
          | string s => exact ih
          | _ => exact absurd rfl isBlank

/-- Children hold the same headings however they are stored. -/
theorem headingsOf_withChildren (props : Props Kind) (nodes : List Built)
    : headingsOf (Props.children (props.withChildren nodes)) = headingsOf nodes := by
  unfold Props.children
  match nodes with
  | [] =>
      rw [Props.withChildren, Json.Fields.get?_erase, if_pos rfl]
      rfl
  | [child] =>
      rw [Props.withChildren, Json.Fields.get?_insert, if_pos rfl]
      exact (headingsOf_asChildren child).trans (List.append_nil _).symm
  | first :: second :: rest =>
      have stored : props.withChildren (first :: second :: rest)
          = props.insert Tree.childrenProp (.list (first :: second :: rest)) :=
        rfl
      rw [stored, Json.Fields.get?_insert, if_pos rfl]
      rfl

/-- The content of a page holds the headings of the tree that it was made from. -/
theorem headings_contentGroup (key : Option String) (props : Props Kind)
    : headings (contentGroup (.element .grouping key props))
      = headings (.element .grouping key props) :=
  calc
    headings (contentGroup (.element .grouping key props))
        = headingsOf (Props.children
            (Props.withChildren [] ((Props.children props).filter (!isBlankNode ·)))) :=
      headings_of_not_isListed (not_isListed_group key _)
    _ = headingsOf ((Props.children props).filter (!isBlankNode ·)) := headingsOf_withChildren [] _
    _ = headingsOf (Props.children props) := headingsOf_filter _
    _ = headings (.element .grouping key props) :=
      (headings_of_not_isListed (not_isListed_group key props)).symm

/-- The table of contents of a page that is made from a group has an entry for each heading of the
content that is inside no other one, in the order of the document, after the entry for the top of
the page. It is empty if the content has no heading, and for the root of the site.
-/
theorem toc_outlines (path : LogicalPath) (key : Option String) (props : Props Kind)
    : ∃ placed,
        Outlines (withToc path (.element .grouping key props)).children placed
        ∧ (placed = []
          ↔ ¬∃ place node,
              at? (withToc path (.element .grouping key props)).children place = some node
              ∧ IsListed node)
        ∧ (withToc path (.element .grouping key props)).toc
          = .list
              (if path.isRoot || placed.isEmpty then []
              else (TocEntry.overview :: placed.map Prod.snd).map TocEntry.node) := by
  obtain ⟨placed, outlines, entries⟩ :=
    exists_outlines (contentGroup (.element .grouping key props))
  refine ⟨placed, outlines, outlines.eq_nil_iff, ?_⟩
  rw [headings_contentGroup] at entries
  show Node.list _ = _
  unfold tocEntries
  rw [← entries]
  cases path.isRoot <;> cases placed <;> rfl

/-- A heading in a component in a list is listed, and one inside another one is not. -/
example
    : headings
        (.element .grouping none
          [
            ("children",
              .list
                [
                  .list
                    [
                      .element (.component "Note") none
                        [
                          ("children",
                            .element (.tag "h3") none
                              [("children", .string " Setup "), ("id", .string "setup")])
                        ]
                    ],
                  .element (.tag "h2") none
                    [
                      ("children", .element (.tag "h3") none [("id", .string "inner")]),
                      ("id", .string "outer")
                    ]
                ])
          ])
      = [
        { url := "#setup", depth := 3, text := "Setup" },
        { url := "#outer", depth := 2, text := "" }
      ] := by
  decide +kernel

end Folio.Site
