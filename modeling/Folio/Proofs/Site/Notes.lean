import Folio.Proofs.Unit.Bindings
import Folio.Site.Toc

/-! The notes that the building of a tree keeps never reach what is written. Neither the wire form
of a tree nor the two parts of a page depend on them, and so none of these tells a stand-in from the
component that it stands for.
-/

namespace Folio.Site

open Folio.Tree (Built Kind Node Props)
open Folio.Unit (bare)

-----------------------------------------------------------------------------------------
-- The table of contents
-----------------------------------------------------------------------------------------

/-- No note has the name of the property of the children. -/
theorem childrenProp_shown : Tree.internalProps.contains Tree.childrenProp = false := by
  decide

mutual

/-- Notes are no part of the text of a node. -/
theorem text_bare (node : Built) : Built.text (bare node) = Built.text node := by
  match node with
  | .null | .bool _ | .number _ | .string _ => rfl
  | .list items => exact textOf_bareItems items
  | .map fields => rfl
  | .element kind key props => exact childrenText_bareProps props

theorem textOf_bareItems (items : List Built)
    : Built.textOf (Node.bareItems Tree.internalProps.contains items) = Built.textOf items := by
  match items with
  | [] => rfl
  | node :: rest =>
      rw [Node.bareItems, Built.textOf, Built.textOf, textOf_bareItems rest]
      exact congrArg (· ++ Built.textOf rest) (text_bare node)

theorem childrenText_bareProps (props : List (String × Built))
    : Built.childrenText (Node.bareProps Tree.internalProps.contains props)
      = Built.childrenText props := by
  match props with
  | [] => rfl
  | (name, node) :: rest =>
      rw [Node.bareProps, Built.childrenText]
      split
      · next hidden =>
          have other : name ≠ Tree.childrenProp := by
            rintro rfl
            rw [childrenProp_shown] at hidden
            cases hidden
          rw [if_neg other, childrenText_bareProps rest]
      · rw [Built.childrenText, childrenText_bareProps rest]
        exact congrArg (fun text => if name = _ then text else _) (text_bare node)

end

/-- Whether an element has an entry, and which, does not depend on its notes. -/
theorem tocEntry?_bareProps (kind : Kind) (props : Props Kind)
    : tocEntry? kind (Node.bareProps Tree.internalProps.contains props) = tocEntry? kind props := by
  have id : Props.string? (Node.bareProps Tree.internalProps.contains props) "id"
      = props.string? "id" := by
    unfold Props.string?
    rw [Node.get?_bareProps (by decide)]
    cases Json.Fields.get? props "id" with
    | none => rfl
    | some node => cases node <;> rfl
  unfold tocEntry?
  rw [id, childrenText_bareProps]

mutual

/-- The headings of a tree do not depend on its notes, by induction on the tree. -/
theorem headings_bare (node : Built) : headings (bare node) = headings node := by
  match node with
  | .null | .bool _ | .number _ | .string _ => rfl
  | .list items => exact headingsOf_bareItems items
  | .map fields => rfl
  | .element kind key props =>
      show headings (.element kind key (Node.bareProps Tree.internalProps.contains props)) = _
      rw [headings, headings, tocEntry?_bareProps]
      split
      · rfl
      · exact childHeadings_bareProps props

theorem headingsOf_bareItems (items : List Built)
    : headingsOf (Node.bareItems Tree.internalProps.contains items) = headingsOf items := by
  match items with
  | [] => rfl
  | node :: rest =>
      rw [Node.bareItems, headingsOf, headingsOf, headingsOf_bareItems rest]
      exact congrArg (· ++ headingsOf rest) (headings_bare node)

theorem childHeadings_bareProps (props : List (String × Built))
    : childHeadings (Node.bareProps Tree.internalProps.contains props) = childHeadings props := by
  match props with
  | [] => rfl
  | (name, node) :: rest =>
      rw [Node.bareProps, childHeadings]
      split
      · next hidden =>
          have other : name ≠ Tree.childrenProp := by
            rintro rfl
            rw [childrenProp_shown] at hidden
            cases hidden
          rw [if_neg other, childHeadings_bareProps rest]
      · rw [childHeadings, childHeadings_bareProps rest]
        exact congrArg (fun entries => if name = _ then entries else _) (headings_bare node)

end

-----------------------------------------------------------------------------------------
-- The content
-----------------------------------------------------------------------------------------

theorem isBlankNode_bare (node : Built) : isBlankNode (bare node) = isBlankNode node := by
  cases node <;> rfl

/-- A group of nodes without what is blank among them, seen without notes. -/
theorem bare_group (key : Option String) (nodes : List Built)
    : bare (.element .grouping key (Props.withChildren [] (nodes.filter (!isBlankNode ·))))
      = .element .grouping key
          (Props.withChildren [] ((nodes.map bare).filter (!isBlankNode ·))) := by
  have kept : (nodes.map bare).filter (!isBlankNode ·)
      = (nodes.filter (!isBlankNode ·)).map bare := by
    rw [List.filter_map]
    congr 2
    funext node
    exact congrArg _ (isBlankNode_bare node)
  rw [kept]
  exact congrArg (Node.element Kind.grouping key)
    (Node.bareProps_withChildren childrenProp_shown List.Pairwise.nil _)

/-- The content of a tree without notes is that of the tree, without notes. -/
theorem contentGroup_bare (root : Built) : contentGroup (bare root) = bare (contentGroup root) := by
  cases root with
  | element kind key props =>
      show Node.element Kind.grouping key _ = bare (.element .grouping key _)
      rw [bare_group, Node.children_bareProps childrenProp_shown]
      rfl
  | _ => exact (bare_group none [_]).symm

/-- The wire form does not depend on notes. -/
theorem wire_bare (node : Built) : (bare node).wire = node.wire :=
  Node.wire_bare Kind.identifier node

/-- Neither part of a page depends on notes in its tree. -/
theorem withToc_bare (path : Content.LogicalPath) (root : Built)
    : (withToc path (bare root)).toc = (withToc path root).toc
      ∧ (withToc path (bare root)).children.wire = (withToc path root).children.wire := by
  constructor
  · unfold withToc tocEntries
    rw [headings_bare]
  · show (contentGroup (bare root)).wire = (contentGroup root).wire
    rw [contentGroup_bare, wire_bare]

-----------------------------------------------------------------------------------------
-- What is written
-----------------------------------------------------------------------------------------

/-- The wire form of what a unit builds depends on the kinds of its names only. -/
theorem wire_run {env other : Unit.Environment} (same : Unit.SameKinds env other) (text : String)
    : (Unit.run other text).map Built.wire = (Unit.run env text).map Built.wire := by
  have wires (result : Except Unit.RunError Built)
      : (result.map bare).map Built.wire = result.map Built.wire := by
    cases result with
    | error e => rfl
    | ok node => exact congrArg Except.ok (wire_bare node)
  rw [← wires, Unit.run_sameKinds same, wires]

/-- Notes never reach what is written. Trees that are the same without them have the same wire form,
and so have both parts of the pages that they become; no element of any wire form has a property for
a note; and a unit gives the same wire form, or the same error, in environments that bind the same
names to the same kinds, as those of stand-ins and of the components themselves do.
-/
theorem wire_without_notes
    : (∀ first second : Built, bare first = bare second →
        first.wire = second.wire
        ∧ ∀ path,
            (withToc path first).toc.wire = (withToc path second).toc.wire
            ∧ (withToc path first).children.wire = (withToc path second).children.wire)
      ∧ (∀ node : Built, Node.Seals Tree.internalProps.contains node.wire.parts)
      ∧ (∀ env other : Unit.Environment, Unit.SameKinds env other → ∀ text,
          (Unit.run other text).map Built.wire = (Unit.run env text).map Built.wire)
      ∧ ∀ (names : List String) (text : String),
          (Unit.run (.components names) text).map Built.wire
          = (Unit.run (.standIns names) text).map Built.wire := by
  refine ⟨?_, ?_, ?_, ?_⟩
  · intro first second same
    refine ⟨?_, ?_⟩
    · rw [← wire_bare first, same, wire_bare]
    · intro path
      obtain ⟨toc, children⟩ := withToc_bare path first
      obtain ⟨otherToc, otherChildren⟩ := withToc_bare path second
      rw [← toc, ← children, same, otherToc, otherChildren]
      exact ⟨rfl, rfl⟩
  · intro node
    exact Node.seals_wire Kind.identifier node
  · intro env other same text
    exact wire_run same text
  · intro names text
    exact wire_run (Unit.sameKinds_components names) text

/-- A heading with notes, one of which is about an element inside a property. -/
def notedHeading : Built :=
  .element (.tag "h2") none
    [("children", .string "Top"), ("debugType", .string "h2"), ("id", .string "top"),
      ("note", .map
        [("debugType", .string "a field"),
          ("inner", .element (.component "Note") none [("parentName", .string "h2")])])]

/-- The same heading without notes. The field of the map is none. -/
def bareHeading : Built :=
  .element (.tag "h2") none
    [("children", .string "Top"), ("id", .string "top"),
      ("note", .map
        [("debugType", .string "a field"), ("inner", .element (.component "Note") none [])])]

/-- Both headings are written alike, and are listed alike. -/
theorem wire_notedHeading
    : notedHeading.wire = bareHeading.wire
      ∧ ∀ path,
          (withToc path notedHeading).toc.wire = (withToc path bareHeading).toc.wire
          ∧ (withToc path notedHeading).children.wire = (withToc path bareHeading).children.wire :=
  wire_without_notes.1 notedHeading bareHeading rfl

end Folio.Site
