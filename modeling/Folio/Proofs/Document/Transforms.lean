import Mathlib.Data.List.Basic
import Folio.Document.Transform
import Folio.Proofs.Json.Fields

/-! The transforms that come with the compiler, in any order and number. Each of them is done once
it was done, and none of them looks at what another one adds, so that only their set matters. All
that they ever do to a tree is to give elements attributes that these lack.
-/

namespace Folio.Document

-----------------------------------------------------------------------------------------
-- What a transform may add
-----------------------------------------------------------------------------------------

/-- The transforms that come with the compiler. -/
inductive BuiltIn where
  | headingIds
  | externalLinks

namespace BuiltIn

def transform : BuiltIn → Transform
  | headingIds => .headingIds
  | externalLinks => .externalLinks

/-- Holds for the names of the attributes that a transform may give an element. -/
def MayAdd : BuiltIn → Kind → String → Prop
  | headingIds, kind, name => kind.headingLevel?.isSome = true ∧ name = "id"
  | externalLinks, kind, name => kind = .tag "a" ∧ (name = "target" ∨ name = "rel")

def AnyMayAdd (builtIns : List BuiltIn) (kind : Kind) (name : String) : Prop :=
  ∃ builtIn ∈ builtIns, builtIn.MayAdd kind name

/-- Those of a compiler that was given none of its own. -/
def standard : List BuiltIn :=
  [headingIds, externalLinks]

end BuiltIn

/-- Holds for attributes and what becomes of them if they only gain: texts are put under names that
have no value and satisfy `may`.
-/
inductive Gains (may : String → Prop) (before : Attributes) : Attributes → Prop
  | refl : Gains may before before
  | insert {after : Attributes} (gained : Gains may before after) {name : String}
    (absent : after.get? name = none) (allowed : may name) (value : String)
    : Gains may before (after.insert name (.string value))

mutual

/-- Holds for a node and what becomes of it if elements in it only gain attributes. -/
inductive NodeGains (may : Kind → String → Prop) : Node → Node → Prop
  | text (t : String) : NodeGains may (.text t) (.text t)
  | element (kind : Kind) (key : Option String) {before after : Attributes}
    {children changed : List Node} (attributes : Gains (may kind) before after)
    (inside : NodesGain may children changed)
    : NodeGains may (.element kind key before children) (.element kind key after changed)

inductive NodesGain (may : Kind → String → Prop) : List Node → List Node → Prop
  | nil : NodesGain may [] []
  | cons {node changed : Node} {rest others : List Node} (first : NodeGains may node changed)
    (later : NodesGain may rest others)
    : NodesGain may (node :: rest) (changed :: others)

end

namespace Gains

variable {may : String → Prop} {before between after : Attributes}

/-- What was gained first is kept later. -/
theorem trans (first : Gains may before between) (later : Gains may between after)
    : Gains may before after := by
  induction later with
  | refl => exact first
  | insert gained absent allowed value ih => exact ih.insert absent allowed value

theorem mono {more : String → Prop} (wider : ∀ name, may name → more name)
    (h : Gains may before after)
    : Gains more before after := by
  induction h with
  | refl => exact .refl
  | insert gained absent allowed value ih => exact ih.insert absent (wider _ allowed) value

/-- A text that is put under a name without a value is gained. -/
theorem insertNew {name : String} (allowed : may name) (value : String)
    : Gains may before (before.insertNew name (.string value)) := by
  unfold Json.Fields.insertNew
  split
  · exact .refl
  · next absent => exact Gains.refl.insert (by simpa [Json.Fields.has] using absent) allowed value

/-- What holds of attributes still holds when they gain some, if each of these alone does no harm.
-/
theorem keeps {P : Attributes → Prop} (h : Gains may before after)
    (keeps : ∀ attributes name, P attributes → may name → ∀ value : String,
      P (attributes.insert name (.string value)))
    (start : P before)
    : P after := by
  induction h with
  | refl => exact start
  | insert gained absent allowed value ih => exact keeps _ _ ih allowed value

end Gains

section

variable {may : Kind → String → Prop}

mutual

theorem NodeGains.refl (node : Node) : NodeGains may node node := by
  match node with
  | .text t => exact .text t
  | .element kind key attributes children =>
      exact .element kind key .refl (NodesGain.refl children)

theorem NodesGain.refl (nodes : List Node) : NodesGain may nodes nodes := by
  match nodes with
  | [] => exact .nil
  | node :: rest => exact .cons (NodeGains.refl node) (NodesGain.refl rest)

end

mutual

/-- Trees that gain and gain again only gain, by induction on the first step. -/
theorem NodeGains.trans {node between after : Node} (first : NodeGains may node between)
    (later : NodeGains may between after)
    : NodeGains may node after := by
  match first, later with
  | .text t, .text _ => exact .text t
  | .element kind key attributes inside, .element _ _ attributes' inside' =>
      exact .element kind key (attributes.trans attributes') (inside.trans inside')

theorem NodesGain.trans {nodes between after : List Node} (first : NodesGain may nodes between)
    (later : NodesGain may between after)
    : NodesGain may nodes after := by
  match first, later with
  | .nil, .nil => exact .nil
  | .cons head rest, .cons head' rest' => exact .cons (head.trans head') (rest.trans rest')

end

mutual

theorem NodeGains.mono {more : Kind → String → Prop}
    (wider : ∀ kind name, may kind name → more kind name) {node after : Node}
    (h : NodeGains may node after)
    : NodeGains more node after := by
  match h with
  | .text t => exact .text t
  | .element kind key attributes inside =>
      exact .element kind key (attributes.mono (wider kind)) (inside.mono wider)

theorem NodesGain.mono {more : Kind → String → Prop}
    (wider : ∀ kind name, may kind name → more kind name) {nodes after : List Node}
    (h : NodesGain may nodes after)
    : NodesGain more nodes after := by
  match h with
  | .nil => exact .nil
  | .cons first later => exact .cons (first.mono wider) (later.mono wider)

end

mutual

/-- What holds of all elements of a tree still holds when they gain attributes, if it does of each
of them. By induction on what they gain.
-/
theorem NodeGains.forall_elements {P : Kind → Attributes → Prop}
    (keeps : ∀ kind before after, Gains (may kind) before after → P kind before → P kind after)
    {node changed : Node} (h : NodeGains may node changed)
    (start : ∀ e ∈ node.elements, P e.kind e.attributes)
    : ∀ e ∈ changed.elements, P e.kind e.attributes := by
  match h with
  | .text t => exact start
  | .element kind key attributes inside =>
      obtain ⟨own, below⟩ := List.forall_mem_cons.mp start
      exact List.forall_mem_cons.mpr
        ⟨keeps kind _ _ attributes own, inside.forall_elements keeps below⟩

theorem NodesGain.forall_elements {P : Kind → Attributes → Prop}
    (keeps : ∀ kind before after, Gains (may kind) before after → P kind before → P kind after)
    {nodes changed : List Node} (h : NodesGain may nodes changed)
    (start : ∀ e ∈ Node.listElements nodes, P e.kind e.attributes)
    : ∀ e ∈ Node.listElements changed, P e.kind e.attributes := by
  match h with
  | .nil => exact start
  | .cons first later =>
      obtain ⟨here, there⟩ := List.forall_mem_append.mp start
      exact List.forall_mem_append.mpr
        ⟨first.forall_elements keeps here, later.forall_elements keeps there⟩

end

end

namespace Transform

-----------------------------------------------------------------------------------------
-- Ids of headings
-----------------------------------------------------------------------------------------

/-- Holds for elements that get no id: those that are no headings, have an id, or have no slug. -/
def IsSettled (kind : Kind) (attributes : Attributes) (children : List Node) : Prop :=
  kind.headingLevel?.isNone = true
    ∨ attributes.has "id" = true
    ∨ (Text.slug (Node.listContent children)).isEmpty = true

/-- A settled element stays as it is, and no slug is counted for it. -/
theorem withId_of_isSettled (counts : SlugCounts) {kind : Kind} {attributes : Attributes}
    {children : List Node} (h : IsSettled kind attributes children)
    : withId counts kind attributes children = (attributes, counts) := by
  unfold withId
  split
  · rfl
  · next other =>
      rcases h with noHeading | hasId | noSlug
      · exact absurd (Bool.or_eq_true_iff.mpr (.inl noHeading)) other
      · exact absurd (Bool.or_eq_true_iff.mpr (.inr hasId)) other
      · exact if_pos noSlug

/-- An element that is not settled is a heading without an id, and gets one. -/
theorem withId_of_not_isSettled (counts : SlugCounts) {kind : Kind} {attributes : Attributes}
    {children : List Node} (h : ¬IsSettled kind attributes children)
    : kind.headingLevel?.isSome = true
      ∧ attributes.get? "id" = none
      ∧ ∃ id, (withId counts kind attributes children).1 = attributes.insert "id" (.string id) := by
  obtain ⟨heading, noId, slug⟩ : ¬_ ∧ ¬_ ∧ ¬_ := by simpa only [IsSettled, not_or] using h
  have open_ : ¬(kind.headingLevel?.isNone || attributes.has "id") = true := by simp [heading, noId]
  have isHeading : kind.headingLevel?.isSome = true := by
    rwa [Option.isNone_iff_eq_none, ← ne_eq, ← Option.isSome_iff_ne_none] at heading
  refine ⟨isHeading, by simpa [Json.Fields.has] using noId, ?_⟩
  rw [withId, if_neg open_]
  exact ⟨_, congrArg Prod.fst (if_neg slug)⟩

/-- An element is settled once it was looked at. -/
theorem isSettled_withId (counts : SlugCounts) (kind : Kind) (attributes : Attributes)
    (children : List Node)
    : IsSettled kind (withId counts kind attributes children).1 children := by
  by_cases settled : IsSettled kind attributes children
  · rwa [withId_of_isSettled counts settled]
  · obtain ⟨-, -, id, given⟩ := withId_of_not_isSettled counts settled
    refine .inr (.inl ?_)
    rw [given, Json.Fields.has, Json.Fields.get?_insert, if_pos rfl]
    rfl

theorem gains_withId (counts : SlugCounts) (kind : Kind) (attributes : Attributes)
    (children : List Node)
    : Gains (BuiltIn.headingIds.MayAdd kind) attributes
        (withId counts kind attributes children).1 := by
  by_cases settled : IsSettled kind attributes children
  · rw [withId_of_isSettled counts settled]
    exact .refl
  · obtain ⟨heading, absent, id, given⟩ := withId_of_not_isSettled counts settled
    rw [given]
    exact Gains.refl.insert absent ⟨heading, rfl⟩ id

mutual

/-- Ids are no text. -/
theorem content_assignIds (counts : SlugCounts) (node : Node)
    : (assignIds counts node).1.content = node.content := by
  match node with
  | .text t => rfl
  | .element kind key attributes children => exact listContent_listAssignIds _ children

theorem listContent_listAssignIds (counts : SlugCounts) (nodes : List Node)
    : Node.listContent (listAssignIds counts nodes).1 = Node.listContent nodes := by
  match nodes with
  | [] => rfl
  | node :: rest =>
      simp only [listAssignIds, Node.listContent]
      rw [content_assignIds counts node, listContent_listAssignIds _ rest]

end

mutual

/-- All headings of a tree are settled once they were looked at, whatever is counted. By induction
on the node.
-/
theorem assignIds_assignIds (counts more : SlugCounts) (node : Node)
    : assignIds more (assignIds counts node).1 = ((assignIds counts node).1, more) := by
  match node with
  | .text t => rfl
  | .element kind key attributes children =>
      have slug := listContent_listAssignIds (withId counts kind attributes children).2 children
      have settled : IsSettled kind (withId counts kind attributes children).1
          (listAssignIds (withId counts kind attributes children).2 children).1 := by
        have first := isSettled_withId counts kind attributes children
        rwa [IsSettled, ← slug] at first
      have inside :=
        listAssignIds_listAssignIds (withId counts kind attributes children).2 more children
      simp only [assignIds, withId_of_isSettled more settled, inside]

theorem listAssignIds_listAssignIds (counts more : SlugCounts) (nodes : List Node)
    : listAssignIds more (listAssignIds counts nodes).1
      = ((listAssignIds counts nodes).1, more) := by
  match nodes with
  | [] => rfl
  | node :: rest =>
      have first := assignIds_assignIds counts more node
      have later := listAssignIds_listAssignIds (assignIds counts node).2 more rest
      simp only [listAssignIds, first, later]

end

mutual

/-- Headings without an id gain one, and nothing else changes. -/
theorem gains_assignIds (counts : SlugCounts) (node : Node)
    : NodeGains BuiltIn.headingIds.MayAdd node (assignIds counts node).1 := by
  match node with
  | .text t => exact .text t
  | .element kind key attributes children =>
      exact .element kind key (gains_withId counts kind attributes children)
        (gain_listAssignIds _ children)

theorem gain_listAssignIds (counts : SlugCounts) (nodes : List Node)
    : NodesGain BuiltIn.headingIds.MayAdd nodes (listAssignIds counts nodes).1 := by
  match nodes with
  | [] => exact .nil
  | node :: rest => exact .cons (gains_assignIds counts node) (gain_listAssignIds _ rest)

end

-----------------------------------------------------------------------------------------
-- Links to other sites
-----------------------------------------------------------------------------------------

def LeadsAway (kind : Kind) (attributes : Attributes) : Prop :=
  kind = .tag "a"
    ∧ ∃ address,
        (attributes.get? "href").bind Json.Value.asString? = some address
        ∧ isExternal address = true

/-- What is no link to another site stays as it is. -/
theorem markedAttributes_of_not {kind : Kind} {attributes : Attributes}
    (h : ¬LeadsAway kind attributes)
    : markedAttributes kind attributes = attributes := by
  unfold markedAttributes
  split
  · rfl
  · next other =>
      have isLink : kind = .tag "a" := by simpa using other
      split
      · next address found =>
          have stays : ¬isExternal address = true := fun away =>
            h ⟨isLink, address, found, away⟩
          exact if_neg stays
      · rfl

/-- A link to another site has its two marks put under names that have no value. -/
theorem markedAttributes_of_leadsAway {kind : Kind} {attributes : Attributes}
    (h : LeadsAway kind attributes)
    : markedAttributes kind attributes
      = (attributes.insertNew "target" (.string "_blank")).insertNew "rel"
          (.string "nofollow noopener noreferrer") := by
  obtain ⟨rfl, address, found, away⟩ := h
  simp only [markedAttributes, found, away, if_true]
  exact if_neg (by decide)

theorem markedAttributes_of_ne {kind : Kind} (other : kind ≠ .tag "a") (attributes : Attributes)
    : markedAttributes kind attributes = attributes :=
  markedAttributes_of_not fun away => other away.1

theorem gains_markedAttributes (kind : Kind) (attributes : Attributes)
    : Gains (BuiltIn.externalLinks.MayAdd kind) attributes (markedAttributes kind attributes) := by
  by_cases away : LeadsAway kind attributes
  · rw [markedAttributes_of_leadsAway away]
    have target : BuiltIn.externalLinks.MayAdd kind "target" := ⟨away.1, .inl rfl⟩
    have rel : BuiltIn.externalLinks.MayAdd kind "rel" := ⟨away.1, .inr rfl⟩
    exact (Gains.insertNew target _).trans (Gains.insertNew rel _)
  · rw [markedAttributes_of_not away]
    exact .refl

/-- Marking a link once more puts nothing under the names of the marks, which have values. -/
theorem markedAttributes_markedAttributes (kind : Kind) (attributes : Attributes)
    : markedAttributes kind (markedAttributes kind attributes)
      = markedAttributes kind attributes := by
  by_cases away : LeadsAway kind attributes
  · by_cases still : LeadsAway kind (markedAttributes kind attributes)
    · have target : (markedAttributes kind attributes).has "target" = true := by
        rw [markedAttributes_of_leadsAway away, Json.Fields.has_insertNew,
          Json.Fields.has_insertNew]
        rfl
      have rel : (markedAttributes kind attributes).has "rel" = true := by
        rw [markedAttributes_of_leadsAway away, Json.Fields.has_insertNew]
        rfl
      rw [markedAttributes_of_leadsAway still, Json.Fields.insertNew, Json.Fields.insertNew,
        if_pos target, if_pos rel]
    · exact markedAttributes_of_not still
  · rw [markedAttributes_of_not away, markedAttributes_of_not away]

mutual

/-- Marks are no text. -/
theorem content_markExternal (node : Node) : (markExternal node).content = node.content := by
  match node with
  | .text t => rfl
  | .element kind key attributes children => exact listContent_listMarkExternal children

theorem listContent_listMarkExternal (nodes : List Node)
    : Node.listContent (listMarkExternal nodes) = Node.listContent nodes := by
  match nodes with
  | [] => rfl
  | node :: rest =>
      simp only [listMarkExternal, Node.listContent]
      rw [content_markExternal node, listContent_listMarkExternal rest]

end

mutual

/-- All links of a tree are marked once, by induction on the node. -/
theorem markExternal_markExternal (node : Node)
    : markExternal (markExternal node) = markExternal node := by
  match node with
  | .text t => rfl
  | .element kind key attributes children =>
      have inside := listMarkExternal_listMarkExternal children
      simp only [markExternal, markedAttributes_markedAttributes, inside]

theorem listMarkExternal_listMarkExternal (nodes : List Node)
    : listMarkExternal (listMarkExternal nodes) = listMarkExternal nodes := by
  match nodes with
  | [] => rfl
  | node :: rest =>
      simp only [listMarkExternal]
      rw [markExternal_markExternal node, listMarkExternal_listMarkExternal rest]

end

mutual

/-- Links gain their marks, and nothing else changes. -/
theorem gains_markExternal (node : Node)
    : NodeGains BuiltIn.externalLinks.MayAdd node (markExternal node) := by
  match node with
  | .text t => exact .text t
  | .element kind key attributes children =>
      exact .element kind key (gains_markedAttributes kind attributes)
        (gain_listMarkExternal children)

theorem gain_listMarkExternal (nodes : List Node)
    : NodesGain BuiltIn.externalLinks.MayAdd nodes (listMarkExternal nodes) := by
  match nodes with
  | [] => exact .nil
  | node :: rest => exact .cons (gains_markExternal node) (gain_listMarkExternal rest)

end

-----------------------------------------------------------------------------------------
-- Both
-----------------------------------------------------------------------------------------

/-- A link is no heading, and so is settled. -/
theorem isSettled_link (attributes : Attributes) (children : List Node)
    : IsSettled (.tag "a") attributes children :=
  .inl rfl

/-- No element is both a link and a heading, and neither the text of a heading nor its attributes
are changed by marks: the id that it gets and the counts are the same.
-/
theorem withId_markedAttributes (counts : SlugCounts) (kind : Kind) (attributes : Attributes)
    (children : List Node)
    : withId counts kind (markedAttributes kind attributes) (listMarkExternal children)
      = (markedAttributes kind (withId counts kind attributes children).1,
          (withId counts kind attributes children).2) := by
  by_cases isLink : kind = .tag "a"
  · subst isLink
    rw [withId_of_isSettled counts (isSettled_link attributes children),
      withId_of_isSettled counts (isSettled_link _ _)]
  · rw [markedAttributes_of_ne isLink, markedAttributes_of_ne isLink, withId, withId,
      listContent_listMarkExternal]

/-- Marks are not ids that authors gave headings. -/
theorem explicitId?_markedAttributes (kind : Kind) (attributes : Attributes)
    : explicitId? kind (markedAttributes kind attributes) = explicitId? kind attributes := by
  by_cases isLink : kind = .tag "a"
  · subst isLink
    rfl
  · rw [markedAttributes_of_ne isLink]

mutual

theorem explicitIds_markExternal (counts : SlugCounts) (node : Node)
    : explicitIds counts (markExternal node) = explicitIds counts node := by
  match node with
  | .text t => rfl
  | .element kind key attributes children =>
      simp only [markExternal, explicitIds, explicitId?_markedAttributes]
      exact listExplicitIds_listMarkExternal _ children

theorem listExplicitIds_listMarkExternal (counts : SlugCounts) (nodes : List Node)
    : listExplicitIds counts (listMarkExternal nodes) = listExplicitIds counts nodes := by
  match nodes with
  | [] => rfl
  | node :: rest =>
      simp only [listMarkExternal, listExplicitIds]
      rw [explicitIds_markExternal counts node, listExplicitIds_listMarkExternal _ rest]

end

mutual

/-- Whether links are marked before or after the headings get their ids does not matter. By
induction on the node, with the counts, which are the same.
-/
theorem assignIds_markExternal (counts : SlugCounts) (node : Node)
    : assignIds counts (markExternal node)
      = (markExternal (assignIds counts node).1, (assignIds counts node).2) := by
  match node with
  | .text t => rfl
  | .element kind key attributes children =>
      have inside := listAssignIds_listMarkExternal (withId counts kind attributes children).2
        children
      simp only [markExternal, assignIds, withId_markedAttributes, inside]

theorem listAssignIds_listMarkExternal (counts : SlugCounts) (nodes : List Node)
    : listAssignIds counts (listMarkExternal nodes)
      = (listMarkExternal (listAssignIds counts nodes).1, (listAssignIds counts nodes).2) := by
  match nodes with
  | [] => rfl
  | node :: rest =>
      have first := assignIds_markExternal counts node
      have later := listAssignIds_listMarkExternal (assignIds counts node).2 rest
      simp only [listMarkExternal, listAssignIds, first, later]

end

/-- A transform that was applied has nothing left to do. -/
theorem apply_apply (builtIn : BuiltIn) (nodes : List Node)
    : builtIn.transform.apply (builtIn.transform.apply nodes) = builtIn.transform.apply nodes := by
  cases builtIn with
  | headingIds => simp only [BuiltIn.transform, headingIds, listAssignIds_listAssignIds]
  | externalLinks => exact listMarkExternal_listMarkExternal nodes

theorem headingIds_externalLinks (nodes : List Node)
    : headingIds.apply (externalLinks.apply nodes)
      = externalLinks.apply (headingIds.apply nodes) := by
  simp only [headingIds, externalLinks, listExplicitIds_listMarkExternal,
    listAssignIds_listMarkExternal]

/-- Two transforms may be applied in either order. -/
theorem apply_comm (first second : BuiltIn) (nodes : List Node)
    : first.transform.apply (second.transform.apply nodes)
      = second.transform.apply (first.transform.apply nodes) := by
  cases first with
  | headingIds =>
      cases second with
      | headingIds => rfl
      | externalLinks => exact headingIds_externalLinks nodes
  | externalLinks =>
      cases second with
      | headingIds => exact (headingIds_externalLinks nodes).symm
      | externalLinks => rfl

theorem gain_apply (builtIn : BuiltIn) (nodes : List Node)
    : NodesGain builtIn.MayAdd nodes (builtIn.transform.apply nodes) := by
  cases builtIn with
  | headingIds => exact gain_listAssignIds _ nodes
  | externalLinks => exact gain_listMarkExternal nodes

-----------------------------------------------------------------------------------------
-- Lists of transforms
-----------------------------------------------------------------------------------------

theorem applyAll_map_cons (first : BuiltIn) (rest : List BuiltIn) (nodes : List Node)
    : applyAll ((first :: rest).map BuiltIn.transform) nodes
      = applyAll (rest.map BuiltIn.transform) (first.transform.apply nodes) :=
  rfl

/-- Transforms that have nothing to do each have nothing to do together. -/
theorem applyAll_eq_self {nodes : List Node}
    (settled : ∀ builtIn : BuiltIn, builtIn.transform.apply nodes = nodes) (builtIns : List BuiltIn)
    : applyAll (builtIns.map BuiltIn.transform) nodes = nodes := by
  induction builtIns with
  | nil => rfl
  | cons first rest ih => rw [applyAll_map_cons, settled, ih]

/-- A transform may be applied before or after others, by induction on those. -/
theorem applyAll_apply (builtIn : BuiltIn) (builtIns : List BuiltIn) (nodes : List Node)
    : applyAll (builtIns.map BuiltIn.transform) (builtIn.transform.apply nodes)
      = builtIn.transform.apply (applyAll (builtIns.map BuiltIn.transform) nodes) := by
  induction builtIns generalizing nodes with
  | nil => rfl
  | cons first rest ih => rw [applyAll_map_cons, applyAll_map_cons, apply_comm, ih]

/-- A transform that is among those applied has nothing left to do. -/
theorem apply_applyAll_of_mem {builtIn : BuiltIn} {builtIns : List BuiltIn}
    (member : builtIn ∈ builtIns) (nodes : List Node)
    : builtIn.transform.apply (applyAll (builtIns.map BuiltIn.transform) nodes)
      = applyAll (builtIns.map BuiltIn.transform) nodes := by
  induction builtIns generalizing nodes with
  | nil => cases member
  | cons first rest ih =>
      rw [applyAll_map_cons]
      cases member with
      | head => rw [applyAll_apply, apply_apply]
      | tail _ later => exact ih later (first.transform.apply nodes)

/-- Transforms that are all among those applied have nothing left to do. -/
theorem applyAll_applyAll_of_subset {builtIns others : List BuiltIn}
    (among : others ⊆ builtIns) (nodes : List Node)
    : applyAll (others.map BuiltIn.transform) (applyAll (builtIns.map BuiltIn.transform) nodes)
      = applyAll (builtIns.map BuiltIn.transform) nodes := by
  induction others with
  | nil => rfl
  | cons first rest ih =>
      obtain ⟨member, later⟩ := List.cons_subset.mp among
      rw [applyAll_map_cons, apply_applyAll_of_mem member, ih later]

theorem applyAll_comm (builtIns others : List BuiltIn) (nodes : List Node)
    : applyAll (others.map BuiltIn.transform) (applyAll (builtIns.map BuiltIn.transform) nodes)
      = applyAll (builtIns.map BuiltIn.transform)
          (applyAll (others.map BuiltIn.transform) nodes) := by
  induction others generalizing nodes with
  | nil => rfl
  | cons first rest ih => rw [applyAll_map_cons, applyAll_map_cons, ← applyAll_apply, ih]

/-- Transforms add no more than each of them may. By induction on the transforms. -/
theorem gain_applyAll (builtIns : List BuiltIn) (nodes : List Node)
    : NodesGain (BuiltIn.AnyMayAdd builtIns) nodes
        (applyAll (builtIns.map BuiltIn.transform) nodes) := by
  induction builtIns generalizing nodes with
  | nil => exact .refl nodes
  | cons first rest ih =>
      have now : NodesGain (BuiltIn.AnyMayAdd (first :: rest)) nodes
          (first.transform.apply nodes) := by
        refine (gain_apply first nodes).mono fun kind name allowed => ?_
        exact ⟨first, List.mem_cons_self, allowed⟩
      have later : NodesGain (BuiltIn.AnyMayAdd (first :: rest)) (first.transform.apply nodes)
          (applyAll ((first :: rest).map BuiltIn.transform) nodes) := by
        refine (ih (first.transform.apply nodes)).mono fun kind name allowed => ?_
        obtain ⟨builtIn, member, allowed⟩ := allowed
        exact ⟨builtIn, List.mem_cons_of_mem first member, allowed⟩
      exact now.trans later

/-- Which of the transforms that come with the compiler are applied decides what becomes of a tree,
but not their order, nor how often each of them is applied: any other list of the same transforms
does the same. What they do is to give headings an id, and links a target and a relation, where
there was none.
-/
theorem applyAll_eq_of_same {builtIns others : List BuiltIn}
    (same : ∀ builtIn, builtIn ∈ builtIns ↔ builtIn ∈ others) (nodes : List Node)
    : applyAll (builtIns.map BuiltIn.transform) nodes
        = applyAll (others.map BuiltIn.transform) nodes
      ∧ NodesGain (BuiltIn.AnyMayAdd builtIns) nodes
          (applyAll (builtIns.map BuiltIn.transform) nodes) := by
  refine ⟨?_, gain_applyAll builtIns nodes⟩
  calc
    applyAll (builtIns.map BuiltIn.transform) nodes
        = applyAll (others.map BuiltIn.transform)
            (applyAll (builtIns.map BuiltIn.transform) nodes) :=
      (applyAll_applyAll_of_subset (fun t member => (same t).mpr member) nodes).symm
    _ = applyAll (builtIns.map BuiltIn.transform)
          (applyAll (others.map BuiltIn.transform) nodes) := applyAll_comm builtIns others nodes
    _ = applyAll (others.map BuiltIn.transform) nodes :=
      applyAll_applyAll_of_subset (fun t member => (same t).mp member) nodes

/-- A heading that is a link to another site, and the same heading again as a link that says how to
open it.
-/
def linkedHeadings : List Node :=
  [
    .element (.tag "h2") none []
      [.element (.tag "a") none [("href", .string "https://example.com")] [.text "Setup"]],
    .element (.tag "h2") none []
      [
        .element (.tag "a") none
          [("href", .string "http://example.com"), ("target", .string "_self")] [.text "Setup"]
      ]
  ]

def finishedHeadings : List Node :=
  let rel : String × Json.Value := ("rel", .string "nofollow noopener noreferrer")
  [
    .element (.tag "h2") none [("id", .string "setup")]
      [
        .element (.tag "a") none
          [("href", .string "https://example.com"), rel, ("target", .string "_blank")]
          [.text "Setup"]
      ],
    .element (.tag "h2") none [("id", .string "setup-1")]
      [
        .element (.tag "a") none
          [("href", .string "http://example.com"), rel, ("target", .string "_self")]
          [.text "Setup"]
      ]
  ]

/-- Transforms that are repeated and mixed do what each of them does once. -/
theorem applyAll_repeated
    : (∀ builtIn : BuiltIn,
        builtIn ∈ [BuiltIn.externalLinks, .headingIds, .externalLinks, .headingIds]
          ↔ builtIn ∈ [BuiltIn.headingIds, .externalLinks])
      ∧ applyAll [headingIds, externalLinks] linkedHeadings = finishedHeadings
      ∧ applyAll [externalLinks, headingIds, externalLinks, headingIds] linkedHeadings
        = finishedHeadings := by
  have same : ∀ builtIn : BuiltIn,
      builtIn ∈ [BuiltIn.externalLinks, .headingIds, .externalLinks, .headingIds]
        ↔ builtIn ∈ [BuiltIn.headingIds, .externalLinks] := by
    intro builtIn
    cases builtIn <;> simp
  have finished : applyAll [headingIds, externalLinks] linkedHeadings = finishedHeadings := by
    rfl
  exact ⟨same, finished, (applyAll_eq_of_same same linkedHeadings).1.trans finished⟩

end Transform

end Folio.Document
