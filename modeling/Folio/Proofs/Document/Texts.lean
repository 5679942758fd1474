import Folio.Proofs.Document.Pieces
import Mathlib.Data.List.Chain

/-! No two texts stand side by side in the tree of a document: a text that comes after a text
becomes one with it.
-/

namespace Folio.Document

open Markdown (Placed Construct Event)

namespace Node

/-- Holds if no two texts stand side by side. -/
def Apart (nodes : List Node) : Prop :=
  nodes.IsChain fun left right => (left.isText && right.isText) = false

/-- Holds for nodes in which no two texts stand side by side, at any level below them. -/
def ApartBelow (nodes : List Node) : Prop :=
  ∀ e ∈ listElements nodes, Apart e.children

/-- Holds for trees in which no two texts stand side by side, at any level. -/
structure ApartTrees (nodes : List Node) : Prop where
  here : Apart nodes
  below : ApartBelow nodes

theorem Apart.reverse {nodes : List Node} (h : Apart nodes)
    : Apart nodes.reverse := by
  refine List.isChain_reverse.mpr (List.IsChain.imp ?_ h)
  intro left right apart
  rwa [Bool.and_comm]

/-- A node is put before others, or it is a text and becomes one with a text. -/
theorem addTo_cases (node : Node) (before : List Node)
    : (∃ s t rest, node = .text t ∧ before = .text s :: rest
        ∧ node.addTo before = .text (s ++ t) :: rest)
      ∨ (node.addTo before = node :: before
        ∧ ∀ other ∈ before.head?, (node.isText && other.isText) = false) := by
  cases node with
  | element kind key attributes children => exact .inr ⟨rfl, fun _ _ => rfl⟩
  | text t =>
      cases before with
      | nil => exact .inr ⟨rfl, fun _ member => by cases member⟩
      | cons other rest =>
          cases other with
          | text s => exact .inl ⟨s, t, rest, rfl, rfl, rfl⟩
          | element kind key attributes children =>
              refine .inr ⟨rfl, fun other member => ?_⟩
              obtain rfl := Option.some.inj member
              rfl

/-- An element that comes first stays first: no text becomes one with it. -/
theorem exists_joined_cons {node : Node} (notText : node.isText = false) (nodes : List Node)
    : ∃ more, joined (node :: nodes) = node :: more := by
  have kept (before : List Node)
      : ∃ more,
          nodes.foldl (fun before node => node.addTo before) (before ++ [node])
            = more ++ [node] := by
    induction nodes generalizing before with
    | nil => exact ⟨before, rfl⟩
    | cons next rest ih =>
        rw [List.foldl_cons]
        rcases addTo_cases next (before ++ [node]) with ⟨s, t, last, -, text, added⟩ | ⟨added, -⟩
        · cases before with
          | nil =>
              obtain ⟨rfl, -⟩ := List.cons.inj text
              cases notText
          | cons _ before =>
              obtain ⟨-, rfl⟩ := List.cons.inj text
              rw [added]
              exact ih (.text (s ++ t) :: before)
        · rw [added]
          exact ih (next :: before)
  obtain ⟨more, last⟩ := kept []
  refine ⟨more.reverse, ?_⟩
  rw [joined, List.foldl_cons, addTo_element notText]
  exact (congrArg List.reverse last).trans (by simp)

theorem addTo_ne_nil (node : Node) (before : List Node) : node.addTo before ≠ [] := by
  rcases addTo_cases node before with ⟨_, _, _, -, -, added⟩ | ⟨added, -⟩ <;>
    (rw [added]; exact List.cons_ne_nil _ _)

/-- No node is lost when texts that meet become one. -/
theorem joined_eq_nil_iff {nodes : List Node} : joined nodes = [] ↔ nodes = [] := by
  have kept (rest : List Node) {before : List Node} (notNil : before ≠ [])
      : rest.foldl (fun before node => node.addTo before) before ≠ [] := by
    induction rest generalizing before with
    | nil => exact notNil
    | cons node rest ih => exact ih (addTo_ne_nil node before)
  rw [joined, List.reverse_eq_nil_iff]
  cases nodes with
  | nil => exact iff_of_true rfl rfl
  | cons node rest =>
      exact iff_of_false (kept rest (addTo_ne_nil node [])) (List.cons_ne_nil node rest)

theorem Apart.addTo {before : List Node} (h : Apart before) (node : Node)
    : Apart (node.addTo before) := by
  rcases addTo_cases node before with ⟨s, t, rest, rfl, rfl, added⟩ | ⟨added, apart⟩
  · rw [added]
    cases rest with
    | nil => exact .singleton _
    | cons next rest =>
        obtain ⟨first, others⟩ := List.isChain_cons_cons.mp h
        exact List.isChain_cons_cons.mpr ⟨first, others⟩
  · rw [added]
    exact List.IsChain.cons h apart

theorem ApartBelow.addTo {before : List Node} (h : ApartBelow before) {node : Node}
    (inside : ApartBelow [node])
    : ApartBelow (node.addTo before) := by
  rcases addTo_cases node before with ⟨s, t, rest, rfl, rfl, added⟩ | ⟨added, -⟩
  · rw [added]
    exact h
  · rw [added]
    intro e member
    rcases List.mem_append.mp member with own | other
    · exact inside e (List.mem_append_left _ own)
    · exact h e other

theorem mem_listElements {nodes : List Node} {e : Element}
    : e ∈ listElements nodes ↔ ∃ node ∈ nodes, e ∈ node.elements := by
  induction nodes with
  | nil => simp [listElements]
  | cons node rest ih => simp [listElements, ih]

namespace ApartTrees

theorem nil : ApartTrees [] :=
  ⟨.nil, List.forall_mem_nil _⟩

theorem reverse {nodes : List Node} (h : ApartTrees nodes)
    : ApartTrees nodes.reverse := by
  refine ⟨h.here.reverse, fun e member => h.below e ?_⟩
  simpa only [mem_listElements, List.mem_reverse] using member

theorem addTo {before : List Node} (h : ApartTrees before) {node : Node}
    (inside : ApartBelow [node])
    : ApartTrees (node.addTo before) :=
  ⟨h.here.addTo node, h.below.addTo inside⟩

/-- An element around trees. -/
theorem element {children : List Node} (h : ApartTrees children) (kind : Kind)
    (key : Option String) (attributes : Attributes)
    : ApartBelow [.element kind key attributes children] := by
  simp only [ApartBelow, listElements, elements, List.append_nil]
  exact List.forall_mem_cons.mpr ⟨h.here, h.below⟩

end ApartTrees

end Node

-----------------------------------------------------------------------------------------
-- Trees that are being built
-----------------------------------------------------------------------------------------

namespace Builder

/-- Holds while no two texts stand side by side, among finished nodes and in open elements. -/
structure Apart (b : Builder) : Prop where
  root : Node.ApartTrees b.root
  stack : ∀ e ∈ b.stack, Node.ApartTrees e.children

namespace Apart

variable {b : Builder}

theorem push (h : b.Apart) {node : Node} (inside : Node.ApartBelow [node])
    : (b.push node).Apart := by
  unfold Builder.push
  split
  · exact ⟨h.root.addTo inside, h.stack⟩
  · next e outer stack =>
      obtain ⟨innermost, others⟩ := List.forall_mem_cons.mp (stack ▸ h.stack)
      exact ⟨h.root, List.forall_mem_cons.mpr ⟨innermost.addTo inside, others⟩⟩

theorem openAll (h : b.Apart) {elements : List OpenElement}
    (noChildren : ∀ e ∈ elements, e.children = [])
    : (b.openAll elements).Apart := by
  refine ⟨h.root, List.forall_mem_append.mpr ⟨fun e member => ?_, h.stack⟩⟩
  rw [noChildren e member]
  exact .nil

/-- The innermost element is taken off. -/
theorem pop (h : b.Apart) {e : OpenElement} {outer : List OpenElement}
    (stack : b.stack = e :: outer)
    : Node.ApartBelow [e.node] ∧ ({ b with stack := outer } : Builder).Apart := by
  obtain ⟨innermost, others⟩ := List.forall_mem_cons.mp (stack ▸ h.stack)
  exact ⟨innermost.reverse.element _ _ _, h.root, others⟩

theorem closeMarkdown (h : b.Apart) {closed : Builder} (ok : b.closeMarkdown = .ok closed)
    : closed.Apart := by
  unfold Builder.closeMarkdown at ok
  split at ok
  · exact Except.ok.inj ok ▸ h
  · next e outer stack =>
      split at ok
      · cases ok
      · obtain ⟨inside, outside⟩ := h.pop stack
        exact Except.ok.inj ok ▸ outside.push inside

theorem closeTwice (h : b.Apart) {closed : Builder} (ok : b.closeTwice = .ok closed)
    : closed.Apart := by
  obtain ⟨inner, first, second⟩ := bind_eq_ok.mp ok
  exact (h.closeMarkdown first).closeMarkdown second

theorem closeImage (h : b.Apart) {closed : Builder} (ok : b.closeImage = .ok closed)
    : closed.Apart := by
  unfold Builder.closeImage at ok
  split at ok
  · exact Except.ok.inj ok ▸ h
  · next e outer stack =>
      split at ok
      · cases ok
      · exact Except.ok.inj ok ▸ (h.pop stack).2.push (Node.ApartTrees.nil.element _ _ _)

theorem close (h : b.Apart) {c : Construct} {closed : Builder} (ok : b.close c = .ok closed)
    : closed.Apart := by
  cases c with
  | html => exact Except.ok.inj ok ▸ h
  | code info => exact h.closeTwice ok
  | tableHead => exact h.closeTwice ok
  | image destination title => exact h.closeImage ok
  | table alignments =>
      obtain ⟨inner, first, second⟩ := bind_eq_ok.mp ok
      unfold closeBody at first
      split at first
      · exact (h.closeMarkdown first).closeMarkdown second
      · exact (Except.ok.inj first ▸ h : inner.Apart).closeMarkdown second
  | _ => exact h.closeMarkdown ok

theorem closeTag (h : b.Apart) {name : String} {line : Nat} {closed : Builder}
    (ok : b.closeTag name line = .ok closed)
    : closed.Apart := by
  cases isTag : b.isInTag with
  | false =>
      rw [closeTag_outside isTag] at ok
      split at ok
      · exact Except.ok.inj ok ▸ h
      · cases ok
  | true =>
      obtain ⟨e, outer, stack, tag⟩ := exists_of_isInTag isTag
      rw [closeTag_inside stack tag] at ok
      split at ok
      · obtain ⟨inside, outside⟩ := h.pop stack
        exact Except.ok.inj ok ▸ outside.push inside
      · cases ok

end Apart

def PieceApart : Piece → Prop
  | .node node => Node.ApartBelow [node]
  | _ => True

theorem Apart.take {b : Builder} (h : b.Apart) {piece : Piece} (apart : PieceApart piece)
    {taken : Builder} (ok : b.take piece = .ok taken)
    : taken.Apart := by
  cases piece with
  | node node => exact Except.ok.inj ok ▸ h.push apart
  | opening tag => exact Except.ok.inj ok ▸ h.openAll (List.forall_mem_singleton.mpr rfl)
  | closing name line => exact h.closeTag ok
  | leave c => exact h.close ok
  | enter c t line =>
      have body : (b.openBody c line).Apart := by
        unfold openBody
        split
        · exact h.openAll (List.forall_mem_singleton.mpr rfl)
        · exact h
      have noChildren : ∀ e ∈ t.opened c line, e.children = [] := fun e member =>
        (opened_fresh t c line e member).children
      exact Except.ok.inj ok ▸ body.openAll noChildren

theorem Apart.takeAll {b : Builder} (h : b.Apart) {pieces : List Piece}
    (apart : ∀ piece ∈ pieces, PieceApart piece) {taken : Builder}
    (ok : b.takeAll pieces = .ok taken)
    : taken.Apart := by
  induction pieces generalizing b with
  | nil => exact Except.ok.inj ok ▸ h
  | cons piece rest ih =>
      obtain ⟨first, others⟩ := List.forall_mem_cons.mp apart
      obtain ⟨next, one, all⟩ := bind_eq_ok.mp ok
      exact ih (h.take first one) others all

theorem apartBelow_text (text : String)
    : Node.ApartBelow [.text text] :=
  List.forall_mem_nil _

theorem apartBelow_leaf (kind : Kind) (key : Option String) (attributes : Attributes)
    : Node.ApartBelow [.element kind key attributes []] :=
  Node.ApartTrees.nil.element kind key attributes

theorem pieceApart_token (names : List String) (line : Nat) (token : Markup.Token)
    : ∀ piece ∈ tokenPieces names line token, PieceApart piece := by
  cases token with
  | text text => exact List.forall_mem_singleton.mpr (apartBelow_text _)
  | closing name => exact List.forall_mem_singleton.mpr trivial
  | opening name attributes selfClosing =>
      rw [tokenPieces]
      split
      · exact List.forall_mem_nil _
      · split
        · exact List.forall_mem_singleton.mpr (apartBelow_leaf _ _ _)
        · exact List.forall_mem_singleton.mpr trivial

theorem pieceApart_event (source : Source) (t : TablePlace) (e : Placed)
    : ∀ piece ∈ eventPieces source t e, PieceApart piece := by
  unfold eventPieces
  split
  · exact List.forall_mem_nil _
  · exact List.forall_mem_nil _
  · exact List.forall_mem_singleton.mpr trivial
  · exact List.forall_mem_singleton.mpr trivial
  · exact List.forall_mem_singleton.mpr (apartBelow_text _)
  · have inside (text : String) : Node.ApartTrees [.text text] :=
      ⟨.singleton _, apartBelow_text text⟩
    exact List.forall_mem_singleton.mpr ((inside _).element _ _ _)
  · intro piece member
    obtain ⟨token, -, inToken⟩ := List.mem_flatMap.mp member
    exact pieceApart_token _ _ _ piece inToken
  · exact List.forall_mem_singleton.mpr (apartBelow_text _)
  · exact List.forall_mem_singleton.mpr (apartBelow_leaf _ _ _)
  · exact List.forall_mem_singleton.mpr (apartBelow_leaf _ _ _)
  · exact List.forall_mem_singleton.mpr (apartBelow_leaf _ _ _)

theorem pieceApart_pieces (source : Source) (t : TablePlace) (events : List Placed)
    : ∀ piece ∈ pieces source t events, PieceApart piece := by
  induction events generalizing t with
  | nil => exact List.forall_mem_nil _
  | cons e rest ih => exact List.forall_mem_append.mpr ⟨pieceApart_event source t e, ih _⟩

/-- In the tree of a document, no two texts stand side by side. -/
theorem apartTrees_of_tree {source : Source} {t : TablePlace} {events : List Placed}
    {nodes : List Node} (ok : tree (pieces source t events) = .ok nodes)
    : Node.ApartTrees nodes := by
  obtain ⟨b, run, finished⟩ := bind_eq_ok.mp ok
  have apart : b.Apart :=
    Apart.takeAll ⟨.nil, List.forall_mem_nil _⟩ (pieceApart_pieces source t events) run
  unfold finish at finished
  split at finished
  · exact Except.ok.inj finished ▸ apart.root.reverse
  · cases finished

end Builder

end Folio.Document
