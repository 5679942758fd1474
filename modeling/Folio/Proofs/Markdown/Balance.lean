import Folio.Markdown.Event

/-! The events of a document are balanced: each construct that starts ends, constructs do not cross,
heads and rows stand in tables alone, and cells stand in those. Tags inside markup are not part of
this; they may start and end anywhere.
-/

namespace Folio.Markdown

/-- What may stand in a place: what flows there, the head and rows of a table, or the cells of
these.
-/
inductive Region where
  | flow
  | table
  | row
deriving DecidableEq

def Construct.region : Construct → Region
  | .tableHead | .tableRow => .table
  | .tableCell => .row
  | _ => .flow

def Construct.inner : Construct → Region
  | .table _ => .table
  | .tableHead | .tableRow => .row
  | _ => .flow

def Event.isLeaf : Event → Bool
  | .enter _ | .leave _ => false
  | _ => true

inductive Balanced : Region → List Placed → Prop where
  | nil {r : Region} : Balanced r []
  | leaf {e : Placed} {rest : List Placed} (isLeaf : e.event.isLeaf = true)
      (after : Balanced .flow rest)
      : Balanced .flow (e :: rest)
  | construct {c : Construct} {start stop : Nat} {inside rest : List Placed}
      (within : Balanced c.inner inside) (after : Balanced c.region rest)
      : Balanced c.region (⟨.enter c, start⟩ :: (inside ++ ⟨.leave c, stop⟩ :: rest))

namespace Balanced

variable {r : Region}

theorem append {before after : List Placed} (h : Balanced r before) (later : Balanced r after)
    : Balanced r (before ++ after) := by
  induction h with
  | nil => exact later
  | leaf isLeaf _ ih => exact leaf isLeaf (ih later)
  | construct within _ _ ih =>
      simpa only [List.cons_append, List.append_assoc] using construct within (ih later)

/-- Events that are no start and no end are balanced. -/
theorem of_isLeaf {events : List Placed} (h : ∀ e ∈ events, e.event.isLeaf = true)
    : Balanced .flow events := by
  induction events with
  | nil => exact nil
  | cons e rest ih =>
      obtain ⟨first, others⟩ := List.forall_mem_cons.mp h
      exact leaf first (ih others)

theorem flatMap {α : Type} {parts : List α} {events : α → List Placed}
    (h : ∀ part ∈ parts, Balanced r (events part))
    : Balanced r (parts.flatMap events) := by
  induction parts with
  | nil => exact nil
  | cons part rest ih =>
      obtain ⟨first, others⟩ := List.forall_mem_cons.mp h
      exact first.append (ih others)

end Balanced

theorem balanced_enclose {c : Construct} {inside : List Placed} (within : Balanced c.inner inside)
    (offset : Nat)
    : Balanced c.region (enclose c offset inside) :=
  .construct within .nil

-----------------------------------------------------------------------------------------
-- The events of documents
-----------------------------------------------------------------------------------------

mutual

/-- The events of a span are balanced, by induction on the span. -/
theorem balanced_spanEvents (offset : Nat) (span : Span)
    : Balanced .flow (span.events offset) := by
  match span with
  | .text _ | .code _ | .html _ _ | .softBreak | .hardBreak =>
      exact .of_isLeaf (by simp [Span.events, Event.isLeaf])
  | .emphasis kind children =>
      exact balanced_enclose (c := .emphasis kind) (balanced_listSpanEvents offset children) offset
  | .link destination title children =>
      exact balanced_enclose (c := .link destination title)
        (balanced_listSpanEvents offset children) offset
  | .image destination title children =>
      exact balanced_enclose (c := .image destination title)
        (balanced_listSpanEvents offset children) offset

theorem balanced_listSpanEvents (offset : Nat) (spans : List Span)
    : Balanced .flow (Span.listEvents offset spans) := by
  match spans with
  | [] => exact .nil
  | span :: rest =>
      exact (balanced_spanEvents offset span).append (balanced_listSpanEvents offset rest)

end

section Blocks

variable (definition? : List Char → Option LinkDefinition)

theorem balanced_proseEvents (text : Prose)
    : Balanced .flow (text.events definition?) := by
  refine .append (.of_isLeaf fun e member => ?_) (balanced_listSpanEvents _ _)
  obtain ⟨ticked, -, rfl⟩ := List.mem_map.mp member
  rfl

theorem balanced_rowEvents {c : Construct} (isRow : c.inner = .row) (cells : List Prose)
    : Balanced c.region (rowEvents definition? c cells) := by
  refine balanced_enclose ?_ 0
  rw [isRow]
  exact .flatMap fun cell _ =>
    balanced_enclose (c := .tableCell) (balanced_proseEvents definition? cell) 0

mutual

/-- The events of a block are balanced, by induction on the block. -/
theorem balanced_blockEvents (block : Block)
    : Balanced .flow (block.events definition?) := by
  match block with
  | .paragraph true text => exact balanced_proseEvents definition? text
  | .paragraph false text =>
      exact balanced_enclose (c := .paragraph) (balanced_proseEvents definition? text) 0
  | .heading level attributes start text =>
      exact balanced_enclose (c := .heading level attributes)
        (balanced_proseEvents definition? text) start
  | .rule | .task _ => exact .of_isLeaf (by simp [Block.events, Event.isLeaf])
  | .code info pieces =>
      refine balanced_enclose (c := .code info) (.of_isLeaf fun e member => ?_) 0
      obtain ⟨text, -, rfl⟩ := List.mem_map.mp member
      rfl
  | .html pieces =>
      refine balanced_enclose (c := .html) (.of_isLeaf fun e member => ?_) 0
      obtain ⟨piece, -, rfl⟩ := List.mem_map.mp member
      cases piece <;> rfl
  | .quote children =>
      exact balanced_enclose (c := .quote) (balanced_listBlockEvents children) 0
  | .list start items =>
      exact balanced_enclose (c := .list start) (balanced_listBlockEvents items) 0
  | .item children => exact balanced_enclose (c := .item) (balanced_listBlockEvents children) 0
  | .table alignments head rows =>
      have rowsBalanced : Balanced .table (rows.flatMap (rowEvents definition? .tableRow)) :=
        .flatMap fun row _ => balanced_rowEvents definition? (c := .tableRow) rfl row
      exact balanced_enclose (c := .table alignments)
        ((balanced_rowEvents definition? (c := .tableHead) rfl head).append rowsBalanced) 0
  | .definitions children =>
      exact balanced_enclose (c := .definitions) (balanced_listBlockEvents children) 0
  | .term _ text => exact balanced_enclose (c := .term) (balanced_proseEvents definition? text) 0
  | .definition children =>
      exact balanced_enclose (c := .definition) (balanced_listBlockEvents children) 0

theorem balanced_listBlockEvents (blocks : List Block)
    : Balanced .flow (Block.listEvents definition? blocks) := by
  match blocks with
  | [] => exact .nil
  | block :: rest => exact (balanced_blockEvents block).append (balanced_listBlockEvents rest)

end

end Blocks

theorem balanced_events (text : List Char)
    : Balanced .flow (events text) :=
  balanced_listBlockEvents _ _

end Folio.Markdown
