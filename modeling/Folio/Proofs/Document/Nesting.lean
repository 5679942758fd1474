import Folio.Proofs.Document.Texts
import Mathlib.Data.List.Basic

/-! Tags and constructs of Markdown nest properly, or a document does not compile: its tree has an
element for each pair of brackets, with what stands between them as its children, and its error is
that of the first bracket that is out of place.
-/

namespace Folio.Document

open Markdown (Placed Construct Event Balanced)

def OpenElement.having (e : OpenElement) (children : List Node) : OpenElement :=
  { e with children := children.reverse }

@[simp]
theorem OpenElement.kind_having (e : OpenElement) (children : List Node)
    : (e.having children).kind = e.kind :=
  rfl

@[simp]
theorem OpenElement.kind_markdown (name : String) (line : Nat)
    : (OpenElement.markdown name line).kind = .tag name :=
  rfl

@[simp]
theorem OpenElement.node_having (e : OpenElement) (children : List Node)
    : (e.having children).node = e.around children := by
  simp [OpenElement.node, OpenElement.having, OpenElement.around]

namespace Builder

-----------------------------------------------------------------------------------------
-- Closing what was opened
-----------------------------------------------------------------------------------------

def pushAll (b : Builder) (nodes : List Node) : Builder :=
  nodes.foldl push b

theorem pushAll_append (b : Builder) (nodes more : List Node)
    : b.pushAll (nodes ++ more) = (b.pushAll nodes).pushAll more :=
  List.foldl_append

theorem push_openAll (b : Builder) (e : OpenElement) (outer : List OpenElement) (node : Node)
    : (b.openAll (e :: outer)).push node
      = b.openAll ({ e with children := node.addTo e.children } :: outer) :=
  rfl

theorem push_having (b : Builder) (e : OpenElement) (outer : List OpenElement)
    (children : List Node) {node : Node} (notText : node.isText = false)
    : (b.openAll (e.having children :: outer)).push node
      = b.openAll (e.having (children ++ [node]) :: outer) := by
  rw [push_openAll, Node.addTo_element notText]
  simp [OpenElement.having]

/-- What is added while elements are open goes into the innermost one. -/
theorem pushAll_openAll (b : Builder) (e : OpenElement) (outer : List OpenElement)
    (nodes : List Node)
    : (b.openAll (e :: outer)).pushAll nodes
      = b.openAll
          ({ e with children := nodes.foldl (fun before node => node.addTo before) e.children }
            :: outer) := by
  induction nodes generalizing e with
  | nil => rfl
  | cons node rest ih => exact ih { e with children := node.addTo e.children }

theorem pushAll_fresh (b : Builder) {e : OpenElement} (noChildren : e.children = [])
    (outer : List OpenElement) (nodes : List Node)
    : (b.openAll (e :: outer)).pushAll nodes
      = b.openAll (e.having (Node.joined nodes) :: outer) := by
  rw [pushAll_openAll, noChildren, OpenElement.having, Node.joined, List.reverse_reverse]

theorem isInTag_pushAll (b : Builder) (nodes : List Node)
    : (b.pushAll nodes).isInTag = b.isInTag := by
  induction nodes generalizing b with
  | nil => rfl
  | cons node rest ih =>
      refine (ih (b.push node)).trans ?_
      unfold isInTag push
      split
      · next stack => rw [stack]
      · next stack => rw [stack]; rfl

theorem closeMarkdown_openAll (b : Builder) {e : OpenElement} (isTag : e.isTag = false)
    (outer : List OpenElement)
    : (b.openAll (e :: outer)).closeMarkdown = .ok ((b.openAll outer).push e.node) := by
  simp only [closeMarkdown, openAll, List.cons_append, isTag, Bool.false_eq_true, if_false]

/-- An element that is closed leaves its node behind. -/
theorem closeMarkdown_fresh (b : Builder) {e : OpenElement} (fresh : e.Fresh)
    (outer : List OpenElement) (nodes : List Node)
    : ((b.openAll (e :: outer)).pushAll nodes).closeMarkdown
      = .ok ((b.openAll outer).push (e.around (Node.joined nodes))) := by
  rw [pushAll_fresh b fresh.children, closeMarkdown_openAll, OpenElement.node_having]
  exact fresh.isTag

theorem closeImage_fresh (b : Builder) {e : OpenElement} (fresh : e.Fresh) (nodes : List Node)
    : ((b.openAll [e]).pushAll nodes).closeImage
      = .ok (b.push
          ((e.with "alt" (.string (Node.listContent (Node.joined nodes)))).around [])) := by
  have isTag : (e.having (Node.joined nodes)).isTag = false := fresh.isTag
  have children : (e.having (Node.joined nodes)).children.reverse = Node.joined nodes :=
    List.reverse_reverse _
  rw [pushAll_fresh b fresh.children]
  simp only [closeImage, openAll, List.cons_append, isTag, Bool.false_eq_true, if_false, children]
  rfl

/-- A construct that ends leaves its node behind, if it is no table. -/
theorem close_opened (b : Builder) (t : TablePlace) {c : Construct} (line : Nat)
    (isBracket : c ≠ .html) (noTable : c.inner ≠ .table) (nodes : List Node)
    : ((b.openAll (t.opened c line)).pushAll nodes).close c
      = .ok (b.pushAll (constructNode c (t.opened c line) (Node.joined nodes))) := by
  have fresh := opened_fresh t c line
  have one (single : elementCount c = 1)
      : ∃ e, t.opened c line = [e] ∧ e.Fresh := by
    obtain ⟨e, opened⟩ := List.length_eq_one_iff.mp ((length_opened t c line).trans single)
    exact ⟨e, opened, fresh e (by simp [opened])⟩
  have two (double : elementCount c = 2)
      : ((b.openAll (t.opened c line)).pushAll nodes).closeTwice
        = .ok (b.pushAll (wrap (t.opened c line) (Node.joined nodes))) := by
    obtain ⟨inner, outer, opened⟩ := List.length_eq_two.mp ((length_opened t c line).trans double)
    have innerFresh := fresh inner (by simp [opened])
    have outerFresh := fresh outer (by simp [opened])
    rw [opened, closeTwice, closeMarkdown_fresh b innerFresh]
    exact closeMarkdown_fresh b outerFresh [] [inner.around (Node.joined nodes)]
  cases c with
  | html => exact absurd rfl isBracket
  | table alignments => exact absurd rfl noTable
  | code info => exact two rfl
  | tableHead => exact two rfl
  | image destination title =>
      obtain ⟨e, opened, fresh⟩ := one rfl
      rw [opened]
      exact closeImage_fresh b fresh nodes
  | _ =>
      obtain ⟨e, opened, fresh⟩ := one rfl
      rw [opened]
      exact closeMarkdown_fresh b fresh [] nodes

-----------------------------------------------------------------------------------------
-- Tables
-----------------------------------------------------------------------------------------

/-- The elements that are open in a table after some of its parts: the table itself, and its body as
soon as there is a row.
-/
def tableStack (e : OpenElement) (line : Nat) (parts : List Node) : List OpenElement :=
  if tableRows parts = [] then [e.having (tableHeads parts)]
  else [(OpenElement.markdown "tbody" line).having (tableRows parts), e.having (tableHeads parts)]

theorem tableRows_concat (parts : List Node) (part : Node)
    : tableRows (parts ++ [part])
      = if tableRows parts = [] ∧ part.isRow = false then [] else tableRows parts ++ [part] := by
  unfold tableRows
  rw [List.dropWhile_append]
  by_cases none : parts.dropWhile (fun part => !part.isRow) = []
  · cases isRow : part.isRow <;> simp [none, isRow]
  · simp [none]

theorem tableHeads_concat (parts : List Node) (part : Node)
    : tableHeads (parts ++ [part])
      = if tableRows parts = [] ∧ part.isRow = false then tableHeads parts ++ [part]
        else tableHeads parts := by
  have whole (parts : List Node) : tableHeads parts ++ tableRows parts = parts :=
    List.takeWhile_append_dropWhile
  have both := whole (parts ++ [part])
  rw [tableRows_concat] at both
  split at both
  · next isHead =>
      have all := whole parts
      rw [isHead.1, List.append_nil] at all
      rw [if_pos isHead, all]
      exact (List.append_nil _).symm.trans both
  · next notHead =>
      rw [if_neg notHead]
      refine List.append_cancel_right (both.trans ?_)
      rw [← List.append_assoc, whole]

/-- A head of a table comes after the parts before it. -/
theorem push_head (b : Builder) (e : OpenElement) (line : Nat) (parts : List Node) {part : Node}
    (notText : part.isText = false) (notRow : part.isRow = false)
    : (b.openAll (tableStack e line parts)).push part
      = b.openAll (tableStack e line (parts ++ [part])) := by
  simp only [tableStack, tableRows_concat, tableHeads_concat, notRow, and_true]
  by_cases noRows : tableRows parts = []
  · simp only [noRows, if_true]
    exact push_having b e [] _ notText
  · simp only [noRows, if_false, List.append_eq_nil_iff, false_and]
    exact push_having b _ _ _ notText

theorem isInside_openAll (b : Builder) (e : OpenElement) (outer : List OpenElement) (name : String)
    : (b.openAll (e :: outer)).isInside name = (e.kind == .tag name) :=
  rfl

/-- A row of a table comes after the parts before it; the first one opens the body of the table. -/
theorem push_row (b : Builder) {e : OpenElement} (isTable : e.kind = .tag "table") (line : Nat)
    (parts : List Node) (rowLine : Nat) {row : Node} (notText : row.isText = false)
    (isRow : row.isRow = true)
    : ∃ bodyLine, ((b.openAll (tableStack e line parts)).openBody .tableRow rowLine).push row
      = b.openAll (tableStack e bodyLine (parts ++ [row])) := by
  simp only [tableStack, tableRows_concat, tableHeads_concat, isRow, Bool.true_eq_false, and_false,
    if_false, List.append_eq_nil_iff, reduceCtorEq]
  by_cases noRows : tableRows parts = []
  · refine ⟨rowLine, ?_⟩
    simp only [noRows, if_true, List.nil_append]
    rw [openBody, if_pos ⟨rfl, by simp [isInside_openAll, isTable]⟩]
    exact push_having b (.markdown "tbody" rowLine) [e.having (tableHeads parts)] [] notText
  · refine ⟨line, ?_⟩
    simp only [noRows, if_false]
    rw [openBody, if_neg (by simp [isInside_openAll])]
    exact push_having b _ _ _ notText

/-- A table that ends leaves its node behind. -/
theorem close_table (b : Builder) {e : OpenElement} (fresh : e.Fresh)
    (isTable : e.kind = .tag "table") (line : Nat) (parts : List Node)
    (alignments : List Markdown.Alignment)
    : (b.openAll (tableStack e line parts)).close (.table alignments)
      = .ok (b.push (e.around (withBody parts))) := by
  have closeHaving (children : List Node)
      : (b.openAll [e.having children]).closeMarkdown = .ok (b.push (e.around children)) := by
    rw [closeMarkdown_openAll, OpenElement.node_having]
    · rfl
    · exact fresh.isTag
  unfold close closeBody tableStack withBody
  by_cases noRows : tableRows parts = []
  · simp only [noRows, if_true]
    rw [isInside_openAll, OpenElement.kind_having, isTable, if_neg (by decide)]
    exact closeHaving _
  · simp only [noRows, if_false]
    rw [isInside_openAll, OpenElement.kind_having, OpenElement.kind_markdown,
      if_pos (beq_self_eq_true _), closeMarkdown_openAll _ rfl, OpenElement.node_having]
    refine Eq.trans ?_ (closeHaving _)
    exact congrArg closeMarkdown (push_having b e [] (tableHeads parts) rfl)

-----------------------------------------------------------------------------------------
-- Nested pieces
-----------------------------------------------------------------------------------------

/-- What pieces that nest properly do to a tree: their nodes are added to it, or to the parts of the
table that they stand in.
-/
structure Yields (s : Surround) (pieces : List Piece) (nodes : List Node) : Prop where
  outside (notTable : s ≠ .table) (b : Builder) (noTag : s = .markdown → b.isInTag = false)
    : b.takeAll pieces = .ok (b.pushAll nodes)
  noTexts (isTable : s = .table) : ∀ node ∈ nodes, node.isText = false
  inTable (isTable : s = .table) (b : Builder) (e : OpenElement) (table : e.kind = .tag "table")
      (line : Nat) (parts : List Node)
    : ∃ bodyLine, (b.openAll (tableStack e line parts)).takeAll pieces
      = .ok (b.openAll (tableStack e bodyLine (parts ++ nodes)))

theorem isInTag_opened (b : Builder) (t : TablePlace) {c : Construct} (line : Nat)
    (isBracket : c ≠ .html)
    : (b.openAll (t.opened c line)).isInTag = false := by
  have fresh := opened_fresh t c line
  cases opened : t.opened c line with
  | nil =>
      have count := length_opened t c line
      rw [opened] at count
      cases c <;> first | exact absurd rfl isBracket | cases count
  | cons e outer =>
      have isTag : e.isTag = false := (fresh e (by simp [opened])).isTag
      simpa [isInTag, openAll] using isTag

theorem takeAll_around {b opened closed : Builder} {c : Construct} {t : TablePlace} {line : Nat}
    {inside : List Piece}
    (entered : ((b.openBody c line).openAll (t.opened c line)).takeAll inside = .ok opened)
    (left : opened.close c = .ok closed) (rest : List Piece)
    : b.takeAll (.enter c t line :: (inside ++ .leave c :: rest)) = closed.takeAll rest := by
  have first : b.takeAll (.enter c t line :: (inside ++ .leave c :: rest))
      = ((b.openBody c line).openAll (t.opened c line)).takeAll (inside ++ .leave c :: rest) :=
    rfl
  have last : opened.takeAll (.leave c :: rest) = opened.close c >>= fun b => b.takeAll rest := rfl
  rw [first, takeAll_append, entered]
  exact last.trans (by rw [left]; rfl)

/-- Only tables have parts of tables inside. -/
theorem exists_table {c : Construct} (isTable : c.inner = .table)
    : ∃ alignments, c = .table alignments := by
  cases c <;> first | exact ⟨_, rfl⟩ | cases isTable

/-- A construct outside of tables adds its node. -/
theorem takeAll_construct {c : Construct} {inside : List Piece} {children : List Node}
    (isBracket : c ≠ .html) (notPart : c.region ≠ .table)
    (within : Yields (constructSurround c) inside children) (b : Builder) (t : TablePlace)
    (line : Nat) (rest : List Piece)
    : b.takeAll (.enter c t line :: (inside ++ .leave c :: rest))
      = (b.pushAll (constructNode c (t.opened c line) (Node.joined children))).takeAll rest := by
  have notRow : c ≠ .tableRow := by
    rintro rfl
    exact notPart rfl
  by_cases isTable : c.inner = .table
  · have around : constructSurround c = .table := if_pos isTable
    obtain ⟨alignments, rfl⟩ := exists_table isTable
    obtain ⟨bodyLine, run⟩ := within.inTable around b (.markdown "table" line) rfl line []
    have left := close_table b (.markdown "table" line) rfl bodyLine children alignments
    rw [Node.joined_elements (within.noTexts around)]
    refine takeAll_around ?_ left rest
    rw [openBody_of_ne b notRow]
    exact run
  · have around : constructSurround c = .markdown := if_neg isTable
    rw [around] at within
    refine takeAll_around ?_ (close_opened b t line isBracket isTable children) rest
    rw [openBody_of_ne b notRow]
    exact within.outside (by decide) _ fun _ => isInTag_opened b t line isBracket

/-- A head or a row adds its node to a table. -/
theorem takeAll_part {c : Construct} {inside : List Piece} {children : List Node}
    (isPart : c.region = .table) (within : Yields (constructSurround c) inside children)
    (b : Builder) {e : OpenElement} (table : e.kind = .tag "table") (line : Nat)
    (parts : List Node) (t : TablePlace) (partLine : Nat) (rest : List Piece)
    : ∃ bodyLine,
        (b.openAll (tableStack e line parts)).takeAll
            (.enter c t partLine :: (inside ++ .leave c :: rest))
          = (b.openAll
              (tableStack e bodyLine
                (parts ++ constructNode c (t.opened c partLine) (Node.joined children)))).takeAll
              rest := by
  have isBracket : c ≠ .html := by
    rintro rfl
    cases isPart
  have notTable : c.inner ≠ .table := by
    cases c <;> first | decide | cases isPart
  have around : constructSurround c = .markdown := if_neg notTable
  rw [around] at within
  have added (b : Builder)
      : b.takeAll (.enter c t partLine :: (inside ++ .leave c :: rest))
        = ((b.openBody c partLine).pushAll
            (constructNode c (t.opened c partLine) (Node.joined children))).takeAll rest :=
    takeAll_around
      (within.outside (by decide) _ fun _ => isInTag_opened _ t partLine isBracket)
      (close_opened _ t partLine isBracket notTable children) rest
  rw [added]
  cases c with
  | tableHead =>
      rw [openBody_of_ne _ (by decide)]
      exact ⟨line, congrArg (takeAll · rest) (push_head b e line parts rfl rfl)⟩
  | tableRow =>
      have isRow
          : ((OpenElement.markdown "tr" partLine).around (Node.joined children)).isRow = true :=
        rfl
      obtain ⟨bodyLine, pushed⟩ := push_row b table line parts partLine rfl isRow
      exact ⟨bodyLine, congrArg (takeAll · rest) pushed⟩
  | _ => cases isPart

theorem Yields.of_outside {s : Surround} {pieces : List Piece} {nodes : List Node}
    (notTable : s ≠ .table)
    (run : ∀ b : Builder, (s = .markdown → b.isInTag = false) →
      b.takeAll pieces = .ok (b.pushAll nodes))
    : Yields s pieces nodes where
  outside _ := run
  noTexts isTable := absurd isTable notTable
  inTable isTable := absurd isTable notTable

theorem closeTag_same (b : Builder) (tag : Tag) (children : List Node) (line : Nat)
    : (b.openAll [tag.opened.having children]).closeTag tag.kind.name line
      = .ok (b.push (tag.opened.around children)) := by
  have innermost : (b.openAll [tag.opened.having children]).stack
      = tag.opened.having children :: b.stack :=
    rfl
  have sameName : (tag.opened.having children).kind.name = tag.kind.name := rfl
  rw [closeTag_inside innermost rfl, if_pos sameName, OpenElement.node_having]
  rfl

/-- A tag adds its node. -/
theorem takeAll_tag {tag : Tag} {inside : List Piece} {children : List Node}
    (within : Yields .tag inside children) (b : Builder) (line : Nat) (rest : List Piece)
    : b.takeAll (.opening tag :: (inside ++ .closing tag.kind.name line :: rest))
      = (b.push (tag.opened.around (Node.joined children))).takeAll rest := by
  have inTag : (b.openElement tag.opened).takeAll inside
      = .ok (b.openAll [tag.opened.having (Node.joined children)]) := by
    rw [within.outside (by decide) _ (fun notTag => by cases notTag)]
    exact congrArg Except.ok (pushAll_fresh b rfl [] children)
  have first : b.takeAll (.opening tag :: (inside ++ .closing tag.kind.name line :: rest))
      = (b.openElement tag.opened).takeAll (inside ++ .closing tag.kind.name line :: rest) :=
    rfl
  have last (opened : Builder)
      : opened.takeAll (.closing tag.kind.name line :: rest)
        = opened.closeTag tag.kind.name line >>= fun b => b.takeAll rest :=
    rfl
  rw [first, takeAll_append, inTag]
  exact (last _).trans (by rw [closeTag_same]; rfl)

/-- Pieces that nest properly add their nodes, by induction on their nesting. -/
theorem yields_of_nested {s : Surround} {pieces : List Piece} {nodes : List Node}
    (h : Nested s pieces nodes)
    : Yields s pieces nodes := by
  induction h with
  | nil =>
      refine ⟨fun _ _ _ => rfl, fun _ => List.forall_mem_nil _, fun _ b e _ line parts => ?_⟩
      exact ⟨line, by rw [List.append_nil]; rfl⟩
  | @node s node _ _ outside _ ih =>
      refine .of_outside outside fun b noTag => ?_
      refine ih.outside outside (b.push node) fun isMarkdown => ?_
      exact (isInTag_pushAll b [node]).trans (noTag isMarkdown)
  | skipped isVoid _ ih =>
      refine .of_outside (by decide) fun b noTag => ?_
      rw [takeAll, take, closeTag_outside (noTag rfl), if_pos isVoid]
      exact ih.outside (by decide) b noTag
  | @construct s c t line inside rest children nodes mayStand _ _ within ih =>
      refine ⟨fun notTable b noTag => ?_, fun isTable => ?_,
        fun isTable b e table line' parts => ?_⟩
      · rw [takeAll_construct mayStand.bracket (mt mayStand.table.mp notTable) within,
          pushAll_append]
        refine ih.outside notTable _ fun isMarkdown => ?_
        rw [isInTag_pushAll, noTag isMarkdown]
      · refine List.forall_mem_append.mpr ⟨?_, ih.noTexts isTable⟩
        have isPart := mayStand.table.mpr isTable
        cases c <;> first | exact List.forall_mem_singleton.mpr rfl | cases isPart
      · obtain ⟨bodyLine, part⟩ :=
          takeAll_part (mayStand.table.mpr isTable) within b table line' parts t line rest
        rw [part, ← List.append_assoc]
        exact ih.inTable isTable b e table bodyLine _
  | @tag s tag line inside rest children nodes outside _ _ within ih =>
      refine .of_outside outside fun b noTag => ?_
      rw [takeAll_tag within]
      refine ih.outside outside _ fun isMarkdown => ?_
      exact (isInTag_pushAll b [_]).trans (noTag isMarkdown)

-----------------------------------------------------------------------------------------
-- Open brackets and the first fault
-----------------------------------------------------------------------------------------

/-- What the innermost of the brackets that are open says about a tree. -/
structure Stands (brackets : List Bracket) (b : Builder) : Prop where
  noTag (notTag : surround brackets ≠ .tag) : b.isInTag = false
  tag (tag : Tag) (outer : List Bracket) (isTag : brackets = .tag tag :: outer)
    : ∃ children stack, b.stack = { tag.opened with children } :: stack

theorem isInTag_tableStack (b : Builder) {e : OpenElement} (noTag : e.isTag = false) (line : Nat)
    (parts : List Node)
    : (b.openAll (tableStack e line parts)).isInTag = false := by
  unfold tableStack
  split
  · exact noTag
  · rfl

/-- Pieces that nest properly but for open brackets build a tree. -/
theorem stands_of_opened {brackets : List Bracket} {before : List Piece}
    (h : Opened brackets before)
    : ∃ b, takeAll {} before = .ok b ∧ Stands brackets b := by
  induction h with
  | @outside before nodes nested =>
      refine ⟨_, (yields_of_nested nested).outside (by decide) {} fun _ => rfl, ?_, ?_⟩
      · exact fun _ => isInTag_pushAll {} nodes
      · exact fun _ _ isTag => by cases isTag
  | @construct outer c t line before inside nodes standing mayStand within ih =>
      obtain ⟨b, run, -⟩ := ih
      have entered : takeAll {} (before ++ .enter c t line :: inside)
          = ((b.openBody c line).openAll (t.opened c line)).takeAll inside := by
        rw [takeAll_append, run]
        rfl
      have yields := yields_of_nested within
      rw [entered]
      by_cases isTable : c.inner = .table
      · have around : constructSurround c = .table := if_pos isTable
        obtain ⟨alignments, rfl⟩ := exists_table isTable
        obtain ⟨bodyLine, inTable⟩ := yields.inTable around b (.markdown "table" line) rfl line []
        rw [openBody_of_ne b (by simp)]
        refine ⟨_, inTable, fun _ => isInTag_tableStack b rfl bodyLine _, ?_⟩
        exact fun _ _ isTag => by cases isTag
      · have around : constructSurround c = .markdown := if_neg isTable
        rw [around] at yields
        have noTag := isInTag_opened (b.openBody c line) t line mayStand.bracket
        refine ⟨_, yields.outside (by decide) _ fun _ => noTag, fun _ => ?_, ?_⟩
        · rw [isInTag_pushAll, noTag]
        · exact fun _ _ isTag => by cases isTag
  | @tag outer tag before inside nodes standing notTable within ih =>
      obtain ⟨b, run, -⟩ := ih
      have entered : takeAll {} (before ++ .opening tag :: inside)
          = (b.openAll [tag.opened]).takeAll inside := by
        rw [takeAll_append, run]
        rfl
      have yields := (yields_of_nested within).outside (by decide) (b.openAll [tag.opened])
        fun notTag => by cases notTag
      rw [entered, yields, pushAll_openAll]
      refine ⟨_, rfl, fun notTag => absurd rfl notTag, ?_⟩
      rintro _ _ ⟨⟩
      exact ⟨_, _, rfl⟩

/-- A construct cannot end while a tag is open. -/
theorem close_inTag {b : Builder} {e : OpenElement} {outer : List OpenElement}
    (stack : b.stack = e :: outer) (isTag : e.isTag = true) {c : Construct} (isBracket : c ≠ .html)
    : b.close c = .error (.unclosedTag e.kind.name e.line) := by
  have closeMarkdown : b.closeMarkdown = .error (.unclosedTag e.kind.name e.line) := by
    simp only [Builder.closeMarkdown, stack, isTag, if_true]
  have closeTwice : b.closeTwice = .error (.unclosedTag e.kind.name e.line) := by
    rw [Builder.closeTwice, closeMarkdown]
    rfl
  cases c with
  | html => exact absurd rfl isBracket
  | code info => exact closeTwice
  | tableHead => exact closeTwice
  | table alignments =>
      simp only [close, closeBody]
      split
      · rw [closeMarkdown]
        rfl
      · exact closeMarkdown
  | image destination title => simp only [close, closeImage, stack, isTag, if_true]
  | _ => exact closeMarkdown

/-- A piece that is at fault is refused. -/
theorem take_fault {brackets : List Bracket} {b : Builder} (h : Stands brackets b) {piece : Piece}
    {error : CompileError} (fault : Fault brackets piece error)
    : b.take piece = .error error := by
  cases fault with
  | mismatched different =>
      obtain ⟨children, stack, innermost⟩ := h.tag _ _ rfl
      exact (closeTag_inside innermost rfl).trans (if_neg different)
  | unexpected noTag notVoid =>
      exact (closeTag_outside (h.noTag noTag)).trans (if_neg (Bool.eq_false_iff.mp notVoid))
  | unclosed isBracket =>
      obtain ⟨children, stack, innermost⟩ := h.tag _ _ rfl
      exact close_inTag innermost rfl isBracket

theorem tree_of_nested {pieces : List Piece} {nodes : List Node}
    (h : Nested .markdown pieces nodes)
    : tree pieces = .ok (Node.joined nodes) := by
  have root (b : Builder) (empty : b.stack = [])
      : (b.pushAll nodes).finish
        = .ok (nodes.foldl (fun before node => node.addTo before) b.root).reverse := by
    clear h
    induction nodes generalizing b with
    | nil => simp only [pushAll, finish, List.foldl_nil, empty]
    | cons node rest ih =>
        have pushed : b.push node = { b with root := node.addTo b.root } := by
          simp only [push, empty]
        exact (ih (b.push node) (by rw [pushed]; exact empty)).trans (by rw [pushed]; rfl)
  rw [tree, (yields_of_nested h).outside (by decide) {} fun _ => rfl]
  exact root {} rfl

theorem tree_of_firstFault {pieces : List Piece} {error : CompileError}
    (h : FirstFault pieces error)
    : tree pieces = .error error := by
  cases h with
  | piece standing fault =>
      obtain ⟨b, run, stands⟩ := stands_of_opened standing
      rw [tree, takeAll_append, run]
      exact congrArg (fun taken => (taken >>= fun b => takeAll b _) >>= finish)
        (take_fault stands fault)
  | atEnd standing =>
      obtain ⟨b, run, stands⟩ := stands_of_opened standing
      obtain ⟨children, stack, innermost⟩ := stands.tag _ _ rfl
      rw [tree, run]
      have finished : (Except.ok b >>= finish) = b.finish := rfl
      rw [finished, finish, innermost]
      rfl

end Builder

-----------------------------------------------------------------------------------------
-- Balanced events nest or have a first fault
-----------------------------------------------------------------------------------------

/-- Pieces that nest properly leave the open brackets as they are. -/
theorem Opened.append {brackets : List Bracket} {before after : List Piece} {nodes : List Node}
    (h : Opened brackets before) (later : Nested (surround brackets) after nodes)
    : Opened brackets (before ++ after) := by
  cases h with
  | outside nested => exact .outside (nested.append later)
  | construct standing mayStand within =>
      rw [List.append_assoc]
      exact .construct standing mayStand (within.append later)
  | tag standing notTable within =>
      rw [List.append_assoc]
      exact .tag standing notTable (within.append later)

theorem Opened.leave {outer : List Bracket} {c : Construct} {before : List Piece}
    (h : Opened (.construct c :: outer) before)
    : Opened outer (before ++ [.leave c]) := by
  cases h with
  | construct standing mayStand within =>
      rw [List.append_assoc]
      exact standing.append (.construct mayStand within .nil)

theorem Opened.close {outer : List Bracket} {tag : Tag} {before : List Piece}
    (h : Opened (.tag tag :: outer) before) (line : Nat)
    : Opened outer (before ++ [.closing tag.kind.name line]) := by
  cases h with
  | tag standing notTable within =>
      rw [List.append_assoc]
      exact standing.append (.tag notTable within .nil)

/-- The brackets of tags that are open inside other brackets. -/
def inTags (tags : List Tag) (base : List Bracket) : List Bracket :=
  tags.map .tag ++ base

/-- Reading pieces after others, with brackets open around them: one of them is at fault, or all
that they leave open are tags. In a table they leave nothing open.
-/
def ReadsOn (r : Markdown.Region) (base : List Bracket) (before pieces : List Piece) : Prop :=
  (∃ error, ∀ after, FirstFault (before ++ pieces ++ after) error)
  ∨ ∃ tags, (r = .table → tags = []) ∧ Opened (inTags tags base) (before ++ pieces)

namespace ReadsOn

variable {r : Markdown.Region} {base : List Bracket} {before pieces more : List Piece}

theorem of_fault {brackets : List Bracket} {piece : Piece} {error : CompileError}
    (standing : Opened brackets before) (fault : Fault brackets piece error)
    : ReadsOn r base before [piece] :=
  .inl ⟨error, fun after => by
    rw [List.append_assoc]
    exact .piece standing fault⟩

theorem trans (h : ReadsOn r base before pieces)
    (next : ∀ tags, (r = .table → tags = []) → Opened (inTags tags base) (before ++ pieces) →
      ReadsOn r base (before ++ pieces) more)
    : ReadsOn r base before (pieces ++ more) := by
  unfold ReadsOn
  rw [← List.append_assoc]
  rcases h with ⟨error, fault⟩ | ⟨tags, inTable, standing⟩
  · exact .inl ⟨error, fun after => by
      rw [List.append_assoc]
      exact fault (more ++ after)⟩
  · exact next tags inTable standing

/-- A construct around pieces: a tag that they leave open is at fault where the construct ends. -/
theorem around {inner : Markdown.Region} {tags : List Tag} {c : Construct} (isBracket : c ≠ .html)
    (t : TablePlace) (line : Nat) (noTags : r = .table → tags = [])
    (h : ReadsOn inner (.construct c :: inTags tags base) (before ++ [.enter c t line]) pieces)
    : ReadsOn r base before (.enter c t line :: (pieces ++ [.leave c])) := by
  have whole : before ++ .enter c t line :: (pieces ++ [.leave c])
      = before ++ [.enter c t line] ++ pieces ++ [.leave c] := by
    simp
  unfold ReadsOn
  rw [whole]
  rcases h with ⟨error, fault⟩ | ⟨left, -, standing⟩
  · exact .inl ⟨error, fun after => by
      rw [List.append_assoc]
      exact fault ([.leave c] ++ after)⟩
  · cases left with
    | nil => exact .inr ⟨tags, noTags, standing.leave⟩
    | cons tag rest =>
        exact .inl ⟨_, fun after => by
          rw [List.append_assoc]
          exact .piece standing (.unclosed isBracket)⟩

end ReadsOn

/-- Holds for pieces that are no start and no end of a construct. -/
def Piece.isLoose : Piece → Bool
  | .enter _ _ _ | .leave _ => false
  | _ => true

/-- A piece between constructs nests or is at fault. -/
theorem readsOn_loose {base : List Bracket} {before : List Piece} {tags : List Tag} {piece : Piece}
    (loose : piece.isLoose = true) (noTag : surround base ≠ .tag) (noTable : surround base ≠ .table)
    (standing : Opened (inTags tags base) before)
    : ReadsOn .flow base before [piece] := by
  have notTable : surround (inTags tags base) ≠ .table := by
    cases tags with
    | nil => exact noTable
    | cons tag rest => exact fun same => by cases same
  have keeps (tags : List Tag) (standing : Opened (inTags tags base) (before ++ [piece]))
      : ReadsOn .flow base before [piece] :=
    .inr ⟨tags, fun isTable => (by cases isTable), standing⟩
  cases piece with
  | enter _ _ _ => cases loose
  | leave _ => cases loose
  | node node => exact keeps tags (standing.append (.node notTable .nil))
  | opening tag => exact keeps (tag :: tags) (.tag standing notTable .nil)
  | closing name line =>
      cases tags with
      | nil =>
          cases isVoid : Html.voidTags.contains name with
          | false => exact .of_fault standing (.unexpected noTag isVoid)
          | true =>
              have around : surround base = .markdown := by
                cases same : surround base with
                | markdown => rfl
                | table => exact absurd same noTable
                | tag => exact absurd same noTag
              have skipped : Nested (surround base) [.closing name line] [] := by
                rw [around]
                exact .skipped isVoid .nil
              exact keeps [] (standing.append skipped)
      | cons tag rest =>
          by_cases same : tag.kind.name = name
          · subst same
            exact keeps rest (standing.close line)
          · exact .of_fault standing (.mismatched same)

theorem readsOn_allLoose {base : List Bracket} {before pieces : List Piece} {tags : List Tag}
    (loose : ∀ piece ∈ pieces, piece.isLoose = true) (noTag : surround base ≠ .tag)
    (noTable : surround base ≠ .table) (standing : Opened (inTags tags base) before)
    : ReadsOn .flow base before pieces := by
  induction pieces generalizing before tags with
  | nil =>
      refine .inr ⟨tags, fun isTable => (by cases isTable), ?_⟩
      rwa [List.append_nil]
  | cons piece rest ih =>
      obtain ⟨first, others⟩ := List.forall_mem_cons.mp loose
      exact (readsOn_loose first noTag noTable standing).trans fun _ _ standing =>
        ih others standing

theorem isLoose_eventPieces {source : Source} {t : TablePlace} {e : Placed}
    (isLeaf : e.event.isLeaf = true)
    : ∀ piece ∈ eventPieces source t e, piece.isLoose = true := by
  obtain ⟨event, offset⟩ := e
  cases event with
  | enter c => cases isLeaf
  | leave c => cases isLeaf
  | html text =>
      intro piece member
      obtain ⟨token, -, inToken⟩ := List.mem_flatMap.mp member
      cases written : token.token with
      | text text =>
          rw [written] at inToken
          rw [List.mem_singleton.mp inToken]
          rfl
      | closing name =>
          rw [written] at inToken
          rw [List.mem_singleton.mp inToken]
          rfl
      | opening name attributes selfClosing =>
          rw [written, tokenPieces] at inToken
          split at inToken
          · cases inToken
          · split at inToken <;> (rw [List.mem_singleton.mp inToken]; rfl)
  | _ => exact List.forall_mem_singleton.mpr rfl

/-- Balanced events read on inside brackets, by induction on their balance. -/
theorem readsOn_of_balanced {source : Source} {r : Markdown.Region} {events : List Placed}
    (h : Balanced r events) (t : TablePlace) {base : List Bracket} (noTag : surround base ≠ .tag)
    (table : surround base = .table ↔ r = .table) {before : List Piece} {tags : List Tag}
    (noTags : r = .table → tags = []) (standing : Opened (inTags tags base) before)
    : ReadsOn r base before (pieces source t events) := by
  induction h generalizing t base before tags with
  | nil =>
      refine .inr ⟨tags, noTags, ?_⟩
      rwa [pieces, List.append_nil]
  | leaf isLeaf _ ih =>
      have noTable : surround base ≠ .table := fun isTable => by cases table.mp isTable
      exact (readsOn_allLoose (isLoose_eventPieces isLeaf) noTag noTable standing).trans
        fun _ noTags standing => ih _ noTag table noTags standing
  | @construct c start stop inside rest _ _ ihInside ihRest =>
      rw [pieces, pieces_append, pieces]
      by_cases isHtml : c = .html
      · subst isHtml
        exact (ihInside _ noTag table noTags standing).trans fun _ noTags standing =>
          ihRest _ noTag table noTags standing
      · have mayStand : MayStand c (surround (inTags tags base)) := by
          refine ⟨?_, isHtml⟩
          cases tags with
          | nil => exact table.symm
          | cons tag rest =>
              refine ⟨fun isTable => ?_, fun isTable => by cases isTable⟩
              cases noTags isTable
        have around : surround (.construct c :: inTags tags base) = .table ↔ c.inner = .table := by
          simp only [surround, constructSurround]
          split <;> simp_all
        have notTag : surround (.construct c :: inTags tags base) ≠ .tag := by
          simp only [surround, constructSurround]
          split <;> decide
        have opened : Opened (inTags [] (.construct c :: inTags tags base))
            (before ++ [.enter c t (source.lineAt start)]) :=
          .construct standing mayStand .nil
        have inner := ihInside (t.after (.enter c)) notTag around (fun _ => rfl) opened
        rw [eventPieces_enter isHtml, eventPieces_leave isHtml]
        simpa only [List.cons_append, List.nil_append, List.append_assoc] using
          (ReadsOn.around isHtml t _ noTags inner).trans fun _ noTags standing =>
            ihRest _ noTag table noTags standing

/-- Balanced events nest properly, or one of their pieces or their end is the first fault. -/
theorem nested_or_firstFault {events : List Placed} (h : Balanced .flow events) (source : Source)
    (t : TablePlace)
    : (∃ nodes, Nested .markdown (pieces source t events) nodes)
      ∨ ∃ error, FirstFault (pieces source t events) error := by
  have nothing : Opened (inTags [] []) [] := .outside .nil
  have read : ReadsOn .flow [] [] (pieces source t events) := readsOn_of_balanced h t (by decide)
    ⟨fun same => (by cases same), fun same => by cases same⟩ (fun _ => rfl) nothing
  rcases read with ⟨error, fault⟩ | ⟨tags, -, standing⟩
  · have atEnd := fault []
    rw [List.append_nil] at atEnd
    exact .inr ⟨error, atEnd⟩
  · cases tags with
    | nil =>
        cases standing with
        | outside nested => exact .inl ⟨_, nested⟩
    | cons tag rest => exact .inr ⟨_, .atEnd standing⟩

/-- The tree of a document whose tags are valid. It has one exactly if its brackets nest properly;
each element then has as its children the nodes between its brackets, with texts that meet made one
at every level. Otherwise its error is that of the first bracket that is out of place.
-/
theorem build_iff_nested {source : Source} {events : List Placed} (balanced : Balanced .flow events)
    (valid : ∀ e ∈ events, hasValidTags source.names e.event = true)
    : (∀ nodes, Builder.build source events = .ok nodes
        ↔ ∃ emitted, Nested .markdown (pieces source {} events) emitted
            ∧ nodes = Node.joined emitted)
      ∧ (∀ nodes, Builder.build source events = .ok nodes → Node.ApartTrees nodes)
      ∧ ∀ error, Builder.build source events = .error error
          ↔ FirstFault (pieces source {} events) error := by
  rw [Builder.build_eq_tree valid]
  have cases := nested_or_firstFault balanced source {}
  refine ⟨fun nodes => ⟨fun ok => ?_, ?_⟩, fun nodes => Builder.apartTrees_of_tree,
    fun error => ⟨fun failed => ?_, Builder.tree_of_firstFault⟩⟩
  · rcases cases with ⟨emitted, nested⟩ | ⟨error, fault⟩
    · exact ⟨emitted, nested, Except.ok.inj (ok.symm.trans (Builder.tree_of_nested nested))⟩
    · cases ok.symm.trans (Builder.tree_of_firstFault fault)
  · rintro ⟨emitted, nested, rfl⟩
    exact Builder.tree_of_nested nested
  · rcases cases with ⟨emitted, nested⟩ | ⟨other, fault⟩
    · cases failed.symm.trans (Builder.tree_of_nested nested)
    · obtain rfl := Except.error.inj (failed.symm.trans (Builder.tree_of_firstFault fault))
      exact fault

def tableDocument : Source :=
  { names := [], text := "|a <b>x</b>|![*c*](d)|\n|:-|-|\n|e|f|\n".toList, firstLine := 1 }

def crossedDocument : Source :=
  { names := [], text := "*a <b>c* d</b>\n".toList, firstLine := 1 }

/-- The brackets of the table nest properly; the tag is open where the emphasis ends. -/
theorem nested_tableDocument
    : (∀ e ∈ Markdown.events tableDocument.text, hasValidTags tableDocument.names e.event = true)
      ∧ (∃ emitted,
          Nested .markdown (pieces tableDocument {} (Markdown.events tableDocument.text)) emitted
          ∧ Node.ApartTrees (Node.joined emitted))
      ∧ (∀ e ∈ Markdown.events crossedDocument.text,
          hasValidTags crossedDocument.names e.event = true)
      ∧ FirstFault (pieces crossedDocument {} (Markdown.events crossedDocument.text))
          (.unclosedTag "b" 1) := by
  have tableValid : ∀ e ∈ Markdown.events tableDocument.text,
      hasValidTags tableDocument.names e.event = true := by
    decide +kernel
  have crossedValid : ∀ e ∈ Markdown.events crossedDocument.text,
      hasValidTags crossedDocument.names e.event = true := by
    decide +kernel
  obtain ⟨nests, apart, -⟩ := build_iff_nested (Markdown.balanced_events _) tableValid
  obtain ⟨-, -, firstFault⟩ := build_iff_nested (Markdown.balanced_events _) crossedValid
  have builds
      : (Builder.build tableDocument (Markdown.events tableDocument.text)).isOk = true := by
    decide +kernel
  obtain ⟨nodes, built⟩ := exists_of_isOk builds
  obtain ⟨emitted, nested, rfl⟩ := (nests nodes).mp built
  refine ⟨tableValid, ⟨emitted, nested, apart _ built⟩, crossedValid, (firstFault _).mp ?_⟩
  have fails
      : (Builder.build crossedDocument (Markdown.events crossedDocument.text)).map (fun _ => ())
        = .error (.unclosedTag "b" 1) := by
    decide +kernel
  cases result : Builder.build crossedDocument (Markdown.events crossedDocument.text) with
  | ok nodes =>
      rw [result] at fails
      cases fails
  | error error =>
      rw [result] at fails
      exact congrArg Except.error (Except.error.inj fails)

end Folio.Document
