import Folio.Markdown.Event

/-! The names in the attribute blocks of headings have no ASCII blanks. Reading a document line by
line keeps this of all blocks that are finished or still open, and so it holds of the events.
-/

namespace Folio.Markdown

-----------------------------------------------------------------------------------------
-- Attribute blocks
-----------------------------------------------------------------------------------------

def NoBlank (s : List Char) : Prop :=
  ∀ c ∈ s, Text.isAsciiBlank c = false

/-- Holds for attribute blocks whose names have no ASCII blanks. -/
def HeadingAttributes.Plain (a : HeadingAttributes) : Prop :=
  ∀ entry ∈ a.attributes, NoBlank entry.1.toList

/-- No word has a character that separates words, by induction on the text. -/
theorem wordsBy_separated (p : Char → Bool) (s : List Char)
    : ∀ word ∈ Text.wordsBy p s, ∀ c ∈ word, p c = false := by
  have go (word : List Char) (clean : ∀ c ∈ word, p c = false)
      : ∀ w ∈ Text.wordsBy.go p word s, ∀ c ∈ w, p c = false := by
    induction s generalizing word with
    | nil =>
        unfold Text.wordsBy.go
        split
        · exact List.forall_mem_nil _
        · simpa using clean
    | cons c rest ih =>
        unfold Text.wordsBy.go
        split
        · split
          · exact ih [] (List.forall_mem_nil _)
          · exact List.forall_mem_cons.mpr ⟨by simpa using clean, ih [] (List.forall_mem_nil _)⟩
        · next kept =>
            exact ih (c :: word) (List.forall_mem_cons.mpr ⟨by simpa using kept, clean⟩)
  exact go [] (List.forall_mem_nil _)

/-- A word without blanks adds a name without blanks, or none. -/
theorem HeadingAttributes.Plain.addWord {a : HeadingAttributes} (h : a.Plain) {word : List Char}
    (plain : NoBlank word)
    : (a.addWord word).Plain := by
  unfold HeadingAttributes.addWord
  split
  · exact h
  · exact h
  · exact h
  · exact h
  · refine List.forall_mem_append.mpr ⟨h, List.forall_mem_singleton.mpr ?_⟩
    rw [String.toList_ofList]
    exact fun c member => plain c ((List.takeWhile_sublist _).mem member)

/-- The attributes inside of an attribute block are its words. -/
theorem plain_ofInside (inside : List Char) : (HeadingAttributes.ofInside inside).Plain := by
  have fold (words : List (List Char)) (plain : ∀ word ∈ words, NoBlank word)
      (a : HeadingAttributes) (h : a.Plain)
      : (words.foldl HeadingAttributes.addWord a).Plain := by
    induction words generalizing a with
    | nil => exact h
    | cons word rest ih =>
        obtain ⟨first, later⟩ := List.forall_mem_cons.mp plain
        exact ih later _ (h.addWord first)
  exact fold _ (wordsBy_separated _ inside) {} (List.forall_mem_nil _)

/-- The attributes that are cut off the end of a heading are plain. -/
theorem plain_splitAttributes {heading : List Char} {a : HeadingAttributes}
    (h : (splitAttributes heading).2 = some a)
    : a.Plain := by
  unfold splitAttributes at h
  split at h
  · simp only at h
    split at h
    · obtain rfl := Option.some.inj h
      exact plain_ofInside _
    · exact absurd h (by simp)
  · exact absurd h (by simp)

-----------------------------------------------------------------------------------------
-- Blocks
-----------------------------------------------------------------------------------------

mutual

def Block.Plain : Block → Prop
  | .heading _ attributes _ _ => attributes.Plain
  | .quote children | .list _ children | .item children | .definitions children
  | .definition children => Block.AllPlain children
  | .paragraph _ _ | .rule | .code _ _ | .html _ | .task _ | .table _ _ _ | .term _ _ => True

def Block.AllPlain : List Block → Prop
  | [] => True
  | block :: rest => block.Plain ∧ Block.AllPlain rest

end

theorem allPlain_iff {blocks : List Block}
    : Block.AllPlain blocks ↔ ∀ block ∈ blocks, block.Plain := by
  induction blocks with
  | nil => simp [Block.AllPlain]
  | cons block rest ih => simp [Block.AllPlain, ih]

theorem Block.Plain.tighten {block : Block} (h : block.Plain) : (Outline.tighten block).Plain := by
  unfold Outline.tighten
  split
  · trivial
  · exact h

theorem plain_tightened {blocks : List Block} (h : Block.AllPlain blocks)
    : Block.AllPlain (blocks.map Outline.tighten) := by
  refine allPlain_iff.mpr (List.forall_mem_map.mpr ?_)
  exact fun block member => (allPlain_iff.mp h block member).tighten

theorem Block.Plain.tightenItem {block : Block} (h : block.Plain)
    : (Outline.tightenItem block).Plain := by
  unfold Outline.tightenItem
  split
  · exact plain_tightened h
  · exact plain_tightened h
  · exact h

theorem Block.Plain.settleTerm {block : Block} (h : block.Plain)
    : (Outline.settleTerm block).Plain := by
  unfold Outline.settleTerm
  split
  · trivial
  · exact h

-----------------------------------------------------------------------------------------
-- The outline
-----------------------------------------------------------------------------------------

/-- Holds for outlines in which all headings, in open containers and outside, have plain attributes.
-/
structure Outline.Plain (o : Outline) : Prop where
  frames : ∀ frame ∈ o.frames, ∀ block ∈ frame.children, block.Plain
  finished : ∀ block ∈ o.finished, block.Plain

namespace Outline.Plain

variable {o : Outline}

/-- Only the blocks of an outline count. -/
theorem of_same (h : o.Plain) {o' : Outline} (frames : o'.frames = o.frames)
    (finished : o'.finished = o.finished)
    : o'.Plain :=
  ⟨frames ▸ h.frames, finished ▸ h.finished⟩

theorem append (h : o.Plain) {block : Block} (plain : block.Plain) : (o.append block).Plain := by
  unfold Outline.append
  split
  · exact ⟨h.frames, List.forall_mem_cons.mpr ⟨plain, h.finished⟩⟩
  · next frame outer open_ =>
      obtain ⟨here, below⟩ := List.forall_mem_cons.mp (open_ ▸ h.frames)
      exact ⟨List.forall_mem_cons.mpr ⟨List.forall_mem_cons.mpr ⟨plain, here⟩, below⟩, h.finished⟩

theorem dropLast (h : o.Plain) : o.dropLast.Plain := by
  unfold Outline.dropLast
  split
  · exact ⟨h.frames, fun block member => h.finished block (List.mem_of_mem_drop member)⟩
  · next frame outer open_ =>
      obtain ⟨here, below⟩ := List.forall_mem_cons.mp (open_ ▸ h.frames)
      refine ⟨List.forall_mem_cons.mpr ⟨?_, below⟩, h.finished⟩
      exact fun block member => here block (List.mem_of_mem_drop member)

theorem openFrame (h : o.Plain) (container : Container) {children : List Block}
    (plain : ∀ block ∈ children, block.Plain)
    : (o.openFrame container children).Plain :=
  ⟨List.forall_mem_cons.mpr ⟨plain, h.frames⟩, h.finished⟩

theorem foldl_append (h : o.Plain) {blocks : List Block} (plain : ∀ block ∈ blocks, block.Plain)
    : (blocks.foldl Outline.append o).Plain := by
  induction blocks generalizing o with
  | nil => exact h
  | cons block rest ih =>
      obtain ⟨first, later⟩ := List.forall_mem_cons.mp plain
      exact ih (h.append first) later

/-- Closing a container puts its blocks into a block of their own, or after one. -/
theorem close (h : o.Plain) : o.close.Plain := by
  unfold Outline.close
  split
  · exact h
  · next container children outer open_ =>
      obtain ⟨here, below⟩ := List.forall_mem_cons.mp (open_ ▸ h.frames)
      have rest : Outline.Plain { o with frames := outer } := ⟨below, h.finished⟩
      have inOrder : ∀ block ∈ children.reverse, block.Plain :=
        fun block member => here block (List.mem_reverse.mp member)
      have tightened : ∀ block ∈ children.reverse.map Outline.tightenItem, block.Plain :=
        List.forall_mem_map.mpr fun block member => (inOrder block member).tightenItem
      simp only
      split
      · exact rest.append (allPlain_iff.mpr inOrder)
      · exact rest.append (allPlain_iff.mpr inOrder)
      · exact rest.append (allPlain_iff.mpr inOrder)
      · next tight marker start =>
          cases tight with
          | false => exact rest.append (allPlain_iff.mpr inOrder)
          | true =>
              have closed (ordered : Option Nat)
                  : Outline.Plain
                      (Outline.append { o with frames := outer }
                        (.list ordered (children.reverse.map Outline.tightenItem))) :=
                rest.append (allPlain_iff.mpr tightened)
              exact of_same (closed _) rfl rfl
      · next tight =>
          have parts : Block.AllPlain
              (if tight then
                (children.reverse.takeWhile isDefinitionPart).map Outline.tightenItem
              else children.reverse.takeWhile isDefinitionPart) := by
            have own : ∀ block ∈ children.reverse.takeWhile isDefinitionPart, block.Plain :=
              fun block member => inOrder block ((List.takeWhile_sublist _).mem member)
            split
            · exact allPlain_iff.mpr (List.forall_mem_map.mpr
                fun block member => (own block member).tightenItem)
            · exact allPlain_iff.mpr own
          have closed
              : Outline.Plain (Outline.append { o with frames := outer } (.definitions _)) :=
            rest.append parts
          refine foldl_append ?_ (List.forall_mem_map.mpr ?_)
          · exact of_same closed rfl rfl
          · exact fun block member =>
              (inOrder block ((List.dropWhile_sublist _).mem member)).settleTerm

theorem closeMany (h : o.Plain) (n : Nat) : (o.closeMany n).Plain := by
  induction n generalizing o with
  | zero => exact h
  | succ n ih => exact ih h.close

theorem loosenOuter (h : o.Plain) : o.loosenOuter.Plain := by
  unfold Outline.loosenOuter
  split
  · next frame list outer open_ =>
      obtain ⟨here, below⟩ := List.forall_mem_cons.mp (open_ ▸ h.frames)
      obtain ⟨next, below⟩ := List.forall_mem_cons.mp below
      exact ⟨List.forall_mem_cons.mpr ⟨here, List.forall_mem_cons.mpr ⟨next, below⟩⟩, h.finished⟩
  · exact h

theorem loosenInner (h : o.Plain) : o.loosenInner.Plain := by
  unfold Outline.loosenInner
  split
  · next list outer open_ =>
      obtain ⟨here, below⟩ := List.forall_mem_cons.mp (open_ ▸ h.frames)
      exact ⟨List.forall_mem_cons.mpr ⟨here, below⟩, h.finished⟩
  · exact h

theorem finishEmptyItem (h : o.Plain) : o.finishEmptyItem.Plain := by
  unfold Outline.finishEmptyItem
  split
  · split
    · exact h.close.of_same rfl rfl
    · exact h.close.of_same rfl rfl
    · exact h.of_same rfl rfl
  · exact h.of_same rfl rfl

theorem finishList (h : o.Plain) : o.finishList.Plain := by
  have loosened {o : Outline} (h : o.Plain)
      : Outline.Plain (if o.lastBlank then { o.loosenOuter with lastBlank := false } else o) := by
    split
    · exact ⟨h.loosenOuter.frames, h.loosenOuter.finished⟩
    · exact h
  unfold Outline.finishList
  simp only
  split
  · exact loosened h.finishEmptyItem.close
  · exact loosened h.finishEmptyItem.close
  · exact loosened h.finishEmptyItem

theorem continueList (h : o.Plain) (marker : Char) (start : Nat)
    : (o.continueList marker start).Plain := by
  have fresh {o : Outline} (h : o.Plain)
      : Outline.Plain { o.openFrame (.list true marker start) [] with lastBlank := false } :=
    ⟨(h.openFrame _ (List.forall_mem_nil _)).frames, h.finished⟩
  have ended := h.finishEmptyItem
  unfold Outline.continueList
  simp only
  split
  · split
    · split
      · exact ⟨ended.loosenInner.frames, ended.loosenInner.finished⟩
      · exact ended
    · exact fresh ended.finishList
  · exact fresh ended.finishList
  · exact fresh ended

theorem startDefinition? (h : o.Plain) {indent : Nat} {o' : Outline}
    (started : o.startDefinition? indent = some o')
    : o'.Plain := by
  have opened {o : Outline} (h : o.Plain)
      : Outline.Plain
          ((if o.lastBlank then o.loosenInner else o).openFrame (.definition indent) []) := by
    split
    · exact h.loosenInner.openFrame _ (List.forall_mem_nil _)
    · exact h.openFrame _ (List.forall_mem_nil _)
  unfold Outline.startDefinition? at started
  split at started
  · obtain rfl := Option.some.inj started
    exact opened (h.dropLast.openFrame _ (List.forall_mem_singleton.mpr trivial))
  · obtain rfl := Option.some.inj started
    exact opened (h.dropLast.append trivial)
  · obtain rfl := Option.some.inj started
    exact opened h
  · exact absurd started (by simp)

theorem noteBlankLine (h : o.Plain) : o.noteBlankLine.Plain := by
  unfold Outline.noteBlankLine
  simp only
  split
  · exact h
  · next indent children outer open_ =>
      obtain ⟨here, below⟩ := List.forall_mem_cons.mp (open_ ▸ h.frames)
      split
      · exact ⟨List.forall_mem_cons.mpr ⟨here, below⟩, h.finished⟩
      · exact ⟨h.frames, h.finished⟩
  · next indent children outer open_ =>
      obtain ⟨here, below⟩ := List.forall_mem_cons.mp (open_ ▸ h.frames)
      split
      · exact ⟨List.forall_mem_cons.mpr ⟨here, below⟩, h.finished⟩
      · exact ⟨h.frames, h.finished⟩
  · exact ⟨h.frames, h.finished⟩

theorem blocks (h : o.Plain) : ∀ block ∈ o.blocks, block.Plain :=
  fun block member => (h.closeMany o.frames.length).finished block (List.mem_reverse.mp member)

end Outline.Plain

-----------------------------------------------------------------------------------------
-- Reading blocks
-----------------------------------------------------------------------------------------

/-- The outline after the markers at the start of a line. -/
def Opened.outline : Opened → Outline
  | .content o _ => o
  | .done o _ => o

theorem plain_openItem {o : Outline} (h : o.Plain) (marker : Char) (number indent : Nat)
    (line : LineStart)
    : (openItem o marker number indent line).1.Plain := by
  have opened := (h.continueList marker number).openFrame (.item indent) (List.forall_mem_nil _)
  unfold openItem
  simp only
  split
  · exact opened.of_same rfl rfl
  · split
    · exact opened
    · split
      · have ticked (box : Bool) := opened.append (by trivial : (Block.task box).Plain)
        exact (ticked _).of_same rfl rfl
      · exact opened.of_same rfl rfl

theorem outline_openAlert (o : Outline) (next : Cursor) : (openAlert o next).outline = o := by
  unfold openAlert
  simp only
  split <;> rfl

/-- Opening containers adds no heading, by induction on how many there may be. -/
theorem plain_openContainers {o : Outline} (h : o.Plain) (line : LineStart) (room : Nat)
    : (openContainers o line room).outline.Plain := by
  induction room generalizing o line with
  | zero => exact h
  | succ room ih =>
      unfold openContainers
      simp only
      split
      · exact h
      · split
        · next marker number indent after _ =>
            have opened := plain_openItem h marker number indent after
            split
            · next result =>
                rw [result] at opened
                exact opened
            · next result =>
                rw [result] at opened
                exact ih opened _
        · split
          · next begun _ result =>
              have opened : begun.Plain := by
                obtain ⟨⟨indent, after⟩, _, rest⟩ := Option.bind_eq_some_iff.mp result
                obtain ⟨_, started, same⟩ := Option.bind_eq_some_iff.mp rest
                obtain ⟨rfl, _⟩ := Prod.mk.inj (Option.some.inj same)
                exact h.startDefinition? started
              split
              · exact opened.of_same rfl rfl
              · exact ih opened _
          · split
            · have opened := h.finishList.openFrame .quote (List.forall_mem_nil _)
              split
              · rw [outline_openAlert]
                exact opened
              · exact ih opened _
            · exact h

/-- A heading on one line has plain attributes. -/
theorem plain_hashHeading (containers : List Container) (level : Nat) (c : Cursor)
    : (hashHeading containers level c).1.Plain := by
  have none_plain : HeadingAttributes.Plain {} := List.forall_mem_nil _
  unfold hashHeading
  simp only
  split
  · exact none_plain
  · simp only [Block.Plain]
    cases cut : (splitAttributes _).2 with
    | none => exact none_plain
    | some a => exact plain_splitAttributes cut

/-- The heading of an underlined paragraph has plain attributes. -/
theorem plain_underlinedHeading (task : Option Bool) (containers : List Container) (level : Nat)
    (start : Cursor) (items tail : List Item) (next : Cursor)
    : (underlinedHeading task containers level start items tail next).Plain := by
  have none_plain : HeadingAttributes.Plain {} := List.forall_mem_nil _
  unfold underlinedHeading
  simp only
  split
  · exact none_plain
  · split
    · next cut => exact plain_splitAttributes cut
    · exact none_plain

theorem plain_indentedCode (containers : List Container) (spare : Nat) (c : Cursor)
    : (indentedCode containers spare c).1.Plain := by
  unfold indentedCode
  split <;> trivial

/-- Reading a paragraph adds a paragraph, a term, a table or a heading. -/
theorem plain_paragraph {o : Outline} (h : o.Plain) (start : Cursor)
    : (paragraph o start).1.Plain := by
  have begun (mayBeTerm : Bool)
      : Outline.Plain
          { (if mayBeTerm then { o with lastBlank := false } else o.finishList) with
            task := none } := by
    cases mayBeTerm with
    | false => exact h.finishList.of_same rfl rfl
    | true => exact h.of_same rfl rfl
  have text (mayBeTerm : Bool) (text : Prose)
      : Block.Plain (if mayBeTerm then .term false text else .paragraph false text) := by
    cases mayBeTerm <;> trivial
  unfold paragraph
  simp only
  split
  · exact (begun _).append trivial
  · split
    · exact (begun _).append (plain_underlinedHeading _ _ _ _ _ _ _)
    · exact (begun _).append (text _ _)

/-- Reading link definitions adds no block, by induction on how many there may be. -/
theorem plain_definitions {o : Outline} (h : o.Plain) (c : Cursor) (room : Nat)
    : (definitions o c room).1.Plain := by
  induction room generalizing o c with
  | zero => exact h
  | succ room ih =>
      unfold definitions
      split
      · exact h
      · simp only
        split
        · refine Outline.Plain.finishList (h.of_same ?_ ?_) <;> rfl
        · refine ih (h.of_same ?_ ?_) _ <;> rfl

/-- Reading the block that a line begins keeps all headings plain: only two kinds of blocks are
headings.
-/
theorem plain_leaf {o : Outline} (h : o.Plain) (line : LineStart) : (leaf o line).1.Plain := by
  have read :=
    plain_definitions h (line.blanksUpTo 4).2.cursor ((line.blanksUpTo 4).2.cursor.rest.length + 1)
  unfold leaf
  simp only
  split
  · exact (h.finishList.append (plain_indentedCode _ _ _)).of_same rfl rfl
  · split
    · exact h.finishList.append trivial
    · split
      · exact h.finishList.append trivial
      · split
        · exact h.finishList.append (plain_hashHeading _ _ _)
        · split
          · exact h.finishList.append trivial
          · split
            · next result =>
                rw [result] at read
                exact read
            · next result =>
                rw [result] at read
                exact plain_paragraph read _

theorem plain_readBlock {o : Outline} (h : o.Plain) (start : Cursor)
    : (readBlock o start).1.Plain := by
  have closed := h.closeMany (takePrefixes o.containers (.ofCursor start)).1
  have opened :=
    plain_openContainers closed (takePrefixes o.containers (.ofCursor start)).2
      (start.rest.length + 1)
  unfold readBlock
  simp only
  split
  · next result =>
      rw [result] at opened
      exact opened
  · next result =>
      rw [result] at opened
      split
      · exact Outline.Plain.noteBlankLine opened
      · exact plain_leaf opened _

/-- Reading blocks keeps all headings plain, by induction on how many there may be. -/
theorem plain_readBlocks {o : Outline} (h : o.Plain) (c : Cursor) (room : Nat)
    : (readBlocks o c room).Plain := by
  induction room generalizing o c with
  | zero => exact h
  | succ room ih =>
      unfold readBlocks
      split
      · exact h
      · exact ih (plain_readBlock h c) _

/-- All headings of a document have plain attributes. -/
theorem plain_structureOf (text : List Char) : ∀ block ∈ (structureOf text).1, block.Plain := by
  have start : Outline.Plain {} := ⟨List.forall_mem_nil _, List.forall_mem_nil _⟩
  exact (plain_readBlocks start _ _).blocks

-----------------------------------------------------------------------------------------
-- Events
-----------------------------------------------------------------------------------------

/-- Holds for events that are no start of a heading, or of one with plain attributes. -/
def Event.Plain : Event → Prop
  | .enter (.heading _ attributes) => attributes.Plain
  | _ => True

def AllPlain (events : List Placed) : Prop :=
  ∀ e ∈ events, e.event.Plain

theorem AllPlain.append {first later : List Placed} (hf : AllPlain first) (hl : AllPlain later)
    : AllPlain (first ++ later) :=
  List.forall_mem_append.mpr ⟨hf, hl⟩

theorem plain_enclose {construct : Construct} (plain : (Event.enter construct).Plain) (offset : Nat)
    {inside : List Placed} (h : AllPlain inside)
    : AllPlain (enclose construct offset inside) :=
  AllPlain.append (List.forall_mem_cons.mpr ⟨plain, h⟩) (List.forall_mem_singleton.mpr trivial)

theorem plain_flatMap {α : Type} {items : List α} {write : α → List Placed}
    (h : ∀ item ∈ items, AllPlain (write item))
    : AllPlain (items.flatMap write) := by
  intro e member
  obtain ⟨item, isOne, written⟩ := List.mem_flatMap.mp member
  exact h item isOne e written

mutual

/-- A span starts no heading, by induction on the span. -/
theorem plain_spanEvents (offset : Nat) (span : Span) : AllPlain (span.events offset) := by
  match span with
  | .text _ | .code _ | .html _ _ | .softBreak | .hardBreak =>
      exact List.forall_mem_singleton.mpr trivial
  | .emphasis _ children | .link _ _ children | .image _ _ children =>
      exact plain_enclose (by trivial) offset (plain_spanListEvents offset children)

theorem plain_spanListEvents (offset : Nat) (spans : List Span)
    : AllPlain (Span.listEvents offset spans) := by
  match spans with
  | [] => exact List.forall_mem_nil _
  | span :: rest => exact (plain_spanEvents offset span).append (plain_spanListEvents offset rest)

end

variable (definition? : List Char → Option LinkDefinition)

theorem plain_proseEvents (text : Prose) : AllPlain (text.events definition?) := by
  refine AllPlain.append ?_ (plain_spanListEvents _ _)
  exact List.forall_mem_map.mpr fun _ _ => trivial

theorem plain_rowEvents {construct : Construct} (plain : (Event.enter construct).Plain)
    (cells : List Prose)
    : AllPlain (rowEvents definition? construct cells) :=
  plain_enclose plain 0
    (plain_flatMap fun cell _ => plain_enclose (by trivial) 0 (plain_proseEvents definition? cell))

mutual

/-- The events of a block start headings as the block has them, by induction on the block. -/
theorem plain_blockEvents (block : Block) (h : block.Plain)
    : AllPlain (block.events definition?) := by
  match block with
  | .paragraph true text => exact plain_proseEvents definition? text
  | .paragraph false text => exact plain_enclose (by trivial) 0 (plain_proseEvents definition? text)
  | .heading _ _ start text =>
      exact plain_enclose (by exact h) start (plain_proseEvents definition? text)
  | .rule | .task _ => exact List.forall_mem_singleton.mpr trivial
  | .code _ _ => exact plain_enclose (by trivial) 0 (List.forall_mem_map.mpr fun _ _ => trivial)
  | .html pieces =>
      refine plain_enclose (by trivial) 0 (List.forall_mem_map.mpr fun piece _ => ?_)
      cases piece <;> trivial
  | .term _ text => exact plain_enclose (by trivial) 0 (plain_proseEvents definition? text)
  | .table _ head rows =>
      refine plain_enclose (by trivial) 0 (AllPlain.append ?_ (plain_flatMap fun row _ => ?_))
      · exact plain_rowEvents definition? (by trivial) head
      · exact plain_rowEvents definition? (by trivial) row
  | .quote children | .list _ children | .item children | .definitions children
  | .definition children =>
      exact plain_enclose (by trivial) 0 (plain_blockListEvents children h)

theorem plain_blockListEvents (blocks : List Block) (h : Block.AllPlain blocks)
    : AllPlain (Block.listEvents definition? blocks) := by
  match blocks with
  | [] => exact List.forall_mem_nil _
  | block :: rest =>
      exact (plain_blockEvents block h.1).append (plain_blockListEvents rest h.2)

end

/-- The names in the attribute blocks of headings have no ASCII blanks, in all documents. -/
theorem plain_events (text : List Char) : AllPlain (events text) :=
  plain_blockListEvents _ _ (allPlain_iff.mpr (plain_structureOf text))

end Folio.Markdown
