import Folio.Markdown.Event

/-! The first block of a document. A document that starts with a fence or with `<` has no container
before its first block, and if that block takes the whole text, it is the only one.
-/

namespace Folio.Markdown

/-- Holds for characters that start a line of fenced code or of HTML. -/
def IsLeafStart (x : Char) : Prop :=
  x = '`' ∨ x = '~' ∨ x = '<'

section

variable {x : Char} {more : List Char} {c : Cursor}

/-- No blanks stand before the character. -/
theorem blanksUpTo_leafStart (isStart : IsLeafStart x) (here : c.rest = x :: more)
    : (LineStart.ofCursor c).blanksUpTo 4 = (0, .ofCursor c) := by
  have noBlank : ∀ rest, (LineStart.ofCursor c).cursor.rest ≠ ' ' :: rest := by
    intro rest blank
    rcases isStart with rfl | rfl | rfl <;> cases here.symm.trans blank
  have noTab : ∀ rest, (LineStart.ofCursor c).cursor.rest ≠ '\t' :: rest := by
    intro rest tab
    rcases isStart with rfl | rfl | rfl <;> cases here.symm.trans tab
  have stops : LineStart.takeBlanks.go 4 (.ofCursor c) = (4, .ofCursor c) := by
    rw [LineStart.takeBlanks.go]
    split
    · next rest blank => exact absurd blank (noBlank rest)
    · next rest tab => exact absurd tab (noTab rest)
    · rfl
  have started : (LineStart.ofCursor c).takeBlanks 4 = (4, .ofCursor c) := stops
  rw [LineStart.blanksUpTo, started]

/-- The character is no marker of a container. -/
theorem noMarker_leafStart (isStart : IsLeafStart x) (here : c.rest = x :: more)
    : (LineStart.ofCursor c).listMarker? 0 = none
      ∧ (LineStart.ofCursor c).definitionMarker? 0 = none
      ∧ (LineStart.ofCursor c).quoteMarker? = none := by
  obtain ⟨before, rest, offset, valid⟩ := c
  obtain rfl : rest = x :: more := here
  rcases isStart with rfl | rfl | rfl <;> exact ⟨rfl, rfl, rfl⟩

/-- The character opens no container. -/
theorem openContainers_leafStart (isStart : IsLeafStart x) (here : c.rest = x :: more)
    (o : Outline) (room : Nat)
    : openContainers o (.ofCursor c) room = .content o (.ofCursor c) := by
  cases room with
  | zero => rfl
  | succ room =>
      obtain ⟨noList, noDefinition, noQuote⟩ := noMarker_leafStart isStart here
      simp [openContainers, blanksUpTo_leafStart isStart here, noList, noDefinition, noQuote]

/-- The block that the character starts is the first one. -/
theorem readBlock_leafStart (isStart : IsLeafStart x) (here : c.rest = x :: more)
    : readBlock {} c = leaf {} (.ofCursor c) := by
  have notBlank : blankLine? c.rest = none := by
    rw [here]
    rcases isStart with rfl | rfl | rfl <;> rfl
  have cursor : (LineStart.ofCursor c).cursor = c := rfl
  simp only [readBlock, Outline.containers, List.map_nil, List.reverse_nil, takePrefixes,
    Outline.closeMany, openContainers_leafStart isStart here, cursor, notBlank]

end

/-- At the end of the text no more blocks are read. -/
theorem readBlocks_end (o : Outline) {c : Cursor} (atEnd : c.rest = []) (room : Nat)
    : readBlocks o c room = o := by
  cases room with
  | zero => rfl
  | succ room => rw [readBlocks, atEnd, List.isEmpty_nil, if_pos rfl]

/-- A first block that takes the whole text is the document. -/
theorem structureOf_oneBlock {text : List Char} (notNil : text ≠ []) {block : Block}
    {next : Cursor} (read : readBlock {} (.ofText text) = ({ finished := [block] }, next))
    (atEnd : next.rest = [])
    : structureOf text = ([block], []) := by
  have here : (Cursor.ofText text).rest.isEmpty = false := List.isEmpty_eq_false_iff.mpr notNil
  have all : readBlocks {} (.ofText text) (text.length + 1) = { finished := [block] } := by
    rw [readBlocks, here, if_neg Bool.false_ne_true, read]
    exact readBlocks_end _ atEnd _
  rw [structureOf, all]
  rfl

end Folio.Markdown
