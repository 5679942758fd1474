import Folio.Proofs.Markdown.FirstBlock
import Folio.Proofs.Text.Lines
import Mathlib.Data.List.Induction

/-! Documents that start with `<`. If that starts a block of HTML, the block takes line after line
of the document; if it does not, the line is text of a paragraph.
-/

namespace Folio.Markdown

-----------------------------------------------------------------------------------------
-- The block that `<` starts
-----------------------------------------------------------------------------------------

/-- What ends the block of HTML that `<` and a text start: a text of its own, or a blank line. -/
def htmlEnd? (s : List Char) : Option (Option (List Char)) :=
  match Html.blockEnd? s with
  | some close => some (some close)
  | none => if Html.startsNamedBlock s || Html.startsTagLine s then some none else none

section

variable {c : Cursor} {rest : List Char}

/-- A block of HTML starts a document. -/
theorem readBlock_html (here : c.rest = '<' :: rest) {close : Option (List Char)}
    (starts : htmlEnd? rest = some close)
    : readBlock {} c
      = ({ finished := [.html (htmlLines [] close (c.rest.length + 1) 0 c).1] },
        (htmlLines [] close (c.rest.length + 1) 0 c).2) := by
  have isStart : IsLeafStart '<' := .inr (.inr rfl)
  have cursor : (LineStart.ofCursor c).cursor = c := rfl
  rw [readBlock_leafStart isStart here]
  unfold htmlEnd? at starts
  cases ended : Html.blockEnd? rest with
  | some text =>
      rw [ended] at starts
      obtain rfl := Option.some.inj starts
      simp only [leaf, blanksUpTo_leafStart isStart here, cursor, here, ended]
      rw [if_neg (Nat.not_succ_le_zero 3), htmlBlock, here]
      rfl
  | none =>
      simp only [ended] at starts
      split at starts
      · next named =>
          obtain rfl := Option.some.inj starts
          simp only [leaf, blanksUpTo_leafStart isStart here, cursor, here, ended, named, if_true]
          rw [if_neg (Nat.not_succ_le_zero 3), htmlBlock, here]
          rfl
      · cases starts

/-- A text that starts with `<`, but is no HTML, is a paragraph. -/
theorem readBlock_angle (here : c.rest = '<' :: rest) (noHtml : htmlEnd? rest = none)
    : readBlock {} c = paragraph {} c := by
  have isStart : IsLeafStart '<' := .inr (.inr rfl)
  have cursor : (LineStart.ofCursor c).cursor = c := rfl
  have noDefinition (room : Nat) : definitions {} c room = ({}, c, true) := by
    cases room with
    | zero => rfl
    | succ room =>
        rw [definitions, here]
        rfl
  rw [readBlock_leafStart isStart here]
  unfold htmlEnd? at noHtml
  cases ended : Html.blockEnd? rest with
  | some text =>
      rw [ended] at noHtml
      cases noHtml
  | none =>
      simp only [ended] at noHtml
      split at noHtml
      · cases noHtml
      · next other =>
          have noBreak : thematicBreak? ('<' :: rest) = none := rfl
          have noHash : hashLevel? ('<' :: rest) = none := rfl
          have noFence : fence? ('<' :: rest) = none := rfl
          simp only [leaf, blanksUpTo_leafStart isStart here, cursor, here, ended, other,
            noBreak, noHash, noFence, noDefinition]
          rfl

end

-----------------------------------------------------------------------------------------
-- Lines of HTML
-----------------------------------------------------------------------------------------

/-- The texts that a line of HTML is given as. A carriage return before its line feed is left out.
-/
def htmlTexts (line : List Char) : List (List Char) :=
  match line.reverse with
  | last :: '\r' :: before => [before.reverse, [last]]
  | _ => [line]

/-- A line is given as one text, or its line feed is given on its own. -/
theorem htmlTexts_line (line : List Char)
    : htmlTexts (line ++ ['\n']) = [line ++ ['\n']]
      ∨ ∃ before, line = before ++ ['\r'] ∧ htmlTexts (line ++ ['\n']) = [before, ['\n']] := by
  cases line using List.reverseRecOn with
  | nil => exact .inl rfl
  | append_singleton before c =>
      by_cases isReturn : c = '\r'
      · subst isReturn
        exact .inr ⟨before, rfl, by simp [htmlTexts]⟩
      · exact .inl (by simp [htmlTexts, isReturn])

theorem take_lineLength (s : List Char) : s.take (lineLength s) = (Text.firstLine s).1 := by
  fun_induction lineLength s with
  | case1 => rfl
  | case2 rest => rfl
  | case3 c rest notFeed ih =>
      rw [List.take_succ_cons, ih, Text.firstLine]
      exact notFeed

theorem afterLine_rest (c : Cursor) : (afterLine c).rest = (Text.firstLine c.rest).2 := by
  rw [afterLine, Cursor.rest_advance]
  have whole := Text.firstLine_append c.rest
  have taken := take_lineLength c.rest
  have split := List.take_append_drop (lineLength c.rest) c.rest
  rw [taken] at split
  exact List.append_cancel_left (split.trans whole.symm)

/-- The events of a line without indentation. -/
theorem events_htmlPieces (c : Cursor)
    : (htmlPieces 0 c).map (fun piece => piece.placed.event)
      = (htmlTexts (Text.firstLine c.rest).1).map Event.html := by
  rw [htmlPieces, take_lineLength]
  generalize (Text.firstLine c.rest).1 = line
  simp only [Nat.lt_irrefl, if_false]
  split
  · next last before reversed =>
      simp only [htmlTexts, reversed]
      rfl
  · next other =>
      have plain : htmlTexts line = [line] := by
        unfold htmlTexts
        split
        · next reversed => exact absurd reversed (other _ _)
        · rfl
      rw [plain]
      rfl

section

variable {c : Cursor} {close : Option (List Char)} {room : Nat}

/-- The last line of a document ends the block. -/
theorem htmlLines_last (last : (Text.firstLine c.rest).2 = [])
    : htmlLines [] close (room + 1) 0 c = (htmlPieces 0 c, afterLine c) := by
  have atEnd : (afterLine c).rest.isEmpty = true := by
    rw [afterLine_rest, last]
    rfl
  have next : (LineStart.ofCursor (afterLine c)).cursor = afterLine c := rfl
  simp only [htmlLines, takePrefixes, next, atEnd, Bool.or_true, if_true]

/-- A line that does not hold the end of the block is part of it, and so is the next one. -/
theorem htmlLines_open {text : List Char} (more : (Text.firstLine c.rest).2 ≠ [])
    (open_ : Html.lengthThrough? text (Text.firstLine c.rest).1 = none)
    : htmlLines [] (some text) (room + 1) 0 c
      = (htmlPieces 0 c ++ (htmlLines [] (some text) room 0 (afterLine c)).1,
        (htmlLines [] (some text) room 0 (afterLine c)).2) := by
  have notEnd : (afterLine c).rest.isEmpty = false := by
    rw [afterLine_rest]
    exact List.isEmpty_eq_false_iff.mpr more
  have next : (LineStart.ofCursor (afterLine c)).cursor = afterLine c := rfl
  have spare : (LineStart.ofCursor (afterLine c)).spare = 0 := rfl
  simp only [htmlLines, takePrefixes, take_lineLength, next, spare, open_, notEnd,
    bne_self_eq_false, Option.isSome_none, Bool.or_false, Bool.false_eq_true, if_false]

end

/-- The lines of a document are one block of HTML if none but the last holds the end of the block.
By induction on the lines.
-/
theorem htmlLines_all {text : List Char} {c : Cursor} {room : Nat} (enough : c.rest.length < room)
    (notNil : c.rest ≠ [])
    (open_ : ∀ line ∈ (Text.linesWithEnds c.rest).dropLast, Html.lengthThrough? text line = none)
    : (htmlLines [] (some text) room 0 c).1.map (fun piece => piece.placed.event)
        = ((Text.linesWithEnds c.rest).flatMap htmlTexts).map Event.html
      ∧ (htmlLines [] (some text) room 0 c).2.rest = [] := by
  induction room generalizing c with
  | zero => exact absurd enough (Nat.not_lt_zero _)
  | succ room ih =>
      rw [Text.linesWithEnds_eq_cons notNil] at open_ ⊢
      by_cases last : (Text.firstLine c.rest).2 = []
      · rw [htmlLines_last last, last, Text.linesWithEnds, List.flatMap_cons, List.flatMap_nil,
          List.append_nil, afterLine_rest]
        exact ⟨events_htmlPieces c, last⟩
      · have next := afterLine_rest c
        have others : Text.linesWithEnds (Text.firstLine c.rest).2 ≠ [] := by
          rw [Text.linesWithEnds_eq_cons last]
          exact List.cons_ne_nil _ _
        rw [List.dropLast_cons_of_ne_nil others] at open_
        obtain ⟨first, later⟩ := List.forall_mem_cons.mp open_
        have shorter : (afterLine c).rest.length < room := by
          obtain ⟨x, rest, here⟩ := List.exists_cons_of_ne_nil notNil
          have less := Text.length_firstLine_lt x rest
          rw [← here] at less
          rw [next]
          omega
        rw [← next] at last later ⊢
        obtain ⟨inside, atEnd⟩ := ih shorter last later
        rw [htmlLines_open (next ▸ last) first, List.map_append, inside, events_htmlPieces,
          List.flatMap_cons, List.map_append]
        exact ⟨rfl, atEnd⟩

-----------------------------------------------------------------------------------------
-- Documents of HTML
-----------------------------------------------------------------------------------------

/-- A block of HTML that takes the whole document gives its pieces. -/
theorem events_html {rest : List Char} {close : Option (List Char)}
    (starts : htmlEnd? rest = some close)
    (atEnd : (htmlLines [] close (rest.length + 2) 0 (.ofText ('<' :: rest))).2.rest = [])
    : events ('<' :: rest)
      = enclose .html 0
          ((htmlLines [] close (rest.length + 2) 0 (.ofText ('<' :: rest))).1.map
            HtmlPiece.placed) := by
  have read := readBlock_html (c := .ofText ('<' :: rest)) rfl starts
  rw [events, structureOf_oneBlock (List.cons_ne_nil _ _) read atEnd]
  simp only [Block.listEvents, Block.events, List.append_nil]
  rfl

-----------------------------------------------------------------------------------------
-- Paragraphs
-----------------------------------------------------------------------------------------

/-- Holds for the characters of tags without attributes: no escape, pipe or line end is one. -/
def isTagText (c : Char) : Bool :=
  c.isAlphanum || c == '_' || c == ' ' || c == '/' || c == '<' || c == '>'

namespace Line

theorem pipes_pushRun (p : Partial) (c : Cursor) (delimiter : Char) (opens closes : Bool)
    (count : Nat)
    : (p.pushRun c delimiter opens closes count).pipes = p.pipes := by
  induction count generalizing p c with
  | zero => rfl
  | succ count ih => exact (ih _ _).trans rfl

/-- A character of a tag is read alone or as the first one of a run, and is no pipe. -/
theorem step_tagText {x : Char} (isText : isTagText x = true) {rest : List Char}
    (noEscape : rest.head? ≠ some '\\') (p : Partial) (c : Cursor)
    : ∃ read more,
        step .counted p c x rest = .next read more
        ∧ read.pipes = p.pipes
        ∧ (more = 0 ∨ more = runLength '_' rest) := by
  unfold step
  split
  all_goals try exact absurd isText (by decide)
  · simp only
    split
    · exact ⟨_, _, rfl, pipes_pushRun _ _ _ _ _ _, .inr rfl⟩
    · exact ⟨_, _, rfl, rfl, .inr rfl⟩
  · rw [if_neg (by simpa using noEscape)]
    exact ⟨_, _, rfl, rfl, .inl rfl⟩
  · exact ⟨_, _, rfl, rfl, .inl rfl⟩

/-- A line of such characters is read to its line feed, by induction on them. -/
theorem scanFrom_tagText {text : List Char} (isText : ∀ x ∈ text, isTagText x = true) {c : Cursor}
    (here : c.rest = text ++ ['\n']) (p : Partial)
    : (scanFrom .counted none p c).next.rest = []
      ∧ (scanFrom .counted none p c).pipes = p.pipes := by
  induction size : text.length using Nat.strongRecOn generalizing text c p with
  | ind length ih =>
      cases text with
      | nil =>
          have ends : scanFrom .counted none p c = p.finishAtLineEnd c 1 true := by
            unfold scanFrom
            split
            · next empty => cases here.symm.trans empty
            · next x rest same =>
                obtain ⟨rfl, rfl⟩ := List.cons.inj (here.symm.trans same)
                rfl
          have next : (p.finishAtLineEnd c 1 true).next = c.advance 1 := rfl
          rw [ends, next, Cursor.rest_advance, here]
          exact ⟨rfl, rfl⟩
      | cons x text =>
          obtain ⟨first, others⟩ := List.forall_mem_cons.mp isText
          have noEscape : (text ++ ['\n']).head? ≠ some '\\' := by
            intro escape
            have member := List.mem_of_head? escape
            rcases List.mem_append.mp member with inside | last
            · exact absurd (others _ inside) (by decide)
            · exact absurd (List.mem_singleton.mp last) (by decide)
          obtain ⟨read, more, stepped, pipes, count⟩ := step_tagText first noEscape p c
          have short : more ≤ text.length := by
            rcases count with rfl | rfl
            · exact Nat.zero_le _
            · rw [runLength, Text.takeWhile_append_feed (p := fun x => x == '_') rfl]
              exact (List.takeWhile_sublist _).length_le
          have after : (c.advance (more + 1)).rest = text.drop more ++ ['\n'] := by
            rw [Cursor.rest_advance, here, List.cons_append, List.drop_succ_cons,
              List.drop_append_of_le_length short]
          have goesOn
              : scanFrom .counted none p c
                = scanFrom .counted none read (c.advance (more + 1)) := by
            rw [scanFrom]
            split
            · next empty => cases here.symm.trans empty
            · next y rest same =>
                obtain ⟨rfl, rfl⟩ : x = y ∧ text ++ ['\n'] = rest :=
                  List.cons.inj (here.symm.trans same)
                simp only [Option.any_none, Bool.false_eq_true, if_false, stepped]
          have less : (text.drop more).length < length := by
            rw [← size, List.length_drop, List.length_cons]
            omega
          rw [goesOn, ← pipes]
          exact ih _ less (fun y member => others y (List.mem_of_mem_drop member)) after read rfl

end Line

/-- Where the text ends, a paragraph does too. -/
theorem paragraphLines_end {c : Cursor} (atEnd : c.rest = []) (room : Nat) (items : List Item)
    (lineBreak : Option Item)
    : ∃ all, paragraphLines [] room items lineBreak c = .plain all c := by
  cases room with
  | zero => exact ⟨items, rfl⟩
  | succ room =>
      have stops : LineStart.takeBlanks.go 4 (.ofCursor c) = (4, .ofCursor c) := by
        rw [LineStart.takeBlanks.go]
        split
        · next blank => cases atEnd.symm.trans blank
        · next tab => cases atEnd.symm.trans tab
        · rfl
      have started : (LineStart.ofCursor c).takeBlanks 4 = (4, .ofCursor c) := stops
      have noUnderline : underline? (LineStart.ofCursor c).cursor.rest = none :=
        (congrArg underline? atEnd).trans rfl
      have ended : (LineStart.ofCursor c).allBlanks.atEnd = true := by
        simp only [LineStart.atEnd, LineStart.allBlanks, Cursor.rest_advance, LineStart.ofCursor,
          atEnd, List.drop_nil]
        rfl
      refine ⟨trailingBackslash lineBreak ++ items, ?_⟩
      simp only [paragraphLines, takePrefixes, LineStart.blanks, started, noUnderline, ended,
        ite_self, Bool.or_true, if_true]

/-- A line of such characters that starts a document and ends it is a paragraph. -/
theorem paragraph_tagText {text : List Char} (isText : ∀ x ∈ text, isTagText x = true) {c : Cursor}
    (here : c.rest = text ++ ['\n'])
    : ∃ prose next,
        paragraph {} c = ({ finished := [.paragraph false prose] }, next) ∧ next.rest = [] := by
  obtain ⟨atEnd, noPipes⟩ : (Line.scan .counted none c).next.rest = []
      ∧ (Line.scan .counted none c).pipes = 0 :=
    Line.scanFrom_tagText isText here _
  have noTable : tableAfter? [] c (Line.scan .counted none c) = none := by
    rw [tableAfter?, noPipes]
    rfl
  obtain ⟨items, ended⟩ := paragraphLines_end atEnd (c.rest.length + 1)
    (Line.scan .counted none c).items (Line.scan .counted none c).lineBreak
  let prose : Prose :=
    { items := items.reverse, stop := (Line.scan .counted none c).next.offset, containers := [],
      inTable := false }
  refine ⟨prose, (Line.scan .counted none c).next, ?_, atEnd⟩
  have outside : ({} : Outline).innermost? = none := rfl
  have finished : ({} : Outline).finishList = {} := rfl
  simp only [paragraph, outside, Bool.false_eq_true, if_false, finished, Outline.containers,
    List.map_nil, List.reverse_nil, noTable, ended]
  rfl

/-- The events of such a document are those of a paragraph, unless it is HTML. -/
theorem events_tagText {text : List Char} (isText : ∀ x ∈ text, isTagText x = true)
    (noHtml : htmlEnd? (text ++ ['\n']) = none)
    : ∃ inside, events ('<' :: (text ++ ['\n'])) = enclose .paragraph 0 inside := by
  have all : ∀ x ∈ '<' :: text, isTagText x = true := List.forall_mem_cons.mpr ⟨rfl, isText⟩
  have read := readBlock_angle (c := .ofText ('<' :: (text ++ ['\n']))) rfl noHtml
  obtain ⟨prose, next, block, atEnd⟩ :=
    paragraph_tagText all (c := .ofText ('<' :: (text ++ ['\n']))) rfl
  refine ⟨prose.events fun _ => none, ?_⟩
  rw [events, structureOf_oneBlock (List.cons_ne_nil _ _) (read.trans block) atEnd]
  simp only [Block.listEvents, Block.events, List.append_nil, List.find?_nil]

end Folio.Markdown
