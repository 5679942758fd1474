import Folio.Proofs.Markdown.FirstBlock
import Folio.Proofs.Text.Lines
import Mathlib.Data.List.TakeWhile

/-! Fenced code, line by line. The lines after a fence are code as they are, up to the first line
that closes the fence. A document of one fence, its lines and a closing line is one block of code.
-/

namespace Folio.Markdown

open Text (Unbroken unlines unlines_cons)

def IsFence (fence : Char) : Prop :=
  fence = '`' ∨ fence = '~'

/-- Holds for lines that close a fence of `count` times `fence`: at most three blanks, at least as
many times `fence`, and nothing more but blanks and tabs.
-/
def closesFence (fence : Char) (count : Nat) (line : List Char) : Bool :=
  let text := line.drop (runLength ' ' line)
  let after := text.drop (runLength fence text)
  runLength ' ' line < 4 && count ≤ runLength fence text
    && after.all fun c => c == ' ' || c == '\t'

-----------------------------------------------------------------------------------------
-- The start of a line
-----------------------------------------------------------------------------------------

theorem lineLength_append_feed {line : List Char} (h : '\n' ∉ line) (rest : List Char)
    : lineLength (line ++ '\n' :: rest) = line.length + 1 := by
  induction line with
  | nil => rfl
  | cons c line ih =>
      obtain ⟨notFirst, notLater⟩ := not_or.mp (mt List.mem_cons.mpr h)
      rw [List.cons_append, lineLength, ih notLater, List.length_cons]
      exact fun same => notFirst same.symm

theorem runLength_append_feed {c : Char} (h : c ≠ '\n') (line rest : List Char)
    : runLength c (line ++ '\n' :: rest) = runLength c line := by
  unfold runLength
  rw [Text.takeWhile_append_feed (p := fun x => x == c) (beq_eq_false_iff_ne.mpr h.symm)]

theorem runLength_le (c : Char) (s : List Char) : runLength c s ≤ s.length :=
  (List.takeWhile_sublist _).length_le

theorem runLength_cons_self (c : Char) (s : List Char)
    : runLength c (c :: s) = runLength c s + 1 := by
  rw [runLength, List.takeWhile_cons_of_pos (p := fun x => x == c) (beq_self_eq_true c)]
  rfl

theorem runLength_eq_zero {c : Char} {s : List Char} (h : ∀ rest, s ≠ c :: rest)
    : runLength c s = 0 := by
  cases s with
  | nil => rfl
  | cons d s =>
      have other : d ≠ c := by
        rintro rfl
        exact h s rfl
      rw [runLength, List.takeWhile_cons_of_neg (by simpa using other)]
      rfl

/-- There are fewer than four columns of blanks exactly if there are fewer blanks and no tab after
them. Then all blanks are taken. By induction on the columns.
-/
theorem takeBlanks_go_lacking {n : Nat} {l : LineStart} (columns : l.width + n = 4)
    : ((LineStart.takeBlanks.go n l).1 ≠ 0
        ↔ runLength ' ' l.cursor.rest < n
          ∧ (l.cursor.rest.drop (runLength ' ' l.cursor.rest)).head? ≠ some '\t')
      ∧ ((LineStart.takeBlanks.go n l).1 ≠ 0 →
          (LineStart.takeBlanks.go n l).2.cursor.rest
            = l.cursor.rest.drop (runLength ' ' l.cursor.rest)) := by
  induction n generalizing l with
  | zero =>
      rw [LineStart.takeBlanks.go]
      exact ⟨iff_of_false (fun h => h rfl) (fun h => absurd h.1 (Nat.not_lt_zero _)),
        fun h => absurd rfl h⟩
  | succ n ih =>
      rw [LineStart.takeBlanks.go]
      split
      · next rest here =>
          have after : l.skip.cursor.rest = rest := by
            simp [LineStart.skip, here]
          have width : l.skip.width + n = 4 :=
            (Nat.add_right_comm l.width 1 n).trans columns
          have later := ih width
          rw [after] at later
          rw [here, runLength_cons_self, List.drop_succ_cons, Nat.add_lt_add_iff_right]
          exact later
      · next rest here =>
          have none : runLength ' ' l.cursor.rest = 0 :=
            runLength_eq_zero (by simp [here])
          have all : n + 1 - min (4 - l.width % 4) (n + 1) = 0 := by
            omega
          rw [all, LineStart.takeBlanks.go, none, here]
          exact ⟨iff_of_false (fun h => h rfl) (fun h => h.2 rfl), fun h => absurd rfl h⟩
      · next noBlank noTab =>
          rw [runLength_eq_zero noBlank, List.drop_zero]
          refine ⟨iff_of_true (Nat.succ_ne_zero n) ⟨Nat.succ_pos n, fun tab => ?_⟩, fun _ => rfl⟩
          obtain ⟨rest, here⟩ := List.head?_eq_some_iff.mp tab
          exact noTab rest here

theorem blanks_zero (c : Cursor) : ((LineStart.ofCursor c).blanks 0).2 = .ofCursor c := by
  simp only [LineStart.blanks, LineStart.takeBlanks, LineStart.ofCursor, Nat.min_self, Nat.sub_self]
  rw [LineStart.takeBlanks.go]

/-- A line is indented by less than four columns exactly if fewer than four blanks start it and no
tab follows them.
-/
theorem blanks_four (c : Cursor)
    : (((LineStart.ofCursor c).blanks 4).1 = false
        ↔ runLength ' ' c.rest < 4 ∧ (c.rest.drop (runLength ' ' c.rest)).head? ≠ some '\t')
      ∧ (((LineStart.ofCursor c).blanks 4).1 = false →
          ((LineStart.ofCursor c).blanks 4).2.cursor.rest
            = c.rest.drop (runLength ' ' c.rest)) := by
  have lacking := takeBlanks_go_lacking (n := 4) (l := .ofCursor c) rfl
  have same
      : ((LineStart.ofCursor c).blanks 4).1 = false
        ↔ (LineStart.takeBlanks.go 4 (.ofCursor c)).1 ≠ 0 :=
    beq_eq_false_iff_ne
  rw [same]
  exact lacking

-----------------------------------------------------------------------------------------
-- Lines of code
-----------------------------------------------------------------------------------------

/-- What stands in a line after the characters that satisfy `p`. -/
theorem drop_takeWhile_append_feed {p : Char → Bool} (h : p '\n' = false) (line rest : List Char)
    : (line ++ '\n' :: rest).drop ((line ++ '\n' :: rest).takeWhile p).length
      = line.dropWhile p ++ '\n' :: rest := by
  rw [Text.takeWhile_append_feed h, List.drop_append_of_le_length, Text.drop_length_takeWhile]
  exact (List.takeWhile_sublist p).length_le

/-- A line does not end before a character that is neither a line feed nor a carriage return. -/
theorem lineEnd?_cons {c : Char} (h : c ≠ '\n' ∧ c ≠ '\r') (rest : List Char)
    : lineEnd? (c :: rest) = none := by
  unfold lineEnd?
  split
  · next same => cases same
  · next same => exact absurd (List.cons.inj same).1 h.1
  · next same => exact absurd (List.cons.inj same).1 h.2
  · next same => exact absurd (List.cons.inj same).1 h.2
  · rfl

/-- A closing fence takes the whole rest of its line, which holds nothing else but blanks. -/
theorem closingFence?_line {fence : Char} (notFeed : fence ≠ '\n') (count : Nat) {text : List Char}
    (unbroken : Unbroken text) (rest : List Char)
    : closingFence? fence count (text ++ '\n' :: rest)
      = if count ≤ runLength fence text
          && (text.drop (runLength fence text)).all fun c => c == ' ' || c == '\t' then
          some text.length
        else none := by
  have notEmpty : (text ++ '\n' :: rest).isEmpty = false := by
    simp
  have short := runLength_le fence text
  have after
      : (text ++ '\n' :: rest).drop (runLength fence text)
        = text.drop (runLength fence text) ++ '\n' :: rest :=
    List.drop_append_of_le_length short
  rw [closingFence?, notEmpty]
  simp only [Bool.false_eq_true, if_false, runLength_append_feed notFeed, ← List.drop_drop, after,
    drop_takeWhile_append_feed (p := fun x => x == ' ' || x == '\t') rfl]
  by_cases long : count ≤ runLength fence text
  · rw [if_neg (Nat.not_lt.mpr long), decide_eq_true long, Bool.true_and]
    cases others : (text.drop (runLength fence text)).dropWhile fun x => x == ' ' || x == '\t' with
    | nil =>
        have blank := List.dropWhile_eq_nil_iff.mp others
        rw [if_pos (List.all_eq_true.mpr blank),
          Text.takeWhile_append_feed (p := fun x => x == ' ' || x == '\t') rfl,
          List.takeWhile_eq_self_iff.mpr blank, List.length_drop]
        exact congrArg some (Nat.add_sub_cancel' short)
    | cons c more =>
        have inside : c ∈ text :=
          List.mem_of_mem_drop ((List.dropWhile_sublist _).mem (others ▸ List.mem_cons_self))
        rw [if_neg, List.cons_append, lineEnd?_cons (unbroken c inside)]
        · rfl
        · intro blank
          rw [List.dropWhile_eq_nil_iff.mpr (List.all_eq_true.mp blank)] at others
          cases others
  · rw [if_pos (Nat.not_le.mp long), decide_eq_false long]
    rfl

/-- What stands after the indentation of a line. -/
theorem drop_runLength_append_feed (line rest : List Char)
    : (line ++ '\n' :: rest).drop (runLength ' ' (line ++ '\n' :: rest))
      = line.drop (runLength ' ' line) ++ '\n' :: rest := by
  rw [runLength_append_feed (by decide), List.drop_append_of_le_length (runLength_le ' ' line)]

/-- A line of code is the line as it is, with its line feed. -/
theorem codeLine_of_unbroken {line rest : List Char} (unbroken : Unbroken line) {c : Cursor}
    (here : c.rest = line ++ '\n' :: rest)
    : codeLine 0 c = line ++ ['\n'] := by
  have taken : c.rest.take (lineLength c.rest) = line ++ ['\n'] := by
    rw [here, lineLength_append_feed unbroken.isLine.noFeed, List.take_length_add_append]
    rfl
  rw [codeLine, taken, List.replicate_zero, List.nil_append, dropReturn]
  split
  · next last before reversed =>
      rw [List.reverse_append] at reversed
      have ends : line.reverse = '\r' :: before := (List.cons.inj reversed).2
      have member : '\r' ∈ line := List.mem_reverse.mp (ends ▸ List.mem_cons_self)
      exact absurd rfl (unbroken '\r' member).2
  · rfl

theorem rest_afterLine {line rest : List Char} (noFeed : '\n' ∉ line) {c : Cursor}
    (here : c.rest = line ++ '\n' :: rest)
    : (afterLine c).rest = rest := by
  rw [afterLine, Cursor.rest_advance, here, lineLength_append_feed noFeed,
    List.drop_length_add_append]
  rfl

section

variable {fence : Char} {count : Nat} {line rest : List Char} {c : Cursor}

/-- A line that closes the code is indented by less than four columns. -/
theorem shallow_of_closesFence (isFence : IsFence fence) (long : 0 < count)
    (closes : closesFence fence count line = true) (here : c.rest = line ++ '\n' :: rest)
    : ((LineStart.ofCursor c).blanks 4).1 = false := by
  simp only [closesFence, Bool.and_eq_true, decide_eq_true_eq] at closes
  obtain ⟨⟨less, enough⟩, -⟩ := closes
  refine (blanks_four c).1.mpr ⟨?_, ?_⟩
  · rwa [here, runLength_append_feed (by decide)]
  · rw [here, drop_runLength_append_feed]
    intro tab
    cases text : line.drop (runLength ' ' line) with
    | nil =>
        rw [text] at enough
        exact absurd enough (Nat.not_le.mpr long)
    | cons x more =>
        rw [text] at enough tab
        obtain rfl := Option.some.inj tab
        rw [runLength_eq_zero fun rest same => ?_] at enough
        · exact absurd enough (Nat.not_le.mpr long)
        · obtain rfl := (List.cons.inj same).1
          rcases isFence with isFence | isFence <;> cases isFence

/-- The test for the closing fence finds the lines that close the code. -/
theorem closing_line (isFence : IsFence fence) (long : 0 < count) (unbroken : Unbroken line)
    (here : c.rest = line ++ '\n' :: rest)
    : (if ((LineStart.ofCursor c).blanks 4).1 then none
        else closingFence? fence count ((LineStart.ofCursor c).blanks 4).2.cursor.rest)
      = if closesFence fence count line then some (line.drop (runLength ' ' line)).length
        else none := by
  have notFeed : fence ≠ '\n' := by
    rcases isFence with rfl | rfl <;> decide
  have textUnbroken : Unbroken (line.drop (runLength ' ' line)) := fun x member =>
    unbroken x (List.mem_of_mem_drop member)
  cases deep : ((LineStart.ofCursor c).blanks 4).1 with
  | false =>
      obtain ⟨less, -⟩ := (blanks_four c).1.mp deep
      rw [here, runLength_append_feed (by decide)] at less
      rw [(blanks_four c).2 deep, here, drop_runLength_append_feed,
        closingFence?_line notFeed count textUnbroken, closesFence, decide_eq_true less,
        Bool.true_and]
      rfl
  | true =>
      have open_ : closesFence fence count line = false := by
        rw [Bool.eq_false_iff]
        intro closes
        rw [shallow_of_closesFence isFence long closes here] at deep
        cases deep
      rw [open_]
      rfl

/-- A line that does not close the code is a line of it. -/
theorem fencedLines_code (isFence : IsFence fence) (long : 0 < count) (unbroken : Unbroken line)
    (open_ : closesFence fence count line = false) (here : c.rest = line ++ '\n' :: rest)
    (room : Nat)
    : fencedLines [] 0 fence count (room + 1) c
      = ((line ++ ['\n']) :: (fencedLines [] 0 fence count room (afterLine c)).1,
        (fencedLines [] 0 fence count room (afterLine c)).2) := by
  have closing := closing_line isFence long unbroken here
  rw [open_] at closing
  simp only [fencedLines, takePrefixes, bne_self_eq_false, Bool.false_eq_true, if_false,
    blanks_zero, Nat.sub_zero, closing]
  rw [← codeLine_of_unbroken unbroken here]
  rfl

/-- At a line that closes the code, it ends; reading goes on after the line. -/
theorem fencedLines_close (isFence : IsFence fence) (long : 0 < count) (unbroken : Unbroken line)
    (closes : closesFence fence count line = true) (here : c.rest = line ++ '\n' :: rest)
    (room : Nat)
    : (fencedLines [] 0 fence count (room + 1) c).1 = []
      ∧ (fencedLines [] 0 fence count (room + 1) c).2.rest = rest := by
  have closing := closing_line isFence long unbroken here
  have shallow := shallow_of_closesFence isFence long closes here
  have after := (blanks_four c).2 shallow
  rw [here, drop_runLength_append_feed] at after
  rw [closes, if_pos rfl] at closing
  simp only [fencedLines, takePrefixes, bne_self_eq_false, Bool.false_eq_true, if_false,
    blanks_zero, Nat.sub_zero, closing]
  refine ⟨trivial, ?_⟩
  simp only [Cursor.rest_advance, after, List.drop_left]
  rfl

end

/-- The code is the lines before the first one that closes it; reading goes on after that line. By
induction on the lines.
-/
theorem fencedLines_unlines {fence : Char} (isFence : IsFence fence) {count : Nat}
    (long : 0 < count) {lines : List (List Char)}
    (code : ∀ line ∈ lines, Unbroken line ∧ closesFence fence count line = false)
    {closing : List Char} (unbroken : Unbroken closing)
    (closes : closesFence fence count closing = true) (after : List (List Char)) {room : Nat}
    (enough : lines.length < room) {c : Cursor}
    (here : c.rest = unlines (lines ++ closing :: after))
    : (fencedLines [] 0 fence count room c).1 = lines.map (· ++ ['\n'])
      ∧ (fencedLines [] 0 fence count room c).2.rest = unlines after := by
  induction lines generalizing room c with
  | nil =>
      obtain ⟨room, rfl⟩ := Nat.exists_eq_succ_of_ne_zero (Nat.ne_of_gt enough)
      rw [List.nil_append, unlines_cons] at here
      exact fencedLines_close isFence long unbroken closes here room
  | cons line rest ih =>
      obtain ⟨⟨first, open_⟩, later⟩ := List.forall_mem_cons.mp code
      obtain ⟨room, rfl⟩ := Nat.exists_eq_succ_of_ne_zero (Nat.ne_zero_of_lt enough)
      rw [List.cons_append, unlines_cons] at here
      have next := rest_afterLine first.isLine.noFeed here
      obtain ⟨inside, stop⟩ := ih later (Nat.lt_of_succ_lt_succ enough) next
      rw [fencedLines_code isFence long first open_ here]
      exact ⟨congrArg ((line ++ ['\n']) :: ·) inside, stop⟩

-----------------------------------------------------------------------------------------
-- Blocks of code
-----------------------------------------------------------------------------------------

theorem runLength_replicate (c : Char) (count : Nat)
    : runLength c (List.replicate count c) = count := by
  rw [runLength, List.takeWhile_eq_self_iff.mpr, List.length_replicate]
  intro d member
  exact beq_iff_eq.mpr (List.eq_of_mem_replicate member)

theorem runLength_fence {fence : Char} (isFence : IsFence fence) (count : Nat) (rest : List Char)
    : runLength fence (List.replicate count fence ++ '\n' :: rest) = count := by
  have notFeed : fence ≠ '\n' := by
    rcases isFence with rfl | rfl <;> decide
  rw [runLength_append_feed notFeed, runLength_replicate]

/-- A fence closes the code that it starts. -/
theorem closesFence_replicate {fence : Char} (isFence : IsFence fence) (count : Nat)
    : closesFence fence count (List.replicate count fence) = true := by
  have noIndent : runLength ' ' (List.replicate count fence) = 0 := by
    refine runLength_eq_zero fun rest same => ?_
    have blank : ' ' ∈ List.replicate count fence := same ▸ List.mem_cons_self
    obtain rfl := List.eq_of_mem_replicate blank
    rcases isFence with isFence | isFence <;> cases isFence
  simp [closesFence, noIndent, runLength_replicate]

/-- Three or more of one fence character start fenced code. -/
theorem fence?_replicate {fence : Char} (isFence : IsFence fence) {count : Nat} (long : 3 ≤ count)
    (rest : List Char)
    : fence? (List.replicate count fence ++ '\n' :: rest) = some (count, fence) := by
  obtain ⟨more, rfl⟩ := Nat.exists_eq_add_of_le' long
  have run := runLength_fence isFence (more + 3) rest
  have after
      : (List.replicate (more + 3) fence ++ '\n' :: rest).drop (more + 3) = '\n' :: rest := by
    rw [List.drop_append_of_le_length (List.length_replicate.ge), List.drop_replicate, Nat.sub_self]
    rfl
  rw [List.replicate_succ, List.cons_append] at run after ⊢
  simp only [fence?, run, after]
  rcases isFence with rfl | rfl <;> simp [lineLength]

/-- The code after a fence without an info text. -/
theorem fencedCode_unlines {fence : Char} (isFence : IsFence fence) {count : Nat}
    (long : 0 < count) {lines : List (List Char)}
    (code : ∀ line ∈ lines, Unbroken line ∧ closesFence fence count line = false)
    {closing : List Char} (unbroken : Unbroken closing)
    (closes : closesFence fence count closing = true) (after : List (List Char)) {c : Cursor}
    (here : c.rest = List.replicate count fence ++ '\n' :: unlines (lines ++ closing :: after))
    : (fencedCode [] 0 fence count c).1 = .code (some []) (lines.map (· ++ ['\n']))
      ∧ (fencedCode [] 0 fence count c).2.rest = unlines after := by
  have info : (c.advance count).rest = '\n' :: unlines (lines ++ closing :: after) := by
    rw [Cursor.rest_advance, here]
    exact List.drop_left' (List.length_replicate)
  have noBlanks : inlineBlanks (c.advance count).rest = 0 := by
    rw [info]
    rfl
  have next : (afterLine (c.advance count)).rest = unlines (lines ++ closing :: after) :=
    @rest_afterLine [] _ List.not_mem_nil _ info
  have text
      : Text.dropEndWhile Text.isAsciiBlank
          ((c.advance count).rest.take (lineLength (c.advance count).rest)) = [] := by
    rw [info]
    rfl
  have enough : lines.length < (afterLine (c.advance count)).rest.length + 1 := by
    have fewer := Text.length_le_unlines (lines ++ closing :: after)
    rw [List.length_append, List.length_cons] at fewer
    rw [next]
    omega
  obtain ⟨inside, stop⟩ :=
    fencedLines_unlines isFence long code unbroken closes after enough next
  simp only [fencedCode, noBlanks, Cursor.advance, text, inside, stop]
  rw [unescape]
  exact ⟨rfl, trivial⟩

section

variable {fence : Char} {more : List Char} {c : Cursor}

theorem IsFence.isLeafStart (isFence : IsFence fence) : IsLeafStart fence :=
  isFence.imp_right Or.inl

/-- A line that starts with a fence starts fenced code. -/
theorem leaf_fence (isFence : IsFence fence) (here : c.rest = fence :: more) {count : Nat}
    (found : fence? c.rest = some (count, fence)) (o : Outline)
    : leaf o (.ofCursor c)
      = (o.finishList.append (fencedCode o.finishList.containers 0 fence count c).1,
        (fencedCode o.finishList.containers 0 fence count c).2) := by
  have noBreak : thematicBreak? c.rest = none := by
    rw [here]
    rcases isFence with rfl | rfl <;> rfl
  have noHash : hashLevel? c.rest = none := by
    rw [here]
    rcases isFence with rfl | rfl <;> rfl
  -- Decides the test for HTML, which `simp` opens below.
  have noTag : ∀ rest, c.rest ≠ '<' :: rest := by
    intro rest tag
    rcases isFence with rfl | rfl <;> cases here.symm.trans tag
  have cursor : (LineStart.ofCursor c).cursor = c := rfl
  simp only [leaf, blanksUpTo_leafStart isFence.isLeafStart here, cursor, noBreak, noHash, found]
  exact if_neg (Nat.not_succ_le_zero 3)

/-- The code that starts a document is its first block. -/
theorem readBlock_fence (isFence : IsFence fence) (here : c.rest = fence :: more) {count : Nat}
    (found : fence? c.rest = some (count, fence))
    : readBlock {} c
      = ({ finished := [(fencedCode [] 0 fence count c).1] },
        (fencedCode [] 0 fence count c).2) := by
  rw [readBlock_leafStart isFence.isLeafStart here, leaf_fence isFence here found]
  rfl

end

/-- A document of a fence, lines that do not close it and a line that does is a block of code. -/
theorem structureOf_fencedCode {fence : Char} (isFence : IsFence fence) {count : Nat}
    (long : 3 ≤ count) {lines : List (List Char)}
    (code : ∀ line ∈ lines, Unbroken line ∧ closesFence fence count line = false)
    {closing : List Char} (unbroken : Unbroken closing)
    (closes : closesFence fence count closing = true)
    : structureOf (unlines (List.replicate count fence :: (lines ++ [closing])))
      = ([.code (some []) (lines.map (· ++ ['\n']))], []) := by
  have some_ : 0 < count := Nat.lt_of_lt_of_le (by decide) long
  obtain ⟨fewer, same⟩ := Nat.exists_eq_succ_of_ne_zero (Nat.ne_of_gt some_)
  have found := fence?_replicate isFence long (unlines (lines ++ [closing]))
  rw [unlines_cons]
  generalize text : List.replicate count fence ++ '\n' :: unlines (lines ++ [closing]) = document
    at found ⊢
  have here : (Cursor.ofText document).rest
      = fence :: (List.replicate fewer fence ++ '\n' :: unlines (lines ++ [closing])) := by
    rw [Cursor.ofText, ← text, same, List.replicate_succ]
    rfl
  obtain ⟨block, stop⟩ :=
    fencedCode_unlines isFence some_ code unbroken closes [] (c := .ofText document) text.symm
  have read := readBlock_fence isFence here found
  rw [block] at read
  refine structureOf_oneBlock (fun empty => ?_) read stop
  rw [empty] at here
  cases here

/-- The events of such a document: those of the code, with a text for each line. -/
theorem events_fencedCode {fence : Char} (isFence : IsFence fence) {count : Nat}
    (long : 3 ≤ count) {lines : List (List Char)}
    (code : ∀ line ∈ lines, Unbroken line ∧ closesFence fence count line = false)
    {closing : List Char} (unbroken : Unbroken closing)
    (closes : closesFence fence count closing = true)
    : events (unlines (List.replicate count fence :: (lines ++ [closing])))
      = enclose (.code (some [])) 0
          ((lines.map (· ++ ['\n'])).map fun text => { event := .text text, offset := 0 }) := by
  rw [events, structureOf_fencedCode isFence long code unbroken closes]
  simp only [Block.listEvents, Block.events, List.append_nil]

end Folio.Markdown
