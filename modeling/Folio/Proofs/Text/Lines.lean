import Folio.Text.Lines

/-! A text that was put together from lines is taken apart into the same lines. Inside of a text, a
blank line is two line feeds with nothing but blanks between them: a text that ends in a visible
character has such a line exactly if one of its lines after the first one is blank.
-/

namespace Folio.Text

/-- Holds for texts that a text can have as a line: no line feed is in them, and no carriage return
at their end, which would belong to the line end.
-/
structure IsLine (s : List Char) : Prop where
  noFeed : '\n' ∉ s
  noReturn : s.getLast? ≠ some '\r'

def Unbroken (s : List Char) : Prop :=
  ∀ c ∈ s, c ≠ '\n' ∧ c ≠ '\r'

instance (s : List Char) : Decidable (Unbroken s) :=
  List.decidableBAll (fun c => c ≠ '\n' ∧ c ≠ '\r') s

/-- A text without line feeds and carriage returns is a line. -/
theorem Unbroken.isLine {s : List Char} (h : Unbroken s) : IsLine s where
  noFeed := fun member => (h _ member).1 rfl
  noReturn := fun last => (h _ (List.mem_of_getLast? last)).2 rfl

theorem unbroken_nil : Unbroken [] :=
  fun _ member => absurd member List.not_mem_nil

theorem Unbroken.append {s t : List Char} (hs : Unbroken s) (ht : Unbroken t)
    : Unbroken (s ++ t) :=
  List.forall_mem_append.mpr ⟨hs, ht⟩

theorem Unbroken.cons {c : Char} {s : List Char} (hc : c ≠ '\n' ∧ c ≠ '\r') (hs : Unbroken s)
    : Unbroken (c :: s) :=
  List.forall_mem_cons.mpr ⟨hc, hs⟩

/-- A line after an unbroken text is still a line. -/
theorem Unbroken.append_isLine {s t : List Char} (hs : Unbroken s) (ht : IsLine t)
    : IsLine (s ++ t) := by
  refine ⟨fun member => ?_, fun last => ?_⟩
  · rcases List.mem_append.mp member with first | later
    · exact (hs _ first).1 rfl
    · exact ht.noFeed later
  · rw [List.getLast?_append, Option.or_eq_some_iff] at last
    rcases last with later | ⟨_, first⟩
    · exact ht.noReturn later
    · exact (hs _ (List.mem_of_getLast? first)).2 rfl

/-- A text without line feeds is a line once an unbroken text that is not empty follows it: carriage
returns of its own are then not at the end.
-/
theorem isLine_append_cons {s t : List Char} {c : Char} (noFeed : '\n' ∉ s)
    (hc : c ≠ '\n' ∧ c ≠ '\r') (ht : Unbroken t)
    : IsLine (s ++ c :: t) := by
  have tail : IsLine (c :: t) := (Unbroken.cons hc ht).isLine
  refine ⟨fun member => ?_, fun last => ?_⟩
  · rcases List.mem_append.mp member with first | later
    · exact noFeed first
    · exact tail.noFeed later
  · rw [List.getLast?_append, List.getLast?_cons, Option.some_or] at last
    exact tail.noReturn (by rw [List.getLast?_cons, last])

/-- What has no line feed goes on with the first line of what follows it. -/
theorem firstLine_append_of_not_mem {s : List Char} (noFeed : '\n' ∉ s) (t : List Char)
    : firstLine (s ++ t) = (s ++ (firstLine t).1, (firstLine t).2) := by
  induction s with
  | nil => rfl
  | cons c s ih =>
      obtain ⟨notFirst, notLater⟩ : '\n' ≠ c ∧ '\n' ∉ s := by simpa using noFeed
      rw [List.cons_append, firstLine, ih notLater]
      · rfl
      · exact fun same => notFirst same.symm

/-- The first line of a text is what comes before its first line feed, with that line feed. -/
theorem firstLine_append_feed {line : List Char} (h : '\n' ∉ line) (rest : List Char)
    : firstLine (line ++ '\n' :: rest) = (line ++ ['\n'], rest) :=
  firstLine_append_of_not_mem h ('\n' :: rest)

/-- What is taken from the start of a line ends in the line, unless line feeds are taken too. -/
theorem takeWhile_append_feed {p : Char → Bool} (h : p '\n' = false) (line rest : List Char)
    : (line ++ '\n' :: rest).takeWhile p = line.takeWhile p := by
  induction line with
  | nil => exact List.takeWhile_cons_of_neg (Bool.eq_false_iff.mp h)
  | cons c line ih => rw [List.cons_append, List.takeWhile_cons, List.takeWhile_cons, ih]

/-- What follows the characters that satisfy `p`. -/
theorem drop_length_takeWhile (p : Char → Bool) (s : List Char)
    : s.drop (s.takeWhile p).length = s.dropWhile p :=
  calc
    s.drop (s.takeWhile p).length
        = (s.takeWhile p ++ s.dropWhile p).drop (s.takeWhile p).length := by
      rw [List.takeWhile_append_dropWhile]
    _ = s.dropWhile p := List.drop_left

/-- A line loses no more than the line feed that was put after it. -/
theorem dropLineEnd_append_feed {line : List Char} (h : line.getLast? ≠ some '\r')
    : dropLineEnd (line ++ ['\n']) = line := by
  unfold dropLineEnd
  rw [List.reverse_append, List.reverse_singleton, List.singleton_append]
  cases reversed : line.reverse with
  | nil => simpa using reversed.symm
  | cons c before =>
      have last : line = before.reverse ++ [c] := by
        simpa using congrArg List.reverse reversed
      have notReturn : c ≠ '\r' := by
        intro same
        subst same
        exact h (by rw [last, List.getLast?_concat])
      simp [notReturn, last]

/-- A text that begins with a line has it, with its line feed, as its first line. -/
theorem linesWithEnds_append_feed {line : List Char} (h : '\n' ∉ line) (rest : List Char)
    : linesWithEnds (line ++ '\n' :: rest) = (line ++ ['\n']) :: linesWithEnds rest := by
  have first := firstLine_append_feed h rest
  cases line with
  | nil =>
      rw [List.nil_append, linesWithEnds]
      rfl
  | cons c line => rw [List.cons_append, linesWithEnds, ← List.cons_append, first]

/-- The lines of a text are its first line and those of the rest. -/
theorem linesWithEnds_eq_cons {s : List Char} (notNil : s ≠ [])
    : linesWithEnds s = (firstLine s).1 :: linesWithEnds (firstLine s).2 := by
  cases s with
  | nil => exact absurd rfl notNil
  | cons c rest => rw [linesWithEnds]

/-- Lines with their line ends are the text again, by induction on the lines. -/
theorem flatten_linesWithEnds (s : List Char) : (linesWithEnds s).flatten = s := by
  fun_induction linesWithEnds s with
  | case1 => rfl
  | case2 c rest ih => rw [List.flatten_cons, ih, firstLine_append]

/-- What stands before the rest of a text on its first line is that line, with its line feed. -/
theorem count_feed_firstLine {s : List Char} (more : (firstLine s).2 ≠ [])
    : (firstLine s).1.count '\n' = 1 := by
  fun_induction firstLine s with
  | case1 => exact absurd rfl more
  | case2 rest => rfl
  | case3 c rest notFeed ih =>
      rw [List.count_cons_of_ne notFeed]
      exact ih more

/-- Lines that others follow have one line feed each, by induction on the text. -/
theorem count_feed_linesWithEnds {s : List Char} {before rest : List (List Char)}
    (split : linesWithEnds s = before ++ rest) (more : rest ≠ [])
    : before.flatten.count '\n' = before.length := by
  fun_induction linesWithEnds s generalizing before with
  | case1 => exact absurd (List.append_eq_nil_iff.mp split.symm).2 more
  | case2 c s ih =>
      cases before with
      | nil => rfl
      | cons line before =>
          obtain ⟨rfl, later⟩ := List.cons.inj split
          have notLast : (firstLine (c :: s)).2 ≠ [] := by
            intro last
            rw [last, linesWithEnds] at later
            exact more (List.append_eq_nil_iff.mp later.symm).2
          rw [List.flatten_cons, List.count_append, count_feed_firstLine notLast, ih later,
            List.length_cons, Nat.add_comm]

/-- A text that begins with a line has it as its first line. -/
theorem lines_append_feed {line : List Char} (h : IsLine line) (rest : List Char)
    : lines (line ++ '\n' :: rest) = line :: lines rest := by
  rw [lines, linesWithEnds_append_feed h.noFeed, List.map_cons,
    dropLineEnd_append_feed h.noReturn]
  rfl

/-- A carriage return before a line feed belongs to the line end. -/
theorem lines_append_return_feed {line : List Char} (noFeed : '\n' ∉ line) (rest : List Char)
    : lines (line ++ '\r' :: '\n' :: rest) = line :: lines rest := by
  have unbroken : '\n' ∉ line ++ ['\r'] := by simpa using noFeed
  have split : line ++ '\r' :: '\n' :: rest = (line ++ ['\r']) ++ '\n' :: rest := by simp
  rw [split, lines, linesWithEnds_append_feed unbroken, List.map_cons]
  exact congrArg (· :: lines rest) (by simp [dropLineEnd])

/-- The lines after a line end are apart from those before it, by induction on the text. -/
theorem linesWithEnds_append (s t : List Char)
    : linesWithEnds (s ++ '\n' :: t) = linesWithEnds (s ++ ['\n']) ++ linesWithEnds t := by
  by_cases feed : '\n' ∈ s
  · obtain ⟨first, rest, split, noFeed⟩ := List.eq_append_cons_of_mem feed
    have shorter : rest.length < s.length := by
      rw [split, List.length_append, List.length_cons]
      omega
    rw [split, List.append_assoc, List.append_assoc, List.cons_append, List.cons_append,
      linesWithEnds_append_feed noFeed, linesWithEnds_append_feed noFeed,
      linesWithEnds_append rest t, List.cons_append]
  · rw [linesWithEnds_append_feed feed, linesWithEnds_append_feed feed, linesWithEnds.eq_1,
      List.singleton_append]
termination_by s.length

theorem lines_append (s t : List Char)
    : lines (s ++ '\n' :: t) = lines (s ++ ['\n']) ++ lines t := by
  rw [lines, linesWithEnds_append, List.map_append]
  rfl

/-- A text without a line feed is all on its first line. -/
theorem firstLine_of_not_mem {s : List Char} (noFeed : '\n' ∉ s) : firstLine s = (s, []) := by
  have line := firstLine_append_of_not_mem noFeed []
  rwa [List.append_nil, firstLine, List.append_nil] at line

/-- A first line with a rest after it ends with the only line feed in it. -/
theorem exists_firstLine {s : List Char} (more : (firstLine s).2 ≠ [])
    : ∃ before, '\n' ∉ before ∧ (firstLine s).1 = before ++ ['\n'] := by
  by_cases feed : '\n' ∈ s
  · obtain ⟨before, rest, rfl, noFeed⟩ := List.eq_append_cons_of_mem feed
    exact ⟨before, noFeed, by rw [firstLine_append_feed noFeed]⟩
  · exact absurd (by rw [firstLine_of_not_mem feed]) more

theorem getLast?_of_firstLine {s line rest : List Char} (split : firstLine s = (line, rest))
    (more : rest ≠ [])
    : line.getLast? = some '\n' := by
  have ends := exists_firstLine (s := s)
  rw [split] at ends
  obtain ⟨before, -, rfl⟩ := ends more
  exact List.getLast?_concat

/-- The first line of a text is the same whatever follows its line feed. -/
theorem firstLine_append_of_firstLine {s line rest more : List Char}
    (split : firstLine s = (line, rest)) (last : rest = [] → more = [])
    : firstLine (line ++ more) = (line, more) := by
  by_cases nothing : rest = []
  · have whole : line = s := by
      rw [← firstLine_append s, split, nothing, List.append_nil]
    rw [last nothing, List.append_nil, whole, split, whole, nothing]
  · have ends := exists_firstLine (s := s)
    rw [split] at ends
    obtain ⟨before, noFeed, rfl⟩ := ends nothing
    rw [List.append_assoc, List.singleton_append, firstLine_append_feed noFeed]

theorem dropLineEnd_of_not_mem {line : List Char} (noFeed : '\n' ∉ line)
    : dropLineEnd line = line := by
  unfold dropLineEnd
  split
  · next reversed => exact absurd (List.mem_reverse.mp (reversed ▸ List.mem_cons_self)) noFeed
  · next reversed => exact absurd (List.mem_reverse.mp (reversed ▸ List.mem_cons_self)) noFeed
  · rfl

/-- A line with a line feed, and with a carriage return before that or not, and no other line has
such a line end.
-/
theorem dropLineEnd_append_feed_eq {before line : List Char} (isLine : IsLine line)
    : dropLineEnd (before ++ ['\n']) = line ↔ before = line ∨ before = line ++ ['\r'] := by
  constructor
  · intro same
    rcases List.eq_nil_or_concat before with rfl | ⟨front, last, rfl⟩
    · exact .inl same
    · rw [List.concat_eq_append] at same ⊢
      by_cases isReturn : last = '\r'
      · subst isReturn
        simp only [dropLineEnd, List.reverse_append, List.reverse_singleton, List.singleton_append,
          List.reverse_reverse] at same
        exact .inr (by rw [same])
      · rw [dropLineEnd_append_feed (by simpa using isReturn)] at same
        exact .inl same
  · rintro (rfl | rfl)
    · exact dropLineEnd_append_feed isLine.noReturn
    · simp [dropLineEnd]

/-- A text has a line as its first one if it is that line, or goes on after a line end. -/
theorem head?_lines {line s : List Char} (isLine : IsLine line) (notNil : line ≠ [])
    : (lines s).head? = some line
      ↔ s = line
        ∨ ∃ rest, s = line ++ '\n' :: rest ∨ s = line ++ '\r' :: '\n' :: rest := by
  by_cases nothing : s = []
  · subst nothing
    simp [lines, linesWithEnds, Ne.symm notNil]
  rw [lines, linesWithEnds_eq_cons nothing, List.map_cons, List.head?_cons, Option.some_inj]
  by_cases feed : '\n' ∈ s
  · obtain ⟨before, rest, rfl, noFeed⟩ := List.eq_append_cons_of_mem feed
    rw [firstLine_append_feed noFeed, dropLineEnd_append_feed_eq isLine]
    have splits {front more : List Char} (plain : '\n' ∉ front)
        (same : before ++ '\n' :: rest = front ++ '\n' :: more)
        : before = front := by
      have first := congrArg firstLine same
      rw [firstLine_append_feed noFeed, firstLine_append_feed plain] at first
      exact List.append_cancel_right (Prod.mk.inj first).1
    constructor
    · rintro (rfl | rfl)
      · exact .inr ⟨rest, .inl rfl⟩
      · exact .inr ⟨rest, .inr (by simp)⟩
    · rintro (same | ⟨more, same | same⟩)
      · exact absurd (same ▸ feed) isLine.noFeed
      · exact .inl (splits isLine.noFeed same)
      · have again : before ++ '\n' :: rest = (line ++ ['\r']) ++ '\n' :: more := by
          rw [same, List.append_assoc]
          rfl
        exact .inr (splits (by simp [isLine.noFeed]) again)
  · rw [firstLine_of_not_mem feed, dropLineEnd_of_not_mem feed]
    constructor
    · exact .inl
    · rintro (same | ⟨rest, rfl | rfl⟩)
      · exact same
      · exact absurd (by simp) feed
      · exact absurd (by simp) feed

/-- Lines with a line feed after each of them are the lines of the whole, by induction on them. -/
theorem lines_flatMap {pieces : List (List Char)} (h : ∀ piece ∈ pieces, IsLine piece)
    : lines (pieces.flatMap (· ++ ['\n'])) = pieces := by
  induction pieces with
  | nil => simp [lines, linesWithEnds]
  | cons piece rest ih =>
      obtain ⟨first, later⟩ := List.forall_mem_cons.mp h
      rw [List.flatMap_cons, List.append_assoc, List.singleton_append, lines_append_feed first,
        ih later]

/-- The text of lines, with a line feed after each of them. -/
def unlines (pieces : List (List Char)) : List Char :=
  pieces.flatMap (· ++ ['\n'])

theorem unlines_cons (piece : List Char) (rest : List (List Char))
    : unlines (piece :: rest) = piece ++ '\n' :: unlines rest := by
  rw [unlines, List.flatMap_cons, List.append_assoc, List.singleton_append]
  rfl

theorem unlines_append (first later : List (List Char))
    : unlines (first ++ later) = unlines first ++ unlines later :=
  List.flatMap_append

/-- A text of lines has them as its lines. -/
theorem linesWithEnds_unlines {pieces : List (List Char)} (noFeed : ∀ piece ∈ pieces, '\n' ∉ piece)
    : linesWithEnds (unlines pieces) = pieces.map (· ++ ['\n']) := by
  induction pieces with
  | nil => exact linesWithEnds.eq_1
  | cons piece rest ih =>
      obtain ⟨first, later⟩ := List.forall_mem_cons.mp noFeed
      rw [unlines_cons, linesWithEnds_append_feed first, ih later]
      rfl

/-- A text of lines is no shorter than it has lines. -/
theorem length_le_unlines (pieces : List (List Char))
    : pieces.length ≤ (unlines pieces).length := by
  induction pieces with
  | nil => exact Nat.zero_le _
  | cons piece rest ih =>
      rw [unlines_cons, List.length_append, List.length_cons, List.length_cons]
      omega

/-- A text of lines ends with a line feed. -/
theorem getLast?_unlines {pieces : List (List Char)} (notNil : pieces ≠ [])
    : (unlines pieces).getLast? = some '\n' := by
  rw [← List.dropLast_concat_getLast notNil, unlines_append, unlines_cons]
  simp [unlines]

/-- Each place in a text of lines is in one of the lines, before its line feed, by induction on the
lines.
-/
theorem exists_line_of_lt {pieces : List (List Char)} {n : Nat}
    (inside : n < (unlines pieces).length)
    : ∃ taken rest later,
        unlines pieces = taken ++ (rest ++ '\n' :: unlines later)
        ∧ taken.length = n
        ∧ (∃ piece ∈ pieces, rest <:+ piece)
        ∧ later <:+ pieces
        ∧ later.length < pieces.length := by
  induction pieces generalizing n with
  | nil => exact absurd inside (Nat.not_lt_zero n)
  | cons piece more ih =>
      rw [unlines_cons] at inside ⊢
      by_cases here : n ≤ piece.length
      · refine ⟨piece.take n, piece.drop n, more, ?_, List.length_take_of_le here,
          ⟨piece, List.mem_cons_self, List.drop_suffix n piece⟩, List.suffix_cons piece more,
          Nat.lt_succ_self more.length⟩
        rw [← List.append_assoc, List.take_append_drop]
      · rw [List.length_append, List.length_cons] at inside
        obtain ⟨taken, rest, later, whole, length, ⟨other, member, within⟩, suffix, fewer⟩ :=
          ih (n := n - piece.length - 1) (by omega)
        refine ⟨piece ++ '\n' :: taken, rest, later, ?_, ?_,
          ⟨other, List.mem_cons_of_mem piece member, within⟩,
          suffix.trans (List.suffix_cons piece more), Nat.lt_succ_of_lt fewer⟩
        · rw [whole, List.append_assoc, List.cons_append]
        · rw [List.length_append, List.length_cons, length]
          omega

-----------------------------------------------------------------------------------------
-- Blank lines
-----------------------------------------------------------------------------------------

/-- Holds for the places of line feeds between which nothing but blanks stands. -/
structure IsBlankLine (s : List Char) (first last : Nat) : Prop where
  before : first < last
  opens : s[first]? = some '\n'
  closes : s[last]? = some '\n'
  blank : ∀ k c, first < k → k < last → s[k]? = some c → isBlank c = true

/-- A blank line stands at the same place in what is left of a text. -/
theorem isBlankLine_drop {s : List Char} {n first last : Nat}
    : IsBlankLine (s.drop n) first last ↔ IsBlankLine s (n + first) (n + last) := by
  constructor
  · rintro ⟨before, opens, closes, blank⟩
    rw [List.getElem?_drop] at opens closes
    refine ⟨Nat.add_lt_add_left before n, opens, closes, fun k c after less found => ?_⟩
    obtain ⟨k, rfl⟩ := Nat.exists_eq_add_of_le (Nat.le_of_lt (Nat.lt_of_le_of_lt
      (Nat.le_add_right n first) after))
    exact blank k c (by omega) (by omega) (List.getElem?_drop.trans found)
  · rintro ⟨before, opens, closes, blank⟩
    refine ⟨by omega, List.getElem?_drop.trans opens, List.getElem?_drop.trans closes, ?_⟩
    intro k c after less found
    exact blank (n + k) c (by omega) (by omega) (List.getElem?_drop.symm.trans found)

/-- A blank line stands at the same place in the first part of a text. -/
theorem isBlankLine_take {s : List Char} {n first last : Nat}
    : IsBlankLine (s.take n) first last ↔ last < n ∧ IsBlankLine s first last := by
  have inside {k : Nat} (less : k < n) : (s.take n)[k]? = s[k]? := List.getElem?_take_of_lt less
  constructor
  · rintro ⟨before, opens, closes, blank⟩
    have less : last < n := by
      obtain ⟨within, -⟩ := List.getElem?_eq_some_iff.mp closes
      exact Nat.lt_of_lt_of_le within (List.length_take_le n s)
    rw [inside (Nat.lt_trans before less)] at opens
    rw [inside less] at closes
    refine ⟨less, before, opens, closes, fun k c after below found => ?_⟩
    exact blank k c after below ((inside (Nat.lt_trans below less)).trans found)
  · rintro ⟨less, before, opens, closes, blank⟩
    refine ⟨before, (inside (Nat.lt_trans before less)).trans opens, (inside less).trans closes, ?_⟩
    intro k c after below found
    exact blank k c after below ((inside (Nat.lt_trans below less)).symm.trans found)

-----------------------------------------------------------------------------------------
-- Texts around a blank line
-----------------------------------------------------------------------------------------

/-- A text is what is before one of its characters, that character, and what is after it. -/
theorem exists_split_of_getElem? {s : List Char} {i : Nat} {c : Char} (found : s[i]? = some c)
    : ∃ before after, s = before ++ c :: after ∧ before.length = i := by
  obtain ⟨inside, rfl⟩ := List.getElem?_eq_some_iff.mp found
  refine ⟨s.take i, s.drop (i + 1), ?_, List.length_take_of_le (Nat.le_of_lt inside)⟩
  rw [← List.drop_eq_getElem_cons inside, List.take_append_drop]

/-- A text has a blank line if it consists of what is before it, the blanks in it, and what is after
it.
-/
theorem exists_isBlankLine_iff {s : List Char}
    : (∃ first last, IsBlankLine s first last)
      ↔ ∃ before blanks after,
          s = before ++ '\n' :: (blanks ++ '\n' :: after) ∧ isAllBlank blanks = true := by
  constructor
  · rintro ⟨first, last, less, opens, closes, blank⟩
    obtain ⟨before, rest, rfl, rfl⟩ := exists_split_of_getElem? opens
    obtain ⟨n, rfl⟩ := Nat.exists_eq_add_of_lt less
    have later (k : Nat) : (before ++ '\n' :: rest)[before.length + k + 1]? = rest[k]? := by
      rw [Nat.add_assoc, List.getElem?_append_right (Nat.le_add_right _ _), Nat.add_sub_cancel_left,
        List.getElem?_cons_succ]
    rw [later] at closes
    obtain ⟨blanks, after, rfl, rfl⟩ := exists_split_of_getElem? closes
    refine ⟨before, blanks, after, rfl, List.all_eq_true.mpr fun c member => ?_⟩
    obtain ⟨k, found⟩ := List.getElem?_of_mem member
    obtain ⟨inside, -⟩ := List.getElem?_eq_some_iff.mp found
    refine blank (before.length + k + 1) c (by omega) (by omega) ?_
    rw [later, List.getElem?_append_left inside, found]
  · rintro ⟨before, blanks, after, rfl, blank⟩
    have place : before.length + (blanks.length + 1) = before.length + 1 + blanks.length := by
      omega
    refine ⟨before.length, before.length + (blanks.length + 1), by omega, by simp, ?_, ?_⟩
    · rw [List.getElem?_append_right (by omega), Nat.add_sub_cancel_left, List.getElem?_cons_succ,
        List.getElem?_append_right (Nat.le_refl _), Nat.sub_self]
      rfl
    · intro k c after less found
      obtain ⟨n, rfl⟩ := Nat.exists_eq_add_of_lt after
      rw [List.getElem?_append_right (by omega)] at found
      have inside : n < blanks.length := by omega
      have here : before.length + n + 1 - before.length = n + 1 := by omega
      rw [here, List.getElem?_cons_succ, List.getElem?_append_left inside] at found
      exact List.all_eq_true.mp blank c (List.mem_of_getElem? found)

-----------------------------------------------------------------------------------------
-- Blank lines among the lines of a text
-----------------------------------------------------------------------------------------

theorem isAllBlank_append (s t : List Char)
    : isAllBlank (s ++ t) = (isAllBlank s && isAllBlank t) :=
  List.all_append

/-- A line end is blank. -/
theorem isAllBlank_dropLineEnd (line : List Char)
    : isAllBlank (dropLineEnd line) = isAllBlank line := by
  unfold dropLineEnd
  split
  · next before reversed =>
      have whole : line = before.reverse ++ ['\r', '\n'] := by
        simpa using congrArg List.reverse reversed
      rw [whole, isAllBlank_append]
      exact (Bool.and_true _).symm
  · next before _ reversed =>
      have whole : line = before.reverse ++ ['\n'] := by
        simpa using congrArg List.reverse reversed
      rw [whole, isAllBlank_append]
      exact (Bool.and_true _).symm
  · rfl

theorem any_isAllBlank_lines (s : List Char) (n : Nat)
    : ((lines s).drop n).any isAllBlank = ((linesWithEnds s).drop n).any isAllBlank := by
  rw [lines, ← List.map_drop, List.any_map]
  exact congrArg _ (funext isAllBlank_dropLineEnd)

/-- A line stands between line ends, or at the start or the end of its text. By induction on the
lines.
-/
theorem exists_of_mem_linesWithEnds {s line : List Char} (member : line ∈ linesWithEnds s)
    : ∃ before after,
        s = before ++ (line ++ after)
        ∧ line ≠ []
        ∧ (before = [] ∨ ∃ front, before = front ++ ['\n'])
        ∧ (after = [] ∨ ∃ front, line = front ++ ['\n']) := by
  fun_induction linesWithEnds s with
  | case1 => exact absurd member List.not_mem_nil
  | case2 c rest ih =>
      have whole := firstLine_append (c :: rest)
      have ends
          : (firstLine (c :: rest)).2 = []
            ∨ ∃ front, (firstLine (c :: rest)).1 = front ++ ['\n'] := by
        by_cases none : (firstLine (c :: rest)).2 = []
        · exact .inl none
        · exact .inr ((exists_firstLine none).imp fun _ => And.right)
      rcases List.mem_cons.mp member with rfl | later
      · refine ⟨[], (firstLine (c :: rest)).2, whole.symm, ?_, .inl rfl, ends⟩
        intro none
        have shorter := length_firstLine_lt c rest
        rw [none, List.nil_append] at whole
        exact absurd (congrArg List.length whole) (Nat.ne_of_lt shorter)
      · obtain ⟨before, after, split, notNil, starts, lineEnds⟩ := ih later
        refine ⟨(firstLine (c :: rest)).1 ++ before, after, ?_, notNil, .inr ?_, lineEnds⟩
        · rw [List.append_assoc, ← split, whole]
        · rcases starts with rfl | ⟨front, rfl⟩
          · rw [List.append_nil]
            refine ends.resolve_left fun none => ?_
            rw [none, linesWithEnds] at later
            exact absurd later List.not_mem_nil
          · exact ⟨(firstLine (c :: rest)).1 ++ front, (List.append_assoc _ _ _).symm⟩

/-- Blanks with a line end after them have a blank line. -/
theorem any_isAllBlank_linesWithEnds {s : List Char} (notNil : s ≠ [])
    (blank : isAllBlank s = true)
    : (linesWithEnds s).any isAllBlank = true := by
  rw [linesWithEnds_eq_cons notNil, List.any_cons]
  rw [← firstLine_append s, isAllBlank_append, Bool.and_eq_true] at blank
  rw [blank.1, Bool.true_or]

/-- A text that ends in a visible character has a blank line if one of the lines after its first one
is blank, and only then.
-/
theorem any_isAllBlank_lines_iff {s : List Char} {c : Char} (ends : s.getLast? = some c)
    (visible : isBlank c = false)
    : ((lines s).drop 1).any isAllBlank = true ↔ ∃ first last, IsBlankLine s first last := by
  rw [any_isAllBlank_lines, exists_isBlankLine_iff]
  constructor
  · intro some
    obtain ⟨line, member, blank⟩ := List.any_eq_true.mp some
    have notNil : s ≠ [] := by
      rintro rfl
      cases ends
    rw [linesWithEnds_eq_cons notNil, List.drop_one, List.tail_cons] at member
    obtain ⟨before, after, rest, lineNotNil, starts, lineEnds⟩ := exists_of_mem_linesWithEnds member
    have more : (firstLine s).2 ≠ [] := by
      rw [rest]
      simp [lineNotNil]
    obtain ⟨first, -, isFirst⟩ := exists_firstLine more
    obtain ⟨front, upTo⟩ : ∃ front, first ++ '\n' :: before = front ++ ['\n'] := by
      rcases starts with rfl | ⟨front, rfl⟩
      · exact ⟨first, rfl⟩
      · exact ⟨first ++ '\n' :: front, (List.append_assoc first ('\n' :: front) ['\n']).symm⟩
    have whole : s = front ++ '\n' :: (line ++ after) := by
      rw [← firstLine_append s, isFirst, rest, List.append_assoc, List.singleton_append,
        ← List.cons_append, ← List.append_assoc, upTo, List.append_assoc, List.singleton_append]
    rcases lineEnds with rfl | ⟨blanks, rfl⟩
    · have last : c ∈ line := by
        rw [whole, List.append_nil, List.append_cons, List.getLast?_append,
          List.getLast?_eq_some_getLast lineNotNil, Option.some_or] at ends
        exact Option.some.inj ends ▸ List.getLast_mem lineNotNil
      exact absurd (List.all_eq_true.mp blank c last) (Bool.eq_false_iff.mp visible)
    · rw [isAllBlank_append, Bool.and_eq_true] at blank
      exact ⟨front, blanks, after, by rw [whole, List.append_assoc, List.singleton_append], blank.1⟩
  · rintro ⟨before, blanks, after, rfl, blank⟩
    have blankLine : isAllBlank (blanks ++ ['\n']) = true := by
      rw [isAllBlank_append, blank]
      rfl
    have first : 1 ≤ (linesWithEnds (before ++ ['\n'])).length := by
      rw [linesWithEnds_eq_cons (by simp)]
      exact Nat.succ_pos _
    rw [linesWithEnds_append, linesWithEnds_append blanks, List.drop_append_of_le_length first,
      List.any_append, List.any_append, any_isAllBlank_linesWithEnds (by simp) blankLine,
      Bool.true_or, Bool.or_true]

end Folio.Text
