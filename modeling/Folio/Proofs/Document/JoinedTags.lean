import Folio.Proofs.Document.LongTags
import Folio.Proofs.Text.Bytes

/-! What the joining of tags changes in a body: line ends in opening tags that start a line and go
over several lines become blanks, byte for byte, and nothing else changes. Since such a tag neither
starts nor ends anywhere else afterwards, there is nothing to join in what was joined.
-/

namespace Folio.Document

open Text (IsBlankLine blankEnds blankEndBytes)

-----------------------------------------------------------------------------------------
-- Blanks in place of line ends
-----------------------------------------------------------------------------------------

/-- Holds for the places between two others, such as those of the `<` and the `>` of a tag. -/
def inRanges (ranges : List (Nat × Nat)) (place : Nat) : Bool :=
  ranges.any fun range => range.1 < place && place < range.2

theorem inRanges_iff {ranges : List (Nat × Nat)} {place : Nat}
    : inRanges ranges place = true ↔ ∃ range ∈ ranges, range.1 < place ∧ place < range.2 := by
  simp [inRanges]

/-- A tag ends where it does if line ends in it are made blanks. -/
theorem tagEnd?_blankEnds {quote : Option Char}
    (quotes : ∀ q, quote = some q → q = '"' ∨ q = '\'') (depth : Nat) (escaped : Bool)
    (p : Nat → Bool) (s : List Char)
    : Markup.tagEnd? quote depth escaped (blankEnds p s)
      = Markup.tagEnd? quote depth escaped s := by
  induction s generalizing quote depth escaped p with
  | nil => rfl
  | cons c s ih =>
      have here (t : List Char)
          : Markup.tagEnd? quote depth escaped
              ((if (c == '\n' || c == '\r') && p 0 then ' ' else c) :: t)
            = Markup.tagEnd? quote depth escaped (c :: t) := by
        split
        · next ends =>
            rw [Bool.and_eq_true, Bool.or_eq_true, beq_iff_eq, beq_iff_eq] at ends
            rcases ends.1 with rfl | rfl <;> cases quote with
            | none => rfl
            | some q => rcases quotes q rfl with rfl | rfl <;> rfl
        · rfl
      have outside : ∀ q, none = some q → q = '"' ∨ q = '\'' := by
        rintro q ⟨⟩
      rw [Text.blankEnds_cons, here]
      unfold Markup.tagEnd?
      cases quote with
      | none =>
          by_cases opens : (c == '"' || c == '\'') = true
          · have inside : ∀ q, some c = some q → q = '"' ∨ q = '\'' := by
              rintro q ⟨⟩
              simpa using opens
            simp only [opens, if_true, ih inside]
          · simp only [opens, Bool.false_eq_true, if_false, ih outside]
      | some q => simp only [ih outside, ih quotes]

section

variable {s : List Char} {tags : List (Nat × Nat)} {start stop first last : Nat}

/-- A blank line stays, since a tag with one of its line feeds would have the other one too. -/
theorem isBlankLine_blankEnds (long : ∀ tag ∈ tags, IsLongTag s tag.1 tag.2)
    (h : IsBlankLine s first last)
    : IsBlankLine (blankEnds (inRanges tags) s) first last := by
  have apart {k : Nat} {c : Char} (found : s[k]? = some c) (visible : Text.isBlank c = false)
      : k < first ∨ last < k := by
    rcases Nat.lt_trichotomy k first with before | rfl | after
    · exact .inl before
    · obtain rfl := Option.some.inj (found.symm.trans h.opens)
      exact absurd visible (by decide)
    · rcases Nat.lt_trichotomy k last with before | rfl | after'
      · exact absurd (h.blank k c after before found) (Bool.eq_false_iff.mp visible)
      · obtain rfl := Option.some.inj (found.symm.trans h.closes)
        exact absurd visible (by decide)
      · exact .inr after'
  have outside {k : Nat} (inside : first ≤ k) (before : k ≤ last) : inRanges tags k = false := by
    rw [← Bool.not_eq_true, inRanges_iff]
    rintro ⟨tag, member, after, less⟩
    have tagLong := long tag member
    have opens := apart tagLong.opens (by decide)
    have closes := apart tagLong.closes (by decide)
    exact tagLong.noBlankLine first last (by omega) (by omega) h
  have kept {k : Nat} (inside : first ≤ k) (before : k ≤ last)
      : (blankEnds (inRanges tags) s)[k]? = s[k]? := by
    simp [Text.getElem?_blankEnds, outside inside before]
  have less := Nat.le_of_lt h.before
  refine ⟨h.before, (kept (Nat.le_refl _) less).trans h.opens,
    (kept less (Nat.le_refl _)).trans h.closes, fun k c after before found => ?_⟩
  rw [kept (Nat.le_of_lt after) (Nat.le_of_lt before)] at found
  exact h.blank k c after before found

/-- No blanks in tags make a tag of what was none. -/
theorem IsLongTag.of_blankEnds (long : ∀ tag ∈ tags, IsLongTag s tag.1 tag.2)
    (starts : StartsLine s start) (h : IsLongTag (blankEnds (inRanges tags) s) start stop)
    : IsLongTag s start stop := by
  refine ⟨starts, ?_, ?_, fun first last after less isBlankLine => ?_⟩
  · have ends := h.ends
    rwa [Text.drop_blankEnds, Markup.findTagEnd?, tagEnd?_blankEnds (by rintro q ⟨⟩)] at ends
  · obtain ⟨i, after, less, feed⟩ := h.feed
    exact ⟨i, after, less, Text.getElem?_of_blankEnds feed (by decide)⟩
  · exact h.noBlankLine first last after less (isBlankLine_blankEnds long isBlankLine)

end

-----------------------------------------------------------------------------------------
-- What is joined
-----------------------------------------------------------------------------------------

/-- Joining a text, which is in the fenced code with the marker `fence` or in none, gives another
one: lines are kept or a tag is joined, with the rest of its last line, until nothing is left.
-/
inductive Joins : Option (List Char) → List Char → List Char → Prop where
  | nil (fence : Option (List Char)) : Joins fence [] []
  | line {fence : Option (List Char)} {line rest joined : List Char} (notNil : line ≠ [])
      (split : Text.firstLine (line ++ rest) = (line, rest))
      (kept : fence = none → leadingTag? (line ++ rest) = none)
      (later : Joins (fenceAfter fence line) rest joined)
      : Joins fence (line ++ rest) (line ++ joined)
  | tag {taken tail rest joined : List Char} {length : Nat}
      (found : leadingTag? (taken ++ (tail ++ rest)) = some length)
      (size : taken.length = indentOf (taken ++ (tail ++ rest)) + length)
      (split : Text.firstLine (tail ++ rest) = (tail, rest))
      (later : Joins none rest joined)
      : Joins none (taken ++ (tail ++ rest)) (flatten taken ++ (tail ++ joined))

theorem Joins.eq {fence : Option (List Char)} {s t : List Char} (h : Joins fence s t)
    : t = joinTagsFrom fence s := by
  induction h with
  | nil fence => exact (joinTagsFrom.eq_1 fence).symm
  | line notNil split kept _ ih =>
      rw [joinTagsFrom_firstLine (List.append_ne_nil_of_left_ne_nil notNil _) kept, split, ih]
  | tag found size split _ ih =>
      rw [joinTagsFrom_leadingTag found, ← size, List.take_left, List.drop_left, split, ih,
        List.append_assoc]

theorem exists_firstLine_eq (s : List Char)
    : ∃ line rest, s = line ++ rest ∧ Text.firstLine (line ++ rest) = (line, rest) := by
  have whole := Text.firstLine_append s
  refine ⟨(Text.firstLine s).1, (Text.firstLine s).2, whole.symm, ?_⟩
  rw [whole]

/-- Joining gives what it says. By induction on the length: a line or more is taken in each step. -/
theorem joins_joinTagsFrom (fence : Option (List Char)) (s : List Char)
    : Joins fence s (joinTagsFrom fence s) := by
  by_cases notNil : s = []
  · rw [notNil, joinTagsFrom]
    exact .nil fence
  by_cases kept : fence = none → leadingTag? s = none
  · obtain ⟨line, rest, rfl, split⟩ := exists_firstLine_eq s
    have lineNotNil : line ≠ [] := by
      rintro rfl
      obtain ⟨c, more, rfl⟩ := List.exists_cons_of_ne_nil notNil
      have shorter := Text.length_firstLine_lt c more
      rw [← List.nil_append (c :: more), split] at shorter
      exact Nat.lt_irrefl _ shorter
    have shorter : rest.length < (line ++ rest).length := by
      have positive := List.length_pos_of_ne_nil lineNotNil
      rw [List.length_append]
      omega
    rw [joinTagsFrom_firstLine notNil kept, split]
    exact .line lineNotNil split kept (joins_joinTagsFrom _ rest)
  · obtain ⟨rfl, many⟩ := Classical.not_imp.mp kept
    obtain ⟨length, found⟩ := Option.ne_none_iff_exists'.mp many
    obtain ⟨tail, rest, whole, split⟩ := exists_firstLine_eq (s.drop (indentOf s + length))
    have size := length_take_leadingTag found
    have cut := List.take_append_drop (indentOf s + length) s
    rw [whole] at cut
    have shorter : rest.length < s.length := by
      obtain ⟨stop, rfl, -⟩ := getElem?_of_leadingTag? found
      have all := congrArg List.length cut
      rw [List.length_append, List.length_append, size] at all
      omega
    have starts : leadingTag? (s.take (indentOf s + length) ++ (tail ++ rest)) = some length :=
      cut.symm ▸ found
    have joins := Joins.tag starts (cut.symm ▸ size) split (joins_joinTagsFrom none rest)
    rwa [cut, joins.eq] at joins
termination_by s.length

-----------------------------------------------------------------------------------------
-- What joining changes
-----------------------------------------------------------------------------------------

def shift (n : Nat) (tags : List (Nat × Nat)) : List (Nat × Nat) :=
  tags.map fun tag => (n + tag.1, n + tag.2)

theorem inRanges_append (first later : List (Nat × Nat)) (place : Nat)
    : inRanges (first ++ later) place = (inRanges first place || inRanges later place) :=
  List.any_append

theorem inRanges_shift (n : Nat) (tags : List (Nat × Nat)) (place : Nat)
    : inRanges (shift n tags) (place + n) = inRanges tags place := by
  rw [shift, inRanges, List.any_map, inRanges]
  refine congrArg _ (funext fun tag => ?_)
  simp [Nat.add_comm n]

theorem inRanges_shift_of_lt {n place : Nat} (before : place < n) (tags : List (Nat × Nat))
    : inRanges (shift n tags) place = false := by
  rw [← Bool.not_eq_true, inRanges_iff]
  rintro ⟨tag, member, after, -⟩
  obtain ⟨tag, -, rfl⟩ := List.mem_map.mp member
  omega

/-- Holds if a text is another one of which line ends in tags over several lines were made blanks.
-/
def OnlyTags (s t : List Char) : Prop :=
  ∃ tags, (∀ tag ∈ tags, IsLongTag s tag.1 tag.2) ∧ t = blankEnds (inRanges tags) s

/-- Whole lines and what follows them change in tags only, if tags in the lines do not go on. -/
theorem OnlyTags.append {lines rest joined : List Char} {tags : List (Nat × Nat)}
    (long : ∀ tag ∈ tags, IsLongTag (lines ++ rest) tag.1 tag.2 ∧ tag.2 < lines.length)
    (ends : rest ≠ [] → lines.getLast? = some '\n') (h : OnlyTags rest joined)
    : OnlyTags (lines ++ rest) (blankEnds (inRanges tags) lines ++ joined) := by
  obtain ⟨more, later, rfl⟩ := h
  refine ⟨tags ++ shift lines.length more, fun tag member => ?_, ?_⟩
  · rcases List.mem_append.mp member with first | shifted
    · exact (long tag first).1
    · obtain ⟨other, among, rfl⟩ := List.mem_map.mp shifted
      exact (later other among).after_lines ends
  · rw [Text.blankEnds_append]
    refine congrArg₂ _ (Text.blankEnds_congr fun i c found _ => ?_)
      (congrArg (blankEnds · rest) (funext fun i => ?_))
    · have inside := (List.getElem?_eq_some_iff.mp found).1
      rw [inRanges_append, inRanges_shift_of_lt inside, Bool.or_false]
    · have beyond : inRanges tags (i + lines.length) = false := by
        rw [← Bool.not_eq_true, inRanges_iff]
        rintro ⟨tag, member, -, less⟩
        exact absurd less (by have := (long tag member).2; omega)
      rw [inRanges_append, beyond, inRanges_shift, Bool.false_or]

theorem flatten_eq_blankEnds (s : List Char) : flatten s = blankEnds (fun _ => true) s := by
  refine List.ext_getElem? fun i => ?_
  simp [flatten, Text.getElem?_blankEnds]

theorem eq_space_of_lt_indentOf {s : List Char} {i : Nat} {c : Char} (before : i < indentOf s)
    (found : s[i]? = some c)
    : c = ' ' := by
  rw [← List.takeWhile_append_dropWhile (p := (· == ' ')) (l := s),
    List.getElem?_append_left before] at found
  simpa using List.mem_takeWhile_imp (List.mem_of_getElem? found)

/-- In a tag that starts a text, the line ends are those up to its end. -/
theorem flatten_eq_of_isLongTag {taken more : List Char} {stop : Nat}
    (h : IsLongTag (taken ++ more) (indentOf (taken ++ more)) stop) (size : taken.length = stop + 1)
    : flatten taken = blankEnds (inRanges [(indentOf (taken ++ more), stop)]) taken := by
  rw [flatten_eq_blankEnds]
  refine Text.blankEnds_congr fun i c found ends => ?_
  have inside : i < stop + 1 := by
    rw [← size]
    exact (List.getElem?_eq_some_iff.mp found).1
  have still : (taken ++ more)[i]? = taken[i]? := List.getElem?_append_left (size ▸ inside)
  rw [← still] at found
  have other {k : Nat} {x : Char} (there : (taken ++ more)[k]? = some x)
      (visible : x ≠ '\n' ∧ x ≠ '\r')
      : i ≠ k := by
    rintro rfl
    obtain rfl := Option.some.inj (there.symm.trans found)
    exact ends.elim visible.1 visible.2
  have notStart := other h.opens (by decide)
  have notStop := other h.closes (by decide)
  have notBefore : ¬i < indentOf (taken ++ more) := by
    intro before
    obtain rfl := eq_space_of_lt_indentOf before found
    exact absurd ends (by decide)
  refine (inRanges_iff.mpr ⟨_, List.mem_singleton_self _, ?_, ?_⟩).symm <;> simp only <;> omega

/-- Joining changes line ends in tags only. By induction on what is joined. -/
theorem Joins.onlyTags {fence : Option (List Char)} {s t : List Char} (h : Joins fence s t)
    : OnlyTags s t := by
  induction h with
  | nil fence => exact ⟨[], List.forall_mem_nil _, rfl⟩
  | @line fence line rest joined notNil split kept later ih =>
      have none : inRanges [] = fun _ => false := rfl
      have noTag
          : ∀ tag ∈ ([] : List (Nat × Nat)),
              IsLongTag (line ++ rest) tag.1 tag.2 ∧ tag.2 < line.length :=
        List.forall_mem_nil _
      have joins := ih.append noTag (Text.getLast?_of_firstLine split)
      rwa [none, Text.blankEnds_false] at joins
  | @tag taken tail rest joined length found size split later ih =>
      obtain ⟨stop, rfl, -⟩ := getElem?_of_leadingTag? found
      have long := leadingTag?_iff.mp found
      have oneTag
          : ∀ tag ∈ [(indentOf (taken ++ (tail ++ rest)),
                indentOf (taken ++ (tail ++ rest)) + (stop + 1))],
              IsLongTag (taken ++ tail ++ rest) tag.1 tag.2
              ∧ tag.2 < (taken ++ tail).length := by
        refine List.forall_mem_singleton.mpr ⟨(List.append_assoc taken tail rest).symm ▸ long, ?_⟩
        rw [List.length_append, size]
        omega
      have ends (more : rest ≠ []) : (taken ++ tail).getLast? = some '\n' := by
        rw [List.getLast?_append, Text.getLast?_of_firstLine split more]
        rfl
      have outside
          : blankEnds (fun i => inRanges [(indentOf (taken ++ (tail ++ rest)),
              indentOf (taken ++ (tail ++ rest)) + (stop + 1))] (i + taken.length)) tail
            = tail := by
        refine (Text.blankEnds_congr fun i c _ _ => ?_).trans (Text.blankEnds_false tail)
        simp [inRanges]
        omega
      have joins := ih.append oneTag ends
      rwa [Text.blankEnds_append, ← flatten_eq_of_isLongTag long size, List.append_assoc,
        List.append_assoc, outside] at joins

-----------------------------------------------------------------------------------------
-- Joining again
-----------------------------------------------------------------------------------------

theorem Joins.eq_nil {fence : Option (List Char)} {t : List Char} (h : Joins fence [] t)
    : t = [] := by
  rw [h.eq, joinTagsFrom]

/-- Joining does not make a tag start its first line that goes over several lines. -/
theorem leadingTag?_of_onlyTags {s t : List Char} (h : OnlyTags s t)
    (indent : indentOf t = indentOf s)
    (start : startsTag (t.drop (indentOf t)) = startsTag (s.drop (indentOf s)))
    {length : Nat} (found : leadingTag? t = some length)
    : leadingTag? s = some length := by
  obtain ⟨tags, long, rfl⟩ := h
  obtain ⟨shallow, tag, -⟩ := leadingTag?_eq_some_iff.mp found
  obtain ⟨stop, rfl, -⟩ := getElem?_of_leadingTag? found
  have longHere := leadingTag?_iff.mp found
  rw [indent] at longHere shallow
  exact leadingTag?_iff.mpr (longHere.of_blankEnds long
    (startsLine_indentOf_iff.mpr ⟨shallow, start.symm.trans tag⟩))

/-- What is joined stays if it is joined again. By induction on what is joined. -/
theorem Joins.again {fence : Option (List Char)} {s t : List Char} (h : Joins fence s t)
    : Joins fence t t := by
  have only := h.onlyTags
  induction h with
  | nil fence => exact .nil fence
  | @line fence line rest joined notNil split kept later ih =>
      have first : Text.firstLine (line ++ joined) = (line, joined) := by
        refine Text.firstLine_append_of_firstLine split ?_
        rintro rfl
        exact later.eq_nil
      have sameLine : (Text.firstLine (line ++ joined)).1 = (Text.firstLine (line ++ rest)).1 := by
        rw [first, split]
      have indent : indentOf (line ++ joined) = indentOf (line ++ rest) := by
        rw [← indentOf_firstLine, sameLine, indentOf_firstLine]
      have start
          : startsTag ((line ++ joined).drop (indentOf (line ++ joined)))
            = startsTag ((line ++ rest).drop (indentOf (line ++ rest))) := by
        rw [← startsTag_firstLine, sameLine, startsTag_firstLine]
      refine .line notNil first (fun outside => ?_) (ih later.onlyTags)
      by_contra many
      obtain ⟨length, found⟩ := Option.ne_none_iff_exists'.mp many
      have before := leadingTag?_of_onlyTags only indent start found
      rw [kept outside] at before
      cases before
  | @tag taken tail rest joined length found size split later ih =>
      obtain ⟨-, tag, -⟩ := leadingTag?_eq_some_iff.mp found
      obtain ⟨stop, rfl, -⟩ := getElem?_of_leadingTag? found
      have starts := startsTag_joined tag (List.append_nil _) (by omega)
      have first
          : Text.firstLine (flatten taken ++ tail ++ joined) = (flatten taken ++ tail, joined) := by
        have noFeed := unbroken_flatten taken
        rw [List.append_assoc, Text.firstLine_append_of_not_mem fun feed => (noFeed _ feed).1 rfl,
          Text.firstLine_append_of_firstLine split]
        rintro rfl
        exact later.eq_nil
      rw [← List.append_assoc (flatten taken)] at only ⊢
      refine .line ?_ first (fun _ => ?_) ?_
      · refine List.append_ne_nil_of_left_ne_nil (List.ne_nil_of_length_pos ?_) tail
        rw [length_flatten, size]
        omega
      · by_contra many
        obtain ⟨length, again⟩ := Option.ne_none_iff_exists'.mp many
        obtain ⟨indent, start⟩ := starts (tail ++ joined)
        rw [← List.append_assoc] at indent start
        have same := leadingTag?_of_onlyTags only indent (start.trans tag.symm) again
        obtain rfl := Option.some.inj (found.symm.trans same)
        have feed := feed_mem_of_leadingTag? again
        rw [indent, ← size, List.append_assoc, ← length_flatten, List.take_left] at feed
        exact (unbroken_flatten _ _ feed).1 rfl
      · rw [fenceAfter_of_startsTag (starts tail).2]
        exact ih later.onlyTags

-----------------------------------------------------------------------------------------
-- Places and offsets
-----------------------------------------------------------------------------------------

/-- The offsets of the `<` and the `>` of tags in the bytes of a text. -/
def byteRanges (s : List Char) (tags : List (Nat × Nat)) : List (Nat × Nat) :=
  tags.map fun tag => (Text.offsetOf s tag.1, Text.offsetOf s tag.2)

/-- A place is in a tag if its offset is between those of the tag. -/
theorem inRanges_byteRanges {s : List Char} {tags : List (Nat × Nat)}
    (long : ∀ tag ∈ tags, IsLongTag s tag.1 tag.2) {i : Nat} (inside : i < s.length)
    : inRanges (byteRanges s tags) (Text.offsetOf s i) = inRanges tags i := by
  rw [Bool.eq_iff_iff, inRanges_iff, inRanges_iff]
  have within {tag : Nat × Nat} (member : tag ∈ tags)
      : (Text.offsetOf s tag.1 < Text.offsetOf s i ∧ Text.offsetOf s i < Text.offsetOf s tag.2)
        ↔ tag.1 < i ∧ i < tag.2 := by
    have start := (List.getElem?_eq_some_iff.mp (long tag member).opens).1
    have stop := (List.getElem?_eq_some_iff.mp (long tag member).closes).1
    rw [Text.offsetOf_lt_iff (Nat.le_of_lt start) (Nat.le_of_lt inside),
      Text.offsetOf_lt_iff (Nat.le_of_lt inside) (Nat.le_of_lt stop)]
  constructor
  · rintro ⟨range, member, both⟩
    obtain ⟨tag, among, rfl⟩ := List.mem_map.mp member
    exact ⟨tag, among, (within among).mp both⟩
  · rintro ⟨tag, member, both⟩
    exact ⟨_, List.mem_map_of_mem member, (within member).mpr both⟩

theorem OnlyTags.exists_bytes {s t : List Char} (h : OnlyTags s t)
    : ∃ tags,
        (∀ tag ∈ tags, IsLongTag s tag.1 tag.2)
        ∧ Text.bytesOf t = blankEndBytes (inRanges (byteRanges s tags)) (Text.bytesOf s) := by
  obtain ⟨tags, long, rfl⟩ := h
  exact ⟨tags, long, Text.bytesOf_blankEnds fun i inside => inRanges_byteRanges long inside⟩

/-- Joining the tags of a body moves no byte: there are opening tags over several lines, each first
in its line and without a blank line in it, and the body is decoded from the bytes of the old one
with the line ends in these tags made blanks. So the body has as many bytes as before, and each of
them is the one before or a blank in place of a line end in such a tag. Joining again changes
nothing, since no such tag is left outside of what is taken for fenced code.
-/
theorem joinTags_keeps_offsets (body : List Char)
    : (∃ tags,
        (∀ tag ∈ tags, IsLongTag body tag.1 tag.2)
        ∧ Text.ofUtf8? (blankEndBytes (inRanges (byteRanges body tags)) (Text.bytesOf body))
          = some (String.ofList (joinTags body)))
      ∧ (Text.bytesOf (joinTags body)).length = (Text.bytesOf body).length
      ∧ (∀ i,
          (Text.bytesOf (joinTags body))[i]? = (Text.bytesOf body)[i]?
          ∨ ((Text.bytesOf body)[i]? = some 10 ∨ (Text.bytesOf body)[i]? = some 13)
            ∧ (Text.bytesOf (joinTags body))[i]? = some 32
            ∧ ∃ start stop,
                IsLongTag body start stop
                ∧ Text.offsetOf body start < i
                ∧ i < Text.offsetOf body stop)
      ∧ joinTags (joinTags body) = joinTags body
      ∧ ∀ before after,
          Text.linesWithEnds (joinTags body) = before ++ after →
          before.foldl fenceAfter none = none →
          ∀ stop, ¬IsLongTag after.flatten (indentOf after.flatten) stop := by
  have joins := joins_joinTagsFrom none body
  have again : joinTags (joinTags body) = joinTags body := joins.again.eq.symm
  obtain ⟨tags, long, bytes⟩ := joins.onlyTags.exists_bytes
  refine ⟨⟨tags, long, ?_⟩, ?_, fun i => ?_, again, fun before after split outside stop h => ?_⟩
  · rw [← bytes]
    exact Text.ofUtf8?_utf8 _
  · rw [joinTags, bytes, blankEndBytes, List.length_mapIdx]
  · rw [joinTags, bytes, blankEndBytes, List.getElem?_mapIdx]
    cases (Text.bytesOf body)[i]? with
    | none => exact .inl rfl
    | some b =>
        by_cases changed : ((b == 10 || b == 13) && inRanges (byteRanges body tags) i) = true
        · obtain ⟨lineEnd, inside⟩ := Bool.and_eq_true_iff.mp changed
          obtain ⟨range, member, after, less⟩ := inRanges_iff.mp inside
          obtain ⟨tag, among, rfl⟩ := List.mem_map.mp member
          refine .inr ⟨by simpa using lineEnd, ?_, tag.1, tag.2, long tag among, after, less⟩
          rw [Option.map_some, if_pos changed]
        · rw [Option.map_some, if_neg changed]
          exact .inl rfl
  · have none := (joinTagsFrom_eq_self_iff none).mp again before after split outside
    obtain ⟨n, -, place⟩ := Option.map_eq_some_iff.mp h.ends
    rw [← place, Nat.add_assoc (indentOf after.flatten), Nat.add_comm 1 n] at h
    rw [leadingTag?_iff.mpr h] at none
    cases none

-- The second tag has a blank line.
example : joinTags "<A\n x />\n\n<B\n\n>".toList = "<A  x />\n\n<B\n\n>".toList := by
  cbv

end Folio.Document
