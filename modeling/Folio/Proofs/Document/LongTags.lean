import Folio.Proofs.Document.TagJoining
import Folio.Proofs.Text.Lines

/-! Opening tags that start a line and go on to a later one, with no blank line in them, by the
places of their `<` and `>`. A text starts with such a tag exactly if the search for tags to join
finds it.
-/

namespace Folio.Document

open Text (IsBlankLine)

-----------------------------------------------------------------------------------------
-- Tags that go over several lines
-----------------------------------------------------------------------------------------

/-- Holds for the place of a `<` that a letter follows and that stands first in its line, indented
by at most three blanks.
-/
def StartsLine (s : List Char) (start : Nat) : Prop :=
  ∃ before indent c rest,
    s = before ++ (indent ++ '<' :: c :: rest)
    ∧ (before = [] ∨ before.getLast? = some '\n')
    ∧ (∀ x ∈ indent, (x == ' ') = true)
    ∧ indent.length < 4
    ∧ c.isAlpha = true
    ∧ start = before.length + indent.length

/-- Holds for the places of the `<` and the `>` of an opening tag that starts a line, indented by at
most three blanks, and goes on to a later line, with no blank line in it.
-/
structure IsLongTag (s : List Char) (start stop : Nat) : Prop where
  starts : StartsLine s start
  ends : (Markup.findTagEnd? (s.drop (start + 1))).map (start + 1 + ·) = some stop
  feed : ∃ i, start < i ∧ i < stop ∧ s[i]? = some '\n'
  noBlankLine : ∀ first last, start < first → last < stop → ¬IsBlankLine s first last

namespace IsLongTag

variable {s : List Char} {start stop : Nat}

theorem opens (h : IsLongTag s start stop) : s[start]? = some '<' := by
  obtain ⟨before, indent, c, rest, rfl, -, -, -, -, rfl⟩ := h.starts
  rw [← List.append_assoc, ← List.length_append, List.getElem?_append_right (Nat.le_refl _),
    Nat.sub_self]
  rfl

theorem closes (h : IsLongTag s start stop) : s[stop]? = some '>' := by
  obtain ⟨n, found, rfl⟩ := Option.map_eq_some_iff.mp h.ends
  rw [← List.getElem?_drop]
  exact Markup.getElem?_of_tagEnd? found

/-- A tag stands at the same place in what comes after whole lines. -/
theorem after_lines (h : IsLongTag s start stop) {lines : List Char}
    (ends : s ≠ [] → lines.getLast? = some '\n')
    : IsLongTag (lines ++ s) (lines.length + start) (lines.length + stop) := by
  obtain ⟨⟨before, indent, c, rest, split, lineStart, blank, shallow, letter, place⟩, stops,
    ⟨i, after, less, feed⟩, noBlankLine⟩ := h
  have later (n : Nat) : (lines ++ s).drop (lines.length + n) = s.drop n := by
    rw [← List.drop_drop, List.drop_left]
  refine ⟨⟨lines ++ before, indent, c, rest, ?_, .inr ?_, blank, shallow, letter, ?_⟩, ?_, ?_, ?_⟩
  · rw [split, List.append_assoc]
  · rw [List.getLast?_append]
    rcases lineStart with rfl | feed
    · exact ends (by simp [split])
    · rw [feed]
      rfl
  · rw [place, List.length_append, Nat.add_assoc]
  · have shift : lines.length + start + 1 = lines.length + (start + 1) := rfl
    obtain ⟨n, found, rfl⟩ := Option.map_eq_some_iff.mp stops
    rw [shift, later, found, Option.map_some, Nat.add_assoc lines.length]
  · refine ⟨lines.length + i, Nat.add_lt_add_left after _, Nat.add_lt_add_left less _, ?_⟩
    rw [List.getElem?_append_right (Nat.le_add_right _ _), Nat.add_sub_cancel_left, feed]
  · intro first last afterStart beforeStop isBlankLine
    obtain ⟨first, rfl⟩ := Nat.exists_eq_add_of_le (n := first) (m := lines.length) (by omega)
    obtain ⟨last, rfl⟩ := Nat.exists_eq_add_of_le (n := last) (m := lines.length)
      (by have := isBlankLine.before; omega)
    rw [← Text.isBlankLine_drop, List.drop_left] at isBlankLine
    exact noBlankLine first last (by omega) (by omega) isBlankLine

end IsLongTag

/-- What a tag that goes over several lines is. -/
theorem manyLineTag?_iff {c : Char} {after : List Char} {stop : Nat}
    : manyLineTag? (c :: after) = some (stop + 2)
      ↔ Markup.findTagEnd? after = some stop
        ∧ '\n' ∈ (c :: after).take (stop + 2)
        ∧ ((Text.lines ((c :: after).take (stop + 2))).drop 1).any Text.isAllBlank = false := by
  unfold manyLineTag?
  simp only
  split
  · next none => simp [none]
  · next other found =>
      rw [found, Option.some_inj]
      split
      · next noFeed =>
          refine iff_of_false (by simp) ?_
          rintro ⟨rfl, feed, -⟩
          rw [List.contains_iff_mem.mpr feed] at noFeed
          cases noFeed
      · next feed =>
          split
          · next blank =>
              refine iff_of_false (by simp) ?_
              rintro ⟨rfl, -, noBlank⟩
              exact absurd (blank.symm.trans noBlank) (by decide)
          · next noBlank =>
              rw [Option.some_inj]
              constructor
              · intro same
                obtain rfl : other = stop := by omega
                rw [Bool.not_eq_true', Bool.not_eq_false, List.contains_iff_mem] at feed
                exact ⟨rfl, feed, eq_false_of_ne_true noBlank⟩
              · rintro ⟨rfl, -, -⟩
                rfl

section

variable {s : List Char} {start stop : Nat}

theorem feed_mem_tag_iff (opens : s[start]? = some '<') (closes : s[start + (stop + 1)]? = some '>')
    : '\n' ∈ (s.drop start).take (stop + 2)
      ↔ ∃ i, start < i ∧ i < start + (stop + 1) ∧ s[i]? = some '\n' := by
  constructor
  · intro member
    obtain ⟨k, found⟩ := List.getElem?_of_mem member
    obtain ⟨within, -⟩ := List.getElem?_eq_some_iff.mp found
    have less : k < stop + 2 := Nat.lt_of_lt_of_le within (List.length_take_le _ _)
    rw [List.getElem?_take_of_lt less, List.getElem?_drop] at found
    refine ⟨start + k, Nat.lt_of_le_of_ne (Nat.le_add_right _ _) ?_, ?_, found⟩
    · intro same
      rw [← same, opens] at found
      exact absurd found (by decide)
    · refine Nat.lt_of_le_of_ne (Nat.add_le_add_left (Nat.le_of_lt_succ less) start) ?_
      intro same
      rw [same, closes] at found
      exact absurd found (by decide)
  · rintro ⟨i, after, less, found⟩
    obtain ⟨k, rfl⟩ := Nat.exists_eq_add_of_lt after
    rw [Nat.add_assoc, ← List.getElem?_drop,
      ← List.getElem?_take_of_lt (show k + 1 < stop + 2 by omega)] at found
    exact List.mem_of_getElem? found

theorem blankLine_tag_iff (opens : s[start]? = some '<')
    (closes : s[start + (stop + 1)]? = some '>')
    : ((Text.lines ((s.drop start).take (stop + 2))).drop 1).any Text.isAllBlank = false
      ↔ ∀ first last, start < first → last < start + (stop + 1) → ¬IsBlankLine s first last := by
  have long : stop + 1 < (s.drop start).length := by
    rw [← List.getElem?_drop] at closes
    exact (List.getElem?_eq_some_iff.mp closes).1
  have last : ((s.drop start).take (stop + 2)).getLast? = some '>' := by
    rw [List.getLast?_eq_getElem?, List.length_take_of_le long, Nat.succ_sub_one,
      List.getElem?_take_of_lt (Nat.lt_succ_self _), List.getElem?_drop]
    exact closes
  rw [← Bool.not_eq_true, Text.any_isAllBlank_lines_iff last (by decide)]
  constructor
  · rintro none first last after less isBlankLine
    obtain ⟨a, rfl⟩ := Nat.exists_eq_add_of_le (Nat.le_of_lt after)
    obtain ⟨b, rfl⟩ := Nat.exists_eq_add_of_le
      (Nat.le_of_lt (Nat.lt_trans after isBlankLine.before))
    refine none ⟨a, b, Text.isBlankLine_take.mpr ⟨by omega, ?_⟩⟩
    exact Text.isBlankLine_drop.mpr isBlankLine
  · rintro none ⟨a, b, isBlankLine⟩
    obtain ⟨less, isBlankLine⟩ := Text.isBlankLine_take.mp isBlankLine
    rw [Text.isBlankLine_drop] at isBlankLine
    -- The places of `<` and `>` are none of line feeds.
    refine none (start + a) (start + b) ?_ ?_ isBlankLine
    · refine Nat.lt_of_le_of_ne (Nat.le_add_right _ _) fun same => ?_
      have feed := isBlankLine.opens
      rw [← same, opens] at feed
      exact absurd feed (by decide)
    · refine Nat.lt_of_le_of_ne (by omega) fun same => ?_
      have feed := isBlankLine.closes
      rw [same, closes] at feed
      exact absurd feed (by decide)

theorem startsLine_indentOf_iff
    : StartsLine s (indentOf s) ↔ indentOf s < 4 ∧ startsTag (s.drop (indentOf s)) = true := by
  rw [startsTag_drop_iff]
  constructor
  · rintro ⟨before, indent, c, rest, split, lineStart, blank, shallow, letter, place⟩
    obtain rfl : before = [] := by
      refine lineStart.resolve_right fun feed => ?_
      have inside : before <+: s.takeWhile (· == ' ') := by
        refine List.prefix_of_prefix_length_le ⟨_, split.symm⟩ (List.takeWhile_prefix _) ?_
        rw [indentOf] at place
        omega
      have space := List.mem_takeWhile_imp (inside.mem (List.mem_of_getLast? feed))
      exact absurd space (by decide)
    rw [List.nil_append] at split
    rw [place, List.length_nil, Nat.zero_add]
    exact ⟨shallow, indent, c, rest, split, blank, letter⟩
  · rintro ⟨shallow, indent, c, rest, rfl, blank, letter⟩
    rw [indentOf_append_tag blank] at shallow ⊢
    exact ⟨[], indent, c, rest, rfl, .inl rfl, blank, shallow, letter, (Nat.zero_add _).symm⟩

/-- A tag that starts the first line of a text and goes over several lines, as the search for it has
it.
-/
theorem leadingTag?_iff
    : leadingTag? s = some (stop + 2) ↔ IsLongTag s (indentOf s) (indentOf s + (stop + 1)) := by
  by_cases starts : indentOf s < 4 ∧ startsTag (s.drop (indentOf s)) = true
  · obtain ⟨c, more, text, letter⟩ := startsTag_iff.mp starts.2
    have opens : s[indentOf s]? = some '<' := by
      rw [← Nat.add_zero (indentOf s), ← List.getElem?_drop, text]
      rfl
    have after : s.drop (indentOf s + 1) = c :: more := by
      rw [← List.drop_drop, text]
      rfl
    have found : leadingTag? s = manyLineTag? ('<' :: s.drop (indentOf s + 1)) := by
      rw [leadingTag?, after, ← text]
      simp [starts]
    rw [found, manyLineTag?_iff, after, ← text, ← after]
    have place {n : Nat}
        : indentOf s + 1 + n = indentOf s + (stop + 1) ↔ n = stop := by
      omega
    have ends
        : Markup.findTagEnd? (s.drop (indentOf s + 1)) = some stop
          ↔ (Markup.findTagEnd? (s.drop (indentOf s + 1))).map (indentOf s + 1 + ·)
            = some (indentOf s + (stop + 1)) := by
      simp [Option.map_eq_some_iff, place]
    constructor
    · rintro ⟨stops, feed, noBlank⟩
      have closes : s[indentOf s + (stop + 1)]? = some '>' := by
        have last := Markup.getElem?_of_tagEnd? stops
        rwa [List.getElem?_drop, Nat.add_assoc, Nat.add_comm 1] at last
      exact ⟨startsLine_indentOf_iff.mpr starts, ends.mp stops,
        (feed_mem_tag_iff opens closes).mp feed,
        (blankLine_tag_iff opens closes).mp noBlank⟩
    · intro h
      exact ⟨ends.mpr h.ends, (feed_mem_tag_iff opens h.closes).mpr h.feed,
        (blankLine_tag_iff opens h.closes).mpr h.noBlankLine⟩
  · refine iff_of_false ?_ fun h => starts (startsLine_indentOf_iff.mp h.starts)
    rw [leadingTag?]
    simp [starts]

end

end Folio.Document
