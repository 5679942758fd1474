import Folio.Document.Body
import Folio.Proofs.Document.MarkupNames
import Folio.Proofs.Text.Blank
import Folio.Proofs.Text.Lines

/-! The joining of tags, line by line. A line is kept unless a tag starts it that goes over several
lines; then the lines of the tag become one, which starts with the tag too. Nothing is joined in
what is taken for fenced code, and each line says whether the next one is in such code.
-/

namespace Folio.Document

open Text (Unbroken unlines unlines_cons unlines_append)

-----------------------------------------------------------------------------------------
-- The start of a line
-----------------------------------------------------------------------------------------

/-- What follows a line does not change its indentation. -/
theorem indentOf_append_feed (line rest : List Char)
    : indentOf (line ++ '\n' :: rest) = indentOf line :=
  congrArg List.length (Text.takeWhile_append_feed rfl line rest)

/-- A text is indented as its first line is. -/
theorem indentOf_firstLine (s : List Char) : indentOf (Text.firstLine s).1 = indentOf s := by
  by_cases feed : '\n' ∈ s
  · obtain ⟨line, rest, rfl, noFeed⟩ := List.eq_append_cons_of_mem feed
    rw [Text.firstLine_append_feed noFeed, indentOf_append_feed, indentOf_append_feed]
  · rw [Text.firstLine_of_not_mem feed]

theorem indentOf_le (line : List Char) : indentOf line ≤ line.length :=
  (List.takeWhile_sublist _).length_le

theorem startsTag_iff {s : List Char}
    : startsTag s = true ↔ ∃ c rest, s = '<' :: c :: rest ∧ c.isAlpha = true := by
  unfold startsTag
  split
  · next c rest => simp
  · next other =>
      refine iff_of_false Bool.false_ne_true ?_
      rintro ⟨c, rest, rfl, -⟩
      exact other c rest rfl

theorem not_isBlank_of_isAlpha {c : Char} (h : c.isAlpha = true) : Text.isBlank c = false :=
  Markup.not_isBlank_of_isTagNameChar
    (Markup.isTagNameChar_of_isNameStart (Bool.or_eq_true_iff.mpr (.inl h)))

/-- A tag starts a line or does not, whatever blanks or lines follow. -/
theorem startsTag_trimEnd (s : List Char) : startsTag (Text.trimEnd s) = startsTag s := by
  rw [Bool.eq_iff_iff, startsTag_iff, startsTag_iff]
  constructor
  · rintro ⟨c, rest, trimmed, letter⟩
    obtain ⟨more, whole⟩ := Text.trimEnd_prefix s
    refine ⟨c, rest ++ more, ?_, letter⟩
    rw [← whole, trimmed, List.cons_append, List.cons_append]
  · rintro ⟨c, rest, rfl, letter⟩
    refine ⟨c, Text.trimEnd rest, ?_, letter⟩
    rw [Text.trimEnd_cons (by decide), Text.trimEnd_cons (not_isBlank_of_isAlpha letter)]

theorem startsTag_append_feed (s rest : List Char)
    : startsTag (s ++ '\n' :: rest) = startsTag s := by
  rw [Bool.eq_iff_iff, startsTag_iff, startsTag_iff]
  constructor
  · rintro ⟨c, more, whole, letter⟩
    match s with
    | [] => exact nomatch whole
    | [_] =>
        obtain ⟨-, rfl, -⟩ := whole
        exact nomatch letter
    | _ :: _ :: s =>
        obtain ⟨rfl, rfl, -⟩ := whole
        exact ⟨c, s, rfl, letter⟩
  · rintro ⟨c, more, rfl, letter⟩
    exact ⟨c, more ++ '\n' :: rest, rfl, letter⟩

theorem indentOf_append_tag {indent : List Char} (blank : ∀ x ∈ indent, (x == ' ') = true)
    (rest : List Char)
    : indentOf (indent ++ '<' :: rest) = indent.length := by
  rw [indentOf, List.takeWhile_append_of_pos blank, List.takeWhile_cons_of_neg (by decide),
    List.append_nil]

/-- A line starts with a tag if a tag stands in it after nothing but blanks. -/
theorem startsTag_drop_iff {line : List Char}
    : startsTag (line.drop (indentOf line)) = true
      ↔ ∃ indent c rest,
          line = indent ++ '<' :: c :: rest
          ∧ (∀ x ∈ indent, (x == ' ') = true)
          ∧ c.isAlpha = true := by
  constructor
  · intro start
    obtain ⟨c, rest, text, letter⟩ := startsTag_iff.mp start
    rw [indentOf, Text.drop_length_takeWhile] at text
    refine ⟨line.takeWhile (· == ' '), c, rest, ?_, fun x => List.mem_takeWhile_imp, letter⟩
    rw [← text, List.takeWhile_append_dropWhile]
  · rintro ⟨indent, c, rest, rfl, blank, letter⟩
    rw [indentOf_append_tag blank, List.drop_left]
    exact startsTag_iff.mpr ⟨c, rest, rfl, letter⟩

-----------------------------------------------------------------------------------------
-- The end of a tag
-----------------------------------------------------------------------------------------

namespace Markup

/-- The search for the end of a tag stops at a character, or goes on after it in some way. -/
theorem tagEnd?_cons (quote : Option Char) (depth : Nat) (escaped : Bool) (c : Char)
    : (c = '>' ∧ ∀ rest, tagEnd? quote depth escaped (c :: rest) = some 0)
      ∨ ∃ quote' depth' escaped', ∀ rest,
          tagEnd? quote depth escaped (c :: rest)
            = (tagEnd? quote' depth' escaped' rest).map (· + 1) := by
  by_cases ends : (quote.isNone && c == '>' && depth == 0) = true
  · refine .inl ⟨?_, fun rest => ?_⟩
    · simp only [Bool.and_eq_true, beq_iff_eq] at ends
      exact ends.1.2
    · simp only [tagEnd?, ends, if_true]
  · refine .inr ?_
    simp only [tagEnd?, if_neg ends]
    -- Both within quotes and outside of them one of four states follows.
    cases quote with
    | none | some q =>
        simp only
        split
        · exact ⟨_, _, _, fun rest => rfl⟩
        · split
          · exact ⟨_, _, _, fun rest => rfl⟩
          · split <;> exact ⟨_, _, _, fun rest => rfl⟩

/-- Where no `>` is, no tag ends. -/
theorem tagEnd?_eq_none {s : List Char} (h : '>' ∉ s) (quote : Option Char) (depth : Nat)
    (escaped : Bool)
    : tagEnd? quote depth escaped s = none := by
  induction s generalizing quote depth escaped with
  | nil => rfl
  | cons c s ih =>
      obtain ⟨notHere, notLater⟩ := not_or.mp (mt List.mem_cons.mpr h)
      rcases tagEnd?_cons quote depth escaped c with ⟨rfl, -⟩ | ⟨_, _, _, next⟩
      · exact absurd rfl notHere
      · rw [next, ih notLater]
        rfl

/-- A tag ends where it does, whatever follows, unless a `>` follows. -/
theorem tagEnd?_append {t : List Char} (h : '>' ∉ t) (s : List Char) (quote : Option Char)
    (depth : Nat) (escaped : Bool)
    : tagEnd? quote depth escaped (s ++ t) = tagEnd? quote depth escaped s := by
  induction s generalizing quote depth escaped with
  | nil => exact tagEnd?_eq_none h quote depth escaped
  | cons c s ih =>
      rw [List.cons_append]
      rcases tagEnd?_cons quote depth escaped c with ⟨-, ends⟩ | ⟨_, _, _, next⟩
      · rw [ends, ends]
      · rw [next, next, ih]

/-- A `>` stands where a tag ends. -/
theorem getElem?_of_tagEnd? {s : List Char} {quote : Option Char} {depth : Nat} {escaped : Bool}
    {stop : Nat} (h : tagEnd? quote depth escaped s = some stop)
    : s[stop]? = some '>' := by
  induction s generalizing quote depth escaped stop with
  | nil => cases h
  | cons c s ih =>
      rcases tagEnd?_cons quote depth escaped c with ⟨rfl, ends⟩ | ⟨_, _, _, next⟩
      · obtain rfl := Option.some.inj ((ends s).symm.trans h)
        rfl
      · obtain ⟨before, found, rfl⟩ := Option.map_eq_some_iff.mp ((next s).symm.trans h)
        exact ih found

end Markup

/-- A tag that goes over several lines ends with a `>`, and a line feed is in it. -/
theorem manyLineTag?_eq_some {s : List Char} {length : Nat} (h : manyLineTag? s = some length)
    : ∃ stop, length = stop + 2 ∧ s[stop + 1]? = some '>' ∧ '\n' ∈ s.take length := by
  unfold manyLineTag? at h
  split at h
  · cases h
  · next c after =>
      split at h
      · cases h
      · next stop found =>
          simp only at h
          split at h
          · cases h
          · next feed =>
              split at h
              · cases h
              · obtain rfl := Option.some.inj h
                rw [Bool.not_eq_true', Bool.not_eq_false, List.contains_iff_mem] at feed
                have ends : after[stop]? = some '>' := Markup.getElem?_of_tagEnd? found
                exact ⟨stop, rfl, List.getElem?_cons_succ.trans ends, feed⟩

/-- A tag goes over several lines or does not, whatever follows, unless a `>` follows. -/
theorem manyLineTag?_append {t : List Char} (h : '>' ∉ t) {s : List Char} (notNil : s ≠ [])
    : manyLineTag? (s ++ t) = manyLineTag? s := by
  cases s with
  | nil => exact absurd rfl notNil
  | cons c after =>
      have same : Markup.findTagEnd? (after ++ t) = Markup.findTagEnd? after :=
        Markup.tagEnd?_append h after none 0 false
      simp only [List.cons_append, manyLineTag?, same]
      split
      · rfl
      · next stop found =>
          obtain ⟨inside, -⟩ := List.getElem?_eq_some_iff.mp (Markup.getElem?_of_tagEnd? found)
          have taken : (c :: (after ++ t)).take (stop + 2) = (c :: after).take (stop + 2) := by
            rw [← List.cons_append, List.take_append_of_le_length]
            rw [List.length_cons]
            omega
          simp only [taken]

/-- The length of the tag that starts the first line of a text and goes over several. -/
def leadingTag? (s : List Char) : Option Nat :=
  let text := s.drop (indentOf s)
  if indentOf s < 4 && startsTag text then manyLineTag? text else none

theorem leadingTag?_eq_some_iff {s : List Char} {length : Nat}
    : leadingTag? s = some length
      ↔ indentOf s < 4
        ∧ startsTag (s.drop (indentOf s)) = true
        ∧ manyLineTag? (s.drop (indentOf s)) = some length := by
  simp [leadingTag?, and_assoc]

/-- What stands in a text where its first line starts, after the indentation of that line. -/
theorem drop_indentOf (line rest : List Char)
    : (line ++ '\n' :: rest).drop (indentOf line) = line.drop (indentOf line) ++ '\n' :: rest :=
  List.drop_append_of_le_length (indentOf_le line)

/-- Whether a tag starts a line that goes over several depends on the line and what follows it. -/
theorem leadingTag?_line (line rest : List Char)
    : leadingTag? (line ++ '\n' :: rest)
      = if indentOf line < 4 && startsTag (line.drop (indentOf line)) then
          manyLineTag? (line.drop (indentOf line) ++ '\n' :: rest)
        else none := by
  simp only [leadingTag?, indentOf_append_feed, drop_indentOf, startsTag_append_feed]

theorem leadingTag?_eq_some {line rest : List Char} {length : Nat}
    (h : leadingTag? (line ++ '\n' :: rest) = some length)
    : indentOf line < 4
      ∧ startsTag (line.drop (indentOf line)) = true
      ∧ manyLineTag? (line.drop (indentOf line) ++ '\n' :: rest) = some length := by
  have split := leadingTag?_eq_some_iff.mp h
  rwa [indentOf_append_feed, drop_indentOf, startsTag_append_feed] at split

/-- A line starts a tag or does not, whatever follows, unless a `>` follows. -/
theorem leadingTag?_append {t : List Char} (h : '>' ∉ t) (line rest : List Char)
    : leadingTag? (line ++ '\n' :: (rest ++ t)) = leadingTag? (line ++ '\n' :: rest) := by
  rw [leadingTag?_line, leadingTag?_line, ← List.cons_append, ← List.append_assoc,
    manyLineTag?_append h (by simp)]

-----------------------------------------------------------------------------------------
-- Lines
-----------------------------------------------------------------------------------------

/-- The marker of the fenced code that the line after a line is taken to be in, from that of the
line itself.
-/
def fenceAfter (fence : Option (List Char)) (line : List Char) : Option (List Char) :=
  let text := Text.trimEnd (line.drop (indentOf line))
  match fence with
  | some marker => if indentOf line < 4 && Text.startsWith marker text then none else some marker
  | none => if indentOf line < 4 then fenceMarker? text else none

/-- What starts with a tag does not start with a fence. -/
theorem fenceMarker?_of_startsTag {s : List Char} (h : startsTag s = true)
    : fenceMarker? s = none := by
  obtain ⟨c, rest, rfl, -⟩ := startsTag_iff.mp h
  simp [fenceMarker?]

theorem fenceAfter_of_startsTag {line : List Char}
    (start : startsTag (line.drop (indentOf line)) = true)
    : fenceAfter none line = none := by
  have marker := fenceMarker?_of_startsTag ((startsTag_trimEnd _).trans start)
  simp [fenceAfter, marker]

/-- A line feed does not count for the fence that a line is. -/
theorem fenceAfter_append_feed (fence : Option (List Char)) (line : List Char)
    : fenceAfter fence (line ++ ['\n']) = fenceAfter fence line := by
  simp only [fenceAfter, indentOf_append_feed, drop_indentOf, Text.trimEnd_append_feed]

/-- A tag starts a text if it starts the first line, blanks at the end of the line or not. -/
theorem startsTag_firstLine (s : List Char)
    : startsTag (Text.trimEnd ((Text.firstLine s).1.drop (indentOf (Text.firstLine s).1)))
      = startsTag (s.drop (indentOf s)) := by
  rw [startsTag_trimEnd]
  by_cases feed : '\n' ∈ s
  · obtain ⟨line, rest, rfl, noFeed⟩ := List.eq_append_cons_of_mem feed
    rw [Text.firstLine_append_feed noFeed]
    simp only [indentOf_append_feed, drop_indentOf, startsTag_append_feed]
  · rw [Text.firstLine_of_not_mem feed]

/-- The first line is kept, unless a tag starts it that is joined with the next lines. -/
theorem joinTagsFrom_firstLine {s : List Char} (notNil : s ≠ []) {fence : Option (List Char)}
    (kept : fence = none → leadingTag? s = none)
    : joinTagsFrom fence s
      = (Text.firstLine s).1
        ++ joinTagsFrom (fenceAfter fence (Text.firstLine s).1) (Text.firstLine s).2 := by
  have indent := indentOf_firstLine s
  have start := startsTag_firstLine s
  obtain ⟨c, rest, rfl⟩ := List.exists_cons_of_ne_nil notNil
  cases fence with
  | some marker =>
      rw [joinTagsFrom]
      rfl
  | none =>
      have noTag := kept rfl
      have after (line : List Char)
          : fenceAfter none line
            = if indentOf line < 4 then fenceMarker? (Text.trimEnd (line.drop (indentOf line)))
              else none :=
        rfl
      rw [leadingTag?, ← start, ← indent] at noTag
      rw [joinTagsFrom]
      simp only [noTag, ← after]
      cases fenceAfter none (Text.firstLine (c :: rest)).1 <;> simp

/-- A tag that goes over several lines is joined with what stands after it in its last line. -/
theorem joinTagsFrom_leadingTag {s : List Char} {length : Nat} (found : leadingTag? s = some length)
    : joinTagsFrom none s
      = flatten (s.take (indentOf s + length))
        ++ (Text.firstLine (s.drop (indentOf s + length))).1
        ++ joinTagsFrom none (Text.firstLine (s.drop (indentOf s + length))).2 := by
  have indent := indentOf_firstLine s
  have start := startsTag_firstLine s
  obtain ⟨-, tag, many⟩ := leadingTag?_eq_some_iff.mp found
  obtain ⟨stop, rfl, -, -⟩ := manyLineTag?_eq_some many
  have long : max (stop + 2) 1 = stop + 2 := by
    omega
  rw [leadingTag?, ← start, ← indent] at found
  rw [← start] at tag
  cases s with
  | nil => exact nomatch many
  | cons c rest =>
      rw [joinTagsFrom]
      simp only [found, long, fenceMarker?_of_startsTag tag, ite_self, Option.isSome_none,
        Bool.false_eq_true, if_false]
      rw [indent]

/-- A line is kept, unless a tag starts it that is joined with the next lines. -/
theorem joinTagsFrom_line {line : List Char} (noFeed : '\n' ∉ line) (rest : List Char)
    {fence : Option (List Char)}
    (kept : fence = none → leadingTag? (line ++ '\n' :: rest) = none)
    : joinTagsFrom fence (line ++ '\n' :: rest)
      = line ++ '\n' :: joinTagsFrom (fenceAfter fence line) rest := by
  rw [joinTagsFrom_firstLine (by simp) kept, Text.firstLine_append_feed noFeed,
    fenceAfter_append_feed, List.append_assoc, List.singleton_append]

-----------------------------------------------------------------------------------------
-- Texts of lines
-----------------------------------------------------------------------------------------

@[simp]
theorem length_flatten (s : List Char) : (flatten s).length = s.length :=
  List.length_map _

theorem unbroken_flatten (s : List Char) : Unbroken (flatten s) := by
  intro c member
  obtain ⟨x, -, rfl⟩ := List.mem_map.mp member
  split
  · decide
  · next other => simpa using other

theorem flatten_append (s t : List Char) : flatten (s ++ t) = flatten s ++ flatten t :=
  List.map_append

/-- What has no line end is not changed. -/
theorem flatten_of_unbroken {s : List Char} (h : Unbroken s) : flatten s = s := by
  refine (List.map_congr_left fun c member => ?_).trans (List.map_id s)
  obtain ⟨noFeed, noReturn⟩ := h c member
  simp [noFeed, noReturn]

/-- A line feed is in a tag that goes over several lines. -/
theorem feed_mem_of_leadingTag? {s : List Char} {length : Nat} (found : leadingTag? s = some length)
    : '\n' ∈ s.take (indentOf s + length) := by
  obtain ⟨-, -, many⟩ := leadingTag?_eq_some_iff.mp found
  obtain ⟨-, -, -, feed⟩ := manyLineTag?_eq_some many
  rw [List.take_add]
  exact List.mem_append_right _ feed

/-- A `>` stands where a tag ends that goes over several lines. -/
theorem getElem?_of_leadingTag? {s : List Char} {length : Nat} (found : leadingTag? s = some length)
    : ∃ stop, length = stop + 2 ∧ s[indentOf s + (stop + 1)]? = some '>' := by
  obtain ⟨-, -, many⟩ := leadingTag?_eq_some_iff.mp found
  obtain ⟨stop, rfl, close, -⟩ := manyLineTag?_eq_some many
  exact ⟨stop, rfl, List.getElem?_drop.symm.trans close⟩

theorem length_take_leadingTag {s : List Char} {length : Nat} (found : leadingTag? s = some length)
    : (s.take (indentOf s + length)).length = indentOf s + length := by
  obtain ⟨stop, rfl, close⟩ := getElem?_of_leadingTag? found
  obtain ⟨inside, -⟩ := List.getElem?_eq_some_iff.mp close
  exact List.length_take_of_le inside

/-- A tag that goes over several lines ends before the last line feed. -/
theorem lt_length_of_leadingTag? {s : List Char} {length : Nat}
    (found : leadingTag? s = some length) (ends : s.getLast? = some '\n')
    : indentOf s + length < s.length := by
  obtain ⟨stop, rfl, close⟩ := getElem?_of_leadingTag? found
  obtain ⟨inside, -⟩ := List.getElem?_eq_some_iff.mp close
  rw [List.getLast?_eq_getElem?] at ends
  apply Nat.lt_of_le_of_ne (by omega)
  intro same
  have place : indentOf s + (stop + 1) = s.length - 1 := by
    omega
  rw [place, ends] at close
  exact absurd close (by decide)

/-- A last line is kept, since no tag goes on after it. -/
theorem joinTagsFrom_last {line : List Char} (noFeed : '\n' ∉ line) (fence : Option (List Char))
    : joinTagsFrom fence (line ++ ['\n']) = line ++ ['\n'] := by
  have oneLine : leadingTag? (line ++ '\n' :: []) = none := by
    by_contra many
    obtain ⟨length, found⟩ := Option.ne_none_iff_exists'.mp many
    have feed := feed_mem_of_leadingTag? found
    have short := lt_length_of_leadingTag? found List.getLast?_concat
    rw [List.length_append, List.length_singleton, Nat.lt_succ_iff] at short
    rw [List.take_append_of_le_length short] at feed
    exact noFeed (List.mem_of_mem_take feed)
  rw [joinTagsFrom_line noFeed [] fun _ => oneLine, joinTagsFrom.eq_1]

/-- What a tag is joined to differs from what it was, since a line feed was in it. -/
theorem joinTagsFrom_leadingTag_ne {s : List Char} {length : Nat}
    (found : leadingTag? s = some length)
    : joinTagsFrom none s ≠ s := by
  rw [joinTagsFrom_leadingTag found, List.append_assoc]
  intro same
  have feed := feed_mem_of_leadingTag? found
  have whole := same.trans (List.take_append_drop (indentOf s + length) s).symm
  rw [← (List.append_inj whole (length_flatten _)).1] at feed
  exact (unbroken_flatten _ _ feed).1 rfl

/-- A text stays as it is exactly if no tag goes over several of its lines that starts a line
outside of what is taken for fenced code. By induction on the lines.
-/
theorem joinTagsFrom_eq_self_iff {s : List Char} (fence : Option (List Char))
    : joinTagsFrom fence s = s
      ↔ ∀ before after,
          Text.linesWithEnds s = before ++ after → before.foldl fenceAfter fence = none →
          leadingTag? after.flatten = none := by
  induction s using Text.linesWithEnds.induct generalizing fence with
  | case1 =>
      refine iff_of_true (joinTagsFrom.eq_1 fence) fun before after same _ => ?_
      rw [Text.linesWithEnds] at same
      obtain ⟨rfl, rfl⟩ := List.nil_eq_append_iff.mp same
      rfl
  | case2 c rest ih =>
      have lines := Text.linesWithEnds_eq_cons (List.cons_ne_nil c rest)
      by_cases kept : fence = none → leadingTag? (c :: rest) = none
      · have same := joinTagsFrom_firstLine (List.cons_ne_nil c rest) kept
        conv => lhs; rhs; rw [← Text.firstLine_append (c :: rest)]
        rw [same, List.append_right_inj, ih, lines]
        constructor
        · intro all before after split closed
          cases before with
          | nil =>
              rw [← lines, List.nil_append] at split
              rw [← split, Text.flatten_linesWithEnds]
              exact kept closed
          | cons first before =>
              obtain ⟨rfl, later⟩ := List.cons.inj split
              exact all before after later closed
        · intro all before after split closed
          exact all (_ :: before) after (congrArg _ split) closed
      · obtain ⟨rfl, many⟩ := Classical.not_imp.mp kept
        obtain ⟨length, found⟩ := Option.ne_none_iff_exists'.mp many
        refine iff_of_false (joinTagsFrom_leadingTag_ne found) fun all => ?_
        have none := all [] _ rfl rfl
        rw [Text.flatten_linesWithEnds] at none
        exact many none

theorem joinTagsFrom_unlines_eq_self_iff {lines : List (List Char)}
    (noFeed : ∀ line ∈ lines, '\n' ∉ line) (fence : Option (List Char))
    : joinTagsFrom fence (unlines lines) = unlines lines
      ↔ ∀ before after, lines = before ++ after → before.foldl fenceAfter fence = none →
          leadingTag? (unlines after) = none := by
  have ends (lines : List (List Char)) : (lines.map (· ++ ['\n'])).flatten = unlines lines :=
    List.flatMap_def.symm
  have fences (lines : List (List Char))
      : (lines.map (· ++ ['\n'])).foldl fenceAfter fence = lines.foldl fenceAfter fence := by
    rw [List.foldl_map]
    simp only [fenceAfter_append_feed]
  rw [joinTagsFrom_eq_self_iff, Text.linesWithEnds_unlines noFeed]
  constructor
  · rintro all before after rfl closed
    rw [← ends]
    exact all _ _ List.map_append ((fences before).trans closed)
  · intro all before after split closed
    obtain ⟨first, later, rfl, rfl, rfl⟩ := List.map_eq_append_iff.mp split
    rw [ends]
    exact all first later rfl ((fences first).symm.trans closed)

/-- Lines of which a tag is joined with the rest of its last line, `tail`. -/
theorem joinTagsFrom_joined {line rest taken tail more : List Char} {length : Nat}
    (found : leadingTag? (line ++ '\n' :: rest) = some length)
    (whole : line ++ '\n' :: rest = taken ++ (tail ++ '\n' :: more))
    (place : taken.length = indentOf line + length) (tailNoFeed : '\n' ∉ tail)
    : joinTagsFrom none (line ++ '\n' :: rest)
      = (flatten taken ++ tail) ++ '\n' :: joinTagsFrom none more := by
  rw [joinTagsFrom_leadingTag found, indentOf_append_feed, ← place, whole, List.take_left,
    List.drop_left, Text.firstLine_append_feed tailNoFeed]
  simp only [List.append_assoc, List.singleton_append]

/-- A tag starts the line that a tag was joined to, where it stood. -/
theorem startsTag_joined {line : List Char} (start : startsTag (line.drop (indentOf line)) = true)
    {rest taken more : List Char} (whole : line ++ rest = taken ++ more)
    (long : indentOf line + 2 ≤ taken.length) (tail : List Char)
    : indentOf (flatten taken ++ tail) = indentOf line
      ∧ startsTag ((flatten taken ++ tail).drop (indentOf (flatten taken ++ tail))) = true := by
  obtain ⟨indent, c, text, rfl, blank, letter⟩ := startsTag_drop_iff.mp start
  have unbroken : Unbroken (indent ++ ['<', c]) := by
    refine .append (fun x member => ?_) (.cons (by decide) (.cons ?_ Text.unbroken_nil))
    · obtain rfl : x = ' ' := by simpa using blank x member
      decide
    · constructor <;> rintro rfl <;> exact absurd letter (by decide)
  have front : indent ++ '<' :: c :: text = (indent ++ ['<', c]) ++ text := by
    rw [List.append_assoc]
    rfl
  rw [front] at whole
  rw [indentOf_append_tag blank] at long
  obtain ⟨others, rfl⟩ : indent ++ ['<', c] <+: taken := by
    have front := (List.append_assoc (indent ++ ['<', c]) text rest).symm
    refine List.prefix_of_prefix_length_le ⟨text ++ rest, front⟩ ⟨more, whole.symm⟩ ?_
    rw [List.length_append]
    exact long
  have text
      : flatten (indent ++ ['<', c] ++ others) ++ tail
        = indent ++ '<' :: c :: (flatten others ++ tail) := by
    rw [flatten_append, flatten_of_unbroken unbroken, List.append_assoc, List.append_assoc]
    rfl
  refine ⟨?_, startsTag_drop_iff.mpr ⟨indent, c, _, text, blank, letter⟩⟩
  rw [text, indentOf_append_tag blank, indentOf_append_tag blank]

/-- The lines of a tag are joined to one, which starts with the tag, and fewer lines are left. No
text without a `>` that follows them changes this.
-/
theorem exists_joined_tag {line : List Char} {rest : List (List Char)}
    (unbroken : ∀ other ∈ line :: rest, Unbroken other) {length : Nat}
    (found : leadingTag? (line ++ '\n' :: unlines rest) = some length)
    : ∃ joined more,
        (∀ t, '>' ∉ t
          → joinTagsFrom none (line ++ '\n' :: (unlines rest ++ t))
            = joined ++ '\n' :: joinTagsFrom none (unlines more ++ t))
        ∧ more <:+ line :: rest
        ∧ more.length < (line :: rest).length
        ∧ Unbroken joined
        ∧ startsTag (joined.drop (indentOf joined)) = true := by
  obtain ⟨-, start, many⟩ := leadingTag?_eq_some found
  obtain ⟨stop, rfl, -, -⟩ := manyLineTag?_eq_some many
  have inside : indentOf line + (stop + 2) < (unlines (line :: rest)).length := by
    have ends := Text.getLast?_unlines (List.cons_ne_nil line rest)
    rw [unlines_cons] at ends ⊢
    rw [← indentOf_append_feed line (unlines rest)]
    exact lt_length_of_leadingTag? found ends
  obtain ⟨taken, tail, more, cut, place, ⟨other, member, within⟩, suffix, fewer⟩ :=
    Text.exists_line_of_lt inside
  rw [unlines_cons] at cut
  have tailUnbroken : Unbroken tail := fun x inTail =>
    unbroken other member x (within.mem inTail)
  refine ⟨flatten taken ++ tail, more, fun t noEnd => ?_, suffix, fewer,
    (unbroken_flatten taken).append tailUnbroken,
    (startsTag_joined start cut (by omega) tail).2⟩
  have cutBefore
      : line ++ '\n' :: (unlines rest ++ t) = taken ++ (tail ++ '\n' :: (unlines more ++ t)) := by
    rw [← List.cons_append, ← List.append_assoc, cut]
    simp only [List.append_assoc, List.cons_append]
  rw [← leadingTag?_append noEnd] at found
  exact joinTagsFrom_joined found cutBefore place
    tailUnbroken.isLine.noFeed

/-- Lines are joined to lines, whatever text without a `>` follows. What is joined starts with a
tag. By induction on the number of lines: a tag that is joined takes at least one of them.
-/
theorem exists_joined {code : List (List Char)} (unbroken : ∀ line ∈ code, Unbroken line)
    (fence : Option (List Char))
    : ∃ joined last,
        (∀ t, '>' ∉ t
          → joinTagsFrom fence (unlines code ++ t) = unlines joined ++ joinTagsFrom last t)
        ∧ (joined = [] → code = [])
        ∧ ∀ line ∈ joined,
            line ∈ code
            ∨ Unbroken line ∧ startsTag (line.drop (indentOf line)) = true := by
  match code with
  | [] => exact ⟨[], fence, fun _ _ => rfl, fun _ => rfl, List.forall_mem_nil _⟩
  | line :: rest =>
      obtain ⟨first, later⟩ := List.forall_mem_cons.mp unbroken
      by_cases kept : fence = none → leadingTag? (line ++ '\n' :: unlines rest) = none
      · obtain ⟨joined, last, texts, -, lines⟩ := exists_joined later (fenceAfter fence line)
        refine ⟨line :: joined, last, fun t noEnd => ?_, (absurd · (List.cons_ne_nil _ _)), ?_⟩
        · rw [← leadingTag?_append noEnd] at kept
          rw [unlines_cons, List.append_assoc, List.cons_append,
            joinTagsFrom_line first.isLine.noFeed _ kept, texts t noEnd, unlines_cons,
            List.append_assoc, List.cons_append]
        · refine List.forall_mem_cons.mpr ⟨.inl List.mem_cons_self, fun other member => ?_⟩
          exact (lines other member).imp_left (List.mem_cons_of_mem line)
      · obtain ⟨rfl, many⟩ := Classical.not_imp.mp kept
        obtain ⟨length, found⟩ := Option.ne_none_iff_exists'.mp many
        obtain ⟨tag, more, tagTexts, suffix, fewer, tagUnbroken, start⟩ :=
          exists_joined_tag unbroken found
        obtain ⟨joined, last, texts, -, lines⟩ :=
          exists_joined (fun line member => unbroken line (suffix.mem member)) none
        refine ⟨tag :: joined, last, fun t noEnd => ?_, (absurd · (List.cons_ne_nil _ _)), ?_⟩
        · rw [unlines_cons, List.append_assoc, List.cons_append, tagTexts t noEnd, texts t noEnd,
            unlines_cons, List.append_assoc, List.cons_append]
        · refine List.forall_mem_cons.mpr ⟨.inr ⟨tagUnbroken, start⟩, fun other member => ?_⟩
          exact (lines other member).imp_left suffix.mem
termination_by code.length
decreasing_by
  · exact Nat.lt_succ_self rest.length
  · exact fewer

end Folio.Document
