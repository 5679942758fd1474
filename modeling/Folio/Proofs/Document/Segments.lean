import Folio.Proofs.Document.SlicedTokens

/-! Markup as segments one after the other: comments, tags, and the texts between them. Each
character of the markup is in one of them, and the tokens of the markup are those of its segments,
each where its segment starts.
-/

namespace Folio.Document.Markup

-----------------------------------------------------------------------------------------
-- Segments and their tokens
-----------------------------------------------------------------------------------------

inductive Segment where
  | comment (text : List Char)
  | tag (text : List Char) (token : Token)
  | text (text : List Char)

namespace Segment

def source : Segment → List Char
  | .comment s | .tag s _ | .text s => s

/-- The token of a segment. Comments and blank texts have none; a text of several lines is trimmed
line by line, and the lines that are left are joined by blanks.
-/
def token? : Segment → Option Token
  | .comment _ => none
  | .tag _ token => some token
  | .text s =>
      if Text.isAllBlank s then none
      else if '\n' ∈ s then
        some (.text (decodeEntities (Text.joinWith [' ']
          (((Text.lines s).map Text.trim).filter fun line => !line.isEmpty))))
      else some (.text (decodeEntities s))

end Segment

def sources (segments : List Segment) : List Char :=
  segments.flatMap Segment.source

def segmentTokens (offset : Nat) : List Segment → List Placed
  | [] => []
  | segment :: rest =>
      (segment.token?.map (Placed.mk offset)).toList
        ++ segmentTokens (offset + Text.size segment.source) rest

/-- Holds if no comment or tag starts in a text where markup goes on with another text. -/
def IsUnmarked (text following : List Char) : Prop :=
  ∀ before after, text = before ++ '<' :: after → marked? ('<' :: after ++ following) = none

/-- Holds if markup consists of segments: comments and tags are whole, and texts go on to the next
of them, or to the end, with no comment or tag in them.
-/
inductive Tiling : List Segment → Prop where
  | nil : Tiling []
  | comment {text : List Char} {rest : List Segment} (isComment : IsComment text (sources rest))
      (later : Tiling rest)
      : Tiling (.comment text :: rest)
  | tag {text : List Char} {token : Token} {rest : List Segment} (isTag : IsTag text token)
      (later : Tiling rest)
      : Tiling (.tag text token :: rest)
  | text {text : List Char} {rest : List Segment} (notNil : text ≠ [])
      (unmarked : IsUnmarked text (sources rest))
      (apart : ∀ other more, rest ≠ .text other :: more)
      (later : Tiling rest)
      : Tiling (.text text :: rest)

theorem textToken_eq (offset : Nat) (text : List Char)
    : textToken offset text
      = ((Segment.text text).token?.map (Placed.mk offset)).toList := by
  simp only [textToken, Segment.token?, List.contains_iff_mem]
  split
  · rfl
  · split <;> rfl

-----------------------------------------------------------------------------------------
-- Tokens in order
-----------------------------------------------------------------------------------------

theorem le_offset_of_mem {segments : List Segment} {offset : Nat}
    : ∀ placed ∈ segmentTokens offset segments, offset ≤ placed.offset := by
  induction segments generalizing offset with
  | nil => exact List.forall_mem_nil _
  | cons segment rest ih =>
      refine List.forall_mem_append.mpr ⟨fun placed member => ?_, fun placed member => ?_⟩
      · obtain ⟨token, -, rfl⟩ := Option.map_eq_some_iff.mp (Option.mem_toList.mp member)
        exact Nat.le_refl offset
      · exact Nat.le_trans (Nat.le_add_right _ _) (ih placed member)

theorem Tiling.of_cons {segment : Segment} {rest : List Segment} (h : Tiling (segment :: rest))
    : segment.source ≠ [] ∧ Tiling rest := by
  cases h with
  | comment isComment later =>
      refine ⟨?_, later⟩
      rintro rfl
      exact absurd isComment.opens (by decide)
  | tag isTag later =>
      refine ⟨?_, later⟩
      rintro rfl
      cases isTag.opens
  | text notNil _ _ later => exact ⟨notNil, later⟩

/-- Since segments have characters, a token is before those of later segments. By induction on the
segments.
-/
theorem Tiling.pairwise {segments : List Segment} (h : Tiling segments) (offset : Nat)
    : (segmentTokens offset segments).Pairwise (·.offset < ·.offset) := by
  induction segments generalizing offset with
  | nil => exact .nil
  | cons segment rest ih =>
      obtain ⟨notNil, later⟩ := h.of_cons
      have positive := Text.size_pos notNil
      refine List.pairwise_append.mpr ⟨?_, ih later _, fun placed first other member => ?_⟩
      · cases segment.token? with
        | none => exact .nil
        | some token => exact List.pairwise_singleton _ _
      · obtain ⟨token, -, rfl⟩ := Option.map_eq_some_iff.mp (Option.mem_toList.mp first)
        have after := le_offset_of_mem other member
        exact Nat.lt_of_lt_of_le (Nat.lt_add_of_pos_right positive) after

-----------------------------------------------------------------------------------------
-- Segments that are read
-----------------------------------------------------------------------------------------

def textSegment (text : List Char) : List Segment :=
  if text = [] then [] else [.text text]

section

variable {text : List Char} {rest : List Segment}

theorem sources_textSegment (text : List Char) (rest : List Segment)
    : sources (textSegment text ++ rest) = text ++ sources rest := by
  unfold textSegment
  split
  · next nothing => rw [nothing]; rfl
  · rfl

theorem segmentTokens_textSegment (offset : Nat) (text : List Char) (rest : List Segment)
    : segmentTokens offset (textSegment text ++ rest)
      = textToken offset text ++ segmentTokens (offset + Text.size text) rest := by
  rw [textToken_eq]
  unfold textSegment
  split
  · next nothing => rw [nothing]; rfl
  · rfl

theorem Tiling.textSegment_append (unmarked : IsUnmarked text (sources rest))
    (apart : ∀ other more, rest ≠ .text other :: more) (later : Tiling rest)
    : Tiling (textSegment text ++ rest) := by
  unfold textSegment
  split
  · exact later
  · next notNil => exact .text notNil unmarked apart later

end

theorem isUnmarked_nil (following : List Char) : IsUnmarked [] following := by
  intro before after whole
  simp at whole

/-- A character that starts no comment or tag is text. -/
theorem IsUnmarked.concat {text following : List Char} {c : Char}
    (h : IsUnmarked text (c :: following)) (mark : marked? (c :: following) = none)
    : IsUnmarked (text ++ [c]) following := by
  intro before after whole
  rcases List.eq_nil_or_concat after with rfl | ⟨after, last, rfl⟩
  · obtain ⟨-, isLast⟩ := List.append_inj' whole rfl
    obtain rfl : c = '<' := (List.cons.inj isLast).1
    exact mark
  · rw [List.concat_eq_append, ← List.cons_append, ← List.append_assoc] at whole
    obtain ⟨earlier, isLast⟩ := List.append_inj' whole rfl
    obtain rfl : c = last := (List.cons.inj isLast).1
    have unmarked := h before after earlier
    simpa using unmarked

/-- What is marked is a segment of its own. -/
theorem exists_segment {s : List Char} {n : Nat} {token : Option Token}
    (found : marked? s = some (n, token))
    : ∃ segment : Segment,
        segment.source = s.take n
        ∧ segment.token? = token
        ∧ (∀ text, segment ≠ .text text)
        ∧ ∀ rest, sources rest = s.drop n → Tiling rest → Tiling (segment :: rest) := by
  cases token with
  | none =>
      obtain ⟨isComment, -⟩ := isComment_of_marked? found
      exact ⟨.comment (s.take n), rfl, rfl, nofun, fun rest same => .comment (same ▸ isComment)⟩
  | some token =>
      obtain ⟨isTag, -⟩ := isTag_of_tag? (tag?_of_marked? found)
      exact ⟨.tag (s.take n) token, rfl, rfl, nofun, fun rest _ => .tag isTag⟩

/-- Reading on from a place of a markup gives the tokens of segments, of which the first one has the
text that is pending. By induction on what is left of the markup.
-/
theorem exists_tiling {html front pending s : List Char} (whole : html = front ++ (pending ++ s))
    (unmarked : IsUnmarked pending s)
    : ∃ segments,
        Tiling segments
        ∧ sources segments = pending ++ s
        ∧ (tokensFrom (front.length + pending.length) pending.reverse s).map (Sliced.atByte html)
          = segmentTokens (Text.size front) segments := by
  match s with
  | [] =>
      refine ⟨textSegment pending ++ [], .textSegment_append unmarked nofun .nil,
        sources_textSegment pending [], ?_⟩
      rw [tokensFrom, segmentTokens_textSegment, Sliced.textToken_pending whole, segmentTokens,
        List.append_nil]
  | c :: rest =>
      cases mark : marked? (c :: rest) with
      | none =>
          have split : html = front ++ (pending ++ [c] ++ rest) := by
            simp [whole]
          obtain ⟨segments, tiling, same, read⟩ := exists_tiling split (unmarked.concat mark)
          refine ⟨segments, tiling, by simp [same], ?_⟩
          rw [← read, tokensFrom_unmarked fun _ => mark, List.reverse_concat, List.length_append]
          rfl
      | some found =>
          obtain ⟨n, token⟩ := found
          obtain ⟨k, after, rfl, here, inside⟩ := of_marked? mark
          obtain rfl := (List.cons.inj here).2
          obtain ⟨segment, source, isToken, notText, tiled⟩ := exists_segment mark
          obtain ⟨split, start, count⟩ := Sliced.front_append whole (Nat.succ_le_succ inside)
          obtain ⟨segments, tiling, same, read⟩ := exists_tiling split (isUnmarked_nil _)
          rw [List.nil_append] at same
          have sameHere : sources (segment :: segments) = c :: rest := by
            rw [sources, List.flatMap_cons, source]
            exact (congrArg _ same).trans (List.take_append_drop _ _)
          refine ⟨textSegment pending ++ segment :: segments,
            .textSegment_append (sameHere.symm ▸ unmarked) ?_ (tiled segments same tiling), ?_, ?_⟩
          · exact fun other more isText => notText other (List.cons.inj isText).1
          · rw [sources_textSegment, sameHere]
          · rw [start, Text.offsetOf, count] at read
            rw [segmentTokens_textSegment, segmentTokens, isToken, source, ← read,
              tokensFrom_marked mark]
            simp only [List.map_append, Sliced.textToken_pending whole, List.append_assoc,
              ← Sliced.offsetOf_pending whole]
            cases token <;> rfl
termination_by s.length

/-- Reading markup never fails: slices have their ends between characters, counters are never less
than zero and loops are done after a step for each byte. What is read are the tokens of the segments
that the markup consists of, comments and tags, and the texts between them: a tag has a token of its
own, a text that is not blank has one for its text, and comments and blank texts have none. The
offset of a token is where its segment starts, so that offsets increase.
-/
theorem tokens_tile (html : List Char)
    : ∃ segments,
        Tiling segments
        ∧ sources segments = html
        ∧ Sliced.tokens html = .ok (segmentTokens 0 segments)
        ∧ (tokens html).map (Sliced.atByte html) = segmentTokens 0 segments
        ∧ (segmentTokens 0 segments).Pairwise (·.offset < ·.offset) := by
  have whole : html = [] ++ ([] ++ html) := rfl
  obtain ⟨segments, tiling, same, read⟩ := exists_tiling whole (isUnmarked_nil _)
  refine ⟨segments, tiling, same, ?_, read, tiling.pairwise 0⟩
  rw [Sliced.tokens_eq]
  exact congrArg Except.ok read

example
    : Sliced.tokens "é<B/>x <c".toList
      = .ok [
          ⟨0, .text "é".toList⟩,
          ⟨2, .opening "B".toList [] true⟩,
          ⟨6, .text "x <c".toList⟩] := by
  cbv

end Folio.Document.Markup
