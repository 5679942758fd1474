import Folio.Content.Frontmatter
import Folio.Proofs.Text.Blank
import Folio.Proofs.Text.Entities
import Folio.Proofs.Text.Lines

/-! What of a document is frontmatter, as a grammar: an opening line, whole lines of which none is a
fence, a line that is one, and the body. A document of this form is split into these parts, which
are the only ones of this form that it has, and any other document is all body.
-/

namespace Folio.Content

open Folio.Text (firstLine linesWithEnds)

-----------------------------------------------------------------------------------------
-- The grammar
-----------------------------------------------------------------------------------------

inductive IsOpening : List Char → Prop
  | feed : IsOpening (fence ++ ['\n'])
  | returnFeed : IsOpening (fence ++ ['\r', '\n'])

/-- Holds for a line that is a fence, with what comes after it: carriage returns may follow the
dashes, and a line feed does, unless the text is at its end.
-/
inductive IsFenceLine : (line after : List Char) → Prop
  | feed (returns : Nat) (after : List Char)
    : IsFenceLine (fence ++ List.replicate returns '\r' ++ ['\n']) after
  | last (returns : Nat) : IsFenceLine (fence ++ List.replicate returns '\r') []

/-- Holds for texts after which a line begins. -/
def EndsLine (s : List Char) : Prop :=
  s = [] ∨ s.getLast? = some '\n'

/-- Holds for texts in which a fence stands as a whole line. -/
def HasFenceLine (s : List Char) : Prop :=
  ∃ before line after, s = before ++ (line ++ after) ∧ EndsLine before ∧ IsFenceLine line after

/-- Holds for what may stand between fences: whole lines, none of which is a fence. -/
structure IsFrontmatter (s : List Char) : Prop where
  endsLine : EndsLine s
  noFence : ¬HasFenceLine s

/-- Holds for a text and the parts that it has as a document with frontmatter. -/
def IsParted (text frontmatter body : List Char) : Prop :=
  ∃ opening closing,
    text = opening ++ (frontmatter ++ (closing ++ body))
    ∧ IsOpening opening
    ∧ IsFrontmatter frontmatter
    ∧ IsFenceLine closing body

-----------------------------------------------------------------------------------------
-- First lines
-----------------------------------------------------------------------------------------

theorem feed_notMem_fence (returns : Nat) : '\n' ∉ fence ++ List.replicate returns '\r' := by
  simp [fence, List.mem_replicate]

theorem IsFenceLine.ne_nil {line after : List Char} (h : IsFenceLine line after) : line ≠ [] := by
  cases h <;> simp [fence]

/-- A fence that begins a text is its first line. -/
theorem IsFenceLine.firstLine_eq {line after : List Char} (h : IsFenceLine line after)
    : firstLine (line ++ after) = (line, after) := by
  cases h with
  | feed returns after =>
      rw [List.append_assoc]
      exact Text.firstLine_append_feed (feed_notMem_fence returns) after
  | last returns =>
      rw [List.append_nil]
      exact Text.firstLine_of_not_mem (feed_notMem_fence returns)

/-- A fence is what three dashes are left of, less carriage returns and line feeds. -/
theorem isFence_iff {line : List Char}
    : isFence line = true
      ↔ ∃ tail, line = fence ++ tail ∧ ∀ c ∈ tail, c = '\r' ∨ c = '\n' := by
  have dashes : fence = ['-', '-'] ++ ['-'] := rfl
  rw [isFence, beq_iff_eq, dashes, Text.dropEndWhile_eq_concat_iff (by decide)]
  simp only [Bool.or_eq_true, beq_iff_eq]

theorem IsFenceLine.isFence {line after : List Char} (h : IsFenceLine line after)
    : isFence line = true := by
  cases h with
  | feed returns after =>
      refine isFence_iff.mpr ⟨_, List.append_assoc _ _ _, ?_⟩
      simp [or_imp, forall_and]
  | last returns =>
      refine isFence_iff.mpr ⟨_, rfl, ?_⟩
      simp

/-- A first line that counts as a fence is one, line end included. -/
theorem isFence_firstLine_iff {s : List Char}
    : isFence (firstLine s).1 = true ↔ IsFenceLine (firstLine s).1 (firstLine s).2 := by
  refine ⟨fun counts => ?_, IsFenceLine.isFence⟩
  obtain ⟨tail, line, ends⟩ := isFence_iff.mp counts
  have returnsOf {front : List Char} (ends : ∀ c ∈ front, c = '\r' ∨ c = '\n')
      (noFeed : '\n' ∉ front)
      : front = List.replicate front.length '\r' := by
    refine List.eq_replicate_iff.mpr ⟨rfl, fun c member => (ends c member).resolve_right ?_⟩
    rintro rfl
    exact noFeed member
  by_cases feed : '\n' ∈ s
  · obtain ⟨before, rest, rfl, noFeed⟩ := List.eq_append_cons_of_mem feed
    rw [Text.firstLine_append_feed noFeed] at line ⊢
    obtain rfl | ⟨returns, last, rfl⟩ := List.eq_nil_or_concat tail
    · have last := congrArg List.getLast? line
      simp [fence] at last
    · rw [List.concat_eq_append, ← List.append_assoc] at line
      obtain ⟨rfl, -⟩ := List.append_inj' line rfl
      have noFeed : '\n' ∉ returns := fun member => noFeed (List.mem_append_right fence member)
      have ends : ∀ c ∈ returns, c = '\r' ∨ c = '\n' := fun c member => ends c (by simp [member])
      rw [returnsOf ends noFeed]
      exact .feed returns.length rest
  · rw [Text.firstLine_of_not_mem feed] at line ⊢
    obtain rfl : s = fence ++ tail := line
    have noFeed : '\n' ∉ tail := fun member => feed (List.mem_append_right fence member)
    rw [returnsOf ends noFeed]
    exact .last tail.length

theorem endsLine_nil : EndsLine [] :=
  .inl rfl

namespace EndsLine

variable {s t : List Char}

theorem append (hs : EndsLine s) (ht : EndsLine t) : EndsLine (s ++ t) := by
  cases ht with
  | inl nothing => rwa [nothing, List.append_nil]
  | inr feed => exact .inr (by rw [List.getLast?_append, feed, Option.some_or])

/-- The first line of a text of whole lines stays the first line, whatever comes after the text. -/
theorem firstLine_append (h : EndsLine s) (notNil : s ≠ []) (t : List Char)
    : firstLine (s ++ t) = ((firstLine s).1, (firstLine s).2 ++ t) := by
  have feed : '\n' ∈ s := List.mem_of_getLast? (h.resolve_left notNil)
  obtain ⟨before, rest, rfl, noFeed⟩ := List.eq_append_cons_of_mem feed
  rw [List.append_assoc, List.cons_append, Text.firstLine_append_feed noFeed,
    Text.firstLine_append_feed noFeed]

/-- What comes after the first of whole lines are whole lines. -/
theorem afterFirst (h : EndsLine s) : EndsLine (firstLine s).2 := by
  obtain rfl | feed := h
  · exact endsLine_nil
  · by_cases more : (firstLine s).2 = []
    · exact .inl more
    · rw [← Text.firstLine_append s, List.getLast?_append_of_ne_nil _ more] at feed
      exact .inr feed

end EndsLine

-----------------------------------------------------------------------------------------
-- Lines that are fences
-----------------------------------------------------------------------------------------

theorem not_hasFenceLine_nil : ¬HasFenceLine [] := by
  rintro ⟨before, line, after, whole, -, isFence⟩
  obtain ⟨-, line⟩ := List.append_eq_nil_iff.mp whole.symm
  exact isFence.ne_nil (List.append_eq_nil_iff.mp line).1

/-- A fence stands in a text as its first line or after it. -/
theorem hasFenceLine_iff {s : List Char}
    : HasFenceLine s ↔ isFence (firstLine s).1 = true ∨ HasFenceLine (firstLine s).2 := by
  constructor
  · rintro ⟨before, line, after, rfl, endsLine, isFence⟩
    by_cases first : before = []
    · subst first
      rw [List.nil_append, isFence.firstLine_eq]
      exact .inl isFence.isFence
    · rw [endsLine.firstLine_append first]
      exact .inr ⟨(firstLine before).2, line, after, rfl, endsLine.afterFirst, isFence⟩
  · rintro (first | ⟨before, line, after, later, endsLine, isFence⟩)
    · refine ⟨[], (firstLine s).1, (firstLine s).2, ?_, endsLine_nil,
        isFence_firstLine_iff.mp first⟩
      exact (Text.firstLine_append s).symm
    · have more : (firstLine s).2 ≠ [] := by
        rw [later]
        simp [isFence.ne_nil]
      obtain ⟨front, -, first⟩ := Text.exists_firstLine more
      have whole : EndsLine (firstLine s).1 := .inr (by rw [first, List.getLast?_concat])
      refine ⟨(firstLine s).1 ++ before, line, after, ?_, whole.append endsLine, isFence⟩
      rw [List.append_assoc, ← later, Text.firstLine_append]

theorem isFrontmatter_nil : IsFrontmatter [] :=
  ⟨endsLine_nil, not_hasFenceLine_nil⟩

/-- Lines after the first of lines between fences stand between fences themselves. -/
theorem IsFrontmatter.afterFirst {s : List Char} (h : IsFrontmatter s)
    : IsFrontmatter (firstLine s).2 :=
  ⟨h.endsLine.afterFirst, fun fenced => h.noFence (hasFenceLine_iff.mpr (.inr fenced))⟩

/-- A line before lines between fences is one of them, unless it is a fence itself. -/
theorem IsFrontmatter.cons {line s : List Char} (noFeed : '\n' ∉ line)
    (noFence : isFence (line ++ ['\n']) = false) (h : IsFrontmatter s)
    : IsFrontmatter (line ++ ['\n'] ++ s) := by
  have whole : EndsLine (line ++ ['\n']) := .inr List.getLast?_concat
  refine ⟨whole.append h.endsLine, fun fenced => ?_⟩
  rw [List.append_assoc, List.singleton_append, hasFenceLine_iff,
    Text.firstLine_append_feed noFeed] at fenced
  cases fenced with
  | inl first => exact absurd first (ne_true_of_eq_false noFence)
  | inr later => exact h.noFence later

-----------------------------------------------------------------------------------------
-- Splitting
-----------------------------------------------------------------------------------------

/-- A text is split at the first of its lines that is a fence, by induction on the lines before it.
-/
theorem splitAtFence?_lines {frontmatter closing body : List Char}
    (isFrontmatter : IsFrontmatter frontmatter) (isFence : IsFenceLine closing body)
    : splitAtFence? (linesWithEnds (frontmatter ++ (closing ++ body)))
      = some (frontmatter, body) := by
  have notNil : frontmatter ++ (closing ++ body) ≠ [] := by simp [isFence.ne_nil]
  fun_induction linesWithEnds frontmatter with
  | case1 =>
      rw [Text.linesWithEnds_eq_cons notNil, List.nil_append, isFence.firstLine_eq, splitAtFence?,
        if_pos isFence.isFence, Text.flatten_linesWithEnds]
  | case2 c rest ih =>
      have noFence : ¬Content.isFence (firstLine (c :: rest)).1 = true := fun first =>
        isFrontmatter.noFence (hasFenceLine_iff.mpr (.inl first))
      have later := ih isFrontmatter.afterFirst (by simp [isFence.ne_nil])
      rw [Text.linesWithEnds_eq_cons notNil,
        isFrontmatter.endsLine.firstLine_append (List.cons_ne_nil c rest), splitAtFence?,
        if_neg noFence, later, Option.map_some]
      exact congrArg (fun before => some (before, body)) (Text.firstLine_append (c :: rest))

/-- What a text is split into at a fence: lines none of which is a fence come before it. By
induction on the lines of the text.
-/
theorem exists_of_splitAtFence? {text frontmatter body : List Char}
    (split : splitAtFence? (linesWithEnds text) = some (frontmatter, body))
    : ∃ closing,
        text = frontmatter ++ (closing ++ body)
        ∧ IsFrontmatter frontmatter
        ∧ IsFenceLine closing body := by
  fun_induction linesWithEnds text generalizing frontmatter with
  | case1 =>
      cases split
  | case2 c rest ih =>
      rw [splitAtFence?] at split
      split at split
      · next first =>
          rw [Text.flatten_linesWithEnds] at split
          obtain ⟨rfl, rfl⟩ := Prod.mk.inj (Option.some.inj split)
          refine ⟨(firstLine (c :: rest)).1, (Text.firstLine_append _).symm, isFrontmatter_nil, ?_⟩
          exact isFence_firstLine_iff.mp first
      · next noFence =>
          obtain ⟨⟨before, after⟩, found, same⟩ := Option.map_eq_some_iff.mp split
          obtain ⟨rfl, rfl⟩ := Prod.mk.inj same
          obtain ⟨closing, whole, isFrontmatter, isFence⟩ := ih found
          have more : (firstLine (c :: rest)).2 ≠ [] := by
            rw [whole]
            simp [isFence.ne_nil]
          obtain ⟨line, noFeed, first⟩ := Text.exists_firstLine more
          refine ⟨closing, ?_, ?_, isFence⟩
          · rw [List.append_assoc, ← whole, Text.firstLine_append]
          · rw [first] at noFence ⊢
            exact isFrontmatter.cons noFeed (eq_false_of_ne_true noFence)

theorem afterOpening?_eq_some {text rest : List Char}
    : afterOpening? text = some rest ↔ ∃ opening, text = opening ++ rest ∧ IsOpening opening := by
  constructor
  · intro found
    unfold afterOpening? at found
    split at found
    · next after lead =>
        obtain rfl := Option.some.inj found
        exact ⟨_, (Text.stripLead?_eq_some.mp lead).symm, .feed⟩
    · next after lead =>
        obtain rfl := Option.some.inj found
        exact ⟨_, (Text.stripLead?_eq_some.mp lead).symm, .returnFeed⟩
    · cases found
  · rintro ⟨opening, rfl, isOpening⟩
    cases isOpening <;> rfl

/-- The parts that are found in a text are those that it has. -/
theorem bind_splitAtFence?_eq_some {text frontmatter body : List Char}
    : ((afterOpening? text).bind fun rest => splitAtFence? (linesWithEnds rest))
        = some (frontmatter, body)
      ↔ IsParted text frontmatter body := by
  rw [Option.bind_eq_some_iff]
  constructor
  · rintro ⟨rest, opened, split⟩
    obtain ⟨opening, rfl, isOpening⟩ := afterOpening?_eq_some.mp opened
    obtain ⟨closing, rfl, isFrontmatter, isFence⟩ := exists_of_splitAtFence? split
    exact ⟨opening, closing, rfl, isOpening, isFrontmatter, isFence⟩
  · rintro ⟨opening, closing, rfl, isOpening, isFrontmatter, isFence⟩
    exact ⟨_, afterOpening?_eq_some.mpr ⟨opening, rfl, isOpening⟩,
      splitAtFence?_lines isFrontmatter isFence⟩

theorem split_eq_some_iff {document frontmatter body : List Char}
    : split document = { frontmatter := some frontmatter, body }
      ↔ IsParted (dropByteOrderMark document) frontmatter body := by
  rw [← bind_splitAtFence?_eq_some, split]
  cases (afterOpening? (dropByteOrderMark document)).bind fun rest =>
      splitAtFence? (linesWithEnds rest) with
  | none => simp
  | some parts => simp [Prod.ext_iff]

theorem split_eq_none_iff {document : List Char}
    : split document = { frontmatter := none, body := dropByteOrderMark document }
      ↔ ¬∃ frontmatter body, IsParted (dropByteOrderMark document) frontmatter body := by
  simp only [← bind_splitAtFence?_eq_some, split]
  cases (afterOpening? (dropByteOrderMark document)).bind fun rest =>
      splitAtFence? (linesWithEnds rest) with
  | none => simp
  | some parts => exact iff_of_false (by simp) (fun whole => whole ⟨parts.1, parts.2, rfl⟩)

/-- Documents are split by a grammar. A document has frontmatter and a body exactly if it consists
of these parts, less a byte order mark at its start; otherwise it is all body. Lines between fences
are read back, together with whatever follows them, exactly if none of them is a fence itself.
-/
theorem split_grammar
    : (∀ document frontmatter body,
        split document = { frontmatter := some frontmatter, body }
          ↔ IsParted (dropByteOrderMark document) frontmatter body)
      ∧ (∀ document,
          split document = { frontmatter := none, body := dropByteOrderMark document }
            ↔ ¬∃ frontmatter body, IsParted (dropByteOrderMark document) frontmatter body)
      ∧ ∀ frontmatter body,
          split (fence ++ ['\n'] ++ frontmatter ++ fence ++ ['\n'] ++ body)
              = { frontmatter := some frontmatter, body }
            ↔ IsFrontmatter frontmatter := by
  refine ⟨fun _ _ _ => split_eq_some_iff, fun _ => split_eq_none_iff, fun frontmatter body => ?_⟩
  have unmarked : dropByteOrderMark (fence ++ ['\n'] ++ frontmatter ++ fence ++ ['\n'] ++ body)
      = fence ++ ['\n'] ++ (frontmatter ++ (fence ++ List.replicate 0 '\r' ++ ['\n'] ++ body)) := by
    simp [fence, dropByteOrderMark]
  rw [split_eq_some_iff, unmarked]
  constructor
  · rintro ⟨opening, closing, -, -, isFrontmatter, -⟩
    exact isFrontmatter
  · intro isFrontmatter
    exact ⟨_, _, rfl, .feed, isFrontmatter, .feed 0 body⟩

/-- Four dashes are no fence, and the first line that is one ends the frontmatter, with more than
one carriage return too.
-/
example
    : split "\ufeff---\r\na: 1\n----\n---\r\r\n---\n".toList
      = { frontmatter := some "a: 1\n----\n".toList, body := "---\n".toList } := by
  decide +kernel

end Folio.Content
