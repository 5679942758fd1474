import Folio.Text.Blank

/-! The trimming of texts, and what is taken of a text up to a character. -/

namespace Folio.Text

/-- What is taken up to a character that does not satisfy `p`. -/
theorem takeWhile_append_stop {p : Char → Bool} {s : List Char} (inside : ∀ c ∈ s, p c = true)
    {stop : Char} (outside : p stop = false) (rest : List Char)
    : (s ++ stop :: rest).takeWhile p = s := by
  rw [List.takeWhile_append_of_pos inside, List.takeWhile_cons_of_neg (by simp [outside]),
    List.append_nil]

section

variable {p : Char → Bool}

/-- What is cut off at the end of a text is cut off all the same if there is more of it. -/
theorem dropEndWhile_append {tail : List Char} (cut : ∀ c ∈ tail, p c = true) (s : List Char)
    : dropEndWhile p (s ++ tail) = dropEndWhile p s := by
  induction s with
  | nil =>
      induction tail with
      | nil => rfl
      | cons c tail ih =>
          obtain ⟨first, later⟩ := List.forall_mem_cons.mp cut
          have nothing : dropEndWhile p tail = [] := ih later
          simp only [List.nil_append, dropEndWhile, nothing, if_pos first]
  | cons c s ih => rw [List.cons_append, dropEndWhile, dropEndWhile, ih]

/-- A text loses nothing at its end if its last character does not satisfy `p`. -/
theorem dropEndWhile_concat {c : Char} (kept : p c = false) (s : List Char)
    : dropEndWhile p (s ++ [c]) = s ++ [c] := by
  induction s with
  | nil => simp [dropEndWhile, kept]
  | cons first s ih =>
      rw [List.cons_append, dropEndWhile, ih]
      cases s <;> rfl

/-- A text is what is left of it and what is cut off at its end, by induction on the text. -/
theorem exists_dropEndWhile (p : Char → Bool) (s : List Char)
    : ∃ tail, s = dropEndWhile p s ++ tail ∧ ∀ c ∈ tail, p c = true := by
  induction s with
  | nil => exact ⟨[], rfl, List.forall_mem_nil _⟩
  | cons c s ih =>
      obtain ⟨tail, whole, cut⟩ := ih
      unfold dropEndWhile
      split
      · next nothing =>
          rw [nothing, List.nil_append] at whole
          split
          · next first => exact ⟨c :: s, rfl, List.forall_mem_cons.mpr ⟨first, whole ▸ cut⟩⟩
          · exact ⟨s, rfl, whole ▸ cut⟩
      · exact ⟨tail, congrArg (c :: ·) whole, cut⟩

/-- The last character of what is left is not one that is cut off, by induction on the text. -/
theorem getLast?_dropEndWhile {s : List Char} {c : Char} (isLast : c ∈ (dropEndWhile p s).getLast?)
    : p c = false := by
  induction s with
  | nil => cases isLast
  | cons first s ih =>
      unfold dropEndWhile at isLast
      split at isLast
      · split at isLast
        · cases isLast
        · next kept =>
            obtain rfl := Option.some.inj isLast
            exact eq_false_of_ne_true kept
      · next some =>
          rw [List.getLast?_cons_of_ne_nil some] at isLast
          exact ih isLast

/-- What is left of a text is known by its last character, which is not cut off. -/
theorem dropEndWhile_eq_concat_iff {c : Char} (kept : p c = false) {s front : List Char}
    : dropEndWhile p s = front ++ [c]
      ↔ ∃ tail, s = front ++ [c] ++ tail ∧ ∀ d ∈ tail, p d = true := by
  constructor
  · intro left
    have whole := exists_dropEndWhile p s
    rwa [left] at whole
  · rintro ⟨tail, rfl, cut⟩
    rw [dropEndWhile_append cut, dropEndWhile_concat kept]

end

/-- The blanks at the end of a text are cut off, one more or less. -/
theorem trimEnd_append_feed (s : List Char) : trimEnd (s ++ ['\n']) = trimEnd s :=
  dropEndWhile_append (List.forall_mem_singleton.mpr rfl) s

theorem trimEnd_cons {c : Char} (h : isBlank c = false) (s : List Char)
    : trimEnd (c :: s) = c :: trimEnd s := by
  rw [trimEnd, trimEnd, dropEndWhile, h]
  cases dropEndWhile isBlank s <;> rfl

/-- A text that does not end in a blank loses nothing at its end. -/
theorem trimEnd_concat {c : Char} (h : isBlank c = false) (s : List Char)
    : trimEnd (s ++ [c]) = s ++ [c] :=
  dropEndWhile_concat h s

/-- What is left without the blanks at the end comes first in the text. -/
theorem trimEnd_prefix (s : List Char) : trimEnd s <+: s := by
  obtain ⟨tail, whole, -⟩ := exists_dropEndWhile isBlank s
  exact ⟨tail, whole.symm⟩

/-- A text between two characters that are not blank loses nothing. -/
theorem trim_between {first last : Char} (hf : isBlank first = false) (hl : isBlank last = false)
    (s : List Char)
    : trim (first :: s ++ [last]) = first :: s ++ [last] := by
  have started : trimStart (first :: s ++ [last]) = first :: s ++ [last] :=
    List.dropWhile_cons_of_neg (by simp [hf])
  rw [trim, started, trimEnd_concat hl]

/-- A text without blanks loses nothing. -/
theorem trim_visible {s : List Char} (h : ∀ c ∈ s, isBlank c = false) : trim s = s := by
  have started : trimStart s = s := by
    cases s with
    | nil => rfl
    | cons c s => exact List.dropWhile_cons_of_neg (by simp [h c List.mem_cons_self])
  rw [trim, started]
  clear started
  induction s with
  | nil => rfl
  | cons c s ih =>
      obtain ⟨first, later⟩ := List.forall_mem_cons.mp h
      rw [trimEnd_cons first, ih later]

end Folio.Text
