import Folio.Proofs.Files.Below

/-! The path around a path. It is the text of the path up to where its last step begins, and so it
leads along all steps but the last.
-/

namespace Folio.Text

/-- The pieces of a text with the character that separates them in between are the text. -/
theorem intercalate_splitBy (c : Char) (s : List Char)
    : [c].intercalate (splitBy (· == c) s) = s := by
  induction s with
  | nil => rfl
  | cons first rest ih =>
      unfold splitBy
      split
      · next separates =>
          rw [List.intercalate_cons_of_ne_nil (splitBy_ne_nil _ rest), ih, beq_iff_eq.mp separates]
          rfl
      · cases pieces : splitBy (· == c) rest with
        | nil => exact absurd pieces (splitBy_ne_nil _ rest)
        | cons piece others =>
            rw [pieces] at ih
            dsimp only
            rw [← ih]
            cases others with
            | nil => rw [List.intercalate_singleton, List.intercalate_singleton]
            | cons _ _ => rw [List.intercalate_cons_cons, List.intercalate_cons_cons]; rfl

/-- Nothing separates inside a piece. -/
theorem forall_mem_splitBy {p : Char → Bool} {s piece : List Char} (member : piece ∈ splitBy p s)
    : ∀ c ∈ piece, p c = false := by
  induction s generalizing piece with
  | nil =>
      obtain rfl := List.mem_singleton.mp member
      exact List.forall_mem_nil _
  | cons first rest ih =>
      unfold splitBy at member
      split at member
      · rcases List.mem_cons.mp member with rfl | later
        · exact List.forall_mem_nil _
        · exact ih later
      · next inside =>
          split at member
          · obtain rfl := List.mem_singleton.mp member
            exact List.forall_mem_singleton.mpr (eq_false_of_ne_true inside)
          · next front others pieces =>
              rw [pieces] at ih
              rcases List.mem_cons.mp member with rfl | later
              · exact List.forall_mem_cons.mpr
                  ⟨eq_false_of_ne_true inside, ih List.mem_cons_self⟩
              · exact ih (List.mem_cons_of_mem front later)

end Folio.Text

namespace Folio.Files.Path

variable {path outer : String} {pieces names front : List String}

-----------------------------------------------------------------------------------------
-- Pieces and their path
-----------------------------------------------------------------------------------------

theorem intercalate_pieces (path : String) : "/".intercalate (Path.pieces path) = path := by
  apply String.toList_injective
  have whole : (Path.pieces path).map String.toList = Text.splitBy (· == '/') path.toList := by
    simp [Path.pieces]
  rw [String.toList_intercalate, whole]
  exact Text.intercalate_splitBy '/' path.toList

theorem noSlash_of_mem_pieces {piece : String} (member : piece ∈ Path.pieces path)
    : '/' ∉ piece.toList := by
  obtain ⟨characters, inside, rfl⟩ := List.mem_map.mp member
  intro slash
  rw [String.toList_ofList] at slash
  exact absurd (Text.forall_mem_splitBy inside '/' slash) (by decide)

/-- Texts without slashes are the pieces of the path that they make, by induction on them. -/
theorem pieces_intercalate (notNil : names ≠ []) (plain : ∀ name ∈ names, '/' ∉ name.toList)
    : Path.pieces ("/".intercalate names) = names := by
  induction names with
  | nil => exact absurd rfl notNil
  | cons name rest ih =>
      obtain ⟨first, later⟩ := List.forall_mem_cons.mp plain
      have whole : Text.splitBy (· == '/') name.toList = [name.toList] :=
        Text.splitBy_of_forall fun c member =>
          beq_eq_false_iff_ne.mpr fun isSlash => first (isSlash ▸ member)
      by_cases last : rest = []
      · subst last
        rw [String.intercalate_singleton, Path.pieces, whole, List.map_singleton,
          String.ofList_toList]
      · rw [String.intercalate_cons_of_ne_nil last, Path.pieces]
        have split : (name ++ "/" ++ "/".intercalate rest).toList
            = name.toList ++ '/' :: ("/".intercalate rest).toList := by
          simp
        rw [split, Text.splitBy_append_cons rfl, whole, List.map_append, List.map_singleton,
          String.ofList_toList]
        exact congrArg (name :: ·) (ih last later)

/-- The steps of a path that is made of texts without slashes. -/
theorem steps_intercalate (plain : ∀ name ∈ names, '/' ∉ name.toList)
    : steps ("/".intercalate names) = names.filter (!isIdle ·) := by
  by_cases nothing : names = []
  · subst nothing
    rfl
  · rw [steps, pieces_intercalate nothing plain]

/-- Fewer pieces make a path with which the path of all of them begins. -/
theorem intercalate_prefix (h : front <+: names)
    : ("/".intercalate front).toList <+: ("/".intercalate names).toList := by
  obtain ⟨more, rfl⟩ := h
  by_cases nothing : front = []
  · subst nothing
    exact List.nil_prefix
  · by_cases whole : more = []
    · subst whole
      simp
    · rw [String.intercalate_append_of_ne_nil nothing whole, String.append_assoc,
        String.toList_append]
      exact List.prefix_append _ _

-----------------------------------------------------------------------------------------
-- Without the last step
-----------------------------------------------------------------------------------------

/-- The idle pieces at the end are no steps. -/
theorem exists_trimEnd (pieces : List String)
    : ∃ idle, pieces = trimEnd pieces ++ idle ∧ idle.filter (!isIdle ·) = [] := by
  refine ⟨(pieces.reverse.takeWhile isIdle).reverse, ?_, ?_⟩
  · rw [trimEnd, ← List.reverse_append, List.takeWhile_append_dropWhile, List.reverse_reverse]
  · rw [List.filter_eq_nil_iff]
    intro piece member
    have idle := List.mem_takeWhile_imp (List.mem_reverse.mp member)
    simp [idle]

/-- The last of the pieces that are left is a step. -/
theorem isIdle_of_trimEnd {last : String} (ends : trimEnd pieces = front ++ [last])
    : isIdle last = false := by
  have kept : pieces.reverse.dropWhile isIdle = last :: front.reverse := by
    rw [← List.reverse_reverse (pieces.reverse.dropWhile isIdle)]
    exact (congrArg List.reverse ends).trans (by simp)
  have first := List.head_dropWhile_not isIdle (l := pieces.reverse) (by rw [kept]; simp)
  simpa only [kept, List.head_cons] using first

/-- Pieces without the last step are the first of the pieces, with all steps but the last, and they
end in a step.
-/
theorem withoutLast?_spec (found : withoutLast? pieces = some front)
    : front <+: pieces
      ∧ (∃ last, pieces.filter (!isIdle ·) = front.filter (!isIdle ·) ++ [last])
      ∧ ∀ last, front.getLast? = some last → isIdle last = false := by
  obtain ⟨idle, whole, none⟩ := exists_trimEnd pieces
  unfold withoutLast? at found
  split at found
  · cases found
  · next left notNil =>
      obtain rfl := Option.some.inj found
      rcases List.eq_nil_or_concat (trimEnd pieces) with empty | ⟨before, last, ends⟩
      · exact absurd empty notNil
      rw [List.concat_eq_append] at ends
      obtain ⟨more, split, nothing⟩ := exists_trimEnd before
      have step := isIdle_of_trimEnd ends
      rw [ends, List.dropLast_concat]
      refine ⟨?_, ?_, ?_⟩
      · refine ⟨more ++ [last] ++ idle, ?_⟩
        conv => rhs; rw [whole, ends, split]
        simp only [List.append_assoc]
      · refine ⟨last, ?_⟩
        calc
          pieces.filter (!isIdle ·) = (before ++ [last] ++ idle).filter (!isIdle ·) := by
            rw [← ends, ← whole]
          _ = before.filter (!isIdle ·) ++ [last] := by
            rw [List.filter_append, none, List.append_nil, List.filter_append]
            simp [step]
          _ = (trimEnd before).filter (!isIdle ·) ++ [last] := by
            conv => lhs; rw [split, List.filter_append, nothing, List.append_nil]
      · intro inner endsIn
        obtain ⟨outer, kept⟩ := List.getLast?_eq_some_iff.mp endsIn
        exact isIdle_of_trimEnd kept

/-- A path that begins like a relative one is relative. -/
theorem isAbsolute_of_prefix (relative : isAbsolute path = false)
    (begins : outer.toList <+: path.toList)
    : isAbsolute outer = false := by
  obtain ⟨more, whole⟩ := begins
  unfold isAbsolute at relative ⊢
  cases characters : outer.toList with
  | nil => rfl
  | cons c rest =>
      rw [← whole, characters] at relative
      exact relative

/-- Holds for the path around a path: it is its text up to where the last step begins, and does not
end in `.` unless it leads nowhere.
-/
structure IsAround (outer path : String) : Prop where
  steps : ∃ last, steps path = Path.steps outer ++ [last]
  begins : outer.toList <+: path.toList
  ends : endsHere outer = true → Path.steps outer = []
  isAbsolute : isAbsolute outer = Path.isAbsolute path

/-- The path of the first pieces, without the last step: idle pieces may stand before the others. -/
theorem isAround_intercalate (idle : List String) {rest : List String}
    (split : Path.pieces path = idle ++ rest) (none : idle.filter (!isIdle ·) = [])
    (without : withoutLast? rest = some front)
    (root : isAbsolute path = true → isAbsolute ("/".intercalate (idle ++ front)) = true)
    : IsAround ("/".intercalate (idle ++ front)) path := by
  obtain ⟨before, ⟨last, kept⟩, ends⟩ := withoutLast?_spec without
  have first : idle ++ front <+: Path.pieces path := by
    rw [split]
    exact (List.prefix_append_right_inj idle).mpr before
  have plain : ∀ piece ∈ idle ++ front, '/' ∉ piece.toList := fun piece member =>
    noSlash_of_mem_pieces (first.subset member)
  have begins : ("/".intercalate (idle ++ front)).toList <+: path.toList := by
    conv => rhs; rw [← intercalate_pieces path]
    exact intercalate_prefix first
  refine ⟨?_, begins, ?_, ?_⟩
  · refine ⟨last, ?_⟩
    rw [steps_intercalate plain, steps, split, List.filter_append, List.filter_append, none, kept,
      List.nil_append, List.nil_append]
  · intro here
    rcases List.eq_nil_or_concat front with rfl | ⟨inner, step, rfl⟩
    · rw [steps_intercalate plain, List.append_nil, none]
    · rw [List.concat_eq_append, ← List.append_assoc] at here plain
      have leads := ends step (by rw [List.concat_eq_append, List.getLast?_concat])
      have last
          : (Path.pieces ("/".intercalate (idle ++ inner ++ [step]))).getLast? = some step := by
        rw [pieces_intercalate (by simp) plain, List.getLast?_concat]
      rw [endsHere_of_getLast? last leads] at here
      cases here
  · cases absolute : isAbsolute path with
    | true => exact root absolute
    | false => exact isAbsolute_of_prefix absolute begins

/-- The path around an absolute one. If nothing is left of its pieces, it is the root. -/
theorem isAround_absolute (absolute : isAbsolute path = true)
    (without : withoutLast? (Path.pieces path).tail = some front)
    : IsAround ("/" ++ "/".intercalate front) path := by
  obtain ⟨rest, split⟩ := List.head?_eq_some_iff.mp (head?_pieces absolute)
  rw [split, List.tail_cons] at without
  by_cases root : front = []
  · subst root
    obtain ⟨-, ⟨last, kept⟩, -⟩ := withoutLast?_spec without
    refine ⟨⟨last, ?_⟩, ?_, by decide, absolute.symm⟩
    · rw [steps, split, List.filter_cons_of_neg (by decide), kept]
      exact congrArg (· ++ [last]) (by decide)
    · obtain ⟨later, characters⟩ := List.head?_eq_some_iff.mp (beq_iff_eq.mp absolute)
      exact ⟨later, characters.symm⟩
  · have outside : "/" ++ "/".intercalate front = "/".intercalate ([""] ++ front) := by
      rw [List.singleton_append, String.intercalate_cons_of_ne_nil root]
      simp
    rw [outside]
    refine isAround_intercalate [""] split (by decide) without fun _ => ?_
    rw [← outside, isAbsolute]
    simp

/-- What is found as the path around a path is that. -/
theorem isAround_of_parent? (leads : steps path ≠ []) (found : parent? path = some outer)
    : IsAround outer path := by
  unfold parent? at found
  split at found
  · next all absolute =>
      obtain ⟨front, without, rfl⟩ := Option.map_eq_some_iff.mp found
      exact isAround_absolute absolute without
  · next rest relative split =>
      split at found
      · next front without =>
          obtain rfl := Option.some.inj found
          exact isAround_intercalate ["."] split (by decide) without fun absolute =>
            absurd absolute (ne_true_of_eq_false relative)
      · next without =>
          obtain ⟨piece, member⟩ := List.exists_mem_of_ne_nil _ leads
          obtain ⟨member, notIdle⟩ := List.mem_filter.mp member
          rw [split] at member
          rcases List.mem_cons.mp member with rfl | later
          · exact absurd notIdle (by decide)
          · obtain ⟨front, other⟩ := withoutLast?_eq_some later (by simpa using notIdle)
            rw [without] at other
            cases other
  · next relative _ =>
      obtain ⟨front, without, rfl⟩ := Option.map_eq_some_iff.mp found
      exact isAround_intercalate [] rfl rfl without fun absolute =>
        absurd absolute (ne_true_of_eq_false relative)

/-- Where relative paths begin in a working directory, the path around a path leads along all steps
but the last as well.
-/
theorem IsAround.steps_join_of_steps (workingDirectory : String) (h : IsAround outer path)
    {last : String} (split : Path.steps path = names ++ [last])
    : Path.steps (join workingDirectory path)
      = Path.steps (join workingDirectory outer) ++ [last] := by
  obtain ⟨step, around⟩ := h.steps
  obtain ⟨-, same⟩ := List.append_inj' (split.symm.trans around) rfl
  obtain rfl := List.singleton_inj.mp same
  cases absolute : Path.isAbsolute path with
  | true => rw [join_absolute _ absolute, join_absolute _ (h.isAbsolute.trans absolute), around]
  | false =>
      rw [Path.steps_join absolute, Path.steps_join (h.isAbsolute.trans absolute), around,
        List.append_assoc]

theorem IsAround.steps_join (workingDirectory : String) (h : IsAround outer path)
    : ∃ last, Path.steps (join workingDirectory path)
        = Path.steps (join workingDirectory outer) ++ [last] := by
  obtain ⟨last, split⟩ := h.steps
  exact ⟨last, h.steps_join_of_steps workingDirectory split⟩

end Folio.Files.Path
