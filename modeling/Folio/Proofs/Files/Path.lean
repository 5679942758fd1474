import Folio.Files.Path
import Mathlib.Data.List.TakeWhile

/-! The steps of a path: its pieces that lead somewhere. The steps of a joined path are those of its
parts one after the other.
-/

namespace Folio.Text

/-- Every text has a piece. -/
theorem splitBy_ne_nil (p : Char → Bool) (s : List Char) : splitBy p s ≠ [] := by
  cases s with
  | nil => simp [splitBy]
  | cons c rest =>
      unfold splitBy
      split
      · simp
      · split <;> simp

/-- Before and after a character that separates, a text is split on its own. -/
theorem splitBy_append_cons {p : Char → Bool} {c : Char} (separates : p c = true)
    (before after : List Char)
    : splitBy p (before ++ c :: after) = splitBy p before ++ splitBy p after := by
  induction before with
  | nil => simp [splitBy, separates]
  | cons first rest ih =>
      rw [List.cons_append, splitBy, splitBy, ih]
      split
      · rfl
      · cases found : splitBy p rest with
        | nil => exact absurd found (splitBy_ne_nil p rest)
        | cons piece pieces => rfl

/-- A text in which nothing separates is one piece. -/
theorem splitBy_of_forall {p : Char → Bool} {s : List Char} (h : ∀ c ∈ s, p c = false)
    : splitBy p s = [s] := by
  induction s with
  | nil => rfl
  | cons c rest ih =>
      rw [splitBy, if_neg (by simp [h c List.mem_cons_self]),
        ih fun later member => h later (List.mem_cons_of_mem _ member)]

end Folio.Text

namespace Folio.Files.Path

/-- The pieces of a path that lead somewhere. -/
def steps (path : String) : List String :=
  (pieces path).filter (!isIdle ·)

theorem steps_slash (before after : List Char)
    : steps (String.ofList (before ++ '/' :: after))
      = steps (String.ofList before) ++ steps (String.ofList after) := by
  simp only [steps, pieces, String.toList_ofList]
  rw [Text.splitBy_append_cons rfl, List.map_append, List.filter_append]

/-- Holds for names that lead one step downwards: they are not empty, and neither slashes nor dots
are in them.
-/
structure IsName (name : List Char) : Prop where
  notEmpty : name ≠ []
  noSlash : '/' ∉ name
  noDot : '.' ∉ name

theorem IsName.isIdle {name : List Char} (h : IsName name)
    : isIdle (String.ofList name) = false := by
  have notEmpty : String.ofList name ≠ "" := fun same =>
    h.notEmpty (by simpa using congrArg String.toList same)
  have notHere : String.ofList name ≠ "." := fun same => by
    have dot : name = ['.'] := by simpa using congrArg String.toList same
    exact h.noDot (dot ▸ List.mem_cons_self)
  simp [Path.isIdle, notEmpty, notHere]

theorem IsName.ne_up {name : List Char} (h : IsName name) : String.ofList name ≠ ".." := by
  intro same
  have dots : name = ['.', '.'] := by simpa using congrArg String.toList same
  exact h.noDot (dots ▸ List.mem_cons_self)

/-- The pieces of two names with a slash between them. -/
theorem pieces_names {outer inner : List Char} (ho : IsName outer) (hi : IsName inner)
    : pieces (String.ofList (outer ++ '/' :: inner))
      = [String.ofList outer, String.ofList inner] := by
  have whole {name : List Char} (h : IsName name) : Text.splitBy (· == '/') name = [name] :=
    Text.splitBy_of_forall fun c member =>
      beq_eq_false_iff_ne.mpr fun isSlash => h.noSlash (isSlash ▸ member)
  rw [pieces, String.toList_ofList, Text.splitBy_append_cons rfl, whole ho, whole hi]
  rfl

/-- Two names with a slash between them lead two steps downwards. -/
theorem steps_names {outer inner : List Char} (ho : IsName outer) (hi : IsName inner)
    : steps (String.ofList (outer ++ '/' :: inner))
      = [String.ofList outer, String.ofList inner] := by
  rw [steps, pieces_names ho hi]
  simp [ho.isIdle, hi.isIdle]

/-- Two names with a slash between them do not begin at the root. -/
theorem isAbsolute_names {outer : List Char} (inner : List Char) (h : IsName outer)
    : isAbsolute (String.ofList (outer ++ '/' :: inner)) = false := by
  rw [isAbsolute, String.toList_ofList]
  cases outer with
  | nil => exact absurd rfl h.notEmpty
  | cons c rest =>
      have notSlash : c ≠ '/' := fun same => h.noSlash (same ▸ List.mem_cons_self)
      simpa using notSlash

/-- Two names with a slash between them lead only downwards. -/
theorem isPlain_names {outer inner : List Char} (ho : IsName outer) (hi : IsName inner)
    : isPlain (String.ofList (outer ++ '/' :: inner)) = true := by
  have notHere : String.ofList outer ≠ "." := fun same => by
    simpa [same, Path.isIdle] using ho.isIdle
  unfold isPlain
  rw [pieces_names ho hi, isAbsolute_names inner ho]
  simp [notHere, ho.ne_up, Ne.symm hi.ne_up]

/-- A path whose first piece is empty begins at the root, unless it is empty. -/
theorem isAbsolute_of_pieces {path : String} {rest : List String} (notEmpty : path.isEmpty = false)
    (split : pieces path = "" :: rest)
    : isAbsolute path = true := by
  unfold isAbsolute
  cases characters : path.toList with
  | nil =>
      obtain rfl := String.toList_eq_nil_iff.mp characters
      exact absurd notEmpty (by decide)
  | cons c later =>
      by_cases slash : c = '/'
      · simp [slash]
      · obtain ⟨piece, others, inside⟩ := List.exists_cons_of_ne_nil
          (Text.splitBy_ne_nil (· == '/') later)
        simp [pieces, characters, Text.splitBy, slash, inside] at split

/-- A plain path leads only downwards, and at least one step. -/
theorem steps_of_isPlain {path : String} (h : isPlain path = true)
    : isAbsolute path = false ∧ steps path ≠ [] ∧ ".." ∉ steps path := by
  unfold isPlain at h
  simp only [Bool.and_eq_true, Bool.not_eq_true'] at h
  obtain ⟨⟨notEmpty, relative⟩, plain⟩ := h
  cases split : pieces path with
  | nil => simp [split] at plain
  | cons first rest =>
      simp only [split, Bool.and_eq_true, bne_iff_ne, ne_eq, Bool.not_eq_true',
        List.contains_eq_mem, decide_eq_false_iff_not] at plain
      obtain ⟨⟨notHere, notUp⟩, later⟩ := plain
      have named : first ≠ "" := by
        rintro rfl
        exact absurd relative (ne_false_of_eq_true (isAbsolute_of_pieces notEmpty split))
      have leads : isIdle first = false := by simp [isIdle, named, notHere]
      refine ⟨relative, ?_, ?_⟩
      · rw [steps, split, List.filter_cons_of_pos (by simp [leads])]
        exact List.cons_ne_nil _ _
      · intro up
        have member : ".." ∈ pieces path := (List.mem_filter.mp up).1
        rw [split] at member
        rcases List.mem_cons.mp member with same | inRest
        · exact notUp same.symm
        · exact later inRest

/-- An absolute path is the same wherever it is used. -/
theorem join_absolute (directory : String) {path : String} (absolute : isAbsolute path = true)
    : join directory path = path := by
  rw [join, absolute]
  rfl

/-- A relative path below a directory, as characters: there is a slash between the two. -/
theorem join_relative {directory path : String} (relative : isAbsolute path = false)
    (named : directory ≠ "")
    : ∃ before, join directory path = String.ofList (before ++ '/' :: path.toList)
        ∧ (directory.toList = before ∨ directory.toList = before ++ ['/']) := by
  have notEmpty : directory.isEmpty = false := by simpa using named
  unfold join
  rw [relative, notEmpty]
  by_cases closed : directory.toList.getLast? = some '/'
  · obtain ⟨before, shape⟩ := List.getLast?_eq_some_iff.mp closed
    refine ⟨before, ?_, Or.inr shape⟩
    apply String.toList_injective
    simp [shape]
  · refine ⟨directory.toList, ?_, Or.inl rfl⟩
    apply String.toList_injective
    simp [closed]

/-- A relative path below a directory takes the steps of the directory first. -/
theorem steps_join {directory path : String} (relative : isAbsolute path = false)
    : steps (join directory path) = steps directory ++ steps path := by
  by_cases named : directory = ""
  · subst named
    have none : steps "" = [] := by decide
    rw [none, join, relative]
    rfl
  · obtain ⟨before, joined, closed⟩ := join_relative relative named
    rw [joined, steps_slash, String.ofList_toList]
    rcases closed with open_ | closed
    · rw [← open_, String.ofList_toList]
    · have ended : steps directory = steps (String.ofList before) ++ steps (String.ofList []) := by
        rw [← steps_slash, ← closed, String.ofList_toList]
      rw [ended]
      have none : steps (String.ofList []) = [] := by decide
      rw [none, List.append_nil]

/-- A relative path below a named directory begins at the root if the directory does. -/
theorem isAbsolute_join {directory path : String} (relative : isAbsolute path = false)
    (named : directory ≠ "")
    : isAbsolute (join directory path) = isAbsolute directory := by
  obtain ⟨before, joined, closed⟩ := join_relative relative named
  have notNil : directory.toList ≠ [] := fun empty => named (String.toList_eq_nil_iff.mp empty)
  rw [joined, isAbsolute, isAbsolute, String.toList_ofList]
  rcases closed with same | closed
  · cases before with
    | nil => exact absurd same notNil
    | cons first rest => rw [same]; rfl
  · rw [closed]
    cases before <;> rfl

/-- A path below a directory takes the steps of the directory first, also where relative paths begin
in a working directory.
-/
theorem steps_join_join (workingDirectory directory : String) {path : String}
    (relative : isAbsolute path = false)
    : steps (join workingDirectory (join directory path))
      = steps (join workingDirectory directory) ++ steps path := by
  by_cases named : directory = ""
  · subst named
    have unnamed : join "" path = path := by simp [join]
    have nothing : steps "" = [] := by decide
    have noRoot : isAbsolute "" = false := by decide
    rw [unnamed, steps_join relative, steps_join noRoot, nothing, List.append_nil]
  · have begins := isAbsolute_join relative named
    by_cases absolute : isAbsolute directory = true
    · rw [join_absolute _ (begins.trans absolute), join_absolute _ absolute, steps_join relative]
    · have absolute := eq_false_of_ne_true absolute
      rw [steps_join (begins.trans absolute), steps_join absolute, steps_join relative,
        List.append_assoc]

theorem withoutLast?_eq_some {pieces : List String} {piece : String} (member : piece ∈ pieces)
    (leads : isIdle piece = false)
    : ∃ outer, withoutLast? pieces = some outer := by
  have kept : trimEnd pieces ≠ [] := by
    intro nothing
    have idle := List.dropWhile_eq_nil_iff.mp (List.reverse_eq_nil_iff.mp nothing) piece
      (List.mem_reverse.mpr member)
    exact absurd idle (ne_true_of_eq_false leads)
  unfold withoutLast?
  split
  · next nothing => exact absurd nothing kept
  · exact ⟨_, rfl⟩

/-- The first piece of an absolute path is empty. -/
theorem head?_pieces {path : String} (absolute : isAbsolute path = true)
    : (pieces path).head? = some "" := by
  unfold isAbsolute at absolute
  unfold pieces
  cases characters : path.toList with
  | nil => simp [characters] at absolute
  | cons c rest =>
      have slash : c = '/' := by simpa [characters] using absolute
      simp [slash, Text.splitBy]

/-- A path that leads somewhere lies in another. -/
theorem parent?_eq_some {path : String} (leads : steps path ≠ [])
    : ∃ outer, parent? path = some outer := by
  obtain ⟨piece, member⟩ := List.exists_mem_of_ne_nil _ leads
  obtain ⟨member, notIdle⟩ := List.mem_filter.mp member
  have notIdle : isIdle piece = false := by simpa using notIdle
  unfold parent?
  split
  · next all absolute =>
      have first := head?_pieces absolute
      cases split : pieces path with
      | nil => simp [split] at first
      | cons head rest =>
          obtain rfl : head = "" := by simpa [split] using first
          have later : piece ∈ rest := by
            rcases List.mem_cons.mp (split ▸ member) with rfl | later
            · exact absurd notIdle (by decide)
            · exact later
          obtain ⟨outer, found⟩ := withoutLast?_eq_some later notIdle
          rw [List.tail_cons, found]
          exact ⟨_, rfl⟩
  · split <;> exact ⟨_, rfl⟩
  · obtain ⟨outer, found⟩ := withoutLast?_eq_some member notIdle
    rw [found]
    exact ⟨_, rfl⟩

end Folio.Files.Path
