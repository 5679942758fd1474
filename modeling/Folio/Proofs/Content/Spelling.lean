import Folio.Content.Decode
import Folio.Proofs.Content.Enumeration
import Folio.Proofs.Files.Parent
import Folio.Proofs.Json.StringLists
import Folio.Proofs.Text.Blank

/-! The spellings of logical paths. A path is read from its segments, from a text with slashes
between them, and from the written form of their array. All three accept the same segments, and give
back the path that was written.
-/

namespace Folio.Content

open Files (Path.pieces)

-----------------------------------------------------------------------------------------
-- Texts and the segments that they write
-----------------------------------------------------------------------------------------

structure IsPlain (piece : String) : Prop where
  notEmpty : piece ≠ ""
  notHere : piece ≠ "."
  notAround : piece ≠ ".."
  noBackslash : '\\' ∉ piece.toList

instance (piece : String) : Decidable (IsPlain piece) :=
  decidable_of_iff (piece ≠ "" ∧ piece ≠ "." ∧ piece ≠ ".." ∧ '\\' ∉ piece.toList)
    ⟨fun ⟨notEmpty, notHere, notAround, noBackslash⟩ =>
      ⟨notEmpty, notHere, notAround, noBackslash⟩,
      fun plain => ⟨plain.notEmpty, plain.notHere, plain.notAround, plain.noBackslash⟩⟩

/-- A text is another one with slashes around it, and the other one neither begins nor ends with a
slash.
-/
structure Trims (text core : String) : Prop where
  whole : ∃ m n, text.toList = List.replicate m '/' ++ core.toList ++ List.replicate n '/'
  head : core.toList.head? ≠ some '/'
  last : core.toList.getLast? ≠ some '/'

/-- A text has pieces without slashes, and a slash between any two of them. -/
structure Splits (text : String) (pieces : List String) : Prop where
  some : pieces ≠ []
  whole : "/".intercalate pieces = text
  noSlash : ∀ piece ∈ pieces, '/' ∉ piece.toList

theorem isSegment_iff {s : String} : isSegment s = true ↔ IsPlain s ∧ '/' ∉ s.toList := by
  simp only [isSegment, Bool.and_eq_true, Bool.not_eq_true', bne_iff_ne, ne_eq]
  constructor
  · rintro ⟨⟨⟨notEmpty, notHere⟩, notAround⟩, plain⟩
    have inside := List.any_eq_false.mp plain
    refine ⟨⟨by simpa using notEmpty, notHere, notAround, fun member => ?_⟩, fun member => ?_⟩
    · simpa using inside _ member
    · simpa using inside _ member
  · rintro ⟨⟨notEmpty, notHere, notAround, noBackslash⟩, noSlash⟩
    refine ⟨⟨⟨by simpa using notEmpty, notHere⟩, notAround⟩, List.any_eq_false.mpr ?_⟩
    intro c member
    have notSlash : c ≠ '/' := fun same => noSlash (same ▸ member)
    have notBackslash : c ≠ '\\' := fun same => noBackslash (same ▸ member)
    simp [notSlash, notBackslash]

theorem eq_replicate_slash {s : List Char} (slashes : ∀ c ∈ s, (c == '/') = true)
    : s = List.replicate s.length '/' :=
  List.eq_replicate_iff.mpr ⟨rfl, fun c member => beq_iff_eq.mp (slashes c member)⟩

/-- Slashes in front of a text are cut off. -/
theorem dropWhile_slashes (n : Nat) (s : List Char)
    : (List.replicate n '/' ++ s).dropWhile (· == '/') = s.dropWhile (· == '/') := by
  induction n with
  | zero => rfl
  | succ n ih => rw [List.replicate_succ, List.cons_append, List.dropWhile_cons_of_pos rfl, ih]

/-- The text that another one trims to is what is left without the slashes at its ends. -/
theorem trimSlashes_of_trims {text core : String} (trims : Trims text core)
    : LogicalPath.trimSlashes text.toList = core.toList := by
  obtain ⟨⟨m, n, whole⟩, head, last⟩ := trims
  have slashes : ∀ c ∈ List.replicate n '/', (c == '/') = true := fun c member =>
    beq_iff_eq.mpr (List.eq_of_mem_replicate member)
  rw [LogicalPath.trimSlashes, whole, List.append_assoc, dropWhile_slashes]
  rcases List.eq_nil_or_concat core.toList with nothing | ⟨front, d, ending⟩
  · have cut := dropWhile_slashes n []
    rw [List.append_nil] at cut
    rw [nothing, List.nil_append, cut]
    rfl
  · rw [ending, List.concat_eq_append] at head last ⊢
    have kept : (d == '/') = false := beq_eq_false_iff_ne.mpr fun same => last (by simp [same])
    have begins : (front ++ [d] ++ List.replicate n '/').dropWhile (· == '/')
        = front ++ [d] ++ List.replicate n '/' := by
      cases front with
      | nil => exact List.dropWhile_cons_of_neg (by simp [kept])
      | cons c more => exact List.dropWhile_cons_of_neg (by simpa using head)
    rw [begins, Text.dropEndWhile_append slashes]
    exact Text.dropEndWhile_concat (p := (· == '/')) kept front

/-- Every text is one without slashes at its ends, and slashes around it. -/
theorem exists_trims (text : String) : ∃ core, Trims text core := by
  have front : ∀ c ∈ text.toList.takeWhile (· == '/'), (c == '/') = true := fun c member =>
    List.mem_takeWhile_imp (p := (· == '/')) member
  obtain ⟨tail, whole, slashes⟩ :=
    Text.exists_dropEndWhile (· == '/') (text.toList.dropWhile (· == '/'))
  refine ⟨String.ofList (LogicalPath.trimSlashes text.toList), ⟨?_, ?_, ?_⟩⟩
  · refine ⟨(text.toList.takeWhile (· == '/')).length, tail.length, ?_⟩
    rw [String.toList_ofList, ← eq_replicate_slash slashes, List.append_assoc,
      LogicalPath.trimSlashes, ← whole, ← eq_replicate_slash front,
      List.takeWhile_append_dropWhile]
  · rw [String.toList_ofList]
    intro slash
    have first := List.head?_dropWhile_not (· == '/') text.toList
    rw [whole, List.head?_append, ← LogicalPath.trimSlashes, slash] at first
    cases first
  · rw [String.toList_ofList]
    intro slash
    exact absurd (Text.getLast?_dropEndWhile slash) (by decide)

theorem splits_pieces (text : String) : Splits text (Path.pieces text) where
  some := by simpa [Path.pieces] using Text.splitBy_ne_nil _ text.toList
  whole := Files.Path.intercalate_pieces text
  noSlash _ := Files.Path.noSlash_of_mem_pieces

theorem Splits.pieces_eq {text : String} {pieces : List String} (splits : Splits text pieces)
    : Path.pieces text = pieces := by
  rw [← splits.whole]
  exact Files.Path.pieces_intercalate splits.some splits.noSlash

namespace LogicalPath

variable {text core : String} {p q : LogicalPath}

-----------------------------------------------------------------------------------------
-- Paths of segments
-----------------------------------------------------------------------------------------

/-- Segments make a path exactly if each of them may be one. -/
theorem exists_ofSegments_iff {segments : List String}
    : (∃ p, ofSegments segments = .ok p) ↔ ∀ s ∈ segments, isSegment s = true := by
  constructor
  · rintro ⟨p, accepted⟩
    obtain rfl := ofSegments_eq_ok.mp accepted
    exact p.valid
  · intro valid
    exact ⟨⟨segments, valid⟩, ofSegments_eq_ok.mpr rfl⟩

theorem eq_of_segments (same : p.segments = q.segments) : p = q := by
  cases p
  cases q
  cases same
  rfl

-----------------------------------------------------------------------------------------
-- Paths of texts
-----------------------------------------------------------------------------------------

/-- The path of a text is that of the pieces of the text without the slashes at its ends. -/
theorem parse?_of_trims (trims : Trims text core)
    : parse? text = if core = "" then some root else (ofSegments (Path.pieces core)).toOption := by
  unfold parse?
  rw [trimSlashes_of_trims trims]
  by_cases nothing : core = ""
  · subst nothing
    rfl
  · rw [if_neg nothing]
    split
    · next none => exact absurd (String.toList_eq_nil_iff.mp none) nothing
    · rfl

theorem parse?_eq_some_iff (trims : Trims text core)
    : parse? text = some p
      ↔ core = "" ∧ p = root ∨ core ≠ "" ∧ Path.pieces core = p.segments := by
  rw [parse?_of_trims trims]
  by_cases nothing : core = ""
  · simp [nothing, eq_comm]
  · rw [if_neg nothing, ← ofSegments_eq_ok]
    cases ofSegments (Path.pieces core) <;> simp [nothing, Except.toOption]

theorem ends_of_isSegment {s : String} (valid : isSegment s = true)
    : (∃ c, s.toList.head? = some c ∧ c ≠ '/') ∧ ∃ c, s.toList.getLast? = some c ∧ c ≠ '/' := by
  obtain ⟨plain, noSlash⟩ := isSegment_iff.mp valid
  have some : s.toList ≠ [] := fun nothing => plain.notEmpty (String.toList_eq_nil_iff.mp nothing)
  refine ⟨⟨s.toList.head some, List.head?_eq_some_head some, fun same => noSlash ?_⟩,
    ⟨s.toList.getLast some, List.getLast?_eq_some_getLast some, fun same => noSlash ?_⟩⟩
  · exact same ▸ List.head_mem some
  · exact same ▸ List.getLast_mem some

/-- Segments with slashes between them neither begin nor end with a slash. -/
theorem trims_display (p : LogicalPath) : Trims p.display p.display := by
  refine ⟨⟨0, 0, by simp⟩, ?_, ?_⟩
  · cases names : p.segments with
    | nil => simp [display, names]
    | cons s rest =>
        obtain ⟨⟨c, first, notSlash⟩, -⟩ := ends_of_isSegment (p.valid s (by simp [names]))
        have begins : p.display.toList.head? = some c := by
          rw [display, names]
          cases rest with
          | nil => rw [String.intercalate_singleton, first]
          | cons =>
              rw [String.intercalate_cons_of_ne_nil (List.cons_ne_nil _ _), String.toList_append,
                String.toList_append, List.append_assoc, List.head?_append, first]
              rfl
        rw [begins]
        exact fun same => notSlash (Option.some.inj same)
  · rcases List.eq_nil_or_concat p.segments with names | ⟨front, s, names⟩
    · simp [display, names]
    · rw [List.concat_eq_append] at names
      obtain ⟨-, c, last, notSlash⟩ := ends_of_isSegment (p.valid s (by simp [names]))
      have ends : p.display.toList.getLast? = some c := by
        rw [display, names]
        by_cases alone : front = []
        · rw [alone, List.nil_append, String.intercalate_singleton, last]
        · rw [String.intercalate_append_of_ne_nil alone (List.cons_ne_nil s []),
            String.intercalate_singleton, String.toList_append, List.getLast?_append, last]
          rfl
      rw [ends]
      exact fun same => notSlash (Option.some.inj same)

theorem pieces_display (notRoot : p ≠ root) : Path.pieces p.display = p.segments :=
  Files.Path.pieces_intercalate (fun nothing => notRoot (eq_of_segments nothing))
    fun s member => (isSegment_iff.mp (p.valid s member)).2

theorem display_eq_empty_iff : p.display = "" ↔ p = root := by
  constructor
  · intro nothing
    by_contra notRoot
    have names := pieces_display notRoot
    rw [nothing] at names
    have empty : "" ∈ p.segments := by
      rw [← names]
      decide
    exact absurd (p.valid "" empty) (by decide)
  · rintro rfl
    rfl

/-- The text of a path is read as the path. -/
theorem parse?_display (p : LogicalPath) : parse? p.display = some p := by
  rw [parse?_eq_some_iff p.trims_display]
  by_cases isRoot : p = root
  · exact .inl ⟨display_eq_empty_iff.mpr isRoot, isRoot⟩
  · exact .inr ⟨mt display_eq_empty_iff.mp isRoot, pieces_display isRoot⟩

-----------------------------------------------------------------------------------------
-- Paths of written arrays
-----------------------------------------------------------------------------------------

/-- A path is read from exactly the texts that write the array of its segments. -/
theorem ofJson_eq_ok_iff : ofJson text = .ok p ↔ Json.parse text = .ok p.json := by
  have accepted
      : ofJson text = .ok p
        ↔ Json.Decoder.run (Json.Decoder.list Json.Decoder.string) text = .ok p.segments := by
    unfold ofJson
    constructor
    · intro read
      obtain ⟨segments, run, made⟩ := bind_eq_ok.mp read
      split at made
      · next found accepted =>
          obtain rfl := Except.ok.inj made
          rwa [ofSegments_eq_ok.mp accepted] at run
      · cases made
    · intro run
      simp only [run, bind, Except.bind, ofSegments_eq_ok.mpr rfl]
      rfl
  rw [accepted, Json.run_list_string_iff]
  rfl

/-- Logical paths have one spelling. A text is read exactly if, without the slashes at its ends, it
is empty or all its pieces between slashes may be segments, and what is left of it then is the text
of the path. A path is read back from its text and from its written form. Of written arrays of
strings those are accepted whose items are accepted as segments, and nothing else is. Different
paths have different texts.
-/
theorem parse?_iff_plain
    : (∀ text, ∃ core pieces, Trims text core ∧ Splits core pieces)
      ∧ (∀ text core pieces, Trims text core → Splits core pieces →
          ((∃ p, parse? text = some p) ↔ core = "" ∨ ∀ piece ∈ pieces, IsPlain piece)
          ∧ ∀ p, parse? text = some p → p.display = core)
      ∧ (∀ p : LogicalPath, parse? p.display = some p ∧ ofJson p.json.render = .ok p)
      ∧ (∀ text segments,
          Json.parse text = .ok (.array (segments.map Json.Value.string)) →
          ∀ p, ofJson text = .ok p ↔ ofSegments segments = .ok p)
      ∧ (∀ text p, ofJson text = .ok p → Json.parse text = .ok p.json)
      ∧ ∀ p q : LogicalPath, p.display = q.display → p = q := by
  refine ⟨fun text => ?_, fun text core pieces trims splits => ⟨?_, fun p read => ?_⟩,
    fun p => ⟨p.parse?_display, ofJson_eq_ok_iff.mpr (Json.parse_render_strings _)⟩,
    fun text segments parsed p => ?_, fun text p => ofJson_eq_ok_iff.mp, fun p q same => ?_⟩
  · obtain ⟨core, trims⟩ := exists_trims text
    exact ⟨core, _, trims, splits_pieces core⟩
  · have segments_iff
        : (∀ s ∈ pieces, isSegment s = true) ↔ ∀ piece ∈ pieces, IsPlain piece :=
      forall₂_congr fun s member => isSegment_iff.trans (and_iff_left (splits.noSlash s member))
    rw [← segments_iff, ← exists_ofSegments_iff, parse?_of_trims trims, splits.pieces_eq]
    by_cases nothing : core = ""
    · simp [nothing]
    · rw [if_neg nothing]
      cases ofSegments pieces <;> simp [nothing, Except.toOption]
  · rcases (parse?_eq_some_iff trims).mp read with ⟨rfl, rfl⟩ | ⟨-, names⟩
    · rfl
    · rw [display, ← names, splits.pieces_eq, splits.whole]
  · rw [ofJson_eq_ok_iff, parsed, ofSegments_eq_ok, json]
    simp only [Except.ok.injEq, Json.Value.array.injEq]
    exact List.map_inj_right fun _ _ => Json.Value.string.inj
  · have read := p.parse?_display
    rw [same, q.parse?_display] at read
    exact (Option.some.inj read).symm

/-- A text with slashes around it, and an array with blanks in it. -/
theorem parse?_guideSetup
    : ∃ p, parse? "/guide/setup//" = some p
        ∧ p.display = "guide/setup"
        ∧ ofJson "[\"guide\", \"setup\"]" = .ok p := by
  have trims : Trims "/guide/setup//" "guide/setup" :=
    ⟨⟨1, 2, by decide⟩, by decide, by decide⟩
  have splits : Splits "guide/setup" ["guide", "setup"] := ⟨by decide, by decide, by decide⟩
  have plain : ∀ piece ∈ ["guide", "setup"], IsPlain piece := by decide
  have parsed
      : Json.parse "[\"guide\", \"setup\"]"
        = .ok (.array (["guide", "setup"].map Json.Value.string)) :=
    Json.run_list_string_iff.mp (by decide +kernel)
  obtain ⟨-, reads, -, arrays, -⟩ := parse?_iff_plain
  obtain ⟨reads, displays⟩ := reads _ _ _ trims splits
  obtain ⟨p, read⟩ := reads.mpr (.inr plain)
  refine ⟨p, read, displays p read, (arrays _ _ parsed p).mpr (ofSegments_eq_ok.mpr ?_)⟩
  rcases (parse?_eq_some_iff trims).mp read with ⟨nothing, -⟩ | ⟨-, names⟩
  · exact absurd nothing (by decide)
  · rw [← names, splits.pieces_eq]

end LogicalPath

end Folio.Content
