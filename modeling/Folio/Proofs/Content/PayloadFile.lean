import Folio.Proofs.Content.Enumeration
import Folio.Proofs.Files.Parent

/-! The files of pages. The file of a page is named by the segments of its path, so that only the
root and the path `index` have the same one; no directory of documents lists the latter.
-/

namespace Folio.Content

open Files (IsStep)

-----------------------------------------------------------------------------------------
-- The names of a file
-----------------------------------------------------------------------------------------

def withExtension : List String → List String
  | [] => []
  | [name] => [name ++ ".json"]
  | name :: rest => name :: withExtension rest

theorem withExtension_ne_nil {names : List String} (notNil : names ≠ [])
    : withExtension names ≠ [] := by
  match names with
  | [] => exact absurd rfl notNil
  | [_] => exact List.cons_ne_nil _ _
  | _ :: _ :: _ => exact List.cons_ne_nil _ _

theorem intercalate_withExtension {names : List String} (notNil : names ≠ [])
    : "/".intercalate (withExtension names) = "/".intercalate names ++ ".json" := by
  match names with
  | [] => exact absurd rfl notNil
  | [name] => simp [withExtension]
  | name :: next :: rest =>
      have later := withExtension_ne_nil (List.cons_ne_nil next rest)
      rw [withExtension, String.intercalate_cons_of_ne_nil later,
        String.intercalate_cons_of_ne_nil (List.cons_ne_nil next rest),
        intercalate_withExtension (List.cons_ne_nil next rest)]
      · simp only [String.append_assoc]
      · exact fun none => by cases none

/-- An extension keeps names apart. -/
theorem withExtension_injective {names others : List String}
    (same : withExtension names = withExtension others)
    : names = others := by
  match names, others with
  | [], [] => rfl
  | [], other :: more => exact absurd same.symm (withExtension_ne_nil (List.cons_ne_nil other more))
  | name :: rest, [] => exact absurd same (withExtension_ne_nil (List.cons_ne_nil name rest))
  | [name], [other] =>
      simp only [withExtension, List.cons.injEq, and_true] at same
      have characters := congrArg String.toList same
      rw [String.toList_append, String.toList_append] at characters
      rw [String.toList_injective (List.append_cancel_right characters)]
  | [name], other :: next :: more =>
      have later := (List.cons.inj same).2
      exact absurd later.symm (withExtension_ne_nil (List.cons_ne_nil next more))
  | name :: next :: rest, [other] =>
      have later := (List.cons.inj same).2
      exact absurd later (withExtension_ne_nil (List.cons_ne_nil next rest))
  | name :: next :: rest, other :: second :: more =>
      obtain ⟨first, later⟩ := List.cons.inj same
      rw [first, withExtension_injective later]

/-- Names that lead downwards still do with an extension. -/
theorem isStep_withExtension {names : List String} (steps : ∀ name ∈ names, IsStep name)
    : ∀ name ∈ withExtension names, IsStep name := by
  match names with
  | [] => exact List.forall_mem_nil _
  | [name] =>
      refine List.forall_mem_singleton.mpr ?_
      have plain := (steps name List.mem_cons_self).noSlash
      have long : 5 ≤ (name ++ ".json").toList.length := by simp
      refine ⟨?_, ?_, ?_, ?_⟩
      · intro same
        rw [same] at long
        simp at long
      · intro same
        rw [same] at long
        simp at long
      · intro same
        rw [same] at long
        simp at long
      · rw [String.toList_append, List.mem_append]
        exact not_or.mpr ⟨plain, by decide⟩
  | name :: next :: rest =>
      obtain ⟨first, later⟩ := List.forall_mem_cons.mp steps
      exact List.forall_mem_cons.mpr ⟨first, isStep_withExtension later⟩

namespace LogicalPath

/-- The names of the file of a page, below the directory of all files. -/
def payloadNames (p : LogicalPath) : List String :=
  if p.isRoot then ["index.json"] else withExtension p.segments

theorem isStep_payloadNames (p : LogicalPath) : ∀ name ∈ p.payloadNames, IsStep name := by
  unfold payloadNames
  split
  · exact List.forall_mem_singleton.mpr (by decide)
  · exact isStep_withExtension fun name member => isStep_of_isSegment (p.valid name member)

theorem payloadNames_ne_nil (p : LogicalPath) : p.payloadNames ≠ [] := by
  unfold payloadNames
  split
  · exact List.cons_ne_nil _ _
  · next notRoot => exact withExtension_ne_nil (by simpa [isRoot] using notRoot)

theorem payloadFile_eq (p : LogicalPath) : p.payloadFile = "/".intercalate p.payloadNames := by
  unfold payloadFile payloadNames
  split
  · rfl
  · next notRoot =>
      rw [intercalate_withExtension (by simpa [isRoot] using notRoot)]
      rfl

/-- The pieces of the file of a page are its names. -/
theorem pieces_payloadFile (p : LogicalPath)
    : Files.Path.pieces p.payloadFile = p.payloadNames := by
  rw [payloadFile_eq]
  exact Files.Path.pieces_intercalate p.payloadNames_ne_nil fun name member =>
    (p.isStep_payloadNames name member).noSlash

/-- The file of a page leads downwards by its names. -/
theorem steps_payloadFile (p : LogicalPath) : Files.Path.steps p.payloadFile = p.payloadNames := by
  rw [Files.Path.steps, pieces_payloadFile]
  refine List.filter_eq_self.mpr ?_
  intro name member
  simp [(p.isStep_payloadNames name member).isIdle]

theorem isAbsolute_payloadFile (p : LogicalPath)
    : Files.Path.isAbsolute p.payloadFile = false := by
  apply eq_false_of_ne_true
  intro absolute
  have first := Files.Path.head?_pieces absolute
  rw [pieces_payloadFile] at first
  exact (p.isStep_payloadNames "" (List.mem_of_mem_head? first)).notEmpty rfl

/-- Two pages have the same file only if they are the same, or one is the root and the other one is
called `index`.
-/
theorem payloadFile_eq_iff {p q : LogicalPath}
    : p.payloadFile = q.payloadFile
      ↔ p = q
        ∨ (p.segments = [] ∧ q.segments = [indexName])
        ∨ (p.segments = [indexName] ∧ q.segments = []) := by
  have index : withExtension [indexName] = ["index.json"] := rfl
  have equal (segments : p.segments = q.segments) : p = q := by
    cases p
    cases q
    simpa using segments
  constructor
  · intro same
    have names : p.payloadNames = q.payloadNames := by
      rw [← pieces_payloadFile, ← pieces_payloadFile, same]
    unfold payloadNames isRoot at names
    split at names
    · next pRoot =>
        have pRoot := List.isEmpty_iff.mp pRoot
        split at names
        · next qRoot => exact .inl (equal (pRoot.trans (List.isEmpty_iff.mp qRoot).symm))
        · exact .inr (.inl ⟨pRoot, (withExtension_injective (index.trans names)).symm⟩)
    · split at names
      · next qRoot =>
          exact .inr (.inr ⟨withExtension_injective (names.trans index.symm),
            List.isEmpty_iff.mp qRoot⟩)
      · exact .inl (equal (withExtension_injective names))
  · rintro (rfl | ⟨pRoot, qIndex⟩ | ⟨pIndex, qRoot⟩)
    · rfl
    · simp [payloadFile, isRoot, display, pRoot, qIndex, indexName]
    · simp [payloadFile, isRoot, display, pIndex, qRoot, indexName]

end LogicalPath

-----------------------------------------------------------------------------------------
-- The files of what is listed
-----------------------------------------------------------------------------------------

namespace FileStore

variable {s : FileStore}

/-- No path that is listed ends in the name of an index. -/
theorem getLast?_of_pathOf? {place : List String} {name : String} {p : LogicalPath}
    (found : s.pathOf? place name = some p)
    : p.segments.getLast? ≠ some indexName := by
  unfold pathOf? at found
  split at found
  · cases found
  · dsimp only at found
    split at found
    · split at found
      · cases found
      · next notIndex =>
          obtain rfl := Option.some.inj found
          simpa using notIndex
    · cases found

mutual

/-- The paths in an entry, by induction on the tree. -/
theorem getLast?_of_scanEntry {directory : String} {place : List String} {name : String}
    (e : Files.Entry) {paths : List LogicalPath}
    (scanned : s.scanEntry directory place name e = .ok paths)
    : ∀ p ∈ paths, p.segments.getLast? ≠ some indexName := by
  match e with
  | .file bytes =>
      obtain rfl := Except.ok.inj scanned
      intro p member
      exact getLast?_of_pathOf? (Option.mem_toList.mp member)
  | .directory entries =>
      unfold scanEntry at scanned
      split at scanned
      · obtain rfl := Except.ok.inj scanned
        exact List.forall_mem_nil _
      · dsimp only at scanned
        split at scanned
        · exact getLast?_of_scanEntries entries scanned
        · cases scanned

theorem getLast?_of_scanEntries {directory : String} {place : List String}
    (entries : List (String × Files.Entry)) {paths : List LogicalPath}
    (scanned : s.scanEntries directory place entries = .ok paths)
    : ∀ p ∈ paths, p.segments.getLast? ≠ some indexName := by
  match entries with
  | [] =>
      obtain rfl := Except.ok.inj scanned
      exact List.forall_mem_nil _
  | (name, e) :: rest =>
      unfold scanEntries at scanned
      obtain ⟨first, here, scanned⟩ := bind_eq_ok.mp scanned
      obtain ⟨later, there, joined⟩ := bind_eq_ok.mp scanned
      obtain rfl := Except.ok.inj joined
      exact List.forall_mem_append.mpr
        ⟨getLast?_of_scanEntry e here, getLast?_of_scanEntries rest there⟩

end

/-- No two documents that are listed have the same file. -/
theorem nodup_payloadFile {paths : List LogicalPath} (scanned : s.scan = .ok paths)
    : (paths.map LogicalPath.payloadFile).Nodup := by
  have once : paths.Nodup :=
    (Store.IsOrdered.ascending_scan (s := .files s) trivial scanned).nodup
  have named : ∀ p ∈ paths, p.segments ≠ [indexName] := by
    unfold scan at scanned
    split at scanned
    · obtain ⟨found, listed, ordered⟩ := bind_eq_ok.mp scanned
      obtain rfl := Except.ok.inj ordered
      intro p member segments
      have last := getLast?_of_scanEntries _ listed p (mem_foldr_insertPath.mp member)
      exact last (by rw [segments]; rfl)
    · cases scanned
  refine List.Pairwise.map _ ?_ (List.Pairwise.and_mem.mp once)
  rintro p q ⟨hp, hq, different⟩ same
  rcases LogicalPath.payloadFile_eq_iff.mp same with equal | ⟨-, index⟩ | ⟨index, -⟩
  · exact different equal
  · exact named q hq index
  · exact named p hp index

end FileStore

end Folio.Content
