import Folio.Proofs.Files.Parent

/-! Files that are moved or taken away. No directory changes, and no file but those at the places of
the operation. A file that is replaced by way of a temporary one is either replaced as a whole or
left as it was; all that may be lost is a file that had the name of the temporary one before.
-/

namespace Folio.Files.Disk

variable {d middle later : Disk} {source path : String} {bytes : Bytes}
  {temporary place : List String}

-----------------------------------------------------------------------------------------
-- Files that are moved or taken away
-----------------------------------------------------------------------------------------

/-- A file that can be read is not the root itself: a path that leads to the root is one of a
directory, or goes through the root.
-/
theorem names_ne_nil {place : Place} (located : d.locate path = .ok place)
    (forFile : place.asDirectory = false)
    (there : d.root.shapeAt? place.names = some (.file bytes))
    : place.names ≠ [] := by
  intro root
  obtain ⟨-, -, -, walked, -, asDirectory⟩ := locate_eq_ok.mp located
  rw [root] at there
  have noSteps : Path.steps (Path.join d.workingDirectory path) = [] := by
    cases steps : Path.steps (Path.join d.workingDirectory path) with
    | nil => rfl
    | cons step rest =>
        rw [steps, walk, Entry.shapeAt?_eq_file.mp there] at walked
        cases walked
  have idle := List.filter_eq_nil_iff.mp noSteps
  cases last : (Path.pieces (Path.join d.workingDirectory path)).getLast? with
  | none =>
      have nothing := List.getLast?_eq_none_iff.mp last
      exact Text.splitBy_ne_nil _ _ (List.map_eq_nil_iff.mp nothing)
  | some piece =>
      have leads := idle piece (List.mem_of_getLast? last)
      rw [forFile, last, Option.any_some] at asDirectory
      exact leads (by rw [← asDirectory]; rfl)

/-- A file that was taken away is gone, and all else is as before. -/
theorem grows_of_removeFile (h : d.removeFile path = .ok later)
    : Grows [d.target path] d later
      ∧ ∀ held, later.root.shapeAt? (d.target path) ≠ some (.file held) := by
  obtain ⟨place, located, h⟩ := bind_eq_ok.mp h
  obtain ⟨named, -⟩ := target_of_locate located
  split at h
  · cases h
  · cases h
  · next bytes there =>
      have there := Entry.shapeAt?_eq_file.mpr there
      split at h
      · cases h
      · next forFile =>
          obtain rfl := Except.ok.inj h
          have changed := Entry.shapeAt?_erase there
            (names_ne_nil located (eq_false_of_ne_true forFile) there)
          rw [← named]
          refine ⟨⟨rfl, fun other isDirectory => ?_, fun other held apart => ?_⟩, fun held => ?_⟩
          · have elsewhere : other ≠ place.names := by
              rintro rfl
              cases there.symm.trans isDirectory
            rw [changed, if_neg elsewhere]
            exact isDirectory
          · rw [changed, if_neg fun same => apart (List.mem_singleton.mpr same)]
          · rw [changed, if_pos rfl]
            simp

/-- A file that can be read can be taken away. -/
theorem removeFile_of_read (h : d.read path = .ok bytes)
    : ∃ later, d.removeFile path = .ok later := by
  obtain ⟨place, located, forFile, there⟩ := read_eq_ok.mp h
  refine ⟨{ d with root := d.root.erase place.names }, bind_eq_ok.mpr ⟨place, located, ?_⟩⟩
  rw [Entry.shapeAt?_eq_file.mp there, forFile]
  rfl

/-- What is found out before a file is moved. -/
theorem moveFile_eq_ok (h : d.moveFile source path = .ok later)
    : ∃ old new bytes,
        d.locate source = .ok old ∧ d.locate path = .ok new
        ∧ old.asDirectory = false ∧ new.asDirectory = false
        ∧ d.root.shapeAt? old.names = some (.file bytes)
        ∧ d.root.shapeAt? new.names ≠ some .directory
        ∧ later = { d with root := (d.root.erase old.names).put (.file bytes) new.names } := by
  obtain ⟨old, atSource, h⟩ := bind_eq_ok.mp h
  obtain ⟨new, atPath, h⟩ := bind_eq_ok.mp h
  refine ⟨old, new, ?_⟩
  split at h
  · cases h
  · cases h
  · cases h
  · next bytes there free =>
      split at h
      · cases h
      · next forFiles =>
          rw [Bool.or_eq_true, not_or] at forFiles
          refine ⟨bytes, atSource, atPath, eq_false_of_ne_true forFiles.1,
            eq_false_of_ne_true forFiles.2, Entry.shapeAt?_eq_file.mpr there, ?_,
            (Except.ok.inj h).symm⟩
          intro isDirectory
          obtain ⟨entries, found⟩ := Entry.shapeAt?_eq_directory.mp isDirectory
          exact free entries found

/-- A file that was moved is read at its new path. It is gone from its old place, unless that is the
same, and all else is as before.
-/
theorem grows_of_moveFile (h : d.moveFile source path = .ok later)
    : ∃ bytes,
        d.read source = .ok bytes
        ∧ later.read path = .ok bytes
        ∧ Grows [d.target source, d.target path] d later
        ∧ (d.target source ≠ d.target path →
            ∀ held, later.root.shapeAt? (d.target source) ≠ some (.file held)) := by
  obtain ⟨old, new, bytes, atSource, atPath, oldForFile, newForFile, there, free, rfl⟩ :=
    moveFile_eq_ok h
  obtain ⟨oldNamed, -⟩ := target_of_locate atSource
  obtain ⟨newNamed, leads⟩ := target_of_locate atPath
  have changed := Entry.shapeAt?_move there (names_ne_nil atSource oldForFile there) leads free
  rw [← oldNamed, ← newNamed]
  have grows : Grows [old.names, new.names] d
      { d with root := (d.root.erase old.names).put (.file bytes) new.names } := by
    refine ⟨rfl, fun other isDirectory => ?_, fun other held apart => ?_⟩
    · have notOld : other ≠ old.names := by
        rintro rfl
        cases there.symm.trans isDirectory
      have notNew : other ≠ new.names := fun same => free (same ▸ isDirectory)
      rw [changed, if_neg notNew, if_neg notOld]
      exact isDirectory
    · rw [List.mem_cons, List.mem_singleton, not_or] at apart
      rw [changed, if_neg apart.2, if_neg apart.1]
  refine ⟨bytes, read_eq_ok.mpr ⟨old, atSource, oldForFile, there⟩, ?_, grows, ?_⟩
  · refine read_eq_ok.mpr ⟨new, grows.locate atPath, newForFile, ?_⟩
    rw [changed, if_pos rfl]
  · intro apart held
    rw [changed, if_neg apart, if_pos rfl]
    simp

-----------------------------------------------------------------------------------------
-- Names of temporary files
-----------------------------------------------------------------------------------------

theorem temporaryName_begins (d : Disk) : ".tmp-".toList <+: d.temporaryName.toList := by
  rw [temporaryName, String.append_assoc, String.append_assoc, String.toList_append]
  exact List.prefix_append _ _

theorem isStep_temporaryName (d : Disk) : IsStep d.temporaryName := by
  have other (text : String) (differs : ¬".tmp-".toList <+: text.toList)
      : d.temporaryName ≠ text :=
    fun same => differs (same ▸ d.temporaryName_begins)
  have digits (n : Nat) : '/' ∉ Nat.toDigits 10 n := fun member =>
    absurd (Nat.isDigit_of_mem_toDigits (by decide) (by decide) member) (by decide)
  refine ⟨other "" (by decide), other "." (by decide), other ".." (by decide), ?_⟩
  simp [temporaryName, digits]

/-- Directories are made, or some of them, and the next temporary file has the same name. -/
theorem temporaryName_makeDirectories (d : Disk) (path : String)
    : (d.makeDirectories path).1.temporaryName = d.temporaryName := by
  have ensured {before after : Disk} {path : String}
      (h : before.ensureDirectory path = .ok after)
      : after.temporaryName = before.temporaryName := by
    unfold ensureDirectory at h
    split at h
    · next made =>
        obtain rfl := Except.ok.inj h
        obtain ⟨place, -, h⟩ := bind_eq_ok.mp made
        split at h
        · cases h
        · obtain rfl := Except.ok.inj h
          rfl
    · split at h
      · obtain rfl := Except.ok.inj h
        rfl
      · cases h
  suffices h : ∀ room, (makeDirectories.make d path room).1.temporaryName = d.temporaryName from
    h path.length
  intro room
  induction room generalizing path with
  | zero => rfl
  | succ room ih =>
      unfold makeDirectories.make
      split
      · rfl
      · split
        · next made => exact ensured made
        · split
          · rfl
          · next outer _ =>
              have before := ih outer
              split
              · next made => rw [← before, made]
              · next middle made =>
                  rw [made] at before
                  split
                  · next again => exact (ensured again).trans before
                  · exact before
        · rfl

-----------------------------------------------------------------------------------------
-- Files that are replaced by way of a temporary one
-----------------------------------------------------------------------------------------

/-- Holds if a disk has become a later one without a new file: directories may be new, and there may
be no file any more at the place of a temporary one.
-/
structure Loses (temporary : List String) (d later : Disk) : Prop
    extends Grows [temporary] d later where
  lost
    : ∀ bytes, later.root.shapeAt? temporary = some (.file bytes)
        → d.root.shapeAt? temporary = some (.file bytes)

/-- Holds if a disk has become a later one with a file at a place: directories may be new, and there
is no file any more at the place of a temporary one.
-/
structure Swaps (temporary place : List String) (bytes : Bytes) (d later : Disk) : Prop
    extends Grows [temporary, place] d later where
  there : later.root.shapeAt? place = some (.file bytes)
  gone
    : temporary ≠ place →
        ∀ held, later.root.shapeAt? temporary ≠ some (.file held)

theorem Grows.loses (grows : Grows [] d later) (temporary : List String)
    : Loses temporary d later where
  workingDirectory := grows.workingDirectory
  directories := grows.directories
  files := fun place bytes _ => grows.files place bytes List.not_mem_nil
  lost := fun bytes => (grows.files temporary bytes List.not_mem_nil).mp

/-- Directories may be made first. -/
theorem Loses.after (first : Grows [] d middle) (h : Loses temporary middle later)
    : Loses temporary d later where
  toGrows := first.trans h.toGrows
  lost := fun bytes there => (first.files _ bytes List.not_mem_nil).mp (h.lost bytes there)

theorem Swaps.after (first : Grows [] d middle) (h : Swaps temporary place bytes middle later)
    : Swaps temporary place bytes d later where
  toGrows := first.trans h.toGrows
  there := h.there
  gone := h.gone

/-- All files are as before, unless one had the name of the temporary one. -/
theorem Loses.grows (h : Loses temporary d later)
    (fresh : ∀ bytes, d.root.shapeAt? temporary ≠ some (.file bytes))
    : Grows [] d later where
  workingDirectory := h.workingDirectory
  directories := h.directories
  files := by
    intro other bytes _
    by_cases same : other = temporary
    · subst same
      exact iff_of_false (fun there => fresh bytes (h.lost bytes there)) (fresh bytes)
    · exact h.files other bytes (mt List.mem_singleton.mp same)

/-- All other files are as before, unless one had the name of the temporary one. -/
theorem Swaps.grows (h : Swaps temporary place bytes d later)
    (fresh : ∀ held, d.root.shapeAt? temporary ≠ some (.file held))
    : Grows [place] d later where
  workingDirectory := h.workingDirectory
  directories := h.directories
  files := by
    intro other held apart
    have elsewhere := mt List.mem_singleton.mpr apart
    by_cases same : other = temporary
    · subst same
      exact iff_of_false (h.gone elsewhere held) (fresh held)
    · exact h.files other held (by simp [same, elsewhere])

/-- No file is added but the one that replaces another. -/
theorem Swaps.file {other : List String} {held : Bytes} (h : Swaps temporary place bytes d later)
    (there : later.root.shapeAt? other = some (.file held))
    : other ≠ place ∧ d.root.shapeAt? other = some (.file held)
      ∨ other = place ∧ held = bytes := by
  by_cases here : other = place
  · subst here
    have same := h.there.symm.trans there
    obtain rfl := Shape.file.inj (Option.some.inj same)
    exact .inr ⟨rfl, rfl⟩
  · by_cases same : other = temporary
    · subst same
      exact absurd there (h.gone here held)
    · exact .inl ⟨here, (h.files other held (by simp [same, here])).mp there⟩

theorem Loses.file {other : List String} {held : Bytes} (h : Loses temporary d later)
    (there : later.root.shapeAt? other = some (.file held))
    : d.root.shapeAt? other = some (.file held) := by
  by_cases same : other = temporary
  · subst same
    exact h.lost held there
  · exact (h.files other held (mt List.mem_singleton.mp same)).mp there

/-- A temporary file that was written is taken away again. -/
theorem loses_of_removeFile (h : d.write path bytes = .ok middle)
    : ∃ later, middle.removeFile path = .ok later ∧ Loses (d.target path) d later := by
  obtain ⟨written, read⟩ := grows_of_write h
  obtain ⟨later, removed⟩ := removeFile_of_read read
  obtain ⟨grows, gone⟩ := grows_of_removeFile removed
  rw [written.target] at grows gone
  refine ⟨later, removed, ⟨grows.workingDirectory.trans written.workingDirectory,
    fun place there => grows.directories place (written.directories place there),
    fun place held apart => (grows.files place held apart).trans (written.files place held apart)⟩,
    fun held there => absurd there (gone held)⟩

/-- A temporary file that was written is moved to its path. -/
theorem swaps_of_moveFile (h : d.write source bytes = .ok middle)
    (moved : middle.moveFile source path = .ok later)
    : Swaps (d.target source) (d.target path) bytes d later ∧ later.read path = .ok bytes := by
  obtain ⟨written, held⟩ := grows_of_write h
  obtain ⟨other, read, there, grows, gone⟩ := grows_of_moveFile moved
  obtain rfl := Except.ok.inj (held.symm.trans read)
  rw [written.target, written.target] at grows gone
  refine ⟨⟨⟨grows.workingDirectory.trans written.workingDirectory,
    fun place isDirectory => grows.directories place (written.directories place isDirectory),
    fun place held apart => (grows.files place held apart).trans (written.files place held ?_)⟩,
    ?_, gone⟩, there⟩
  · exact fun member => apart (by simp [List.mem_singleton.mp member])
  · rw [← written.target path, ← grows.target path]
    exact file_of_read there

end Folio.Files.Disk
