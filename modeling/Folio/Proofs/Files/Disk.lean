import Folio.Files.Disk
import Folio.Proofs.Chain
import Folio.Proofs.Files.Path
import Folio.Proofs.Files.Tree

/-! What operations on a disk change. A path that was found before is found at the same place as
long as no directory is taken away, and a file that was written is read until its place is written
again.
-/

namespace Folio.Files.Disk

/-- The place to which steps lead from a place, whatever there is. -/
def follow (place steps : List String) : List String :=
  steps.foldl (fun place step => if step == ".." then place.dropLast else place ++ [step]) place

/-- The place that a path names, whatever there is. -/
def target (d : Disk) (path : String) : List String :=
  follow [] (Path.steps (Path.join d.workingDirectory path))

/-- Holds if the directories of a disk are still on a later one, and so are its files, and no
others, except that at some places there may be others.
-/
structure Grows (except : List (List String)) (d later : Disk) : Prop where
  workingDirectory : later.workingDirectory = d.workingDirectory
  directories
    : ∀ place, d.root.shapeAt? place = some .directory
        → later.root.shapeAt? place = some .directory
  files
    : ∀ place bytes, place ∉ except
        → (later.root.shapeAt? place = some (.file bytes)
            ↔ d.root.shapeAt? place = some (.file bytes))

/-- Holds if there is no file at a place, nor in a directory there. -/
def Vacant (d : Disk) (place : List String) : Prop :=
  ∀ inner bytes, d.root.shapeAt? (place ++ inner) ≠ some (.file bytes)

variable {d later : Disk} {path : String} {except : List (List String)}

theorem Grows.refl (d : Disk) : Grows [] d d where
  workingDirectory := rfl
  directories := fun _ h => h
  files := fun _ _ _ => Iff.rfl

/-- What grew twice grew, with the exceptions of the second time if there were none before. -/
theorem Grows.trans {middle : Disk} (first : Grows [] d middle) (second : Grows except middle later)
    : Grows except d later where
  workingDirectory := second.workingDirectory.trans first.workingDirectory
  directories := fun place h => second.directories place (first.directories place h)
  files := fun place bytes apart =>
    (second.files place bytes apart).trans (first.files place bytes List.not_mem_nil)

/-- A path names the same place as before. -/
theorem Grows.target (grows : Grows except d later) (path : String)
    : later.target path = d.target path := by
  rw [Disk.target, grows.workingDirectory]
  rfl

-----------------------------------------------------------------------------------------
-- Finding the place of a path
-----------------------------------------------------------------------------------------

/-- A walk that succeeds ends at the place to which its pieces lead. -/
theorem walk_follow {root : Entry} {place pieces names : List String}
    (h : walk root place pieces = .ok names)
    : names = follow place pieces := by
  induction pieces generalizing place with
  | nil => exact (Except.ok.inj h).symm
  | cons piece rest ih =>
      unfold walk at h
      rw [follow, List.foldl_cons]
      split at h
      · exact nomatch h
      · exact nomatch h
      · split at h
        · next up => rw [if_pos up]; exact ih h
        · next up =>
            split at h
            · exact nomatch h
            · rw [if_neg up]; exact ih h

/-- All names on a walk are those of directories. -/
theorem walk_leads {root : Entry} {place pieces names : List String}
    (h : walk root place pieces = .ok names) (leads : root.Leads place)
    : root.Leads names := by
  induction pieces generalizing place with
  | nil => exact Except.ok.inj h ▸ leads
  | cons piece rest ih =>
      unfold walk at h
      split at h
      · exact nomatch h
      · exact nomatch h
      · next found =>
          split at h
          · exact ih h leads.dropLast
          · split at h
            · exact nomatch h
            · exact ih h (Entry.leads_append_singleton piece (by rw [Entry.shapeAt?, found]; rfl))

/-- A walk succeeds again as long as its directories are there. -/
theorem walk_mono {root wider : Entry} {place pieces names : List String}
    (directories : ∀ place, root.shapeAt? place = some .directory
      → wider.shapeAt? place = some .directory)
    (h : walk root place pieces = .ok names)
    : walk wider place pieces = .ok names := by
  induction pieces generalizing place with
  | nil => exact h
  | cons piece rest ih =>
      unfold walk at h ⊢
      split at h
      · exact nomatch h
      · exact nomatch h
      · next found =>
          obtain ⟨entries, still⟩ := Entry.shapeAt?_eq_directory.mp
            (directories place (Entry.shapeAt?_eq_directory.mpr ⟨_, found⟩))
          rw [still]
          dsimp only
          split at h
          · next up => rw [if_pos up]; exact ih h
          · next up =>
              rw [if_neg up]
              split at h
              · exact nomatch h
              · next short => rw [if_neg short]; exact ih h

/-- A directory is entered if it is there. -/
theorem enter_eq_ok {root : Entry} {place : List String}
    : enter root place = .ok () ↔ root.shapeAt? place = some .directory := by
  unfold enter Entry.shapeAt?
  cases root.get? place with
  | none => exact iff_of_false (fun h => by cases h) (fun h => by cases h)
  | some e =>
      cases e with
      | file bytes => exact iff_of_false (fun h => by cases h) (fun h => by cases h)
      | directory entries => exact iff_of_true rfl rfl

/-- A path that can be one is found if a walk along its steps succeeds, to a directory if it ends in
`.`.
-/
theorem locate_eq_ok {place : Place}
    : d.locate path = .ok place
      ↔ path.toList.contains '\x00' = false ∧ path.isEmpty = false
        ∧ ¬path.utf8ByteSize > maxPathSize
        ∧ walk d.root [] (Path.steps (Path.join d.workingDirectory path)) = .ok place.names
        ∧ (Path.endsHere path = true → d.root.shapeAt? place.names = some .directory)
        ∧ place.asDirectory
          = (Path.pieces (Path.join d.workingDirectory path)).getLast?.any Path.isIdle := by
  unfold locate Path.steps
  by_cases cut : path.toList.contains '\x00' = true
  · rw [if_pos cut]
    exact ⟨fun h => (nomatch h), fun h => absurd cut (ne_true_of_eq_false h.1)⟩
  · by_cases unnamed : path.isEmpty = true
    · rw [if_neg cut, if_pos unnamed]
      exact ⟨fun h => (nomatch h), fun h => absurd unnamed (ne_true_of_eq_false h.2.1)⟩
    · by_cases long : path.utf8ByteSize > maxPathSize
      · rw [if_neg cut, if_neg unnamed, if_pos long]
        exact ⟨fun h => (nomatch h), fun h => absurd long h.2.2.1⟩
      · rw [if_neg cut, if_neg unnamed, if_neg long]
        constructor
        · intro h
          obtain ⟨names, walked, h⟩ := bind_eq_ok.mp h
          have usable := And.intro (eq_false_of_ne_true cut) (eq_false_of_ne_true unnamed)
          split at h
          · obtain ⟨_, entered, h⟩ := bind_eq_ok.mp h
            obtain rfl := Except.ok.inj h
            exact ⟨usable.1, usable.2, long, walked, fun _ => enter_eq_ok.mp entered, rfl⟩
          · next elsewhere =>
              obtain rfl := Except.ok.inj h
              exact ⟨usable.1, usable.2, long, walked, fun here => absurd here elsewhere, rfl⟩
        · obtain ⟨names, asDirectory⟩ := place
          rintro ⟨-, -, -, walked, ended, rfl⟩
          refine bind_eq_ok.mpr ⟨names, walked, ?_⟩
          split
          · next here => exact bind_eq_ok.mpr ⟨(), enter_eq_ok.mpr (ended here), rfl⟩
          · rfl

/-- A path is found at the place that it names, and directories lead there. -/
theorem target_of_locate {place : Place} (h : d.locate path = .ok place)
    : place.names = d.target path ∧ d.root.Leads place.names := by
  obtain ⟨-, -, -, walked, -⟩ := locate_eq_ok.mp h
  exact ⟨walk_follow walked, walk_leads walked fun outer name inner same => by simp at same⟩

/-- A path is found again where it was. -/
theorem Grows.locate {place : Place} (grows : Grows except d later)
    (h : d.locate path = .ok place)
    : later.locate path = .ok place := by
  obtain ⟨whole, named, short, walked, ended, asDirectory⟩ := locate_eq_ok.mp h
  rw [← grows.workingDirectory] at walked asDirectory
  exact locate_eq_ok.mpr ⟨whole, named, short, walk_mono grows.directories walked,
    fun here => grows.directories _ (ended here), asDirectory⟩

/-- Steps that never lead outwards are added to a place. -/
theorem follow_downwards {place steps : List String} (downwards : ".." ∉ steps)
    : follow place steps = place ++ steps := by
  induction steps generalizing place with
  | nil => exact (List.append_nil place).symm
  | cons step rest ih =>
      have down : (step == "..") = false :=
        beq_eq_false_iff_ne.mpr fun up => downwards (up ▸ List.mem_cons_self)
      have later : ".." ∉ rest := fun member => downwards (List.mem_cons_of_mem _ member)
      show follow (if step == ".." then place.dropLast else place ++ [step]) rest = _
      rw [down, if_neg Bool.false_ne_true, ih later, List.append_assoc]
      rfl

/-- A path below a directory names a place below that of the directory. -/
theorem target_join (d : Disk) (directory : String) {path : String}
    (relative : Path.isAbsolute path = false) (downwards : ".." ∉ Path.steps path)
    : d.target (Path.join directory path) = d.target directory ++ Path.steps path := by
  rw [target, target, Path.steps_join_join _ _ relative, follow, List.foldl_append]
  exact follow_downwards downwards

-----------------------------------------------------------------------------------------
-- What is found at a path
-----------------------------------------------------------------------------------------

/-- What is found at a path is what is at its place, unless it is a file and the path is one that
only directories can have.
-/
theorem find_eq_ok {e : Entry}
    : d.find path = .ok e
      ↔ ∃ place, d.locate path = .ok place ∧ d.root.get? place.names = some e
          ∧ (e.isDirectory = false → place.asDirectory = false) := by
  constructor
  · intro h
    obtain ⟨place, located, h⟩ := bind_eq_ok.mp h
    refine ⟨place, located, ?_⟩
    split at h
    · exact nomatch h
    · next bytes there =>
        split at h
        · exact nomatch h
        · next fits =>
            obtain rfl := Except.ok.inj h
            exact ⟨there, fun _ => eq_false_of_ne_true fits⟩
    · next other noFile there =>
        obtain rfl := Except.ok.inj h
        refine ⟨there, fun isFile => ?_⟩
        cases other with
        | file bytes => exact absurd rfl (noFile bytes)
        | directory entries => exact nomatch isFile
  · rintro ⟨place, located, there, fits⟩
    refine bind_eq_ok.mpr ⟨place, located, ?_⟩
    rw [there]
    cases e with
    | file bytes =>
        rw [fits rfl]
        rfl
    | directory entries => rfl

/-- A file is read if it is at the place of a path that can be one of a file. -/
theorem read_eq_ok {bytes : Bytes}
    : d.read path = .ok bytes
      ↔ ∃ place, d.locate path = .ok place ∧ place.asDirectory = false
          ∧ d.root.shapeAt? place.names = some (.file bytes) := by
  simp only [Entry.shapeAt?_eq_file]
  constructor
  · intro h
    obtain ⟨e, found, h⟩ := bind_eq_ok.mp h
    cases e with
    | directory entries => exact nomatch h
    | file held =>
        obtain rfl := Except.ok.inj h
        obtain ⟨place, located, there, fits⟩ := find_eq_ok.mp found
        exact ⟨place, located, fits rfl, there⟩
  · rintro ⟨place, located, fits, there⟩
    exact bind_eq_ok.mpr ⟨.file bytes, find_eq_ok.mpr ⟨place, located, there, fun _ => fits⟩, rfl⟩

/-- There is a directory at a path if there is one at its place. -/
theorem hasDirectory_eq_true
    : d.hasDirectory path = true
      ↔ ∃ place, d.locate path = .ok place
          ∧ d.root.shapeAt? place.names = some .directory := by
  simp only [Entry.shapeAt?_eq_directory]
  unfold hasDirectory
  constructor
  · intro h
    split at h
    · next e found =>
        obtain ⟨place, located, there, -⟩ := find_eq_ok.mp found
        cases e with
        | file bytes => exact nomatch h
        | directory entries => exact ⟨place, located, entries, there⟩
    · exact nomatch h
  · rintro ⟨place, located, entries, there⟩
    rw [find_eq_ok.mpr ⟨place, located, there, fun isFile => nomatch isFile⟩]
    rfl

theorem has_of_hasDirectory (h : d.hasDirectory path = true) : d.has path = true := by
  unfold hasDirectory at h
  unfold has
  split at h
  · rfl
  · exact nomatch h

/-- A text is read if a file is, and its bytes write the text. -/
theorem readText_eq_ok {text : String}
    : d.readText path = .ok text
      ↔ ∃ bytes, d.read path = .ok bytes ∧ Text.ofUtf8? bytes = some text := by
  constructor
  · intro h
    obtain ⟨bytes, read, h⟩ := bind_eq_ok.mp h
    refine ⟨bytes, read, ?_⟩
    split at h
    · next written => exact written.trans (congrArg some (Except.ok.inj h))
    · cases h
  · rintro ⟨bytes, read, written⟩
    refine bind_eq_ok.mpr ⟨bytes, read, ?_⟩
    rw [written]
    rfl

theorem file_of_read {bytes : Bytes} (h : d.read path = .ok bytes)
    : d.root.shapeAt? (d.target path) = some (.file bytes) := by
  obtain ⟨place, located, -, there⟩ := read_eq_ok.mp h
  rw [← (target_of_locate located).1]
  exact there

/-- A file is read as before unless its place is an exception. -/
theorem Grows.read {bytes : Bytes} (grows : Grows except d later)
    (apart : d.target path ∉ except) (h : d.read path = .ok bytes)
    : later.read path = .ok bytes := by
  obtain ⟨place, found, isFile, bytesAt⟩ := read_eq_ok.mp h
  have named := (target_of_locate found).1
  exact read_eq_ok.mpr ⟨place, grows.locate found, isFile,
    (grows.files place.names bytes (named ▸ apart)).mpr bytesAt⟩

/-- A text is read as before unless the place of its file is an exception. -/
theorem Grows.readText {text : String} (grows : Grows except d later)
    (apart : d.target path ∉ except) (h : d.readText path = .ok text)
    : later.readText path = .ok text := by
  obtain ⟨bytes, read, written⟩ := readText_eq_ok.mp h
  exact readText_eq_ok.mpr ⟨bytes, grows.read apart read, written⟩

theorem Grows.hasDirectory (grows : Grows except d later) (h : d.hasDirectory path = true)
    : later.hasDirectory path = true := by
  obtain ⟨place, found, isDirectory⟩ := hasDirectory_eq_true.mp h
  exact hasDirectory_eq_true.mpr
    ⟨place, grows.locate found, grows.directories place.names isDirectory⟩

-----------------------------------------------------------------------------------------
-- Writing, making and taking away
-----------------------------------------------------------------------------------------

/-- A file that was written is read, and all else is as before. -/
theorem grows_of_write {bytes : Bytes} (h : d.write path bytes = .ok later)
    : Grows [d.target path] d later ∧ later.read path = .ok bytes := by
  obtain ⟨place, located, h⟩ := bind_eq_ok.mp h
  obtain ⟨named, leads⟩ := target_of_locate located
  have written
      : d.root.shapeAt? place.names ≠ some .directory ∧ place.asDirectory = false
        ∧ later = { d with root := d.root.put (.file bytes) place.names } := by
    split at h
    · cases h
    · next held there =>
        dsimp only at h
        split at h
        · cases h
        · next isFile =>
            exact ⟨by simp [Entry.shapeAt?, there, Entry.shape], eq_false_of_ne_true isFile,
              (Except.ok.inj h).symm⟩
    · next there =>
        dsimp only at h
        split at h
        · cases h
        · next isFile =>
            exact ⟨by simp [Entry.shapeAt?, there], eq_false_of_ne_true isFile,
              (Except.ok.inj h).symm⟩
  obtain ⟨free, isFile, rfl⟩ := written
  have changed (other : List String)
      : (d.root.put (.file bytes) place.names).shapeAt? other
        = if other = place.names then some (.file bytes) else d.root.shapeAt? other :=
    Entry.shapeAt?_put leads free rfl other
  have grows : Grows [d.target path] d { d with root := d.root.put (.file bytes) place.names } := by
    refine ⟨rfl, fun other isDirectory => ?_, fun other held apart => ?_⟩
    · have elsewhere : other ≠ place.names := fun same => free (same ▸ isDirectory)
      rw [changed, if_neg elsewhere]
      exact isDirectory
    · have elsewhere : other ≠ place.names := fun same =>
        apart (List.mem_singleton.mpr (same.trans named))
      rw [changed, if_neg elsewhere]
  refine ⟨grows, read_eq_ok.mpr ⟨place, grows.locate located, isFile, ?_⟩⟩
  rw [changed, if_pos rfl]

/-- A directory that was made is there, and all else is as before. -/
theorem grows_of_makeDirectory (h : d.makeDirectory path = .ok later)
    : Grows [] d later ∧ later.hasDirectory path = true := by
  obtain ⟨place, located, h⟩ := bind_eq_ok.mp h
  obtain ⟨named, leads⟩ := target_of_locate located
  split at h
  · exact nomatch h
  · next nothing =>
      obtain rfl := Except.ok.inj h
      have free : d.root.shapeAt? place.names = none := by rw [Entry.shapeAt?, nothing]; rfl
      have changed (other : List String)
          : (d.root.put .empty place.names).shapeAt? other
            = if other = place.names then some .directory else d.root.shapeAt? other :=
        Entry.shapeAt?_put leads (by simp [free]) rfl other
      have grows : Grows [] d { d with root := d.root.put .empty place.names } := by
        refine ⟨rfl, fun other isDirectory => ?_, fun other held _ => ?_⟩
        · have elsewhere : other ≠ place.names := fun same => by
            simp [same, free] at isDirectory
          rw [changed, if_neg elsewhere]
          exact isDirectory
        · rw [changed]
          split
          · next same => simp [same, free]
          · rfl
      refine ⟨grows, hasDirectory_eq_true.mpr ⟨place, grows.locate located, ?_⟩⟩
      rw [changed, if_pos rfl]

/-- A directory that was ensured is there, and all else is as before. -/
theorem grows_of_ensureDirectory (h : d.ensureDirectory path = .ok later)
    : Grows [] d later ∧ later.hasDirectory path = true := by
  unfold ensureDirectory at h
  split at h
  · next made =>
      obtain rfl := Except.ok.inj h
      exact grows_of_makeDirectory made
  · split at h
    · next there =>
        obtain rfl := Except.ok.inj h
        exact ⟨Grows.refl _, there⟩
    · exact nomatch h

/-- Making directories only adds some, by induction on the room that is left; without an error the
directory of the path is one of them.
-/
theorem grows_make (d : Disk) (path : String) (room : Nat)
    : Grows [] d (makeDirectories.make d path room).1
      ∧ ((makeDirectories.make d path room).2 = none → path ≠ "" → room ≠ 0
        → (makeDirectories.make d path room).1.hasDirectory path = true) := by
  induction room generalizing path with
  | zero => exact ⟨Grows.refl d, fun _ _ noRoom => absurd rfl noRoom⟩
  | succ room ih =>
      unfold makeDirectories.make
      split
      · next unnamed =>
          refine ⟨Grows.refl d, fun _ named _ => absurd ?_ named⟩
          simpa using unnamed
      · split
        · next ensured =>
            obtain ⟨grows, there⟩ := grows_of_ensureDirectory ensured
            exact ⟨grows, fun _ _ _ => there⟩
        · split
          · exact ⟨Grows.refl d, fun noError => nomatch noError⟩
          · next outer _ =>
              obtain ⟨grows, -⟩ := ih outer
              split
              · next made => exact ⟨made ▸ grows, fun noError => nomatch noError⟩
              · next middle made =>
                  rw [made] at grows
                  split
                  · next ensured =>
                      obtain ⟨more, there⟩ := grows_of_ensureDirectory ensured
                      exact ⟨grows.trans more, fun _ _ _ => there⟩
                  · exact ⟨grows, fun noError => nomatch noError⟩
        · exact ⟨Grows.refl d, fun noError => nomatch noError⟩

/-- Directories were made without an error: they are there, and all else is as before. -/
theorem grows_of_makeDirectories (d : Disk) (path : String)
    : Grows [] d (d.makeDirectories path).1
      ∧ ((d.makeDirectories path).2 = none → path ≠ ""
        → (d.makeDirectories path).1.hasDirectory path = true) := by
  obtain ⟨grows, there⟩ := grows_make d path path.length
  refine ⟨grows, fun noError named => there noError named fun noRoom => named ?_⟩
  exact String.length_eq_zero_iff.mp noRoom

/-- Where a directory was taken away there is no file left. -/
theorem vacant_of_removeDirectory (h : d.removeDirectory path = .ok later)
    : later.workingDirectory = d.workingDirectory ∧ later.Vacant (d.target path) := by
  obtain ⟨place, located, h⟩ := bind_eq_ok.mp h
  obtain ⟨named, -⟩ := target_of_locate located
  split at h
  · exact nomatch h
  · exact nomatch h
  · obtain rfl := Except.ok.inj h
    exact ⟨rfl, named ▸ Entry.shapeAt?_erase_below d.root place.names⟩

/-- Taking a directory away adds no file. -/
theorem file_of_removeDirectory (h : d.removeDirectory path = .ok later) {place : List String}
    {bytes : Bytes} (there : later.root.shapeAt? place = some (.file bytes))
    : d.root.shapeAt? place = some (.file bytes) := by
  obtain ⟨found, -, h⟩ := bind_eq_ok.mp h
  split at h
  · cases h
  · cases h
  · obtain rfl := Except.ok.inj h
    exact Entry.file_of_shapeAt?_erase there

/-- There is no file in an empty directory. -/
theorem vacant_of_find (h : d.find path = .ok .empty) : d.Vacant (d.target path) := by
  obtain ⟨place, located, there, -⟩ := find_eq_ok.mp h
  rw [← (target_of_locate located).1]
  intro inner bytes
  rw [Entry.shapeAt?, Entry.get?_append, there]
  cases inner <;> simp [Entry.get?, Entry.empty, Entry.entries, Entry.shape]

/-- Without exceptions no file is added. -/
theorem Grows.vacant (grows : Grows [] d later) {place : List String} (h : d.Vacant place)
    : later.Vacant place :=
  fun inner bytes there => h inner bytes ((grows.files _ bytes List.not_mem_nil).mp there)

end Folio.Files.Disk
