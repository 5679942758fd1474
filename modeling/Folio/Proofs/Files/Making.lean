import Folio.Proofs.Files.Parent

/-! Making what is missing. A path that goes on by names from a directory that is there can be made
if there are no files on its way; then exactly the directories along the way are new, and a file can
be written at the end.
-/

namespace Folio.Files.Disk

variable {d later : Disk} {path name : String} {place names inner : List String}

-----------------------------------------------------------------------------------------
-- Paths on whose way nothing stands
-----------------------------------------------------------------------------------------

/-- Holds for texts that the operating system takes as paths. -/
structure IsUsable (path : String) : Prop where
  noNul : '\x00' ∉ path.toList
  short : path.utf8ByteSize ≤ maxPathSize

instance (path : String) : Decidable (IsUsable path) :=
  decidable_of_iff ('\x00' ∉ path.toList ∧ path.utf8ByteSize ≤ maxPathSize)
    ⟨fun h => ⟨h.1, h.2⟩, fun h => ⟨h.noNul, h.short⟩⟩

/-- Holds for paths that lead to a directory at a place and go on from there by names, along which
there are no files. They do not end in `.`, which is no name for a new directory.
-/
structure IsOpen (d : Disk) (path : String) (place names : List String) : Prop where
  usable : IsUsable path
  ends : Path.endsHere path = true → Path.steps path = []
  leads
    : ∃ outer, Path.steps (Path.join d.workingDirectory path) = outer ++ names
        ∧ walk d.root [] outer = .ok place
  inside : d.root.shapeAt? place = some .directory
  entries : ∀ name ∈ names, IsEntryName name
  free : ∀ inner bytes, inner <+: names → d.root.shapeAt? (place ++ inner) ≠ some (.file bytes)

def HasWorkingDirectory (d : Disk) : Prop :=
  ∃ place, walk d.root [] (Path.steps d.workingDirectory) = .ok place
    ∧ d.root.shapeAt? place = some .directory

/-- Holds if a disk has become a later one by making the directories along names. -/
structure Made (d later : Disk) (place names : List String) : Prop where
  workingDirectory : later.workingDirectory = d.workingDirectory
  made : ∀ inner, inner <+: names → later.root.shapeAt? (place ++ inner) = some .directory
  others
    : ∀ other, (∀ inner, inner <+: names → other ≠ place ++ inner)
        → later.root.shapeAt? other = d.root.shapeAt? other

/-- Around a directory there are directories. -/
theorem shapeAt?_of_prefix {root : Entry} {outer : List String} (h : outer <+: names)
    (there : root.shapeAt? (place ++ names) = some .directory)
    : root.shapeAt? (place ++ outer) = some .directory := by
  obtain ⟨more, rfl⟩ := h
  cases more with
  | nil =>
      rw [List.append_nil] at there
      exact there
  | cons first rest =>
      rw [← List.append_assoc] at there
      exact Entry.shapeAt?_outer there

/-- Nothing is made where a directory is. -/
theorem made_refl (there : d.root.shapeAt? (place ++ names) = some .directory)
    : Made d d place names where
  workingDirectory := rfl
  made := fun _ front => shapeAt?_of_prefix front there
  others := fun _ _ => rfl

/-- Directories stay, and files too. -/
theorem Made.grows (h : Made d later place names)
    (free : ∀ inner bytes, inner <+: names → d.root.shapeAt? (place ++ inner) ≠ some (.file bytes))
    : Grows [] d later where
  workingDirectory := h.workingDirectory
  directories := by
    intro other there
    by_cases along : ∃ inner, inner <+: names ∧ other = place ++ inner
    · obtain ⟨inner, front, rfl⟩ := along
      exact h.made inner front
    · rw [h.others other fun inner front same => along ⟨inner, front, same⟩]
      exact there
  files := by
    intro other bytes _
    by_cases along : ∃ inner, inner <+: names ∧ other = place ++ inner
    · obtain ⟨inner, front, rfl⟩ := along
      rw [h.made inner front]
      exact iff_of_false (fun same => by cases same) (free inner bytes front)
    · rw [h.others other fun inner front same => along ⟨inner, front, same⟩]

theorem Grows.hasWorkingDirectory {except : List (List String)} (grows : Grows except d later)
    (working : d.HasWorkingDirectory)
    : later.HasWorkingDirectory := by
  obtain ⟨reached, walked, there⟩ := working
  refine ⟨reached, ?_, grows.directories reached there⟩
  rw [grows.workingDirectory]
  exact walk_mono grows.directories walked

/-- The names around the last one are names of entries, and there are no files along them. -/
theorem IsOpen.around (h : d.IsOpen path place (inner ++ [name]))
    : (∀ step ∈ inner, IsEntryName step)
      ∧ ∀ front bytes, front <+: inner → d.root.shapeAt? (place ++ front) ≠ some (.file bytes) := by
  constructor
  · intro step member
    exact h.entries step (List.mem_append_left _ member)
  · intro front bytes before
    exact h.free front bytes (before.trans (List.prefix_append _ _))

-----------------------------------------------------------------------------------------
-- Walking along such a path
-----------------------------------------------------------------------------------------

/-- A walk along names ends too early if something is missing before its last step, and there are no
files on the way. By induction on the names up to there.
-/
theorem walk_missing {root : Entry} (inside : root.shapeAt? place = some .directory)
    (entries : ∀ name ∈ names, IsEntryName name)
    (free : ∀ inner bytes, inner <+: names → root.shapeAt? (place ++ inner) ≠ some (.file bytes))
    (missing : root.shapeAt? (place ++ names) = none) (step : String)
    : walk root place (names ++ [step]) = .error .notFound := by
  induction names generalizing place with
  | nil =>
      rw [List.append_nil, inside] at missing
      cases missing
  | cons name rest ih =>
      obtain ⟨first, later⟩ := List.forall_mem_cons.mp entries
      obtain ⟨held, here⟩ := Entry.shapeAt?_eq_directory.mp inside
      have next : walk root place (name :: rest ++ [step])
          = walk root (place ++ [name]) (rest ++ [step]) := by
        rw [List.cons_append, walk, here]
        simp [first.notUp, Nat.not_lt.mpr first.short]
      rw [next]
      rw [List.append_cons] at missing
      cases there : root.shapeAt? (place ++ [name]) with
      | none =>
          have absent : root.get? (place ++ [name]) = none := Option.map_eq_none_iff.mp there
          cases rest with
          | nil => rw [List.nil_append, walk, absent]
          | cons other more => rw [List.cons_append, walk, absent]
      | some shape =>
          cases shape with
          | file bytes => exact absurd there (free [name] bytes ⟨rest, rfl⟩)
          | directory =>
              refine ih there later ?_ missing
              intro inner bytes front
              rw [List.append_assoc]
              exact free (name :: inner) bytes (List.cons_prefix_cons.mpr ⟨rfl, front⟩)

/-- Holds for paths that only directories can have, wherever they lead. -/
def isForDirectory (d : Disk) (path : String) : Bool :=
  (Path.pieces (Path.join d.workingDirectory path)).getLast?.any Path.isIdle

/-- A path without any step leads to the working directory or the root, so that it is there. -/
theorem IsOpen.there (h : d.IsOpen path place names) (working : d.HasWorkingDirectory)
    (nothing : Path.steps path = [])
    : d.root.shapeAt? (place ++ names) = some .directory := by
  obtain ⟨outer, steps, first⟩ := h.leads
  cases absolute : Path.isAbsolute path with
  | true =>
      rw [Path.join_absolute _ absolute, nothing] at steps
      obtain ⟨-, rfl⟩ := List.append_eq_nil_iff.mp steps.symm
      exact (List.append_nil place).symm ▸ h.inside
  | false =>
      rw [Path.steps_join absolute, nothing, List.append_nil] at steps
      obtain ⟨reached, walked, there⟩ := working
      rw [steps, walk_append, first] at walked
      have along : walk d.root place names = .ok reached := walked
      have ends : reached = place ++ names :=
        (walk_follow along).trans (follow_downwards fun up => (h.entries _ up).notUp rfl)
      exact ends ▸ there

/-- A path that the operating system takes is found where a walk along its steps ends, if it does
not end in `.` or a directory is there.
-/
theorem IsUsable.locate (h : IsUsable path) (named : path ≠ "")
    (walked : walk d.root [] (Path.steps (Path.join d.workingDirectory path)) = .ok names)
    (ended : Path.endsHere path = true → d.root.shapeAt? names = some .directory)
    : d.locate path = .ok { names, asDirectory := d.isForDirectory path } :=
  locate_eq_ok.mpr
    ⟨by simpa using h.noNul, by simpa using named, Nat.not_lt.mpr h.short, walked, ended, rfl⟩

/-- A path is found at its place if all directories on its way are there. -/
theorem IsOpen.locate (h : d.IsOpen path place (inner ++ [name]))
    (working : d.HasWorkingDirectory) (named : path ≠ "")
    (around : d.root.shapeAt? (place ++ inner) = some .directory)
    : d.locate path
      = .ok { names := place ++ (inner ++ [name]), asDirectory := d.isForDirectory path } := by
  obtain ⟨outer, steps, first⟩ := h.leads
  obtain ⟨held, here⟩ := Entry.shapeAt?_eq_directory.mp around
  have last : IsEntryName name := h.entries name (by simp)
  have along : walk d.root place inner = .ok (place ++ inner) :=
    walk_entries h.around.1 around
  refine h.usable.locate named ?_ fun here => h.there working (h.ends here)
  rw [steps, walk_append, first]
  show walk d.root place (inner ++ [name]) = _
  rw [walk_append, along]
  show walk d.root (place ++ inner) [name] = _
  rw [walk, here]
  simp [last.notUp, Nat.not_lt.mpr last.short, walk]

/-- A path is not found if a directory on its way is missing. -/
theorem IsOpen.locate_missing (h : d.IsOpen path place (inner ++ [name])) (named : path ≠ "")
    (missing : d.root.shapeAt? (place ++ inner) = none)
    : d.locate path = .error .notFound := by
  obtain ⟨outer, steps, first⟩ := h.leads
  have walked : walk d.root place (inner ++ [name]) = .error .notFound :=
    walk_missing h.inside h.around.1 h.around.2 missing name
  have noNul : ¬path.toList.contains '\x00' = true := by simpa using h.usable.noNul
  have notEmpty : ¬path.isEmpty = true := by simpa using named
  unfold Disk.locate
  rw [if_neg noNul, if_neg notEmpty, if_neg (Nat.not_lt.mpr h.usable.short)]
  show (walk d.root [] (Path.steps (Path.join d.workingDirectory path))).bind _ = _
  rw [steps, walk_append, first]
  show (walk d.root place (inner ++ [name])).bind _ = _
  rw [walked]
  rfl

-----------------------------------------------------------------------------------------
-- Making the directories of a path
-----------------------------------------------------------------------------------------

/-- A directory that is there stays as it is. -/
theorem ensureDirectory_of_there (there : d.hasDirectory path = true)
    : d.ensureDirectory path = .ok d := by
  obtain ⟨found, located, shape⟩ := hasDirectory_eq_true.mp there
  obtain ⟨held, here⟩ := Entry.shapeAt?_eq_directory.mp shape
  have taken : d.makeDirectory path = .error .alreadyExists := by
    simp only [makeDirectory, located, bind, Except.bind, here]
    rfl
  rw [ensureDirectory, taken]
  exact if_pos there

/-- Nothing is made at the path of a directory that is there. -/
theorem makeDirectories_of_there (there : d.hasDirectory path = true)
    : d.makeDirectories path = (d, none) := by
  obtain ⟨found, located, -⟩ := hasDirectory_eq_true.mp there
  have named := ne_empty_of_locate located
  obtain ⟨room, enough⟩ := Nat.exists_eq_succ_of_ne_zero (mt String.length_eq_zero_iff.mp named)
  have notEmpty : ¬path.isEmpty = true := by simpa using named
  rw [makeDirectories, enough, makeDirectories.make, if_neg notEmpty,
    ensureDirectory_of_there there]

/-- Nothing is made where the way to a path is missing. -/
theorem ensureDirectory_of_missing (missing : d.locate path = .error .notFound)
    : d.ensureDirectory path = .error .notFound := by
  have failed : d.makeDirectory path = .error .notFound := by
    simp only [makeDirectory, missing, bind, Except.bind]
  have absent : ¬d.hasDirectory path = true := by
    intro there
    obtain ⟨found, located, -⟩ := hasDirectory_eq_true.mp there
    rw [missing] at located
    cases located
  rw [ensureDirectory, failed]
  exact if_neg absent

/-- A path without more names is that of the directory itself. -/
theorem IsOpen.hasDirectory (h : d.IsOpen path place []) (named : path ≠ "")
    : d.hasDirectory path = true := by
  obtain ⟨outer, steps, first⟩ := h.leads
  rw [List.append_nil] at steps
  exact hasDirectory_eq_true.mpr
    ⟨_, h.usable.locate named (by rw [steps, first]) fun _ => h.inside, h.inside⟩

/-- The last directory of a path is made if it is missing. -/
theorem IsOpen.ensureDirectory (h : d.IsOpen path place (inner ++ [name]))
    (working : d.HasWorkingDirectory) (named : path ≠ "")
    (around : d.root.shapeAt? (place ++ inner) = some .directory)
    : ∃ later, d.ensureDirectory path = .ok later ∧ Made d later place (inner ++ [name]) := by
  have located := h.locate working named around
  cases shape : d.root.shapeAt? (place ++ (inner ++ [name])) with
  | some held =>
      cases held with
      | file bytes => exact absurd shape (h.free _ bytes (List.prefix_refl _))
      | directory =>
          refine ⟨d, ensureDirectory_of_there ?_, made_refl shape⟩
          exact hasDirectory_eq_true.mpr ⟨_, located, shape⟩
  | none =>
      have absent : d.root.get? (place ++ (inner ++ [name])) = none :=
        Option.map_eq_none_iff.mp shape
      have made : d.makeDirectory path
          = .ok { d with root := d.root.put .empty (place ++ (inner ++ [name])) } := by
        simp only [makeDirectory, located, bind, Except.bind, absent]
        rfl
      have changed (other : List String)
          : (d.root.put .empty (place ++ (inner ++ [name]))).shapeAt? other
            = if other = place ++ (inner ++ [name]) then some .directory
              else d.root.shapeAt? other := by
        refine Entry.shapeAt?_put (target_of_locate located).2 ?_ rfl other
        rw [shape]
        intro same
        cases same
      refine ⟨{ d with root := d.root.put .empty (place ++ (inner ++ [name])) }, ?_, rfl, ?_, ?_⟩
      · rw [Disk.ensureDirectory, made]
      · intro front before
        rw [changed]
        split
        · rfl
        · next other =>
            rcases List.prefix_concat_iff.mp before with rfl | before
            · exact absurd rfl other
            · exact shapeAt?_of_prefix before around
      · intro other apart
        rw [changed, if_neg (apart _ (List.prefix_refl _))]

/-- Making the directories around a path adds some, and no files. -/
theorem IsOpen.grows (h : d.IsOpen path place (inner ++ [name])) (made : Made d later place inner)
    : Grows [] d later :=
  made.grows h.around.2

/-- After the directories around a path were made, it is still one on whose way nothing stands. -/
theorem IsOpen.after (h : d.IsOpen path place (inner ++ [name])) (made : Made d later place inner)
    : later.IsOpen path place (inner ++ [name]) := by
  have grows := h.grows made
  obtain ⟨outer, steps, first⟩ := h.leads
  refine ⟨h.usable, h.ends, ⟨outer, ?_, walk_mono grows.directories first⟩,
    grows.directories place h.inside, h.entries, ?_⟩
  · rw [made.workingDirectory]
    exact steps
  · intro front bytes before there
    exact h.free front bytes before ((grows.files _ bytes List.not_mem_nil).mp there)

/-- The directories around a path are made, and then its last one. -/
theorem Made.concat {middle : Disk} (first : Made d middle place inner)
    (second : Made middle later place (inner ++ [name]))
    : Made d later place (inner ++ [name]) where
  workingDirectory := second.workingDirectory.trans first.workingDirectory
  made := second.made
  others := by
    intro other apart
    rw [second.others other apart]
    exact first.others other fun front before =>
      apart front (before.trans (List.prefix_append _ _))

/-- If something is missing around a path, then the path has a step of its own. -/
theorem IsOpen.steps_ne_nil (h : d.IsOpen path place (inner ++ [name]))
    (working : d.HasWorkingDirectory) (missing : d.root.shapeAt? (place ++ inner) = none)
    : Path.steps path ≠ [] := by
  intro nothing
  have around := shapeAt?_of_prefix (List.prefix_append inner [name]) (h.there working nothing)
  rw [missing] at around
  cases around

/-- The path around a path on whose way nothing stands is such a path, and is shorter. -/
theorem IsOpen.parent? (h : d.IsOpen path place (inner ++ [name])) (leads : Path.steps path ≠ [])
    {outer : String} (found : Path.parent? path = some outer)
    : d.IsOpen outer place inner ∧ outer.length < path.length := by
  have around := Path.isAround_of_parent? leads found
  obtain ⟨last, split⟩ := around.steps
  obtain ⟨more, text⟩ := around.begins
  obtain ⟨before, steps, first⟩ := h.leads
  obtain ⟨step, joined⟩ := around.steps_join d.workingDirectory
  have whole : path = outer ++ String.ofList more := by
    apply String.toList_injective
    simp [text]
  have notNil : more ≠ [] := by
    rintro rfl
    obtain rfl : path = outer := by simpa using whole
    simp at split
  constructor
  · refine ⟨⟨?_, ?_⟩, around.ends, ⟨before, ?_, first⟩, h.inside, h.around.1, h.around.2⟩
    · intro nul
      exact h.usable.noNul (text ▸ List.mem_append_left _ nul)
    · have short := h.usable.short
      rw [whole, String.utf8ByteSize_append] at short
      omega
    · rw [joined, ← List.append_assoc] at steps
      exact (List.append_inj' steps rfl).1
  · have longer := List.length_pos_iff.mpr notNil
    rw [whole, String.length_append, String.length_ofList]
    omega

/-- All directories of a path on whose way nothing stands are made, and nothing else. By induction
on the room, which there is enough of, since the path gets shorter.
-/
theorem IsOpen.make (h : d.IsOpen path place names) (working : d.HasWorkingDirectory) {room : Nat}
    (enough : path.length ≤ room)
    : ∃ later, makeDirectories.make d path room = (later, none) ∧ Made d later place names := by
  induction room generalizing path names with
  | zero =>
      obtain rfl : path = "" := String.length_eq_zero_iff.mp (Nat.le_zero.mp enough)
      exact ⟨d, rfl, made_refl (h.there working (by decide))⟩
  | succ room ih =>
      by_cases named : path = ""
      · subst named
        exact ⟨d, rfl, made_refl (h.there working (by decide))⟩
      have notEmpty : ¬path.isEmpty = true := by simpa using named
      unfold makeDirectories.make
      rw [if_neg notEmpty]
      rcases List.eq_nil_or_concat names with rfl | ⟨inner, name, rfl⟩
      · exact ⟨d, by rw [ensureDirectory_of_there (h.hasDirectory named)],
          made_refl ((List.append_nil place).symm ▸ h.inside)⟩
      rw [List.concat_eq_append] at h ⊢
      cases around : d.root.shapeAt? (place ++ inner) with
      | some shape =>
          cases shape with
          | file bytes => exact absurd around (h.free inner bytes (List.prefix_append _ _))
          | directory =>
              obtain ⟨later, ensured, made⟩ := h.ensureDirectory working named around
              exact ⟨later, by rw [ensured], made⟩
      | none =>
          have leads := h.steps_ne_nil working around
          obtain ⟨outer, found⟩ := Path.parent?_eq_some leads
          obtain ⟨openOuter, shorter⟩ := h.parent? leads found
          obtain ⟨middle, madeOuter, first⟩ := ih openOuter (by omega)
          have there := first.made inner (List.prefix_refl _)
          have still := (h.grows first).hasWorkingDirectory working
          obtain ⟨later, ensured, second⟩ := (h.after first).ensureDirectory still named there
          have failed := ensureDirectory_of_missing (h.locate_missing named around)
          refine ⟨later, ?_, first.concat second⟩
          rw [failed]
          dsimp only
          rw [found]
          dsimp only
          rw [madeOuter]
          dsimp only
          rw [ensured]

/-- The same for all that is done to make directories. -/
theorem IsOpen.makeDirectories (h : d.IsOpen path place names) (working : d.HasWorkingDirectory)
    : ∃ later, d.makeDirectories path = (later, none) ∧ Made d later place names :=
  h.make working (Nat.le_refl _)

/-- A file is written at a path on whose way nothing stands, once the directories around it are
there, and nothing else changes.
-/
theorem IsOpen.write (h : d.IsOpen path place (inner ++ [name]))
    (working : d.HasWorkingDirectory) (named : path ≠ "")
    (around : d.root.shapeAt? (place ++ inner) = some .directory)
    (noDirectory : d.root.shapeAt? (place ++ (inner ++ [name])) ≠ some .directory)
    (forFile : d.isForDirectory path = false) (bytes : Bytes)
    : ∃ later,
        d.write path bytes = .ok later
        ∧ ∀ other, later.root.shapeAt? other
            = if other = place ++ (inner ++ [name]) then some (.file bytes)
              else d.root.shapeAt? other := by
  have located := h.locate working named around
  rw [forFile] at located
  have absent : d.root.get? (place ++ (inner ++ [name])) = none := by
    cases shape : d.root.shapeAt? (place ++ (inner ++ [name])) with
    | none => exact Option.map_eq_none_iff.mp shape
    | some held =>
        cases held with
        | file other => exact absurd shape (h.free _ other (List.prefix_refl _))
        | directory => exact absurd shape noDirectory
  refine ⟨{ d with root := d.root.put (.file bytes) (place ++ (inner ++ [name])) }, ?_, ?_⟩
  · simp only [Disk.write, located, bind, Except.bind, absent]
    rfl
  · exact Entry.shapeAt?_put (target_of_locate located).2 noDirectory rfl

end Folio.Files.Disk
