import Folio.Proofs.Cache.Fingerprint
import Folio.Proofs.Files.Moving

/-! A cache in a directory. What was stored is read back, and is only touched when it is stored
again or when the directory is prepared for another version, which takes all of it away. An entry is
written by way of a temporary file: only a file that had the name of that one may be lost.
-/

namespace Folio.Cache

open Files (Bytes Disk Path.join Path.parent? Path.isPlain Path.steps)
open Files.Disk (Grows Loses Swaps Vacant)

-----------------------------------------------------------------------------------------
-- Entries
-----------------------------------------------------------------------------------------

/-- An entry has a value if and only if it is the length of a tag, a tag, and the value, and the tag
is the one that is asked for.
-/
theorem decodeEntry_eq_some {tag : String} {entry value : Bytes}
    : decodeEntry tag entry = some value
      ↔ ∃ stored : Bytes,
          stored.length < 256 ^ 4
          ∧ entry = littleEndian 4 stored.length ++ stored ++ value
          ∧ (tag = "" ∨ stored = Text.utf8 tag) := by
  unfold decodeEntry
  constructor
  · intro found
    split at found
    · cases found
    next long =>
    dsimp only at found
    split at found
    · cases found
    next whole =>
    split at found
    · cases found
    next asked =>
    obtain rfl := Option.some.inj found
    have four : (entry.take 4).length = 4 := by rw [List.length_take]; omega
    obtain ⟨fits, header⟩ := littleEndian_ofLittleEndian (entry.take 4)
    rw [four] at fits header
    have size : ((entry.drop 4).take (ofLittleEndian (entry.take 4))).length
        = ofLittleEndian (entry.take 4) := by
      rw [List.length_take]
      omega
    refine ⟨(entry.drop 4).take (ofLittleEndian (entry.take 4)), size.trans_lt fits, ?_, ?_⟩
    · rw [size, header, List.append_assoc, List.take_append_drop, List.take_append_drop]
    · by_cases any : tag = ""
      · exact .inl any
      · exact .inr (by simpa [any] using asked)
  · rintro ⟨stored, fits, rfl, asked⟩
    have four := length_littleEndian 4 stored.length
    have long : ¬(littleEndian 4 stored.length ++ stored ++ value).length < 4 := by
      rw [List.length_append, List.length_append, four]
      omega
    rw [if_neg long]
    rw [List.append_assoc, List.take_left' four, List.drop_left' four,
      ofLittleEndian_littleEndian fits]
    rcases asked with rfl | rfl <;> simp

/-- The value of an entry is the one that was put in. -/
theorem decodeEntry_encodeEntry {tag : String} (fits : (Text.utf8 tag).length < 256 ^ 4)
    (value : Bytes)
    : decodeEntry tag (encodeEntry tag value) = some value :=
  decodeEntry_eq_some.mpr ⟨Text.utf8 tag, fits, rfl, .inr rfl⟩

-----------------------------------------------------------------------------------------
-- Where the files of a cache are
-----------------------------------------------------------------------------------------

variable {d later : Disk} {root : String}

def unitPath (root : String) (f : Fingerprint) : String :=
  Path.join (Path.join root unitBucket) f.key

def unitPlace (d : Disk) (root : String) (f : Fingerprint) : List String :=
  d.target root ++ unitBucket :: f.names

/-- The file of a version is directly below the directory. -/
theorem target_versionFile (d : Disk) (root : String)
    : d.target (versionFile root) = d.target root ++ ["VERSION"] := by
  have steps : Path.steps "VERSION" = ["VERSION"] := by decide
  rw [versionFile, d.target_join root (by decide) (by rw [steps]; decide), steps]

/-- The file of a unit is two directories below that of the cache. -/
theorem target_unitPath (d : Disk) (root : String) (i : Input)
    : d.target (unitPath root i.fingerprint) = unitPlace d root i.fingerprint := by
  obtain ⟨-, relative, steps, downwards⟩ := i.key_plain
  have bucket : Path.steps unitBucket = [unitBucket] := by decide
  rw [unitPath, d.target_join _ relative (steps ▸ downwards),
    d.target_join root (by decide) (by rw [bucket]; decide), bucket, steps, List.append_assoc]
  rfl

/-- The key of a fingerprint has a file. -/
theorem entryPath?_key (root : String) (i : Input)
    : entryPath? root unitBucket i.fingerprint.key = some (unitPath root i.fingerprint) := by
  exact if_pos i.key_plain.1

/-- Units of different fingerprints have different places. -/
theorem unitPlace_injective {f g : Fingerprint} (h : unitPlace d root f = unitPlace d root g)
    : f = g :=
  Fingerprint.names_injective (List.cons.inj (List.append_cancel_left h)).2

theorem versionFile_ne_unitPlace (d : Disk) (root : String) (f : Fingerprint)
    : d.target (versionFile root) ≠ unitPlace d root f := by
  rw [target_versionFile]
  intro same
  have names := (List.cons.inj (List.append_cancel_left same)).1
  exact absurd names (by decide)

/-- Units have the same places on a disk that grew. -/
theorem unitPlace_of_grows {except : List (List String)} (grows : Grows except d later)
    (root : String) (f : Fingerprint)
    : unitPlace later root f = unitPlace d root f := by
  rw [unitPlace, grows.target]
  rfl

-----------------------------------------------------------------------------------------
-- Units in a cache
-----------------------------------------------------------------------------------------

/-- A unit is found in the file that holds it. -/
theorem unit?_of_read {i : Input} {unit : CompiledUnit}
    (h : d.read (unitPath root i.fingerprint)
      = .ok (encodeEntry unitTag (Text.utf8 unit.text)))
    (isUnit : CompiledUnit.ofText? unit.text = some unit)
    : unit? (.directory root) d i.fingerprint = some unit := by
  have tag : (Text.utf8 unitTag).length < 256 ^ 4 := by decide
  have found : get? (.directory root) d unitBucket i.fingerprint.key unitTag
      = some (Text.utf8 unit.text) := by
    simp [get?, entryPath?_key, h, Except.toOption, decodeEntry_encodeEntry tag]
  rw [unit?, getText?, found, Option.bind_some, Text.ofUtf8?_utf8, Option.bind_some, isUnit]

/-- What is found in a cache depends on the file of the unit only. -/
theorem unit?_congr {i : Input}
    (h : later.read (unitPath root i.fingerprint) = d.read (unitPath root i.fingerprint))
    : unit? (.directory root) later i.fingerprint = unit? (.directory root) d i.fingerprint := by
  simp [unit?, getText?, get?, entryPath?_key, h]

/-- A unit is found only if there is a file at its place. -/
theorem file_of_unit? {i : Input} {unit : CompiledUnit}
    (h : unit? (.directory root) d i.fingerprint = some unit)
    : ∃ bytes, d.read (unitPath root i.fingerprint) = .ok bytes
        ∧ d.root.shapeAt? (unitPlace d root i.fingerprint) = some (.file bytes) := by
  cases read : d.read (unitPath root i.fingerprint) with
  | error e => simp [unit?, getText?, get?, entryPath?_key, read, Except.toOption] at h
  | ok bytes =>
      exact ⟨bytes, rfl, target_unitPath d root i ▸ Files.Disk.file_of_read read⟩

/-- A unit is still found on a disk that grew, unless its place is an exception. -/
theorem unit?_of_grows {except : List (List String)} {i : Input} {unit : CompiledUnit}
    (grows : Grows except d later) (apart : unitPlace d root i.fingerprint ∉ except)
    (h : unit? (.directory root) d i.fingerprint = some unit)
    : unit? (.directory root) later i.fingerprint = some unit := by
  obtain ⟨bytes, read, -⟩ := file_of_unit? h
  have again := grows.read (target_unitPath d root i ▸ apart) read
  rw [unit?_congr (again.trans read.symm), h]

-----------------------------------------------------------------------------------------
-- Writing entries
-----------------------------------------------------------------------------------------

def temporaryPath (d : Disk) (path : String) : String :=
  Path.join ((Path.parent? path).getD path) d.temporaryName

/-- The temporary file of an entry is beside its file. -/
theorem target_temporaryPath {path : String} {outer : List String} {name : String}
    (steps : Path.steps path = outer ++ [name]) (downwards : name ≠ "..")
    : d.target (temporaryPath d path) = (d.target path).dropLast ++ [d.temporaryName] := by
  have leads : Path.steps path ≠ [] := by simp [steps]
  obtain ⟨around, inside⟩ := Files.Path.parent?_eq_some leads
  have isAround := Files.Path.isAround_of_parent? leads inside
  have joined := isAround.steps_join_of_steps d.workingDirectory steps
  have place : d.target path = d.target around ++ [name] := by
    rw [Disk.target, joined, Files.Disk.follow, List.foldl_append]
    exact Files.Disk.follow_downwards (by simpa using Ne.symm downwards)
  have isStep := d.isStep_temporaryName
  have below : ".." ∉ Path.steps d.temporaryName := by
    simpa [isStep.steps] using Ne.symm isStep.notUp
  rw [temporaryPath, inside, Option.getD_some, d.target_join around isStep.isAbsolute below,
    isStep.steps, place, List.dropLast_concat]

/-- The file of an entry is below the directory of its bucket, where the steps of the key lead, and
the temporary one is beside it.
-/
theorem target_of_entryPath? {bucket key path : String} (d : Disk)
    (found : entryPath? root bucket key = some path)
    : d.target path = d.target (Path.join root bucket) ++ Path.steps key
      ∧ d.target (temporaryPath d path)
        = d.target (Path.join root bucket) ++ ((Path.steps key).dropLast ++ [d.temporaryName]) := by
  unfold entryPath? at found
  split at found
  · next plain =>
      obtain rfl := Option.some.inj found
      obtain ⟨relative, leads, downwards⟩ := Files.Path.steps_of_isPlain plain
      have place := d.target_join (Path.join root bucket) relative downwards
      refine ⟨place, ?_⟩
      obtain ⟨front, last, split⟩ := (List.eq_nil_or_concat (Path.steps key)).resolve_left leads
      rw [List.concat_eq_append] at split
      have notUp : last ≠ ".." := fun up => downwards (by simp [split, up])
      have steps : Path.steps (Path.join (Path.join root bucket) key)
          = (Path.steps (Path.join root bucket) ++ front) ++ [last] := by
        rw [Files.Path.steps_join relative, split, List.append_assoc]
      rw [target_temporaryPath steps notUp, place, List.dropLast_append_of_ne_nil leads,
        List.append_assoc]
  · cases found

/-- The temporary file of a unit is no file of a unit, and not that of the version: its name has a
dot in it.
-/
theorem temporary_apart (d : Disk) (root : String) (i : Input)
    : (∀ j : Input,
        unitPlace d root j.fingerprint
          ≠ d.target (temporaryPath d (unitPath root i.fingerprint)))
      ∧ d.target (versionFile root)
        ≠ d.target (temporaryPath d (unitPath root i.fingerprint)) := by
  have bucket : Path.steps unitBucket = [unitBucket] := by decide
  obtain ⟨-, -, steps, -⟩ := i.key_plain
  have place := (target_of_entryPath? d (entryPath?_key root i)).2
  rw [d.target_join root (by decide) (by rw [bucket]; decide), bucket, steps,
    List.append_assoc] at place
  rw [place]
  constructor
  · intro j same
    have names := (List.cons.inj (List.append_cancel_left same)).2
    obtain ⟨rest, begins⟩ := d.temporaryName_begins
    have inside : '.' ∈ (String.ofList (j.fingerprint.text.toList.drop 2)).toList := by
      rw [(List.cons.inj (List.cons.inj names).2).1, ← begins]
      exact List.mem_append_left _ (by decide)
    rw [String.toList_ofList] at inside
    exact j.isName_key.2.noDot inside
  · rw [target_versionFile]
    intro same
    exact absurd (List.cons.inj (List.append_cancel_left same)).1 (by decide)

def canReplaceFile (d : Disk) (directory path : String) (bytes : Bytes) : Bool :=
  match d.countTemporary.write (Path.join directory d.temporaryName) bytes with
  | .error _ => false
  | .ok written => (written.moveFile (Path.join directory d.temporaryName) path).isOk

/-- Holds if an entry is written: all that is done for it succeeds. -/
def canWriteEntry (d : Disk) (path : String) (entry : Bytes) : Bool :=
  match Path.parent? path with
  | none => false
  | some outer =>
      match d.makeDirectories outer with
      | (_, some _) => false
      | (made, none) => canReplaceFile made outer path entry

/-- A file is replaced as a whole by way of a temporary one, or no file is added. -/
theorem replaceFile_cases (d : Disk) (directory path : String) (bytes : Bytes)
    : canReplaceFile d directory path bytes = false
        ∧ Loses (d.target (Path.join directory d.temporaryName)) d
            (replaceFile d directory path bytes)
      ∨ canReplaceFile d directory path bytes = true
        ∧ Swaps (d.target (Path.join directory d.temporaryName)) (d.target path) bytes d
            (replaceFile d directory path bytes)
        ∧ (replaceFile d directory path bytes).read path = .ok bytes := by
  have named : Grows [] d d.countTemporary := ⟨rfl, fun _ h => h, fun _ _ _ => Iff.rfl⟩
  unfold canReplaceFile replaceFile
  dsimp only
  rw [← named.target, ← named.target]
  cases written : d.countTemporary.write (Path.join directory d.temporaryName) bytes with
  | error e =>
      refine .inl ⟨rfl, Loses.after named ?_⟩
      dsimp only
      cases removed : d.countTemporary.removeFile (Path.join directory d.temporaryName) with
      | error e => exact (Grows.refl _).loses _
      | ok later =>
          obtain ⟨grows, gone⟩ := Files.Disk.grows_of_removeFile removed
          exact ⟨grows, fun held there => absurd there (gone held)⟩
  | ok middle =>
      dsimp only
      cases moved : middle.moveFile (Path.join directory d.temporaryName) path with
      | error e =>
          obtain ⟨later, removed, loses⟩ := Files.Disk.loses_of_removeFile written
          refine .inl ⟨rfl, Loses.after named ?_⟩
          simpa [removed, Except.toOption] using loses
      | ok later =>
          obtain ⟨swaps, read⟩ := Files.Disk.swaps_of_moveFile written moved
          exact .inr ⟨rfl, Swaps.after named swaps, read⟩

/-- An entry is written as a whole, if there is one and all that is done for it succeeds, or no file
is added.
-/
theorem writeEntry_cases (d : Disk) (path : String) (encoded : Option Bytes)
    : (∀ entry, encoded = some entry → canWriteEntry d path entry = false)
        ∧ Loses (d.target (temporaryPath d path)) d (writeEntry d path encoded)
      ∨ ∃ entry, encoded = some entry ∧ canWriteEntry d path entry = true
        ∧ Swaps (d.target (temporaryPath d path)) (d.target path) entry d
            (writeEntry d path encoded)
        ∧ (writeEntry d path encoded).read path = .ok entry := by
  unfold writeEntry canWriteEntry temporaryPath
  cases Path.parent? path with
  | none => exact .inl ⟨fun _ _ => rfl, (Grows.refl d).loses _⟩
  | some outer =>
      dsimp only [Option.getD_some]
      obtain ⟨made, -⟩ := Files.Disk.grows_of_makeDirectories d outer
      have name := Files.Disk.temporaryName_makeDirectories d outer
      revert made name
      rcases d.makeDirectories outer with ⟨middle, _ | e⟩
      · intro made name
        dsimp only at made name ⊢
        rw [← name, ← made.target, ← made.target]
        cases encoded with
        | none => exact .inl ⟨fun _ h => (by cases h), made.loses _⟩
        | some entry =>
            rcases replaceFile_cases middle outer path entry with
              ⟨cannot, loses⟩ | ⟨can, swaps, read⟩
            · refine .inl ⟨?_, loses.after made⟩
              rintro _ ⟨⟩
              exact cannot
            · exact .inr ⟨entry, rfl, can, swaps.after made, read⟩
      · intro made _
        exact .inl ⟨fun _ _ => rfl, made.loses _⟩

/-- An entry of a unit is never too long to be one. -/
theorem encoded?_unitTag (value : Bytes)
    : encoded? unitTag value = some (encodeEntry unitTag value) :=
  if_pos (by decide)

/-- The unit of an input is stored in the file of its key. -/
theorem setUnit_eq_writeEntry (d : Disk) (root : String) (i : Input) (unit : CompiledUnit)
    : setUnit (.directory root) d i.fingerprint unit
      = writeEntry d (unitPath root i.fingerprint)
          (some (encodeEntry unitTag (Text.utf8 unit.text))) := by
  rw [setUnit, set, entryPath?_key, ← encoded?_unitTag]

/-- A unit that can be stored is found then. -/
theorem swaps_of_setUnit {i : Input} {unit : CompiledUnit}
    (isUnit : CompiledUnit.ofText? unit.text = some unit)
    (h : canWriteEntry d (unitPath root i.fingerprint)
      (encodeEntry unitTag (Text.utf8 unit.text)) = true)
    : Swaps (d.target (temporaryPath d (unitPath root i.fingerprint)))
        (unitPlace d root i.fingerprint) (encodeEntry unitTag (Text.utf8 unit.text)) d
        (setUnit (.directory root) d i.fingerprint unit)
      ∧ unit? (.directory root) (setUnit (.directory root) d i.fingerprint unit) i.fingerprint
        = some unit := by
  rw [setUnit_eq_writeEntry, ← target_unitPath]
  rcases writeEntry_cases d (unitPath root i.fingerprint)
      (some (encodeEntry unitTag (Text.utf8 unit.text))) with
    ⟨cannot, -⟩ | ⟨entry, same, -, swaps, read⟩
  · cases h.symm.trans (cannot _ rfl)
  · obtain rfl := Option.some.inj same
    exact ⟨swaps, unit?_of_read read isUnit⟩

-----------------------------------------------------------------------------------------
-- Preparing directories
-----------------------------------------------------------------------------------------

def canPrepare (d : Disk) (root version : String) : Bool :=
  (d.readText (versionFile root)).toOption == some version
    || match if d.has root then d.removeDirectory root else .ok d with
      | .error _ => false
      | .ok cleared =>
          match cleared.makeDirectories root with
          | (_, some _) => false
          | (made, none) => (made.write (versionFile root) (Text.utf8 version)).isOk

/-- A directory that has the version stays as it is. -/
theorem prepare_of_version {version : String}
    (h : d.readText (versionFile root) = .ok version)
    : prepare d root version = d := by
  rw [prepare, h]
  exact if_pos (beq_self_eq_true _)

/-- What is done to prepare a directory that has not the version, if all of it succeeds. -/
theorem prepare_eq_write {version : String}
    (other : d.readText (versionFile root) ≠ .ok version)
    (h : canPrepare d root version = true)
    : ∃ cleared made,
        (if d.has root then d.removeDirectory root else .ok d) = .ok cleared
        ∧ cleared.makeDirectories root = (made, none)
        ∧ made.write (versionFile root) (Text.utf8 version)
          = .ok (prepare d root version) := by
  have mismatch : ((d.readText (versionFile root)).toOption == some version) = false := by
    apply beq_eq_false_iff_ne.mpr
    cases read : d.readText (versionFile root) with
    | error e => exact fun same => nomatch same
    | ok text => exact fun same => other (read.trans (congrArg Except.ok (Option.some.inj same)))
  unfold canPrepare at h
  unfold prepare
  rw [mismatch] at h ⊢
  rw [Bool.false_or] at h
  rw [if_neg Bool.false_ne_true]
  cases removed : if d.has root then d.removeDirectory root else .ok d with
  | error e => exact absurd h (by simp [removed])
  | ok cleared =>
      rw [removed] at h
      dsimp only [Except.toOption, Option.getD_some] at h ⊢
      rcases making : cleared.makeDirectories root with ⟨made, _ | e⟩
      · rw [making] at h
        dsimp only at h ⊢
        cases written : made.write (versionFile root) (Text.utf8 version) with
        | error e => simp [written, Except.isOk, Except.toBool] at h
        | ok after => exact ⟨cleared, made, rfl, making, written⟩
      · simp [making] at h

/-- A directory that has not the version is there with that version afterwards, and nothing is left
of what was in it.
-/
theorem vacant_of_prepare {version : String} (named : root ≠ "")
    (other : d.readText (versionFile root) ≠ .ok version)
    (absent : d.has root = false → d.Vacant (d.target root))
    (h : canPrepare d root version = true)
    : (prepare d root version).hasDirectory root = true
      ∧ (prepare d root version).readText (versionFile root) = .ok version
      ∧ ∀ f bytes,
          (prepare d root version).root.shapeAt? (unitPlace (prepare d root version) root f)
          ≠ some (.file bytes) := by
  obtain ⟨cleared, made, removed, making, written⟩ := prepare_eq_write other h
  have bare : cleared.workingDirectory = d.workingDirectory ∧ cleared.Vacant (d.target root) := by
    split at removed
    · exact Files.Disk.vacant_of_removeDirectory removed
    · next nothing =>
        obtain rfl := Except.ok.inj removed
        exact ⟨rfl, absent (eq_false_of_ne_true nothing)⟩
  obtain ⟨grows, there⟩ := Files.Disk.grows_of_makeDirectories cleared root
  rw [making] at grows there
  obtain ⟨more, read⟩ := Files.Disk.grows_of_write written
  have version := Files.Disk.readText_eq_ok.mpr ⟨_, read, Text.ofUtf8?_utf8 version⟩
  refine ⟨more.hasDirectory (there rfl named), version, ?_⟩
  intro f bytes
  have elsewhere : unitPlace made root f ∉ [made.target (versionFile root)] := fun member =>
    versionFile_ne_unitPlace made root f (List.mem_singleton.mp member).symm
  rw [unitPlace_of_grows more, Ne, more.files _ bytes elsewhere]
  have place : made.target root = d.target root := by
    rw [grows.target, Files.Disk.target, bare.1]
    rfl
  rw [unitPlace, place]
  exact grows.vacant bare.2 _ bytes

end Folio.Cache
