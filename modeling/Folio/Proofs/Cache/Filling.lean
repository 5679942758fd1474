import Folio.Proofs.Cache.Bucket
import Folio.Proofs.Document.Execution

/-! What the files of units in a directory hold, however they came there. A directory is filled with
the units of inputs if no file of a unit holds anything else. Whatever fails on the way, openings
and stores keep it so, and what is found in it is what an input compiles to.
-/

namespace Folio.Cache

open Document (Transform)
open Files (Disk)
open Files.Disk (Grows)

/-- Holds if each file of a unit in a directory is that of an input, and holds what the input
compiles to.
-/
def Filled (transforms : List Transform) (root : String) (inputs : List Input) (d : Disk) : Prop :=
  ∀ f bytes, d.root.shapeAt? (unitPlace d root f) = some (.file bytes) →
    ∃ i ∈ inputs, i.fingerprint = f
      ∧ ∃ unit, Document.compile transforms i.body i.names = .ok unit
        ∧ bytes = encodeEntry unitTag (Text.utf8 unit.text)

variable {transforms : List Transform} {root : String} {inputs : List Input} {d later : Disk}

/-- A directory without files is filled with nothing. -/
theorem filled_of_vacant (vacant : d.Vacant (d.target root)) : Filled transforms root [] d := by
  intro f bytes there
  exact absurd there (vacant _ bytes)

theorem Filled.mono {more : List Input} (h : Filled transforms root inputs d)
    (subset : inputs ⊆ more)
    : Filled transforms root more d := by
  intro f bytes there
  obtain ⟨i, member, holds⟩ := h f bytes there
  exact ⟨i, subset member, holds⟩

/-- A directory stays filled on a disk with no other files. -/
theorem Filled.of_files (h : Filled transforms root inputs d)
    (workingDirectory : later.workingDirectory = d.workingDirectory)
    (files : ∀ place bytes, later.root.shapeAt? place = some (.file bytes)
      → d.root.shapeAt? place = some (.file bytes))
    : Filled transforms root inputs later := by
  intro f bytes there
  have place : unitPlace later root f = unitPlace d root f := by
    rw [unitPlace, Disk.target, workingDirectory]
    rfl
  rw [place] at there
  exact h f bytes (files _ bytes there)

theorem Filled.grows (h : Filled transforms root inputs d) (grows : Grows [] d later)
    : Filled transforms root inputs later := by
  refine h.of_files grows.workingDirectory ?_
  intro place bytes there
  exact (grows.files place bytes List.not_mem_nil).mp there

/-- A file elsewhere does not matter. -/
theorem Filled.grows_elsewhere (h : Filled transforms root inputs d) {place : List String}
    (grows : Grows [place] d later) (elsewhere : ∀ f, place ≠ unitPlace d root f)
    : Filled transforms root inputs later := by
  intro f bytes there
  rw [unitPlace_of_grows grows] at there
  have apart : unitPlace d root f ∉ [place] := fun member =>
    elsewhere f (List.mem_singleton.mp member).symm
  exact h f bytes ((grows.files _ bytes apart).mp there)

/-- The unit of an input is stored, or it cannot be: the directory stays filled. -/
theorem Filled.setUnit (h : Filled transforms root inputs d) {i : Input} {unit : CompiledUnit}
    (member : i ∈ inputs) (compiled : Document.compile transforms i.body i.names = .ok unit)
    : Filled transforms root inputs (setUnit (.directory root) d i.fingerprint unit) := by
  rw [setUnit_eq_writeEntry]
  rcases writeEntry_cases d (unitPath root i.fingerprint)
      (some (encodeEntry unitTag (Text.utf8 unit.text))) with
    ⟨-, loses⟩ | ⟨entry, same, -, swaps, -⟩
  · exact h.of_files loses.workingDirectory fun place bytes there => loses.file there
  · obtain rfl := Option.some.inj same
    intro f bytes there
    rw [unitPlace_of_grows swaps.toGrows] at there
    rcases swaps.file there with ⟨-, before⟩ | ⟨here, rfl⟩
    · exact h f bytes before
    · rw [target_unitPath] at here
      exact ⟨i, member, (unitPlace_injective here).symm, unit, compiled, rfl⟩

/-- The directory is opened with a version: it is emptied or not, but nothing else is put where
units are.
-/
theorem Filled.prepare (h : Filled transforms root inputs d) (version : String)
    : Filled transforms root inputs (prepare d root version) := by
  unfold Cache.prepare
  split
  · exact h
  · have cleared
        : Filled transforms root inputs
            (((if d.has root then d.removeDirectory root else .ok d).toOption).getD d) := by
      split
      · cases removed : d.removeDirectory root with
        | error e => exact h
        | ok cleared =>
            refine h.of_files (Files.Disk.vacant_of_removeDirectory removed).1 ?_
            intro place bytes there
            exact Files.Disk.file_of_removeDirectory removed there
      · exact h
    generalize ((if d.has root then d.removeDirectory root else .ok d).toOption).getD d = bare
      at cleared ⊢
    dsimp only
    obtain ⟨made, -⟩ := Files.Disk.grows_of_makeDirectories bare root
    replace cleared := cleared.grows made
    revert cleared
    rcases bare.makeDirectories root with ⟨middle, _ | e⟩
    · intro there
      dsimp only at there ⊢
      cases written : middle.write (versionFile root) (Text.utf8 version) with
      | error e => exact there
      | ok after =>
          exact there.grows_elsewhere (Files.Disk.grows_of_write written).1
            (versionFile_ne_unitPlace middle root)
    · exact id

/-- What is found for an input that shares its fingerprint with no other is what it compiles to. -/
theorem Filled.compile_of_unit? (h : Filled transforms root inputs d) {i : Input}
    (only : ∀ j ∈ inputs, j.fingerprint = i.fingerprint → j = i) {unit : CompiledUnit}
    (found : unit? (.directory root) d i.fingerprint = some unit)
    : Document.compile transforms i.body i.names = .ok unit := by
  obtain ⟨bytes, read, there⟩ := file_of_unit? found
  obtain ⟨j, member, same, held, compiled, rfl⟩ := h _ bytes there
  obtain rfl := only j member same
  have again := unit?_of_read read (Document.ofText?_of_compile compiled)
  obtain rfl := Option.some.inj (again.symm.trans found)
  exact compiled

end Folio.Cache
