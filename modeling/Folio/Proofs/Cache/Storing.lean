import Folio.Proofs.Cache.Bucket

/-! Values that are stored in a bucket. A value is stored as a whole or not at all, whatever fails
on the way, and no file outside of the directory of the bucket is touched. Keys that could lead
elsewhere have no file.
-/

namespace Folio.Files.Path

/-- Paths that are not plain are empty, begin at a root or at `.`, or have a `..` in them. -/
theorem isPlain_eq_false {path : String}
    : isPlain path = false
      ↔ path = "" ∨ isAbsolute path = true ∨ (pieces path).head? = some "."
        ∨ ".." ∈ pieces path := by
  have notNil : pieces path ≠ [] := by simpa [pieces] using Text.splitBy_ne_nil _ path.toList
  obtain ⟨first, rest, split⟩ := List.exists_cons_of_ne_nil notNil
  have pieces : (first != "." && first != ".." && !rest.contains "..") = false
      ↔ first = "." ∨ ".." ∈ first :: rest := by
    rw [List.mem_cons, eq_comm (a := "..")]
    simp only [Bool.and_eq_false_iff, bne_eq_false_iff_eq, Bool.not_eq_false',
      List.contains_iff_mem, or_assoc]
  unfold isPlain
  rw [split]
  simp only [Bool.and_eq_false_iff, Bool.not_eq_false', String.isEmpty_iff, pieces,
    List.head?_cons, Option.some.injEq, or_assoc]

end Folio.Files.Path

namespace Folio.Cache

open Files (Bytes Disk Path.join Path.isAbsolute Path.pieces Path.steps)
open Files.Disk (Grows Loses Swaps)

variable {d : Disk} {root bucket key tag : String} {value : Bytes}

/-- Holds if a value is stored: its key has a file, its tag is not too long, and all that is done to
write the entry succeeds.
-/
def canSet (d : Disk) (root bucket key tag : String) (value : Bytes) : Bool :=
  match entryPath? root bucket key, encoded? tag value with
  | some path, some entry => canWriteEntry d path entry
  | _, _ => false

/-- The place of the temporary file by way of which a value is stored under a key. -/
def temporaryPlace (d : Disk) (root bucket key : String) : List String :=
  d.target (Path.join root bucket) ++ ((Path.steps key).dropLast ++ [d.temporaryName])

/-- Tags that are not too long have a length that is written in four bytes. -/
theorem encoded?_eq_some {entry : Bytes}
    : encoded? tag value = some entry
      ↔ (Text.utf8 tag).length < 256 ^ 4 ∧ encodeEntry tag value = entry := by
  have limit : (Text.utf8 tag).length ≤ maxTagSize ↔ (Text.utf8 tag).length < 256 ^ 4 :=
    Nat.lt_succ_iff.symm
  unfold encoded?
  rw [← limit]
  split
  · next fits => simp only [fits, Option.some.injEq, true_and]
  · next long => simp only [long, reduceCtorEq, false_and]

/-- A value is stored if and only if an entry is written in the file of its key. -/
theorem canSet_eq_true
    : canSet d root bucket key tag value = true
      ↔ ∃ path, entryPath? root bucket key = some path
          ∧ (Text.utf8 tag).length < 256 ^ 4
          ∧ canWriteEntry d path (encodeEntry tag value) = true := by
  unfold canSet
  split
  · next path entry found encoded =>
      obtain ⟨fits, rfl⟩ := encoded?_eq_some.mp encoded
      exact ⟨fun can => ⟨path, found, fits, can⟩, fun ⟨other, same, _, can⟩ => by
        rwa [Option.some.inj (found.symm.trans same)]⟩
  · next other =>
      refine iff_of_false Bool.false_ne_true ?_
      rintro ⟨path, found, fits, -⟩
      exact other path _ found (encoded?_eq_some.mpr ⟨fits, rfl⟩)

/-- What storing a value does: its entry is put into the file of the key, as a whole, or no file is
added.
-/
theorem set_cases (d : Disk) (root bucket key tag : String) (value : Bytes)
    : canSet d root bucket key tag value = false
        ∧ Loses (temporaryPlace d root bucket key) d
            ((Cache.directory root).set d bucket key tag value)
      ∨ canSet d root bucket key tag value = true
        ∧ Swaps (temporaryPlace d root bucket key)
            (d.target (Path.join root bucket) ++ Path.steps key) (encodeEntry tag value) d
            ((Cache.directory root).set d bucket key tag value)
        ∧ ∃ path, entryPath? root bucket key = some path
            ∧ ((Cache.directory root).set d bucket key tag value).read path
              = .ok (encodeEntry tag value) := by
  unfold set canSet
  dsimp only
  cases found : entryPath? root bucket key with
  | none => exact .inl ⟨rfl, (Grows.refl d).loses _⟩
  | some path =>
      obtain ⟨place, temporary⟩ := target_of_entryPath? d found
      dsimp only
      rw [← place, temporaryPlace, ← temporary]
      rcases writeEntry_cases d path (encoded? tag value) with
        ⟨cannot, loses⟩ | ⟨entry, encoded, can, swaps, read⟩
      · refine .inl ⟨?_, loses⟩
        cases encoded : encoded? tag value with
        | none => rfl
        | some entry => exact cannot entry encoded
      · obtain ⟨-, rfl⟩ := encoded?_eq_some.mp encoded
        rw [encoded] at swaps read ⊢
        exact .inr ⟨can, swaps, path, rfl, read⟩

/-- A value that was stored is found under its key, with its tag. -/
theorem get?_set (can : canSet d root bucket key tag value = true)
    : (Cache.directory root).get? ((Cache.directory root).set d bucket key tag value) bucket key tag
      = some value := by
  obtain ⟨-, -, fits, -⟩ := canSet_eq_true.mp can
  rcases set_cases d root bucket key tag value with ⟨cannot, -⟩ | ⟨-, -, path, found, read⟩
  · cases can.symm.trans cannot
  · simp [get?, found, read, Except.toOption, decodeEntry_encodeEntry fits]

/-- Storing a value is all or nothing, and stays in the bucket. If no file in the bucket has a name
like those of temporary files, either one file, which is strictly inside the bucket, holds the entry
afterwards, or every file is as before; directories may be new in both cases. Nothing at all happens
for a key that is empty, that begins at a root or with `.`, or that has a `..` in it.
-/
theorem set_atomic (d : Disk) (root bucket key tag : String) (value : Bytes)
    (noTemporary
      : ∀ inner name bytes, ".tmp-".toList <+: name.toList →
          d.root.shapeAt? (d.target (Path.join root bucket) ++ (inner ++ [name]))
          ≠ some (.file bytes))
    : let later := (Cache.directory root).set d bucket key tag value
      (if canSet d root bucket key tag value then
          ∃ inner, inner ≠ []
            ∧ Grows [d.target (Path.join root bucket) ++ inner] d later
            ∧ later.root.shapeAt? (d.target (Path.join root bucket) ++ inner)
              = some (.file (littleEndian 4 (Text.utf8 tag).length ++ Text.utf8 tag ++ value))
            ∧ (Cache.directory root).get? later bucket key tag = some value
        else Grows [] d later)
      ∧ (key = "" ∨ Path.isAbsolute key = true ∨ (Path.pieces key).head? = some "."
            ∨ ".." ∈ Path.pieces key →
          later = d
          ∧ ∀ (other : Disk) (asked : String),
              (Cache.directory root).get? other bucket key asked = none) := by
  have fresh (bytes : Bytes)
      : d.root.shapeAt? (temporaryPlace d root bucket key) ≠ some (.file bytes) :=
    noTemporary _ _ bytes d.temporaryName_begins
  constructor
  · rcases set_cases d root bucket key tag value with ⟨cannot, loses⟩ | ⟨can, swaps, path, found, -⟩
    · rw [cannot, if_neg Bool.false_ne_true]
      exact loses.grows fresh
    · rw [can, if_pos rfl]
      obtain ⟨plain, -⟩ : Files.Path.isPlain key = true ∧ _ := by
        simpa [entryPath?] using found
      exact ⟨Path.steps key, (Files.Path.steps_of_isPlain plain).2.1, swaps.grows fresh,
        swaps.there, get?_set can⟩
  · intro escapes
    have noFile : entryPath? root bucket key = none := by
      rw [entryPath?, Files.Path.isPlain_eq_false.mpr escapes]
      rfl
    exact ⟨by simp [set, noFile], fun other asked => by simp [get?, noFile]⟩

/-- A cache with a unit, and with a directory that has a name like those of temporary files. -/
def usedDisk : Disk :=
  { root :=
      .directory
        [("cache",
          .directory
            [("units",
              .directory
                [(".tmp-1-1", .empty),
                  ("ab", .directory [("cd", .file [1, 0, 0, 0, 0x31, 7])])])])] }

/-- The unit is replaced, although its key is not written at its shortest. -/
theorem set_atomic_usedDisk
    : let later := (Cache.directory "/cache").set usedDisk "units" "ab//./cd" "v2" [8, 9]
      ∃ inner, inner ≠ []
        ∧ Grows [["cache", "units"] ++ inner] usedDisk later
        ∧ later.root.shapeAt? (["cache", "units"] ++ inner)
          = some (.file [2, 0, 0, 0, 0x76, 0x32, 8, 9])
        ∧ (Cache.directory "/cache").get? later "units" "ab//./cd" "v2" = some [8, 9] := by
  have place : usedDisk.target (Path.join "/cache" "units") = ["cache", "units"] := by
    decide +kernel
  have noTemporary : ∀ inner name bytes, ".tmp-".toList <+: name.toList →
      usedDisk.root.shapeAt? (usedDisk.target (Path.join "/cache" "units") ++ (inner ++ [name]))
      ≠ some (.file bytes) := by
    intro inner name bytes temporary there
    rw [place] at there
    have listed := Files.Entry.mem_files [] there
    simp only [usedDisk, Files.Entry.files, Files.Entry.filesOf, Files.Entry.empty,
      List.append_nil, List.nil_append, List.cons_append, List.mem_singleton, Prod.mk.injEq,
      List.cons.injEq, true_and] at listed
    have last := congrArg List.getLast? listed.1
    rw [List.getLast?_concat] at last
    obtain rfl := Option.some.inj last
    exact absurd temporary (by decide)
  have can : canSet usedDisk "/cache" "units" "ab//./cd" "v2" [8, 9] = true := by
    decide +kernel
  have entry : littleEndian 4 (Text.utf8 "v2").length ++ Text.utf8 "v2" ++ [8, 9]
      = [2, 0, 0, 0, 0x76, 0x32, 8, 9] := by
    decide +kernel
  have atomic := set_atomic usedDisk "/cache" "units" "ab//./cd" "v2" [8, 9] noTemporary
  simp only [can, if_true, place, entry] at atomic
  exact atomic.1

end Folio.Cache
