import Folio.Proofs.Cache.Storing
import Mathlib.Data.List.Basic
import Mathlib.Data.List.Induction

/-! What is found in a bucket after values were stored in it, one after the other. Under a key of
two parts it is the value that was stored last, for the tag that came with it or for none.
-/

namespace Folio.Cache

open Files (Bytes Disk Path.join Path.pieces Path.steps)
open Files.Disk (Grows Swaps)

variable {d later : Disk} {root bucket key path tag : String} {value bytes : Bytes}

-----------------------------------------------------------------------------------------
-- Sequences of writes
-----------------------------------------------------------------------------------------

structure Write where
  key : String
  tag : String
  value : Bytes
deriving DecidableEq, Inhabited

namespace Write

def store (root bucket : String) (d : Disk) (w : Write) : Disk :=
  (Cache.directory root).set d bucket w.key w.tag w.value

def storeAll (root bucket : String) (d : Disk) (writes : List Write) : Disk :=
  writes.foldl (store root bucket) d

def last? (key : String) (writes : List Write) : Option Write :=
  writes.reverse.find? (·.key == key)

/-- Holds if all that is done to store values, one after the other, succeeds. -/
def AllSucceed (root bucket : String) (d : Disk) : List Write → Prop
  | [] => True
  | w :: rest =>
      canSet d root bucket w.key w.tag w.value = true
      ∧ AllSucceed root bucket (w.store root bucket d) rest

variable {w : Write} {writes : List Write}

theorem storeAll_concat (root bucket : String) (d : Disk) (writes : List Write) (w : Write)
    : storeAll root bucket d (writes ++ [w])
      = w.store root bucket (storeAll root bucket d writes) := by
  rw [storeAll, List.foldl_append]
  rfl

theorem allSucceed_concat
    : AllSucceed root bucket d (writes ++ [w])
      ↔ AllSucceed root bucket d writes
        ∧ canSet (storeAll root bucket d writes) root bucket w.key w.tag w.value = true := by
  induction writes generalizing d with
  | nil => exact and_comm
  | cons first rest ih =>
      rw [List.cons_append, AllSucceed, AllSucceed, ih, and_assoc]
      rfl

theorem last?_concat (key : String) (writes : List Write) (w : Write)
    : last? key (writes ++ [w]) = if w.key = key then some w else last? key writes := by
  rw [last?, List.reverse_append, List.reverse_singleton, List.singleton_append, List.find?_cons]
  by_cases same : w.key = key
  · rw [if_pos same, beq_iff_eq.mpr same]
  · rw [if_neg same, beq_eq_false_iff_ne.mpr same]
    rfl

theorem mem_of_last? (h : last? key writes = some w) : w ∈ writes ∧ w.key = key :=
  ⟨List.mem_reverse.mp (List.mem_of_find?_eq_some h), by simpa using List.find?_some h⟩

end Write

-----------------------------------------------------------------------------------------
-- Keys of two parts
-----------------------------------------------------------------------------------------

/-- Holds for keys of two parts of which the second one is no name of a temporary file. -/
def IsEntryKey (key : String) : Prop :=
  ∃ outer inner, Path.pieces key = [outer, inner] ∧ ¬".tmp-".toList <+: inner.toList

theorem IsEntryKey.length_eq_two (h : IsEntryKey key) : (Path.pieces key).length = 2 := by
  obtain ⟨outer, inner, pieces, -⟩ := h
  rw [pieces]
  rfl

/-- A path is told by its pieces. -/
theorem eq_of_pieces {first second : String} (same : Path.pieces first = Path.pieces second)
    : first = second := by
  rw [← Files.Path.intercalate_pieces first, same, Files.Path.intercalate_pieces]

/-- A key of two parts that has a file leads along both of them. A file is never read by a path that
ends in a slash or in `.`.
-/
theorem steps_of_read (two : (Path.pieces key).length = 2)
    (found : entryPath? root bucket key = some path) (read : d.read path = .ok bytes)
    : Path.steps key = Path.pieces key := by
  obtain ⟨outer, inner, pieces⟩ := List.length_eq_two.mp two
  obtain ⟨plain, rfl⟩ : Files.Path.isPlain key = true ∧ _ = path := by
    simpa [entryPath?] using found
  have outerLeads : Files.Path.isIdle outer = false := by
    have notEmpty : outer ≠ "" := by
      rintro rfl
      have notAbsolute := (Files.Path.steps_of_isPlain plain).1
      have named : key.isEmpty = false := by
        cases empty : key.isEmpty with
        | false => rfl
        | true => simp [Files.Path.isPlain, empty] at plain
      cases notAbsolute.symm.trans (Files.Path.isAbsolute_of_pieces named pieces)
    have notHere : outer ≠ "." := by
      rintro rfl
      cases plain.symm.trans (Files.Path.isPlain_eq_false.mpr (by simp [pieces]))
    simp [Files.Path.isIdle, notEmpty, notHere]
  have innerLeads : Files.Path.isIdle inner = false := by
    obtain ⟨place, located, forFile, -⟩ := Files.Disk.read_eq_ok.mp read
    obtain ⟨-, -, -, -, -, asDirectory⟩ := Files.Disk.locate_eq_ok.mp located
    rw [forFile, Files.Path.getLast?_pieces_join, Files.Path.getLast?_pieces_join, pieces]
      at asDirectory
    exact asDirectory.symm
  rw [Path.steps, pieces]
  simp [outerLeads, innerLeads]

/-- The value of an entry that was stored with a tag is found for that tag, or for none. -/
theorem decodeEntry_encodeEntry_iff {stored : String} (fits : (Text.utf8 stored).length < 256 ^ 4)
    {held : Bytes}
    : decodeEntry tag (encodeEntry stored held) = some value
      ↔ held = value ∧ (tag = "" ∨ stored = tag) := by
  rw [decodeEntry_eq_some]
  constructor
  · rintro ⟨other, otherFits, same, asked⟩
    rw [encodeEntry, List.append_assoc, List.append_assoc] at same
    obtain ⟨sizes, same⟩ := List.append_inj same (by rw [length_littleEndian, length_littleEndian])
    have lengths := littleEndian_injective fits otherFits sizes
    obtain ⟨rfl, rfl⟩ := List.append_inj same lengths
    exact ⟨rfl, asked.imp_right Text.utf8_injective⟩
  · rintro ⟨rfl, asked⟩
    exact ⟨Text.utf8 stored, fits, rfl, asked.imp_right (congrArg Text.utf8)⟩

-----------------------------------------------------------------------------------------
-- What a bucket holds
-----------------------------------------------------------------------------------------

/-- Holds if a bucket is as the writes so far tell. Each file to which two steps lead is the entry
that was written last under the key with these parts, and the entry that was written last under a
key is read.
-/
structure Reflected (root bucket : String) (writes : List Write) (d : Disk) : Prop where
  known
    : ∀ outer inner bytes,
        d.root.shapeAt? (d.target (Path.join root bucket) ++ [outer, inner]) = some (.file bytes)
        → ∃ w, Path.pieces w.key = [outer, inner]
            ∧ Write.last? w.key writes = some w
            ∧ bytes = encodeEntry w.tag w.value
  kept
    : ∀ key w, Write.last? key writes = some w →
        (Text.utf8 w.tag).length < 256 ^ 4
        ∧ ∃ path, entryPath? root bucket key = some path
            ∧ d.read path = .ok (encodeEntry w.tag w.value)

variable {w : Write} {writes : List Write}

/-- No file is at the place of the next temporary file, because each file in the bucket is an entry,
and none of the keys is named like a temporary file.
-/
theorem Reflected.fresh (h : Reflected root bucket writes d)
    (named : ∀ w ∈ writes, IsEntryKey w.key) {outer inner : String}
    (steps : Path.steps key = [outer, inner]) (bytes : Bytes)
    : d.root.shapeAt? (temporaryPlace d root bucket key) ≠ some (.file bytes) := by
  intro there
  rw [temporaryPlace, steps] at there
  obtain ⟨w, pieces, last, -⟩ := h.known outer d.temporaryName bytes there
  obtain ⟨_, _, otherPieces, plain⟩ := named w (Write.mem_of_last? last).1
  cases pieces.symm.trans otherPieces
  exact plain d.temporaryName_begins

/-- One more write, of a key of two parts. -/
theorem Reflected.store (h : Reflected root bucket writes d)
    (named : ∀ w ∈ writes, IsEntryKey w.key) (two : (Path.pieces w.key).length = 2)
    (can : canSet d root bucket w.key w.tag w.value = true)
    : Reflected root bucket (writes ++ [w]) (w.store root bucket d) := by
  obtain ⟨-, -, fits, -⟩ := canSet_eq_true.mp can
  rcases set_cases d root bucket w.key w.tag w.value with
    ⟨cannot, -⟩ | ⟨-, swaps, path, found, read⟩
  · cases can.symm.trans cannot
  have steps := steps_of_read two found read
  obtain ⟨outer, inner, pieces⟩ := List.length_eq_two.mp two
  have grows := swaps.grows (h.fresh named (steps.trans pieces))
  rw [steps] at swaps
  constructor
  · intro first second bytes there
    rw [Write.store, grows.target] at there
    rcases swaps.file there with ⟨elsewhere, before⟩ | ⟨same, rfl⟩
    · obtain ⟨other, otherPieces, last, held⟩ := h.known first second bytes before
      refine ⟨other, otherPieces, ?_, held⟩
      rw [Write.last?_concat, if_neg, last]
      intro same
      exact elsewhere (by rw [← otherPieces, same])
    · refine ⟨w, (List.append_cancel_left same).symm, ?_, rfl⟩
      rw [Write.last?_concat, if_pos rfl]
  · intro other stored last
    rw [Write.last?_concat] at last
    split at last
    · next same =>
        obtain rfl := Option.some.inj last
        subst same
        exact ⟨fits, path, found, read⟩
    · next notSame =>
        obtain ⟨otherFits, otherPath, otherFound, otherRead⟩ := h.kept other stored last
        obtain ⟨member, rfl⟩ := Write.mem_of_last? last
        have otherSteps := steps_of_read (named stored member).length_eq_two otherFound otherRead
        have elsewhere : d.target otherPath
            ∉ [d.target (Path.join root bucket) ++ Path.steps w.key] := by
          rw [List.mem_singleton, (target_of_entryPath? d otherFound).1, steps, otherSteps]
          exact fun same => notSame (eq_of_pieces (List.append_cancel_left same).symm)
        exact ⟨otherFits, otherPath, otherFound, grows.read elsewhere otherRead⟩

/-- After a sequence of writes a bucket that had no files is as the writes tell, by induction on
them.
-/
theorem reflected_storeAll (vacant : d.Vacant (d.target (Path.join root bucket)))
    (named : ∀ w ∈ writes, IsEntryKey w.key) (ok : Write.AllSucceed root bucket d writes)
    : Reflected root bucket writes (Write.storeAll root bucket d writes) := by
  induction writes using List.reverseRecOn with
  | nil =>
      refine ⟨fun outer inner bytes there => absurd there (vacant _ bytes), fun key w last => ?_⟩
      cases last
  | append_singleton before w ih =>
      obtain ⟨earlier, now⟩ := Write.allSucceed_concat.mp ok
      rw [List.forall_mem_append, List.forall_mem_singleton] at named
      rw [Write.storeAll_concat]
      exact (ih named.1 earlier).store named.1 named.2.length_eq_two now

/-- What is found under a key in a bucket that is as the writes tell. -/
theorem Reflected.get?_eq_some (h : Reflected root bucket writes d)
    (two : (Path.pieces key).length = 2)
    : (Cache.directory root).get? d bucket key tag = some value
      ↔ ∃ w, Write.last? key writes = some w ∧ w.value = value ∧ (tag = "" ∨ w.tag = tag) := by
  constructor
  · intro got
    obtain ⟨path, found, got⟩ := Option.bind_eq_some_iff.mp got
    obtain ⟨bytes, read, decoded⟩ := Option.bind_eq_some_iff.mp got
    rw [toOption_eq_some] at read
    obtain ⟨outer, inner, pieces⟩ := List.length_eq_two.mp two
    have there := Files.Disk.file_of_read read
    rw [(target_of_entryPath? d found).1, steps_of_read two found read, pieces] at there
    obtain ⟨w, samePieces, last, rfl⟩ := h.known outer inner bytes there
    obtain ⟨fits, -⟩ := h.kept w.key w last
    have same : w.key = key := eq_of_pieces (samePieces.trans pieces.symm)
    exact ⟨w, same ▸ last, (decodeEntry_encodeEntry_iff fits).mp decoded⟩
  · rintro ⟨w, last, asked⟩
    obtain ⟨fits, path, found, read⟩ := h.kept key w last
    simp [get?, found, read, Except.toOption, decodeEntry_encodeEntry_iff fits, asked]

/-- Entries are read as they were written. The value in the file of a key is found if and only if
the file holds the length of a tag, the tag and then the value, and the tag is asked for, or none.
So after a sequence of writes under keys of two parts, all of which succeed and none of which has
the name of a temporary file, a value is found under a key if and only if it was the last one that
was stored there, with the tag that is asked for, or with any if none is.
-/
theorem get?_eq_some_iff (root bucket : String)
    : (∀ d key path bytes tag value,
        entryPath? root bucket key = some path → d.read path = .ok bytes →
          ((Cache.directory root).get? d bucket key tag = some value
            ↔ ∃ stored : Bytes,
                stored.length < 256 ^ 4
                ∧ bytes = littleEndian 4 stored.length ++ stored ++ value
                ∧ (tag = "" ∨ stored = Text.utf8 tag)))
      ∧ ∀ (d : Disk) (writes : List Write),
          d.Vacant (d.target (Path.join root bucket)) →
          (∀ w ∈ writes, IsEntryKey w.key) →
          Write.AllSucceed root bucket d writes →
          ∀ key tag value, (Path.pieces key).length = 2 →
            ((Cache.directory root).get? (Write.storeAll root bucket d writes) bucket key tag
                = some value
              ↔ ∃ w, Write.last? key writes = some w
                  ∧ w.value = value
                  ∧ (tag = "" ∨ w.tag = tag)) := by
  constructor
  · intro d key path bytes tag value found read
    rw [← decodeEntry_eq_some]
    simp [get?, found, read, Except.toOption]
  · intro d writes vacant named ok key tag value two
    exact (reflected_storeAll vacant named ok).get?_eq_some two

/-- An empty disk has no files. -/
theorem vacant_empty (place : List String) : Files.Disk.Vacant {} place := by
  intro inner bytes there
  have listed := Files.Entry.mem_files [] there
  cases listed

/-- A value that is stored again, with another tag. -/
def retagged : List Write :=
  [{ key := "a/b", tag := "1", value := [1] }, { key := "a/b", tag := "2", value := [3] }]

/-- The last tag counts, and the entry of a unit has its value. -/
theorem get?_retagged
    : (Cache.directory "/cache").get? usedDisk "units" "ab/cd" "1" = some [7]
      ∧ ∀ tag value,
          (Cache.directory "/c").get? (Write.storeAll "/c" "u" {} retagged) "u" "a/b" tag
            = some value
          ↔ [3] = value ∧ (tag = "" ∨ "2" = tag) := by
  constructor
  · have read : usedDisk.read "/cache/units/ab/cd" = .ok [1, 0, 0, 0, 0x31, 7] :=
      toOption_eq_some.mp (by decide +kernel)
    have entries := (get?_eq_some_iff "/cache" "units").1
    refine (entries usedDisk "ab/cd" "/cache/units/ab/cd" _ "1" [7] (by decide +kernel) read).mpr ?_
    exact ⟨[0x31], by decide, by decide, .inr (by decide +kernel)⟩
  · have isEntry : IsEntryKey "a/b" := ⟨"a", "b", by decide +kernel, by decide⟩
    have named : ∀ w ∈ retagged, IsEntryKey w.key :=
      List.forall_mem_cons.mpr ⟨isEntry, List.forall_mem_singleton.mpr isEntry⟩
    have ok : Write.AllSucceed "/c" "u" {} retagged :=
      ⟨by decide +kernel, by decide +kernel, trivial⟩
    have writes := (get?_eq_some_iff "/c" "u").2
    intro tag value
    rw [writes {} retagged (vacant_empty _) named ok "a/b" tag value (by decide +kernel)]
    have last : Write.last? "a/b" retagged
        = some { key := "a/b", tag := "2", value := [3] } := by
      decide +kernel
    simp [last]

def temporaryWrites : List Write :=
  [{ key := "a/.tmp-1-1", tag := "", value := [1] },
    { key := "a/.tmp-1-2", tag := "", value := [2] }]

def strayWrite : Write :=
  { key := "../abcd", tag := "", value := [1] }

/-- An entry that has the name of a temporary file is lost when that file is written, although all
that is done succeeds. Nothing is done for a key that leads out of the bucket.
-/
theorem get?_lost
    : ((∀ w ∈ temporaryWrites, (Path.pieces w.key).map String.length = [1, 8])
        ∧ Write.AllSucceed "/c" "u" {} temporaryWrites
        ∧ Write.last? "a/.tmp-1-1" temporaryWrites
          = some { key := "a/.tmp-1-1", tag := "", value := [1] }
        ∧ (Cache.directory "/c").get? (Write.storeAll "/c" "u" {} temporaryWrites) "u"
            "a/.tmp-1-1" ""
          = none)
      ∧ (Path.pieces strayWrite.key).map String.length = [2, 4]
      ∧ strayWrite.store "/c" "u" {} = {}
      ∧ (Cache.directory "/c").get? (strayWrite.store "/c" "u" {}) "u" strayWrite.key ""
        = none := by
  refine ⟨⟨by decide +kernel, ⟨by decide +kernel, by decide +kernel, trivial⟩, by decide +kernel,
    by decide +kernel⟩, by decide +kernel, rfl, by decide +kernel⟩

end Folio.Cache
