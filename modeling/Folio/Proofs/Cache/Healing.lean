import Folio.Proofs.Cache.Storing
import Folio.Proofs.Cache.Transparency

/-! What a compile does with whatever the file of its unit holds. A unit is taken from the file if
and only if it was written there as units are; any other bytes are as good as none, and are replaced
by the unit of the document.
-/

namespace Folio.Cache

open Document (CompileError Transform)
open Files (Bytes Disk)

variable {d : Disk} {root : String}

-----------------------------------------------------------------------------------------
-- Files of units
-----------------------------------------------------------------------------------------

/-- Holds for texts whose first line is the header of units. -/
def BeginsUnit (text : String) : Prop :=
  text = Unit.header
    ∨ ∃ rest, text = Unit.header ++ "\n" ++ rest ∨ text = Unit.header ++ "\r\n" ++ rest

/-- The bytes of a file with a unit: the length of the tag, the tag, and the text. -/
def unitFile (text : String) : Bytes :=
  [1, 0, 0, 0, 0x31] ++ Text.utf8 text

theorem unitFile_injective {text other : String} (h : unitFile text = unitFile other)
    : text = other :=
  Text.utf8_injective (List.append_cancel_left h)

theorem encodeEntry_unitTag (text : String)
    : encodeEntry unitTag (Text.utf8 text) = unitFile text := by
  have header : littleEndian 4 (Text.utf8 unitTag).length ++ Text.utf8 unitTag
      = [1, 0, 0, 0, 0x31] := by
    decide +kernel
  rw [encodeEntry, header, unitFile]

/-- Texts are taken for units by their first line. -/
theorem ofText?_eq_some {text : String} {unit : CompiledUnit}
    : CompiledUnit.ofText? text = some unit ↔ unit = { text } ∧ BeginsUnit text := by
  have isLine : Text.IsLine Unit.header.toList := Text.Unbroken.isLine (by decide)
  have begins : BeginsUnit text ↔ (Text.lines text.toList).head? = some Unit.header.toList := by
    rw [Text.head?_lines isLine (by decide)]
    constructor
    · rintro (rfl | ⟨rest, rfl | rfl⟩)
      · exact .inl rfl
      · exact .inr ⟨rest.toList, .inl (by simp)⟩
      · exact .inr ⟨rest.toList, .inr (by simp)⟩
    · rintro (same | ⟨rest, same | same⟩)
      · exact .inl (String.toList_injective same)
      · exact .inr ⟨String.ofList rest, .inl (String.toList_injective (by simp [same]))⟩
      · exact .inr ⟨String.ofList rest, .inr (String.toList_injective (by simp [same]))⟩
  rw [begins, CompiledUnit.ofText?]
  split
  · next first => simp [beq_iff_eq.mp first, eq_comm]
  · next first => simp [mt beq_iff_eq.mpr first]

/-- A unit is found for an input if and only if its file is that of the unit. -/
theorem unit?_eq_some {i : Input} {unit : CompiledUnit}
    : unit? (.directory root) d i.fingerprint = some unit
      ↔ d.read (unitPath root i.fingerprint) = .ok (unitFile unit.text)
        ∧ BeginsUnit unit.text := by
  have fits : (Text.utf8 unitTag).length < 256 ^ 4 := by decide
  have named : unitTag ≠ "" := by decide +kernel
  constructor
  · intro found
    obtain ⟨text, got, isUnit⟩ := Option.bind_eq_some_iff.mp found
    obtain ⟨bytes, got, written⟩ := Option.bind_eq_some_iff.mp got
    obtain ⟨rfl, begins⟩ := ofText?_eq_some.mp isUnit
    obtain rfl := Text.ofUtf8?_eq_some.mp written
    simp only [get?, entryPath?_key, Option.bind_eq_bind, Option.bind_some] at got
    obtain ⟨held, read, decoded⟩ := Option.bind_eq_some_iff.mp got
    obtain ⟨stored, -, rfl, asked⟩ := decodeEntry_eq_some.mp decoded
    obtain rfl := asked.resolve_left named
    exact ⟨(toOption_eq_some.mp read).trans (congrArg Except.ok (encodeEntry_unitTag text)), begins⟩
  · rintro ⟨read, begins⟩
    rw [← encodeEntry_unitTag] at read
    exact unit?_of_read read (ofText?_eq_some.mpr ⟨rfl, begins⟩)

/-- A unit that was stored is in its file. -/
theorem read_of_setUnit {i : Input} {unit : CompiledUnit}
    (isUnit : CompiledUnit.ofText? unit.text = some unit)
    (can : canWriteEntry d (unitPath root i.fingerprint) (unitFile unit.text) = true)
    : (setUnit (.directory root) d i.fingerprint unit).read (unitPath root i.fingerprint)
        = .ok (unitFile unit.text)
      ∧ BeginsUnit unit.text := by
  rw [← encodeEntry_unitTag] at can
  exact unit?_eq_some.mp (swaps_of_setUnit isUnit can).2

-----------------------------------------------------------------------------------------
-- Compiles
-----------------------------------------------------------------------------------------

variable {transforms : List Transform} {i : Input}

/-- What a document compiles to through the cache in a directory, and the disk afterwards. -/
def compileThrough (transforms : List Transform) (root : String) (d : Disk) (i : Input)
    : Except CompileError Outcome × Disk :=
  Compiler.compile { transforms, cache := .directory root, lockfile := i.lockfile } d i.body i.names

/-- A compile takes the unit from its file, or does what it would without a cache and stores the
unit.
-/
theorem compileThrough_cases (transforms : List Transform) (root : String) (d : Disk) (i : Input)
    : (∃ text, d.read (unitPath root i.fingerprint) = .ok (unitFile text)
        ∧ BeginsUnit text
        ∧ compileThrough transforms root d i
          = (.ok { unit := { text }, fingerprint := i.fingerprint, fromCache := true }, d))
      ∨ (∀ text, d.read (unitPath root i.fingerprint) = .ok (unitFile text) → ¬BeginsUnit text)
        ∧ ((∃ e, Document.compile transforms i.body i.names = .error e
            ∧ compileThrough transforms root d i = (.error e, d))
          ∨ ∃ unit, Document.compile transforms i.body i.names = .ok unit
            ∧ compileThrough transforms root d i
              = (.ok { unit, fingerprint := i.fingerprint, fromCache := false },
                setUnit (.directory root) d i.fingerprint unit)) := by
  rcases Compiler.compile_cases { transforms, cache := .directory root, lockfile := i.lockfile } d
      i.body i.names with ⟨unit, found, does⟩ | ⟨missing, does⟩
  · obtain ⟨read, begins⟩ := unit?_eq_some.mp found
    exact .inl ⟨unit.text, read, begins, does⟩
  · refine .inr ⟨fun text read begins => ?_, does⟩
    cases missing.symm.trans (unit?_eq_some.mpr ⟨read, begins⟩)

/-- A unit that is in its file is taken from there, and nothing changes. -/
theorem compileThrough_of_read {text : String}
    (read : d.read (unitPath root i.fingerprint) = .ok (unitFile text)) (begins : BeginsUnit text)
    : compileThrough transforms root d i
      = (.ok { unit := { text }, fingerprint := i.fingerprint, fromCache := true }, d) := by
  rcases compileThrough_cases transforms root d i with ⟨other, again, -, does⟩ | ⟨damaged, -⟩
  · rw [does, unitFile_injective (Except.ok.inj (again.symm.trans read))]
  · exact absurd begins (damaged text read)

/-- A damaged entry heals. A compile takes the unit from its file if and only if the file holds a
text in UTF-8 that begins like a unit, after the length of the tag and the tag; the unit is then
that text. Otherwise the compile gives what it would without a cache. An error changes nothing, and
a unit is written to the file, if that can be done, and is taken from there the next time.
-/
theorem compileThrough_healing (transforms : List Transform) (root : String) (d : Disk) (i : Input)
    : let path := unitPath root i.fingerprint
      let after := (compileThrough transforms root d i).2
      ((∃ outcome, (compileThrough transforms root d i).1 = .ok outcome
          ∧ outcome.fromCache = true)
        ↔ ∃ text, d.read path = .ok (unitFile text) ∧ BeginsUnit text)
      ∧ (∀ text, d.read path = .ok (unitFile text) → BeginsUnit text →
          compileThrough transforms root d i
          = (.ok { unit := { text }, fingerprint := i.fingerprint, fromCache := true }, d))
      ∧ ((∀ text, d.read path = .ok (unitFile text) → ¬BeginsUnit text) →
          (compileThrough transforms root d i).1
              = (Document.compile transforms i.body i.names).map
                  (fun unit => { unit, fingerprint := i.fingerprint, fromCache := false })
          ∧ (∀ e, Document.compile transforms i.body i.names = .error e → after = d)
          ∧ ∀ unit, Document.compile transforms i.body i.names = .ok unit →
              canWriteEntry d path (unitFile unit.text) = true →
                after.read path = .ok (unitFile unit.text)
                ∧ compileThrough transforms root after i
                  = (.ok { unit, fingerprint := i.fingerprint, fromCache := true }, after)) := by
  dsimp only
  refine ⟨⟨?_, ?_⟩, fun text read begins => compileThrough_of_read read begins, ?_⟩
  · rintro ⟨outcome, result, fromCache⟩
    rcases compileThrough_cases transforms root d i with
      ⟨text, read, begins, -⟩ | ⟨-, ⟨e, -, does⟩ | ⟨unit, -, does⟩⟩
    · exact ⟨text, read, begins⟩
    · rw [does] at result
      cases result
    · rw [does] at result
      cases result
      cases fromCache
  · rintro ⟨text, read, begins⟩
    exact ⟨_, congrArg Prod.fst (compileThrough_of_read read begins), rfl⟩
  · intro damaged
    rcases compileThrough_cases transforms root d i with
      ⟨text, read, begins, -⟩ | ⟨-, ⟨e, failed, does⟩ | ⟨unit, compiled, does⟩⟩
    · exact absurd begins (damaged text read)
    · rw [does, failed]
      refine ⟨rfl, fun _ _ => rfl, ?_⟩
      rintro unit ⟨⟩
    · rw [does, compiled]
      dsimp only
      refine ⟨rfl, ?_, ?_⟩
      · rintro e ⟨⟩
      · rintro _ ⟨⟩ can
        obtain ⟨read, begins⟩ := read_of_setUnit (Document.ofText?_of_compile compiled) can
        exact ⟨read, compileThrough_of_read read begins⟩

def paragraph : Input :=
  { body := "a\n", names := [], lockfile := "" }

/-- A cache in which the entry of the paragraph claims to have a longer tag than there are bytes. -/
def damagedDisk : Disk :=
  { root :=
      Files.Entry.empty.put (.file [255, 255, 255, 255, 0x31])
        ("c" :: unitBucket :: paragraph.fingerprint.names) }

/-- The entry heals. -/
theorem compileThrough_damagedDisk
    : let unit : CompiledUnit := { text := "#!weave-unit 1\nopen p\ntext \"a\"\nclose\n" }
      let after := (compileThrough Transform.standard "/c" damagedDisk paragraph).2
      (compileThrough Transform.standard "/c" damagedDisk paragraph).1
          = .ok { unit, fingerprint := paragraph.fingerprint, fromCache := false }
        ∧ after.read (unitPath "/c" paragraph.fingerprint) = .ok (unitFile unit.text)
        ∧ compileThrough Transform.standard "/c" after paragraph
          = (.ok { unit, fingerprint := paragraph.fingerprint, fromCache := true }, after) := by
  have root : damagedDisk.target "/c" = ["c"] := by decide +kernel
  have damaged (text : String)
      (read : damagedDisk.read (unitPath "/c" paragraph.fingerprint) = .ok (unitFile text))
      : ¬BeginsUnit text := by
    have there := Files.Disk.file_of_read read
    have held := Files.Entry.shapeAt?_put_below Files.Entry.empty
      (.file [255, 255, 255, 255, 0x31]) ("c" :: unitBucket :: paragraph.fingerprint.names) []
    rw [List.append_nil] at held
    rw [target_unitPath, unitPlace, root, List.singleton_append] at there
    cases there.symm.trans held
  have compiled : Document.compile Transform.standard paragraph.body paragraph.names
      = .ok { text := "#!weave-unit 1\nopen p\ntext \"a\"\nclose\n" } :=
    toOption_eq_some.mp (by decide +kernel)
  have can : canWriteEntry damagedDisk (unitPath "/c" paragraph.fingerprint)
      (unitFile "#!weave-unit 1\nopen p\ntext \"a\"\nclose\n") = true := by
    decide +kernel
  obtain ⟨result, -, stored⟩ :=
    (compileThrough_healing Transform.standard "/c" damagedDisk paragraph).2.2 damaged
  rw [compiled] at result
  exact ⟨result, stored _ compiled can⟩

end Folio.Cache
