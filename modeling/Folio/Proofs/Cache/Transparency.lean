import Folio.Proofs.Cache.Session
import Folio.Proofs.Document.Execution

/-! A cache never shows in what a document compiles to. In a run of openings and compiles, the files
in the directory of the cache are those of the documents that were compiled through it since it was
prepared for another version the last time.
-/

namespace Folio.Cache

open Document (CompileError Transform)
open Files (Disk)
open Files.Disk (Grows)

variable {transforms : List Transform} {root : String} {past : List Request} {s : Session}

/-- What a compile does: a unit that is found is given, an error changes nothing, and a new unit is
stored.
-/
theorem Compiler.compile_cases (c : Compiler) (d : Disk) (body : String) (names : List String)
    : (∃ unit, c.cache.unit? d (c.fingerprint body names) = some unit
        ∧ c.compile d body names
          = (.ok { unit, fingerprint := c.fingerprint body names, fromCache := true }, d))
      ∨ c.cache.unit? d (c.fingerprint body names) = none
        ∧ ((∃ e, Document.compile c.transforms body names = .error e
            ∧ c.compile d body names = (.error e, d))
          ∨ ∃ unit, Document.compile c.transforms body names = .ok unit
            ∧ c.compile d body names
              = (.ok { unit, fingerprint := c.fingerprint body names, fromCache := false },
                c.cache.setUnit d (c.fingerprint body names) unit)) := by
  unfold Compiler.compile
  dsimp only
  cases found : c.cache.unit? d (c.fingerprint body names) with
  | some unit => exact Or.inl ⟨unit, rfl, rfl⟩
  | none =>
      dsimp only
      cases compiled : Document.compile c.transforms body names with
      | error e => exact Or.inr ⟨rfl, Or.inl ⟨e, rfl, rfl⟩⟩
      | ok unit => exact Or.inr ⟨rfl, Or.inr ⟨unit, rfl, rfl⟩⟩

/-- The cache that was opened last, if it was not disabled. -/
def Opening.cache (o : Opening) (root : String) : Cache :=
  if o.enabled then .directory root else .disabled

/-- Holds if a session is as the requests so far tell. The compiler uses the cache that was opened
last. There is no file in the directory before it was opened. After that it has the version with
which it was opened last; each file of a unit in it is that of an input that is kept, and the unit
of each input that is kept is found in it.
-/
structure Reflects (transforms : List Transform) (root : String) (past : List Request) (s : Session)
    : Prop where
  compiler
    : s.compiler
      = { transforms
          cache := (opening past).cache root
          lockfile := (opening past).lockfile }
  fresh : (opening past).version? = none → s.disk.Vacant (s.disk.target root)
  prepared
    : ∀ version, (opening past).version? = some version
        → s.disk.hasDirectory root = true
          ∧ s.disk.readText (versionFile root) = .ok version
  known
    : ∀ f bytes, s.disk.root.shapeAt? (unitPlace s.disk root f) = some (.file bytes)
        → ∃ version i, KeptUnder transforms version past i ∧ i.fingerprint = f
  kept
    : ∀ version i, KeptUnder transforms version past i
        → ∃ unit,
            Document.compile transforms i.body i.names = .ok unit
            ∧ unit? (.directory root) s.disk i.fingerprint = some unit

/-- A session in which no cache was opened yet is as no requests tell, if there is no file in the
directory.
-/
theorem reflects_start {disk : Disk} (vacant : disk.Vacant (disk.target root))
    : Reflects transforms root [] (Session.start transforms disk) where
  compiler := rfl
  fresh := fun _ => vacant
  prepared := fun _ opened => nomatch opened
  known := fun _ bytes there => absurd there (vacant _ bytes)
  kept := fun _ _ kept => absurd kept.mem_inputs List.not_mem_nil

/-- What is found in the directory for an input that shares its fingerprint with no other is the
unit that it compiles to, and it is found if the input is kept.
-/
theorem Reflects.unit?_eq_some (h : Reflects transforms root past s) {i : Input}
    (only : ∀ j ∈ inputs past, j.fingerprint = i.fingerprint → j = i) {unit : CompiledUnit}
    : unit? (.directory root) s.disk i.fingerprint = some unit
      ↔ (∃ version, KeptUnder transforms version past i)
        ∧ Document.compile transforms i.body i.names = .ok unit := by
  constructor
  · intro found
    obtain ⟨bytes, -, there⟩ := file_of_unit? found
    obtain ⟨version, j, kept, same⟩ := h.known _ bytes there
    obtain rfl := only j kept.mem_inputs same
    obtain ⟨stored, compiled, again⟩ := h.kept version j kept
    obtain rfl := Option.some.inj (again.symm.trans found)
    exact ⟨⟨version, kept⟩, compiled⟩
  · rintro ⟨⟨version, kept⟩, compiled⟩
    obtain ⟨stored, same, found⟩ := h.kept version i kept
    obtain rfl := Except.ok.inj (same.symm.trans compiled)
    exact found

/-- The same for the cache that was opened last, in which nothing is found if it is disabled. -/
theorem Reflects.lookup (h : Reflects transforms root past s) {i : Input}
    (only : ∀ j ∈ inputs past, j.fingerprint = i.fingerprint → j = i) {unit : CompiledUnit}
    : ((opening past).cache root).unit? s.disk i.fingerprint = some unit
      ↔ ((opening past).enabled = true ∧ ∃ version, KeptUnder transforms version past i)
        ∧ Document.compile transforms i.body i.names = .ok unit := by
  unfold Opening.cache
  cases (opening past).enabled with
  | false => exact ⟨fun found => (nomatch found), fun ⟨⟨enabled, _⟩, _⟩ => nomatch enabled⟩
  | true => simpa using h.unit?_eq_some only

/-- What the compiler of a session does for an input, by cases on whether its unit is found. -/
theorem Reflects.compile_cases (h : Reflects transforms root past s) {i : Input}
    (current : i.lockfile = (opening past).lockfile)
    : (∃ unit, ((opening past).cache root).unit? s.disk i.fingerprint = some unit
        ∧ s.compiler.compile s.disk i.body i.names
          = (.ok { unit, fingerprint := i.fingerprint, fromCache := true }, s.disk))
      ∨ ((opening past).cache root).unit? s.disk i.fingerprint = none
        ∧ ((∃ e, Document.compile transforms i.body i.names = .error e
            ∧ s.compiler.compile s.disk i.body i.names = (.error e, s.disk))
          ∨ ∃ unit, Document.compile transforms i.body i.names = .ok unit
            ∧ s.compiler.compile s.disk i.body i.names
              = (.ok { unit, fingerprint := i.fingerprint, fromCache := false },
                ((opening past).cache root).setUnit s.disk i.fingerprint unit)) := by
  have fingerprint : s.compiler.fingerprint i.body i.names = i.fingerprint := by
    rw [h.compiler, Input.fingerprint, current]
    rfl
  have cases := Compiler.compile_cases s.compiler s.disk i.body i.names
  rw [fingerprint] at cases
  rw [h.compiler] at cases ⊢
  exact cases

/-- What a compile gives, through the directory or not: the unit or the error of the document, and
whether the unit was there.
-/
theorem Reflects.compile (h : Reflects transforms root past s) {i : Input}
    (current : i.lockfile = (opening past).lockfile)
    (only : ∀ j ∈ inputs past, j.fingerprint = i.fingerprint → j = i)
    : (s.compiler.compile s.disk i.body i.names).1.map Outcome.unit
        = Document.compile transforms i.body i.names
      ∧ ∀ outcome, (s.compiler.compile s.disk i.body i.names).1 = .ok outcome →
          (outcome.fromCache = true
            ↔ (opening past).enabled = true ∧ ∃ version, KeptUnder transforms version past i) := by
  rcases h.compile_cases current with ⟨unit, found, does⟩ | ⟨missing, does⟩
  · obtain ⟨kept, compiled⟩ := (h.lookup only).mp found
    rw [does]
    refine ⟨compiled.symm, ?_⟩
    rintro outcome ⟨⟩
    exact iff_of_true rfl kept
  · rcases does with ⟨e, failed, does⟩ | ⟨unit, compiled, does⟩
    · rw [does]
      exact ⟨failed.symm, fun _ same => nomatch same⟩
    · rw [does]
      refine ⟨compiled.symm, ?_⟩
      rintro outcome ⟨⟩
      refine iff_of_false Bool.false_ne_true fun kept => ?_
      have found := (h.lookup only).mpr ⟨kept, compiled⟩
      rw [missing] at found
      exact nomatch found

-----------------------------------------------------------------------------------------
-- What a request preserves
-----------------------------------------------------------------------------------------

/-- Doing without a cache leaves the directory as it is. -/
theorem Reflects.disable (h : Reflects transforms root past s) (lockfile : String)
    : Reflects transforms root (past ++ [.disable lockfile]) (s.step root (.disable lockfile)) := by
  have opened := opening_concat past (.disable lockfile)
  refine ⟨?_, ?_, ?_, ?_, ?_⟩
  · rw [opened, Session.step, h.compiler]
    rfl
  · rw [opened]
    exact h.fresh
  · rw [opened]
    exact h.prepared
  · intro f bytes there
    obtain ⟨version, i, kept, named⟩ := h.known f bytes there
    exact ⟨version, i, keptUnder_disable.mpr kept, named⟩
  · intro version i kept
    exact h.kept version i (keptUnder_disable.mp kept)

/-- Once the directory was opened, the compiler uses it. -/
theorem Reflects.compiler_openDirectory (h : Reflects transforms root past s)
    (version lockfile : String)
    : (s.step root (.openDirectory version lockfile)).compiler
      = { transforms
          cache := (opening (past ++ [.openDirectory version lockfile])).cache root
          lockfile := (opening (past ++ [.openDirectory version lockfile])).lockfile } := by
  rw [opening_concat, Session.step, h.compiler]
  rfl

/-- If there is a file with a version, the directory was opened with it last. -/
theorem Reflects.version_of_readText (h : Reflects transforms root past s) {version : String}
    (read : s.disk.readText (versionFile root) = .ok version)
    : (opening past).version? = some version := by
  cases last : (opening past).version? with
  | none =>
      obtain ⟨bytes, held, -⟩ := Files.Disk.readText_eq_ok.mp read
      have there := Files.Disk.file_of_read held
      rw [target_versionFile] at there
      exact absurd there (h.fresh last _ bytes)
  | some other =>
      have same := (h.prepared other last).2
      rw [Except.ok.inj (same.symm.trans read)]

theorem Reflects.openDirectory_again (h : Reflects transforms root past s) {version : String}
    (lockfile : String) (same : s.disk.readText (versionFile root) = .ok version)
    : Reflects transforms root (past ++ [.openDirectory version lockfile])
        (s.step root (.openDirectory version lockfile)) := by
  have opened := opening_concat past (.openDirectory version lockfile)
  have disk : (s.step root (.openDirectory version lockfile)).disk = s.disk :=
    prepare_of_version same
  have before := h.version_of_readText same
  refine ⟨h.compiler_openDirectory version lockfile, ?_, ?_, ?_, ?_⟩
  · rw [opened]
    exact fun never => nomatch never
  · rw [opened, disk]
    exact fun v last => h.prepared v (before.trans last)
  · rw [disk]
    intro f bytes there
    obtain ⟨v, i, kept, named⟩ := h.known f bytes there
    have last := Option.some.inj (before.symm.trans kept.version_eq)
    exact ⟨v, i, keptUnder_openDirectory.mpr ⟨kept, last⟩, named⟩
  · rw [disk]
    exact fun v i kept => h.kept v i (keptUnder_openDirectory.mp kept).1

/-- Opening a directory that has another version, or none, keeps nothing, and all of it is taken
away.
-/
theorem Reflects.openDirectory_other (h : Reflects transforms root past s) (named : root ≠ "")
    {version : String} (lockfile : String)
    (other : s.disk.readText (versionFile root) ≠ .ok version)
    (ok : canPrepare s.disk root version = true)
    : Reflects transforms root (past ++ [.openDirectory version lockfile])
        (s.step root (.openDirectory version lockfile)) := by
  have opened := opening_concat past (.openDirectory version lockfile)
  have absent (missing : s.disk.has root = false) : s.disk.Vacant (s.disk.target root) := by
    apply h.fresh
    cases last : (opening past).version? with
    | none => rfl
    | some v =>
        have there := Files.Disk.has_of_hasDirectory (h.prepared v last).1
        exact absurd there (ne_true_of_eq_false missing)
  obtain ⟨there, read, nothing⟩ := vacant_of_prepare named other absent ok
  refine ⟨h.compiler_openDirectory version lockfile, ?_, ?_, ?_, ?_⟩
  · rw [opened]
    exact fun never => nomatch never
  · rw [opened]
    rintro v ⟨⟩
    exact ⟨there, read⟩
  · intro f bytes file
    exact absurd file (nothing f bytes)
  · intro v i kept
    obtain ⟨kept, rfl⟩ := keptUnder_openDirectory.mp kept
    exact absurd (h.prepared version kept.version_eq).2 other

/-- A compile that leaves the directory as it is, because the unit is found or because there is
nothing to store.
-/
theorem Reflects.compile_unchanged (h : Reflects transforms root past s) {i : Input}
    (current : i.lockfile = (opening past).lockfile)
    (disk : (s.step root (.compile i.body i.names)).disk = s.disk)
    (there : (opening past).enabled = true →
      ∀ unit, Document.compile transforms i.body i.names = .ok unit →
        unit? (.directory root) s.disk i.fingerprint = some unit)
    : Reflects transforms root (past ++ [.compile i.body i.names])
        (s.step root (.compile i.body i.names)) := by
  have opened : opening (past ++ [.compile i.body i.names]) = opening past :=
    opening_concat past (.compile i.body i.names)
  refine ⟨?_, ?_, ?_, ?_, ?_⟩
  · rw [opened]
    exact h.compiler
  · rw [opened, disk]
    exact h.fresh
  · rw [opened, disk]
    exact h.prepared
  · rw [disk]
    intro f bytes file
    obtain ⟨version, j, kept, named⟩ := h.known f bytes file
    exact ⟨version, j, (keptUnder_compile current).mpr (Or.inl kept), named⟩
  · rw [disk]
    intro version j kept
    rcases (keptUnder_compile current).mp kept with before | ⟨rfl, ⟨unit, compiled⟩, enabled, -⟩
    · exact h.kept version j before
    · exact ⟨unit, compiled, there enabled unit compiled⟩

/-- A compile that stores a unit in an open directory. -/
theorem Reflects.compile_stored (h : Reflects transforms root past s) {i : Input}
    (current : i.lockfile = (opening past).lockfile) (enabled : (opening past).enabled = true)
    (missing : unit? (.directory root) s.disk i.fingerprint = none) {unit : CompiledUnit}
    (compiled : Document.compile transforms i.body i.names = .ok unit)
    (disk : (s.step root (.compile i.body i.names)).disk
      = setUnit (.directory root) s.disk i.fingerprint unit)
    (ok : canWriteEntry s.disk (unitPath root i.fingerprint)
      (encodeEntry unitTag (Text.utf8 unit.text)) = true)
    : Reflects transforms root (past ++ [.compile i.body i.names])
        (s.step root (.compile i.body i.names)) := by
  have opened : opening (past ++ [.compile i.body i.names]) = opening past :=
    opening_concat past (.compile i.body i.names)
  obtain ⟨version, last⟩ := version_of_enabled enabled
  obtain ⟨swaps, found⟩ := swaps_of_setUnit (Document.ofText?_of_compile compiled) ok
  obtain ⟨notUnit, notVersion⟩ := temporary_apart s.disk root i
  have keptNow : KeptUnder transforms version (past ++ [.compile i.body i.names]) i :=
    (keptUnder_compile current).mpr (Or.inr ⟨rfl, ⟨unit, compiled⟩, enabled, last⟩)
  refine ⟨?_, ?_, ?_, ?_, ?_⟩
  · rw [opened]
    exact h.compiler
  · rw [opened, last]
    exact fun never => nomatch never
  · rw [opened, disk]
    intro v same
    obtain ⟨there, read⟩ := h.prepared v same
    have notHere := versionFile_ne_unitPlace s.disk root i.fingerprint
    exact ⟨swaps.hasDirectory there, swaps.readText (by simp [notVersion, notHere]) read⟩
  · rw [disk]
    intro f bytes file
    rw [unitPlace_of_grows swaps.toGrows] at file
    rcases swaps.file file with ⟨-, before⟩ | ⟨here, -⟩
    · obtain ⟨v, j, kept, named⟩ := h.known f bytes before
      exact ⟨v, j, (keptUnder_compile current).mpr (Or.inl kept), named⟩
    · exact ⟨version, i, keptNow, (unitPlace_injective here).symm⟩
  · rw [disk]
    intro v j kept
    rcases (keptUnder_compile current).mp kept with before | ⟨rfl, -, -, -⟩
    · obtain ⟨stored, same, there⟩ := h.kept v j before
      have elsewhere : unitPlace s.disk root j.fingerprint
          ≠ unitPlace s.disk root i.fingerprint := by
        intro places
        rw [unitPlace_injective places, missing] at there
        exact nomatch there
      exact ⟨stored, same, unit?_of_grows swaps.toGrows (by simp [notUnit j, elsewhere]) there⟩
    · exact ⟨unit, compiled, found⟩

/-- Compiling an input keeps it, if it compiles and the directory is open. -/
theorem Reflects.step_compile (h : Reflects transforms root past s) {i : Input}
    (current : i.lockfile = (opening past).lockfile)
    (only : ∀ j ∈ inputs past, j.fingerprint = i.fingerprint → j = i)
    (ok : s.succeeds root (.compile i.body i.names) = true)
    : Reflects transforms root (past ++ [.compile i.body i.names])
        (s.step root (.compile i.body i.names)) := by
  have disk : (s.step root (.compile i.body i.names)).disk
      = (s.compiler.compile s.disk i.body i.names).2 := rfl
  rcases h.compile_cases current with ⟨unit, found, does⟩ | ⟨missing, does⟩
  · obtain ⟨⟨-, kept⟩, -⟩ := (h.lookup only).mp found
    refine h.compile_unchanged current (disk.trans (congrArg Prod.snd does)) ?_
    exact fun _ unit compiled => (h.unit?_eq_some only).mpr ⟨kept, compiled⟩
  · rcases does with ⟨e, failed, does⟩ | ⟨unit, compiled, does⟩
    · refine h.compile_unchanged current (disk.trans (congrArg Prod.snd does)) ?_
      intro _ unit compiled
      rw [failed] at compiled
      exact nomatch compiled
    · have disk : (s.step root (.compile i.body i.names)).disk
          = ((opening past).cache root).setUnit s.disk i.fingerprint unit :=
        disk.trans (congrArg Prod.snd does)
      cases enabled : (opening past).enabled with
      | false =>
          have cache : (opening past).cache root = .disabled := if_neg (by simp [enabled])
          rw [cache] at disk
          exact h.compile_unchanged current disk fun on =>
            absurd (enabled.symm.trans on) Bool.false_ne_true
      | true =>
          have cache : (opening past).cache root = .directory root := if_pos enabled
          rw [cache] at disk missing
          refine h.compile_stored current enabled missing compiled disk ?_
          have opened : s.compiler.cache = .directory root :=
            (congrArg Compiler.cache h.compiler).trans cache
          simpa [Session.succeeds, opened, does] using ok

-----------------------------------------------------------------------------------------
-- Whole runs
-----------------------------------------------------------------------------------------

/-- Holds if a path names a directory without files, or a place where there is nothing yet. -/
structure IsEmptyDirectory (d : Disk) (root : String) : Prop where
  named : root ≠ ""
  vacant : d.Vacant (d.target root)

/-- A directory that is there and has no entries is one without files. -/
theorem isEmptyDirectory_of_find {d : Disk} (h : d.find root = .ok .empty)
    : IsEmptyDirectory d root := by
  refine ⟨?_, Files.Disk.vacant_of_find h⟩
  rintro rfl
  exact nomatch h

/-- After a run in which all that is done to files succeeds, the session is as the requests tell. By
induction on the run, of which each kind of request preserves it.
-/
theorem reflects_run {disk : Disk} (empty : IsEmptyDirectory disk root)
    (ok : (Session.start transforms disk).succeedsThrough root past = true)
    (distinct : ∀ i ∈ inputs past, ∀ j ∈ inputs past, i.fingerprint = j.fingerprint → i = j)
    : Reflects transforms root past ((Session.start transforms disk).run root past) := by
  induction past using List.reverseRecOn with
  | nil => exact reflects_start empty.vacant
  | append_singleton past request ih =>
      rw [Session.succeedsThrough_concat, Bool.and_eq_true] at ok
      have before := ih ok.1 fun i hi j hj =>
        distinct i (mem_inputs_append hi _) j (mem_inputs_append hj _)
      rw [Session.run_concat]
      cases request with
      | openDirectory version lockfile =>
          by_cases same : ((Session.start transforms disk).run root past).disk.readText
              (versionFile root) = .ok version
          · exact before.openDirectory_again lockfile same
          · exact before.openDirectory_other empty.named lockfile same ok.2
      | disable lockfile => exact before.disable lockfile
      | compile body names =>
          rw [inputs_compile] at distinct
          refine before.step_compile
            (i := { body, names, lockfile := (opening past).lockfile }) rfl ?_ ok.2
          intro j member
          exact distinct j (List.mem_append_left _ member) _ (by simp)

/-- The cache is transparent. In any run of openings and compiles that begins with an empty
directory, a compile gives the unit or the error of the document; and a unit is from the cache if
and only if the directory is open and the same was compiled successfully through it before, with no
opening under another version since. All that is done to files has to succeed, and no two inputs of
the run may have the same digest.
-/
theorem compile_transparent {disk : Disk} {body : String} {names : List String}
    (empty : IsEmptyDirectory disk root)
    (ok : (Session.start transforms disk).succeedsThrough root past = true)
    (fits : ∀ i ∈ inputs (past ++ [.compile body names]), i.Fits)
    (apart : ∀ i ∈ inputs (past ++ [.compile body names]),
      ∀ j ∈ inputs (past ++ [.compile body names]),
        Digest.sha256 i.bytes = Digest.sha256 j.bytes → i.bytes = j.bytes)
    : let s := (Session.start transforms disk).run root past
      (s.compiler.compile s.disk body names).1.map Outcome.unit
          = Document.compile transforms body names
        ∧ ∀ outcome, (s.compiler.compile s.disk body names).1 = .ok outcome →
            (outcome.fromCache = true
              ↔ (opening past).enabled = true
                ∧ ∃ version, KeptUnder transforms version past
                    { body, names, lockfile := (opening past).lockfile }) := by
  have distinct := Input.eq_of_fingerprint fits apart
  have reflects := reflects_run empty ok fun i hi j hj =>
    distinct i (mem_inputs_append hi _) j (mem_inputs_append hj _)
  rw [inputs_compile] at distinct
  refine reflects.compile (i := { body, names, lockfile := (opening past).lockfile }) rfl ?_
  intro j member
  exact distinct j (List.mem_append_left _ member) _ (by simp)

def bareDisk : Disk :=
  { root := .directory [("cache", .empty)] }

/-- A body is compiled, and the directory is opened again after there was to be no cache. -/
def reopened : List Request :=
  [.openDirectory "1" "a", .compile "*b*\n" ["Note"], .disable "a", .openDirectory "1" "a"]

/-- The unit of the body is then from the cache. -/
theorem compile_reopened
    : let s := (Session.start Transform.standard bareDisk).run "/cache" reopened
      (s.compiler.compile s.disk "*b*\n" ["Note"]).1.map Outcome.unit
          = Document.compile Transform.standard "*b*\n" ["Note"]
        ∧ ∀ outcome, (s.compiler.compile s.disk "*b*\n" ["Note"]).1 = .ok outcome →
            outcome.fromCache = true := by
  have one : ∀ i ∈ inputs (reopened ++ [.compile "*b*\n" ["Note"]]),
      i = { body := "*b*\n", names := ["Note"], lockfile := "a" } := by
    intro i member
    simpa [reopened, inputs, inputsFrom, Opening.after] using member
  have fits : ∀ i ∈ inputs (reopened ++ [.compile "*b*\n" ["Note"]]), i.Fits := by
    intro i member
    rw [one i member]
    exact ⟨by decide +kernel, by decide +kernel, by decide +kernel, by decide +kernel⟩
  have kept : KeptUnder Transform.standard "1" reopened
      { body := "*b*\n", names := ["Note"], lockfile := "a" } := by
    have succeeds : (Document.compile Transform.standard "*b*\n" ["Note"]).isOk = true := by
      decide +kernel
    refine ⟨exists_of_isOk succeeds, [.openDirectory "1" "a"],
      [.disable "a", .openDirectory "1" "a"], rfl, rfl, ?_⟩
    intro other lockfile member
    simp at member
    exact member.1
  obtain ⟨units, hit⟩ := @compile_transparent Transform.standard "/cache" reopened bareDisk
    "*b*\n" ["Note"] (isEmptyDirectory_of_find rfl) (by decide +kernel) fits
    (fun i hi j hj _ => by rw [one i hi, one j hj])
  exact ⟨units, fun outcome result => (hit outcome result).mpr ⟨rfl, "1", kept⟩⟩

end Folio.Cache
