import Folio.Proofs.Cache.Filling
import Folio.Proofs.Cache.Transparency
import Folio.Proofs.Site.Schedule

/-! Pages are independent. Whatever earlier builds left in the directory of a cache, and in whatever
order the steps of the pages are taken, each page becomes what it becomes without a cache. That
depends on the text of its document only, but for an error that tells what kind of store the text
was read from.
-/

namespace Folio.Content

/-- What is wrong with a document, as it is told by a kind of store. -/
def StorageError.within (backend : Backend) : StorageError → StorageError
  | invalidMetadata _ path e => invalidMetadata backend path e
  | e => e

/-- A text is a document in each kind of store, or the same is wrong with it. -/
theorem document_within (backend other : Backend) (path : LogicalPath) (text : String)
    : Store.document other path text
      = (Store.document backend path text).mapError (·.within other) := by
  unfold Store.document
  dsimp only
  cases (split text.toList).frontmatter with
  | none => rfl
  | some yaml =>
      dsimp only
      cases Metadata.ofYaml yaml <;> rfl

end Folio.Content

namespace Folio.Site

open Cache (Filled Input prepare)
open Content (LogicalPath StorageError Store)
open Document (Transform)
open Files (Disk)

/-- Why a page cannot be built, as it is told with a kind of store. -/
def BuildError.within (backend : Content.Backend) : BuildError → BuildError
  | storage e => storage (e.within backend)
  | e => e

variable {b c : Builder} {root : String} {kept : List Input} {d : Disk} {p : LogicalPath}

-----------------------------------------------------------------------------------------
-- Pages without a cache
-----------------------------------------------------------------------------------------

namespace Builder

def uncached (b : Builder) : Builder :=
  { b with compiler := { b.compiler with cache := .disabled } }

/-- What becomes of a page whose document is compiled. -/
def direct (b : Builder) (path : LogicalPath) : Except BuildError Payload :=
  match b.store.read path with
  | .error e => .error (readError path.display e)
  | .ok document =>
      match Document.compile b.compiler.transforms document.body b.names with
      | .error e => .error (.compile path.display e)
      | .ok unit => b.payload path document.metadata unit

theorem page_uncached (b : Builder) (d : Disk) (path : LogicalPath)
    : b.uncached.page d path = (b.direct path, d) := by
  rw [page_eq_finish]
  unfold finish look direct uncached
  dsimp only
  cases b.store.read path with
  | error e => rfl
  | ok document =>
      have nothing (f : Cache.Fingerprint) : Cache.unit? .disabled d f = none := rfl
      simp only [nothing]
      cases Document.compile b.compiler.transforms document.body b.names <;> rfl

def input (b : Builder) (document : Content.Document) : Input :=
  { body := document.body, names := b.names, lockfile := b.compiler.lockfile }

theorem fingerprint_input (b : Builder) (document : Content.Document)
    : b.compiler.fingerprint document.body b.names = (b.input document).fingerprint :=
  rfl

/-- What the units of pages depend on. Documents that cannot be read have none. -/
def inputs (b : Builder) (paths : List LogicalPath) : List Input :=
  paths.filterMap fun p => (b.store.read p).toOption.map b.input

def Knows (b : Builder) (kept : List Input) (path : LogicalPath) : Prop :=
  ∀ document, b.store.read path = .ok document → b.input document ∈ kept

theorem knows_inputs {paths : List LogicalPath} (member : p ∈ paths)
    : b.Knows (b.inputs paths) p := by
  intro document read
  refine List.mem_filterMap.mpr ⟨p, member, ?_⟩
  rw [read]
  rfl

/-- The inputs of pages are known among those of earlier ones too. -/
theorem knows_append (past : List Input) (paths : List LogicalPath)
    : ∀ p ∈ paths, b.Knows (past ++ b.inputs paths) p := by
  intro p member document read
  exact List.mem_append_right _ (knows_inputs member document read)

end Builder

-----------------------------------------------------------------------------------------
-- What a step preserves
-----------------------------------------------------------------------------------------

/-- Finishing a page keeps the directory of its cache filled. -/
theorem filled_finish (cache : b.compiler.cache = .directory root)
    (filled : Filled b.compiler.transforms root kept d) (known : b.Knows kept p)
    (found : Option CompiledUnit)
    : Filled b.compiler.transforms root kept (b.finish d p found).2 := by
  unfold Builder.finish
  cases read : b.store.read p with
  | error e => exact filled
  | ok document =>
      cases found with
      | some unit => exact filled
      | none =>
          dsimp only
          cases compiled : Document.compile b.compiler.transforms document.body b.names with
          | error e => exact filled
          | ok unit =>
              dsimp only
              rw [cache, Builder.fingerprint_input]
              exact filled.setUnit (known document read) compiled

/-- What is found for a page is what its document compiles to, if all inputs have different
fingerprints.
-/
theorem compile_of_look (cache : b.compiler.cache = .directory root)
    (filled : Filled b.compiler.transforms root kept d)
    (distinct : ∀ i ∈ kept, ∀ j ∈ kept, i.fingerprint = j.fingerprint → i = j)
    (known : b.Knows kept p) {document : Content.Document}
    (read : b.store.read p = .ok document) {unit : CompiledUnit}
    (found : b.look d p = some unit)
    : Document.compile b.compiler.transforms document.body b.names = .ok unit := by
  unfold Builder.look at found
  rw [read, cache] at found
  dsimp only at found
  rw [Builder.fingerprint_input] at found
  refine filled.compile_of_unit? (i := b.input document) ?_ found
  intro j member same
  exact distinct j member _ (known document read) same

/-- A page for which the right unit was found, or none, becomes what it becomes without a cache. -/
theorem finish_eq_direct {found : Option CompiledUnit}
    (right : ∀ unit document, found = some unit → b.store.read p = .ok document →
      Document.compile b.compiler.transforms document.body b.names = .ok unit)
    : (b.finish d p found).1 = b.direct p := by
  unfold Builder.finish Builder.direct
  cases read : b.store.read p with
  | error e => rfl
  | ok document =>
      dsimp only
      cases found with
      | some unit => rw [right unit document rfl read]
      | none =>
          dsimp only
          cases Document.compile b.compiler.transforms document.body b.names <;> rfl

/-- Any step keeps the directory filled, whatever was found before. -/
theorem filled_step (cache : b.compiler.cache = .directory root) {w : Work}
    (filled : Filled b.compiler.transforms root kept w.disk) (known : b.Knows kept p)
    : Filled b.compiler.transforms root kept (w.step b p).disk := by
  unfold Work.step
  split
  · exact filled
  · next found _ => exact filled_finish cache filled known found
  · exact filled

/-- Any steps keep the directory filled, by induction on their order. -/
theorem filled_run (cache : b.compiler.cache = .directory root) {w : Work}
    {order : List LogicalPath} (filled : Filled b.compiler.transforms root kept w.disk)
    (known : ∀ p ∈ order, b.Knows kept p)
    : Filled b.compiler.transforms root kept (w.run b order).disk := by
  induction order generalizing w with
  | nil => exact filled
  | cons path rest ih =>
      obtain ⟨first, later⟩ := List.forall_mem_cons.mp known
      exact ih (filled_step cache filled first) later

/-- Holds if work is as it should be: the directory of the cache is filled, the units that were
found are those of the documents, and pages that are done became what they become without a cache.
-/
structure Sound (b : Builder) (root : String) (kept : List Input) (w : Work) : Prop where
  filled : Filled b.compiler.transforms root kept w.disk
  looked
    : ∀ p unit document, w.phase p = .looked (some unit) → b.store.read p = .ok document →
        Document.compile b.compiler.transforms document.body b.names = .ok unit
  done : ∀ p result, w.phase p = .done result → result = b.direct p

/-- Work that was not begun is as it should be. -/
theorem sound_start (filled : Filled b.compiler.transforms root kept d)
    : Sound b root kept { disk := d } where
  filled := filled
  looked := fun _ _ _ waiting => by cases waiting
  done := fun _ _ waiting => by cases waiting

theorem Sound.step {w : Work} (h : Sound b root kept w)
    (cache : b.compiler.cache = .directory root)
    (distinct : ∀ i ∈ kept, ∀ j ∈ kept, i.fingerprint = j.fingerprint → i = j)
    (known : b.Knows kept p)
    : Sound b root kept (w.step b p) := by
  refine ⟨filled_step cache h.filled known, ?_, ?_⟩
  · intro q unit document
    unfold Work.step
    split
    · intro looked read
      simp only [Work.put] at looked
      split at looked
      · next same =>
          subst same
          injection looked with found
          exact compile_of_look cache h.filled distinct known read found
      · exact h.looked q unit document looked read
    · intro looked read
      simp only [Work.put] at looked
      split at looked
      · cases looked
      · exact h.looked q unit document looked read
    · exact h.looked q unit document
  · intro q result
    unfold Work.step
    split
    · intro done
      simp only [Work.put] at done
      split at done
      · cases done
      · exact h.done q result done
    · next found looked =>
        intro done
        simp only [Work.put] at done
        split at done
        · next same =>
            subst same
            injection done with done
            rw [← done]
            apply finish_eq_direct
            rintro unit document rfl read
            exact h.looked q unit document looked read
        · exact h.done q result done
    · exact h.done q result

/-- Any steps leave work as it should be, by induction on their order. -/
theorem Sound.run {w : Work} {order : List LogicalPath} (h : Sound b root kept w)
    (cache : b.compiler.cache = .directory root)
    (distinct : ∀ i ∈ kept, ∀ j ∈ kept, i.fingerprint = j.fingerprint → i = j)
    (known : ∀ p ∈ order, b.Knows kept p)
    : Sound b root kept (w.run b order) := by
  induction order generalizing w with
  | nil => exact h
  | cons path rest ih =>
      obtain ⟨first, later⟩ := List.forall_mem_cons.mp known
      exact ih (h.step cache distinct first) later

/-- Pages that are built one after the other become what they become without a cache, by induction
on the pages.
-/
theorem pages_eq_ofResults {targets : List LogicalPath}
    (cache : b.compiler.cache = .directory root)
    (filled : Filled b.compiler.transforms root kept d)
    (distinct : ∀ i ∈ kept, ∀ j ∈ kept, i.fingerprint = j.fingerprint → i = j)
    (known : ∀ p ∈ targets, b.Knows kept p)
    : (b.pages d targets).1 = Report.ofResults b.direct targets := by
  induction targets generalizing d with
  | nil => rfl
  | cons path rest ih =>
      obtain ⟨first, later⟩ := List.forall_mem_cons.mp known
      have next : Filled b.compiler.transforms root kept (b.page d path).2 := by
        rw [Builder.page_eq_finish]
        exact filled_finish cache filled first _
      have result : (b.page d path).1 = b.direct path := by
        rw [Builder.page_eq_finish]
        apply finish_eq_direct
        intro unit document found read
        exact compile_of_look cache filled distinct first read found
      show (b.pages (b.page d path).2 rest).1.add path (b.page d path).1 = _
      rw [ih next later, result]
      rfl

-----------------------------------------------------------------------------------------
-- What earlier builds leave
-----------------------------------------------------------------------------------------

/-- The disks that there are after a directory for a cache was opened and pages were built through
it, any number of times, and the inputs of these pages. Any builders may have built them, with the
same transforms; each took the steps of its pages in some order, and maybe not all of them.
-/
inductive Left (transforms : List Transform) (root : String) : List Input → Disk → Prop where
  | fresh {d : Disk} (vacant : d.Vacant (d.target root)) : Left transforms root [] d
  | opened {past : List Input} {d : Disk} (left : Left transforms root past d) (version : String)
      : Left transforms root past (prepare d root version)
  | built {past : List Input} {d : Disk} (left : Left transforms root past d) (b : Builder)
      (order : List LogicalPath) (same : b.compiler.transforms = transforms)
      (cache : b.compiler.cache = .directory root)
      : Left transforms root (past ++ b.inputs order) (Work.run b { disk := d } order).disk

/-- Whatever was built, the directory is filled with its units. -/
theorem Left.filled {transforms : List Transform} {past : List Input}
    (h : Left transforms root past d)
    : Filled transforms root past d := by
  induction h with
  | fresh vacant => exact Cache.filled_of_vacant vacant
  | opened left version ih => exact ih.prepare version
  | built left b order same cache ih =>
      subst same
      apply filled_run cache
      · exact ih.mono (List.subset_append_left _ _)
      · exact Builder.knows_append _ order

-----------------------------------------------------------------------------------------
-- The same text in another store
-----------------------------------------------------------------------------------------

/-- Documents with the same text are the same, or the same is wrong with them. -/
theorem read_of_text {s t : Store} {text : String} (first : s.text p = .ok text)
    (second : t.text p = .ok text)
    : t.read p = (s.read p).mapError (·.within t.backend)
      ∧ ∀ e, s.read p = .error e → e.kind = .invalidMetadata := by
  unfold Store.read
  rw [first, second]
  exact ⟨Content.document_within s.backend t.backend p text,
    fun e => Content.FileStore.kind_of_document⟩

/-- Holds for builders that differ in their stores and caches only. -/
structure Alike (b c : Builder) : Prop where
  names : c.names = b.names
  transforms : c.compiler.transforms = b.compiler.transforms
  postprocess : c.postprocess = b.postprocess

/-- What becomes of a page depends on the text of its document only, but for the kind of store that
errors of its metadata tell.
-/
theorem direct_of_text (alike : Alike b c) {text : String} (first : b.store.text p = .ok text)
    (second : c.store.text p = .ok text)
    : c.direct p = (b.direct p).mapError (·.within c.store.backend) := by
  obtain ⟨same, kind⟩ := read_of_text first second
  unfold Builder.direct
  rw [same]
  cases read : b.store.read p with
  | error e =>
      have malformed := kind e read
      cases e with
      | invalidMetadata backend path fault => rfl
      | invalidPath path => cases malformed
      | missing backend path => cases malformed
      | unreadable backend path fault =>
          rw [StorageError.kind] at malformed
          split at malformed <;> cases malformed
  | ok document =>
      dsimp only [Except.mapError]
      rw [alike.transforms, alike.names]
      cases Document.compile b.compiler.transforms document.body b.names with
      | error e => rfl
      | ok unit =>
          dsimp only
          unfold Builder.payload
          rw [alike.names, alike.postprocess]
          cases Unit.run (Unit.Environment.standIns b.names) unit.text <;> rfl

/-- Stores of the same kind do not differ in their errors either. -/
theorem direct_of_text_same (alike : Alike b c) {text : String} (first : b.store.text p = .ok text)
    (second : c.store.text p = .ok text) (kind : c.store.backend = b.store.backend)
    : c.direct p = b.direct p := by
  have own : c.store.read p = b.store.read p := by
    unfold Store.read
    rw [first, second, kind]
  unfold Builder.direct Builder.payload
  rw [own, alike.names, alike.transforms, alike.postprocess]

-----------------------------------------------------------------------------------------
-- Sites
-----------------------------------------------------------------------------------------

/-- Holds for a build of the pages of a store through a directory that earlier builds left, as long
as no two of the inputs have the same digest.
-/
structure Shares (b : Builder) (root : String) (past : List Input) (d : Disk)
    (targets : List LogicalPath) : Prop where
  scanned : b.store.scan = .ok targets
  ordered : b.store.IsOrdered
  cache : b.compiler.cache = .directory root
  left : Left b.compiler.transforms root past d
  fits : ∀ i ∈ past ++ b.inputs targets, i.Fits
  apart
    : ∀ i ∈ past ++ b.inputs targets, ∀ j ∈ past ++ b.inputs targets,
        Cache.Digest.sha256 i.bytes = Cache.Digest.sha256 j.bytes → i.bytes = j.bytes

namespace Shares

variable {past : List Input} {targets : List LogicalPath}

theorem filled (h : Shares b root past d targets)
    : Filled b.compiler.transforms root (past ++ b.inputs targets) d :=
  h.left.filled.mono (List.subset_append_left _ _)

/-- All pages, one after the other, become what they become without a cache. -/
theorem site (h : Shares b root past d targets)
    : (b.site d).map Prod.fst = .ok (Report.ofResults b.direct targets) := by
  have pages := pages_eq_ofResults h.cache h.filled (Input.eq_of_fingerprint h.fits h.apart)
    (Builder.knows_append past targets)
  unfold Builder.site
  rw [h.scanned, ← pages]
  rfl

/-- In whatever order the steps are taken, the report is the same. -/
theorem report (h : Shares b root past d targets) {order : List LogicalPath}
    (schedule : Work.IsSchedule targets order)
    : (Work.run b { disk := d } order).report targets = Report.ofResults b.direct targets := by
  have sound : Sound b root (past ++ b.inputs targets) (Work.run b { disk := d } order) := by
    apply (sound_start h.filled).run h.cache (Input.eq_of_fingerprint h.fits h.apart)
    intro p member
    exact Builder.knows_append past targets p (schedule.mem member)
  apply Work.report_eq_ofResults
  intro p member
  obtain ⟨result, done⟩ := Work.exists_done b { disk := d } schedule member
  rw [done, sound.done p result done]

end Shares

/-- Pages are independent. However the steps of the pages are ordered, and whatever earlier builds
left in the directory of the cache, the report is the same: it lists every path once, and each page
becomes what it becomes without a cache. In a build from another store, through any other directory,
a page whose document has the same text becomes the same. If the other store is one of another kind,
then an error of the metadata tells that kind; nothing else differs.
-/
theorem site_independent {past : List Input} {targets : List LogicalPath}
    (shares : Shares b root past d targets)
    : ∃ report,
        (b.site d).map Prod.fst = .ok report
        ∧ (∀ order, Work.IsSchedule targets order →
            (Work.run b { disk := d } order).report targets = report)
        ∧ report.Lists targets
        ∧ (∀ p result, (p, result) ∈ report.results
            ↔ p ∈ targets ∧ ∀ disk, b.uncached.page disk p = (result, disk))
        ∧ ∀ (c : Builder) (elsewhere : String) (before : List Input) (disk : Disk)
            (others : List LogicalPath),
          Shares c elsewhere before disk others → Alike b c →
            ∃ other,
              (c.site disk).map Prod.fst = .ok other
              ∧ ∀ p text, p ∈ targets → p ∈ others → b.store.text p = .ok text →
                  c.store.text p = .ok text →
                    ∀ result, (p, result) ∈ report.results →
                      (p, result.mapError (·.within c.store.backend)) ∈ other.results
                      ∧ (c.store.backend = b.store.backend → (p, result) ∈ other.results) := by
  refine ⟨_, shares.site, ?_, ?_, ?_, ?_⟩
  · intro order schedule
    exact shares.report schedule
  · exact Report.lists_ofResults _ (shares.ordered.ascending_scan shares.scanned).nodup
  · intro p result
    rw [Report.mem_results_ofResults]
    refine and_congr_right ?_
    intro _
    simp only [Builder.page_uncached, Prod.mk.injEq, and_true]
    exact ⟨fun same _ => same.symm, fun same => (same d).symm⟩
  · intro c elsewhere before disk others also alike
    refine ⟨_, also.site, ?_⟩
    intro p text _ listed first second result member
    obtain ⟨-, rfl⟩ := (Report.mem_results_ofResults _ _).mp member
    rw [Report.mem_results_ofResults, Report.mem_results_ofResults]
    refine ⟨⟨listed, (direct_of_text alike first second).symm⟩, ?_⟩
    intro kind
    exact ⟨listed, (direct_of_text_same alike first second kind).symm⟩

def pathA : LogicalPath :=
  { segments := ["a"], valid := by decide }

def pathB : LogicalPath :=
  { segments := ["b"], valid := by decide }

/-- A builder that keeps its units in a directory. -/
def builderOn (store : Store) : Builder :=
  { store, compiler := { cache := .directory "/cache", lockfile := "x" }, names := ["Note"] }

def single : Builder :=
  builderOn (.memory [(pathA, "*b*\n")])

/-- The same page beside one that cannot be built. -/
def beside : Builder :=
  builderOn (.memory [(pathA, "*b*\n"), (pathB, "---\n[\n---\nx\n")])

def builtDisk : Disk :=
  (Work.run single { disk := prepare Cache.bareDisk "/cache" "1" } [pathA, pathA]).disk

/-- The page comes from the entry that was left, and is as it is by itself. -/
theorem site_beside
    : ∃ report,
        (beside.site builtDisk).map Prod.fst = .ok report
        ∧ report.Lists [pathA, pathB]
        ∧ ∃ other,
            (single.site Cache.bareDisk).map Prod.fst = .ok other
            ∧ ∀ result, (pathA, result) ∈ report.results → (pathA, result) ∈ other.results := by
  have fresh : Left Document.Transform.standard "/cache" [] Cache.bareDisk :=
    .fresh (Cache.isEmptyDirectory_of_find rfl).vacant
  have left : Left Document.Transform.standard "/cache" ([] ++ single.inputs [pathA, pathA])
      builtDisk :=
    (fresh.opened "1").built single [pathA, pathA] rfl rfl
  have one (i : Input) (member : i ∈ [] ++ single.inputs [pathA, pathA]
      ++ beside.inputs [pathA, pathB])
      : i = { body := "*b*\n", names := ["Note"], lockfile := "x" } := by
    have inputs : [] ++ single.inputs [pathA, pathA] ++ beside.inputs [pathA, pathB]
        = List.replicate 3 { body := "*b*\n", names := ["Note"], lockfile := "x" } := by
      decide +kernel
    rw [inputs] at member
    exact List.eq_of_mem_replicate member
  have oneOther (i : Input) (member : i ∈ [] ++ single.inputs [pathA])
      : i = { body := "*b*\n", names := ["Note"], lockfile := "x" } := by
    have inputs : [] ++ single.inputs [pathA]
        = [{ body := "*b*\n", names := ["Note"], lockfile := "x" }] := by
      decide +kernel
    rw [inputs] at member
    exact List.mem_singleton.mp member
  have fits : Input.Fits { body := "*b*\n", names := ["Note"], lockfile := "x" } :=
    ⟨by decide +kernel, by decide +kernel, by decide +kernel, by decide +kernel⟩
  have shares : Shares beside "/cache" ([] ++ single.inputs [pathA, pathA]) builtDisk
      [pathA, pathB] := by
    refine ⟨rfl, ?_, rfl, left, ?_, ?_⟩
    · show Content.Ascending [pathA, pathB]
      unfold Content.Ascending
      decide
    · intro i member
      exact one i member ▸ fits
    · intro i hi j hj _
      rw [one i hi, one j hj]
  have also : Shares single "/cache" [] Cache.bareDisk [pathA] := by
    refine ⟨rfl, List.pairwise_singleton _ _, rfl, fresh, ?_, ?_⟩
    · intro i member
      exact oneOther i member ▸ fits
    · intro i hi j hj _
      rw [oneOther i hi, oneOther j hj]
  obtain ⟨report, site, -, lists, -, same⟩ := site_independent shares
  obtain ⟨other, otherSite, same⟩ := same single _ _ _ _ also ⟨rfl, rfl, rfl⟩
  refine ⟨report, site, lists, other, otherSite, ?_⟩
  intro result member
  exact (same pathA "*b*\n" List.mem_cons_self List.mem_cons_self rfl rfl result member).2 rfl

/-- A document in a file whose metadata is malformed. -/
def onFiles : Builder :=
  builderOn (.files (.ofDirectory
    { root := .directory
        [("content", .directory [("a.md", .file (Text.utf8 "---\n[\n---\nx\n"))])] }
    "/content"))

def inMemory : Builder :=
  builderOn (.memory [(pathA, "---\n[\n---\nx\n")])

def messages (b : Builder) (d : Disk) : Option (List (String × String)) :=
  ((b.site d).toOption).map fun result =>
    result.1.failures.map fun failure => (failure.1.display, failure.2.message)

/-- The same text becomes different errors in stores of different kinds. -/
theorem messages_onFiles
    : onFiles.store.text pathA = .ok "---\n[\n---\nx\n"
      ∧ inMemory.store.text pathA = .ok "---\n[\n---\nx\n"
      ∧ Alike onFiles inMemory
      ∧ messages onFiles Cache.bareDisk
        = some [("a", "[Fs] Invalid frontmatter: Invalid YAML: invalid type: sequence, "
          ++ "expected struct Metadata (path: a)")]
      ∧ messages inMemory Cache.bareDisk
        = some [("a", "[Mock] Invalid frontmatter: Invalid YAML: invalid type: sequence, "
          ++ "expected struct Metadata (path: a)")] := by
  refine ⟨?_, rfl, ⟨rfl, rfl, rfl⟩, by decide +kernel, by decide +kernel⟩
  exact toOption_eq_some.mp (by decide +kernel)

end Folio.Site
