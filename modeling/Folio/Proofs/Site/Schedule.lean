import Folio.Proofs.Content.Enumeration
import Folio.Site.Report
import Mathlib.Data.List.Count
import Mathlib.Data.List.Perm.Basic

/-! Pages that are built side by side. Building a page takes two steps that each see the disk of the
cache at once: the cache is asked for the unit of the page, and later the page is finished, which
may store a unit. Between the two any steps of other pages may be taken. A report lists its pages in
the order of the paths, whatever the order of the steps was.
-/

namespace Folio.Site

open Content (LogicalPath)
open Files (Disk)

-----------------------------------------------------------------------------------------
-- What a report lists
-----------------------------------------------------------------------------------------

namespace Report

def results (r : Report) : List (LogicalPath × Except BuildError Payload) :=
  r.pages.map (fun page => (page.1, .ok page.2))
    ++ r.failures.map fun failure => (failure.1, .error failure.2)

/-- The report of pages of which it is known what became of them. -/
def ofResults (result : LogicalPath → Except BuildError Payload) (targets : List LogicalPath)
    : Report :=
  targets.foldr (fun path r => r.add path (result path)) {}

/-- One page in front adds what became of it. -/
theorem mem_results_add {path p : LogicalPath} {result other : Except BuildError Payload}
    {r : Report}
    : (p, other) ∈ (r.add path result).results
      ↔ (p = path ∧ other = result) ∨ (p, other) ∈ r.results := by
  cases result with
  | ok payload => simp [add, results]
  | error e =>
      simp only [add, results, List.map_cons, List.mem_append, List.mem_cons, Prod.mk.injEq]
      exact or_left_comm

variable (result : LogicalPath → Except BuildError Payload) (targets : List LogicalPath)

/-- A report tells of each path what became of it, and of no others. -/
theorem mem_results_ofResults {p : LogicalPath} {other : Except BuildError Payload}
    : (p, other) ∈ (ofResults result targets).results ↔ p ∈ targets ∧ other = result p := by
  induction targets with
  | nil => simp [ofResults, results]
  | cons path rest ih =>
      rw [ofResults, List.foldr_cons, mem_results_add, ← ofResults, ih, List.mem_cons, or_and_right]
      refine or_congr_left (and_congr_right ?_)
      rintro rfl
      rfl

/-- The pages that were built are those with a payload, in the order of the paths. -/
theorem paths_ofResults
    : (ofResults result targets).paths = targets.filter fun p => (result p).isOk := by
  induction targets with
  | nil => rfl
  | cons path rest ih =>
      rw [ofResults, List.foldr_cons, ← ofResults, List.filter_cons, ← ih]
      cases result path <;> rfl

/-- The pages that were not built are all others, in the order of the paths. -/
theorem failures_ofResults
    : (ofResults result targets).failures.map (·.1)
      = targets.filter fun p => !(result p).isOk := by
  induction targets with
  | nil => rfl
  | cons path rest ih =>
      rw [ofResults, List.foldr_cons, ← ofResults, List.filter_cons, ← ih]
      cases result path <;> rfl

/-- Holds if a report lists each of the targets once, either among its pages or among its failures,
and both of these in the order of the targets.
-/
structure Lists (r : Report) (targets : List LogicalPath) : Prop where
  once : targets.Nodup
  pages : r.paths.Sublist targets
  failures : (r.failures.map (·.1)).Sublist targets
  all : (r.paths ++ r.failures.map (·.1)).Perm targets

theorem lists_ofResults {targets : List LogicalPath} (once : targets.Nodup)
    : (ofResults result targets).Lists targets where
  once := once
  pages := by
    rw [paths_ofResults]
    exact List.filter_sublist
  failures := by
    rw [failures_ofResults]
    exact List.filter_sublist
  all := by
    rw [paths_ofResults, failures_ofResults]
    exact List.filter_append_perm _ targets

end Report

-----------------------------------------------------------------------------------------
-- The two steps of a page
-----------------------------------------------------------------------------------------

namespace Builder

/-- The first step of a page: its document is read, and the cache is asked for the unit. -/
def look (b : Builder) (d : Disk) (path : LogicalPath) : Option CompiledUnit :=
  match b.store.read path with
  | .error _ => none
  | .ok document => b.compiler.cache.unit? d (b.compiler.fingerprint document.body b.names)

/-- The second step of a page: what was found is taken, or else the document is compiled and its
unit stored; the unit is run.
-/
def finish (b : Builder) (d : Disk) (path : LogicalPath) (found : Option CompiledUnit)
    : Except BuildError Payload × Disk :=
  match b.store.read path with
  | .error e => (.error (readError path.display e), d)
  | .ok document =>
      match found with
      | some unit => (b.payload path document.metadata unit, d)
      | none =>
          match Document.compile b.compiler.transforms document.body b.names with
          | .error e => (.error (.compile path.display e), d)
          | .ok unit =>
              (b.payload path document.metadata unit,
                b.compiler.cache.setUnit d (b.compiler.fingerprint document.body b.names) unit)

/-- A page is built by its two steps, if nothing comes between. -/
theorem page_eq_finish (b : Builder) (d : Disk) (path : LogicalPath)
    : b.page d path = b.finish d path (b.look d path) := by
  unfold page finish look Cache.Compiler.compile
  cases b.store.read path with
  | error e => rfl
  | ok document =>
      dsimp only
      cases b.compiler.cache.unit? d (b.compiler.fingerprint document.body b.names) with
      | some unit => rfl
      | none =>
          dsimp only
          cases Document.compile b.compiler.transforms document.body b.names <;> rfl

end Builder

-----------------------------------------------------------------------------------------
-- Steps in any order
-----------------------------------------------------------------------------------------

inductive Phase where
  | waiting
  /-- The cache was asked for the unit. -/
  | looked (found : Option CompiledUnit)
  | done (result : Except BuildError Payload)

def Phase.count : Phase → Nat
  | waiting => 0
  | looked _ => 1
  | done _ => 2

structure Work where
  disk : Disk
  phase : LogicalPath → Phase := fun _ => .waiting

namespace Work

def put (w : Work) (path : LogicalPath) (phase : Phase) : Work :=
  { w with phase := fun p => if p = path then phase else w.phase p }

def step (b : Builder) (w : Work) (path : LogicalPath) : Work :=
  match w.phase path with
  | .waiting => w.put path (.looked (b.look w.disk path))
  | .looked found =>
      let (result, disk) := b.finish w.disk path found
      { w with disk }.put path (.done result)
  | .done _ => w

def run (b : Builder) (w : Work) (order : List LogicalPath) : Work :=
  order.foldl (step b) w

/-- The report of pages, in the order of their paths. Those that are not done are left out. -/
def report (w : Work) (targets : List LogicalPath) : Report :=
  targets.foldr
    (fun path r =>
      match w.phase path with
      | .done result => r.add path result
      | _ => r)
    {}

/-- A step takes its page on, and no other. -/
theorem count_step (b : Builder) (w : Work) (path p : LogicalPath)
    : ((w.step b path).phase p).count
      = if p = path then min 2 ((w.phase p).count + 1) else (w.phase p).count := by
  unfold step
  split
  · next waiting =>
      by_cases same : p = path
      · simp [put, same, waiting, Phase.count]
      · simp [put, same]
  · next found looked =>
      by_cases same : p = path
      · simp [put, same, looked, Phase.count]
      · simp [put, same]
  · next result done =>
      by_cases same : p = path
      · simp [same, done, Phase.count]
      · simp [same]

/-- A page is as far as it was named in the order of the steps, by induction on the order. -/
theorem count_run (b : Builder) (w : Work) (order : List LogicalPath) (p : LogicalPath)
    : min 2 ((w.run b order).phase p).count
      = min 2 ((w.phase p).count + order.count p) := by
  induction order generalizing w with
  | nil => rfl
  | cons path rest ih =>
      rw [run, List.foldl_cons, ← run, ih, count_step, List.count_cons]
      by_cases same : path = p
      · rw [if_pos same.symm, if_pos (beq_iff_eq.mpr same)]
        omega
      · rw [if_neg (Ne.symm same), if_neg (by simpa using same)]
        omega

/-- Holds for orders of steps that take each of the targets twice, and no others. -/
def IsSchedule (targets order : List LogicalPath) : Prop :=
  order.Perm (targets ++ targets)

theorem IsSchedule.mem {targets order : List LogicalPath} (h : IsSchedule targets order)
    {p : LogicalPath} (member : p ∈ order)
    : p ∈ targets := by
  rcases List.mem_append.mp (h.mem_iff.mp member) with first | second
  · exact first
  · exact second

/-- After all steps of all pages each of them is done. -/
theorem exists_done {targets order : List LogicalPath} (b : Builder) (w : Work)
    (schedule : IsSchedule targets order) {p : LogicalPath} (member : p ∈ targets)
    : ∃ result, (w.run b order).phase p = .done result := by
  have twice : 2 ≤ order.count p := by
    have once : 0 < targets.count p := List.count_pos_iff.mpr member
    rw [schedule.count_eq, List.count_append]
    omega
  have steps := w.count_run b order p
  cases phase : (w.run b order).phase p with
  | waiting =>
      rw [phase, Phase.count] at steps
      omega
  | looked found =>
      rw [phase, Phase.count] at steps
      omega
  | done result => exact ⟨result, rfl⟩

/-- If all pages are done, the report tells what became of them. -/
theorem report_eq_ofResults {w : Work} {targets : List LogicalPath}
    {result : LogicalPath → Except BuildError Payload}
    (done : ∀ p ∈ targets, w.phase p = .done (result p))
    : w.report targets = Report.ofResults result targets := by
  induction targets with
  | nil => rfl
  | cons path rest ih =>
      rw [report, List.foldr_cons, ← report, done path List.mem_cons_self, Report.ofResults,
        List.foldr_cons, ← Report.ofResults,
        ih fun p member => done p (List.mem_cons_of_mem _ member)]

end Work

end Folio.Site
