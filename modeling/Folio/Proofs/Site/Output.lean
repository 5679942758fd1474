import Folio.Proofs.Content.PayloadFile
import Folio.Proofs.Files.Making
import Folio.Site.Report

/-! Writing a report. If two of its files would be the same, nothing is written. Otherwise, in a
directory that is empty or missing, there are afterwards the files of the pages and the manifest,
and no others.
-/

namespace Folio.Site

open Content (LogicalPath)
open Files (Bytes Disk IsEntryName Path.join Path.steps)
open Files.Disk (HasWorkingDirectory IsOpen IsUsable Made)

variable {d : Disk} {directory : String} {top : List String} {r : Report}

-----------------------------------------------------------------------------------------
-- Files that would be the same
-----------------------------------------------------------------------------------------

/-- Holds for errors that tell of paths whose files would be the same, or that of the manifest. -/
def WriteError.Tells (paths : List LogicalPath) : WriteError → Prop
  | manifest path => path ∈ paths ∧ path.payloadFile = manifestName
  | shared first second =>
      first ∈ paths ∧ second ∈ paths ∧ first.payloadFile = second.payloadFile
  | files _ => False

/-- A fault that is found tells of the paths, by induction on those that are left. -/
theorem tells_of_fileFault? {earlier paths : List LogicalPath} {e : WriteError}
    (found : fileFault? earlier paths = some e)
    : e.Tells (earlier ++ paths) := by
  induction paths generalizing earlier with
  | nil => cases found
  | cons path rest ih =>
      unfold fileFault? at found
      split at found
      · next manifest =>
          obtain rfl := Option.some.inj found
          exact ⟨List.mem_append_right _ List.mem_cons_self, beq_iff_eq.mp manifest⟩
      · split at found
        · next first owned =>
            obtain rfl := Option.some.inj found
            have same := List.find?_some owned
            exact ⟨List.mem_append_left _ (List.mem_of_find?_eq_some owned),
              List.mem_append_right _ List.mem_cons_self, beq_iff_eq.mp same⟩
        · have order (p : LogicalPath) (member : p ∈ path :: earlier ++ rest)
              : p ∈ earlier ++ path :: rest := by
            simpa [or_left_comm] using member
          have held := ih found
          cases e with
          | manifest p => exact ⟨order p held.1, held.2⟩
          | shared p q => exact ⟨order p held.1, order q held.2.1, held.2.2⟩
          | files e => exact held

/-- A path has no owner if no earlier one has its file. -/
theorem owner?_eq_none {earlier : List LogicalPath} {path : LogicalPath}
    : owner? earlier path = none ↔ ∀ q ∈ earlier, q.payloadFile ≠ path.payloadFile := by
  simp [owner?, List.find?_eq_none]

/-- No fault is found exactly if all files are different, from those of earlier paths too, and none
is that of the manifest.
-/
theorem fileFault?_eq_none {earlier paths : List LogicalPath}
    : fileFault? earlier paths = none
      ↔ (paths.map LogicalPath.payloadFile).Nodup
        ∧ ∀ p ∈ paths, p.payloadFile ≠ manifestName ∧ owner? earlier p = none := by
  induction paths generalizing earlier with
  | nil => exact iff_of_true rfl ⟨List.nodup_nil, List.forall_mem_nil _⟩
  | cons path rest ih =>
      unfold fileFault?
      rw [List.map_cons, List.nodup_cons, List.forall_mem_cons]
      split
      · next manifest =>
          refine iff_of_false (fun nothing => by cases nothing) ?_
          rintro ⟨-, ⟨other, -⟩, -⟩
          exact other (beq_iff_eq.mp manifest)
      · next notManifest =>
          have other : path.payloadFile ≠ manifestName := fun same =>
            notManifest (beq_iff_eq.mpr same)
          split
          · next first owned =>
              refine iff_of_false (fun nothing => by cases nothing) ?_
              rintro ⟨-, ⟨-, free⟩, -⟩
              rw [owned] at free
              cases free
          · next free =>
              rw [ih]
              have later (p : LogicalPath)
                  : owner? (path :: earlier) p = none
                    ↔ path.payloadFile ≠ p.payloadFile ∧ owner? earlier p = none := by
                rw [owner?_eq_none, owner?_eq_none, List.forall_mem_cons]
              simp only [later]
              constructor
              · rintro ⟨once, apart⟩
                refine ⟨⟨?_, once⟩, ⟨other, free⟩, fun p member => ?_⟩
                · intro member
                  obtain ⟨p, listed, same⟩ := List.mem_map.mp member
                  exact (apart p listed).2.1 same.symm
                · exact ⟨(apart p member).1, (apart p member).2.2⟩
              · rintro ⟨⟨absent, once⟩, -, apart⟩
                refine ⟨once, fun p member => ⟨(apart p member).1, ?_, (apart p member).2⟩⟩
                intro same
                exact absent (List.mem_map.mpr ⟨p, member, same.symm⟩)

/-- If two files would be the same, or one would be that of the manifest, the error tells so and the
disk is as before.
-/
theorem writeTo_of_clash
    (clash : ¬(r.paths.map LogicalPath.payloadFile).Nodup
      ∨ manifestName ∈ r.paths.map LogicalPath.payloadFile)
    (d : Disk) (directory : String)
    : ∃ e, r.writeTo d directory = (d, some e) ∧ e.Tells r.paths := by
  cases found : fileFault? [] r.paths with
  | some e =>
      refine ⟨e, ?_, tells_of_fileFault? found⟩
      unfold Report.writeTo
      rw [found]
  | none =>
      obtain ⟨once, free⟩ := fileFault?_eq_none.mp found
      rcases clash with twice | manifest
      · exact absurd once twice
      · obtain ⟨p, listed, same⟩ := List.mem_map.mp manifest
        exact absurd same (free p listed).1

-----------------------------------------------------------------------------------------
-- Files below a directory
-----------------------------------------------------------------------------------------

structure LeadsTo (d : Disk) (directory : String) (top : List String) : Prop where
  working : d.HasWorkingDirectory
  leads : Disk.walk d.root [] (Path.steps (Path.join d.workingDirectory directory)) = .ok top
  inside : d.root.shapeAt? top = some .directory

/-- On a disk that grew the paths of directories lead to the same places. -/
theorem LeadsTo.grows {later : Disk} {except : List (List String)} (h : LeadsTo d directory top)
    (grows : Disk.Grows except d later)
    : LeadsTo later directory top where
  working := grows.hasWorkingDirectory h.working
  leads := by
    rw [grows.workingDirectory]
    exact Disk.walk_mono grows.directories h.leads
  inside := grows.directories top h.inside

/-- Holds if there are these files below the directory of a path, which is at a place, and no
others. All files are at places that were planned, and so are the directories around them.
-/
structure Holds (d : Disk) (directory : String) (top : List String) (planned : List (List String))
    (kept : List (List String × Bytes)) : Prop extends LeadsTo d directory top where
  files
    : ∀ inner bytes, d.root.shapeAt? (top ++ inner) = some (.file bytes) ↔ (inner, bytes) ∈ kept
  arePlanned : ∀ file ∈ kept, file.1 ∈ planned
  directories
    : ∀ inner, d.root.shapeAt? (top ++ inner) = some .directory
        → inner = [] ∨ ∃ names ∈ planned, inner <+: names ∧ inner ≠ names

/-- Holds for places of which none lies inside of another. -/
def Apart (planned : List (List String)) : Prop :=
  ∀ names ∈ planned, ∀ others ∈ planned, names <+: others → names = others

/-- Holds for names that a file below a directory can have, and for a path that has these names. -/
structure IsFileAt (directory path : String) (names : List String) : Prop where
  notNil : names ≠ []
  relative : Files.Path.isAbsolute path = false
  pieces : Files.Path.pieces path = names
  entries : ∀ name ∈ names, IsEntryName name
  usable : IsUsable (Path.join directory path)

section

variable {planned : List (List String)} {kept : List (List String × Bytes)} {path : String}
  {names inner : List String} {name : String}

theorem IsFileAt.steps (h : IsFileAt directory path names) : Path.steps path = names := by
  rw [Path.steps, h.pieces]
  refine List.filter_eq_self.mpr ?_
  intro name member
  simp [(h.entries name member).isIdle]

theorem IsFileAt.getLast?_pieces (h : IsFileAt directory path (inner ++ [name]))
    : (Files.Path.pieces (Path.join directory path)).getLast? = some name := by
  rw [Files.Path.getLast?_pieces_join, h.pieces, List.getLast?_concat]

/-- The path of a file has a step. -/
theorem IsFileAt.steps_join_ne_nil (h : IsFileAt directory path names)
    : Path.steps (Path.join directory path) ≠ [] := by
  rw [Files.Path.steps_join h.relative, h.steps]
  exact List.append_ne_nil_of_right_ne_nil _ h.notNil

/-- At the place of a planned file is no directory. -/
theorem Holds.not_directory (h : Holds d directory top planned kept) (apart : Apart planned)
    (member : names ∈ planned) (notNil : names ≠ [])
    : d.root.shapeAt? (top ++ names) ≠ some .directory := by
  intro there
  rcases h.directories names there with empty | ⟨others, listed, front, different⟩
  · exact notNil empty
  · exact different (apart names member others listed front)

/-- Nothing stands on the way of a planned file that is not there yet. -/
theorem Holds.isOpen (h : Holds d directory top planned kept) (apart : Apart planned)
    (member : names ∈ planned) (new : ∀ bytes, (names, bytes) ∉ kept)
    (at_ : IsFileAt directory path names)
    : d.IsOpen (Path.join directory path) top names where
  usable := at_.usable
  ends := by
    intro here
    rcases List.eq_nil_or_concat names with empty | ⟨inner, name, rfl⟩
    · exact absurd empty at_.notNil
    · rw [List.concat_eq_append] at at_
      have leads := (at_.entries name (by simp)).isIdle
      rw [Files.Path.endsHere_of_getLast? at_.getLast?_pieces leads] at here
      cases here
  leads := by
    refine ⟨_, ?_, h.leads⟩
    rw [Files.Path.steps_join_join _ _ at_.relative, at_.steps]
  inside := h.inside
  entries := at_.entries
  free := by
    intro inner bytes front there
    have listed := (h.files inner bytes).mp there
    obtain rfl := apart inner (h.arePlanned _ listed) names member front
    exact new bytes listed

/-- The directories around a planned file are made, and the files stay as they are. -/
theorem Holds.makeAround (h : Holds d directory top planned kept) (apart : Apart planned)
    (member : inner ++ [name] ∈ planned) (new : ∀ bytes, (inner ++ [name], bytes) ∉ kept)
    (at_ : IsFileAt directory path (inner ++ [name]))
    : ∃ later,
        d.makeDirectories ((Files.Path.parent? (Path.join directory path)).getD "") = (later, none)
        ∧ Holds later directory top planned kept
        ∧ later.root.shapeAt? (top ++ inner) = some .directory := by
  have isOpen := h.isOpen apart member new at_
  obtain ⟨outer, found⟩ := Files.Path.parent?_eq_some at_.steps_join_ne_nil
  have around := (isOpen.parent? at_.steps_join_ne_nil found).1
  obtain ⟨later, done, made⟩ := around.makeDirectories h.working
  have grows := isOpen.grows made
  refine ⟨later, by rw [found]; exact done, ?_, made.made inner (List.prefix_refl _)⟩
  refine ⟨h.toLeadsTo.grows grows, ?_, h.arePlanned, ?_⟩
  · intro names bytes
    rw [grows.files _ bytes List.not_mem_nil]
    exact h.files names bytes
  · intro names there
    by_cases along : names <+: inner
    · refine .inr ⟨inner ++ [name], member, along.trans (List.prefix_append _ _), ?_⟩
      rintro rfl
      have longer := along.length_le
      rw [List.length_append, List.length_singleton] at longer
      omega
    · refine h.directories names ?_
      rw [← made.others (top ++ names) ?_]
      · exact there
      · intro front before same
        exact along (List.append_cancel_left same ▸ before)

/-- A planned file is written once the directories around it are there. -/
theorem Holds.write (h : Holds d directory top planned kept) (apart : Apart planned)
    (member : inner ++ [name] ∈ planned) (new : ∀ bytes, (inner ++ [name], bytes) ∉ kept)
    (at_ : IsFileAt directory path (inner ++ [name]))
    (around : d.root.shapeAt? (top ++ inner) = some .directory) (bytes : Bytes)
    : ∃ later,
        d.write (Path.join directory path) bytes = .ok later
        ∧ Holds later directory top planned (kept ++ [(inner ++ [name], bytes)]) := by
  have isOpen := h.isOpen apart member new at_
  have named : Path.join directory path ≠ "" := by
    intro empty
    exact at_.steps_join_ne_nil (empty ▸ by decide)
  have noDirectory := h.not_directory apart member at_.notNil
  have forFile : d.isForDirectory (Path.join directory path) = false := by
    rw [Disk.isForDirectory, Files.Path.getLast?_pieces_join, at_.getLast?_pieces, Option.any_some]
    exact (at_.entries name (by simp)).isIdle
  obtain ⟨later, written, changed⟩ :=
    isOpen.write h.working named around noDirectory forFile bytes
  obtain ⟨grows, -⟩ := Disk.grows_of_write written
  refine ⟨later, written, h.toLeadsTo.grows grows, ?_, ?_, ?_⟩
  · intro names held
    rw [changed, List.mem_append, List.mem_singleton, Prod.mk.injEq]
    split
    · next here =>
        obtain rfl := List.append_cancel_left here
        simp [new, eq_comm]
    · next elsewhere =>
        have other : names ≠ inner ++ [name] := fun same => elsewhere (congrArg (top ++ ·) same)
        simp [h.files names held, other]
  · refine List.forall_mem_append.mpr ⟨h.arePlanned, ?_⟩
    exact List.forall_mem_singleton.mpr member
  · intro names there
    rw [changed] at there
    split at there
    · cases there
    · exact h.directories names there

end

-----------------------------------------------------------------------------------------
-- Where files are written
-----------------------------------------------------------------------------------------

/-- Holds for paths of empty directories, and for those at which new ones can be made: they go on by
names from a directory that is there, in which there is nothing at the first of the names.
-/
inductive IsBlank (d : Disk) (directory : String) : Prop where
  | empty (found : d.find directory = .ok .empty)
  | missing {place : List String} {first : String} {rest : List String}
      (isOpen : d.IsOpen directory place (first :: rest))
      (nothing : d.root.shapeAt? (place ++ [first]) = none)

/-- An empty directory holds no files. -/
theorem holds_of_find (working : d.HasWorkingDirectory) (found : d.find directory = .ok .empty)
    (planned : List (List String))
    : ∃ top, d.makeDirectories directory = (d, none) ∧ Holds d directory top planned [] := by
  obtain ⟨place, located, there, -⟩ := Disk.find_eq_ok.mp found
  obtain ⟨-, -, -, walked, -⟩ := Disk.locate_eq_ok.mp located
  have inside : d.root.shapeAt? place.names = some .directory :=
    Files.Entry.shapeAt?_eq_directory.mpr ⟨[], there⟩
  have below (inner : List String)
      : d.root.shapeAt? (place.names ++ inner) = Files.Entry.empty.shapeAt? inner := by
    rw [Files.Entry.shapeAt?, Files.Entry.get?_append, there]
    rfl
  refine ⟨place.names,
    Disk.makeDirectories_of_there (Disk.hasDirectory_eq_true.mpr ⟨place, located, inside⟩), ?_⟩
  refine ⟨⟨working, walked, inside⟩, ?_, List.forall_mem_nil _, ?_⟩
  · intro inner bytes
    rw [below]
    refine iff_of_false ?_ List.not_mem_nil
    cases inner <;> exact fun same => by cases same
  · intro inner isDirectory
    rw [below] at isDirectory
    cases inner with
    | nil => exact .inl rfl
    | cons name rest => cases isDirectory

/-- A directory that was made where nothing was holds no files. -/
theorem holds_of_isOpen (working : d.HasWorkingDirectory) {place rest : List String}
    {first : String}
    (isOpen : d.IsOpen directory place (first :: rest))
    (nothing : d.root.shapeAt? (place ++ [first]) = none) (planned : List (List String))
    : ∃ later,
        d.makeDirectories directory = (later, none)
        ∧ Holds later directory (place ++ first :: rest) planned [] := by
  obtain ⟨later, done, made⟩ := isOpen.makeDirectories working
  have grows := made.grows isOpen.free
  have inside := made.made (first :: rest) (List.prefix_refl _)
  have below {inner : List String} {shape : Files.Shape} (notNil : inner ≠ [])
      : later.root.shapeAt? (place ++ first :: rest ++ inner) ≠ some shape := by
    intro there
    rw [made.others] at there
    · obtain ⟨name, more, split⟩ :=
        List.exists_cons_of_ne_nil (List.append_ne_nil_of_right_ne_nil rest notNil)
      rw [List.append_assoc, List.cons_append, List.append_cons, split] at there
      rw [Files.Entry.shapeAt?_outer there] at nothing
      cases nothing
    · intro front before same
      rw [List.append_assoc] at same
      have longer := before.length_le
      rw [← List.append_cancel_left same, List.length_append] at longer
      exact notNil (List.length_eq_zero_iff.mp (by omega))
  have walked : Disk.walk later.root [] (Path.steps (Path.join later.workingDirectory directory))
      = .ok (place ++ first :: rest) := by
    obtain ⟨outer, steps, walked⟩ := isOpen.leads
    rw [made.workingDirectory, steps, Disk.walk_append, Disk.walk_mono grows.directories walked]
    exact Disk.walk_entries isOpen.entries inside
  refine ⟨later, done, ⟨grows.hasWorkingDirectory working, walked, inside⟩, ?_,
    List.forall_mem_nil _, ?_⟩
  · intro inner bytes
    refine iff_of_false ?_ List.not_mem_nil
    cases inner with
    | nil =>
        rw [List.append_nil, inside]
        exact fun same => by cases same
    | cons name more => exact below (List.cons_ne_nil name more)
  · intro inner there
    by_cases here : inner = []
    · exact .inl here
    · exact absurd there (below here)

/-- A directory is made at a blank path if need be, and holds no files. -/
theorem IsBlank.makeDirectories (h : IsBlank d directory) (working : d.HasWorkingDirectory)
    (planned : List (List String))
    : ∃ later top,
        d.makeDirectories directory = (later, none) ∧ Holds later directory top planned [] := by
  cases h with
  | empty found =>
      obtain ⟨top, done, holds⟩ := holds_of_find working found planned
      exact ⟨d, top, done, holds⟩
  | missing isOpen nothing =>
      obtain ⟨later, done, holds⟩ := holds_of_isOpen working isOpen nothing planned
      exact ⟨later, _, done, holds⟩

-----------------------------------------------------------------------------------------
-- Writing pages
-----------------------------------------------------------------------------------------

def pageFiles (pages : List (LogicalPath × Payload)) : List (List String × Bytes) :=
  pages.map fun page => (page.1.payloadNames, Text.utf8 page.2.json.render)

/-- A page is written if its file is new. -/
theorem Holds.writePage {planned : List (List String)} {kept : List (List String × Bytes)}
    (h : Holds d directory top planned kept) (apart : Apart planned) {path : LogicalPath}
    (member : path.payloadNames ∈ planned) (new : ∀ bytes, (path.payloadNames, bytes) ∉ kept)
    (at_ : IsFileAt directory path.payloadFile path.payloadNames) (payload : Payload)
    : ∃ later,
        Report.writePage d directory path payload = (later, none)
        ∧ Holds later directory top planned
            (kept ++ [(path.payloadNames, Text.utf8 payload.json.render)]) := by
  rcases List.eq_nil_or_concat path.payloadNames with empty | ⟨inner, name, names⟩
  · exact absurd empty path.payloadNames_ne_nil
  rw [List.concat_eq_append] at names
  rw [names] at member new at_ ⊢
  obtain ⟨middle, made, holds, around⟩ := h.makeAround apart member new at_
  obtain ⟨later, written, holds⟩ :=
    holds.write apart member new at_ around (Text.utf8 payload.json.render)
  refine ⟨later, ?_, holds⟩
  unfold Report.writePage
  dsimp only
  rw [made]
  dsimp only
  rw [written]

/-- All pages are written, by induction on those that are left: the file of the first of them is
new, and the others stay new.
-/
theorem Holds.writePages {planned : List (List String)} {kept : List (List String × Bytes)}
    {pages : List (LogicalPath × Payload)} (h : Holds d directory top planned kept)
    (apart : Apart planned)
    (files : ∀ page ∈ pages, page.1.payloadNames ∈ planned
      ∧ IsFileAt directory page.1.payloadFile page.1.payloadNames)
    (once : ((kept ++ pageFiles pages).map Prod.fst).Nodup)
    : ∃ later,
        Report.writePages d directory pages = (later, none)
        ∧ Holds later directory top planned (kept ++ pageFiles pages) := by
  induction pages generalizing d kept with
  | nil => exact ⟨d, rfl, (List.append_nil kept).symm ▸ h⟩
  | cons page rest ih =>
      obtain ⟨path, payload⟩ := page
      obtain ⟨⟨member, at_⟩, others⟩ := List.forall_mem_cons.mp files
      have new : ∀ bytes, (path.payloadNames, bytes) ∉ kept := by
        intro bytes listed
        rw [List.map_append] at once
        exact (List.nodup_append.mp once).2.2 _ (List.mem_map_of_mem listed) _
          List.mem_cons_self rfl
      have split : kept ++ pageFiles ((path, payload) :: rest)
          = kept ++ [(path.payloadNames, Text.utf8 payload.json.render)] ++ pageFiles rest :=
        List.append_cons ..
      obtain ⟨middle, written, holds⟩ := h.writePage apart member new at_ payload
      rw [split] at once ⊢
      obtain ⟨later, all, holds⟩ := ih holds others once
      refine ⟨later, ?_, holds⟩
      rw [Report.writePages, written]
      exact all

-----------------------------------------------------------------------------------------
-- Writing a report
-----------------------------------------------------------------------------------------

/-- What is assumed of a directory and of the files of a report: the directory is empty or can be
made, the operating system accepts the names and the paths of all files, and no file would have to
lie inside of another.
-/
structure Report.Fits (r : Report) (d : Disk) (directory : String) : Prop where
  working : d.HasWorkingDirectory
  blank : IsBlank d directory
  names : ∀ p ∈ r.paths, ∀ name ∈ Path.steps p.payloadFile, IsEntryName name
  usable : ∀ p ∈ r.paths, IsUsable (Path.join directory p.payloadFile)
  manifest : IsUsable (Path.join directory manifestName)
  apart
    : ∀ p ∈ r.paths, ∀ q ∈ r.paths,
        Path.steps p.payloadFile <+: Path.steps q.payloadFile
        → Path.steps p.payloadFile = Path.steps q.payloadFile
  outside
    : ∀ p ∈ r.paths,
        [manifestName] <+: Path.steps p.payloadFile → Path.steps p.payloadFile = [manifestName]

def Report.places (r : Report) : List (List String) :=
  [manifestName] :: r.paths.map LogicalPath.payloadNames

theorem Report.Fits.apart_places (h : r.Fits d directory) : Apart r.places := by
  intro names member others listed front
  rcases List.mem_cons.mp member with rfl | member
  · rcases List.mem_cons.mp listed with rfl | listed
    · rfl
    · obtain ⟨q, built, rfl⟩ := List.mem_map.mp listed
      have outside := h.outside q built
      rw [q.steps_payloadFile] at outside
      exact (outside front).symm
  · obtain ⟨p, built, rfl⟩ := List.mem_map.mp member
    rcases List.mem_cons.mp listed with rfl | listed
    · exact front.eq_of_length_le (List.length_pos_iff.mpr p.payloadNames_ne_nil)
    · obtain ⟨q, builtToo, rfl⟩ := List.mem_map.mp listed
      have apart := h.apart p built q builtToo
      rw [p.steps_payloadFile, q.steps_payloadFile] at apart
      exact apart front

theorem Report.Fits.isFileAt (h : r.Fits d directory) {p : LogicalPath} (built : p ∈ r.paths)
    : IsFileAt directory p.payloadFile p.payloadNames where
  notNil := p.payloadNames_ne_nil
  relative := p.isAbsolute_payloadFile
  pieces := p.pieces_payloadFile
  entries := p.steps_payloadFile ▸ h.names p built
  usable := h.usable p built

theorem Report.Fits.isFileAt_manifest (h : r.Fits d directory)
    : IsFileAt directory manifestName ([] ++ [manifestName]) where
  notNil := List.cons_ne_nil _ _
  relative := by decide
  pieces := by decide
  entries := by decide
  usable := h.manifest

/-- Files that are all different are at different places, and none is at that of the manifest. -/
theorem nodup_places (once : (r.paths.map LogicalPath.payloadFile).Nodup)
    (other : manifestName ∉ r.paths.map LogicalPath.payloadFile)
    : ((pageFiles r.pages).map Prod.fst).Nodup
      ∧ ∀ bytes, ([manifestName], bytes) ∉ pageFiles r.pages := by
  constructor
  · refine List.Pairwise.of_map (S := (· ≠ ·)) ("/".intercalate ·) (fun _ _ => mt (congrArg _)) ?_
    have files : ((pageFiles r.pages).map Prod.fst).map ("/".intercalate ·)
        = r.paths.map LogicalPath.payloadFile := by
      simp [pageFiles, Report.paths, LogicalPath.payloadFile_eq]
    rw [files]
    exact once
  · intro bytes listed
    obtain ⟨page, built, same⟩ := List.mem_map.mp listed
    refine other (List.mem_map.mpr ⟨page.1, List.mem_map_of_mem built, ?_⟩)
    rw [page.1.payloadFile_eq, (Prod.mk.inj same).1]
    rfl

/-- The manifest lists the pages in the order of the report. -/
theorem Report.manifest_paths (r : Report)
    : Report.manifest r.paths
      = .object
          [("pages",
            .array (r.pages.map fun page =>
              .object
                [("path", .string ("/".intercalate page.1.segments)),
                  ("segments", .array (page.1.segments.map .string)),
                  ("file", .string page.1.payloadFile)]))] := by
  rw [Report.manifest, Report.paths, List.map_map]
  rfl

/-- If the files of a report are all different, then they are all written, and below the directory
there are no others.
-/
theorem writeTo_of_fits (fits : r.Fits d directory)
    (once : (r.paths.map LogicalPath.payloadFile).Nodup)
    (other : manifestName ∉ r.paths.map LogicalPath.payloadFile)
    : ∃ later,
        r.writeTo d directory = (later, none)
        ∧ ∀ inner bytes,
            later.root.shapeAt? (later.target directory ++ inner) = some (.file bytes)
            ↔ (∃ page ∈ r.pages,
                inner = Path.steps page.1.payloadFile ∧ bytes = Text.utf8 page.2.json.render)
              ∨ (inner = [manifestName]
                ∧ bytes = Text.utf8 (Report.manifest r.paths).renderPretty) := by
  obtain ⟨different, notManifest⟩ := nodup_places once other
  have noFault : fileFault? [] r.paths = none := by
    refine fileFault?_eq_none.mpr ⟨once, fun p built => ⟨?_, rfl⟩⟩
    exact fun same => other (List.mem_map.mpr ⟨p, built, same⟩)
  have apart := fits.apart_places
  obtain ⟨first, top, made, holds⟩ := fits.blank.makeDirectories fits.working r.places
  have files : ∀ page ∈ r.pages, page.1.payloadNames ∈ r.places
      ∧ IsFileAt directory page.1.payloadFile page.1.payloadNames := by
    intro page built
    have listed : page.1 ∈ r.paths := List.mem_map_of_mem built
    exact ⟨List.mem_cons_of_mem _ (List.mem_map_of_mem listed), fits.isFileAt listed⟩
  obtain ⟨second, written, holds⟩ := holds.writePages apart files different
  obtain ⟨later, last, holds⟩ :=
    holds.write apart List.mem_cons_self notManifest fits.isFileAt_manifest
      ((List.append_nil top).symm ▸ holds.inside)
      (Text.utf8 (Report.manifest r.paths).renderPretty)
  refine ⟨later, ?_, ?_⟩
  · rw [Report.writeTo, noFault, made]
    dsimp only
    rw [written]
    dsimp only
    rw [last]
  · intro inner bytes
    have target : later.target directory = top := (Disk.walk_follow holds.leads).symm
    rw [target, holds.files]
    simp only [pageFiles, List.nil_append, List.mem_append, List.mem_singleton, List.mem_map,
      Prod.mk.injEq, LogicalPath.steps_payloadFile]
    refine or_congr_left ?_
    constructor
    · rintro ⟨page, built, rfl, rfl⟩
      exact ⟨page, built, rfl, rfl⟩
    · rintro ⟨page, built, rfl, rfl⟩
      exact ⟨page, built, rfl, rfl⟩

/-- What writing a report leaves. If two of its files would be the same, or one would be that of the
manifest, then the error tells so and nothing is written. Otherwise, in a directory that was empty
or missing, there are exactly a file with the payload of each page and the manifest, which lists the
pages in the order of the report, each with its path, its segments and its file. Only the root and
the path `index` have the same file, and of those no directory of documents lists both.
-/
theorem writeTo_exactly
    : (∀ (r : Report) (d : Disk) (directory : String),
        ¬(r.paths.map LogicalPath.payloadFile).Nodup
          ∨ manifestName ∈ r.paths.map LogicalPath.payloadFile →
        ∃ e, r.writeTo d directory = (d, some e) ∧ e.Tells r.paths)
      ∧ (∀ (r : Report) (d : Disk) (directory : String),
          (r.paths.map LogicalPath.payloadFile).Nodup →
          manifestName ∉ r.paths.map LogicalPath.payloadFile →
          r.Fits d directory →
          ∃ later,
            r.writeTo d directory = (later, none)
            ∧ ∀ inner bytes,
                later.root.shapeAt? (later.target directory ++ inner) = some (.file bytes)
                ↔ (∃ page ∈ r.pages,
                    inner = Path.steps page.1.payloadFile
                    ∧ bytes = Text.utf8 page.2.json.render)
                  ∨ (inner = [manifestName]
                    ∧ bytes
                      = Text.utf8
                          (Json.Value.renderPretty
                            (.object
                              [("pages",
                                .array (r.pages.map fun page =>
                                  .object
                                    [("path", .string ("/".intercalate page.1.segments)),
                                      ("segments", .array (page.1.segments.map .string)),
                                      ("file", .string page.1.payloadFile)]))]))))
      ∧ (∀ p q : LogicalPath,
          p.payloadFile = q.payloadFile
          ↔ p = q
            ∨ (p.segments = [] ∧ q.segments = [Content.indexName])
            ∨ (p.segments = [Content.indexName] ∧ q.segments = []))
      ∧ ∀ (s : Content.FileStore) (paths : List LogicalPath),
          s.scan = .ok paths → (paths.map LogicalPath.payloadFile).Nodup := by
  refine ⟨?_, ?_, ?_, ?_⟩
  · intro r d directory clash
    exact writeTo_of_clash clash d directory
  · intro r d directory once other fits
    obtain ⟨later, done, exactly⟩ := writeTo_of_fits fits once other
    rw [Report.manifest_paths] at exactly
    exact ⟨later, done, exactly⟩
  · intro p q
    exact LogicalPath.payloadFile_eq_iff
  · intro s paths scanned
    exact Content.FileStore.nodup_payloadFile scanned

def pathSetup : LogicalPath :=
  { segments := ["guide", "setup"], valid := by decide }

def twoPages : Report :=
  { pages := [(.root, default), (pathSetup, default)] }

def outputDisk : Disk :=
  { root := .directory [("out", .empty)] }

def twoPagesManifest : String :=
  "\x7b
  \"pages\": [
    \x7b
      \"path\": \"\",
      \"segments\": [],
      \"file\": \"index.json\"
    \x7d,
    \x7b
      \"path\": \"guide/setup\",
      \"segments\": [
        \"guide\",
        \"setup\"
      ],
      \"file\": \"guide/setup.json\"
    \x7d
  ]
\x7d"

/-- Two pages and the manifest are written into a new directory. -/
theorem writeTo_twoPages
    : ∃ later,
        twoPages.writeTo outputDisk "/out/site" = (later, none)
        ∧ (∀ inner,
            (∃ bytes,
              later.root.shapeAt? (later.target "/out/site" ++ inner) = some (.file bytes))
            ↔ inner ∈ [["index.json"], ["guide", "setup.json"], ["manifest.json"]])
        ∧ later.root.shapeAt? (later.target "/out/site" ++ ["manifest.json"])
          = some (.file (Text.utf8 twoPagesManifest)) := by
  have isOpen : outputDisk.IsOpen "/out/site" ["out"] ["site"] := by
    refine ⟨by decide, by decide, ⟨["out"], by decide, rfl⟩, rfl, by decide, ?_⟩
    intro inner bytes front there
    rcases List.prefix_cons_iff.mp front with rfl | ⟨rest, rfl, -⟩
    · cases there
    · cases there
  have fits : twoPages.Fits outputDisk "/out/site" :=
    ⟨⟨[], rfl, rfl⟩, .missing isOpen rfl, by decide, by decide, by decide, by decide, by decide⟩
  obtain ⟨later, done, exactly⟩ :=
    writeTo_exactly.2.1 twoPages outputDisk "/out/site" (by decide) (by decide) fits
  have root : Path.steps LogicalPath.root.payloadFile = ["index.json"] := by decide
  have setup : Path.steps pathSetup.payloadFile = ["guide", "setup.json"] := by decide
  have inside (inner : List String)
      : (∃ bytes, later.root.shapeAt? (later.target "/out/site" ++ inner) = some (.file bytes))
        ↔ inner ∈ [["index.json"], ["guide", "setup.json"], ["manifest.json"]] := by
    simp only [exactly, exists_or]
    constructor
    · rintro (⟨bytes, page, built, rfl, -⟩ | ⟨bytes, rfl, -⟩)
      · rcases List.mem_cons.mp built with rfl | built
        · exact root ▸ List.mem_cons_self
        · obtain rfl := List.mem_singleton.mp built
          exact setup ▸ by decide
      · decide
    · intro member
      rcases List.mem_cons.mp member with rfl | member
      · exact .inl ⟨_, _, List.mem_cons_self, root.symm, rfl⟩
      · rcases List.mem_cons.mp member with rfl | member
        · exact .inl ⟨_, (pathSetup, default), by simp [twoPages], setup.symm, rfl⟩
        · obtain rfl := List.mem_singleton.mp member
          exact .inr ⟨_, rfl, rfl⟩
  have text : twoPagesManifest = (Report.manifest twoPages.paths).renderPretty := by
    decide +kernel
  exact ⟨later, done, inside, (exactly _ _).mpr (.inr ⟨rfl, congrArg Text.utf8 text⟩)⟩

end Folio.Site
