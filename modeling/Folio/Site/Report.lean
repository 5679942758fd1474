import Folio.Site.Page

/-! Sites: all pages of a store. A page that cannot be built does not keep the others from being
built. The pages that were built are written with a manifest that lists them.
-/

namespace Folio.Site

open Content (LogicalPath StorageError)
open Files (Disk)

/-- The pages that were built and those that were not, both in the order of their paths. -/
structure Report where
  pages : List (LogicalPath × Payload) := []
  failures : List (LogicalPath × BuildError) := []
deriving Inhabited

/-- Why a report is not written. -/
inductive WriteError where
  /-- The file of a page would be that of the manifest. -/
  | manifest (path : LogicalPath)
  /-- Two pages have the same file. -/
  | shared (first second : LogicalPath)
  | files (error : Files.Error)
deriving DecidableEq, Inhabited

/-- The name of the file that lists the pages. -/
def manifestName : String :=
  "manifest.json"

def WriteError.message : WriteError → String
  | manifest path => "page " ++ path.display ++ " collides with " ++ manifestName
  | shared first second =>
      "pages /" ++ first.display ++ " and /" ++ second.display ++ " both map to "
        ++ second.payloadFile
  | files error => error.message

/-- The last of the paths with the same file as a path. -/
def owner? (earlier : List LogicalPath) (path : LogicalPath) : Option LogicalPath :=
  earlier.find? fun p => p.payloadFile == path.payloadFile

/-- The first fault of the files of paths, of which `earlier` came before, latest first. -/
def fileFault? (earlier : List LogicalPath) : List LogicalPath → Option WriteError
  | [] => none
  | path :: rest =>
      if path.payloadFile == manifestName then some (.manifest path)
      else
        match owner? earlier path with
        | some first => some (.shared first path)
        | none => fileFault? (path :: earlier) rest

namespace Report

/-- Holds if all pages were built. -/
def isSuccess (r : Report) : Bool :=
  r.failures.isEmpty

/-- The paths of the pages that were built. -/
def paths (r : Report) : List LogicalPath :=
  r.pages.map (·.1)

def manifestEntry (path : LogicalPath) : Json.Value :=
  .object [("path", .string path.display), ("segments", path.json),
    ("file", .string path.payloadFile)]

/-- The written form of the list of pages. -/
def manifest (paths : List LogicalPath) : Json.Value :=
  .object [("pages", .array (paths.map manifestEntry))]

/-- Writes the file of a page and the directories that lead to it. -/
-- Irreducible, so that the equations of a loop over pages do not evaluate how one of them is
-- written.
@[irreducible]
def writePage (d : Disk) (directory : String) (path : LogicalPath) (payload : Payload)
    : Disk × Option Files.Error :=
  let file := Files.Path.join directory path.payloadFile
  match d.makeDirectories ((Files.Path.parent? file).getD "") with
  | (d, some e) => (d, some e)
  | (d, none) =>
      match d.write file (Text.utf8 payload.json.render) with
      | .ok d => (d, none)
      | .error e => (d, some e)

/-- Writes the files of pages up to the first error. -/
def writePages (d : Disk) (directory : String)
    : List (LogicalPath × Payload) → Disk × Option Files.Error
  | [] => (d, none)
  | (path, payload) :: rest =>
      match writePage d directory path payload with
      | (d, some e) => (d, some e)
      | (d, none) => writePages d directory rest

/-- Writes the pages and the manifest. If two files would be the same, nothing is written. What was
written before an error of the disk stays.
-/
def writeTo (r : Report) (d : Disk) (directory : String) : Disk × Option WriteError :=
  match fileFault? [] r.paths with
  | some e => (d, some e)
  | none =>
      match d.makeDirectories directory with
      | (d, some e) => (d, some (.files e))
      | (d, none) =>
          match writePages d directory r.pages with
          | (d, some e) => (d, some (.files e))
          | (d, none) =>
              let text := (manifest r.paths).renderPretty
              match d.write (Files.Path.join directory manifestName) (Text.utf8 text) with
              | .ok d => (d, none)
              | .error e => (d, some (.files e))

/-- Adds what became of a page that comes before all others. -/
def add (path : LogicalPath) (result : Except BuildError Payload) (r : Report) : Report :=
  match result with
  | .ok payload => { r with pages := (path, payload) :: r.pages }
  | .error e => { r with failures := (path, e) :: r.failures }

end Report

namespace Builder

def pages (b : Builder) (d : Disk) : List LogicalPath → Report × Disk
  | [] => ({}, d)
  | path :: rest =>
      let (result, d) := b.page d path
      let (report, d) := b.pages d rest
      (report.add path result, d)

/-- Builds all pages of the store. -/
def site (b : Builder) (d : Disk) : Except StorageError (Report × Disk) := do
  return b.pages d (← b.store.scan)

end Builder

end Folio.Site
