import Folio.Files.Disk
import Folio.Settings.File

/-! The settings of a project: where its documents are, where its pages go, and which components
they may use. Relative paths of a file begin where the file is. Data of the project itself is kept
beside the file.
-/

namespace Folio.Settings

open Files (Disk)
open Files.Path (join parent?)

/-- The settings of a project. -/
structure Project where
  sourceDirectory : String
  /-- The directory for the cache and for pages that are put nowhere else. -/
  directory : String
  cacheEnabled : Bool
  /-- The file whose text is part of what units depend on. -/
  lockfile : String
  outputDirectory : String
  names : List String
  /-- The file that was read, if there was one. -/
  file : Option String
deriving DecidableEq, Inhabited

/-- What is settled by who asks, whatever a file says. -/
structure Overrides where
  sourceDirectory : Option String := none
  outputDirectory : Option String := none
  cacheEnabled : Option Bool := none
deriving DecidableEq, Inhabited

def fileName : String :=
  "weave.toml"

namespace Project

/-- The settings of a file, whose paths begin at a directory. -/
def ofFile (base : String) (f : File) : Project :=
  let directory := join base ".weave"
  { sourceDirectory := join base (f.sourceDirectory.getD "content")
    directory
    cacheEnabled := f.cacheEnabled.getD true
    lockfile := join base (f.lockfile.getD "Cargo.lock")
    outputDirectory :=
      match f.outputDirectory with
      | some path => join base path
      | none => join directory "build"
    names := f.names
    file := none }

def cacheDirectory (p : Project) : String :=
  join p.directory "cache"

/-- The text of the lockfile; nothing if it cannot be read. -/
def snapshot (p : Project) (d : Disk) : String :=
  match d.readText p.lockfile with
  | .ok text => text
  | .error _ => ""

/-- Checks that the names can be declared. -/
def validate (p : Project) : Except Error Unit :=
  match Document.nameFault? p.names with
  | some fault => .error (.names fault)
  | none => .ok ()

/-- The settings with what is settled otherwise. -/
def override (p : Project) (o : Overrides) : Project :=
  { p with
    sourceDirectory := o.sourceDirectory.getD p.sourceDirectory
    outputDirectory := o.outputDirectory.getD p.outputDirectory
    cacheEnabled := o.cacheEnabled.getD p.cacheEnabled }

/-- The settings of the file at a path. -/
def read (d : Disk) (environment : Variables) (path : String) : Except Error Project := do
  let text ← (d.readText path).mapError .files
  let f ← (← File.parse text).expandPaths environment
  let p := { ofFile ((parent? path).getD ".") f with file := some path }
  p.validate
  return p

/-- The nearest file of settings in a directory or one around it. -/
def nearest? (d : Disk) (directory : String) : Option String :=
  go directory (directory.length + 1)
where
  /-- Looks in a directory, and around it as far as room is left. -/
  go (directory : String) : (room : Nat) → Option String
    | 0 => none
    | room + 1 =>
        let path := join directory fileName
        if d.has path then some path
        else
          match parent? directory with
          | some outer => go outer room
          | none => none

/-- Loads the settings of the file at a path, or of the nearest one. Without a file all is as an
empty one in the working directory would have it.
-/
def load (d : Disk) (environment : Variables) (path : Option String) (overrides : Overrides)
    : Except Error Project := do
  let p ←
    match path with
    | some path => if d.has path then read d environment path else throw (.missing path)
    | none =>
        match nearest? d d.workingDirectory with
        | some path => read d environment path
        | none => pure (ofFile d.workingDirectory {})
  return p.override overrides

end Project

end Folio.Settings
