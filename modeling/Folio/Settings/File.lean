import Folio.Settings.Error
import Folio.Settings.Variables
import Folio.Toml.Decode

/-! What a file says about a project. All of it may be left out, and what is not asked for is passed
over.
-/

namespace Folio.Settings

open Toml (Item)

/-- What a file says, paths as they are written. -/
structure File where
  sourceDirectory : Option String := none
  cacheEnabled : Option Bool := none
  lockfile : Option String := none
  outputDirectory : Option String := none
  names : List String := []
deriving DecidableEq, Inhabited

namespace File

def readDocuments (f : File) (field : String × Item) : Except Toml.Error File := do
  let (name, v) := field
  match name with
  | "source_dir" => return { f with sourceDirectory := some (← v.text) }
  | "cache_enabled" => return { f with cacheEnabled := some (← v.boolean) }
  | "lockfile" => return { f with lockfile := some (← v.text) }
  | _ =>
      v.ignore
      return f

/-- Reads a field about what is built. -/
def readBuild (f : File) (field : String × Item) : Except Toml.Error File := do
  let (name, v) := field
  match name with
  | "output_dir" => return { f with outputDirectory := some (← v.text) }
  | _ =>
      v.ignore
      return f

def readComponents (f : File) (field : String × Item) : Except Toml.Error File := do
  let (name, v) := field
  match name with
  | "names" => return { f with names := ← v.texts }
  | _ =>
      v.ignore
      return f

def readSection (f : File) (field : String × Item) : Except Toml.Error File := do
  let (name, v) := field
  match name with
  | "docs" =>
      (← v.fields ["source_dir", "cache_enabled", "lockfile"] "struct DocsConfigRaw").foldlM
        readDocuments f
  | "build" => (← v.fields ["output_dir"] "struct BuildConfigRaw").foldlM readBuild f
  | "components" => (← v.fields ["names"] "struct ComponentsConfig").foldlM readComponents f
  | _ =>
      v.ignore
      return f

def parse (text : String) : Except Error File :=
  let result : Except Toml.Error File := do
    (← Toml.parse text).entries.foldlM readSection {}
  result.mapError (.toml text)

def paths (f : File) : List String :=
  [f.sourceDirectory, f.lockfile, f.outputDirectory].filterMap id

/-- The names of the variables on which the paths depend. -/
def variableNames (f : File) : List String :=
  f.paths.flatMap fun path => (references path.toList).map fun r => String.ofList r.name

/-- A path of the file with values in the place of references. -/
def expandPath (environment : Variables) (field : String) (path : Option String)
    : Except Error (Option String) :=
  match path with
  | none => .ok none
  | some path =>
      match expand environment path.toList with
      | .ok s => .ok (some (String.ofList s))
      | .error name => .error (.unsetVariable field name)

/-- The file with values in the place of references. -/
def expandPaths (f : File) (environment : Variables) : Except Error File := do
  return { f with
    sourceDirectory := ← expandPath environment "docs.source_dir" f.sourceDirectory
    lockfile := ← expandPath environment "docs.lockfile" f.lockfile
    outputDirectory := ← expandPath environment "build.output_dir" f.outputDirectory }

end File

end Folio.Settings
