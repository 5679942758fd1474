import Folio.Cli.Session

/-! The program. What a run may need is read from the file system into a disk; afterwards the files
that have changed are written back.
-/

namespace Folio

open Files (Bytes Disk Entry)
open Files.Path (join parent?)
open Settings (File Overrides Project Variables)

/-- The result of an action, if it has one. -/
def attempt (action : IO α) : IO (Option α) := do
  try return some (← action) catch _ => return none

/-- The disk with the directories that lead to a path, as far as they are there. -/
partial def loadParents (d : Disk) (path : String) : IO Disk := do
  match parent? path with
  | none => return d
  | some outer =>
      let d ← loadParents d outer
      match ← attempt (IO.FS.realPath outer) with
      | some place => if ← place.isDir then return (d.makeDirectories outer).1 else return d
      | none => return d

/-- The disk with a file or with all that is in a directory. -/
partial def loadTree (d : Disk) (path : String) : IO Disk := do
  let d ← loadParents d path
  match ← attempt (IO.FS.realPath path) with
  | none => return d
  | some place =>
      if ← place.isDir then
        let mut d := (d.makeDirectories path).1
        for entry in ← place.readDir do
          d ← loadTree d (join path entry.fileName)
        return d
      else
        match ← attempt (IO.FS.readBinFile path) with
        | some bytes => return ((d.write path bytes.data.toList).toOption).getD d
        | none => return d

/-- The disk with the files of settings in a directory and around it. -/
partial def loadSettings (d : Disk) (directory : String) : IO Disk := do
  let d ← loadTree d (join directory Settings.fileName)
  match parent? directory with
  | some outer => loadSettings d outer
  | none => return d

/-- The values of the variables on which the settings of a file depend. -/
def loadVariables (d : Disk) (path : Option String) : IO Variables := do
  let text := (path.bind fun path => (d.readText path).toOption).getD ""
  let names := ((File.parse text).toOption.map File.variableNames).getD []
  names.filterMapM fun name => do
    return (← IO.getEnv name).map fun value => (name, value)

/-- The file of settings and the overrides of a command. -/
def Cli.Command.settings : Cli.Command → Option String × Overrides
  | build file overrides _ | paths file overrides _ => (file, overrides)
  | render file _ _ => (file, {})

/-- The disk with all that a command may need, and the variables. -/
def loadFor (d : Disk) (command : Cli.Command) : IO (Disk × Variables) := do
  let here := d.workingDirectory
  let (file, overrides) := command.settings
  let mut d ← loadSettings d here
  if let some path := file then d ← loadTree d (join here path)
  let file := file.or (Project.nearest? d here)
  let environment ← loadVariables d file
  if let .render _ payload _ := command then d ← loadTree d (join here payload)
  if let .ok p := Project.load d environment file overrides then
    for path in [p.sourceDirectory, p.directory, p.lockfile, p.outputDirectory] do
      d ← loadTree d (join here path)
  return (d, environment)

/-- Makes the directories of a tree that are missing. -/
partial def saveDirectories (path : String) : Entry → IO PUnit
  | .file _ => return ⟨⟩
  | .directory entries => do
      IO.FS.createDirAll path
      for (name, e) in entries do
        saveDirectories (join path name) e

/-- Writes what has changed back to the file system. -/
def save (before after : Disk) : IO PUnit := do
  let pathOf (place : List String) : String := "/" ++ "/".intercalate place
  let old := before.root.files []
  let new := after.root.files []
  for (place, _) in old do
    if (after.root.get? place).isNone then IO.FS.removeFile (pathOf place)
  saveDirectories "/" after.root
  for (place, bytes) in new do
    if old.lookup place != some bytes then
      IO.FS.writeBinFile (pathOf place) { data := bytes.toArray }

/-- Runs the program in the working directory. -/
def runHere (arguments : List String) : IO Cli.Transcript := do
  let here := (← IO.currentDir).toString
  let d ← loadParents { workingDirectory := here } (join here ".")
  let d := (d.makeDirectories here).1
  let (d, environment) ←
    match Cli.Request.read arguments with
    | .ok (.run command) => loadFor d command
    | _ => pure (d, [])
  let (transcript, after) := Cli.run d environment arguments
  save d after
  return transcript

end Folio

/-- Runs the program with the arguments of the command line. -/
def main (arguments : List String) : IO UInt32 := do
  let transcript ← Folio.runHere arguments
  for line in transcript.results do IO.println line
  for line in transcript.notes do IO.eprintln line
  return UInt32.ofNat transcript.code
