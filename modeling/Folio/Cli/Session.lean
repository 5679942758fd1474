import Folio.Cli.Request
import Folio.Live.Hydration
import Folio.Live.Rendering
import Folio.Site.Report

/-! Running commands. A session keeps the disk and what was said so far, also when it ends with an
error: results are for who asked, notes are about the run.
-/

namespace Folio.Cli

open Content (FileStore LogicalPath StorageError)
open Files (Bytes Disk)
open Files.Path (join)
open Settings (Overrides Project Variables)

/-- Why a command fails. -/
inductive CommandError where
  | settings (error : Settings.Error)
  | files (error : Files.Error)
  | storage (error : StorageError)
  | write (error : Site.WriteError)
  | payload (error : Json.Error)
  | hydration (error : Live.HydrationError)
  | failedPages (count : Nat)

def CommandError.message : CommandError → String
  | settings error => error.message
  | files error => error.message
  | storage error => error.message
  | write error => error.message
  | payload error => "Invalid page payload: " ++ error.message
  | hydration error => error.message
  | failedPages count => toString count ++ " page(s) failed to build"

/-- The disk, and what was said so far, last line first. -/
structure State where
  disk : Disk
  environment : Variables
  results : List String := []
  notes : List String := []
deriving Inhabited

/-- A run of a command. What it did before an error stays done. -/
abbrev Session :=
  ExceptT CommandError (StateM State)

namespace Session

/-- Says a line about the run. -/
def note (line : String) : Session PUnit :=
  modify fun s => { s with notes := line :: s.notes }

def result (line : String) : Session PUnit :=
  modify fun s => { s with results := line :: s.results }

/-- The value of a result that may be an error. -/
def lift (error : ε → CommandError) (r : Except ε α) : Session α :=
  match r with
  | .ok v => pure v
  | .error e => throw (error e)

/-- Puts another disk in place, and fails if there was an error. -/
def settle (error : ε → CommandError) (r : Disk × Option ε) : Session PUnit := do
  modify fun s => { s with disk := r.1 }
  match r.2 with
  | some e => throw (error e)
  | none => pure ⟨⟩

/-- Loads the settings. -/
def project (file : Option String) (overrides : Overrides) : Session Project := do
  let s ← get
  lift .settings (Project.load s.disk s.environment file overrides)

end Session

open Session

/-- What keeps the data of a project out of version control. -/
def ignoreFile : String :=
  "# Automatically created by weave\n*\n"

/-- Makes the directory of a project, with a file that keeps it out of version control. -/
def ensureDirectory (directory : String) : Session PUnit := do
  settle .files ((← get).disk.makeDirectories directory)
  let path := join directory ".gitignore"
  modify fun s =>
    if s.disk.has path then s
    else { s with disk := ((s.disk.write path (Text.utf8 ignoreFile)).toOption).getD s.disk }

/-- Opens the cache of a project, if it has one. -/
def openCache (p : Project) : Session Cache := do
  if p.cacheEnabled then
    ensureDirectory p.directory
    note ("Cache directory: " ++ p.cacheDirectory)
    modify fun s => { s with disk := Cache.prepare s.disk p.cacheDirectory version }
    return .directory p.cacheDirectory
  else
    note "Cache: disabled"
    return .disabled

/-- A path as it is shown, from the root on. -/
def shownPath (path : LogicalPath) : String :=
  "/" ++ path.display

def storeOf (d : Disk) (p : Project) : Content.Store :=
  .files (.ofDirectory d p.sourceDirectory)

/-- Builds all pages and writes them. Pages that were built are written even if others fail. -/
def runBuild (file : Option String) (overrides : Overrides) : Session PUnit := do
  let p ← project file overrides
  note ("Source: " ++ p.sourceDirectory)
  note ("Output: " ++ p.outputDirectory)
  let cache ← openCache p
  let d := (← get).disk
  let builder : Site.Builder := {
    store := storeOf d p
    compiler := { cache, lockfile := p.snapshot d }
    names := p.names }
  let (report, d) ← lift .storage (builder.site d)
  settle .write (report.writeTo d p.outputDirectory)
  for (path, error) in report.failures do
    note ("  " ++ shownPath path ++ ": " ++ error.message)
  if !report.isSuccess then throw (.failedPages report.failures.length)
  note ("Built " ++ toString report.pages.length ++ " page(s) to " ++ p.outputDirectory)

def pathLine (asJson : Bool) (path : LogicalPath) : String :=
  if asJson then
    Json.Value.render (.object [("path", .string path.display), ("segments", path.json)])
  else shownPath path

/-- Lists the paths of the documents. -/
def runPaths (file : Option String) (overrides : Overrides) (asJson : Bool) : Session PUnit := do
  let p ← project file overrides
  let paths ← lift .storage ((storeOf (← get).disk p).scan)
  for path in paths do
    result (pathLine asJson path)
  note (toString paths.length ++ " document(s)")

/-- How declared components are drawn: as a division that is named for the component. -/
def drawDivision : Live.Drawing String := fun name _ children =>
  "<div class=\"component-".toList ++ Html.kebabCase name.toList ++ "\" data-component=\"".toList
    ++ Html.escape name.toList ++ "\">".toList ++ children ++ "</div>".toList

def registryOf (names : List String) : Live.Registry String :=
  Json.Fields.ofList (names.map fun name => (name, name))

/-- The entry of a table of contents as a link. -/
def linkHtml (entry : Json.Fields (Live.Node String)) : List Char :=
  let text (name : String) : List Char :=
    (((entry.get? name).bind Tree.Node.asString?).getD "").toList
  let depth :=
    match entry.get? "depth" with
    | some (.number n) => n.text
    | _ => []
  "<a href=\"".toList ++ Html.escape (text "url") ++ "\" data-depth=\"".toList ++ depth
    ++ "\">".toList ++ Html.escape (text "text") ++ "</a>".toList

/-- A table of contents as HTML. Items that are no entries are left out. -/
def tocHtml (toc : Live.Node String) : List Char :=
  match toc with
  | .list (item :: rest) =>
      let links := (item :: rest).flatMap fun
        | .map entry => linkHtml entry
        | _ => []
      "<nav class=\"toc\">".toList ++ links ++ "</nav>".toList
  | _ => []

/-- Shows the page of a payload as HTML. -/
def runRender (file : Option String) (payload : String) (withToc : Bool) : Session PUnit := do
  let p ← project file {}
  let registry := registryOf p.names
  let bytes ← lift .files ((← get).disk.read payload)
  let payload ← lift .payload (Site.Payload.ofBytes bytes)
  let (content, unknown) ← lift .hydration (Live.read registry payload.content)
  for name in unknown do
    note ("Warning: " ++ Live.warningText name)
  let toc ←
    if withToc then do
      let (toc, _) ← lift .hydration (Live.read registry payload.toc)
      pure (tocHtml toc)
    else pure []
  result (String.ofList (toc ++ Live.html drawDivision content))

def Command.run : Command → Session PUnit
  | build file overrides _ => runBuild file overrides
  | paths file overrides asJson => runPaths file overrides asJson
  | render file payload withToc => runRender file payload withToc

/-- What a run of the program leaves: what it says, in lines, and how it ends. -/
structure Transcript where
  results : List String
  notes : List String
  code : Nat
deriving DecidableEq, Inhabited

def run (d : Disk) (environment : Variables) (arguments : List String) : Transcript × Disk :=
  match Request.read arguments with
  | .error e => ({ results := [], notes := ["error: " ++ e.message], code := 2 }, d)
  | .ok (.show lines) => ({ results := lines, notes := [], code := 0 }, d)
  | .ok (.run command) =>
      let (result, s) := command.run.run { disk := d, environment }
      let transcript (notes : List String) (code : Nat) : Transcript :=
        { results := s.results.reverse, notes := notes.reverse, code }
      match result with
      | .ok _ => (transcript s.notes 0, s.disk)
      | .error e => (transcript (("Error: " ++ e.message) :: s.notes) 1, s.disk)

end Folio.Cli
