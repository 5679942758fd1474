import Folio.Cli.Arguments
import Folio.Settings.Project

/-! What a command line asks for: one of three commands, help, or the version. -/

namespace Folio.Cli

open Settings (Overrides)

/-- The kinds of commands. -/
inductive CommandKind where
  | build
  | paths
  | render
deriving DecidableEq, Inhabited

/-- A command. -/
inductive Command where
  | build (file : Option String) (overrides : Overrides) (verbose : Bool)
  | paths (file : Option String) (overrides : Overrides) (asJson : Bool)
  | render (file : Option String) (payload : String) (withToc : Bool)
deriving DecidableEq, Inhabited

/-- What is asked for. -/
inductive Request where
  | run (command : Command)
  /-- Lines of text, as they are. -/
  | show (lines : List String)
deriving DecidableEq, Inhabited

def programName : String :=
  "weave"

def version : String :=
  "0.1.0"

/-- The option for the file of settings. -/
def configSwitch : Switch :=
  { name := "config", letter := some 'c', value := some "CONFIG"
    about := "Path to configuration file (default: auto-discover weave.toml)" }

/-- The option for the directory of the documents. -/
def sourceSwitch : Switch :=
  { name := "source-dir", letter := some 's', value := some "SOURCE_DIR"
    about := "Content source directory (overrides config)" }

/-- The form of the command that builds all pages. -/
def buildForm : Form where
  name := "build"
  about := "Build page payloads for every document"
  switches := [
    configSwitch,
    sourceSwitch,
    { name := "output-dir", letter := some 'o', value := some "OUTPUT_DIR"
      about := "Output directory for page payloads (overrides config)" },
    { name := "no-cache", about := "Disable the compiled unit cache" },
    { name := "verbose", letter := some 'v'
      about := "Enable verbose output (cache and build logs)" }]

/-- The form of the command that lists what is built. -/
def pathsForm : Form where
  name := "paths"
  about := "List build targets"
  switches := [
    configSwitch,
    sourceSwitch,
    { name := "json", about := "Print one JSON record per line instead of plain paths" }]

/-- The form of the command that shows a page. -/
def renderForm : Form where
  name := "render"
  about := "Render a page payload to HTML"
  switches := [
    configSwitch,
    { name := "toc", about := "Prepend the table of contents as a \x60<nav>\x60 element" }]
  operand := some ("PAYLOAD", "Page payload produced by \x60weave build\x60")

def CommandKind.form : CommandKind → Form
  | build => buildForm
  | paths => pathsForm
  | render => renderForm

def CommandKind.all : List CommandKind :=
  [build, paths, render]

def CommandKind.ofName? (name : String) : Option CommandKind :=
  all.find? fun kind => kind.form.name == name

def helpName : String :=
  "help"

/-- What is said about the command that gives help. -/
def helpAbout : String :=
  "Print this message or the help of the given subcommand(s)"

/-- The lines of help about the program. -/
def programHelp : List String :=
  ["docweave - document compile-and-transport pipeline CLI", "",
    "Usage: " ++ programName ++ " <COMMAND>", "", "Commands:"]
  ++ Form.columns
      ((CommandKind.all.map fun kind => (kind.form.name, kind.form.about))
        ++ [(helpName, helpAbout)])
  ++ ["", "Options:"]
  ++ Form.columns [("-h, --help", "Print help"), ("-V, --version", "Print version")]

/-- The lines of help about the command that gives help. -/
def helpHelp : List String :=
  [helpAbout, "", "Usage: " ++ programName ++ " " ++ helpName ++ " [COMMAND]...", "", "Arguments:",
    "  [COMMAND]...  Print help for the subcommand(s)"]

def Command.ofArguments (kind : CommandKind) (a : Arguments) : Command :=
  let file := a.value? "config"
  let overrides : Overrides := {
    sourceDirectory := a.value? "source-dir"
    outputDirectory := a.value? "output-dir"
    cacheEnabled := if a.has "no-cache" then some false else none }
  match kind with
  | .build => .build file overrides (a.has "verbose")
  | .paths => .paths file overrides (a.has "json")
  | .render => .render file (a.operand.getD "") (a.has "toc")

/-- Reads the names after the command that gives help. -/
def readHelp : List String → Except UsageError Request
  | [] => .ok (.show programHelp)
  | name :: rest =>
      match CommandKind.ofName? name, rest with
      | some kind, [] => .ok (.show (kind.form.help programName))
      | some _, other :: _ => .error (.unknownCommand other)
      | none, [] =>
          if name == helpName then .ok (.show helpHelp) else .error (.unknownCommand name)
      | none, _ => .error (.unknownCommand name)

/-- Reads the arguments of a command line. -/
def Request.read : List String → Except UsageError Request
  | [] => .error .noCommand
  | argument :: rest =>
      match argument.toList with
      | '-' :: 'h' :: _ => .ok (.show programHelp)
      | '-' :: 'V' :: _ => .ok (.show [programName ++ " " ++ version])
      | _ =>
          if argument == "--help" then .ok (.show programHelp)
          else if argument == "--version" then .ok (.show [programName ++ " " ++ version])
          else if argument == helpName then readHelp rest
          else
            match CommandKind.ofName? argument with
            | none => .error (.unknownCommand argument)
            | some kind =>
                match kind.form.read rest with
                | .ok a => .ok (.run (Command.ofArguments kind a))
                | .error .help => .ok (.show (kind.form.help programName))
                | .error (.error e) => .error e

end Folio.Cli
