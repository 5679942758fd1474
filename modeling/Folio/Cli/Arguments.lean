import Folio.Text.Lines

/-! Arguments of a command line. The form of a command says which options it knows. Reading sorts
the arguments into values, flags and operands, from the first one to the last; the first one that
does not fit, or that asks for help, ends it.
-/

namespace Folio.Cli

/-- An option of a command. -/
structure Switch where
  name : String
  letter : Option Char := none
  /-- What its value is, if it has one. -/
  value : Option String := none
  about : String
deriving DecidableEq, Inhabited

/-- The form of a command. -/
structure Form where
  name : String
  about : String
  switches : List Switch
  /-- The operand that the command needs, if it needs one, and what is said about it. -/
  operand : Option (String × String) := none
deriving DecidableEq, Inhabited

/-- Why arguments do not fit. -/
inductive UsageError where
  | noCommand
  | unknownCommand (name : String)
  | unknownOption (argument : String)
  | missingValue (name : String)
  | strayValue (name : String)
  | repeated (name : String)
  | strayArgument (argument : String)
deriving DecidableEq, Inhabited

def UsageError.message : UsageError → String
  | noCommand => "a command is required"
  | unknownCommand name => "unknown command '" ++ name ++ "'"
  | unknownOption argument => "unexpected argument '" ++ argument ++ "'"
  | missingValue name => "a value is required for '" ++ name ++ "'"
  | strayValue name => "no value is expected for '" ++ name ++ "'"
  | repeated name => "'" ++ name ++ "' cannot be used more than once"
  | strayArgument argument => "unexpected argument '" ++ argument ++ "'"

/-- Why reading ends before the last argument. -/
inductive Stop where
  | help
  | error (error : UsageError)
deriving DecidableEq, Inhabited

/-- The arguments that were read. -/
structure Arguments where
  values : List (String × String) := []
  flags : List String := []
  operand : Option String := none
deriving DecidableEq, Inhabited

namespace Arguments

def value? (a : Arguments) (name : String) : Option String :=
  a.values.lookup name

/-- Holds for flags that were given. -/
def has (a : Arguments) (name : String) : Bool :=
  a.flags.contains name

/-- The arguments with a value of an option. There is no empty value. -/
def addValue (a : Arguments) (name value : String) : Except Stop Arguments :=
  if value.isEmpty then .error (.error (.missingValue name))
  else if (a.value? name).isSome then .error (.error (.repeated name))
  else .ok { a with values := (name, value) :: a.values }

def addFlag (a : Arguments) (name : String) : Except Stop Arguments :=
  if a.has name then .error (.error (.repeated name))
  else .ok { a with flags := name :: a.flags }

def addOperand (a : Arguments) (form : Form) (argument : String) : Except Stop Arguments :=
  match form.operand, a.operand with
  | some (name, _), none =>
      if argument.isEmpty then .error (.error (.missingValue name))
      else .ok { a with operand := some argument }
  | _, _ => .error (.error (.strayArgument argument))

end Arguments

namespace Form

/-- Reads the letters of an argument after its dash. The last one may be an option whose value is
the rest of the argument, after an equals sign that may be left out, or the next argument.
-/
def readLetters (form : Form) (a : Arguments) : List Char → Except Stop (Arguments × Option Switch)
  | [] => .ok (a, none)
  | c :: rest =>
      match form.switches.find? fun s => s.letter == some c with
      | none =>
          if c == 'h' then .error .help
          else .error (.error (.unknownOption (String.ofList ['-', c])))
      | some s =>
          if s.value.isNone then do readLetters form (← a.addFlag s.name) rest
          else
            match rest with
            | [] => .ok (a, some s)
            | '=' :: value => (a.addValue s.name (String.ofList value)).map (·, none)
            | value => (a.addValue s.name (String.ofList value)).map (·, none)

/-- Reads an option that is given by its name, perhaps with its value after an equals sign. -/
def readName (form : Form) (a : Arguments) (text : List Char)
    : Except Stop (Arguments × Option Switch) :=
  let (name, value) :=
    match Text.splitAtFirst? (· == '=') text with
    | some (name, value) => (String.ofList name, some (String.ofList value))
    | none => (String.ofList text, none)
  match form.switches.find? fun s => s.name == name, value with
  | none, none =>
      if name == "help" then .error .help else .error (.error (.unknownOption ("--" ++ name)))
  | none, some _ =>
      .error (.error (if name == "help" then .strayValue name else .unknownOption ("--" ++ name)))
  | some s, none =>
      if s.value.isNone then (a.addFlag s.name).map (·, none) else .ok (a, some s)
  | some s, some value =>
      if s.value.isNone then .error (.error (.strayValue s.name))
      else (a.addValue s.name value).map (·, none)

/-- Reads an argument that is no value of an option. -/
def readArgument (form : Form) (a : Arguments) (argument : String)
    : Except Stop (Arguments × Option Switch) :=
  match argument.toList with
  | '-' :: '-' :: text => form.readName a text
  | '-' :: c :: letters => form.readLetters a (c :: letters)
  | _ => (a.addOperand form argument).map (·, none)

/-- Reads arguments that follow the one that ends all options. -/
def readOperands (form : Form) (a : Arguments) : List String → Except Stop Arguments
  | [] => .ok a
  | argument :: rest => do readOperands form (← a.addOperand form argument) rest

def looksLikeOption (argument : String) : Bool :=
  match argument.toList with
  | '-' :: _ :: _ => true
  | _ => false

/-- Reads arguments, of which the first one may be the value of an option. -/
def readFrom (form : Form) (a : Arguments) (pending : Option Switch)
    : List String → Except Stop Arguments
  | [] =>
      match pending with
      | some s => .error (.error (.missingValue s.name))
      | none => .ok a
  | argument :: rest =>
      match pending with
      | some s =>
          if looksLikeOption argument then .error (.error (.missingValue s.name))
          else do readFrom form (← a.addValue s.name argument) none rest
      | none =>
          if argument == "--" then form.readOperands a rest
          else do
            let (a, pending) ← form.readArgument a argument
            readFrom form a pending rest

def read (form : Form) (arguments : List String) : Except Stop Arguments := do
  let a ← form.readFrom {} none arguments
  match form.operand, a.operand with
  | some (name, _), none => throw (.error (.missingValue name))
  | _, _ => return a

/-- Lines of two columns, the second one aligned. -/
def columns (rows : List (String × String)) : List String :=
  let width := (rows.map fun row => row.1.length).foldl max 0
  rows.map fun row =>
    "  " ++ row.1 ++ String.ofList (List.replicate (width + 2 - row.1.length) ' ') ++ row.2

/-- How an option is shown. -/
def shown (s : Switch) : String :=
  (match s.letter with
    | some c => String.ofList ['-', c, ',', ' ']
    | none => "    ")
  ++ "--" ++ s.name ++ (match s.value with
    | some value => " <" ++ value ++ ">"
    | none => "")

/-- The option that every command has. -/
def helpSwitch : Switch :=
  { name := "help", letter := some 'h', about := "Print help" }

/-- The lines of help about a command of a program. -/
def help (form : Form) (program : String) : List String :=
  let options := (form.switches ++ [helpSwitch]).map fun s => (shown s, s.about)
  let usage := "Usage: " ++ program ++ " " ++ form.name ++ " [OPTIONS]"
  match form.operand with
  | none => [form.about, "", usage, "", "Options:"] ++ columns options
  | some (name, about) =>
      [form.about, "", usage ++ " <" ++ name ++ ">", "", "Arguments:"]
        ++ columns [("<" ++ name ++ ">", about)] ++ ["", "Options:"] ++ columns options

end Form

end Folio.Cli
