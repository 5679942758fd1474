import Folio.Json.Reader
import Folio.Text.Lines
import Folio.Text.Quoted
import Folio.Unit.Text

/-! Reading the instructions of a unit from its lines. -/

namespace Folio.Unit

/-- What is wrong with the argument of an instruction. -/
inductive ArgumentFault where
  | json (error : Json.Error)
  | noTagName
  | noNameAndValue
deriving DecidableEq, Inhabited

def ArgumentFault.message : ArgumentFault → String
  | json error => error.message
  | noTagName => "expected a tag name"
  | noNameAndValue => "expected a name and a value"

/-- Why a line is no instruction. -/
inductive LineFault where
  | unknownInstruction (name : String)
  | malformedArgument (instruction : String) (fault : ArgumentFault)
deriving DecidableEq, Inhabited

/-- The text before the first blank, and the text after it. -/
def splitAtBlank? (s : List Char) : Option (List Char × List Char) :=
  Text.splitAtFirst? (· == ' ') s

def stringArgument (instruction : String) (argument : List Char) : Except LineFault String :=
  (Json.parseString (String.ofList argument)).mapError fun e =>
    .malformedArgument instruction (.json e)

/-- Reads the argument of `open`: a component has an at sign before its name. -/
def openArgument (argument : List Char) : Except LineFault Instruction :=
  match argument with
  | '@' :: name => .ok (.openComponent (String.ofList name))
  | name =>
      if name.isEmpty || name.any Text.isBlank then
        .error (.malformedArgument "open" .noTagName)
      else .ok (.openTag (String.ofList name))

/-- Reads the argument of `prop`: a name, a blank and a JSON value. -/
def propArgument (argument : List Char) : Except LineFault Instruction :=
  match splitAtBlank? argument with
  | none => .error (.malformedArgument "prop" .noNameAndValue)
  | some (name, value) =>
      match Json.parse (String.ofList value) with
      | .ok value => .ok (.prop (String.ofList name) value)
      | .error e => .error (.malformedArgument "prop" (.json e))

/-- The instruction that starts with a word, of what follows the word. -/
def Instruction.ofWord (word : String) (argument : List Char) : Except LineFault Instruction :=
  match word with
  | "import" => .ok (.bind (String.ofList argument))
  | "open" => openArgument argument
  | "key" => (stringArgument "key" argument).map .key
  | "prop" => propArgument argument
  | "text" => (stringArgument "text" argument).map .text
  | "close" => .ok .close
  | other => .error (.unknownInstruction other)

def Instruction.ofLine (line : List Char) : Except LineFault Instruction :=
  let (word, argument) := (splitAtBlank? line).getD (line, [])
  ofWord (String.ofList word) argument

end Folio.Unit
