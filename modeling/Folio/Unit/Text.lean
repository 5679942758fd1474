import Folio.Document.Syntax
import Folio.Json.Printer
import Folio.Text.Lines

/-! Units: compiled documents as lines of instructions under a header. -/

namespace Folio.Unit

/-- An instruction of a unit. -/
inductive Instruction where
  | bind (name : String)
  | openTag (name : String)
  | openComponent (name : String)
  | key (key : String)
  | prop (name : String) (value : Json.Value)
  | text (text : String)
  | close

def formatVersion : UInt32 :=
  1

/-- The first line of a unit. -/
def header : String :=
  "#!weave-unit 1"

/-- The word that the line of an instruction starts with. -/
def Instruction.word : Instruction → String
  | bind _ => "import"
  | openTag _ | openComponent _ => "open"
  | key _ => "key"
  | prop _ _ => "prop"
  | text _ => "text"
  | close => "close"

/-- What follows the word, after a blank. -/
def Instruction.argument? : Instruction → Option (List Char)
  | bind name | openTag name => some name.toList
  | openComponent name => some ('@' :: name.toList)
  | key s | text s => some (Json.quote s)
  | prop name value => some (name.toList ++ ' ' :: value.chars)
  | close => none

/-- The line of an instruction without its line end. -/
def Instruction.words (i : Instruction) : List Char :=
  i.word.toList ++ (i.argument?.map (' ' :: ·)).getD []

/-- The line of an instruction, with its line end. -/
def Instruction.line (i : Instruction) : List Char :=
  i.words ++ ['\n']

/-- The instruction that opens an element. -/
def Instruction.opening : Document.Kind → Instruction
  | .tag name => openTag name
  | .component name => openComponent name

mutual

def lower : Document.Node → List Instruction
  | .text t => [.text t]
  | .element kind key attributes children =>
      .opening kind
        :: (key.map Instruction.key).toList
        ++ attributes.map (fun entry => Instruction.prop entry.1 entry.2)
        ++ lowerList children
        ++ [.close]

def lowerList : List Document.Node → List Instruction
  | [] => []
  | node :: rest => lower node ++ lowerList rest

end

/-- The instructions of a document that may use the names as components. -/
def program (names : List String) (nodes : List Document.Node) : List Instruction :=
  names.map Instruction.bind ++ lowerList nodes

/-- The text of a unit with these instructions. -/
def render (instructions : List Instruction) : String :=
  String.ofList (header.toList ++ '\n' :: instructions.flatMap Instruction.line)

end Folio.Unit

namespace Folio

/-- A compiled document: text whose first line is the header of units. -/
structure CompiledUnit where
  text : String
deriving DecidableEq, Inhabited

/-- Takes a text for a unit if its first line is the header. -/
def CompiledUnit.ofText? (text : String) : Option CompiledUnit :=
  if (Text.lines text.toList).head? == some Unit.header.toList then some { text } else none

end Folio
