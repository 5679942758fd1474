import Folio.Document.Name
import Folio.Json.Error

/-! Why a document does not compile. Lines are those of the body, counted from one. -/

namespace Folio.Document

/-- Why an attribute has no value. -/
inductive AttributeFault where
  | json (error : Json.Error)
  | keyKind
deriving DecidableEq, Inhabited

/-- Why a document does not compile. -/
inductive CompileError where
  | invalidNames (fault : NameFault)
  | unresolvedImport (name : String) (line : Nat)
  | unknownComponent (name : String) (line : Nat)
  | mismatchedTag (expected found : String) (line : Nat)
  | unclosedTag (name : String) (line : Nat)
  | unexpectedClosingTag (name : String) (line : Nat)
  | invalidAttribute (name : String) (fault : AttributeFault) (line : Nat)
deriving DecidableEq, Inhabited

def AttributeFault.message : AttributeFault → String
  | json error => error.message
  | keyKind => "key must be a string or number"

def NameFault.message : NameFault → String
  | reserved name => "Component name " ++ Text.quoted name ++ " is reserved"
  | notIdentifier name =>
      "Invalid component name " ++ Text.quoted name ++ ": expected an identifier"
  | repeated name => "Component " ++ name ++ " is declared more than once"

namespace CompileError

private def atLine (line : Nat) (text : String) : String :=
  "Line " ++ toString line ++ ": " ++ text

def message : CompileError → String
  | invalidNames fault => fault.message
  | unresolvedImport name line => atLine line ("import of undeclared component " ++ name)
  | unknownComponent name line => atLine line ("unknown component <" ++ name ++ ">")
  | mismatchedTag expected found line =>
      atLine line ("expected </" ++ expected ++ ">, found </" ++ found ++ ">")
  | unclosedTag name line => atLine line ("<" ++ name ++ "> is never closed")
  | unexpectedClosingTag name line => atLine line ("unexpected closing tag </" ++ name ++ ">")
  | invalidAttribute name fault line =>
      atLine line ("invalid value for attribute " ++ name ++ ": " ++ fault.message)

end CompileError

end Folio.Document
