import Folio.Text.Quoted

/-! Names of components: ASCII identifiers. The name of the grouping element is never one. -/

namespace Folio.Document

/-- Holds for the characters that a component name may start with. -/
def isNameStart (c : Char) : Bool :=
  c.isAlpha || c == '_'

def isNameChar (c : Char) : Bool :=
  c.isAlphanum || c == '_'

/-- Holds for ASCII identifiers. -/
def isComponentName (name : String) : Bool :=
  match name.toList with
  | [] => false
  | c :: rest => isNameStart c && rest.all isNameChar

/-- The name under which groups are written. -/
def groupName : String :=
  "#group"

/-- Why a list of names cannot be declared. -/
inductive NameFault where
  | reserved (name : String)
  | notIdentifier (name : String)
  | repeated (name : String)
deriving DecidableEq, Inhabited

/-- The first fault of a list of names, of which those in `earlier` were declared before. -/
def firstNameFault? (earlier : List String) : List String → Option NameFault
  | [] => none
  | name :: rest =>
      if name == groupName then some (.reserved name)
      else if !isComponentName name then some (.notIdentifier name)
      else if earlier.contains name then some (.repeated name)
      else firstNameFault? (name :: earlier) rest

/-- The first fault of a list of declared names. -/
def nameFault? (names : List String) : Option NameFault :=
  firstNameFault? [] names

end Folio.Document
