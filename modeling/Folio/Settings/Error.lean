import Folio.Document.Name
import Folio.Files.Error
import Folio.Toml.Error

/-! Why settings cannot be loaded. -/

namespace Folio.Settings

/-- Why settings cannot be loaded. -/
inductive Error where
  | missing (path : String)
  | files (error : Files.Error)
  | toml (text : String) (error : Toml.Error)
  | names (fault : Document.NameFault)
  | unsetVariable (field name : String)
deriving DecidableEq, Inhabited

/-- What is wrong with the declared names. -/
def nameMessage : Document.NameFault → String
  | .reserved name => name ++ " is reserved"
  | .notIdentifier name => Text.quoted name ++ " is not a valid identifier"
  | .repeated name => name ++ " is declared more than once"

def Error.message : Error → String
  | missing path => "Configuration file not found: " ++ path
  | files error => "I/O error: " ++ error.message
  | toml text error => "TOML parse error: " ++ error.message text
  | names fault => "Configuration error: components.names: " ++ nameMessage fault
  | unsetVariable field name =>
      "Environment variable error in " ++ field ++ ": $\x7b" ++ name ++ "\x7d not set"

end Folio.Settings
