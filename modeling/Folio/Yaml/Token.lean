import Folio.Yaml.Cursor

/-! The tokens of a YAML text. -/

namespace Folio.Yaml

/-- How a scalar is written. -/
inductive Style where
  | plain
  | singleQuoted
  | doubleQuoted
  | literal
  | folded
deriving DecidableEq, Inhabited

/-- A tag as it is written: a handle and what follows it. -/
structure WrittenTag where
  handle : String
  suffix : String
deriving DecidableEq, Inhabited

/-- A token without its place. -/
inductive Token where
  | streamStart
  | streamEnd
  | versionDirective (major minor : Nat)
  | tagDirective (handle lead : String)
  | documentStart
  | documentEnd
  | blockSequenceStart
  | blockMappingStart
  | blockEnd
  | flowSequenceStart
  | flowSequenceEnd
  | flowMappingStart
  | flowMappingEnd
  | blockEntry
  | flowEntry
  | key
  | value
  | aliasOf (name : String)
  | anchor (name : String)
  | tag (tag : WrittenTag)
  | scalar (text : String) (style : Style)
deriving DecidableEq, Inhabited

/-- A token with the places where it starts and ends. -/
structure PlacedToken where
  token : Token
  start : Mark
  stop : Mark
deriving DecidableEq, Inhabited

end Folio.Yaml
