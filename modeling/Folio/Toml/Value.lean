import Folio.Json.Value
import Folio.Toml.Plain

/-! The values of a TOML text, each with its place. Tables are built entry by entry; how a table
came to be decides what may still be added to it.
-/

namespace Folio.Toml

open Json (Fields)

/-- A value and its place. -/
structure Located (α : Type) where
  span : Span
  value : α
deriving Inhabited

/-- How a table came to be. -/
inductive Origin where
  /-- By its own header. -/
  | header
  /-- As a part of the path of another header. -/
  | path
  /-- As a part of a dotted key. -/
  | dotted
  /-- Between braces. -/
  | inline
deriving DecidableEq, Inhabited

/-- A value. -/
inductive Value where
  | scalar (s : Scalar)
  /-- An array. Headers in double brackets make arrays of tables. -/
  | array (ofTables : Bool) (items : List (Located Value))
  | table (origin : Origin) (entries : List (String × Located Value))
deriving Inhabited

/-- A table. -/
structure Table where
  origin : Origin
  entries : Fields (Located Value)
deriving Inhabited

abbrev Name :=
  Located String

/-- The type of a value, as messages name it. -/
def Value.typeName : Value → String
  | scalar (.text _) => "string"
  | scalar (.boolean _) => "boolean"
  | scalar (.integer _) => "integer"
  | scalar (.real _) => "float"
  | scalar (.moment _) => "datetime"
  | array _ _ => "array"
  | table .inline _ => "inline table"
  | table _ _ => "table"

/-- What leads along a path of names. -/
inductive Way where
  | header
  | entry
  /-- An entry of an inline table. -/
  | field
deriving DecidableEq, Inhabited

/-- How the tables come to be that are made on a way. -/
def Way.origin : Way → Origin
  | header => .path
  | entry | field => .dotted

/-- Why a way cannot lead through a table. Inline tables are closed, and a dotted key must not lead
through tables with headers of their own.
-/
def Way.fault? : Way → Origin → Option Fault
  | .header, .inline | .entry, .inline => some (.notExtensible "inline table")
  | .field, .inline | .field, .header | .entry, .header => some .duplicateKey
  | _, _ => none

def Table.toValue (t : Table) : Value :=
  .table t.origin t.entries

namespace Table

def put (t : Table) (name : String) (value : Located Value) : Table :=
  { t with entries := t.entries.insert name value }

/-- The fault of a name that is already there. -/
def duplicate (name : Name) : Error :=
  { fault := .duplicateKey, span := name.span }

/-- The fault of a name that leads into a value that is no table. -/
def closed (name : Name) (value : Value) : Error :=
  { fault := .notExtensible value.typeName, span := name.span }

/-- Checks that a way leads through a table. -/
def enter (way : Way) (name : Name) (origin : Origin) : Except Error Unit :=
  match way.fault? origin with
  | some fault => .error { fault, span := name.span }
  | none => .ok ()

def changeLast (items : List (Located Value)) (value : Value) : List (Located Value) :=
  match items.reverse with
  | [] => []
  | last :: before => ({ last with value } :: before).reverse

/-- Changes the table at the end of a path. Tables that are missing on the way are made. An array of
tables leads to its last one.
-/
def alter (way : Way) (change : Table → Except Error Table)
    : List Name → Table → Except Error Table
  | [], t => change t
  | name :: path, t =>
      match t.entries.get? name.value with
      | none => do
          let inner ← alter way change path { origin := way.origin, entries := [] }
          return t.put name.value { span := name.span, value := inner.toValue }
      | some { span, value := .array true items } => do
          match items.getLast? with
          | some { value := .table origin entries, .. } =>
              let inner ← alter way change path { origin, entries }
              let items := changeLast items inner.toValue
              return t.put name.value { span, value := .array true items }
          | _ => throw (closed name (.array true items))
      | some { span, value := .table origin entries } => do
          enter way name origin
          let inner ← alter way change path { origin, entries }
          return t.put name.value { span, value := inner.toValue }
      | some { value, .. } => throw (closed name value)

/-- The table at the end of the path of a header, if there is one yet. -/
def find : List Name → Table → Except Error (Option Table)
  | [], t => .ok (some t)
  | name :: path, t =>
      match t.entries.get? name.value with
      | none => .ok none
      | some { value := .array true items, .. } =>
          match items.getLast? with
          | some { value := .table origin entries, .. } => find path { origin, entries }
          | _ => .error (closed name (.array true items))
      | some { value := .table origin entries, .. } => do
          enter .header name origin
          find path { origin, entries }
      | some { value, .. } => .error (closed name value)

/-- The table with an entry under a dotted key. The tables on its path belong to dotted keys alone.
-/
def insert (t : Table) (way : Way) (path : List Name) (name : Name) (value : Located Value)
    : Except Error Table :=
  let add (inner : Table) : Except Error Table :=
    if (inner.origin == .dotted) == path.isEmpty || inner.entries.has name.value then
      .error (duplicate name)
    else .ok (inner.put name.value value)
  alter way add path t

end Table

end Folio.Toml
