import Folio.Toml.Value

/-! Reading a TOML text. Its expressions are read first; then their keys and values, one after the
other, and each is put where it belongs.
-/

namespace Folio.Toml

open Json (Fields)

def DottedKey.read (k : DottedKey) : Except Error (List Name × Name) := do
  let located (w : Written) : Except Error Name :=
    w.name.map fun name => { span := w.piece.span, value := name }
  return (← k.path.mapM located, ← located k.name)

mutual

def Layout.read : Layout → Except Error (Located Value)
  | .plain written => do
      return { span := written.piece.span, value := .scalar (← written.scalar) }
  | .array span items => do
      return { span, value := .array false (← Layout.readItems items) }
  | .table span entries => do
      let t ← Layout.readEntries { origin := .inline, entries := [] } entries
      return { span, value := t.toValue }

def Layout.readItems : List Layout → Except Error (List (Located Value))
  | [] => .ok []
  | item :: rest => do
      let item ← item.read
      return item :: (← Layout.readItems rest)

/-- Reads the entries of an inline table into a table. -/
def Layout.readEntries (t : Table) : List (DottedKey × Layout) → Except Error Table
  | [] => .ok t
  | (key, value) :: rest => do
      let (path, name) ← key.read
      Layout.readEntries (← t.insert .field path name (← value.read)) rest

end

/-- The header under which entries stand. -/
structure Header where
  inList : Bool
  span : Span
  path : List Name
  name : Name
deriving Inhabited

/-- A document as far as it was read: what stands above the current table, and that table, which has
no header at the start.
-/
structure Document where
  root : Table
  header : Option Header
  current : Table
deriving Inhabited

namespace Document

/-- A table that has its own header, or needs none. -/
def newTable : Table :=
  { origin := .header, entries := [] }

/-- A document of which nothing was read. -/
def empty : Document :=
  { root := newTable, header := none, current := newTable }

/-- Puts a table under the last name of its header. -/
def place (header : Header) (current outer : Table) : Except Error Table :=
  let located : Located Value := { span := header.span, value := current.toValue }
  let name := header.name
  if header.inList then
    match outer.entries.get? name.value with
    | none => .ok (outer.put name.value { span := header.span, value := .array true [located] })
    | some { span, value := .array true items } =>
        .ok (outer.put name.value { span, value := .array true (items ++ [located]) })
    | some _ => .error (Table.duplicate name)
  else .ok (outer.put name.value located)

/-- All tables of a document, with the current one at its place. -/
def tables (d : Document) : Except Error Table :=
  match d.header with
  | none => .ok d.current
  | some header => Table.alter .header (place header d.current) header.path d.root

/-- The table with which a header begins: one that was made for the path of another header goes on.
-/
def opened (root : Table) (header : Header) : Except Error Table := do
  let found ← Table.find header.path root
  match found.bind fun outer => outer.entries.get? header.name.value with
  | none => return newTable
  | some { value := .table .path entries, .. } => return { newTable with entries }
  | some _ => throw (Table.duplicate header.name)

def step (d : Document) : Expression → Except Error Document
  | .entry key value => do
      let (path, name) ← key.read
      let value ← value.read
      return { d with current := ← d.current.insert .entry path name value }
  | .header inList span key => do
      let (path, name) ← key.read
      let root ← d.tables
      let header : Header := { inList, span, path, name }
      let current ← if inList then pure newTable else opened root header
      return { root, header := some header, current }

end Document

def parse (text : String) : Except Error Table := do
  let d ← (← expressions text).foldlM Document.step Document.empty
  d.tables

end Folio.Toml
