import Folio.Json.Value

/-! Trees of files and directories. A place in a tree is the list of the names that lead to it. -/

namespace Folio.Files

open Json (Fields)

abbrev Bytes :=
  List UInt8

/-- A file, or a directory with entries in the order of their names. -/
inductive Entry where
  | file (bytes : Bytes)
  | directory (entries : List (String × Entry))
deriving Inhabited

namespace Entry

/-- A directory without entries. -/
def empty : Entry :=
  .directory []

def isDirectory : Entry → Bool
  | directory _ => true
  | file _ => false

/-- The entries of a directory; a file has none. -/
def entries : Entry → Fields Entry
  | directory entries => entries
  | file _ => []

def get? (e : Entry) : List String → Option Entry
  | [] => some e
  | name :: rest =>
      match e.entries.get? name with
      | some inner => inner.get? rest
      | none => none

/-- The tree with an entry at a place. Directories that lead there are made. -/
def put (e : Entry) (new : Entry) : List String → Entry
  | [] => new
  | name :: rest =>
      .directory (e.entries.insert name (((e.entries.get? name).getD empty).put new rest))

/-- The tree without what is at a place. -/
def erase (e : Entry) : List String → Entry
  | [] => empty
  | [name] => .directory (e.entries.erase name)
  | name :: rest =>
      match e.entries.get? name with
      | some inner => .directory (e.entries.insert name (inner.erase rest))
      | none => e

mutual

/-- The files of a tree with the places where they are, in the order of a walk by names. -/
def files (place : List String) : Entry → List (List String × Bytes)
  | file bytes => [(place, bytes)]
  | directory entries => filesOf place entries

/-- The files of the entries of a directory. -/
def filesOf (place : List String) : List (String × Entry) → List (List String × Bytes)
  | [] => []
  | (name, e) :: rest => e.files (place ++ [name]) ++ filesOf place rest

end

end Entry

end Folio.Files
