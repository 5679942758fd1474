import Folio.Content.Error
import Folio.Content.Frontmatter
import Folio.Content.Metadata
import Folio.Files.Disk

/-! Stores of documents. A store knows which documents there are and reads them by their paths. In
files a document `a/b` is kept as `a/b.md` or else as `a/b/index.md`, and the root as `index.md`;
the extension may be another one.
-/

namespace Folio.Content

/-- A document: where it was found, what is said about it, and its text. -/
structure Document where
  path : LogicalPath
  metadata : Metadata
  body : String
deriving Inhabited

/-- The name of the file for what a directory is about. -/
def indexName : String :=
  "index"

/-- A directory of files that are documents. -/
structure FileStore where
  disk : Files.Disk
  directory : String
  extension : String
deriving Inhabited

/-- Documents as texts under their paths, in the order of the paths. -/
abbrev MemoryStore :=
  List (LogicalPath × String)

/-- Puts a path into an increasing list of paths. -/
def insertPath (path : LogicalPath) : List LogicalPath → List LogicalPath
  | [] => [path]
  | p :: rest =>
      if p = path then p :: rest
      else if path.precedes p then path :: p :: rest
      else p :: insertPath path rest

namespace FileStore

/-- The store of a directory. Dots at the start of the extension say nothing. -/
def ofDirectory (disk : Files.Disk) (directory : String) (extension : String := "md") : FileStore :=
  { disk, directory, extension := String.ofList (extension.toList.dropWhile (· == '.')) }

/-- A file name with the extension of documents. -/
def fileName (s : FileStore) (name : String) : String :=
  name ++ "." ++ s.extension

/-- The files that may hold a document; earlier ones come first. A path that ends in the name of an
index leads to nothing.
-/
def candidates (s : FileStore) (path : LogicalPath) : List String :=
  match path.segments.getLast? with
  | none => [Files.Path.join s.directory (s.fileName indexName)]
  | some last =>
      if last == indexName then []
      else
        let outer := path.segments.dropLast.foldl Files.Path.join s.directory
        [Files.Path.join outer (s.fileName last),
          Files.Path.join (Files.Path.join outer last) (s.fileName indexName)]

/-- The path of the document in a file that is in some directory of the store. -/
def pathOf? (s : FileStore) (place : List String) (name : String) : Option LogicalPath :=
  if name.toList.head? == some '.' || Files.Path.extension? name != some s.extension then none
  else
    let stem := String.ofList (name.toList.take (name.length - (s.extension.length + 1)))
    let segments := if stem == indexName then place else place ++ [stem]
    match LogicalPath.ofSegments segments with
    | .ok path => if path.segments.getLast? == some indexName then none else some path
    | .error _ => none

mutual

/-- The paths of the documents in an entry with a name, in a directory that is read at the path
`directory`. Names that begin with a dot are passed over.
-/
def scanEntry (s : FileStore) (directory : String) (place : List String) (name : String)
    : Files.Entry → Except StorageError (List LogicalPath)
  | .file _ => .ok (s.pathOf? place name).toList
  | .directory entries =>
      if name.toList.head? == some '.' then .ok []
      else
        let path := Files.Path.join directory name
        match s.disk.find path with
        | .ok _ => s.scanEntries path (place ++ [name]) entries
        | .error e => .error (.unreadable .files path e)

/-- The paths of the documents in the entries of a directory. -/
def scanEntries (s : FileStore) (directory : String) (place : List String)
    : List (String × Files.Entry) → Except StorageError (List LogicalPath)
  | [] => .ok []
  | (name, e) :: rest => do
      let first ← s.scanEntry directory place name e
      let later ← s.scanEntries directory place rest
      return first ++ later

end

/-- The paths of all documents in order, each once. -/
def scan (s : FileStore) : Except StorageError (List LogicalPath) :=
  match s.disk.find s.directory with
  | .ok (.directory entries) => do
      let found ← s.scanEntries s.directory [] entries
      return found.foldr insertPath []
  | _ => .error (.missing .files s.directory)

/-- The text of the first file that holds a document. -/
def firstText (s : FileStore) (path : LogicalPath) : List String → Except StorageError String
  | [] => .error (.missing .files path.display)
  | file :: rest =>
      match s.disk.readText file with
      | .ok text => .ok text
      | .error .notFound | .error .notADirectory | .error .isADirectory => s.firstText path rest
      | .error e => .error (.unreadable .files file e)

def text (s : FileStore) (path : LogicalPath) : Except StorageError String :=
  s.firstText path (s.candidates path)

def has (s : FileStore) (path : LogicalPath) : Bool :=
  (s.candidates path).any s.disk.hasFile

end FileStore

namespace MemoryStore

def text? (s : MemoryStore) (path : LogicalPath) : Option String :=
  (s.find? fun entry => entry.1 = path).map (·.2)

def insert (s : MemoryStore) (path : LogicalPath) (text : String) : MemoryStore :=
  match s with
  | [] => [(path, text)]
  | (p, t) :: rest =>
      if p = path then (path, text) :: rest
      else if path.precedes p then (path, text) :: (p, t) :: rest
      else (p, t) :: MemoryStore.insert rest path text

def erase (s : MemoryStore) (path : LogicalPath) : MemoryStore :=
  s.filter fun entry => entry.1 ≠ path

end MemoryStore

/-- What documents are read from. -/
inductive Store where
  | files (store : FileStore)
  | memory (store : MemoryStore)
deriving Inhabited

namespace Store

def backend : Store → Backend
  | files _ => .files
  | memory _ => .memory

/-- The paths of all documents in order, each once. -/
def scan : Store → Except StorageError (List LogicalPath)
  | files s => s.scan
  | memory s => .ok (s.map (·.1))

/-- The text of a document with its frontmatter. -/
def text (s : Store) (path : LogicalPath) : Except StorageError String :=
  match s with
  | files s => s.text path
  | memory s =>
      match s.text? path with
      | some text => .ok text
      | none => .error (.missing .memory path.display)

def has (s : Store) (path : LogicalPath) : Bool :=
  match s with
  | files s => s.has path
  | memory s => (s.text? path).isSome

def document (backend : Backend) (path : LogicalPath) (text : String)
    : Except StorageError Document := do
  let parts := split text.toList
  let metadata ←
    match parts.frontmatter with
    | none => .ok {}
    | some yaml =>
        (Metadata.ofYaml yaml).mapError fun e => .invalidMetadata backend path.display (.yaml e)
  return { path, metadata, body := String.ofList parts.body }

def read (s : Store) (path : LogicalPath) : Except StorageError Document := do
  document s.backend path (← s.text path)

end Store

end Folio.Content
