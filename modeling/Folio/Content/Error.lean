import Folio.Content.LogicalPath
import Folio.Files.Error
import Folio.Yaml.Value

/-! Why a document cannot be read. -/

namespace Folio.Content

/-- What keeps documents. -/
inductive Backend where
  | files
  | memory
deriving DecidableEq, Inhabited

/-- What is wrong with the metadata of a document. -/
inductive MetadataError where
  | yaml (error : Yaml.Error)
deriving DecidableEq, Inhabited

/-- Why a document cannot be read. -/
inductive StorageError where
  /-- A text that is no path of a document. -/
  | invalidPath (path : String)
  /-- There is no document. -/
  | missing (backend : Backend) (path : String)
  | invalidMetadata (backend : Backend) (path : String) (error : MetadataError)
  | unreadable (backend : Backend) (path : String) (error : Files.Error)
deriving DecidableEq, Inhabited

def Backend.name : Backend → String
  | files => "Fs"
  | memory => "Mock"

def MetadataError.message : MetadataError → String
  | yaml error => "Invalid YAML: " ++ error.message

namespace StorageError

/-- The kinds of errors. -/
inductive Kind where
  | notFound
  | permissionDenied
  | invalidPath
  | invalidMetadata
  | other
deriving DecidableEq, Inhabited

def kind : StorageError → Kind
  | invalidPath _ => .invalidPath
  | missing .. => .notFound
  | invalidMetadata .. => .invalidMetadata
  | unreadable _ _ error => if error == .notFound then .notFound else .other

def Kind.message : Kind → String
  | notFound => "Not found"
  | permissionDenied => "Permission denied"
  | invalidPath => "Invalid path"
  | invalidMetadata => "Invalid frontmatter"
  | other => "Error"

def backend? : StorageError → Option Backend
  | invalidPath _ => none
  | missing backend _ => some backend
  | invalidMetadata backend _ _ => some backend
  | unreadable backend _ _ => some backend

def path : StorageError → String
  | invalidPath path => path
  | missing _ path => path
  | invalidMetadata _ path _ => path
  | unreadable _ path _ => path

def cause? : StorageError → Option String
  | invalidMetadata _ _ error => some error.message
  | unreadable _ _ error => some error.message
  | invalidPath _ | missing .. => none

def message (e : StorageError) : String :=
  let backend := match e.backend? with
    | some backend => "[" ++ backend.name ++ "] "
    | none => ""
  let cause := match e.cause? with
    | some text => ": " ++ text
    | none => ""
  backend ++ e.kind.message ++ cause ++ " (path: " ++ e.path ++ ")"

end StorageError

end Folio.Content
