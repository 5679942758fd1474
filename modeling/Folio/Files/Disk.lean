import Folio.Files.Error
import Folio.Files.Path
import Folio.Files.Tree
import Folio.Text.Utf8

/-! A disk: a tree of files, the directory in which relative paths begin, and what temporary files
are named after. Each operation finds the place of a path first. All names on the way there have to
be those of directories.
-/

namespace Folio.Files

/-- A tree of files, as a process works on it. -/
structure Disk where
  root : Entry := .empty
  workingDirectory : String := "/"
  /-- The number of the process. -/
  process : UInt32 := 1
  /-- How many temporary files the process has named so far. -/
  temporaries : UInt64 := 0
deriving Inhabited

/-- Where a path leads. -/
structure Place where
  names : List String
  /-- Holds for paths that can only be those of directories. -/
  asDirectory : Bool
deriving DecidableEq, Inhabited

/-- The longest name of an entry, in bytes. -/
def maxNameSize : Nat :=
  255

/-- The longest path, in bytes. -/
def maxPathSize : Nat :=
  4095

namespace Disk

/-- Walks along the pieces of a path from a place. -/
def walk (root : Entry) (place : List String) : List String → Except Error (List String)
  | [] => .ok place
  | piece :: rest =>
      match root.get? place with
      | none => .error .notFound
      | some (.file _) => .error .notADirectory
      | some (.directory _) =>
          if piece == ".." then walk root place.dropLast rest
          else if piece.utf8ByteSize > maxNameSize then .error .nameTooLong
          else walk root (place ++ [piece]) rest

/-- Fails unless there is a directory at a place. -/
def enter (root : Entry) (place : List String) : Except Error Unit :=
  match root.get? place with
  | none => .error .notFound
  | some (.file _) => .error .notADirectory
  | some (.directory _) => .ok ()

/-- The place of a path. There may be nothing yet, unless the path ends in `.`, which only a
directory has.
-/
def locate (d : Disk) (path : String) : Except Error Place :=
  if path.toList.contains '\x00' then .error .nulInPath
  else if path.isEmpty then .error .notFound
  else if path.utf8ByteSize > maxPathSize then .error .nameTooLong
  else do
    let pieces := Path.pieces (Path.join d.workingDirectory path)
    let names ← walk d.root [] (pieces.filter (!Path.isIdle ·))
    if Path.endsHere path then enter d.root names
    return { names, asDirectory := pieces.getLast?.any Path.isIdle }

def find (d : Disk) (path : String) : Except Error Entry := do
  let place ← d.locate path
  match d.root.get? place.names with
  | none => throw .notFound
  | some (.file bytes) => if place.asDirectory then throw .notADirectory else return .file bytes
  | some e => return e

def has (d : Disk) (path : String) : Bool :=
  match d.find path with
  | .ok _ => true
  | .error _ => false

def hasDirectory (d : Disk) (path : String) : Bool :=
  match d.find path with
  | .ok e => e.isDirectory
  | .error _ => false

def hasFile (d : Disk) (path : String) : Bool :=
  match d.find path with
  | .ok e => !e.isDirectory
  | .error _ => false

def read (d : Disk) (path : String) : Except Error Bytes := do
  match ← d.find path with
  | .file bytes => return bytes
  | .directory _ => throw .isADirectory

def readText (d : Disk) (path : String) : Except Error String := do
  match Text.ofUtf8? (← d.read path) with
  | some text => return text
  | none => throw .invalidText

/-- Gives a file its bytes. It is made if need be, and replaced as a whole otherwise. -/
def write (d : Disk) (path : String) (bytes : Bytes) : Except Error Disk := do
  let place ← d.locate path
  match d.root.get? place.names with
  | some (.directory _) => throw .isADirectory
  | some (.file _) => if place.asDirectory then throw .notADirectory
  | none => if place.asDirectory then throw .isADirectory
  return { d with root := d.root.put (.file bytes) place.names }

def makeDirectory (d : Disk) (path : String) : Except Error Disk := do
  let place ← d.locate path
  match d.root.get? place.names with
  | some _ => throw .alreadyExists
  | none => return { d with root := d.root.put .empty place.names }

def ensureDirectory (d : Disk) (path : String) : Except Error Disk :=
  match d.makeDirectory path with
  | .ok d => .ok d
  | .error e => if d.hasDirectory path then .ok d else .error e

/-- Makes the directories of a path that are missing, outer ones first. What was made before an
error stays.
-/
def makeDirectories (d : Disk) (path : String) : Disk × Option Error :=
  make path path.length
where
  /-- Makes a directory, and outer ones as far as room is left. -/
  make (path : String) : (room : Nat) → Disk × Option Error
    | 0 => (d, none)
    | room + 1 =>
        if path.isEmpty then (d, none)
        else
          match d.ensureDirectory path with
          | .ok d => (d, none)
          | .error .notFound =>
              match Path.parent? path with
              | none => (d, some .notFound)
              | some outer =>
                  match make outer room with
                  | (d, some e) => (d, some e)
                  | (d, none) =>
                      match d.ensureDirectory path with
                      | .ok d => (d, none)
                      | .error e => (d, some e)
          | .error e => (d, some e)

/-- The name of the next temporary file. -/
def temporaryName (d : Disk) : String :=
  ".tmp-" ++ toString d.process.toNat ++ "-" ++ toString d.temporaries.toNat

/-- The disk once the next temporary file has its name. -/
def countTemporary (d : Disk) : Disk :=
  { d with temporaries := d.temporaries + 1 }

/-- Takes a file away. -/
def removeFile (d : Disk) (path : String) : Except Error Disk := do
  let place ← d.locate path
  match d.root.get? place.names with
  | none => throw .notFound
  | some (.directory _) => throw .isADirectory
  | some (.file _) =>
      if place.asDirectory then throw .notADirectory
      return { d with root := d.root.erase place.names }

/-- Moves a file to a path. It takes the place of a file that is there, but not of a directory. -/
def moveFile (d : Disk) (source path : String) : Except Error Disk := do
  let old ← d.locate source
  let new ← d.locate path
  match d.root.get? old.names, d.root.get? new.names with
  | none, _ => throw .notFound
  | some (.directory _), _ | _, some (.directory _) => throw .isADirectory
  | some (.file bytes), _ =>
      if old.asDirectory || new.asDirectory then throw .notADirectory
      return { d with root := (d.root.erase old.names).put (.file bytes) new.names }

/-- Takes a directory and all that is in it away. -/
def removeDirectory (d : Disk) (path : String) : Except Error Disk := do
  let place ← d.locate path
  match d.root.get? place.names with
  | none => throw .notFound
  | some (.file _) => throw .notADirectory
  | some (.directory _) => return { d with root := d.root.erase place.names }

end Disk

end Folio.Files
