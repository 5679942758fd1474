import Folio.Cache.Fingerprint
import Folio.Files.Disk

/-! A cache in a directory. Its buckets are directories, and an entry is a file that holds a tag and
a value. Nothing depends on the cache: what cannot be read is missing, and what cannot be written is
left out.
-/

namespace Folio

open Files (Bytes Disk Path.join Path.parent? Path.isPlain)

/-- A cache: none at all, or one in a directory. -/
inductive Cache where
  | disabled
  | directory (root : String)
deriving DecidableEq, Inhabited

namespace Cache

/-- An entry as it is kept: the length of the tag, the tag, and the value. -/
def encodeEntry (tag : String) (value : Bytes) : Bytes :=
  littleEndian 4 (Text.utf8 tag).length ++ Text.utf8 tag ++ value

/-- The most bytes that a tag can have, so that their count is written in four bytes. -/
def maxTagSize : Nat :=
  4294967295

/-- An entry as it is kept, unless its tag is too long. -/
def encoded? (tag : String) (value : Bytes) : Option Bytes :=
  if (Text.utf8 tag).length ≤ maxTagSize then some (encodeEntry tag value) else none

/-- The number that bytes write, the lowest first. -/
def ofLittleEndian : Bytes → Nat
  | [] => 0
  | byte :: rest => byte.toNat + 256 * ofLittleEndian rest

/-- The value of an entry. The tag has to be the same unless none is asked for. -/
def decodeEntry (tag : String) (entry : Bytes) : Option Bytes :=
  if entry.length < 4 then none
  else
    let size := ofLittleEndian (entry.take 4)
    let rest := entry.drop 4
    if rest.length < size then none
    else if tag != "" && rest.take size != Text.utf8 tag then none
    else some (rest.drop size)

def versionFile (root : String) : String :=
  Path.join root "VERSION"

/-- Prepares the directory of a cache. If it does not have the version, all that is in it is taken
away.
-/
def prepare (d : Disk) (root version : String) : Disk :=
  if (d.readText (versionFile root)).toOption == some version then d
  else
    let cleared := ((if d.has root then d.removeDirectory root else .ok d).toOption).getD d
    match cleared.makeDirectories root with
    | (d, some _) => d
    | (d, none) => ((d.write (versionFile root) (Text.utf8 version)).toOption).getD d

/-- The file of a key. Keys that might lead out of the bucket have none. -/
def entryPath? (root bucket key : String) : Option String :=
  if Path.isPlain key then some (Path.join (Path.join root bucket) key) else none

/-- The value under a key, if it was stored with the tag. With an empty tag any value will do. -/
def get? (c : Cache) (d : Disk) (bucket key tag : String) : Option Bytes :=
  match c with
  | disabled => none
  | directory root => do decodeEntry tag (← (d.read (← entryPath? root bucket key)).toOption)

def getText? (c : Cache) (d : Disk) (bucket key tag : String) : Option String :=
  (c.get? d bucket key tag).bind Text.ofUtf8?

/-- Gives a file its bytes by way of a temporary file in the same directory, which is then moved to
the path. A temporary file that cannot be moved is taken away.
-/
def replaceFile (d : Disk) (directory path : String) (bytes : Bytes) : Disk :=
  let temporary := Path.join directory d.temporaryName
  let named := d.countTemporary
  match named.write temporary bytes with
  | .error _ => ((named.removeFile temporary).toOption).getD named
  | .ok written =>
      match written.moveFile temporary path with
      | .ok moved => moved
      | .error _ => ((written.removeFile temporary).toOption).getD written

/-- Makes the directories that lead to the file of an entry, and writes the entry if there is one.
-/
def writeEntry (d : Disk) (path : String) (encoded : Option Bytes) : Disk :=
  match Path.parent? path with
  | none => d
  | some outer =>
      match d.makeDirectories outer with
      | (d, some _) => d
      | (d, none) =>
          match encoded with
          | none => d
          | some entry => replaceFile d outer path entry

/-- Stores a value under a key. -/
def set (c : Cache) (d : Disk) (bucket key tag : String) (value : Bytes) : Disk :=
  match c with
  | disabled => d
  | directory root =>
      match entryPath? root bucket key with
      | none => d
      | some path => writeEntry d path (encoded? tag value)

end Cache

end Folio
