import Folio.Cache.Digest
import Folio.Json.Printer
import Folio.Text.Utf8

/-! Fingerprints: what a compiled document depends on, as a short text. Each part is written with
its length in front, so that different parts never make the same bytes.
-/

namespace Folio.Cache

/-- The bytes of a number, the lowest first. -/
def littleEndian : (count : Nat) → Nat → List UInt8
  | 0, _ => []
  | count + 1, n => UInt8.ofNat n :: littleEndian count (n / 256)

/-- The digits of bytes in base 16. -/
def hex (bytes : List UInt8) : String :=
  String.ofList <| bytes.flatMap fun byte =>
    [Json.hexDigit (byte.toNat / 16), Json.hexDigit (byte.toNat % 16)]

/-- A digest of what a compiled document depends on. -/
structure Fingerprint where
  text : String
deriving DecidableEq, Inhabited

namespace Fingerprint

/-- A text with its length in bytes in front. -/
def part (text : String) : List UInt8 :=
  let bytes := Text.utf8 text
  littleEndian 8 bytes.length ++ bytes

/-- All that a compiled document depends on, as bytes: its body, the declared names in order, the
dependencies of the project, and the version of the form of units.
-/
def bytes (body : String) (names : List String) (lockfile : String) (version : UInt32)
    : List UInt8 :=
  part body ++ littleEndian 8 names.length ++ names.flatMap part ++ part lockfile
    ++ littleEndian 4 version.toNat

/-- The fingerprint of what a compiled document depends on. -/
def compute (body : String) (names : List String) (lockfile : String) (version : UInt32)
    : Fingerprint :=
  { text := hex (Digest.sha256 (bytes body names lockfile version)) }

/-- The key under which a cache keeps an entry: the first two digits name a directory. -/
def key (f : Fingerprint) : String :=
  String.ofList (f.text.toList.take 2 ++ '/' :: f.text.toList.drop 2)

end Fingerprint

end Folio.Cache
