import Folio.Cache.Bucket
import Folio.Document.Compile

/-! Compiling with a cache. A unit that was compiled before is taken from the cache; it is known by
the fingerprint of all that it depends on.
-/

namespace Folio.Cache

open Document (CompileError Transform)
open Files (Disk)

/-- How documents are compiled. -/
structure Compiler where
  transforms : List Transform := Transform.standard
  cache : Cache := .disabled
  /-- A text that tells the dependencies of the project. -/
  lockfile : String := ""

/-- A compiled document, and where it came from. -/
structure Outcome where
  unit : CompiledUnit
  fingerprint : Fingerprint
  fromCache : Bool
deriving DecidableEq, Inhabited

def unitBucket : String :=
  "units"

/-- The tag of units: the version of their form. -/
def unitTag : String :=
  toString Unit.formatVersion.toNat

/-- The unit of a fingerprint. What is no unit is missing. -/
def unit? (c : Cache) (d : Disk) (f : Fingerprint) : Option CompiledUnit :=
  (c.getText? d unitBucket f.key unitTag).bind CompiledUnit.ofText?

def setUnit (c : Cache) (d : Disk) (f : Fingerprint) (unit : CompiledUnit) : Disk :=
  c.set d unitBucket f.key unitTag (Text.utf8 unit.text)

namespace Compiler

def fingerprint (c : Compiler) (body : String) (names : List String) : Fingerprint :=
  .compute body names c.lockfile Unit.formatVersion

/-- Compiles a body unless its unit is in the cache. Errors are not kept. -/
def compile (c : Compiler) (d : Disk) (body : String) (names : List String)
    : Except CompileError Outcome × Disk :=
  let fingerprint := c.fingerprint body names
  match c.cache.unit? d fingerprint with
  | some unit => (.ok { unit, fingerprint, fromCache := true }, d)
  | none =>
      match Document.compile c.transforms body names with
      | .error e => (.error e, d)
      | .ok unit =>
          (.ok { unit, fingerprint, fromCache := false }, c.cache.setUnit d fingerprint unit)

end Compiler

end Folio.Cache
