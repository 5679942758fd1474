import Folio.Json.Decode
import Folio.Text.Lines

/-! Logical paths: what documents are called, whatever keeps them. A path is a list of segments,
none of which can lead out of the content.
-/

namespace Folio.Content

/-- Holds for the texts that may be segments. -/
def isSegment (s : String) : Bool :=
  !s.isEmpty && s != "." && s != ".." && !s.toList.any fun c => c == '/' || c == '\\'

/-- The path of a document. The empty path is the root of the site. -/
structure LogicalPath where
  segments : List String
  valid : ∀ s ∈ segments, isSegment s = true
deriving DecidableEq

namespace LogicalPath

def root : LogicalPath :=
  { segments := [], valid := by simp }

instance : Inhabited LogicalPath :=
  ⟨root⟩

/-- The path of segments, or else the first of them that may not be one. -/
def ofSegments (segments : List String) : Except String LogicalPath :=
  match h : segments.find? fun s => !isSegment s with
  | some bad => .error bad
  | none => .ok { segments, valid := by simpa using h }

/-- A text without the slashes at its ends. -/
def trimSlashes (s : List Char) : List Char :=
  Text.dropEndWhile (· == '/') (s.dropWhile (· == '/'))

/-- The path that a text with slashes between the segments writes. Slashes at its ends say
nothing.
-/
def parse? (text : String) : Option LogicalPath :=
  match trimSlashes text.toList with
  | [] => some root
  | trimmed => (ofSegments ((Text.splitBy (· == '/') trimmed).map String.ofList)).toOption

/-- The segments with slashes between them. -/
def display (p : LogicalPath) : String :=
  "/".intercalate p.segments

def isRoot (p : LogicalPath) : Bool :=
  p.segments.isEmpty

/-- The written form of a path: the array of its segments. -/
def json (p : LogicalPath) : Json.Value :=
  .array (p.segments.map Json.Value.string)

/-- Holds if a path comes before another one: segments are compared from the first one on. -/
def precedes (p q : LogicalPath) : Bool :=
  decide (p.segments < q.segments)

/-- The file of a page: the segments with a file extension, and a name of its own for the root. -/
def payloadFile (p : LogicalPath) : String :=
  if p.isRoot then "index.json" else p.display ++ ".json"

end LogicalPath

end Folio.Content
