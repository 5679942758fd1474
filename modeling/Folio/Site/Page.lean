import Folio.Cache.Compiler
import Folio.Content.Decode
import Folio.Content.Store
import Folio.Json.Octets
import Folio.Site.Toc
import Folio.Unit.Run

/-! Pages: a document is read, compiled, run as a unit, and parted into content and table of
contents.
-/

namespace Folio.Site

open Content (LogicalPath Metadata StorageError Store)
open Files (Disk)

/-- What is handed over for a page: two written trees, and what is said about the document. -/
structure Payload where
  content : String
  toc : String
  metadata : Metadata
deriving Inhabited

namespace Payload

/-- The written form of a payload. -/
def json (p : Payload) : Json.Value :=
  .object [("content", .string p.content), ("toc", .string p.toc), ("meta", p.metadata.json)]

/-- A payload of which some fields were read. -/
structure Partial where
  content : Option String := none
  toc : Option String := none
  metadata : Option Metadata := none

/-- Holds if a field was read. -/
def Partial.has (p : Partial) : String → Bool
  | "content" => p.content.isSome
  | "toc" => p.toc.isSome
  | "meta" => p.metadata.isSome
  | _ => false

/-- How deep containers may nest in the fields of the metadata of a payload. -/
def metadataRoom : Nat :=
  125

/-- Reads the value of a name, whose colon was not read yet. -/
def decodeField (p : Partial) (name : String) : Json.Decoder Partial := fun xs =>
  if p.has name then Json.Decoder.failHere (.duplicateField name) xs
  else do
    let (_, rest) ← Json.Decoder.colon xs
    match name with
    | "content" =>
        let (s, rest) ← Json.Decoder.string rest
        return ({ p with content := some s }, rest)
    | "toc" =>
        let (s, rest) ← Json.Decoder.string rest
        return ({ p with toc := some s }, rest)
    | "meta" =>
        let (m, rest) ← Metadata.decode metadataRoom rest
        return ({ p with metadata := some m }, rest)
    | _ =>
        let (_, rest) ← Json.Decoder.ignored rest
        return (p, rest)

/-- The payload, if no field is missing. -/
def ofPartial (p : Partial) : Except Json.Fault Payload :=
  match p.content, p.toc, p.metadata with
  | some content, some toc, some metadata => .ok { content, toc, metadata }
  | none, _, _ => .error (.missingField "content")
  | _, none, _ => .error (.missingField "toc")
  | _, _, none => .error (.missingField "meta")

/-- Reads an item of an array that has to have three. -/
def decodeItem (index : Nat) (read : Json.Decoder α) : Json.Decoder α := fun xs => do
  match ← Json.Decoder.nextItem? (index == 0) read xs with
  | (some v, rest) => return (v, rest)
  | (none, rest) =>
      Json.Decoder.failHere (.invalidLength index "struct PagePayload with 3 elements") rest

/-- Reads the fields of a payload as items of an array. -/
def decodeItems : Json.Decoder Payload := fun xs => do
  let (content, rest) ← decodeItem 0 Json.Decoder.string xs
  let (toc, rest) ← decodeItem 1 Json.Decoder.string rest
  let (metadata, rest) ← decodeItem 2 (Metadata.decode metadataRoom) rest
  return ({ content, toc, metadata }, rest)

def decode : Json.Decoder Payload
  | [] => Json.Decoder.failHere .eofInValue []
  | x :: rest =>
      match x.token with
      | .punctuation '\x7b' => Json.Decoder.objectBody decodeField {} ofPartial rest
      | .punctuation '[' => Json.Decoder.arrayBody decodeItems rest
      | _ => Json.Decoder.failWith (x.typeFault "struct PagePayload") rest

/-- Reads the written form of a payload. -/
def ofJson (text : String) : Except Json.Error Payload :=
  Json.Decoder.run decode text

/-- Reads the written form of a payload from bytes. -/
def ofBytes (bytes : Files.Bytes) : Except Json.Error Payload :=
  Json.Decoder.runOn decode (Json.lexemesOf bytes)

end Payload

/-- Why a page cannot be built. -/
inductive BuildError where
  | missing (page : String)
  | storage (error : StorageError)
  | compile (page : String) (error : Document.CompileError)
  | run (page : String) (error : Unit.RunError)
deriving Inhabited

def BuildError.message : BuildError → String
  | missing page => "Document not found: " ++ page
  | storage error => error.message
  | compile page error => "Failed to compile " ++ page ++ ": " ++ error.message
  | run page error => "Failed to execute " ++ page ++ ": " ++ error.message

/-- How pages are built. -/
structure Builder where
  store : Store
  compiler : Cache.Compiler := {}
  /-- The components that documents may use. -/
  names : List String := []
  postprocess : Postprocess := withToc

namespace Builder

/-- The error of a document that cannot be read. -/
def readError (page : String) (e : StorageError) : BuildError :=
  if e.kind == .notFound then .missing page else .storage e

def payload (b : Builder) (path : LogicalPath) (metadata : Metadata) (unit : CompiledUnit)
    : Except BuildError Payload := do
  let tree ← (Unit.run (Unit.Environment.standIns b.names) unit.text).mapError (.run path.display)
  let processed := b.postprocess path tree
  return { content := processed.children.wire.render, toc := processed.toc.wire.render, metadata }

/-- Builds a page. The disk is that of the cache. -/
def page (b : Builder) (d : Disk) (path : LogicalPath) : Except BuildError Payload × Disk :=
  match b.store.read path with
  | .error e => (.error (readError path.display e), d)
  | .ok document =>
      match b.compiler.compile d document.body b.names with
      | (.error e, d) => (.error (.compile path.display e), d)
      | (.ok outcome, d) => (b.payload path document.metadata outcome.unit, d)

end Builder

end Folio.Site
