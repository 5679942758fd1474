import Folio.Content.Error
import Folio.Content.Metadata
import Folio.Json.Decode

/-! Reading the written forms of paths and of metadata. -/

namespace Folio.Content

/-- Reads the array of the segments of a path. -/
def LogicalPath.ofJson (text : String) : Except Json.Error LogicalPath := do
  let segments ← Json.Decoder.run (Json.Decoder.list Json.Decoder.string) text
  match LogicalPath.ofSegments segments with
  | .ok path => return path
  | .error bad =>
      throw { fault := .invalidValue (StorageError.invalidPath bad).message, position := none }

namespace Metadata

def jsonTexts? : Json.Value → Option (List String)
  | .string s => some [s]
  | .array items => items.mapM Json.Value.asString?
  | _ => none

def decodeTexts (room : Nat) : Json.Decoder (List String) := fun xs => do
  let (v, rest) ← Json.Decoder.value room xs
  match jsonTexts? v with
  | some texts => return (texts, rest)
  | none => Json.Decoder.failHere (.noVariant listType) rest

/-- Reads the value of a name, whose colon was not read yet. -/
def decodeField (room : Nat) (d : Draft Json.Value) (name : String)
    : Json.Decoder (Draft Json.Value) := fun xs =>
  match Field.ofName? name with
  | none => do
      let (_, rest) ← Json.Decoder.colon xs
      let (v, rest) ← Json.Decoder.value room rest
      return (d.keepOther name v, rest)
  | some field =>
      if d.seen.contains field then Json.Decoder.failHere (.duplicateField name) xs
      else do
        let (_, rest) ← Json.Decoder.colon xs
        d.readField field (Json.Decoder.optional Json.Decoder.string)
          (Json.Decoder.optional Json.Decoder.integer) (decodeTexts room) rest

/-- Metadata with the other fields of a draft. -/
def ofJsonDraft (d : Draft Json.Value) : Except Json.Fault Metadata :=
  .ok { d.metadata with extra := Json.Fields.ofList d.others }

/-- Reads the written form of metadata. In its fields `room` containers may nest. -/
def decode (room : Nat) : Json.Decoder Metadata
  | [] => Json.Decoder.failHere .eofInValue []
  | x :: rest =>
      match x.token with
      | .punctuation '\x7b' => Json.Decoder.objectBody (decodeField room) {} ofJsonDraft rest
      | _ => Json.Decoder.failWith (x.typeFault "struct Metadata") rest

end Metadata

end Folio.Content
