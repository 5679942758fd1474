import Folio.Yaml.Document
import Folio.Yaml.Resolve

/-! Values read from a document, part by part. A fault is noticed where it stands, before anything
is known of what follows. Errors name the place and the path to it.
-/

namespace Folio.Yaml

/-- A value of a document. -/
inductive Value where
  | null
  | bool (value : Bool)
  | integer (value : Int)
  | real (value : Number.Binary64)
  | text (text : String)
  | list (items : List Value)
  | map (entries : List (Value × Value))
deriving Inhabited

/-- What is wrong with a value. -/
inductive ValueFault where
  | invalidType (found expected : String)
  | invalidValue (found expected : String)
  | duplicateField (name : String)
  | noVariant (name : String)
  /-- A tag of its own makes a node a variant of some type. -/
  | unexpectedTag
deriving DecidableEq, Inhabited

def ValueFault.message : ValueFault → String
  | invalidType found expected => "invalid type: " ++ found ++ ", expected " ++ expected
  | invalidValue found expected => "invalid value: " ++ found ++ ", expected " ++ expected
  | duplicateField name => "duplicate field \x60" ++ name ++ "\x60"
  | noVariant name => "data did not match any variant of untagged enum " ++ name
  | unexpectedTag => "untagged and internally tagged enums do not support enum input"

/-- Where a value stands in a document. -/
inductive Path where
  | root
  | item (outer : Path) (index : Nat)
  | field (outer : Path) (name : String)
  /-- The value of a key that is no scalar. -/
  | unknown (outer : Path)
deriving DecidableEq, Inhabited

/-- A path as messages show it. -/
def Path.text : Path → String
  | root => "."
  | item outer index => outer.text ++ "[" ++ toString index ++ "]"
  | field root name => name
  | field outer name => outer.text ++ "." ++ name
  | unknown root => "?"
  | unknown outer => outer.text ++ ".?"

/-- Why a document cannot be read. -/
inductive Error where
  | load (error : LoadError)
  | fault (fault : ValueFault) (location : Option (Mark × Path))
  | endOfStream
  | moreDocuments
  | recursionLimit (mark : Mark)
  | repetitionLimit
deriving DecidableEq, Inhabited

def Error.message : Error → String
  | load (.malformed error) => error.message
  | load (.unknownAnchor mark) => "unknown anchor" ++ mark.suffix
  | fault what none => what.message
  | fault what (some (mark, path)) =>
      (match path with
        | .root => ""
        | path => path.text ++ ": ") ++ what.message ++ mark.suffix
  | endOfStream => "EOF while parsing a value"
  | moreDocuments => "deserializing from YAML containing more than one document is not supported"
  | recursionLimit mark => "recursion limit exceeded" ++ mark.suffix
  | repetitionLimit => "repetition limit exceeded"

/-- Gives a fault that has no place yet the place of a part. -/
def Error.locate (mark : Mark) (path : Path) : Error → Error
  | fault what none => fault what (some (mark, path))
  | error => error

/-- A place in a document, and how many aliases were followed so far. -/
structure Reader where
  document : Document
  position : Nat := 0
  jumps : Nat := 0
deriving Inhabited

namespace Reader

/-- The part at the current place. -/
def peek (r : Reader) : Except Error (Part × Mark) :=
  match r.document.parts[r.position]? with
  | some part => .ok part
  | none =>
      match r.document.error with
      | some error => .error (.load error)
      | none => .error .endOfStream

/-- The reader after the part at the current place. -/
def next (r : Reader) : Reader :=
  { r with position := r.position + 1 }

/-- The reader at the node that an alias stands for. How many may be followed depends on the size of
the document.
-/
def jump (r : Reader) (anchor : Nat) : Except Error Reader :=
  if r.jumps + 1 > r.document.parts.size * 100 then .error .repetitionLimit
  else
    match r.document.anchors.find? fun entry => entry.1 == anchor with
    | some entry => .ok { r with position := entry.2, jumps := r.jumps + 1 }
    | none => .error .endOfStream

/-- The reader after an alias whose content was read. -/
def backFrom (r : Reader) (inner : Reader) : Reader :=
  { r.next with jumps := inner.jumps }

/-- How deep collections may nest. -/
def maxDepth : Nat :=
  128

/-- More steps than a document can take, whatever aliases stand in it. -/
def room (r : Reader) : Nat :=
  (maxDepth + 2) * (r.document.parts.size + 2)

end Reader

/-- The full form of the tag of a kind of scalar. -/
def coreTag (name : String) : String :=
  "tag:yaml.org,2002:" ++ name

/-- Holds for tags that make a node a variant of some type. -/
def isVariantTag (tag : Option String) : Bool :=
  tag.any fun tag => tag.toList.head? == some '!'

/-- What a scalar with a tag is read as. -/
def resolveTagged (tag text : String) (style : Style) : Except ValueFault Resolved :=
  let shown := "string " ++ Text.quoted text
  if tag == coreTag "bool" then
    match boolWord? text with
    | some b => .ok (.bool b)
    | none => .error (.invalidValue shown "a boolean")
  else if tag == coreTag "int" then
    match boundedInteger? text.toList with
    | some n => .ok (.integer n)
    | none => .error (.invalidValue shown "an integer")
  else if tag == coreTag "float" then
    match real? text with
    | some x => .ok (.real x)
    | none => .error (.invalidValue shown "a float")
  else if tag == coreTag "null" then
    if isNullWord text then .ok .null else .error (.invalidValue shown "null")
  else if isVariantTag (some tag) && style == .plain then .ok (resolvePlain text)
  else .ok (.text text)

/-- What a scalar is read as. -/
def resolve (tag : Option String) (text : String) (style : Style) : Except ValueFault Resolved :=
  match tag with
  | some tag => resolveTagged tag text style
  | none => .ok (if style == .plain then resolvePlain text else .text text)

def typeFault (part : Part) (expected : String) : Error :=
  let found (name : String) : Error := .fault (.invalidType name expected) none
  match part with
  | .scalar tag text style =>
      match resolve tag text style with
      | .ok resolved => found resolved.named
      | .error fault => .fault fault none
  | .sequenceStart _ | .sequenceEnd => found "sequence"
  | .mappingStart _ | .mappingEnd => found "map"
  | .aliasOf _ | .void => .endOfStream

/-- The value of a scalar. Integers have at most 64 bits. -/
def scalarValue (tag : Option String) (text : String) (style : Style) : Except Error Value :=
  if isVariantTag tag then .error (.fault .unexpectedTag none)
  else
    match resolve tag text style with
    | .error fault => .error (.fault fault none)
    | .ok .null => .ok .null
    | .ok (.bool b) => .ok (.bool b)
    | .ok (.integer n) =>
        if Number.fits64 n then .ok (.integer n)
        else .error (.fault (.invalidType (integerText n) "any value") none)
    | .ok (.real x) => .ok (.real x)
    | .ok (.text text) => .ok (.text text)

/-- Gives the faults of a result the place of a part. -/
def located (mark : Mark) (path : Path) (result : Except Error α) : Except Error α :=
  result.mapError (Error.locate mark path)

def Path.ofKey (outer : Path) (key : Part) : Path :=
  match key with
  | .scalar _ text _ => .field outer text
  | _ => .unknown outer

mutual

def readValue (depth : Nat) (path : Path) (r : Reader)
    : (room : Nat) → Except Error (Value × Reader)
  | 0 => .error .endOfStream
  | room + 1 => do
      let (part, mark) ← r.peek
      located mark path <|
        match part with
        | .aliasOf anchor => do
            let (v, inner) ← readValue depth path (← r.jump anchor) room
            return (v, r.backFrom inner)
        | .scalar tag text style => (scalarValue tag text style).map fun v => (v, r.next)
        | .sequenceStart tag =>
            if isVariantTag tag then .error (.fault .unexpectedTag none)
            else if depth == 0 then .error (.recursionLimit mark)
            else
              (readItems (depth - 1) path 0 r.next room).map fun (items, r) => (.list items, r)
        | .mappingStart tag =>
            if isVariantTag tag then .error (.fault .unexpectedTag none)
            else if depth == 0 then .error (.recursionLimit mark)
            else
              (readEntries (depth - 1) path r.next room).map fun (entries, r) => (.map entries, r)
        | .void | .sequenceEnd | .mappingEnd => .ok (.null, r.next)
termination_by structural room => room

/-- Reads the items of a list up to its end. -/
def readItems (depth : Nat) (path : Path) (index : Nat) (r : Reader)
    : (room : Nat) → Except Error (List Value × Reader)
  | 0 => .error .endOfStream
  | room + 1 => do
      match (← r.peek).1 with
      | .sequenceEnd => return ([], r.next)
      | _ =>
          let (v, r) ← readValue depth (.item path index) r room
          let (items, r) ← readItems depth path (index + 1) r room
          return (v :: items, r)
termination_by structural room => room

/-- Reads the entries of a map up to its end. -/
def readEntries (depth : Nat) (path : Path) (r : Reader)
    : (room : Nat) → Except Error (List (Value × Value) × Reader)
  | 0 => .error .endOfStream
  | room + 1 => do
      match (← r.peek).1 with
      | .mappingEnd => return ([], r.next)
      | part =>
          let (key, r) ← readValue depth path r room
          let (v, r) ← readValue depth (path.ofKey part) r room
          let (entries, r) ← readEntries depth path r room
          return ((key, v) :: entries, r)
termination_by structural room => room

end

/-- Reads a text. Any scalar is one, as it is written. -/
def readText (expected : String) (path : Path) (r : Reader)
    : (room : Nat) → Except Error (String × Reader)
  | 0 => .error .endOfStream
  | room + 1 => do
      let (part, mark) ← r.peek
      located mark path <|
        match part with
        | .scalar _ text _ => .ok (text, r.next)
        | .aliasOf anchor => do
            let (text, inner) ← readText expected path (← r.jump anchor) room
            return (text, r.backFrom inner)
        | part => .error (typeFault part expected)

/-- Reads an integer of 64 bits with a sign. -/
def readInteger (path : Path) (r : Reader) : (room : Nat) → Except Error (Int × Reader)
  | 0 => .error .endOfStream
  | room + 1 => do
      let (part, mark) ← r.peek
      located mark path <|
        match part with
        | .aliasOf anchor => do
            let (n, inner) ← readInteger path (← r.jump anchor) room
            return (n, r.backFrom inner)
        | .scalar tag text style =>
            let mayBe := style == .plain || (style == .literal && tag == some (coreTag "int"))
            match if mayBe then integer? text.toList else none with
            | some n =>
                if Number.fitsSigned64 n then .ok (n, r.next)
                else .error (typeFault part "i64")
            | none => .error (typeFault part "i64")
        | part => .error (typeFault part "i64")

/-- Reads what may be missing. Nothing is written as an empty plain scalar or as a word for it. -/
def readOptional (read : Reader → Except Error (α × Reader)) (r : Reader)
    : (room : Nat) → Except Error (Option α × Reader)
  | 0 => .error .endOfStream
  | room + 1 => do
      let present : Except Error (Option α × Reader) := (read r).map fun (v, r) => (some v, r)
      match (← r.peek).1 with
      | .aliasOf anchor =>
          let (v, inner) ← readOptional read (← r.jump anchor) room
          return (v, r.backFrom inner)
      | .scalar tag text .plain =>
          match tag with
          | none => if text.isEmpty || isNullWord text then return (none, r.next) else present
          | some tag =>
              if tag != coreTag "null" then present
              else if isNullWord text then return (none, r.next)
              else throw (.fault (.invalidValue ("string " ++ Text.quoted text) "null") none)
      | .void => return (none, r.next)
      | _ => present

/-- Reads the entries of the map that a document is. An empty document is an empty map. `take` reads
the value of a key, and `finish` makes something of what was taken.
-/
def readFields (expected : String) (take : σ → String → Path → Reader → Except Error (σ × Reader))
    (finish : σ → Except ValueFault α) (start : σ) (document : Document) : Except Error α := do
  let r : Reader := { document }
  let (part, mark) ← r.peek
  let result ← located mark .root do
    let taken ←
      match part with
      | .mappingStart _ => entries start r.next (document.parts.size + 1)
      | .void => .ok start
      | .scalar _ "" .plain => .ok start
      | part => .error (typeFault part expected)
    (finish taken).mapError fun fault => .fault fault none
  match document.error with
  | some error => throw (.load error)
  | none => if document.hasMore then throw .moreDocuments else return result
where
  /-- Reads entries up to the end of the map. -/
  entries (s : σ) (r : Reader) : (room : Nat) → Except Error σ
    | 0 => .error .endOfStream
    | room + 1 => do
        match (← r.peek).1 with
        | .mappingEnd => return s
        | part =>
            let (key, r) ← readText "field identifier" .root r r.room
            let (s, r) ← take s key (Path.ofKey .root part) r
            entries s r room

end Folio.Yaml
