import Folio.Yaml.Event

/-! The first document of a text: its events up to its end or to the first error, with aliases
replaced by what they stand for.
-/

namespace Folio.Yaml

/-- A part of a document. -/
inductive Part where
  /-- The content of the node whose anchor has a number. -/
  | aliasOf (anchor : Nat)
  | scalar (tag : Option String) (text : String) (style : Style)
  | sequenceStart (tag : Option String)
  | sequenceEnd
  | mappingStart (tag : Option String)
  | mappingEnd
  /-- A text without any node. -/
  | void
deriving DecidableEq, Inhabited

/-- Why the parts of a document end before it does. -/
inductive LoadError where
  | malformed (error : SyntaxError)
  | unknownAnchor (mark : Mark)
deriving DecidableEq, Inhabited

/-- The parts of a document with their places. -/
structure Document where
  parts : Array (Part × Mark) := #[]
  /-- At which part the node of an anchor starts, latest first. -/
  anchors : List (Nat × Nat) := []
  error : Option LoadError := none
  /-- Something follows the document. -/
  hasMore : Bool := false
deriving Inhabited

/-- The numbers of the anchors of a document by their names, latest first. A number is the count of
names that were seen before.
-/
abbrev AnchorNumbers :=
  List (String × Nat)

namespace Document

/-- Notes the anchor of the node that starts with the next part. -/
def noteAnchor (d : Document) (numbers : AnchorNumbers) (props : NodeProps)
    : Document × AnchorNumbers :=
  match props.anchor with
  | none => (d, numbers)
  | some name =>
      let number := numbers.length
      let others := numbers.filter fun entry => entry.1 != name
      ({ d with anchors := (number, d.parts.size) :: d.anchors }, (name, number) :: others)

def add (d : Document) (part : Part) (mark : Mark) : Document :=
  { d with parts := d.parts.push (part, mark) }

def endsText (s : EventStream) : Bool :=
  match s.next with
  | .ok ({ event := .streamEnd, .. }, _) => true
  | _ => false

def load (d : Document) (numbers : AnchorNumbers) (s : EventStream) : (room : Nat) → Document
  | 0 => d
  | room + 1 =>
      match s.next with
      | .error e => { d with error := some (.malformed e) }
      | .ok ({ event, mark }, s) =>
          match event with
          | .streamStart | .documentStart => d.load numbers s room
          | .streamEnd => if d.parts.isEmpty then d.add .void mark else d
          | .documentEnd => { d with hasMore := !endsText s }
          | .aliasOf name =>
              match numbers.find? fun entry => entry.1 == name with
              | some entry => (d.add (.aliasOf entry.2) mark).load numbers s room
              | none => { d with error := some (.unknownAnchor mark) }
          | .scalar props text style =>
              let (d, numbers) := d.noteAnchor numbers props
              (d.add (.scalar props.tag text style) mark).load numbers s room
          | .sequenceStart props =>
              let (d, numbers) := d.noteAnchor numbers props
              (d.add (.sequenceStart props.tag) mark).load numbers s room
          | .sequenceEnd => (d.add .sequenceEnd mark).load numbers s room
          | .mappingStart props =>
              let (d, numbers) := d.noteAnchor numbers props
              (d.add (.mappingStart props.tag) mark).load numbers s room
          | .mappingEnd => (d.add .mappingEnd mark).load numbers s room

def ofText (text : List Char) : Document :=
  match controlOffset? 0 text with
  | some offset => { error := some (.malformed (.controlCharacter offset)) }
  | none => load {} [] (.ofText text) (4 * text.length + 16)

end Document

end Folio.Yaml
