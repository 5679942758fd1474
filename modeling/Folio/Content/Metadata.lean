import Folio.Json.Printer
import Folio.Text.Blank
import Folio.Yaml.Json

/-! What the frontmatter of a document says about it. Some fields have a meaning of their own; all
others are kept as they are.
-/

namespace Folio.Content

/-- What is said about a document. -/
structure Metadata where
  title : Option String := none
  /-- The rank of the document among its siblings. -/
  order : Option Int := none
  prev : Option String := none
  next : Option String := none
  permalink : Option String := none
  author : List String := []
  redirectFrom : List String := []
  /-- The fields that have no meaning of their own. -/
  extra : Json.Fields Json.Value := []
deriving Inhabited

namespace Metadata

/-- Holds if nothing is said. -/
def isEmpty (m : Metadata) : Bool :=
  m.title.isNone && m.order.isNone && m.prev.isNone && m.next.isNone && m.permalink.isNone
    && m.author.isEmpty && m.redirectFrom.isEmpty && m.extra.isEmpty

/-- The fields with a meaning of their own. -/
inductive Field where
  | title
  | order
  | prev
  | next
  | permalink
  | author
  | redirectFrom
deriving DecidableEq, Inhabited

def Field.name : Field → String
  | title => "title"
  | order => "order"
  | prev => "prev"
  | next => "next"
  | permalink => "permalink"
  | author => "author"
  | redirectFrom => "redirect_from"

/-- All fields with a meaning of their own. -/
def Field.all : List Field :=
  [.title, .order, .prev, .next, .permalink, .author, .redirectFrom]

def Field.ofName? (name : String) : Option Field :=
  Field.all.find? fun field => field.name == name

/-- The field of a text, if there is a text. -/
def textField (field : Field) (text : Option String) : List (String × Json.Value) :=
  text.toList.map fun text => (field.name, .string text)

/-- The field of a list, unless it is empty. -/
def listField (field : Field) (texts : List String) : List (String × Json.Value) :=
  if texts.isEmpty then [] else [(field.name, .array (texts.map Json.Value.string))]

/-- The field of an integer, if there is one. -/
def integerField (field : Field) (n : Option Int) : List (String × Json.Value) :=
  (n.bind Json.Number.ofInt?).toList.map fun n => (field.name, .number n)

/-- The written form: the fields with a meaning in a fixed order, less those that say nothing, and
then the others in the order of their names.
-/
def json (m : Metadata) : Json.Value :=
  .object <|
    textField .title m.title ++ integerField .order m.order ++ textField .prev m.prev
      ++ textField .next m.next ++ textField .permalink m.permalink ++ listField .author m.author
      ++ listField .redirectFrom m.redirectFrom ++ m.extra

end Metadata

/-- Metadata of which some fields were read. The other fields are kept as they were found. -/
structure Draft (ν : Type) where
  metadata : Metadata := {}
  seen : List Metadata.Field := []
  others : List (String × ν) := []

namespace Draft

/-- Reads the value of a field with the reader for its kind of values. -/
def readField (d : Draft ν) (field : Metadata.Field) (text : ρ → Except ε (Option String × ρ))
    (integer : ρ → Except ε (Option Int × ρ)) (list : ρ → Except ε (List String × ρ)) (r : ρ)
    : Except ε (Draft ν × ρ) :=
  let m := d.metadata
  let keep {α : Type} (read : ρ → Except ε (α × ρ)) (set : α → Metadata) : Except ε (Draft ν × ρ) :=
    (read r).map fun (v, r) => ({ d with metadata := set v, seen := field :: d.seen }, r)
  match field with
  | .title => keep text fun v => { m with title := v }
  | .order => keep integer fun v => { m with order := v }
  | .prev => keep text fun v => { m with prev := v }
  | .next => keep text fun v => { m with next := v }
  | .permalink => keep text fun v => { m with permalink := v }
  | .author => keep list fun v => { m with author := v }
  | .redirectFrom => keep list fun v => { m with redirectFrom := v }

/-- Keeps a field without a meaning of its own. -/
def keepOther (d : Draft ν) (name : String) (v : ν) : Draft ν :=
  { d with others := d.others ++ [(name, v)] }

end Draft

namespace Metadata

/-- The type of which values of lists are, as messages name it. -/
def listType : String :=
  "OneOrMany"

def yamlTexts? : Yaml.Value → Option (List String)
  | .text s => some [s]
  | .list items => items.mapM fun
      | .text s => some s
      | _ => none
  | _ => none

def readYamlTexts (path : Yaml.Path) (r : Yaml.Reader)
    : Except Yaml.Error (List String × Yaml.Reader) := do
  let (v, r) ← Yaml.readValue (Yaml.Reader.maxDepth - 1) path r r.room
  match yamlTexts? v with
  | some texts => return (texts, r)
  | none => throw (.fault (.noVariant listType) none)

def readYamlField (d : Draft Yaml.Value) (name : String) (path : Yaml.Path) (r : Yaml.Reader)
    : Except Yaml.Error (Draft Yaml.Value × Yaml.Reader) :=
  match Field.ofName? name with
  | none =>
      (Yaml.readValue (Yaml.Reader.maxDepth - 1) path r r.room).map fun (v, r) =>
        (d.keepOther name v, r)
  | some field =>
      if d.seen.contains field then .error (.fault (.duplicateField name) none)
      else
        d.readField field
          (fun r => Yaml.readOptional (Yaml.readText "a string" path · r.room) r r.room)
          (fun r => Yaml.readOptional (Yaml.readInteger path · r.room) r r.room)
          (readYamlTexts path) r

/-- Metadata with the other fields of a draft. -/
def ofYamlDraft (d : Draft Yaml.Value) : Except Yaml.ValueFault Metadata := do
  let extra ← d.others.mapM fun entry => entry.2.toJson.map fun v => (entry.1, v)
  return { d.metadata with extra := Json.Fields.ofList extra }

/-- Reads frontmatter. Where there is nothing but blanks nothing is said. -/
def ofYaml (text : List Char) : Except Yaml.Error Metadata :=
  match Text.trim text with
  | [] => .ok {}
  | trimmed =>
      Yaml.readFields "struct Metadata" readYamlField ofYamlDraft {} (.ofText trimmed)

end Metadata

end Folio.Content
