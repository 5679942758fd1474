import Folio.Json.Value
import Folio.Yaml.Value

/-! Values of a document as JSON values. -/

namespace Folio.Yaml

/-- What a value is, as messages name it. -/
def Value.named : Value → String
  | null => Resolved.null.named
  | bool b => (Resolved.bool b).named
  | integer n => (Resolved.integer n).named
  | real x => (Resolved.real x).named
  | text s => (Resolved.text s).named
  | list _ => "sequence"
  | map _ => "map"

mutual

/-- The JSON value that says the same. Keys have to be texts, and of those that are equal the last
one counts. What is no number is null.
-/
def Value.toJson : Value → Except ValueFault Json.Value
  | null => .ok .null
  | bool b => .ok (.bool b)
  | integer n => .ok ((Json.Number.ofInt? n).elim .null .number)
  | real x => .ok ((Json.Number.ofReal? x).elim .null .number)
  | text s => .ok (.string s)
  | list items => do return .array (← Value.itemsToJson items)
  | map entries => do
      return .object (Json.Fields.ofList (← Value.entriesToJson "a string key" entries))

def Value.itemsToJson : List Value → Except ValueFault (List Json.Value)
  | [] => .ok []
  | v :: rest => do return (← v.toJson) :: (← Value.itemsToJson rest)

/-- The fields of entries, of which the first key is expected to be something. -/
def Value.entriesToJson (expected : String)
    : List (Value × Value) → Except ValueFault (List (String × Json.Value))
  | [] => .ok []
  | (key, v) :: rest =>
      match key with
      | text name => do return (name, ← v.toJson) :: (← Value.entriesToJson "a string" rest)
      | key => .error (.invalidType key.named expected)

end

end Folio.Yaml
