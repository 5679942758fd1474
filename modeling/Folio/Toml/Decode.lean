import Folio.Text.Quoted
import Folio.Toml.Document

/-! Values read as what is expected of them. A number that has no value is a fault wherever it
stands, also in what is not asked for.
-/

namespace Folio.Toml

/-- The text of an integer, and its type if it has more than 64 bits. -/
def integerText (n : Int) : String :=
  let text := Number.integerName n
  if Number.fits64 n then text
  else if n < Number.twoTo 127 then text ++ " as i128"
  else text ++ " as u128"

/-- A value as messages name it, or what is wrong with it on its own. -/
def Value.named : Value → Except Fault String
  | .scalar (.text s) => .ok ("string " ++ Text.quoted s)
  | .scalar (.boolean b) => .ok (Number.booleanName b)
  | .scalar (.integer none) => .error .integerOverflow
  | .scalar (.integer (some n)) => .ok (integerText n)
  | .scalar (.real none) => .error .realOverflow
  | .scalar (.real (some x)) => .ok (Number.realName x)
  | .scalar (.moment _) => .ok "map"
  | .array _ _ => .ok "sequence"
  | .table _ _ => .ok "map"

mutual

/-- The first number without a value. -/
def overflow? (span : Span) : Value → Option Error
  | .array _ items => overflowItems? items
  | .table _ entries => overflowEntries? entries
  | v =>
      match v.named with
      | .ok _ => none
      | .error fault => some { fault, span }

/-- The first number without a value in some items. -/
def overflowItems? : List (Located Value) → Option Error
  | [] => none
  | item :: rest => (overflow? item.span item.value).or (overflowItems? rest)

/-- The first number without a value in some entries. -/
def overflowEntries? : List (String × Located Value) → Option Error
  | [] => none
  | (_, item) :: rest => (overflow? item.span item.value).or (overflowEntries? rest)

end

/-- A value at its place. -/
abbrev Item :=
  Located Value

namespace Item

/-- The fault of a value of another type than the expected one. -/
def typeFault (v : Item) (expected : String) : Error :=
  match v.value.named with
  | .ok found => { fault := .invalidType found expected, span := v.span }
  | .error fault => { fault, span := v.span }

/-- Passes a value over. -/
def ignore (v : Item) : Except Error Unit :=
  match overflow? v.span v.value with
  | some e => .error e
  | none => .ok ()

def text (v : Item) : Except Error String :=
  match v.value with
  | .scalar (.text s) => .ok s
  | _ => .error (v.typeFault "a string")

/-- Reads a truth value. -/
def boolean (v : Item) : Except Error Bool :=
  match v.value with
  | .scalar (.boolean b) => .ok b
  | _ => .error (v.typeFault "a boolean")

def texts (v : Item) : Except Error (List String) :=
  match v.value with
  | .array _ items => items.mapM text
  | _ => .error (v.typeFault "a sequence")

/-- The fields of a record: the entries of a table, or the items of an array in the order in which
the record has its fields.
-/
def fields (names : List String) (expected : String) (v : Item)
    : Except Error (List (String × Item)) :=
  match v.value with
  | .table _ entries => .ok entries
  | .array _ items => .ok (names.zip items)
  | _ => .error (v.typeFault expected)

end Item

end Folio.Toml
