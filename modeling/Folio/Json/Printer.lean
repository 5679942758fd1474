import Folio.Json.Value

/-! The written forms of JSON values: compact, and indented by two blanks for people. -/

namespace Folio.Json

/-- A digit of a hexadecimal number in lower case. -/
def hexDigit (n : Nat) : Char :=
  if n < 10 then Char.ofNat (48 + n) else Char.ofNat (87 + n)

/-- A character as it stands between the quotes of a string. -/
def escapeChar (c : Char) : List Char :=
  match c with
  | '"' => ['\\', '"']
  | '\\' => ['\\', '\\']
  | '\n' => ['\\', 'n']
  | '\r' => ['\\', 'r']
  | '\t' => ['\\', 't']
  | '\x08' => ['\\', 'b']
  | '\x0c' => ['\\', 'f']
  | c =>
      if c.toNat < 32 then
        ['\\', 'u', '0', '0', hexDigit (c.toNat / 16), hexDigit (c.toNat % 16)]
      else [c]

def quote (s : String) : List Char :=
  '"' :: s.toList.flatMap escapeChar ++ ['"']

mutual

/-- The compact written form of a value. -/
def Value.chars : Value → List Char
  | .null => "null".toList
  | .bool true => "true".toList
  | .bool false => "false".toList
  | .number n => n.text
  | .string s => quote s
  | .array items => '[' :: Value.itemChars items ++ [']']
  | .object fields => '{' :: Value.fieldChars fields ++ ['}']

/-- The items of an array with commas between them. -/
def Value.itemChars : List Value → List Char
  | [] => []
  | [v] => v.chars
  | v :: w :: rest => v.chars ++ ',' :: Value.itemChars (w :: rest)

/-- The fields of an object with commas between them. -/
def Value.fieldChars : List (String × Value) → List Char
  | [] => []
  | [(n, v)] => quote n ++ ':' :: v.chars
  | (n, v) :: f :: rest => quote n ++ ':' :: v.chars ++ ',' :: Value.fieldChars (f :: rest)

end

/-- The compact written form of a value. -/
def Value.render (v : Value) : String :=
  String.ofList v.chars

/-- A line end and the indentation of a depth. -/
private def newlineAt (depth : Nat) : List Char :=
  '\n' :: List.replicate (2 * depth) ' '

mutual

/-- The indented written form of a value that stands at a depth. -/
def Value.prettyChars (depth : Nat) : Value → List Char
  | .array [] => ['[', ']']
  | .array (v :: rest) =>
      '[' :: Value.prettyItems (depth + 1) (v :: rest) ++ newlineAt depth ++ [']']
  | .object [] => ['\x7b', '\x7d']
  | .object (f :: rest) =>
      '\x7b' :: Value.prettyFields (depth + 1) (f :: rest) ++ newlineAt depth ++ ['\x7d']
  | .null => "null".toList
  | .bool true => "true".toList
  | .bool false => "false".toList
  | .number n => n.text
  | .string s => quote s

/-- The items of an array, each on lines of its own. -/
def Value.prettyItems (depth : Nat) : List Value → List Char
  | [] => []
  | [v] => newlineAt depth ++ v.prettyChars depth
  | v :: w :: rest =>
      newlineAt depth ++ v.prettyChars depth ++ ',' :: Value.prettyItems depth (w :: rest)

/-- The fields of an object, each on lines of its own. -/
def Value.prettyFields (depth : Nat) : List (String × Value) → List Char
  | [] => []
  | [(n, v)] => newlineAt depth ++ quote n ++ [':', ' '] ++ v.prettyChars depth
  | (n, v) :: f :: rest =>
      newlineAt depth ++ quote n ++ [':', ' '] ++ v.prettyChars depth
        ++ ',' :: Value.prettyFields depth (f :: rest)

end

/-- The indented written form of a value. -/
def Value.renderPretty (v : Value) : String :=
  String.ofList (v.prettyChars 0)

end Folio.Json
