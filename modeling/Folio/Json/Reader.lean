import Folio.Json.Lexeme
import Folio.Json.Printer
import Folio.Text.Quoted

/-! Reading JSON values from their lexemes. Reading is a run of an automaton: the containers that
are still open form its stack, and each lexeme makes one step. A text may nest 127 containers deep.
-/

namespace Folio.Json

/-- A container whose end was not read yet: the items before the current one, last first, or the
fields before it and the name of the current one.
-/
inductive Open where
  | array (before : List Value)
  | object (before : Fields Value) (name : String)
deriving Inhabited

/-- What a reader waits for. -/
inductive Awaited where
  | value
  | firstItem
  | nextItem (before : List Value)
  | firstField
  | nextField (before : Fields Value)
  | colon (before : Fields Value) (name : String)
  | afterValue (value : Value)
deriving Inhabited

/-- What one lexeme does to a reader: it goes on, is done before the lexeme, or fails. -/
inductive Step where
  | go (stack : List Open) (awaited : Awaited)
  | done (value : Value)
  | fail (error : Error)

/-- How deep containers may nest. -/
def maxDepth : Nat :=
  127

/-- The error of a lexeme where a value should start. -/
def Lexeme.valueFault (x : Lexeme) : Error :=
  match x.token with
  | .faulty _ e => e
  | .finish => .at_ .eofInValue x.start
  | _ => .at_ .expectedValue x.start

/-- The error of a lexeme where a name should start. -/
def Lexeme.nameFault (x : Lexeme) : Error :=
  match x.token with
  | .faulty '"' e => e
  | _ => .at_ .keyNotString x.start

/-- The step at a lexeme where a value should start. At most `room` containers may be open. -/
def valueStep (room : Nat) (stack : List Open) (x : Lexeme) : Step :=
  match x.token with
  | .null => .go stack (.afterValue .null)
  | .bool b => .go stack (.afterValue (.bool b))
  | .number n => .go stack (.afterValue (.number n))
  | .string s => .go stack (.afterValue (.string s))
  | .punctuation '[' =>
      if stack.length ≥ room then .fail (.at_ .recursionLimit x.start) else .go stack .firstItem
  | .punctuation '\x7b' =>
      if stack.length ≥ room then .fail (.at_ .recursionLimit x.start) else .go stack .firstField
  | _ => .fail x.valueFault

def step (room : Nat) (stack : List Open) (awaited : Awaited) (x : Lexeme) : Step :=
  match awaited with
  | .value => valueStep room stack x
  | .firstItem =>
      match x.token with
      | .punctuation ']' => .go stack (.afterValue (.array []))
      | .finish => .fail (.at_ .eofInList x.start)
      | _ => valueStep room (.array [] :: stack) x
  | .nextItem before =>
      match x.token with
      | .punctuation ']' => .fail (.at_ .trailingComma x.start)
      | _ => valueStep room (.array before :: stack) x
  | .firstField =>
      match x.token with
      | .punctuation '\x7d' => .go stack (.afterValue (.object []))
      | .finish => .fail (.at_ .eofInObject x.start)
      | .string name => .go stack (.colon [] name)
      | _ => .fail x.nameFault
  | .nextField before =>
      match x.token with
      | .string name => .go stack (.colon before name)
      | .punctuation '\x7d' => .fail (.at_ .trailingComma x.start)
      | .finish => .fail (.at_ .eofInValue x.start)
      | _ => .fail x.nameFault
  | .colon before name =>
      match x.token with
      | .punctuation ':' => .go (.object before name :: stack) .value
      | .finish => .fail (.at_ .eofInObject x.start)
      | _ => .fail (.at_ .expectedColon x.start)
  | .afterValue v =>
      match stack with
      | [] => .done v
      | .array before :: outer =>
          match x.token with
          | .punctuation ']' => .go outer (.afterValue (.array (v :: before).reverse))
          | .punctuation ',' => .go outer (.nextItem (v :: before))
          | .finish => .fail (.at_ .eofInList x.start)
          | _ => .fail (.at_ .expectedListCommaOrEnd x.start)
      | .object before name :: outer =>
          match x.token with
          | .punctuation '\x7d' => .go outer (.afterValue (.object (before.insert name v)))
          | .punctuation ',' => .go outer (.nextField (before.insert name v))
          | .finish => .fail (.at_ .eofInObject x.start)
          | _ => .fail (.at_ .expectedObjectCommaOrEnd x.start)

/-- Reads a value from a state of the reader on, and what follows the value. -/
def readFrom (room : Nat) (stack : List Open) (awaited : Awaited)
    : List Lexeme → Except Error (Value × List Lexeme)
  | [] => .error { fault := .eofInValue, position := none }
  | x :: rest =>
      match step room stack awaited x with
      | .go stack awaited => readFrom room stack awaited rest
      | .done v => .ok (v, x :: rest)
      | .fail e => .error e

/-- Reads one value in which `room` containers may nest, and what follows it. -/
def readValue (room : Nat) (xs : List Lexeme) : Except Error (Value × List Lexeme) :=
  readFrom room [] .value xs

/-- Checks that nothing follows a value. -/
def checkEnd : List Lexeme → Except Error Unit
  | [] => .ok ()
  | x :: _ =>
      match x.token with
      | .finish => .ok ()
      | _ => .error (.at_ .trailingCharacters x.start)

def parse (text : String) : Except Error Value := do
  let (v, rest) ← readValue maxDepth (lexemes text)
  checkEnd rest
  return v

/-- A value as error texts name it. -/
def Token.named? : Token → Option String
  | .null => some "null"
  | .bool b => some (if b then "boolean `true`" else "boolean `false`")
  | .number (.integer n h) =>
      some ("integer `" ++ String.ofList (Number.text (.integer n h)) ++ "`")
  | .number (.real x h) =>
      some ("floating point `" ++ String.ofList (Number.text (.real x h)) ++ "`")
  | .string s => some ("string " ++ Text.quoted s)
  | .punctuation '[' => some "sequence"
  | .punctuation '\x7b' => some "map"
  | _ => none

/-- The error of a lexeme that starts a value of another type than the expected one. -/
def Lexeme.typeFault (x : Lexeme) (expected : String) : Error :=
  match x.token.named? with
  | none => x.valueFault
  | some found =>
      let place :=
        match x.token with
        | .punctuation _ => x.place
        | _ => x.stop
      .at_ (.invalidType found expected) place

def readString : List Lexeme → Except Error (String × List Lexeme)
  | [] => .error { fault := .eofInValue, position := none }
  | x :: rest =>
      match x.token with
      | .string s => .ok (s, rest)
      | _ => .error (x.typeFault "a string")

def parseString (text : String) : Except Error String := do
  let (s, rest) ← readString (lexemes text)
  checkEnd rest
  return s

end Folio.Json
