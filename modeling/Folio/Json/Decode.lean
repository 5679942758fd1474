import Folio.Json.Reader

/-! Reading JSON texts of a known shape. A fault is noticed where it stands. One that concerns an
object as a whole has the place where the reading of the object stopped.
-/

namespace Folio.Json

/-- A fault, its place if it is known, and what was not read yet. -/
structure Failure where
  fault : Fault
  position : Option Position
  rest : List Lexeme
deriving Inhabited

/-- Reads something from lexemes. -/
abbrev Decoder (α : Type) :=
  List Lexeme → Except Failure (α × List Lexeme)

namespace Decoder

def failWith (e : Error) (rest : List Lexeme) : Except Failure α :=
  .error { fault := e.fault, position := e.position, rest }

/-- The failure of a fault whose place is not known. -/
def failHere (fault : Fault) (rest : List Lexeme) : Except Failure α :=
  .error { fault, position := none, rest }

def ofReader (read : List Lexeme → Except Error (α × List Lexeme)) : Decoder α := fun xs =>
  match read xs with
  | .ok result => .ok result
  | .error e => failWith e xs

/-- Reads any value in which `room` containers may nest. -/
def value (room : Nat) : Decoder Value :=
  ofReader (readValue room)

/-- Reads any value and forgets it. -/
def ignored : Decoder PUnit := fun xs =>
  (value xs.length xs).map fun (_, rest) => (⟨⟩, rest)

def string : Decoder String :=
  ofReader readString

/-- Reads an integer of 64 bits with a sign. -/
def integer : Decoder Int
  | [] => failHere .eofInValue []
  | x :: rest =>
      match x.token with
      | .number (.integer n _) =>
          if n ≤ 9223372036854775807 then .ok (n, rest)
          else
            let text := "invalid value: integer \x60" ++ toString n ++ "\x60, expected i64"
            failWith (.at_ (.invalidValue text) x.stop) rest
      | _ => failWith (x.typeFault "i64") rest

/-- Reads `null` as nothing. -/
def optional (read : Decoder α) : Decoder (Option α) := fun xs =>
  match xs with
  | { token := .null, .. } :: rest => .ok (none, rest)
  | xs => (read xs).map fun (v, rest) => (some v, rest)

/-- The place where the reading of a container stops after a fault in it. -/
def stopPosition? (close : Char) : List Lexeme → Option Position
  | [] => none
  | x :: rest =>
      match x.token with
      | .punctuation ',' => if close == ']' then (rest.head?.map Lexeme.place) else some x.place
      | .punctuation c => some (if c == close then x.stop else x.place)
      | _ => some x.place

/-- Gives the faults of a result that have no place the one where reading stopped. -/
def placed (close : Char) (result : Except Failure α) : Except Failure α :=
  result.mapError fun f =>
    { f with position := f.position.or (stopPosition? close f.rest) }

/-- The name of the next field, if there is one. -/
def fieldName? (first : Bool) : Decoder (Option String)
  | [] => failHere .eofInObject []
  | x :: rest =>
      match x.token with
      | .punctuation '\x7d' => .ok (none, x :: rest)
      | .finish => failWith (.at_ .eofInObject x.start) (x :: rest)
      | .punctuation ',' =>
          if first then failWith x.nameFault (x :: rest)
          else
            match rest with
            | [] => failHere .eofInValue []
            | y :: after =>
                match y.token with
                | .string name => .ok (some name, after)
                | .punctuation '\x7d' => failWith (.at_ .trailingComma y.start) rest
                | .finish => failWith (.at_ .eofInValue y.start) rest
                | _ => failWith y.nameFault rest
      | .string name =>
          if first then .ok (some name, rest)
          else failWith (.at_ .expectedObjectCommaOrEnd x.start) (x :: rest)
      | _ =>
          if first then failWith x.nameFault (x :: rest)
          else failWith (.at_ .expectedObjectCommaOrEnd x.start) (x :: rest)

/-- Reads the colon after the name of a field. -/
def colon : Decoder PUnit
  | [] => failHere .eofInObject []
  | x :: rest =>
      match x.token with
      | .punctuation ':' => .ok (⟨⟩, rest)
      | .finish => failWith (.at_ .eofInObject x.start) (x :: rest)
      | _ => failWith (.at_ .expectedColon x.start) (x :: rest)

/-- Reads fields up to the end of an object. `take` is given the name of a field before its colon.
-/
def fields (take : σ → String → Decoder σ) (first : Bool) (s : σ) : (room : Nat) → Decoder σ
  | 0, xs => failHere .eofInObject xs
  | room + 1, xs => do
      match ← fieldName? first xs with
      | (none, rest) => return (s, rest)
      | (some name, rest) =>
          let (s, rest) ← take s name rest
          fields take false s room rest

def objectEnd : Decoder PUnit
  | [] => failHere .eofInObject []
  | x :: rest =>
      match x.token with
      | .punctuation '\x7d' => .ok (⟨⟩, rest)
      | .punctuation ',' => failWith (.at_ .trailingComma x.start) (x :: rest)
      | .finish => failWith (.at_ .eofInObject x.start) (x :: rest)
      | _ => failWith (.at_ .trailingCharacters x.start) (x :: rest)

/-- Reads the rest of an object whose brace was read, and makes something of what was taken. -/
def objectBody (take : σ → String → Decoder σ) (s : σ) (finish : σ → Except Fault α) : Decoder α :=
  fun xs => do
    let (v, rest) ← placed '\x7d' do
      let (s, rest) ← fields take true s (xs.length + 1) xs
      match finish s with
      | .ok v => return (v, rest)
      | .error fault => failHere fault rest
    let (_, rest) ← objectEnd rest
    return (v, rest)

/-- The next item of an array, if there is one. -/
def nextItem? (first : Bool) (read : Decoder α) : Decoder (Option α)
  | [] => failHere .eofInList []
  | x :: rest =>
      let item (xs : List Lexeme) : Except Failure (Option α × List Lexeme) :=
        (read xs).map fun (v, rest) => (some v, rest)
      match x.token with
      | .punctuation ']' => .ok (none, x :: rest)
      | .finish => failWith (.at_ .eofInList x.start) (x :: rest)
      | .punctuation ',' =>
          if first then item (x :: rest)
          else
            match rest with
            | { token := .punctuation ']', start, .. } :: _ =>
                failWith (.at_ .trailingComma start) rest
            | { token := .finish, start, .. } :: _ => failWith (.at_ .eofInValue start) rest
            | rest => item rest
      | _ =>
          if first then item (x :: rest)
          else failWith (.at_ .expectedListCommaOrEnd x.start) (x :: rest)

def arrayEnd : Decoder PUnit
  | [] => failHere .eofInList []
  | x :: rest =>
      match x.token with
      | .punctuation ']' => .ok (⟨⟩, rest)
      | .punctuation ',' =>
          match rest with
          | [] => failHere .trailingCharacters rest
          | y :: _ =>
              match y.token with
              | .punctuation ']' => failWith (.at_ .trailingComma y.start) rest
              | _ => failWith (.at_ .trailingCharacters y.start) rest
      | .finish => failWith (.at_ .eofInList x.start) (x :: rest)
      | _ => failWith (.at_ .trailingCharacters x.start) (x :: rest)

/-- Reads the rest of an array whose bracket was read. -/
def arrayBody (read : Decoder α) : Decoder α := fun xs => do
  let (v, rest) ← placed ']' (read xs)
  let (_, rest) ← arrayEnd rest
  return (v, rest)

/-- Reads items up to the end of an array. -/
def items (read : Decoder α) (first : Bool) : (room : Nat) → Decoder (List α)
  | 0, xs => failHere .eofInList xs
  | room + 1, xs => do
      match ← nextItem? first read xs with
      | (none, rest) => return ([], rest)
      | (some v, rest) =>
          let (vs, rest) ← items read false room rest
          return (v :: vs, rest)

def list (read : Decoder α) : Decoder (List α)
  | [] => failHere .eofInValue []
  | x :: rest =>
      match x.token with
      | .punctuation '[' => arrayBody (items read true (rest.length + 1)) rest
      | _ => failWith (x.typeFault "a sequence") rest

/-- Reads lexemes that hold one value of a shape. -/
def runOn (read : Decoder α) (xs : List Lexeme) : Except Error α :=
  match read xs with
  | .error f => .error { fault := f.fault, position := f.position }
  | .ok (v, rest) => (checkEnd rest).map fun _ => v

/-- Reads a text that holds one value of a shape. -/
def run (read : Decoder α) (text : String) : Except Error α :=
  runOn read (lexemes text)

end Decoder

end Folio.Json
