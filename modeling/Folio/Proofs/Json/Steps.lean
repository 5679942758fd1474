import Folio.Proofs.Json.Reading

/-! What one lexeme does to a reader of values. At each lexeme a reader that reads a value goes on
in one of a few ways, until it is done.
-/

namespace Folio.Json

def Token.atom? : Token → Option Value
  | .null => some .null
  | .bool b => some (.bool b)
  | .number n => some (.number n)
  | .string s => some (.string s)
  | _ => none

inductive Moves : Token → List Open → Awaited → List Open → Awaited → Prop where
  | atom {outer stack : List Open} {awaited : Awaited} {token : Token} {v : Value}
      (awaits : Awaits outer awaited stack) (isAtom : token.atom? = some v)
      : Moves token outer awaited stack (.afterValue v)
  | array {outer stack : List Open} {awaited : Awaited} (awaits : Awaits outer awaited stack)
      : Moves (.punctuation '[') outer awaited stack .firstItem
  | object {outer stack : List Open} {awaited : Awaited} (awaits : Awaits outer awaited stack)
      : Moves (.punctuation '\x7b') outer awaited stack .firstField
  | noItems {stack : List Open}
      : Moves (.punctuation ']') stack .firstItem stack (.afterValue (.array []))
  | noFields {stack : List Open}
      : Moves (.punctuation '\x7d') stack .firstField stack (.afterValue (.object []))
  | name {stack : List Open} {awaited : Awaited} {before : Fields Value} {name : String}
      (awaits : AwaitsName awaited before)
      : Moves (.string name) stack awaited stack (.colon before name)
  | colon {stack : List Open} {before : Fields Value} {name : String}
      : Moves (.punctuation ':') stack (.colon before name) (.object before name :: stack) .value
  | item {outer : List Open} {before : List Value} {v : Value}
      : Moves (.punctuation ',') (.array before :: outer) (.afterValue v) outer
          (.nextItem (v :: before))
  | lastItem {outer : List Open} {before : List Value} {v : Value}
      : Moves (.punctuation ']') (.array before :: outer) (.afterValue v) outer
          (.afterValue (.array (v :: before).reverse))
  | field {outer : List Open} {before : Fields Value} {name : String} {v : Value}
      : Moves (.punctuation ',') (.object before name :: outer) (.afterValue v) outer
          (.nextField (before.insert name v))
  | lastField {outer : List Open} {before : Fields Value} {name : String} {v : Value}
      : Moves (.punctuation '\x7d') (.object before name :: outer) (.afterValue v) outer
          (.afterValue (.object (before.insert name v)))

section Reader

variable {room : Nat}

theorem moves_of_valueStep {outer stack next : List Open} {awaited later : Awaited} {x : Lexeme}
    (awaits : Awaits outer awaited stack) (goes : valueStep room stack x = .go next later)
    : Moves x.token outer awaited next later := by
  unfold valueStep at goes
  split at goes
  case h_5 token =>
    split at goes
    · cases goes
    · cases goes
      exact token ▸ .array awaits
  case h_6 token =>
    split at goes
    · cases goes
    · cases goes
      exact token ▸ .object awaits
  case h_7 => cases goes
  all_goals
    next token =>
      cases goes
      exact .atom awaits (by rw [token]; rfl)

/-- A reader goes on in one of these ways only. -/
theorem moves_of_step {stack next : List Open} {awaited later : Awaited} {x : Lexeme}
    (goes : step room stack awaited x = .go next later)
    : Moves x.token stack awaited next later := by
  cases awaited with
  | value => exact moves_of_valueStep .value goes
  | firstItem =>
      simp only [step] at goes
      split at goes
      · next token => cases goes; exact token ▸ .noItems
      · cases goes
      · exact moves_of_valueStep .firstItem goes
  | nextItem before =>
      simp only [step] at goes
      split at goes
      · cases goes
      · exact moves_of_valueStep .nextItem goes
  | firstField =>
      simp only [step] at goes
      split at goes
      · next token => cases goes; exact token ▸ .noFields
      · cases goes
      · next token => cases goes; exact token ▸ .name .first
      · cases goes
  | nextField before =>
      simp only [step] at goes
      split at goes
      · next token => cases goes; exact token ▸ .name .next
      · cases goes
      · cases goes
      · cases goes
  | colon before name =>
      simp only [step] at goes
      split at goes
      · next token => cases goes; exact token ▸ .colon
      · cases goes
      · cases goes
  | afterValue v =>
      simp only [step] at goes
      split at goes
      · cases goes
      · split at goes
        · next token => cases goes; exact token ▸ .lastItem
        · next token => cases goes; exact token ▸ .item
        · cases goes
        · cases goes
      · split at goes
        · next token => cases goes; exact token ▸ .lastField
        · next token => cases goes; exact token ▸ .field
        · cases goes
        · cases goes

/-- A reader is done only after a value that is in no container. -/
theorem done_of_step {stack : List Open} {awaited : Awaited} {x : Lexeme} {v : Value}
    (done : step room stack awaited x = .done v)
    : stack = [] ∧ awaited = .afterValue v := by
  have notDone {stack : List Open} : valueStep room stack x ≠ .done v := by
    unfold valueStep
    split <;> (try split) <;> exact fun same => by cases same
  cases awaited with
  | value => exact absurd done notDone
  | afterValue v =>
      simp only [step] at done
      split at done
      · cases done
        exact ⟨rfl, rfl⟩
      all_goals split at done <;> cases done
  | firstItem | nextItem =>
      simp only [step] at done
      split at done <;> first | exact absurd done notDone | cases done
  | firstField | nextField | colon =>
      simp only [step] at done
      split at done <;> cases done

/-- A reader that reads a value first goes on, or is done. -/
theorem readFrom_cases {stack : List Open} {awaited : Awaited} {xs rest : List Lexeme} {v : Value}
    (read : readFrom room stack awaited xs = .ok (v, rest))
    : (stack = [] ∧ awaited = .afterValue v ∧ xs = rest ∧ rest ≠ [])
      ∨ ∃ x tail next later,
          xs = x :: tail
          ∧ Moves x.token stack awaited next later
          ∧ readFrom room next later tail = .ok (v, rest) := by
  cases xs with
  | nil => cases read
  | cons x tail =>
      unfold readFrom at read
      split at read
      · next next later goes => exact .inr ⟨x, tail, next, later, rfl, moves_of_step goes, read⟩
      · next w done =>
          cases read
          obtain ⟨nothing, after⟩ := done_of_step done
          exact .inl ⟨nothing, after, rfl, List.cons_ne_nil x tail⟩
      · cases read

/-- A reader leaves no more than it was given, by induction on the lexemes. -/
theorem length_le_of_readFrom {stack : List Open} {awaited : Awaited} {xs rest : List Lexeme}
    {v : Value} (read : readFrom room stack awaited xs = .ok (v, rest))
    : rest.length ≤ xs.length := by
  induction xs generalizing stack awaited with
  | nil => cases read
  | cons x xs ih =>
      rcases readFrom_cases read with ⟨-, -, rfl, -⟩ | ⟨_, _, next, later, same, -, read⟩
      · exact Nat.le_refl _
      · cases same
        exact Nat.le_succ_of_le (ih read)

/-- A reader of a value takes at least one lexeme. -/
theorem length_lt_of_readValue {xs rest : List Lexeme} {v : Value}
    (read : readValue room xs = .ok (v, rest))
    : rest.length < xs.length := by
  rcases readFrom_cases read with ⟨-, other, -, -⟩ | ⟨x, tail, _, _, rfl, -, read⟩
  · cases other
  · exact Nat.lt_succ_of_le (length_le_of_readFrom read)

end Reader

end Folio.Json
