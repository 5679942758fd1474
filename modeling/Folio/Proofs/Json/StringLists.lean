import Folio.Json.Decode
import Folio.Proofs.Chain
import Folio.Proofs.Json.Numbers
import Folio.Proofs.Json.Steps

/-! Arrays of strings. The reader for such arrays and the reader for all values agree on them: a
text is read as a list of strings exactly if the value that it writes is the array of these strings.
-/

namespace Folio.Json

-----------------------------------------------------------------------------------------
-- Written arrays of strings
-----------------------------------------------------------------------------------------

theorem depth_strings (texts : List String) : (Value.array (texts.map Value.string)).depth = 1 := by
  have flat : Value.depthOfItems (texts.map Value.string) = 0 := by
    induction texts with
    | nil => rfl
    | cons s rest ih => simp [Value.depthOfItems, Value.depth, ih]
  rw [Value.depth, flat]

/-- The written form of an array of strings is read back. -/
theorem parse_render_strings (texts : List String)
    : parse (Value.array (texts.map Value.string)).render
      = .ok (.array (texts.map Value.string)) := by
  obtain ⟨f, readAs⟩ := exists_readAs_all
  have same : Value.rereadItems f (texts.map Value.string) = texts.map Value.string := by
    induction texts with
    | nil => rfl
    | cons s rest ih => simp [Value.rereadItems, Value.reread, ih]
  have read := parse_render readAs (Value.array (texts.map Value.string))
  rw [depth_strings, if_pos (by decide), Value.reread, same] at read
  exact read

-----------------------------------------------------------------------------------------
-- Strings in an array
-----------------------------------------------------------------------------------------

/-- Lexemes that are the strings in an array, up to its end, and what follows. The first string has
no comma before it.
-/
inductive Listed : (first : Bool) → List String → List Lexeme → List Lexeme → Prop where
  | stop {first : Bool} {x : Lexeme} {rest : List Lexeme} (close : x.token = .punctuation ']')
      : Listed first [] (x :: rest) rest
  | first {s : String} {texts : List String} {x : Lexeme} {xs rest : List Lexeme}
      (text : x.token = .string s) (more : Listed false texts xs rest)
      : Listed true (s :: texts) (x :: xs) rest
  | next {s : String} {texts : List String} {x y : Lexeme} {xs rest : List Lexeme}
      (comma : x.token = .punctuation ',') (text : y.token = .string s)
      (more : Listed false texts xs rest)
      : Listed false (s :: texts) (x :: y :: xs) rest

/-- The state of a reader with some items of an array behind it. -/
inductive Gathers : (first : Bool) → List Value → List Open → Awaited → Prop where
  | start : Gathers true [] [] .firstItem
  | item {before : List Value} {v : Value}
      : Gathers false (v :: before).reverse [.array before] (.afterValue v)

/-- Holds for a reader inside of a container that is not on its stack. -/
def Awaited.isInside : Awaited → Bool
  | .value | .afterValue _ => false
  | _ => true

/-- Holds for a reader inside of an object that is not on its stack. -/
def Awaited.isNamed : Awaited → Bool
  | .firstField | .nextField _ | .colon _ _ => true
  | _ => false

/-- States of a reader from which no array of strings is read: what is read has an item that is no
string, or is no array.
-/
inductive Mixed : List Open → Awaited → Prop where
  | deep {first second : Open} {stack : List Open} {awaited : Awaited}
      : Mixed (first :: second :: stack) awaited
  | inside {top : Open} {awaited : Awaited} (inner : awaited.isInside = true)
      : Mixed [top] awaited
  | object {before : Fields Value} {name : String} {awaited : Awaited}
      : Mixed [.object before name] awaited
  | name {awaited : Awaited} (named : awaited.isNamed = true) : Mixed [] awaited
  | item {before : List Value} {v : Value} (other : ∃ w ∈ v :: before, w.asString? = none)
      : Mixed [.array before] (.afterValue v)
  | next {before : List Value} (other : ∃ w ∈ before, w.asString? = none)
      : Mixed [] (.nextItem before)
  | done {v : Value} (other : ∀ texts : List String, v ≠ .array (texts.map Value.string))
      : Mixed [] (.afterValue v)

variable {room : Nat}

/-- An array of strings has no other items. -/
theorem ne_strings {items : List Value} (other : ∃ w ∈ items, w.asString? = none)
    (texts : List String)
    : Value.array items ≠ .array (texts.map Value.string) := by
  obtain ⟨w, member, noString⟩ := other
  intro same
  obtain rfl := Value.array.inj same
  obtain ⟨s, -, rfl⟩ := List.mem_map.mp member
  cases noString

theorem mixed_opened {top : Open} {outer : List Open} {awaited : Awaited}
    (inner : awaited.isInside = true)
    : Mixed (top :: outer) awaited := by
  cases outer with
  | cons => exact .deep
  | nil => exact .inside inner

/-- A container that is closed inside of another one is no string. -/
theorem mixed_closed {top : Open} {outer : List Open} {v : Value} (noString : v.asString? = none)
    : Mixed (top :: outer) (.afterValue v) := by
  cases outer with
  | cons => exact .deep
  | nil =>
      cases top with
      | array before => exact .item ⟨v, List.mem_cons_self, noString⟩
      | object before name => exact .object

/-- No lexeme mends such a state. -/
theorem Mixed.moves {token : Token} {stack next : List Open} {awaited later : Awaited}
    (mixed : Mixed stack awaited) (moves : Moves token stack awaited next later)
    : Mixed next later := by
  cases moves with
  | atom awaits isAtom =>
      cases awaits with
      | value =>
          cases mixed with
          | deep => exact .deep
          | object => exact .object
          | inside inner => cases inner
          | name named => cases named
      | firstItem =>
          cases mixed with
          | deep | inside | object => exact .deep
          | name named => cases named
      | nextItem =>
          cases mixed with
          | deep | inside | object => exact .deep
          | name named => cases named
          | next other =>
              obtain ⟨w, member, noString⟩ := other
              exact .item ⟨w, List.mem_cons_of_mem _ member, noString⟩
  | array awaits | object awaits =>
      cases awaits with
      | firstItem | nextItem => exact mixed_opened rfl
      | value =>
          cases mixed with
          | deep | object => exact mixed_opened rfl
          | inside inner => cases inner
          | name named => cases named
  | noItems =>
      cases mixed with
      | deep | inside | object => exact mixed_closed rfl
      | name named => cases named
  | noFields =>
      cases mixed with
      | deep | inside | object => exact mixed_closed rfl
      | name => exact .done fun texts same => by cases same
  | name =>
      cases mixed with
      | deep => exact .deep
      | inside => exact .inside rfl
      | object => exact .object
      | name | next => exact .name rfl
      | item | done => next awaits => cases awaits
  | colon =>
      cases stack with
      | nil => exact .object
      | cons => exact .deep
  | item =>
      cases mixed with
      | deep => exact mixed_opened rfl
      | inside inner => cases inner
      | item other => exact .next other
  | lastItem =>
      cases mixed with
      | deep => exact mixed_closed rfl
      | inside inner => cases inner
      | item other =>
          obtain ⟨w, member, noString⟩ := other
          exact .done (ne_strings ⟨w, List.mem_reverse.mpr member, noString⟩)
  | field =>
      cases next with
      | nil => exact .name rfl
      | cons => exact mixed_opened rfl
  | lastField =>
      cases next with
      | nil => exact .done fun texts same => by cases same
      | cons => exact mixed_closed rfl

/-- No array of strings is read from such a state, by induction on the lexemes. -/
theorem Mixed.not_read {stack : List Open} {awaited : Awaited} (mixed : Mixed stack awaited)
    {texts : List String} {xs rest : List Lexeme}
    (read : readFrom room stack awaited xs = .ok (.array (texts.map Value.string), rest))
    : False := by
  induction xs generalizing stack awaited with
  | nil => cases read
  | cons x xs ih =>
      rcases readFrom_cases read with
        ⟨rfl, rfl, -, -⟩ | ⟨_, _, next, later, same, moves, read⟩
      · cases mixed with
        | name named => cases named
        | done other => exact other texts rfl
      · cases same
        exact ih (mixed.moves moves) read

-----------------------------------------------------------------------------------------
-- The reader for all values
-----------------------------------------------------------------------------------------

/-- The strings in an array are read one after the other, up to the end of the array. By induction
on the strings.
-/
theorem Listed.readFrom_eq {first : Bool} {texts : List String} {xs rest : List Lexeme}
    (listed : Listed first texts xs rest) {items : List Value} {stack : List Open}
    {awaited : Awaited} (gathers : Gathers first items stack awaited)
    : readFrom room stack awaited xs
      = readFrom room [] (.afterValue (.array (items ++ texts.map Value.string))) rest := by
  induction listed generalizing items stack awaited with
  | stop close =>
      rw [List.map_nil, List.append_nil]
      cases gathers with
      | start => exact readFrom_go (by simp only [step, close])
      | item => exact readFrom_go (by simp only [step, close])
  | first text _ ih =>
      cases gathers with
      | start =>
          rw [readFrom_go (by simp only [step, valueStep, text]; rfl), ih .item]
          rfl
  | next comma text _ ih =>
      cases gathers with
      | item =>
          rw [readFrom_go (by simp only [step, comma]; rfl),
            readFrom_go (by simp only [step, valueStep, text]; rfl), ih .item]
          simp

theorem Awaits.unique {outer stack other : List Open} {awaited : Awaited}
    (h : Awaits outer awaited stack) (again : Awaits outer awaited other)
    : stack = other := by
  cases h <;> cases again <;> rfl

/-- Where a reader waits for an item of an array of strings there is a string, unless the array ends
where its first item could be.
-/
theorem string_of_readFrom {before : List Value} {awaited : Awaited}
    (awaits : Awaits [] awaited [.array before]) {texts : List String} {xs rest : List Lexeme}
    (read : readFrom room [] awaited xs = .ok (.array (texts.map Value.string), rest))
    : ∃ x tail,
        xs = x :: tail
        ∧ ((awaited = .firstItem
              ∧ x.token = .punctuation ']'
              ∧ readFrom room [] (.afterValue (.array [])) tail
                = .ok (.array (texts.map Value.string), rest))
            ∨ ∃ s, x.token = .string s
              ∧ readFrom room [.array before] (.afterValue (.string s)) tail
                = .ok (.array (texts.map Value.string), rest)) := by
  rcases readFrom_cases read with ⟨-, rfl, -, -⟩ | ⟨x, tail, next, later, rfl, moves, read⟩
  · cases awaits
  · refine ⟨x, tail, rfl, ?_⟩
    generalize x.token = token at moves ⊢
    cases moves with
    | noItems => exact .inl ⟨rfl, rfl, read⟩
    | name names => cases names <;> cases awaits
    | noFields | colon => cases awaits
    | array again | object again =>
        obtain rfl := again.unique awaits
        exact ((Mixed.inside rfl).not_read read).elim
    | @atom _ _ _ _ v again isAtom =>
        obtain rfl := again.unique awaits
        cases noString : v.asString? with
        | none => exact ((Mixed.item ⟨v, List.mem_cons_self, noString⟩).not_read read).elim
        | some s =>
            refine .inr ⟨s, ?_⟩
            cases token <;> cases isAtom <;> cases noString
            exact ⟨rfl, read⟩

/-- What follows a value that was read. -/
theorem rest_of_readFrom {v w : Value} {xs rest : List Lexeme}
    (read : readFrom room [] (.afterValue v) xs = .ok (w, rest))
    : v = w ∧ xs = rest ∧ rest ≠ [] := by
  rcases readFrom_cases read with ⟨-, same, rest, some⟩ | ⟨_, _, _, _, -, moves, -⟩
  · exact ⟨Awaited.afterValue.inj same, rest, some⟩
  · generalize Lexeme.token _ = token at moves
    cases moves with
    | atom awaits | array awaits | object awaits => cases awaits
    | name awaits => cases awaits

/-- What is read as an array of strings lists strings, by induction on the count of lexemes. -/
theorem listed_of_readFrom {first : Bool} {items : List Value} {stack : List Open}
    {awaited : Awaited} (gathers : Gathers first items stack awaited) {texts : List String}
    {xs rest : List Lexeme}
    (read : readFrom room stack awaited xs = .ok (.array (texts.map Value.string), rest))
    : ∃ later, texts.map Value.string = items ++ later.map Value.string
        ∧ Listed first later xs rest
        ∧ rest ≠ [] := by
  induction count : xs.length using Nat.strongRecOn generalizing
    first items stack awaited xs with
  | ind n ih =>
      cases gathers with
      | start =>
          obtain ⟨x, tail, rfl, ⟨-, close, read⟩ | ⟨s, text, read⟩⟩ :=
            string_of_readFrom .firstItem read
          · obtain ⟨same, rfl, some⟩ := rest_of_readFrom read
            exact ⟨[], (Value.array.inj same).symm, .stop close, some⟩
          · obtain ⟨later, same, listed, some⟩ := ih tail.length (by simp [← count]) .item read rfl
            exact ⟨s :: later, same, .first text listed, some⟩
      | @item before v =>
          rcases readFrom_cases read with ⟨other, -⟩ | ⟨x, tail, next, later, rfl, moves, read⟩
          · cases other
          · generalize isToken : x.token = token at moves
            cases moves with
            | atom awaits | array awaits | object awaits => cases awaits
            | name awaits => cases awaits
            | lastItem =>
                obtain ⟨same, rfl, some⟩ := rest_of_readFrom read
                exact ⟨[], by simpa using same.symm, .stop isToken, some⟩
            | item =>
                obtain ⟨y, tail, rfl, ⟨other, -⟩ | ⟨s, text, read⟩⟩ :=
                  string_of_readFrom .nextItem read
                · cases other
                · have shorter : tail.length < n := by
                    rw [← count, List.length_cons, List.length_cons]
                    omega
                  obtain ⟨later, same, listed, some⟩ := ih tail.length shorter .item read rfl
                  exact ⟨s :: later, by simpa using same, .next isToken text listed, some⟩

-----------------------------------------------------------------------------------------
-- The reader for lists of strings
-----------------------------------------------------------------------------------------

namespace Decoder

/-- What is read as a string is the first lexeme. -/
theorem exists_of_string {s : String} {xs rest : List Lexeme} (read : string xs = .ok (s, rest))
    : ∃ x, xs = x :: rest ∧ x.token = .string s := by
  cases xs with
  | nil => cases read
  | cons x tail =>
      simp only [string, ofReader, readString] at read
      split at read
      · next text =>
          cases read
          split at text
          · next token =>
              cases text
              exact ⟨x, rfl, token⟩
          · cases text
      · cases read

/-- The next item of a list of strings is a string, after a comma unless it is the first one. -/
theorem nextItem?_string {first : Bool} {found : Option String} {xs rest : List Lexeme}
    (read : nextItem? first string xs = .ok (found, rest))
    : (found = none ∧ rest = xs ∧ ∃ x tail, xs = x :: tail ∧ x.token = .punctuation ']')
      ∨ ∃ s, found = some s
        ∧ ((first = true ∧ ∃ x, xs = x :: rest ∧ x.token = .string s)
          ∨ (first = false
              ∧ ∃ x y, xs = x :: y :: rest
                ∧ x.token = .punctuation ','
                ∧ y.token = .string s)) := by
  have item {xs rest : List Lexeme} {found : Option String}
      (read : (string xs).map (fun result => (some result.1, result.2)) = .ok (found, rest))
      : ∃ s, found = some s ∧ string xs = .ok (s, rest) := by
    cases result : string xs with
    | error failure => rw [result] at read; cases read
    | ok pair =>
        rw [result] at read
        cases read
        exact ⟨pair.1, rfl, rfl⟩
  cases xs with
  | nil => cases read
  | cons x tail =>
      simp only [nextItem?] at read
      split at read
      · next close =>
          cases read
          exact .inl ⟨rfl, rfl, x, tail, rfl, close⟩
      · cases read
      · next comma =>
          split at read
          · next isFirst =>
              obtain ⟨s, -, taken⟩ := item read
              obtain ⟨_, same, text⟩ := exists_of_string taken
              cases same
              cases comma.symm.trans text
          · next notFirst =>
              split at read
              · cases read
              · cases read
              · obtain ⟨s, rfl, taken⟩ := item read
                obtain ⟨y, rfl, text⟩ := exists_of_string taken
                exact .inr ⟨s, rfl, .inr ⟨eq_false_of_ne_true notFirst, x, y, rfl, comma, text⟩⟩
      · split at read
        · next isFirst =>
            obtain ⟨s, rfl, taken⟩ := item read
            obtain ⟨_, same, text⟩ := exists_of_string taken
            cases same
            exact .inr ⟨s, rfl, .inl ⟨isFirst, x, rfl, text⟩⟩
        · cases read

/-- Listed strings are read, by induction on them. -/
theorem items_of_listed {first : Bool} {texts : List String} {xs rest : List Lexeme}
    (listed : Listed first texts xs rest) {room : Nat} (enough : xs.length < room)
    : ∃ x, x.token = .punctuation ']' ∧ items string first room xs = .ok (texts, x :: rest) := by
  induction listed generalizing room with
  | @stop first x rest close =>
      cases room with
      | zero => omega
      | succ room => exact ⟨x, close, by simp only [items, nextItem?, close]; rfl⟩
  | @first s texts x xs rest text more ih =>
      cases room with
      | zero => omega
      | succ room =>
          obtain ⟨y, close, read⟩ := @ih room (by simp only [List.length_cons] at enough; omega)
          refine ⟨y, close, ?_⟩
          have here : nextItem? true string (x :: xs) = .ok (some s, xs) := by
            simp only [nextItem?, text, string, ofReader, readString, if_true]
            rfl
          rw [items, here]
          simp only [bind, Except.bind, read]
          rfl
  | @next s texts x y xs rest comma text more ih =>
      cases room with
      | zero => omega
      | succ room =>
          obtain ⟨z, close, read⟩ := @ih room (by simp only [List.length_cons] at enough; omega)
          refine ⟨z, close, ?_⟩
          obtain ⟨token, place, start, stop⟩ := y
          obtain rfl := text
          have here
              : nextItem? false string (x :: ⟨.string s, place, start, stop⟩ :: xs)
                = .ok (some s, xs) := by
            simp only [nextItem?, comma, Bool.false_eq_true, if_false]
            rfl
          rw [items, here]
          simp only [bind, Except.bind, read]
          rfl

/-- What is read as strings lists them, by induction on the room. -/
theorem listed_of_items {first : Bool} {texts : List String} {xs after : List Lexeme}
    (read : items string first room xs = .ok (texts, after))
    : ∃ x rest, after = x :: rest ∧ x.token = .punctuation ']' ∧ Listed first texts xs rest := by
  induction room generalizing first texts xs with
  | zero => cases read
  | succ room ih =>
      unfold items at read
      obtain ⟨⟨found, rest⟩, next, goes⟩ := bind_eq_ok.mp read
      rcases nextItem?_string next with ⟨rfl, rfl, x, tail, rfl, close⟩ | ⟨s, rfl, item⟩
      · obtain ⟨rfl, rfl⟩ := Prod.mk.inj (Except.ok.inj goes)
        exact ⟨x, tail, rfl, close, .stop close⟩
      · obtain ⟨⟨later, after⟩, more, goes⟩ := bind_eq_ok.mp goes
        obtain ⟨rfl, rfl⟩ := Prod.mk.inj (Except.ok.inj goes)
        obtain ⟨x, tail, rfl, close, listed⟩ := ih more
        refine ⟨x, tail, rfl, close, ?_⟩
        rcases item with ⟨rfl, y, rfl, text⟩ | ⟨rfl, y, z, rfl, comma, text⟩
        · exact .first text listed
        · exact .next comma text listed

/-- A list of strings is read exactly where strings are listed after a bracket. -/
theorem list_string_iff {texts : List String} {xs rest : List Lexeme}
    : list string xs = .ok (texts, rest)
      ↔ ∃ x tail, xs = x :: tail
          ∧ x.token = .punctuation '['
          ∧ Listed true texts tail rest := by
  constructor
  · intro read
    cases xs with
    | nil => cases read
    | cons x tail =>
        simp only [list] at read
        split at read
        · next opens =>
            obtain ⟨⟨found, after⟩, inside, goes⟩ := bind_eq_ok.mp read
            cases read : items string true (tail.length + 1) tail with
            | error failure => rw [read] at inside; cases inside
            | ok result =>
                rw [read] at inside
                cases inside
                obtain ⟨y, rest, rfl, close, listed⟩ := listed_of_items read
                obtain ⟨⟨_, after⟩, ended, goes⟩ := bind_eq_ok.mp goes
                simp only [arrayEnd, close] at ended
                cases ended
                obtain ⟨rfl, rfl⟩ := Prod.mk.inj (Except.ok.inj goes)
                exact ⟨x, tail, rfl, opens, listed⟩
        · cases read
  · rintro ⟨x, tail, rfl, opens, listed⟩
    obtain ⟨y, close, read⟩ := items_of_listed listed (Nat.lt_succ_self _)
    simp only [list, opens, arrayBody, read]
    simp only [placed, Except.mapError, bind, Except.bind, arrayEnd, close]
    rfl

end Decoder

-----------------------------------------------------------------------------------------
-- Texts
-----------------------------------------------------------------------------------------

/-- A character that is a lexeme of its own is all that is taken of a text. -/
theorem scanLexeme_punctuation {p : Position} {c d : Char} {rest : List Char}
    (punctuation : (scanLexeme p c rest).1.token = .punctuation d)
    : (scanLexeme p c rest).2 = rest := by
  revert punctuation
  unfold scanLexeme
  dsimp only
  split <;> (try split) <;> (try split) <;> intro punctuation <;>
    first | rfl | cases punctuation

/-- No text ends with a lexeme that opens, closes or separates: the end of the text is a lexeme too.
By induction on the text, lexeme by lexeme.
-/
theorem getLast?_lexemesFrom (p : Position) (s : List Char)
    : ∀ x ∈ (lexemesFrom p s).getLast?, ∀ c, x.token ≠ .punctuation c := by
  fun_induction lexemesFrom p s with
  | case1 p =>
      intro x isLast c token
      obtain rfl := Option.some.inj isLast
      cases token
  | case2 p c rest blank ih => exact ih
  | case3 p c rest notBlank x after scanned shorter first error token =>
      intro y isLast c other
      obtain rfl := Option.some.inj isLast
      cases token.symm.trans other
  | case4 p c rest notBlank x after scanned shorter sound ih =>
      intro y isLast
      rw [List.getLast?_cons_of_ne_nil (lexemesFrom_ne_nil x.stop after)] at isLast
      exact ih y isLast
  | case5 p c rest notBlank x after scanned longer =>
      intro y isLast d token
      obtain rfl := Option.some.inj isLast
      have read : (scanLexeme p c rest).1.token = .punctuation d := by
        rw [scanned]
        exact token
      have taken := scanLexeme_punctuation read
      rw [scanned] at taken
      exact longer (Nat.le_of_eq (congrArg List.length taken))

/-- Lexemes that list strings and nothing else end with a bracket. -/
theorem Listed.getLast? {first : Bool} {texts : List String} {xs rest : List Lexeme}
    (listed : Listed first texts xs rest) (nothing : rest = [])
    : ∃ x ∈ xs.getLast?, x.token = .punctuation ']' := by
  induction listed with
  | @stop _ x _ close =>
      subst nothing
      exact ⟨x, rfl, close⟩
  | @first _ _ x xs _ _ _ ih =>
      obtain ⟨y, isLast, close⟩ := ih nothing
      have some : xs ≠ [] := fun none => by simp [none] at isLast
      exact ⟨y, by rwa [List.getLast?_cons_of_ne_nil some], close⟩
  | @next _ _ x y xs _ _ _ _ ih =>
      obtain ⟨z, isLast, close⟩ := ih nothing
      have some : xs ≠ [] := fun none => by simp [none] at isLast
      refine ⟨z, ?_, close⟩
      rwa [List.getLast?_cons_of_ne_nil (List.cons_ne_nil y xs),
        List.getLast?_cons_of_ne_nil some]

/-- After strings that are listed in a text comes at least the end of the text. -/
theorem Listed.rest_ne_nil {text : String} {texts : List String} {x : Lexeme}
    {tail rest : List Lexeme} (lexed : lexemes text = x :: tail)
    (listed : Listed true texts tail rest)
    : rest ≠ [] := by
  intro nothing
  obtain ⟨y, isLast, close⟩ := listed.getLast? nothing
  have some : tail ≠ [] := fun none => by simp [none] at isLast
  refine getLast?_lexemesFrom .start text.toList y ?_ ']' close
  rw [← lexemes, lexed, List.getLast?_cons_of_ne_nil some]
  exact isLast

/-- A text holds one value of a shape if the value is read first and nothing follows it. -/
theorem Decoder.run_eq_ok_iff {α : Type} {read : Decoder α} {text : String} {a : α}
    : run read text = .ok a
      ↔ ∃ rest, read (lexemes text) = .ok (a, rest) ∧ checkEnd rest = .ok () := by
  unfold run runOn
  constructor
  · intro run
    split at run
    · cases run
    · next found rest first =>
        cases ended : checkEnd rest with
        | error => rw [ended] at run; cases run
        | ok =>
            rw [ended] at run
            cases run
            exact ⟨rest, first, ended⟩
  · rintro ⟨rest, first, ended⟩
    simp only [first, ended]
    rfl

/-- A text holds a value if the value is read first and nothing follows it. -/
theorem parse_eq_ok_iff {text : String} {v : Value}
    : parse text = .ok v
      ↔ ∃ rest, readValue maxDepth (lexemes text) = .ok (v, rest) ∧ checkEnd rest = .ok () := by
  unfold parse
  constructor
  · intro parsed
    obtain ⟨⟨w, rest⟩, read, goes⟩ := bind_eq_ok.mp parsed
    obtain ⟨_, ended, goes⟩ := bind_eq_ok.mp goes
    obtain rfl := Except.ok.inj goes
    exact ⟨rest, read, ended⟩
  · rintro ⟨rest, read, ended⟩
    simp only [read, ended, bind, Except.bind]
    rfl

/-- An array of strings is read exactly where strings are listed after a bracket. -/
theorem readValue_strings_iff {text : String} {texts : List String} {rest : List Lexeme}
    : readValue maxDepth (lexemes text) = .ok (.array (texts.map Value.string), rest)
      ↔ ∃ x tail, lexemes text = x :: tail
          ∧ x.token = .punctuation '['
          ∧ Listed true texts tail rest := by
  constructor
  · intro read
    rcases readFrom_cases read with ⟨-, other, -⟩ | ⟨x, tail, next, later, lexed, moves, read⟩
    · cases other
    · refine ⟨x, tail, lexed, ?_⟩
      generalize x.token = token at moves ⊢
      cases moves with
      | name awaits => cases awaits
      | array awaits =>
          cases awaits
          obtain ⟨later, same, listed, -⟩ := listed_of_readFrom .start read
          obtain rfl := (List.map_inj_right fun _ _ => Value.string.inj).mp same
          exact ⟨rfl, listed⟩
      | object awaits =>
          cases awaits
          exact ((Mixed.name rfl).not_read read).elim
      | atom awaits isAtom =>
          cases awaits
          obtain ⟨rfl, -, -⟩ := rest_of_readFrom read
          cases token <;> cases isAtom
  · rintro ⟨x, tail, lexed, opens, listed⟩
    rw [readValue, lexed, readFrom_go (by simp only [step, valueStep, opens]; rfl),
      listed.readFrom_eq .start]
    cases rest with
    | nil => exact absurd rfl (listed.rest_ne_nil lexed)
    | cons => rfl

/-- A list of strings is read from exactly the texts that write the array of these strings. -/
theorem run_list_string_iff {text : String} {texts : List String}
    : Decoder.run (Decoder.list Decoder.string) text = .ok texts
      ↔ parse text = .ok (.array (texts.map Value.string)) := by
  rw [Decoder.run_eq_ok_iff, parse_eq_ok_iff]
  refine exists_congr fun rest => and_congr_left fun _ => ?_
  rw [Decoder.list_string_iff, readValue_strings_iff]

end Folio.Json
