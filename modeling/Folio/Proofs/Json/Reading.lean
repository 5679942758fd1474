import Folio.Proofs.Json.Strings

/-! The written form of a value is read exactly if the value does not nest too deep. What is read
has the same shape: the names and strings are those of the value, its numbers are read from their
written form, and fields come in the order of their names.
-/

namespace Folio.Json

-----------------------------------------------------------------------------------------
-- How deep values nest, and what is read of them
-----------------------------------------------------------------------------------------

mutual

/-- How deep containers nest in a value. -/
def Value.depth : Value → Nat
  | .null | .bool _ | .number _ | .string _ => 0
  | .array items => Value.depthOfItems items + 1
  | .object fields => Value.depthOfFields fields + 1

def Value.depthOfItems : List Value → Nat
  | [] => 0
  | v :: rest => max v.depth (Value.depthOfItems rest)

def Value.depthOfFields : List (String × Value) → Nat
  | [] => 0
  | (_, v) :: rest => max v.depth (Value.depthOfFields rest)

end

mutual

/-- A value with its numbers replaced and its fields put in order. -/
def Value.reread (f : Number → Number) : Value → Value
  | .null => .null
  | .bool b => .bool b
  | .number n => .number (f n)
  | .string s => .string s
  | .array items => .array (Value.rereadItems f items)
  | .object fields => .object (Value.rereadFields f [] fields)

def Value.rereadItems (f : Number → Number) : List Value → List Value
  | [] => []
  | v :: rest => v.reread f :: Value.rereadItems f rest

/-- Fields that are put in after others. -/
def Value.rereadFields (f : Number → Number) (before : Fields Value)
    : List (String × Value) → Fields Value
  | [] => before
  | (name, v) :: rest => Value.rereadFields f (before.insert name (v.reread f)) rest

end

-----------------------------------------------------------------------------------------
-- The first lexeme of a text
-----------------------------------------------------------------------------------------

def Token.isFaulty : Token → Bool
  | .faulty _ _ => true
  | _ => false

/-- A text whose first characters are a lexeme. -/
theorem lexemesFrom_cons {p : Position} {c : Char} {rest after : List Char} {x : Lexeme}
    (notBlank : isJsonBlank c = false) (scanned : scanLexeme p c rest = (x, after))
    (shorter : after.length ≤ rest.length) (sound : x.token.isFaulty = false)
    : lexemesFrom p (c :: rest) = x :: lexemesFrom x.stop after := by
  rw [lexemesFrom]
  simp only [notBlank, Bool.false_eq_true, if_false, scanned, if_pos shorter]
  cases token : x.token with
  | faulty first error => simp [token, Token.isFaulty] at sound
  | _ => rfl

/-- A text always has a lexeme, be it that of its end. -/
theorem lexemesFrom_ne_nil (p : Position) (s : List Char) : lexemesFrom p s ≠ [] := by
  fun_induction lexemesFrom p s <;> first | assumption | exact List.cons_ne_nil _ _

/-- The first lexeme of a text after a place has a token, and leaves a rest. -/
def Begins (token : Token) (p : Position) (text rest : List Char) : Prop :=
  ∃ x : Lexeme, x.token = token ∧ lexemesFrom p text = x :: lexemesFrom x.stop rest

/-- The characters that are lexemes of their own. -/
def marks : List Char :=
  ['[', ']', '\x7b', '\x7d', ',', ':']

theorem begins_punctuation {c : Char} (punctuation : c ∈ marks) (p : Position) (rest : List Char)
    : Begins (.punctuation c) p (c :: rest) rest := by
  refine ⟨{ token := .punctuation c, place := p, start := p.peek c, stop := p.next c }, rfl, ?_⟩
  simp only [marks, List.mem_cons, List.not_mem_nil, or_false] at punctuation
  refine lexemesFrom_cons ?_ ?_ (Nat.le_refl _) rfl <;>
    rcases punctuation with rfl | rfl | rfl | rfl | rfl | rfl <;> rfl

theorem begins_quote (p : Position) (s : String) (rest : List Char)
    : Begins (.string s) p (quote s ++ rest) rest := by
  obtain ⟨q, scanned⟩ := scanString_quoted (p.next '"') s.toList rest
  refine ⟨{ token := .string s, place := p, start := p.peek '"', stop := q }, rfl, ?_⟩
  have text : quote s ++ rest = '"' :: (s.toList.flatMap escapeChar ++ '"' :: rest) := by
    simp [quote]
  rw [text]
  refine lexemesFrom_cons (by decide) ?_ (by simp; omega) rfl
  simp only [scanLexeme, scanned, String.ofList_toList]

theorem scanWord_append (p : Position) (word rest : List Char)
    : scanWord p word (word ++ rest) = .ok (p.after word, rest) := by
  induction word generalizing p with
  | nil => rfl
  | cons c word ih => simpa [scanWord, Position.after] using ih (p.next c)

theorem begins_word {token : Token} {c : Char} {word : List Char} (p : Position) (rest : List Char)
    (notBlank : isJsonBlank c = false) (sound : token.isFaulty = false)
    (scanned : scanLexeme p c (word ++ rest)
      = (⟨token, p, p.peek c, (p.next c).after word⟩, rest))
    : Begins token p (c :: (word ++ rest)) rest :=
  ⟨_, rfl, lexemesFrom_cons notBlank scanned (by simp) sound⟩

theorem begins_null (p : Position) (rest : List Char)
    : Begins .null p (Value.null.chars ++ rest) rest := by
  have scanned : scanLexeme p 'n' ("ull".toList ++ rest)
      = (⟨.null, p, p.peek 'n', (p.next 'n').after "ull".toList⟩, rest) := by
    simp only [scanLexeme, scanWord_append]
  exact begins_word p rest (by decide) rfl scanned

theorem begins_bool (b : Bool) (p : Position) (rest : List Char)
    : Begins (.bool b) p ((Value.bool b).chars ++ rest) rest := by
  cases b with
  | true =>
      have scanned : scanLexeme p 't' ("rue".toList ++ rest)
          = (⟨.bool true, p, p.peek 't', (p.next 't').after "rue".toList⟩, rest) := by
        simp only [scanLexeme, scanWord_append]
      exact begins_word p rest (by decide) rfl scanned
  | false =>
      have scanned : scanLexeme p 'f' ("alse".toList ++ rest)
          = (⟨.bool false, p, p.peek 'f', (p.next 'f').after "alse".toList⟩, rest) := by
        simp only [scanLexeme, scanWord_append]
      exact begins_word p rest (by decide) rfl scanned

/-- Holds for texts that may follow a number: they go on with no character that numbers have. -/
def EndsNumber (rest : List Char) : Prop :=
  ∀ c ∈ rest.head?, c.isDigit = false ∧ c ≠ '.' ∧ c ≠ 'e' ∧ c ≠ 'E'

theorem endsNumber_cons {c : Char} {rest : List Char}
    (h : c.isDigit = false ∧ c ≠ '.' ∧ c ≠ 'e' ∧ c ≠ 'E')
    : EndsNumber (c :: rest) :=
  fun _ member => Option.some.inj member ▸ h

/-- The written form of one number is read as another one, wherever it ends. -/
def Number.ReadAs (n m : Number) : Prop :=
  ∀ p rest, EndsNumber rest → Begins (.number m) p (n.text ++ rest) rest

-----------------------------------------------------------------------------------------
-- The reader at written values
-----------------------------------------------------------------------------------------

section Reader

variable {room : Nat}

theorem readFrom_go {stack next : List Open} {awaited later : Awaited} {x : Lexeme}
    {rest : List Lexeme} (h : step room stack awaited x = .go next later)
    : readFrom room stack awaited (x :: rest) = readFrom room next later rest := by
  simp only [readFrom, h]

theorem readFrom_fail {stack : List Open} {awaited : Awaited} {x : Lexeme} {rest : List Lexeme}
    {error : Error} (h : step room stack awaited x = .fail error)
    : readFrom room stack awaited (x :: rest) = .error error := by
  simp only [readFrom, h]

/-- What a reader that waits for a value has open when the value begins. -/
inductive Awaits : List Open → Awaited → List Open → Prop where
  | value {stack : List Open} : Awaits stack .value stack
  | firstItem {stack : List Open} : Awaits stack .firstItem (.array [] :: stack)
  | nextItem {stack : List Open} {before : List Value}
      : Awaits stack (.nextItem before) (.array before :: stack)

def Token.startsValue : Token → Bool
  | .null | .bool _ | .number _ | .string _ => true
  | .punctuation c => c == '[' || c == '{'
  | _ => false

theorem step_awaits {outer stack : List Open} {awaited : Awaited} (h : Awaits outer awaited stack)
    {x : Lexeme} (starts : x.token.startsValue = true)
    : step room outer awaited x = valueStep room stack x := by
  cases h with
  | value => rfl
  | firstItem =>
      simp only [step]
      split
      · next token => simp [token, Token.startsValue] at starts
      · next token => simp [token, Token.startsValue] at starts
      · rfl
  | nextItem =>
      simp only [step]
      split
      · next token => simp [token, Token.startsValue] at starts
      · rfl

theorem readFrom_punctuation {stack next : List Open} {awaited later : Awaited} {c : Char}
    (punctuation : c ∈ marks)
    (steps : ∀ x : Lexeme, x.token = .punctuation c → step room stack awaited x = .go next later)
    (p : Position) (rest : List Char)
    : ∃ q, readFrom room stack awaited (lexemesFrom p (c :: rest))
      = readFrom room next later (lexemesFrom q rest) := by
  obtain ⟨x, token, lexemes⟩ := begins_punctuation punctuation p rest
  rw [lexemes]
  exact ⟨x.stop, readFrom_go (steps x token)⟩

/-- What a reader does at the written form of a value that needs some depth: it has read the value
and goes on after it, or there is not enough room.
-/
def Reads (room : Nat) (stack : List Open) (depth : Nat) (v : Value) (rest : List Char)
    (result : Except Error (Value × List Lexeme)) : Prop :=
  if stack.length + depth ≤ room then
    ∃ q, result = readFrom room stack (.afterValue v) (lexemesFrom q rest)
  else ∃ place, result = .error (.at_ .recursionLimit place)

/-- A value of one lexeme is read. -/
theorem reads_atom {outer stack : List Open} {awaited : Awaited} (h : Awaits outer awaited stack)
    (fits : stack.length ≤ room) {token : Token} {v : Value}
    (starts : token.startsValue = true)
    (valueRead : ∀ x : Lexeme, x.token = token → valueStep room stack x = .go stack (.afterValue v))
    {p : Position} {text rest : List Char} (begins : Begins token p text rest)
    : Reads room stack 0 v rest (readFrom room outer awaited (lexemesFrom p text)) := by
  obtain ⟨x, rfl, lexemes⟩ := begins
  rw [Reads, if_pos (by omega), lexemes]
  exact ⟨x.stop, readFrom_go ((step_awaits h starts).trans (valueRead x rfl))⟩

section Sequences

variable {stack : List Open} {top : Open} {d n : Nat} {v w : Value} {rest tail : List Char}
  {result : Except Error (Value × List Lexeme)}

/-- The end of a container, after its last value was read. -/
theorem Reads.closed {c : Char} (h : Reads room (top :: stack) d v (c :: rest) result)
    (punctuation : c ∈ marks)
    (steps : ∀ x : Lexeme, x.token = .punctuation c →
      step room (top :: stack) (.afterValue v) x = .go stack (.afterValue w))
    : Reads room stack (d + 1) w rest result := by
  unfold Reads at h ⊢
  rw [List.length_cons] at h
  by_cases fits : stack.length + 1 + d ≤ room
  · rw [if_pos fits] at h
    rw [if_pos (by omega)]
    obtain ⟨p, rfl⟩ := h
    exact readFrom_punctuation punctuation steps p rest
  · rw [if_neg fits] at h
    rwa [if_neg (by omega)]

/-- More values of a container, after one was read. -/
theorem Reads.next (h : Reads room (top :: stack) d v (',' :: tail) result) (later : Awaited)
    (steps : ∀ x : Lexeme, x.token = .punctuation ',' →
      step room (top :: stack) (.afterValue v) x = .go stack later)
    (more : ∀ q, Reads room stack (n + 1) w rest (readFrom room stack later (lexemesFrom q tail)))
    : Reads room stack (max d n + 1) w rest result := by
  unfold Reads at h ⊢
  rw [List.length_cons] at h
  by_cases fits : stack.length + 1 + d ≤ room
  · rw [if_pos fits] at h
    obtain ⟨p, rfl⟩ := h
    obtain ⟨q, same⟩ := readFrom_punctuation (by decide) steps p tail
    have after := more q
    rw [same]
    unfold Reads at after
    by_cases all : stack.length + (n + 1) ≤ room
    · rw [if_pos all] at after
      rwa [if_pos (by omega)]
    · rw [if_neg all] at after
      rwa [if_neg (by omega)]
  · rw [if_neg fits] at h
    rwa [if_neg (by omega)]

/-- A container that is opened, if there is room for one more. -/
theorem reads_opened {outer : List Open} {awaited : Awaited} (h : Awaits outer awaited stack)
    (first : Awaited) {c : Char} (opens : c = '[' ∨ c = '\x7b')
    (steps : ∀ x : Lexeme, x.token = .punctuation c →
      valueStep room stack x
        = if stack.length ≥ room then .fail (.at_ .recursionLimit x.start) else .go stack first)
    (inside : stack.length < room → ∀ q,
      Reads room stack (d + 1) v rest (readFrom room stack first (lexemesFrom q tail)))
    (p : Position)
    : Reads room stack (d + 1) v rest
        (readFrom room outer awaited (lexemesFrom p (c :: tail))) := by
  have punctuation : c ∈ marks := by
    rcases opens with rfl | rfl <;> decide
  obtain ⟨x, token, lexemes⟩ := begins_punctuation punctuation p tail
  have starts : x.token.startsValue = true := by
    rw [token]
    rcases opens with rfl | rfl <;> rfl
  have stepped := (step_awaits h starts).trans (steps x token)
  rw [lexemes]
  by_cases full : stack.length ≥ room
  · rw [if_pos full] at stepped
    rw [Reads, if_neg (by omega)]
    exact ⟨x.start, readFrom_fail stepped⟩
  · rw [if_neg full] at stepped
    rw [readFrom_go stepped]
    exact inside (by omega) x.stop

end Sequences

inductive AwaitsName : Awaited → Fields Value → Prop where
  | first : AwaitsName .firstField []
  | next {before : Fields Value} : AwaitsName (.nextField before) before

/-- The name of a field is read, up to its value. -/
theorem readFrom_name {awaited : Awaited} {before : Fields Value} (h : AwaitsName awaited before)
    (stack : List Open) (name : String) (p : Position) (tail : List Char)
    : ∃ q, readFrom room stack awaited (lexemesFrom p (quote name ++ ':' :: tail))
      = readFrom room (.object before name :: stack) .value (lexemesFrom q tail) := by
  obtain ⟨x, token, lexemes⟩ := begins_quote p name (':' :: tail)
  have named : step room stack awaited x = .go stack (.colon before name) := by
    cases h <;> simp only [step, token]
  rw [lexemes, readFrom_go named]
  exact readFrom_punctuation (by decide) (fun x token => by simp only [step, token]) x.stop tail

variable {f : Number → Number}

mutual

/-- A written value is read, or it nests too deep. By induction on the value; the containers around
it are open on the stack.
-/
theorem reads_value (readAs : ∀ n, Number.ReadAs n (f n)) (v : Value) {outer stack : List Open}
    {awaited : Awaited} (h : Awaits outer awaited stack) (fits : stack.length ≤ room)
    (p : Position) (rest : List Char) (ends : EndsNumber rest)
    : Reads room stack v.depth (v.reread f) rest
        (readFrom room outer awaited (lexemesFrom p (v.chars ++ rest))) := by
  match v with
  | .null =>
      exact reads_atom h fits rfl (fun x token => by simp only [valueStep, token, Value.reread])
        (begins_null p rest)
  | .bool b =>
      exact reads_atom h fits rfl (fun x token => by simp only [valueStep, token, Value.reread])
        (begins_bool b p rest)
  | .number n =>
      exact reads_atom h fits rfl (fun x token => by simp only [valueStep, token, Value.reread])
        (readAs n p rest ends)
  | .string s =>
      exact reads_atom h fits rfl (fun x token => by simp only [valueStep, token, Value.reread])
        (begins_quote p s rest)
  | .array items =>
      have text : (Value.array items).chars ++ rest
          = '[' :: (Value.itemChars items ++ ']' :: rest) := by
        simp [Value.chars]
      rw [text]
      refine reads_opened h .firstItem (.inl rfl) (fun x token => by simp only [valueStep, token])
        (fun room q => ?_) p
      exact reads_items readAs items .firstItem room (fun _ => rfl) q rest
  | .object fields =>
      have text : (Value.object fields).chars ++ rest
          = '\x7b' :: (Value.fieldChars fields ++ '\x7d' :: rest) := by
        simp [Value.chars]
      rw [text]
      refine reads_opened h .firstField (.inr rfl) (fun x token => by simp only [valueStep, token])
        (fun room q => ?_) p
      exact reads_fields readAs fields .first room (fun _ => rfl) q rest

/-- Written items of an array are read, or one of them nests too deep. By induction on the items;
the items before them are those of the array that is innermost on the stack.
-/
theorem reads_items (readAs : ∀ n, Number.ReadAs n (f n)) (items : List Value)
    {stack : List Open} {awaited : Awaited} {before : List Value}
    (h : Awaits stack awaited (.array before :: stack)) (fits : stack.length < room)
    (none : items = [] → awaited = .firstItem) (p : Position) (rest : List Char)
    : Reads room stack (Value.depthOfItems items + 1)
        (.array (before.reverse ++ Value.rereadItems f items)) rest
        (readFrom room stack awaited
          (lexemesFrom p (Value.itemChars items ++ ']' :: rest))) := by
  match items with
  | [] =>
      obtain rfl := none rfl
      cases h
      rw [Reads, if_pos (by simp only [Value.depthOfItems]; omega)]
      exact readFrom_punctuation (by decide) (fun x token => by simp only [step, token]; rfl) p rest
  | [v] =>
      have first := reads_value readAs v h fits p (']' :: rest) (endsNumber_cons (by decide))
      have depth : Value.depthOfItems [v] = v.depth := Nat.max_zero _
      rw [depth, Value.itemChars]
      refine first.closed (by decide) fun x token => ?_
      simp only [step, token, List.reverse_cons, Value.rereadItems]
  | v :: w :: items =>
      have first := reads_value readAs v h fits p
        (',' :: (Value.itemChars (w :: items) ++ ']' :: rest)) (endsNumber_cons (by decide))
      rw [Value.itemChars, List.append_assoc, Value.depthOfItems]
      refine first.next (.nextItem (v.reread f :: before))
        (fun x token => by simp only [step, token]) fun q => ?_
      have awaits : Awaits stack (.nextItem (v.reread f :: before)) _ := .nextItem
      have more := reads_items readAs (w :: items) awaits fits (fun empty => by cases empty) q rest
      simpa [Value.rereadItems] using more

/-- Written fields of an object are read, or one of their values nests too deep. By induction on the
fields.
-/
theorem reads_fields (readAs : ∀ n, Number.ReadAs n (f n)) (fields : List (String × Value))
    {stack : List Open} {awaited : Awaited} {before : Fields Value}
    (h : AwaitsName awaited before) (fits : stack.length < room)
    (none : fields = [] → awaited = .firstField) (p : Position) (rest : List Char)
    : Reads room stack (Value.depthOfFields fields + 1)
        (.object (Value.rereadFields f before fields)) rest
        (readFrom room stack awaited
          (lexemesFrom p (Value.fieldChars fields ++ '\x7d' :: rest))) := by
  match fields with
  | [] =>
      obtain rfl := none rfl
      cases h
      rw [Reads, if_pos (by simp only [Value.depthOfFields]; omega)]
      exact readFrom_punctuation (by decide) (fun x token => by simp only [step, token]; rfl) p rest
  | [(name, v)] =>
      have depth : Value.depthOfFields [(name, v)] = v.depth := Nat.max_zero _
      have text : Value.fieldChars [(name, v)] ++ '\x7d' :: rest
          = quote name ++ ':' :: (v.chars ++ '\x7d' :: rest) := by
        simp [Value.fieldChars]
      rw [depth, text]
      obtain ⟨q, named⟩ := readFrom_name h stack name p (v.chars ++ '\x7d' :: rest)
      rw [named]
      have awaits : Awaits (.object before name :: stack) .value _ := .value
      have first := reads_value readAs v awaits fits q ('\x7d' :: rest)
        (endsNumber_cons (by decide))
      refine first.closed (by decide) fun x token => ?_
      simp only [step, token, Value.rereadFields]
  | (name, v) :: field :: fields =>
      obtain ⟨tail, further⟩ :
          ∃ tail, tail = Value.fieldChars (field :: fields) ++ '\x7d' :: rest :=
        ⟨_, rfl⟩
      have text : Value.fieldChars ((name, v) :: field :: fields) ++ '\x7d' :: rest
          = quote name ++ ':' :: (v.chars ++ ',' :: tail) := by
        simp [Value.fieldChars, further]
      rw [text, Value.depthOfFields]
      obtain ⟨q, named⟩ := readFrom_name h stack name p (v.chars ++ ',' :: tail)
      rw [named]
      have awaits : Awaits (.object before name :: stack) .value _ := .value
      have first := reads_value readAs v awaits fits q (',' :: tail)
        (endsNumber_cons (by decide))
      refine first.next (.nextField (before.insert name (v.reread f)))
        (fun x token => by simp only [step, token]) fun q => ?_
      rw [further]
      exact reads_fields readAs (field :: fields) .next fits (fun empty => by cases empty) q rest

end

/-- The written form of a value is read exactly if the value does not nest too deep, and no other
fault is found in it.
-/
theorem parse_render (readAs : ∀ n, Number.ReadAs n (f n)) (v : Value)
    : if v.depth ≤ maxDepth then parse v.render = .ok (v.reread f)
      else ∃ place, parse v.render = .error (.at_ .recursionLimit place) := by
  have awaits : Awaits [] .value [] := .value
  have roomy : ([] : List Open).length ≤ maxDepth := Nat.zero_le _
  have reads := reads_value readAs v awaits roomy .start [] (fun _ member => by cases member)
  have same : parse v.render
      = (readFrom maxDepth [] .value (lexemesFrom .start (v.chars ++ []))).bind fun read =>
          (checkEnd read.2).bind fun _ => .ok read.1 := by
    rw [List.append_nil, parse, lexemes, Value.render, String.toList_ofList]
    rfl
  rw [same]
  unfold Reads at reads
  rw [List.length_nil, Nat.zero_add] at reads
  split
  · next fits =>
      rw [if_pos fits] at reads
      obtain ⟨q, read⟩ := reads
      rw [read, lexemesFrom]
      rfl
  · next deep =>
      rw [if_neg deep] at reads
      obtain ⟨place, read⟩ := reads
      rw [read]
      exact ⟨place, rfl⟩

end Reader

end Folio.Json
