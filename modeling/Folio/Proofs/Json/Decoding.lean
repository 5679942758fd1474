import Folio.Json.Decode
import Folio.Proofs.Json.Numbers
import Folio.Proofs.Json.Steps

/-! Readers of a known shape at written values. Such a reader decodes a text if it reads the text
whatever follows, and nothing of what follows. An object is decoded if its fields are taken one
after the other.
-/

namespace Folio.Json

open Decoder (colon fieldName? fields objectBody)

/-- A reader makes a value of a text, and leaves what follows the text. -/
def Decodes {α : Type} (read : Decoder α) (text : List Char) (a : α) : Prop :=
  ∀ p rest, EndsNumber rest →
    ∃ q, read (lexemesFrom p (text ++ rest)) = .ok (a, lexemesFrom q rest)
      ∧ (lexemesFrom q rest).length < (lexemesFrom p (text ++ rest)).length

variable {α β σ : Type}

/-- What is made of a decoded value. -/
theorem Decodes.of_ok {read : Decoder α} {text : List Char} {a : α} (decodes : Decodes read text a)
    {other : Decoder β} {b : β}
    (makes : ∀ xs rest, read xs = .ok (a, rest) → other xs = .ok (b, rest))
    : Decodes other text b := by
  intro p rest ends
  obtain ⟨q, reads, shorter⟩ := decodes p rest ends
  exact ⟨q, makes _ _ reads, shorter⟩

/-- What is made of a value that is decoded after a colon. -/
theorem Decodes.afterColon {read : Decoder α} {text : List Char} {a : α}
    (decodes : Decodes read text a) {other : Decoder β} {b : β}
    (makes : ∀ xs ys rest, colon xs = .ok (⟨⟩, ys) → read ys = .ok (a, rest) →
      other xs = .ok (b, rest))
    : Decodes other (':' :: text) b := by
  intro p rest ends
  obtain ⟨x, token, lexemes⟩ := begins_punctuation (c := ':') (by decide) p (text ++ rest)
  obtain ⟨q, reads, shorter⟩ := decodes x.stop rest ends
  rw [List.cons_append, lexemes]
  refine ⟨q, makes _ _ _ ?_ reads, Nat.lt_succ_of_lt shorter⟩
  simp only [colon, token]

-----------------------------------------------------------------------------------------
-- Values of one lexeme
-----------------------------------------------------------------------------------------

/-- A text of one lexeme is decoded if its token is. -/
theorem decodes_of_begins {read : Decoder α} {text : List Char} {token : Token} {a : α}
    (begins : ∀ p rest, EndsNumber rest → Begins token p (text ++ rest) rest)
    (reads : ∀ (x : Lexeme) rest, x.token = token → read (x :: rest) = .ok (a, rest))
    : Decodes read text a := by
  intro p rest ends
  obtain ⟨x, isToken, lexemes⟩ := begins p rest ends
  rw [lexemes]
  exact ⟨x.stop, reads x _ isToken, Nat.lt_succ_self _⟩

theorem decodes_string (s : String) : Decodes Decoder.string (quote s) s := by
  refine decodes_of_begins (fun p rest _ => begins_quote p s rest) fun x rest token => ?_
  simp only [Decoder.string, Decoder.ofReader, readString, token]

theorem decodes_integer {n : Int} (fits : -9223372036854775808 ≤ n ∧ n ≤ 18446744073709551615)
    (small : n ≤ 9223372036854775807)
    : Decodes Decoder.integer (Number.integer n fits).text n := by
  refine decodes_of_begins (fun p rest ends => readAs_integer n fits p rest ends)
    fun x rest token => ?_
  simp only [Decoder.integer, token, if_pos small]

/-- What may be `null` is decoded as what it is. -/
theorem decodes_optional {read : Decoder α} {text : List Char} {token : Token} {a : α}
    (begins : ∀ p rest, EndsNumber rest → Begins token p (text ++ rest) rest)
    (notNull : token ≠ .null) (decodes : Decodes read text a)
    : Decodes (Decoder.optional read) text (some a) := by
  intro p rest ends
  obtain ⟨x, isToken, lexemes⟩ := begins p rest ends
  obtain ⟨q, reads, shorter⟩ := decodes p rest ends
  refine ⟨q, ?_, shorter⟩
  rw [lexemes] at reads ⊢
  unfold Decoder.optional
  split
  · next same =>
      obtain rfl := (List.cons.inj same).1
      exact absurd isToken.symm notNull
  · rw [reads]
    rfl

-----------------------------------------------------------------------------------------
-- Any values
-----------------------------------------------------------------------------------------

/-- A value that is read back from its written form is read wherever there is room for it. -/
theorem decodes_value {v : Value} (readBack : parse v.render = .ok v) {room : Nat}
    (fits : v.depth ≤ room)
    : Decodes (Decoder.value room) v.chars v := by
  obtain ⟨f, readAs⟩ := exists_readAs_all
  have same : v.reread f = v := by
    have parsed := parse_render readAs v
    rw [readBack] at parsed
    split at parsed
    · exact (Except.ok.inj parsed).symm
    · obtain ⟨_, failed⟩ := parsed
      cases failed
  intro p rest ends
  have awaits : Awaits [] .value [] := .value
  have roomy : ([] : List Open).length ≤ room := Nat.zero_le room
  have reads := reads_value readAs v awaits roomy p rest ends
  rw [Reads, if_pos (by simpa using fits), same] at reads
  obtain ⟨q, read⟩ := reads
  have value : readValue room (lexemesFrom p (v.chars ++ rest)) = .ok (v, lexemesFrom q rest) := by
    rw [readValue, read]
    cases lexemes : lexemesFrom q rest with
    | nil => exact absurd lexemes (lexemesFrom_ne_nil q rest)
    | cons => rfl
  refine ⟨q, ?_, length_lt_of_readValue value⟩
  simp only [Decoder.value, Decoder.ofReader, value]

-----------------------------------------------------------------------------------------
-- Objects
-----------------------------------------------------------------------------------------

/-- A reader of fields takes written fields one after the other. -/
inductive TakesAll (take : σ → String → Decoder σ) : σ → List (String × Value) → σ → Prop where
  | nil {s : σ} : TakesAll take s [] s
  | cons {s t u : σ} {name : String} {v : Value} {entries : List (String × Value)}
      (first : Decodes (take s name) (':' :: v.chars) t) (more : TakesAll take t entries u)
      : TakesAll take s ((name, v) :: entries) u

theorem TakesAll.append {take : σ → String → Decoder σ} {s t u : σ}
    {entries others : List (String × Value)} (h : TakesAll take s entries t)
    (more : TakesAll take t others u)
    : TakesAll take s (entries ++ others) u := by
  induction h with
  | nil => exact more
  | cons first _ ih => exact .cons first (ih more)

/-- The written fields that follow another one. -/
def laterFieldChars : List (String × Value) → List Char
  | [] => []
  | (name, v) :: rest => ',' :: quote name ++ ':' :: v.chars ++ laterFieldChars rest

theorem fieldChars_cons (name : String) (v : Value) (rest : List (String × Value))
    : Value.fieldChars ((name, v) :: rest)
      = quote name ++ ':' :: v.chars ++ laterFieldChars rest := by
  induction rest generalizing name v with
  | nil => simp [Value.fieldChars, laterFieldChars]
  | cons entry rest ih =>
      obtain ⟨next, w⟩ := entry
      rw [Value.fieldChars, ih, laterFieldChars]
      simp

theorem endsNumber_laterFieldChars (entries : List (String × Value)) (rest : List Char)
    : EndsNumber (laterFieldChars entries ++ '\x7d' :: rest) := by
  cases entries <;> exact endsNumber_cons (by decide)

section Objects

variable {take : σ → String → Decoder σ} {s t : σ} {entries : List (String × Value)}

/-- A field is taken if its value is, after its name. -/
theorem fields_named {name : String} {v : Value}
    (decodes : Decodes (take s name) (':' :: v.chars) t) {first : Bool} {xs : List Lexeme}
    {p : Position} {tail : List Char}
    (named : fieldName? first xs = .ok (some name, lexemesFrom p (':' :: v.chars ++ tail)))
    (ends : EndsNumber tail) (room : Nat)
    : ∃ q, fields take first s (room + 1) xs = fields take false t room (lexemesFrom q tail)
        ∧ (lexemesFrom q tail).length < (lexemesFrom p (':' :: v.chars ++ tail)).length := by
  obtain ⟨q, taken, shorter⟩ := decodes p tail ends
  refine ⟨q, ?_, shorter⟩
  rw [fields, named]
  simp only [bind, Except.bind, taken]

/-- Fields after another one are taken up to the end of their object, by induction on them. -/
theorem fields_of_takesAll (taken : TakesAll take s entries t) (p : Position) (rest : List Char)
    {room : Nat}
    (enough : (lexemesFrom p (laterFieldChars entries ++ '\x7d' :: rest)).length ≤ room)
    : ∃ x q, x.token = .punctuation '\x7d'
        ∧ fields take false s room (lexemesFrom p (laterFieldChars entries ++ '\x7d' :: rest))
          = .ok (t, x :: lexemesFrom q rest)
        ∧ (lexemesFrom q rest).length
          < (lexemesFrom p (laterFieldChars entries ++ '\x7d' :: rest)).length := by
  induction taken generalizing p room with
  | nil =>
      obtain ⟨x, token, lexemes⟩ := begins_punctuation (c := '\x7d') (by decide) p rest
      rw [laterFieldChars, List.nil_append, lexemes] at enough ⊢
      cases room with
      | zero => cases enough
      | succ room =>
          refine ⟨x, x.stop, token, ?_, Nat.lt_succ_self _⟩
          simp only [fields, fieldName?, token]
          rfl
  | @cons s t u name v entries first more ih =>
      obtain ⟨tail, following⟩ : ∃ tail, tail = laterFieldChars entries ++ '\x7d' :: rest :=
        ⟨_, rfl⟩
      have text : laterFieldChars ((name, v) :: entries) ++ '\x7d' :: rest
          = ',' :: (quote name ++ (':' :: v.chars ++ tail)) := by
        simp [laterFieldChars, following]
      obtain ⟨x, comma, lexemes⟩ := begins_punctuation (c := ',') (by decide) p
        (quote name ++ (':' :: v.chars ++ tail))
      obtain ⟨y, isName, named⟩ := begins_quote x.stop name (':' :: v.chars ++ tail)
      rw [text, lexemes, named] at enough ⊢
      have ends : EndsNumber tail := following ▸ endsNumber_laterFieldChars entries rest
      have here
          : fieldName? false (x :: y :: lexemesFrom y.stop (':' :: v.chars ++ tail))
            = .ok (some name, lexemesFrom y.stop (':' :: v.chars ++ tail)) := by
        simp only [fieldName?, comma, isName, Bool.false_eq_true, if_false]
      cases room with
      | zero => cases enough
      | succ room =>
          obtain ⟨q, taken, shorter⟩ := fields_named first here ends room
          simp only [List.length_cons] at enough ⊢
          subst following
          obtain ⟨z, r, close, read, less⟩ := @ih q room (by omega)
          exact ⟨z, r, close, taken.trans read, by omega⟩

/-- An object whose fields were taken is finished at its end. -/
theorem objectBody_of_fields {finish : σ → Except Fault α} {a : α} (finished : finish t = .ok a)
    {x : Lexeme} (close : x.token = .punctuation '\x7d') {xs rest : List Lexeme}
    (taken : fields take true s (xs.length + 1) xs = .ok (t, x :: rest))
    : objectBody take s finish xs = .ok (a, rest) := by
  simp only [objectBody, taken, finished, bind, Except.bind, pure, Except.pure, Decoder.placed,
    Except.mapError, Decoder.objectEnd, close]

/-- The fields of an object are taken up to its end. -/
theorem objectBody_of_takesAll {finish : σ → Except Fault α} {a : α}
    (taken : TakesAll take s entries t) (finished : finish t = .ok a) (p : Position)
    (rest : List Char)
    : ∃ q, objectBody take s finish (lexemesFrom p (Value.fieldChars entries ++ '\x7d' :: rest))
          = .ok (a, lexemesFrom q rest)
        ∧ (lexemesFrom q rest).length
          < (lexemesFrom p (Value.fieldChars entries ++ '\x7d' :: rest)).length := by
  cases taken with
  | nil =>
      obtain ⟨x, close, lexemes⟩ := begins_punctuation (c := '\x7d') (by decide) p rest
      rw [Value.fieldChars, List.nil_append, lexemes]
      refine ⟨x.stop, objectBody_of_fields finished close ?_, Nat.lt_succ_self _⟩
      simp only [fields, fieldName?, close]
      rfl
  | @cons _ t u name v entries first more =>
      obtain ⟨tail, following⟩ : ∃ tail, tail = laterFieldChars entries ++ '\x7d' :: rest :=
        ⟨_, rfl⟩
      have text : Value.fieldChars ((name, v) :: entries) ++ '\x7d' :: rest
          = quote name ++ (':' :: v.chars ++ tail) := by
        simp [fieldChars_cons, following]
      obtain ⟨x, isName, named⟩ := begins_quote p name (':' :: v.chars ++ tail)
      rw [text, named]
      have ends : EndsNumber tail := following ▸ endsNumber_laterFieldChars entries rest
      have here
          : fieldName? true (x :: lexemesFrom x.stop (':' :: v.chars ++ tail))
            = .ok (some name, lexemesFrom x.stop (':' :: v.chars ++ tail)) := by
        simp only [fieldName?, isName, if_true]
      obtain ⟨xs, isXs⟩ : ∃ xs, xs = x :: lexemesFrom x.stop (':' :: v.chars ++ tail) := ⟨_, rfl⟩
      rw [← isXs] at here ⊢
      obtain ⟨q, taken, shorter⟩ := fields_named first here ends xs.length
      have long : (lexemesFrom q tail).length < xs.length := by
        rw [isXs]
        exact Nat.lt_succ_of_lt shorter
      subst following
      obtain ⟨y, r, close, read, less⟩ := fields_of_takesAll more q rest (Nat.le_of_lt long)
      exact ⟨r, objectBody_of_fields finished close (taken.trans read), Nat.lt_trans less long⟩

/-- A reader of objects decodes a written object whose fields it takes. -/
theorem decodes_object {finish : σ → Except Fault α} {a : α} {read : Decoder α}
    (opens : ∀ (x : Lexeme) rest, x.token = .punctuation '\x7b' →
      read (x :: rest) = objectBody take s finish rest)
    (taken : TakesAll take s entries t) (finished : finish t = .ok a)
    : Decodes read (Value.object entries).chars a := by
  intro p rest _
  have text : (Value.object entries).chars ++ rest
      = '\x7b' :: (Value.fieldChars entries ++ '\x7d' :: rest) := by
    simp [Value.chars]
  obtain ⟨x, token, lexemes⟩ := begins_punctuation (c := '\x7b') (by decide) p
    (Value.fieldChars entries ++ '\x7d' :: rest)
  obtain ⟨q, body, shorter⟩ := objectBody_of_takesAll taken finished x.stop rest
  rw [text, lexemes, opens x _ token]
  exact ⟨q, body, Nat.lt_succ_of_lt shorter⟩

end Objects

/-- A text that one value of a shape is written in is read as the value. -/
theorem run_of_decodes {read : Decoder α} {text : List Char} {a : α} (decodes : Decodes read text a)
    : Decoder.run read (String.ofList text) = .ok a := by
  obtain ⟨q, reads, -⟩ := decodes .start [] fun _ member => by cases member
  rw [List.append_nil] at reads
  rw [Decoder.run, Decoder.runOn, lexemes, String.toList_ofList, reads, lexemesFrom]
  rfl

end Folio.Json
