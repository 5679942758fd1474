import Folio.Json.Reader

/-! Strings are read as they were written, whatever characters they hold. -/

namespace Folio.Json

/-- The escape of a control character holds its number in base 16. The numbers are few, so that each
is tried.
-/
theorem hexNumber?_control {n : Nat} (h : n < 32)
    : Text.hexNumber? 4 ['0', '0', hexDigit (n / 16), hexDigit (n % 16)] = some n := by
  have all : ∀ m : Fin 32,
      Text.hexNumber? 4 ['0', '0', hexDigit (m.val / 16), hexDigit (m.val % 16)] = some m.val := by
    decide
  exact all ⟨n, h⟩

/-- The digits of a control character are read as that character. -/
theorem scanUnicode_control (p : Position) {c : Char} (h : c.toNat < 32) (rest : List Char)
    : scanUnicode p ('0' :: '0' :: hexDigit (c.toNat / 16) :: hexDigit (c.toNat % 16) :: rest)
      = .ok (c, 4) := by
  have below : ¬0xdc00 ≤ c.toNat := by omega
  have plain : c.toNat < 0xd800 := by omega
  simp [scanUnicode, hexNumber?_control h, below, plain, Char.ofNat_toNat]

/-- A letter after a backslash is read as the character that it stands for. -/
theorem scanString_letter (p : Position) {letter c : Char} (known : escapeOf? letter = some c)
    (notCode : letter ≠ 'u') (rest : List Char)
    : scanString p ('\\' :: letter :: rest)
      = (scanString ((p.next '\\').next letter) rest).map fun r => (c :: r.1, r.2) := by
  rw [scanString]
  · simp only [known]
  · exact notCode

/-- What is scanned of a written character is that character. The cases are those of the written
form: the seven letters after a backslash, control characters, and characters that stand for
themselves.
-/
theorem scanString_escapeChar (p : Position) (c : Char) (rest : List Char)
    : ∃ q,
        scanString p (escapeChar c ++ rest)
        = (scanString q rest).map fun r => (c :: r.1, r.2) := by
  unfold escapeChar
  split
  case h_8 notQuote notBackslash _ _ _ _ _ =>
    split
    · next control =>
        refine ⟨
          p.after ['\\', 'u', '0', '0', hexDigit (c.toNat / 16), hexDigit (c.toNat % 16)],
          ?_
        ⟩
        rw [List.cons_append, List.cons_append, scanString]
        simp only [List.cons_append, List.nil_append, scanUnicode_control _ control]
        rfl
    · next printable =>
        refine ⟨p.next c, ?_⟩
        rw [List.singleton_append, scanString]
        · rw [if_neg printable]
        · exact notQuote
        · exact fun same _ => notBackslash same
        · exact fun _ same _ => notBackslash same
        · exact fun _ _ same _ => notBackslash same
  all_goals exact ⟨_, scanString_letter p rfl (by decide) rest⟩

/-- What is scanned after the opening quote of a written string is the string, by induction on its
characters.
-/
theorem scanString_quoted (p : Position) (s rest : List Char)
    : ∃ q, scanString p (s.flatMap escapeChar ++ '"' :: rest) = .ok (s, q, rest) := by
  induction s generalizing p with
  | nil => exact ⟨p.next '"', by simp [scanString]⟩
  | cons c s ih =>
      obtain ⟨middle, first⟩ := scanString_escapeChar p c (s.flatMap escapeChar ++ '"' :: rest)
      obtain ⟨q, later⟩ := ih middle
      refine ⟨q, ?_⟩
      rw [List.flatMap_cons, List.append_assoc, first, later]
      rfl

/-- The lexemes of a written string: the string and the end. -/
theorem lexemes_quote (s : String)
    : ∃ p q r : Position,
        lexemes (String.ofList (quote s))
        = [
          { token := .string s, place := .start, start := p, stop := q },
          { token := .finish, place := q, start := q, stop := r }
        ] := by
  obtain ⟨q, scanned⟩ := scanString_quoted (Position.start.next '"') s.toList []
  refine ⟨Position.start.peek '"', q, q, ?_⟩
  rw [lexemes, String.toList_ofList, quote, List.cons_append, lexemesFrom]
  have blank : isJsonBlank '"' = false := by decide
  have lexeme : scanLexeme .start '"' (s.toList.flatMap escapeChar ++ ['"'])
      = (
        {
          token := .string s
          place := .start
          start := Position.start.peek '"'
          stop := q
        },
        []
      ) := by
    simp only [scanLexeme, scanned, String.ofList_toList]
  simp only [blank, lexeme, lexemesFrom]
  rfl

/-- A written string is read as that string. -/
theorem parseString_quote (s : String) : parseString (String.ofList (quote s)) = .ok s := by
  obtain ⟨_, _, _, cut⟩ := lexemes_quote s
  rw [parseString, cut]
  rfl

/-- A written string is read as a value that is that string. -/
theorem parse_quote (s : String) : parse (String.ofList (quote s)) = .ok (.string s) := by
  obtain ⟨_, _, _, cut⟩ := lexemes_quote s
  rw [parse, cut]
  rfl

/-- The written form of a truth value is read as that value. -/
theorem parse_bool (b : Bool) : parse (Value.bool b).render = .ok (.bool b) := by
  have read
      : (match parse (Value.bool b).render with
        | .ok value => decide (value = .bool b)
        | .error _ => false) = true := by
    cases b <;> decide +kernel
  split at read
  · next found => rw [found, of_decide_eq_true read]
  · exact absurd read Bool.false_ne_true

end Folio.Json
