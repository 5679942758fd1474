import Folio.Proofs.Document.MarkupNames
import Folio.Proofs.Json.Written
import Folio.Proofs.Text.Blank

/-! JSON in the braces of a tag. The search for the end of a tag and the search for a closing brace
follow rules of their own for quotes and braces. In the compact written form of a JSON value both
find every quote closed and every brace paired, so that both pass it as a whole.
-/

namespace Folio.Document.Markup

-----------------------------------------------------------------------------------------
-- Searches
-----------------------------------------------------------------------------------------

/-- A search that passes `s` goes on as another one after it. -/
def Passes (find : List Char → Option Nat) (s : List Char) (next : List Char → Option Nat) : Prop :=
  ∀ rest, find (s ++ rest) = (next rest).map (· + s.length)

section

variable {find next last : List Char → Option Nat} {s t : List Char}

theorem Passes.nil : Passes find [] find := by
  intro rest
  simp

theorem Passes.append (first : Passes find s next) (later : Passes next t last)
    : Passes find (s ++ t) last := by
  intro rest
  rw [List.append_assoc, first, later, Option.map_map, List.length_append]
  refine Option.map_congr fun n _ => ?_
  simp only [Function.comp_apply]
  omega

theorem Passes.cons {c : Char} (first : Passes find [c] next) (later : Passes next s last)
    : Passes find (c :: s) last :=
  first.append later

/-- Where a search stops at the next character, it finds that character after what it passes. -/
theorem Passes.stop (h : Passes find s next) {rest : List Char} (stops : next rest = some 0)
    : find (s ++ rest) = some s.length := by
  rw [h, stops, Option.map_some, Nat.zero_add]

end

/-- Holds for characters that neither end a tag nor start a quote or a brace in it. -/
def IsPlain (c : Char) : Prop :=
  c ≠ '>' ∧ c ≠ '"' ∧ c ≠ '\'' ∧ c ≠ '\x7b' ∧ c ≠ '\x7d'

instance (c : Char) : Decidable (IsPlain c) :=
  inferInstanceAs (Decidable (_ ∧ _))

/-- The characters of names are plain. -/
theorem isPlain_of_isTagNameChar {c : Char} (h : isTagNameChar c = true) : IsPlain c := by
  refine ⟨?_, ?_, ?_, ?_, ?_⟩ <;> rintro rfl <;> exact absurd h (by decide)

/-- The search for the end of a tag passes plain characters, by induction on them. -/
theorem passes_plain {s : List Char} (plain : ∀ c ∈ s, IsPlain c)
    : Passes findTagEnd? s findTagEnd? := by
  induction s with
  | nil => exact .nil
  | cons c s ih =>
      obtain ⟨⟨notEnd, noQuote, noQuote', noBrace, noBrace'⟩, others⟩ :=
        List.forall_mem_cons.mp plain
      have first : Passes findTagEnd? [c] findTagEnd? := by
        intro rest
        simp [findTagEnd?, tagEnd?, notEnd, noQuote, noQuote', noBrace, noBrace']
      exact first.cons (ih others)

-----------------------------------------------------------------------------------------
-- Quotes and braces
-----------------------------------------------------------------------------------------

/-- Holds for characters that mean nothing in braces. -/
def IsInert (c : Char) : Prop :=
  c ≠ '"' ∧ c ≠ '\'' ∧ c ≠ '\x7b' ∧ c ≠ '\x7d'

instance (c : Char) : Decidable (IsInert c) :=
  inferInstanceAs (Decidable (_ ∧ _))

/-- What may stand in the quotes of a string, where a backslash hides the character after it. -/
inductive Quotable : List Char → Prop where
  | nil : Quotable []
  | char {c : Char} {s : List Char} (noQuote : c ≠ '"') (noHide : c ≠ '\\') (later : Quotable s)
    : Quotable (c :: s)
  | hidden {c : Char} {s : List Char} (later : Quotable s) : Quotable ('\\' :: c :: s)

/-- What may stand in braces: each quote is closed, and braces are paired. -/
inductive Enclosable : List Char → Prop where
  | nil : Enclosable []
  | char {c : Char} {s : List Char} (inert : IsInert c) (later : Enclosable s) : Enclosable (c :: s)
  | quoted {inside s : List Char} (quotable : Quotable inside) (later : Enclosable s)
    : Enclosable ('"' :: inside ++ '"' :: s)
  | braces {inside s : List Char} (enclosed : Enclosable inside) (later : Enclosable s)
    : Enclosable ('\x7b' :: inside ++ '\x7d' :: s)

theorem Enclosable.append {s t : List Char} (hs : Enclosable s) (ht : Enclosable t)
    : Enclosable (s ++ t) := by
  induction hs with
  | nil => exact ht
  | char inert _ ih => exact .char inert ih
  | quoted quotable _ ih => simpa using Enclosable.quoted quotable ih
  | braces enclosed _ _ ih => simpa using Enclosable.braces enclosed ih

theorem enclosable_of_inert {s : List Char} (h : ∀ c ∈ s, IsInert c) : Enclosable s := by
  induction s with
  | nil => exact .nil
  | cons c s ih =>
      obtain ⟨first, later⟩ := List.forall_mem_cons.mp h
      exact .char first (ih later)

theorem enclosable_word {s : List Char} (h : (s.all fun c => decide (IsInert c)) = true)
    : Enclosable s :=
  enclosable_of_inert fun c member => of_decide_eq_true (List.all_eq_true.mp h c member)

/-- A search through what stands in braces, which knows whether it is in quotes, whether the next
character is hidden, and in how many braces it is.
-/
structure BraceSearch (find : (inQuotes hidden : Bool) → (depth : Nat) → List Char → Option Nat)
    : Prop where
  inert : ∀ {c}, IsInert c →
    ∀ depth, Passes (find false false (depth + 1)) [c] (find false false (depth + 1))
  quote : ∀ depth, Passes (find false false (depth + 1)) ['"'] (find true false (depth + 1))
  quoted : ∀ {c}, c ≠ '"' → c ≠ '\\' →
    ∀ depth, Passes (find true false (depth + 1)) [c] (find true false (depth + 1))
  hide : ∀ depth, Passes (find true false (depth + 1)) ['\\'] (find true true (depth + 1))
  hidden : ∀ c depth, Passes (find true true (depth + 1)) [c] (find true false (depth + 1))
  unquote : ∀ depth, Passes (find true false (depth + 1)) ['"'] (find false false (depth + 1))
  enter : ∀ depth,
    Passes (find false false (depth + 1)) ['\x7b'] (find false false (depth + 2))
  leave : ∀ depth,
    Passes (find false false (depth + 2)) ['\x7d'] (find false false (depth + 1))

section

variable {find : (inQuotes hidden : Bool) → (depth : Nat) → List Char → Option Nat}

theorem BraceSearch.passes_quotable (h : BraceSearch find) {s : List Char} (quotable : Quotable s)
    (depth : Nat)
    : Passes (find true false (depth + 1)) s (find true false (depth + 1)) := by
  induction quotable with
  | nil => exact .nil
  | char noQuote noHide _ ih => exact (h.quoted noQuote noHide depth).cons ih
  | hidden _ ih => exact (h.hide depth).cons ((h.hidden _ depth).cons ih)

/-- Inside of braces, a search passes what may stand there. -/
theorem BraceSearch.passes (h : BraceSearch find) {s : List Char} (enclosable : Enclosable s)
    (depth : Nat)
    : Passes (find false false (depth + 1)) s (find false false (depth + 1)) := by
  induction enclosable generalizing depth with
  | nil => exact .nil
  | char inert _ ih => exact (h.inert inert depth).cons (ih depth)
  | quoted quotable _ ih =>
      have inside := (h.passes_quotable quotable depth).append ((h.unquote depth).cons (ih depth))
      exact (h.quote depth).cons inside
  | braces _ _ inner ih =>
      exact (h.enter depth).cons ((inner (depth + 1)).append ((h.leave depth).cons (ih depth)))

end

def findInBraces (inQuotes hidden : Bool) (depth : Nat) : List Char → Option Nat :=
  tagEnd? (if inQuotes then some '"' else none) depth hidden

theorem braceSearch_findInBraces : BraceSearch findInBraces where
  inert {c} inert depth rest := by
    obtain ⟨noQuote, noQuote', noBrace, noBrace'⟩ := inert
    simp [findInBraces, tagEnd?, noQuote, noQuote', noBrace, noBrace']
  quote depth rest := by simp [findInBraces, tagEnd?]
  quoted {c} noQuote noHide depth rest := by simp [findInBraces, tagEnd?, noQuote, noHide]
  hide depth rest := by simp [findInBraces, tagEnd?]
  hidden c depth rest := by simp [findInBraces, tagEnd?]
  unquote depth rest := by simp [findInBraces, tagEnd?]
  enter depth rest := by simp [findInBraces, tagEnd?]
  leave depth rest := by simp [findInBraces, tagEnd?]

theorem braceSearch_closingBrace? : BraceSearch closingBrace? where
  inert {c} inert depth rest := by
    obtain ⟨noQuote, -, noBrace, noBrace'⟩ := inert
    simp [closingBrace?, noQuote, noBrace, noBrace']
  quote depth rest := by simp [closingBrace?]
  quoted {c} noQuote noHide depth rest := by simp [closingBrace?, noQuote, noHide]
  hide depth rest := by simp [closingBrace?]
  hidden c depth rest := by simp [closingBrace?]
  unquote depth rest := by simp [closingBrace?]
  enter depth rest := by simp [closingBrace?]
  leave depth rest := by simp [closingBrace?]

-----------------------------------------------------------------------------------------
-- JSON in braces
-----------------------------------------------------------------------------------------

theorem enclosable_number (n : Json.Number) : Enclosable n.text := by
  refine enclosable_of_inert fun c member => ?_
  have numeral := Json.isNumeral_text n c member
  refine ⟨?_, ?_, ?_, ?_⟩ <;> rintro rfl <;> exact absurd numeral (by decide)

/-- A character as it is written in a string neither ends the string nor hides what comes after it.
-/
theorem quotable_escapeChar (c : Char) {s : List Char} (later : Quotable s)
    : Quotable (Json.escapeChar c ++ s) := by
  have digit {n : Nat} (h : n < 16) : Json.hexDigit n ≠ '"' ∧ Json.hexDigit n ≠ '\\' := by
    have all : ∀ m : Fin 16, Json.hexDigit m.val ≠ '"' ∧ Json.hexDigit m.val ≠ '\\' := by decide
    exact all ⟨n, h⟩
  unfold Json.escapeChar
  split
  case h_8 _ noQuote noHide _ _ _ _ _ =>
    split
    · have high := digit (n := c.toNat / 16) (by omega)
      have low := digit (n := c.toNat % 16) (by omega)
      have digits : Quotable (Json.hexDigit (c.toNat / 16) :: Json.hexDigit (c.toNat % 16) :: s) :=
        .char high.1 high.2 (.char low.1 low.2 later)
      exact .hidden (.char (by decide) (by decide) (.char (by decide) (by decide) digits))
    · exact .char noQuote noHide later
  all_goals exact .hidden later

theorem quotable_escape (s : List Char) : Quotable (s.flatMap Json.escapeChar) := by
  induction s with
  | nil => exact .nil
  | cons c s ih => exact quotable_escapeChar c ih

theorem enclosable_quote (s : String) : Enclosable (Json.quote s) :=
  .quoted (quotable_escape s.toList) .nil

mutual

/-- The compact written form of a value may stand in braces, by induction on the value. -/
theorem enclosable_chars (v : Json.Value) : Enclosable v.chars := by
  match v with
  | .null => exact enclosable_word (by decide)
  | .bool true => exact enclosable_word (by decide)
  | .bool false => exact enclosable_word (by decide)
  | .number n => exact enclosable_number n
  | .string s => exact enclosable_quote s
  | .array items =>
      exact .char (by decide) ((enclosable_itemChars items).append (.char (by decide) .nil))
  | .object fields => exact .braces (enclosable_fieldChars fields) .nil

theorem enclosable_itemChars (items : List Json.Value)
    : Enclosable (Json.Value.itemChars items) := by
  match items with
  | [] => exact .nil
  | [v] => exact enclosable_chars v
  | v :: w :: rest =>
      exact (enclosable_chars v).append (.char (by decide) (enclosable_itemChars (w :: rest)))

theorem enclosable_fieldChars (fields : List (String × Json.Value))
    : Enclosable (Json.Value.fieldChars fields) := by
  match fields with
  | [] => exact .nil
  | [(n, v)] => exact (enclosable_quote n).append (.char (by decide) (enclosable_chars v))
  | (n, v) :: f :: rest =>
      have field : Enclosable (Json.quote n ++ ':' :: v.chars) :=
        (enclosable_quote n).append (.char (by decide) (enclosable_chars v))
      exact field.append (.char (by decide) (enclosable_fieldChars (f :: rest)))

end

/-- The compact written form of a value has no blanks at its ends. -/
theorem trim_chars (v : Json.Value) : Text.trim v.chars = v.chars := by
  match v with
  | .null => rfl
  | .bool true => rfl
  | .bool false => rfl
  | .number n =>
      refine Text.trim_visible fun c member => ?_
      have numeral := Json.isNumeral_text n c member
      simp only [Json.isNumeralChar, Bool.or_eq_true, beq_iff_eq, or_assoc] at numeral
      rcases numeral with digit | rfl | rfl | rfl | rfl
      · exact not_isBlank_of_isTagNameChar (by simp [isTagNameChar, Char.isAlphanum, digit])
      all_goals decide
  | .string s => exact Text.trim_between (by decide) (by decide) _
  | .array items => exact Text.trim_between (by decide) (by decide) _
  | .object fields => exact Text.trim_between (by decide) (by decide) _

end Folio.Document.Markup
