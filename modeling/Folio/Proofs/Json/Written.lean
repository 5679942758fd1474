import Folio.Json.Printer
import Folio.Proofs.Number.Shortest
import Folio.Proofs.Text.Lines

/-! The characters of written JSON values. Numbers are written in digits, signs, a point, and the
letter before an exponent: what text means elsewhere, in HTML or between quotes, none of them does.
The compact written form of a value stands on one line: line ends occur in strings only, where they
are escaped.
-/

namespace Folio.Json

open Folio.Number (natDigits isDigit_of_mem_natDigits)
open Text (Unbroken)

-----------------------------------------------------------------------------------------
-- Numerals
-----------------------------------------------------------------------------------------

/-- Holds for the characters of which numbers are written. -/
def isNumeralChar (c : Char) : Bool :=
  c.isDigit || c == '-' || c == '+' || c == '.' || c == 'e'

def IsNumeral (s : List Char) : Prop :=
  ∀ c ∈ s, isNumeralChar c = true

instance (s : List Char) : Decidable (IsNumeral s) :=
  List.decidableBAll _ s

theorem IsNumeral.append {s t : List Char} (hs : IsNumeral s) (ht : IsNumeral t)
    : IsNumeral (s ++ t) :=
  List.forall_mem_append.mpr ⟨hs, ht⟩

theorem IsNumeral.cons {c : Char} {s : List Char} (hc : isNumeralChar c = true) (hs : IsNumeral s)
    : IsNumeral (c :: s) :=
  List.forall_mem_cons.mpr ⟨hc, hs⟩

theorem isNumeral_of_digits {s : List Char} (h : ∀ c ∈ s, c.isDigit = true) : IsNumeral s :=
  fun c member => by simp [isNumeralChar, h c member]

theorem isNumeral_natDigits (n : Nat) : IsNumeral (natDigits n) :=
  isNumeral_of_digits fun _ member => isDigit_of_mem_natDigits member

theorem isNumeral_replicate_zero (n : Nat) : IsNumeral (List.replicate n '0') := by
  intro c member
  obtain rfl := List.eq_of_mem_replicate member
  decide

/-- The digits of a decimal are some of those of a natural number. -/
theorem isNumeral_decimal (d : Nat) (power : Int)
    : IsNumeral (Folio.Number.Decimal.ofNat d power).digits := by
  intro c member
  have kept : c ∈ (natDigits d).reverse.dropWhile (· == '0') := List.mem_reverse.mp member
  exact isNumeral_natDigits d c (List.mem_reverse.mp (List.dropWhile_sublist _ |>.mem kept))

theorem isNumeral_shortest (x : Folio.Number.Binary64)
    : IsNumeral (Folio.Number.shortest x).digits := by
  unfold Folio.Number.shortest
  split
  · decide
  · simp only
    split
    · exact isNumeral_decimal _ _
    · exact isNumeral_decimal _ _

theorem isNumeral_positional {digits : List Char} (h : IsNumeral digits) (point : Int)
    : IsNumeral (Folio.Number.positional digits point) := by
  unfold Folio.Number.positional
  split
  · exact ((by decide : IsNumeral ['0', '.']).append (isNumeral_replicate_zero _)).append h
  · split
    · exact (h.append (isNumeral_replicate_zero _)).append (by decide)
    · refine IsNumeral.append (IsNumeral.append ?_ (by decide)) ?_
      · exact fun c member => h c (List.mem_of_mem_take member)
      · exact fun c member => h c (List.mem_of_mem_drop member)

theorem isNumeral_scientific {digits : List Char} (h : IsNumeral digits) (exponent : Int)
    : IsNumeral (Number.scientific digits exponent) := by
  have tail : IsNumeral
      ((if exponent < 0 then ['e', '-'] else ['e', '+']) ++ natDigits exponent.natAbs) := by
    refine IsNumeral.append ?_ (isNumeral_natDigits _)
    split <;> decide
  match digits, h with
  | [], _ => exact tail
  | [_], h => exact IsNumeral.cons (h _ List.mem_cons_self) tail
  | _ :: _ :: _, h =>
      obtain ⟨first, later⟩ := List.forall_mem_cons.mp h
      exact IsNumeral.append (IsNumeral.cons first (IsNumeral.cons (by decide) later)) tail

theorem isNumeral_realText (x : Folio.Number.Binary64) : IsNumeral (Number.realText x) := by
  have body (zero : Bool) (point : Int)
      : IsNumeral
          (if zero then ['0', '.', '0']
          else if -5 < point && point ≤ 16 then
            Folio.Number.positional (Folio.Number.shortest x).digits point
          else Number.scientific (Folio.Number.shortest x).digits (point - 1)) := by
    split
    · decide
    · split
      · exact isNumeral_positional (isNumeral_shortest x) _
      · exact isNumeral_scientific (isNumeral_shortest x) _
  simp only [Number.realText]
  split
  · exact IsNumeral.cons (by decide) (body _ _)
  · exact body _ _

/-- A number is written in numerals. -/
theorem isNumeral_text (n : Number) : IsNumeral n.text := by
  cases n with
  | integer n _ =>
      simp only [Number.text, Number.intText]
      split
      · exact IsNumeral.cons (by decide) (isNumeral_natDigits _)
      · exact isNumeral_natDigits _
  | real x _ => exact isNumeral_realText x

-----------------------------------------------------------------------------------------
-- One line
-----------------------------------------------------------------------------------------

/-- The written form of a number is not broken. -/
theorem unbroken_number (n : Number) : Unbroken n.text := by
  intro c member
  have numeral := isNumeral_text n c member
  constructor <;> rintro rfl <;> exact absurd numeral (by decide)

/-- A written character is not broken: line ends are written as letters. -/
theorem unbroken_escapeChar (c : Char) : Unbroken (escapeChar c) := by
  have hex {n : Nat} (h : n < 16) : hexDigit n ≠ '\n' ∧ hexDigit n ≠ '\r' := by
    have all : ∀ m : Fin 16, hexDigit m.val ≠ '\n' ∧ hexDigit m.val ≠ '\r' := by decide
    exact all ⟨n, h⟩
  unfold escapeChar
  split
  case h_8 _ _ notFeed notReturn _ _ _ =>
    split
    · next control =>
        simp only [Unbroken, List.forall_mem_cons]
        exact ⟨by decide, by decide, by decide, by decide, hex (by omega), hex (by omega),
          by simp⟩
    · intro x member
      obtain rfl := List.mem_singleton.mp member
      exact ⟨notFeed, notReturn⟩
  all_goals decide

theorem unbroken_quote (s : String) : Unbroken (quote s) := by
  refine Unbroken.append (Unbroken.cons (by decide) ?_) (by decide)
  intro c member
  obtain ⟨x, _, written⟩ := List.mem_flatMap.mp member
  exact unbroken_escapeChar x c written

mutual

/-- The compact written form of a value is not broken, by induction on the value. -/
theorem unbroken_chars (v : Value) : Unbroken v.chars := by
  cases v with
  | null => decide
  | bool b => cases b <;> decide
  | number n => exact unbroken_number n
  | string s => exact unbroken_quote s
  | array items =>
      exact Unbroken.append (Unbroken.cons (by decide) (unbroken_itemChars items)) (by decide)
  | object fields =>
      exact Unbroken.append (Unbroken.cons (by decide) (unbroken_fieldChars fields)) (by decide)

/-- The written form of the items of an array is not broken. -/
theorem unbroken_itemChars (items : List Value) : Unbroken (Value.itemChars items) := by
  match items with
  | [] => exact Text.unbroken_nil
  | [v] => exact unbroken_chars v
  | v :: w :: rest =>
      exact (unbroken_chars v).append
        (Unbroken.cons (by decide) (unbroken_itemChars (w :: rest)))

/-- The written form of the fields of an object is not broken. -/
theorem unbroken_fieldChars (fields : List (String × Value))
    : Unbroken (Value.fieldChars fields) := by
  match fields with
  | [] => exact Text.unbroken_nil
  | [(n, v)] =>
      exact (unbroken_quote n).append (Unbroken.cons (by decide) (unbroken_chars v))
  | (n, v) :: f :: rest =>
      exact ((unbroken_quote n).append (Unbroken.cons (by decide) (unbroken_chars v))).append
        (Unbroken.cons (by decide) (unbroken_fieldChars (f :: rest)))

end

end Folio.Json
