/-! Digits and the numbers that they write. -/

namespace Folio.Text

def hexValue? (c : Char) : Option Nat :=
  if c.isDigit then some (c.toNat - 48)
  else if 'a' ≤ c && c ≤ 'f' then some (c.toNat - 87)
  else if 'A' ≤ c && c ≤ 'F' then some (c.toNat - 55)
  else none

/-- The number that digits of a base write after the digits of `value`. -/
def digitsFrom? (base value : Nat) : List Char → Option Nat
  | [] => some value
  | c :: rest =>
      match hexValue? c with
      | some digit => if digit < base then digitsFrom? base (value * base + digit) rest else none
      | none => none

/-- The number that digits of a base write; there is at least one. -/
def digitsNumber? (base : Nat) (s : List Char) : Option Nat :=
  if s.isEmpty then none else digitsFrom? base 0 s

/-- The number that the first `count` characters write in base 16. -/
def hexNumber? (count : Nat) (s : List Char) : Option Nat :=
  if s.length < count then none else digitsFrom? 16 0 (s.take count)

end Folio.Text
