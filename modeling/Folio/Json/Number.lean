import Folio.Number.Shortest

/-! Numbers of JSON documents: integers that fit 64 bits, with or without a sign, and finite binary
fractions. Both have one written form.
-/

namespace Folio.Json

open Folio.Number

/-- An integer that fits 64 bits, signed or unsigned, or a finite binary fraction. -/
inductive Number where
  | integer (value : Int) (fits : -9223372036854775808 ≤ value ∧ value ≤ 18446744073709551615)
  | real (value : Binary64) (finite : value.isFinite = true)
deriving DecidableEq

namespace Number

instance : Inhabited Number :=
  ⟨.integer 0 (by decide)⟩

/-- The integer as a number, if it fits. -/
def ofInt? (n : Int) : Option Number :=
  if h : -9223372036854775808 ≤ n ∧ n ≤ 18446744073709551615 then some (.integer n h) else none

/-- The fraction as a number, if it is finite. -/
def ofReal? (x : Binary64) : Option Number :=
  if h : x.isFinite = true then some (.real x h) else none

/-- A natural number below `2 ^ 32` as a number. -/
def ofUInt32 (n : UInt32) : Number :=
  .integer n.toNat (by have := n.toNat_lt; omega)

/-- The decimal written with an exponent, whose sign is always there. -/
def scientific (digits : List Char) (exponent : Int) : List Char :=
  let tail :=
    (if exponent < 0 then ['e', '-'] else ['e', '+']) ++ natDigits exponent.natAbs
  match digits with
  | [] => tail
  | [d] => d :: tail
  | d :: rest => d :: '.' :: rest ++ tail

/-- A finite fraction is written with the fewest digits that read back, positionally from `1e-5`
to below `1e16` and otherwise with an exponent.
-/
def realText (x : Binary64) : List Char :=
  let d := shortest x
  let point : Int := d.digits.length + d.power
  let body :=
    if x.isZero then ['0', '.', '0']
    else if -5 < point && point ≤ 16 then positional d.digits point
    else scientific d.digits (point - 1)
  if x.isNegative then '-' :: body else body

/-- An integer is written in decimal. -/
def intText (n : Int) : List Char :=
  if n < 0 then '-' :: natDigits n.natAbs else natDigits n.natAbs

/-- The written form of a number. -/
def text : Number → List Char
  | .integer n _ => intText n
  | .real x _ => realText x

/-- Equality by value: the two zeros are equal, but an integer never equals a fraction. -/
def same : Number → Number → Bool
  | .integer m _, .integer n _ => m == n
  | .real x _, .real y _ => x == y || (x.isZero && y.isZero)
  | _, _ => false

end Number

end Folio.Json
