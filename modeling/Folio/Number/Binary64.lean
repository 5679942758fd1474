import Folio.Number.Power

/-! Binary fractions of 64 bits, computed in exact natural-number arithmetic. A finite value is
`mantissa * 2 ^ exponent`; rounding a quotient goes to the nearest value and from a tie to the
even mantissa.
-/

namespace Folio.Number

/-- A binary fraction of 64 bits: one bit of sign, eleven of exponent and 52 of mantissa. -/
structure Binary64 where
  bits : UInt64
deriving DecidableEq, Inhabited

namespace Binary64

/-- Holds if the bit of the sign is set. -/
def isNegative (x : Binary64) : Bool :=
  x.bits.toNat / twoTo 63 == 1

/-- The bits of the exponent as a number. -/
def biasedExponent (x : Binary64) : Nat :=
  x.bits.toNat / twoTo 52 % twoTo 11

/-- The bits of the mantissa as a number. -/
def fraction (x : Binary64) : Nat :=
  x.bits.toNat % twoTo 52

/-- Holds for all but the infinities and the values that are not numbers. -/
def isFinite (x : Binary64) : Bool :=
  x.biasedExponent != 2047

/-- The mantissa of a finite value, without its sign. -/
def mantissa (x : Binary64) : Nat :=
  if x.biasedExponent == 0 then x.fraction else x.fraction + twoTo 52

/-- The exponent of two that belongs to `mantissa`. -/
def exponent (x : Binary64) : Int :=
  if x.biasedExponent == 0 then -1074 else (x.biasedExponent : Int) - 1075

/-- Holds for zero of either sign. -/
def isZero (x : Binary64) : Bool :=
  x.isFinite && x.mantissa == 0

/-- The infinity above all values. -/
def infinity : Binary64 :=
  ⟨UInt64.ofNat (2047 * twoTo 52)⟩

/-- Zero without a sign. -/
def zero : Binary64 :=
  ⟨0⟩

/-- The value with its sign turned. -/
def neg (x : Binary64) : Binary64 :=
  ⟨UInt64.ofNat ((x.bits.toNat + twoTo 63) % twoTo 64)⟩

/-- The value of mantissa `m` and exponent `e` for `m ≤ 2 ^ 53` and `e ≥ -1074`, with `m ≥ 2 ^ 52`
unless `e = -1074`; infinity when the exponent is too large.
-/
def compose (m : Nat) (e : Int) : Binary64 :=
  let (m, e) := if m == twoTo 53 then (twoTo 52, e + 1) else (m, e)
  if m < twoTo 52 then ⟨UInt64.ofNat m⟩
  else
    let biased := (e + 1075).toNat
    if biased ≥ 2047 then infinity else ⟨UInt64.ofNat (biased * twoTo 52 + (m - twoTo 52))⟩

/-- The quotient rounded to a natural number, from a tie to the even one. -/
def divRound (num den : Nat) : Nat :=
  let q := num / den
  let r := num % den
  if 2 * r < den then q
  else if 2 * r > den then q + 1
  else if q % 2 == 0 then q else q + 1

/-- The value nearest to `num / den`, from a tie the one with the even mantissa; infinity when the
quotient is too large.
-/
def ofRatio (num den : Nat) : Binary64 :=
  if num == 0 || den == 0 then zero
  else
    let guess : Int := (num.log2 : Int) - (den.log2 : Int) - 52
    let small : Bool :=
      if guess + 52 ≥ 0 then num < den * twoTo (guess + 52).toNat
      else num * twoTo (-(guess + 52)).toNat < den
    let e := max (if small then guess - 1 else guess) (-1074)
    let m :=
      if e ≥ 0 then divRound num (den * twoTo e.toNat) else divRound (num * twoTo (-e).toNat) den
    compose m e

/-- The value nearest to a natural number. -/
def ofNat (n : Nat) : Binary64 :=
  ofRatio n 1

/-- The numerator and the denominator of a finite value without its sign. -/
def ratio (x : Binary64) : Nat × Nat :=
  if x.exponent ≥ 0 then (x.mantissa * twoTo x.exponent.toNat, 1)
  else (x.mantissa, twoTo (-x.exponent).toNat)

/-- The value nearest to `digits * 10 ^ power`. -/
def ofDecimal (digits : Nat) (power : Int) : Binary64 :=
  if power ≥ 0 then ofRatio (digits * tenTo power.toNat) 1
  else ofRatio digits (tenTo (-power).toNat)

end Binary64

end Folio.Number
