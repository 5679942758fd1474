import Folio.Number.Binary64

/-! The shortest decimal that reads back as a given binary fraction, and of those the nearest. -/

namespace Folio.Number

/-- A decimal `digits * 10 ^ power` whose first and last digits are not zero. -/
structure Decimal where
  digits : List Char
  power : Int
deriving DecidableEq, Inhabited

/-- A comparison of fractions `a * 2 ^ x * 10 ^ y`, all exponents brought to natural numbers. -/
private def scaled (n : Nat) (two ten : Int) (lowTwo lowTen : Int) : Nat :=
  n * twoTo (two - lowTwo).toNat * tenTo (ten - lowTen).toNat

/-- The interval of reals that round to `m * 2 ^ q`, as twice-scaled bounds: a real is inside when
it lies between the bounds, the bounds themselves included iff `m` is even.
-/
structure Rounding where
  low : Nat
  mid : Nat
  high : Nat
  power : Int
  closed : Bool

/-- The interval around a finite value that is not zero, with bounds in quarters of its unit. -/
def roundingOf (x : Binary64) : Rounding :=
  let m := x.mantissa
  let lowGap := if x.fraction == 0 && x.biasedExponent > 1 then 1 else 2
  { low := 4 * m - lowGap,
    mid := 4 * m,
    high := 4 * m + 2,
    power := x.exponent - 2,
    closed := m % 2 == 0 }

namespace Rounding

/-- Holds if `d * 10 ^ ten` reads back as the value. -/
def accepts (r : Rounding) (d : Nat) (ten : Int) : Bool :=
  let lowTwo := min r.power 0
  let lowTen := min ten 0
  let point := scaled d 0 ten lowTwo lowTen
  let low := scaled r.low r.power 0 lowTwo lowTen
  let high := scaled r.high r.power 0 lowTwo lowTen
  if r.closed then low ≤ point && point ≤ high else low < point && point < high

/-- The quotient of the value by `10 ^ ten`, rounded down. -/
def floorAt (r : Rounding) (ten : Int) : Nat :=
  let lowTwo := min r.power 0
  let lowTen := min ten 0
  scaled r.mid r.power 0 lowTwo lowTen / scaled 1 0 ten lowTwo lowTen

/-- The distance from the value to `d * 10 ^ ten`, in a unit that depends on `ten` only. -/
def distance (r : Rounding) (d : Nat) (ten : Int) : Nat :=
  let lowTwo := min r.power 0
  let lowTen := min ten 0
  let value := scaled r.mid r.power 0 lowTwo lowTen
  let point := scaled d 0 ten lowTwo lowTen
  (value - point) + (point - value)

/-- The point of the grid of step `10 ^ ten` that reads back and is nearest to the value; from a
tie the even one.
-/
def onGrid? (r : Rounding) (ten : Int) : Option Nat :=
  let below := r.floorAt ten
  let above := below + 1
  match r.accepts below ten && below != 0, r.accepts above ten with
  | false, false => none
  | true, false => some below
  | false, true => some above
  | true, true =>
      let down := r.distance below ten
      let up := r.distance above ten
      if down < up || (down == up && below % 2 == 0) then some below else some above

/-- The first hit on the grids from the step `10 ^ ten` down, at most `count` of them. -/
def search (r : Rounding) (ten : Int) : Nat → Option (Nat × Int)
  | 0 => none
  | count + 1 =>
      match r.onGrid? ten with
      | some d => some (d, ten)
      | none => r.search (ten - 1) count

end Rounding

/-- The decimal digits of a natural number. -/
def natDigits (n : Nat) : List Char :=
  (Nat.toDigits 10 n)

/-- The decimal of a number without its trailing zeros. -/
def Decimal.ofNat (d : Nat) (ten : Int) : Decimal :=
  let digits := natDigits d
  let kept := (digits.reverse.dropWhile (· == '0')).reverse
  { digits := kept, power := ten + (digits.length - kept.length : Nat) }

/-- The fewest decimal digits that read back as a finite value, without its sign; zero has the one
digit `0`.
-/
def shortest (x : Binary64) : Decimal :=
  if x.mantissa == 0 then { digits := ['0'], power := 0 }
  else
    let r := roundingOf x
    let top : Int := ((r.mid.log2 : Int) + r.power) * 30103 / 100000 + 1
    match r.search top 19 with
    | some (d, ten) => Decimal.ofNat d ten
    | none => Decimal.ofNat r.mid 0

/-- Digits written positionally: the point stands after `point` of them. -/
def positional (digits : List Char) (point : Int) : List Char :=
  if point ≤ 0 then
    ['0', '.'] ++ List.replicate (-point).toNat '0' ++ digits
  else if point.toNat ≥ digits.length then
    digits ++ List.replicate (point.toNat - digits.length) '0' ++ ['.', '0']
  else
    digits.take point.toNat ++ ['.'] ++ digits.drop point.toNat

end Folio.Number
