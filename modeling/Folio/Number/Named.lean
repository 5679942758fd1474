import Folio.Number.Shortest

/-! Numbers as messages name them. -/

namespace Folio.Number

/-- A fraction is written with the fewest digits that read back, always positionally and with a
point.
-/
def plainText (x : Binary64) : List Char :=
  if x.isFinite then
    let d := shortest x
    let body := positional d.digits (d.digits.length + d.power)
    if x.isNegative then '-' :: body else body
  else if x.fraction != 0 then "NaN".toList
  else if x.isNegative then "-inf".toList
  else "inf".toList

def realName (x : Binary64) : String :=
  "floating point \x60" ++ String.ofList (plainText x) ++ "\x60"

def integerName (n : Int) : String :=
  "integer \x60" ++ toString n ++ "\x60"

/-- The name of a truth value. -/
def booleanName (b : Bool) : String :=
  "boolean \x60" ++ (if b then "true" else "false") ++ "\x60"

/-- Holds for integers of 64 bits with a sign. -/
def fitsSigned64 (n : Int) : Bool :=
  -9223372036854775808 ≤ n && n ≤ 9223372036854775807

/-- Holds for integers of 64 bits, with or without a sign. -/
def fits64 (n : Int) : Bool :=
  -9223372036854775808 ≤ n && n ≤ 18446744073709551615

/-- Holds for integers of 128 bits, with or without a sign. -/
def fits128 (n : Int) : Bool :=
  -(twoTo 127 : Int) ≤ n && n < twoTo 128

end Folio.Number
