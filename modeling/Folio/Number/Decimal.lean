import Folio.Number.Binary64
import Folio.Text.Digits

/-! Binary fractions of decimals of any length. -/

namespace Folio.Number.Binary64

/-- A value that is no number. -/
def notANumber : Binary64 :=
  ⟨0x7ff8000000000000⟩

/-- The value nearest to `digits * 10 ^ power`, if it is finite. Powers far out are decided by the
number of digits alone.
-/
def ofDigits? (digits : List Char) (power : Int) : Option Binary64 :=
  let kept := digits.dropWhile (· == '0')
  if kept.isEmpty then some .zero
  else if kept.length + power > 400 then none
  else if kept.length + power < -400 then some .zero
  else
    let x := Binary64.ofDecimal ((Text.digitsNumber? 10 kept).getD 0) power
    if x.isFinite then some x else none

end Folio.Number.Binary64
