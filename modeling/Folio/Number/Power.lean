/-! Powers of the two bases in which numbers are kept and written. -/

namespace Folio.Number

/-- Two to the power of `n`. -/
def twoTo (n : Nat) : Nat :=
  Nat.pow 2 n

/-- Ten to the power of `n`. -/
def tenTo (n : Nat) : Nat :=
  Nat.pow 10 n

end Folio.Number
