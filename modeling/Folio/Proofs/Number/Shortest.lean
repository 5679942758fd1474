import Folio.Number.Shortest
import Folio.Proofs.Number.Rounding

/-! The decimal that is written for a fraction: its digits, and how large it is at most. -/

namespace Folio.Number

-----------------------------------------------------------------------------------------
-- Decimals
-----------------------------------------------------------------------------------------

namespace Decimal

def value (d : Decimal) : ℚ :=
  Nat.ofDigitChars 10 d.digits 0 * 10 ^ d.power

/-- Holds for decimals whose digits are digits, the first one not zero. -/
structure Proper (d : Decimal) : Prop where
  digits : ∀ c ∈ d.digits, c.isDigit = true
  leads : ∃ c rest, d.digits = c :: rest ∧ c ≠ '0'

end Decimal

theorem isDigit_of_mem_natDigits {n : Nat} {c : Char} (member : c ∈ natDigits n)
    : c.isDigit = true :=
  Nat.isDigit_of_mem_toDigits (by decide) (by decide) member

/-- The digits of a number that is not zero do not start with zero. By induction on the number,
whose last digit is not the first one unless it stands alone.
-/
theorem natDigits_leads {n : Nat} (h : n ≠ 0) : ∃ c rest, natDigits n = c :: rest ∧ c ≠ '0' := by
  induction n using Nat.strongRecOn with
  | ind n ih =>
      by_cases short : n < 10
      · have all : ∀ m : Fin 10, m.val ≠ 0 → m.val.digitChar ≠ '0' := by decide
        exact ⟨n.digitChar, [], Nat.toDigits_of_lt_base short, all ⟨n, short⟩ h⟩
      · obtain ⟨c, rest, digits, notZero⟩ := ih (n / 10) (by omega) (by omega)
        refine ⟨c, rest ++ [(n % 10).digitChar], ?_, notZero⟩
        rw [natDigits] at digits ⊢
        rw [Nat.toDigits_of_base_le (by decide) (by omega), digits, List.cons_append]

theorem replicate_append_dropWhile (c : Char) (s : List Char)
    : ∃ n, s = List.replicate n c ++ s.dropWhile (· == c) := by
  induction s with
  | nil => exact ⟨0, rfl⟩
  | cons d rest ih =>
      by_cases same : d = c
      · obtain ⟨n, split⟩ := ih
        refine ⟨n + 1, ?_⟩
        rw [List.dropWhile_cons_of_pos (by simpa using same), List.replicate_succ,
          List.cons_append, ← split, same]
      · exact ⟨0, by rw [List.dropWhile_cons_of_neg (by simpa using same)]; rfl⟩

/-- Digits are those that a decimal keeps, and zeros. -/
theorem digits_ofNat (n : Nat) (ten : ℤ)
    : ∃ zeros : ℕ,
        natDigits n = (Decimal.ofNat n ten).digits ++ List.replicate zeros '0'
        ∧ (Decimal.ofNat n ten).power = ten + zeros := by
  obtain ⟨zeros, split⟩ := replicate_append_dropWhile '0' (natDigits n).reverse
  have whole : natDigits n = (Decimal.ofNat n ten).digits ++ List.replicate zeros '0' := by
    rw [← List.reverse_inj, split, List.reverse_append, List.reverse_replicate, Decimal.ofNat,
      List.reverse_reverse]
  refine ⟨zeros, whole, ?_⟩
  have lengths := congrArg List.length whole
  rw [List.length_append, List.length_replicate] at lengths
  simp only [Decimal.ofNat] at lengths ⊢
  omega

theorem value_ofNat (n : Nat) (ten : ℤ) : (Decimal.ofNat n ten).value = n * 10 ^ ten := by
  obtain ⟨zeros, digits, power⟩ := digits_ofNat n ten
  have number : n = 10 ^ zeros * Nat.ofDigitChars 10 (Decimal.ofNat n ten).digits 0 := by
    rw [← Nat.ofDigitChars_replicate_zero, ← Nat.ofDigitChars_append, ← digits]
    exact Nat.ofDigitChars_ten_toDigits.symm
  rw [Decimal.value, power, zpow_add₀ (by decide), zpow_natCast]
  conv_rhs => rw [number]
  push_cast
  ring

theorem proper_ofNat {n : Nat} (h : n ≠ 0) (ten : ℤ) : (Decimal.ofNat n ten).Proper := by
  obtain ⟨zeros, digits, -⟩ := digits_ofNat n ten
  obtain ⟨c, rest, first, notZero⟩ := natDigits_leads h
  constructor
  · intro d member
    refine isDigit_of_mem_natDigits (n := n) ?_
    rw [digits]
    exact List.mem_append_left _ member
  · rw [first] at digits
    cases kept : (Decimal.ofNat n ten).digits with
    | nil =>
        rw [kept, List.nil_append] at digits
        have member : c ∈ List.replicate zeros '0' := digits ▸ List.mem_cons_self
        exact absurd (List.eq_of_mem_replicate member) notZero
    | cons d more =>
        rw [kept, List.cons_append] at digits
        obtain ⟨rfl, -⟩ := List.cons.inj digits
        exact ⟨_, _, rfl, notZero⟩

-----------------------------------------------------------------------------------------
-- Decimals that read back
-----------------------------------------------------------------------------------------

open Binary64

theorem zpow_mul_tenTo (e : ℤ) : (10 : ℚ) ^ e * tenTo (-e).toNat = tenTo e.toNat := by
  simpa only [tenTo, Nat.pow_eq, Nat.cast_pow, Nat.cast_ofNat] using
    zpow_mul_pow_toNat (by decide) e

theorem tenTo_pos (n : Nat) : (0 : ℚ) < tenTo n := by
  exact_mod_cast Nat.pow_pos (by decide)

theorem tenTo_le {m n : Nat} (h : m ≤ n) : tenTo m ≤ tenTo n :=
  Nat.pow_le_pow_right (by decide) h

namespace Rounding

/-- The upper bound of the interval around a value. -/
theorem accepts_le {r : Rounding} {d : Nat} {ten : ℤ} (h : r.accepts d ten = true)
    : (d * 10 ^ ten : ℚ) ≤ r.high * 2 ^ r.power := by
  have scaled :
      d * twoTo (0 - min r.power 0).toNat * tenTo (ten - min ten 0).toNat
      ≤ r.high * twoTo (r.power - min r.power 0).toNat * tenTo (0 - min ten 0).toNat := by
    simp only [accepts] at h
    split at h
    · rw [Bool.and_eq_true, decide_eq_true_eq, decide_eq_true_eq] at h
      exact h.2
    · rw [Bool.and_eq_true, decide_eq_true_eq, decide_eq_true_eq] at h
      exact h.2.le
  have lowTwo : (0 - min r.power 0).toNat = (-r.power).toNat := by omega
  have highTwo : (r.power - min r.power 0).toNat = r.power.toNat := by omega
  have lowTen : (0 - min ten 0).toNat = (-ten).toNat := by omega
  have highTen : (ten - min ten 0).toNat = ten.toNat := by omega
  rw [lowTwo, highTwo, lowTen, highTen] at scaled
  have cast : (d * twoTo (-r.power).toNat * tenTo ten.toNat : ℚ)
      ≤ r.high * twoTo r.power.toNat * tenTo (-ten).toNat := by
    exact_mod_cast scaled
  rw [← zpow_mul_tenTo ten, ← zpow_mul_twoTo r.power] at cast
  have unit : (0 : ℚ) < twoTo (-r.power).toNat * tenTo (-ten).toNat :=
    mul_pos (twoTo_pos _) (tenTo_pos _)
  refine le_of_mul_le_mul_right ?_ unit
  calc (d * 10 ^ ten * (twoTo (-r.power).toNat * tenTo (-ten).toNat) : ℚ)
      = d * twoTo (-r.power).toNat * (10 ^ ten * tenTo (-ten).toNat) := by ring
    _ ≤ r.high * (2 ^ r.power * twoTo (-r.power).toNat) * tenTo (-ten).toNat := cast
    _ = r.high * 2 ^ r.power * (twoTo (-r.power).toNat * tenTo (-ten).toNat) := by ring

theorem onGrid?_spec {r : Rounding} {ten : ℤ} {d : Nat} (h : r.onGrid? ten = some d)
    : d ≠ 0 ∧ r.accepts d ten = true := by
  simp only [onGrid?] at h
  split at h
  · cases h
  · next below _ =>
      rw [Bool.and_eq_true, bne_iff_ne] at below
      cases h
      exact below.symm
  · next above =>
      cases h
      exact ⟨Nat.succ_ne_zero _, above⟩
  · next below above =>
      rw [Bool.and_eq_true, bne_iff_ne] at below
      split at h
      · cases h
        exact below.symm
      · cases h
        exact ⟨Nat.succ_ne_zero _, above⟩

/-- A hit of the search reads back. By induction on the steps that are tried. -/
theorem search_spec {r : Rounding} {top ten : ℤ} {count d : Nat}
    (h : r.search top count = some (d, ten))
    : d ≠ 0 ∧ r.accepts d ten = true := by
  induction count generalizing top with
  | zero => cases h
  | succ count ih =>
      unfold search at h
      split at h
      · next hit =>
          cases h
          exact onGrid?_spec hit
      · exact ih h

end Rounding

/-- The decimal that is written for a value is one of an accepted point, or one of a small number.
The second case does not occur, but nothing depends on that.
-/
theorem shortest_spec {x : Binary64} (h : x.mantissa ≠ 0)
    : ∃ d ten,
        d ≠ 0
        ∧ shortest x = Decimal.ofNat d ten
        ∧ ((roundingOf x).accepts d ten = true ∨ d = 4 * x.mantissa ∧ ten = 0) := by
  have notZero : ¬(x.mantissa == 0) = true := by simpa using h
  unfold shortest
  simp only [if_neg notZero]
  split
  · next d ten found =>
      obtain ⟨dNotZero, accepted⟩ := Rounding.search_spec found
      exact ⟨d, ten, dNotZero, rfl, .inl accepted⟩
  · exact ⟨4 * x.mantissa, 0, by omega, rfl, .inr ⟨rfl, rfl⟩⟩

theorem proper_shortest {x : Binary64} (h : x.mantissa ≠ 0) : (shortest x).Proper := by
  obtain ⟨d, ten, notZero, decimal, -⟩ := shortest_spec h
  rw [decimal]
  exact proper_ofNat notZero ten

/-- The decimal that is written for a value is not above the middle between the value and the next
one.
-/
theorem value_shortest_le {x : Binary64} (h : x.mantissa ≠ 0)
    : (shortest x).value ≤ max ((2 * x.mantissa + 1 : ℕ) * 2 ^ (x.exponent - 1) : ℚ) (2 ^ 55) := by
  obtain ⟨d, ten, -, decimal, accepted | ⟨rfl, rfl⟩⟩ := shortest_spec h
  · refine le_max_of_le_left ?_
    rw [decimal, value_ofNat]
    refine (Rounding.accepts_le accepted).trans_eq ?_
    simp only [roundingOf]
    rw [zpow_sub₀ (by decide), zpow_sub₀ (by decide)]
    push_cast
    ring
  · refine le_max_of_le_right ?_
    have small := mantissa_lt x
    rw [decimal, value_ofNat, zpow_zero, mul_one]
    exact_mod_cast (by omega : 4 * x.mantissa ≤ 2 ^ 55)

/-- The sign of a value does not matter to its digits. -/
theorem shortest_congr {x y : Binary64} (biased : x.biasedExponent = y.biasedExponent)
    (fraction : x.fraction = y.fraction)
    : shortest x = shortest y := by
  have mantissa : x.mantissa = y.mantissa := by
    simp only [Binary64.mantissa, biased, fraction]
  have exponent : x.exponent = y.exponent := by
    simp only [Binary64.exponent, biased]
  have rounding : roundingOf x = roundingOf y := by
    simp only [roundingOf, mantissa, exponent, biased, fraction]
  simp only [shortest, mantissa, rounding]

end Folio.Number
