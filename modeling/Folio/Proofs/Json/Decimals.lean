import Folio.Json.Lexeme
import Folio.Proofs.Number.Shortest

/-! Decimals that are written for finite fractions are read as finite fractions, although reading
rounds twice: the significand, and its product with a power of ten. The few largest values are tried
one by one; below them there is room for both errors.
-/

namespace Folio.Json

open Folio.Number (Binary64 Decimal shortest shortest_congr tenTo tenTo_le twoTo value_shortest_le)
open Folio.Number.Binary64

-----------------------------------------------------------------------------------------
-- Products and quotients
-----------------------------------------------------------------------------------------

theorem within_mulReal {bound : ℚ} (grid : OnGrid bound) {x y : Binary64}
    (h : x.size * y.size ≤ bound)
    : Within bound (mulReal x y) := by
  refine within_ofRatio grid ?_
  push_cast
  rw [ratio_eq, ratio_eq]
  have scaled := mul_le_mul_of_nonneg_right h (by positivity : (0 : ℚ) ≤ x.ratio.2 * y.ratio.2)
  linarith

theorem within_divReal {bound : ℚ} (grid : OnGrid bound) {x y : Binary64} (hx : x.size ≤ bound)
    (hy : 1 ≤ y.size)
    : Within bound (divReal x y) := by
  refine within_ofRatio grid ?_
  push_cast
  rw [ratio_eq, ratio_eq]
  have less : x.size ≤ bound * y.size :=
    hx.trans (le_mul_of_one_le_right ((size_nonneg x).trans hx) hy)
  have scaled := mul_le_mul_of_nonneg_right less
    (by positivity : (0 : ℚ) ≤ x.ratio.2 * y.ratio.2)
  linarith

theorem onGrid_mul_two_pow {m n : Nat} (few : m < 2 ^ 53) (high : n ≤ 971)
    : OnGrid (m * 2 ^ n : Nat) := by
  refine ⟨m, n, few, by omega, by omega, ?_⟩
  rw [Nat.cast_mul, Nat.cast_pow, Nat.cast_ofNat, zpow_natCast]

/-- A power of two is a size. -/
theorem onGrid_two_pow {n : Nat} (high : n ≤ 971) : OnGrid (2 ^ n) := by
  simpa using onGrid_mul_two_pow (m := 1) (by decide) high

def greatest : Nat :=
  (2 ^ 53 - 1) * 2 ^ 971

theorem onGrid_greatest : OnGrid greatest :=
  onGrid_mul_two_pow (by decide) (le_refl 971)

theorem one_le_powerOfTen (n : Nat) : 1 ≤ (powerOfTen n).size :=
  one_le_ofNat (Nat.pow_pos (by decide)).ne'

/-- A value that is not large may be divided by any power of ten. By induction on the divisions. -/
theorem within_scaleDown (x : Binary64) (exponent : Nat) (h : Within (2 ^ 64) x)
    : Within (2 ^ 64) (scaleDown x exponent) := by
  have grid : OnGrid (2 ^ 64) := onGrid_two_pow (by decide)
  fun_induction scaleDown x exponent with
  | case1 x exponent _ => exact within_divReal grid h.le (one_le_powerOfTen exponent)
  | case2 => exact h
  | case3 x exponent _ _ ih =>
      exact ih (within_divReal grid h.le (one_le_powerOfTen 308))

-----------------------------------------------------------------------------------------
-- Positive powers of ten
-----------------------------------------------------------------------------------------

/-- What decimals may be worth for their reading to have room for two errors: as much as the middle
above the eighth greatest value.
-/
def reach : Nat :=
  (2 ^ 54 - 15) * twoTo 970

/-- A number rounded up to 53 bits, as a factor and the exponent of a power of two. -/
def roundedUp (n : Nat) : Nat × Nat :=
  let e := n.log2 - 52
  ((n + 2 ^ e - 1) / 2 ^ e, e)

/-- The greatest significand under a large power of ten, rounded up, times the power, rounded. There
are twenty such powers, and each is tried.
-/
theorem roundedUp_reach {k : Nat} (low : 289 ≤ k) (high : k ≤ 308)
    : ∃ m e,
        m < 2 ^ 53
        ∧ e ≤ 971
        ∧ reach / 10 ^ k ≤ m * 2 ^ e
        ∧ m * 2 ^ e * (powerOfTen k).ratio.1 ≤ greatest * (powerOfTen k).ratio.2 := by
  have all : ∀ i : Fin 20,
      (roundedUp (reach / 10 ^ (i.val + 289))).1 < 2 ^ 53
      ∧ (roundedUp (reach / 10 ^ (i.val + 289))).2 ≤ 971
      ∧ reach / 10 ^ (i.val + 289)
        ≤ (roundedUp (reach / 10 ^ (i.val + 289))).1
          * 2 ^ (roundedUp (reach / 10 ^ (i.val + 289))).2
      ∧ (roundedUp (reach / 10 ^ (i.val + 289))).1
          * 2 ^ (roundedUp (reach / 10 ^ (i.val + 289))).2
          * (powerOfTen (i.val + 289)).ratio.1
        ≤ greatest * (powerOfTen (i.val + 289)).ratio.2 := by
    decide +kernel
  have found := all ⟨k - 289, by omega⟩
  rw [Nat.sub_add_cancel low] at found
  exact ⟨_, _, found⟩

theorem isFinite_mulReal_powerOfTen {s k : Nat} (fits : s ≤ maxUnsigned) (high : k ≤ 308)
    (below : s * 10 ^ k ≤ reach)
    : (mulReal (ofNat s) (powerOfTen k)).isFinite = true := by
  refine (within_mulReal onGrid_greatest ?_).finite
  by_cases large : 289 ≤ k
  · obtain ⟨m, e, few, exponent, significand, product⟩ := roundedUp_reach large high
    have first : (ofNat s).size ≤ (m * 2 ^ e : Nat) := by
      refine (within_ofNat (onGrid_mul_two_pow few exponent) ?_).le
      have sLe : s ≤ reach / 10 ^ k := (Nat.le_div_iff_mul_le (by positivity)).mpr below
      exact_mod_cast sLe.trans significand
    have positive : (0 : ℚ) < (powerOfTen k).ratio.2 := by exact_mod_cast ratio_pos _
    refine (mul_le_mul_of_nonneg_right first (size_nonneg _)).trans ?_
    refine le_of_mul_le_mul_right ?_ positive
    rw [mul_assoc, ← ratio_eq]
    exact_mod_cast product
  · have first : (ofNat s).size ≤ 2 ^ 64 := by
      refine (within_ofNat (onGrid_two_pow (by decide)) ?_).le
      exact_mod_cast fits.trans (by decide : maxUnsigned ≤ 2 ^ 64)
    have second : (powerOfTen k).size ≤ 2 ^ 957 := by
      refine (within_ofNat (onGrid_two_pow (by decide)) ?_).le
      have power : tenTo k ≤ tenTo 288 := tenTo_le (by omega)
      exact_mod_cast power.trans (by decide +kernel : tenTo 288 ≤ 2 ^ 957)
    refine (mul_le_mul first second (size_nonneg _) (by positivity)).trans ?_
    exact_mod_cast (by decide +kernel : 2 ^ 64 * 2 ^ 957 ≤ greatest)

-----------------------------------------------------------------------------------------
-- Reading what is written
-----------------------------------------------------------------------------------------

/-- Holds for a significand and an exponent that are read as a finite fraction. -/
def Finishes (s : Nat) (k : ℤ) : Prop :=
  ∃ y, decimalReal? s k = some y ∧ y.isFinite = true

theorem finishes_of_neg {s : Nat} {k : ℤ} (fits : s ≤ maxUnsigned) (h : k < 0) : Finishes s k := by
  have start : Within (2 ^ 64) (ofNat s) := by
    refine within_ofNat (onGrid_two_pow (by decide)) ?_
    exact_mod_cast fits.trans (by decide : maxUnsigned ≤ 2 ^ 64)
  refine ⟨scaleDown (ofNat s) k.natAbs, ?_, (within_scaleDown _ _ start).finite⟩
  simp only [decimalReal?, if_pos h]

/-- A decimal within reach is read as a finite fraction. -/
theorem finishes_of_le_reach {s : Nat} {k : ℤ} (fits : s ≤ maxUnsigned)
    (below : (s * 10 ^ k : ℚ) ≤ reach)
    : Finishes s k := by
  by_cases negative : k < 0
  · exact finishes_of_neg fits negative
  · obtain ⟨n, rfl⟩ := Int.eq_ofNat_of_zero_le (not_lt.mp negative)
    have whole : s * tenTo n ≤ reach := by exact_mod_cast below
    unfold Finishes decimalReal?
    simp only [if_neg negative]
    by_cases high : n ≤ 308
    · have exponent : (n : ℤ) ≤ 308 := by omega
      have finite := isFinite_mulReal_powerOfTen fits high whole
      simp only [if_pos exponent, Int.toNat_natCast, finite, if_true]
      exact ⟨_, rfl, finite⟩
    · have exponent : ¬(n : ℤ) ≤ 308 := by omega
      have none : s = 0 := by
        by_contra some
        have power : tenTo 309 ≤ tenTo n := tenTo_le (by omega)
        have product : tenTo n ≤ s * tenTo n := Nat.le_mul_of_pos_left _ (Nat.pos_of_ne_zero some)
        have outside : reach < tenTo 309 := by decide +kernel
        omega
      have zero : (ofNat 0).isZero = true := by decide
      rw [none, if_neg exponent, if_pos zero]
      exact ⟨_, rfl, by decide⟩

theorem finishes_zero (k : ℤ) : Finishes 0 k := by
  refine finishes_of_le_reach (Nat.zero_le _) ?_
  rw [Nat.cast_zero, zero_mul]
  exact Nat.cast_nonneg _

theorem finishes_of_nonpos {s : Nat} {k : ℤ} (fits : s ≤ maxUnsigned) (h : k ≤ 0)
    : Finishes s k := by
  rcases h.lt_or_eq with negative | rfl
  · exact finishes_of_neg fits negative
  · refine finishes_of_le_reach fits ?_
    rw [zpow_zero, mul_one]
    exact_mod_cast fits.trans (by decide +kernel)

/-- The few greatest values are read from their own decimals. -/
theorem finishes_greatest
    : ∀ (i : Fin 7) (d : Decimal),
        d = shortest ⟨UInt64.ofNat (2047 * 2 ^ 52 - 1 - i.val)⟩ →
          Nat.ofDigitChars 10 d.digits 0 ≤ maxUnsigned
          ∧ (decimalReal? (Nat.ofDigitChars 10 d.digits 0) d.power).any isFinite = true := by
  simp only [forall_eq]
  decide +kernel

/-- How large the middle above a value is at most. -/
theorem middle_le {x : Binary64} {n : Nat} (h : x.exponent - 1 ≤ n)
    : ((2 * x.mantissa + 1 : ℕ) * 2 ^ (x.exponent - 1) : ℚ) ≤ (2 ^ 54 : ℕ) * twoTo n := by
  have few : 2 * x.mantissa + 1 ≤ 2 ^ 54 := by
    have := mantissa_lt x
    omega
  have power : (2 : ℚ) ^ (x.exponent - 1) ≤ twoTo n := by
    rw [cast_twoTo]
    exact zpow_le_zpow_right₀ (by decide) h
  exact mul_le_mul (by exact_mod_cast few) power (by positivity) (Nat.cast_nonneg _)

theorem value_shortest_lt {x : Binary64} (finite : x.isFinite = true) (h : x.mantissa ≠ 0)
    : (shortest x).value < tenTo 309 := by
  have exponent : x.exponent - 1 ≤ (970 : ℕ) := by
    have := exponent_le finite
    omega
  refine (value_shortest_le h).trans_lt (max_lt ((middle_le exponent).trans_lt ?_) ?_)
  · exact_mod_cast (by decide +kernel : 2 ^ 54 * twoTo 970 < tenTo 309)
  · exact_mod_cast (by decide +kernel : 2 ^ 55 < tenTo 309)

/-- The greatest values aside, decimals that are written for finite values are within reach. -/
theorem value_shortest_le_reach {x : Binary64} (finite : x.isFinite = true) (h : x.mantissa ≠ 0)
    (notGreatest : x.biasedExponent = 2046 → x.fraction ≤ 2 ^ 52 - 8)
    : (shortest x).value ≤ reach := by
  refine (value_shortest_le h).trans (max_le ?_ ?_)
  · by_cases last : x.biasedExponent = 2046
    · have power : (2 : ℚ) ^ (x.exponent - 1) = twoTo 970 := by
        rw [cast_twoTo, Binary64.exponent, last]
        rfl
      have few : 2 * x.mantissa + 1 ≤ 2 ^ 54 - 15 := by
        have fraction := notGreatest last
        rw [mantissa, last]
        simp only [twoTo, Nat.pow_eq]
        split <;> omega
      rw [power, reach, Nat.cast_mul]
      exact mul_le_mul_of_nonneg_right (by exact_mod_cast few) (twoTo_pos 970).le
    · have exponent : x.exponent - 1 ≤ (969 : ℕ) := by
        have biased : x.biasedExponent < 2 ^ 11 := Nat.mod_lt _ (Nat.pow_pos (by decide))
        have notInfinite : x.biasedExponent ≠ 2047 := bne_iff_ne.mp finite
        rw [Binary64.exponent]
        split <;> omega
      refine (middle_le exponent).trans ?_
      exact_mod_cast (by decide +kernel : 2 ^ 54 * twoTo 969 ≤ reach)
  · exact_mod_cast (by decide +kernel : 2 ^ 55 ≤ reach)

/-- Digits of a decimal that are read as far as they fit. -/
structure Cut (s : Nat) (k : ℤ) (d : Decimal) : Prop where
  fits : s ≤ maxUnsigned
  below : (s * 10 ^ k : ℚ) ≤ d.value
  whole : Nat.ofDigitChars 10 d.digits 0 ≤ maxUnsigned →
    s = Nat.ofDigitChars 10 d.digits 0 ∧ k = d.power

theorem finishes_shortest {x : Binary64} (finite : x.isFinite = true) (h : x.mantissa ≠ 0)
    {s : Nat} {k : ℤ} (cut : Cut s k (shortest x))
    : Finishes s k := by
  by_cases notGreatest : x.biasedExponent = 2046 → x.fraction ≤ 2 ^ 52 - 8
  · exact finishes_of_le_reach cut.fits
      (cut.below.trans (value_shortest_le_reach finite h notGreatest))
  · obtain ⟨exponent, above⟩ := Classical.not_imp.mp notGreatest
    have fraction := fraction_lt x
    obtain ⟨i, known⟩ : ∃ i : Fin 7, x.fraction = 2 ^ 52 - 1 - i.val :=
      ⟨⟨2 ^ 52 - 1 - x.fraction, by omega⟩, by simp only; omega⟩
    have bits : 2047 * 2 ^ 52 - 1 - i.val = 2046 * twoTo 52 + x.fraction := by
      rw [known, twoTo, Nat.pow_eq]
      omega
    have same : shortest ⟨UInt64.ofNat (2047 * 2 ^ 52 - 1 - i.val)⟩ = shortest x := by
      rw [bits]
      refine shortest_congr ?_ (fraction_ofNat fraction)
      rw [biasedExponent_ofNat (by decide) fraction, exponent]
    obtain ⟨fits, read⟩ := finishes_greatest i (shortest x) same.symm
    obtain ⟨rfl, rfl⟩ := cut.whole fits
    unfold Finishes
    cases found : decimalReal? (Nat.ofDigitChars 10 (shortest x).digits 0) (shortest x).power with
    | none =>
        rw [found] at read
        cases read
    | some y =>
        rw [found] at read
        exact ⟨y, rfl, read⟩

end Folio.Json
