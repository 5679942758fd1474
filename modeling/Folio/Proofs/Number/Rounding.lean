import Folio.Number.Binary64
import Mathlib.Algebra.Order.Field.Power
import Mathlib.Algebra.Order.Field.Rat
import Mathlib.Tactic.Linarith
import Mathlib.Tactic.Positivity
import Mathlib.Tactic.Ring

/-! Rounding does not pass the values between which it chooses: a quotient that is not above a bound
of the grid is rounded to a finite value that is not above it either, and one that is not below 1 to
a value that is not below it either.
-/

namespace Folio.Number.Binary64

/-- The value of a finite fraction without its sign. -/
def size (x : Binary64) : ℚ :=
  x.mantissa * 2 ^ x.exponent

structure Within (bound : ℚ) (x : Binary64) : Prop where
  finite : x.isFinite = true
  le : x.size ≤ bound

/-- Holds for the sizes that finite values have. -/
def OnGrid (bound : ℚ) : Prop :=
  ∃ (m : ℕ) (e : ℤ), m < 2 ^ 53 ∧ -1074 ≤ e ∧ e ≤ 971 ∧ bound = m * 2 ^ e

-----------------------------------------------------------------------------------------
-- Values made of their parts
-----------------------------------------------------------------------------------------

theorem biasedExponent_ofNat {b f : Nat} (hb : b < 2 ^ 11) (hf : f < 2 ^ 52)
    : biasedExponent ⟨UInt64.ofNat (b * twoTo 52 + f)⟩ = b := by
  simp only [biasedExponent, twoTo, UInt64.toNat_ofNat', Nat.pow_eq]
  omega

theorem fraction_ofNat {b f : Nat} (hf : f < 2 ^ 52)
    : fraction ⟨UInt64.ofNat (b * twoTo 52 + f)⟩ = f := by
  simp only [fraction, twoTo, UInt64.toNat_ofNat', Nat.pow_eq]
  omega

/-- A value below the least one whose mantissa has its first bit. -/
theorem within_subnormal {m : Nat} (hm : m < 2 ^ 52)
    : Within (m * 2 ^ (-1074 : ℤ)) ⟨UInt64.ofNat m⟩ := by
  have biased := biasedExponent_ofNat (b := 0) (by decide) hm
  have fraction := fraction_ofNat (b := 0) hm
  rw [Nat.zero_mul, Nat.zero_add] at biased fraction
  constructor
  · rw [isFinite, biased]
    rfl
  · rw [size, mantissa, exponent, biased, fraction]
    exact le_refl _

/-- A value whose mantissa has its first bit. -/
theorem within_normal {b f : Nat} (low : 1 ≤ b) (high : b ≤ 2046) (hf : f < 2 ^ 52)
    : Within ((f + 2 ^ 52 : ℕ) * 2 ^ ((b : ℤ) - 1075)) ⟨UInt64.ofNat (b * twoTo 52 + f)⟩ := by
  have biased := biasedExponent_ofNat (b := b) (by omega) hf
  have fraction := fraction_ofNat (b := b) hf
  have notZero : (b == 0) = false := by
    simp only [beq_eq_false_iff_ne]
    omega
  constructor
  · rw [isFinite, biased, bne_iff_ne]
    omega
  · rw [size, mantissa, exponent, biased, fraction, notZero]
    exact le_refl _

theorem Within.mono {a b : ℚ} {x : Binary64} (h : Within a x) (le : a ≤ b) : Within b x :=
  ⟨h.finite, h.le.trans le⟩

theorem add_lt_of_mul_lt {k m : ℕ} {e n : ℤ} (low : 2 ^ k ≤ m)
    (below : (m * 2 ^ e : ℚ) < 2 ^ n)
    : k + e < n := by
  have positive : (0 : ℚ) ≤ 2 ^ e := by positivity
  have low : (2 : ℚ) ^ (k : ℤ) ≤ m := by exact_mod_cast low
  have le : (2 : ℚ) ^ ((k : ℤ) + e) ≤ m * 2 ^ e := by
    rw [zpow_add₀ (by decide)]
    exact mul_le_mul_of_nonneg_right low positive
  exact (zpow_lt_zpow_iff_right₀ (by decide)).mp (le.trans_lt below)

/-- A mantissa of 54 bits, which only rounding up gives, is one of 53 bits under the next exponent.
-/
theorem compose_carried (e : ℤ) : compose (2 ^ 53) e = compose (2 ^ 52) (e + 1) :=
  rfl

theorem compose_normal {m : ℕ} (low : 2 ^ 52 ≤ m) (high : m < 2 ^ 53) (e : ℤ)
    : compose m e
      = if 2047 ≤ (e + 1075).toNat then infinity
        else ⟨UInt64.ofNat ((e + 1075).toNat * twoTo 52 + (m - 2 ^ 52))⟩ := by
  have notCarried : (m == twoTo 53) = false := beq_eq_false_iff_ne.mpr high.ne
  have large : ¬m < twoTo 52 := not_lt.mpr low
  simp only [compose, notCarried, Bool.false_eq_true, if_false, if_neg large]
  rfl

/-- A mantissa with its first bit is one of 53 bits, maybe under the next exponent. -/
theorem exists_normal {m : ℕ} (e : ℤ) (low : 2 ^ 52 ≤ m) (few : m ≤ 2 ^ 53)
    : ∃ (n : ℕ) (k : ℤ),
        2 ^ 52 ≤ n
        ∧ n < 2 ^ 53
        ∧ e ≤ k
        ∧ compose m e = compose n k
        ∧ (m * 2 ^ e : ℚ) = n * 2 ^ k := by
  rcases few.lt_or_eq with normal | rfl
  · exact ⟨m, e, low, normal, le_refl e, rfl, rfl⟩
  · refine ⟨2 ^ 52, e + 1, le_refl _, by decide, by omega, compose_carried e, ?_⟩
    rw [zpow_add_one₀ (by decide)]
    push_cast
    ring

/-- A value of a mantissa and an exponent, unless the exponent is too large. -/
theorem within_compose {m : ℕ} {e : ℤ} (hm : m ≤ 2 ^ 53) (low : -1074 ≤ e)
    (below : (m * 2 ^ e : ℚ) < 2 ^ (1024 : ℤ))
    : Within (m * 2 ^ e) (compose m e) := by
  by_cases small : m < 2 ^ 52
  · have notCarried : ¬(m == twoTo 53) = true := by
      rw [beq_iff_eq]
      exact (small.trans (by decide)).ne
    have composed : compose m e = ⟨UInt64.ofNat m⟩ := by
      rw [compose, if_neg notCarried]
      exact if_pos small
    rw [composed]
    refine (within_subnormal small).mono ?_
    have le : (2 : ℚ) ^ (-1074 : ℤ) ≤ 2 ^ e := zpow_le_zpow_right₀ (by decide) low
    exact mul_le_mul_of_nonneg_left le (Nat.cast_nonneg m)
  · obtain ⟨n, k, first, few, exponent, same, value⟩ := exists_normal e (not_lt.mp small) hm
    rw [value] at below ⊢
    have high := add_lt_of_mul_lt (k := 52) first below
    have normal := within_normal (b := (k + 1075).toNat) (f := n - 2 ^ 52) (by omega) (by omega)
      (by omega)
    have biased : ((k + 1075).toNat : ℤ) - 1075 = k := by omega
    rw [biased, Nat.sub_add_cancel first] at normal
    rwa [same, compose_normal first few, if_neg (by omega)]

/-- A normal value whose exponent is not below the one of 1 is at least 1. -/
theorem one_le_size {x : Binary64} (h : 1023 ≤ x.biasedExponent) : 1 ≤ x.size := by
  have normal : ¬x.biasedExponent = 0 := by omega
  have mantissa : 2 ^ 52 ≤ x.mantissa := by
    rw [mantissa, if_neg (by simpa using normal)]
    exact Nat.le_add_left _ _
  have exponent : -52 ≤ x.exponent := by
    rw [exponent, if_neg (by simpa using normal)]
    omega
  calc
    (1 : ℚ) = 2 ^ 52 * 2 ^ (-52 : ℤ) := by norm_num
    _ ≤ x.mantissa * 2 ^ x.exponent :=
      mul_le_mul (by exact_mod_cast mantissa) (zpow_le_zpow_right₀ (by decide) exponent)
        (by positivity) (Nat.cast_nonneg _)

/-- A mantissa with its first bit is worth at least 1 under an exponent that leaves it 52 bits of a
fraction at most, as is infinity.
-/
theorem one_le_compose {m : ℕ} {e : ℤ} (low : 2 ^ 52 ≤ m) (hm : m ≤ 2 ^ 53) (high : -52 ≤ e)
    : 1 ≤ (compose m e).size := by
  obtain ⟨n, k, first, few, exponent, same, -⟩ := exists_normal e low hm
  apply one_le_size
  rw [same, compose_normal first few]
  split
  · decide
  · next finite =>
      rw [biasedExponent_ofNat (by omega) (by omega)]
      omega

-----------------------------------------------------------------------------------------
-- Rounding a quotient
-----------------------------------------------------------------------------------------

/-- A quotient that is not above a natural number is rounded to none above it. -/
theorem divRound_le {num den n : Nat} (positive : 0 < den) (h : num ≤ n * den)
    : divRound num den ≤ n := by
  have quotient : num / den ≤ n := Nat.div_le_of_le_mul (by rwa [Nat.mul_comm])
  by_cases exact : num / den = n
  · have rest : num % den = 0 := by
      have parts := Nat.div_add_mod num den
      rw [exact, Nat.mul_comm] at parts
      omega
    simp only [divRound, rest, Nat.mul_zero, if_pos positive, exact, le_refl]
  · have room : num / den + 1 ≤ n := by omega
    simp only [divRound]
    split_ifs <;> omega

/-- A quotient that is not below a natural number is rounded to none below it. -/
theorem le_divRound {num den n : Nat} (positive : 0 < den) (h : n * den ≤ num)
    : n ≤ divRound num den := by
  have quotient : n ≤ num / den := (Nat.le_div_iff_mul_le positive).mpr h
  simp only [divRound]
  split_ifs <;> omega

/-- The exponent of the last bit that a rounded quotient keeps, if it is not too small. -/
def unit (num den : Nat) : ℤ :=
  let guess : ℤ := (num.log2 : ℤ) - (den.log2 : ℤ) - 52
  let small : Bool :=
    if guess + 52 ≥ 0 then num < den * twoTo (guess + 52).toNat
    else num * twoTo (-(guess + 52)).toNat < den
  if small then guess - 1 else guess

def mantissaAt (num den : Nat) (e : ℤ) : Nat :=
  if e ≥ 0 then divRound num (den * twoTo e.toNat) else divRound (num * twoTo (-e).toNat) den

theorem ofRatio_eq {num den : Nat} (hn : num ≠ 0) (hd : den ≠ 0)
    : ofRatio num den
      = compose (mantissaAt num den (max (unit num den) (-1074))) (max (unit num den) (-1074)) := by
  rw [ofRatio, if_neg (by simp [hn, hd])]
  rfl

/-- A power is a factor on one side or the other. -/
theorem zpow_mul_pow_toNat {base : ℚ} (notZero : base ≠ 0) (e : ℤ)
    : base ^ e * base ^ (-e).toNat = base ^ e.toNat := by
  rw [← zpow_natCast, ← zpow_natCast, ← zpow_add₀ notZero]
  congr 1
  omega

theorem zpow_mul_twoTo (e : ℤ) : (2 : ℚ) ^ e * twoTo (-e).toNat = twoTo e.toNat := by
  simpa only [twoTo, Nat.pow_eq, Nat.cast_pow, Nat.cast_ofNat] using
    zpow_mul_pow_toNat two_ne_zero e

theorem twoTo_zero : twoTo 0 = 1 :=
  rfl

theorem cast_twoTo (n : Nat) : (twoTo n : ℚ) = 2 ^ (n : ℤ) := by
  rw [twoTo, Nat.pow_eq, Nat.cast_pow, Nat.cast_ofNat, zpow_natCast]

theorem twoTo_pos (n : Nat) : (0 : ℚ) < twoTo n := by
  exact_mod_cast Nat.pow_pos (by decide)

theorem cast_le_mul_twoTo_iff {a b : Nat} {e : ℤ}
    : (a : ℚ) ≤ b * 2 ^ e ↔ a * twoTo (-e).toNat ≤ b * twoTo e.toNat := by
  rw [← mul_le_mul_iff_left₀ (twoTo_pos (-e).toNat), mul_assoc, zpow_mul_twoTo]
  exact_mod_cast Iff.rfl

theorem cast_lt_mul_twoTo_iff {a b : Nat} {e : ℤ}
    : (a : ℚ) < b * 2 ^ e ↔ a * twoTo (-e).toNat < b * twoTo e.toNat := by
  rw [← mul_lt_mul_iff_left₀ (twoTo_pos (-e).toNat), mul_assoc, zpow_mul_twoTo]
  exact_mod_cast Iff.rfl

/-- The first bits of two numbers tell their quotient to a factor of two. -/
theorem log2_quotient {num den : Nat} (hn : num ≠ 0) (hd : den ≠ 0)
    : (den * 2 ^ ((num.log2 : ℤ) - den.log2 - 1) : ℚ) ≤ num
      ∧ (num : ℚ) < den * 2 ^ ((num.log2 : ℤ) - den.log2 + 1) := by
  have numLow : (2 : ℚ) ^ (num.log2 : ℤ) ≤ num := by exact_mod_cast Nat.log2_self_le hn
  have numHigh : (num : ℚ) < 2 ^ ((num.log2 : ℤ) + 1) := by exact_mod_cast Nat.lt_log2_self
  have denLow : (2 : ℚ) ^ (den.log2 : ℤ) ≤ den := by exact_mod_cast Nat.log2_self_le hd
  have denHigh : (den : ℚ) < 2 ^ ((den.log2 : ℤ) + 1) := by exact_mod_cast Nat.lt_log2_self
  constructor
  · calc (den * 2 ^ ((num.log2 : ℤ) - den.log2 - 1) : ℚ)
        ≤ 2 ^ ((den.log2 : ℤ) + 1) * 2 ^ ((num.log2 : ℤ) - den.log2 - 1) :=
          mul_le_mul_of_nonneg_right denHigh.le (by positivity)
      _ = 2 ^ (num.log2 : ℤ) := by
          rw [← zpow_add₀ (by decide)]
          congr 1
          ring
      _ ≤ num := numLow
  · calc (num : ℚ) < 2 ^ ((num.log2 : ℤ) + 1) := numHigh
      _ = 2 ^ (den.log2 : ℤ) * 2 ^ ((num.log2 : ℤ) - den.log2 + 1) := by
          rw [← zpow_add₀ (by decide)]
          congr 1
          ring
      _ ≤ den * 2 ^ ((num.log2 : ℤ) - den.log2 + 1) :=
          mul_le_mul_of_nonneg_right denLow (by positivity)

/-- A quotient is compared with a power of two in whole numbers. -/
theorem lt_mul_zpow_iff (num den : Nat) (e : ℤ)
    : (num : ℚ) < den * 2 ^ e
      ↔ (if e ≥ 0 then decide (num < den * twoTo e.toNat)
          else decide (num * twoTo (-e).toNat < den)) = true := by
  rw [cast_lt_mul_twoTo_iff]
  split
  · next h =>
      have none : (-e).toNat = 0 := by omega
      rw [none, twoTo_zero, Nat.mul_one]
      exact decide_eq_true_iff.symm
  · next h =>
      have none : e.toNat = 0 := by omega
      rw [none, twoTo_zero, Nat.mul_one]
      exact decide_eq_true_iff.symm

/-- A quotient has 53 bits from its last kept one on. -/
theorem unit_spec {num den : Nat} (hn : num ≠ 0) (hd : den ≠ 0)
    : (den * 2 ^ (52 + unit num den) : ℚ) ≤ num ∧ (num : ℚ) < den * 2 ^ (53 + unit num den) := by
  obtain ⟨low, high⟩ := log2_quotient hn hd
  obtain ⟨guess, known⟩ : ∃ guess : ℤ, guess = (num.log2 : ℤ) - den.log2 - 52 := ⟨_, rfl⟩
  simp only [unit, ← known, ← lt_mul_zpow_iff]
  split
  · next small =>
      have first : 52 + (guess - 1) = (num.log2 : ℤ) - den.log2 - 1 := by omega
      have second : 53 + (guess - 1) = guess + 52 := by omega
      rw [first, second]
      exact ⟨low, small⟩
  · next large =>
      have first : 52 + guess = guess + 52 := by omega
      have second : 53 + guess = (num.log2 : ℤ) - den.log2 + 1 := by omega
      rw [first, second]
      exact ⟨not_lt.mp large, high⟩

theorem mantissaAt_le {num den n : Nat} {e : ℤ} (hd : den ≠ 0)
    (h : (num : ℚ) ≤ (n * den : ℕ) * 2 ^ e)
    : mantissaAt num den e ≤ n := by
  have scaled := cast_le_mul_twoTo_iff.mp h
  unfold mantissaAt
  split
  · next whole =>
      have none : (-e).toNat = 0 := by omega
      refine divRound_le (Nat.mul_pos (by omega) (Nat.pow_pos (by decide))) ?_
      simpa [none, twoTo, mul_assoc] using scaled
  · next part =>
      have none : e.toNat = 0 := by omega
      refine divRound_le (by omega) ?_
      simpa [none, twoTo] using scaled

theorem le_mantissaAt {num den n : Nat} {e : ℤ} (hd : den ≠ 0)
    (h : ((n * den : ℕ) * 2 ^ e : ℚ) ≤ num)
    : n ≤ mantissaAt num den e := by
  have scaled := not_lt.mp (mt cast_lt_mul_twoTo_iff.mpr h.not_gt)
  unfold mantissaAt
  split
  · next whole =>
      have none : (-e).toNat = 0 := by omega
      refine le_divRound (Nat.mul_pos (by omega) (Nat.pow_pos (by decide))) ?_
      simpa [none, twoTo, mul_assoc] using scaled
  · next part =>
      have none : e.toNat = 0 := by omega
      refine le_divRound (by omega) ?_
      simpa [none, twoTo] using scaled

/-- The last kept bit of a quotient is not above the one of a bound. -/
theorem unit_le {num den m : Nat} {e : ℤ} (hn : num ≠ 0) (hd : den ≠ 0) (fits : m < 2 ^ 53)
    (h : (num : ℚ) ≤ den * (m * 2 ^ e))
    : unit num den ≤ e := by
  have denPositive : (0 : ℚ) < den := by exact_mod_cast Nat.pos_of_ne_zero hd
  have top : (m * 2 ^ e : ℚ) < 2 ^ (53 + e) := by
    rw [zpow_add₀ (by decide)]
    exact mul_lt_mul_of_pos_right (by exact_mod_cast fits) (by positivity)
  have chain : (den * 2 ^ (52 + unit num den) : ℚ) < den * 2 ^ (53 + e) :=
    ((unit_spec hn hd).1.trans h).trans_lt (mul_lt_mul_of_pos_left top denPositive)
  have exponents := (zpow_lt_zpow_iff_right₀ (by decide : (1 : ℚ) < 2)).mp
    (lt_of_mul_lt_mul_left chain denPositive.le)
  omega

/-- A mantissa has 53 bits at most, unless rounding carries. -/
theorem mantissaAt_le_two_pow {num den : Nat} {e : ℤ} (hn : num ≠ 0) (hd : den ≠ 0)
    (h : unit num den ≤ e)
    : mantissaAt num den e ≤ 2 ^ 53 := by
  refine mantissaAt_le hd ((unit_spec hn hd).2.le.trans ?_)
  have le : (2 : ℚ) ^ (53 + unit num den) ≤ 2 ^ 53 * 2 ^ e := by
    rw [← zpow_natCast, ← zpow_add₀ (by decide)]
    exact zpow_le_zpow_right₀ (by decide) (by push_cast; omega)
  have scaled := mul_le_mul_of_nonneg_left le (Nat.cast_nonneg den)
  push_cast
  linarith

/-- A size is a multiple of a smaller power of two. -/
theorem shift_mul_zpow (m : Nat) {last e : ℤ} (h : last ≤ e)
    : ((m * 2 ^ (e - last).toNat : ℕ) * 2 ^ last : ℚ) = m * 2 ^ e := by
  push_cast
  rw [mul_assoc, ← zpow_natCast, ← zpow_add₀ (by decide)]
  congr 2
  omega

/-- A quotient that is not above a bound of the grid is rounded to a finite value that is not above
the bound. The last kept bit is not above the one of the bound, so that the bound is a multiple of
it.
-/
theorem within_ofRatio {bound : ℚ} (grid : OnGrid bound) {num den : Nat}
    (h : (num : ℚ) ≤ den * bound)
    : Within bound (ofRatio num den) := by
  obtain ⟨m, e, fits, low, high, rfl⟩ := grid
  have zero : Within (m * 2 ^ e) zero := by
    refine (within_subnormal (m := 0) (by decide)).mono ?_
    rw [Nat.cast_zero, zero_mul]
    positivity
  by_cases trivial : num = 0 ∨ den = 0
  · rw [ofRatio, if_pos (by simpa using trivial)]
    exact zero
  · obtain ⟨hn, hd⟩ := not_or.mp trivial
    have unitLe := unit_le hn hd fits h
    obtain ⟨last, known⟩ : ∃ last, last = max (unit num den) (-1074) := ⟨_, rfl⟩
    have lastLe : last ≤ e := by omega
    have few : mantissaAt num den last ≤ 2 ^ 53 := mantissaAt_le_two_pow hn hd (by omega)
    have le : mantissaAt num den last ≤ m * 2 ^ (e - last).toNat := by
      refine mantissaAt_le hd (h.trans_eq ?_)
      rw [← shift_mul_zpow m lastLe]
      push_cast
      ring
    have sizeLe : (mantissaAt num den last * 2 ^ last : ℚ) ≤ m * 2 ^ e := by
      rw [← shift_mul_zpow m lastLe]
      exact mul_le_mul_of_nonneg_right (by exact_mod_cast le) (by positivity)
    have top : (m * 2 ^ e : ℚ) < 2 ^ (1024 : ℤ) := by
      refine (mul_lt_mul_of_pos_right (by exact_mod_cast fits) (by positivity)).trans_le
        (?_ : (2 : ℚ) ^ 53 * 2 ^ e ≤ _)
      rw [← zpow_natCast, ← zpow_add₀ (by decide)]
      exact zpow_le_zpow_right₀ (by decide) (by push_cast; omega)
    rw [ofRatio_eq hn hd, ← known]
    exact (within_compose few (by omega) (sizeLe.trans_lt top)).mono sizeLe

theorem within_ofNat {bound : ℚ} (grid : OnGrid bound) {n : Nat} (h : (n : ℚ) ≤ bound)
    : Within bound (ofNat n) :=
  within_ofRatio grid (by simpa using h)

/-- A quotient that is at least 1 is rounded to a value that is at least 1. -/
theorem one_le_ofRatio {num den : Nat} (hd : den ≠ 0) (h : den ≤ num)
    : 1 ≤ (ofRatio num den).size := by
  have hn : num ≠ 0 := by omega
  obtain ⟨low, high⟩ := unit_spec hn hd
  have denPositive : (0 : ℚ) < den := by exact_mod_cast Nat.pos_of_ne_zero hd
  have unitLe : -52 ≤ unit num den := by
    have one : (den * 2 ^ (0 : ℤ) : ℚ) < den * 2 ^ (53 + unit num den) := by
      rw [zpow_zero, mul_one]
      exact lt_of_le_of_lt (by exact_mod_cast h) high
    have exponents := (zpow_lt_zpow_iff_right₀ (by decide : (1 : ℚ) < 2)).mp
      (lt_of_mul_lt_mul_left one denPositive.le)
    omega
  have last : max (unit num den) (-1074) = unit num den := by omega
  rw [ofRatio_eq hn hd, last]
  refine one_le_compose (le_mantissaAt hd ?_) (mantissaAt_le_two_pow hn hd (le_refl _)) unitLe
  rw [zpow_add₀ (by decide)] at low
  push_cast
  linarith

theorem one_le_ofNat {n : Nat} (h : n ≠ 0) : 1 ≤ (ofNat n).size :=
  one_le_ofRatio Nat.one_ne_zero (Nat.pos_of_ne_zero h)

-----------------------------------------------------------------------------------------
-- Finite values as quotients
-----------------------------------------------------------------------------------------

theorem ratio_eq (x : Binary64) : (x.ratio.1 : ℚ) = x.size * x.ratio.2 := by
  unfold ratio size
  split
  · next whole =>
      have none : (-x.exponent).toNat = 0 := by omega
      have factor := zpow_mul_twoTo x.exponent
      rw [none, twoTo_zero, Nat.cast_one, mul_one] at factor
      rw [factor, Nat.cast_mul, Nat.cast_one, mul_one]
  · next part =>
      have none : x.exponent.toNat = 0 := by omega
      rw [mul_assoc, zpow_mul_twoTo, none, twoTo_zero, Nat.cast_one, mul_one]

theorem ratio_pos (x : Binary64) : 0 < x.ratio.2 := by
  unfold ratio
  split
  · exact Nat.one_pos
  · exact Nat.pow_pos (by decide)

theorem size_nonneg (x : Binary64) : 0 ≤ x.size := by
  unfold size
  positivity

theorem fraction_lt (x : Binary64) : x.fraction < 2 ^ 52 := by
  simp only [fraction, twoTo, Nat.pow_eq]
  omega

theorem mantissa_lt (x : Binary64) : x.mantissa < 2 ^ 53 := by
  have := fraction_lt x
  simp only [mantissa, twoTo, Nat.pow_eq]
  split <;> omega

theorem exponent_le {x : Binary64} (finite : x.isFinite = true) : x.exponent ≤ 971 := by
  have biased : x.biasedExponent < 2 ^ 11 := Nat.mod_lt _ (Nat.pow_pos (by decide))
  have notInfinite : x.biasedExponent ≠ 2047 := bne_iff_ne.mp finite
  rw [exponent]
  split <;> omega

/-- The sign of a finite value may be turned. -/
theorem isFinite_neg (x : Binary64) : x.neg.isFinite = x.isFinite := by
  have bits := x.bits.toNat_lt
  have same : x.neg.biasedExponent = x.biasedExponent := by
    simp only [neg, biasedExponent, twoTo, UInt64.toNat_ofNat', Nat.pow_eq]
    omega
  rw [isFinite, same, isFinite]

end Folio.Number.Binary64
