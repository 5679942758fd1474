import Folio.Proofs.Json.Decimals
import Folio.Proofs.Json.Reading

/-! Every written number is read. An integer is read as itself. A fraction is read as some fraction:
the significand and the power of ten of its decimal are rounded one after the other, so that it need
not be the same one.
-/

namespace Folio.Json

open Folio.Number (Binary64 Decimal isDigit_of_mem_natDigits natDigits positional shortest tenTo)

-----------------------------------------------------------------------------------------
-- Digits
-----------------------------------------------------------------------------------------

def EndsDigits (rest : List Char) : Prop :=
  ∀ c ∈ rest.head?, c.isDigit = false

theorem EndsNumber.endsDigits {rest : List Char} (h : EndsNumber rest) : EndsDigits rest :=
  fun c member => (h c member).1

theorem endsDigits_cons {c : Char} {rest : List Char} (h : c.isDigit = false)
    : EndsDigits (c :: rest) :=
  fun _ member => Option.some.inj member ▸ h

theorem leadingDigits_append {digits rest : List Char} (h : ∀ c ∈ digits, c.isDigit = true)
    (ends : EndsDigits rest)
    : leadingDigits (digits ++ rest) = digits := by
  have none : rest.takeWhile Char.isDigit = [] := by
    cases rest with
    | nil => rfl
    | cons c rest => exact List.takeWhile_cons_of_neg (by simp [ends c rfl])
  rw [leadingDigits, List.takeWhile_append_of_pos h, none, List.append_nil]

theorem ofDigitChars_cons (c : Char) (digits : List Char) (value : Nat)
    : Nat.ofDigitChars 10 (c :: digits) value
      = Nat.ofDigitChars 10 digits (value * 10 + (c.toNat - 48)) := by
  rw [Nat.ofDigitChars_cons, Nat.mul_comm]
  rfl

theorem le_ofDigitChars (digits : List Char) (value : Nat)
    : value ≤ Nat.ofDigitChars 10 digits value := by
  rw [Nat.ofDigitChars_eq_ofDigitChars_zero]
  have := Nat.le_mul_of_pos_left value (Nat.pow_pos (n := digits.length) (by decide : 0 < 10))
  omega

theorem digit_bounds {c : Char} (h : c.isDigit = true) : 48 ≤ c.toNat ∧ c.toNat ≤ 57 := by
  have bounds : 48 ≤ c.val ∧ c.val ≤ 57 := by simpa [Char.isDigit] using h
  exact ⟨bounds.1, bounds.2⟩

theorem ofDigitChars_lt {digits : List Char} (h : ∀ c ∈ digits, c.isDigit = true) (value : Nat)
    : Nat.ofDigitChars 10 digits value < (value + 1) * 10 ^ digits.length := by
  induction digits generalizing value with
  | nil => simp
  | cons c rest ih =>
      have digit := (digit_bounds (h c List.mem_cons_self)).2
      have less := ih (fun d member => h d (List.mem_cons_of_mem c member))
        (value * 10 + (c.toNat - 48))
      have next : value * 10 + (c.toNat - 48) + 1 ≤ (value + 1) * 10 := by omega
      rw [ofDigitChars_cons, List.length_cons, Nat.pow_succ', ← Nat.mul_assoc]
      exact less.trans_le (Nat.mul_le_mul_right _ next)

/-- Digits are taken into a significand while it fits, and all of them are if the number that they
write fits. By induction on the digits.
-/
theorem takeSignificand_digits {digits : List Char} (h : ∀ c ∈ digits, c.isDigit = true)
    {value : Nat} (fits : value ≤ maxUnsigned)
    : ∃ taken skipped,
        digits = taken ++ skipped
        ∧ Nat.ofDigitChars 10 taken value ≤ maxUnsigned
        ∧ (Nat.ofDigitChars 10 digits value ≤ maxUnsigned → skipped = [])
        ∧ ∀ count rest, EndsDigits rest →
          takeSignificand value count (digits ++ rest)
          = (Nat.ofDigitChars 10 taken value, count + taken.length, skipped ++ rest) := by
  induction digits generalizing value with
  | nil =>
      refine ⟨[], [], rfl, fits, fun _ => rfl, fun count rest ends => ?_⟩
      cases rest with
      | nil => rfl
      | cons c rest => simp [takeSignificand, ends c rfl]
  | cons c digits ih =>
      have digit := h c List.mem_cons_self
      by_cases room : value * 10 + (c.toNat - 48) ≤ maxUnsigned
      · obtain ⟨taken, skipped, rfl, takenFits, all, takes⟩ :=
          ih (fun d member => h d (List.mem_cons_of_mem c member)) room
        refine ⟨c :: taken, skipped, rfl, ?_, ?_, fun count rest ends => ?_⟩
        · rwa [ofDigitChars_cons]
        · rwa [ofDigitChars_cons]
        · simp only [List.cons_append, takeSignificand, digit, room, decide_true, Bool.and_self,
            if_true, takes (count + 1) rest ends, ofDigitChars_cons, List.length_cons]
          congr 2
          omega
      · refine ⟨[], c :: digits, rfl, fits, fun le => ?_, fun count rest _ => ?_⟩
        · rw [ofDigitChars_cons] at le
          exact absurd ((le_ofDigitChars digits _).trans le) room
        · simp [takeSignificand, room]

-----------------------------------------------------------------------------------------
-- The parts of a number
-----------------------------------------------------------------------------------------

/-- Holds for texts of which a scanner makes a number, wherever they end. -/
def ScansAs (scan : Position → List Char → ScannedNumber) (text : List Char) (m : Number) : Prop :=
  ∀ p rest, EndsNumber rest → ∃ q, scan p (text ++ rest) = .ok (m, q, rest)

def Scans (scan : Position → List Char → ScannedNumber) (text : List Char) : Prop :=
  ∃ m, ScansAs scan text m

section Scanning

variable {positive : Bool} {s : Nat} {k : ℤ}

theorem finishReal_eq (positive : Bool) (h : Finishes s k)
    : ∃ m, ∀ p rest, finishReal positive s k p rest = .ok (m, p, rest) := by
  obtain ⟨y, decimal, finite⟩ := h
  have signed : (if positive then y else y.neg).isFinite = true := by
    split
    · exact finite
    · exact (Binary64.isFinite_neg y).trans finite
  refine ⟨.real _ signed, fun p rest => ?_⟩
  simp only [finishReal, decimal, Number.ofReal?, dif_pos signed]

/-- A number may end after its digits. -/
theorem scans_end (positive : Bool) (h : Finishes s k)
    : Scans (scanAfterFraction positive s k) [] := by
  obtain ⟨m, finish⟩ := finishReal_eq positive h
  refine ⟨m, fun p rest ends => ⟨p, ?_⟩⟩
  rw [List.nil_append, ← finish p rest]
  cases rest with
  | nil => rfl
  | cons c rest =>
      obtain ⟨-, -, lower, upper⟩ := ends c rfl
      rw [scanAfterFraction]
      · intro tail same
        exact lower (List.cons.inj same).1
      · intro tail same
        exact upper (List.cons.inj same).1

/-- The digits of an exponent are taken if it is not too large. By induction on the digits. -/
theorem takeExponent_digits {digits : List Char} (h : ∀ c ∈ digits, c.isDigit = true)
    {value : Nat} (fits : value ≤ maxExponent) (count : Nat) {rest : List Char}
    (ends : EndsDigits rest)
    : if Nat.ofDigitChars 10 digits value ≤ maxExponent then
        takeExponent value count (digits ++ rest)
        = .ok (Nat.ofDigitChars 10 digits value, count + digits.length)
      else ∃ read, takeExponent value count (digits ++ rest) = .error read := by
  induction digits generalizing value count with
  | nil =>
      rw [Nat.ofDigitChars_nil, if_pos fits]
      cases rest with
      | nil => rfl
      | cons c rest => simp [takeExponent, ends c rfl]
  | cons c digits ih =>
      have digit := h c List.mem_cons_self
      rw [ofDigitChars_cons, List.cons_append, takeExponent]
      simp only [digit, if_true]
      by_cases room : value * 10 + (c.toNat - 48) ≤ maxExponent
      · have tail := ih (fun d member => h d (List.mem_cons_of_mem c member)) room (count + 1)
        have length : count + (c :: digits).length = count + 1 + digits.length := by
          rw [List.length_cons]
          omega
        simpa only [if_neg (not_lt.mpr room), length] using tail
      · have large : ¬Nat.ofDigitChars 10 digits (value * 10 + (c.toNat - 48)) ≤ maxExponent :=
          fun le => room ((le_ofDigitChars digits _).trans le)
        rw [if_neg large, if_pos (not_le.mp room)]
        exact ⟨_, rfl⟩

section Exponents

variable {p : Position} {c : Char} {more digits rest : List Char} (written : digits = c :: more)
  (digit : c.isDigit = true)

include written digit

theorem scanExponent_positive {v count : Nat}
    (takes : takeExponent 0 0 (digits ++ rest) = .ok (v, count))
    : scanExponent positive s k p ('+' :: (digits ++ rest))
      = finishReal positive s (k + v) ((p.next '+').after ((digits ++ rest).take count))
          ((digits ++ rest).drop count) := by
  subst written
  rw [List.cons_append] at takes ⊢
  simp only [scanExponent, digit, takes]
  rfl

theorem scanExponent_negative {v count : Nat}
    (takes : takeExponent 0 0 (digits ++ rest) = .ok (v, count))
    : scanExponent positive s k p ('-' :: (digits ++ rest))
      = finishReal positive s (k - v) ((p.next '-').after ((digits ++ rest).take count))
          ((digits ++ rest).drop count) := by
  subst written
  rw [List.cons_append] at takes ⊢
  simp only [scanExponent, digit, takes]
  rfl

/-- A negative exponent that is too large makes zero of any significand. -/
theorem scanExponent_overflow {count : Nat}
    (takes : takeExponent 0 0 (digits ++ rest) = .error count)
    : scanExponent positive s k p ('-' :: (digits ++ rest))
      = finishReal positive 0 0 ((p.next '-').after (leadingDigits (digits ++ rest)))
          ((digits ++ rest).drop (leadingDigits (digits ++ rest)).length) := by
  subst written
  rw [List.cons_append] at takes ⊢
  simp only [scanExponent, digit, takes, Bool.not_true, Bool.and_false, Bool.false_eq_true,
    if_false]

end Exponents

theorem natDigits_cons (n : Nat) : ∃ c more, natDigits n = c :: more ∧ c.isDigit = true := by
  cases written : natDigits n with
  | nil => exact absurd written Nat.toDigits_ne_nil
  | cons c more =>
      exact ⟨c, more, rfl, isDigit_of_mem_natDigits (n := n) (written ▸ List.mem_cons_self)⟩

/-- The digits of an exponent are taken if it is not too large. -/
theorem takeExponent_natDigits (v : Nat) {rest : List Char} (ends : EndsDigits rest)
    : if v ≤ maxExponent then
        takeExponent 0 0 (natDigits v ++ rest) = .ok (v, (natDigits v).length)
      else ∃ read, takeExponent 0 0 (natDigits v ++ rest) = .error read := by
  have digits : ∀ c ∈ natDigits v, c.isDigit = true := fun c => isDigit_of_mem_natDigits
  have takes := takeExponent_digits digits (Nat.zero_le maxExponent) 0 ends
  have number : Nat.ofDigitChars 10 (natDigits v) 0 = v := Nat.ofDigitChars_ten_toDigits
  rwa [number, Nat.zero_add] at takes

/-- A positive exponent that is not too large. -/
theorem scans_exponent (positive : Bool) {v : Nat} (small : v ≤ maxExponent)
    (h : Finishes s (k + v))
    : Scans (scanAfterFraction positive s k) ('e' :: '+' :: natDigits v) := by
  obtain ⟨m, finish⟩ := finishReal_eq positive h
  obtain ⟨c, more, written, digit⟩ := natDigits_cons v
  refine ⟨m, fun p rest ends => ⟨((p.next 'e').next '+').after (natDigits v), ?_⟩⟩
  have takes := takeExponent_natDigits v ends.endsDigits
  rw [if_pos small] at takes
  rw [List.cons_append, List.cons_append, scanAfterFraction,
    scanExponent_positive written digit takes, List.take_left, List.drop_left, finish]

/-- A negative exponent may be as large as it likes. -/
theorem scans_negativeExponent (positive : Bool) (fits : s ≤ maxUnsigned) {v : Nat}
    (h : k - v < 0)
    : Scans (scanAfterFraction positive s k) ('e' :: '-' :: natDigits v) := by
  obtain ⟨c, more, written, digit⟩ := natDigits_cons v
  by_cases small : v ≤ maxExponent
  · obtain ⟨m, finish⟩ := finishReal_eq positive (finishes_of_neg fits h)
    refine ⟨m, fun p rest ends => ⟨((p.next 'e').next '-').after (natDigits v), ?_⟩⟩
    have takes := takeExponent_natDigits v ends.endsDigits
    rw [if_pos small] at takes
    rw [List.cons_append, List.cons_append, scanAfterFraction,
      scanExponent_negative written digit takes, List.take_left, List.drop_left, finish]
  · obtain ⟨m, finish⟩ := finishReal_eq positive (finishes_zero 0)
    refine ⟨m, fun p rest ends => ⟨((p.next 'e').next '-').after (natDigits v), ?_⟩⟩
    have takes := takeExponent_natDigits v ends.endsDigits
    rw [if_neg small] at takes
    obtain ⟨read, takes⟩ := takes
    rw [List.cons_append, List.cons_append, scanAfterFraction,
      scanExponent_overflow written digit takes,
      leadingDigits_append (fun c => isDigit_of_mem_natDigits) ends.endsDigits, List.drop_left,
      finish]

theorem scanFraction_eq {p : Position} {text rest extra : List Char} {value count : Nat}
    (takes : takeSignificand s 0 text = (value, count, rest))
    (skips : leadingDigits rest = extra) (some : count = 0 → extra ≠ [])
    : scanFraction positive s k p text
      = scanAfterFraction positive value (k - count) ((p.after (text.take count)).after extra)
          (rest.drop extra.length) := by
  simp only [scanFraction, takes, skips]

/-- The digits after a point, of which some may be skipped, and what follows them. -/
theorem scans_fraction (positive : Bool) {digits tail : List Char} (some : digits ≠ [])
    (h : ∀ c ∈ digits, c.isDigit = true) (fits : s ≤ maxUnsigned)
    (ends : ∀ rest, EndsNumber rest → EndsDigits (tail ++ rest))
    (after : ∀ taken skipped, digits = taken ++ skipped →
      Nat.ofDigitChars 10 taken s ≤ maxUnsigned →
      (Nat.ofDigitChars 10 digits s ≤ maxUnsigned → skipped = []) →
        Scans (scanAfterFraction positive (Nat.ofDigitChars 10 taken s) (k - taken.length)) tail)
    : Scans (scanFraction positive s k) (digits ++ tail) := by
  obtain ⟨taken, skipped, rfl, takenFits, all, takes⟩ := takeSignificand_digits h fits
  obtain ⟨m, scan⟩ := after taken skipped rfl takenFits all
  refine ⟨m, fun p rest restEnds => ?_⟩
  have tailEnds := ends rest restEnds
  have extra : leadingDigits (skipped ++ (tail ++ rest)) = skipped :=
    leadingDigits_append (fun c member => h c (List.mem_append_right _ member)) tailEnds
  have begun := takes 0 (tail ++ rest) tailEnds
  rw [Nat.zero_add] at begun
  have notNone : taken.length = 0 → skipped ≠ [] := by
    rintro none rfl
    exact some (by rw [List.length_eq_zero_iff.mp none, List.append_nil])
  obtain ⟨q, scanned⟩ := scan ((p.after taken).after skipped) rest restEnds
  refine ⟨q, ?_⟩
  rw [List.append_assoc, scanFraction_eq begun extra notNone, List.append_assoc, List.take_left,
    List.drop_left, scanned]

/-- A point and digits after it, with nothing after them, need no room for a power of ten. -/
theorem scans_point (positive : Bool) {digits : List Char} (some : digits ≠ [])
    (h : ∀ c ∈ digits, c.isDigit = true) (fits : s ≤ maxUnsigned)
    : Scans (scanFraction positive s 0) digits := by
  have scans : Scans (scanFraction positive s 0) (digits ++ []) := by
    refine scans_fraction positive some h fits (fun rest ends => ends.endsDigits) ?_
    intro taken skipped _ takenFits _
    exact scans_end positive (finishes_of_nonpos takenFits (by omega))
  rwa [List.append_nil] at scans

-----------------------------------------------------------------------------------------
-- The digits before the point
-----------------------------------------------------------------------------------------

/-- Holds for digits that may stand before a point: they fit, and zero starts no others. -/
structure Whole (text : List Char) : Prop where
  digits : ∀ c ∈ text, c.isDigit = true
  leads : ∃ c rest, text = c :: rest ∧ (c = '0' → rest = [])
  fits : Nat.ofDigitChars 10 text 0 ≤ maxUnsigned

theorem scanNumber_whole (positive : Bool) {digits : List Char} (whole : Whole digits)
    (p : Position) {after : List Char} (ends : EndsDigits after)
    : scanNumber positive p (digits ++ after)
      = scanNumber.wholeOrReal positive (Nat.ofDigitChars 10 digits 0) (p.after digits) after := by
  obtain ⟨c, rest, rfl, alone⟩ := whole.leads
  by_cases zero : c = '0'
  · obtain rfl := alone zero
    subst zero
    cases after with
    | nil => rfl
    | cons d tail =>
        simp only [List.singleton_append, scanNumber, ends d rfl, Bool.false_eq_true, if_false]
        rfl
  · have digit := whole.digits c List.mem_cons_self
    obtain ⟨taken, skipped, split, -, all, takes⟩ :=
      takeSignificand_digits whole.digits (Nat.zero_le maxUnsigned)
    obtain rfl := all whole.fits
    rw [List.append_nil] at split
    subst split
    have begun := takes 0 after ends
    have none : leadingDigits ([] ++ after) = [] :=
      leadingDigits_append (fun c member => by cases member) ends
    rw [List.nil_append] at none
    rw [List.cons_append, scanNumber]
    · rw [List.cons_append] at begun
      simp only [digit, begun, List.nil_append, none, Bool.not_true, Bool.false_eq_true, if_false,
        Nat.zero_add]
      rw [← List.cons_append, List.take_left]
    · exact fun same => zero same

/-- Digits before a point, an exponent or the end of a number. -/
theorem scansAs_whole {digits tail : List Char} (whole : Whole digits)
    (ends : ∀ rest, EndsNumber rest → EndsDigits (tail ++ rest)) {m : Number}
    (h : ScansAs (scanNumber.wholeOrReal positive (Nat.ofDigitChars 10 digits 0)) tail m)
    : ScansAs (scanNumber positive) (digits ++ tail) m := by
  intro p rest restEnds
  obtain ⟨q, scanned⟩ := h (p.after digits) rest restEnds
  refine ⟨q, ?_⟩
  rw [List.append_assoc, scanNumber_whole positive whole p (ends rest restEnds), scanned]

theorem scans_whole {digits tail : List Char} (whole : Whole digits)
    (ends : ∀ rest, EndsNumber rest → EndsDigits (tail ++ rest))
    (h : Scans (scanNumber.wholeOrReal positive (Nat.ofDigitChars 10 digits 0)) tail)
    : Scans (scanNumber positive) (digits ++ tail) := by
  obtain ⟨m, scan⟩ := h
  exact ⟨m, scansAs_whole whole ends scan⟩

theorem scans_afterPoint {text : List Char} (h : Scans (scanFraction positive s 0) text)
    : Scans (scanNumber.wholeOrReal positive s) ('.' :: text) := by
  obtain ⟨m, scan⟩ := h
  exact ⟨m, fun p rest ends => scan (p.next '.') rest ends⟩

theorem scans_afterLetter {text : List Char}
    (h : Scans (scanAfterFraction positive s 0) ('e' :: text))
    : Scans (scanNumber.wholeOrReal positive s) ('e' :: text) := by
  obtain ⟨m, scan⟩ := h
  exact ⟨m, fun p rest ends => scan p rest ends⟩

theorem whole_of_short {text : List Char} (digits : ∀ c ∈ text, c.isDigit = true)
    (leads : ∃ c rest, text = c :: rest ∧ c ≠ '0') (short : text.length ≤ 19)
    : Whole text := by
  refine ⟨digits, ?_, ?_⟩
  · obtain ⟨c, rest, first, notZero⟩ := leads
    exact ⟨c, rest, first, fun zero => absurd zero notZero⟩
  · have less := ofDigitChars_lt digits 0
    have power : 10 ^ text.length ≤ 10 ^ 19 := Nat.pow_le_pow_right (by decide) short
    rw [Nat.zero_add, Nat.one_mul] at less
    exact (less.le.trans power).trans (by decide)

theorem isDigit_zero : ∀ c ∈ ['0'], c.isDigit = true :=
  fun _ member => List.mem_singleton.mp member ▸ rfl

theorem whole_zero : Whole ['0'] :=
  ⟨isDigit_zero, ⟨'0', [], rfl, fun _ => rfl⟩, by decide⟩

/-- Digits before and after a point. -/
theorem scans_positional (positive : Bool) {whole fraction : List Char} (before : Whole whole)
    (some : fraction ≠ []) (digits : ∀ c ∈ fraction, c.isDigit = true)
    : Scans (scanNumber positive) (whole ++ '.' :: fraction) := by
  exact scans_whole before (fun _ _ => endsDigits_cons (by decide))
    (scans_afterPoint (scans_point positive some digits before.fits))

end Scanning

-----------------------------------------------------------------------------------------
-- The written forms of fractions
-----------------------------------------------------------------------------------------

theorem scans_positional_proper (positive : Bool) {d : Decimal} (proper : d.Proper) {point : ℤ}
    (high : point ≤ 16)
    : Scans (scanNumber positive) (positional d.digits point) := by
  obtain ⟨c, more, first, notZero⟩ := proper.leads
  have zeros : ∀ (n : Nat), ∀ c ∈ List.replicate n '0', c.isDigit = true := fun n c member =>
    List.eq_of_mem_replicate member ▸ rfl
  unfold positional
  split
  · next low =>
      have digits : ∀ c ∈ List.replicate (-point).toNat '0' ++ d.digits, c.isDigit = true :=
        fun c member => (List.mem_append.mp member).elim (zeros _ c) (proper.digits c)
      exact scans_positional positive whole_zero (by simp [first]) digits
  · next low =>
      split
      · next long =>
          have whole : Whole (d.digits ++ List.replicate (point.toNat - d.digits.length) '0') := by
            refine whole_of_short ?_ ?_ ?_
            · intro c member
              exact (List.mem_append.mp member).elim (proper.digits c) (zeros _ c)
            · exact ⟨c, _, by rw [first, List.cons_append], notZero⟩
            · rw [List.length_append, List.length_replicate]
              omega
          exact scans_positional positive whole (by decide) isDigit_zero
      · next short =>
          have whole : Whole (d.digits.take point.toNat) := by
            refine whole_of_short (fun c member => ?_) ?_ ?_
            · exact proper.digits c (List.mem_of_mem_take member)
            · refine ⟨c, more.take (point.toNat - 1), ?_, notZero⟩
              rw [first, ← List.take_succ_cons]
              congr 1
              omega
            · rw [List.length_take]
              omega
          have some : d.digits.drop point.toNat ≠ [] := by
            rw [Ne, List.drop_eq_nil_iff]
            omega
          rw [List.append_assoc]
          exact scans_positional positive whole some
            fun c member => proper.digits c (List.mem_of_mem_drop member)

/-- The significand of a decimal of which some digits are skipped. -/
theorem cut_of_split {d : Decimal} {c : Char} {taken skipped : List Char}
    (digits : d.digits = c :: (taken ++ skipped))
    (fits : Nat.ofDigitChars 10 taken (Nat.ofDigitChars 10 [c] 0) ≤ maxUnsigned)
    (all : Nat.ofDigitChars 10 d.digits 0 ≤ maxUnsigned → skipped = [])
    : Cut (Nat.ofDigitChars 10 taken (Nat.ofDigitChars 10 [c] 0)) (d.power + skipped.length) d := by
  have number : Nat.ofDigitChars 10 d.digits 0
      = Nat.ofDigitChars 10 skipped (Nat.ofDigitChars 10 taken (Nat.ofDigitChars 10 [c] 0)) := by
    rw [digits, ← Nat.ofDigitChars_append, ← Nat.ofDigitChars_append, List.singleton_append]
  generalize Nat.ofDigitChars 10 taken (Nat.ofDigitChars 10 [c] 0) = s at *
  refine ⟨fits, ?_, fun small => ?_⟩
  · rw [Decimal.value, number, Nat.ofDigitChars_eq_ofDigitChars_zero, zpow_add₀ (by decide),
      zpow_natCast]
    have rest := Nat.cast_nonneg (α := ℚ) (Nat.ofDigitChars 10 skipped 0)
    have scaled := mul_nonneg rest (by positivity : (0 : ℚ) ≤ 10 ^ d.power)
    push_cast
    linarith
  · obtain rfl := all small
    rw [number, Nat.ofDigitChars_nil]
    exact ⟨rfl, by simp⟩

/-- The exponent of the first digit of a decimal is bounded as the decimal is. -/
theorem exponent_lt {d : Decimal} (proper : d.Proper) {n : Nat} (h : d.value < tenTo n)
    : d.digits.length + d.power - 1 < n := by
  obtain ⟨c, rest, digits, notZero⟩ := proper.leads
  have first : 1 ≤ c.toNat - 48 := by
    have low := (digit_bounds (proper.digits c (digits ▸ List.mem_cons_self))).1
    have other : c.toNat ≠ 48 := fun same => notZero (Char.toNat_inj.mp same)
    omega
  have number : 10 ^ rest.length ≤ Nat.ofDigitChars 10 d.digits 0 := by
    rw [digits, ofDigitChars_cons, Nat.ofDigitChars_eq_ofDigitChars_zero, Nat.zero_mul,
      Nat.zero_add]
    exact (Nat.le_mul_of_pos_right _ first).trans (Nat.le_add_right _ _)
  have power : (10 : ℚ) ^ ((rest.length : ℤ) + d.power) < 10 ^ (n : ℤ) := by
    have factor : (0 : ℚ) ≤ 10 ^ d.power := by positivity
    have cast : (10 : ℚ) ^ (rest.length : ℤ) ≤ Nat.ofDigitChars 10 d.digits 0 := by
      exact_mod_cast number
    rw [zpow_add₀ (by decide)]
    refine (mul_le_mul_of_nonneg_right cast factor).trans_lt (h.trans_eq ?_)
    rw [tenTo, Nat.pow_eq, Nat.cast_pow, Nat.cast_ofNat, zpow_natCast]
  have exponents := (zpow_lt_zpow_iff_right₀ (by decide)).mp power
  rw [digits, List.length_cons]
  omega

/-- An exponent after a significand that was cut off a decimal. -/
theorem scans_cut (positive : Bool) {x : Binary64} (finite : x.isFinite = true)
    (h : x.mantissa ≠ 0) {c : Char} {taken skipped : List Char}
    (digits : (shortest x).digits = c :: (taken ++ skipped))
    (fits : Nat.ofDigitChars 10 taken (Nat.ofDigitChars 10 [c] 0) ≤ maxUnsigned)
    (all : Nat.ofDigitChars 10 (shortest x).digits 0 ≤ maxUnsigned → skipped = [])
    {e : ℤ} (exponent : e = (shortest x).digits.length + (shortest x).power - 1)
    : Scans
        (scanAfterFraction positive (Nat.ofDigitChars 10 taken (Nat.ofDigitChars 10 [c] 0))
          (-taken.length))
        ((if e < 0 then ['e', '-'] else ['e', '+']) ++ natDigits e.natAbs) := by
  by_cases negative : e < 0
  · rw [if_pos negative]
    exact scans_negativeExponent positive fits (by omega)
  · have small : e < (309 : ℕ) := by
      rw [exponent]
      exact exponent_lt (Folio.Number.proper_shortest h) (value_shortest_lt finite h)
    rw [if_neg negative]
    refine scans_exponent positive (by rw [maxExponent]; omega) ?_
    have sum : -(taken.length : ℤ) + e.natAbs = (shortest x).power + skipped.length := by
      rw [digits, List.length_cons, List.length_append] at exponent
      omega
    rw [sum]
    exact finishes_shortest finite h (cut_of_split digits fits all)

theorem scans_scientific (positive : Bool) {x : Binary64} (finite : x.isFinite = true)
    (h : x.mantissa ≠ 0) {e : ℤ}
    (exponent : e = (shortest x).digits.length + (shortest x).power - 1)
    : Scans (scanNumber positive) (Number.scientific (shortest x).digits e) := by
  have proper := Folio.Number.proper_shortest h
  obtain ⟨c, more, digits, notZero⟩ := proper.leads
  have allDigits := proper.digits
  rw [digits] at allDigits
  have whole : Whole [c] := by
    refine whole_of_short (fun d member => ?_) ⟨c, [], rfl, notZero⟩ (by simp)
    exact allDigits d (List.mem_singleton.mp member ▸ List.mem_cons_self)
  obtain ⟨tail, letter⟩ : ∃ tail,
      (if e < 0 then ['e', '-'] else ['e', '+']) ++ natDigits e.natAbs = 'e' :: tail := by
    split <;> exact ⟨_, rfl⟩
  have ends (rest : List Char) : EndsDigits ('e' :: tail ++ rest) := endsDigits_cons (by decide)
  cases more with
  | nil =>
      have text : Number.scientific (shortest x).digits e = [c] ++ 'e' :: tail := by
        rw [digits, ← letter]
        rfl
      have split : (shortest x).digits = c :: ([] ++ []) := digits
      have scans := scans_cut positive finite h split whole.fits (fun _ => rfl) exponent
      rw [letter] at scans
      rw [text]
      exact scans_whole whole (fun rest _ => ends rest) (scans_afterLetter scans)
  | cons d more =>
      have number : Nat.ofDigitChars 10 (shortest x).digits 0
          = Nat.ofDigitChars 10 (d :: more) (Nat.ofDigitChars 10 [c] 0) := by
        rw [digits, ← Nat.ofDigitChars_append, List.singleton_append]
      have text : Number.scientific (shortest x).digits e
          = [c] ++ '.' :: ((d :: more) ++ 'e' :: tail) := by
        rw [digits, ← letter]
        simp [Number.scientific]
      rw [text]
      refine scans_whole whole (fun rest _ => endsDigits_cons (by decide)) (scans_afterPoint ?_)
      refine scans_fraction positive (by simp)
        (fun c member => allDigits c (List.mem_cons_of_mem _ member)) whole.fits
        (fun rest _ => ends rest) ?_
      intro taken skipped split fits all
      rw [← number] at all
      rw [zero_sub, ← letter]
      exact scans_cut positive finite h (split ▸ digits) fits all exponent

-----------------------------------------------------------------------------------------
-- Written numbers are read
-----------------------------------------------------------------------------------------

/-- There are ten digits. -/
theorem eq_of_isDigit {c : Char} (digit : c.isDigit = true)
    : c = '0' ∨ c = '1' ∨ c = '2' ∨ c = '3' ∨ c = '4' ∨ c = '5' ∨ c = '6' ∨ c = '7' ∨ c = '8'
      ∨ c = '9' := by
  have all : ∀ i : Fin 10,
      Char.ofNat (48 + i.val) ∈ ['0', '1', '2', '3', '4', '5', '6', '7', '8', '9'] := by
    decide
  obtain ⟨low, high⟩ := digit_bounds digit
  have found := all ⟨c.toNat - 48, by omega⟩
  rw [Nat.add_sub_cancel' low, Char.ofNat_toNat] at found
  simpa only [List.mem_cons, List.not_mem_nil, or_false] using found

theorem isJsonBlank_of_isDigit {c : Char} (digit : c.isDigit = true) : isJsonBlank c = false := by
  rcases eq_of_isDigit digit with
    rfl | rfl | rfl | rfl | rfl | rfl | rfl | rfl | rfl | rfl <;> rfl

theorem scanLexeme_digit (p : Position) {c : Char} (digit : c.isDigit = true) (rest : List Char)
    {n : Number} {q : Position} {after : List Char}
    (scanned : scanNumber true p (c :: rest) = .ok (n, q, after))
    : scanLexeme p c rest
      = ({ token := .number n, place := p, start := p.peek c, stop := q }, after) := by
  rcases eq_of_isDigit digit with
    rfl | rfl | rfl | rfl | rfl | rfl | rfl | rfl | rfl | rfl <;>
    simp [scanLexeme, scanned]

theorem readAs_positive {n m : Number} {c : Char} {rest : List Char} (written : n.text = c :: rest)
    (digit : c.isDigit = true) (h : ScansAs (scanNumber true) n.text m)
    : n.ReadAs m := by
  intro p after ends
  obtain ⟨q, scanned⟩ := h p after ends
  have notBlank := isJsonBlank_of_isDigit digit
  rw [written, List.cons_append] at scanned ⊢
  exact ⟨_, rfl, lexemesFrom_cons notBlank (scanLexeme_digit p digit _ scanned) (by simp) rfl⟩

theorem readAs_negative {n m : Number} {text : List Char} (written : n.text = '-' :: text)
    (h : ScansAs (scanNumber false) text m)
    : n.ReadAs m := by
  intro p rest ends
  obtain ⟨q, scanned⟩ := h (p.next '-') rest ends
  have lexeme : scanLexeme p '-' (text ++ rest)
      = ({ token := .number m, place := p, start := p.peek '-', stop := q }, rest) := by
    simp only [scanLexeme, scanned]
  rw [written, List.cons_append]
  exact ⟨_, rfl, lexemesFrom_cons (by decide) lexeme (by simp) rfl⟩

theorem whole_natDigits {n : Nat} (fits : n ≤ maxUnsigned) : Whole (natDigits n) := by
  have number : Nat.ofDigitChars 10 (natDigits n) 0 = n := Nat.ofDigitChars_ten_toDigits
  refine ⟨fun c => isDigit_of_mem_natDigits, ?_, by rwa [number]⟩
  by_cases zero : n = 0
  · subst zero
    exact ⟨'0', [], rfl, fun _ => rfl⟩
  · obtain ⟨c, rest, first, notZero⟩ := Folio.Number.natDigits_leads zero
    exact ⟨c, rest, first, fun same => absurd same notZero⟩

/-- A number that ends after its whole digits is an integer, unless it is the negative zero. -/
theorem scansAs_end {positive : Bool} {value : Nat} {n : Number}
    (h : Number.ofInt? (if positive then (value : ℤ) else -(value : ℤ)) = some n)
    (some : positive = true ∨ value ≠ 0)
    : ScansAs (scanNumber.wholeOrReal positive value) [] n := by
  intro p rest ends
  refine ⟨p, ?_⟩
  have notZero : (!positive && value == 0) = false := by
    rcases some with rfl | some
    · rfl
    · rw [beq_eq_false_iff_ne.mpr some, Bool.and_false]
  rw [List.nil_append]
  cases rest with
  | nil => simp only [scanNumber.wholeOrReal, h, notZero, Bool.false_eq_true, if_false]
  | cons c tail =>
      obtain ⟨-, point, lower, upper⟩ := ends c rfl
      rw [scanNumber.wholeOrReal, h]
      · simp only [notZero, Bool.false_eq_true, if_false]
      · exact fun after same => point (List.cons.inj same).1
      · exact fun after same => lower (List.cons.inj same).1
      · exact fun after same => upper (List.cons.inj same).1

theorem scansAs_integer {positive : Bool} {value : Nat} {n : Number} (fits : value ≤ maxUnsigned)
    (h : Number.ofInt? (if positive then (value : ℤ) else -(value : ℤ)) = some n)
    (some : positive = true ∨ value ≠ 0)
    : ScansAs (scanNumber positive) (natDigits value) n := by
  have number : Nat.ofDigitChars 10 (natDigits value) 0 = value := Nat.ofDigitChars_ten_toDigits
  have ended := scansAs_end h some
  have ends (rest : List Char) (restEnds : EndsNumber rest) : EndsDigits ([] ++ rest) :=
    restEnds.endsDigits
  rw [← number] at ended
  have scans := scansAs_whole (whole_natDigits fits) ends ended
  rwa [List.append_nil] at scans

/-- An integer is read as itself. -/
theorem readAs_integer (n : ℤ) (fits : -9223372036854775808 ≤ n ∧ n ≤ 18446744073709551615)
    : Number.ReadAs (.integer n fits) (.integer n fits) := by
  have small : n.natAbs ≤ maxUnsigned := by
    rw [maxUnsigned]
    omega
  have taken : Number.ofInt? n = some (.integer n fits) := by
    rw [Number.ofInt?, dif_pos fits]
  by_cases negative : n < 0
  · have written : (Number.integer n fits).text = '-' :: natDigits n.natAbs := by
      rw [Number.text, Number.intText, if_pos negative]
    have value : -(n.natAbs : ℤ) = n := by omega
    refine readAs_negative written (scansAs_integer small ?_ (.inr (by omega)))
    rwa [if_neg (by decide), value]
  · have written : (Number.integer n fits).text = natDigits n.natAbs := by
      rw [Number.text, Number.intText, if_neg negative]
    have value : (n.natAbs : ℤ) = n := by omega
    obtain ⟨c, more, first, digit⟩ := natDigits_cons n.natAbs
    refine readAs_positive (written.trans first) digit ?_
    rw [written]
    refine scansAs_integer small ?_ (.inl rfl)
    rwa [if_pos rfl, value]

/-- Whatever is scanned as a number starts with a digit. -/
theorem ScansAs.starts {positive : Bool} {text : List Char} {m : Number}
    (h : ScansAs (scanNumber positive) text m)
    : ∃ c rest, text = c :: rest ∧ c.isDigit = true := by
  obtain ⟨q, scanned⟩ := h .start [] (fun _ member => by cases member)
  rw [List.append_nil] at scanned
  cases text with
  | nil => cases scanned
  | cons c rest =>
      refine ⟨c, rest, rfl, ?_⟩
      by_cases zero : c = '0'
      · rw [zero]
        rfl
      · by_contra notDigit
        rw [scanNumber] at scanned
        · simp [notDigit] at scanned
        · exact fun same => zero same

/-- The written form of a fraction without its sign. -/
def bodyText (x : Binary64) : List Char :=
  let d := shortest x
  let point : ℤ := d.digits.length + d.power
  if x.isZero then ['0', '.', '0']
  else if -5 < point && point ≤ 16 then positional d.digits point
  else Number.scientific d.digits (point - 1)

theorem scans_bodyText (positive : Bool) {x : Binary64} (finite : x.isFinite = true)
    : Scans (scanNumber positive) (bodyText x) := by
  simp only [bodyText]
  split
  · exact scans_positional positive whole_zero (by decide) isDigit_zero
  · next notZero =>
      have some : x.mantissa ≠ 0 := by
        simpa [Binary64.isZero, finite] using notZero
      split
      · next near =>
          refine scans_positional_proper positive (Folio.Number.proper_shortest some) ?_
          simpa using (Bool.and_eq_true_iff.mp near).2
      · exact scans_scientific positive finite some rfl

/-- Every written number is read as some number. -/
theorem exists_readAs (n : Number) : ∃ m, n.ReadAs m := by
  cases n with
  | integer n fits => exact ⟨_, readAs_integer n fits⟩
  | real x finite =>
      have text : (Number.real x finite).text
          = if x.isNegative then '-' :: bodyText x else bodyText x :=
        rfl
      by_cases negative : x.isNegative = true
      · rw [if_pos negative] at text
        obtain ⟨m, scans⟩ := scans_bodyText false finite
        exact ⟨m, readAs_negative text scans⟩
      · rw [if_neg negative] at text
        obtain ⟨m, scans⟩ := scans_bodyText true finite
        obtain ⟨c, rest, first, digit⟩ := scans.starts
        exact ⟨m, readAs_positive (text.trans first) digit (text ▸ scans)⟩

/-- What numbers are read as can be chosen once for all numbers. -/
theorem exists_readAs_all : ∃ f : Number → Number, ∀ n, Number.ReadAs n (f n) :=
  ⟨fun n => (exists_readAs n).choose, fun n => (exists_readAs n).choose_spec⟩

end Folio.Json
