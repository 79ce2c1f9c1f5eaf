import Mathlib

/-!
# Rounding to a binary floating-point format

`round format x` rounds `x` to the nearest number `m * 2 ^ e` with `m < 2 ^ precision`, ties to
even, as IEEE 754 arithmetic rounds an exact result.  The exponent is unbounded, so overflow and
gradual underflow are left out.  For nonnegative values rounding is monotone, keeps representable
numbers and errs by at most `x / 2 ^ precision`.
-/

namespace BinaryFloat

/-! ## Rounding to an integer -/

/-- The integer nearest to `x`; of two at the same distance, the even one. -/
def roundEven (x : ℚ) : ℤ :=
  if x - ⌊x⌋ < 1 / 2 then ⌊x⌋
  else if 1 / 2 < x - ⌊x⌋ then ⌊x⌋ + 1
  else ⌊x⌋ + ⌊x⌋ % 2

@[simp]
theorem roundEven_intCast (k : ℤ) : roundEven k = k := by
  simp [roundEven]

@[simp]
theorem roundEven_zero : roundEven 0 = 0 := by
  simpa using roundEven_intCast 0

theorem roundEven_bounds (x : ℚ) : ⌊x⌋ ≤ roundEven x ∧ roundEven x ≤ ⌊x⌋ + 1 := by
  unfold roundEven
  split_ifs <;> omega

theorem abs_roundEven_sub_le (x : ℚ) : |(roundEven x : ℚ) - x| ≤ 1 / 2 := by
  have floor_le := Int.floor_le x
  have lt_floor := Int.lt_floor_add_one x
  have parity : (0 : ℚ) ≤ ((⌊x⌋ % 2 : ℤ) : ℚ) ∧ ((⌊x⌋ % 2 : ℤ) : ℚ) ≤ 1 := by
    constructor <;> exact_mod_cast (show _ by omega)
  unfold roundEven
  rw [abs_le]
  split_ifs <;> push_cast <;> constructor <;> linarith

theorem roundEven_mono {x y : ℚ} (le : x ≤ y) : roundEven x ≤ roundEven y := by
  have floor_le : ⌊x⌋ ≤ ⌊y⌋ := Int.floor_mono le
  rcases floor_le.lt_or_eq with below | same
  · -- `x` rounds at most to the end of its unit interval, where that of `y` starts
    have := (roundEven_bounds x).2
    have := (roundEven_bounds y).1
    omega
  · -- in the same unit interval the fractional parts compare as `x` and `y`
    have fractions : x - ⌊x⌋ ≤ y - ⌊y⌋ := by
      rw [same]
      linarith
    unfold roundEven
    rw [same] at fractions ⊢
    split_ifs <;> first | omega | linarith

theorem le_roundEven {k : ℤ} {x : ℚ} (le : (k : ℚ) ≤ x) : k ≤ roundEven x := by
  simpa using roundEven_mono le

theorem roundEven_le {k : ℤ} {x : ℚ} (le : x ≤ k) : roundEven x ≤ k := by
  simpa using roundEven_mono le

/-- A value less than half above an integer rounds to it. -/
theorem roundEven_eq_of_near {k : ℤ} {x : ℚ} (above : (k : ℚ) ≤ x) (near : x < k + 1 / 2) :
    roundEven x = k := by
  have floor : ⌊x⌋ = k := Int.floor_eq_iff.mpr ⟨above, by linarith⟩
  unfold roundEven
  rw [floor, if_pos (by linarith)]

/-- The natural number nearest to `num / den`, ties to even, by natural division. -/
def roundDiv (num den : ℕ) : ℕ :=
  if 2 * (num % den) < den then num / den
  else if den < 2 * (num % den) then num / den + 1
  else num / den + num / den % 2

/-- Rounding a quotient of naturals is natural division with the remainder compared to half the
divisor, so it evaluates on literals. -/
theorem roundEven_div (num den : ℕ) (positive : 0 < den) :
    roundEven ((num : ℚ) / den) = roundDiv num den := by
  have den_pos : (0 : ℚ) < den := by exact_mod_cast positive
  have split : (num : ℚ) = den * ((num / den : ℕ) : ℚ) + ((num % den : ℕ) : ℚ) := by
    exact_mod_cast (Nat.div_add_mod num den).symm
  have remainder_lt : ((num % den : ℕ) : ℚ) < den := by exact_mod_cast Nat.mod_lt num positive
  unfold roundDiv
  generalize num / den = quotient at split ⊢
  generalize num % den = remainder at split remainder_lt ⊢
  have value : (num : ℚ) / den = quotient + remainder / den := by
    rw [split]
    field_simp
  have fraction_lt : (remainder : ℚ) / den < 1 := (div_lt_one den_pos).mpr remainder_lt
  have fraction_nonneg : (0 : ℚ) ≤ remainder / den := by positivity
  have floor : ⌊(num : ℚ) / den⌋ = quotient := by
    rw [Int.floor_eq_iff, value]
    push_cast
    constructor <;> linarith
  have fraction : (num : ℚ) / den - ⌊(num : ℚ) / den⌋ = remainder / den := by
    rw [floor, value]
    push_cast
    ring
  -- the fraction against one half, as naturals
  have below : (remainder : ℚ) / den < 1 / 2 ↔ 2 * remainder < den := by
    rw [div_lt_div_iff₀ den_pos (by norm_num), one_mul]
    constructor
    · intro lt
      exact_mod_cast (show ((2 * remainder : ℕ) : ℚ) < den by push_cast; linarith)
    · intro lt
      have cast : ((2 * remainder : ℕ) : ℚ) < den := by exact_mod_cast lt
      push_cast at cast
      linarith
  have above : 1 / 2 < (remainder : ℚ) / den ↔ den < 2 * remainder := by
    rw [div_lt_div_iff₀ (by norm_num) den_pos, one_mul]
    constructor
    · intro lt
      exact_mod_cast (show (den : ℚ) < ((2 * remainder : ℕ) : ℚ) by push_cast; linarith)
    · intro lt
      have cast : (den : ℚ) < ((2 * remainder : ℕ) : ℚ) := by exact_mod_cast lt
      push_cast at cast
      linarith
  unfold roundEven
  simp only [fraction]
  simp only [floor, below, above]
  split_ifs <;> push_cast <;> omega

/-! ## The format -/

/-- A binary format: the number of significand bits, at least one. -/
structure Format where
  precision : ℕ
  precision_pos : 0 < precision

/-- IEEE 754 `binary64`, Rust's `f64`. -/
def binary64 : Format := ⟨53, by decide⟩

/-- IEEE 754 `binary32`, Rust's `f32`. -/
def binary32 : Format := ⟨24, by decide⟩

variable (format : Format)

/-- The exponent of the quantum of `x`: its binade `[2 ^ E, 2 ^ (E + 1))` holds the multiples of
`2 ^ (E - precision + 1)`. -/
def quantumExponent (x : ℚ) : ℤ :=
  Int.log 2 |x| - format.precision + 1

/-- `x` rounded to the nearest number of the format, ties to an even significand. -/
def round (x : ℚ) : ℚ :=
  roundEven (x / 2 ^ quantumExponent format x) * 2 ^ quantumExponent format x

/-- The nonnegative numbers of the format. -/
def Representable (x : ℚ) : Prop :=
  ∃ m : ℕ, ∃ e : ℤ, m < 2 ^ format.precision ∧ x = m * 2 ^ e

variable {format}

@[simp]
theorem round_zero : round format 0 = 0 := by
  simp [round]

theorem quantum_pos (x : ℚ) : (0 : ℚ) < 2 ^ quantumExponent format x :=
  zpow_pos (by norm_num) _

/-! ## Binades -/

theorem zpow_log_le {x : ℚ} (positive : 0 < x) : (2 : ℚ) ^ Int.log 2 x ≤ x := by
  simpa using @Int.zpow_log_le_self ℚ _ _ _ _ 2 x (by norm_num) positive

theorem lt_zpow_log_succ (x : ℚ) : x < (2 : ℚ) ^ (Int.log 2 x + 1) := by
  simpa using @Int.lt_zpow_succ_log_self ℚ _ _ _ _ 2 (by norm_num) x

/-- The binade of a positive `x` is the one its bounds say. -/
theorem log_eq_of_bounds {x : ℚ} {exponent : ℤ} (low : (2 : ℚ) ^ exponent ≤ x)
    (high : x < 2 ^ (exponent + 1)) : Int.log 2 x = exponent := by
  have positive : 0 < x := lt_of_lt_of_le (zpow_pos (by norm_num) _) low
  have at_least : exponent ≤ Int.log 2 x :=
    (@Int.zpow_le_iff_le_log ℚ _ _ _ _ 2 (by norm_num) exponent x positive).mp (by simpa using low)
  have below : Int.log 2 x < exponent + 1 :=
    (@Int.lt_zpow_iff_log_lt ℚ _ _ _ _ 2 (by norm_num) (exponent + 1) x positive).mp
      (by simpa using high)
  omega

/-- The quantum and the top of the binade: `2 ^ precision` quanta make `2 ^ (E + 1)`. -/
theorem zpow_precision_mul_quantum {x : ℚ} (positive : 0 < x) :
    (2 : ℚ) ^ format.precision * 2 ^ quantumExponent format x = 2 ^ (Int.log 2 x + 1) := by
  rw [← zpow_natCast, ← zpow_add₀ (by norm_num), quantumExponent, abs_of_pos positive]
  congr 1
  ring

/-- The quantum and the bottom of the binade: `2 ^ (precision - 1)` quanta make `2 ^ E`. -/
theorem zpow_pred_precision_mul_quantum {x : ℚ} (positive : 0 < x) :
    (2 : ℚ) ^ (format.precision - 1) * 2 ^ quantumExponent format x = 2 ^ Int.log 2 x := by
  rw [← zpow_natCast, ← zpow_add₀ (by norm_num), quantumExponent, abs_of_pos positive,
    Nat.cast_sub format.precision_pos]
  congr 1
  push_cast
  ring

/-- Scaled by its quantum, a positive `x` lies in `[2 ^ (precision - 1), 2 ^ precision)`. -/
theorem scaled_bounds {x : ℚ} (positive : 0 < x) :
    (2 : ℚ) ^ (format.precision - 1) ≤ x / 2 ^ quantumExponent format x ∧
      x / 2 ^ quantumExponent format x < 2 ^ format.precision := by
  rw [le_div_iff₀ (quantum_pos x), div_lt_iff₀ (quantum_pos x),
    zpow_pred_precision_mul_quantum positive, zpow_precision_mul_quantum positive]
  exact ⟨zpow_log_le positive, lt_zpow_log_succ x⟩

/-! ## Rounding -/

theorem round_nonneg {x : ℚ} (nonneg : 0 ≤ x) : 0 ≤ round format x := by
  have scaled : ((0 : ℤ) : ℚ) ≤ x / 2 ^ quantumExponent format x := by
    simpa using div_nonneg nonneg (quantum_pos x).le
  unfold round
  exact mul_nonneg (by exact_mod_cast le_roundEven scaled) (quantum_pos x).le

/-- A positive `x` rounds at most to the top of its binade. -/
theorem round_le_zpow_log_succ {x : ℚ} (positive : 0 < x) :
    round format x ≤ 2 ^ (Int.log 2 x + 1) := by
  have scaled : x / 2 ^ quantumExponent format x ≤ ((2 ^ format.precision : ℤ) : ℚ) := by
    exact_mod_cast (scaled_bounds positive).2.le
  have rounded := roundEven_le scaled
  rw [← zpow_precision_mul_quantum positive, round]
  exact mul_le_mul_of_nonneg_right (by exact_mod_cast rounded) (quantum_pos x).le

/-- A positive `x` rounds at least to the bottom of its binade. -/
theorem zpow_log_le_round {x : ℚ} (positive : 0 < x) :
    (2 : ℚ) ^ Int.log 2 x ≤ round format x := by
  have scaled : ((2 ^ (format.precision - 1) : ℤ) : ℚ) ≤ x / 2 ^ quantumExponent format x := by
    exact_mod_cast (scaled_bounds positive).1
  have rounded := le_roundEven scaled
  rw [← zpow_pred_precision_mul_quantum positive, round]
  exact mul_le_mul_of_nonneg_right (by exact_mod_cast rounded) (quantum_pos x).le

theorem round_pos {x : ℚ} (positive : 0 < x) : 0 < round format x :=
  (zpow_pos (by norm_num) _).trans_le (zpow_log_le_round positive)

/-- Rounding is monotone on nonnegative values: within a binade because rounding to an integer
is, and across binades because the bottom of a later binade is at least the top of an earlier
one. -/
theorem round_mono {x y : ℚ} (nonneg : 0 ≤ x) (le : x ≤ y) : round format x ≤ round format y := by
  rcases nonneg.lt_or_eq with positive | zero
  · have exponent_le : Int.log 2 x ≤ Int.log 2 y := Int.log_mono_right positive le
    rcases exponent_le.lt_or_eq with below | same
    · calc round format x ≤ 2 ^ (Int.log 2 x + 1) := round_le_zpow_log_succ positive
        _ ≤ 2 ^ Int.log 2 y := zpow_le_zpow_right₀ (by norm_num) below
        _ ≤ round format y := zpow_log_le_round (positive.trans_le le)
    · have quantum : quantumExponent format x = quantumExponent format y := by
        rw [quantumExponent, quantumExponent, abs_of_pos positive,
          abs_of_pos (positive.trans_le le), same]
      have scaled : x / 2 ^ quantumExponent format y ≤ y / 2 ^ quantumExponent format y :=
        div_le_div_of_nonneg_right le (quantum_pos y).le
      unfold round
      rw [quantum]
      exact mul_le_mul_of_nonneg_right (by exact_mod_cast roundEven_mono scaled) (quantum_pos y).le
  · rw [← zero, round_zero]
    exact round_nonneg (zero ▸ le)

/-- Rounding lands in the format: an integer number of quanta, at most `2 ^ precision` of them,
and exactly that many only at the top of the binade. -/
theorem representable_round {x : ℚ} (nonneg : 0 ≤ x) : Representable format (round format x) := by
  rcases nonneg.lt_or_eq with positive | zero
  · have scaled : x / 2 ^ quantumExponent format x ≤ ((2 ^ format.precision : ℕ) : ℤ) := by
      push_cast
      exact (scaled_bounds positive).2.le
    have quanta_nonneg : (0 : ℤ) ≤ roundEven (x / 2 ^ quantumExponent format x) :=
      le_roundEven (by simpa using div_nonneg nonneg (quantum_pos x).le)
    obtain ⟨quanta, quanta_eq⟩ := Int.eq_ofNat_of_zero_le quanta_nonneg
    have quanta_le : quanta ≤ 2 ^ format.precision := by
      have := roundEven_le scaled
      omega
    rcases quanta_le.lt_or_eq with below | top
    · exact ⟨quanta, quantumExponent format x, below, by rw [round, quanta_eq]; push_cast; rfl⟩
    · refine ⟨1, quantumExponent format x + format.precision,
        Nat.one_lt_two_pow format.precision_pos.ne', ?_⟩
      rw [round, quanta_eq, top, zpow_add₀ (by norm_num), zpow_natCast]
      push_cast
      ring
  · exact ⟨0, 0, Nat.two_pow_pos _, by rw [← zero, round_zero]; simp⟩

/-- A positive representable number is an integer number of quanta. -/
theorem representable_scaled {x : ℚ} (representable : Representable format x) (positive : 0 < x) :
    ∃ k : ℕ, x / 2 ^ quantumExponent format x = k := by
  obtain ⟨m, e, bound, rfl⟩ := representable
  have below : (m : ℚ) * 2 ^ e < 2 ^ ((format.precision : ℤ) + e) := by
    rw [zpow_add₀ (by norm_num), zpow_natCast]
    exact mul_lt_mul_of_pos_right (by exact_mod_cast bound) (zpow_pos (by norm_num) _)
  have exponent : Int.log 2 ((m : ℚ) * 2 ^ e) < format.precision + e :=
    (@Int.lt_zpow_iff_log_lt ℚ _ _ _ _ 2 (by norm_num) _ _ positive).mp (by simpa using below)
  -- the quantum is at most `2 ^ e`, so the quotient is `m` times a power of two
  set quantum := quantumExponent format ((m : ℚ) * 2 ^ e) with quantum_def
  obtain ⟨shift, shift_eq⟩ : ∃ shift : ℕ, e - quantum = shift :=
    ⟨(e - quantum).toNat, by
      rw [quantum_def, quantumExponent, abs_of_pos positive]
      omega⟩
  have split : (2 : ℚ) ^ e = 2 ^ shift * 2 ^ quantum := by
    rw [← zpow_natCast, ← zpow_add₀ (by norm_num), ← shift_eq, sub_add_cancel]
  refine ⟨m * 2 ^ shift, ?_⟩
  rw [split, ← mul_assoc, mul_div_cancel_right₀ _ (zpow_pos (by norm_num) _).ne']
  push_cast
  rfl

/-- Rounding keeps the numbers of the format. -/
theorem round_of_representable {x : ℚ} (representable : Representable format x) :
    round format x = x := by
  rcases representable with ⟨m, e, bound, rfl⟩
  rcases Nat.eq_zero_or_pos m with zero | positive
  · simp [zero]
  · have x_pos : (0 : ℚ) < m * 2 ^ e := by positivity
    obtain ⟨k, scaled⟩ := representable_scaled ⟨m, e, bound, rfl⟩ x_pos
    unfold round
    rw [scaled, show ((k : ℕ) : ℚ) = ((k : ℤ) : ℚ) by simp, roundEven_intCast]
    push_cast
    rw [← scaled, div_mul_cancel₀ _ (quantum_pos _).ne']

/-- Natural numbers up to `2 ^ precision` are numbers of the format. -/
theorem representable_natCast {n : ℕ} (bound : n ≤ 2 ^ format.precision) :
    Representable format n := by
  rcases bound.lt_or_eq with below | top
  · exact ⟨n, 0, below, by simp⟩
  · refine ⟨1, format.precision, Nat.one_lt_two_pow format.precision_pos.ne', ?_⟩
    rw [top]
    push_cast
    simp

/-- Natural numbers up to `2 ^ precision` round to themselves. -/
@[simp]
theorem round_natCast {n : ℕ} (bound : n ≤ 2 ^ format.precision) : round format n = n :=
  round_of_representable (representable_natCast bound)

@[simp]
theorem round_round {x : ℚ} (nonneg : 0 ≤ x) : round format (round format x) = round format x :=
  round_of_representable (representable_round nonneg)

@[simp]
theorem round_one : round format 1 = 1 := by
  simpa using @round_natCast format 1 (Nat.one_le_two_pow)

/-- Rounding in a known binade: `x` in `[2 ^ E, 2 ^ (E + 1))` rounds on the multiples of
`2 ^ (E - precision + 1)`. -/
theorem round_eq_of_binade {x : ℚ} {exponent : ℤ} (low : (2 : ℚ) ^ exponent ≤ x)
    (high : x < 2 ^ (exponent + 1)) :
    round format x = roundEven (x / 2 ^ (exponent - format.precision + 1)) *
      2 ^ (exponent - format.precision + 1) := by
  have positive : 0 < x := lt_of_lt_of_le (zpow_pos (by norm_num) _) low
  rw [round, quantumExponent, abs_of_pos positive, log_eq_of_bounds low high]

/-- Rounding a quotient of naturals in a binade whose quantum is `2 ^ -shift`: natural division
of `num * 2 ^ shift` by `den`, rounded to even. -/
theorem round_div_of_binade {num den shift : ℕ} (positive : 0 < den) {exponent : ℤ}
    (low : (2 : ℚ) ^ exponent ≤ num / den) (high : (num : ℚ) / den < 2 ^ (exponent + 1))
    (quantum : exponent - format.precision + 1 = -shift) :
    round format (num / den) = roundDiv (num * 2 ^ shift) den / 2 ^ shift := by
  rw [round_eq_of_binade low high, quantum, zpow_neg, zpow_natCast, div_inv_eq_mul,
    show (num : ℚ) / den * 2 ^ shift = ((num * 2 ^ shift : ℕ) : ℚ) / den by push_cast; ring,
    roundEven_div _ _ positive]
  push_cast
  rfl

/-- Rounding a natural number in a binade whose quantum is `2 ^ shift`: natural division by
`2 ^ shift`, rounded to even. -/
theorem round_natCast_of_binade {n shift : ℕ} (low : 2 ^ (format.precision - 1 + shift) ≤ n)
    (high : n < 2 ^ (format.precision + shift)) :
    round format n = roundDiv n (2 ^ shift) * 2 ^ shift := by
  have low_cast : (2 : ℚ) ^ ((format.precision : ℤ) - 1 + shift) ≤ n := by
    have cast : ((2 ^ (format.precision - 1 + shift) : ℕ) : ℚ) ≤ n := by exact_mod_cast low
    rwa [Nat.cast_pow, Nat.cast_ofNat, ← zpow_natCast, Nat.cast_add,
      Nat.cast_sub format.precision_pos, Nat.cast_one] at cast
  have high_cast : (n : ℚ) < 2 ^ ((format.precision : ℤ) - 1 + shift + 1) := by
    have cast : (n : ℚ) < ((2 ^ (format.precision + shift) : ℕ) : ℚ) := by exact_mod_cast high
    rwa [Nat.cast_pow, Nat.cast_ofNat, ← zpow_natCast,
      show ((format.precision + shift : ℕ) : ℤ) = (format.precision : ℤ) - 1 + shift + 1 by
        push_cast; ring] at cast
  rw [round_eq_of_binade low_cast high_cast,
    show (format.precision : ℤ) - 1 + shift - format.precision + 1 = shift by ring, zpow_natCast,
    show ((2 : ℚ) ^ shift) = ((2 ^ shift : ℕ) : ℚ) by push_cast; rfl,
    roundEven_div _ _ (Nat.two_pow_pos shift)]
  push_cast
  rfl

/-- The relative error of rounding is at most `2 ^ -precision`. -/
theorem abs_round_sub_le {x : ℚ} (nonneg : 0 ≤ x) :
    |round format x - x| ≤ x / 2 ^ format.precision := by
  rcases nonneg.lt_or_eq with positive | zero
  · have error : round format x - x =
        (roundEven (x / 2 ^ quantumExponent format x) - x / 2 ^ quantumExponent format x) *
          2 ^ quantumExponent format x := by
      rw [round, sub_mul, div_mul_cancel₀ _ (quantum_pos x).ne']
    -- a quantum is `2 ^ (E + 1) / 2 ^ precision`, at most `2 * x / 2 ^ precision`
    have quanta : 2 ^ quantumExponent format x ≤ 2 * (x / 2 ^ format.precision) := by
      have top := @zpow_precision_mul_quantum format _ positive
      have bottom := zpow_log_le positive
      rw [zpow_add₀ (by norm_num), zpow_one] at top
      rw [← mul_div_assoc, le_div_iff₀ (by positivity)]
      calc 2 ^ quantumExponent format x * 2 ^ format.precision
          = 2 ^ format.precision * 2 ^ quantumExponent format x := mul_comm _ _
        _ = 2 ^ Int.log 2 x * 2 := top
        _ ≤ 2 * x := by linarith
    rw [error, abs_mul, abs_of_pos (quantum_pos x)]
    calc |(roundEven (x / 2 ^ quantumExponent format x) : ℚ) - x / 2 ^ quantumExponent format x| *
          2 ^ quantumExponent format x ≤ 1 / 2 * 2 ^ quantumExponent format x :=
          mul_le_mul_of_nonneg_right (abs_roundEven_sub_le _) (quantum_pos x).le
      _ ≤ x / 2 ^ format.precision := by linarith
  · simp [← zero]

/-- A value less than half a quantum above a positive number of the format rounds to it. -/
theorem round_eq_of_near {k x : ℚ} (representable : Representable format k) (positive : 0 < k)
    (above : k ≤ x) (near : x < k + 2 ^ quantumExponent format k / 2) : round format x = k := by
  obtain ⟨quanta, scaled⟩ := representable_scaled representable positive
  have top := @zpow_precision_mul_quantum format _ positive
  have bounds := @scaled_bounds format _ positive
  set quantum := quantumExponent format k with quantum_def
  have quantum_pos : (0 : ℚ) < 2 ^ quantum := zpow_pos (by norm_num) _
  have k_eq : k = quanta * 2 ^ quantum := by
    rw [← scaled, div_mul_cancel₀ _ quantum_pos.ne']
  -- `k` is at least one quantum below the top of its binade, so `x` stays in the binade
  have quanta_lt : (quanta : ℚ) < 2 ^ format.precision := scaled ▸ bounds.2
  have quanta_le : (quanta : ℚ) + 1 ≤ 2 ^ format.precision := by
    exact_mod_cast (show quanta + 1 ≤ 2 ^ format.precision by exact_mod_cast quanta_lt)
  have binade : Int.log 2 x = Int.log 2 k := by
    apply log_eq_of_bounds ((zpow_log_le positive).trans above)
    calc x < k + 2 ^ quantum / 2 := near
      _ ≤ (quanta + 1) * 2 ^ quantum := by rw [k_eq]; linarith
      _ ≤ 2 ^ format.precision * 2 ^ quantum := mul_le_mul_of_nonneg_right quanta_le quantum_pos.le
      _ = 2 ^ (Int.log 2 k + 1) := top
  have same_quantum : quantumExponent format x = quantum := by
    rw [quantum_def, quantumExponent, quantumExponent, abs_of_pos (positive.trans_le above),
      abs_of_pos positive, binade]
  have rounded : roundEven (x / 2 ^ quantum) = quanta := by
    apply roundEven_eq_of_near
    · rw [le_div_iff₀ quantum_pos]
      push_cast
      rw [← k_eq]
      exact above
    · rw [div_lt_iff₀ quantum_pos]
      push_cast
      rw [add_mul, ← k_eq]
      linarith
  rw [round, same_quantum, rounded, k_eq]
  push_cast
  rfl

/-! ## Conversion to an unsigned integer -/

/-- `usize::MAX` on a 64-bit target. -/
def usizeMax : ℕ := 2 ^ 64 - 1

/-- `v as usize` for a float `v` in Rust: truncation toward zero, saturating at `0` and
`usize::MAX`. -/
def asUsize (v : ℚ) : ℕ :=
  min ⌊v⌋₊ usizeMax

theorem asUsize_intCast_le {value : ℤ} {bound : ℕ} (le : value ≤ bound) :
    asUsize value ≤ bound := by
  rw [asUsize, ← Int.floor_toNat, Int.floor_intCast]
  omega

/-- An integer value below `2 ^ 64` converts to itself. -/
theorem asUsize_intCast {value : ℤ} (nonneg : 0 ≤ value) (fits : value < 2 ^ 64) :
    asUsize value = value.toNat := by
  rw [asUsize, ← Int.floor_toNat, Int.floor_intCast, usizeMax]
  omega

end BinaryFloat
