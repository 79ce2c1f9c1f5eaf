import FdpBench.ExecutorBenchmark.Measurements
import FdpBench.Lib.BinaryFloat

/-!
# `calculate_percentiles_us` in `f64`

The code rounds each ratio literal and the product `len as f64 * ratio`.  For up to `2 ^ 32`
samples it still reads the exact index: a literal lies at most `2 ^ -54` of its value above it, so
an integer product still rounds to that integer, and any other product lies at least `1 / 100000`
from the integers, far beyond the rounding errors.
-/

namespace FdpBench
namespace ExecutorBenchmark

open BinaryFloat OrderStatistic

/-- The `f64` literal of a ratio of the table: the `f64` nearest to `ratio / ratioScale`. -/
def ratioF64 (ratio : Nat) : ℚ :=
  round binary64 ((ratio : ℚ) / ratioScale)

/-- The index read for one percentile in `f64`: `((len as f64) * ratio).ceil() as usize - 1`,
capped at `len - 1`.  For a ratio of the table the ceiling is positive, so the `usize`
subtraction does not wrap. -/
def percentileIndexF64 (len ratio : Nat) : Nat :=
  min (asUsize ⌈round binary64 (round binary64 len * ratioF64 ratio)⌉ - 1) (len - 1)

/-- `calculate_percentiles_us` with the index it computes in `f64`. -/
def calculatePercentilesUsF64 (samples : List UInt64) : List (String × UInt64) :=
  if samples.isEmpty then
    []
  else
    let sorted := samples.insertionSort (· ≤ ·)
    percentiles.map fun row => (row.1, sorted.getD (percentileIndexF64 sorted.length row.2) 0)

/-! ## The literals -/

/-- A literal lies at most `2 ^ -54` of its value above it when its rounding, computed by natural
division in its binade, passes the check in naturals. -/
theorem ratioF64_le_of_binade {ratio : Nat} (exponent : ℤ) (shift : ℕ)
    (low : (2 : ℚ) ^ exponent ≤ ratio / ratioScale)
    (high : (ratio : ℚ) / ratioScale < 2 ^ (exponent + 1)) (quantum : exponent - 53 + 1 = -shift)
    (check : roundDiv (ratio * 2 ^ shift) ratioScale * ratioScale * 2 ^ 54 ≤
      ratio * 2 ^ shift * (2 ^ 54 + 1)) :
    ratioF64 ratio ≤ ratio / ratioScale * (1 + 1 / 2 ^ 54) := by
  have checked : ((roundDiv (ratio * 2 ^ shift) ratioScale : ℕ) : ℚ) * ratioScale * 2 ^ 54 ≤
      ratio * 2 ^ shift * (2 ^ 54 + 1) := by
    exact_mod_cast check
  have scale_pos : (0 : ℚ) < ratioScale := by norm_num [ratioScale]
  rw [ratioF64, @round_div_of_binade binary64 ratio ratioScale shift (by norm_num [ratioScale])
    exponent low high quantum, div_le_iff₀ (by positivity)]
  rw [show (ratio : ℚ) / ratioScale * (1 + 1 / 2 ^ 54) * 2 ^ shift =
    ratio * 2 ^ shift * (2 ^ 54 + 1) / (ratioScale * 2 ^ 54) by field_simp,
    le_div_iff₀ (by positivity)]
  linarith

/-- Every ratio literal of the table lies at most `2 ^ -54` of its value above it. -/
theorem ratioF64_le {row : String × Nat} (member : row ∈ percentiles) :
    ratioF64 row.2 ≤ row.2 / ratioScale * (1 + 1 / 2 ^ 54) := by
  simp only [percentiles, List.mem_cons, List.not_mem_nil, or_false] at member
  rcases member with rfl | rfl | rfl | rfl | rfl | rfl | rfl | rfl | rfl | rfl | rfl | rfl | rfl |
    rfl | rfl
  -- `0.1` to `0.4` lie in the binades of `2 ^ -4` to `2 ^ -2`, the others in that of `2 ^ -1`
  · exact ratioF64_le_of_binade (-4) 56 (by norm_num [ratioScale]) (by norm_num [ratioScale])
      (by norm_num) (by decide)
  · exact ratioF64_le_of_binade (-3) 55 (by norm_num [ratioScale]) (by norm_num [ratioScale])
      (by norm_num) (by decide)
  · exact ratioF64_le_of_binade (-2) 54 (by norm_num [ratioScale]) (by norm_num [ratioScale])
      (by norm_num) (by decide)
  · exact ratioF64_le_of_binade (-2) 54 (by norm_num [ratioScale]) (by norm_num [ratioScale])
      (by norm_num) (by decide)
  all_goals
    exact ratioF64_le_of_binade (-1) 53 (by norm_num [ratioScale]) (by norm_num [ratioScale])
      (by norm_num) (by decide)

/-! ## The rounded product has the exact rank as its ceiling -/

/-- The rank as a ceiling: `(k - 1) * ratioScale < len * ratio ≤ k * ratioScale`. -/
theorem percentileRank_bounds {len ratio : Nat} (nonempty : 0 < len) (positive : 0 < ratio) :
    (percentileRank len ratio - 1) * ratioScale < len * ratio ∧
      len * ratio ≤ percentileRank len ratio * ratioScale := by
  have rank_pos := percentileRank_pos nonempty positive
  unfold percentileRank ratioScale at *
  constructor <;> omega

/-- An integer `k ≤ 2 ^ 53` moved up by `k / 2 ^ 54` rounds back to `k` in `f64`. -/
theorem round_add_le_self {k : ℕ} (positive : 0 < k) (fits : k ≤ 2 ^ 53) {x : ℚ}
    (above : (k : ℚ) ≤ x) (near : x ≤ k + k / 2 ^ 54) : round binary64 x = k := by
  have k_pos : (0 : ℚ) < k := by exact_mod_cast positive
  have top := lt_zpow_log_succ (k : ℚ)
  -- half a quantum of `k` is `2 ^ (E + 1) / 2 ^ 54`, more than `k / 2 ^ 54`
  have half_quantum : (2 : ℚ) ^ quantumExponent binary64 k / 2 =
      2 ^ (Int.log 2 (k : ℚ) + 1) / 2 ^ 54 := by
    rw [quantumExponent, abs_of_pos k_pos, show (binary64.precision : ℤ) = 53 from rfl,
      div_eq_div_iff (by norm_num) (by positivity), ← zpow_natCast (2 : ℚ) 54,
      ← zpow_add₀ (by norm_num), show (2 : ℚ) ^ (Int.log 2 (k : ℚ) + 1) * 2 =
        2 ^ (Int.log 2 (k : ℚ) + 1) * 2 ^ (1 : ℤ) by rw [zpow_one],
      ← zpow_add₀ (by norm_num)]
    congr 1
    push_cast
    ring
  apply round_eq_of_near (representable_natCast fits) k_pos above
  rw [half_quantum]
  have : (k : ℚ) / 2 ^ 54 < 2 ^ (Int.log 2 (k : ℚ) + 1) / 2 ^ 54 :=
    div_lt_div_of_pos_right top (by positivity)
  linarith

/-- The exact product `len * ratio / ratioScale` lies in `[rank - 1 + 1 / 100000, rank]`. -/
theorem exact_product_bounds {len ratio : Nat} (nonempty : 0 < len) (positive : 0 < ratio) :
    (percentileRank len ratio : ℚ) - 1 + 1 / 100000 ≤ len * (ratio / ratioScale) ∧
      (len : ℚ) * (ratio / ratioScale) ≤ percentileRank len ratio := by
  obtain ⟨rank_low, rank_high⟩ := percentileRank_bounds nonempty positive
  have rank_pos := percentileRank_pos nonempty positive
  have low : (((percentileRank len ratio - 1) * ratioScale + 1 : ℕ) : ℚ) ≤
      ((len * ratio : ℕ) : ℚ) := by
    exact_mod_cast rank_low
  have high : ((len * ratio : ℕ) : ℚ) ≤ ((percentileRank len ratio * ratioScale : ℕ) : ℚ) := by
    exact_mod_cast rank_high
  push_cast [Nat.cast_sub rank_pos] at low high
  rw [show (ratioScale : ℚ) = 100000 by norm_num [ratioScale]] at low high ⊢
  constructor <;> linarith

/-- With a literal at most `2 ^ -54` of its value above it, the product with `len` lies at most
`2 ^ -53` of the exact product below it and `2 ^ -54` above it. -/
theorem literal_product_bounds {len ratio : Nat}
    (literal : ratioF64 ratio ≤ ratio / ratioScale * (1 + 1 / 2 ^ 54)) :
    (len : ℚ) * (ratio / ratioScale) - len * (ratio / ratioScale) / 2 ^ 53 ≤
        len * ratioF64 ratio ∧
      (len : ℚ) * ratioF64 ratio ≤
        len * (ratio / ratioScale) + len * (ratio / ratioScale) / 2 ^ 54 := by
  have scale_pos : (0 : ℚ) < ratioScale := by norm_num [ratioScale]
  have len_nonneg : (0 : ℚ) ≤ len := Nat.cast_nonneg len
  have literal_error := @abs_round_sub_le binary64 ((ratio : ℚ) / ratioScale) (by positivity)
  rw [show binary64.precision = 53 from rfl, abs_le] at literal_error
  have below := mul_le_mul_of_nonneg_left (show (ratio : ℚ) / ratioScale -
    ratio / ratioScale / 2 ^ 53 ≤ ratioF64 ratio by rw [ratioF64]; linarith) len_nonneg
  have above := mul_le_mul_of_nonneg_left literal len_nonneg
  constructor
  · linarith [show (len : ℚ) * ((ratio : ℚ) / ratioScale - ratio / ratioScale / 2 ^ 53) =
      len * (ratio / ratioScale) - len * (ratio / ratioScale) / 2 ^ 53 by ring]
  · linarith [show (len : ℚ) * ((ratio : ℚ) / ratioScale * (1 + 1 / 2 ^ 54)) =
      len * (ratio / ratioScale) + len * (ratio / ratioScale) / 2 ^ 54 by ring]

/-- For up to `2 ^ 32` samples and a ratio of the table, the ceiling of the rounded `f64` product
is the exact rank. -/
theorem ceil_round_product {len ratio : Nat} (nonempty : 0 < len) (fits : len ≤ 2 ^ 32)
    (positive : 0 < ratio) (bound : ratio ≤ ratioScale)
    (literal : ratioF64 ratio ≤ ratio / ratioScale * (1 + 1 / 2 ^ 54)) :
    ⌈round binary64 (round binary64 len * ratioF64 ratio)⌉ = percentileRank len ratio := by
  have rank_pos := percentileRank_pos nonempty positive
  have rank_le := @percentileRank_le len ratio bound
  obtain ⟨exact_above, exact_le⟩ := exact_product_bounds nonempty positive
  obtain ⟨product_above, product_below⟩ := @literal_product_bounds len ratio literal
  set rank := percentileRank len ratio
  set exact := (len : ℚ) * (ratio / ratioScale)
  set product := (len : ℚ) * ratioF64 ratio with product_def
  have rank_small : (rank : ℚ) ≤ 2 ^ 32 := by exact_mod_cast rank_le.trans fits
  have product_nonneg : 0 ≤ product :=
    mul_nonneg (Nat.cast_nonneg len) (round_nonneg (by positivity))
  have product_error := @abs_round_sub_le binary64 product product_nonneg
  rw [show binary64.precision = 53 from rfl, abs_le] at product_error
  rw [BinaryFloat.round_natCast (by rw [show binary64.precision = 53 from rfl]; omega),
    ← product_def, Int.ceil_eq_iff]
  constructor
  · push_cast
    linarith
  · -- monotone rounding against `rank + rank / 2 ^ 54`, which rounds to `rank`
    have rounded := @round_mono binary64 _ _ product_nonneg
      (show product ≤ rank + rank / 2 ^ 54 by linarith)
    rw [round_add_le_self rank_pos (by omega) (le_add_of_nonneg_right (by positivity)) le_rfl]
      at rounded
    exact_mod_cast rounded

/-! ## The `f64` percentiles are the exact ones -/

/-- For up to `2 ^ 32` samples the `f64` index of a ratio of the table is the exact one. -/
theorem percentileIndexF64_eq {len : Nat} {row : String × Nat} (member : row ∈ percentiles)
    (nonempty : 0 < len) (fits : len ≤ 2 ^ 32) :
    percentileIndexF64 len row.2 = percentileIndex len row.2 := by
  obtain ⟨positive, bound⟩ := percentiles_ratio_bounds row member
  have rank_le := @percentileRank_le len _ bound
  rw [percentileIndexF64, ceil_round_product nonempty fits positive bound (ratioF64_le member),
    asUsize_intCast (by positivity) (by omega), Int.toNat_natCast, percentileIndex]

/-- For up to `2 ^ 32` samples the `f64` percentiles are the exact ones. -/
theorem percentilesF64_eq_exact {samples : List UInt64} (fits : samples.length ≤ 2 ^ 32) :
    calculatePercentilesUsF64 samples = calculatePercentilesUs samples := by
  unfold calculatePercentilesUsF64 calculatePercentilesUs
  by_cases empty : samples.isEmpty
  · rw [if_pos empty, if_pos empty]
  · rw [if_neg empty, if_neg empty]
    have nonempty : 0 < (samples.insertionSort (· ≤ ·)).length := by
      rw [List.length_insertionSort]
      exact List.length_pos_iff.mpr fun nil => empty (List.isEmpty_iff.mpr nil)
    refine List.map_congr_left fun row member => ?_
    rw [percentileIndexF64_eq member nonempty (by rwa [List.length_insertionSort])]

theorem calculatePercentilesUsF64_eq {samples : List UInt64} (fits : samples.length ≤ 2 ^ 32) :
    calculatePercentilesUsF64 samples = calculatePercentilesUs samples :=
  percentilesF64_eq_exact fits

theorem calculatePercentilesUsF64_eq_two_samples :
    ([5, 3] : List UInt64).length ≤ 2 ^ 32 ∧
      calculatePercentilesUsF64 [5, 3] = calculatePercentilesUs [5, 3] :=
  ⟨by decide, calculatePercentilesUsF64_eq (by decide)⟩

/-- For up to `2 ^ 32` samples, every label of the table carries the nearest-rank percentile of
the samples: the `⌈len * ratio⌉`-th smallest sample. -/
theorem calculatePercentilesUsF64_nearest_rank {samples : List UInt64} (nonempty : samples ≠ [])
    (fits : samples.length ≤ 2 ^ 32) :
    List.Forall₂
      (fun entry row => entry.1 = row.1 ∧
        IsKthSmallest (samples.map UInt64.toNat) (percentileRank samples.length row.2)
          entry.2.toNat)
      (calculatePercentilesUsF64 samples) percentiles := by
  rw [percentilesF64_eq_exact fits]
  exact calculatePercentilesUs_nearest_rank nonempty

/-- For up to `2 ^ 32` samples, the percentiles `calculate_percentiles_us` returns never decrease
along its table. -/
theorem calculatePercentilesUs_monotone {samples : List UInt64} (fits : samples.length ≤ 2 ^ 32) :
    ((calculatePercentilesUsF64 samples).map fun entry => entry.2.toNat).Pairwise (· ≤ ·) := by
  rw [percentilesF64_eq_exact fits]
  exact calculatePercentilesUs_pairwise samples

theorem calculatePercentilesUs_monotone_three_samples :
    ([30, 10, 20] : List UInt64).length ≤ 2 ^ 32 ∧
      ((calculatePercentilesUsF64 [30, 10, 20]).map fun entry => entry.2.toNat).Pairwise
        (· ≤ ·) :=
  ⟨by decide, calculatePercentilesUs_monotone (by decide)⟩

end ExecutorBenchmark
end FdpBench
