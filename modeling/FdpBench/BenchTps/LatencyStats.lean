import FdpBench.Lib.BinaryFloat
import FdpBench.Lib.OrderStatistic

/-!
# The percentiles `bench-tps` prints

Every percentile function of `bench-tps` sorts its samples and reads the element at
`((p / 100.0) * (len as fN - 1.0)).ceil() as usize`, each operation rounded in `f64` or `f32`
(`BinaryFloat.round`); two of them clamp the index, the others index the slice and panic past its
end.  Also here: the `mean` line, a `u64` sum divided in `f64`, and the block metrics report.
-/

namespace FdpBench
namespace BenchTps

open BinaryFloat

/-- `((percentile / 100.0) * (len as fN - 1.0)).ceil() as usize`, each operation in `format`. -/
def percentileIndexIn (format : Format) (percentile : ℚ) (len : ℕ) : ℕ :=
  asUsize ⌈round format (round format (percentile / 100) * round format (round format len - 1))⌉

/-- `sorted[index]` at the index of a percentile: `none` past the end, where indexing panics. -/
def percentileAt {α : Type} (format : Format) (sorted : List α) (percentile : ℚ) : Option α :=
  sorted[percentileIndexIn format percentile sorted.length]?

/-- `sungjin_percentile`: `assert!(!data.is_empty())`, `sort_unstable`, the index in `f64`. -/
def sungjinPercentile (data : List UInt64) (percentile : ℚ) : Option UInt64 :=
  if data.isEmpty then none else percentileAt binary64 (data.insertionSort (· ≤ ·)) percentile

/-- `sungjin_percentile_u64_to_f32`: the samples as `f32`, sorted, the index in `f32`. -/
def sungjinPercentileU64ToF32 (data : List UInt64) (percentile : ℚ) : Option ℚ :=
  if data.isEmpty then none
  else
    percentileAt binary32
      ((data.map fun sample => round binary32 sample.toNat).insertionSort (· ≤ ·)) percentile

/-- `sungjin_percentile_f32`: `f32` samples sorted with `partial_cmp`, the index in `f32`. -/
def sungjinPercentileF32 (data : List ℚ) (percentile : ℚ) : Option ℚ :=
  if data.isEmpty then none else percentileAt binary32 (data.insertionSort (· ≤ ·)) percentile

/-- The `pct` closure of the slot-latency report: the latencies sorted, the index in `f64`.  The
report calls it only when there is a latency. -/
def slotLatencyPct (slotLatencies : List UInt64) (p : ℚ) : Option UInt64 :=
  percentileAt binary64 (slotLatencies.insertionSort (· ≤ ·)) p

/-- The read of `tx_percentile` and `tps_percentile`: the `f64` index clamped by
`index.min(sorted.len() - 1)`. -/
def clampedPercentile {α : Type} (sorted : List α) (percentile : ℚ) (default : α) : α :=
  sorted.getD (min (percentileIndexIn binary64 percentile sorted.length) (sorted.length - 1))
    default

/-- `BlockMetrics::tx_percentile`: `0` without blocks. -/
def txPercentile (txPerBlock : List UInt64) (percentile : ℚ) : UInt64 :=
  if txPerBlock.isEmpty then 0
  else clampedPercentile (txPerBlock.insertionSort (· ≤ ·)) percentile 0

/-- `BlockMetrics::tps_percentile`: `0.0` without blocks. -/
def tpsPercentile (tpsPerBlock : List ℚ) (percentile : ℚ) : ℚ :=
  if tpsPerBlock.isEmpty then 0
  else clampedPercentile (tpsPerBlock.insertionSort (· ≤ ·)) percentile 0

/-! ## The index stays below the length while the format holds the length -/

/-- For a percentile in `[0, 100]` and `1 ≤ len ≤ 2 ^ precision`, the length and the length less
one are numbers of the format, the ratio rounds into `[0, 1]`, and so the product rounds to at
most `len - 1`. -/
theorem percentileIndexIn_le {format : Format} {percentile : ℚ} (nonneg : 0 ≤ percentile)
    (bound : percentile ≤ 100) {len : ℕ} (nonempty : 0 < len)
    (fits : len ≤ 2 ^ format.precision) : percentileIndexIn format percentile len ≤ len - 1 := by
  have last_cast : ((len - 1 : ℕ) : ℚ) = len - 1 := by
    rw [Nat.cast_sub nonempty, Nat.cast_one]
  have last_exact : round format ((len : ℚ) - 1) = len - 1 := by
    rw [← last_cast, round_natCast (by omega)]
  have last_nonneg : (0 : ℚ) ≤ len - 1 := by
    rw [← last_cast]
    positivity
  have ratio_nonneg : 0 ≤ round format (percentile / 100) := round_nonneg (by positivity)
  have ratio_le : round format (percentile / 100) ≤ 1 :=
    calc round format (percentile / 100) ≤ round format 1 :=
          round_mono (by positivity) ((div_le_one (by norm_num)).mpr bound)
      _ = 1 := round_one
  have product_le :
      round format (round format (percentile / 100) * round format (round format len - 1)) ≤
        ((len - 1 : ℕ) : ℤ) := by
    rw [round_natCast fits, last_exact]
    calc round format (round format (percentile / 100) * (len - 1))
        ≤ round format ((len : ℚ) - 1) :=
          round_mono (mul_nonneg ratio_nonneg last_nonneg)
            (mul_le_of_le_one_left last_nonneg ratio_le)
      _ = ((len - 1 : ℕ) : ℤ) := by rw [last_exact, ← last_cast]; rfl
  exact asUsize_intCast_le (Int.ceil_le.mpr product_le)

theorem percentileAt_isSome {α : Type} {format : Format} {percentile : ℚ}
    (nonneg : 0 ≤ percentile) (bound : percentile ≤ 100) {sorted : List α} (nonempty : sorted ≠ [])
    (fits : sorted.length ≤ 2 ^ format.precision) :
    (percentileAt format sorted percentile).isSome := by
  have positive : 0 < sorted.length := List.length_pos_iff.mpr nonempty
  have index_lt := percentileIndexIn_le nonneg bound positive fits
  rw [percentileAt, List.getElem?_eq_getElem (by omega)]
  rfl

theorem clampedPercentile_mem {α : Type} {sorted : List α} (nonempty : sorted ≠ [])
    (percentile : ℚ) (default : α) : clampedPercentile sorted percentile default ∈ sorted := by
  have positive : 0 < sorted.length := List.length_pos_iff.mpr nonempty
  rw [clampedPercentile, List.getD_eq_getElem _ _ (by omega)]
  exact List.getElem_mem _

theorem insertionSort_ne_nil {α : Type} {r : α → α → Prop} [DecidableRel r] {values : List α}
    (nonempty : values ≠ []) : values.insertionSort r ≠ [] := by
  intro empty
  have length := (List.perm_insertionSort r values).length_eq
  rw [empty, List.length_nil] at length
  exact nonempty (List.length_eq_zero_iff.mp length.symm)

/-- On samples, `sungjin_percentile` and the slot-latency `pct` read the same element. -/
theorem sungjinPercentile_eq_slotLatencyPct {data : List UInt64} (nonempty : data ≠ []) (p : ℚ) :
    sungjinPercentile data p = slotLatencyPct data p := by
  rw [sungjinPercentile, if_neg (by simpa using nonempty), slotLatencyPct]

/-- Every percentile in `[0, 100]` reads inside the sorted samples: `sungjin_percentile` and the
slot-latency `pct` for up to `2 ^ 53` samples, `sungjin_percentile_u64_to_f32` and
`sungjin_percentile_f32` for up to `2 ^ 24`, and `tx_percentile` and `tps_percentile`, which clamp
the index, return one of the samples for any number of them. -/
theorem percentiles_in_bounds {percentile : ℚ} (nonneg : 0 ≤ percentile)
    (bound : percentile ≤ 100) (latencies : List UInt64) (samples : List ℚ) :
    (latencies ≠ [] → latencies.length ≤ 2 ^ 53 →
      (sungjinPercentile latencies percentile).isSome ∧
        (slotLatencyPct latencies percentile).isSome) ∧
    (latencies ≠ [] → latencies.length ≤ 2 ^ 24 →
      (sungjinPercentileU64ToF32 latencies percentile).isSome) ∧
    (samples ≠ [] → samples.length ≤ 2 ^ 24 → (sungjinPercentileF32 samples percentile).isSome) ∧
    (latencies ≠ [] → txPercentile latencies percentile ∈ latencies) ∧
    (samples ≠ [] → tpsPercentile samples percentile ∈ samples) := by
  have sorted_latencies := List.perm_insertionSort (· ≤ ·) latencies
  have sorted_samples := List.perm_insertionSort (· ≤ ·) samples
  refine ⟨fun nonempty fits => ?_, fun nonempty fits => ?_, fun nonempty fits => ?_,
    fun nonempty => ?_, fun nonempty => ?_⟩
  · have in_bounds := @percentileAt_isSome UInt64 binary64 percentile nonneg bound _
      (insertionSort_ne_nil nonempty) (by rw [sorted_latencies.length_eq]; exact fits)
    rw [sungjinPercentile_eq_slotLatencyPct nonempty]
    exact ⟨in_bounds, in_bounds⟩
  · rw [sungjinPercentileU64ToF32, if_neg (by simpa using nonempty)]
    apply percentileAt_isSome nonneg bound (insertionSort_ne_nil (by simpa using nonempty))
    rw [(List.perm_insertionSort _ _).length_eq, List.length_map]
    exact fits
  · rw [sungjinPercentileF32, if_neg (by simpa using nonempty)]
    exact percentileAt_isSome nonneg bound (insertionSort_ne_nil nonempty)
      (by rw [sorted_samples.length_eq]; exact fits)
  · rw [txPercentile, if_neg (by simpa using nonempty)]
    exact sorted_latencies.subset (clampedPercentile_mem (insertionSort_ne_nil nonempty) _ _)
  · rw [tpsPercentile, if_neg (by simpa using nonempty)]
    exact sorted_samples.subset (clampedPercentile_mem (insertionSort_ne_nil nonempty) _ _)

/-- The median of three latencies and of one `f32` sample reads inside them. -/
theorem percentiles_in_bounds_median :
    ((sungjinPercentile [3, 1, 2] 50).isSome ∧ (slotLatencyPct [3, 1, 2] 50).isSome) ∧
      (sungjinPercentileU64ToF32 [3, 1, 2] 50).isSome ∧ (sungjinPercentileF32 [1 / 2] 50).isSome ∧
      txPercentile [3, 1, 2] 50 ∈ ([3, 1, 2] : List UInt64) ∧
      tpsPercentile [1 / 2] 50 ∈ ([1 / 2] : List ℚ) := by
  obtain ⟨f64, u64ToF32, f32, tx, tps⟩ :=
    @percentiles_in_bounds 50 (by norm_num) (by norm_num) [3, 1, 2] [1 / 2]
  exact ⟨f64 (by simp) (by norm_num), u64ToF32 (by simp) (by norm_num),
    f32 (by simp) (by norm_num), tx (by simp), tps (by simp)⟩

/-! ## The `min` and `max` lines -/

theorem percentileIndexIn_zero (format : Format) (len : ℕ) : percentileIndexIn format 0 len = 0 := by
  simp [percentileIndexIn, asUsize]

/-- At `100.0` the index is `len - 1` while the format holds `len`. -/
theorem percentileIndexIn_hundred {format : Format} {len : ℕ} (nonempty : 0 < len)
    (fits : len ≤ 2 ^ format.precision) (word : len ≤ 2 ^ 64) :
    percentileIndexIn format 100 len = len - 1 := by
  have last_cast : ((len - 1 : ℕ) : ℚ) = len - 1 := by
    rw [Nat.cast_sub nonempty, Nat.cast_one]
  rw [percentileIndexIn, div_self (by norm_num), round_one, one_mul, round_natCast fits,
    ← last_cast, round_natCast (by omega), round_natCast (by omega), Int.ceil_natCast,
    asUsize_intCast (by positivity) (by omega), Int.toNat_natCast]

theorem percentileAt_zero {α : Type} (format : Format) (sorted : List α) :
    percentileAt format sorted 0 = sorted.head? := by
  rw [percentileAt, percentileIndexIn_zero, List.head?_eq_getElem?]

theorem percentileAt_hundred {α : Type} {format : Format} {sorted : List α}
    (nonempty : sorted ≠ []) (fits : sorted.length ≤ 2 ^ format.precision)
    (word : sorted.length ≤ 2 ^ 64) : percentileAt format sorted 100 = sorted.getLast? := by
  rw [percentileAt, percentileIndexIn_hundred (List.length_pos_iff.mpr nonempty) fits word,
    List.getLast?_eq_getElem?]

/-- The `min` and `max` lines of the latency, slot-latency and TPS statistics read the first and
the last sorted sample while the format holds the number of samples: up to `2 ^ 53` samples in
`f64` and `2 ^ 24` in `f32`. -/
theorem min_max_lines_exact (latencies : List UInt64) (samples : List ℚ) :
    (latencies ≠ [] → latencies.length ≤ 2 ^ 53 →
      sungjinPercentile latencies 0 = (latencies.insertionSort (· ≤ ·)).head? ∧
        sungjinPercentile latencies 100 = (latencies.insertionSort (· ≤ ·)).getLast? ∧
        slotLatencyPct latencies 0 = (latencies.insertionSort (· ≤ ·)).head? ∧
        slotLatencyPct latencies 100 = (latencies.insertionSort (· ≤ ·)).getLast?) ∧
    (samples ≠ [] → samples.length ≤ 2 ^ 24 →
      sungjinPercentileF32 samples 0 = (samples.insertionSort (· ≤ ·)).head? ∧
        sungjinPercentileF32 samples 100 = (samples.insertionSort (· ≤ ·)).getLast?) := by
  constructor
  · intro nonempty fits
    have sorted := insertionSort_ne_nil (r := (· ≤ ·)) nonempty
    have length := (List.perm_insertionSort (· ≤ ·) latencies).length_eq
    have last := @percentileAt_hundred UInt64 binary64 _ sorted (by rw [length]; exact fits)
      (by omega)
    simp only [sungjinPercentile_eq_slotLatencyPct nonempty]
    exact ⟨percentileAt_zero _ _, last, percentileAt_zero _ _, last⟩
  · intro nonempty fits
    have sorted := insertionSort_ne_nil (r := (· ≤ ·)) nonempty
    have length := (List.perm_insertionSort (· ≤ ·) samples).length_eq
    have not_empty : ¬samples.isEmpty = true := by simpa using nonempty
    simp only [sungjinPercentileF32, not_empty]
    exact ⟨percentileAt_zero _ _,
      @percentileAt_hundred ℚ binary32 _ sorted (by rw [length]; exact fits) (by omega)⟩

theorem min_max_lines_exact_three :
    (([3, 1, 2] : List UInt64) ≠ [] ∧ ([3, 1, 2] : List UInt64).length ≤ 2 ^ 53) ∧
      (([1 / 2, 1 / 4] : List ℚ) ≠ [] ∧ ([1 / 2, 1 / 4] : List ℚ).length ≤ 2 ^ 24) ∧
      sungjinPercentile [3, 1, 2] 0 = (([3, 1, 2] : List UInt64).insertionSort (· ≤ ·)).head? ∧
      sungjinPercentileF32 [1 / 2, 1 / 4] 100 =
        (([1 / 2, 1 / 4] : List ℚ).insertionSort (· ≤ ·)).getLast? := by
  obtain ⟨f64, f32⟩ := min_max_lines_exact [3, 1, 2] [1 / 2, 1 / 4]
  exact ⟨⟨by decide, by decide⟩, ⟨by simp, by simp⟩, (f64 (by decide) (by decide)).1,
    (f32 (by simp) (by simp)).2⟩

/-! ## The `mean` line -/

/-- `sungjin_mean`: the samples summed in `u64`, which wraps as in a release build, and the sum
divided by the length in `f64`; `none` is the NaN of `0.0 / 0.0` without samples.  The slot-latency
report computes its `mean_s` by the same expression. -/
def sungjinMean (data : List UInt64) : Option ℚ :=
  if data.isEmpty then none
  else some (round binary64 (round binary64 data.sum.toNat / round binary64 data.length))

/-- The `u64` sum is the sum of the values modulo `2 ^ 64`. -/
theorem toNat_sum (data : List UInt64) :
    data.sum.toNat = (data.map UInt64.toNat).sum % 2 ^ 64 := by
  induction data with
  | nil => rfl
  | cons sample data ih =>
    rw [List.sum_cons, UInt64.toNat_add, ih, List.map_cons, List.sum_cons, Nat.add_mod_mod]

/-- While the sum and the number of the samples are numbers of `f64`, the mean is their exact
quotient rounded once. -/
theorem sungjinMean_eq {data : List UInt64} (nonempty : data ≠ []) (fits : data.length ≤ 2 ^ 53)
    (small : (data.map UInt64.toNat).sum ≤ 2 ^ 53) :
    sungjinMean data =
      some (round binary64
        (((data.map UInt64.toNat).sum : ℚ) / (data.map UInt64.toNat).length)) := by
  have no_wrap : data.sum.toNat = (data.map UInt64.toNat).sum := by
    rw [toNat_sum, Nat.mod_eq_of_lt (by omega)]
  rw [sungjinMean, if_neg (by simpa using nonempty), no_wrap, round_natCast small,
    round_natCast fits, List.length_map]

/-- The mean of naturals between `low` and `high` rounds between them while `high` is a number of
`f64`: both bounds are then numbers of `f64`, and rounding is monotone. -/
theorem round_mean_bounds {values : List ℕ} (positive : 0 < values.length) {low high : ℕ}
    (above : ∀ x ∈ values, low ≤ x) (below : ∀ x ∈ values, x ≤ high) (high_fits : high ≤ 2 ^ 53) :
    (low : ℚ) ≤ round binary64 ((values.sum : ℚ) / values.length) ∧
      round binary64 ((values.sum : ℚ) / values.length) ≤ high := by
  have count : (0 : ℚ) < values.length := by exact_mod_cast positive
  obtain ⟨sample, member⟩ := List.exists_mem_of_length_pos positive
  have low_le_high : low ≤ high := (above sample member).trans (below sample member)
  have sum_above : (values.length : ℚ) * low ≤ values.sum := by
    exact_mod_cast (smul_eq_mul values.length low ▸ List.card_nsmul_le_sum values low above)
  have sum_below : (values.sum : ℚ) ≤ values.length * high := by
    exact_mod_cast (smul_eq_mul values.length high ▸ List.sum_le_card_nsmul values high below)
  have mean_above : (low : ℚ) ≤ values.sum / values.length := by
    rw [le_div_iff₀ count]
    linarith
  have mean_below : (values.sum : ℚ) / values.length ≤ high := by
    rw [div_le_iff₀ count]
    linarith
  constructor
  · calc (low : ℚ) = round binary64 low :=
          (BinaryFloat.round_natCast (show low ≤ 2 ^ 53 by omega)).symm
      _ ≤ round binary64 ((values.sum : ℚ) / values.length) := round_mono (by positivity) mean_above
  · calc round binary64 ((values.sum : ℚ) / values.length) ≤ round binary64 high :=
          round_mono (by positivity) mean_below
      _ = high := BinaryFloat.round_natCast high_fits

/-- The `mean` line lies between the `min` and the `max` lines, in the latency statistics and in
the slot-latency report, while the sum of the samples is a number of `f64`: the `u64` sum then does
not wrap, and the one rounding of the quotient keeps it between two samples, which are numbers of
`f64` themselves. -/
theorem mean_between_min_max {data : List UInt64} (nonempty : data ≠ [])
    (fits : data.length ≤ 2 ^ 53) (small : (data.map UInt64.toNat).sum ≤ 2 ^ 53) :
    ∃ mean low high, sungjinMean data = some mean ∧
      sungjinPercentile data 0 = some low ∧ sungjinPercentile data 100 = some high ∧
      slotLatencyPct data 0 = some low ∧ slotLatencyPct data 100 = some high ∧
      (low.toNat : ℚ) ≤ mean ∧ mean ≤ high.toNat := by
  have sorted := insertionSort_ne_nil (r := (· ≤ ·)) nonempty
  have length := (List.perm_insertionSort (· ≤ ·) data).length_eq
  obtain ⟨low, low_eq⟩ := Option.ne_none_iff_exists'.mp (mt List.head?_eq_none_iff.mp sorted)
  obtain ⟨high, high_eq⟩ := Option.ne_none_iff_exists'.mp (mt List.getLast?_eq_none_iff.mp sorted)
  have last := @percentileAt_hundred UInt64 binary64 _ sorted (by rw [length]; exact fits)
    (by omega)
  -- the first and the last sorted samples bound every sample, and the last one is in the sum
  have above : ∀ x ∈ data.map UInt64.toNat, low.toNat ≤ x := by
    intro x member
    obtain ⟨sample, sample_member, rfl⟩ := List.mem_map.mp member
    exact UInt64.le_iff_toNat_le.mp (OrderStatistic.head?_insertionSort_rel low_eq sample_member)
  have below : ∀ x ∈ data.map UInt64.toNat, x ≤ high.toNat := by
    intro x member
    obtain ⟨sample, sample_member, rfl⟩ := List.mem_map.mp member
    exact UInt64.le_iff_toNat_le.mp
      (OrderStatistic.getLast?_insertionSort_rel high_eq sample_member)
  have high_member : high ∈ data :=
    (List.perm_insertionSort (· ≤ ·) data).subset (List.mem_of_getLast? high_eq)
  have high_fits : high.toNat ≤ 2 ^ 53 :=
    (List.le_sum_of_mem (List.mem_map_of_mem high_member)).trans small
  obtain ⟨mean_above, mean_below⟩ :=
    round_mean_bounds (by simpa [List.length_pos_iff] using nonempty) above below high_fits
  have min_line : slotLatencyPct data 0 = some low := by
    rw [slotLatencyPct, percentileAt_zero, low_eq]
  have max_line : slotLatencyPct data 100 = some high := by
    rw [slotLatencyPct, last, high_eq]
  simp only [sungjinPercentile_eq_slotLatencyPct nonempty]
  exact ⟨_, low, high, sungjinMean_eq nonempty fits small, min_line, max_line, min_line, max_line,
    mean_above, mean_below⟩

theorem mean_between_min_max_three :
    ([3, 1, 2] : List UInt64) ≠ [] ∧ ([3, 1, 2] : List UInt64).length ≤ 2 ^ 53 ∧
      (([3, 1, 2] : List UInt64).map UInt64.toNat).sum ≤ 2 ^ 53 ∧
      ∃ mean low high, sungjinMean [3, 1, 2] = some mean ∧
        sungjinPercentile [3, 1, 2] 0 = some low ∧ sungjinPercentile [3, 1, 2] 100 = some high ∧
        slotLatencyPct [3, 1, 2] 0 = some low ∧ slotLatencyPct [3, 1, 2] 100 = some high ∧
        (low.toNat : ℚ) ≤ mean ∧ mean ≤ high.toNat :=
  ⟨by decide, by decide, by decide, mean_between_min_max (by decide) (by decide) (by decide)⟩

/-! ## `f32` past `2 ^ 24` samples -/

theorem roundDiv_two (n : ℕ) :
    roundDiv n 2 = if n % 2 = 0 then n / 2 else n / 2 + n / 2 % 2 := by
  unfold roundDiv
  split_ifs <;> omega

/-- In `f32` a natural number in `[2 ^ 24, 2 ^ 25)` rounds to an even one, a tie to a multiple of
four. -/
theorem round_binary32_natCast {n : ℕ} (low : 2 ^ 24 ≤ n) (high : n < 2 ^ 25) :
    round binary32 n = ((2 * roundDiv n 2 : ℕ) : ℚ) := by
  rw [@round_natCast_of_binade binary32 n 1 low high]
  push_cast
  ring

/-- At `100.0` the `f32` index is the length rounded, less one, rounded again. -/
theorem percentileIndexIn_binary32_hundred_eq {n : ℕ} (low : 2 ^ 24 < n) (high : n < 2 ^ 25) :
    percentileIndexIn binary32 100 n =
      if 2 * roundDiv n 2 - 1 < 2 ^ 24 then 2 * roundDiv n 2 - 1
      else 2 * roundDiv (2 * roundDiv n 2 - 1) 2 := by
  have length_rounded := round_binary32_natCast low.le high
  have rounded_bounds : 2 ^ 24 ≤ 2 * roundDiv n 2 ∧ 2 * roundDiv n 2 ≤ 2 ^ 25 := by
    rw [roundDiv_two]
    split_ifs <;> omega
  have last_cast : ((2 * roundDiv n 2 : ℕ) : ℚ) - 1 = ((2 * roundDiv n 2 - 1 : ℕ) : ℚ) := by
    rw [Nat.cast_sub (by omega), Nat.cast_one]
  -- the last index, rounded: exact below `2 ^ 24`, on the even numbers above
  have last_rounded : round binary32 (((2 * roundDiv n 2 : ℕ) : ℚ) - 1) =
      ((if 2 * roundDiv n 2 - 1 < 2 ^ 24 then 2 * roundDiv n 2 - 1
        else 2 * roundDiv (2 * roundDiv n 2 - 1) 2 : ℕ) : ℚ) := by
    rw [last_cast]
    split_ifs with below
    · exact round_natCast (by rw [show binary32.precision = 24 from rfl]; omega)
    · exact round_binary32_natCast (by omega) (by omega)
  have ratio : round binary32 ((100 : ℚ) / 100) = 1 := by norm_num
  have last_nonneg : (0 : ℚ) ≤ ((2 * roundDiv n 2 : ℕ) : ℚ) - 1 := by
    rw [last_cast]
    positivity
  rw [percentileIndexIn, ratio, one_mul, length_rounded, round_round last_nonneg, last_rounded,
    Int.ceil_natCast, Int.cast_natCast, asUsize, Nat.floor_natCast, usizeMax,
    roundDiv_two (2 * roundDiv n 2 - 1), roundDiv_two n]
  split_ifs <;> omega

/-- At `100.0` the `f32` index for `2 ^ 24 < n < 2 ^ 25` samples: `n` or `n + 1`, past the end, for
remainders `0` and `3` modulo `4`, and otherwise `n - 1` or `n - 2`, not always the last sample. -/
theorem percentileIndexIn_binary32_hundred {n : ℕ} (low : 2 ^ 24 < n) (high : n < 2 ^ 25) :
    percentileIndexIn binary32 100 n =
      if n % 4 = 0 then n
      else if n % 4 = 3 then n + 1
      else if n % 4 = 1 ∧ n ≠ 2 ^ 24 + 1 then n - 1
      else n - 2 := by
  rw [percentileIndexIn_binary32_hundred_eq low high, roundDiv_two, roundDiv_two]
  split_ifs <;> omega

/-- Sorted values whose number lies in `(2 ^ 24, 2 ^ 25)` are read past their end at `100.0` in
`f32` exactly when that number leaves remainder `0` or `3` modulo `4`. -/
theorem percentileAt_binary32_hundred_eq_none {α : Type} {sorted : List α}
    (low : 2 ^ 24 < sorted.length) (high : sorted.length < 2 ^ 25) :
    percentileAt binary32 sorted 100 = none ↔ sorted.length % 4 = 0 ∨ sorted.length % 4 = 3 := by
  rw [percentileAt, List.getElem?_eq_none_iff, percentileIndexIn_binary32_hundred low high]
  split_ifs <;> omega

/-- `sungjin_percentile_f32` and `sungjin_percentile_u64_to_f32` at `100.0`, for more than `2 ^ 24`
and fewer than `2 ^ 25` samples, index past the end of the sorted samples, and panic, exactly when
the number of samples leaves remainder `0` or `3` modulo `4`. -/
theorem f32_hundred_past_end (samples : List ℚ) (latencies : List UInt64) :
    (2 ^ 24 < samples.length → samples.length < 2 ^ 25 →
      (sungjinPercentileF32 samples 100 = none ↔
        samples.length % 4 = 0 ∨ samples.length % 4 = 3)) ∧
    (2 ^ 24 < latencies.length → latencies.length < 2 ^ 25 →
      (sungjinPercentileU64ToF32 latencies 100 = none ↔
        latencies.length % 4 = 0 ∨ latencies.length % 4 = 3)) := by
  constructor
  · intro low high
    have nonempty : samples ≠ [] := List.ne_nil_of_length_pos (by omega)
    have length := (List.perm_insertionSort (· ≤ ·) samples).length_eq
    rw [sungjinPercentileF32, if_neg (by simpa using nonempty), ← length]
    exact percentileAt_binary32_hundred_eq_none (by rw [length]; exact low)
      (by rw [length]; exact high)
  · intro low high
    have nonempty : latencies ≠ [] := List.ne_nil_of_length_pos (by omega)
    have length := (List.perm_insertionSort (· ≤ ·)
      (latencies.map fun sample => round binary32 sample.toNat)).length_eq
    rw [List.length_map] at length
    rw [sungjinPercentileU64ToF32, if_neg (by simpa using nonempty), ← length]
    exact percentileAt_binary32_hundred_eq_none (by rw [length]; exact low)
      (by rw [length]; exact high)

/-- With `2 ^ 24 + 4` `f32` samples the maximum reads past their end. -/
theorem f32_hundred_past_end_at_four_more :
    sungjinPercentileF32 (List.replicate (2 ^ 24 + 4) 0) 100 = none :=
  ((f32_hundred_past_end (List.replicate (2 ^ 24 + 4) 0) []).1
    (by rw [List.length_replicate]; norm_num) (by rw [List.length_replicate]; norm_num)).mpr
    (Or.inl (by rw [List.length_replicate]; norm_num))

/-! ## The block metrics report -/

/-- `BlockMetrics`, with the fields the reports read; `block_timestamps` and `slot_numbers` are
never read. -/
structure BlockMetrics where
  txPerBlock : List UInt64
  tpsPerBlock : List ℚ
  totalBlocks : UInt64
  avgTxPerBlock : ℚ
  avgTps : ℚ
  blockCreationSpeed : ℚ

/-- `BlockMetrics::new()`, the derived `Default`. -/
def BlockMetrics.new : BlockMetrics := ⟨[], [], 0, 0, 0, 0⟩

end BenchTps
end FdpBench
