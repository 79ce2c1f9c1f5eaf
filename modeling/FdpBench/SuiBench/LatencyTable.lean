import FdpBench.SuiBench.RoundComparison
import FdpBench.Lib.OrderStatistic

/-!
# The Latency Statistics table of `analyze_latency.sh`

For each log the script prints the average of the round durations (`scale=1` in `bc`), the
minimum, the maximum and the percentiles 50, 90 and 99, each row with its improvement, and with
at least six FDP rounds the averages of the warmup rounds 1-5 and of the GC rounds 6 on.  The
standard deviation row, which calls `sqrt` in `bc`, is left out.
-/

namespace FdpBench
namespace SuiBench
namespace AnalyzeLatency

open OrderStatistic Word64

/-! ## The rows -/

/-- `average`: the values summed and counted in bash, the sum a word, then `scale=1; sum / count`
in `bc`, which truncates toward zero; in tenths, and `0` without values. -/
def averageTenths (values : List Int) : Int :=
  if 0 < values.length then
    (10 * values.foldl (fun sum value => wrap (sum + value)) 0).tdiv values.length
  else 0

/-- `printf '%s\n' values | sort -n | head -1`. -/
def minimum (values : List Int) : Option Int :=
  (sortNumeric values).head?

/-- `printf '%s\n' values | sort -n | tail -1`. -/
def maximum (values : List Int) : Option Int :=
  (sortNumeric values).getLast?

/-- A row of the table: the non-FDP value, the FDP value, and the improvement in tenths of a
percent. -/
structure StatisticsRow where
  nofdp : Option Int
  fdp : Option Int
  improvement : Option Int
  deriving DecidableEq, Repr

/-- A row of sorted values: `diff=$((nofdp - fdp))`, then `scale=1; 100 * diff / nofdp` in `bc`.
A division by zero prints `0.0`, as `tdiv` by zero gives. -/
def statisticsRow (nofdp fdp : Option Int) : StatisticsRow :=
  ⟨nofdp, fdp, do
    let base ← nofdp
    let value ← fdp
    pure (improvementTenths (wrap (base - value)) base)⟩

/-- A row of averages, in tenths: `bc` computes their difference exactly, and the tenths cancel in
the quotient. -/
def averageRow (nofdp fdp : Int) : StatisticsRow :=
  ⟨some nofdp, some fdp, some (improvementTenths (nofdp - fdp) nofdp)⟩

/-- The rows of the Latency Statistics table. -/
structure LatencyTable where
  average : StatisticsRow
  min : StatisticsRow
  max : StatisticsRow
  p50 : StatisticsRow
  p90 : StatisticsRow
  p99 : StatisticsRow
  deriving DecidableEq, Repr

def latencyTable (nofdp fdp : List Int) : LatencyTable :=
  ⟨averageRow (averageTenths nofdp) (averageTenths fdp),
    statisticsRow (minimum nofdp) (minimum fdp), statisticsRow (maximum nofdp) (maximum fdp),
    statisticsRow (percentile 50 nofdp) (percentile 50 fdp),
    statisticsRow (percentile 90 nofdp) (percentile 90 fdp),
    statisticsRow (percentile 99 nofdp) (percentile 99 fdp)⟩

/-- The Warmup vs GC-Phase rows, printed when the FDP log has at least six rounds: the averages of
rounds 1-5 (`${DURATIONS[@]:0:5}`) and of rounds 6 on (`${DURATIONS[@]:5}`). -/
def phaseRows (nofdp fdp : List Int) : Option (StatisticsRow × StatisticsRow) :=
  if 6 ≤ fdp.length then
    some (averageRow (averageTenths (nofdp.take 5)) (averageTenths (fdp.take 5)),
      averageRow (averageTenths (nofdp.drop 5)) (averageTenths (fdp.drop 5)))
  else none

/-! ## Sorted values -/

theorem length_sortNumeric (values : List Int) : (sortNumeric values).length = values.length :=
  List.length_insertionSort _ _

theorem sortNumeric_le {values : List Int} {i j : Nat} (le : i ≤ j)
    (bound : j < (sortNumeric values).length) :
    (sortNumeric values)[i] ≤ (sortNumeric values)[j] := by
  have sorted : (sortNumeric values).Pairwise (· ≤ ·) := List.pairwise_insertionSort _ _
  rcases le.lt_or_eq with below | rfl
  · exact List.pairwise_iff_getElem.mp sorted i j (by omega) bound below
  · exact le_rfl

/-- Every value lies between the first and the last of the sorted values. -/
theorem sortNumeric_bounds {values : List Int} (positive : 0 < (sortNumeric values).length)
    {x : Int} (member : x ∈ values) :
    (sortNumeric values)[0] ≤ x ∧ x ≤ (sortNumeric values)[(sortNumeric values).length - 1] := by
  have sorted_member : x ∈ sortNumeric values := (List.perm_insertionSort _ _).symm.subset member
  obtain ⟨i, bound, rfl⟩ := List.mem_iff_getElem.mp sorted_member
  exact ⟨sortNumeric_le (Nat.zero_le i) _, sortNumeric_le (by omega) _⟩

theorem percentile_eq_getElem {pct : Nat} (bound : pct ≤ 100) {values : List Int}
    (positive : 0 < values.length) :
    percentile pct values = (sortNumeric values)[nearestRank pct values.length - 1]? := by
  rw [percentile, length_sortNumeric, percentileIndex_eq bound positive, Int.toNat_natCast]

theorem nearestRank_mono (n : Nat) {pct pct' : Nat} (le : pct ≤ pct') :
    nearestRank pct n ≤ nearestRank pct' n := by
  have product : pct * n ≤ pct' * n := Nat.mul_le_mul_right n le
  unfold nearestRank
  split_ifs <;> omega

/-! ## The average -/

/-- The running sum of `average` is the sum as a word. -/
theorem foldl_average_sum (values : List Int) :
    values.foldl (fun sum value => wrap (sum + value)) 0 = wrap values.sum := by
  rw [← wrap_zero, foldl_wrap_add, zero_add]

/-- When the sum fits a word, `average` divides the sum itself. -/
theorem averageTenths_of_fits {values : List Int} (positive : 0 < values.length)
    (fits : Fits values.sum) : averageTenths values = (10 * values.sum).tdiv values.length := by
  rw [averageTenths, if_pos positive, foldl_average_sum, wrap_of_fits fits]

/-- Values between `low` and `high` whose sum fits a word average, in tenths, between `10 * low`
and `10 * high`: truncation toward zero is monotone and exact on multiples. -/
theorem averageTenths_bounds {values : List Int} (positive : 0 < values.length)
    (fits : Fits values.sum) {low high : Int} (above : ∀ x ∈ values, low ≤ x)
    (below : ∀ x ∈ values, x ≤ high) :
    10 * low ≤ averageTenths values ∧ averageTenths values ≤ 10 * high := by
  have count : (0 : Int) < values.length := by exact_mod_cast positive
  have sum_above := List.card_nsmul_le_sum values low above
  have sum_below := List.sum_le_card_nsmul values high below
  rw [nsmul_eq_mul] at sum_above sum_below
  rw [averageTenths_of_fits positive fits]
  constructor
  · calc 10 * low = (10 * low * values.length).tdiv values.length :=
          (Int.mul_tdiv_cancel _ count.ne').symm
      _ ≤ (10 * values.sum).tdiv values.length := Int.tdiv_le_tdiv count (by linarith)
  · calc (10 * values.sum).tdiv values.length
          ≤ (10 * high * values.length).tdiv values.length := Int.tdiv_le_tdiv count (by linarith)
      _ = 10 * high := Int.mul_tdiv_cancel _ count.ne'

/-! ## A column is ordered -/

/-- For every non-empty list of durations the column of the Latency Statistics table is ordered:
the minimum, the P50, P90 and P99 rows and the maximum never decrease, and, when the sum of the
durations fits a word, the average lies between the minimum and the maximum. -/
theorem latency_column_ordered {durations : List Int} (nonempty : durations ≠ [])
    (fits : Fits durations.sum) :
    ∃ low median high90 high99 high,
      minimum durations = some low ∧ percentile 50 durations = some median ∧
        percentile 90 durations = some high90 ∧ percentile 99 durations = some high99 ∧
        maximum durations = some high ∧
        low ≤ median ∧ median ≤ high90 ∧ high90 ≤ high99 ∧ high99 ≤ high ∧
        10 * low ≤ averageTenths durations ∧ averageTenths durations ≤ 10 * high := by
  have positive : 0 < durations.length := List.length_pos_iff.mpr nonempty
  have length := length_sortNumeric durations
  have sorted_positive : 0 < (sortNumeric durations).length := by omega
  have rank50 := nearestRank_pos 50 durations.length
  have rank50_90 := nearestRank_mono durations.length (by norm_num : 50 ≤ 90)
  have rank90_99 := nearestRank_mono durations.length (by norm_num : 90 ≤ 99)
  have rank99 := @nearestRank_le 99 _ (by norm_num) positive
  obtain ⟨average_above, average_below⟩ := averageTenths_bounds positive fits
    (fun x member => (sortNumeric_bounds sorted_positive member).1)
    (fun x member => (sortNumeric_bounds sorted_positive member).2)
  refine ⟨(sortNumeric durations)[0],
    (sortNumeric durations)[nearestRank 50 durations.length - 1],
    (sortNumeric durations)[nearestRank 90 durations.length - 1],
    (sortNumeric durations)[nearestRank 99 durations.length - 1],
    (sortNumeric durations)[(sortNumeric durations).length - 1], ?_, ?_, ?_, ?_, ?_,
    sortNumeric_le (Nat.zero_le _) _, sortNumeric_le (by omega) _, sortNumeric_le (by omega) _,
    sortNumeric_le (by omega) _, average_above, average_below⟩
  · rw [minimum, List.head?_eq_getElem?, List.getElem?_eq_getElem]
  · rw [show (50 : Int) = ((50 : Nat) : Int) from rfl, percentile_eq_getElem (by norm_num) positive,
      List.getElem?_eq_getElem]
  · rw [show (90 : Int) = ((90 : Nat) : Int) from rfl, percentile_eq_getElem (by norm_num) positive,
      List.getElem?_eq_getElem]
  · rw [show (99 : Int) = ((99 : Nat) : Int) from rfl, percentile_eq_getElem (by norm_num) positive,
      List.getElem?_eq_getElem]
  · rw [maximum, List.getLast?_eq_getElem?, List.getElem?_eq_getElem]

theorem latency_column_ordered_three_rounds :
    ([30, 10, 20] : List Int) ≠ [] ∧ Fits ([30, 10, 20] : List Int).sum ∧
      ∃ low median high90 high99 high,
        minimum [30, 10, 20] = some low ∧ percentile 50 [30, 10, 20] = some median ∧
          percentile 90 [30, 10, 20] = some high90 ∧ percentile 99 [30, 10, 20] = some high99 ∧
          maximum [30, 10, 20] = some high ∧
          low ≤ median ∧ median ≤ high90 ∧ high90 ≤ high99 ∧ high99 ≤ high ∧
          10 * low ≤ averageTenths [30, 10, 20] ∧ averageTenths [30, 10, 20] ≤ 10 * high :=
  ⟨by decide, by decide, latency_column_ordered (by decide) (by decide)⟩

/-! ## The P99 row -/

theorem nearestRank_ninety_nine {n : Nat} (positive : 0 < n) (few : n < 100) :
    nearestRank 99 n = n := by
  unfold nearestRank
  split <;> omega

theorem percentile_ninety_nine_eq_maximum {values : List Int} (positive : 0 < values.length)
    (few : values.length < 100) : percentile 99 values = maximum values := by
  rw [show (99 : Int) = ((99 : Nat) : Int) from rfl, percentile_eq_getElem (by norm_num) positive,
    nearestRank_ninety_nine positive few, maximum, List.getLast?_eq_getElem?, length_sortNumeric]

/-- With fewer than 100 rounds in each log the P99 row of the table, marked as the tail, prints
the same values and the same improvement as the Max (worst) row. -/
theorem p99_row_eq_max_row {nofdp fdp : List Int} (nofdp_rounds : 0 < nofdp.length)
    (nofdp_few : nofdp.length < 100) (fdp_rounds : 0 < fdp.length) (fdp_few : fdp.length < 100) :
    (latencyTable nofdp fdp).p99 = (latencyTable nofdp fdp).max := by
  simp only [latencyTable]
  rw [percentile_ninety_nine_eq_maximum nofdp_rounds nofdp_few,
    percentile_ninety_nine_eq_maximum fdp_rounds fdp_few]

theorem p99_row_eq_max_row_ten_rounds :
    0 < [31, 28, 30, 45, 52, 61, 58, 66, 70, 64].length ∧
      [31, 28, 30, 45, 52, 61, 58, 66, 70, 64].length < 100 ∧
      0 < [30, 29, 31, 40, 44, 47, 45, 50, 49, 51].length ∧
      [30, 29, 31, 40, 44, 47, 45, 50, 49, 51].length < 100 ∧
      (latencyTable [31, 28, 30, 45, 52, 61, 58, 66, 70, 64]
        [30, 29, 31, 40, 44, 47, 45, 50, 49, 51]).p99 =
        (latencyTable [31, 28, 30, 45, 52, 61, 58, 66, 70, 64]
          [30, 29, 31, 40, 44, 47, 45, 50, 49, 51]).max :=
  ⟨by decide, by decide, by decide, by decide,
    p99_row_eq_max_row (by decide) (by decide) (by decide) (by decide)⟩

/-! ## The phases -/

/-- Two quotients bracket the quotient of the sums, also when each is truncated: a mediant of
two fractions lies between them, and truncation is monotone. -/
theorem ediv_mediant_bounds {x y a b : Int} (a_pos : 0 < a) (b_pos : 0 < b) :
    min (x / a) (y / b) ≤ (x + y) / (a + b) ∧ (x + y) / (a + b) ≤ max (x / a) (y / b) := by
  have x_low := Int.ediv_mul_le x a_pos.ne'
  have y_low := Int.ediv_mul_le y b_pos.ne'
  have x_high := Int.lt_ediv_add_one_mul_self x a_pos
  have y_high := Int.lt_ediv_add_one_mul_self y b_pos
  have low_a := mul_le_mul_of_nonneg_right (min_le_left (x / a) (y / b)) a_pos.le
  have low_b := mul_le_mul_of_nonneg_right (min_le_right (x / a) (y / b)) b_pos.le
  have high_a := mul_le_mul_of_nonneg_right
    (add_le_add_right (le_max_left (x / a) (y / b)) 1) a_pos.le
  have high_b := mul_le_mul_of_nonneg_right
    (add_le_add_right (le_max_right (x / a) (y / b)) 1) b_pos.le
  constructor
  · exact Int.le_ediv_of_mul_le (by omega) (by linarith)
  · exact Int.lt_add_one_iff.mp (Int.ediv_lt_of_lt_mul (by omega) (by linarith))

theorem averageTenths_eq_ediv {values : List Int} (positive : 0 < values.length)
    (nonneg : ∀ x ∈ values, 0 ≤ x) (fits : values.sum < 2 ^ 63) :
    averageTenths values = 10 * values.sum / values.length := by
  have sum_nonneg := List.sum_nonneg nonneg
  rw [averageTenths_of_fits positive ⟨by omega, fits⟩, Int.tdiv_eq_ediv_of_nonneg (by omega)]

/-- For a log of at least six rounds of nonnegative durations whose sum fits a word, its Average
row lies between its Warmup (rounds 1-5) and GC Active (rounds 6 on) rows, each as `bc`
truncates it. -/
theorem average_between_phases {durations : List Int} (nonneg : ∀ x ∈ durations, 0 ≤ x)
    (fits : durations.sum < 2 ^ 63) (rounds : 6 ≤ durations.length) :
    min (averageTenths (durations.take 5)) (averageTenths (durations.drop 5)) ≤
        averageTenths durations ∧
      averageTenths durations ≤
        max (averageTenths (durations.take 5)) (averageTenths (durations.drop 5)) := by
  have warmup_length : (durations.take 5).length = 5 := by
    rw [List.length_take]
    omega
  have gc_length : (durations.drop 5).length = durations.length - 5 := List.length_drop
  have total_length : (durations.length : Int) =
      ((durations.take 5).length : Int) + ((durations.drop 5).length : Int) := by
    rw [warmup_length, gc_length]
    omega
  have total_sum : durations.sum = (durations.take 5).sum + (durations.drop 5).sum := by
    rw [← List.sum_append, List.take_append_drop]
  have warmup_nonneg : ∀ x ∈ durations.take 5, 0 ≤ x :=
    fun x member => nonneg x (List.mem_of_mem_take member)
  have gc_nonneg : ∀ x ∈ durations.drop 5, 0 ≤ x :=
    fun x member => nonneg x (List.mem_of_mem_drop member)
  -- each phase sums to at most the whole, so neither running sum wraps
  have warmup_sum := List.sum_nonneg warmup_nonneg
  have gc_sum := List.sum_nonneg gc_nonneg
  rw [averageTenths_eq_ediv (by omega) nonneg fits,
    averageTenths_eq_ediv (by omega) warmup_nonneg (by omega),
    averageTenths_eq_ediv (by omega) gc_nonneg (by omega), total_sum, mul_add, total_length]
  exact ediv_mediant_bounds (by omega) (by omega)

theorem average_between_phases_ten_rounds :
    (∀ x ∈ ([31, 28, 30, 45, 52, 61, 58, 66, 70, 64] : List Int), 0 ≤ x) ∧
      ([31, 28, 30, 45, 52, 61, 58, 66, 70, 64] : List Int).sum < 2 ^ 63 ∧
      6 ≤ ([31, 28, 30, 45, 52, 61, 58, 66, 70, 64] : List Int).length ∧
      min (averageTenths ([31, 28, 30, 45, 52, 61, 58, 66, 70, 64].take 5))
          (averageTenths ([31, 28, 30, 45, 52, 61, 58, 66, 70, 64].drop 5)) ≤
        averageTenths [31, 28, 30, 45, 52, 61, 58, 66, 70, 64] ∧
      averageTenths [31, 28, 30, 45, 52, 61, 58, 66, 70, 64] ≤
        max (averageTenths ([31, 28, 30, 45, 52, 61, 58, 66, 70, 64].take 5))
          (averageTenths ([31, 28, 30, 45, 52, 61, 58, 66, 70, 64].drop 5)) :=
  ⟨by decide, by decide, by decide, average_between_phases (by decide) (by decide) (by decide)⟩

end AnalyzeLatency
end SuiBench
end FdpBench
