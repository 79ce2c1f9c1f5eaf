import Mathlib
import FdpBench.Lib.OrderStatistic

/-!
# The percentiles of `calculate_percentiles_us` in exact arithmetic

Each percentile sorts the samples and reads position `⌈len * ratio⌉ - 1`, capped at `len - 1`.
Here the ratios are exact and so is the product: every entry is then the nearest-rank order
statistic and the entries never decrease along the table.  The result is a `BTreeMap` whose labels
the table lists in increasing order, so it is modelled as the list of its entries.
-/

namespace FdpBench
namespace ExecutorBenchmark

open OrderStatistic

/-- Denominator of the percentile ratios: a ratio `r` stands for `r / ratioScale`. -/
def ratioScale : Nat := 100000

/-- The `percentiles` table of `calculate_percentiles_us`, each ratio in parts per
`ratioScale`. -/
def percentiles : List (String × Nat) :=
  [("p10", 10000), ("p20", 20000), ("p30", 30000), ("p40", 40000), ("p50", 50000),
    ("p60", 60000), ("p70", 70000), ("p75", 75000), ("p80", 80000), ("p90", 90000),
    ("p95", 95000), ("p99", 99000), ("p99.9", 99900), ("p99.99", 99990), ("p99.999", 99999)]

/-- `((len as f64) * ratio).ceil()` in exact arithmetic: the rank of a percentile among `len`
samples. -/
def percentileRank (len ratio : Nat) : Nat :=
  (len * ratio + ratioScale - 1) / ratioScale

/-- The index read for one percentile: the rank less one, capped at the last sample. -/
def percentileIndex (len ratio : Nat) : Nat :=
  min (percentileRank len ratio - 1) (len - 1)

/-- `calculate_percentiles_us` in exact arithmetic: no entry for no sample, otherwise sort the
samples and read each percentile's index.  The index is always in range (`percentileIndex_lt`), so the default of
`getD` stands for the panic of `samples[index]` that never happens. -/
def calculatePercentilesUs (samples : List UInt64) : List (String × UInt64) :=
  if samples.isEmpty then
    []
  else
    let sorted := samples.insertionSort (· ≤ ·)
    percentiles.map fun row => (row.1, sorted.getD (percentileIndex sorted.length row.2) 0)

/-! ## Ranks -/

theorem percentiles_ratio_bounds : ∀ row ∈ percentiles, 0 < row.2 ∧ row.2 ≤ ratioScale := by
  decide

/-- The labels increase along the table, so the `BTreeMap` visits them in table order. -/
theorem percentiles_labels_increasing : (percentiles.map Prod.fst).Pairwise (· < ·) := by
  decide

theorem percentiles_ratios_increasing : (percentiles.map Prod.snd).Pairwise (· < ·) := by
  decide

theorem percentileRank_pos {len ratio : Nat} (nonempty : 0 < len) (positive : 0 < ratio) :
    0 < percentileRank len ratio := by
  have product : 0 < len * ratio := Nat.mul_pos nonempty positive
  unfold percentileRank ratioScale
  omega

theorem percentileRank_le {len ratio : Nat} (bound : ratio ≤ ratioScale) :
    percentileRank len ratio ≤ len := by
  have product : len * ratio ≤ len * ratioScale := Nat.mul_le_mul_left len bound
  unfold percentileRank ratioScale at *
  omega

theorem percentileRank_mono (len : Nat) {ratio ratio' : Nat} (le : ratio ≤ ratio') :
    percentileRank len ratio ≤ percentileRank len ratio' := by
  have product : len * ratio ≤ len * ratio' := Nat.mul_le_mul_left len le
  unfold percentileRank
  exact Nat.div_le_div_right (by omega)

/-- For a ratio of the table the cap never applies: the index is the rank less one. -/
theorem percentileIndex_eq {len ratio : Nat} (nonempty : 0 < len) (positive : 0 < ratio)
    (bound : ratio ≤ ratioScale) : percentileIndex len ratio = percentileRank len ratio - 1 := by
  have rank_pos := percentileRank_pos nonempty positive
  have rank_le := @percentileRank_le len _ bound
  unfold percentileIndex
  omega

theorem percentileIndex_lt {len ratio : Nat} (nonempty : 0 < len) :
    percentileIndex len ratio < len := by
  unfold percentileIndex
  omega

/-! ## Percentiles are order statistics -/

/-- Sorting commutes with reading the samples as numbers. -/
theorem map_toNat_insertionSort (samples : List UInt64) :
    (samples.insertionSort (· ≤ ·)).map UInt64.toNat =
      (samples.map UInt64.toNat).insertionSort (· ≤ ·) :=
  List.map_insertionSort (· ≤ ·) (· ≤ ·) UInt64.toNat samples fun _ _ _ _ => UInt64.le_iff_toNat_le

/-- The percentile of one row: the sample at the row's nearest rank. -/
theorem isKthSmallest_percentile {samples : List UInt64} (nonempty : samples ≠ [])
    {ratio : Nat} (positive : 0 < ratio) (bound : ratio ≤ ratioScale) :
    IsKthSmallest (samples.map UInt64.toNat) (percentileRank samples.length ratio)
      ((samples.insertionSort (· ≤ ·)).getD
        (percentileIndex (samples.insertionSort (· ≤ ·)).length ratio) 0).toNat := by
  have length_pos : 0 < samples.length := List.length_pos_iff.mpr nonempty
  have rank_pos := percentileRank_pos length_pos positive
  have rank_le := @percentileRank_le samples.length _ bound
  have inside : percentileRank samples.length ratio - 1 <
      ((samples.map UInt64.toNat).insertionSort (· ≤ ·)).length := by
    rw [List.length_insertionSort, List.length_map]
    omega
  have inside' : percentileRank samples.length ratio - 1 <
      (samples.insertionSort (· ≤ ·)).length := by
    rw [List.length_insertionSort]
    omega
  have read : ((samples.insertionSort (· ≤ ·)).getD
        (percentileIndex (samples.insertionSort (· ≤ ·)).length ratio) 0).toNat =
      ((samples.map UInt64.toNat).insertionSort (· ≤ ·))[percentileRank samples.length ratio - 1] := by
    rw [List.length_insertionSort, percentileIndex_eq length_pos positive bound,
      List.getD_eq_getElem _ _ inside']
    simp only [← map_toNat_insertionSort, List.getElem_map]
  rw [read]
  exact isKthSmallest_insertionSort (samples.map UInt64.toNat) rank_pos inside

/-- `calculate_percentiles_us` prints every label of the table, each with the nearest-rank
percentile of the samples: the `⌈len * ratio⌉`-th smallest sample. -/
theorem calculatePercentilesUs_nearest_rank {samples : List UInt64} (nonempty : samples ≠ []) :
    List.Forall₂
      (fun entry row => entry.1 = row.1 ∧
        IsKthSmallest (samples.map UInt64.toNat) (percentileRank samples.length row.2)
          entry.2.toNat)
      (calculatePercentilesUs samples) percentiles := by
  rw [calculatePercentilesUs, if_neg (by simpa using nonempty), List.forall₂_map_left_iff,
    List.forall₂_same]
  intro row member
  obtain ⟨positive, bound⟩ := percentiles_ratio_bounds row member
  exact ⟨rfl, isKthSmallest_percentile nonempty positive bound⟩

/-- The percentiles never decrease along the table. -/
theorem calculatePercentilesUs_pairwise (samples : List UInt64) :
    ((calculatePercentilesUs samples).map fun entry => entry.2.toNat).Pairwise (· ≤ ·) := by
  by_cases empty : samples = []
  · simp [calculatePercentilesUs, empty]
  have increasing : percentiles.Pairwise (fun row row' => row.2 < row'.2) :=
    List.pairwise_map.mp percentiles_ratios_increasing
  rw [calculatePercentilesUs, if_neg (by simpa using empty)]
  simp only [List.map_map, List.pairwise_map, Function.comp_apply]
  refine increasing.imp_of_mem fun {row row'} member member' below => ?_
  obtain ⟨positive, bound⟩ := percentiles_ratio_bounds row member
  obtain ⟨positive', bound'⟩ := percentiles_ratio_bounds row' member'
  exact (isKthSmallest_percentile empty positive bound).le_of_le
    (isKthSmallest_percentile empty positive' bound') (percentileRank_mono _ below.le)

end ExecutorBenchmark
end FdpBench
