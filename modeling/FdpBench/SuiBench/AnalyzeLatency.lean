import Mathlib
import FdpBench.Lib.OrderStatistic
import FdpBench.Lib.Word64

/-!
# Per-round statistics of `analyze_latency.sh`

`extract_round_durations` turns the `Round r/R (Ns elapsed)` and `Duration: D` lines of a log into
round durations, in bash's signed 64-bit arithmetic; `percentile` reads the nearest rank.
-/

namespace FdpBench
namespace SuiBench
namespace AnalyzeLatency

open OrderStatistic Word64

/-- A line of a benchmark log, as the script's two patterns see it. -/
inductive LogLine where
  /-- A line matching `Round ([0-9]+)/[0-9]+ \(([0-9]+)s elapsed\)`, with its two captures. -/
  | round (round elapsed : Nat)
  /-- A line on which `grep -oP 'Duration: \K[0-9]+'` finds `seconds`. -/
  | duration (seconds : Nat)
  | other
  deriving DecidableEq, Repr

/-- The captures of a round line: the round and the elapsed seconds. -/
def LogLine.round? : LogLine → Option (Nat × Nat)
  | .round number elapsed => some (number, elapsed)
  | _ => none

/-- The number `grep -oP 'Duration: \K[0-9]+'` finds on a line. -/
def LogLine.duration? : LogLine → Option Nat
  | .duration seconds => some seconds
  | _ => none

/-- The body of the `while read` loop: the durations so far and `prev_elapsed`.  Bash reads a
capture as a 64-bit word and wraps the difference. -/
def readRoundLine (scan : List Int × Int) : LogLine → List Int × Int
  | .round round elapsed =>
      (if wrap round > 1 then scan.1 ++ [wrap (wrap elapsed - scan.2)] else scan.1, wrap elapsed)
  | _ => scan

/-- `total_duration`, when it is one number: `grep` prints the matches, or `echo "0"` runs when
there is none.  Several matches are not a number, and the `-gt` test on them fails. -/
def totalDuration (lines : List LogLine) : Option Nat :=
  match lines.filterMap LogLine.duration? with
  | [] => some 0
  | [seconds] => some seconds
  | _ => none

/-- `extract_round_durations`. -/
def extractRoundDurations (lines : List LogLine) : List Int :=
  let scan := lines.foldl readRoundLine ([], 0)
  match totalDuration lines with
  | some total =>
      if 0 < wrap total ∧ 0 < scan.2 then scan.1 ++ [wrap (wrap total - scan.2)] else scan.1
  | none => scan.1

/-- `sort -n` on integers. -/
def sortNumeric (values : List Int) : List Int :=
  values.insertionSort (· ≤ ·)

/-- The index `percentile` reads from `n` sorted values: `(pct * n - 1) / 100`, truncated toward
zero, then clamped below at `0` and above at `n - 1`.  With `pct ≤ 100` and `n` the length of a
bash array, `pct * n` stays far below `2 ^ 63`. -/
def percentileIndex (pct n : Int) : Int :=
  let idx := (pct * n - 1).tdiv 100
  let idx := if idx < 0 then 0 else idx
  if idx ≥ n then n - 1 else idx

/-- `percentile pct values`.  The index is negative only for an empty array, where bash prints
nothing and the model has no value. -/
def percentile (pct : Int) (values : List Int) : Option Int :=
  let sorted := sortNumeric values
  sorted[(percentileIndex pct sorted.length).toNat]?

/-! ## What the durations should be -/

/-- The differences between consecutive elapsed values. -/
def differences (elapsed : List Nat) : List Int :=
  List.zipWith (fun previous next => (next : Int) - previous) elapsed elapsed.tail

/-- The durations of rounds that start at `elapsed` in a benchmark that lasts `total`. -/
def roundDurations (elapsed : List Nat) (total : Nat) : List Int :=
  differences elapsed ++ [(total : Int) - elapsed.getLastD 0]

/-- A log whose round lines are `Round 1/R` to `Round R/R` at the elapsed values `elapsed`, in
order, and whose one `Duration:` line says `total`. -/
structure BenchmarkLog (lines : List LogLine) (elapsed : List Nat) (total : Nat) : Prop where
  rounds : lines.filterMap LogLine.round? = (elapsed.zipIdx 1).map Prod.swap
  duration : lines.filterMap LogLine.duration? = [total]

/-- A one-round log whose round starts at 0 s and which lasts 5 s: the script returns no
duration where the round lasted 5 s. -/
theorem extract_round_durations_drops_round_at_zero :
    BenchmarkLog [.round 1 0, .duration 5] [0] 5 ∧
      extractRoundDurations [.round 1 0, .duration 5] = [] ∧ roundDurations [0] 5 = [5] := by
  refine ⟨⟨by decide, rfl⟩, ?_, rfl⟩
  decide

/-! ## Percentiles -/

/-- The nearest rank of the `pct`-th percentile of `n` values: `⌈pct * n / 100⌉`, and `1` when
`pct * n = 0`. -/
def nearestRank (pct n : Nat) : Nat :=
  if pct * n = 0 then 1 else (pct * n + 99) / 100

theorem nearestRank_pos (pct n : Nat) : 0 < nearestRank pct n := by
  unfold nearestRank
  split <;> omega

theorem nearestRank_le {pct n : Nat} (bound : pct ≤ 100) (positive : 0 < n) :
    nearestRank pct n ≤ n := by
  have product : pct * n ≤ 100 * n := Nat.mul_le_mul_right n bound
  unfold nearestRank
  split <;> omega

/-- Bash's arithmetic reads the nearest rank's position for every percentage in `[0, 100]`. -/
theorem percentileIndex_eq {pct n : Nat} (bound : pct ≤ 100) (positive : 0 < n) :
    percentileIndex pct n = ((nearestRank pct n - 1 : Nat) : Int) := by
  have product : pct * n ≤ 100 * n := Nat.mul_le_mul_right n bound
  unfold percentileIndex nearestRank
  dsimp only
  by_cases zero : pct * n = 0
  · have quotient : ((pct : Int) * n - 1).tdiv 100 = 0 := by
      rw [← Int.natCast_mul, zero]
      decide
    rw [quotient, if_pos zero]
    split_ifs <;> omega
  · have quotient : ((pct : Int) * n - 1).tdiv 100 = (((pct * n - 1) / 100 : Nat) : Int) := by
      have nonnegative : 0 ≤ (pct : Int) * n - 1 := by
        rw [← Int.natCast_mul]
        omega
      rw [Int.tdiv_eq_ediv_of_nonneg nonnegative, ← Int.natCast_mul]
      omega
    rw [quotient, if_neg zero]
    split_ifs <;> omega

/-- `percentile pct values` is the nearest-rank percentile: the `⌈pct * n / 100⌉`-th smallest
value, or the smallest when `pct * n = 0`. -/
theorem percentile_nearest_rank {pct : Nat} (bound : pct ≤ 100) {values : List Int}
    (nonempty : values ≠ []) :
    ∃ x, percentile pct values = some x ∧
      IsKthSmallest values (nearestRank pct values.length) x := by
  have length_eq : (sortNumeric values).length = values.length := List.length_insertionSort _ _
  have positive : 0 < values.length := List.length_pos_iff.mpr nonempty
  have rank_pos := nearestRank_pos pct values.length
  have rank_le := nearestRank_le bound positive
  have inside : nearestRank pct values.length - 1 < (sortNumeric values).length := by
    rw [length_eq]
    omega
  refine ⟨(sortNumeric values)[nearestRank pct values.length - 1], ?_,
    isKthSmallest_insertionSort values rank_pos inside⟩
  rw [percentile, length_eq, percentileIndex_eq bound positive, Int.toNat_natCast]
  exact List.getElem?_eq_getElem inside

/-- The median of three values is the second smallest. -/
theorem percentile_median_of_three :
    ∃ x, percentile ((50 : Nat) : Int) [30, 10, 20] = some x ∧
      IsKthSmallest [30, 10, 20] (nearestRank 50 3) x :=
  @percentile_nearest_rank 50 (by decide) [30, 10, 20] (by decide)

end AnalyzeLatency
end SuiBench
end FdpBench
