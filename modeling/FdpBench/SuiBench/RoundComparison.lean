import FdpBench.SuiBench.AnalyzeLatency

/-!
# The per-round breakdown of `analyze_latency.sh`

For each FDP round the script prints the non-FDP duration of the same index (`0` past the end of
that array), both durations, their difference and the improvement `bc` computes at `scale=1`, and
adds both durations to running totals; the TOTAL row compares the totals.  Differences and totals
are bash words; `bc` is exact and truncates toward zero.
-/

namespace FdpBench
namespace SuiBench
namespace AnalyzeLatency

open Word64

/-! ## `bc` with `scale=1` -/

/-- `echo "scale=1; 100 * diff / base" | bc`, in tenths. -/
def improvementTenths (diff base : Int) : Int :=
  (1000 * diff).tdiv base

/-- How `bc` prints a number of tenths. -/
def bcText (tenths : Int) : String :=
  if tenths = 0 then "0"
  else
    (if tenths < 0 then "-" else "") ++
      (if tenths.natAbs / 10 = 0 then "" else toString (tenths.natAbs / 10)) ++
      "." ++ toString (tenths.natAbs % 10)

/-- `pct` in tenths: the improvement over a positive base, and the literal `0.0` otherwise. -/
def pctTenths (diff base : Int) : Int :=
  if base > 0 then improvementTenths diff base else 0

/-- The text of `pct`. -/
def pctText (diff base : Int) : String :=
  if base > 0 then bcText (improvementTenths diff base) else "0.0"

/-- The annotation of a row, from the comparisons `pct > 10`, `pct > 5` and `pct < -3` that `bc`
makes. -/
def roundAnnotation (pct : Int) : String :=
  if pct > 100 then " ← GC heavy"
  else if pct > 50 then " ← GC active"
  else if pct < -30 then " (warmup)"
  else ""

/-! ## The loop -/

/-- A row of the per-round breakdown, as `printf "%-8d %12d %12d %12d %11s%%%s\n"` prints it. -/
structure BreakdownRow where
  round : Nat
  nofdp : Int
  fdp : Int
  diff : Int
  improvement : String
  annotation : String
  deriving DecidableEq, Repr

/-- The row of a round: `diff=$((nofdp_dur - fdp_dur))`, and `+` goes before `pct` when
`diff >= 0`. -/
def breakdownRow (round : Nat) (nofdpDur fdpDur : Int) : BreakdownRow :=
  let diff := wrap (nofdpDur - fdpDur)
  { round := round, nofdp := nofdpDur, fdp := fdpDur, diff := diff
    improvement := if diff ≥ 0 then "+" ++ pctText diff nofdpDur else pctText diff nofdpDur
    annotation := roundAnnotation (pctTenths diff nofdpDur) }

/-- The rows printed so far and the running totals `total_fdp` and `total_nofdp`. -/
structure Breakdown where
  rows : List BreakdownRow
  totalFdp : Int
  totalNofdp : Int
  deriving DecidableEq, Repr

/-- The body of `for ((i=0; i<NUM_ROUNDS; i++))` at `i`, with `FDP_DURATIONS[i]`.  The durations
are the words `extract_round_durations` printed; an index past the non-FDP array reads the empty
string, which bash arithmetic takes as `0`. -/
def breakdownStep (nofdpDurations : List Int) (breakdown : Breakdown) (entry : Int × Nat) :
    Breakdown :=
  let nofdpDur := nofdpDurations.getD entry.2 0
  { rows := breakdown.rows ++ [breakdownRow (entry.2 + 1) nofdpDur entry.1]
    totalFdp := wrap (breakdown.totalFdp + entry.1)
    totalNofdp := wrap (breakdown.totalNofdp + nofdpDur) }

/-- The loop over the FDP rounds: `NUM_ROUNDS` is the number of FDP durations. -/
def perRoundBreakdown (fdpDurations nofdpDurations : List Int) : Breakdown :=
  fdpDurations.zipIdx.foldl (breakdownStep nofdpDurations) ⟨[], 0, 0⟩

/-- The TOTAL row: the totals, `total_diff`, and `+` before `total_pct` whatever its sign. -/
structure TotalRow where
  nofdp : Int
  fdp : Int
  diff : Int
  improvement : String
  deriving DecidableEq, Repr

def totalRow (breakdown : Breakdown) : TotalRow :=
  let diff := wrap (breakdown.totalNofdp - breakdown.totalFdp)
  { nofdp := breakdown.totalNofdp, fdp := breakdown.totalFdp, diff := diff
    improvement := "+" ++ pctText diff breakdown.totalNofdp }

/-! ## The totals are the sums of the durations -/

/-- The row the loop prints for a duration and its index. -/
def rowOf (nofdpDurations : List Int) (entry : Int × Nat) : BreakdownRow :=
  breakdownRow (entry.2 + 1) (nofdpDurations.getD entry.2 0) entry.1

/-- The loop from index `start` appends one row per duration and adds the durations, and the
non-FDP durations at the same indices, to the totals, which wrap once. -/
theorem foldl_breakdownStep (nofdpDurations durations : List Int) (start : Nat)
    (rows : List BreakdownRow) (fdp nofdp : Int) :
    (durations.zipIdx start).foldl (breakdownStep nofdpDurations) ⟨rows, wrap fdp, wrap nofdp⟩ =
      { rows := rows ++ (durations.zipIdx start).map (rowOf nofdpDurations)
        totalFdp := wrap (fdp + durations.sum)
        totalNofdp := wrap (nofdp +
          ((List.range' start durations.length).map fun i => nofdpDurations.getD i 0).sum) } := by
  induction durations generalizing start rows fdp nofdp with
  | nil => simp
  | cons duration durations induction =>
      have step : breakdownStep nofdpDurations ⟨rows, wrap fdp, wrap nofdp⟩ (duration, start) =
          ⟨rows ++ [rowOf nofdpDurations (duration, start)], wrap (fdp + duration),
            wrap (nofdp + nofdpDurations.getD start 0)⟩ := by
        simp only [breakdownStep, rowOf, wrap_add_wrap]
      rw [List.zipIdx_cons, List.foldl_cons, step, induction]
      simp only [List.map_cons, List.append_assoc, List.singleton_append, List.sum_cons,
        List.length_cons, List.range'_succ, add_assoc]

/-- Reading indices `0` to `n - 1` with `0` past the end sums the first `n` elements. -/
theorem sum_map_getD_range (values : List Int) (n : Nat) :
    ((List.range n).map fun i => values.getD i 0).sum = (values.take n).sum := by
  induction n with
  | zero => simp
  | succ n induction =>
      rw [List.range_succ, List.map_append, List.sum_append, induction, List.take_add_one,
        List.sum_append]
      cases read : values[n]? <;> simp [List.getD_eq_getElem?_getD, read]

/-- The breakdown prints a row per FDP round, comparing it with the non-FDP duration of the same
index; its totals are the sum of the FDP durations and of the first `NUM_ROUNDS` non-FDP ones, as
words. -/
theorem perRoundBreakdown_eq (fdpDurations nofdpDurations : List Int) :
    perRoundBreakdown fdpDurations nofdpDurations =
      { rows := fdpDurations.zipIdx.map (rowOf nofdpDurations)
        totalFdp := wrap fdpDurations.sum
        totalNofdp := wrap (nofdpDurations.take fdpDurations.length).sum } := by
  have start : (⟨[], 0, 0⟩ : Breakdown) = ⟨[], wrap 0, wrap 0⟩ := by rw [wrap_zero]
  rw [perRoundBreakdown, start, foldl_breakdownStep, ← List.range_eq_range',
    sum_map_getD_range]
  simp

/-- The digits of a natural number start with a digit. -/
theorem toDigits_head_isDigit (n : Nat) :
    ∃ c rest, Nat.toDigits 10 n = c :: rest ∧ c.isDigit := by
  obtain ⟨c, rest, split⟩ := List.exists_cons_of_length_pos (@Nat.length_toDigits_pos 10 n)
  have member : c ∈ Nat.toDigits 10 n := by
    rw [split]
    exact List.mem_cons_self
  exact ⟨c, rest, split, Nat.isDigit_of_mem_toDigits (by decide) (by decide) member⟩

/-- What `bc` prints starts with `-` exactly for a negative number, and never with `+`. -/
theorem bcText_head (tenths : Int) :
    ∃ c, (bcText tenths).toList.head? = some c ∧ (c = '-' ↔ tenths < 0) ∧ c ≠ '+' := by
  unfold bcText
  split
  case isTrue zero => exact ⟨'0', by simp, by simp [zero], by decide⟩
  case isFalse nonzero =>
    by_cases negative : tenths < 0
    · exact ⟨'-', by simp [negative], by simp [negative], by decide⟩
    · -- a positive number starts with its integer part, or with the point when that is zero
      rw [if_neg negative, String.empty_append]
      split
      case isTrue => exact ⟨'.', by simp, by simp [negative], by decide⟩
      case isFalse =>
        obtain ⟨c, rest, split, digit⟩ := toDigits_head_isDigit (tenths.natAbs / 10)
        have not_minus : c ≠ '-' := by
          rintro rfl
          exact absurd digit (by decide)
        have not_plus : c ≠ '+' := by
          rintro rfl
          exact absurd digit (by decide)
        refine ⟨c, ?_, by simp [not_minus, negative], not_plus⟩
        simp [Nat.toString_eq_repr, Nat.toList_repr, split]

/-- For a positive base the improvement is negative exactly when `1000 * diff <= -base`. -/
theorem improvementTenths_neg_iff {diff base : Int} (positive : 0 < base) :
    improvementTenths diff base < 0 ↔ 1000 * diff + base ≤ 0 := by
  unfold improvementTenths
  by_cases sign : 0 ≤ 1000 * diff
  · have nonneg := Int.tdiv_nonneg sign positive.le
    omega
  · -- truncation toward zero: the quotient of `-(1000 * diff)` with its sign flipped
    have flip : (1000 * diff).tdiv base = -((-(1000 * diff)) / base) := by
      rw [← Int.tdiv_eq_ediv_of_nonneg (by omega), Int.neg_tdiv, Int.neg_neg]
    have quotient : 1 ≤ (-(1000 * diff)) / base ↔ 1 * base ≤ -(1000 * diff) :=
      Int.le_ediv_iff_mul_le positive
    omega

/-- The text of `pct` starts with `-` exactly for a negative improvement over a positive base,
and never with `+`. -/
theorem pctText_head (diff base : Int) :
    ∃ c, (pctText diff base).toList.head? = some c ∧
      (c = '-' ↔ 0 < base ∧ 1000 * diff + base ≤ 0) ∧ c ≠ '+' := by
  unfold pctText
  split
  case isTrue positive =>
    obtain ⟨c, head, minus, not_plus⟩ := bcText_head (improvementTenths diff base)
    exact ⟨c, head, by rw [minus, improvementTenths_neg_iff positive]; simp [positive], not_plus⟩
  case isFalse not_positive => exact ⟨'0', by simp, by simp [not_positive], by decide⟩

/-- The first two characters of `+` followed by a text are `+-` exactly when the text starts with
`-`. -/
theorem take_two_plus (text : List Char) :
    ('+' :: text).take 2 = ['+', '-'] ↔ text.head? = some '-' := by
  cases text <;> simp

/-- A text whose first two characters are `+-` starts with `+`. -/
theorem head?_of_take_two {text : List Char} (plus_minus : text.take 2 = ['+', '-']) :
    text.head? = some '+' := by
  cases text with
  | nil => cases plus_minus
  | cons c rest =>
      simp only [List.take_succ_cons, List.cons.injEq] at plus_minus
      rw [plus_minus.1]
      rfl

/-- No row of the breakdown prints `+-`: the `+` goes only before a difference that is not
negative, whose improvement is not negative either. -/
theorem breakdownRow_not_plus_minus (round : Nat) (nofdpDur fdpDur : Int) :
    (breakdownRow round nofdpDur fdpDur).improvement.toList.take 2 ≠ ['+', '-'] := by
  obtain ⟨c, head, minus, not_plus⟩ := pctText_head (wrap (nofdpDur - fdpDur)) nofdpDur
  simp only [breakdownRow]
  split
  case isTrue nonneg =>
    rw [String.toList_append, show ("+" : String).toList = ['+'] by simp, List.singleton_append,
      Ne, take_two_plus, head]
    intro same
    have := minus.mp (Option.some.inj same)
    omega
  case isFalse =>
    intro plus_minus
    rw [head?_of_take_two plus_minus] at head
    exact not_plus (Option.some.inj head).symm

/-- The TOTAL row prints `+-` exactly when its improvement is negative: when a positive non-FDP
total is at most a thousand times the negated difference of the totals. -/
theorem totalRow_plus_minus_iff (breakdown : Breakdown) :
    (totalRow breakdown).improvement.toList.take 2 = ['+', '-'] ↔
      0 < breakdown.totalNofdp ∧
        1000 * wrap (breakdown.totalNofdp - breakdown.totalFdp) + breakdown.totalNofdp ≤ 0 := by
  obtain ⟨c, head, minus, -⟩ :=
    pctText_head (wrap (breakdown.totalNofdp - breakdown.totalFdp)) breakdown.totalNofdp
  rw [totalRow, String.toList_append, show ("+" : String).toList = ['+'] by simp,
    List.singleton_append, take_two_plus, head, Option.some.injEq, minus]

/-- The rows of the breakdown never print `+-` before an improvement.  When the sums of the
durations and their difference fit a word, the TOTAL row prints it exactly when the FDP rounds
took at least a thousandth longer in total than a positive total of the non-FDP rounds at the
same indices. -/
theorem improvement_plus_minus (fdpDurations nofdpDurations : List Int)
    (fdp_fits : Fits fdpDurations.sum)
    (nofdp_fits : Fits (nofdpDurations.take fdpDurations.length).sum)
    (diff_fits : Fits ((nofdpDurations.take fdpDurations.length).sum - fdpDurations.sum)) :
    (∀ row ∈ (perRoundBreakdown fdpDurations nofdpDurations).rows,
      row.improvement.toList.take 2 ≠ ['+', '-']) ∧
    ((totalRow (perRoundBreakdown fdpDurations nofdpDurations)).improvement.toList.take 2 =
        ['+', '-'] ↔
      0 < (nofdpDurations.take fdpDurations.length).sum ∧
        (nofdpDurations.take fdpDurations.length).sum ≤
          1000 * (fdpDurations.sum - (nofdpDurations.take fdpDurations.length).sum)) := by
  rw [totalRow_plus_minus_iff, perRoundBreakdown_eq]
  dsimp only
  rw [wrap_of_fits fdp_fits, wrap_of_fits nofdp_fits, wrap_of_fits diff_fits]
  refine ⟨?_, by omega⟩
  intro row member
  obtain ⟨entry, -, rfl⟩ := List.mem_map.mp member
  exact breakdownRow_not_plus_minus _ _ _

/-- FDP rounds of 10 s and 12 s against non-FDP rounds of 9 s and 10 s: the TOTAL row prints
`+-`, as 22 s is more than a thousandth over 19 s. -/
theorem improvement_plus_minus_two_rounds :
    (∀ row ∈ (perRoundBreakdown [10, 12] [9, 10]).rows,
      row.improvement.toList.take 2 ≠ ['+', '-']) ∧
    (totalRow (perRoundBreakdown [10, 12] [9, 10])).improvement.toList.take 2 = ['+', '-'] :=
  have result := improvement_plus_minus [10, 12] [9, 10] (by decide) (by decide) (by decide)
  ⟨result.1, result.2.mpr (by decide)⟩

/-- FDP rounds of 10 s and 12 s against non-FDP rounds of 9 s and 10 s: the TOTAL row reads
`+-15.7`. -/
example : (totalRow (perRoundBreakdown [10, 12] [9, 10])).improvement = "+-15.7" := by decide

end AnalyzeLatency
end SuiBench
end FdpBench
