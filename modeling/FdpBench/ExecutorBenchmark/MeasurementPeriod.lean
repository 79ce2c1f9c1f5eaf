import FdpBench.ExecutorBenchmark.FloatPercentiles
import FdpBench.BlockExecutor.LatencyCollector

/-!
# Tail latencies of a measurement period

`OverallMeasuring::start` resets the latency collector, and `OverallMeasurement::print_end` reads
every sample with `get_all_latencies` and, when there is one, prints `calculate_percentiles_us` of
them.  When one thread makes every call of the period, the printed values are the order
statistics of the samples of the period.
-/

namespace FdpBench
namespace ExecutorBenchmark

open OrderStatistic BlockExecutor

variable {Thread : Type} [DecidableEq Thread]

/-- `OverallMeasuring::start` on the measuring thread: reset the collector. -/
def overallMeasuringStart (thread : Thread) (collector : LatencyCollector Thread) :
    LatencyCollector Thread :=
  collector.resetLatencyCollector thread

/-- The tail-latency output of `print_end` on the measuring thread: read every sample, then print
the percentiles, or nothing when there is no sample (its `NO LATNECY` branch). -/
def printTailLatencies (thread : Thread) (collector : LatencyCollector Thread) :
    LatencyCollector Thread × Option (List (String × UInt64)) :=
  let read := collector.getAllLatencies thread
  (read.1, if read.2.isEmpty then none else some (calculatePercentilesUsF64 read.2))

/-- One measurement period on the measuring thread: `OverallMeasuring::start`, the calls of the
period in order, then the tail latencies of `print_end`. -/
def measurementPeriod (thread : Thread) (calls : List (LatencyCollector.Call Thread))
    (collector : LatencyCollector Thread) :
    LatencyCollector Thread × Option (List (String × UInt64)) :=
  printTailLatencies thread
    (Trace.run LatencyCollector.step (overallMeasuringStart thread collector) calls)

/-- When the measuring thread makes every call of a period of at most `2 ^ 32` samples, whatever
the collector held before it, the output is empty exactly when the period has no sample, and
otherwise every label carries the nearest-rank percentile of the samples of the period. -/
theorem measurementPeriod_of_single_thread (thread : Thread)
    {calls : List (LatencyCollector.Call Thread)} (single : ∀ call ∈ calls, call.thread = thread)
    (fits : (LatencyCollector.periodSamples calls).length ≤ 2 ^ 32)
    (collector : LatencyCollector Thread) :
    ((measurementPeriod thread calls collector).2 = none ↔
        LatencyCollector.periodSamples calls = []) ∧
      ∀ printed, (measurementPeriod thread calls collector).2 = some printed →
        List.Forall₂
          (fun entry row => entry.1 = row.1 ∧
            IsKthSmallest ((LatencyCollector.periodSamples calls).map UInt64.toNat)
              (percentileRank (LatencyCollector.periodSamples calls).length row.2)
              entry.2.toNat)
          printed percentiles := by
  -- after the reset, the caller's view holds exactly the samples of the period
  have read : ((Trace.run LatencyCollector.step (overallMeasuringStart thread collector)
      calls).getAllLatencies thread).2 = LatencyCollector.periodSamples calls := by
    rw [LatencyCollector.getAllLatencies_snd, LatencyCollector.callerView_run single,
      overallMeasuringStart, LatencyCollector.callerView_resetLatencyCollector]
    rfl
  simp only [measurementPeriod, printTailLatencies, read]
  by_cases empty : LatencyCollector.periodSamples calls = []
  · simp [empty]
  · refine ⟨by simp [empty], fun printed printed_eq => ?_⟩
    rw [if_neg (by simpa using empty), Option.some.injEq] at printed_eq
    rw [← printed_eq]
    exact calculatePercentilesUsF64_nearest_rank empty fits

/-- A period in which the measuring thread records 7 and 3, after a worker thread left 99 in its
own buffer: the output carries the order statistics of 7 and 3 alone. -/
theorem measurementPeriod_after_worker_sample :
    (LatencyCollector.periodSamples
        [LatencyCollector.Call.recordTaskLatencyUs (0 : Nat) 7, .recordTaskLatencyUs 0 3]).length ≤
        2 ^ 32 ∧
      ((measurementPeriod 0 [.recordTaskLatencyUs 0 7, .recordTaskLatencyUs 0 3]
          (LatencyCollector.after [.recordTaskLatencyUs (1 : Nat) 99])).2 = none ↔
        LatencyCollector.periodSamples
          [LatencyCollector.Call.recordTaskLatencyUs (0 : Nat) 7, .recordTaskLatencyUs 0 3] = []) ∧
      ∀ printed, (measurementPeriod 0 [.recordTaskLatencyUs 0 7, .recordTaskLatencyUs 0 3]
          (LatencyCollector.after [.recordTaskLatencyUs (1 : Nat) 99])).2 = some printed →
        List.Forall₂
          (fun entry row => entry.1 = row.1 ∧
            IsKthSmallest ((LatencyCollector.periodSamples
                [LatencyCollector.Call.recordTaskLatencyUs (0 : Nat) 7,
                  .recordTaskLatencyUs 0 3]).map UInt64.toNat)
              (percentileRank (LatencyCollector.periodSamples
                [LatencyCollector.Call.recordTaskLatencyUs (0 : Nat) 7,
                  .recordTaskLatencyUs 0 3]).length row.2)
              entry.2.toNat)
          printed percentiles :=
  ⟨by decide, measurementPeriod_of_single_thread 0 (by decide) (by decide) _⟩

end ExecutorBenchmark
end FdpBench
