import FdpBench.Lib.Trace
import Mathlib.Logic.Function.Basic

/-!
# The transaction latency collector of the block executor

`counters.rs` keeps a sample buffer per thread and a global list of flushed buffers behind a
mutex.  Each call is one atomic step of one thread, in any interleaving; `get_all_latencies` is
one step, since the calling thread cannot record between its flush and its read.  The mutex is
never poisoned, so every `lock()` succeeds.
-/

namespace FdpBench
namespace BlockExecutor

/-- Shared state of the collector. -/
structure LatencyCollector (Thread : Type) where
  /-- `THREAD_LATENCIES`: the calling thread's own buffer, for every thread. -/
  threadLatencies : Thread → List UInt64
  /-- `AGGREGATED_LATENCIES`: the buffers flushed so far, in flush order. -/
  aggregatedLatencies : List (List UInt64)

namespace LatencyCollector

variable {Thread : Type} [DecidableEq Thread]

/-- The collector at process start: every buffer and the aggregate are empty. -/
def empty : LatencyCollector Thread :=
  { threadLatencies := fun _ => []
    aggregatedLatencies := [] }

/-- `record_task_latency_us`: push the sample onto the calling thread's buffer. -/
def recordTaskLatencyUs (thread : Thread) (durationUs : UInt64)
    (collector : LatencyCollector Thread) : LatencyCollector Thread :=
  { collector with
    threadLatencies := Function.update collector.threadLatencies thread
      (collector.threadLatencies thread ++ [durationUs]) }

/-- `flush_thread_latencies`: move a non-empty buffer of the calling thread to the aggregate. -/
def flushThreadLatencies (thread : Thread) (collector : LatencyCollector Thread) :
    LatencyCollector Thread :=
  if (collector.threadLatencies thread).isEmpty then
    collector
  else
    { threadLatencies := Function.update collector.threadLatencies thread []
      aggregatedLatencies :=
        collector.aggregatedLatencies ++ [collector.threadLatencies thread] }

/-- `reset_latency_collector`: clear the calling thread's buffer and the aggregate. -/
def resetLatencyCollector (thread : Thread) (collector : LatencyCollector Thread) :
    LatencyCollector Thread :=
  { threadLatencies := Function.update collector.threadLatencies thread []
    aggregatedLatencies := [] }

/-- `get_all_latencies`: flush the calling thread, then concatenate every aggregated buffer. -/
def getAllLatencies (thread : Thread) (collector : LatencyCollector Thread) :
    LatencyCollector Thread × List UInt64 :=
  let flushed := collector.flushThreadLatencies thread
  (flushed, flushed.aggregatedLatencies.flatten)

@[simp]
theorem recordTaskLatencyUs_aggregatedLatencies (thread : Thread) (durationUs : UInt64)
    (collector : LatencyCollector Thread) :
    (collector.recordTaskLatencyUs thread durationUs).aggregatedLatencies =
      collector.aggregatedLatencies := rfl

@[simp]
theorem recordTaskLatencyUs_threadLatencies (thread other : Thread) (durationUs : UInt64)
    (collector : LatencyCollector Thread) :
    (collector.recordTaskLatencyUs thread durationUs).threadLatencies other =
      if other = thread then collector.threadLatencies thread ++ [durationUs]
      else collector.threadLatencies other := by
  simp only [recordTaskLatencyUs, Function.update_apply]

@[simp]
theorem resetLatencyCollector_aggregatedLatencies (thread : Thread)
    (collector : LatencyCollector Thread) :
    (collector.resetLatencyCollector thread).aggregatedLatencies = [] := rfl

@[simp]
theorem resetLatencyCollector_threadLatencies (thread other : Thread)
    (collector : LatencyCollector Thread) :
    (collector.resetLatencyCollector thread).threadLatencies other =
      if other = thread then [] else collector.threadLatencies other := by
  simp only [resetLatencyCollector, Function.update_apply]

/-- A flush appends the caller's buffer to the concatenated aggregate, empty or not. -/
@[simp]
theorem flushThreadLatencies_flatten (thread : Thread) (collector : LatencyCollector Thread) :
    (collector.flushThreadLatencies thread).aggregatedLatencies.flatten =
      collector.aggregatedLatencies.flatten ++ collector.threadLatencies thread := by
  unfold flushThreadLatencies
  split
  case isTrue empty =>
    rw [List.isEmpty_iff.mp empty, List.append_nil]
  case isFalse _ =>
    simp

/-- A flush empties the caller's buffer and leaves every other buffer alone. -/
@[simp]
theorem flushThreadLatencies_threadLatencies (thread other : Thread)
    (collector : LatencyCollector Thread) :
    (collector.flushThreadLatencies thread).threadLatencies other =
      if other = thread then [] else collector.threadLatencies other := by
  unfold flushThreadLatencies
  split
  case isTrue empty =>
    split
    case isTrue same => rw [same, List.isEmpty_iff.mp empty]
    case isFalse _ => rfl
  case isFalse _ =>
    simp only [Function.update_apply]

/-- One call of the collector's API, made by the named thread. -/
inductive Call (Thread : Type) where
  | recordTaskLatencyUs (thread : Thread) (durationUs : UInt64)
  | flushThreadLatencies (thread : Thread)
  | resetLatencyCollector (thread : Thread)
  | getAllLatencies (thread : Thread)

/-- The thread that makes a call. -/
@[simp]
def Call.thread : Call Thread → Thread
  | .recordTaskLatencyUs thread _ => thread
  | .flushThreadLatencies thread => thread
  | .resetLatencyCollector thread => thread
  | .getAllLatencies thread => thread

/-- One atomic step of the collector. -/
def step (collector : LatencyCollector Thread) : Call Thread → LatencyCollector Thread
  | .recordTaskLatencyUs thread durationUs => collector.recordTaskLatencyUs thread durationUs
  | .flushThreadLatencies thread => collector.flushThreadLatencies thread
  | .resetLatencyCollector thread => collector.resetLatencyCollector thread
  | .getAllLatencies thread => (collector.getAllLatencies thread).1

/-- The collector after an interleaving of calls, starting from process start. -/
def after (calls : List (Call Thread)) : LatencyCollector Thread :=
  Trace.run step empty calls

/-! ## The measurement period -/

/-- Samples of the current measurement period: everything recorded, by any thread, after the
most recent reset.  This is what a measuring thread expects `get_all_latencies` to return. -/
def periodStep (samples : List UInt64) : Call Thread → List UInt64
  | .recordTaskLatencyUs _ durationUs => samples ++ [durationUs]
  | .resetLatencyCollector _ => []
  | .flushThreadLatencies _ => samples
  | .getAllLatencies _ => samples

/-- The samples recorded since the last reset of the run. -/
def periodSamples (calls : List (Call Thread)) : List UInt64 :=
  Trace.run periodStep [] calls

/-- What `get_all_latencies` on `thread` would return now: the aggregate followed by the caller's
own buffer. -/
def callerView (thread : Thread) (collector : LatencyCollector Thread) : List UInt64 :=
  collector.aggregatedLatencies.flatten ++ collector.threadLatencies thread

theorem getAllLatencies_snd (thread : Thread) (collector : LatencyCollector Thread) :
    (collector.getAllLatencies thread).2 = callerView thread collector :=
  flushThreadLatencies_flatten thread collector

/-- A reset by the viewing thread empties its view. -/
theorem callerView_resetLatencyCollector (thread : Thread) (collector : LatencyCollector Thread) :
    callerView thread (collector.resetLatencyCollector thread) = [] := by
  simp [callerView]

/-- A call of the viewing thread moves its view as it moves the samples of the period. -/
theorem callerView_step {thread : Thread} (collector : LatencyCollector Thread)
    (call : Call Thread) (by_thread : call.thread = thread) :
    callerView thread (step collector call) = periodStep (callerView thread collector) call := by
  cases call with
  | recordTaskLatencyUs _ durationUs =>
      subst by_thread
      simp [callerView, step, periodStep]
  | flushThreadLatencies _ =>
      subst by_thread
      simp [callerView, step, periodStep]
  | resetLatencyCollector _ =>
      subst by_thread
      simp [callerView, step, periodStep]
  | getAllLatencies _ =>
      subst by_thread
      simp [callerView, step, getAllLatencies, periodStep]

/-- While one thread makes every call, its view follows the samples of the period, from any
state of the collector. -/
theorem callerView_run {thread : Thread} {calls : List (Call Thread)}
    (single : ∀ call ∈ calls, call.thread = thread) (collector : LatencyCollector Thread) :
    callerView thread (Trace.run step collector calls) =
      Trace.run periodStep (callerView thread collector) calls :=
  Trace.view_run step periodStep (callerView thread) (fun current call by_thread =>
    callerView_step current call by_thread) single collector

/-- When a single thread records, resets and reads, `get_all_latencies` returns exactly the
samples of the current period, in recording order. -/
theorem getAllLatencies_of_single_thread (thread : Thread) (calls : List (Call Thread))
    (single : ∀ call ∈ calls, call.thread = thread) :
    ((after calls).getAllLatencies thread).2 = periodSamples calls := by
  rw [getAllLatencies_snd, after, callerView_run single]
  rfl

/-- A thread that records 7, resets, records 3 and reads gets back the 3 alone. -/
theorem getAllLatencies_of_single_thread_after_reset :
    ((after [.recordTaskLatencyUs 0 7, .resetLatencyCollector 0, .recordTaskLatencyUs 0 3]).getAllLatencies
        (0 : Nat)).2 =
      periodSamples [Call.recordTaskLatencyUs (0 : Nat) 7, .resetLatencyCollector 0,
        .recordTaskLatencyUs 0 3] ∧
    periodSamples [Call.recordTaskLatencyUs (0 : Nat) 7, .resetLatencyCollector 0,
        .recordTaskLatencyUs 0 3] = [3] :=
  ⟨getAllLatencies_of_single_thread 0 _ (by decide), by decide⟩

/-- A sample recorded on a worker thread is not returned to a measuring thread, and a sample
recorded on a worker thread before a reset is returned after it. -/
theorem getAllLatencies_not_period_samples :
    ((after [.recordTaskLatencyUs 1 7]).getAllLatencies (0 : Nat)).2 = [] ∧
      periodSamples [Call.recordTaskLatencyUs (1 : Nat) 7] = [7] ∧
      ((after [.recordTaskLatencyUs 1 7, .resetLatencyCollector 0]).getAllLatencies
          (1 : Nat)).2 = [7] ∧
      periodSamples [Call.recordTaskLatencyUs (1 : Nat) 7, .resetLatencyCollector 0] = [] := by
  refine ⟨?_, ?_, ?_, ?_⟩ <;> decide

end LatencyCollector

end BlockExecutor
end FdpBench
