import FdpBench.Lib.Chunking
import FdpBench.Lib.Word64

/-!
# The chunked import of the Ethereum replay benchmark

`import_chunked` in `bench.sh` converts blocks `0 .. TOTAL_BLOCKS` to RLP with `era2rlp` and imports
them into geth in chunks of `CHUNK_BLOCKS`; under `set -euo pipefail` a failing chunk stops it.
With a positive chunk size and no wrap of bash's 64-bit arithmetic the ranges tile
`[0, TOTAL_BLOCKS]`; with `CHUNK_BLOCKS=0` the loop never ends.
-/

namespace FdpBench
namespace Ethereum

open Chunking Word64

/-- The variables of `import_chunked`, and the `(min, max)` ranges passed to `era2rlp` so far. -/
structure ImportState where
  block : Int
  chunkId : Nat
  ranges : List (Int × Int)
  deriving DecidableEq, Repr

/-- `local block=0`, `local chunk_id=0`. -/
def ImportState.initial : ImportState := ⟨0, 0, []⟩

/-- `chunk_end=$((block + CHUNK_BLOCKS))`, set to `TOTAL_BLOCKS` when past it. -/
def chunkEnd (totalBlocks chunkBlocks block : Int) : Int :=
  let chunkEnd := wrap (block + chunkBlocks)
  if chunkEnd > totalBlocks then totalBlocks else chunkEnd

/-- The `while [[ $block -lt $TOTAL_BLOCKS ]]` loop for at most `fuel` passes, `none` when the fuel
runs out.  `imported chunkId` says whether the conversion and the import of that chunk succeed; when
they do not, the script stops with the chunk's range passed to `era2rlp`.  The result is
`.ok` when the loop ends, and the `chunk_id` of the final log line is the state's. -/
def importChunkedLoop (totalBlocks chunkBlocks : Int) (imported : Nat → Bool) :
    Nat → ImportState → Option (Except ImportState ImportState)
  | 0, _ => none
  | fuel + 1, state =>
      if state.block < totalBlocks then
        let chunkEnd := chunkEnd totalBlocks chunkBlocks state.block
        let ranges := state.ranges ++ [(state.block, chunkEnd)]
        if imported state.chunkId then
          importChunkedLoop totalBlocks chunkBlocks imported fuel
            ⟨chunkEnd, state.chunkId + 1, ranges⟩
        else some (.error { state with ranges })
      else some (.ok state)

/-- `import_chunked` from its initial state. -/
def importChunked (totalBlocks chunkBlocks : Int) (imported : Nat → Bool) (fuel : Nat) :
    Option (Except ImportState ImportState) :=
  importChunkedLoop totalBlocks chunkBlocks imported fuel ImportState.initial

/-! ## One pass -/

/-- Without a wrap the end of a chunk is the smaller of `block + CHUNK_BLOCKS` and
`TOTAL_BLOCKS`. -/
theorem chunkEnd_eq {totalBlocks chunkBlocks block : Int} (low : -2 ^ 63 ≤ block + chunkBlocks)
    (high : block + chunkBlocks < 2 ^ 63) :
    chunkEnd totalBlocks chunkBlocks block = min (block + chunkBlocks) totalBlocks := by
  rw [chunkEnd, wrap_of_fits ⟨low, high⟩, min_def]
  split_ifs <;> omega

theorem importChunkedLoop_done {totalBlocks chunkBlocks : Int} {imported : Nat → Bool}
    {fuel : Nat} {state : ImportState} (reached : totalBlocks ≤ state.block) :
    importChunkedLoop totalBlocks chunkBlocks imported (fuel + 1) state = some (.ok state) := by
  rw [importChunkedLoop, if_neg (not_lt.mpr reached)]

theorem importChunkedLoop_next {totalBlocks chunkBlocks : Int} {imported : Nat → Bool}
    {fuel : Nat} {state : ImportState} (below : state.block < totalBlocks)
    (success : imported state.chunkId = true) :
    importChunkedLoop totalBlocks chunkBlocks imported (fuel + 1) state =
      importChunkedLoop totalBlocks chunkBlocks imported fuel
        ⟨chunkEnd totalBlocks chunkBlocks state.block, state.chunkId + 1,
          state.ranges ++ [(state.block, chunkEnd totalBlocks chunkBlocks state.block)]⟩ := by
  rw [importChunkedLoop, if_pos below, if_pos success]

theorem importChunkedLoop_stop {totalBlocks chunkBlocks : Int} {imported : Nat → Bool}
    {fuel : Nat} {state : ImportState} (below : state.block < totalBlocks)
    (failure : imported state.chunkId = false) :
    importChunkedLoop totalBlocks chunkBlocks imported (fuel + 1) state =
      some (.error { state with
        ranges :=
          state.ranges ++ [(state.block, chunkEnd totalBlocks chunkBlocks state.block)] }) := by
  rw [importChunkedLoop, if_pos below, if_neg (by simp [failure])]

/-! ## A whole run -/

section Positive

variable {totalBlocks chunkBlocks : Int} {imported : Nat → Bool}

/-- The state after `k` chunks: `block` at the end of chunk `k - 1`, and the first `k` chunks
passed to `era2rlp`. -/
def stateAfter (totalBlocks chunkBlocks : Int) (k : Nat) : ImportState :=
  ⟨min (k * chunkBlocks) totalBlocks, k, chunks totalBlocks chunkBlocks k⟩

theorem stateAfter_block {k : Nat} (below : k * chunkBlocks < totalBlocks) :
    (stateAfter totalBlocks chunkBlocks k).block = k * chunkBlocks :=
  min_eq_left below.le

/-- The loop computes the end of chunk `k` from its start. -/
theorem chunkEnd_mul (positive : 0 < chunkBlocks) (no_wrap : totalBlocks + chunkBlocks < 2 ^ 63)
    {k : Nat} (below : k * chunkBlocks < totalBlocks) :
    chunkEnd totalBlocks chunkBlocks (k * chunkBlocks) = (chunk totalBlocks chunkBlocks k).2 := by
  have start_nonneg : 0 ≤ (k : Int) * chunkBlocks := by positivity
  rw [chunkEnd_eq (by linarith) (by linarith), chunk, add_mul, one_mul]

/-- The run lemma: while the chunks succeed, `k` passes lead to `stateAfter k`.  Each step is
`importChunkedLoop_next` at `stateAfter k`, whose `block` is `k * CHUNK_BLOCKS`, below
`TOTAL_BLOCKS`. -/
theorem importChunked_add (positive : 0 < chunkBlocks) (nonneg : 0 ≤ totalBlocks)
    (no_wrap : totalBlocks + chunkBlocks < 2 ^ 63) (fuel : Nat) {k : Nat}
    (within : k ≤ chunkCount totalBlocks chunkBlocks) (success : ∀ j < k, imported j = true) :
    importChunked totalBlocks chunkBlocks imported (k + fuel) =
      importChunkedLoop totalBlocks chunkBlocks imported fuel
        (stateAfter totalBlocks chunkBlocks k) := by
  induction k generalizing fuel with
  | zero =>
    rw [Nat.zero_add]
    show importChunkedLoop totalBlocks chunkBlocks imported fuel ImportState.initial = _
    rw [stateAfter, Nat.cast_zero, zero_mul, min_eq_left nonneg]
    rfl
  | succ k ih =>
    have below : k * chunkBlocks < totalBlocks := (lt_chunkCount_iff positive).mp (by omega)
    have block_eq := stateAfter_block below
    rw [show k + 1 + fuel = k + (fuel + 1) by omega, ih (fuel + 1) (by omega)
      (fun j before => success j (by omega)),
      importChunkedLoop_next (by rw [block_eq]; exact below) (success k (by omega)), block_eq,
      chunkEnd_mul positive no_wrap below]
    rw [stateAfter, stateAfter, chunks_succ, chunk, Nat.cast_succ]

end Positive

/-- With `CHUNK_BLOCKS=0` the end of every chunk is `0`: while the commands succeed, a loop at
block `0` below `TOTAL_BLOCKS` runs out of every fuel. -/
theorem importChunkedLoop_zero_chunk {totalBlocks : Int} (positive : 0 < totalBlocks)
    {imported : Nat → Bool} (success : ∀ k, imported k = true) (fuel : Nat) {state : ImportState}
    (start : state.block = 0) : importChunkedLoop totalBlocks 0 imported fuel state = none := by
  induction fuel generalizing state with
  | zero => rfl
  | succ fuel ih =>
    have stays : chunkEnd totalBlocks 0 state.block = 0 := by
      rw [start, chunkEnd_eq (by norm_num) (by norm_num), add_zero, min_eq_left positive.le]
    rw [importChunkedLoop_next (by rw [start]; exact positive) (success _)]
    exact ih stays

/-- `import_chunked` with a positive `CHUNK_BLOCKS` and no wrap of `block + CHUNK_BLOCKS` passes to
`era2rlp` the ranges `(k * CHUNK_BLOCKS, min ((k + 1) * CHUNK_BLOCKS) TOTAL_BLOCKS)` for `k` below
`⌈TOTAL_BLOCKS / CHUNK_BLOCKS⌉`, which run from `0` to `TOTAL_BLOCKS`, each non-empty and starting
where the one before ends.  When every chunk succeeds the loop then ends with `block` at
`TOTAL_BLOCKS` and `chunk_id` at the number of chunks; otherwise the script stops at the first chunk
that fails, after passing its range.  With `CHUNK_BLOCKS=0` and blocks to import the loop never
ends while its commands succeed. -/
theorem import_chunked_tiles {totalBlocks chunkBlocks : Int} (nonneg : 0 ≤ totalBlocks)
    (no_wrap : totalBlocks + chunkBlocks < 2 ^ 63) (imported : Nat → Bool) :
    (0 < chunkBlocks →
      Tiles 0 totalBlocks (chunks totalBlocks chunkBlocks (chunkCount totalBlocks chunkBlocks)) ∧
      ((∀ k < chunkCount totalBlocks chunkBlocks, imported k = true) →
        importChunked totalBlocks chunkBlocks imported (chunkCount totalBlocks chunkBlocks + 1) =
          some (.ok ⟨totalBlocks, chunkCount totalBlocks chunkBlocks,
            chunks totalBlocks chunkBlocks (chunkCount totalBlocks chunkBlocks)⟩)) ∧
      (∀ k < chunkCount totalBlocks chunkBlocks, (∀ j < k, imported j = true) →
        imported k = false →
        importChunked totalBlocks chunkBlocks imported (k + 1) =
          some (.error ⟨k * chunkBlocks, k, chunks totalBlocks chunkBlocks (k + 1)⟩))) ∧
    (chunkBlocks = 0 → 0 < totalBlocks → (∀ k, imported k = true) →
      ∀ fuel, importChunked totalBlocks chunkBlocks imported fuel = none) := by
  refine ⟨fun positive => ⟨tiles_chunks positive nonneg, fun success => ?_,
    fun k before success failure => ?_⟩, ?_⟩
  · -- after the last chunk `block` is at `TOTAL_BLOCKS`, and one more test ends the loop
    have reached : (stateAfter totalBlocks chunkBlocks (chunkCount totalBlocks chunkBlocks)).block =
        totalBlocks :=
      min_eq_right (le_chunkCount_mul positive)
    have finish : importChunkedLoop totalBlocks chunkBlocks imported 1
        (stateAfter totalBlocks chunkBlocks (chunkCount totalBlocks chunkBlocks)) =
          some (.ok (stateAfter totalBlocks chunkBlocks (chunkCount totalBlocks chunkBlocks))) :=
      importChunkedLoop_done reached.ge
    rw [importChunked_add positive nonneg no_wrap 1 le_rfl success, finish,
      stateAfter, min_eq_right (le_chunkCount_mul positive)]
  · have below : k * chunkBlocks < totalBlocks := (lt_chunkCount_iff positive).mp before
    have stop : importChunkedLoop totalBlocks chunkBlocks imported 1
        (stateAfter totalBlocks chunkBlocks k) = _ :=
      importChunkedLoop_stop (by rw [stateAfter_block below]; exact below) failure
    rw [importChunked_add positive nonneg no_wrap 1 before.le success, stop,
      stateAfter_block below, chunkEnd_mul positive no_wrap below, stateAfter, chunks_succ]
    rfl
  · intro zero positive success fuel
    subst zero
    exact importChunkedLoop_zero_chunk positive success fuel rfl

theorem import_chunked_tiles_ten_by_four :
    (0 : Int) ≤ 10 ∧ (10 : Int) + 4 < 2 ^ 63 ∧
      importChunked 10 4 (fun _ => true) (chunkCount 10 4 + 1) =
        some (.ok ⟨10, chunkCount 10 4, chunks 10 4 (chunkCount 10 4)⟩) :=
  ⟨by norm_num, by norm_num,
    ((import_chunked_tiles (by norm_num) (by norm_num) fun _ => true).1 (by norm_num)).2.1
      fun _ _ => rfl⟩

example : importChunked 10 4 (fun _ => true) 4 = some (.ok ⟨10, 3, [(0, 4), (4, 8), (8, 10)]⟩) :=
  rfl

end Ethereum
end FdpBench
