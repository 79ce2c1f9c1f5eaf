import Mathlib.Algebra.Order.Ring.Int
import Mathlib.Tactic.Linarith

/-!
# Cutting an interval into chunks

A loop that walks from `0` towards `total` in steps of `size`, stopping at `total`, cuts
`[0, total]` into `⌈total / size⌉` consecutive chunks: chunk `k` runs from `k * size` to
`min ((k + 1) * size) total`.  `Tiles low high ranges` says that the ranges are non-empty, that each
starts where the one before it ends, and that together they run from `low` to `high`.
-/

namespace Chunking

/-- `ranges` run from `low` to `high`: the first starts at `low`, each is non-empty and starts where
the one before it ends, and the last ends at `high`. -/
def Tiles : Int → Int → List (Int × Int) → Prop
  | low, high, [] => low = high
  | low, high, (start, stop) :: rest => start = low ∧ start < stop ∧ Tiles stop high rest

/-- Chunk `k` of size `size` of `[0, total]`. -/
def chunk (total size : Int) (k : Nat) : Int × Int :=
  (k * size, min ((k + 1) * size) total)

/-- The first `count` chunks, in order. -/
def chunks (total size : Int) (count : Nat) : List (Int × Int) :=
  (List.range count).map (chunk total size)

/-- `⌈total / size⌉`, the number of chunks that reach `total`. -/
def chunkCount (total size : Int) : Nat :=
  ((total + size - 1) / size).toNat

theorem chunks_succ (total size : Int) (count : Nat) :
    chunks total size (count + 1) = chunks total size count ++ [chunk total size count] := by
  rw [chunks, chunks, List.range_succ, List.map_append, List.map_singleton]

/-- A non-empty range that starts where a tiling ends extends it. -/
theorem tiles_append_singleton {low mid : Int} {ranges : List (Int × Int)}
    (tiles : Tiles low mid ranges) {stop : Int} (nonempty : mid < stop) :
    Tiles low stop (ranges ++ [(mid, stop)]) := by
  induction ranges generalizing low with
  | nil =>
    have start : low = mid := tiles
    exact ⟨start.symm, nonempty, rfl⟩
  | cons range rest ih =>
    obtain ⟨first, ordered, later⟩ := tiles
    exact ⟨first, ordered, ih later⟩

section Positive

variable {total size : Int}

/-- Chunk `k` starts below `total` exactly when `k` is below the number of chunks. -/
theorem lt_chunkCount_iff (positive : 0 < size) {k : Nat} :
    k < chunkCount total size ↔ k * size < total := by
  rw [chunkCount, Int.lt_toNat, ← Int.add_one_le_iff, Int.le_ediv_iff_mul_le positive, add_mul,
    one_mul]
  constructor <;> intro bound <;> linarith

/-- The chunks reach `total`. -/
theorem le_chunkCount_mul (positive : 0 < size) : total ≤ chunkCount total size * size :=
  not_lt.mp ((lt_chunkCount_iff positive).not.mp (lt_irrefl _))

/-- The first `k` chunks, for `k` up to the number of chunks, run from `0` to
`min (k * size) total`. -/
theorem tiles_chunks_of_le (positive : 0 < size) (nonneg : 0 ≤ total) {k : Nat}
    (within : k ≤ chunkCount total size) :
    Tiles 0 (min (k * size) total) (chunks total size k) := by
  induction k with
  | zero =>
    show (0 : Int) = min ((0 : Nat) * size) total
    rw [Nat.cast_zero, zero_mul, min_eq_left nonneg]
  | succ k ih =>
    -- chunk `k` still starts below `total`, so the first `k` chunks end at `k * size`
    have below : k * size < total := (lt_chunkCount_iff positive).mp (by omega)
    have earlier := ih (by omega)
    rw [min_eq_left below.le] at earlier
    rw [chunks_succ, chunk, Nat.cast_succ]
    exact tiles_append_singleton earlier (lt_min (by linarith) below)

/-- The chunks run from `0` to `total`. -/
theorem tiles_chunks (positive : 0 < size) (nonneg : 0 ≤ total) :
    Tiles 0 total (chunks total size (chunkCount total size)) := by
  have tiles := tiles_chunks_of_le positive nonneg (le_refl (chunkCount total size))
  rwa [min_eq_right (le_chunkCount_mul positive)] at tiles

end Positive

end Chunking
