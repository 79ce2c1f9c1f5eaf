import FdpBench.IoChurn.Objects
import FdpBench.Lib.Lcg

/-!
# `generate_blob_data`

Each iteration sets `state = (state * 1103515245 + 12345) % 2147483648` and pushes
`(state % 256) as u8`; the checked `u64` product aborts the first iteration for a large seed.  As
256 divides `2^31`, the bytes depend on the seed modulo 256 only (`Lcg.iterate_mod_of_dvd`).
-/

namespace FdpBench
namespace IoChurn

/-- One iteration of the `generate_blob_data` loop: the next state and the byte it pushes. -/
def blobStep (state : U64) : MoveResult (U64 × U8) := do
  let product ← Move.mul state 1103515245
  let next ← Move.add product 12345
  let state := next % 2147483648
  let byte ← Move.cast 8 (state % 256)
  return (state, byte)

/-- The loop of `generate_blob_data` with `remaining` of its `size` iterations left. -/
def generateBlobDataLoop : Nat → U64 → List U8 → MoveResult (List U8)
  | 0, _, data => .ok data
  | remaining + 1, state, data => do
      let (state, byte) ← blobStep state
      generateBlobDataLoop remaining state (data ++ [byte])

/-- `generate_blob_data(seed, size)`: `size` iterations from `state = seed`. -/
def generateBlobData (seed size : U64) : MoveResult (List U8) :=
  generateBlobDataLoop size.toNat seed []

/-! ## The generator on exact integers -/

/-- The state update, computed without overflow. -/
def lcgNext : Nat → Nat := Lcg.step 1103515245 12345 2147483648

/-- The bytes pushed by `count` iterations from a state, when none of them aborts. -/
def blobBytes : Nat → Nat → List U8
  | _, 0 => []
  | state, count + 1 => BitVec.ofNat 8 (lcgNext state) :: blobBytes (lcgNext state) count

/-- The first multiplication and addition of an iteration fit in a `u64`. -/
def StepFits (state : Nat) : Prop := state * 1103515245 + 12345 < 2 ^ 64

instance (state : Nat) : Decidable (StepFits state) :=
  inferInstanceAs (Decidable (_ < _))

theorem lcgNext_lt (state : Nat) : lcgNext state < 2 ^ 31 :=
  Lcg.step_lt (by norm_num) state

/-- Every state after the first is small enough for the next iteration. -/
theorem stepFits_of_lt {state : Nat} (small : state < 2 ^ 31) : StepFits state := by
  unfold StepFits
  have product_lt : state * 1103515245 < 2 ^ 31 * 1103515245 := by gcongr
  linarith

theorem stepFits_lcgNext (state : Nat) : StepFits (lcgNext state) :=
  stepFits_of_lt (lcgNext_lt state)

theorem multiplier_toNat : (1103515245 : U64).toNat = 1103515245 := rfl

theorem increment_toNat : (12345 : U64).toNat = 12345 := rfl

theorem blobStep_of_fits {state : U64} (fits : StepFits state.toNat) :
    blobStep state = .ok (BitVec.ofNat 64 (lcgNext state.toNat),
      BitVec.ofNat 8 (lcgNext state.toNat)) := by
  unfold StepFits at fits
  have product_fits : state.toNat * (1103515245 : U64).toNat < 2 ^ 64 := by
    rw [multiplier_toNat]
    linarith
  have product_value : (state * 1103515245).toNat = state.toNat * 1103515245 := by
    rw [BitVec.toNat_mul, Nat.mod_eq_of_lt product_fits, multiplier_toNat]
  have sum_fits : (state * 1103515245).toNat + (12345 : U64).toNat < 2 ^ 64 := by
    rw [product_value, increment_toNat]
    exact fits
  have next_lt : lcgNext state.toNat < 2 ^ 64 :=
    (lcgNext_lt state.toNat).trans (by norm_num)
  have next_value : (state * 1103515245 + 12345) % 2147483648 =
      BitVec.ofNat 64 (lcgNext state.toNat) := by
    apply BitVec.eq_of_toNat_eq
    rw [BitVec.toNat_umod, BitVec.toNat_add, Nat.mod_eq_of_lt sum_fits, product_value,
      increment_toNat, BitVec.toNat_ofNat, Nat.mod_eq_of_lt next_lt]
    rfl
  have byte_lt : ((BitVec.ofNat 64 (lcgNext state.toNat)) % 256).toNat < 2 ^ 8 := by
    rw [BitVec.toNat_umod]
    exact Nat.mod_lt _ (by decide)
  have byte_value : (BitVec.ofNat 64 (lcgNext state.toNat) % 256).setWidth 8 =
      BitVec.ofNat 8 (lcgNext state.toNat) := by
    apply BitVec.eq_of_toNat_eq
    rw [BitVec.toNat_setWidth, BitVec.toNat_umod, BitVec.toNat_ofNat, BitVec.toNat_ofNat,
      Nat.mod_eq_of_lt next_lt, show (256 : U64).toNat = 256 from rfl]
    omega
  unfold blobStep
  rw [Move.mul_of_lt product_fits, Except.ok_bind, Move.add_of_lt sum_fits, Except.ok_bind]
  -- the `let state := next % 2147483648` of the loop body
  dsimp only
  rw [next_value, Move.cast_of_lt byte_lt, Except.ok_bind, byte_value]
  rfl

theorem blobStep_of_not_fits {state : U64} (overflow : ¬ StepFits state.toNat) :
    blobStep state = .error .arithmeticError := by
  unfold StepFits at overflow
  by_cases product_fits : state.toNat * (1103515245 : U64).toNat < 2 ^ 64
  · have sum_overflows : 2 ^ 64 ≤ (state * 1103515245).toNat + (12345 : U64).toNat := by
      rw [BitVec.toNat_mul, Nat.mod_eq_of_lt product_fits, multiplier_toNat, increment_toNat]
      exact not_lt.mp overflow
    have sum_aborts := Move.add_eq_error_iff.mpr ⟨sum_overflows, rfl⟩
    unfold blobStep
    rw [Move.mul_of_lt product_fits, Except.ok_bind, sum_aborts, Except.error_bind]
  · have product_aborts := Move.mul_eq_error_iff.mpr ⟨not_lt.mp product_fits, rfl⟩
    unfold blobStep
    rw [product_aborts, Except.error_bind]

/-- From a state whose first iteration fits, the loop pushes exactly `blobBytes`. -/
theorem generateBlobDataLoop_of_fits (remaining : Nat) {state : U64} (data : List U8)
    (fits : StepFits state.toNat) :
    generateBlobDataLoop remaining state data = .ok (data ++ blobBytes state.toNat remaining) := by
  induction remaining generalizing state data with
  | zero => rw [generateBlobDataLoop, blobBytes, List.append_nil]
  | succ remaining induction =>
      have next_lt : lcgNext state.toNat < 2 ^ 64 :=
        (lcgNext_lt state.toNat).trans (by norm_num)
      have next_fits : StepFits (BitVec.ofNat 64 (lcgNext state.toNat)).toNat := by
        rw [BitVec.toNat_ofNat, Nat.mod_eq_of_lt next_lt]
        exact stepFits_lcgNext _
      have rest := induction (data ++ [BitVec.ofNat 8 (lcgNext state.toNat)]) next_fits
      rw [BitVec.toNat_ofNat, Nat.mod_eq_of_lt next_lt] at rest
      rw [generateBlobDataLoop, blobStep_of_fits fits, Except.ok_bind]
      dsimp only
      rw [rest, blobBytes, List.append_assoc, List.singleton_append]

/-- What `generate_blob_data` does: it aborts exactly when it runs at least once and the first
multiplication or addition overflows, and otherwise returns `blobBytes` of the seed. -/
theorem generateBlobData_eq (seed size : U64) :
    generateBlobData seed size =
      if size.toNat = 0 ∨ StepFits seed.toNat then .ok (blobBytes seed.toNat size.toNat)
      else .error .arithmeticError := by
  unfold generateBlobData
  split
  case isTrue runs_fine =>
    rcases runs_fine with empty | fits
    · rw [empty, generateBlobDataLoop, blobBytes]
    · simpa using generateBlobDataLoop_of_fits size.toNat [] fits
  case isFalse aborts =>
    obtain ⟨nonempty, overflow⟩ := not_or.mp aborts
    obtain ⟨remaining, size_eq⟩ := Nat.exists_eq_succ_of_ne_zero nonempty
    rw [size_eq, generateBlobDataLoop, blobStep_of_not_fits overflow, Except.error_bind]

/-! ## The bytes -/

@[simp]
theorem blobBytes_length (state count : Nat) : (blobBytes state count).length = count := by
  induction count generalizing state with
  | zero => rfl
  | succ count induction => simp [blobBytes, induction]

/-- Byte `k` is the `k + 1`-st state modulo 256. -/
theorem blobBytes_getElem (state count k : Nat) (k_lt : k < (blobBytes state count).length) :
    (blobBytes state count)[k] = BitVec.ofNat 8 (lcgNext^[k + 1] state) := by
  induction count generalizing state k with
  | zero => simp at k_lt
  | succ count induction =>
      cases k with
      | zero => simp only [blobBytes, List.getElem_cons_zero, zero_add, Function.iterate_one]
      | succ k =>
          simp only [blobBytes, List.getElem_cons_succ]
          rw [induction, Function.iterate_succ_apply lcgNext (k + 1)]

/-- The low byte of one generator step: `g(x) = (109 * x + 57) mod 256`. -/
def byteStep (x : Nat) : Nat := (109 * x + 57) % 256

theorem byteStep_eq_step : byteStep = Lcg.step 109 57 256 := by
  funext x
  unfold byteStep Lcg.step
  rw [Nat.mul_comm]

/-- The low byte of the state follows `byteStep`. -/
theorem lcgNext_iterate_mod (steps state : Nat) :
    lcgNext^[steps] state % 256 = byteStep^[steps] (state % 256) := by
  have divides : 256 ∣ 2147483648 := by norm_num
  have reduced : Lcg.step 1103515245 12345 256 = byteStep := by
    funext x
    rw [Lcg.step_mod_coefficients, byteStep_eq_step]
  rw [lcgNext, Lcg.iterate_mod_of_dvd divides, reduced]

/-- `byteStep` returns every byte after 256 steps: its multiplier is 1 modulo 4 and its
increment is odd, and eight squarings of the step give the identity. -/
theorem byteStep_iterate_256 {x : Nat} (small : x < 256) : byteStep^[256] x = x := by
  have coefficients : Lcg.doubled 109 57 256 8 = (1, 0) := by decide
  have period := @Lcg.iterate_two_pow 109 57 256 8 x
  rw [coefficients, show (2 : Nat) ^ 8 = 256 from rfl] at period
  rw [byteStep_eq_step, period]
  simp [Lcg.step, Nat.mod_eq_of_lt small]

/-- Byte `k` is the low byte after `k + 1` steps of `byteStep` from the seed's low byte. -/
theorem blobBytes_getElem_toNat (state count k : Nat) (k_lt : k < (blobBytes state count).length) :
    (blobBytes state count)[k].toNat = byteStep^[k + 1] (state % 256) % 256 := by
  rw [blobBytes_getElem, BitVec.toNat_ofNat, show (2 : Nat) ^ 8 = 256 from rfl,
    lcgNext_iterate_mod, Function.iterate_succ_apply', byteStep, Nat.mod_mod]

/-- The bytes repeat with period 256. -/
theorem blobBytes_getElem_add_256 (state count k : Nat)
    (k_lt : k + 256 < (blobBytes state count).length) :
    (blobBytes state count)[k + 256] = (blobBytes state count)[k] := by
  apply BitVec.eq_of_toNat_eq
  rw [blobBytes_getElem_toNat, blobBytes_getElem_toNat, show k + 256 + 1 = (k + 1) + 256 by omega,
    Function.iterate_add_apply, byteStep_iterate_256 (Nat.mod_lt _ (by norm_num))]

/-- Seeds that agree modulo 256 produce the same bytes: the higher bits of the state never
reach its low byte. -/
theorem blobBytes_congr {state state' : Nat} (same : state % 256 = state' % 256) (count : Nat) :
    blobBytes state count = blobBytes state' count := by
  induction count generalizing state state' with
  | zero => rfl
  | succ count induction =>
      have divides : 256 ∣ 2147483648 := by norm_num
      have next_same : lcgNext state % 256 = lcgNext state' % 256 := by
        rw [lcgNext, Lcg.step_mod_of_dvd divides, Lcg.step_mod_of_dvd divides, same]
      have byte_same : BitVec.ofNat 8 (lcgNext state) = BitVec.ofNat 8 (lcgNext state') := by
        apply BitVec.eq_of_toNat_eq
        simpa using next_same
      rw [blobBytes, blobBytes, byte_same, induction next_same]

/-- `generate_blob_data(seed, size)` aborts exactly when it runs at least once and
`seed * 1103515245 + 12345` overflows a `u64`; otherwise it returns `size` bytes, byte `k` being
`g^(k+1)(seed mod 256) mod 256`, so that the bytes depend on the seed modulo 256 only and repeat
with period 256. -/
theorem generateBlobData_exact (seed size : U64) :
    (generateBlobData seed size = .error .arithmeticError ↔
        0 < size.toNat ∧ 2 ^ 64 ≤ seed.toNat * 1103515245 + 12345) ∧
      (¬(0 < size.toNat ∧ 2 ^ 64 ≤ seed.toNat * 1103515245 + 12345) →
        ∃ data, generateBlobData seed size = .ok data ∧ data.length = size.toNat ∧
          (∀ k (bound : k < data.length),
            data[k].toNat = byteStep^[k + 1] (seed.toNat % 256) % 256) ∧
          ∀ k (bound : k + 256 < data.length), data[k + 256] = data[k]) := by
  have runs_fine_iff : (size.toNat = 0 ∨ StepFits seed.toNat) ↔
      ¬(0 < size.toNat ∧ 2 ^ 64 ≤ seed.toNat * 1103515245 + 12345) := by
    rw [not_and_or, Nat.not_lt, Nat.le_zero, Nat.not_le, StepFits]
  rw [generateBlobData_eq]
  split
  case isTrue runs_fine =>
    refine ⟨?_, fun _ => ⟨_, rfl, blobBytes_length _ _, blobBytes_getElem_toNat _ _,
      blobBytes_getElem_add_256 _ _⟩⟩
    simp only [reduceCtorEq, false_iff]
    exact runs_fine_iff.mp runs_fine
  case isFalse aborts =>
    have overflows := not_not.mp (mt runs_fine_iff.mpr aborts)
    exact ⟨⟨fun _ => overflows, fun _ => rfl⟩, fun runs_fine => absurd overflows runs_fine⟩

end IoChurn
end FdpBench
