import Mathlib.Logic.Function.Iterate
import Mathlib.Data.Nat.ModEq

/-!
# Low digits of a linear congruential generator

A generator `x ↦ (x * a + c) mod m` taken modulo a divisor `d` of `m` is the generator with modulus
`d`: the higher digits never reach the lower ones, so the low byte of a power-of-two generator has
period at most 256.  `2^k` steps compose to one affine step by `k` squarings (`iterate_two_pow`).
-/

namespace Lcg

/-- One step `x ↦ (x * a + c) mod m`. -/
def step (a c m x : Nat) : Nat := (x * a + c) % m

variable {a c m d : Nat}

theorem step_lt (positive : 0 < m) (x : Nat) : step a c m x < m :=
  Nat.mod_lt _ positive

/-- Only the coefficients modulo `m` matter. -/
theorem step_mod_coefficients (a c m x : Nat) : step a c m x = step (a % m) (c % m) m x := by
  unfold step
  calc
    (x * a + c) % m = ((x * a) % m + c % m) % m := Nat.add_mod _ _ _
    _ = ((x * (a % m)) % m + c % m) % m := by
      rw [Nat.mul_mod x a, Nat.mul_mod x (a % m), Nat.mod_mod]
    _ = (x * (a % m) + c % m) % m := Nat.mod_add_mod _ _ _

/-- Two steps are one step with the composed coefficients. -/
theorem step_step (a c b d m x : Nat) :
    step b d m (step a c m x) = step (a * b) (c * b + d) m x := by
  unfold step
  calc
    ((x * a + c) % m * b + d) % m = ((x * a + c) % m * b % m + d) % m :=
      (Nat.mod_add_mod _ _ _).symm
    _ = ((x * a + c) * b % m + d) % m := by rw [Nat.mod_mul_mod]
    _ = ((x * a + c) * b + d) % m := Nat.mod_add_mod _ _ _
    _ = (x * (a * b) + (c * b + d)) % m := by rw [Nat.add_mul, Nat.mul_assoc, Nat.add_assoc]

/-- The coefficients of `2^k` steps, reduced modulo `m`: each doubling composes the map with
itself. -/
def doubled (a c m : Nat) : Nat → Nat × Nat
  | 0 => (a % m, c % m)
  | k + 1 => ((doubled a c m k).1 * (doubled a c m k).1 % m,
      ((doubled a c m k).2 * (doubled a c m k).1 + (doubled a c m k).2) % m)

/-- `2^k` steps are one step with the coefficients of `doubled`. -/
theorem iterate_two_pow (k x : Nat) :
    (step a c m)^[2 ^ k] x = step (doubled a c m k).1 (doubled a c m k).2 m x := by
  induction k generalizing x with
  | zero => exact step_mod_coefficients a c m x
  | succ k induction =>
      rw [pow_succ, Nat.mul_two, Function.iterate_add_apply, induction, induction, step_step,
        step_mod_coefficients, doubled]

/-- A step modulo a divisor `d` of `m` is a step modulo `d` of the reduced
state. -/
theorem step_mod_of_dvd (divides : d ∣ m) (x : Nat) :
    step a c m x % d = step a c d (x % d) := by
  unfold step
  rw [Nat.mod_mod_of_dvd _ divides]
  calc
    (x * a + c) % d = ((x * a) % d + c) % d := (Nat.mod_add_mod _ _ _).symm
    _ = ((x % d * a) % d + c) % d := by rw [Nat.mod_mul_mod]
    _ = (x % d * a + c) % d := Nat.mod_add_mod _ _ _

/-- The state reduced modulo a divisor depends only on the seed reduced modulo that divisor. -/
theorem iterate_mod_of_dvd (divides : d ∣ m) (steps x : Nat) :
    (step a c m)^[steps] x % d = (step a c d)^[steps] (x % d) := by
  induction steps with
  | zero => rfl
  | succ steps induction =>
      rw [Function.iterate_succ_apply', Function.iterate_succ_apply', step_mod_of_dvd divides,
        induction]

end Lcg
