import Mathlib

/-!
# Checked unsigned arithmetic on fixed-width words

With overflow checks (Move always, Rust with `overflow-checks`) `+`, `*` and width conversions
return `none` exactly when the exact result does not fit, and otherwise the word holding it.
Atomic counters wrap instead; `2^w` values handed out in a row are distinct.
-/

namespace Checked

variable {w : Nat}

/-- Unsigned addition that fails instead of wrapping. -/
def add (x y : BitVec w) : Option (BitVec w) :=
  if x.toNat + y.toNat < 2 ^ w then some (x + y) else none

/-- Unsigned multiplication that fails instead of wrapping. -/
def mul (x y : BitVec w) : Option (BitVec w) :=
  if x.toNat * y.toNat < 2 ^ w then some (x * y) else none

/-- Conversion to width `v` that fails when the value does not fit. -/
def cast (v : Nat) (x : BitVec w) : Option (BitVec v) :=
  if x.toNat < 2 ^ v then some (x.setWidth v) else none

/-- Each operation returns the word of its exact result when that fits. -/
theorem guarded_eq_some_iff {v exact : Nat} {result z : BitVec v}
    (value : result.toNat = exact % 2 ^ v) :
    (if exact < 2 ^ v then some result else none) = some z ↔
      exact < 2 ^ v ∧ z.toNat = exact := by
  split
  case isTrue fits =>
    rw [Nat.mod_eq_of_lt fits] at value
    constructor
    · rintro ⟨⟩
      exact ⟨fits, value⟩
    · rintro ⟨-, same⟩
      rw [show result = z from BitVec.eq_of_toNat_eq (value.trans same.symm)]
  case isFalse overflows => simp [overflows]

/-- Each operation fails exactly when its exact result does not fit. -/
theorem guarded_eq_none_iff {v exact : Nat} {result : BitVec v} :
    (if exact < 2 ^ v then some result else none) = none ↔ 2 ^ v ≤ exact := by
  split
  case isTrue fits => simp only [reduceCtorEq, false_iff, Nat.not_le, fits]
  case isFalse overflows => simp only [true_iff]; omega

theorem add_eq_some_iff {x y z : BitVec w} :
    add x y = some z ↔ x.toNat + y.toNat < 2 ^ w ∧ z.toNat = x.toNat + y.toNat :=
  guarded_eq_some_iff (BitVec.toNat_add x y)

theorem add_eq_none_iff {x y : BitVec w} : add x y = none ↔ 2 ^ w ≤ x.toNat + y.toNat :=
  guarded_eq_none_iff

theorem mul_eq_none_iff {x y : BitVec w} : mul x y = none ↔ 2 ^ w ≤ x.toNat * y.toNat :=
  guarded_eq_none_iff

/-- A sum that fits is the exact sum. -/
theorem add_of_lt {x y : BitVec w} (fits : x.toNat + y.toNat < 2 ^ w) :
    add x y = some (x + y) := if_pos fits

/-- A product that fits is the exact product. -/
theorem mul_of_lt {x y : BitVec w} (fits : x.toNat * y.toNat < 2 ^ w) :
    mul x y = some (x * y) := if_pos fits

/-- A value that fits converts without loss. -/
theorem cast_of_lt {v : Nat} {x : BitVec w} (fits : x.toNat < 2 ^ v) :
    cast v x = some (x.setWidth v) := if_pos fits

/-! ## Wrapping counters -/

/-- The `k`-th value of a run of wrapping increments from `start` is `start + k` modulo `2^w`. -/
theorem getElem_toNat_of_isChain_succ {start : BitVec w} {rest : List (BitVec w)}
    (chain : (start :: rest).IsChain fun value next => next = value + 1) (k : Nat)
    (bound : k < (start :: rest).length) :
    ((start :: rest)[k]).toNat = (start.toNat + k) % 2 ^ w := by
  induction rest generalizing start k with
  | nil =>
      obtain rfl : k = 0 := by simpa using bound
      simp [Nat.mod_eq_of_lt start.isLt]
  | cons next rest induction =>
      obtain ⟨succ, chain⟩ := List.isChain_cons_cons.mp chain
      cases k with
      | zero => simp [Nat.mod_eq_of_lt start.isLt]
      | succ k =>
          have shorter : k < (next :: rest).length := by simpa using bound
          have one : (1 : BitVec w).toNat = 1 % 2 ^ w := BitVec.toNat_ofNat 1 w
          rw [List.getElem_cons_succ, induction chain k shorter, succ, BitVec.toNat_add,
            one, Nat.mod_add_mod, Nat.add_right_comm, Nat.add_mod_mod, Nat.add_assoc]

/-- At most `2^w` successive wrapping increments hand out distinct values. -/
theorem nodup_of_isChain_succ {values : List (BitVec w)}
    (chain : values.IsChain fun value next => next = value + 1) (short : values.length ≤ 2 ^ w) :
    values.Nodup := by
  cases values with
  | nil => exact List.nodup_nil
  | cons start rest =>
      apply List.pairwise_iff_getElem.mpr
      intro i j i_lt j_lt before same
      have values_eq := congrArg BitVec.toNat same
      rw [getElem_toNat_of_isChain_succ chain i i_lt, getElem_toNat_of_isChain_succ chain j j_lt]
        at values_eq
      have offsets : i ≡ j [MOD 2 ^ w] := Nat.ModEq.add_left_cancel' start.toNat values_eq
      rw [Nat.ModEq, Nat.mod_eq_of_lt (by omega), Nat.mod_eq_of_lt (by omega)] at offsets
      omega

end Checked
