import Mathlib.Algebra.BigOperators.Group.List.Basic
import Mathlib.Tactic.Linarith

/-!
# Signed 64-bit words

A signed 64-bit word holds an integer modulo `2 ^ 64`, read back in `[-2 ^ 63, 2 ^ 63)`: `wrap` is
`Int.bmod` by `2 ^ 64`.  It is the identity on that range, and a running sum wrapped after every
addition wraps the sum once, whatever the partial sums do on the way.
-/

namespace Word64

/-- An integer as a signed 64-bit word reads it back. -/
def wrap (value : Int) : Int := value.bmod (2 ^ 64)

/-- The integers a signed 64-bit word holds. -/
def Fits (value : Int) : Prop := -2 ^ 63 ≤ value ∧ value < 2 ^ 63

instance : DecidablePred Fits := fun value =>
  inferInstanceAs (Decidable (-2 ^ 63 ≤ value ∧ value < 2 ^ 63))

theorem wrap_of_fits {value : Int} (fits : Fits value) : wrap value = value :=
  Int.bmod_eq_of_le (by norm_num; exact fits.1) (by norm_num; exact fits.2)

@[simp]
theorem wrap_zero : wrap 0 = 0 := rfl

theorem wrap_add_wrap (first second : Int) : wrap (wrap first + second) = wrap (first + second) :=
  Int.bmod_add_bmod

/-- A left fold that wraps after every addition wraps the sum once. -/
theorem foldl_wrap_add (values : List Int) (start : Int) :
    values.foldl (fun sum value => wrap (sum + value)) (wrap start) = wrap (start + values.sum) := by
  induction values generalizing start with
  | nil => rw [List.foldl_nil, List.sum_nil, add_zero]
  | cons value values induction =>
    rw [List.foldl_cons, wrap_add_wrap, induction, List.sum_cons, add_assoc]

end Word64
