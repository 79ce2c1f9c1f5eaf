import Mathlib.Logic.Basic

/-!
# Inverting computations in the `Except` monad

A sequenced computation succeeds exactly when each part does.  Stated once for every error type,
these let a proof peel a `do` block apart with `obtain`, one bind at a time, without unfolding the
functions it calls.
-/

namespace Except

variable {ε α β : Type}

@[simp]
theorem ok_bind (value : α) (next : α → Except ε β) : (Except.ok value >>= next) = next value :=
  rfl

@[simp]
theorem error_bind (failure : ε) (next : α → Except ε β) :
    (Except.error failure >>= next) = .error failure :=
  rfl

@[simp]
theorem pure_eq_ok {value result : α} : (pure value : Except ε α) = .ok result ↔ value = result := by
  constructor
  · intro same
    injection same
  · rintro rfl
    rfl

/-- A sequenced computation succeeds exactly when both parts do. -/
theorem bind_eq_ok {first : Except ε α} {next : α → Except ε β} {result : β} :
    (first >>= next) = .ok result ↔ ∃ value, first = .ok value ∧ next value = .ok result := by
  cases first with
  | error failure => simp
  | ok value => simp

end Except
