import Mathlib.Data.Nat.Digits.Defs

/-!
# Fixed-width digit encodings

A word of a fixed number of digits in base `b` is written least significant digit first by a
loop that emits `n % b` and divides `n` by `b`, and read back most significant digit first by a
loop that multiplies the accumulator by `b` and adds the next digit.  Both are related here to
`Nat.ofDigits`, from which injectivity and bounds follow.
-/

namespace ByteCodec

/-- The `count` least significant base-`b` digits of `n`, least significant first. -/
def fixedDigits (b : Nat) : Nat → Nat → List Nat
  | 0, _ => []
  | count + 1, n => n % b :: fixedDigits b count (n / b)

/-- Most-significant-first reading: the accumulator is multiplied by `b` before each digit. -/
def foldBigEndian (b : Nat) (digits : List Nat) : Nat :=
  digits.foldl (fun acc digit => acc * b + digit) 0

variable {b : Nat}

@[simp]
theorem fixedDigits_length (count n : Nat) : (fixedDigits b count n).length = count := by
  induction count generalizing n with
  | zero => rfl
  | succ count induction => simp [fixedDigits, induction]

/-- The digits represent the number modulo `b ^ count`. -/
theorem ofDigits_fixedDigits (count n : Nat) :
    Nat.ofDigits b (fixedDigits b count n) = n % b ^ count := by
  induction count generalizing n with
  | zero => simp [fixedDigits, Nat.mod_one]
  | succ count induction =>
      rw [fixedDigits, Nat.ofDigits_cons, induction, pow_succ', Nat.mod_mul]

/-- Distinct numbers below `b ^ count` have distinct digit lists. -/
theorem fixedDigits_injective {count n m : Nat} (n_lt : n < b ^ count) (m_lt : m < b ^ count)
    (same : fixedDigits b count n = fixedDigits b count m) : n = m := by
  have values := congrArg (Nat.ofDigits b) same
  rwa [ofDigits_fixedDigits, ofDigits_fixedDigits, Nat.mod_eq_of_lt n_lt,
    Nat.mod_eq_of_lt m_lt] at values

/-- Digits are injective on pairs: concatenating two fixed-width encodings loses nothing. -/
theorem fixedDigits_append_injective {count n m n' m' : Nat} (n_lt : n < b ^ count)
    (m_lt : m < b ^ count) (n'_lt : n' < b ^ count) (m'_lt : m' < b ^ count)
    (same : fixedDigits b count n ++ fixedDigits b count m =
      fixedDigits b count n' ++ fixedDigits b count m') :
    n = n' ∧ m = m' := by
  obtain ⟨first, second⟩ := List.append_inj same (by simp)
  exact ⟨fixedDigits_injective n_lt n'_lt first, fixedDigits_injective m_lt m'_lt second⟩

theorem foldl_bigEndian (start : Nat) (digits : List Nat) :
    digits.foldl (fun acc digit => acc * b + digit) start =
      start * b ^ digits.length + Nat.ofDigits b digits.reverse := by
  induction digits generalizing start with
  | nil => simp
  | cons digit digits induction =>
      rw [List.foldl_cons, induction, List.reverse_cons, Nat.ofDigits_append]
      simp only [List.length_cons, List.length_reverse, Nat.ofDigits_singleton, pow_succ]
      ring

/-- Reading most significant digit first evaluates the reversed little-endian digits. -/
theorem foldBigEndian_eq (digits : List Nat) :
    foldBigEndian b digits = Nat.ofDigits b digits.reverse := by
  simp [foldBigEndian, foldl_bigEndian]

theorem foldBigEndian_lt (base : 1 < b) {digits : List Nat} (small : ∀ digit ∈ digits, digit < b) :
    foldBigEndian b digits < b ^ digits.length := by
  rw [foldBigEndian_eq, ← List.length_reverse]
  exact Nat.ofDigits_lt_base_pow_length base (by simpa using small)

/-- Two digit lists of equal length with the same value are equal. -/
theorem foldBigEndian_injective (base : 1 < b) {first second : List Nat}
    (length : first.length = second.length) (first_small : ∀ digit ∈ first, digit < b)
    (second_small : ∀ digit ∈ second, digit < b)
    (same : foldBigEndian b first = foldBigEndian b second) : first = second := by
  rw [foldBigEndian_eq, foldBigEndian_eq] at same
  have reversed := Nat.ofDigits_inj_of_len_eq base (by simpa using length)
    (by simpa using first_small) (by simpa using second_small) same
  exact List.reverse_inj.mp reversed

end ByteCodec
