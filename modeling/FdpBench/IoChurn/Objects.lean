import FdpBench.Lib.Checked
import FdpBench.Lib.Except

/-!
# Objects of the `io_churn` Move module

The `MicroCounter` and 4 KB `LargeBlob` objects of `io_churn.move`.  Move's integers are
fixed-width words whose `+`, `*` and `as` abort out of range, so a function that may abort returns
a `MoveResult`.  What the module reads from the Sui framework (sender, epoch, clock, fresh ids) is
a value here; `CounterBatch` is never constructed and is left out.
-/

namespace FdpBench
namespace IoChurn

/-- Move's `u8`. -/
abbrev U8 := BitVec 8

/-- Move's `u64`. -/
abbrev U64 := BitVec 64

/-- Move's `u256`. -/
abbrev U256 := BitVec 256

/-- A Sui `address` (32 bytes). -/
abbrev Address := BitVec 256

/-- The id in an object's `UID`; `object::new` never hands out the same one twice. -/
abbrev ObjectId := Nat

/-- Why a transaction fails; a failed transaction has no effect. -/
inductive ExecutionFailure where
  /-- An overflowing `+` or `*`, or an `as` cast of a value that does not fit. -/
  | arithmeticError
  /-- `assert!` with a false condition, carrying its abort code. -/
  | moveAbort (code : U64)
  /-- An object argument that does not exist, or one object passed twice by reference. -/
  | invalidObjectArgument
  deriving DecidableEq, Repr

/-- The outcome of Move code: a value, or the failure that aborts the transaction. -/
abbrev MoveResult (α : Type) := Except ExecutionFailure α

namespace Move

variable {w : Nat}

/-- An arithmetic result, aborting the transaction when the checked operation fails. -/
def orAbort {α : Type} : Option α → MoveResult α
  | some value => .ok value
  | none => .error .arithmeticError

/-- Move's `+`. -/
def add (x y : BitVec w) : MoveResult (BitVec w) := orAbort (Checked.add x y)

/-- Move's `*`. -/
def mul (x y : BitVec w) : MoveResult (BitVec w) := orAbort (Checked.mul x y)

/-- Move's `as`, to a width of `v` bits. -/
def cast (v : Nat) (x : BitVec w) : MoveResult (BitVec v) := orAbort (Checked.cast v x)

theorem orAbort_eq_ok_iff {α : Type} {result : Option α} {value : α} :
    orAbort result = .ok value ↔ result = some value := by
  cases result with
  | none => simp [orAbort]
  | some found => simp [orAbort]

theorem orAbort_eq_error_iff {α : Type} {result : Option α} {failure : ExecutionFailure} :
    orAbort result = .error failure ↔ result = none ∧ failure = .arithmeticError := by
  cases result with
  | none => simp [orAbort, eq_comm]
  | some found => simp [orAbort]

theorem add_eq_ok_iff {x y z : BitVec w} :
    add x y = .ok z ↔ x.toNat + y.toNat < 2 ^ w ∧ z.toNat = x.toNat + y.toNat := by
  rw [add, orAbort_eq_ok_iff, Checked.add_eq_some_iff]

theorem add_eq_error_iff {x y : BitVec w} {failure : ExecutionFailure} :
    add x y = .error failure ↔
      2 ^ w ≤ x.toNat + y.toNat ∧ failure = .arithmeticError := by
  rw [add, orAbort_eq_error_iff, Checked.add_eq_none_iff]

theorem mul_eq_error_iff {x y : BitVec w} {failure : ExecutionFailure} :
    mul x y = .error failure ↔
      2 ^ w ≤ x.toNat * y.toNat ∧ failure = .arithmeticError := by
  rw [mul, orAbort_eq_error_iff, Checked.mul_eq_none_iff]

theorem add_of_lt {x y : BitVec w} (fits : x.toNat + y.toNat < 2 ^ w) :
    add x y = .ok (x + y) := by
  rw [add, Checked.add_of_lt fits, orAbort]

theorem mul_of_lt {x y : BitVec w} (fits : x.toNat * y.toNat < 2 ^ w) :
    mul x y = .ok (x * y) := by
  rw [mul, Checked.mul_of_lt fits, orAbort]

theorem cast_of_lt {v : Nat} {x : BitVec w} (fits : x.toNat < 2 ^ v) :
    cast v x = .ok (x.setWidth v) := by
  rw [cast, Checked.cast_of_lt fits, orAbort]

end Move

/-- `BLOB_SIZE`: 4 KB per blob, the page size. -/
def blobSize : U64 := 4096

/-- `ENotOwner`: abort code of `set_value` when the sender does not own the counter. -/
def eNotOwner : U64 := 0

/-- `MicroCounter`: a counter of about a hundred bytes whose every update changes its data. -/
structure MicroCounter where
  /-- The object's `UID`. -/
  id : ObjectId
  owner : Address
  value : U64
  /-- Changes on each update, so that versions do not deduplicate. -/
  nonce : U64
  /-- Derived from `value` and `nonce`. -/
  checksum : U256
  /-- `last_update`: a timestamp or epoch. -/
  lastUpdate : U64
  deriving DecidableEq, Repr

/-- `LargeBlob`: a 4 KB object; each update rewrites the whole payload. -/
structure LargeBlob where
  /-- The object's `UID`. -/
  id : ObjectId
  owner : Address
  version : U64
  /-- The pseudo-random payload. -/
  data : List U8
  checksum : U256
  deriving DecidableEq, Repr

/-- What the module reads from a `TxContext`. -/
structure TxContext where
  /-- `tx_context::sender`. -/
  sender : Address
  /-- `tx_context::epoch`. -/
  epoch : U64
  deriving DecidableEq, Repr

/-- What the module reads from the shared `Clock`. -/
structure Clock where
  /-- `clock::timestamp_ms`. -/
  timestampMs : U64
  deriving DecidableEq, Repr

end IoChurn
end FdpBench
