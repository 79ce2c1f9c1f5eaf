import Mathlib.Data.List.Nodup
import FdpBench.Lib.Trace

/-!
# Tables of distinct keys with a capacity

A table that tracks at most `cap` records, none of them twice, changes its list of keys in one of
two ways: new keys are appended while there is room, or some of its keys are kept in order (a
truncation, a refresh that drops what no longer exists, an update that keeps every key).  Both
keep the keys distinct and within the capacity, provided appended keys are new.
-/

namespace CappedTable

variable {κ : Type*} (cap : Nat)

/-- The keys are distinct and at most `cap` of them. -/
structure Valid (keys : List κ) : Prop where
  nodup : keys.Nodup
  length_le : keys.length ≤ cap

/-- One change of a table's keys. -/
inductive Change : List κ → List κ → Prop
  /-- Distinct keys, none of them present, appended while the table has room. -/
  | extend {keys fresh : List κ} (distinct : fresh.Nodup) (new : ∀ k ∈ fresh, k ∉ keys) :
      Change keys (keys ++ fresh.take (cap - keys.length))
  /-- Some of the keys, kept in order. -/
  | select {keys kept : List κ} (sub : kept.Sublist keys) : Change keys kept

variable {cap}

theorem valid_nil : Valid cap ([] : List κ) :=
  ⟨List.nodup_nil, Nat.zero_le cap⟩

theorem Valid.extend {keys fresh : List κ} (valid : Valid cap keys) (distinct : fresh.Nodup)
    (new : ∀ k ∈ fresh, k ∉ keys) : Valid cap (keys ++ fresh.take (cap - keys.length)) := by
  have taken_new : ∀ k ∈ fresh.take (cap - keys.length), k ∉ keys :=
    fun k member => new k (List.mem_of_mem_take member)
  constructor
  · rw [List.nodup_append]
    refine ⟨valid.nodup, distinct.sublist (List.take_sublist _ _), ?_⟩
    rintro k present k' taken rfl
    exact taken_new k taken present
  · rw [List.length_append, List.length_take]
    have := valid.length_le
    omega

theorem Valid.select {keys kept : List κ} (valid : Valid cap keys) (sub : kept.Sublist keys) :
    Valid cap kept :=
  ⟨valid.nodup.sublist sub, Nat.le_trans sub.length_le valid.length_le⟩

/-- Every change keeps a valid table valid. -/
theorem Change.valid {keys next : List κ} (change : Change cap keys next) (valid : Valid cap keys) :
    Valid cap next := by
  cases change with
  | extend distinct new => exact valid.extend distinct new
  | select sub => exact valid.select sub

/-- Every sequence of changes keeps a valid table valid. -/
theorem valid_of_changes {keys next : List κ}
    (path : Relation.ReflTransGen (Change cap) keys next) (valid : Valid cap keys) :
    Valid cap next :=
  Trace.path_invariant (fun _ _ valid change => change.valid valid) path valid

end CappedTable
