import FdpBench.IoChurn.Invariants

/-!
# Successive versions of a counter

Every counter update adds one to the value and stores the checksum of the new value and nonce, so
along a run of updates that do not abort no two versions hold the same value and, with a hash
injective on 16-byte inputs, none carry the same checksum.
-/

namespace FdpBench
namespace IoChurn

section Versions

variable (keccak256 : List U8 → List U8)

/-- One update of a counter by a function of the increment family: `increment`,
`increment_simple`, or the counter's own part of a `batch_increment_2/4/8`, where it is the
argument at position `i` and the other counters are any. -/
inductive IncrementUpdate : MicroCounter → MicroCounter → Prop
  | increment {counter counter' : MicroCounter} (clock : Clock)
      (update : increment keccak256 counter clock = .ok counter') :
      IncrementUpdate counter counter'
  | incrementSimple {counter counter' : MicroCounter} (ctx : TxContext)
      (update : incrementSimple keccak256 counter ctx = .ok counter') :
      IncrementUpdate counter counter'
  | batchIncrement2 {counter counter' : MicroCounter} (c1 c2 : MicroCounter) (ctx : TxContext)
      (counters : List MicroCounter) (i : Nat)
      (update : batchIncrement2 keccak256 c1 c2 ctx = .ok counters)
      (before : [c1, c2][i]? = some counter) (after : counters[i]? = some counter') :
      IncrementUpdate counter counter'
  | batchIncrement4 {counter counter' : MicroCounter} (c1 c2 c3 c4 : MicroCounter)
      (ctx : TxContext) (counters : List MicroCounter) (i : Nat)
      (update : batchIncrement4 keccak256 c1 c2 c3 c4 ctx = .ok counters)
      (before : [c1, c2, c3, c4][i]? = some counter) (after : counters[i]? = some counter') :
      IncrementUpdate counter counter'
  | batchIncrement8 {counter counter' : MicroCounter} (c1 c2 c3 c4 c5 c6 c7 c8 : MicroCounter)
      (ctx : TxContext) (counters : List MicroCounter) (i : Nat)
      (update : batchIncrement8 keccak256 c1 c2 c3 c4 c5 c6 c7 c8 ctx = .ok counters)
      (before : [c1, c2, c3, c4, c5, c6, c7, c8][i]? = some counter)
      (after : counters[i]? = some counter') :
      IncrementUpdate counter counter'

variable {keccak256}

/-- The counter at position `i` of a successful batch increment is refreshed, with its value
plus one. -/
theorem batchIncrement_getElem? {epoch : U64} {pairs : List (MicroCounter × U64)}
    {counters : List MicroCounter} (update : batchIncrement keccak256 epoch pairs = .ok counters)
    {i : Nat} {counter counter' : MicroCounter} (before : (pairs.map Prod.fst)[i]? = some counter)
    (after : counters[i]? = some counter') :
    Refreshes keccak256 counter counter' ∧ counter'.value.toNat = counter.value.toNat + 1 := by
  have refreshed := batchIncrement_eq_ok update
  clear update
  induction refreshed generalizing i with
  | nil => cases before
  | cons head _ induction =>
      cases i with
      | zero =>
          obtain rfl := Option.some.inj before
          obtain rfl := Option.some.inj after
          exact head
      | succ i => exact induction before after

/-- Every update of the increment family refreshes the counter and adds one to its value. -/
theorem IncrementUpdate.spec {counter counter' : MicroCounter}
    (update : IncrementUpdate keccak256 counter counter') :
    Refreshes keccak256 counter counter' ∧ counter'.value.toNat = counter.value.toNat + 1 := by
  cases update with
  | increment clock update => exact increment_eq_ok update
  | incrementSimple ctx update => exact incrementSimple_eq_ok update
  | batchIncrement2 c1 c2 ctx counters i update before after =>
      exact batchIncrement_getElem? update before after
  | batchIncrement4 c1 c2 c3 c4 ctx counters i update before after =>
      exact batchIncrement_getElem? update before after
  | batchIncrement8 c1 c2 c3 c4 c5 c6 c7 c8 ctx counters i update before after =>
      exact batchIncrement_getElem? update before after

/-- Along a run of updates every version holds a larger value than each earlier one. -/
theorem IncrementUpdate.values_increasing {versions : List MicroCounter}
    (run : versions.IsChain (IncrementUpdate keccak256)) :
    versions.Pairwise fun version version' => version.value.toNat < version'.value.toNat := by
  have steps : versions.IsChain fun version version' =>
      version.value.toNat < version'.value.toNat :=
    run.imp fun _ _ update => by
      rw [(IncrementUpdate.spec update).2]
      exact Nat.lt_succ_self _
  have values : (versions.map fun version => version.value.toNat).IsChain (· < ·) :=
    (List.isChain_map _).mpr steps
  exact List.pairwise_map.mp values.pairwise

/-- Along a run of updates from a valid counter every version is valid. -/
theorem IncrementUpdate.versions_valid {counter : MicroCounter} {versions : List MicroCounter}
    (run : (counter :: versions).IsChain (IncrementUpdate keccak256))
    (first : CounterValid keccak256 counter) :
    ∀ version ∈ counter :: versions, CounterValid keccak256 version := by
  induction versions generalizing counter with
  | nil =>
      intro version member
      rw [List.mem_singleton.mp member]
      exact first
  | cons next rest induction =>
      obtain ⟨update, run⟩ := List.isChain_cons_cons.mp run
      intro version member
      rcases List.mem_cons.mp member with rfl | later
      · exact first
      · exact induction run (IncrementUpdate.spec update).1.valid version later

/-- With a hash that returns 32 bytes and is injective on sixteen-byte inputs, the versions of a
counter of a reachable store along any run of `increment`, `increment_simple` and
`batch_increment_2/4/8` updates that does not abort carry pairwise distinct checksums. -/
theorem increment_run_checksums_distinct
    (digest_length : ∀ input, (keccak256 input).length = 32)
    (injective : ∀ first second, first.length = 16 → second.length = 16 →
      keccak256 first = keccak256 second → first = second)
    {store : Store} (reach : Reachable keccak256 store) {counter : MicroCounter}
    (member : counter ∈ store.counters) {versions : List MicroCounter}
    (run : (counter :: versions).IsChain (IncrementUpdate keccak256)) :
    ((counter :: versions).map MicroCounter.checksum).Nodup := by
  have first : CounterValid keccak256 counter :=
    (reachable_wellFormed reach).counters_valid counter member
  have valid := IncrementUpdate.versions_valid run first
  rw [List.Nodup, List.pairwise_map]
  refine (IncrementUpdate.values_increasing run).imp_of_mem
    fun {version version'} earlier later below same => ?_
  rw [valid version earlier, valid version' later] at same
  have same_value := (computeChecksum_injective digest_length injective same).1
  rw [same_value] at below
  exact Nat.lt_irrefl _ below

/-- A counter of `create_batch(2)` and its version after one `increment` at timestamp 5 carry
different checksums. -/
theorem increment_run_checksums_distinct_after_increment :
    ((createCounter paddedHash ⟨0, 0⟩ 0 ::
        [{ createCounter paddedHash ⟨0, 0⟩ 0 with
            value := 1, nonce := 5, checksum := computeChecksum paddedHash 1 5,
            lastUpdate := 5 }]).map MicroCounter.checksum).Nodup :=
  increment_run_checksums_distinct paddedHash_length paddedHash_injective
    (Trace.Reachable.tail (Trace.Reachable.of_initial rfl)
      ⟨⟨0, 0⟩, .createBatch 2, exec_createBatch_two paddedHash 0⟩)
    (by simp) (List.isChain_pair.mpr (.increment ⟨5⟩ rfl))

end Versions

end IoChurn
end FdpBench
