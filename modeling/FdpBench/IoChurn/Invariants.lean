import FdpBench.IoChurn.Store

/-!
# Invariants of the `io_churn` store

In every store that successful transactions reach, every object satisfies its representation
invariant (`WellFormed`): a counter's checksum is `compute_checksum` of its value and nonce, and a
blob holds `BLOB_SIZE` bytes.  So two counters share a checksum exactly when they hold the same
value and nonce, once the hash is injective on the sixteen bytes it receives.
-/

namespace FdpBench
namespace IoChurn

/-- Every object of the store satisfies its representation invariant. -/
structure WellFormed (keccak256 : List U8 → List U8) (store : Store) : Prop where
  counters_valid : ∀ counter ∈ store.counters, CounterValid keccak256 counter
  blobs_valid : ∀ blob ∈ store.blobs, BlobValid blob

section Invariants

variable {keccak256 : List U8 → List U8}

theorem wellFormed_empty : WellFormed keccak256 Store.empty :=
  ⟨nofun, nofun⟩

theorem Effect.wellFormed {store next : Store} (effect : Effect keccak256 store next)
    (wf : WellFormed keccak256 store) : WellFormed keccak256 next := by
  cases effect with
  | insertCounter counter _ valid =>
      refine ⟨?_, wf.blobs_valid⟩
      intro written member
      rcases List.mem_append.mp member with old | new
      · exact wf.counters_valid written old
      · rw [List.mem_singleton.mp new]
        exact valid
  | insertBlob blob _ valid =>
      refine ⟨wf.counters_valid, ?_⟩
      intro written member
      rcases List.mem_append.mp member with old | new
      · exact wf.blobs_valid written old
      · rw [List.mem_singleton.mp new]
        exact valid
  | writeCounters counters valid =>
      exact ⟨KeyedList.forall_overwriteAll wf.counters_valid valid, wf.blobs_valid⟩
  | writeBlob blob valid =>
      refine ⟨wf.counters_valid, ?_⟩
      intro written member
      rcases KeyedList.mem_overwrite member with rfl | old
      · exact valid
      · exact wf.blobs_valid written old
  | eraseBlob id =>
      exact ⟨wf.counters_valid, fun blob member => wf.blobs_valid blob (KeyedList.mem_erase.mp member).1⟩

theorem Changes.wellFormed {store next : Store} (changes : Changes keccak256 store next)
    (wf : WellFormed keccak256 store) : WellFormed keccak256 next :=
  Trace.path_invariant (fun _ _ holds effect => effect.wellFormed holds) changes wf

/-- A successful transaction keeps every object valid. -/
theorem exec_wellFormed {ctx : TxContext} {call : Call} {store next : Store}
    (wf : WellFormed keccak256 store) (run : exec keccak256 ctx call store = .ok next) :
    WellFormed keccak256 next :=
  (exec_changes run).wellFormed wf

theorem reachable_wellFormed {store : Store} (reach : Reachable keccak256 store) :
    WellFormed keccak256 store := by
  apply Trace.Reachable.invariant _ _ reach
  · rintro _ rfl
    exact wellFormed_empty
  · rintro _ _ wf ⟨ctx, call, run⟩
    exact exec_wellFormed wf run

/-- The store after one `create_batch(2)` in epoch 0. -/
theorem exec_createBatch_two (keccak256 : List U8 → List U8) (sender : Address) :
    exec keccak256 ⟨sender, 0⟩ (.createBatch 2) Store.empty =
      .ok ⟨[createCounter keccak256 ⟨sender, 0⟩ 0, createCounter keccak256 ⟨sender, 0⟩ 1], [], 2⟩ :=
  rfl

/-- The representation invariant: every successful transaction preserves it, so it holds in every
reachable store. -/
theorem wellFormed_of_reachable (keccak256 : List U8 → List U8) :
    (∀ ctx call store next, WellFormed keccak256 store →
      exec keccak256 ctx call store = .ok next → WellFormed keccak256 next) ∧
    ∀ store, Reachable keccak256 store → WellFormed keccak256 store :=
  ⟨fun _ _ _ _ wf run => exec_wellFormed wf run, fun _ reach => reachable_wellFormed reach⟩

/-! ## Which counters share a checksum -/

/-- The two counters of one `create_batch(2)` are distinct objects with the same checksum,
whatever the hash. -/
theorem create_batch_counters_share_checksum (keccak256 : List U8 → List U8) :
    ∃ store, Reachable keccak256 store ∧ ∃ counter ∈ store.counters, ∃ counter' ∈ store.counters,
      counter.id ≠ counter'.id ∧ counter.checksum = counter'.checksum := by
  have reach : Reachable keccak256
      ⟨[createCounter keccak256 ⟨0, 0⟩ 0, createCounter keccak256 ⟨0, 0⟩ 1], [], 2⟩ :=
    Trace.Reachable.tail (Trace.Reachable.of_initial rfl)
      ⟨⟨0, 0⟩, .createBatch 2, exec_createBatch_two keccak256 0⟩
  refine ⟨_, reach, createCounter keccak256 ⟨0, 0⟩ 0, by simp, createCounter keccak256 ⟨0, 0⟩ 1,
    by simp, ?_, rfl⟩
  simp [createCounter]

/-- With a hash that returns 32 bytes and is injective on sixteen-byte inputs, two counters of a
reachable store carry the same checksum exactly when they hold the same value and nonce. -/
theorem checksum_eq_iff_of_reachable
    (digest_length : ∀ input, (keccak256 input).length = 32)
    (injective : ∀ first second, first.length = 16 → second.length = 16 →
      keccak256 first = keccak256 second → first = second)
    {store : Store} (reach : Reachable keccak256 store) {counter counter' : MicroCounter}
    (member : counter ∈ store.counters) (member' : counter' ∈ store.counters) :
    counter.checksum = counter'.checksum ↔
      counter.value = counter'.value ∧ counter.nonce = counter'.nonce := by
  have wf := reachable_wellFormed reach
  rw [wf.counters_valid counter member, wf.counters_valid counter' member']
  constructor
  · exact computeChecksum_injective digest_length injective
  · rintro ⟨same_value, same_nonce⟩
    rw [same_value, same_nonce]

end Invariants

/-- A hash that returns 32 bytes and is injective on sixteen-byte inputs: the input padded with
zeros to 32 bytes. -/
def paddedHash (input : List U8) : List U8 :=
  (input ++ List.replicate 32 0).take 32

theorem paddedHash_length (input : List U8) : (paddedHash input).length = 32 := by
  simp [paddedHash]

theorem paddedHash_injective (first second : List U8) (first_length : first.length = 16)
    (second_length : second.length = 16) (same : paddedHash first = paddedHash second) :
    first = second := by
  have padded : ∀ input : List U8, input.length = 16 →
      paddedHash input = input ++ List.replicate 16 0 := by
    intro input length
    rw [paddedHash, List.take_append, List.take_of_length_le (by omega), length,
      List.take_replicate]
    rfl
  rw [padded first first_length, padded second second_length] at same
  exact List.append_inj_left' same rfl

/-- The two counters of `create_batch(2)` under `paddedHash`: equal checksums, and equal value and
nonce. -/
theorem checksum_eq_iff_create_batch :
    ((createCounter paddedHash ⟨0, 0⟩ 0).checksum = (createCounter paddedHash ⟨0, 0⟩ 1).checksum ↔
      (createCounter paddedHash ⟨0, 0⟩ 0).value = (createCounter paddedHash ⟨0, 0⟩ 1).value ∧
        (createCounter paddedHash ⟨0, 0⟩ 0).nonce = (createCounter paddedHash ⟨0, 0⟩ 1).nonce) :=
  checksum_eq_iff_of_reachable paddedHash_length paddedHash_injective
    (Trace.Reachable.tail (Trace.Reachable.of_initial rfl)
      ⟨⟨0, 0⟩, .createBatch 2, exec_createBatch_two paddedHash 0⟩)
    (by simp) (by simp)

end IoChurn
end FdpBench
