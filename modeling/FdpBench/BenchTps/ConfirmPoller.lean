import FdpBench.Lib.KeyedList
import FdpBench.Lib.Trace

/-!
# The slot-latency poller of `bench-tps`

Senders record the first signature of each transaction with the slot read before sending it; the
confirm poller snapshots the map, asks for statuses in chunks and, for each signature confirmed at
`c`, pushes `c.saturating_sub(submit_slot)` and removes the signature.  Each locked section is one
step, in any interleaving and with arbitrary responses; ghost fields record each insertion and the
origin of each sample.
-/

namespace FdpBench
namespace BenchTps
namespace ConfirmPoller

/-- `BATCH_SIZE`: signatures per `get_signature_statuses` call. -/
def batchSize : Nat := 256

/-- `MAX_BATCHES_PER_ITER`: chunks processed in one poll iteration. -/
def maxBatchesPerIter : Nat := 20

/-- A value of `pending_map`: the submit slot, and the insertion that wrote it. -/
structure Pending where
  submitSlot : Nat
  /-- Ghost: the index of the insertion in the log of insertions. -/
  insertion : Nat
  deriving DecidableEq, Repr

/-- A value pushed to `slot_latencies`, with where it came from. -/
structure Sample (Sig : Type) where
  sig : Sig
  /-- Ghost: the insertion whose submit slot the latency uses. -/
  insertion : Nat
  /-- Ghost: the confirmation slot the status reported. -/
  confirmSlot : Nat
  latency : Nat
  deriving DecidableEq, Repr

/-- The shared state, and the poller's snapshot entries not yet processed this iteration. -/
structure State (Sig : Type) where
  pendingMap : List (Sig × Pending)
  slotLatencies : List (Sample Sig)
  entries : List (Sig × Pending)
  /-- Ghost: every insertion so far, as signature and submit slot. -/
  insertions : List (Sig × Nat)
  deriving DecidableEq, Repr

/-- One atomic step of a thread. -/
inductive Event (Sig : Type) where
  /-- `do_tx_transfers` for one batch: the signatures of its transactions, and the slot read. -/
  | send (batch : List (List Sig)) (submitSlot : Nat)
  /-- The poller's snapshot under the read lock, listing the keys in the map's iteration order. -/
  | snapshot (order : List Sig)
  /-- The poller's next chunk: the statuses returned, `none` for an `Err`, applied under the
  write locks. -/
  | statuses (response : Option (List (Option Nat)))
  deriving DecidableEq, Repr

variable {Sig : Type}

/-- No thread has run yet. -/
def State.initial : State Sig := ⟨[], [], [], []⟩

/-- The latency the poller pushes for a snapshot entry reported confirmed, if it is. -/
def sampleOf : (Sig × Pending) × Option Nat → Option (Sample Sig)
  | (_, none) => none
  | ((sig, entry), some confirmSlot) =>
      some ⟨sig, entry.insertion, confirmSlot, confirmSlot - entry.submitSlot⟩

section Model

variable [DecidableEq Sig]

/-- The body of the sender's insertion loop: `pending.insert(tx.signatures[0], submit_slot)` for
a transaction with a signature. -/
def insertSignature (submitSlot : Nat) (state : State Sig) : List Sig → State Sig
  | [] => state
  | sig :: _ =>
      { state with
        pendingMap :=
          KeyedList.insert Prod.fst state.pendingMap (sig, ⟨submitSlot, state.insertions.length⟩)
        insertions := state.insertions ++ [(sig, submitSlot)] }

/-- The body of the poller's loop over `chunk.iter().zip(statuses.iter())`. -/
def applyStatus (state : State Sig) : (Sig × Pending) × Option Nat → State Sig
  | (_, none) => state
  | ((sig, entry), some confirmSlot) =>
      { state with
        slotLatencies :=
          state.slotLatencies ++ [⟨sig, entry.insertion, confirmSlot, confirmSlot - entry.submitSlot⟩]
        pendingMap := KeyedList.erase Prod.fst state.pendingMap sig }

/-- The snapshot: the map's entries in the order of `order`. -/
def snapshotEntries (pendingMap : List (Sig × Pending)) (order : List Sig) : List (Sig × Pending) :=
  order.filterMap (KeyedList.find Prod.fst pendingMap)

/-- One step of one thread. -/
def step (state : State Sig) : Event Sig → State Sig
  | .send batch submitSlot => batch.foldl (insertSignature submitSlot) state
  | .snapshot order =>
      -- an iteration starts once the previous one has processed its chunks; `order` is any
      -- iteration order of the map's keys
      if state.entries = [] ∧ order.Perm (state.pendingMap.map Prod.fst) then
        -- the first `MAX_BATCHES_PER_ITER` chunks; the rest waits for the next iteration
        { state with
          entries := (snapshotEntries state.pendingMap order).take (maxBatchesPerIter * batchSize) }
      else state
  | .statuses response =>
      let chunk := state.entries.take batchSize
      let state := { state with entries := state.entries.drop batchSize }
      match response with
      | none => state
      | some statuses => (chunk.zip statuses).foldl applyStatus state

/-- The state after the steps of a run, in order. -/
def run (events : List (Event Sig)) : State Sig :=
  Trace.run step State.initial events

end Model

/-! ## The poller's chunk -/

section Chunk

variable [DecidableEq Sig]

@[simp]
theorem foldl_applyStatus_entries (pairs : List ((Sig × Pending) × Option Nat)) (state : State Sig) :
    (pairs.foldl applyStatus state).entries = state.entries := by
  induction pairs generalizing state with
  | nil => rfl
  | cons pair rest induction =>
      obtain ⟨entry, _ | confirmSlot⟩ := pair
      · exact induction state
      · exact induction _

@[simp]
theorem foldl_applyStatus_insertions (pairs : List ((Sig × Pending) × Option Nat))
    (state : State Sig) : (pairs.foldl applyStatus state).insertions = state.insertions := by
  induction pairs generalizing state with
  | nil => rfl
  | cons pair rest induction =>
      obtain ⟨entry, _ | confirmSlot⟩ := pair
      · exact induction state
      · exact induction _

/-- The poller pushes one sample per confirmed entry of the chunk, in order. -/
theorem foldl_applyStatus_slotLatencies (pairs : List ((Sig × Pending) × Option Nat))
    (state : State Sig) :
    (pairs.foldl applyStatus state).slotLatencies = state.slotLatencies ++ pairs.filterMap sampleOf := by
  induction pairs generalizing state with
  | nil => simp
  | cons pair rest induction =>
      obtain ⟨⟨sig, entry⟩, _ | confirmSlot⟩ := pair
      · simp only [List.foldl_cons, applyStatus, induction, List.filterMap_cons, sampleOf]
      · simp only [List.foldl_cons, applyStatus, induction, List.filterMap_cons, sampleOf,
          List.append_assoc, List.singleton_append]

/-- The poller removes exactly the signatures reported confirmed. -/
theorem mem_foldl_applyStatus_pendingMap {pairs : List ((Sig × Pending) × Option Nat)}
    {state : State Sig} {record : Sig × Pending} :
    record ∈ (pairs.foldl applyStatus state).pendingMap ↔
      record ∈ state.pendingMap ∧ ∀ pair ∈ pairs, pair.2.isSome → record.1 ≠ pair.1.1 := by
  induction pairs generalizing state with
  | nil => simp
  | cons pair rest induction =>
      obtain ⟨⟨sig, entry⟩, _ | confirmSlot⟩ := pair
      · simp [List.foldl_cons, applyStatus, induction]
      · simp only [List.foldl_cons, applyStatus, induction, KeyedList.mem_erase]
        simp [and_assoc]

theorem foldl_applyStatus_pendingMap_sublist (pairs : List ((Sig × Pending) × Option Nat))
    (state : State Sig) :
    (pairs.foldl applyStatus state).pendingMap.Sublist state.pendingMap := by
  induction pairs generalizing state with
  | nil => exact List.Sublist.refl _
  | cons pair rest induction =>
      obtain ⟨entry, _ | confirmSlot⟩ := pair
      · exact induction state
      · exact (induction _).trans List.filter_sublist

end Chunk

/-- A sample of a chunk comes from a confirmed pair of the chunk. -/
theorem mem_filterMap_sampleOf {pairs : List ((Sig × Pending) × Option Nat)} {sample : Sample Sig}
    (member : sample ∈ pairs.filterMap sampleOf) :
    ∃ sig entry confirmSlot, ((sig, entry), some confirmSlot) ∈ pairs ∧
      sample = ⟨sig, entry.insertion, confirmSlot, confirmSlot - entry.submitSlot⟩ := by
  obtain ⟨pair, pair_member, sampled⟩ := List.mem_filterMap.mp member
  obtain ⟨⟨sig, entry⟩, _ | confirmSlot⟩ := pair
  · cases sampled
  · exact ⟨sig, entry, confirmSlot, pair_member, (Option.some.inj sampled).symm⟩

/-- The insertions the chunk's samples use are those of its entries, in order. -/
theorem filterMap_sampleOf_insertions (pairs : List ((Sig × Pending) × Option Nat)) :
    ((pairs.filterMap sampleOf).map Sample.insertion).Sublist
      ((pairs.map Prod.fst).map fun entry => entry.2.insertion) := by
  induction pairs with
  | nil => exact List.Sublist.slnil
  | cons pair rest induction =>
      obtain ⟨⟨sig, entry⟩, _ | confirmSlot⟩ := pair
      · exact induction.cons _
      · exact induction.cons_cons _

theorem map_fst_zip_sublist {α β : Type} (first : List α) (second : List β) :
    ((first.zip second).map Prod.fst).Sublist first := by
  induction first generalizing second with
  | nil => exact List.Sublist.slnil
  | cons head tail induction =>
      cases second with
      | nil => exact List.nil_sublist _
      | cons _ second => exact (induction second).cons_cons _

/-! ## The invariant -/

/-- The log records `entry` of `sig` at its insertion index. -/
def Logged (insertions : List (Sig × Nat)) (sig : Sig) (entry : Pending) : Prop :=
  insertions[entry.insertion]? = some (sig, entry.submitSlot)

/-- A sample is the saturating difference of its confirmation slot and the submit slot of an
insertion of its signature. -/
def SampleLogged (insertions : List (Sig × Nat)) (sample : Sample Sig) : Prop :=
  ∃ submitSlot, insertions[sample.insertion]? = some (sample.sig, submitSlot) ∧
    sample.latency = sample.confirmSlot - submitSlot

/-- What every run keeps. -/
structure Consistent (state : State Sig) : Prop where
  keys_distinct : (state.pendingMap.map Prod.fst).Nodup
  pending_logged : ∀ record ∈ state.pendingMap, Logged state.insertions record.1 record.2
  entries_logged : ∀ record ∈ state.entries, Logged state.insertions record.1 record.2
  samples_logged : ∀ sample ∈ state.slotLatencies, SampleLogged state.insertions sample
  /-- No insertion is sampled twice, nor sampled and still waiting in the snapshot. -/
  sampled_once :
    (state.slotLatencies.map Sample.insertion ++ state.entries.map fun record => record.2.insertion).Nodup
  pending_unsampled :
    ∀ record ∈ state.pendingMap, record.2.insertion ∉ state.slotLatencies.map Sample.insertion

section Invariant

theorem logged_append {insertions more : List (Sig × Nat)} {sig : Sig} {entry : Pending}
    (logged : Logged insertions sig entry) : Logged (insertions ++ more) sig entry := by
  obtain ⟨bound, -⟩ := List.getElem?_eq_some_iff.mp logged
  rw [Logged, List.getElem?_append_left bound]
  exact logged

theorem sampleLogged_append {insertions more : List (Sig × Nat)} {sample : Sample Sig}
    (logged : SampleLogged insertions sample) : SampleLogged (insertions ++ more) sample := by
  obtain ⟨submitSlot, at_index, latency⟩ := logged
  obtain ⟨bound, -⟩ := List.getElem?_eq_some_iff.mp at_index
  exact ⟨submitSlot, by rw [List.getElem?_append_left bound]; exact at_index, latency⟩

theorem SampleLogged.lt {insertions : List (Sig × Nat)} {sample : Sample Sig}
    (logged : SampleLogged insertions sample) : sample.insertion < insertions.length := by
  obtain ⟨_, at_index, -⟩ := logged
  exact (List.getElem?_eq_some_iff.mp at_index).1

/-- Two logged entries of one insertion belong to one signature. -/
theorem Logged.sig_eq {insertions : List (Sig × Nat)} {sig sig' : Sig} {entry entry' : Pending}
    (logged : Logged insertions sig entry) (logged' : Logged insertions sig' entry')
    (same : entry.insertion = entry'.insertion) : sig = sig' := by
  unfold Logged at logged logged'
  rw [same, logged'] at logged
  exact (Prod.mk.inj (Option.some.inj logged)).1.symm

theorem initial_consistent : Consistent (State.initial : State Sig) :=
  ⟨List.nodup_nil, nofun, nofun, nofun, List.nodup_nil, nofun⟩

/-- Entries with distinct keys, all logged, have distinct insertions. -/
theorem insertions_nodup {insertions : List (Sig × Nat)} {records : List (Sig × Pending)}
    (keys : (records.map Prod.fst).Nodup)
    (logged : ∀ record ∈ records, Logged insertions record.1 record.2) :
    (records.map fun record => record.2.insertion).Nodup := by
  apply List.Nodup.map_on _ (List.Nodup.of_map Prod.fst keys)
  intro record member record' member' same
  exact List.inj_on_of_nodup_map keys member member'
    ((logged record member).sig_eq (logged record' member') same)

variable [DecidableEq Sig]

theorem insertSignature_consistent {state : State Sig} (submitSlot : Nat) (signatures : List Sig)
    (consistent : Consistent state) : Consistent (insertSignature submitSlot state signatures) := by
  cases signatures with
  | nil => exact consistent
  | cons sig _ =>
      -- the new entry's insertion index is the log's length, above every sampled one
      have fresh : state.insertions.length ∉ state.slotLatencies.map Sample.insertion := by
        intro member
        obtain ⟨sample, sampled, same⟩ := List.mem_map.mp member
        exact absurd same (Nat.ne_of_lt (consistent.samples_logged sample sampled).lt)
      refine ⟨KeyedList.nodup_map_insert consistent.keys_distinct _, ?_, ?_, ?_, consistent.sampled_once, ?_⟩
      · intro record member
        rcases KeyedList.mem_insert.mp member with rfl | ⟨old, -⟩
        · exact List.getElem?_concat_length
        · exact logged_append (consistent.pending_logged record old)
      · intro record member
        exact logged_append (consistent.entries_logged record member)
      · intro sample member
        exact sampleLogged_append (consistent.samples_logged sample member)
      · intro record member
        rcases KeyedList.mem_insert.mp member with rfl | ⟨old, -⟩
        · exact fresh
        · exact consistent.pending_unsampled record old

theorem send_consistent {state : State Sig} (batch : List (List Sig)) (submitSlot : Nat)
    (consistent : Consistent state) : Consistent (step state (.send batch submitSlot)) :=
  Trace.run_invariant (insertSignature submitSlot) consistent
    (fun _ signatures holds => insertSignature_consistent submitSlot signatures holds) batch

/-- The entries of a snapshot are entries of the map, one per listed key. -/
theorem snapshotEntries_sublist_keys (pendingMap : List (Sig × Pending)) (order : List Sig) :
    ((snapshotEntries pendingMap order).map Prod.fst).Sublist order := by
  induction order with
  | nil => exact List.Sublist.slnil
  | cons sig rest induction =>
      unfold snapshotEntries at induction ⊢
      rw [List.filterMap_cons]
      cases found : KeyedList.find Prod.fst pendingMap sig with
      | none => exact induction.cons _
      | some record =>
          rw [List.map_cons, (KeyedList.find_eq_some found).2]
          exact induction.cons_cons _

theorem mem_snapshotEntries {pendingMap : List (Sig × Pending)} {order : List Sig}
    {record : Sig × Pending} (member : record ∈ snapshotEntries pendingMap order) :
    record ∈ pendingMap := by
  obtain ⟨sig, -, found⟩ := List.mem_filterMap.mp member
  exact (KeyedList.find_eq_some found).1

theorem snapshot_consistent {state : State Sig} (order : List Sig)
    (consistent : Consistent state) : Consistent (step state (.snapshot order)) := by
  rw [step]
  split
  case isFalse => exact consistent
  case isTrue guard =>
    obtain ⟨idle, permuted⟩ := guard
    set taken := (snapshotEntries state.pendingMap order).take (maxBatchesPerIter * batchSize)
    have in_map : ∀ record ∈ taken, record ∈ state.pendingMap :=
      fun record member => mem_snapshotEntries (List.mem_of_mem_take member)
    have keys : (taken.map Prod.fst).Nodup :=
      (permuted.nodup_iff.mpr consistent.keys_distinct).sublist
        (((List.take_sublist _ _).map Prod.fst).trans (snapshotEntries_sublist_keys _ _))
    have logged : ∀ record ∈ taken, Logged state.insertions record.1 record.2 :=
      fun record member => consistent.pending_logged record (in_map record member)
    have sampled : (state.slotLatencies.map Sample.insertion).Nodup := by
      simpa [idle] using consistent.sampled_once
    refine ⟨consistent.keys_distinct, consistent.pending_logged, logged, consistent.samples_logged,
      ?_, consistent.pending_unsampled⟩
    refine List.nodup_append.mpr ⟨sampled, insertions_nodup keys logged, ?_⟩
    intro insertion old record_insertion new same
    obtain ⟨record, member, rfl⟩ := List.mem_map.mp new
    exact consistent.pending_unsampled record (in_map record member) (same ▸ old)

theorem statuses_consistent {state : State Sig} (response : Option (List (Option Nat)))
    (consistent : Consistent state) : Consistent (step state (.statuses response)) := by
  -- the chunk leaves the snapshot before its statuses are applied
  have split_entries := List.take_append_drop batchSize state.entries
  have dropped : Consistent { state with entries := state.entries.drop batchSize } := by
    refine ⟨consistent.keys_distinct, consistent.pending_logged, ?_, consistent.samples_logged, ?_,
      consistent.pending_unsampled⟩
    · exact fun record member => consistent.entries_logged record (List.mem_of_mem_drop member)
    · exact consistent.sampled_once.sublist
        (((List.drop_sublist _ _).map _).append_left _)
  cases response with
  | none => exact dropped
  | some statuses =>
      set pairs := (state.entries.take batchSize).zip statuses
      have chunk_logged : ∀ pair ∈ pairs, Logged state.insertions pair.1.1 pair.1.2 := by
        intro pair member
        have in_chunk := (map_fst_zip_sublist _ _).subset (List.mem_map_of_mem member)
        exact consistent.entries_logged _ (List.mem_of_mem_take in_chunk)
      have new_insertions : ((pairs.filterMap sampleOf).map Sample.insertion).Sublist
          ((state.entries.take batchSize).map fun record => record.2.insertion) := by
        refine (filterMap_sampleOf_insertions pairs).trans ?_
        exact (map_fst_zip_sublist _ _).map _
      show Consistent (pairs.foldl applyStatus { state with entries := state.entries.drop batchSize })
      refine ⟨?_, ?_, ?_, ?_, ?_, ?_⟩
      · exact List.Nodup.sublist ((foldl_applyStatus_pendingMap_sublist _ _).map _)
          consistent.keys_distinct
      · intro record member
        rw [foldl_applyStatus_insertions]
        exact consistent.pending_logged record (mem_foldl_applyStatus_pendingMap.mp member).1
      · rw [foldl_applyStatus_entries, foldl_applyStatus_insertions]
        exact dropped.entries_logged
      · intro sample member
        rw [foldl_applyStatus_insertions]
        rw [foldl_applyStatus_slotLatencies, List.mem_append] at member
        rcases member with old | new
        · exact consistent.samples_logged sample old
        · obtain ⟨sig, entry, confirmSlot, pair_member, rfl⟩ := mem_filterMap_sampleOf new
          exact ⟨entry.submitSlot, chunk_logged _ pair_member, rfl⟩
      · rw [foldl_applyStatus_slotLatencies, foldl_applyStatus_entries, List.map_append,
          List.append_assoc]
        refine List.Nodup.sublist ?_ consistent.sampled_once
        have whole : state.entries.map (fun record => record.2.insertion) =
            (state.entries.take batchSize).map (fun record => record.2.insertion) ++
              (state.entries.drop batchSize).map (fun record => record.2.insertion) := by
          rw [← List.map_append, split_entries]
        rw [whole]
        exact (new_insertions.append (List.Sublist.refl _)).append_left _
      · intro record member
        obtain ⟨kept, unconfirmed⟩ := mem_foldl_applyStatus_pendingMap.mp member
        rw [foldl_applyStatus_slotLatencies, List.map_append, List.mem_append, not_or]
        refine ⟨consistent.pending_unsampled record kept, ?_⟩
        intro sampled
        obtain ⟨sample, new, same⟩ := List.mem_map.mp sampled
        obtain ⟨sig, entry, confirmSlot, pair_member, rfl⟩ := mem_filterMap_sampleOf new
        -- the sampled insertion belongs to `sig`, which this chunk removed from the map
        have owner := (consistent.pending_logged record kept).sig_eq
          (chunk_logged _ pair_member) same.symm
        exact unconfirmed _ pair_member rfl owner

theorem step_consistent {state : State Sig} (event : Event Sig) (consistent : Consistent state) :
    Consistent (step state event) := by
  cases event with
  | send batch submitSlot => exact send_consistent batch submitSlot consistent
  | snapshot order => exact snapshot_consistent order consistent
  | statuses response => exact statuses_consistent response consistent

theorem run_consistent (events : List (Event Sig)) : Consistent (run events) :=
  Trace.run_invariant step initial_consistent (fun _ event holds => step_consistent event holds) events

end Invariant

/-! ## Removals -/

section Removal

variable [DecidableEq Sig]

/-- An insertion never removes a key. -/
theorem mem_keys_insertSignature {state : State Sig} {submitSlot : Nat} {signatures : List Sig}
    {sig : Sig} (member : sig ∈ state.pendingMap.map Prod.fst) :
    sig ∈ (insertSignature submitSlot state signatures).pendingMap.map Prod.fst := by
  cases signatures with
  | nil => exact member
  | cons new _ =>
      obtain ⟨record, kept, rfl⟩ := List.mem_map.mp member
      by_cases same : record.1 = new
      · exact List.mem_map.mpr ⟨_, KeyedList.mem_insert.mpr (Or.inl rfl), same.symm⟩
      · exact List.mem_map_of_mem (KeyedList.mem_insert.mpr (Or.inr ⟨kept, same⟩))

/-- A signature leaves `pending_map` only in a poller step that pushes a sample for it. -/
theorem removed_with_sample {state : State Sig} {event : Event Sig} {sig : Sig}
    (before : sig ∈ state.pendingMap.map Prod.fst)
    (after : sig ∉ (step state event).pendingMap.map Prod.fst) :
    ∃ fresh, (step state event).slotLatencies = state.slotLatencies ++ fresh ∧
      ∃ sample ∈ fresh, sample.sig = sig := by
  cases event with
  | send batch submitSlot =>
      refine absurd ?_ after
      exact @Trace.run_invariant _ _ (insertSignature submitSlot)
        (fun state => sig ∈ state.pendingMap.map Prod.fst) state before
        (fun _ _ member => mem_keys_insertSignature member) batch
  | snapshot order =>
      refine absurd ?_ after
      rw [step]
      split
      · exact before
      · exact before
  | statuses response =>
      cases response with
      | none => exact absurd before after
      | some statuses =>
          set pairs := (state.entries.take batchSize).zip statuses
          obtain ⟨record, kept, rfl⟩ := List.mem_map.mp before
          -- the record was dropped, so some confirmed entry of the chunk has its signature
          have confirmed : ∃ pair ∈ pairs, pair.2.isSome ∧ record.1 = pair.1.1 := by
            by_contra untouched
            apply after
            refine List.mem_map_of_mem (mem_foldl_applyStatus_pendingMap.mpr ⟨kept, ?_⟩)
            intro pair member is_some same
            exact untouched ⟨pair, member, is_some, same⟩
          obtain ⟨⟨⟨sig, entry⟩, status⟩, member, is_some, same⟩ := confirmed
          obtain ⟨confirmSlot, rfl⟩ := Option.isSome_iff_exists.mp is_some
          refine ⟨pairs.filterMap sampleOf, foldl_applyStatus_slotLatencies pairs _, _,
            List.mem_filterMap.mpr ⟨_, member, rfl⟩, same.symm⟩

end Removal

/-! ## Where each sample comes from -/

section Provenance

variable [DecidableEq Sig]

theorem run_append_event (events : List (Event Sig)) (event : Event Sig) :
    run (events ++ [event]) = step (run events) event :=
  Trace.run_concat step State.initial events event

/-- `record` is an entry of `pending_map` that a `snapshot` step of `events` took, at the start of
an iteration. -/
def Snapshotted (events : List (Event Sig)) (record : Sig × Pending) : Prop :=
  ∃ before after order, events = before ++ .snapshot order :: after ∧
    (run before).entries = [] ∧ record ∈ (run before).pendingMap ∧
      record ∈ (step (run before) (.snapshot order)).entries

/-- `sample` was pushed by a `statuses` step of `events`: the status at position `k` of the chunk
reported `sample.confirmSlot` for the snapshot entry at position `k`, whose insertion and submit
slot the sample uses, and which a `snapshot` step before it took. -/
def PushedBy (events : List (Event Sig)) (sample : Sample Sig) : Prop :=
  ∃ (before after : List (Event Sig)) (statuses : List (Option Nat)) (entry : Pending) (k : Nat),
    events = before ++ .statuses (some statuses) :: after ∧
    ((run before).entries.take batchSize)[k]? = some (sample.sig, entry) ∧
    statuses[k]? = some (some sample.confirmSlot) ∧ entry.insertion = sample.insertion ∧
    sample.latency = sample.confirmSlot - entry.submitSlot ∧ Snapshotted before (sample.sig, entry)

theorem Snapshotted.append {events : List (Event Sig)} {record : Sig × Pending}
    (snapshotted : Snapshotted events record) (more : List (Event Sig)) :
    Snapshotted (events ++ more) record := by
  obtain ⟨before, after, order, rfl, taken⟩ := snapshotted
  exact ⟨before, after ++ more, order, by rw [List.append_assoc, List.cons_append], taken⟩

theorem PushedBy.append {events : List (Event Sig)} {sample : Sample Sig}
    (pushed : PushedBy events sample) (more : List (Event Sig)) :
    PushedBy (events ++ more) sample := by
  obtain ⟨before, after, statuses, entry, k, rfl, reported⟩ := pushed
  exact ⟨before, after ++ more, statuses, entry, k, by rw [List.append_assoc, List.cons_append],
    reported⟩

/-- A send step touches neither the samples nor the snapshot. -/
theorem send_unchanged (state : State Sig) (batch : List (List Sig)) (submitSlot : Nat) :
    (step state (.send batch submitSlot)).slotLatencies = state.slotLatencies ∧
      (step state (.send batch submitSlot)).entries = state.entries :=
  @Trace.run_invariant _ _ (insertSignature submitSlot)
    (fun current => current.slotLatencies = state.slotLatencies ∧ current.entries = state.entries)
    state ⟨rfl, rfl⟩ (fun _ signatures same => by cases signatures <;> exact same) batch

theorem snapshot_slotLatencies (state : State Sig) (order : List Sig) :
    (step state (.snapshot order)).slotLatencies = state.slotLatencies := by
  rw [step]
  split <;> rfl

theorem statuses_entries (state : State Sig) (response : Option (List (Option Nat))) :
    (step state (.statuses response)).entries = state.entries.drop batchSize := by
  cases response with
  | none => rfl
  | some statuses => exact foldl_applyStatus_entries _ _

/-- What the events of a run explain of its state. -/
structure Explained (events : List (Event Sig)) (state : State Sig) : Prop where
  samples_pushed : ∀ sample ∈ state.slotLatencies, PushedBy events sample
  entries_snapshotted : ∀ record ∈ state.entries, Snapshotted events record

theorem send_explained {events : List (Event Sig)} (batch : List (List Sig)) (submitSlot : Nat)
    (explained : Explained events (run events)) :
    Explained (events ++ [.send batch submitSlot]) (step (run events) (.send batch submitSlot)) := by
  obtain ⟨same_samples, same_entries⟩ := send_unchanged (run events) batch submitSlot
  refine ⟨fun sample member => ?_, fun record member => ?_⟩
  · exact (explained.samples_pushed sample (same_samples ▸ member)).append _
  · exact (explained.entries_snapshotted record (same_entries ▸ member)).append _

theorem snapshot_explained {events : List (Event Sig)} (order : List Sig)
    (explained : Explained events (run events)) :
    Explained (events ++ [.snapshot order]) (step (run events) (.snapshot order)) := by
  refine ⟨fun sample member => ?_, fun record member => ?_⟩
  · rw [snapshot_slotLatencies] at member
    exact (explained.samples_pushed sample member).append _
  · by_cases guard : (run events).entries = [] ∧
        order.Perm ((run events).pendingMap.map Prod.fst)
    · -- the step takes its entries from the map
      have taken : (step (run events) (.snapshot order)).entries =
          (snapshotEntries (run events).pendingMap order).take (maxBatchesPerIter * batchSize) := by
        rw [step, if_pos guard]
      have in_map := mem_snapshotEntries (List.mem_of_mem_take (taken ▸ member))
      exact ⟨events, [], order, rfl, guard.1, in_map, member⟩
    · have kept : (step (run events) (.snapshot order)).entries = (run events).entries := by
        rw [step, if_neg guard]
      exact (explained.entries_snapshotted record (kept ▸ member)).append _

theorem statuses_explained {events : List (Event Sig)} (response : Option (List (Option Nat)))
    (explained : Explained events (run events)) :
    Explained (events ++ [.statuses response]) (step (run events) (.statuses response)) := by
  refine ⟨fun sample member => ?_, fun record member => ?_⟩
  · cases response with
    | none => exact (explained.samples_pushed sample member).append _
    | some statuses =>
        change sample ∈ ((((run events).entries.take batchSize).zip statuses).foldl applyStatus
          { run events with entries := (run events).entries.drop batchSize }).slotLatencies
          at member
        rw [foldl_applyStatus_slotLatencies, List.mem_append] at member
        rcases member with old | new
        · exact (explained.samples_pushed sample old).append _
        · -- a new sample comes from the pair at some position `k` of the chunk and its statuses
          obtain ⟨sig, entry, confirmSlot, pair_member, rfl⟩ := mem_filterMap_sampleOf new
          obtain ⟨k, at_k⟩ := List.mem_iff_getElem?.mp pair_member
          obtain ⟨chunk_k, status_k⟩ := List.getElem?_zip_eq_some.mp at_k
          have snapshotted := explained.entries_snapshotted _
            (List.mem_of_mem_take (List.mem_of_getElem? chunk_k))
          exact ⟨events, [], statuses, entry, k, rfl, chunk_k, status_k, rfl, rfl, snapshotted⟩
  · rw [statuses_entries] at member
    exact (explained.entries_snapshotted record (List.mem_of_mem_drop member)).append _

theorem step_explained {events : List (Event Sig)} (event : Event Sig)
    (explained : Explained events (run events)) :
    Explained (events ++ [event]) (step (run events) event) := by
  cases event with
  | send batch submitSlot => exact send_explained batch submitSlot explained
  | snapshot order => exact snapshot_explained order explained
  | statuses response => exact statuses_explained response explained

/-- Every sample of a run was pushed by one of its `statuses` steps, for an entry one of its
`snapshot` steps took. -/
theorem run_explained (events : List (Event Sig)) : Explained events (run events) := by
  induction events using List.reverseRecOn with
  | nil => exact ⟨nofun, nofun⟩
  | append_singleton events event induction =>
      rw [run_append_event]
      exact step_explained event induction

end Provenance

section Runs

variable [DecidableEq Sig]

/-- In every run, every latency pushed is the confirmation slot less the submit slot of an
insertion of its signature; it was pushed by a `statuses` step whose status reported that slot
for a snapshot entry carrying that insertion.  No insertion gives two latencies, and a signature
leaves `pending_map` only in a step that pushes a latency for it. -/
theorem samples_from_snapshot_insertions (events : List (Event Sig)) :
    (∀ sample ∈ (run events).slotLatencies,
      SampleLogged (run events).insertions sample ∧ PushedBy events sample) ∧
    ((run events).slotLatencies.map Sample.insertion).Nodup ∧
    ∀ (event : Event Sig) (sig : Sig), sig ∈ (run events).pendingMap.map Prod.fst →
      sig ∉ (step (run events) event).pendingMap.map Prod.fst →
      ∃ fresh, (step (run events) event).slotLatencies = (run events).slotLatencies ++ fresh ∧
        ∃ sample ∈ fresh, sample.sig = sig := by
  have consistent := run_consistent events
  have explained := run_explained events
  refine ⟨fun sample member => ⟨consistent.samples_logged sample member,
    explained.samples_pushed sample member⟩, (List.nodup_append.mp consistent.sampled_once).1, ?_⟩
  intro event sig before after
  exact removed_with_sample before after

end Runs

/-- Signature 0 is sent at slot 5, the poller takes its snapshot, the same signature is sent
again at slot 7, and the status reports it confirmed at slot 10. -/
def resendDuringPoll : List (Event Nat) :=
  [.send [[0]] 5, .snapshot [0], .send [[0]] 7, .statuses (some [some 10])]

/-- In that run the only latency pushed is `10 - 5`, while the latest insertion of the signature
before it was at slot 7; and the signature leaves `pending_map` with no latency for that latest
insertion (number 1). -/
theorem resend_during_poll_uses_stale_slot :
    (run resendDuringPoll).insertions = [(0, 5), (0, 7)] ∧
      (run resendDuringPoll).slotLatencies.map Sample.latency = [5] ∧
      (run resendDuringPoll).slotLatencies.map Sample.confirmSlot = [10] ∧
      (run resendDuringPoll).pendingMap = [] ∧
      ∀ sample ∈ (run resendDuringPoll).slotLatencies, sample.insertion ≠ 1 := by
  decide

end ConfirmPoller
end BenchTps
end FdpBench
