import FdpBench.IoChurn.EntryFunctions
import FdpBench.Lib.KeyedList
import FdpBench.Lib.Trace

/-!
# Transactions of `io_churn` on the object store

A transaction calls an entry function on objects named by id; a bad argument makes it invalid, and
one that aborts leaves the store as it was.  Each transaction is a sequence of store operations
(`Effect`), so an invariant is proved for the operations alone.  Sui's ownership rules only
restrict which transactions run, and are left out.
-/

namespace FdpBench
namespace IoChurn

/-- The live objects and the next id `object::new` hands out. -/
structure Store where
  counters : List MicroCounter
  blobs : List LargeBlob
  nextId : ObjectId
  deriving DecidableEq, Repr

namespace Store

/-- The store before the first transaction. -/
def empty : Store := ⟨[], [], 0⟩

/-- A `MicroCounter` argument. -/
def counter (store : Store) (id : ObjectId) : MoveResult MicroCounter :=
  match KeyedList.find MicroCounter.id store.counters id with
  | some counter => .ok counter
  | none => .error .invalidObjectArgument

/-- A `LargeBlob` argument. -/
def blob (store : Store) (id : ObjectId) : MoveResult LargeBlob :=
  match KeyedList.find LargeBlob.id store.blobs id with
  | some blob => .ok blob
  | none => .error .invalidObjectArgument

/-- The objects one call borrows together must be distinct. -/
def distinct (ids : List ObjectId) : MoveResult Unit :=
  if ids.Nodup then .ok () else .error .invalidObjectArgument

/-- A new counter under the next id, transferred or shared. -/
@[simps]
def insertCounter (store : Store) (counter : MicroCounter) : Store :=
  { store with counters := store.counters ++ [counter], nextId := store.nextId + 1 }

/-- A new blob under the next id. -/
@[simps]
def insertBlob (store : Store) (blob : LargeBlob) : Store :=
  { store with blobs := store.blobs ++ [blob], nextId := store.nextId + 1 }

/-- Counters borrowed by `&mut` written back. -/
@[simps]
def writeCounters (store : Store) (counters : List MicroCounter) : Store :=
  { store with counters := KeyedList.overwriteAll MicroCounter.id store.counters counters }

/-- A blob borrowed by `&mut` written back. -/
@[simps]
def writeBlob (store : Store) (blob : LargeBlob) : Store :=
  { store with blobs := KeyedList.overwrite LargeBlob.id store.blobs blob }

/-- `delete_blob`: the blob's `UID` deleted. -/
@[simps]
def eraseBlob (store : Store) (id : ObjectId) : Store :=
  { store with blobs := KeyedList.erase LargeBlob.id store.blobs id }

end Store

/-- A transaction: an entry function of the module and the ids of its object arguments.  The
public functions `create_counter` and `create_blob` return their object, which the transaction
transfers to the sender; `create_blob` alone is `create_blob_and_transfer`. -/
inductive Call where
  | createCounter
  | createBatch (count : U64)
  | createShared
  | increment (counter : ObjectId) (clock : Clock)
  | incrementSimple (counter : ObjectId)
  | setValue (counter : ObjectId) (value entropy : U64)
  | batchIncrement2 (c1 c2 : ObjectId)
  | batchIncrement4 (c1 c2 c3 c4 : ObjectId)
  | batchIncrement8 (c1 c2 c3 c4 c5 c6 c7 c8 : ObjectId)
  | createBlobAndTransfer
  | createBlobBatch (count : U64)
  | updateBlob (blob : ObjectId)
  | updateBlobEntropy (blob : ObjectId) (entropy : U64)
  | readBlob (blob : ObjectId)
  | readUpdateBlob (readBlob writeBlob : ObjectId)
  | deleteBlob (blob : ObjectId)
  deriving DecidableEq, Repr

section Exec

variable (keccak256 : List U8 → List U8)

/-- The loop of `create_batch`: `count` new counters. -/
def createBatchLoop (ctx : TxContext) : Nat → Store → Store
  | 0, store => store
  | count + 1, store =>
      createBatchLoop ctx count (store.insertCounter (createCounter keccak256 ctx store.nextId))

/-- The loop of `create_blob_batch`: `count` new blobs, aborting with the first that aborts. -/
def createBlobBatchLoop (ctx : TxContext) : Nat → Store → MoveResult Store
  | 0, store => .ok store
  | count + 1, store => do
      let blob ← createBlob keccak256 ctx store.nextId
      createBlobBatchLoop ctx count (store.insertBlob blob)

/-- One transaction with context `ctx`. -/
def exec (ctx : TxContext) : Call → Store → MoveResult Store
  | .createCounter, store => .ok (store.insertCounter (createCounter keccak256 ctx store.nextId))
  | .createBatch count, store => .ok (createBatchLoop keccak256 ctx count.toNat store)
  | .createShared, store => .ok (store.insertCounter (createShared keccak256 ctx store.nextId))
  | .increment id clock, store => do
      let counter ← store.counter id
      let counter ← increment keccak256 counter clock
      return store.writeCounters [counter]
  | .incrementSimple id, store => do
      let counter ← store.counter id
      let counter ← incrementSimple keccak256 counter ctx
      return store.writeCounters [counter]
  | .setValue id value entropy, store => do
      let counter ← store.counter id
      let counter ← setValue keccak256 counter value entropy ctx
      return store.writeCounters [counter]
  | .batchIncrement2 id1 id2, store => do
      Store.distinct [id1, id2]
      let c1 ← store.counter id1
      let c2 ← store.counter id2
      let counters ← batchIncrement2 keccak256 c1 c2 ctx
      return store.writeCounters counters
  | .batchIncrement4 id1 id2 id3 id4, store => do
      Store.distinct [id1, id2, id3, id4]
      let c1 ← store.counter id1
      let c2 ← store.counter id2
      let c3 ← store.counter id3
      let c4 ← store.counter id4
      let counters ← batchIncrement4 keccak256 c1 c2 c3 c4 ctx
      return store.writeCounters counters
  | .batchIncrement8 id1 id2 id3 id4 id5 id6 id7 id8, store => do
      Store.distinct [id1, id2, id3, id4, id5, id6, id7, id8]
      let c1 ← store.counter id1
      let c2 ← store.counter id2
      let c3 ← store.counter id3
      let c4 ← store.counter id4
      let c5 ← store.counter id5
      let c6 ← store.counter id6
      let c7 ← store.counter id7
      let c8 ← store.counter id8
      let counters ← batchIncrement8 keccak256 c1 c2 c3 c4 c5 c6 c7 c8 ctx
      return store.writeCounters counters
  | .createBlobAndTransfer, store => do
      let blob ← createBlob keccak256 ctx store.nextId
      return store.insertBlob blob
  | .createBlobBatch count, store => createBlobBatchLoop keccak256 ctx count.toNat store
  | .updateBlob id, store => do
      let blob ← store.blob id
      let blob ← updateBlob keccak256 blob ctx
      return store.writeBlob blob
  | .updateBlobEntropy id entropy, store => do
      let blob ← store.blob id
      let blob ← updateBlobEntropy keccak256 blob entropy ctx
      return store.writeBlob blob
  | .readBlob id, store => do
      let blob ← store.blob id
      let _ ← readBlobChecksum blob
      return store
  | .readUpdateBlob readId writeId, store => do
      -- `read_blob` is borrowed by `&` and `write_blob` by `&mut`: they cannot alias
      Store.distinct [readId, writeId]
      let readBlob ← store.blob readId
      let writeBlob ← store.blob writeId
      let blob ← readUpdateBlob keccak256 readBlob writeBlob ctx
      return store.writeBlob blob
  | .deleteBlob id, store => do
      let _ ← store.blob id
      return store.eraseBlob id

/-- The stores some sequence of successful transactions leads to from the empty store. -/
def Reachable (store : Store) : Prop :=
  Trace.Reachable (fun store next => ∃ ctx call, exec keccak256 ctx call store = .ok next)
    (· = Store.empty) store

end Exec

/-! ## Store operations -/

/-- One operation of a transaction on the store, with what the module guarantees of the object it
writes. -/
inductive Effect (keccak256 : List U8 → List U8) : Store → Store → Prop where
  | insertCounter {store : Store} (counter : MicroCounter) (fresh : counter.id = store.nextId)
      (valid : CounterValid keccak256 counter) : Effect keccak256 store (store.insertCounter counter)
  | insertBlob {store : Store} (blob : LargeBlob) (fresh : blob.id = store.nextId)
      (valid : BlobValid blob) : Effect keccak256 store (store.insertBlob blob)
  | writeCounters {store : Store} (counters : List MicroCounter)
      (valid : ∀ counter ∈ counters, CounterValid keccak256 counter) :
      Effect keccak256 store (store.writeCounters counters)
  | writeBlob {store : Store} (blob : LargeBlob) (valid : BlobValid blob) :
      Effect keccak256 store (store.writeBlob blob)
  | eraseBlob {store : Store} (id : ObjectId) : Effect keccak256 store (store.eraseBlob id)

/-- What a sequence of store operations does. -/
def Changes (keccak256 : List U8 → List U8) : Store → Store → Prop :=
  Relation.ReflTransGen (Effect keccak256)

section Changes

variable {keccak256 : List U8 → List U8}

theorem Effect.changes {store next : Store} (effect : Effect keccak256 store next) :
    Changes keccak256 store next :=
  Relation.ReflTransGen.single effect

theorem createBatchLoop_changes (ctx : TxContext) (count : Nat) (store : Store) :
    Changes keccak256 store (createBatchLoop keccak256 ctx count store) := by
  induction count generalizing store with
  | zero => exact Relation.ReflTransGen.refl
  | succ count induction =>
      have first : Effect keccak256 store
          (store.insertCounter (createCounter keccak256 ctx store.nextId)) :=
        .insertCounter _ rfl (createCounter_valid keccak256 ctx store.nextId)
      exact Relation.ReflTransGen.head first (induction _)

theorem createBlob_effect {ctx : TxContext} {store : Store} {blob : LargeBlob}
    (created : createBlob keccak256 ctx store.nextId = .ok blob) :
    Effect keccak256 store (store.insertBlob blob) :=
  have ⟨fresh, valid⟩ := createBlob_eq_ok created
  .insertBlob blob fresh valid

theorem createBlobBatchLoop_changes {ctx : TxContext} {count : Nat} {store next : Store}
    (run : createBlobBatchLoop keccak256 ctx count store = .ok next) :
    Changes keccak256 store next := by
  induction count generalizing store with
  | zero =>
      obtain rfl := Except.ok.inj run
      exact Relation.ReflTransGen.refl
  | succ count induction =>
      obtain ⟨blob, created, rest⟩ := Except.bind_eq_ok.mp run
      exact Relation.ReflTransGen.head (createBlob_effect created) (induction rest)

theorem writeCounter_changes {store : Store} {counter counter' : MicroCounter}
    (refreshes : Refreshes keccak256 counter counter') :
    Changes keccak256 store (store.writeCounters [counter']) := by
  apply Effect.changes
  apply Effect.writeCounters
  intro written member
  rw [List.mem_singleton.mp member]
  exact refreshes.valid

theorem writeBlob_changes {store : Store} {blob blob' : LargeBlob} (rewrites : Rewrites blob blob') :
    Changes keccak256 store (store.writeBlob blob') :=
  (Effect.writeBlob blob' rewrites.2).changes

/-- A transaction that reads one counter, refreshes it and writes it back. -/
theorem refreshCounter_changes {store next : Store} {id : ObjectId}
    {update : MicroCounter → MoveResult MicroCounter}
    (refreshes : ∀ {counter counter'}, update counter = .ok counter' →
      Refreshes keccak256 counter counter')
    (run : (do
      let counter ← store.counter id
      let counter ← update counter
      return store.writeCounters [counter]) = .ok next) :
    Changes keccak256 store next := by
  obtain ⟨counter, -, rest⟩ := Except.bind_eq_ok.mp run
  obtain ⟨counter', updated, rest⟩ := Except.bind_eq_ok.mp rest
  obtain rfl := Except.pure_eq_ok.mp rest
  exact writeCounter_changes (refreshes updated)

/-- The end of a batch transaction: the counters the batch increment returns are written back. -/
theorem batchWrite_changes {store next : Store} {batch : MoveResult (List MicroCounter)}
    (valid : ∀ {counters}, batch = .ok counters →
      ∀ counter ∈ counters, CounterValid keccak256 counter)
    (run : (do
      let counters ← batch
      return store.writeCounters counters) = .ok next) :
    Changes keccak256 store next := by
  obtain ⟨counters, updated, rest⟩ := Except.bind_eq_ok.mp run
  obtain rfl := Except.pure_eq_ok.mp rest
  exact (Effect.writeCounters counters (valid updated)).changes

/-- A transaction that reads one blob, rewrites it and writes it back. -/
theorem rewriteBlob_changes {store next : Store} {id : ObjectId}
    {update : LargeBlob → MoveResult LargeBlob}
    (rewrites : ∀ {blob blob'}, update blob = .ok blob' → Rewrites blob blob')
    (run : (do
      let blob ← store.blob id
      let blob ← update blob
      return store.writeBlob blob) = .ok next) :
    Changes keccak256 store next := by
  obtain ⟨blob, -, rest⟩ := Except.bind_eq_ok.mp run
  obtain ⟨blob', updated, rest⟩ := Except.bind_eq_ok.mp rest
  obtain rfl := Except.pure_eq_ok.mp rest
  exact writeBlob_changes (rewrites updated)

/-- Every successful transaction is a sequence of store operations. -/
theorem exec_changes {ctx : TxContext} {call : Call} {store next : Store}
    (run : exec keccak256 ctx call store = .ok next) : Changes keccak256 store next := by
  cases call with
  | createCounter =>
      obtain rfl := Except.ok.inj run
      exact (Effect.insertCounter _ rfl (createCounter_valid keccak256 ctx store.nextId)).changes
  | createBatch count =>
      obtain rfl := Except.ok.inj run
      exact createBatchLoop_changes ctx count.toNat store
  | createShared =>
      obtain rfl := Except.ok.inj run
      rw [createShared_eq_createCounter]
      exact (Effect.insertCounter _ rfl (createCounter_valid keccak256 ctx store.nextId)).changes
  | increment id clock =>
      exact refreshCounter_changes (fun updated => (increment_eq_ok updated).1) run
  | incrementSimple id =>
      exact refreshCounter_changes (fun updated => (incrementSimple_eq_ok updated).1) run
  | setValue id value entropy =>
      exact refreshCounter_changes (fun updated => (setValue_eq_ok updated).1) run
  | batchIncrement2 id1 id2 =>
      obtain ⟨-, -, rest⟩ := Except.bind_eq_ok.mp run
      obtain ⟨c1, -, rest⟩ := Except.bind_eq_ok.mp rest
      obtain ⟨c2, -, rest⟩ := Except.bind_eq_ok.mp rest
      exact batchWrite_changes batchIncrement_valid rest
  | batchIncrement4 id1 id2 id3 id4 =>
      obtain ⟨-, -, rest⟩ := Except.bind_eq_ok.mp run
      obtain ⟨c1, -, rest⟩ := Except.bind_eq_ok.mp rest
      obtain ⟨c2, -, rest⟩ := Except.bind_eq_ok.mp rest
      obtain ⟨c3, -, rest⟩ := Except.bind_eq_ok.mp rest
      obtain ⟨c4, -, rest⟩ := Except.bind_eq_ok.mp rest
      exact batchWrite_changes batchIncrement_valid rest
  | batchIncrement8 id1 id2 id3 id4 id5 id6 id7 id8 =>
      obtain ⟨-, -, rest⟩ := Except.bind_eq_ok.mp run
      obtain ⟨c1, -, rest⟩ := Except.bind_eq_ok.mp rest
      obtain ⟨c2, -, rest⟩ := Except.bind_eq_ok.mp rest
      obtain ⟨c3, -, rest⟩ := Except.bind_eq_ok.mp rest
      obtain ⟨c4, -, rest⟩ := Except.bind_eq_ok.mp rest
      obtain ⟨c5, -, rest⟩ := Except.bind_eq_ok.mp rest
      obtain ⟨c6, -, rest⟩ := Except.bind_eq_ok.mp rest
      obtain ⟨c7, -, rest⟩ := Except.bind_eq_ok.mp rest
      obtain ⟨c8, -, rest⟩ := Except.bind_eq_ok.mp rest
      exact batchWrite_changes batchIncrement_valid rest
  | createBlobAndTransfer =>
      obtain ⟨blob, created, rest⟩ := Except.bind_eq_ok.mp run
      obtain rfl := Except.pure_eq_ok.mp rest
      exact (createBlob_effect created).changes
  | createBlobBatch count => exact createBlobBatchLoop_changes run
  | updateBlob id => exact rewriteBlob_changes updateBlob_eq_ok run
  | updateBlobEntropy id entropy => exact rewriteBlob_changes updateBlobEntropy_eq_ok run
  | readBlob id =>
      obtain ⟨blob, -, rest⟩ := Except.bind_eq_ok.mp run
      obtain ⟨sum, -, rest⟩ := Except.bind_eq_ok.mp rest
      obtain rfl := Except.pure_eq_ok.mp rest
      exact Relation.ReflTransGen.refl
  | readUpdateBlob readId writeId =>
      obtain ⟨-, -, rest⟩ := Except.bind_eq_ok.mp run
      obtain ⟨readBlob, -, rest⟩ := Except.bind_eq_ok.mp rest
      obtain ⟨writeBlob, -, rest⟩ := Except.bind_eq_ok.mp rest
      obtain ⟨blob', updated, rest⟩ := Except.bind_eq_ok.mp rest
      obtain rfl := Except.pure_eq_ok.mp rest
      exact writeBlob_changes (readUpdateBlob_eq_ok updated)
  | deleteBlob id =>
      obtain ⟨blob, -, rest⟩ := Except.bind_eq_ok.mp run
      obtain rfl := Except.pure_eq_ok.mp rest
      exact (Effect.eraseBlob id).changes

end Changes

end IoChurn
end FdpBench
