import FdpBench.Lib.KeyedList
import Mathlib.Data.List.Basic

/-!
# The workers of the Sui load generator

Each worker owns a gas coin and a list of tracked objects; a batch function builds one transaction,
submits it and reads the response back into the list.  The node is an input: each call receives
its answer as a function of what it sends.  Object ids, versions and digests are numbers.
-/

namespace FdpBench
namespace SuiBench

/-- `MAX_TRACKED_OBJECTS_PER_WORKER`. -/
def maxTrackedObjectsPerWorker : Nat := 5000

/-- `TrackedObject`; an `ObjectRef` has the same three fields. -/
structure TrackedObject where
  id : Nat
  version : Nat
  digest : Nat
  deriving DecidableEq, Repr

/-- The object changes of a response, as the worker's loops read them. -/
inductive ObjectChange where
  | created (object : TrackedObject)
  | mutated (object : TrackedObject)
  /-- `Published`, `Transferred`, `Deleted` and `Wrapped`, which every loop skips. -/
  | other
  deriving DecidableEq, Repr

/-- The object a `Created` change reports. -/
def ObjectChange.created? : ObjectChange → Option TrackedObject
  | .created object => some object
  | _ => none

/-- A `SuiTransactionBlockResponse`: the gas object of its effects, and its object changes. -/
structure Response where
  effects : Option TrackedObject
  objectChanges : Option (List ObjectChange)
  deriving DecidableEq, Repr

/-- The fields of `WorkerState` that the worker's functions change. -/
structure WorkerState where
  gasCoin : TrackedObject
  objects : List TrackedObject
  deriving DecidableEq, Repr

/-- The entry functions of `io_churn` that the worker calls. -/
inductive EntryFunction where
  | createBatch
  | createBlobBatch
  | incrementSimple
  | updateBlob
  deriving DecidableEq, Repr

/-- An argument of a Move call: a pure value, or an owned object by reference. -/
inductive CallArg where
  | pure (value : Nat)
  | object (ref : TrackedObject)
  deriving DecidableEq, Repr

/-- The object an argument passes. -/
def CallArg.object? : CallArg → Option TrackedObject
  | .object ref => some ref
  | .pure _ => none

/-- One `programmable_move_call`. -/
structure MoveCall where
  function : EntryFunction
  arguments : List CallArg
  deriving DecidableEq, Repr

/-- A programmable transaction and the gas coin that pays for it. -/
structure Transaction where
  gasPayment : TrackedObject
  calls : List MoveCall
  deriving DecidableEq, Repr

/-- The objects a transaction passes to its calls. -/
def Transaction.objectRefs (transaction : Transaction) : List TrackedObject :=
  transaction.calls.flatMap fun call => call.arguments.filterMap CallArg.object?

/-! ## Reading a response -/

/-- One step of the loop over `object_changes` in `execute_create_batch`,
`execute_create_blob_batch` and `create_seed_objects`: a created object is tracked while fewer than
`MAX_TRACKED_OBJECTS_PER_WORKER` are, and counted either way. -/
def pushCreated (tracked : List TrackedObject × Nat) : ObjectChange → List TrackedObject × Nat
  | .created object =>
      (if tracked.1.length < maxTrackedObjectsPerWorker then tracked.1 ++ [object] else tracked.1,
        tracked.2 + 1)
  | _ => tracked

/-- `state.objects.iter_mut().find(|o| o.id == *object_id)` and the write to what it finds. -/
def updateFirst (changed : TrackedObject) : List TrackedObject → Option (List TrackedObject)
  | [] => none
  | object :: objects =>
      if object.id = changed.id then
        some ({ object with version := changed.version, digest := changed.digest } :: objects)
      else (updateFirst changed objects).map (object :: ·)

/-- One step of the loop over `object_changes` in `execute_update_batch` and
`execute_update_blob_batch`: a mutated object that is tracked takes its new version and digest, and
is counted. -/
def applyMutated (tracked : List TrackedObject × Nat) : ObjectChange → List TrackedObject × Nat
  | .mutated object =>
      match updateFirst object tracked.1 with
      | some objects => (objects, tracked.2 + 1)
      | none => tracked
  | _ => tracked

/-- What every batch function does with a response: the gas object of the effects becomes the
gas coin, and `track` is folded over the object changes, which are read only when effects are
present.  Returns the state and the count. -/
def afterExecute (track : List TrackedObject × Nat → ObjectChange → List TrackedObject × Nat)
    (state : WorkerState) (response : Response) : WorkerState × Nat :=
  match response.effects with
  | none => (state, 0)
  | some gasObject =>
      match response.objectChanges with
      | none => ({ state with gasCoin := gasObject }, 0)
      | some changes =>
          let tracked := changes.foldl track (state.objects, 0)
          ({ gasCoin := gasObject, objects := tracked.1 }, tracked.2)

/-! ## The batch functions -/

/-- The transaction of `create_batch` or `create_blob_batch` with the argument `batch`. -/
def createTransaction (function : EntryFunction) (state : WorkerState) (batch : Nat) :
    Transaction :=
  ⟨state.gasCoin, [⟨function, [.pure batch]⟩]⟩

/-- `execute_create_batch` and `execute_create_blob_batch` once the batch size is chosen: the
state after, the objects created and the objects updated. -/
def executeCreate (function : EntryFunction) (batch : Nat) (state : WorkerState)
    (node : Transaction → Except String Response) : Except String (WorkerState × Nat × Nat) := do
  let response ← node (createTransaction function state batch)
  let after := afterExecute pushCreated state response
  return (after.1, after.2, 0)

/-- `execute_create_batch`. -/
def executeCreateBatch (state : WorkerState) (count : Nat)
    (node : Transaction → Except String Response) : Except String (WorkerState × Nat × Nat) :=
  executeCreate .createBatch count state node

/-- `execute_create_blob_batch`: at most 20 blobs a transaction. -/
def executeCreateBlobBatch (state : WorkerState) (count : Nat)
    (node : Transaction → Except String Response) : Except String (WorkerState × Nat × Nat) :=
  executeCreate .createBlobBatch (min count 20) state node

/-- `state.objects[(start_idx + i) % state.objects.len()]`. -/
def roundRobinObject (objects : List TrackedObject) (nonempty : objects ≠ []) (startIdx i : Nat) :
    TrackedObject :=
  KeyedList.atCyclic objects nonempty (startIdx + i)

/-- The transaction of `execute_update_batch` and `execute_update_blob_batch`: `min batch len` calls
of `function`, on the objects round-robin from `start_idx`. -/
def updateTransaction (function : EntryFunction) (batch : Nat) (state : WorkerState)
    (startIdx : Nat) : Except String Transaction :=
  if empty : state.objects = [] then .error "No objects to update"
  else
    let updateCount := min batch state.objects.length
    .ok ⟨state.gasCoin, (List.range updateCount).map fun i =>
      ⟨function, [.object (roundRobinObject state.objects empty startIdx i)]⟩⟩

/-- `execute_update_batch` and `execute_update_blob_batch` once the batch size is chosen. -/
def executeUpdate (function : EntryFunction) (batch : Nat) (state : WorkerState) (startIdx : Nat)
    (node : Transaction → Except String Response) : Except String (WorkerState × Nat × Nat) := do
  let transaction ← updateTransaction function batch state startIdx
  let response ← node transaction
  let after := afterExecute applyMutated state response
  return (after.1, 0, after.2)

/-- `execute_update_batch`: `increment_simple` on up to `count` objects. -/
def executeUpdateBatch (state : WorkerState) (count startIdx : Nat)
    (node : Transaction → Except String Response) : Except String (WorkerState × Nat × Nat) :=
  executeUpdate .incrementSimple count state startIdx node

/-- `execute_update_blob_batch`: `update_blob` on up to `min count 20` objects. -/
def executeUpdateBlobBatch (state : WorkerState) (count startIdx : Nat)
    (node : Transaction → Except String Response) : Except String (WorkerState × Nat × Nat) :=
  executeUpdate .updateBlob (min count 20) state startIdx node

/-! ## Seeding and refreshing -/

/-- The loop of `create_seed_objects` with `remaining` objects to create after `sent`
transactions: batches of at most 100, each answered by `node sent`. -/
def createSeedObjectsLoop (node : Nat → Transaction → Except String Response) (state : WorkerState)
    (remaining sent : Nat) : Except String WorkerState :=
  match remaining with
  | 0 => .ok state
  | remaining + 1 =>
      let batch := min (remaining + 1) 100
      match node sent (createTransaction .createBatch state batch) with
      | .error _ => .error "Failed to execute create_batch"
      | .ok response =>
          createSeedObjectsLoop node (afterExecute pushCreated state response).1
            (remaining + 1 - batch) (sent + 1)
termination_by remaining
decreasing_by omega

/-- `create_seed_objects`. -/
def createSeedObjects (node : Nat → Transaction → Except String Response) (state : WorkerState)
    (count : Nat) : Except String WorkerState :=
  createSeedObjectsLoop node state count 0

/-- The loop of `refresh_worker_objects` over `state.objects.chunks(50)`: the ids of each chunk go
to `multi_get_object_with_options`, and every answer with data is kept, in order. -/
def refreshChunks (multiGet : List Nat → Except String (List (Option TrackedObject))) :
    List TrackedObject → Except String (List TrackedObject)
  | [] => .ok []
  | object :: objects =>
      match multiGet (((object :: objects).take 50).map (·.id)) with
      | .error _ => .error "Failed to query objects"
      | .ok answers => do
          let later ← refreshChunks multiGet ((object :: objects).drop 50)
          return answers.filterMap id ++ later
termination_by objects => objects.length
decreasing_by
  simp only [List.length_drop, List.length_cons]
  omega

/-- `refresh_worker_objects`: the refreshed objects replace the list. -/
def refreshWorkerObjects (multiGet : List Nat → Except String (List (Option TrackedObject)))
    (state : WorkerState) : Except String WorkerState :=
  if state.objects = [] then .ok state
  else do
    let refreshed ← refreshChunks multiGet state.objects
    return { state with objects := refreshed }

/-! ## `run_worker` -/

/-- The arms of `run_worker`'s match on the pressure level: the percentage of tracked objects to
drop, the delay in milliseconds, and whether creates are skipped. -/
def pressureThrottle (pressureLevel : Nat) : Nat × Nat × Bool :=
  match pressureLevel with
  | 3 => (75, 2000, true)
  | 2 => (50, 1000, false)
  | 1 => (25, 250, false)
  | _ => (0, 0, false)

/-- The drop under memory pressure: above 50 objects, the first
`before * (100 - drop_pct) / 100` are kept. -/
def dropTrackedObjects (dropPct : Nat) (objects : List TrackedObject) : List TrackedObject :=
  if 0 < dropPct ∧ 50 < objects.length then
    objects.take (objects.length * (100 - dropPct) / 100)
  else objects

/-- What one iteration of `run_worker`'s loop reads: the pressure level, the draw of
`gen_range(0..100) < create_pct`, the start index an update would draw, and the node. -/
structure Iteration where
  pressureLevel : Nat
  doCreate : Bool
  startIdx : Nat
  node : Transaction → Except String Response

/-- The batch function `run_worker` calls, by `--use-blobs` and the create draw. -/
def workerOperation (useBlobs doCreate : Bool) (batchSize startIdx : Nat) (state : WorkerState)
    (node : Transaction → Except String Response) : Except String (WorkerState × Nat × Nat) :=
  match useBlobs, doCreate with
  | true, true => executeCreateBlobBatch state batchSize node
  | true, false => executeUpdateBlobBatch state batchSize startIdx node
  | false, true => executeCreateBatch state batchSize node
  | false, false => executeUpdateBatch state batchSize startIdx node

/-- The state after a batch function: a failed one leaves it as it was. -/
def afterOperation (state : WorkerState) : Except String (WorkerState × Nat × Nat) → WorkerState
  | .ok (next, _, _) => next
  | .error _ => state

/-- One iteration of `run_worker`'s loop. -/
def runWorkerIteration (useBlobs : Bool) (batchSize : Nat) (iteration : Iteration)
    (state : WorkerState) : WorkerState :=
  if 0 < iteration.pressureLevel then
    let throttle := pressureThrottle iteration.pressureLevel
    let state := { state with objects := dropTrackedObjects throttle.1 state.objects }
    if throttle.2.2 then
      if state.objects = [] then state
      else afterOperation state
        (workerOperation useBlobs false batchSize iteration.startIdx state iteration.node)
    else afterOperation state
      (workerOperation useBlobs iteration.doCreate batchSize iteration.startIdx state iteration.node)
  else afterOperation state
    (workerOperation useBlobs iteration.doCreate batchSize iteration.startIdx state iteration.node)

end SuiBench
end FdpBench
