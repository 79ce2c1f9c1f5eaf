import FdpBench.SuiBench.Worker
import FdpBench.Lib.CappedTable
import FdpBench.Lib.Except

/-!
# A worker's tracked objects stay distinct and capped

The ids of a worker's tracked objects form a `CappedTable` of capacity
`MAX_TRACKED_OBJECTS_PER_WORKER`: creates append new ids while there is room, updates keep every
id, a pressure drop keeps a prefix and a refresh keeps the ids the node still answers for.  So
every reachable worker has distinct ids under the cap, and an update batch passes `min(count, len)`
distinct tracked objects.
-/

namespace FdpBench
namespace SuiBench

open CappedTable

/-- The ids of a list of tracked objects. -/
def objectIds (objects : List TrackedObject) : List Nat :=
  objects.map (·.id)

@[simp]
theorem length_objectIds (objects : List TrackedObject) :
    (objectIds objects).length = objects.length :=
  List.length_map _

/-- The objects the `Created` changes of a list report, in order. -/
def createdObjects (changes : List ObjectChange) : List TrackedObject :=
  changes.filterMap ObjectChange.created?

/-- The ids a batch function reads as created from a response: none without effects or
changes. -/
def createdIds (response : Response) : List Nat :=
  match response.effects, response.objectChanges with
  | some _, some changes => objectIds (createdObjects changes)
  | _, _ => []

/-- A response reports only new objects as created: distinct ids, none of them tracked. -/
def CreatedFresh (objects : List TrackedObject) (response : Response) : Prop :=
  (createdIds response).Nodup ∧ ∀ id ∈ createdIds response, id ∉ objectIds objects

instance (objects : List TrackedObject) : DecidablePred (CreatedFresh objects) :=
  fun _ => inferInstanceAs (Decidable (_ ∧ _))

/-- Every answer of the node to a batch transaction reports only new objects as created. -/
def FreshAnswers (objects : List TrackedObject) (node : Transaction → Except String Response) :
    Prop :=
  ∀ transaction response, node transaction = .ok response → CreatedFresh objects response

/-- The node's answers to the transactions of `create_seed_objects`: each reports only new objects
as created, and no two transactions report the same object. -/
structure SeedAnswers (objects : List TrackedObject)
    (node : Nat → Transaction → Except String Response) : Prop where
  fresh : ∀ sent transaction response, node sent transaction = .ok response →
    CreatedFresh objects response
  apart : ∀ sent sent' transaction transaction' response response', sent ≠ sent' →
    node sent transaction = .ok response → node sent' transaction' = .ok response' →
    ∀ id ∈ createdIds response, id ∉ createdIds response'

/-- `multi_get_object_with_options` answers each requested id at most once, in the order of the
request, and answers for no other id. -/
def AnswersRequested (multiGet : List Nat → Except String (List (Option TrackedObject))) : Prop :=
  ∀ ids answers, multiGet ids = .ok answers → (objectIds (answers.filterMap id)).Sublist ids

/-! ## Reading a response -/

/-- The loop over created objects appends them while there is room, and counts all of them. -/
theorem foldl_pushCreated (changes : List ObjectChange) (objects : List TrackedObject)
    (count : Nat) :
    changes.foldl pushCreated (objects, count) =
      (objects ++ (createdObjects changes).take (maxTrackedObjectsPerWorker - objects.length),
        count + (createdObjects changes).length) := by
  induction changes generalizing objects count with
  | nil => simp [createdObjects]
  | cons change changes induction =>
      cases change with
      | created object =>
          have created : createdObjects (.created object :: changes) =
              object :: createdObjects changes := rfl
          rw [List.foldl_cons, pushCreated, created, List.length_cons]
          by_cases room : objects.length < maxTrackedObjectsPerWorker
          · obtain ⟨left, left_eq⟩ : ∃ left, maxTrackedObjectsPerWorker - objects.length = left + 1 :=
              ⟨_, (Nat.succ_pred_eq_of_pos (Nat.sub_pos_of_lt room)).symm⟩
            have after : maxTrackedObjectsPerWorker - (objects ++ [object]).length = left := by
              rw [List.length_append, List.length_singleton]
              omega
            rw [if_pos room, induction, after, left_eq, List.take_succ_cons, List.append_assoc,
              List.singleton_append]
            congr 1
            omega
          · have full : maxTrackedObjectsPerWorker - objects.length = 0 := by omega
            rw [if_neg room, induction, full, List.take_zero, List.take_zero]
            congr 1
            omega
      | mutated object => exact induction objects count
      | other => exact induction objects count

/-- Writing a mutated object's version and digest keeps every id. -/
theorem objectIds_updateFirst {changed : TrackedObject} {objects updated : List TrackedObject}
    (found : updateFirst changed objects = some updated) : objectIds updated = objectIds objects := by
  induction objects generalizing updated with
  | nil => cases found
  | cons object objects induction =>
      rw [updateFirst] at found
      split at found
      case isTrue same =>
        cases found
        rfl
      case isFalse =>
        obtain ⟨rest, rest_found, rfl⟩ := Option.map_eq_some_iff.mp found
        simp only [objectIds, List.map_cons] at induction ⊢
        rw [induction rest_found]

/-- The loop over mutated objects keeps every id. -/
theorem objectIds_foldl_applyMutated (changes : List ObjectChange) (objects : List TrackedObject)
    (count : Nat) :
    objectIds (changes.foldl applyMutated (objects, count)).1 = objectIds objects := by
  induction changes generalizing objects count with
  | nil => rfl
  | cons change changes induction =>
      rw [List.foldl_cons]
      cases change with
      | mutated object =>
          rw [applyMutated]
          split
          case h_1 updated found => rw [induction, objectIds_updateFirst found]
          case h_2 => exact induction objects count
      | created object => exact induction objects count
      | other => exact induction objects count

theorem objectIds_afterExecute_pushCreated (state : WorkerState) (response : Response) :
    objectIds (afterExecute pushCreated state response).1.objects =
      objectIds state.objects ++
        (createdIds response).take (maxTrackedObjectsPerWorker - state.objects.length) := by
  obtain ⟨effects, objectChanges⟩ := response
  cases effects with
  | none => simp [afterExecute, createdIds]
  | some gasObject =>
      cases objectChanges with
      | none => simp [afterExecute, createdIds]
      | some changes =>
          simp [afterExecute, createdIds, foldl_pushCreated, objectIds, List.map_take]

theorem objectIds_afterExecute_applyMutated (state : WorkerState) (response : Response) :
    objectIds (afterExecute applyMutated state response).1.objects = objectIds state.objects := by
  obtain ⟨effects, objectChanges⟩ := response
  cases effects with
  | none => rfl
  | some gasObject =>
      cases objectChanges with
      | none => rfl
      | some changes => exact objectIds_foldl_applyMutated changes state.objects 0

/-! ## The calls as changes of the table of ids -/

/-- A change of the worker's table of ids. -/
abbrev IdsChange : List Nat → List Nat → Prop :=
  Change maxTrackedObjectsPerWorker

/-- A response that reports only new objects appends their ids while there is room. -/
theorem afterExecute_pushCreated_change {state : WorkerState} {response : Response}
    (fresh : CreatedFresh state.objects response) :
    IdsChange (objectIds state.objects) (objectIds (afterExecute pushCreated state response).1.objects) := by
  have extended : IdsChange (objectIds state.objects) (objectIds state.objects ++
      (createdIds response).take (maxTrackedObjectsPerWorker - (objectIds state.objects).length)) :=
    .extend fresh.1 fresh.2
  rw [length_objectIds] at extended
  rw [objectIds_afterExecute_pushCreated]
  exact extended

theorem afterExecute_applyMutated_change (state : WorkerState) (response : Response) :
    IdsChange (objectIds state.objects) (objectIds (afterExecute applyMutated state response).1.objects) := by
  rw [objectIds_afterExecute_applyMutated]
  exact .select (List.Sublist.refl _)

/-- `execute_create_batch` and `execute_create_blob_batch` succeed with the node's answer to their
transaction, read by the loop over created objects. -/
theorem executeCreate_eq_ok {function : EntryFunction} {batch : Nat} {state next : WorkerState}
    {node : Transaction → Except String Response} {created updated : Nat}
    (run : executeCreate function batch state node = .ok (next, created, updated)) :
    ∃ response, node (createTransaction function state batch) = .ok response ∧
      afterExecute pushCreated state response = (next, created) ∧ updated = 0 := by
  obtain ⟨response, answered, after⟩ := Except.bind_eq_ok.mp run
  simp only [Except.pure_eq_ok, Prod.mk.injEq] at after
  exact ⟨response, answered, Prod.ext after.1 after.2.1, after.2.2.symm⟩

/-- `execute_update_batch` and `execute_update_blob_batch` succeed with the node's answer to the
transaction they build, read by the loop over mutated objects. -/
theorem executeUpdate_eq_ok {function : EntryFunction} {batch startIdx : Nat}
    {state next : WorkerState} {node : Transaction → Except String Response}
    {created updated : Nat}
    (run : executeUpdate function batch state startIdx node = .ok (next, created, updated)) :
    ∃ transaction response, updateTransaction function batch state startIdx = .ok transaction ∧
      node transaction = .ok response ∧ afterExecute applyMutated state response = (next, updated) ∧
      created = 0 := by
  obtain ⟨transaction, built, sent⟩ := Except.bind_eq_ok.mp run
  obtain ⟨response, answered, after⟩ := Except.bind_eq_ok.mp sent
  simp only [Except.pure_eq_ok, Prod.mk.injEq] at after
  exact ⟨transaction, response, built, answered, Prod.ext after.1 after.2.2, after.2.1.symm⟩

theorem executeCreate_change {function : EntryFunction} {batch : Nat} {state next : WorkerState}
    {node : Transaction → Except String Response} {created updated : Nat}
    (fresh : FreshAnswers state.objects node)
    (run : executeCreate function batch state node = .ok (next, created, updated)) :
    IdsChange (objectIds state.objects) (objectIds next.objects) := by
  obtain ⟨response, answered, after, -⟩ := executeCreate_eq_ok run
  have next_eq : (afterExecute pushCreated state response).1 = next := congrArg Prod.fst after
  rw [← next_eq]
  exact afterExecute_pushCreated_change (fresh _ _ answered)

theorem executeUpdate_change {function : EntryFunction} {batch startIdx : Nat}
    {state next : WorkerState} {node : Transaction → Except String Response}
    {created updated : Nat}
    (run : executeUpdate function batch state startIdx node = .ok (next, created, updated)) :
    IdsChange (objectIds state.objects) (objectIds next.objects) := by
  obtain ⟨-, response, -, -, after, -⟩ := executeUpdate_eq_ok run
  have next_eq : (afterExecute applyMutated state response).1 = next := congrArg Prod.fst after
  rw [← next_eq]
  exact afterExecute_applyMutated_change state response

/-- The ids of a seeding worker come from its start or from the first `sent` answers. -/
def SeedOrigin (start objects : List TrackedObject)
    (node : Nat → Transaction → Except String Response) (sent : Nat) : Prop :=
  ∀ id ∈ objectIds objects, id ∈ objectIds start ∨
    ∃ j < sent, ∃ transaction response, node j transaction = .ok response ∧ id ∈ createdIds response

/-- The next answer of a seeding run reports only objects that are not tracked yet. -/
theorem SeedAnswers.fresh_next {start : List TrackedObject}
    {node : Nat → Transaction → Except String Response} (answers : SeedAnswers start node)
    {objects : List TrackedObject} {sent : Nat} (origin : SeedOrigin start objects node sent)
    {transaction : Transaction} {response : Response}
    (answered : node sent transaction = .ok response) : CreatedFresh objects response := by
  have fresh := answers.fresh sent transaction response answered
  refine ⟨fresh.1, ?_⟩
  intro id created tracked
  rcases origin id tracked with at_start | ⟨j, before, transaction', response', answered', earlier⟩
  · exact fresh.2 id created at_start
  · exact answers.apart j sent transaction' transaction response' response (Nat.ne_of_lt before)
      answered' answered id earlier created

theorem SeedOrigin.afterExecute {start objects : List TrackedObject}
    {node : Nat → Transaction → Except String Response} {sent : Nat}
    (origin : SeedOrigin start objects node sent) (gasCoin : TrackedObject)
    {transaction : Transaction} {response : Response}
    (answered : node sent transaction = .ok response) :
    SeedOrigin start (afterExecute pushCreated ⟨gasCoin, objects⟩ response).1.objects node
      (sent + 1) := by
  intro id member
  rw [objectIds_afterExecute_pushCreated, List.mem_append] at member
  rcases member with tracked | created
  · rcases origin id tracked with at_start | ⟨j, before, earlier⟩
    · exact .inl at_start
    · exact .inr ⟨j, Nat.lt_succ_of_lt before, earlier⟩
  · exact .inr ⟨sent, Nat.lt_succ_self sent, transaction, response, answered,
      List.mem_of_mem_take created⟩

/-- The loop of `create_seed_objects` is a sequence of appends of new ids. -/
theorem createSeedObjectsLoop_changes {start : List TrackedObject}
    {node : Nat → Transaction → Except String Response} (answers : SeedAnswers start node)
    (state : WorkerState) (remaining sent : Nat) {next : WorkerState}
    (origin : SeedOrigin start state.objects node sent)
    (run : createSeedObjectsLoop node state remaining sent = .ok next) :
    Relation.ReflTransGen IdsChange (objectIds state.objects) (objectIds next.objects) := by
  revert origin run
  fun_induction createSeedObjectsLoop node state remaining sent with
  | case1 state sent =>
      intro _ run
      cases run
      exact .refl
  | case2 =>
      intro _ run
      cases run
  | case3 state sent remaining batch response answered induction =>
      intro origin run
      have fresh := answers.fresh_next origin answered
      have later := induction (origin.afterExecute state.gasCoin answered) run
      exact .head (afterExecute_pushCreated_change fresh) later

/-- The loop of `refresh_worker_objects` keeps some of the ids, in order. -/
theorem refreshChunks_sublist {multiGet : List Nat → Except String (List (Option TrackedObject))}
    (answered : AnswersRequested multiGet) (objects : List TrackedObject)
    {refreshed : List TrackedObject} (refresh : refreshChunks multiGet objects = .ok refreshed) :
    (objectIds refreshed).Sublist (objectIds objects) := by
  revert refreshed
  fun_induction refreshChunks multiGet objects with
  | case1 =>
      intro refreshed refresh
      cases refresh
      exact List.Sublist.slnil
  | case2 =>
      intro refreshed refresh
      cases refresh
  | case3 object objects answers got induction =>
      intro refreshed refresh
      obtain ⟨later, later_run, joined⟩ := Except.bind_eq_ok.mp refresh
      rw [← Except.pure_eq_ok.mp joined, objectIds, List.map_append]
      have chunk : (objectIds (answers.filterMap id)).Sublist
          (objectIds ((object :: objects).take 50)) := answered _ _ got
      have split_ids : objectIds (object :: objects) =
          objectIds ((object :: objects).take 50) ++ objectIds ((object :: objects).drop 50) := by
        rw [objectIds, objectIds, objectIds, ← List.map_append, List.take_append_drop]
      rw [split_ids]
      exact chunk.append (induction later_run)

theorem refreshWorkerObjects_change
    {multiGet : List Nat → Except String (List (Option TrackedObject))}
    (answered : AnswersRequested multiGet) {state next : WorkerState}
    (refresh : refreshWorkerObjects multiGet state = .ok next) :
    IdsChange (objectIds state.objects) (objectIds next.objects) := by
  rw [refreshWorkerObjects] at refresh
  split at refresh
  case isTrue =>
    cases refresh
    exact .select (List.Sublist.refl _)
  case isFalse =>
    obtain ⟨refreshed, refreshed_run, replaced⟩ := Except.bind_eq_ok.mp refresh
    rw [← Except.pure_eq_ok.mp replaced]
    exact .select (refreshChunks_sublist answered state.objects refreshed_run)

/-- The drop under memory pressure keeps a prefix. -/
theorem dropTrackedObjects_sublist (dropPct : Nat) (objects : List TrackedObject) :
    (dropTrackedObjects dropPct objects).Sublist objects := by
  unfold dropTrackedObjects
  split
  · exact List.take_sublist _ _
  · exact List.Sublist.refl _

theorem dropTrackedObjects_change (dropPct : Nat) (objects : List TrackedObject) :
    IdsChange (objectIds objects) (objectIds (dropTrackedObjects dropPct objects)) :=
  .select ((dropTrackedObjects_sublist dropPct objects).map _)

/-! ## The worker's steps -/

/-- One call that changes a worker's state, with the node answering as it guarantees.  A call that
fails leaves the state as it was, so it is no step. -/
inductive WorkerStep : WorkerState → WorkerState → Prop
  | createBatch {state next : WorkerState} {count created updated : Nat}
      {node : Transaction → Except String Response} (fresh : FreshAnswers state.objects node)
      (run : executeCreateBatch state count node = .ok (next, created, updated)) :
      WorkerStep state next
  | createBlobBatch {state next : WorkerState} {count created updated : Nat}
      {node : Transaction → Except String Response} (fresh : FreshAnswers state.objects node)
      (run : executeCreateBlobBatch state count node = .ok (next, created, updated)) :
      WorkerStep state next
  | updateBatch {state next : WorkerState} {count startIdx created updated : Nat}
      {node : Transaction → Except String Response}
      (run : executeUpdateBatch state count startIdx node = .ok (next, created, updated)) :
      WorkerStep state next
  | updateBlobBatch {state next : WorkerState} {count startIdx created updated : Nat}
      {node : Transaction → Except String Response}
      (run : executeUpdateBlobBatch state count startIdx node = .ok (next, created, updated)) :
      WorkerStep state next
  /-- The drop at the top of `run_worker`'s loop. -/
  | dropObjects (state : WorkerState) (pressureLevel : Nat) :
      WorkerStep state
        { state with objects := dropTrackedObjects (pressureThrottle pressureLevel).1 state.objects }
  | seed {state next : WorkerState} {count : Nat}
      {node : Nat → Transaction → Except String Response} (answers : SeedAnswers state.objects node)
      (run : createSeedObjects node state count = .ok next) : WorkerStep state next
  | refresh {state next : WorkerState}
      {multiGet : List Nat → Except String (List (Option TrackedObject))}
      (answered : AnswersRequested multiGet)
      (run : refreshWorkerObjects multiGet state = .ok next) : WorkerStep state next
  /-- Load mode: the objects saved by `--save-objects`, with a gas coin from the faucet. -/
  | reload (state : WorkerState) (gasCoin : TrackedObject) :
      WorkerStep state { state with gasCoin := gasCoin }

/-- The states of a worker: it starts with no objects, and then makes its calls. -/
def Reachable (state : WorkerState) : Prop :=
  Trace.Reachable WorkerStep (fun start => start.objects = []) state

/-- Every step of a worker changes its table of ids by changes of the table. -/
theorem WorkerStep.changes {state next : WorkerState} (step : WorkerStep state next) :
    Relation.ReflTransGen IdsChange (objectIds state.objects) (objectIds next.objects) := by
  cases step with
  | createBatch fresh run => exact .single (executeCreate_change fresh run)
  | createBlobBatch fresh run => exact .single (executeCreate_change fresh run)
  | updateBatch run => exact .single (executeUpdate_change run)
  | updateBlobBatch run => exact .single (executeUpdate_change run)
  | dropObjects pressureLevel => exact .single (dropTrackedObjects_change _ _)
  | seed answers run =>
      refine createSeedObjectsLoop_changes answers state _ 0 ?_ run
      intro id tracked
      exact .inl tracked
  | refresh answered run => exact .single (refreshWorkerObjects_change answered run)
  | reload gasCoin => exact .refl

/-- Every reachable worker tracks distinct ids, at most `MAX_TRACKED_OBJECTS_PER_WORKER`. -/
theorem Reachable.valid {state : WorkerState} (reach : Reachable state) :
    Valid maxTrackedObjectsPerWorker (objectIds state.objects) := by
  refine @Trace.Reachable.invariant _ _ _
    (fun state => Valid maxTrackedObjectsPerWorker (objectIds state.objects)) ?_ ?_ _ reach
  · intro start empty
    rw [empty]
    exact valid_nil
  · intro state next valid step
    exact valid_of_changes step.changes valid

/-! ## `run_worker` -/

/-- Dropping objects keeps the node's answers fresh. -/
theorem FreshAnswers.of_sublist {objects kept : List TrackedObject}
    {node : Transaction → Except String Response} (fresh : FreshAnswers objects node)
    (sub : kept.Sublist objects) : FreshAnswers kept node := by
  intro transaction response answered
  obtain ⟨distinct, new⟩ := fresh transaction response answered
  exact ⟨distinct, fun id created tracked => new id created ((sub.map _).subset tracked)⟩

/-- A batch function of `run_worker` is a step, or fails and changes nothing. -/
theorem workerOperation_steps (useBlobs doCreate : Bool) (batchSize startIdx : Nat)
    (state : WorkerState) {node : Transaction → Except String Response}
    (fresh : FreshAnswers state.objects node) :
    Relation.ReflTransGen WorkerStep state
      (afterOperation state (workerOperation useBlobs doCreate batchSize startIdx state node)) := by
  cases result : workerOperation useBlobs doCreate batchSize startIdx state node with
  | error failure => exact .refl
  | ok outcome =>
      obtain ⟨next, created, updated⟩ := outcome
      refine .single ?_
      cases useBlobs <;> cases doCreate
      case false.false => exact .updateBatch result
      case false.true => exact .createBatch fresh result
      case true.false => exact .updateBlobBatch result
      case true.true => exact .createBlobBatch fresh result

/-- One iteration of `run_worker`'s loop is a sequence of a worker's steps. -/
theorem runWorkerIteration_steps (useBlobs : Bool) (batchSize : Nat) (iteration : Iteration)
    (state : WorkerState) (fresh : FreshAnswers state.objects iteration.node) :
    Relation.ReflTransGen WorkerStep state (runWorkerIteration useBlobs batchSize iteration state) := by
  unfold runWorkerIteration
  split
  case isFalse => exact workerOperation_steps _ _ _ _ state fresh
  case isTrue =>
    -- the drop comes first, and answers fresh for all objects stay fresh for those kept
    have still_fresh := fresh.of_sublist
      (dropTrackedObjects_sublist (pressureThrottle iteration.pressureLevel).1 state.objects)
    refine .head (.dropObjects state iteration.pressureLevel) ?_
    dsimp only
    split
    case isTrue =>
      split
      case isTrue => exact .refl
      case isFalse => exact workerOperation_steps _ _ _ _ _ still_fresh
    case isFalse => exact workerOperation_steps _ _ _ _ _ still_fresh

/-- A worker stays reachable through every iteration of `run_worker` whose node reports only new
objects as created. -/
theorem runWorkerIteration_reachable {state : WorkerState} (reach : Reachable state)
    (useBlobs : Bool) (batchSize : Nat) (iteration : Iteration)
    (fresh : FreshAnswers state.objects iteration.node) :
    Reachable (runWorkerIteration useBlobs batchSize iteration state) := by
  obtain ⟨start, empty, path⟩ := reach
  exact ⟨start, empty, path.trans (runWorkerIteration_steps useBlobs batchSize iteration state fresh)⟩

/-- A first iteration that creates a batch of two objects reaches the state tracking both. -/
theorem runWorkerIteration_reachable_first_create :
    runWorkerIteration false 2
        ⟨0, true, 0, fun _ => .ok ⟨some ⟨9, 1, 0⟩, some [.created ⟨1, 1, 0⟩, .created ⟨2, 1, 0⟩]⟩⟩
        ⟨⟨0, 0, 0⟩, []⟩ = ⟨⟨9, 1, 0⟩, [⟨1, 1, 0⟩, ⟨2, 1, 0⟩]⟩ ∧
      Reachable (runWorkerIteration false 2
        ⟨0, true, 0, fun _ => .ok ⟨some ⟨9, 1, 0⟩, some [.created ⟨1, 1, 0⟩, .created ⟨2, 1, 0⟩]⟩⟩
        ⟨⟨0, 0, 0⟩, []⟩) :=
  ⟨rfl, runWorkerIteration_reachable (Trace.Reachable.of_initial rfl) false 2 _
    (fun _ _ answered => by cases answered; decide)⟩

/-! ## The objects an update batch passes -/

/-- The objects an update transaction passes: `count` of them, with distinct ids, all tracked. -/
structure UpdateReferences (objects : List TrackedObject) (count : Nat)
    (transaction : Transaction) : Prop where
  length_eq : transaction.objectRefs.length = count
  ids_nodup : (objectIds transaction.objectRefs).Nodup
  tracked : ∀ ref ∈ transaction.objectRefs, ref ∈ objects

/-- An update transaction passes the objects at `min batch len` consecutive positions from the
start index, counted round-robin. -/
theorem updateTransaction_objectRefs {function : EntryFunction} {batch startIdx : Nat}
    {state : WorkerState} {transaction : Transaction}
    (built : updateTransaction function batch state startIdx = .ok transaction) :
    ∃ nonempty : state.objects ≠ [], transaction.objectRefs =
      (List.range (min batch state.objects.length)).map
        (roundRobinObject state.objects nonempty startIdx) := by
  unfold updateTransaction at built
  split at built
  case isTrue => cases built
  case isFalse nonempty =>
    cases built
    refine ⟨nonempty, ?_⟩
    simp only [Transaction.objectRefs, List.flatMap_map, CallArg.object?, List.filterMap_cons,
      List.filterMap_nil]
    exact List.flatMap_pure_eq_map _ _

/-- With distinct tracked ids, an update transaction passes `min batch len` distinct tracked
objects. -/
theorem updateTransaction_references {function : EntryFunction} {batch startIdx : Nat}
    {state : WorkerState} (distinct : (objectIds state.objects).Nodup) {transaction : Transaction}
    (built : updateTransaction function batch state startIdx = .ok transaction) :
    UpdateReferences state.objects (min batch state.objects.length) transaction := by
  obtain ⟨nonempty, refs⟩ := updateTransaction_objectRefs built
  refine ⟨by simp [refs], ?_, ?_⟩
  · rw [refs, objectIds, List.map_map]
    exact KeyedList.nodup_map_atCyclic distinct nonempty startIdx (Nat.min_le_right _ _)
  · intro ref member
    rw [refs] at member
    obtain ⟨i, -, rfl⟩ := List.mem_map.mp member
    exact KeyedList.atCyclic_mem _ _ _

/-- While a worker tracks objects with distinct ids, an update batch builds a transaction, and it
passes `min batch len` distinct tracked objects. -/
theorem updateTransaction_builds (function : EntryFunction) (batch startIdx : Nat)
    {state : WorkerState} (distinct : (objectIds state.objects).Nodup)
    (nonempty : state.objects ≠ []) :
    ∃ transaction, updateTransaction function batch state startIdx = .ok transaction ∧
      UpdateReferences state.objects (min batch state.objects.length) transaction := by
  cases built : updateTransaction function batch state startIdx with
  | error message =>
      -- only an empty list of objects makes the batch fail
      rw [updateTransaction, dif_neg nonempty] at built
      cases built
  | ok transaction => exact ⟨transaction, rfl, updateTransaction_references distinct built⟩

/-- Every reachable worker tracks objects with distinct ids, at most
`MAX_TRACKED_OBJECTS_PER_WORKER` of them, and while it tracks any, `execute_update_batch` (or
`execute_update_blob_batch`) builds a transaction, which passes `min(count, len)` (or
`min(count, 20, len)`) distinct tracked objects. -/
theorem reachable_tracked_objects {state : WorkerState} (reach : Reachable state) :
    (objectIds state.objects).Nodup ∧ state.objects.length ≤ maxTrackedObjectsPerWorker ∧
      ∀ count startIdx, state.objects ≠ [] →
        (∃ transaction, updateTransaction .incrementSimple count state startIdx = .ok transaction ∧
          UpdateReferences state.objects (min count state.objects.length) transaction) ∧
        (∃ transaction,
          updateTransaction .updateBlob (min count 20) state startIdx = .ok transaction ∧
          UpdateReferences state.objects (min (min count 20) state.objects.length) transaction) := by
  have valid := reach.valid
  refine ⟨valid.nodup, by simpa using valid.length_le, ?_⟩
  intro count startIdx nonempty
  exact ⟨updateTransaction_builds .incrementSimple count startIdx valid.nodup nonempty,
    updateTransaction_builds .updateBlob (min count 20) startIdx valid.nodup nonempty⟩

/-- A worker whose first create batch reported two objects. -/
theorem reachable_tracked_objects_after_create :
    Reachable ⟨⟨9, 1, 0⟩, [⟨1, 1, 0⟩, ⟨2, 1, 0⟩]⟩ ∧
      (objectIds [⟨1, 1, 0⟩, ⟨2, 1, 0⟩]).Nodup ∧ 2 ≤ maxTrackedObjectsPerWorker ∧
      ∀ count startIdx, ([⟨1, 1, 0⟩, ⟨2, 1, 0⟩] : List TrackedObject) ≠ [] →
        (∃ transaction, updateTransaction .incrementSimple count
            ⟨⟨9, 1, 0⟩, [⟨1, 1, 0⟩, ⟨2, 1, 0⟩]⟩ startIdx = .ok transaction ∧
          UpdateReferences [⟨1, 1, 0⟩, ⟨2, 1, 0⟩] (min count 2) transaction) ∧
        (∃ transaction, updateTransaction .updateBlob (min count 20)
            ⟨⟨9, 1, 0⟩, [⟨1, 1, 0⟩, ⟨2, 1, 0⟩]⟩ startIdx = .ok transaction ∧
          UpdateReferences [⟨1, 1, 0⟩, ⟨2, 1, 0⟩] (min (min count 20) 2) transaction) := by
  have fresh : FreshAnswers [] fun _ =>
      .ok ⟨some ⟨9, 1, 0⟩, some [.created ⟨1, 1, 0⟩, .created ⟨2, 1, 0⟩]⟩ := by
    intro transaction response answered
    cases answered
    decide
  have reach : Reachable ⟨⟨9, 1, 0⟩, [⟨1, 1, 0⟩, ⟨2, 1, 0⟩]⟩ :=
    (@Trace.Reachable.of_initial _ WorkerStep (fun start => start.objects = [])
      ⟨⟨0, 0, 0⟩, []⟩ rfl).tail (@WorkerStep.createBatch _ _ 2 2 0 _ fresh rfl)
  exact ⟨reach, reachable_tracked_objects reach⟩

end SuiBench
end FdpBench
