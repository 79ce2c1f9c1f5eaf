import FdpBench.Lib.Checked
import FdpBench.Lib.Trace

/-!
# The block-metadata allocator of the executor benchmark

`create_block_metadata_transaction(epoch)` hands out a round and a timestamp from three atomics;
each load and store is atomic, but the function is not.  An invocation is a thread of six atomic
steps, and a schedule interleaves them in any order.  Calls one after another get increasing
timestamps and rounds that restart at 0 at epoch changes; overlapping calls can collide.
-/

namespace FdpBench
namespace ExecutorBenchmark

/-- The statics `ROUND_COUNTER`, `LAST_TIMESTAMP` and `LAST_EPOCH`. -/
structure Allocator where
  roundCounter : BitVec 64
  lastTimestamp : BitVec 64
  lastEpoch : BitVec 64
  deriving DecidableEq, Repr

/-- The three atomics start at zero. -/
def Allocator.initial : Allocator := ⟨0, 0, 0⟩

/-- The fields of the returned `BlockMetadata` that the function computes. -/
structure BlockMetadata where
  epoch : BitVec 64
  round : BitVec 64
  timestampUsecs : BitVec 64
  deriving DecidableEq, Repr

/-- The timestamp rule: the clock if it is past the last timestamp, else the last plus one; the
`+ 1` panics on overflow, as the release profile sets `overflow-checks`. -/
def timestampAfter (currentTimeUsecs lastTimestamp : BitVec 64) : Option (BitVec 64) :=
  if currentTimeUsecs > lastTimestamp then some currentTimeUsecs
  else Checked.add lastTimestamp 1

/-- `create_block_metadata_transaction(epoch)` with no other invocation in between, the clock
reading `currentTimeUsecs`; `none` when it panics. -/
def createBlockMetadataTransaction (epoch currentTimeUsecs : BitVec 64) (allocator : Allocator) :
    Option (BlockMetadata × Allocator) := do
  let allocator :=
    if allocator.lastEpoch ≠ epoch then { allocator with roundCounter := 0, lastEpoch := epoch }
    else allocator
  let round := allocator.roundCounter
  let allocator := { allocator with roundCounter := round + 1 }
  let timestampUsecs ← timestampAfter currentTimeUsecs allocator.lastTimestamp
  return (⟨epoch, round, timestampUsecs⟩, { allocator with lastTimestamp := timestampUsecs })

/-- Invocations one after another, each with its epoch and clock reading; `none` once one
panics. -/
def runSequential (allocator : Allocator) :
    List (BitVec 64 × BitVec 64) → Option (List BlockMetadata × Allocator)
  | [] => some ([], allocator)
  | (epoch, currentTimeUsecs) :: calls => do
      let (block, allocator) ← createBlockMetadataTransaction epoch currentTimeUsecs allocator
      let (blocks, allocator) ← runSequential allocator calls
      return (block :: blocks, allocator)

/-! ## Invocations as threads of atomic steps -/

/-- The next atomic step of an invocation. -/
inductive Pc where
  | loadEpoch
  | resetRound
  | storeEpoch
  | fetchRound
  | loadTimestamp
  | storeTimestamp
  | finished
  deriving DecidableEq, Repr

/-- An invocation and its locals. -/
structure Invocation where
  epoch : BitVec 64
  /-- The clock reading it takes; reading the clock touches no shared word. -/
  currentTimeUsecs : BitVec 64
  pc : Pc
  lastEpoch : BitVec 64
  round : BitVec 64
  timestampUsecs : BitVec 64
  deriving DecidableEq, Repr

/-- An invocation about to load `LAST_EPOCH`. -/
def Invocation.start (epoch currentTimeUsecs : BitVec 64) : Invocation :=
  ⟨epoch, currentTimeUsecs, .loadEpoch, 0, 0, 0⟩

/-- One atomic step of an invocation on the shared words; `none` when it has finished or
panics. -/
def Invocation.step (allocator : Allocator) (invocation : Invocation) :
    Option (Allocator × Invocation) :=
  match invocation.pc with
  | .loadEpoch =>
      some (allocator, { invocation with
        lastEpoch := allocator.lastEpoch
        pc := if allocator.lastEpoch ≠ invocation.epoch then .resetRound else .fetchRound })
  | .resetRound => some ({ allocator with roundCounter := 0 }, { invocation with pc := .storeEpoch })
  | .storeEpoch =>
      some ({ allocator with lastEpoch := invocation.epoch }, { invocation with pc := .fetchRound })
  | .fetchRound =>
      some ({ allocator with roundCounter := allocator.roundCounter + 1 },
        { invocation with round := allocator.roundCounter, pc := .loadTimestamp })
  | .loadTimestamp =>
      (timestampAfter invocation.currentTimeUsecs allocator.lastTimestamp).map fun timestampUsecs =>
        (allocator, { invocation with timestampUsecs, pc := .storeTimestamp })
  | .storeTimestamp =>
      some ({ allocator with lastTimestamp := invocation.timestampUsecs },
        { invocation with pc := .finished })
  | .finished => none

/-- The block a finished invocation returns. -/
def Invocation.block (invocation : Invocation) : BlockMetadata :=
  ⟨invocation.epoch, invocation.round, invocation.timestampUsecs⟩

/-- At most `fuel` steps of one invocation with no other in between. -/
def Invocation.runAlone : Nat → Allocator → Invocation → Option (Allocator × Invocation)
  | 0, allocator, invocation => some (allocator, invocation)
  | fuel + 1, allocator, invocation =>
      match invocation.step allocator with
      | none => if invocation.pc = .finished then some (allocator, invocation) else none
      | some (allocator, invocation) => Invocation.runAlone fuel allocator invocation

/-- The shared words and every invocation started so far. -/
structure System where
  allocator : Allocator
  invocations : List Invocation
  deriving DecidableEq, Repr

/-- The scheduler runs one step of invocation `thread`; a finished or panicked one does not
move. -/
def System.step (system : System) (thread : Nat) : System :=
  match system.invocations[thread]? with
  | none => system
  | some invocation =>
      match invocation.step system.allocator with
      | none => system
      | some (allocator, invocation) => ⟨allocator, system.invocations.set thread invocation⟩

/-- The system after a schedule of steps. -/
def System.run (system : System) (schedule : List Nat) : System :=
  Trace.run System.step system schedule

/-! ## One invocation alone -/

theorem timestampAfter_gt {currentTimeUsecs lastTimestamp timestampUsecs : BitVec 64}
    (stamped : timestampAfter currentTimeUsecs lastTimestamp = some timestampUsecs) :
    lastTimestamp.toNat < timestampUsecs.toNat := by
  unfold timestampAfter at stamped
  split at stamped
  case isTrue later =>
    obtain rfl := Option.some.inj stamped
    exact later
  case isFalse _ =>
    have one : (1 : BitVec 64).toNat = 1 := rfl
    obtain ⟨-, value⟩ := Checked.add_eq_some_iff.mp stamped
    omega

/-- What one invocation does: the round is the counter after the epoch check, the timestamp
passes the last one, and the atomics remember the block. -/
theorem createBlockMetadataTransaction_eq_some {epoch currentTimeUsecs : BitVec 64}
    {allocator allocator' : Allocator} {block : BlockMetadata}
    (created : createBlockMetadataTransaction epoch currentTimeUsecs allocator = some (block, allocator')) :
    block.epoch = epoch ∧
      block.round = (if allocator.lastEpoch = epoch then allocator.roundCounter else 0) ∧
      allocator.lastTimestamp.toNat < block.timestampUsecs.toNat ∧
      allocator' = ⟨block.round + 1, block.timestampUsecs, epoch⟩ := by
  by_cases same : allocator.lastEpoch = epoch
  · simp only [createBlockMetadataTransaction, same, ne_eq, not_true_eq_false, if_false,
      Option.bind_eq_bind, Option.bind_eq_some_iff, Option.pure_def, Option.some.injEq] at created
    obtain ⟨timestampUsecs, stamped, rfl, rfl⟩ := created
    exact ⟨rfl, by simp [same], timestampAfter_gt stamped, by rw [← same]⟩
  · simp only [createBlockMetadataTransaction, same, ne_eq, not_false_eq_true, if_true,
      Option.bind_eq_bind, Option.bind_eq_some_iff, Option.pure_def, Option.some.injEq] at created
    obtain ⟨timestampUsecs, stamped, rfl, rfl⟩ := created
    exact ⟨rfl, by simp [same], timestampAfter_gt stamped, rfl⟩

/-- Run alone, an invocation computes `createBlockMetadataTransaction`: the step model refines the
sequential function. -/
theorem runAlone_start (epoch currentTimeUsecs : BitVec 64) (allocator : Allocator) :
    ((Invocation.start epoch currentTimeUsecs).runAlone 7 allocator).map
        (fun result => (result.2.block, result.1)) =
      createBlockMetadataTransaction epoch currentTimeUsecs allocator := by
  by_cases same : allocator.lastEpoch = epoch
  · cases stamped : timestampAfter currentTimeUsecs allocator.lastTimestamp <;>
      simp [Invocation.runAlone, Invocation.step, Invocation.start, createBlockMetadataTransaction,
        Invocation.block, same, stamped]
  · cases stamped : timestampAfter currentTimeUsecs allocator.lastTimestamp <;>
      simp [Invocation.runAlone, Invocation.step, Invocation.start, createBlockMetadataTransaction,
        Invocation.block, same, stamped]

/-! ## Invocations one after another -/

/-- The round rule between consecutive blocks: one more in the same epoch, 0 in a new one. -/
def NextRound (block block' : BlockMetadata) : Prop :=
  block'.round = if block'.epoch = block.epoch then block.round + 1 else 0

/-- What the benchmark needs of the blocks it creates. -/
structure BlocksOrdered (blocks : List BlockMetadata) : Prop where
  timestamps_increase : (blocks.map fun block => block.timestampUsecs.toNat).Pairwise (· < ·)
  first_round : ∀ block ∈ blocks.head?, block.round = 0
  rounds_restart : blocks.IsChain NextRound
  /-- A stretch of blocks of one epoch, at most `2^64` long, has distinct rounds. -/
  rounds_distinct : ∀ pre segment post, blocks = pre ++ segment ++ post →
    (∀ block ∈ segment, ∀ block' ∈ segment, block.epoch = block'.epoch) →
    segment.length ≤ 2 ^ 64 → (segment.map BlockMetadata.round).Nodup

theorem runSequential_nil_eq_some {allocator allocator' : Allocator} {blocks : List BlockMetadata}
    (run : runSequential allocator [] = some (blocks, allocator')) :
    blocks = [] ∧ allocator' = allocator := by
  simp only [runSequential, Option.some.injEq, Prod.mk.injEq] at run
  exact ⟨run.1.symm, run.2.symm⟩

/-- A sequential run that does not panic starts with a block of `create_block_metadata_transaction`
and continues from the atomics that invocation leaves. -/
theorem runSequential_cons_eq_some {allocator allocator' : Allocator}
    {epoch currentTimeUsecs : BitVec 64} {calls : List (BitVec 64 × BitVec 64)}
    {blocks : List BlockMetadata}
    (run : runSequential allocator ((epoch, currentTimeUsecs) :: calls) =
      some (blocks, allocator')) :
    ∃ block middle rest,
      createBlockMetadataTransaction epoch currentTimeUsecs allocator = some (block, middle) ∧
        runSequential middle calls = some (rest, allocator') ∧ blocks = block :: rest := by
  simp only [runSequential, Option.bind_eq_bind, Option.bind_eq_some_iff, Option.pure_def,
    Option.some.injEq, Prod.mk.injEq] at run
  obtain ⟨⟨block, middle⟩, created, ⟨rest, final⟩, rest_run, rfl, rfl⟩ := run
  exact ⟨block, middle, rest, created, rest_run, rfl⟩

theorem runSequential_timestamps {allocator allocator' : Allocator}
    {calls : List (BitVec 64 × BitVec 64)} {blocks : List BlockMetadata}
    (run : runSequential allocator calls = some (blocks, allocator')) :
    (blocks.map fun block => block.timestampUsecs.toNat).Pairwise (· < ·) ∧
      ∀ block ∈ blocks, allocator.lastTimestamp.toNat < block.timestampUsecs.toNat := by
  induction calls generalizing allocator blocks with
  | nil =>
      obtain ⟨rfl, -⟩ := runSequential_nil_eq_some run
      simp
  | cons call calls induction =>
      obtain ⟨epoch, currentTimeUsecs⟩ := call
      obtain ⟨block, middle, rest, created, rest_run, rfl⟩ := runSequential_cons_eq_some run
      obtain ⟨-, -, later, rfl⟩ := createBlockMetadataTransaction_eq_some created
      obtain ⟨rest_increase, rest_later⟩ := induction rest_run
      refine ⟨List.pairwise_cons.mpr ⟨?_, rest_increase⟩, ?_⟩
      · intro timestamp member
        obtain ⟨block', member', rfl⟩ := List.mem_map.mp member
        exact rest_later block' member'
      · intro block' member
        rcases List.mem_cons.mp member with rfl | member'
        · exact later
        · exact later.trans (rest_later block' member')

theorem runSequential_rounds {allocator allocator' : Allocator}
    {calls : List (BitVec 64 × BitVec 64)} {blocks : List BlockMetadata}
    (run : runSequential allocator calls = some (blocks, allocator')) :
    (∀ block ∈ blocks.head?,
        block.round = if allocator.lastEpoch = block.epoch then allocator.roundCounter else 0) ∧
      blocks.IsChain NextRound := by
  induction calls generalizing allocator blocks with
  | nil =>
      obtain ⟨rfl, -⟩ := runSequential_nil_eq_some run
      exact ⟨nofun, List.IsChain.nil⟩
  | cons call calls induction =>
      obtain ⟨epoch, currentTimeUsecs⟩ := call
      obtain ⟨block, middle, rest, created, rest_run, rfl⟩ := runSequential_cons_eq_some run
      obtain ⟨block_epoch, block_round, -, rfl⟩ := createBlockMetadataTransaction_eq_some created
      obtain ⟨rest_first, rest_chain⟩ := induction rest_run
      refine ⟨?_, rest_chain.cons ?_⟩
      · intro first member
        obtain rfl := Option.some.inj member
        rw [block_round, block_epoch]
      · intro next member
        -- the atomics remember `block`, so the next round follows it
        have next_round := rest_first next member
        dsimp only at next_round ⊢
        unfold NextRound
        rw [next_round, block_epoch]
        by_cases same : epoch = next.epoch
        · simp [same]
        · simp [same, Ne.symm same]

/-- In a stretch of one epoch the rounds are successive wrapping increments. -/
theorem rounds_nodup_of_same_epoch {blocks : List BlockMetadata} (chain : blocks.IsChain NextRound)
    {pre segment post : List BlockMetadata} (split : blocks = pre ++ segment ++ post)
    (same : ∀ block ∈ segment, ∀ block' ∈ segment, block.epoch = block'.epoch)
    (short : segment.length ≤ 2 ^ 64) : (segment.map BlockMetadata.round).Nodup := by
  have inner : segment.IsChain NextRound := chain.infix ⟨pre, post, split.symm⟩
  have successive : segment.IsChain fun block block' => block'.round = block.round + 1 := by
    refine inner.imp_of_mem_imp ?_
    intro block block' member member' next
    rw [next, if_pos (same block' member' block member)]
  apply Checked.nodup_of_isChain_succ ((List.isChain_map _).mpr successive)
  rw [List.length_map]
  exact short

/-- Invocations that do not overlap, from the initial atomics, with any clock readings: the
timestamps strictly increase, the first round and the first of every new epoch are 0, the next
round in the same epoch is one more, and a stretch of one epoch of at most `2^64` blocks has
distinct rounds. -/
theorem runSequential_ordered {calls : List (BitVec 64 × BitVec 64)} {blocks : List BlockMetadata}
    {allocator : Allocator} (run : runSequential Allocator.initial calls = some (blocks, allocator)) :
    BlocksOrdered blocks := by
  obtain ⟨increase, -⟩ := runSequential_timestamps run
  obtain ⟨first, chain⟩ := runSequential_rounds run
  refine ⟨increase, ?_, chain, fun _ _ _ split same short =>
    rounds_nodup_of_same_epoch chain split same short⟩
  intro block member
  rw [first block member]
  split <;> rfl

/-- Two calls in epoch 1 at clock reading 5: rounds 0 and 1, timestamps 5 and 6. -/
theorem runSequential_ordered_twice :
    BlocksOrdered [⟨1, 0, 5⟩, ⟨1, 1, 6⟩] :=
  @runSequential_ordered [(1, 5), (1, 5)] [⟨1, 0, 5⟩, ⟨1, 1, 6⟩] ⟨2, 6, 1⟩ (by decide)

/-- Two invocations of epoch 1 reading the clock at 5, interleaved: both load `LAST_EPOCH` before
either stores it, and both load `LAST_TIMESTAMP` before either stores it. -/
def overlappingInvocations : System × List Nat :=
  (⟨Allocator.initial, [Invocation.start 1 5, Invocation.start 1 5]⟩,
    [0, 1, 0, 0, 0, 1, 1, 1, 0, 1, 0, 1])

/-- Both finish, with the same round and the same timestamp. -/
theorem overlapping_invocations_collide :
    (overlappingInvocations.1.run overlappingInvocations.2).invocations.map Invocation.pc =
        [.finished, .finished] ∧
      (overlappingInvocations.1.run overlappingInvocations.2).invocations.map Invocation.block =
        [⟨1, 0, 5⟩, ⟨1, 0, 5⟩] := by
  decide

end ExecutorBenchmark
end FdpBench
