import Mathlib.Data.List.Basic

/-!
# How many blocks the executor benchmark's generators send

`run_workload` and `run_transfer` send blocks until the block budget, the time limit or the
generators run out, and return a count that `run_benchmark` takes as the blocks created.  A run is
driven by its clock readings and the generators' output; the count is the number of blocks sent
except when the generators run dry or the time limit cuts `run_transfer` short.
-/

namespace FdpBench
namespace ExecutorBenchmark

/-- The counters `phase` and `last_non_empty_phase` of a workload. -/
structure Phases where
  phase : Nat
  lastNonEmptyPhase : Nat
  deriving DecidableEq, Repr

/-- `generate_and_send_block` when the generators produce `generated` transactions: whether it
asks to terminate, the sizes of the blocks it sends, and the counters after. -/
def generateAndSendBlock (generated : Nat) (phases : Phases) : Bool × List Nat × Phases :=
  if generated = 0 then
    let val := phases.phase
    let phases := { phases with phase := val + 1 }
    -- it returns before `block_sender.send`
    if val > phases.lastNonEmptyPhase + 2 then (true, [], phases)
    else (false, [1], phases)
  else
    let val := phases.phase
    (false, [1 + generated], { phases with lastNonEmptyPhase := max phases.lastNonEmptyPhase val })

/-- `elapsed >= limit` when a limit is set. -/
def timeLimitReached (limit : Option Nat) (elapsed : Nat) : Bool :=
  match limit with
  | none => false
  | some limit => limit ≤ elapsed

/-- What one iteration of `run_workload` reads: the clock at its check, and how many transactions
the generators produce for its block. -/
structure Iteration where
  elapsed : Nat
  generated : Nat
  deriving DecidableEq, Repr

/-- Why `run_workload` returned. -/
inductive Exit where
  | completed
  | timeLimit
  | exhausted
  deriving DecidableEq, Repr

/-- The `for i in 0..num_blocks` loop of `run_workload` from index `i` with `remaining`
iterations left: the count returned, the blocks sent, and why it stopped. -/
def runWorkloadLoop (numBlocks : Nat) (limit : Option Nat) (iterations : Nat → Iteration) :
    Nat → Nat → Phases → Nat × List Nat × Exit
  | 0, _, _ => (numBlocks, [], .completed)
  | remaining + 1, i, phases =>
      if timeLimitReached limit (iterations i).elapsed then (i, [], .timeLimit)
      else
        match generateAndSendBlock (iterations i).generated phases with
        | (true, sent, _) => (i + 1, sent, .exhausted)
        | (false, sent, phases) =>
            let rest := runWorkloadLoop numBlocks limit iterations remaining (i + 1) phases
            (rest.1, sent ++ rest.2.1, rest.2.2)

/-- `run_workload`, with the workload's `phase` counter at `phase` and a fresh
`last_non_empty_phase`. -/
def runWorkload (numBlocks : Nat) (limit : Option Nat) (phase : Nat)
    (iterations : Nat → Iteration) : Nat × List Nat × Exit :=
  runWorkloadLoop numBlocks limit iterations numBlocks 0 ⟨phase, 0⟩

/-- `generate_and_send_transfer_block`: every transfer yields a transaction, and the phase
counters are fresh. -/
def generateAndSendTransferBlock (transfers : Nat) : List Nat :=
  (generateAndSendBlock transfers ⟨0, 0⟩).2.1

/-- The loop shared by the three transfer generators: check the time limit, then send a block of
`transfers` transfers; `none` when computing the transfers panics. -/
def genTransferBlocks (limit : Option Nat) (elapsed : Nat → Nat) (transfers : Option Nat) :
    Nat → Nat → Option (List Nat)
  | 0, _ => some []
  | remaining + 1, i =>
      if timeLimitReached limit (elapsed i) then some []
      else do
        let count ← transfers
        let later ← genTransferBlocks limit elapsed transfers remaining (i + 1)
        return generateAndSendTransferBlock count ++ later

/-- The transfers of `get_conflicting_grps_transfer_indices`; it panics unless
`2 * conflicting_tx_grps < num_signer_accounts` and `conflicting_tx_grps <= block_size`. -/
def conflictingGrpsTransferCount (numSignerAccounts blockSize conflictingTxGrps : Nat) : Option Nat :=
  if 2 * conflictingTxGrps ≥ numSignerAccounts then none
  else if conflictingTxGrps > blockSize then none
  else some (blockSize / conflictingTxGrps * conflictingTxGrps)

/-- `gen_connected_grps_transfer_transactions`. -/
def genConnectedGrpsTransferTransactions (blockSize numBlocks : Nat) (limit : Option Nat)
    (elapsed : Nat → Nat) (connectedTxGrps numSignerAccounts : Nat) : Option (List Nat) :=
  genTransferBlocks limit elapsed
    (conflictingGrpsTransferCount numSignerAccounts blockSize connectedTxGrps) numBlocks 0

/-- `gen_random_transfers_with_hotspot`; its `assert!` on the probability's range comes before
the loop. -/
def genRandomTransfersWithHotspot (blockSize numBlocks : Nat) (limit : Option Nat)
    (elapsed : Nat → Nat) (hotspotInRange : Bool) : Option (List Nat) :=
  if hotspotInRange then genTransferBlocks limit elapsed (some blockSize) numBlocks 0 else none

/-- The transfers of `get_random_transfer_indices`: `block_size / transactions_per_sender` senders
of `transactions_per_sender` transfers each.  The division panics on zero, and sampling a sender
with its receivers panics when there are fewer than `transactions_per_sender + 1` accounts. -/
def randomTransferCount (numAccounts blockSize transactionsPerSender : Nat) : Option Nat :=
  if transactionsPerSender = 0 then none
  else if 0 < blockSize / transactionsPerSender ∧ numAccounts < transactionsPerSender + 1 then none
  else some (blockSize / transactionsPerSender * transactionsPerSender)

/-- `gen_random_transfer_transactions`. -/
def genRandomTransferTransactions (blockSize numBlocks : Nat) (limit : Option Nat)
    (elapsed : Nat → Nat) (transactionsPerSender numAccounts : Nat) : Option (List Nat) :=
  genTransferBlocks limit elapsed
    (randomTransferCount numAccounts blockSize transactionsPerSender) numBlocks 0

/-- `gen_transfer_transactions`: the mode is chosen by `connected_tx_grps`, then by whether a
hotspot probability is given (here: whether it lies in `[0.5, 1)`). -/
def genTransferTransactions (blockSize numBlocks : Nat) (limit : Option Nat) (elapsed : Nat → Nat)
    (transactionsPerSender connectedTxGrps numSignerAccounts : Nat)
    (hotspotProbability : Option Bool) : Option (List Nat) :=
  if connectedTxGrps > 0 then
    genConnectedGrpsTransferTransactions blockSize numBlocks limit elapsed connectedTxGrps
      numSignerAccounts
  else
    match hotspotProbability with
    | some inRange => genRandomTransfersWithHotspot blockSize numBlocks limit elapsed inRange
    | none =>
        genRandomTransferTransactions blockSize numBlocks limit elapsed transactionsPerSender
          numSignerAccounts

/-- `run_transfer`: the generator's blocks, and `num_transfer_blocks` as the count. -/
def runTransfer (blockSize numTransferBlocks : Nat) (limit : Option Nat) (elapsed : Nat → Nat)
    (transactionsPerSender connectedTxGrps numSignerAccounts : Nat)
    (hotspotProbability : Option Bool) : Option (Nat × List Nat) := do
  let sent ← genTransferTransactions blockSize numTransferBlocks limit elapsed transactionsPerSender
    connectedTxGrps numSignerAccounts hotspotProbability
  return (numTransferBlocks, sent)

/-! ## One block -/

/-- `generate_and_send_block` sends one block unless it asks to terminate. -/
theorem generateAndSendBlock_sent_length (generated : Nat) (phases : Phases) :
    (generateAndSendBlock generated phases).2.1.length =
      if (generateAndSendBlock generated phases).1 then 0 else 1 := by
  unfold generateAndSendBlock
  split
  · dsimp only
    split <;> rfl
  · rfl

/-- With fresh counters a block is always sent. -/
theorem generateAndSendTransferBlock_length (transfers : Nat) :
    (generateAndSendTransferBlock transfers).length = 1 := by
  unfold generateAndSendTransferBlock generateAndSendBlock
  split <;> rfl

/-! ## `run_workload` -/

/-- The loop invariant: the count returned is the index reached plus the blocks sent since, plus
one when the generators ran dry. -/
theorem runWorkloadLoop_count (numBlocks : Nat) (limit : Option Nat)
    (iterations : Nat → Iteration) (remaining i : Nat) (phases : Phases)
    (bound : i + remaining = numBlocks) :
    (runWorkloadLoop numBlocks limit iterations remaining i phases).1 =
      i + (runWorkloadLoop numBlocks limit iterations remaining i phases).2.1.length +
        if (runWorkloadLoop numBlocks limit iterations remaining i phases).2.2 = .exhausted
        then 1 else 0 := by
  induction remaining generalizing i phases with
  | zero =>
      simp only [runWorkloadLoop, List.length_nil, reduceCtorEq, if_false]
      omega
  | succ remaining induction =>
      rw [runWorkloadLoop]
      split
      case isTrue => simp
      case isFalse =>
        have sent_length := generateAndSendBlock_sent_length (iterations i).generated phases
        -- the iteration sends its block exactly when it does not terminate
        cases result : generateAndSendBlock (iterations i).generated phases with
        | mk terminate rest =>
            obtain ⟨sent, phases'⟩ := rest
            rw [result] at sent_length
            cases terminate with
            | true =>
                simp only [if_true] at sent_length
                simp [List.length_eq_zero_iff.mp sent_length]
            | false =>
                simp only [Bool.false_eq_true, if_false] at sent_length
                have later := induction (i + 1) phases' (by omega)
                simp only [List.length_append, sent_length]
                omega

/-- What `run_workload` returns is the number of blocks it sent, plus one when it stopped because
the generators ran dry. -/
theorem runWorkload_count (numBlocks : Nat) (limit : Option Nat) (phase : Nat)
    (iterations : Nat → Iteration) :
    (runWorkload numBlocks limit phase iterations).1 =
      (runWorkload numBlocks limit phase iterations).2.1.length +
        if (runWorkload numBlocks limit phase iterations).2.2 = .exhausted then 1 else 0 := by
  have counted := runWorkloadLoop_count numBlocks limit iterations numBlocks 0 ⟨phase, 0⟩ (by omega)
  rw [Nat.zero_add] at counted
  exact counted

/-! ## `run_transfer` -/

/-- The transfer loop sends one block per iteration until the time limit is reached. -/
theorem genTransferBlocks_length {limit : Option Nat} {elapsed : Nat → Nat} {transfers : Option Nat}
    {remaining i : Nat} {sent : List Nat}
    (run : genTransferBlocks limit elapsed transfers remaining i = some sent) :
    sent.length = remaining ↔ ∀ j, i ≤ j → j < i + remaining → timeLimitReached limit (elapsed j) = false := by
  induction remaining generalizing i sent with
  | zero =>
      obtain rfl := Option.some.inj run
      simp only [List.length_nil, Nat.add_zero, true_iff]
      intro j below above
      omega
  | succ remaining induction =>
      rw [genTransferBlocks] at run
      split at run
      case isTrue reached =>
        obtain rfl := Option.some.inj run
        constructor
        · intro empty
          cases empty
        · intro all
          have open_ := all i (Nat.le_refl i) (by omega)
          rw [reached] at open_
          cases open_
      case isFalse open_ =>
        simp only [Option.bind_eq_bind, Option.bind_eq_some_iff, Option.pure_def,
          Option.some.injEq] at run
        obtain ⟨count, -, later, later_run, rfl⟩ := run
        rw [List.length_append, generateAndSendTransferBlock_length, Nat.add_comm 1,
          Nat.add_right_cancel_iff, induction later_run]
        constructor
        · intro rest j below above
          rcases Nat.eq_or_lt_of_le below with rfl | later_j
          · simpa using open_
          · exact rest j later_j (by omega)
        · intro all j below above
          exact all j (by omega) (by omega)

/-- All three transfer modes run the shared loop from block 0. -/
theorem genTransferTransactions_eq_some {blockSize numBlocks : Nat} {limit : Option Nat}
    {elapsed : Nat → Nat} {transactionsPerSender connectedTxGrps numSignerAccounts : Nat}
    {hotspotProbability : Option Bool} {sent : List Nat}
    (run : genTransferTransactions blockSize numBlocks limit elapsed transactionsPerSender
      connectedTxGrps numSignerAccounts hotspotProbability = some sent) :
    ∃ transfers, genTransferBlocks limit elapsed transfers numBlocks 0 = some sent := by
  unfold genTransferTransactions at run
  split at run
  case isTrue => exact ⟨_, run⟩
  case isFalse =>
    split at run
    case h_1 inRange =>
      unfold genRandomTransfersWithHotspot at run
      split at run
      case isTrue => exact ⟨_, run⟩
      case isFalse => cases run
    case h_2 => exact ⟨_, run⟩

/-- `run_transfer` returns the requested count; the generator sent that many blocks exactly when
the time limit never cut it short. -/
theorem runTransfer_count {blockSize numBlocks : Nat} {limit : Option Nat} {elapsed : Nat → Nat}
    {transactionsPerSender connectedTxGrps numSignerAccounts : Nat}
    {hotspotProbability : Option Bool} {count : Nat} {sent : List Nat}
    (run : runTransfer blockSize numBlocks limit elapsed transactionsPerSender connectedTxGrps
      numSignerAccounts hotspotProbability = some (count, sent)) :
    count = numBlocks ∧
      (sent.length = count ↔ ∀ j < numBlocks, timeLimitReached limit (elapsed j) = false) := by
  simp only [runTransfer, Option.bind_eq_bind, Option.bind_eq_some_iff, Option.pure_def,
    Option.some.injEq, Prod.mk.injEq] at run
  obtain ⟨generated, generated_run, rfl, rfl⟩ := run
  obtain ⟨transfers, loop⟩ := genTransferTransactions_eq_some generated_run
  refine ⟨rfl, ?_⟩
  rw [genTransferBlocks_length loop]
  simp

/-- Without a time limit, `run_transfer` sends all three blocks it reports. -/
theorem runTransfer_count_without_limit :
    runTransfer 100 3 none (fun _ => 0) 5 0 1000 none = some (3, [101, 101, 101]) ∧
      3 = 3 ∧ ([101, 101, 101].length = 3 ↔ ∀ j < 3, timeLimitReached none 0 = false) :=
  ⟨by decide, @runTransfer_count 100 3 none (fun _ => 0) 5 0 1000 none 3 [101, 101, 101]
    (by decide)⟩

/-- Two runs whose count is not the number of blocks sent: `run_transfer` in the default mode
with a time limit of 0 seconds sends nothing and reports 3 blocks, and `run_workload` whose
generators produce nothing sends three metadata-only blocks and reports 4. -/
theorem block_count_differs_from_blocks_sent :
    runTransfer 100 3 (some 0) (fun _ => 0) 5 0 1000 none = some (3, []) ∧
      runWorkload 10 none 0 (fun _ => ⟨0, 0⟩) = (4, [1, 1, 1], .exhausted) := by
  decide

end ExecutorBenchmark
end FdpBench
