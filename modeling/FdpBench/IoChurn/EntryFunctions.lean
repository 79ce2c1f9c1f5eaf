import FdpBench.IoChurn.Checksum
import FdpBench.IoChurn.BlobData

/-!
# The functions of `io_churn`

Each public function of the module, on the objects it receives: one that takes `&mut` returns the
updated object, one that aborts returns the failure.  The spec lemma beside each mutator says what
the rest of the development needs from it.
-/

namespace FdpBench
namespace IoChurn

section Functions

variable (keccak256 : List U8 → List U8)

/-- `create_counter`: value 0, the epoch as nonce. -/
def createCounter (ctx : TxContext) (id : ObjectId) : MicroCounter :=
  let nonce := ctx.epoch
  { id
    owner := ctx.sender
    value := 0
    nonce
    checksum := computeChecksum keccak256 0 nonce
    lastUpdate := 0 }

/-- `create_shared`: the counter of `create_counter`, shared instead of transferred. -/
def createShared (ctx : TxContext) (id : ObjectId) : MicroCounter :=
  let nonce := ctx.epoch
  { id
    owner := ctx.sender
    value := 0
    nonce
    checksum := computeChecksum keccak256 0 nonce
    lastUpdate := 0 }

/-- `increment`: add one to the value and the clock's timestamp to the nonce. -/
def increment (counter : MicroCounter) (clock : Clock) : MoveResult MicroCounter := do
  let value ← Move.add counter.value 1
  let nonce ← Move.add counter.nonce clock.timestampMs
  return { counter with
    value, nonce
    checksum := computeChecksum keccak256 value nonce
    lastUpdate := clock.timestampMs }

/-- `increment_simple`: add one to the value, then the epoch and the new value to the nonce. -/
def incrementSimple (counter : MicroCounter) (ctx : TxContext) : MoveResult MicroCounter := do
  let value ← Move.add counter.value 1
  let nonce ← Move.add counter.nonce ctx.epoch
  let nonce ← Move.add nonce value
  return { counter with
    value, nonce
    checksum := computeChecksum keccak256 value nonce
    lastUpdate := ctx.epoch }

/-- `set_value`: only the owner may set the value; the nonce becomes `entropy ^ epoch`. -/
def setValue (counter : MicroCounter) (value entropy : U64) (ctx : TxContext) :
    MoveResult MicroCounter :=
  if counter.owner = ctx.sender then
    let nonce := entropy ^^^ ctx.epoch
    .ok { counter with
      value, nonce
      checksum := computeChecksum keccak256 value nonce
      lastUpdate := ctx.epoch }
  else
    .error (.moveAbort eNotOwner)

/-- The update `batch_increment_k` applies to its counter with nonce offset `offset`. -/
def batchBump (epoch offset : U64) (counter : MicroCounter) : MoveResult MicroCounter := do
  let value ← Move.add counter.value 1
  let nonce ← Move.add counter.nonce epoch
  let nonce ← Move.add nonce offset
  return { counter with
    value, nonce
    checksum := computeChecksum keccak256 value nonce
    lastUpdate := epoch }

/-- The body shared by `batch_increment_2/4/8`: each counter with its own nonce offset, in
order. -/
def batchIncrement (epoch : U64) : List (MicroCounter × U64) → MoveResult (List MicroCounter)
  | [] => .ok []
  | (counter, offset) :: rest => do
      let counter ← batchBump keccak256 epoch offset counter
      let rest ← batchIncrement epoch rest
      return counter :: rest

/-- `batch_increment_2`. -/
def batchIncrement2 (c1 c2 : MicroCounter) (ctx : TxContext) : MoveResult (List MicroCounter) :=
  let epoch := ctx.epoch
  batchIncrement keccak256 epoch [(c1, 1), (c2, 2)]

/-- `batch_increment_4`. -/
def batchIncrement4 (c1 c2 c3 c4 : MicroCounter) (ctx : TxContext) :
    MoveResult (List MicroCounter) :=
  let epoch := ctx.epoch
  batchIncrement keccak256 epoch [(c1, 1), (c2, 2), (c3, 3), (c4, 4)]

/-- `batch_increment_8`. -/
def batchIncrement8 (c1 c2 c3 c4 c5 c6 c7 c8 : MicroCounter) (ctx : TxContext) :
    MoveResult (List MicroCounter) :=
  let epoch := ctx.epoch
  batchIncrement keccak256 epoch
    [(c1, 1), (c2, 2), (c3, 3), (c4, 4), (c5, 5), (c6, 6), (c7, 7), (c8, 8)]

/-- `create_blob`: version 0 and a payload seeded by the epoch. -/
def createBlob (ctx : TxContext) (id : ObjectId) : MoveResult LargeBlob := do
  let seed := ctx.epoch
  let data ← generateBlobData seed blobSize
  return { id, owner := ctx.sender, version := 0, data, checksum := computeChecksum keccak256 0 seed }

/-- `update_blob`: bump the version and regenerate the payload from `epoch + version`. -/
def updateBlob (blob : LargeBlob) (ctx : TxContext) : MoveResult LargeBlob := do
  let version ← Move.add blob.version 1
  let seed ← Move.add ctx.epoch version
  let data ← generateBlobData seed blobSize
  return { blob with version, data, checksum := computeChecksum keccak256 version seed }

/-- `update_blob_entropy`: as `update_blob`, seeded by `epoch ^ entropy ^ version`. -/
def updateBlobEntropy (blob : LargeBlob) (entropy : U64) (ctx : TxContext) :
    MoveResult LargeBlob := do
  let version ← Move.add blob.version 1
  let seed := ctx.epoch ^^^ entropy ^^^ version
  let data ← generateBlobData seed blobSize
  return { blob with version, data, checksum := computeChecksum keccak256 version seed }

/-- The sampling loop of `read_blob_checksum` from index `i`: add `data[i] as u256`, step 64. -/
def sampleSum (data : List U8) (i : Nat) (sum : U256) : MoveResult U256 :=
  if sampled : i < data.length then do
    let byte ← Move.cast 256 data[i]
    let sum ← Move.add sum byte
    sampleSum data (i + 64) sum
  else
    .ok sum
termination_by data.length - i

/-- `read_blob_checksum`: every 64th byte summed, xored with the stored checksum. -/
def readBlobChecksum (blob : LargeBlob) : MoveResult U256 := do
  let sum ← sampleSum blob.data 0 0
  return sum ^^^ blob.checksum

/-- `read_update_blob`: reseed `write_blob` from the epoch, the read checksum as a `u64`, and
the new version. -/
def readUpdateBlob (readBlob writeBlob : LargeBlob) (ctx : TxContext) : MoveResult LargeBlob := do
  let readChecksum ← readBlobChecksum readBlob
  let version ← Move.add writeBlob.version 1
  let low ← Move.cast 64 readChecksum
  let seed := ctx.epoch ^^^ low ^^^ version
  let data ← generateBlobData seed blobSize
  return { writeBlob with version, data, checksum := computeChecksum keccak256 version seed }

/-! ## Spec lemmas -/

/-- `counter'` is `counter` rewritten by an update: same id and owner, and the checksum of
exactly the value and nonce it holds. -/
def Refreshes (counter counter' : MicroCounter) : Prop :=
  counter'.id = counter.id ∧ counter'.owner = counter.owner ∧
    counter'.checksum = computeChecksum keccak256 counter'.value counter'.nonce

/-- The representation invariant of a counter. -/
def CounterValid (counter : MicroCounter) : Prop :=
  counter.checksum = computeChecksum keccak256 counter.value counter.nonce

theorem Refreshes.valid {keccak256 : List U8 → List U8} {counter counter' : MicroCounter}
    (refreshes : Refreshes keccak256 counter counter') : CounterValid keccak256 counter' :=
  refreshes.2.2

theorem createCounter_valid (ctx : TxContext) (id : ObjectId) :
    CounterValid keccak256 (createCounter keccak256 ctx id) := rfl

/-- `create_shared` builds the counter `create_counter` builds. -/
theorem createShared_eq_createCounter (ctx : TxContext) (id : ObjectId) :
    createShared keccak256 ctx id = createCounter keccak256 ctx id := rfl

variable {keccak256}

theorem increment_eq_ok {counter counter' : MicroCounter} {clock : Clock}
    (update : increment keccak256 counter clock = .ok counter') :
    Refreshes keccak256 counter counter' ∧ counter'.value.toNat = counter.value.toNat + 1 := by
  obtain ⟨value, value_eq, rest⟩ := Except.bind_eq_ok.mp update
  obtain ⟨nonce, -, rest⟩ := Except.bind_eq_ok.mp rest
  obtain rfl := Except.pure_eq_ok.mp rest
  exact ⟨⟨rfl, rfl, rfl⟩, (Move.add_eq_ok_iff.mp value_eq).2⟩

theorem incrementSimple_eq_ok {counter counter' : MicroCounter} {ctx : TxContext}
    (update : incrementSimple keccak256 counter ctx = .ok counter') :
    Refreshes keccak256 counter counter' ∧ counter'.value.toNat = counter.value.toNat + 1 := by
  obtain ⟨value, value_eq, rest⟩ := Except.bind_eq_ok.mp update
  obtain ⟨nonce, -, rest⟩ := Except.bind_eq_ok.mp rest
  obtain ⟨nonce', -, rest⟩ := Except.bind_eq_ok.mp rest
  obtain rfl := Except.pure_eq_ok.mp rest
  exact ⟨⟨rfl, rfl, rfl⟩, (Move.add_eq_ok_iff.mp value_eq).2⟩

theorem setValue_eq_ok {counter counter' : MicroCounter} {value entropy : U64} {ctx : TxContext}
    (update : setValue keccak256 counter value entropy ctx = .ok counter') :
    Refreshes keccak256 counter counter' ∧ counter'.value = value := by
  unfold setValue at update
  split at update
  case isTrue _ =>
    obtain rfl := Except.ok.inj update
    exact ⟨⟨rfl, rfl, rfl⟩, rfl⟩
  case isFalse _ => cases update

/-- `set_value` aborts with `ENotOwner` exactly when the sender does not own the counter. -/
theorem setValue_eq_error {counter : MicroCounter} {value entropy : U64} {ctx : TxContext}
    {failure : ExecutionFailure} :
    setValue keccak256 counter value entropy ctx = .error failure ↔
      counter.owner ≠ ctx.sender ∧ failure = .moveAbort eNotOwner := by
  unfold setValue
  split
  case isTrue owns => simp [owns]
  case isFalse other => simp [other, eq_comm]

theorem batchBump_eq_ok {epoch offset : U64} {counter counter' : MicroCounter}
    (update : batchBump keccak256 epoch offset counter = .ok counter') :
    Refreshes keccak256 counter counter' ∧ counter'.value.toNat = counter.value.toNat + 1 := by
  obtain ⟨value, value_eq, rest⟩ := Except.bind_eq_ok.mp update
  obtain ⟨nonce, -, rest⟩ := Except.bind_eq_ok.mp rest
  obtain ⟨nonce', -, rest⟩ := Except.bind_eq_ok.mp rest
  obtain rfl := Except.pure_eq_ok.mp rest
  exact ⟨⟨rfl, rfl, rfl⟩, (Move.add_eq_ok_iff.mp value_eq).2⟩

/-- A batch increment rewrites each counter in place, in order. -/
theorem batchIncrement_eq_ok {epoch : U64} {pairs : List (MicroCounter × U64)}
    {counters : List MicroCounter} (update : batchIncrement keccak256 epoch pairs = .ok counters) :
    List.Forall₂ (fun pair counter' => Refreshes keccak256 pair.1 counter' ∧
      counter'.value.toNat = pair.1.value.toNat + 1) pairs counters := by
  induction pairs generalizing counters with
  | nil =>
      obtain rfl := Except.ok.inj update
      exact List.Forall₂.nil
  | cons pair rest induction =>
      obtain ⟨counter, offset⟩ := pair
      obtain ⟨counter', bumped, tail⟩ := Except.bind_eq_ok.mp update
      obtain ⟨rest', rest_eq, tail⟩ := Except.bind_eq_ok.mp tail
      obtain rfl := Except.pure_eq_ok.mp tail
      exact List.Forall₂.cons (batchBump_eq_ok bumped) (induction rest_eq)

theorem batchIncrement_valid {epoch : U64} {pairs : List (MicroCounter × U64)}
    {counters : List MicroCounter} (update : batchIncrement keccak256 epoch pairs = .ok counters) :
    ∀ counter ∈ counters, CounterValid keccak256 counter := by
  have refreshed := batchIncrement_eq_ok update
  clear update
  intro counter member
  induction refreshed with
  | nil => cases member
  | cons refreshed _ induction =>
      rcases List.mem_cons.mp member with rfl | later
      · exact refreshed.1.valid
      · exact induction later

theorem generateBlobData_length {seed size : U64} {data : List U8}
    (generated : generateBlobData seed size = .ok data) : data.length = size.toNat := by
  rw [generateBlobData_eq] at generated
  split at generated
  case isTrue _ =>
    obtain rfl := Except.ok.inj generated
    exact blobBytes_length _ _
  case isFalse _ => cases generated

/-- The representation invariant of a blob: a full page of data. -/
def BlobValid (blob : LargeBlob) : Prop := blob.data.length = blobSize.toNat

/-- `blob'` is `blob` rewritten by an update: same id and a full page of data. -/
def Rewrites (blob blob' : LargeBlob) : Prop := blob'.id = blob.id ∧ BlobValid blob'

theorem createBlob_eq_ok {ctx : TxContext} {id : ObjectId} {blob : LargeBlob}
    (created : createBlob keccak256 ctx id = .ok blob) : blob.id = id ∧ BlobValid blob := by
  obtain ⟨data, generated, rest⟩ := Except.bind_eq_ok.mp created
  obtain rfl := Except.pure_eq_ok.mp rest
  exact ⟨rfl, generateBlobData_length generated⟩

theorem updateBlob_eq_ok {blob blob' : LargeBlob} {ctx : TxContext}
    (update : updateBlob keccak256 blob ctx = .ok blob') : Rewrites blob blob' := by
  obtain ⟨version, -, rest⟩ := Except.bind_eq_ok.mp update
  obtain ⟨seed, -, rest⟩ := Except.bind_eq_ok.mp rest
  obtain ⟨data, generated, rest⟩ := Except.bind_eq_ok.mp rest
  obtain rfl := Except.pure_eq_ok.mp rest
  exact ⟨rfl, generateBlobData_length generated⟩

theorem updateBlobEntropy_eq_ok {blob blob' : LargeBlob} {entropy : U64} {ctx : TxContext}
    (update : updateBlobEntropy keccak256 blob entropy ctx = .ok blob') : Rewrites blob blob' := by
  obtain ⟨version, -, rest⟩ := Except.bind_eq_ok.mp update
  obtain ⟨data, generated, rest⟩ := Except.bind_eq_ok.mp rest
  obtain rfl := Except.pure_eq_ok.mp rest
  exact ⟨rfl, generateBlobData_length generated⟩

theorem readUpdateBlob_eq_ok {readBlob writeBlob blob' : LargeBlob} {ctx : TxContext}
    (update : readUpdateBlob keccak256 readBlob writeBlob ctx = .ok blob') :
    Rewrites writeBlob blob' := by
  obtain ⟨readChecksum, -, rest⟩ := Except.bind_eq_ok.mp update
  obtain ⟨version, -, rest⟩ := Except.bind_eq_ok.mp rest
  obtain ⟨low, -, rest⟩ := Except.bind_eq_ok.mp rest
  obtain ⟨data, generated, rest⟩ := Except.bind_eq_ok.mp rest
  obtain rfl := Except.pure_eq_ok.mp rest
  exact ⟨rfl, generateBlobData_length generated⟩

end Functions

end IoChurn
end FdpBench
