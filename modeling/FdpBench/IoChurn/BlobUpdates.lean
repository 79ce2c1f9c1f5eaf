import FdpBench.IoChurn.EntryFunctions

/-!
# What the blob updates write, and when they abort

`update_blob` seeds the payload with `epoch + version` and `update_blob_entropy` with
`epoch ^ entropy ^ version`.  When the first generator step fits, the payload is `blobBytes` of
the seed and depends on the seed modulo 256 only; when it does not, the call aborts.
-/

namespace FdpBench
namespace IoChurn

section Updates

variable {keccak256 : List U8 → List U8}

theorem version_add_one_toNat {version : U64} (fits : version.toNat + 1 < 2 ^ 64) :
    (version + 1).toNat = version.toNat + 1 := by
  rw [BitVec.toNat_add, show (1 : U64).toNat = 1 from rfl, Nat.mod_eq_of_lt fits]

/-- `create_blob` when the epoch is a seed the generator accepts. -/
theorem createBlob_of_fits {ctx : TxContext} (id : ObjectId) (fits : StepFits ctx.epoch.toNat) :
    createBlob keccak256 ctx id =
      .ok { id, owner := ctx.sender, version := 0,
            data := blobBytes ctx.epoch.toNat blobSize.toNat,
            checksum := computeChecksum keccak256 0 ctx.epoch } := by
  have generated : generateBlobData ctx.epoch blobSize = .ok (blobBytes ctx.epoch.toNat blobSize.toNat) := by
    rw [generateBlobData_eq, if_pos (Or.inr fits)]
  unfold createBlob
  -- the `let seed := epoch` of the source
  dsimp only
  rw [generated, Except.ok_bind]
  rfl

/-- `update_blob` when `epoch + version + 1` fits a `u64` and is a seed the generator accepts. -/
theorem updateBlob_of_fits {blob : LargeBlob} {ctx : TxContext}
    (fits : ctx.epoch.toNat + blob.version.toNat + 1 < 2 ^ 64)
    (accepted : StepFits (ctx.epoch.toNat + blob.version.toNat + 1)) :
    updateBlob keccak256 blob ctx =
      .ok { blob with
              version := blob.version + 1,
              data := blobBytes (ctx.epoch.toNat + blob.version.toNat + 1) blobSize.toNat,
              checksum := computeChecksum keccak256 (blob.version + 1) (ctx.epoch + (blob.version + 1)) } := by
  have version_fits : blob.version.toNat + 1 < 2 ^ 64 := by omega
  have version_value := version_add_one_toNat version_fits
  have seed_fits : ctx.epoch.toNat + (blob.version + 1).toNat < 2 ^ 64 := by
    rw [version_value]
    omega
  have seed_value : (ctx.epoch + (blob.version + 1)).toNat = ctx.epoch.toNat + blob.version.toNat + 1 := by
    rw [BitVec.toNat_add, Nat.mod_eq_of_lt seed_fits, version_value, Nat.add_assoc]
  have generated : generateBlobData (ctx.epoch + (blob.version + 1)) blobSize =
      .ok (blobBytes (ctx.epoch.toNat + blob.version.toNat + 1) blobSize.toNat) := by
    rw [generateBlobData_eq, seed_value, if_pos (Or.inr accepted)]
  unfold updateBlob
  rw [Move.add_of_lt (by rw [show (1 : U64).toNat = 1 from rfl]; exact version_fits),
    Except.ok_bind, Move.add_of_lt seed_fits, Except.ok_bind, generated, Except.ok_bind]
  rfl

/-- With an epoch and a version below `2^32`, `update_blob` never aborts. -/
theorem updateBlob_ok_of_lt {blob : LargeBlob} {ctx : TxContext} (epoch_lt : ctx.epoch.toNat < 2 ^ 32)
    (version_lt : blob.version.toNat < 2 ^ 32) :
    ∃ blob', updateBlob keccak256 blob ctx = .ok blob' := by
  have seed_lt : ctx.epoch.toNat + blob.version.toNat + 1 < 2 ^ 34 := by omega
  have accepted : StepFits (ctx.epoch.toNat + blob.version.toNat + 1) := by
    unfold StepFits
    have product_lt : (ctx.epoch.toNat + blob.version.toNat + 1) * 1103515245 <
        2 ^ 34 * 1103515245 := by gcongr
    linarith
  exact ⟨_, updateBlob_of_fits (by omega) accepted⟩

/-- The blob `create_blob` makes in epoch 0, updated in epoch `2^32 - 1`, completes. -/
theorem updateBlob_ok_in_last_small_epoch :
    createBlob id ⟨0, 0⟩ 0 = .ok ⟨0, 0, 0, blobBytes 0 blobSize.toNat, computeChecksum id 0 0⟩ ∧
      (4294967295 : U64).toNat < 2 ^ 32 ∧ (0 : U64).toNat < 2 ^ 32 ∧
      ∃ blob', updateBlob id ⟨0, 0, 0, blobBytes 0 blobSize.toNat, computeChecksum id 0 0⟩
        ⟨0, 4294967295⟩ = .ok blob' :=
  ⟨createBlob_of_fits 0 (by dsimp only; decide), by decide, by decide,
    updateBlob_ok_of_lt (by decide) (by decide)⟩

/-- The payload `update_blob` writes is `blobBytes` of its seed `epoch + version + 1`. -/
theorem updateBlob_data {blob blob' : LargeBlob} {ctx : TxContext}
    (update : updateBlob keccak256 blob ctx = .ok blob') :
    blob'.data = blobBytes (ctx.epoch.toNat + blob.version.toNat + 1) blobSize.toNat := by
  obtain ⟨version, version_eq, rest⟩ := Except.bind_eq_ok.mp update
  obtain ⟨seed, seed_eq, rest⟩ := Except.bind_eq_ok.mp rest
  obtain ⟨data, generated, rest⟩ := Except.bind_eq_ok.mp rest
  obtain rfl := Except.pure_eq_ok.mp rest
  have version_value := (Move.add_eq_ok_iff.mp version_eq).2
  have seed_value := (Move.add_eq_ok_iff.mp seed_eq).2
  rw [generateBlobData_eq] at generated
  split at generated
  case isTrue _ =>
    obtain rfl := Except.ok.inj generated
    rw [seed_value, version_value, show (1 : U64).toNat = 1 from rfl, Nat.add_assoc]
  case isFalse _ => cases generated

/-- Two successful `update_blob` calls whose seeds agree modulo 256 write the same payload. -/
theorem updateBlob_data_eq_of_mod_eq {blob₁ blob₂ blob₁' blob₂' : LargeBlob} {ctx₁ ctx₂ : TxContext}
    (first : updateBlob keccak256 blob₁ ctx₁ = .ok blob₁')
    (second : updateBlob keccak256 blob₂ ctx₂ = .ok blob₂')
    (same : (ctx₁.epoch.toNat + blob₁.version.toNat + 1) % 256 =
      (ctx₂.epoch.toNat + blob₂.version.toNat + 1) % 256) :
    blob₁'.data = blob₂'.data := by
  rw [updateBlob_data first, updateBlob_data second, blobBytes_congr same]

/-- Two `update_blob` calls on one blob, in epochs 1 and 256, write the same four kilobytes. -/
theorem update_blob_repeats_payload (keccak256 : List U8 → List U8) (blob : LargeBlob)
    (sender : Address) :
    ∃ first second : LargeBlob,
      updateBlob keccak256 { blob with version := 0 } ⟨sender, 1⟩ = .ok first ∧
      updateBlob keccak256 first ⟨sender, 256⟩ = .ok second ∧
      first.version ≠ second.version ∧ first.data = second.data := by
  have first_run := @updateBlob_of_fits keccak256 { blob with version := 0 } ⟨sender, 1⟩
    (by dsimp only; decide) (by dsimp only; decide)
  obtain ⟨first, first_eq⟩ : ∃ first, updateBlob keccak256 { blob with version := 0 } ⟨sender, 1⟩ =
      .ok first := ⟨_, first_run⟩
  have first_version : first.version = 1 := by
    rw [first_run] at first_eq
    obtain rfl := Except.ok.inj first_eq
    rfl
  have second_run := @updateBlob_of_fits keccak256 first ⟨sender, 256⟩
    (by rw [first_version]; dsimp only; decide) (by rw [first_version]; dsimp only; decide)
  refine ⟨first, _, first_eq, second_run, ?_, ?_⟩
  · rw [first_version]
    dsimp only
    decide
  · exact updateBlob_data_eq_of_mod_eq first_eq second_run
      (by rw [first_version]; dsimp only; decide)

/-- `update_blob_entropy` aborts when its seed is one the generator rejects. -/
theorem updateBlobEntropy_of_not_fits {blob : LargeBlob} {entropy : U64} {ctx : TxContext}
    (fits : blob.version.toNat + 1 < 2 ^ 64)
    (rejected : ¬ StepFits (ctx.epoch ^^^ entropy ^^^ (blob.version + 1)).toNat) :
    updateBlobEntropy keccak256 blob entropy ctx = .error .arithmeticError := by
  have generated : generateBlobData (ctx.epoch ^^^ entropy ^^^ (blob.version + 1)) blobSize =
      .error .arithmeticError := by
    rw [generateBlobData_eq, if_neg]
    rintro (empty | accepted)
    · exact absurd empty (by decide)
    · exact rejected accepted
  unfold updateBlobEntropy
  rw [Move.add_of_lt (by rw [show (1 : U64).toNat = 1 from rfl]; exact fits), Except.ok_bind]
  -- the `let seed := epoch ^ entropy ^ version` of the source
  dsimp only
  rw [generated, Except.error_bind]

/-- A fresh blob of epoch 0 aborts `update_blob_entropy` with entropy `2^40` in epoch 0. -/
theorem update_blob_entropy_aborts (keccak256 : List U8 → List U8) (sender : Address)
    (id : ObjectId) :
    ∃ blob, createBlob keccak256 ⟨sender, 0⟩ id = .ok blob ∧
      updateBlobEntropy keccak256 blob 1099511627776 ⟨sender, 0⟩ = .error .arithmeticError :=
  ⟨_, createBlob_of_fits id (by dsimp only; decide),
    updateBlobEntropy_of_not_fits (by dsimp only; decide) (by dsimp only; decide)⟩

end Updates

end IoChurn
end FdpBench
