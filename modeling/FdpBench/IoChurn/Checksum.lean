import FdpBench.IoChurn.Objects
import FdpBench.Lib.ByteCodec

/-!
# `compute_checksum` and `bytes_to_u256`

`compute_checksum(value, nonce)` hashes the sixteen little-endian bytes of `value` and `nonce` and
reads the digest back big-endian.  The hash is a parameter; when it returns 32 bytes and is
injective on sixteen-byte inputs, the checksum determines `(value, nonce)`.
-/

namespace FdpBench
namespace IoChurn

/-- One packing loop of `compute_checksum`: `count` times, push `(v & 0xff) as u8` and shift `v`
right by eight.  The cast never aborts (`lowByte_cast`). -/
def packBytes : Nat → U64 → List U8 → List U8
  | 0, _, data => data
  | count + 1, v, data => packBytes count (v >>> 8) (data ++ [(v &&& 0xff).setWidth 8])

/-- The body of the `bytes_to_u256` loop: `(result << 8) | (byte as u256)`. -/
def shiftOr (result : U256) (byte : U8) : U256 :=
  (result <<< 8) ||| byte.setWidth 256

/-- `bytes_to_u256`: while `i < 32 && i < length`, run the loop body on `bytes[i]`.  The loop
visits exactly the first 32 bytes. -/
def bytesToU256 (bytes : List U8) : U256 :=
  (bytes.take 32).foldl shiftOr 0

/-- The sixteen bytes `compute_checksum` hashes: `value` first, then `nonce`. -/
def checksumInput (value nonce : U64) : List U8 :=
  packBytes 8 nonce (packBytes 8 value [])

/-- `compute_checksum`, for a given `keccak256`. -/
def computeChecksum (keccak256 : List U8 → List U8) (value nonce : U64) : U256 :=
  bytesToU256 (keccak256 (checksumInput value nonce))

/-! ## The packing loops -/

theorem lowByte_toNat (v : U64) : ((v &&& 0xff).setWidth 8).toNat = v.toNat % 256 := by
  have mask : (0xff : U64).toNat = 2 ^ 8 - 1 := rfl
  have masked : (v &&& 0xff).toNat = v.toNat % 2 ^ 8 := by
    rw [BitVec.toNat_and, mask, Nat.and_two_pow_sub_one_eq_mod]
  rw [BitVec.toNat_setWidth, masked]
  omega

/-- The `as u8` cast of a masked byte cannot abort. -/
theorem lowByte_cast (v : U64) : Move.cast 8 (v &&& 0xff) = .ok ((v &&& 0xff).setWidth 8) := by
  apply Move.cast_of_lt
  have masked : (v &&& 0xff).toNat ≤ 0xff := by
    rw [BitVec.toNat_and]
    exact Nat.and_le_right
  omega

theorem packBytes_toNat (count : Nat) (v : U64) (data : List U8) :
    (packBytes count v data).map BitVec.toNat =
      data.map BitVec.toNat ++ ByteCodec.fixedDigits 256 count v.toNat := by
  induction count generalizing v data with
  | zero => simp [packBytes, ByteCodec.fixedDigits]
  | succ count induction =>
      have shifted : (v >>> 8).toNat = v.toNat / 256 := by
        rw [BitVec.toNat_ushiftRight, Nat.shiftRight_eq_div_pow]
      rw [packBytes, induction, shifted, ByteCodec.fixedDigits]
      simp only [List.map_append, List.map_cons, List.map_nil, lowByte_toNat, List.append_assoc,
        List.singleton_append]

theorem checksumInput_toNat (value nonce : U64) :
    (checksumInput value nonce).map BitVec.toNat =
      ByteCodec.fixedDigits 256 8 value.toNat ++ ByteCodec.fixedDigits 256 8 nonce.toNat := by
  rw [checksumInput, packBytes_toNat, packBytes_toNat]
  simp

@[simp]
theorem checksumInput_length (value nonce : U64) : (checksumInput value nonce).length = 16 := by
  have lengths := congrArg List.length (checksumInput_toNat value nonce)
  simpa using lengths

/-- The hashed bytes determine `value` and `nonce`. -/
theorem checksumInput_injective {value nonce value' nonce' : U64}
    (same : checksumInput value nonce = checksumInput value' nonce') :
    value = value' ∧ nonce = nonce' := by
  have digits := congrArg (List.map BitVec.toNat) same
  rw [checksumInput_toNat, checksumInput_toNat] at digits
  have bound : ∀ word : U64, word.toNat < 256 ^ 8 := fun word => word.isLt
  obtain ⟨values, nonces⟩ := ByteCodec.fixedDigits_append_injective (bound value) (bound nonce)
    (bound value') (bound nonce') digits
  exact ⟨BitVec.eq_of_toNat_eq values, BitVec.eq_of_toNat_eq nonces⟩

/-! ## The reading loop -/

theorem shiftOr_toNat (result : U256) (byte : U8) :
    (shiftOr result byte).toNat = (result.toNat * 256 + byte.toNat) % 2 ^ 256 := by
  have byte_lt : byte.toNat < 2 ^ 8 := byte.isLt
  have widened : (byte.setWidth 256).toNat = byte.toNat :=
    BitVec.toNat_setWidth_of_le (by omega)
  have shifted : (result <<< 8).toNat = (result.toNat % 2 ^ 248) <<< 8 := by
    rw [BitVec.toNat_shiftLeft, Nat.shiftLeft_eq, Nat.shiftLeft_eq]
    have split := Nat.div_add_mod result.toNat (2 ^ 248)
    omega
  rw [shiftOr, BitVec.toNat_or, widened, shifted, ← Nat.shiftLeft_add_eq_or_of_lt byte_lt,
    Nat.shiftLeft_eq]
  have split := Nat.div_add_mod result.toNat (2 ^ 248)
  omega

/-- Folding bytes with the loop body of `bytes_to_u256` is big-endian evaluation modulo `2^256`. -/
theorem foldl_shiftOr_toNat (bytes : List U8) (start : U256) :
    (bytes.foldl shiftOr start).toNat =
      (start.toNat * 256 ^ bytes.length +
        ByteCodec.foldBigEndian 256 (bytes.map BitVec.toNat)) % 2 ^ 256 := by
  induction bytes generalizing start with
  | nil => simp [ByteCodec.foldBigEndian, Nat.mod_eq_of_lt start.isLt]
  | cons byte bytes induction =>
      rw [List.foldl_cons, induction, shiftOr_toNat, ByteCodec.foldBigEndian_eq,
        ByteCodec.foldBigEndian_eq]
      simp only [List.length_cons, List.map_cons, List.reverse_cons, Nat.ofDigits_append,
        List.length_reverse, List.length_map, Nat.ofDigits_singleton]
      rw [Nat.add_mod, Nat.mul_mod, Nat.mod_mod, ← Nat.mul_mod, ← Nat.add_mod, pow_succ]
      ring_nf

/-- `bytes_to_u256` is the big-endian value of the first 32 bytes. -/
theorem bytesToU256_toNat (bytes : List U8) :
    (bytesToU256 bytes).toNat = ByteCodec.foldBigEndian 256 ((bytes.take 32).map BitVec.toNat) := by
  have small : ∀ digit ∈ (bytes.take 32).map BitVec.toNat, digit < 256 := by
    intro digit member
    obtain ⟨byte, -, rfl⟩ := List.mem_map.mp member
    exact byte.isLt
  have bounded := ByteCodec.foldBigEndian_lt (by norm_num) small
  have short : ((bytes.take 32).map BitVec.toNat).length ≤ 32 := by simp
  have fits : 256 ^ ((bytes.take 32).map BitVec.toNat).length ≤ 2 ^ 256 :=
    calc
      256 ^ ((bytes.take 32).map BitVec.toNat).length ≤ 256 ^ 32 :=
        Nat.pow_le_pow_right (by norm_num) short
      _ = 2 ^ 256 := by norm_num
  rw [bytesToU256, foldl_shiftOr_toNat]
  rw [show (0 : U256).toNat = 0 from rfl, zero_mul, zero_add]
  exact Nat.mod_eq_of_lt (by omega)

/-- Distinct 32-byte digests give distinct `u256` values. -/
theorem bytesToU256_injective {first second : List U8} (first_length : first.length = 32)
    (second_length : second.length = 32) (same : bytesToU256 first = bytesToU256 second) :
    first = second := by
  have values := congrArg BitVec.toNat same
  rw [bytesToU256_toNat, bytesToU256_toNat, List.take_of_length_le first_length.le,
    List.take_of_length_le second_length.le] at values
  have small : ∀ bytes : List U8, ∀ digit ∈ bytes.map BitVec.toNat, digit < 256 := by
    intro bytes digit member
    obtain ⟨byte, -, rfl⟩ := List.mem_map.mp member
    exact byte.isLt
  have digits := ByteCodec.foldBigEndian_injective (by norm_num)
    (by simp [first_length, second_length]) (small first) (small second) values
  exact List.map_injective_iff.mpr (fun _ _ => BitVec.eq_of_toNat_eq) digits

/-- With a hash that returns 32 bytes and is injective on sixteen-byte inputs, equal checksums
come from equal `(value, nonce)`. -/
theorem computeChecksum_injective {keccak256 : List U8 → List U8}
    (digest_length : ∀ input, (keccak256 input).length = 32)
    (injective : ∀ first second, first.length = 16 → second.length = 16 →
      keccak256 first = keccak256 second → first = second)
    {value nonce value' nonce' : U64}
    (same : computeChecksum keccak256 value nonce = computeChecksum keccak256 value' nonce') :
    value = value' ∧ nonce = nonce' := by
  have digests := bytesToU256_injective (digest_length _) (digest_length _) same
  exact checksumInput_injective (injective _ _ (by simp) (by simp) digests)

end IoChurn
end FdpBench
