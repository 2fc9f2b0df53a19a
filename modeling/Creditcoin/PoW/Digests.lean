import Creditcoin.Lib.Bits
import Creditcoin.PoW.Difficulty

/-!
# Digests as numbers

A digest solves a block when it has as many leading zero bits as the difficulty asks for. Read as
one number, the first byte the highest, it does so exactly when it is below the power of two for
the bits that are left.
-/

namespace Creditcoin.PoW

open Lib

/-- The ladder counts the zeroes of a byte that has a one. -/
theorem leadingZeroesOfByte_bits : ∀ byte < 256,
    Bits.leadingZeroes (Bits.ofNat 8 byte) = if 0 < byte then leadingZeroesOfByte byte else 8 := by
  decide +kernel

/-- A byte other than zero has a one among its places. -/
theorem ofNat_one : ∀ byte < 256, 0 < byte → true ∈ Bits.ofNat 8 byte := by decide +kernel

/-- The loop over the bytes counts the zeroes in front of all places. -/
theorem countLeadingZeroes_bits {digest : List Nat} (bytes : ∀ byte ∈ digest, byte < 256) :
    countLeadingZeroes digest = Bits.leadingZeroes (Bits.ofDigits 8 digest) := by
  induction digest with
  | nil => rfl
  | cons byte rest ih =>
    have small : byte < 256 := bytes byte List.mem_cons_self
    have counted := ih fun other listed => bytes other (List.mem_cons_of_mem _ listed)
    rw [countLeadingZeroes, Bits.ofDigits_cons]
    by_cases positive : 0 < byte
    · -- the break: no later byte is looked at
      have ladder := leadingZeroesOfByte_bits byte small
      rw [if_pos positive] at ladder ⊢
      rw [Bits.leadingZeroes_append_one (ofNat_one byte small positive), ladder]
    · have zero : byte = 0 := Nat.eq_zero_of_not_pos positive
      have places : ∀ bit ∈ Bits.ofNat 8 0, bit = false := by decide
      subst zero
      rw [if_neg positive, Bits.leadingZeroes_append_zeroes places, Bits.ofNat_length, counted]

/-- A digest has so many leading zero bits exactly when it is a number below the power of two for
the other bits. -/
theorem validDigest_iff_lt {digest : List Nat} (bytes : ∀ byte ∈ digest, byte < 256)
    {difficulty : Int} (positive : 0 ≤ difficulty) (within : difficulty ≤ 8 * digest.length) :
    validDigest digest difficulty = true ↔
      Bits.bigEndian 256 digest < 2 ^ (8 * digest.length - difficulty).toNat := by
  obtain ⟨count, rfl⟩ := Int.eq_ofNat_of_zero_le positive
  have fits : count ≤ (Bits.ofDigits 8 digest).length := by
    rw [Bits.ofDigits_length]
    omega
  have counted := Bits.le_leadingZeroes_iff (Bits.ofDigits 8 digest) fits
  rw [Bits.toNat_ofDigits bytes, ← countLeadingZeroes_bits bytes, Bits.ofDigits_length] at counted
  have exponent : (8 * (digest.length : Int) - count).toNat = 8 * digest.length - count := by omega
  rw [validDigest, decide_eq_true_eq, Int.ofNat_le, exponent]
  exact counted

/-- For every byte string the count is the number of leading zero bits, and a difficulty within its
length is met exactly when the string is a number below the power of two for the other bits. -/
theorem countLeadingZeroes_exact (digest : List UInt8) :
    countLeadingZeroes (digest.map UInt8.toNat) =
      Bits.leadingZeroes (Bits.ofDigits 8 (digest.map UInt8.toNat)) ∧
    ∀ difficulty : Int, 0 ≤ difficulty → difficulty ≤ 8 * digest.length →
      (validDigest (digest.map UInt8.toNat) difficulty = true ↔
        Bits.bigEndian 256 (digest.map UInt8.toNat) <
          2 ^ (8 * digest.length - difficulty).toNat) := by
  have bytes : ∀ byte ∈ digest.map UInt8.toNat, byte < 256 := by
    intro byte listed
    obtain ⟨word, -, rfl⟩ := List.mem_map.mp listed
    exact word.toNat_lt
  have length : (digest.map UInt8.toNat).length = digest.length := List.length_map _
  refine ⟨countLeadingZeroes_bits bytes, fun difficulty positive within => ?_⟩
  rw [← length] at within ⊢
  exact validDigest_iff_lt bytes positive within

/-- Twelve zeroes in front of two bytes that spell a number below sixteen. -/
theorem countLeadingZeroes_exact_two :
    (0 : Int) ≤ 12 ∧ (12 : Int) ≤ 8 * [(0 : UInt8), 9].length ∧
    (validDigest ([(0 : UInt8), 9].map UInt8.toNat) 12 = true ↔
      Bits.bigEndian 256 ([(0 : UInt8), 9].map UInt8.toNat) < 2 ^ 4) :=
  ⟨by decide, by decide, (countLeadingZeroes_exact [0, 9]).2 12 (by decide) (by decide)⟩

/-- A digest is made of bytes. -/
theorem buildDigest_bytes (header : BlockHeader) (nonce : Text) :
    ∀ byte ∈ buildDigest header nonce, byte < 256 := by
  intro byte listed
  rw [buildDigest, buildDigestWithEncodedData, Sha256.digest] at listed
  obtain ⟨word, -, listed⟩ := List.mem_flatMap.mp listed
  obtain ⟨place, -, rfl⟩ := List.mem_map.mp listed
  exact Nat.mod_lt _ (by decide)

/-- A nonce solves a block of a difficulty up to 256 exactly when its digest is a number below the
target. -/
theorem validDigest_buildDigest (header : BlockHeader) (nonce : Text) {difficulty : Int}
    (positive : 0 ≤ difficulty) (within : difficulty ≤ 256) :
    validDigest (buildDigest header nonce) difficulty = true ↔
      Bits.bigEndian 256 (buildDigest header nonce) < 2 ^ (256 - difficulty).toNat := by
  have length : (buildDigest header nonce).length = 32 := Sha256.digest_length _
  have exact := validDigest_iff_lt (buildDigest_bytes header nonce) positive
    (by rw [length]; exact within)
  rw [length] at exact
  exact exact

end Creditcoin.PoW
