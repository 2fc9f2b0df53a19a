import Creditcoin.Lib.Bits

/-!
# Base 64

The encoding of RFC 4648: three bytes are written as four sextets, each by its character of the
alphabet. When the bytes end early the last sextet is filled up with zeroes, and the text may be
padded to whole groups of four.
-/

namespace Lib.Base64

/-- The sextets of bytes. -/
def sextets : List Nat → List Nat
  | [] => []
  | [a] => [a / 4, a % 4 * 16]
  | [a, b] => [a / 4, a % 4 * 16 + b / 16, b % 16 * 4]
  | a :: b :: c :: rest =>
    a / 4 :: (a % 4 * 16 + b / 16) :: (b % 16 * 4 + c / 64) :: c % 64 :: sextets rest

/-- The character of a sextet. -/
def character (sextet : Nat) : Char :=
  if sextet < 26 then Char.ofNat ('A'.toNat + sextet)
  else if sextet < 52 then Char.ofNat ('a'.toNat + (sextet - 26))
  else if sextet < 62 then Char.ofNat ('0'.toNat + (sextet - 52))
  else if sextet = 62 then '+'
  else '/'

/-- The pads after the characters of so many bytes. -/
def pads (length : Nat) : Nat := (3 - length % 3) % 3

/-- The text for bytes, padded or not. -/
def encode (padded : Bool) (bytes : List Nat) : List Char :=
  (sextets bytes).map character ++ List.replicate (if padded then pads bytes.length else 0) '='

/-- A group of three bytes and one byte more. -/
example : encode true [77, 97, 110, 77] = "TWFuTQ==".toList := by decide

/-- A sextet has six bits. -/
theorem sextets_lt {bytes : List Nat} (small : ∀ byte ∈ bytes, byte < 2 ^ 8) :
    ∀ sextet ∈ sextets bytes, sextet < 2 ^ 6 := by
  induction bytes using sextets.induct with
  | case1 => intro sextet listed; cases listed
  | case2 a =>
    have := small a (by simp)
    simp only [sextets, List.forall_mem_cons]
    refine ⟨by omega, by omega, fun _ listed => by cases listed⟩
  | case3 a b =>
    have := small a (by simp)
    have := small b (by simp)
    simp only [sextets, List.forall_mem_cons]
    refine ⟨by omega, by omega, by omega, fun _ listed => by cases listed⟩
  | case4 a b c rest ih =>
    have := small a (by simp)
    have := small b (by simp)
    have := small c (by simp)
    simp only [sextets, List.forall_mem_cons]
    refine ⟨by omega, by omega, by omega, by omega, ih fun byte listed => ?_⟩
    exact small byte (by simp [listed])

/-- The second sextet: what is left of a first byte, then the upper half of a second one. -/
theorem ofNat_second (a : Nat) {half : Nat} (small : half < 2 ^ 4) :
    Bits.ofNat 6 (a % 4 * 16 + half) = Bits.ofNat 2 a ++ Bits.ofNat 4 half := by
  rw [← Bits.ofNat_mod (Nat.le_refl 2) a]
  exact Bits.ofNat_push 2 (a % 4) small

/-- The third sextet: the lower half of a second byte, then the first two places of a third one. -/
theorem ofNat_third (b : Nat) {front : Nat} (small : front < 2 ^ 2) :
    Bits.ofNat 6 (b % 16 * 4 + front) = Bits.ofNat 4 b ++ Bits.ofNat 2 front := by
  rw [← Bits.ofNat_mod (Nat.le_refl 4) b]
  exact Bits.ofNat_push 4 (b % 16) small

/-- The sextets have the places of the bytes, and then fewer than six zeroes. -/
theorem sextets_bits {bytes : List Nat} (small : ∀ byte ∈ bytes, byte < 2 ^ 8) :
    ∃ filled < 6, Bits.ofDigits 6 (sextets bytes) =
      Bits.ofDigits 8 bytes ++ List.replicate filled false := by
  have upper (a : Nat) : Bits.ofNat 8 a = Bits.ofNat 6 (a / 4) ++ Bits.ofNat 2 a :=
    Bits.ofNat_split 6 2 a
  have middle (b : Nat) : Bits.ofNat 8 b = Bits.ofNat 4 (b / 16) ++ Bits.ofNat 4 b :=
    Bits.ofNat_split 4 4 b
  have lower (c : Nat) : Bits.ofNat 8 c = Bits.ofNat 2 (c / 64) ++ Bits.ofNat 6 c :=
    Bits.ofNat_split 2 6 c
  induction bytes using sextets.induct with
  | case1 => exact ⟨0, by decide, rfl⟩
  | case2 a =>
    refine ⟨4, by decide, ?_⟩
    have fill := ofNat_second a (by decide : 0 < 2 ^ 4)
    rw [sextets, Bits.ofDigits_cons, Bits.ofDigits_cons, Bits.ofDigits_cons, upper a]
    rw [Nat.add_zero] at fill
    rw [fill, Bits.ofDigits_nil, Bits.ofDigits_nil, List.append_nil, List.append_nil,
      List.append_assoc]
    rfl
  | case3 a b =>
    have second : b < 2 ^ 8 := small b (by simp)
    refine ⟨2, by decide, ?_⟩
    have fill := ofNat_third b (by decide : 0 < 2 ^ 2)
    rw [Nat.add_zero] at fill
    simp only [sextets, Bits.ofDigits_cons, Bits.ofDigits_nil, List.append_nil]
    rw [ofNat_second a (by omega : b / 16 < 2 ^ 4), fill, upper a, middle b]
    simp only [List.append_assoc]
    rfl
  | case4 a b c rest ih =>
    have second : b < 2 ^ 8 := small b (by simp)
    have third : c < 2 ^ 8 := small c (by simp)
    have ⟨filled, few, same⟩ := ih fun byte listed => small byte (by simp [listed])
    refine ⟨filled, few, ?_⟩
    have last : Bits.ofNat 6 (c % 64) = Bits.ofNat 6 c := Bits.ofNat_mod (Nat.le_refl 6) c
    simp only [sextets, Bits.ofDigits_cons]
    rw [ofNat_second a (by omega : b / 16 < 2 ^ 4), ofNat_third b (by omega : c / 64 < 2 ^ 2), last,
      same, upper a, middle b, lower c]
    simp only [List.append_assoc]

/-- Only the sextets have the places of the bytes with fewer than six zeroes behind them. -/
theorem eq_sextets {bytes found : List Nat} {filled : Nat} (small : ∀ byte ∈ bytes, byte < 2 ^ 8)
    (foundSmall : ∀ sextet ∈ found, sextet < 2 ^ 6) (few : filled < 6)
    (same : Bits.ofDigits 6 found = Bits.ofDigits 8 bytes ++ List.replicate filled false) :
    found = sextets bytes := by
  have ⟨zeroes, fewZeroes, places⟩ := sextets_bits small
  have lengths := congrArg List.length same
  have others := congrArg List.length places
  simp only [List.length_append, List.length_replicate, Bits.ofDigits_length] at lengths others
  have filledEq : filled = zeroes := by omega
  rw [filledEq, ← places] at same
  exact Bits.ofDigits_injective (by decide) foundSmall (sextets_lt small) same

/-- Bytes cut from the places of the sextets are the bytes. -/
theorem eq_of_sextets {bytes found : List Nat} {rest : List Bool}
    (small : ∀ byte ∈ bytes, byte < 2 ^ 8) (foundSmall : ∀ byte ∈ found, byte < 2 ^ 8)
    (short : rest.length < 8)
    (same : Bits.ofDigits 8 found ++ rest = Bits.ofDigits 6 (sextets bytes)) : found = bytes := by
  have ⟨zeroes, few, places⟩ := sextets_bits small
  rw [places] at same
  have fits : (List.replicate zeroes false).length < 8 := by
    rw [List.length_replicate]
    omega
  exact (Bits.ofDigits_append_injective foundSmall small short fits same).1

end Lib.Base64
