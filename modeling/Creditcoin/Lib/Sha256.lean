import Mathlib.Algebra.Group.Nat.Defs
import Mathlib.Data.List.Basic

/-!
# SHA-256

The hash function on lists of byte values. A word is a natural number below `2 ^ 32`, and the
message schedule is kept with its latest word first. The functions compute on small messages in
the kernel.
-/

namespace Lib.Sha256

/-- Addition is modulo the word size. -/
def word (x : Nat) : Nat := x % 2 ^ 32

/-- `ROTR`. -/
def rotr (n x : Nat) : Nat := (x >>> n) ||| word (x <<< (32 - n))

/-- The function `Σ₀`. -/
def upperSigma0 (x : Nat) : Nat := rotr 2 x ^^^ rotr 13 x ^^^ rotr 22 x

/-- The function `Σ₁`. -/
def upperSigma1 (x : Nat) : Nat := rotr 6 x ^^^ rotr 11 x ^^^ rotr 25 x

/-- The function `σ₀`. -/
def lowerSigma0 (x : Nat) : Nat := rotr 7 x ^^^ rotr 18 x ^^^ (x >>> 3)

/-- The function `σ₁`. -/
def lowerSigma1 (x : Nat) : Nat := rotr 17 x ^^^ rotr 19 x ^^^ (x >>> 10)

/-- `Ch`. -/
def choose (x y z : Nat) : Nat := (x &&& y) ^^^ ((2 ^ 32 - 1 - x) &&& z)

/-- `Maj`. -/
def majority (x y z : Nat) : Nat := (x &&& y) ^^^ (x &&& z) ^^^ (y &&& z)

/-- The constants of the rounds. -/
def roundConstants : List Nat := [
  0x428a2f98, 0x71374491, 0xb5c0fbcf, 0xe9b5dba5, 0x3956c25b, 0x59f111f1, 0x923f82a4, 0xab1c5ed5,
  0xd807aa98, 0x12835b01, 0x243185be, 0x550c7dc3, 0x72be5d74, 0x80deb1fe, 0x9bdc06a7, 0xc19bf174,
  0xe49b69c1, 0xefbe4786, 0x0fc19dc6, 0x240ca1cc, 0x2de92c6f, 0x4a7484aa, 0x5cb0a9dc, 0x76f988da,
  0x983e5152, 0xa831c66d, 0xb00327c8, 0xbf597fc7, 0xc6e00bf3, 0xd5a79147, 0x06ca6351, 0x14292967,
  0x27b70a85, 0x2e1b2138, 0x4d2c6dfc, 0x53380d13, 0x650a7354, 0x766a0abb, 0x81c2c92e, 0x92722c85,
  0xa2bfe8a1, 0xa81a664b, 0xc24b8b70, 0xc76c51a3, 0xd192e819, 0xd6990624, 0xf40e3585, 0x106aa070,
  0x19a4c116, 0x1e376c08, 0x2748774c, 0x34b0bcb5, 0x391c0cb3, 0x4ed8aa4a, 0x5b9cca4f, 0x682e6ff3,
  0x748f82ee, 0x78a5636f, 0x84c87814, 0x8cc70208, 0x90befffa, 0xa4506ceb, 0xbef9a3f7, 0xc67178f2]

/-- The chaining state and the working variables. -/
structure State where
  (a b c d e f g h : Nat)

/-- The initial chaining state. -/
def initial : State :=
  ⟨0x6a09e667, 0xbb67ae85, 0x3c6ef372, 0xa54ff53a, 0x510e527f, 0x9b05688c, 0x1f83d9ab, 0x5be0cd19⟩

/-- Extends the message schedule by so many words. -/
def extend : Nat → List Nat → List Nat
  | 0, schedule => schedule
  | more + 1, schedule =>
    extend more (word (lowerSigma1 (schedule.getD 1 0) + schedule.getD 6 0 +
      lowerSigma0 (schedule.getD 14 0) + schedule.getD 15 0) :: schedule)

/-- One round, with its constant and its word of the schedule. -/
def round (s : State) (input : Nat × Nat) : State :=
  let t₁ := s.h + upperSigma1 s.e + choose s.e s.f s.g + input.1 + input.2
  let t₂ := upperSigma0 s.a + majority s.a s.b s.c
  ⟨word (t₁ + t₂), s.a, s.b, s.c, word (s.d + t₁), s.e, s.f, s.g⟩

/-- Works one block of sixteen words into the chaining state. -/
def compress (s : State) (block : List Nat) : State :=
  let schedule := (extend 48 block.reverse).reverse
  let r := (roundConstants.zip schedule).foldl round s
  ⟨word (s.a + r.a), word (s.b + r.b), word (s.c + r.c), word (s.d + r.d), word (s.e + r.e),
    word (s.f + r.f), word (s.g + r.g), word (s.h + r.h)⟩

/-- The big-endian words of a message. -/
def words : List Nat → List Nat
  | a :: b :: c :: d :: rest => (((a * 256 + b) * 256 + c) * 256 + d) :: words rest
  | _ => []

/-- The big-endian bytes of a value. -/
def bytesOf (count value : Nat) : List Nat :=
  (List.range count).map fun i => value / 256 ^ (count - 1 - i) % 256

/-- The message with its padding. -/
def pad (message : List Nat) : List Nat :=
  message ++ 0x80 :: List.replicate ((119 - message.length % 64) % 64) 0 ++
    bytesOf 8 (8 * message.length)

/-- The first so many blocks. -/
def blocks : Nat → List Nat → List (List Nat)
  | 0, _ => []
  | more + 1, words => words.take 16 :: blocks more (words.drop 16)

/-- The digest of a message. -/
def digest (message : List Nat) : List Nat :=
  let padded := pad message
  let s := (blocks (padded.length / 64) (words padded)).foldl compress initial
  [s.a, s.b, s.c, s.d, s.e, s.f, s.g, s.h].flatMap (bytesOf 4)

/-- A digest has 32 bytes. -/
theorem digest_length (message : List Nat) : (digest message).length = 32 := by
  simp [digest, bytesOf]

/-- The digest of "abc". -/
example : (digest [97, 98, 99]).take 4 = [0xba, 0x78, 0x16, 0xbf] := by decide

end Lib.Sha256
