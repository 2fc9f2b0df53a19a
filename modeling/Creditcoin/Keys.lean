import Creditcoin.Awards
import Creditcoin.Literals
import Creditcoin.Script

/-!
# Public keys and wallets

A public key is written as its point: the mark `04` and both coordinates, or the mark `02` or `03`
by the parity of the second coordinate and the first one. A transaction acts for the wallet of the
compressed form of its signer. An award credits the wallet of the signer as the block writes it.
-/

namespace Creditcoin

open Lib

/-- The coordinates of a point in hexadecimal digits of either case. -/
structure KeyPoint where
  /-- The first coordinate. -/
  x : Text
  /-- The second coordinate. -/
  y : Text
  /-- It has 32 bytes. -/
  x_length : x.length = 64
  /-- It has 32 bytes. -/
  y_length : y.length = 64
  /-- It is hexadecimal. -/
  x_digits : x.all (isDigitIn 16) = true
  /-- It is hexadecimal. -/
  y_digits : y.all (isDigitIn 16) = true

/-- The forms in which a public key is written. -/
inductive KeyForm where
  /-- In 66 digits. -/
  | compressed
  /-- In 130 digits. -/
  | uncompressed
deriving DecidableEq

namespace KeyPoint

variable (point : KeyPoint)

/-- Whether the second coordinate is odd. -/
def odd : Bool :=
  match readDigits 16 0 point.y with
  | some y => y % 2 != 0
  | none => false

/-- The public key of a point in a form. -/
def key : KeyForm → Text
  | .compressed => (if point.odd then "03".toList else "02".toList) ++ point.x
  | .uncompressed => "04".toList ++ point.x ++ point.y

/-- Both coordinates are written in lower case. -/
def Lower : Prop := Text.isHex point.x = true ∧ Text.isHex point.y = true

end KeyPoint

/-! ## `compress` -/

section Compress

variable {point : KeyPoint}

/-- Digits are read on from what was read before. -/
theorem readDigits_append {radix value : Nat} (front rest : Text) :
    readDigits radix value (front ++ rest) =
      (readDigits radix value front).bind fun read => readDigits radix read rest := by
  induction front generalizing value with
  | nil => rfl
  | cons c front ih =>
    rw [List.cons_append, readDigits, readDigits]
    cases digitValue c with
    | none => rfl
    | some digit =>
      by_cases small : digit < radix
      · simp only [small, if_true]
        exact ih
      · simp only [small, if_false, Option.bind_none]

/-- The last digit decides the parity, whatever was read before it. -/
theorem readDigits_parity (digits : Text) (left right : Nat) (there : digits ≠ []) :
    (readDigits 16 left digits).map (· % 2) = (readDigits 16 right digits).map (· % 2) := by
  induction digits generalizing left right with
  | nil => exact absurd rfl there
  | cons c digits ih =>
    rw [readDigits, readDigits]
    cases digitValue c with
    | none => rfl
    | some digit =>
      by_cases small : digit < 16
      · simp only [small, if_true]
        by_cases last : digits = []
        · subst last
          simp only [readDigits, Option.map_some]
          congr 1
          omega
        · exact ih _ _ last
      · simp only [small, if_false]

/-- A text of the length and with a mark of a compressed key is taken as it is. -/
theorem compress_marked {key : Text} (marker : key.take 2 = "02".toList ∨ key.take 2 = "03".toList)
    (length : key.length = 66) : compress key = .ok key := by
  have short : ¬ (key.length = 2 * (1 + 2 * 32) ∧ Text.isHex key ∧ key.take 2 = "04".toList) := by
    rw [length]
    exact fun full => absurd full.1 (by decide)
  rw [compress, if_neg short, if_pos ⟨marker, length⟩]

/-- A compressed key is compressed already, in either case. -/
theorem compress_compressed (point : KeyPoint) :
    compress (point.key .compressed) = .ok (point.key .compressed) := by
  refine compress_marked ?_ ?_
  · rw [KeyPoint.key]
    split
    · exact .inr rfl
    · exact .inl rfl
  · rw [KeyPoint.key, List.length_append, point.x_length]
    split <;> rfl

/-- An uncompressed key has the mark and the length of one. -/
theorem uncompressed_parts (point : KeyPoint) :
    (point.key .uncompressed).length = 130 ∧ (point.key .uncompressed).take 2 = "04".toList ∧
      ((point.key .uncompressed).drop 2).take 64 = point.x ∧
      ((point.key .uncompressed).drop 128).take 2 = point.y.drop 62 := by
  have split : point.key .uncompressed = "04".toList ++ (point.x ++ point.y) := by
    rw [KeyPoint.key, List.append_assoc]
  have tail : (point.key .uncompressed).drop 2 = point.x ++ point.y := by
    rw [split]
    rfl
  have last : (point.key .uncompressed).drop 128 = point.y.drop 62 := by
    have steps : (point.key .uncompressed).drop 128 =
        ((point.key .uncompressed).drop 2).drop 126 := by rw [List.drop_drop]
    rw [steps, tail, List.drop_append, point.x_length, List.drop_eq_nil_of_le]
    · rfl
    · rw [point.x_length]
      decide
  refine ⟨?_, by rw [split]; rfl, ?_, ?_⟩
  · rw [split, List.length_append, List.length_append, point.x_length, point.y_length]
    rfl
  · rw [tail, ← point.x_length, List.take_left]
  · rw [last, List.take_of_length_le]
    rw [List.length_drop, point.y_length]

/-- An uncompressed key is all in lower case when both coordinates are. -/
theorem uncompressed_isHex (point : KeyPoint) :
    Text.isHex (point.key .uncompressed) = true ↔ point.Lower := by
  have mark : Text.isHex "04".toList = true := by decide
  rw [KeyPoint.Lower, KeyPoint.key, Text.isHex, List.all_append, List.all_append, Bool.and_eq_true,
    Bool.and_eq_true]
  constructor
  · rintro ⟨⟨-, x⟩, y⟩
    exact ⟨x, y⟩
  · rintro ⟨x, y⟩
    exact ⟨⟨mark, x⟩, y⟩

/-- The last byte of the second coordinate is read, and has its parity. -/
theorem last_byte (point : KeyPoint) :
    ∃ last, readDigits 16 0 (point.y.drop 62) = some last ∧
      point.odd = (last % 2 != 0) := by
  have digits := readDigits_isSome 16 0 point.y
  rw [point.y_digits] at digits
  obtain ⟨y, read⟩ := Option.isSome_iff_exists.mp digits
  have parts : readDigits 16 0 (point.y.take 62 ++ point.y.drop 62) = some y := by
    rw [List.take_append_drop, read]
  rw [readDigits_append] at parts
  obtain ⟨front, -, rest⟩ := Option.bind_eq_some_iff.mp parts
  have there : point.y.drop 62 ≠ [] := by
    intro empty
    have length := congrArg List.length empty
    rw [List.length_drop, point.y_length] at length
    cases length
  have parity := readDigits_parity (point.y.drop 62) front 0 there
  rw [rest, Option.map_some] at parity
  obtain ⟨last, readLast, same⟩ := Option.map_eq_some_iff.mp parity.symm
  refine ⟨last, readLast, ?_⟩
  rw [KeyPoint.odd, read]
  simp only [same]

/-- An uncompressed key in lower case is compressed to the compressed key of its point. -/
theorem compress_uncompressed (lower : point.Lower) :
    compress (point.key .uncompressed) = .ok (point.key .compressed) := by
  obtain ⟨length, marker, x, y⟩ := uncompressed_parts point
  obtain ⟨last, read, odd⟩ := last_byte point
  have hex := (uncompressed_isHex point).mpr lower
  have form : point.key .compressed =
      if last % 2 = 0 then "02".toList ++ point.x else "03".toList ++ point.x := by
    rw [KeyPoint.key, odd]
    by_cases even : last % 2 = 0
    · simp only [even, bne_self_eq_false, Bool.false_eq_true, if_false, if_true]
    · have marked : (last % 2 != 0) = true := bne_iff_ne.mpr even
      rw [marked, if_pos rfl, if_neg even]
  rw [compress, if_pos ⟨length, hex, marker⟩, form]
  simp only [x, y, read]

/-- An uncompressed key with a letter in upper case is refused. -/
theorem compress_upper (upper : ¬ point.Lower) :
    compress (point.key .uncompressed) = .error (rejection "Unexpected public key format") := by
  obtain ⟨length, marker, -, -⟩ := uncompressed_parts point
  have other : ¬ Text.isHex (point.key .uncompressed) = true :=
    fun hex => upper ((uncompressed_isHex point).mp hex)
  rw [compress, if_neg fun full => other full.2.1, if_neg]
  rw [length]
  exact fun short => absurd short.2 (by decide)

/-- What is compressed is compressed already. -/
theorem compress_idempotent {key once : Text} (compressed : compress key = .ok once) :
    compress once = .ok once := by
  by_cases long : key.length = 2 * (1 + 2 * 32) ∧ Text.isHex key ∧ key.take 2 = "04".toList
  · have length : ((key.drop 2).take 64).length = 64 := by
      rw [List.length_take, List.length_drop, long.1]
      rfl
    rw [compress, if_pos long] at compressed
    dsimp only at compressed
    split at compressed
    · obtain rfl := Except.ok.inj compressed
      split
      · exact compress_marked (.inl rfl) (by rw [List.length_append, length]; rfl)
      · exact compress_marked (.inr rfl) (by rw [List.length_append, length]; rfl)
    · cases compressed
  · have same := compressed
    rw [compress, if_neg long] at compressed
    split at compressed
    · obtain rfl := Except.ok.inj compressed
      exact same
    · cases compressed

end Compress

/-! ## Rewards -/

/-- A transaction that a key signs acts for the wallet that an award to the key credits. -/
def Spendable (sha : Sha512) (signer : Text) : Prop :=
  ∃ owner,
    (∀ env : Env, env.Live → env.signerPublicKey = signer → env.sighash sha = .ok owner) ∧
    ∀ (env : Env) (memory after : Memory) (newFormula : Bool) (height : Int), env.Live →
      award sha newFormula height signer env memory = .ok ((), after) →
      ∀ other, balanceOf sha after.state other = balanceOf sha memory.state other +
        if owner = other then env.creditOf newFormula height else 0

/-- What makes a mined reward spendable by the miner, whichever form the key is written in. -/
structure KeyPoint.Rewarded (sha : Sha512) (point : KeyPoint) (form : KeyForm) : Prop where
  /-- The wallet of the award is the one of the miner's transactions. -/
  spendable : Spendable sha (point.key form)
  /-- Both forms are compressed to one text. -/
  forms : ∃ same, compress (point.key .compressed) = .ok same ∧
    compress (point.key .uncompressed) = .ok same
  /-- A compressed key is compressed already. -/
  idempotent : ∀ once, compress (point.key form) = .ok once → compress once = .ok once

section Rewards

variable {sha : Sha512} {point : KeyPoint} {form : KeyForm}

/-- A reward to a key is spendable exactly when the key and its compressed form have one wallet. -/
theorem spendable_iff {signer : Text} :
    Spendable sha signer ↔ ∃ compressed, compress signer = .ok compressed ∧
      sha.id compressed = sha.id signer := by
  constructor
  · rintro ⟨owner, signed, credited⟩
    let env : Env := { sampleNode with signerPublicKey := signer }
    have live : env.Live := ⟨rfl, rfl, rfl⟩
    have signed := signed env live rfl
    have empty : Solvent sha (∅ : State) := fun _ present => absurd rfl present
    obtain ⟨after, ran, -⟩ : ∃ after, award sha false 0 signer env ⟨∅, ∅⟩ = .ok ((), after) ∧
      Solvent sha after.state := award_total live empty ⟨_, rfl⟩
    have balance : balanceOf sha after.state (sha.id signer) =
      balanceOf sha (Memory.state ⟨∅, ∅⟩) (sha.id signer) +
        if sha.id signer = sha.id signer then env.creditOf false 0 else 0 := award_balance live ran
    rw [credited _ _ _ _ _ live ran, if_pos rfl] at balance
    have owned : owner = sha.id signer := by
      by_contra other
      rw [if_neg other] at balance
      have positive : env.creditOf false 0 = rewardAmount := rfl
      rw [positive] at balance
      have amount : (0 : Int) < rewardAmount := by decide
      omega
    simp only [Env.sighash, env] at signed
    cases read : compress signer with
    | ok compressed =>
      rw [read] at signed
      exact ⟨compressed, rfl, by rw [← owned, ← Except.ok.inj signed]⟩
    | error failure =>
      rw [read] at signed
      cases signed
  · rintro ⟨compressed, read, same⟩
    refine ⟨sha.id signer, ?_, ?_⟩
    · intro env live key
      simp only [Env.sighash, live.transitioning, Bool.false_eq_true, if_false, key, read, same]
    · intro env memory after newFormula height live ran other
      exact award_balance live ran

/-- Rewards to a key are spendable by the miner, and both forms name one wallet, exactly when the
block carries the compressed form and the coordinates are written in lower case. -/
theorem rewarded_iff
    (apart : sha.id (point.key .uncompressed) ≠ sha.id (point.key .compressed)) :
    point.Rewarded sha form ↔ form = .compressed ∧ point.Lower := by
  constructor
  · rintro ⟨spendable, ⟨same, -, read⟩, -⟩
    have lower : point.Lower := by
      by_contra upper
      rw [compress_upper upper] at read
      cases read
    refine ⟨?_, lower⟩
    cases form with
    | compressed => rfl
    | uncompressed =>
      obtain ⟨compressed, read, wallet⟩ := spendable_iff.mp spendable
      rw [compress_uncompressed lower] at read
      obtain rfl := Except.ok.inj read
      exact absurd wallet.symm apart
  · rintro ⟨rfl, lower⟩
    exact {
      spendable := spendable_iff.mpr ⟨_, compress_compressed point, rfl⟩
      forms := ⟨_, compress_compressed point, compress_uncompressed lower⟩
      idempotent := fun _ read => compress_idempotent read }

end Rewards

/-! ## A key -/

/-- The generator of the curve. -/
def generatorKey : KeyPoint where
  x := "79be667ef9dcbbac55a06295ce870b07029bfcdb2dce28d959f2815b16f81798".toList
  y := "483ada7726a3c4655da4fbfc0e1108a8fd17b448a68554199c47d08ffb10d4b8".toList
  x_length := by decide
  y_length := by decide
  x_digits := by decide
  y_digits := by decide

/-- The digests of both forms of the generator, and those of the sample loan for any other
message. -/
def generatorDigest (message : Text) : Text :=
  if message = generatorKey.key .uncompressed then
    hexText 64 0xde0003aad17dc12467e5818690088b9e7399632320629a981a2e449f2cdbdc6e ++
      hexText 64 0xbb4fd520d2ea03f9e9c5f62113908b1e729f0df4b256003adc092631d693692d
  else if message = generatorKey.key .compressed then
    hexText 64 0x31ac0c4889364442e732517d538700bf44823236f0841ca80b685cede918d600 ++
      hexText 64 0x040837a99a61107ac47a243d3947e1f55c2c7290442a71e846d24299afdf2303
  else sampleDigest message

/-- A digest has sixty-four bytes. -/
theorem generatorDigest_length (message : Text) : (generatorDigest message).length = 128 := by
  unfold generatorDigest
  split
  · simp [hexText]
  · split
    · simp [hexText]
    · exact sample.digest_length message

/-- A digest is in hexadecimal digits. -/
theorem generatorDigest_isHex (message : Text) : Text.isHex (generatorDigest message) = true := by
  have halves (high low : Nat) : Text.isHex (hexText 64 high ++ hexText 64 low) = true := by
    rw [Text.isHex, List.all_append, Bool.and_eq_true]
    exact ⟨hexText_isHex 64 high, hexText_isHex 64 low⟩
  unfold generatorDigest
  split
  · exact halves _ _
  · split
    · exact halves _ _
    · exact sample.digest_isHex message

/-- The namespace is that of the sample digests. -/
theorem generatorDigest_namespace :
    (generatorDigest "CREDITCOIN".toList).take 6 = "8a1a04".toList := by
  decide

/-- SHA-512 on the forms of the generator. -/
def generatorSha : Sha512 where
  digest := generatorDigest
  digest_length := generatorDigest_length
  digest_isHex := generatorDigest_isHex
  digest_namespace := generatorDigest_namespace

/-- The generator in its compressed form is rewarded. -/
theorem rewarded_iff_generator :
    generatorSha.id (generatorKey.key .uncompressed) ≠
      generatorSha.id (generatorKey.key .compressed) ∧
    (generatorKey.Rewarded generatorSha .compressed ↔
      KeyForm.compressed = .compressed ∧ generatorKey.Lower) :=
  ⟨by decide +kernel, rewarded_iff (by decide +kernel)⟩

/-- A miner whose blocks carry the uncompressed form is rewarded in a wallet of no one. -/
theorem reward_stranded : ¬ ∀ (sha : Sha512) (point : KeyPoint) (form : KeyForm),
    point.Rewarded sha form := by
  intro claim
  obtain ⟨compressed, read, wallet⟩ :=
    spendable_iff.mp (claim generatorSha generatorKey .uncompressed).spendable
  have lower : generatorKey.Lower := ⟨by decide, by decide⟩
  rw [compress_uncompressed lower] at read
  obtain rfl := Except.ok.inj read
  have apart : generatorSha.id (generatorKey.key .uncompressed) ≠
      generatorSha.id (generatorKey.key .compressed) := by decide +kernel
  exact apart wallet.symm

end Creditcoin
