import Creditcoin.Lib.Sha256
import Creditcoin.PoW.Python

/-!
# Difficulty and verification of blocks

The consensus field of a block joins the word `PoW`, a difficulty, a nonce and a time with colons.
The difficulty that a block should have is its predecessor's, adjusted where the predecessor's
number is a multiple of one of two periods. A block of a lower difficulty is still accepted when
the three comparisons of its time with the clock and with its predecessor's time are false.
-/

namespace Creditcoin.PoW

/-- `POW`. -/
def pow : Text := "PoW".toList

/-- `GLUE`. -/
def glue : Char := ':'

/-- `EXPECTED_BLOCK_INTERVAL`. -/
def expectedBlockInterval : Int := 60

/-- `DIFFICULTY_ADJUSTMENT_BLOCK_COUNT`. -/
def difficultyAdjustmentBlockCount : Int := 10

/-- `DIFFICULTY_TUNING_BLOCK_COUNT`. -/
def difficultyTuningBlockCount : Int := 100

/-- `DIFFICULTY_ENFORCING_INTERVAL`. -/
def difficultyEnforcingInterval : Int := expectedBlockInterval * 30

/-- `IDX_POW`. -/
def idxPow : Nat := 0

/-- `IDX_DIFFICULTY`. -/
def idxDifficulty : Nat := 1

/-- `IDX_NONCE`. -/
def idxNonce : Nat := 2

/-- `IDX_TIME`. -/
def idxTime : Nat := 3

/-- What the consensus module reads of a block header. -/
structure BlockHeader where
  blockNum : UInt64
  previousBlockId : Text
  signerPublicKey : Text
  consensus : Text
  deriving DecidableEq

/-- A signed block. -/
structure Block extends BlockHeader where
  headerSignature : Text
  deriving DecidableEq

/-- The block cache over the block store. A block is found under its own signature, and since a
signature covers the header with its predecessor's signature no way back through the predecessors
returns to a block: each is less deep than its successor. -/
structure BlockCache where
  find : Text → Option Block
  keyed : ∀ {id block}, find id = some block → block.headerSignature = id
  depth : Text → Nat
  older : ∀ {id block prev}, find id = some block → find block.previousBlockId = some prev →
    depth block.previousBlockId < depth id

/-- `self._block_cache[id]`. -/
def BlockCache.get (cache : BlockCache) (id : Text) : Py Block :=
  match cache.find id with
  | some block => .ok block
  | none => .error .keyError

/-- The cache of a list of blocks in which every predecessor stands after its successors. -/
def BlockCache.ofList (blocks : List Block)
    (sorted : ∀ block ∈ blocks, ∀ prev ∈ blocks, prev.headerSignature = block.previousBlockId →
      blocks.findIdx (fun other : Block => other.headerSignature == block.headerSignature) <
        blocks.findIdx fun other : Block => other.headerSignature == block.previousBlockId) :
    BlockCache where
  find id := blocks.find? fun block : Block => block.headerSignature == id
  keyed := by
    intro id block found
    simpa using List.find?_some found
  depth id := blocks.length - blocks.findIdx fun block : Block => block.headerSignature == id
  older := by
    intro id block prev found foundPrev
    have own : block.headerSignature = id := by simpa using List.find?_some found
    have before : prev.headerSignature = block.previousBlockId := by
      simpa using List.find?_some foundPrev
    have earlier := sorted block (List.mem_of_find?_eq_some found) prev
      (List.mem_of_find?_eq_some foundPrev) before
    rw [own] at earlier
    have within :
        blocks.findIdx (fun other : Block => other.headerSignature == block.previousBlockId) <
          blocks.length :=
      List.findIdx_lt_length_of_exists ⟨prev, List.mem_of_find?_eq_some foundPrev, by simp [before]⟩
    omega

/-- `_DifficultyValidator`, without its cache. -/
structure DifficultyValidator where
  expectedBlockInterval : Int
  difficultyAdjustmentBlockCount : Int
  difficultyTuningBlockCount : Int

/-- `DIFFICULTY_VALIDATOR` before the settings are read. -/
def DifficultyValidator.default : DifficultyValidator where
  expectedBlockInterval := PoW.expectedBlockInterval
  difficultyAdjustmentBlockCount := PoW.difficultyAdjustmentBlockCount
  difficultyTuningBlockCount := PoW.difficultyTuningBlockCount

/-- A validator process: the interpreter, its blocks and its difficulty settings. -/
structure Node where
  runtime : Runtime
  cache : BlockCache
  validator : DifficultyValidator

/-! ## Digests -/

/-- Leading zero bits of a byte. -/
def leadingZeroesOfByte (byte : Nat) : Nat :=
  if 128 ≤ byte then 0
  else if 64 ≤ byte then 1
  else if 32 ≤ byte then 2
  else if 16 ≤ byte then 3
  else if 8 ≤ byte then 4
  else if 4 ≤ byte then 5
  else if 2 ≤ byte then 6
  else 7

/-- `_Helper._count_leading_zeroes`. -/
def countLeadingZeroes : List Nat → Nat
  | [] => 0
  | byte :: rest => if 0 < byte then leadingZeroesOfByte byte else 8 + countLeadingZeroes rest

/-- `_Helper.valid_digest`. -/
def validDigest (digest : List Nat) (difficulty : Int) : Bool :=
  decide (difficulty ≤ countLeadingZeroes digest)

/-- `_Helper.build_digest_with_encoded_data`. -/
def buildDigestWithEncodedData (encodedBlockId encodedPublicKey : List Nat) (nonce : Text) :
    List Nat :=
  Lib.Sha256.digest (encodedBlockId ++ encodedPublicKey ++ nonce.map Char.toNat)

/-- `_Helper.build_digest`. -/
def buildDigest (header : BlockHeader) (nonce : Text) : List Nat :=
  buildDigestWithEncodedData (encode header.previousBlockId) (encode header.signerPublicKey) nonce

/-- A byte has at most eight leading zero bits, so a digest has at most so many per byte. -/
theorem countLeadingZeroes_le (digest : List Nat) :
    countLeadingZeroes digest ≤ 8 * digest.length := by
  induction digest with
  | nil => exact Nat.le_refl 0
  | cons byte rest ih =>
    have small : leadingZeroesOfByte byte ≤ 7 := by
      unfold leadingZeroesOfByte
      repeat' split
      all_goals omega
    rw [countLeadingZeroes, List.length_cons]
    split <;> omega

/-- No digest has more than 256 leading zero bits. -/
theorem countLeadingZeroes_buildDigest (header : BlockHeader) (nonce : Text) :
    countLeadingZeroes (buildDigest header nonce) ≤ 256 := by
  have bound := countLeadingZeroes_le (buildDigest header nonce)
  rw [buildDigest, buildDigestWithEncodedData, Lib.Sha256.digest_length] at bound
  exact bound

/-! ## The expected difficulty -/

/-- `consensus[IDX_POW] == POW`. -/
def isPow (consensus : List Text) : Bool := decide (consensus[idxPow]? = some pow)

/-- The consensus field of a block, split. -/
def BlockHeader.fields (header : BlockHeader) : List Text := split glue header.consensus

/-- The comparisons that a block of a lower difficulty must fail. -/
def tooEarly (now : Instant) (prevBlockTime thisBlockTime : Float) : Bool :=
  decide (now.seconds ≤ thisBlockTime) || decide (thisBlockTime ≤ prevBlockTime) ||
    Lib.Binary64.ltInt (thisBlockTime - prevBlockTime) difficultyEnforcingInterval

namespace Node
variable (node : Node)

/-- The loop of `_get_elapsed_time`. -/
def walkBack (totalCount : Int) : Nat → Block → Text → Int → Py (Text × Int)
  | 0, _, lastAdjustedBlockTime, count => .ok (lastAdjustedBlockTime, count)
  | fuel + 1, prevBlock, lastAdjustedBlockTime, count => do
    let prevBlock ← node.cache.get prevBlock.previousBlockId
    let prevConsensus := prevBlock.fields
    if !isPow prevConsensus then return (lastAdjustedBlockTime, count)
    let count := count + 1
    let lastAdjustedBlockTime ← field prevConsensus idxTime
    if totalCount ≤ count then return (lastAdjustedBlockTime, count)
    walkBack totalCount fuel prevBlock lastAdjustedBlockTime count

/-- `_get_elapsed_time`. The count grows by one in each pass, so the loop ends within
`totalCount` passes. -/
def getElapsedTime (prevBlock : Block) (prevConsensus : List Text) (curTime : Float)
    (totalCount : Int) : Py (Float × Int) := do
  let lastAdjustedBlockTime ← field prevConsensus idxTime
  let (lastAdjustedBlockTime, count) ←
    node.walkBack totalCount (totalCount.toNat + 1) prevBlock lastAdjustedBlockTime 1
  let lastAdjustedBlockTime ← node.runtime.float lastAdjustedBlockTime
  return (curTime - lastAdjustedBlockTime, count * node.validator.expectedBlockInterval)

/-- `number % period`. -/
def modulo (number : UInt64) (period : Int) : Py Int :=
  if period = 0 then .error .zeroDivisionError else .ok ((number.toNat : Int).fmod period)

/-- `get_adjusted_difficulty`. -/
def getAdjustedDifficulty (prevBlock : Block) (prevConsensus : List Text) (curTime : Float) :
    Py Int := do
  let difficulty ← node.runtime.int (← field prevConsensus idxDifficulty)
  if (← modulo prevBlock.blockNum node.validator.difficultyTuningBlockCount) = 0 then
    let (timeTaken, timeExpected) ← node.getElapsedTime prevBlock prevConsensus curTime
      node.validator.difficultyTuningBlockCount
    if Lib.Binary64.ltInt timeTaken timeExpected then
      return if difficulty < 255 then difficulty + 1 else difficulty
    else if Lib.Binary64.intLt timeExpected timeTaken then
      return if 0 < difficulty then difficulty - 1 else difficulty
    else return difficulty
  else if (← modulo prevBlock.blockNum node.validator.difficultyAdjustmentBlockCount) = 0 then
    let (timeTaken, timeExpected) ← node.getElapsedTime prevBlock prevConsensus curTime
      node.validator.difficultyAdjustmentBlockCount
    if timeTaken < (← half timeExpected) then
      return if difficulty < 255 then difficulty + 1 else difficulty
    else if Lib.Binary64.intLt (timeExpected * 2) timeTaken then
      return if 0 < difficulty then difficulty - 1 else difficulty
    else return difficulty
  else return difficulty

/-- `validate_difficulty`. -/
def validateDifficulty (now : Instant) (prevBlock : Block) (prevConsensus consensus : List Text) :
    Py Bool := do
  let expectedDifficulty ← node.getAdjustedDifficulty prevBlock prevConsensus
    (← floatOfBytes (← field consensus idxTime))
  let blockDifficulty ← field consensus idxDifficulty
  if (← intOfBytes blockDifficulty) < expectedDifficulty then
    let prevBlockTime ← node.runtime.float (← field prevConsensus idxTime)
    let thisBlockTime ← node.runtime.float (← field consensus idxTime)
    return !tooEarly now prevBlockTime thisBlockTime
  return true

/-- `BlockVerifier.verify_block`. -/
def verifyBlock (now : Instant) (header : BlockHeader) : Py Bool := do
  let consensus := header.fields
  if !isPow consensus then return false
  match node.cache.find header.previousBlockId with
  | none => return false
  | some prevBlock =>
    let prevConsensus := prevBlock.fields
    if isPow prevConsensus then
      if !(← node.validateDifficulty now prevBlock prevConsensus consensus) then return false
    let nonce ← field consensus idxNonce
    let difficulty ← node.runtime.int (← field consensus idxDifficulty)
    return validDigest (buildDigest header nonce) difficulty

end Node

end Creditcoin.PoW
