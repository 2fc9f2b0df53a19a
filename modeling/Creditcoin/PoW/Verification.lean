import Creditcoin.PoW.Difficulty

/-!
# Chains of verified blocks

A link is a block that passed verification, with its predecessor and the reading of the clock, and
a chain joins each link to the one before it. A block below the expected difficulty passes when
the comparisons of its time fail, so a time that is not a number, in the block or in its
predecessor, takes the place of the waiting time. A difficulty is bounded above by the digest.
Below it is bounded by the predecessor's only where the expected difficulty binds.
-/

namespace Creditcoin.PoW

/-- The difficulty field of a header. -/
def Node.difficulty (node : Node) (header : BlockHeader) : Py Int := do
  node.runtime.int (← field header.fields idxDifficulty)

/-- The time field of a header. -/
def Node.time (node : Node) (header : BlockHeader) : Py Float := do
  node.runtime.float (← field header.fields idxTime)

section Readings
variable {node : Node} {now : Instant} {prev : Block} {header : BlockHeader} {time : Float}

/-- An adjusted difficulty is the predecessor's or one next to it, and an adjustment stays between
zero and 255. -/
theorem Node.getAdjustedDifficulty_near {expected : Int}
    (adjusted : node.getAdjustedDifficulty prev prev.fields time = .ok expected) :
    ∃ difficulty, node.difficulty prev.toBlockHeader = .ok difficulty ∧
      (expected = difficulty ∨ expected = difficulty + 1 ∧ difficulty < 255 ∨
        expected = difficulty - 1 ∧ 0 < difficulty) := by
  have ⟨text, found, adjusted⟩ := bind_ok.mp adjusted
  have ⟨difficulty, read, adjusted⟩ := bind_ok.mp adjusted
  refine ⟨difficulty, bind_ok.mpr ⟨text, found, read⟩, ?_⟩
  have up : (if difficulty < 255 then difficulty + 1 else difficulty) = expected →
      expected = difficulty ∨ expected = difficulty + 1 ∧ difficulty < 255 ∨
        expected = difficulty - 1 ∧ 0 < difficulty := by
    intro same
    split at same <;> omega
  have down : (if 0 < difficulty then difficulty - 1 else difficulty) = expected →
      expected = difficulty ∨ expected = difficulty + 1 ∧ difficulty < 255 ∨
        expected = difficulty - 1 ∧ 0 < difficulty := by
    intro same
    split at same <;> omega
  have ⟨tuned, _, adjusted⟩ := bind_ok.mp adjusted
  split at adjusted
  · have ⟨elapsed, _, adjusted⟩ := bind_ok.mp adjusted
    dsimp only at adjusted
    split at adjusted
    · exact up (Except.ok.inj adjusted)
    · split at adjusted
      · exact down (Except.ok.inj adjusted)
      · exact .inl (Except.ok.inj adjusted).symm
  · have ⟨counted, _, adjusted⟩ := bind_ok.mp adjusted
    split at adjusted
    · have ⟨elapsed, _, adjusted⟩ := bind_ok.mp adjusted
      have ⟨halved, _, adjusted⟩ := bind_ok.mp adjusted
      split at adjusted
      · exact up (Except.ok.inj adjusted)
      · split at adjusted
        · exact down (Except.ok.inj adjusted)
        · exact .inl (Except.ok.inj adjusted).symm
    · exact .inl (Except.ok.inj adjusted).symm

/-- The difficulty is validated: it reaches the expected one, or the comparisons fail. -/
theorem Node.validateDifficulty_ok :
    node.validateDifficulty now prev prev.fields header.fields = .ok true →
    ∃ time expected difficulty, node.time header = .ok time ∧
      node.getAdjustedDifficulty prev prev.fields time = .ok expected ∧
      node.difficulty header = .ok difficulty ∧
      (difficulty < expected →
        ∃ prevTime, node.time prev.toBlockHeader = .ok prevTime ∧
          tooEarly now prevTime time = false) := by
  intro validated
  have ⟨timeField, foundTime, validated⟩ := bind_ok.mp validated
  have ⟨time, readTime, validated⟩ := bind_ok.mp validated
  have ⟨expected, adjusted, validated⟩ := bind_ok.mp validated
  have ⟨difficultyField, foundDifficulty, validated⟩ := bind_ok.mp validated
  have ⟨difficulty, readDifficulty, validated⟩ := bind_ok.mp validated
  have timeRead : node.time header = .ok time :=
    bind_ok.mpr ⟨timeField, foundTime, Runtime.float_of_bytes readTime⟩
  have difficultyRead : node.difficulty header = .ok difficulty :=
    bind_ok.mpr ⟨difficultyField, foundDifficulty, Runtime.int_of_bytes readDifficulty⟩
  refine ⟨time, expected, difficulty, timeRead, adjusted, difficultyRead, ?_⟩
  intro below
  rw [if_pos below] at validated
  have ⟨prevField, foundPrev, validated⟩ := bind_ok.mp validated
  have ⟨prevTime, readPrev, validated⟩ := bind_ok.mp validated
  have ⟨timeField', foundTime', validated⟩ := bind_ok.mp validated
  have ⟨thisTime, readThis, validated⟩ := bind_ok.mp validated
  have same : Except.ok time = (Except.ok thisTime : Py Float) :=
    timeRead.symm.trans (bind_ok.mpr ⟨timeField', foundTime', readThis⟩)
  have early := Except.ok.inj validated
  rw [← Except.ok.inj same, Bool.not_eq_true'] at early
  exact ⟨prevTime, bind_ok.mpr ⟨prevField, foundPrev, readPrev⟩, early⟩

/-- What a verified block has passed. -/
theorem Node.verifyBlock_ok (verified : node.verifyBlock now header = .ok true) :
    ∃ prev nonce difficulty, isPow header.fields = true ∧
      node.cache.find header.previousBlockId = some prev ∧
      (isPow prev.fields = true →
        node.validateDifficulty now prev prev.fields header.fields = .ok true) ∧
      field header.fields idxNonce = .ok nonce ∧ node.difficulty header = .ok difficulty ∧
      difficulty ≤ countLeadingZeroes (buildDigest header nonce) := by
  unfold verifyBlock at verified
  dsimp only at verified
  split at verified
  · exact absurd (Except.ok.inj verified) (by decide)
  · rename_i powered
    rw [Bool.not_eq_true', Bool.not_eq_false] at powered
    split at verified
    · exact absurd (Except.ok.inj verified) (by decide)
    · rename_i prev found
      have check : (isPow prev.fields = true →
            node.validateDifficulty now prev prev.fields header.fields = .ok true) ∧
          (do
            let nonce ← field header.fields idxNonce
            let difficulty ← node.runtime.int (← field header.fields idxDifficulty)
            return validDigest (buildDigest header nonce) difficulty : Py Bool) = .ok true := by
        split at verified
        · have ⟨valid, validated, rest⟩ := bind_ok.mp verified
          cases valid with
          | true => exact ⟨fun _ => validated, rest⟩
          | false => exact absurd (Except.ok.inj rest) (by decide)
        · rename_i plain
          exact ⟨fun powered => absurd powered plain, verified⟩
      have ⟨nonce, foundNonce, digested⟩ := bind_ok.mp check.2
      have ⟨difficultyField, foundDifficulty, digested⟩ := bind_ok.mp digested
      have ⟨difficulty, readDifficulty, digested⟩ := bind_ok.mp digested
      exact ⟨prev, nonce, difficulty, powered, found, check.1, foundNonce,
        bind_ok.mpr ⟨difficultyField, foundDifficulty, readDifficulty⟩,
        of_decide_eq_true (Except.ok.inj digested)⟩

end Readings

/-! ## Links and chains -/

/-- A verified block, with its predecessor and the verifier's clock. -/
structure Link (node : Node) where
  prev : Block
  block : Block
  clock : Instant
  found : node.cache.find block.previousBlockId = some prev
  verified : node.verifyBlock clock block.toBlockHeader = .ok true

/-- A chain of verified blocks, the newest first: the predecessor of each link is the block of the
link before it. -/
structure VerifiedChain (node : Node) where
  links : List (Link node)
  joined : links.IsChain fun newer older => newer.prev = older.block

namespace Link
variable {node : Node} (link : Link node)

/-- The predecessor is a PoW block. -/
def OnPow : Prop := isPow link.prev.fields = true

/-- The difficulty reaches the one expected of the block at its claimed time. -/
def Reaches : Prop :=
  ∃ time expected difficulty, node.time link.block.toBlockHeader = .ok time ∧
    node.getAdjustedDifficulty link.prev link.prev.fields time = .ok expected ∧
    node.difficulty link.block.toBlockHeader = .ok difficulty ∧ expected ≤ difficulty

/-- The claimed time is a number at least the enforcing interval after the predecessor's time and
earlier than the verifier's clock. -/
def Waited : Prop :=
  ∃ time prevTime, node.time link.block.toBlockHeader = .ok time ∧
    node.time link.prev.toBlockHeader = .ok prevTime ∧ time.isNaN = false ∧
    Lib.Binary64.intLe difficultyEnforcingInterval (time - prevTime) = true ∧
    time < link.clock.seconds

/-- Neither time is `nan`. -/
def NumericTimes : Prop :=
  ∃ time prevTime, node.time link.block.toBlockHeader = .ok time ∧
    node.time link.prev.toBlockHeader = .ok prevTime ∧ time.isNaN = false ∧
    prevTime.isNaN = false

variable {link}

/-- A verified block on a PoW block reaches the expected difficulty, or its comparisons fail. -/
theorem reaches_or_late (powered : link.OnPow) :
    link.Reaches ∨ ∃ time prevTime, node.time link.block.toBlockHeader = .ok time ∧
      node.time link.prev.toBlockHeader = .ok prevTime ∧
      tooEarly link.clock prevTime time = false := by
  have ⟨prev, _, _, _, found, validates, _⟩ := Node.verifyBlock_ok link.verified
  have same : prev = link.prev := Option.some_inj.mp (found.symm.trans link.found)
  subst same
  have ⟨time, expected, difficulty, read, adjusted, readDifficulty, excused⟩ :=
    Node.validateDifficulty_ok (validates powered)
  by_cases below : difficulty < expected
  · have ⟨prevTime, readPrev, late⟩ := excused below
    exact .inr ⟨time, prevTime, read, readPrev, late⟩
  · exact .inl ⟨time, expected, difficulty, read, adjusted, readDifficulty, not_lt.mp below⟩

/-- Between numbers, comparisons that fail are a wait. -/
theorem waited_of_late (late : ∃ time prevTime, node.time link.block.toBlockHeader = .ok time ∧
      node.time link.prev.toBlockHeader = .ok prevTime ∧
      tooEarly link.clock prevTime time = false) (numeric : link.NumericTimes) : link.Waited := by
  have ⟨time, prevTime, read, readPrev, late⟩ := late
  have ⟨time', prevTime', read', readPrev', number, prevNumber⟩ := numeric
  have same : time = time' := Except.ok.inj (read.symm.trans read')
  have samePrev : prevTime = prevTime' := Except.ok.inj (readPrev.symm.trans readPrev')
  subst same samePrev
  rw [tooEarly, Bool.or_eq_false_iff, Bool.or_eq_false_iff] at late
  have past : time < link.clock.seconds :=
    Lib.Binary64.lt_of_not_le number link.clock.number (of_decide_eq_false late.1.1)
  have after : prevTime < time :=
    Lib.Binary64.lt_of_not_le prevNumber number (of_decide_eq_false late.1.2)
  have bounded : time.isInf = false := Lib.Binary64.finite_of_between after past
  have difference : (time - prevTime).isNaN = false :=
    Lib.Binary64.number_sub number prevNumber (.inl bounded)
  exact ⟨time, prevTime, read, readPrev, number,
    Lib.Binary64.intLe_iff.mpr ⟨difference, late.2⟩, past⟩

/-- A wait is between numbers. -/
theorem numericTimes_of_waited (waited : link.Waited) : link.NumericTimes := by
  have ⟨time, prevTime, read, readPrev, number, apart, _⟩ := waited
  have operands := Lib.Binary64.numbers_of_sub (Lib.Binary64.intLe_iff.mp apart).1
  exact ⟨time, prevTime, read, readPrev, number, operands.2⟩

end Link

/-- On a chain every block on a PoW block reaches the expected difficulty or has waited for the
enforcing interval, exactly when the times of each block below the expected difficulty, its own
and its predecessor's, are numbers. -/
theorem difficulty_enforced {node : Node} (chain : VerifiedChain node) :
    (∀ link ∈ chain.links, link.OnPow → link.Reaches ∨ link.Waited) ↔
      ∀ link ∈ chain.links, link.OnPow → ¬ link.Reaches → link.NumericTimes := by
  constructor
  · intro enforced link listed powered below
    have waited := (enforced link listed powered).resolve_left below
    exact Link.numericTimes_of_waited waited
  · intro numeric link listed powered
    by_cases reaches : link.Reaches
    · exact .inl reaches
    · have late := (Link.reaches_or_late powered).resolve_left reaches
      exact .inr (Link.waited_of_late late (numeric link listed powered reaches))

/-! ## A time that is not a number -/

/-- An interpreter of ASCII texts. -/
def plainRuntime : Runtime where
  isSpace _ := false
  decimal _ := none
  str _ := []

/-- A block of the signer `k`. -/
def sampleBlock (blockNum : UInt64) (previousBlockId headerSignature consensus : String) :
    Block where
  blockNum := blockNum
  previousBlockId := previousBlockId.toList
  signerPublicKey := "k".toList
  consensus := consensus.toList
  headerSignature := headerSignature.toList

/-- A block that does not come from proof of work. -/
def genesisBlock : Block := sampleBlock 0 "0" "g" "Genesis"

/-- A block of difficulty three on it. -/
def firstBlock : Block := sampleBlock 1 "g" "a" "PoW:3:15:1000.0"

/-- A block without work, with no time. -/
def timelessBlock : Block := sampleBlock 2 "a" "b" "PoW:0:0:nan"

/-- A clock at 2000 seconds. -/
def sampleClock : Instant := ⟨2000, by decide +kernel⟩

/-- A node that holds the three blocks. -/
def sampleNode : Node where
  runtime := plainRuntime
  cache := BlockCache.ofList [timelessBlock, firstBlock, genesisBlock] (by decide)
  validator := .default

/-- The chain of the two blocks on the genesis block. -/
def timelessChain : VerifiedChain sampleNode where
  links :=
    [⟨firstBlock, timelessBlock, sampleClock, by decide +kernel, by decide +kernel⟩,
      ⟨genesisBlock, firstBlock, sampleClock, by decide +kernel, by decide +kernel⟩]
  joined := by simp

/-- A block without work passes after a block of difficulty three when its time is `nan`. -/
theorem difficulty_bypassed :
    ¬ ∀ (node : Node) (chain : VerifiedChain node),
      ∀ link ∈ chain.links, link.OnPow → link.Reaches ∨ link.Waited := by
  intro claim
  have powered : isPow firstBlock.fields = true := by decide
  have bypassed := claim sampleNode timelessChain _ List.mem_cons_self powered
  have timeless : sampleNode.time timelessBlock.toBlockHeader = .ok nan := by decide +kernel
  have workless : sampleNode.difficulty timelessBlock.toBlockHeader = .ok 0 := by decide +kernel
  have demanding : sampleNode.difficulty firstBlock.toBlockHeader = .ok 3 := by decide +kernel
  rcases bypassed with reaches | waited
  · have ⟨_, expected, difficulty, _, adjusted, read, reached⟩ := reaches
    have ⟨previous, readPrevious, near⟩ := Node.getAdjustedDifficulty_near adjusted
    have three : 3 = previous := Except.ok.inj (demanding.symm.trans readPrevious)
    have zero : 0 = difficulty := Except.ok.inj (workless.symm.trans read)
    omega
  · have ⟨time, _, read, _, number, _⟩ := waited
    have same : nan = time := Except.ok.inj (timeless.symm.trans read)
    rw [← same] at number
    exact absurd number (by decide)

/-! ## The range of difficulties -/

namespace Link
variable {node : Node} (link : Link node)

/-- The difficulty lies between 0 and 256, so the block weighs a positive integer power of two
and the difficulty adjusted from it lies in the same range. -/
def InRange : Prop :=
  ∃ difficulty, node.difficulty link.block.toBlockHeader = .ok difficulty ∧
    0 ≤ difficulty ∧ difficulty ≤ 256 ∧
    twoPow difficulty = .ok (.int (2 ^ difficulty.toNat)) ∧
    ∀ time expected, node.getAdjustedDifficulty link.block link.block.fields time = .ok expected →
      0 ≤ expected ∧ expected ≤ 256

/-- The difficulty of the block is not negative. -/
def NonNegative : Prop :=
  ∃ difficulty, node.difficulty link.block.toBlockHeader = .ok difficulty ∧ 0 ≤ difficulty

variable {link}

/-- The digest bounds the difficulty, so a difficulty that is not negative is in range. -/
theorem inRange_of_nonNegative (nonNegative : link.NonNegative) : link.InRange := by
  have ⟨difficulty, read, low⟩ := nonNegative
  have ⟨_, nonce, difficulty', _, _, _, _, read', digested⟩ := Node.verifyBlock_ok link.verified
  have same : difficulty = difficulty' := Except.ok.inj (read.symm.trans read')
  have digest := countLeadingZeroes_buildDigest link.block.toBlockHeader nonce
  have high : difficulty ≤ 256 := by omega
  refine ⟨difficulty, read, low, high, by rw [twoPow, if_pos low], ?_⟩
  intro time expected adjusted
  have ⟨previous, readPrevious, near⟩ := Node.getAdjustedDifficulty_near adjusted
  have own : difficulty = previous := Except.ok.inj (read.symm.trans readPrevious)
  omega

/-- A block that reaches the difficulty expected after a block in range is not negative. -/
theorem nonNegative_of_reaches {older : Link node} (joined : link.prev = older.block)
    (ranged : older.InRange) (reaches : link.Reaches) : link.NonNegative := by
  have ⟨time, expected, difficulty, _, adjusted, read, reached⟩ := reaches
  have ⟨_, _, _, _, _, bound⟩ := ranged
  rw [joined] at adjusted
  exact ⟨difficulty, read, (bound time expected adjusted).1.trans reached⟩

end Link

/-- A chain that starts at a block without proof of work. -/
structure RootedChain (node : Node) extends VerifiedChain node where
  rooted : ∀ link ∈ links.getLast?, ¬ link.OnPow

/-- Links that are not negative where the expected difficulty does not bind are never negative. -/
theorem nonNegative_of_unbound {node : Node} {links : List (Link node)}
    (joined : links.IsChain fun newer older => newer.prev = older.block)
    (rooted : ∀ link ∈ links.getLast?, ¬ link.OnPow)
    (unbound : ∀ link ∈ links, ¬ link.OnPow ∨ ¬ link.Reaches → link.NonNegative) :
    ∀ link ∈ links, link.NonNegative := by
  induction links with
  | nil => simp
  | cons newer links ih =>
    rw [List.forall_mem_cons] at unbound ⊢
    cases links with
    | nil =>
      have plain : ¬ newer.OnPow := rooted newer (by simp)
      exact ⟨unbound.1 (.inl plain), by simp⟩
    | cons older links =>
      rw [List.isChain_cons_cons] at joined
      have earlier := ih joined.2 (by simpa using rooted) unbound.2
      refine ⟨?_, earlier⟩
      by_cases reaches : newer.Reaches
      · have ranged := Link.inRange_of_nonNegative (earlier older List.mem_cons_self)
        exact Link.nonNegative_of_reaches joined.1 ranged reaches
      · exact unbound.1 (.inr reaches)

/-- On a chain that starts at a block without proof of work every difficulty is in range, exactly
when the blocks that the expected difficulty does not bind, the first one and those below it, have
difficulties that are not negative. -/
theorem difficulties_inRange {node : Node} (chain : RootedChain node) :
    (∀ link ∈ chain.links, link.InRange) ↔
      ∀ link ∈ chain.links, ¬ link.OnPow ∨ ¬ link.Reaches → link.NonNegative := by
  constructor
  · intro ranged link listed _
    have ⟨difficulty, read, low, _⟩ := ranged link listed
    exact ⟨difficulty, read, low⟩
  · intro unbound link listed
    apply Link.inRange_of_nonNegative
    exact nonNegative_of_unbound chain.joined chain.rooted unbound link listed

/-- A first block of a negative difficulty. -/
def negativeBlock : Block := sampleBlock 1 "g" "a" "PoW:-5:0:1000.0"

/-- A node that holds it on the genesis block. -/
def negativeNode : Node where
  runtime := plainRuntime
  cache := BlockCache.ofList [negativeBlock, genesisBlock] (by decide)
  validator := .default

/-- The chain of that block. -/
def negativeChain : RootedChain negativeNode where
  links := [⟨genesisBlock, negativeBlock, sampleClock, by decide +kernel, by decide +kernel⟩]
  joined := by simp
  rooted := by
    intro link last
    rw [List.getLast?_singleton, Option.mem_some_iff] at last
    subst last
    change ¬ isPow genesisBlock.fields = true
    decide

/-- The first block after the switch to proof of work passes with a negative difficulty. -/
theorem difficulties_below_range :
    ¬ ∀ (node : Node) (chain : RootedChain node), ∀ link ∈ chain.links, link.InRange := by
  intro claim
  have ⟨difficulty, read, low, _⟩ := claim negativeNode negativeChain _ List.mem_cons_self
  have negative : negativeNode.difficulty negativeBlock.toBlockHeader = .ok (-5) := by
    decide +kernel
  have same : -5 = difficulty := Except.ok.inj (negative.symm.trans read)
  omega

end Creditcoin.PoW
