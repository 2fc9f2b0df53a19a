import Creditcoin.PoW.Forks
import Mathlib.Algebra.Order.Field.Basic
import Mathlib.Data.Rat.Cast.Order
import Mathlib.Tactic.Linarith
import Mathlib.Tactic.Ring

/-!
# Retargeting

The difficulty is adjusted by the time that a window of blocks took. The walk back counts a block
for each interval between two blocks, and one for the interval between the predecessor and the
block that is made, so the count is the number of intervals from the oldest block of the window to
now, also where the blocks before proof of work cut the window short.

The arithmetic of times is a parameter here: the machine's, or exact arithmetic in an ordered field.
-/

namespace Creditcoin.PoW

/-- Times, as `get_adjusted_difficulty` computes with them. -/
structure Clock (T : Type) where
  /-- `float(b_time.decode())`. -/
  read : Text → Py T
  /-- `cur_time - last_adjusted_block_time`. -/
  elapsed : T → T → T
  /-- `time_taken < time_expected`. -/
  below : T → Int → Bool
  /-- `time_taken > time_expected`. -/
  above : T → Int → Bool
  /-- `time_taken < time_expected / 2`. -/
  belowHalf : T → Int → Py Bool

/-- The floats of the machine. -/
def Clock.binary64 (runtime : Runtime) : Clock Float where
  read := runtime.float
  elapsed now time := now - time
  below taken expected := Lib.Binary64.ltInt taken expected
  above taken expected := Lib.Binary64.intLt expected taken
  belowHalf taken expected := do return decide (taken < (← half expected))

/-- Exact arithmetic. -/
def Clock.exact {K : Type} [Field K] [LinearOrder K] (read : Text → Py K) : Clock K where
  read := read
  elapsed now time := now - time
  below taken expected := decide (taken < expected)
  above taken expected := decide ((expected : K) < taken)
  belowHalf taken expected := .ok (decide (taken < expected / 2))

namespace Node

/-- `_get_elapsed_time`, by a clock. -/
def elapsedBy {T : Type} (node : Node) (clock : Clock T) (prevBlock : Block)
    (prevConsensus : List Text) (curTime : T) (totalCount : Int) : Py (T × Int) := do
  let lastAdjustedBlockTime ← field prevConsensus idxTime
  let (lastAdjustedBlockTime, count) ←
    node.walkBack totalCount (totalCount.toNat + 1) prevBlock lastAdjustedBlockTime 1
  let lastAdjustedBlockTime ← clock.read lastAdjustedBlockTime
  return (clock.elapsed curTime lastAdjustedBlockTime,
    count * node.validator.expectedBlockInterval)

/-- `get_adjusted_difficulty`, by a clock. -/
def adjustedBy {T : Type} (node : Node) (clock : Clock T) (prevBlock : Block)
    (prevConsensus : List Text) (curTime : T) : Py Int := do
  let difficulty ← node.runtime.int (← field prevConsensus idxDifficulty)
  if (← modulo prevBlock.blockNum node.validator.difficultyTuningBlockCount) = 0 then
    let (timeTaken, timeExpected) ← node.elapsedBy clock prevBlock prevConsensus curTime
      node.validator.difficultyTuningBlockCount
    if clock.below timeTaken timeExpected then
      return if difficulty < 255 then difficulty + 1 else difficulty
    else if clock.above timeTaken timeExpected then
      return if 0 < difficulty then difficulty - 1 else difficulty
    else return difficulty
  else if (← modulo prevBlock.blockNum node.validator.difficultyAdjustmentBlockCount) = 0 then
    let (timeTaken, timeExpected) ← node.elapsedBy clock prevBlock prevConsensus curTime
      node.validator.difficultyAdjustmentBlockCount
    if (← clock.belowHalf timeTaken timeExpected) then
      return if difficulty < 255 then difficulty + 1 else difficulty
    else if clock.above timeTaken (timeExpected * 2) then
      return if 0 < difficulty then difficulty - 1 else difficulty
    else return difficulty
  else return difficulty

/-- The machine adjusts by its floats. -/
theorem getAdjustedDifficulty_eq (node : Node) (prevBlock : Block) (prevConsensus : List Text)
    (curTime : Float) :
    node.getAdjustedDifficulty prevBlock prevConsensus curTime =
      node.adjustedBy (Clock.binary64 node.runtime) prevBlock prevConsensus curTime := by
  simp [getAdjustedDifficulty, adjustedBy, getElapsedTime, elapsedBy, Clock.binary64]

end Node

/-! ## The walk back -/

/-- The blocks that a walk back over so many counts goes past, from a count on. -/
def walkLength (totalCount count : Int) (blocks : Nat) : Nat :=
  min (max (totalCount - count) 1).toNat blocks

section Walk

variable {node : Node} {block root : Block} {rest : List Block} {totalCount count : Int}

/-- A walk back past blocks of proof of work stops at the count or at the last of them, with the
time of the block it stops at. Each step takes one off what is left to count. -/
theorem walkBack_ok {fuel : Nat} {time : Text}
    (line : node.cache.forest.Branch root block (block :: rest))
    (mined : ∀ earlier ∈ rest, isPow earlier.fields = true ∧
      ∃ time, field earlier.fields idxTime = .ok time)
    (start : isPow root.fields = false) (found : field block.fields idxTime = .ok time)
    (enough : (max (totalCount - count) 1).toNat ≤ fuel) :
    ∃ oldest oldestTime,
      (block :: rest)[walkLength totalCount count rest.length]? = some oldest ∧
      field oldest.fields idxTime = .ok oldestTime ∧
      node.walkBack totalCount fuel block time count =
        .ok (oldestTime, count + walkLength totalCount count rest.length) := by
  induction rest generalizing block count fuel time with
  | nil =>
    obtain ⟨more, rfl⟩ : ∃ more, fuel = more + 1 := ⟨fuel - 1, by omega⟩
    obtain _ | ⟨child, below⟩ := line
    cases below
    have held : node.cache.get block.previousBlockId = .ok root := by
      change node.cache.find block.previousBlockId = some root at child
      rw [BlockCache.get, child]
    have none : walkLength totalCount count ([] : List Block).length = 0 := Nat.min_zero _
    refine ⟨block, time, by rw [none]; rfl, found, ?_⟩
    simp only [Node.walkBack, held, bind, Except.bind, start, Bool.not_false, if_true, none]
    rw [Int.natCast_zero, Int.add_zero]
    rfl
  | cons parent rest ih =>
    obtain ⟨more, rfl⟩ : ∃ more, fuel = more + 1 := ⟨fuel - 1, by omega⟩
    obtain _ | ⟨child, below⟩ := line
    obtain ⟨⟨proof, earlierTime, read⟩, mined⟩ := List.forall_mem_cons.mp mined
    obtain rfl := below.head_eq
    have held : node.cache.get block.previousBlockId = .ok parent := by
      change node.cache.find block.previousBlockId = some parent at child
      rw [BlockCache.get, child]
    simp only [Node.walkBack, held, bind, Except.bind, proof, Bool.not_true, Bool.false_eq_true,
      if_false, read]
    by_cases last : totalCount ≤ count + 1
    · have one : walkLength totalCount count (parent :: rest).length = 1 := by
        rw [walkLength, List.length_cons]
        omega
      refine ⟨parent, earlierTime, by rw [one]; rfl, read, ?_⟩
      rw [if_pos last, one]
      rfl
    · have next : walkLength totalCount count (parent :: rest).length =
          walkLength totalCount (count + 1) rest.length + 1 := by
        rw [walkLength, walkLength, List.length_cons]
        omega
      obtain ⟨oldest, oldestTime, stands, readOldest, walked⟩ :=
        ih below mined read (by omega : (max (totalCount - (count + 1)) 1).toNat ≤ more)
      refine ⟨oldest, oldestTime, ?_, readOldest, ?_⟩
      · rw [next, List.getElem?_cons_succ]
        exact stands
      · rw [if_neg last, walked, next]
        congr 2
        omega

end Walk

/-! ## Windows -/

/-- How a difficulty is adjusted to a time that was low or high. -/
def shift (low high : Bool) (difficulty : Int) : Int :=
  if low then if difficulty < 255 then difficulty + 1 else difficulty
  else if high then if 0 < difficulty then difficulty - 1 else difficulty
  else difficulty

/-- A shift is by one at most. -/
theorem shift_near (low high : Bool) (difficulty : Int) :
    |shift low high difficulty - difficulty| ≤ 1 := by
  rw [abs_le, shift]
  split_ifs <;> omega

/-- A shift up is made when the time was low. -/
theorem shift_raises {low high : Bool} {difficulty : Int}
    (raised : difficulty < shift low high difficulty) : low = true := by
  rw [shift] at raised
  cases low with
  | true => rfl
  | false =>
    rw [if_neg Bool.false_ne_true] at raised
    split_ifs at raised <;> omega

/-- A shift down is made when the time was high. -/
theorem shift_lowers {low high : Bool} {difficulty : Int}
    (lowered : shift low high difficulty < difficulty) : high = true := by
  rw [shift] at lowered
  cases high with
  | true => rfl
  | false =>
    rw [if_neg Bool.false_ne_true] at lowered
    split_ifs at lowered <;> omega

/-- The height of a block is divisible by a period. -/
def Block.Due (block : Block) (period : Int) : Prop := period ∣ (block.blockNum.toNat : Int)

instance (block : Block) (period : Int) : Decidable (block.Due period) :=
  inferInstanceAs (Decidable (_ ∣ _))

/-- The remainder of a height by a period. -/
theorem modulo_ok (block : Block) {period : Int} (positive : 0 < period) :
    ∃ rest, Node.modulo block.blockNum period = .ok rest ∧ (rest = 0 ↔ block.Due period) := by
  refine ⟨_, if_neg (Int.ne_of_gt positive), ?_⟩
  exact Int.dvd_iff_fmod_eq_zero.symm

namespace Node

/-- The count that the window of a predecessor is measured by. -/
def period (node : Node) (prev : Block) : Int :=
  if prev.Due node.validator.difficultyTuningBlockCount
  then node.validator.difficultyTuningBlockCount
  else node.validator.difficultyAdjustmentBlockCount

/-- The steps from a predecessor with earlier blocks back to the oldest block of its window. -/
def window (node : Node) (prev : Block) (earlier : List Block) : Nat :=
  walkLength (node.period prev) 1 earlier.length

/-- The time that the intervals from the oldest block of the window to now are expected to take. -/
def windowTime (node : Node) (prev : Block) (earlier : List Block) : Int :=
  (1 + node.window prev earlier) * node.validator.expectedBlockInterval

/-- A predecessor and the earlier blocks down to one before proof of work. All of them have times,
and the predecessor has a difficulty. -/
structure PowChain {T : Type} (node : Node) (clock : Clock T) (times : Block → T)
    (root prev : Block) (earlier : List Block) (difficulty : Int) : Prop where
  line : node.cache.forest.Branch root prev (prev :: earlier)
  start : isPow root.fields = false
  mined : ∀ block ∈ prev :: earlier, isPow block.fields = true
  timed : ∀ block ∈ prev :: earlier, ∃ text, field block.fields idxTime = .ok text ∧
    clock.read text = .ok (times block)
  difficult : node.difficulty prev.toBlockHeader = .ok difficulty

section Windows

variable {T : Type} {node : Node} {clock : Clock T} {times : Block → T} {root prev : Block}
  {earlier : List Block} {difficulty : Int}

/-- The walk back over a chain stops by itself, with the time of the oldest block. -/
theorem PowChain.walk (chain : node.PowChain clock times root prev earlier difficulty)
    (totalCount : Int) :
    ∃ oldest text first,
      (prev :: earlier)[walkLength totalCount 1 earlier.length]? = some oldest ∧
      clock.read text = .ok (times oldest) ∧ field prev.fields idxTime = .ok first ∧
      ∀ fuel, totalCount.toNat < fuel → node.walkBack totalCount fuel prev first 1 =
        .ok (text, 1 + walkLength totalCount 1 earlier.length) := by
  obtain ⟨⟨first, found, -⟩, timed⟩ := List.forall_mem_cons.mp chain.timed
  have mined : ∀ block ∈ earlier, isPow block.fields = true ∧
      ∃ time, field block.fields idxTime = .ok time := by
    intro block listed
    obtain ⟨text, read, -⟩ := timed block listed
    exact ⟨chain.mined block (List.mem_cons_of_mem _ listed), text, read⟩
  have walks (fuel : Nat) (enough : totalCount.toNat < fuel) :=
    walkBack_ok chain.line mined chain.start found
      (by omega : (max (totalCount - 1) 1).toNat ≤ fuel)
  obtain ⟨oldest, text, stands, own, -⟩ := walks _ (Nat.lt_succ_self _)
  obtain ⟨text', found', read⟩ := chain.timed oldest (List.mem_of_getElem? stands)
  obtain rfl : text = text' := Except.ok.inj (own.symm.trans found')
  refine ⟨oldest, text, first, stands, read, found, fun fuel enough => ?_⟩
  obtain ⟨same, text', stands', own', walked⟩ := walks fuel enough
  obtain rfl : oldest = same := Option.some.inj (stands.symm.trans stands')
  obtain rfl : text = text' := Except.ok.inj (own.symm.trans own')
  exact walked

/-- The elapsed time is the time since the oldest block, and the expected one that of the intervals
since then. -/
theorem PowChain.elapsed (chain : node.PowChain clock times root prev earlier difficulty)
    (now : T) (totalCount : Int) :
    ∃ oldest, (prev :: earlier)[walkLength totalCount 1 earlier.length]? = some oldest ∧
      node.elapsedBy clock prev prev.fields now totalCount =
        .ok (clock.elapsed now (times oldest),
          (1 + walkLength totalCount 1 earlier.length) * node.validator.expectedBlockInterval) := by
  obtain ⟨oldest, text, first, stands, read, found, walked⟩ := chain.walk totalCount
  refine ⟨oldest, stands, ?_⟩
  simp only [elapsedBy, bind, Except.bind, found, walked _ (Nat.lt_succ_self _), read]
  rfl

/-- The adjusted difficulty of a chain is a shift by the time since the oldest block of the window,
or the same difficulty when the height is divisible by neither count. -/
theorem PowChain.adjusted (chain : node.PowChain clock times root prev earlier difficulty) (now : T)
    (adjusting : 0 < node.validator.difficultyAdjustmentBlockCount)
    (tuning : 0 < node.validator.difficultyTuningBlockCount) :
    ∃ oldest, (prev :: earlier)[node.window prev earlier]? = some oldest ∧
      node.adjustedBy clock prev prev.fields now =
        let taken := clock.elapsed now (times oldest)
        let expected := node.windowTime prev earlier
        if prev.Due node.validator.difficultyTuningBlockCount then
          .ok (shift (clock.below taken expected) (clock.above taken expected) difficulty)
        else if prev.Due node.validator.difficultyAdjustmentBlockCount then
          (clock.belowHalf taken expected).map fun low =>
            shift low (clock.above taken (expected * 2)) difficulty
        else .ok difficulty := by
  obtain ⟨oldest, stands, elapsed⟩ := chain.elapsed now (node.period prev)
  refine ⟨oldest, stands, ?_⟩
  obtain ⟨text, found, read⟩ := bind_ok.mp chain.difficult
  obtain ⟨tuned, tunes, tunedDue⟩ := modulo_ok prev tuning
  obtain ⟨counted, counts, countedDue⟩ := modulo_ok prev adjusting
  simp only [adjustedBy, bind, Except.bind, found, read, tunes, counts]
  by_cases long : prev.Due node.validator.difficultyTuningBlockCount
  · rw [period, if_pos long] at elapsed
    rw [if_pos (tunedDue.mpr long), if_pos long, elapsed]
    simp only [windowTime, window, period, if_pos long, shift]
    split_ifs <;> rfl
  · rw [period, if_neg long] at elapsed
    rw [if_neg fun zero => long (tunedDue.mp zero), if_neg long]
    by_cases short : prev.Due node.validator.difficultyAdjustmentBlockCount
    · rw [if_pos (countedDue.mpr short), if_pos short, elapsed]
      simp only [windowTime, window, period, if_neg long, shift]
      cases clock.belowHalf (clock.elapsed now (times oldest))
        ((1 + walkLength node.validator.difficultyAdjustmentBlockCount 1 earlier.length) *
          node.validator.expectedBlockInterval) with
      | error fault => rfl
      | ok low =>
        simp only [Except.map]
        split_ifs <;> rfl
    · rw [if_neg fun zero => short (countedDue.mp zero), if_neg short]
      rfl

end Windows

/-- The times of a predecessor and the earlier blocks are one interval apart up to now. -/
def Even {K : Type} [Field K] (node : Node) (times : Block → K) (prev : Block)
    (earlier : List Block) (now : K) : Prop :=
  ∀ (place : Nat) (block : Block), (prev :: earlier)[place]? = some block →
    times block = now - (place + 1) * node.validator.expectedBlockInterval

/-- How an expected difficulty follows a time that a window took. -/
structure Follows {K : Type} [Field K] [LinearOrder K] (node : Node) (prev : Block)
    (earlier : List Block) (difficulty : Int) (taken : K) (expected : Int) : Prop where
  /-- It changes by one at most. -/
  near : |expected - difficulty| ≤ 1
  /-- It changes at heights that one of the counts divides. -/
  due : expected ≠ difficulty → prev.Due node.validator.difficultyTuningBlockCount ∨
    prev.Due node.validator.difficultyAdjustmentBlockCount
  /-- It is raised when the window took too little time. -/
  raised : difficulty < expected → taken <
    if prev.Due node.validator.difficultyTuningBlockCount then (node.windowTime prev earlier : K)
    else node.windowTime prev earlier / 2
  /-- It is lowered when the window took too much time. -/
  lowered : expected < difficulty →
    (if prev.Due node.validator.difficultyTuningBlockCount then (node.windowTime prev earlier : K)
    else node.windowTime prev earlier * 2) < taken

/-- A window of blocks one interval apart took the expected time. -/
theorem window_even {K : Type} [Field K] {node : Node} {times : Block → K} {prev : Block}
    {earlier : List Block} {now : K} {oldest : Block}
    (stands : (prev :: earlier)[node.window prev earlier]? = some oldest)
    (even : node.Even times prev earlier now) :
    now - times oldest = node.windowTime prev earlier := by
  rw [even _ _ stands, windowTime, sub_sub_cancel]
  push_cast
  ring

section Exact

variable {K : Type} [Field K] [LinearOrder K] [IsStrictOrderedRing K] {node : Node}
  {read : Text → Py K} {times : Block → K} {root prev : Block} {earlier : List Block}
  {difficulty : Int}

/-- The expected time of a window is positive. -/
theorem windowTime_pos (interval : 0 < node.validator.expectedBlockInterval) :
    0 < node.windowTime prev earlier :=
  mul_pos (by omega) interval

/-- For every chain with times in an ordered field and positive settings the walk back ends by
itself, and the adjusted difficulty follows the time of the window, from its oldest block to now. A
chain whose times are one interval apart keeps its difficulty. -/
theorem adjustedBy_exact (now : K) (interval : 0 < node.validator.expectedBlockInterval)
    (adjusting : 0 < node.validator.difficultyAdjustmentBlockCount)
    (tuning : 0 < node.validator.difficultyTuningBlockCount)
    (chain : node.PowChain (Clock.exact read) times root prev earlier difficulty) :
    (∀ totalCount, ∃ first walked, field prev.fields idxTime = .ok first ∧
      ∀ fuel, totalCount.toNat < fuel → node.walkBack totalCount fuel prev first 1 = .ok walked) ∧
    ∃ oldest expected, (prev :: earlier)[node.window prev earlier]? = some oldest ∧
      node.adjustedBy (Clock.exact read) prev prev.fields now = .ok expected ∧
      node.Follows prev earlier difficulty (now - times oldest) expected ∧
      (node.Even times prev earlier now → expected = difficulty) := by
  refine ⟨fun totalCount => ?_, ?_⟩
  · obtain ⟨_, _, first, _, _, found, walked⟩ := chain.walk totalCount
    exact ⟨first, _, found, walked⟩
  obtain ⟨oldest, stands, adjusted⟩ := chain.adjusted now adjusting tuning
  have positive : (0 : K) < node.windowTime prev earlier :=
    Int.cast_pos.mpr (windowTime_pos interval)
  have evenly (even : node.Even times prev earlier now) := window_even stands even
  simp only [Clock.exact] at adjusted
  by_cases long : prev.Due node.validator.difficultyTuningBlockCount
  · rw [if_pos long] at adjusted
    refine ⟨oldest, _, stands, adjusted, ⟨shift_near _ _ _, fun _ => .inl long, ?_, ?_⟩, ?_⟩
    · intro raised
      rw [if_pos long]
      exact of_decide_eq_true (shift_raises raised)
    · intro lowered
      rw [if_pos long]
      exact of_decide_eq_true (shift_lowers lowered)
    · intro even
      rw [evenly even, decide_eq_false (lt_irrefl _)]
      rfl
  · rw [if_neg long] at adjusted
    by_cases short : prev.Due node.validator.difficultyAdjustmentBlockCount
    · rw [if_pos short] at adjusted
      refine ⟨oldest, _, stands, adjusted, ⟨shift_near _ _ _, fun _ => .inr short, ?_, ?_⟩, ?_⟩
      · intro raised
        rw [if_neg long]
        exact of_decide_eq_true (shift_raises raised)
      · intro lowered
        rw [if_neg long]
        have above := of_decide_eq_true (shift_lowers lowered)
        push_cast at above
        exact above
      · intro even
        have low : ¬ (node.windowTime prev earlier : K) < node.windowTime prev earlier / 2 := by
          linarith
        have high : ¬ ((node.windowTime prev earlier * 2 : Int) : K) <
            node.windowTime prev earlier := by
          push_cast
          linarith
        rw [evenly even, decide_eq_false low, decide_eq_false high]
        rfl
    · rw [if_neg short] at adjusted
      refine ⟨oldest, _, stands, adjusted, ⟨?_, fun other => absurd rfl other, ?_, ?_⟩, ?_⟩
      · rw [sub_self, abs_zero]
        decide
      · exact fun raised => absurd raised (lt_irrefl _)
      · exact fun lowered => absurd lowered (lt_irrefl _)
      · exact fun _ => rfl

end Exact

/-- The machine adjusts by the rounded time since the oldest block of the window, against the exact
expected time, or its rounded half. -/
theorem getAdjustedDifficulty_follows {node : Node} {times : Block → Float} {root prev : Block}
    {earlier : List Block} {difficulty expected : Int} (now : Float)
    (adjusting : 0 < node.validator.difficultyAdjustmentBlockCount)
    (tuning : 0 < node.validator.difficultyTuningBlockCount)
    (chain : node.PowChain (Clock.binary64 node.runtime) times root prev earlier difficulty)
    (adjusted : node.getAdjustedDifficulty prev prev.fields now = .ok expected) :
    ∃ oldest, (prev :: earlier)[node.window prev earlier]? = some oldest ∧
      (difficulty < expected →
        if prev.Due node.validator.difficultyTuningBlockCount then
          Lib.Binary64.ltInt (now - times oldest) (node.windowTime prev earlier) = true
        else ∃ limit, half (node.windowTime prev earlier) = .ok limit ∧
          now - times oldest < limit) ∧
      (expected < difficulty →
        if prev.Due node.validator.difficultyTuningBlockCount then
          Lib.Binary64.intLt (node.windowTime prev earlier) (now - times oldest) = true
        else
          Lib.Binary64.intLt (node.windowTime prev earlier * 2) (now - times oldest) = true) := by
  obtain ⟨oldest, stands, adjustedBy⟩ := chain.adjusted now adjusting tuning
  rw [getAdjustedDifficulty_eq, adjustedBy] at adjusted
  refine ⟨oldest, stands, ?_⟩
  simp only [Clock.binary64] at adjusted
  by_cases long : prev.Due node.validator.difficultyTuningBlockCount
  · rw [if_pos long] at adjusted ⊢
    obtain rfl := Except.ok.inj adjusted
    rw [if_pos long]
    exact ⟨shift_raises, shift_lowers⟩
  · rw [if_neg long] at adjusted ⊢
    rw [if_neg long]
    by_cases short : prev.Due node.validator.difficultyAdjustmentBlockCount
    · rw [if_pos short] at adjusted
      cases limited : half (node.windowTime prev earlier) with
      | error fault =>
        rw [limited] at adjusted
        cases adjusted
      | ok limit =>
        rw [limited] at adjusted
        obtain rfl := Except.ok.inj adjusted
        exact ⟨fun raised => ⟨limit, rfl, of_decide_eq_true (shift_raises raised)⟩, shift_lowers⟩
    · rw [if_neg short] at adjusted
      obtain rfl := Except.ok.inj adjusted
      exact ⟨fun raised => absurd raised (lt_irrefl _), fun lowered => absurd lowered (lt_irrefl _)⟩

/-! ## A window of one block -/

/-- The samples under counts that every height is divisible by. -/
def everyNode : Node := { sampleNode with validator := ⟨60, 1, 1⟩ }

/-- The time of the first block, as a rational number. -/
def readThousand (text : Text) : Py ℚ :=
  if text = "1000.0".toList then .ok 1000 else .error .valueError

/-- A block made one interval after the first one keeps the difficulty. -/
theorem adjustedBy_exact_first :
    0 < everyNode.validator.expectedBlockInterval ∧
    0 < everyNode.validator.difficultyAdjustmentBlockCount ∧
    0 < everyNode.validator.difficultyTuningBlockCount ∧
    everyNode.PowChain (Clock.exact readThousand) (fun _ => 1000) genesisBlock firstBlock [] 3 ∧
    everyNode.adjustedBy (Clock.exact readThousand) firstBlock firstBlock.fields 1060 = .ok 3 := by
  have chain : everyNode.PowChain (Clock.exact readThousand) (fun _ => 1000) genesisBlock firstBlock
      [] 3 := {
    line := .cons (by decide) .nil
    start := by decide
    mined := List.forall_mem_singleton.mpr (by decide)
    timed := List.forall_mem_singleton.mpr ⟨"1000.0".toList, by decide, rfl⟩
    difficult := by decide }
  have ⟨_, oldest, expected, _, adjusted, _, even⟩ := adjustedBy_exact (1060 : ℚ)
    (by decide : 0 < everyNode.validator.expectedBlockInterval)
    (by decide : 0 < everyNode.validator.difficultyAdjustmentBlockCount)
    (by decide : 0 < everyNode.validator.difficultyTuningBlockCount) chain
  have same : expected = 3 := by
    refine even fun place block listed => ?_
    obtain rfl : place = 0 := by
      have within := (List.getElem?_eq_some_iff.mp listed).1
      exact Nat.lt_one_iff.mp within
    have sixty : everyNode.validator.expectedBlockInterval = 60 := rfl
    rw [sixty]
    norm_num
  exact ⟨by decide, by decide, by decide, chain, by rw [adjusted, same]⟩

end Node

end Creditcoin.PoW
