import Creditcoin.Lib.Lineage
import Creditcoin.PoW.Verification

/-!
# The fork resolver

`compare_forks` brings two heads to one claimed height, walks both down in lock step until they
meet, validates the difficulties of the new fork down to the meeting point, and compares the sums
of the powers of two, then the average block times. The loops follow predecessors in the block
cache, so they are bounded by its depth.

A loop that returns has walked a branch down to a common ancestor, and on a branch each loop does
its fold.
-/

namespace Creditcoin.PoW

namespace BlockCache
variable (cache : BlockCache)

/-- The predecessors in the cache. -/
def forest : Lib.Forest Block where
  parent block := cache.find block.previousBlockId
  depth block :=
    match cache.find block.previousBlockId with
    | some _ => cache.depth block.previousBlockId + 1
    | none => 0
  older := by
    intro block prev found
    rw [found]
    cases before : cache.find prev.previousBlockId with
    | none => exact Nat.succ_pos _
    | some _ => exact Nat.succ_lt_succ (cache.older found before)

/-- A block that the cache holds. -/
def Holds (block : Block) : Prop := cache.find block.headerSignature = some block

instance (block : Block) : Decidable (cache.Holds block) :=
  inferInstanceAs (Decidable (_ = _))

variable {cache}

/-- The blocks that the cache finds it holds. -/
theorem holds_of_find {id : Text} {block : Block} (found : cache.find id = some block) :
    cache.Holds block := by
  rw [Holds, cache.keyed found]
  exact found

/-- Two blocks of one signature that the cache holds are one block. -/
theorem Holds.eq {block other : Block} (held : cache.Holds block) (held' : cache.Holds other)
    (same : block.headerSignature = other.headerSignature) : block = other := by
  rw [Holds, same] at held
  exact Option.some_inj.mp (held.symm.trans held')

end BlockCache

/-- `BlockValidationAborted`. -/
def aborted {α : Type} (reason : String) : Py α := .error (.blockValidationAborted reason.toList)

namespace Node
variable (node : Node)

/-- A predecessor whose absence aborts the comparison. -/
def predecessor (block : Block) (reason : String) : Py Block :=
  match node.cache.find block.previousBlockId with
  | some prev => .ok prev
  | none => aborted reason

/-- `_get_block_at_cur_tip`, for a difference that is not negative. -/
def walkToTip : Nat → Block → Py Block
  | 0, block => .ok block
  | forkSizeDiff + 1, block => do
    let prev ← node.predecessor block "Tip lookup failed in PoW consensus."
    if !isPow prev.fields then .error .nonPowFork
    else walkToTip forkSizeDiff prev

/-- `_get_block_at_cur_tip`. -/
def getBlockAtCurTip (forkSizeDiff : Int) (block : Block) : Py Block :=
  node.walkToTip forkSizeDiff.toNat block

/-- The loop of `_verify_difficulties`. The clock is read anew for each block. -/
def validateDown (clock : Block → Instant) (id : Text) : Nat → Block → Py Bool
  | 0, _ => .error .keyError
  | fuel + 1, block =>
    if block.headerSignature = id then .ok true
    else do
      let prevBlock ← node.predecessor block "difficulty verification failed in PoW consensus."
      if !(← node.validateDifficulty (clock block) prevBlock prevBlock.fields block.fields) then
        return false
      validateDown clock id fuel prevBlock

/-- `_verify_difficulties`. -/
def verifyDifficulties (clock : Block → Instant) (block : Block) (id : Text) : Py Bool :=
  node.validateDown clock id (node.cache.forest.depth block + 1) block

/-- The weight that a block adds to a fork. -/
def weigh (difficulty : Number) (block : Block) : Py Number := do
  difficulty.add (← twoPow (← node.difficulty block.toBlockHeader))

/-- The loop of `_process_fork`. -/
def sumDown (id : Text) : Nat → Block → Number → Py Number
  | 0, _, _ => .error .keyError
  | fuel + 1, block, difficulty =>
    if block.headerSignature = id then .ok difficulty
    else do
      let difficulty ← node.weigh difficulty block
      let prev ← node.predecessor block "process fork failed in PoW consensus."
      sumDown id fuel prev difficulty

/-- `_process_fork`. -/
def processFork (block : Block) (id : Text) : Py Number :=
  node.sumDown id (node.cache.forest.depth block + 1) block (.int 0)

/-- The loop of `compare_forks` that builds the common chain. It returns the block where the walks
meet and the consensus fields that were read last on the new fork. -/
def walkTogether : Nat → Block → Block → List Text → Py (Block × List Text)
  | 0, _, _, _ => .error .keyError
  | fuel + 1, newBlock, curBlock, newConsensus =>
    if newBlock.headerSignature = curBlock.headerSignature then .ok (newBlock, newConsensus)
    else do
      let newBlock ← node.predecessor newBlock "Building common chain failed."
      let curBlock ← node.cache.get curBlock.previousBlockId
      if !isPow newBlock.fields || !isPow curBlock.fields then aborted "Unhandled behaviour."
      else walkTogether fuel newBlock curBlock newBlock.fields

/-- What `compare_forks` knows of the two forks. -/
structure Weights where
  newForkLen : Int
  curForkLen : Int
  newDifficulty : Number
  curDifficulty : Number
  commonAncestorTime : Float

/-- The guarded part of `compare_forks`; nothing when the new fork fails the difficulties. -/
def weighForks (clock : Block → Instant) (curForkHead newForkHead : Block) :
    Py (Option Weights) := do
  let newNum : Int := newForkHead.blockNum.toNat
  let curNum : Int := curForkHead.blockNum.toNat
  let newBlock ← node.getBlockAtCurTip (newNum - curNum) newForkHead
  let curBlock ← node.getBlockAtCurTip (curNum - newNum) curForkHead
  let (ancestor, newConsensus) ← node.walkTogether (node.cache.forest.depth newBlock + 1)
    newBlock curBlock newForkHead.fields
  let commonAncestorHeight : Int := ancestor.blockNum.toNat
  let _ ← node.runtime.int (← field newConsensus idxDifficulty)
  let commonAncestorTime ← node.runtime.float (← field newConsensus idxTime)
  if !(← node.verifyDifficulties clock newForkHead ancestor.headerSignature) then return none
  let newDifficulty ← node.processFork newForkHead ancestor.headerSignature
  let curDifficulty ← node.processFork curForkHead ancestor.headerSignature
  return some
    { newForkLen := newNum - commonAncestorHeight
      curForkLen := curNum - commonAncestorHeight
      newDifficulty, curDifficulty, commonAncestorTime }

/-- The average block time of a fork. -/
def averageTime (headTime commonAncestorTime : Float) (forkLen : Int) : Float :=
  (headTime - commonAncestorTime) / Float.ofInt forkLen

/-- The choice of `compare_forks`. The average of a new fork without blocks is never assigned. -/
def chooseFork (newTime curTime : Float) (weights : Weights) : Py Bool :=
  let curAvTimeDev : Number :=
    if 0 < weights.curForkLen then
      .float (averageTime curTime weights.commonAncestorTime weights.curForkLen)
    else .int 0
  let newAvTimeDev : Option Number :=
    if 0 < weights.newForkLen then
      some (.float (averageTime newTime weights.commonAncestorTime weights.newForkLen))
    else none
  if weights.curDifficulty.lt weights.newDifficulty then .ok true
  else if weights.newDifficulty.lt weights.curDifficulty then .ok false
  else if weights.newDifficulty.eq weights.curDifficulty then
    match newAvTimeDev with
    | some newAvTimeDev => .ok (newAvTimeDev.lt curAvTimeDev)
    | none => .error .unboundLocalError
  else .ok false

/-- `compare_forks`. -/
def compareForks (now : Instant) (clock : Block → Instant) (curForkHead newForkHead : Block) :
    Py Bool := do
  let newConsensus := newForkHead.fields
  if !isPow newConsensus then
    .error (.nonPowHead (newForkHead.headerSignature.take 8) newForkHead.consensus)
  else
    let newTime ← node.runtime.float (← field newConsensus idxTime)
    if now.seconds + 30 < newTime then return false
    let curConsensus := curForkHead.fields
    if !isPow curConsensus then
      if newForkHead.previousBlockId = curForkHead.headerSignature then return true
      .error (.nonPowPredecessor (newForkHead.headerSignature.take 8)
        (curForkHead.headerSignature.take 8))
    else
      let curTime ← node.runtime.float (← field curConsensus idxTime)
      match node.weighForks clock curForkHead newForkHead with
      | .ok (some weights) => chooseFork newTime curTime weights
      | .ok none => return false
      | .error (.blockValidationAborted _) => return false
      | .error fault => .error fault

end Node

/-! ## The loops walk branches -/

/-- A block is a PoW block. -/
def IsPow (block : Block) : Prop := isPow block.fields = true

/-- Two heads meet at an ancestor: the branches down to it, of PoW blocks that do not occur on
both. -/
structure Meeting (node : Node) (curHead newHead ancestor : Block)
    (curBranch newBranch : List Block) : Prop where
  cur : node.cache.forest.Branch ancestor curHead curBranch
  new : node.cache.forest.Branch ancestor newHead newBranch
  apart : ∀ block ∈ newBranch, block ∉ curBranch
  held : node.cache.Holds ancestor
  pow : IsPow ancestor
  curPow : ∀ block ∈ curBranch, IsPow block
  newPow : ∀ block ∈ newBranch, IsPow block

section Loops
variable {node : Node} {block prev ancestor : Block} {branch : List Block}

/-- A predecessor is found in the cache. -/
theorem predecessor_ok {reason : String} (found : node.predecessor block reason = .ok prev) :
    node.cache.find block.previousBlockId = some prev := by
  unfold Node.predecessor at found
  split at found
  · rename_i same
    rw [same, Except.ok.inj found]
  · contradiction

/-- A predecessor in the cache is returned. -/
theorem predecessor_eq {reason : String}
    (found : node.cache.find block.previousBlockId = some prev) :
    node.predecessor block reason = .ok prev := by
  rw [Node.predecessor, found]

/-- The walk to the tip goes down a branch of PoW blocks. -/
theorem walkToTip_ok {difference : Nat} {head : Block} (pow : IsPow head)
    (held : node.cache.Holds head) (walked : node.walkToTip difference head = .ok block) :
    node.cache.Holds block ∧ IsPow block ∧ ∃ branch, node.cache.forest.Branch block head branch ∧
      branch.length = difference ∧ ∀ other ∈ branch, IsPow other := by
  induction difference generalizing head with
  | zero =>
    rw [Node.walkToTip, Except.ok.injEq] at walked
    subst walked
    exact ⟨held, pow, [], .nil, rfl, by simp⟩
  | succ difference ih =>
    have ⟨prev, found, walked⟩ := bind_ok.mp walked
    have found := predecessor_ok found
    split at walked
    · contradiction
    · rename_i powered
      have powered : IsPow prev := by simpa [IsPow] using powered
      have ⟨held', pow', branch, down, length, powers⟩ :=
        ih powered (BlockCache.holds_of_find found) walked
      refine ⟨held', pow', head :: branch, .cons found down, by rw [List.length_cons, length], ?_⟩
      exact List.forall_mem_cons.mpr ⟨pow, powers⟩

/-- A branch leads from a held block to held blocks. -/
theorem walked_held (down : node.cache.forest.Branch ancestor block branch)
    (held : node.cache.Holds block) : node.cache.Holds ancestor := by
  induction down with
  | nil => exact held
  | cons child below ih => exact ih (BlockCache.holds_of_find child)

/-- The predecessors on a branch to a PoW block are PoW blocks. -/
theorem pow_of_child (below : node.cache.forest.Branch ancestor block branch)
    (pow : IsPow ancestor) (powers : ∀ other ∈ branch, IsPow other) : IsPow block := by
  cases below with
  | nil => exact pow
  | cons child below => exact powers _ List.mem_cons_self

/-- The walk to the tip goes to the end of a branch of PoW blocks. -/
theorem walkToTip_eq {head : Block} (down : node.cache.forest.Branch block head branch)
    (pow : IsPow block) (powers : ∀ other ∈ branch, IsPow other) :
    node.walkToTip branch.length head = .ok block := by
  induction down with
  | nil => rfl
  | @cons head prev rest child below ih =>
    have lower : ∀ other ∈ rest, IsPow other := fun other listed =>
      powers other (List.mem_cons_of_mem _ listed)
    have powered : IsPow prev := pow_of_child below pow lower
    apply bind_ok.mpr
    refine ⟨prev, predecessor_eq child, ?_⟩
    rw [if_neg (by simpa [IsPow] using powered)]
    exact ih lower

/-- The walks in lock step go down two branches that differ at each distance. -/
theorem walkTogether_ok {fuel : Nat} {newBlock curBlock : Block} {consensus result : List Text}
    (newPow : IsPow newBlock) (curPow : IsPow curBlock) (newHeld : node.cache.Holds newBlock)
    (curHeld : node.cache.Holds curBlock)
    (walked : node.walkTogether fuel newBlock curBlock consensus = .ok (ancestor, result)) :
    node.cache.Holds ancestor ∧ IsPow ancestor ∧ ∃ newBranch curBranch,
      node.cache.forest.Branch ancestor newBlock newBranch ∧
      node.cache.forest.Branch ancestor curBlock curBranch ∧
      newBranch.length = curBranch.length ∧
      (∀ pair ∈ newBranch.zip curBranch, pair.1 ≠ pair.2) ∧
      (∀ other ∈ newBranch, IsPow other) ∧ (∀ other ∈ curBranch, IsPow other) ∧
      (newBranch ≠ [] → result = ancestor.fields) := by
  induction fuel generalizing newBlock curBlock consensus with
  | zero => contradiction
  | succ fuel ih =>
    unfold Node.walkTogether at walked
    split at walked
    · rename_i same
      have met : newBlock = curBlock := newHeld.eq curHeld same
      obtain ⟨rfl, rfl⟩ := Prod.mk.inj (Except.ok.inj walked)
      subst met
      exact ⟨newHeld, newPow, [], [], .nil, .nil, rfl, by simp, by simp, by simp, by simp⟩
    · rename_i differ
      have ⟨newPrev, newFound, walked⟩ := bind_ok.mp walked
      have ⟨curPrev, curFound, walked⟩ := bind_ok.mp walked
      have newFound := predecessor_ok newFound
      have curFound : node.cache.find curBlock.previousBlockId = some curPrev := by
        unfold BlockCache.get at curFound
        split at curFound
        · rename_i same
          rw [same, Except.ok.inj curFound]
        · contradiction
      split at walked
      · contradiction
      · rename_i powered
        rw [Bool.or_eq_true, not_or, Bool.not_eq_true', Bool.not_eq_false, Bool.not_eq_true',
          Bool.not_eq_false] at powered
        have ⟨held, pow, newBranch, curBranch, newDown, curDown, even, apart, newPows, curPows,
            last⟩ := ih powered.1 powered.2 (BlockCache.holds_of_find newFound)
          (BlockCache.holds_of_find curFound) walked
        refine ⟨held, pow, newBlock :: newBranch, curBlock :: curBranch, .cons newFound newDown,
          .cons curFound curDown, by simp [even], ?_, List.forall_mem_cons.mpr ⟨newPow, newPows⟩,
          List.forall_mem_cons.mpr ⟨curPow, curPows⟩, ?_⟩
        · rw [List.zip_cons_cons]
          refine List.forall_mem_cons.mpr ⟨?_, apart⟩
          intro same
          exact differ (congrArg Block.headerSignature same)
        · intro _
          cases newBranch with
          | nil =>
            cases newDown
            cases fuel with
            | zero => contradiction
            | succ fuel =>
              unfold Node.walkTogether at walked
              have met : ancestor = curPrev := by
                cases curBranch with
                | nil =>
                  cases curDown
                  rfl
                | cons _ _ => simp at even
              rw [if_pos (congrArg Block.headerSignature met)] at walked
              exact (Prod.mk.inj (Except.ok.inj walked)).2.symm
          | cons _ _ => exact last (by simp)

/-- The walks in lock step go to the end of two branches of one length that differ at each
distance. -/
theorem walkTogether_eq {fuel : Nat} {newBlock curBlock : Block} {newBranch curBranch : List Block}
    (consensus : List Text)
    (newDown : node.cache.forest.Branch ancestor newBlock newBranch)
    (curDown : node.cache.forest.Branch ancestor curBlock curBranch)
    (even : newBranch.length = curBranch.length) (enough : newBranch.length < fuel)
    (newHeld : node.cache.Holds newBlock) (curHeld : node.cache.Holds curBlock)
    (apart : ∀ block ∈ newBranch, block ∉ curBranch) (pow : IsPow ancestor)
    (newPow : ∀ block ∈ newBranch, IsPow block) (curPow : ∀ block ∈ curBranch, IsPow block) :
    node.walkTogether fuel newBlock curBlock consensus =
      .ok (ancestor, if newBranch = [] then consensus else ancestor.fields) := by
  induction newDown generalizing curBlock curBranch fuel consensus with
  | nil =>
    have empty : curBranch = [] := List.eq_nil_of_length_eq_zero even.symm
    subst empty
    cases curDown
    cases fuel with
    | zero => omega
    | succ fuel => rw [Node.walkTogether, if_pos rfl, if_pos rfl]
  | @cons newBlock newPrev newRest newChild newBelow ih =>
    cases curDown with
    | nil => contradiction
    | @cons _ curPrev curRest curChild curBelow =>
      cases fuel with
      | zero => omega
      | succ fuel =>
        have differ : newBlock.headerSignature ≠ curBlock.headerSignature := by
          intro same
          have met := newHeld.eq curHeld same
          exact apart newBlock List.mem_cons_self (met ▸ List.mem_cons_self)
        have newTail : ∀ block ∈ newRest, IsPow block := fun block listed =>
          newPow block (List.mem_cons_of_mem _ listed)
        have curTail : ∀ block ∈ curRest, IsPow block := fun block listed =>
          curPow block (List.mem_cons_of_mem _ listed)
        have newPrevPow : IsPow newPrev := pow_of_child newBelow pow newTail
        have curPrevPow : IsPow curPrev := pow_of_child curBelow pow curTail
        have tailApart : ∀ block ∈ newRest, block ∉ curRest := fun block listed listed' =>
          apart block (List.mem_cons_of_mem _ listed) (List.mem_cons_of_mem _ listed')
        rw [List.length_cons] at even enough
        rw [Node.walkTogether, if_neg differ]
        apply bind_ok.mpr
        refine ⟨newPrev, predecessor_eq newChild, ?_⟩
        apply bind_ok.mpr
        refine ⟨curPrev, by rw [BlockCache.get, show node.cache.find _ = _ from curChild], ?_⟩
        rw [if_neg (by rw [newPrevPow, curPrevPow]; decide)]
        rw [ih _ curBelow (by simpa using even) (by omega) (BlockCache.holds_of_find newChild)
          (BlockCache.holds_of_find curChild) tailApart newTail curTail,
          if_neg (List.cons_ne_nil _ _)]
        cases newBelow with
        | nil => rw [if_pos rfl]
        | cons child' below' => rw [if_neg (List.cons_ne_nil _ _)]

/-- A loop bounded by the depth reaches the end of every branch. -/
theorem length_le_depth (down : node.cache.forest.Branch ancestor block branch) :
    branch.length < node.cache.forest.depth block + 1 := by
  have deep := down.depth_le
  omega

/-- The signatures on a branch are not the ancestor's. -/
theorem signature_ne (down : node.cache.forest.Branch ancestor block branch)
    (held : node.cache.Holds block) (held' : node.cache.Holds ancestor) (above : branch ≠ []) :
    block.headerSignature ≠ ancestor.headerSignature :=
  fun same => above (down.nil_iff.mpr (held.eq held' same))

/-- The sum of a fork is the sum along its branch. -/
theorem sumDown_eq {fuel : Nat} {difficulty : Number}
    (down : node.cache.forest.Branch ancestor block branch) (held : node.cache.Holds block)
    (held' : node.cache.Holds ancestor) (enough : branch.length < fuel) :
    node.sumDown ancestor.headerSignature fuel block difficulty =
      branch.foldlM node.weigh difficulty := by
  induction down generalizing fuel difficulty with
  | nil =>
    cases fuel with
    | zero => omega
    | succ fuel =>
      rw [Node.sumDown, if_pos rfl]
      rfl
  | @cons block prev rest child below ih =>
    cases fuel with
    | zero => omega
    | succ fuel =>
      rw [List.length_cons] at enough
      have above := signature_ne (.cons child below) held held' (by simp)
      rw [Node.sumDown, if_neg above, List.foldlM_cons]
      congr 1
      funext added
      rw [predecessor_eq child]
      exact ih (BlockCache.holds_of_find child) (by omega)

/-- `_process_fork` sums along the branch to the ancestor. -/
theorem processFork_eq (down : node.cache.forest.Branch ancestor block branch)
    (held : node.cache.Holds block) (held' : node.cache.Holds ancestor) :
    node.processFork block ancestor.headerSignature = branch.foldlM node.weigh (.int 0) :=
  sumDown_eq down held held' (length_le_depth down)

/-- The difficulties along a branch are validated, each against a PoW predecessor. -/
def ValidDown (node : Node) (clock : Block → Instant) (branch : List Block) : Prop :=
  ∀ block ∈ branch, ∀ prev, node.cache.find block.previousBlockId = some prev → IsPow prev →
    node.validateDifficulty (clock block) prev prev.fields block.fields = .ok true

/-- `_verify_difficulties` accepts a branch of validated difficulties. -/
theorem verifyDifficulties_eq {clock : Block → Instant}
    (down : node.cache.forest.Branch ancestor block branch) (held : node.cache.Holds block)
    (held' : node.cache.Holds ancestor) (pow : IsPow ancestor)
    (powers : ∀ other ∈ branch, IsPow other) (valid : ValidDown node clock branch) :
    node.verifyDifficulties clock block ancestor.headerSignature = .ok true := by
  suffices accepted : ∀ fuel, branch.length < fuel →
      node.validateDown clock ancestor.headerSignature fuel block = .ok true from
    accepted _ (length_le_depth down)
  induction down with
  | nil =>
    intro fuel enough
    cases fuel with
    | zero => omega
    | succ fuel => rw [Node.validateDown, if_pos rfl]
  | @cons block prev rest child below ih =>
    intro fuel enough
    cases fuel with
    | zero => omega
    | succ fuel =>
      rw [List.length_cons] at enough
      have above := signature_ne (.cons child below) held held' (by simp)
      have lower : ValidDown node clock rest := fun other listed =>
        valid other (List.mem_cons_of_mem _ listed)
      rw [List.forall_mem_cons] at powers
      have prevPow := pow_of_child below pow powers.2
      rw [Node.validateDown, if_neg above]
      apply bind_ok.mpr
      refine ⟨prev, predecessor_eq child, ?_⟩
      apply bind_ok.mpr
      refine ⟨true, valid block List.mem_cons_self prev child prevPow, ?_⟩
      exact ih (BlockCache.holds_of_find child) powers.2 lower fuel (by omega)

end Loops

end Creditcoin.PoW
