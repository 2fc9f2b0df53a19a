import Creditcoin.PoW.Heads

/-!
# A fork of more work

Two valid heads whose numbers are honest are brought to one height and walked down to their nearest
common ancestor, so both sums stop exactly there. When the ancestor is a PoW block the fork of more
work wins. When it is not, the walk aborts the comparison and the new fork is rejected.
-/

namespace Creditcoin.PoW

/-- Two valid heads on one tree: the blocks above their nearest common ancestor are verified and
have consecutive numbers, the new head's time is not ahead of the clock, the difficulties of the
new fork are validated, and its blocks sum up to more work. -/
structure Contest (node : Node) (now : Instant) (clock : Block → Instant)
    (cur new : HeldBlock node) (ancestor : Block) (curBranch newBranch : List Block) : Prop where
  curPow : IsPow cur.block
  newPow : IsPow new.block
  curDown : node.cache.forest.Branch ancestor cur.block curBranch
  newDown : node.cache.forest.Branch ancestor new.block newBranch
  apart : ∀ block ∈ newBranch, block ∉ curBranch
  held : node.cache.Holds ancestor
  verified : ∀ block ∈ curBranch ++ newBranch,
    ∃ clock, node.verifyBlock clock block.toBlockHeader = .ok true
  honest : ∀ block ∈ curBranch ++ newBranch, ∀ prev,
    node.cache.find block.previousBlockId = some prev →
    block.blockNum.toNat = prev.blockNum.toNat + 1
  soon : ∀ time, node.time new.block.toBlockHeader = .ok time → ¬ now.seconds + 30 < time
  valid : ValidDown node clock newBranch
  more : node.branchWork curBranch < node.branchWork newBranch

section Heavier
variable {node : Node} {head ancestor : Block} {branch : List Block}

/-- Consecutive numbers above an ancestor count the blocks above it. -/
theorem number_of_branch (down : node.cache.forest.Branch ancestor head branch)
    (honest : ∀ block ∈ branch, ∀ prev, node.cache.find block.previousBlockId = some prev →
      block.blockNum.toNat = prev.blockNum.toNat + 1) :
    head.blockNum.toNat = ancestor.blockNum.toNat + branch.length := by
  induction down with
  | nil => rfl
  | @cons head prev rest child below ih =>
    rw [List.forall_mem_cons] at honest
    have step := honest.1 prev child
    have rest := ih honest.2
    rw [List.length_cons]
    omega

/-- A verified block is a PoW block, and on a PoW block its difficulty and time are read. -/
theorem verified_read {block : Block}
    (verified : ∃ clock, node.verifyBlock clock block.toBlockHeader = .ok true) :
    IsPow block ∧ (∃ difficulty, node.difficulty block.toBlockHeader = .ok difficulty) ∧
      ∀ prev, node.cache.find block.previousBlockId = some prev → IsPow prev →
        ∃ time, node.time block.toBlockHeader = .ok time := by
  have ⟨_, verified⟩ := verified
  have ⟨prev, _, difficulty, pow, found, validates, _, read, _⟩ := Node.verifyBlock_ok verified
  refine ⟨pow, ⟨difficulty, read⟩, ?_⟩
  intro prev' found' prevPow
  have same : prev = prev' := Option.some_inj.mp (found.symm.trans found')
  subst same
  have ⟨time, _, _, readTime, _⟩ := Node.validateDifficulty_ok (validates prevPow)
  exact ⟨time, readTime⟩

/-- The head of a verified branch above a PoW block has a difficulty and a time. -/
theorem head_read (down : node.cache.forest.Branch ancestor head branch) (pow : IsPow ancestor)
    (read : ∃ difficulty time, node.difficulty ancestor.toBlockHeader = .ok difficulty ∧
      node.time ancestor.toBlockHeader = .ok time)
    (verified : ∀ block ∈ branch, ∃ clock, node.verifyBlock clock block.toBlockHeader = .ok true) :
    ∃ difficulty time, node.difficulty head.toBlockHeader = .ok difficulty ∧
      node.time head.toBlockHeader = .ok time := by
  cases down with
  | nil => exact read
  | @cons _ prev rest child below =>
    have powers : ∀ block ∈ rest, IsPow block := fun block listed =>
      (verified_read (verified block (List.mem_cons_of_mem _ listed))).1
    have ⟨_, ⟨difficulty, readDifficulty⟩, timed⟩ :=
      verified_read (verified head List.mem_cons_self)
    have ⟨time, readTime⟩ := timed prev child (pow_of_child below pow powers)
    exact ⟨difficulty, time, readDifficulty, readTime⟩

/-- The fork of more work wins when the nearest common ancestor is a PoW block with a time and no
difficulty above it is negative. -/
theorem heavier_wins {now : Instant} {clock : Block → Instant} {cur new : HeldBlock node}
    {curBranch newBranch : List Block}
    (contest : Contest node now clock cur new ancestor curBranch newBranch) (pow : IsPow ancestor)
    (read : ∃ difficulty time, node.difficulty ancestor.toBlockHeader = .ok difficulty ∧
      node.time ancestor.toBlockHeader = .ok time)
    (curNonNegative : NonNegativeBranch node curBranch)
    (newNonNegative : NonNegativeBranch node newBranch) :
    node.compareForks now clock cur.block new.block = .ok true := by
  have curVerified : ∀ block ∈ curBranch, ∃ clock,
      node.verifyBlock clock block.toBlockHeader = .ok true := fun block listed =>
    contest.verified block (List.mem_append_left _ listed)
  have newVerified : ∀ block ∈ newBranch, ∃ clock,
      node.verifyBlock clock block.toBlockHeader = .ok true := fun block listed =>
    contest.verified block (List.mem_append_right _ listed)
  have met : Meeting node cur.block new.block ancestor curBranch newBranch :=
    { cur := contest.curDown
      new := contest.newDown
      apart := contest.apart
      held := contest.held
      pow := pow
      curPow := fun block listed => (verified_read (curVerified block listed)).1
      newPow := fun block listed => (verified_read (newVerified block listed)).1 }
  have readable {branch : List Block} (nonNegative : NonNegativeBranch node branch)
      (verified : ∀ block ∈ branch, ∃ clock,
        node.verifyBlock clock block.toBlockHeader = .ok true) :
      ∀ block ∈ branch, ∃ difficulty,
        node.difficulty block.toBlockHeader = .ok difficulty ∧ 0 ≤ difficulty := by
    intro block listed
    have ⟨difficulty, read⟩ := (verified_read (verified block listed)).2.1
    exact ⟨difficulty, read, nonNegative block listed difficulty read⟩
  have ⟨curSum, curSummed, curWork⟩ :=
    foldlM_weigh met.curPow (readable curNonNegative curVerified) 0
  have ⟨newSum, newSummed, newWork⟩ :=
    foldlM_weigh met.newPow (readable newNonNegative newVerified) 0
  have curNumber := number_of_branch contest.curDown fun block listed =>
    contest.honest block (List.mem_append_left _ listed)
  have newNumber := number_of_branch contest.newDown fun block listed =>
    contest.honest block (List.mem_append_right _ listed)
  have ⟨_, curTime, _, curRead⟩ := head_read contest.curDown pow read curVerified
  have newReads := head_read contest.newDown pow read newVerified
  have ⟨_, newTime, _, newRead⟩ := newReads
  have ⟨weights, weighed, newIs, curIs⟩ := weighForks_eq met cur.held new.held curNumber newNumber
    newReads read contest.valid newSummed curSummed
  have more : curSum < newSum := by
    have heavier := contest.more
    have total : (curSum : Rat) < newSum := by
      rw [curWork, newWork]
      simpa using heavier
    exact_mod_cast total
  have chosen : Node.chooseFork newTime curTime weights = .ok true :=
    chooseFork_more newIs curIs more
  have newPowered : isPow new.block.fields = true := contest.newPow
  have curPowered : isPow cur.block.fields = true := contest.curPow
  have ⟨newField, newFound, newRead'⟩ := bind_ok.mp newRead
  have ⟨curField, curFound, curRead'⟩ := bind_ok.mp curRead
  unfold Node.compareForks
  dsimp only
  rw [if_neg (by rw [newPowered]; decide)]
  apply bind_ok.mpr
  refine ⟨newField, newFound, ?_⟩
  apply bind_ok.mpr
  refine ⟨newTime, newRead', ?_⟩
  rw [if_neg (contest.soon newTime newRead), if_neg (by rw [curPowered]; decide)]
  apply bind_ok.mpr
  refine ⟨curField, curFound, ?_⟩
  apply bind_ok.mpr
  refine ⟨curTime, curRead', ?_⟩
  rw [weighed]
  exact chosen

end Heavier

/-- Among the three forks, the branch of the long head and the one of the block beside it. -/
theorem forkContest : Contest forkNode sampleClock (fun _ => sampleClock)
    ⟨sideBlock, by decide⟩ ⟨longHead, longHead_held⟩ rootBlock [sideBlock]
    [longHead, longBlock, midBlock] where
  curPow := by change isPow sideBlock.fields = true; decide
  newPow := by change isPow longHead.fields = true; decide
  curDown := .cons (by decide) .nil
  newDown := .cons (by decide) (.cons (by decide) (.cons (by decide) .nil))
  apart := by decide
  held := by decide
  verified := by
    intro block listed
    refine ⟨sampleClock, ?_⟩
    revert listed
    revert block
    decide
  honest := by
    intro block listed prev found
    have tested : ∀ block ∈ [sideBlock] ++ [longHead, longBlock, midBlock], ∀ prev ∈ forkBlocks,
        forkNode.cache.find block.previousBlockId = some prev →
        block.blockNum.toNat = prev.blockNum.toNat + 1 := by
      decide
    exact tested block listed prev (forkNode_find found) found
  soon := by
    intro time read
    have claimed : forkNode.time longHead.toBlockHeader = .ok 1019 := by decide +kernel
    rw [claimed, Except.ok.injEq] at read
    subst read
    decide
  valid := by
    intro block listed prev found _
    have tested : ∀ block ∈ [longHead, longBlock, midBlock], ∀ prev ∈ forkBlocks,
        forkNode.cache.find block.previousBlockId = some prev →
        forkNode.validateDifficulty sampleClock prev prev.fields block.fields = .ok true := by
      decide
    exact tested block listed prev (forkNode_find found) found
  more := by decide +kernel

/-- Three blocks of difficulty zero replace one. -/
theorem heavier_wins_forks :
    forkNode.compareForks sampleClock (fun _ => sampleClock) sideBlock longHead = .ok true := by
  have low (branch : List Block) (held : ∀ block ∈ branch, forkNode.cache.Holds block) :
      NonNegativeBranch forkNode branch := fun block listed =>
    forkNode_nonNegative block (held block listed)
  apply heavier_wins forkContest
  · change isPow rootBlock.fields = true
    decide
  · exact ⟨0, 1000, by decide, by decide⟩
  · exact low _ (by decide)
  · exact low _ (by decide +kernel)

/-- Two blocks on the genesis block. -/
def partedBlocks : List Block := [firstBlock, rootBlock, genesisBlock]

/-- A node that holds them. -/
def partedNode : Node where
  runtime := plainRuntime
  cache := BlockCache.ofList partedBlocks (by decide +kernel)
  validator := .default

/-- A fork of more work that parts at the genesis block does not win. -/
theorem heavier_loses_at_genesis :
    ¬ ∀ (node : Node) (now : Instant) (clock : Block → Instant) (cur new : HeldBlock node)
      (ancestor : Block) (curBranch newBranch : List Block),
      Contest node now clock cur new ancestor curBranch newBranch →
      node.compareForks now clock cur.block new.block = .ok true := by
  intro claim
  have listed {id : Text} {block : Block} (found : partedNode.cache.find id = some block) :
      block ∈ partedBlocks := by
    have first : partedBlocks.find? (fun block => block.headerSignature == id) = some block := found
    exact List.mem_of_find?_eq_some first
  have contest : Contest partedNode sampleClock (fun _ => sampleClock)
      ⟨rootBlock, by decide +kernel⟩ ⟨firstBlock, by decide +kernel⟩ genesisBlock [rootBlock]
      [firstBlock] :=
    { curPow := by change isPow rootBlock.fields = true; decide
      newPow := by change isPow firstBlock.fields = true; decide
      curDown := .cons (by decide +kernel) .nil
      newDown := .cons (by decide +kernel) .nil
      apart := by decide
      held := by decide +kernel
      verified := by
        intro block member
        refine ⟨sampleClock, ?_⟩
        revert member
        revert block
        decide +kernel
      honest := by
        intro block member prev found
        have tested : ∀ block ∈ [rootBlock] ++ [firstBlock], ∀ prev ∈ partedBlocks,
            partedNode.cache.find block.previousBlockId = some prev →
            block.blockNum.toNat = prev.blockNum.toNat + 1 := by
          decide +kernel
        exact tested block member prev (listed found) found
      soon := by
        intro time read
        have claimed : partedNode.time firstBlock.toBlockHeader = .ok 1000 := by decide +kernel
        rw [claimed, Except.ok.injEq] at read
        subst read
        decide +kernel
      valid := by
        intro block member prev found pow
        have plain : ∀ block ∈ [firstBlock], ∀ prev ∈ partedBlocks,
            partedNode.cache.find block.previousBlockId = some prev →
              isPow prev.fields = false := by
          decide +kernel
        have notPow := plain block member prev (listed found) found
        rw [show isPow prev.fields = true from pow] at notPow
        contradiction
      more := by decide +kernel }
  have won := claim _ _ _ _ _ _ _ _ contest
  have lost : partedNode.compareForks sampleClock (fun _ => sampleClock) rootBlock firstBlock =
      .ok false := by
    decide +kernel
  rw [lost] at won
  exact absurd (Except.ok.inj won) (by decide)

end Creditcoin.PoW
