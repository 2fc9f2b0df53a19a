import Creditcoin.PoW.Heads

/-!
# Cycles of replacements

The average block time of a comparison is taken since the common ancestor of the two heads, so it
belongs to the pair. Along a cycle of replacements no head gains work, each step is a tie in which
the average since the ancestor of its pair falls, and not all pairs can share their ancestor. Three
heads with two different ancestors do replace each other around.
-/

namespace Creditcoin.PoW

section Cycles
variable {node : Node}

/-- Along replacements the total does not fall. -/
theorem total_le_of_wins {heads : Nat → HeldBlock node} {nows : Nat → Instant}
    {clocks : Nat → Block → Instant} {count : Nat} (pow : ∀ i, IsPow (heads i).block)
    (weighable : ∀ i < count, Weighable node (heads i).block (heads (i + 1)).block)
    (wins : ∀ i < count,
      node.compareForks (nows i) (clocks i) (heads i).block (heads (i + 1)).block = .ok true) :
    ∀ i j, i ≤ j → j ≤ count → node.total (heads i).block ≤ node.total (heads j).block := by
  intro i j ordered within
  induction j with
  | zero =>
    rw [Nat.le_zero.mp ordered]
  | succ j ih =>
    rcases Nat.eq_or_lt_of_le ordered with same | earlier
    · rw [same]
    · have before := ih (by omega) (by omega)
      have ⟨_, _, _, met, outcome⟩ := compareForks_work (pow j) (heads j).held (heads (j + 1)).held
        (weighable j (by omega)) (wins j (by omega))
      have step : node.total (heads j).block ≤ node.total (heads (j + 1)).block := by
        rw [total_eq met.cur, total_eq met.new]
        rcases outcome with more | ⟨same, _⟩
        · linarith
        · rw [same]
      exact before.trans step

/-- The average block time of a head since an ancestor, by the claimed numbers. -/
def AverageSince (node : Node) (ancestor head : Block) (average : Float) : Prop :=
  ∃ time ancestorTime, node.time head.toBlockHeader = .ok time ∧
    node.time ancestor.toBlockHeader = .ok ancestorTime ∧
    average = Node.averageTime time ancestorTime (head.blockNum.toNat - ancestor.blockNum.toNat)

/-- A head has one average since an ancestor. -/
theorem AverageSince.unique {ancestor head : Block} {average average' : Float}
    (since : AverageSince node ancestor head average)
    (since' : AverageSince node ancestor head average') : average = average' := by
  have ⟨time, ancestorTime, read, readAncestor, is⟩ := since
  have ⟨time', ancestorTime', read', readAncestor', is'⟩ := since'
  rw [read, Except.ok.injEq] at read'
  rw [readAncestor, Except.ok.injEq] at readAncestor'
  rw [is, is', read', readAncestor']

/-- A replacement at equal work falls below the average since the nearest common ancestor, once
the head has blocks above it. -/
theorem average_of_tie {now : Instant} {clock : Block → Instant} {cur new : HeldBlock node}
    {ancestor : Block} (pow : IsPow cur.block)
    (weighable : Weighable node cur.block new.block)
    (wins : node.compareForks now clock cur.block new.block = .ok true)
    (tie : node.total cur.block = node.total new.block)
    (nearest : node.cache.forest.Nearest ancestor cur.block new.block) :
    (0 : Int) < new.block.blockNum.toNat - ancestor.blockNum.toNat ∧
      ∃ curAverage newAverage, AverageSince node ancestor cur.block curAverage ∧
        AverageSince node ancestor new.block newAverage ∧
        ((0 : Int) < cur.block.blockNum.toNat - ancestor.blockNum.toNat →
          newAverage < curAverage) := by
  have ⟨meeting, curBranch, newBranch, met, outcome⟩ :=
    compareForks_work pow cur.held new.held weighable wins
  have same : meeting = ancestor := by
    have found : node.cache.forest.Nearest meeting new.block cur.block :=
      ⟨newBranch, curBranch, met.new, met.cur, met.apart⟩
    exact found.unique nearest.symm
  subst same
  rw [total_eq met.cur, total_eq met.new] at tie
  have ⟨_, _, _, newTime, curTime, ancestorTime, newRead, curRead, read, long, faster⟩ :=
    outcome.resolve_left fun more => absurd (add_right_cancel tie) (ne_of_lt more)
  exact ⟨long, _, _, ⟨curTime, ancestorTime, curRead, read, rfl⟩,
    ⟨newTime, ancestorTime, newRead, read, rfl⟩, faster⟩

/-- Heads that replace each other around do not share one nearest common ancestor. -/
theorem no_shared_ancestor {heads : Nat → HeldBlock node} {nows : Nat → Instant}
    {clocks : Nat → Block → Instant} {count : Nat} (pow : ∀ i, IsPow (heads i).block)
    (positive : 0 < count) (closed : heads count = heads 0)
    (weighable : ∀ i < count, Weighable node (heads i).block (heads (i + 1)).block)
    (wins : ∀ i < count,
      node.compareForks (nows i) (clocks i) (heads i).block (heads (i + 1)).block = .ok true)
    (level : ∀ i ≤ count, node.total (heads i).block = node.total (heads 0).block) :
    ¬ ∃ ancestor, ∀ i < count,
      node.cache.forest.Nearest ancestor (heads i).block (heads (i + 1)).block := by
  intro ⟨ancestor, shared⟩
  have step (i : Nat) (within : i < count) := average_of_tie (pow i) (weighable i within)
    (wins i within) ((level i (by omega)).trans (level (i + 1) (by omega)).symm) (shared i within)
  have long (i : Nat) (within : i ≤ count) :
      (0 : Int) < (heads i).block.blockNum.toNat - ancestor.blockNum.toNat := by
    cases i with
    | zero =>
      have last := (step (count - 1) (by omega)).1
      rw [Nat.sub_add_cancel positive, closed] at last
      exact last
    | succ i => exact (step i (by omega)).1
  -- every later head is below the first one
  have below : ∀ k < count, ∃ first later, AverageSince node ancestor (heads 0).block first ∧
      AverageSince node ancestor (heads (k + 1)).block later ∧ later < first := by
    intro k within
    induction k with
    | zero =>
      have ⟨_, first, later, since, since', faster⟩ := step 0 within
      exact ⟨first, later, since, since', faster (long 0 (by omega))⟩
    | succ k ih =>
      have ⟨first, middle, since, since', faster⟩ := ih (by omega)
      have ⟨_, middle', later, again, since'', faster'⟩ := step (k + 1) within
      have smaller := faster' (long (k + 1) (by omega))
      rw [← since'.unique again] at smaller
      exact ⟨first, later, since, since'', Lib.Binary64.lt_trans smaller faster⟩
  have ⟨first, later, since, since', faster⟩ := below (count - 1) (by omega)
  rw [Nat.sub_add_cancel positive, closed] at since'
  rw [since.unique since'] at faster
  exact Lib.Binary64.lt_irrefl later faster

/-- Heads that replace each other around are more than two, have one total of work, and do not
share one nearest common ancestor. -/
theorem cycles_are_ties {heads : Nat → HeldBlock node} {nows : Nat → Instant}
    {clocks : Nat → Block → Instant} {count : Nat} (pow : ∀ i, IsPow (heads i).block)
    (positive : 0 < count) (closed : heads count = heads 0)
    (weighable : ∀ i < count, Weighable node (heads i).block (heads (i + 1)).block)
    (wins : ∀ i < count,
      node.compareForks (nows i) (clocks i) (heads i).block (heads (i + 1)).block = .ok true) :
    2 < count ∧ (∀ i ≤ count, node.total (heads i).block = node.total (heads 0).block) ∧
      ¬ ∃ ancestor, ∀ i < count,
        node.cache.forest.Nearest ancestor (heads i).block (heads (i + 1)).block := by
  have level : ∀ i ≤ count, node.total (heads i).block = node.total (heads 0).block := by
    intro i within
    have rises := total_le_of_wins pow weighable wins
    apply le_antisymm
    · have after := rises i count within (le_refl _)
      rwa [closed] at after
    · exact rises 0 i (Nat.zero_le i) within
  have unshared := no_shared_ancestor pow positive closed weighable wins level
  refine ⟨?_, level, unshared⟩
  by_contra few
  apply unshared
  have ⟨ancestor, curBranch, newBranch, met, _⟩ := compareForks_work (pow 0) (heads 0).held
    (heads 1).held (weighable 0 positive) (wins 0 positive)
  have nearest : node.cache.forest.Nearest ancestor (heads 0).block (heads 1).block :=
    ⟨curBranch, newBranch, met.cur, met.new,
      fun block listed listed' => met.apart block listed' listed⟩
  refine ⟨ancestor, ?_⟩
  intro i within
  have cases : i = 0 ∨ i = 1 ∧ count = 2 := by omega
  rcases cases with rfl | ⟨rfl, rfl⟩
  · exact nearest
  · rw [closed]
    exact nearest.symm

end Cycles

/-- The three heads, around and around. -/
def roundHeads (i : Nat) : HeldBlock forkNode :=
  match i % 3 with
  | 0 => forkHead
  | 1 => ⟨longHead, longHead_held⟩
  | _ => ⟨sideHead, sideHead_held⟩

/-- Each of the three heads is replaced by the next. -/
theorem roundHeads_win : ∀ i < 3, forkNode.compareForks sampleClock (fun _ => sampleClock)
    (roundHeads i).block (roundHeads (i + 1)).block = .ok true := by
  decide +kernel

/-- The heads are PoW blocks. -/
theorem roundHeads_pow (i : Nat) : IsPow (roundHeads i).block := by
  unfold roundHeads
  split
  · change isPow shortHead.fields = true
    decide
  · change isPow longHead.fields = true
    decide
  · change isPow sideHead.fields = true
    decide

/-- The three heads have one total of work and different ancestors. -/
theorem cycles_are_ties_forks :
    (∀ i ≤ 3, forkNode.total (roundHeads i).block = forkNode.total (roundHeads 0).block) ∧
      ¬ ∃ ancestor, ∀ i < 3,
        forkNode.cache.forest.Nearest ancestor (roundHeads i).block (roundHeads (i + 1)).block := by
  have closed : roundHeads 3 = roundHeads 0 := rfl
  have ties := cycles_are_ties roundHeads_pow (by decide) closed
    (fun i _ => forkNode_nonNegative.weighable (roundHeads i) (roundHeads (i + 1))) roundHeads_win
  exact ties.2

/-- The PoW blocks on the line of a head are verified. -/
def VerifiedLine (node : Node) (head : Block) : Prop :=
  ∀ block ∈ node.cache.forest.line head, IsPow block →
    ∃ clock, node.verifyBlock clock block.toBlockHeader = .ok true

/-- Three verified heads of one work replace each other around. -/
theorem heads_cycle :
    ¬ ∀ (node : Node) (heads : Nat → HeldBlock node) (nows : Nat → Instant)
      (clocks : Nat → Block → Instant) (count : Nat), 2 ≤ count → heads count = heads 0 →
      (∀ i, IsPow (heads i).block ∧ VerifiedLine node (heads i).block ∧
        HonestNumbers node (heads i).block) →
      ¬ ∀ i < count,
        node.compareForks (nows i) (clocks i) (heads i).block (heads (i + 1)).block = .ok true := by
  intro claim
  refine claim forkNode roundHeads (fun _ => sampleClock) (fun _ _ => sampleClock) 3 (by decide) rfl
    ?_ roundHeads_win
  intro i
  refine ⟨roundHeads_pow i, ?_, ?_⟩
  · intro block listed pow
    have tested : ∀ block ∈ forkBlocks, isPow block.fields = true →
        forkNode.verifyBlock sampleClock block.toBlockHeader = .ok true := by
      decide +kernel
    have held := holds_of_mem_line (roundHeads i).held listed
    exact ⟨sampleClock, tested block (forkNode_find held) pow⟩
  · intro block listed prev found
    have tested : ∀ block ∈ forkBlocks, ∀ prev ∈ forkBlocks,
        forkNode.cache.find block.previousBlockId = some prev →
        block.blockNum.toNat = prev.blockNum.toNat + 1 := by
      decide
    have held := holds_of_mem_line (roundHeads i).held listed
    exact tested block (forkNode_find held) prev (forkNode_find found) found

end Creditcoin.PoW
