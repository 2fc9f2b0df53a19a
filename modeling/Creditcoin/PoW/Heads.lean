import Creditcoin.PoW.Weights

/-!
# The head of the chain

A node replaces its head by an offered block exactly when the comparison chooses it. Without
negative difficulties the total of the head never falls, and a replacement at equal work shortens
the average block time since the common ancestor. That average belongs to the pair of heads, not to
a head.
-/

namespace Creditcoin.PoW

/-- A block that a node holds. -/
structure HeldBlock (node : Node) where
  block : Block
  held : node.cache.Holds block

/-- A block offered as head, with the readings of the clock in its comparison. -/
structure Offer (node : Node) extends HeldBlock node where
  now : Instant
  clock : Block → Instant

/-- The numbers on the line of a head are consecutive. -/
def HonestNumbers (node : Node) (head : Block) : Prop :=
  ∀ block ∈ node.cache.forest.line head, ∀ prev,
    node.cache.find block.previousBlockId = some prev →
    block.blockNum.toNat = prev.blockNum.toNat + 1

/-- Every PoW block on the line of a head has a difficulty. -/
def HasTotal (node : Node) (head : Block) : Prop :=
  ∀ block ∈ node.cache.forest.line head, IsPow block →
    ∃ difficulty, node.difficulty block.toBlockHeader = .ok difficulty

/-- The new head has a smaller average block time since the nearest common ancestor. -/
def Faster (node : Node) (cur new : Block) : Prop :=
  ∃ ancestor curBranch newBranch curTime newTime ancestorTime,
    node.cache.forest.Branch ancestor cur curBranch ∧
    node.cache.forest.Branch ancestor new newBranch ∧ (∀ block ∈ newBranch, block ∉ curBranch) ∧
    node.time cur.toBlockHeader = .ok curTime ∧ node.time new.toBlockHeader = .ok newTime ∧
    node.time ancestor.toBlockHeader = .ok ancestorTime ∧
    Node.averageTime newTime ancestorTime newBranch.length <
      Node.averageTime curTime ancestorTime curBranch.length

section Replacement
variable {node : Node}

/-- The comparison chooses the offered block. -/
def Offer.Wins (offer : Offer node) (head : HeldBlock node) : Prop :=
  node.compareForks offer.now offer.clock head.block offer.block = .ok true

instance (offer : Offer node) (head : HeldBlock node) : Decidable (offer.Wins head) :=
  inferInstanceAs (Decidable (_ = _))

/-- The head after an offer. -/
def HeldBlock.adopt (head : HeldBlock node) (offer : Offer node) : HeldBlock node :=
  if offer.Wins head then offer.toHeldBlock else head

/-- The head after a sequence of offers. -/
def HeldBlock.after (head : HeldBlock node) (offers : List (Offer node)) : HeldBlock node :=
  offers.foldl adopt head

/-- The offer is compared without negative difficulties, or switches to proof of work. -/
def Offer.Sound (offer : Offer node) (head : HeldBlock node) : Prop :=
  offer.Wins head → IsPow head.block → Weighable node head.block offer.block

/-- Consecutive numbers count the blocks of a branch. -/
theorem HonestNumbers.length {head ancestor : Block} {branch : List Block}
    (honest : HonestNumbers node head) (down : node.cache.forest.Branch ancestor head branch) :
    head.blockNum.toNat = ancestor.blockNum.toNat + branch.length := by
  induction down with
  | nil => rfl
  | @cons head prev rest child below ih =>
    unfold HonestNumbers at honest
    rw [Lib.Forest.line_of_parent child, List.forall_mem_cons] at honest
    have step := honest.1 prev child
    have rest := ih honest.2
    rw [List.length_cons]
    omega

/-- A switch to proof of work adds a block to the head. -/
theorem total_switch {cur new : Block} (held : node.cache.Holds cur)
    (direct : new.previousBlockId = cur.headerSignature) :
    node.total new = node.work new + node.total cur := by
  have child : node.cache.forest.parent new = some cur := by
    change node.cache.find new.previousBlockId = some cur
    rw [direct]
    exact held
  rw [total_eq (.cons child .nil), Node.branchWork, List.map_singleton, List.sum_singleton]

/-- A replacement keeps the work, and at equal work it is faster. -/
theorem wins_total {head : HeldBlock node} {offer : Offer node} (sound : offer.Sound head)
    (wins : offer.Wins head) :
    node.total head.block ≤ node.total offer.block ∧
      (HonestNumbers node head.block → HonestNumbers node offer.block →
        HasTotal node offer.block → node.total head.block = node.total offer.block →
        Faster node head.block offer.block) := by
  by_cases pow : IsPow head.block
  · have ⟨ancestor, curBranch, newBranch, met, outcome⟩ :=
      compareForks_work pow head.held offer.held (sound wins pow) wins
    rw [total_eq met.cur, total_eq met.new]
    constructor
    · rcases outcome with more | ⟨same, _⟩
      · linarith
      · rw [same]
    · intro curHonest newHonest _ equal
      have ⟨_, curAbove, _, newTime, curTime, ancestorTime, newRead, curRead, read, _, faster⟩ :=
        outcome.resolve_left fun more => absurd (add_right_cancel equal) (ne_of_lt more)
      have curNumber := curHonest.length met.cur
      have newNumber := newHonest.length met.new
      have long : 0 < curBranch.length := List.length_pos_iff.mpr curAbove
      refine ⟨ancestor, curBranch, newBranch, curTime, newTime, ancestorTime, met.cur, met.new,
        met.apart, curRead, newRead, read, ?_⟩
      have curLen : (head.block.blockNum.toNat - ancestor.blockNum.toNat : Int) =
          curBranch.length := by omega
      have newLen : (offer.block.blockNum.toNat - ancestor.blockNum.toNat : Int) =
          newBranch.length := by omega
      rw [curLen, newLen] at faster
      exact faster (by omega)
  · have ⟨newPow, outcome⟩ := compareForks_true wins
    have direct : offer.block.previousBlockId = head.block.headerSignature := by
      rcases outcome with switch | compared
      · exact switch.2
      · exact absurd compared.1 pow
    have total := total_switch head.held direct
    constructor
    · have more := work_nonneg node offer.block
      linarith
    · intro _ _ complete equal
      have own : offer.block ∈ node.cache.forest.line offer.block := by
        have child : node.cache.forest.parent offer.block = some head.block := by
          change node.cache.find offer.block.previousBlockId = some head.block
          rw [direct]
          exact head.held
        rw [Lib.Forest.line_of_parent child]
        exact List.mem_cons_self
      have ⟨difficulty, read⟩ := complete offer.block own newPow
      have powered : isPow offer.block.fields = true := newPow
      have positive : 0 < node.work offer.block := by
        rw [Node.work, if_pos powered, read]
        positivity
      linarith

/-- The offers of a run are sound when each is, at the head it meets. -/
def SoundRun (head : HeldBlock node) (offers : List (Offer node)) : Prop :=
  ∀ earlier offer later, offers = earlier ++ offer :: later → offer.Sound (head.after earlier)

/-- No offer takes work from the head, whatever numbers and fields the blocks claim, and a
replacement at equal work and honest numbers is faster, in every run without negative difficulties
above the common ancestors. -/
theorem head_keeps_work {head : HeldBlock node} {offers : List (Offer node)}
    (sound : SoundRun head offers) :
    (∀ earlier later, offers = earlier ++ later →
      node.total (head.after earlier).block ≤ node.total (head.after offers).block) ∧
    ∀ earlier offer later, offers = earlier ++ offer :: later →
      offer.Wins (head.after earlier) → HonestNumbers node (head.after earlier).block →
      HonestNumbers node offer.block → HasTotal node offer.block →
      node.total (head.after earlier).block = node.total offer.block →
      Faster node (head.after earlier).block offer.block := by
  constructor
  · intro earlier later shape
    induction later generalizing earlier with
    | nil => rw [shape, List.append_nil]
    | cons offer later ih =>
      have step : node.total (head.after earlier).block ≤
          node.total (head.after (earlier ++ [offer])).block := by
        rw [HeldBlock.after, HeldBlock.after, List.foldl_append, List.foldl_cons, List.foldl_nil,
          HeldBlock.adopt]
        split
        · rename_i wins
          exact (wins_total (sound earlier offer later shape) wins).1
        · exact le_refl _
      exact step.trans (ih (earlier ++ [offer]) (by rw [shape, List.append_assoc]; rfl))
  · intro earlier offer later shape wins
    exact (wins_total (sound earlier offer later shape) wins).2

end Replacement

/-! ## Blocks without negative difficulties -/

/-- No block that a node holds has a negative difficulty. -/
def NonNegativeBlocks (node : Node) : Prop :=
  ∀ block, node.cache.Holds block → ∀ difficulty,
    node.difficulty block.toBlockHeader = .ok difficulty → 0 ≤ difficulty

/-- The line of a held block is held. -/
theorem holds_of_mem_line {node : Node} {head block : Block} (held : node.cache.Holds head)
    (listed : block ∈ node.cache.forest.line head) : node.cache.Holds block := by
  unfold Lib.Forest.line at listed
  generalize node.cache.forest.depth head = more at listed
  induction more generalizing head with
  | zero =>
    rw [Lib.Forest.lineFrom, List.mem_singleton] at listed
    exact listed ▸ held
  | succ more ih =>
    unfold Lib.Forest.lineFrom at listed
    split at listed
    · rename_i prev child
      rcases List.mem_cons.mp listed with rfl | later
      · exact held
      · exact ih (BlockCache.holds_of_find child) later
    · rw [List.mem_singleton] at listed
      exact listed ▸ held

/-- Without negative difficulties every two heads are weighable. -/
theorem NonNegativeBlocks.weighable {node : Node} (nonNegative : NonNegativeBlocks node)
    (cur new : HeldBlock node) : Weighable node cur.block new.block := by
  intro block listed _
  apply nonNegative block
  rcases List.mem_append.mp listed with onCur | onNew
  · exact holds_of_mem_line cur.held onCur
  · exact holds_of_mem_line new.held onNew

/-- The blocks of a list are tested for negative difficulties. -/
theorem nonNegativeBlocks_ofList {node : Node} {blocks : List Block}
    (found : ∀ id block, node.cache.find id = some block → block ∈ blocks)
    (tested : (blocks.all fun block =>
      match node.difficulty block.toBlockHeader with
      | .ok difficulty => decide (0 ≤ difficulty)
      | .error _ => true) = true) : NonNegativeBlocks node := by
  intro block held difficulty read
  have passed := List.all_eq_true.mp tested block (found _ _ held)
  rw [read] at passed
  exact of_decide_eq_true passed

/-! ## Three forks of one work -/

/-- The first PoW block, where the forks part. -/
def rootBlock : Block := sampleBlock 1 "g" "r" "PoW:0:0:1000.0"

/-- A block on it. -/
def midBlock : Block := sampleBlock 2 "r" "x" "PoW:0:0:1001.0"

/-- A head of difficulty one on the middle block. -/
def shortHead : Block := sampleBlock 3 "x" "a" "PoW:1:0:1011.0"

/-- Two blocks of difficulty zero on the middle block. -/
def longBlock : Block := sampleBlock 3 "x" "c" "PoW:0:0:1010.0"

@[inherit_doc longBlock] def longHead : Block := sampleBlock 4 "c" "b" "PoW:0:0:1019.0"

/-- Two blocks on the first one. -/
def sideBlock : Block := sampleBlock 2 "r" "e" "PoW:0:0:1006.0"

@[inherit_doc sideBlock] def sideHead : Block := sampleBlock 3 "e" "d" "PoW:1:1:1012.0"

/-- The blocks of the three forks, each after its successors. -/
def forkBlocks : List Block :=
  [shortHead, longHead, longBlock, sideHead, sideBlock, midBlock, rootBlock, genesisBlock]

/-- A node that holds them. -/
def forkNode : Node where
  runtime := plainRuntime
  cache := BlockCache.ofList forkBlocks (by decide +kernel)
  validator := .default

/-- What the node finds is one of the blocks. -/
theorem forkNode_find {id : Text} {block : Block} (found : forkNode.cache.find id = some block) :
    block ∈ forkBlocks := by
  have first : forkBlocks.find? (fun block => block.headerSignature == id) = some block := found
  exact List.mem_of_find?_eq_some first

/-- None of the blocks has a negative difficulty. -/
theorem forkNode_nonNegative : NonNegativeBlocks forkNode :=
  nonNegativeBlocks_ofList (fun _ _ => forkNode_find) (by decide)

/-- The longer heads are in the cache. -/
theorem longHead_held : forkNode.cache.Holds longHead := by decide

@[inherit_doc longHead_held] theorem sideHead_held : forkNode.cache.Holds sideHead := by
  decide

/-- A head of the node. -/
def forkHead : HeldBlock forkNode := ⟨shortHead, by decide +kernel⟩

/-- The other heads, offered. -/
def forkOffers : List (Offer forkNode) :=
  [{ block := longHead, held := longHead_held, now := sampleClock, clock := fun _ => sampleClock },
    { block := sideHead, held := sideHead_held, now := sampleClock, clock := fun _ => sampleClock }]

/-- Two heads of one work replace the first, one after the other. -/
theorem head_keeps_work_forks :
    forkHead.after forkOffers = ⟨sideHead, by decide +kernel⟩ ∧
      ∀ earlier later, forkOffers = earlier ++ later →
        forkNode.total (forkHead.after earlier).block ≤
          forkNode.total (forkHead.after forkOffers).block := by
  constructor
  · rw [forkOffers, HeldBlock.after, List.foldl_cons, HeldBlock.adopt,
      if_pos (by decide +kernel), List.foldl_cons, HeldBlock.adopt, if_pos (by decide +kernel)]
    rfl
  · refine (head_keeps_work ?_).1
    intro earlier offer later _ _ _
    exact forkNode_nonNegative.weighable _ _

/-! ## Rounded sums -/

/-- The first PoW block, a head of two blocks with a negative difficulty, and a block to offer. -/
def roundedBlocks : List Block :=
  [sampleBlock 3 "c" "d" "PoW:-1:0:1200.0", sampleBlock 2 "r" "c" "PoW:60:0:1100.0",
    sampleBlock 2 "r" "n" "PoW:60:0:1010.0", rootBlock, genesisBlock]

/-- A node that holds them. -/
def roundedNode : Node where
  runtime := plainRuntime
  cache := BlockCache.ofList roundedBlocks (by decide +kernel)
  validator := .default

/-- Its head. -/
def roundedHead : HeldBlock roundedNode :=
  ⟨sampleBlock 3 "c" "d" "PoW:-1:0:1200.0", by decide +kernel⟩

/-- The offered block. -/
def roundedOffer : Offer roundedNode where
  block := sampleBlock 2 "r" "n" "PoW:60:0:1010.0"
  held := by decide +kernel
  now := sampleClock
  clock _ := sampleClock

/-- The half that a negative difficulty adds to a large sum is rounded off, and the head loses
it. -/
theorem head_loses_work :
    ¬ ∀ (node : Node) (head : HeldBlock node) (offers earlier later : List (Offer node)),
      offers = earlier ++ later →
      node.total (head.after earlier).block ≤ node.total (head.after offers).block := by
  intro claim
  have kept := claim roundedNode roundedHead [roundedOffer] [] [roundedOffer] rfl
  have replaced : roundedHead.after [roundedOffer] = roundedOffer.toHeldBlock := by
    rw [HeldBlock.after, List.foldl_cons, HeldBlock.adopt, if_pos (by decide +kernel)]
    rfl
  rw [replaced] at kept
  exact absurd kept (by decide +kernel)

end Creditcoin.PoW
