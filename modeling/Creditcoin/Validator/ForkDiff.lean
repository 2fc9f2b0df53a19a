import Creditcoin.PoW.Forks

/-!
# The difference of two forks

The validator of blocks walks the taller chain down to the height of the other one, by the block
numbers that the headers claim, and then both down together until they meet. When that ends the two
lists are the branches of the heads above their nearest common ancestor, whatever the blocks claim.
-/

namespace Creditcoin.Validator

open PoW (Block)

/-- `NULL_BLOCK_IDENTIFIER`. -/
def nullBlockIdentifier : Text := "0000000000000000".toList

/-- Why there is no difference. -/
inductive DiffFault where
  /-- `BlockValidationAborted`, with the blocks that are marked invalid. -/
  | blockValidationAborted (invalid : List Block)
  /-- A `KeyError` that is not caught here. -/
  | keyError
  deriving DecidableEq

/-- `_compare_chain_height`. -/
def compareChainHeight (headA headB : Block) : Bool := decide (headB.blockNum ≤ headA.blockNum)

section Walks

variable (cache : PoW.BlockCache)

/-- The loop of `_build_fork_diff_to_common_height`. -/
def buildDown (last : UInt64) : Nat → Block → List Block → Except DiffFault (Block × List Block)
  | 0, _, _ => .error .keyError
  | fuel + 1, blk, forkDiff =>
    if last < blk.blockNum then
      if blk.previousBlockId = nullBlockIdentifier then .ok (blk, forkDiff)
      else
        match cache.find blk.previousBlockId with
        | some prev => buildDown last fuel prev (forkDiff ++ [blk])
        | none => .error (.blockValidationAborted (forkDiff ++ [blk]))
    else .ok (blk, forkDiff)

/-- `_build_fork_diff_to_common_height`. -/
def buildForkDiffToCommonHeight (headLong headShort : Block) :
    Except DiffFault (Block × List Block) :=
  buildDown cache headShort.blockNum (cache.forest.depth headLong + 1) headLong []

/-- The loop of `_extend_fork_diff_to_common_ancestor`. -/
def extendDown : Nat → Block → Block → List Block → List Block →
    Except DiffFault (List Block × List Block)
  | 0, _, _, _, _ => .error .keyError
  | fuel + 1, newBlkw, curBlkw, newChain, curChain =>
    if curBlkw.headerSignature = newBlkw.headerSignature then .ok (newChain, curChain)
    else if curBlkw.previousBlockId = nullBlockIdentifier ∨
        newBlkw.previousBlockId = nullBlockIdentifier then
      .error (.blockValidationAborted newChain)
    else
      match cache.find newBlkw.previousBlockId with
      | none => .error (.blockValidationAborted (newChain ++ [newBlkw]))
      | some newPrev =>
        match cache.find curBlkw.previousBlockId with
        | none => .error .keyError
        | some curPrev =>
          extendDown fuel newPrev curPrev (newChain ++ [newBlkw]) (curChain ++ [curBlkw])

/-- `_extend_fork_diff_to_common_ancestor`. -/
def extendForkDiffToCommonAncestor (newBlkw curBlkw : Block) (newChain curChain : List Block) :
    Except DiffFault (List Block × List Block) :=
  extendDown cache (cache.forest.depth newBlkw + 1) newBlkw curBlkw newChain curChain

/-- The part of `process_block_verification` that sets `result.new_chain` and
`result.current_chain`. -/
def forkDiff (chainHead block : Block) : Except DiffFault (List Block × List Block) :=
  if compareChainHeight chainHead block then do
    let (currentBlock, currentChain) ← buildForkDiffToCommonHeight cache chainHead block
    extendForkDiffToCommonAncestor cache block currentBlock [] currentChain
  else do
    let (newBlock, newChain) ← buildForkDiffToCommonHeight cache block chainHead
    extendForkDiffToCommonAncestor cache newBlock chainHead newChain []

end Walks

/-! ## What the walks find -/

/-- A cache finds what another one finds, or nothing. -/
def Subcache (cache known : PoW.BlockCache) : Prop :=
  ∀ id block, cache.find id = some block → known.find id = some block

section Branches

variable {cache known : PoW.BlockCache} {last : UInt64} {fuel : Nat}
  {blk final new cur root upper : Block}
  {acc diff newAcc curAcc newChain curChain branch branch' : List Block}

/-- What is found under an identifier is held. -/
theorem Subcache.holds (sub : Subcache cache known) {id : Text} (found : cache.find id = some blk) :
    known.Holds blk := PoW.BlockCache.holds_of_find (sub id blk found)

/-- A block at the end of a branch is held when the first one is. -/
theorem holds_of_branch (held : known.Holds blk) (above : known.forest.Branch root blk branch) :
    known.Holds root := by
  induction above with
  | nil => exact held
  | cons child _ ih => exact ih (PoW.BlockCache.holds_of_find child)

/-- A walk to a height finds a branch. -/
theorem buildDown_ok (sub : Subcache cache known)
    (built : buildDown cache last fuel blk acc = .ok (final, diff)) :
    ∃ front, diff = acc ++ front ∧ known.forest.Branch final blk front := by
  induction fuel generalizing blk acc with
  | zero => cases built
  | succ fuel ih =>
    unfold buildDown at built
    split at built
    · split at built
      · cases built
        exact ⟨[], (List.append_nil _).symm, .nil⟩
      · split at built
        · rename_i prev found
          obtain ⟨front, shape, below⟩ := ih built
          refine ⟨blk :: front, ?_, .cons (sub _ _ found) below⟩
          rw [shape, List.append_assoc]
          rfl
        · cases built
    · cases built
      exact ⟨[], (List.append_nil _).symm, .nil⟩

/-- Walks in lock step that end find branches of one length to one block, which differ at each
distance. -/
theorem extendDown_ok (sub : Subcache cache known) (held : known.Holds new)
    (held' : known.Holds cur)
    (extended : extendDown cache fuel new cur newAcc curAcc = .ok (newChain, curChain)) :
    ∃ root front front', newChain = newAcc ++ front ∧ curChain = curAcc ++ front' ∧
      known.forest.Branch root new front ∧ known.forest.Branch root cur front' ∧
        front.length = front'.length ∧ ∀ pair ∈ front.zip front', pair.1 ≠ pair.2 := by
  induction fuel generalizing new cur newAcc curAcc with
  | zero => cases extended
  | succ fuel ih =>
    unfold extendDown at extended
    split at extended
    · rename_i met
      cases extended
      obtain rfl := held'.eq held met
      exact ⟨cur, [], [], (List.append_nil _).symm, (List.append_nil _).symm, .nil, .nil, rfl,
        fun _ impossible => absurd impossible List.not_mem_nil⟩
    · rename_i different
      split at extended
      · cases extended
      · split at extended
        · cases extended
        · rename_i newPrev foundNew
          split at extended
          · cases extended
          · rename_i curPrev foundCur
            obtain ⟨root, front, front', shape, shape', below, below', even, apart⟩ :=
              ih (sub.holds foundNew) (sub.holds foundCur) extended
            refine ⟨root, new :: front, cur :: front', ?_, ?_, .cons (sub _ _ foundNew) below,
              .cons (sub _ _ foundCur) below', congrArg Nat.succ even, ?_⟩
            · rw [shape, List.append_assoc]
              rfl
            · rw [shape', List.append_assoc]
              rfl
            · intro pair listed
              rw [List.zip_cons_cons, List.mem_cons] at listed
              rcases listed with rfl | listed
              · intro same
                exact different (congrArg (fun block : Block => block.headerSignature) same.symm)
              · exact apart pair listed

/-- The difference of two forks is the branches of the new head and of the current one above their
nearest common ancestor, whatever numbers the blocks claim, and whatever the cache has lost. -/
theorem forkDiff_ok {chainHead block : Block} (sub : Subcache cache known)
    (held : known.Holds block) (held' : known.Holds chainHead)
    (found : forkDiff cache chainHead block = .ok (newChain, curChain)) :
    ∃ root, known.forest.Branch root block newChain ∧
      known.forest.Branch root chainHead curChain ∧ ∀ c ∈ newChain, c ∉ curChain := by
  unfold forkDiff at found
  split at found
  · cases built : buildForkDiffToCommonHeight cache chainHead block with
    | error fault =>
      rw [built] at found
      cases found
    | ok result =>
      obtain ⟨currentBlock, currentChain⟩ := result
      rw [built] at found
      obtain ⟨upper, shape, above⟩ := buildDown_ok sub built
      obtain ⟨root, front, front', shape', shape'', below, below', even, apart⟩ :=
        extendDown_ok sub held (holds_of_branch held' above) found
      rw [List.nil_append] at shape shape'
      rw [shape', shape'', shape]
      refine ⟨root, below, above.append below', ?_⟩
      have swapped : ∀ pair ∈ front'.zip front, pair.1 ≠ pair.2 := by
        rintro ⟨first, second⟩ zipped same
        rw [← List.zip_swap, List.mem_map] at zipped
        obtain ⟨pair, listed, turned⟩ := zipped
        obtain ⟨rfl, rfl⟩ := Prod.mk.inj turned
        exact apart pair listed same.symm
      have disjoint := Lib.Forest.Branch.disjoint (above.append below') below even.symm swapped
      exact fun c listed listed' => disjoint c listed' listed
  · cases built : buildForkDiffToCommonHeight cache block chainHead with
    | error fault =>
      rw [built] at found
      cases found
    | ok result =>
      obtain ⟨newBlock, newFront⟩ := result
      rw [built] at found
      obtain ⟨upper, shape, above⟩ := buildDown_ok sub built
      obtain ⟨root, front, front', shape', shape'', below, below', even, apart⟩ :=
        extendDown_ok sub (holds_of_branch held above) held' found
      rw [List.nil_append] at shape shape''
      rw [shape', shape'', shape]
      exact ⟨root, above.append below, below',
        Lib.Forest.Branch.disjoint (above.append below) below' even apart⟩

/-! ## When there is a difference -/

/-- The blocks are found, and each counts one more than its predecessor. -/
def Counted (cache : PoW.BlockCache) (blocks : List Block) : Prop :=
  ∀ block ∈ blocks, ∀ prev, cache.find block.previousBlockId = some prev →
    block.blockNum.toNat = prev.blockNum.toNat + 1

/-- Numbers count the blocks of a branch. -/
theorem Counted.length (counted : Counted cache branch)
    (above : cache.forest.Branch root blk branch) :
    blk.blockNum.toNat = root.blockNum.toNat + branch.length := by
  induction above with
  | nil => rfl
  | @cons block prev rest child below ih =>
    unfold Counted at counted
    rw [List.forall_mem_cons] at counted
    have step := counted.1 prev child
    have count := ih counted.2
    rw [List.length_cons]
    omega

/-- A predecessor that is found is none of a first block. -/
theorem ne_null (unnamed : cache.find nullBlockIdentifier = none)
    (found : cache.find blk.previousBlockId = some cur) :
    blk.previousBlockId ≠ nullBlockIdentifier := by
  intro null
  rw [null, unnamed] at found
  cases found

/-- The walk goes down a branch of consecutive numbers to the height of its end. -/
theorem buildDown_branch (unnamed : cache.find nullBlockIdentifier = none)
    (counted : Counted cache branch) (above : cache.forest.Branch root blk branch)
    (height : last = root.blockNum) (enough : branch.length < fuel) (acc : List Block) :
    buildDown cache last fuel blk acc = .ok (root, acc ++ branch) := by
  induction above generalizing fuel acc with
  | nil =>
    cases fuel with
    | zero => exact absurd enough (Nat.not_lt_zero _)
    | succ fuel =>
      have level : ¬ last < root.blockNum := by
        rw [height]
        exact UInt64.lt_irrefl _
      rw [buildDown, if_neg level, List.append_nil]
  | @cons block prev rest child below ih =>
    have number := counted.length (.cons child below)
    rw [List.length_cons] at number enough
    cases fuel with
    | zero => exact absurd enough (Nat.not_lt_zero _)
    | succ fuel =>
      have higher : last < block.blockNum := by
        rw [height, UInt64.lt_iff_toNat_lt]
        omega
      have found : cache.find block.previousBlockId = some prev := child
      rw [buildDown, if_pos higher, if_neg (ne_null unnamed found), found]
      dsimp only
      rw [ih (fun other listed => counted other (List.mem_cons_of_mem _ listed)) (by omega),
        List.append_assoc]
      rfl

/-- The walk in lock step goes down branches of one length without a common block to their end. -/
theorem extendDown_branch (unnamed : cache.find nullBlockIdentifier = none)
    (held : cache.Holds new) (held' : cache.Holds cur)
    (above : cache.forest.Branch root new branch) (above' : cache.forest.Branch root cur branch')
    (even : branch.length = branch'.length) (apart : ∀ block ∈ branch, block ∉ branch')
    (enough : branch.length < fuel) (newAcc curAcc : List Block) :
    extendDown cache fuel new cur newAcc curAcc = .ok (newAcc ++ branch, curAcc ++ branch') := by
  induction above generalizing fuel cur branch' newAcc curAcc with
  | nil =>
    obtain rfl := List.eq_nil_of_length_eq_zero even.symm
    have met : cur = root := above'.nil_iff.mp rfl
    cases fuel with
    | zero => exact absurd enough (Nat.not_lt_zero _)
    | succ fuel => rw [extendDown, if_pos (by rw [met]), List.append_nil, List.append_nil]
  | @cons block prev rest child below ih =>
    cases above' with
    | nil => cases even
    | @cons _ prev' rest' child' below' =>
      rw [List.length_cons, List.length_cons] at even
      rw [List.length_cons] at enough
      rw [List.forall_mem_cons] at apart
      cases fuel with
      | zero => exact absurd enough (Nat.not_lt_zero _)
      | succ fuel =>
        have different : cur.headerSignature ≠ block.headerSignature := by
          intro same
          rw [held'.eq held same] at apart
          exact apart.1 List.mem_cons_self
        have found : cache.find block.previousBlockId = some prev := child
        have found' : cache.find cur.previousBlockId = some prev' := child'
        rw [extendDown, if_neg different,
          if_neg (not_or.mpr ⟨ne_null unnamed found', ne_null unnamed found⟩), found]
        dsimp only
        rw [found']
        dsimp only
        rw [ih (PoW.BlockCache.holds_of_find found) (PoW.BlockCache.holds_of_find found') below'
          (by omega) (fun other listed member =>
            apart.2 other listed (List.mem_cons_of_mem _ member)) (by omega),
          List.append_assoc, List.append_assoc]
        rfl

/-- When the cache has both heads and their branches down to the nearest common ancestor, with
consecutive numbers, the difference is these branches, and it has no other one. -/
theorem forkDiff_iff {chainHead block : Block} (unnamed : cache.find nullBlockIdentifier = none)
    (held : cache.Holds block) (held' : cache.Holds chainHead)
    (counted : Counted cache (cache.forest.line block))
    (counted' : Counted cache (cache.forest.line chainHead)) :
    forkDiff cache chainHead block = .ok (newChain, curChain) ↔
      ∃ root, cache.forest.Branch root block newChain ∧
        cache.forest.Branch root chainHead curChain ∧ ∀ c ∈ newChain, c ∉ curChain := by
  constructor
  · exact forkDiff_ok (fun _ _ found => found) held held'
  · rintro ⟨root, above, above', apart⟩
    have countedNew : Counted cache newChain := fun other listed =>
      counted other (by rw [above.line_eq]; exact List.mem_append_left _ listed)
    have countedCur : Counted cache curChain := fun other listed =>
      counted' other (by rw [above'.line_eq]; exact List.mem_append_left _ listed)
    have number := countedNew.length above
    have number' := countedCur.length above'
    have deep := above.depth_le
    have deep' := above'.depth_le
    have taller : compareChainHeight chainHead block = true ↔
        newChain.length ≤ curChain.length := by
      rw [compareChainHeight, decide_eq_true_eq, UInt64.le_iff_toNat_le]
      omega
    unfold forkDiff buildForkDiffToCommonHeight extendForkDiffToCommonAncestor
    by_cases longer : newChain.length ≤ curChain.length
    · obtain ⟨level, upper, lower⟩ := above'.split (Nat.sub_le curChain.length newChain.length)
      have even : (curChain.drop (curChain.length - newChain.length)).length = newChain.length := by
        rw [List.length_drop]
        omega
      have countedUpper : Counted cache (curChain.take (curChain.length - newChain.length)) :=
        fun other listed => countedCur other (List.mem_of_mem_take listed)
      have countedLower : Counted cache (curChain.drop (curChain.length - newChain.length)) :=
        fun other listed => countedCur other (List.mem_of_mem_drop listed)
      have height : block.blockNum = level.blockNum := by
        have below := countedLower.length lower
        rw [← UInt64.toNat_inj]
        omega
      rw [if_pos (taller.mpr longer), buildDown_branch unnamed countedUpper upper height
        (by rw [List.length_take]; omega)]
      change extendDown cache _ block level [] _ = _
      rw [extendDown_branch unnamed held (holds_of_branch held' upper) above lower even.symm
        (fun other listed member => apart other listed (List.mem_of_mem_drop member)) (by omega),
        List.nil_append, List.nil_append, List.take_append_drop]
    · obtain ⟨level, upper, lower⟩ := above.split (Nat.sub_le newChain.length curChain.length)
      have even : (newChain.drop (newChain.length - curChain.length)).length = curChain.length := by
        rw [List.length_drop]
        omega
      have countedUpper : Counted cache (newChain.take (newChain.length - curChain.length)) :=
        fun other listed => countedNew other (List.mem_of_mem_take listed)
      have countedLower : Counted cache (newChain.drop (newChain.length - curChain.length)) :=
        fun other listed => countedNew other (List.mem_of_mem_drop listed)
      have height : chainHead.blockNum = level.blockNum := by
        have below := countedLower.length lower
        rw [← UInt64.toNat_inj]
        omega
      have deepLower := lower.depth_le
      rw [if_neg (fun tall => longer (taller.mp tall)), buildDown_branch unnamed countedUpper upper
        height (by rw [List.length_take]; omega)]
      change extendDown cache _ level chainHead _ [] = _
      rw [extendDown_branch unnamed (holds_of_branch held upper) held' lower above' even
        (fun other listed => apart other (List.mem_of_mem_drop listed)) (by omega),
        List.nil_append, List.nil_append, List.take_append_drop]

end Branches

/-! ## A sample -/

/-- A block of the sample. -/
def chainBlock (number : UInt64) (id predecessor : String) : Block :=
  ⟨⟨number, predecessor.toList, [], []⟩, id.toList⟩

/-- A first block with a branch of two blocks and one of one block. -/
def chainBlocks : List Block :=
  [chainBlock 3 "b" "a", chainBlock 2 "a" "g", chainBlock 2 "c" "g",
    chainBlock 1 "g" "0000000000000000"]

/-- Predecessors stand later in the sample. -/
theorem chainBlocks_sorted : ∀ block ∈ chainBlocks, ∀ prev ∈ chainBlocks,
    prev.headerSignature = block.previousBlockId →
      chainBlocks.findIdx (fun other : Block => other.headerSignature == block.headerSignature) <
        chainBlocks.findIdx fun other : Block =>
          other.headerSignature == block.previousBlockId := by
  decide

/-- The cache of the sample. -/
def chainCache : PoW.BlockCache := PoW.BlockCache.ofList chainBlocks chainBlocks_sorted

/-- Blocks of the sample count from their predecessors. -/
theorem chainCache_counted {blocks : List Block} (listed : blocks ⊆ chainBlocks) :
    Counted chainCache blocks := by
  have all : ∀ block ∈ chainBlocks, ∀ prev ∈ chainBlocks,
      prev.headerSignature = block.previousBlockId →
        block.blockNum.toNat = prev.blockNum.toNat + 1 := by
    decide +kernel
  intro block member prev found
  have known : chainBlocks.find? (fun other => other.headerSignature == block.previousBlockId) =
      some prev := found
  exact all block (listed member) prev (List.mem_of_find?_eq_some known) (chainCache.keyed found)

/-- The difference of the two heads of the sample is their branches above the first block. -/
theorem forkDiff_iff_sample :
    ∃ root, chainCache.forest.Branch root (chainBlock 3 "b" "a")
        [chainBlock 3 "b" "a", chainBlock 2 "a" "g"] ∧
      chainCache.forest.Branch root (chainBlock 2 "c" "g") [chainBlock 2 "c" "g"] ∧
        ∀ c ∈ [chainBlock 3 "b" "a", chainBlock 2 "a" "g"], c ∉ [chainBlock 2 "c" "g"] := by
  have lines : chainCache.forest.line (chainBlock 3 "b" "a") ⊆ chainBlocks ∧
      chainCache.forest.line (chainBlock 2 "c" "g") ⊆ chainBlocks := by
    decide +kernel
  refine (forkDiff_iff ?_ ?_ ?_ (chainCache_counted lines.1) (chainCache_counted lines.2)).mp ?_
  all_goals decide

end Creditcoin.Validator
