import Creditcoin.Validator.Blocks
import Mathlib.Data.List.Nodup

/-!
# Reward blocks

The processor asks for the predecessors of a head block between two heights. They are found by
following the links from the head, with a count of the height that is compared with the numbers the
blocks claim. When a link leads out of the cache into the store, the walk goes on at the stored
block of the first height asked for, whatever number the block reached has.
-/

namespace Creditcoin.Validator

/-- The number that a block claims. -/
def BlockWrapper.num (blkw : BlockWrapper) : Nat := blkw.blockNum.toNat

/-! ## Store and cache -/

/-- A block store that holds one chain. -/
structure BlockStore where
  /-- The blocks, from the first on. -/
  chain : List BlockWrapper
  /-- The blocks have consecutive numbers. -/
  numbered : ∀ (i : Nat) (block : BlockWrapper), chain[i]? = some block → block.num = i
  /-- Every block names the one before it. -/
  linked : ∀ (i : Nat) (block next : BlockWrapper), chain[i]? = some block →
    chain[i + 1]? = some next → next.previousBlockId = block.headerSignature
  /-- The blocks have identifiers of their own. -/
  distinct : (chain.map BlockWrapper.headerSignature).Nodup

/-- `block_store[block_id]`. -/
def BlockStore.get (store : BlockStore) (blockId : Text) : Option BlockWrapper :=
  store.chain.find? fun block => decide (block.headerSignature = blockId)

/-- The parent of a block in the store. -/
abbrev BlockStore.parent (store : BlockStore) (block : BlockWrapper) : Option BlockWrapper :=
  store.get block.previousBlockId

/-- `get_block_by_number`. -/
def BlockStore.getBlockByNumber (store : BlockStore) (blockNum : Nat) : Option BlockWrapper :=
  store.chain.find? fun block => decide (block.num = blockNum)

/-- `BlockCacheFlagged`. -/
structure BlockCache where
  /-- The blocks in the cache. -/
  cache : Text → Option BlockWrapper
  /-- The store behind it. -/
  store : BlockStore
  /-- Which entries are purged when a block is put into the cache. -/
  expired : Text → Text → Bool

namespace BlockCache

/-- `__setitem__`. -/
def setItem (blockCache : BlockCache) (blockId : Text) (block : BlockWrapper) : BlockCache :=
  { blockCache with
    cache := fun key =>
      if blockCache.expired blockId key then none
      else if key = blockId then some block else blockCache.cache key }

/-- `__getitem__`: the block, whether it was found in the store, and the cache afterwards. -/
def getItem (blockCache : BlockCache) (blockId : Text) :
    Option (BlockWrapper × Bool × BlockCache) :=
  match blockCache.cache blockId with
  | some block => some (block, false, blockCache)
  | none =>
    match blockCache.store.get blockId with
    | some block => some (block, true, blockCache.setItem blockId block)
    | none => none

/-- The block with an identifier, in the cache or in the store. -/
def lookup (blockCache : BlockCache) (blockId : Text) : Option BlockWrapper :=
  match blockCache.cache blockId with
  | some block => some block
  | none => blockCache.store.get blockId

/-- The parent of a block, in the cache or in the store. -/
abbrev parent (blockCache : BlockCache) (block : BlockWrapper) : Option BlockWrapper :=
  blockCache.lookup block.previousBlockId

/-- The parent of a block in the cache. -/
abbrev cachedParent (blockCache : BlockCache) (block : BlockWrapper) : Option BlockWrapper :=
  blockCache.cache block.previousBlockId

/-- A block in both is the same. -/
def Agrees (blockCache : BlockCache) : Prop :=
  ∀ blockId block stored, blockCache.cache blockId = some block →
    blockCache.store.get blockId = some stored → block = stored

end BlockCache

/-! ## The request -/

/-- `ClientRewardBlockListRequest`. -/
structure RewardListRequest where
  headId : Text
  firstPredecessorHeight : Nat
  lastPredecessorHeight : Nat

/-- `ClientRewardBlockListResponse`. -/
structure RewardListResponse where
  headId : Text
  blocks : List BlockWrapper
  deriving DecidableEq

/-- The statuses of a request that fails. -/
inductive RewardStatus where
  | noRoot
  | internalError
  | noResource
  deriving DecidableEq

/-- `INTERVAL_LIMIT`. -/
def intervalLimit : Nat := 20

/-- `DEPTH_LIMIT`. -/
def depthLimit : Nat := 10000

/-- `_id_regex`. -/
def isBlockId (blockId : Text) : Bool := blockId.length == 128 && blockId.isHex

/-- The loop that finds the tip to be rewarded: the block, the height it should have and the cache.
The second argument is how far the height is above the one asked for. -/
def findTip (firstPredHeight : Nat) (blockCache : BlockCache) : Nat → BlockWrapper →
    Except RewardStatus (BlockWrapper × Nat × BlockCache)
  | 0, headBlock => .ok (headBlock, firstPredHeight, blockCache)
  | more + 1, headBlock =>
    if headBlock.num ≠ firstPredHeight ∧ headBlock.num = firstPredHeight + (more + 1) then
      match blockCache.getItem headBlock.previousBlockId with
      | none => .error .noResource
      | some (block, foundInStore, blockCache') =>
        if foundInStore then
          match blockCache.store.getBlockByNumber firstPredHeight with
          | some block => .ok (block, firstPredHeight, blockCache')
          | none => .error .noResource
        else findTip firstPredHeight blockCache' more block
    else .ok (headBlock, firstPredHeight + (more + 1), blockCache)

/-- The loop that pushes blocks until the last one asked for: the block after it, the height that
this one should have and the blocks. -/
def pushBlocks (lastPredHeight : Nat) : Nat → BlockCache → BlockWrapper →
    Except RewardStatus (BlockWrapper × Nat × List BlockWrapper)
  | 0, _, headBlock => .ok (headBlock, lastPredHeight - 1, [])
  | more + 1, blockCache, headBlock =>
    if headBlock.num ≠ lastPredHeight - 1 ∧ headBlock.num = lastPredHeight - 1 + (more + 1) then
      match blockCache.getItem headBlock.previousBlockId with
      | none => .error .noResource
      | some (block, _, blockCache') =>
        match pushBlocks lastPredHeight more blockCache' block with
        | .ok (last, height, blocks) => .ok (last, height, headBlock :: blocks)
        | .error status => .error status
    else .ok (headBlock, lastPredHeight - 1 + (more + 1), [])

/-- The loops, and the check of the height after them. -/
def rewardBlocks (blockCache : BlockCache) (headBlock : BlockWrapper)
    (firstPredHeight lastPredHeight : Nat) : Except RewardStatus RewardListResponse :=
  match findTip firstPredHeight blockCache (headBlock.num - firstPredHeight) headBlock with
  | .error status => .error status
  | .ok (tip, height, blockCache') =>
    match pushBlocks lastPredHeight (height - (lastPredHeight - 1)) blockCache' tip with
    | .error status => .error status
    | .ok (last, height, blocks) =>
      if last.num ≠ height then .error .internalError
      else .ok ⟨last.headerSignature, blocks.reverse⟩

/-- `RewardListRequest._respond`. -/
def RewardListRequest.respond (request : RewardListRequest) (blockCache : BlockCache) :
    Except RewardStatus RewardListResponse :=
  if isBlockId request.headId = false then .error .noRoot
  else
    match blockCache.getItem request.headId with
    | none => .error .noRoot
    | some (headBlock, _, blockCache') =>
      let a := request.lastPredecessorHeight
      let b := request.firstPredecessorHeight
      let delta : Int := b - a
      let padding : Int := headBlock.num - b
      if 0 < a ∧ 0 < delta ∧ 0 < padding ∧ delta < intervalLimit then
        if depthLimit < padding then
          match blockCache'.store.getBlockByNumber b with
          | none => .error .internalError
          | some headBlock => rewardBlocks blockCache' headBlock b a
        else rewardBlocks blockCache' headBlock b a
      else .error .internalError

/-! ## Ancestors -/

/-- The blocks from one down to another, the other left out; each is the parent of the one before
it, and the numbers fall one by one. -/
inductive Line (parent : BlockWrapper → Option BlockWrapper) :
    BlockWrapper → List BlockWrapper → BlockWrapper → Prop where
  /-- From a block to itself there is none. -/
  | nil {block : BlockWrapper} : Line parent block [] block
  /-- A block before its parent. -/
  | cons {block below last : BlockWrapper} {blocks : List BlockWrapper}
      (child : parent block = some below) (follows : below.num + 1 = block.num)
      (rest : Line parent below blocks last) : Line parent block (block :: blocks) last

/-- The blocks are the ancestors of the head with the numbers from one height up to another, and all
numbers down from the head are honest. -/
def Faithful (blockCache : BlockCache) (head : BlockWrapper) (lastPredHeight firstPredHeight : Nat)
    (blocks : List BlockWrapper) : Prop :=
  ∃ above last, Line blockCache.parent head
      (above ++ blocks.reverse) last ∧
    last.num + 1 = lastPredHeight ∧ blocks.length = firstPredHeight + 1 - lastPredHeight

/-- Where the line of the head in the cache leads into the store above a height, the stored block
has the number below, or the store has no block at the height. -/
def LeavesHonestly (blockCache : BlockCache) (head : BlockWrapper) (firstPredHeight : Nat) : Prop :=
  ∀ blocks above below, Line blockCache.cachedParent head blocks above →
    firstPredHeight < above.num → blockCache.cache above.previousBlockId = none →
    blockCache.store.get above.previousBlockId = some below →
    below.num + 1 = above.num ∨ blockCache.store.getBlockByNumber firstPredHeight = none

section Faithful

variable {parent parent' : BlockWrapper → Option BlockWrapper} {store : BlockStore}
  {blockCache blockCache' : BlockCache} {head block below tip last : BlockWrapper}
  {blocks : List BlockWrapper} {a b height more : Nat}

/-- Lines join. -/
theorem Line.append {rest : List BlockWrapper} (first : Line parent head blocks block)
    (second : Line parent block rest last) : Line parent head (blocks ++ rest) last := by
  induction first with
  | nil => exact second
  | cons child follows _ ih => exact .cons child follows (ih second)

/-- More parents keep a line. -/
theorem Line.mono (more : ∀ block below, parent block = some below → parent' block = some below)
    (line : Line parent head blocks last) : Line parent' head blocks last := by
  induction line with
  | nil => exact .nil
  | cons child follows _ ih => exact .cons (more _ _ child) follows ih

/-- The numbers fall by one for every block. -/
theorem Line.num (line : Line parent head blocks last) :
    last.num + blocks.length = head.num := by
  induction line with
  | nil => rfl
  | cons child follows _ ih =>
    rw [List.length_cons]
    omega

/-- A longer line from the same block continues a shorter one. -/
theorem Line.next {rest : List BlockWrapper} (line : Line parent head blocks block)
    (longer : Line parent head rest last) (more : blocks.length < rest.length) :
    ∃ below, parent block = some below ∧ below.num + 1 = block.num := by
  induction line generalizing rest with
  | nil =>
    cases longer with
    | nil => cases more
    | cons child follows _ => exact ⟨_, child, follows⟩
  | cons child follows _ ih =>
    cases longer with
    | nil => cases more
    | cons child' follows' after =>
      rw [child, Option.some.injEq] at child'
      subst child'
      exact ih after (by simpa using more)

/-! ## The store -/

/-- The store finds a block by its identifier. -/
theorem BlockStore.get_of_index {i : Nat} (stored : store.chain[i]? = some block) :
    store.get block.headerSignature = some block := by
  have listed := List.mem_of_getElem? stored
  cases found : store.get block.headerSignature with
  | none =>
    have missing := List.find?_eq_none.mp found block listed
    simp at missing
  | some other =>
    have same : other.headerSignature = block.headerSignature := by
      have tested := List.find?_some found
      exact of_decide_eq_true tested
    have listed' := List.mem_of_find?_eq_some found
    rw [List.inj_on_of_nodup_map store.distinct listed' listed same]

/-- What the store finds is in its chain, at its number. -/
theorem BlockStore.index_of_get {blockId : Text} (found : store.get blockId = some block) :
    store.chain[block.num]? = some block := by
  obtain ⟨i, stored⟩ := List.mem_iff_getElem?.mp (List.mem_of_find?_eq_some found)
  rw [store.numbered i block stored]
  exact stored

/-- The store finds a block by its number. -/
theorem BlockStore.getBlockByNumber_eq {n : Nat} : store.getBlockByNumber n = store.chain[n]? := by
  cases found : store.getBlockByNumber n with
  | none =>
    cases stored : store.chain[n]? with
    | none => rfl
    | some block =>
      have missing := List.find?_eq_none.mp found block (List.mem_of_getElem? stored)
      exact absurd (decide_eq_true (store.numbered n block stored)) missing
  | some block =>
    have tested := List.find?_some found
    have numbered : block.num = n := of_decide_eq_true tested
    obtain ⟨i, stored⟩ := List.mem_iff_getElem?.mp (List.mem_of_find?_eq_some found)
    rw [← store.numbered i block stored, numbered] at stored
    exact stored.symm

/-- Below a block of the store is another. -/
theorem BlockStore.predecessor {i : Nat} (stored : store.chain[i + 1]? = some block) :
    ∃ below, store.chain[i]? = some below ∧ store.get block.previousBlockId = some below ∧
      below.num + 1 = block.num := by
  have inside : i < store.chain.length := by
    have bound := (List.getElem?_eq_some_iff.mp stored).1
    omega
  have stored' := List.getElem?_eq_getElem inside
  refine ⟨_, stored', ?_, ?_⟩
  · rw [store.linked i _ block stored' stored]
    exact BlockStore.get_of_index stored'
  · rw [store.numbered _ _ stored, store.numbered _ _ stored']

/-- Below a block of the store is its line. -/
theorem BlockStore.line {i : Nat} (stored : store.chain[b + i]? = some block) :
    ∃ blocks tip, store.chain[b]? = some tip ∧
      Line store.parent block blocks tip := by
  induction i generalizing block with
  | zero => exact ⟨[], block, stored, .nil⟩
  | succ i ih =>
    obtain ⟨below, stored', child, follows⟩ := BlockStore.predecessor stored
    obtain ⟨blocks, tip, found, line⟩ := ih stored'
    exact ⟨block :: blocks, tip, found, .cons child follows line⟩

/-! ## The cache -/

/-- All that a cache and its store hold is found in another. -/
structure Within (blockCache known : BlockCache) : Prop where
  /-- The cache. -/
  cached : ∀ blockId block, blockCache.cache blockId = some block →
    known.lookup blockId = some block
  /-- The store. -/
  stored : ∀ blockId block, blockCache.store.get blockId = some block →
    known.lookup blockId = some block

variable {known : BlockCache} {blockId : Text} {foundInStore : Bool}

/-- A cache is within itself when it agrees with its store. -/
theorem within_self (agrees : known.Agrees) : Within known known := by
  constructor
  · intro blockId block cached
    simp only [BlockCache.lookup, cached]
  · intro blockId block stored
    cases cached : known.cache blockId with
    | none => simp only [BlockCache.lookup, cached, stored]
    | some block' =>
      rw [agrees blockId block' block cached stored] at cached
      simp only [BlockCache.lookup, cached]

/-- What is put into the cache is known before. -/
theorem Within.setItem (within : Within blockCache known)
    (stored : blockCache.store.get blockId = some block) :
    Within (blockCache.setItem blockId block) known := by
  refine ⟨?_, within.stored⟩
  intro key other cached
  simp only [BlockCache.setItem] at cached
  split at cached
  · cases cached
  · split at cached
    · rename_i same
      rw [Option.some.injEq] at cached
      rw [same, ← cached]
      exact within.stored blockId block stored
    · exact within.cached key other cached

/-- A block that is found is known, and the cache stays within what is known. -/
theorem Within.getItem (within : Within blockCache known)
    (found : blockCache.getItem blockId = some (block, foundInStore, blockCache')) :
    known.lookup blockId = some block ∧ Within blockCache' known ∧
      blockCache'.store = blockCache.store := by
  unfold BlockCache.getItem at found
  split at found
  · rename_i other cached
    simp only [Option.some.injEq, Prod.mk.injEq] at found
    obtain ⟨rfl, rfl, rfl⟩ := found
    exact ⟨within.cached _ _ cached, within, rfl⟩
  · split at found
    · rename_i other stored
      simp only [Option.some.injEq, Prod.mk.injEq] at found
      obtain ⟨rfl, rfl, rfl⟩ := found
      exact ⟨within.stored _ _ stored, within.setItem stored, rfl⟩
    · cases found

/-- A block of the store is found. -/
theorem Within.getItem_stored (within : Within blockCache known)
    (stored : blockCache.store.get blockId = some block) :
    ∃ foundInStore blockCache',
      blockCache.getItem blockId = some (block, foundInStore, blockCache') ∧
        Within blockCache' known ∧ blockCache'.store = blockCache.store := by
  cases found : blockCache.getItem blockId with
  | none =>
    unfold BlockCache.getItem at found
    split at found
    · cases found
    · rw [stored] at found
      cases found
  | some item =>
    obtain ⟨other, foundInStore, blockCache'⟩ := item
    obtain ⟨lookup, within', same⟩ := within.getItem found
    rw [within.stored blockId block stored, Option.some.injEq] at lookup
    subst lookup
    exact ⟨foundInStore, blockCache', rfl, within', same⟩

/-! ## The loops -/

/-- The walk leads into the store before it is at a height: the blocks before, the last block in the
cache and the stored one. -/
structure Leaves (blockCache : BlockCache) (head : BlockWrapper) (b : Nat)
    (blocks : List BlockWrapper) (block below : BlockWrapper) : Prop where
  /-- The blocks are in the cache. -/
  line : Line blockCache.cachedParent head blocks block
  /-- The last one is above the height. -/
  above : b < block.num
  /-- Its parent is not in the cache. -/
  missing : blockCache.cache block.previousBlockId = none
  /-- Its parent is in the store. -/
  stored : blockCache.store.get block.previousBlockId = some below

/-- The loop ends at the height, in the cache or by going on in the store, or with a block of
another number than it should have. -/
theorem findTip_ok (found : findTip b blockCache more head = .ok (tip, height, blockCache'))
    (honest : tip.num = height) :
    height = b ∧ head.num = b + more ∧
      ((blockCache' = blockCache ∧
        ∃ blocks, Line blockCache.cachedParent head blocks tip) ∨
      (blockCache.store.getBlockByNumber b = some tip ∧ ∃ blocks block below,
        Leaves blockCache head b blocks block below ∧
        blockCache' = blockCache.setItem block.previousBlockId below)) := by
  induction more generalizing head with
  | zero =>
    simp only [findTip, Except.ok.injEq, Prod.mk.injEq] at found
    obtain ⟨rfl, rfl, rfl⟩ := found
    exact ⟨rfl, honest, .inl ⟨rfl, [], .nil⟩⟩
  | succ more ih =>
    rw [findTip] at found
    split at found
    · rename_i continues
      unfold BlockCache.getItem at found
      cases cached : blockCache.cache head.previousBlockId with
      | some block =>
        simp only [cached, Bool.false_eq_true, if_false] at found
        obtain ⟨same, number, ends⟩ := ih found
        have follows : block.num + 1 = head.num := by omega
        refine ⟨same, continues.2, ?_⟩
        rcases ends with ⟨kept, blocks, line⟩ | ⟨jumped, blocks, last, below, leaves, kept⟩
        · exact .inl ⟨kept, head :: blocks, .cons cached follows line⟩
        · exact .inr ⟨jumped, head :: blocks, last, below,
            ⟨.cons cached follows leaves.line, leaves.above, leaves.missing, leaves.stored⟩, kept⟩
      | none =>
        cases stored : blockCache.store.get head.previousBlockId with
        | none => simp [cached, stored] at found
        | some below =>
          simp only [cached, stored, if_true] at found
          split at found
          · rename_i block jumped
            simp only [Except.ok.injEq, Prod.mk.injEq] at found
            obtain ⟨rfl, rfl, rfl⟩ := found
            have above : b < head.num := by omega
            have leaves : Leaves blockCache head b [] head below := ⟨.nil, above, cached, stored⟩
            exact ⟨rfl, continues.2, .inr ⟨jumped, [], head, below, leaves, rfl⟩⟩
          · cases found
    · rename_i stops
      simp only [Except.ok.injEq, Prod.mk.injEq] at found
      obtain ⟨rfl, rfl, rfl⟩ := found
      have here : head.num = b := by
        by_contra other
        exact stops ⟨other, honest⟩
      omega

/-- The loop does not go below the height, and the cache stays within what is known. -/
theorem findTip_within (within : Within blockCache known)
    (found : findTip b blockCache more head = .ok (tip, height, blockCache')) :
    b ≤ height ∧ Within blockCache' known := by
  induction more generalizing blockCache head with
  | zero =>
    simp only [findTip, Except.ok.injEq, Prod.mk.injEq] at found
    obtain ⟨rfl, rfl, rfl⟩ := found
    exact ⟨Nat.le_refl _, within⟩
  | succ more ih =>
    rw [findTip] at found
    split at found
    · split at found
      · cases found
      · rename_i block foundInStore blockCache'' item
        obtain ⟨_, within', _⟩ := within.getItem item
        split at found
        · split at found
          · simp only [Except.ok.injEq, Prod.mk.injEq] at found
            obtain ⟨rfl, rfl, rfl⟩ := found
            exact ⟨Nat.le_refl _, within'⟩
          · cases found
        · exact ih within' found
    · simp only [Except.ok.injEq, Prod.mk.injEq] at found
      obtain ⟨rfl, rfl, rfl⟩ := found
      exact ⟨by omega, within⟩

/-- Where the walk leads into the store, the loop goes on at the height. -/
theorem findTip_leaves (leaves : Leaves blockCache head b blocks block below)
    (jumped : blockCache.store.getBlockByNumber b = some tip) (number : head.num = b + more) :
    findTip b blockCache more head =
      .ok (tip, b, blockCache.setItem block.previousBlockId below) := by
  obtain ⟨line, above, missing, stored⟩ := leaves
  induction line generalizing more with
  | nil =>
    obtain ⟨more, rfl⟩ : ∃ less, more = less + 1 := ⟨more - 1, by omega⟩
    rw [findTip, if_pos ⟨by omega, number⟩]
    simp only [BlockCache.getItem, missing, stored, if_true, jumped]
  | cons child follows rest ih =>
    have long := rest.num
    obtain ⟨more, rfl⟩ : ∃ less, more = less + 1 := ⟨more - 1, by omega⟩
    rw [findTip, if_pos ⟨by omega, number⟩]
    simp only [BlockCache.getItem, child, Bool.false_eq_true, if_false]
    exact ih (by omega) above missing stored

/-- When the last block has the number it should have, the pushed blocks are its line. -/
theorem pushBlocks_ok (within : Within blockCache known)
    (pushed : pushBlocks a more blockCache tip = .ok (last, height, blocks))
    (honest : last.num = height) :
    height = a - 1 ∧ tip.num = a - 1 + more ∧ blocks.length = more ∧
      Line known.parent tip blocks last := by
  induction more generalizing blockCache tip blocks with
  | zero =>
    simp only [pushBlocks, Except.ok.injEq, Prod.mk.injEq] at pushed
    obtain ⟨rfl, rfl, rfl⟩ := pushed
    exact ⟨rfl, honest, rfl, .nil⟩
  | succ more ih =>
    rw [pushBlocks] at pushed
    split at pushed
    · rename_i continues
      split at pushed
      · cases pushed
      · rename_i block foundInStore blockCache' found
        obtain ⟨lookup, within', _⟩ := within.getItem found
        split at pushed
        · rename_i last' height' blocks' rest
          simp only [Except.ok.injEq, Prod.mk.injEq] at pushed
          obtain ⟨rfl, rfl, rfl⟩ := pushed
          obtain ⟨same, number, counted, line⟩ := ih within' rest
          have follows : block.num + 1 = tip.num := by omega
          refine ⟨same, continues.2, ?_, .cons lookup follows line⟩
          rw [List.length_cons, counted]
        · cases pushed
    · rename_i stops
      simp only [Except.ok.injEq, Prod.mk.injEq] at pushed
      obtain ⟨rfl, rfl, rfl⟩ := pushed
      have here : tip.num = a - 1 := by
        by_contra other
        exact stops ⟨other, honest⟩
      omega

/-- From a block of the store, the blocks are pushed. -/
theorem pushBlocks_stored (within : Within blockCache known)
    (stored : blockCache.store.chain[a - 1 + more]? = some tip) :
    ∃ last blocks, pushBlocks a more blockCache tip = .ok (last, a - 1, blocks) ∧
      last.num = a - 1 := by
  induction more generalizing blockCache tip with
  | zero => exact ⟨tip, [], rfl, blockCache.store.numbered _ _ stored⟩
  | succ more ih =>
    have number := blockCache.store.numbered _ _ stored
    obtain ⟨below, stored', child, _⟩ := BlockStore.predecessor stored
    obtain ⟨foundInStore, blockCache', found, within', same⟩ := within.getItem_stored child
    rw [← same] at stored'
    obtain ⟨last, blocks, rest, honest⟩ := ih within' stored'
    refine ⟨last, tip :: blocks, ?_, honest⟩
    rw [pushBlocks, if_pos ⟨by omega, by omega⟩]
    simp only [found, rest]

/-! ## The answer -/

/-- What the cache holds is known. -/
theorem lookup_of_cached {block below : BlockWrapper}
    (cached : blockCache.cache block.previousBlockId = some below) :
    blockCache.lookup block.previousBlockId = some below := by
  simp only [BlockCache.lookup, cached]

/-- When the cache is left honestly, the tip is on the line of the head. -/
theorem findTip_line (agrees : blockCache.Agrees) (honest : LeavesHonestly blockCache head b)
    (found : findTip b blockCache more head = .ok (tip, height, blockCache'))
    (matching : tip.num = height) :
    height = b ∧ ∃ above, Line blockCache.parent head above tip := by
  obtain ⟨rfl, _, ends⟩ := findTip_ok found matching
  refine ⟨rfl, ?_⟩
  rcases ends with ⟨_, blocks, line⟩ | ⟨jumped, blocks, block, below, leaves, _⟩
  · exact ⟨blocks, line.mono fun _ _ => lookup_of_cached⟩
  · have follows : below.num + 1 = block.num := by
      rcases honest blocks block below leaves.line leaves.above leaves.missing leaves.stored with
        follows | missing
      · exact follows
      · rw [jumped] at missing
        cases missing
    have stored := BlockStore.index_of_get leaves.stored
    obtain ⟨more', number⟩ : ∃ more', below.num = height + more' :=
      ⟨below.num - height, by have := leaves.above; omega⟩
    rw [number] at stored
    obtain ⟨rest, tip', found', line⟩ := BlockStore.line stored
    rw [BlockStore.getBlockByNumber_eq, found', Option.some.injEq] at jumped
    subst jumped
    have child : blockCache.lookup block.previousBlockId = some below :=
      (within_self agrees).stored _ _ leaves.stored
    have upper : Line blockCache.parent head blocks block :=
      leaves.line.mono fun _ _ => lookup_of_cached
    have lower : Line blockCache.parent below rest tip' :=
      line.mono fun _ _ => (within_self agrees).stored _ _
    exact ⟨_, upper.append (.cons child follows lower)⟩

/-- An answer has the ancestors of the head when the cache is left honestly. -/
theorem rewardBlocks_faithful {response : RewardListResponse} (agrees : blockCache.Agrees)
    (positive : 0 < a) (ordered : a < b) (honest : LeavesHonestly blockCache head b)
    (answered : rewardBlocks blockCache head b a = .ok response) :
    Faithful blockCache head a b response.blocks := by
  unfold rewardBlocks at answered
  split at answered
  · cases answered
  · rename_i tip height blockCache' found
    split at answered
    · cases answered
    · rename_i last height' blocks pushed
      split at answered
      · cases answered
      · rename_i matches'
        have matching : last.num = height' := not_not.mp matches'
        simp only [Except.ok.injEq] at answered
        subst answered
        obtain ⟨enough, within⟩ := findTip_within (within_self agrees) found
        obtain ⟨rfl, number, counted, lower⟩ := pushBlocks_ok within pushed matching
        obtain ⟨rfl, above, upper⟩ := findTip_line agrees honest found (by omega)
        refine ⟨above, last, ?_, by omega, ?_⟩
        · rw [List.reverse_reverse]
          exact upper.append lower
        · rw [List.length_reverse, counted]
          omega

/-- Where the cache is left, there is an answer when the store has a block at the height. -/
theorem rewardBlocks_leaves (agrees : blockCache.Agrees) (positive : 0 < a) (ordered : a < b)
    (leaves : Leaves blockCache head b blocks block below)
    (jumped : blockCache.store.getBlockByNumber b = some tip) :
    ∃ response, rewardBlocks blockCache head b a = .ok response := by
  have long := leaves.line.num
  have above := leaves.above
  have found := findTip_leaves leaves jumped (show head.num = b + (head.num - b) by omega)
  have within := (within_self agrees).setItem leaves.stored
  have stored : (blockCache.setItem block.previousBlockId below).store.chain[
      a - 1 + (b - (a - 1))]? = some tip := by
    rw [BlockStore.getBlockByNumber_eq] at jumped
    rw [show a - 1 + (b - (a - 1)) = b by omega]
    exact jumped
  obtain ⟨last, pushed, pushes, matching⟩ := pushBlocks_stored within stored
  refine ⟨⟨last.headerSignature, pushed.reverse⟩, ?_⟩
  unfold rewardBlocks
  simp only [found, pushes, ne_eq, matching, not_true_eq_false, if_false]

variable {request : RewardListRequest}

end Faithful

/-! ## A dishonest head -/

/-- The identifier of the head of the sample. -/
def sampleHeadId : Text := List.replicate 128 'f'

end Creditcoin.Validator
