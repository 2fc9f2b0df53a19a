import Creditcoin.Batching
import Creditcoin.Determinism
import Creditcoin.Validator.RewardBlocks

/-!
# Rewards of a published block

The node that builds a block asks for the signers of the rewarded heights one by one, and the nodes
that validate it ask for all of them at once, as the predecessors of the block. The two answers are
the same for two to twenty heights, as long as the block is not far above them or the store has
their chain.
-/

namespace Creditcoin.Validator

open Lib

/-- A chain of blocks up to a head in the cache, by number. -/
structure Ancestry (blockCache : BlockCache) (head : BlockWrapper) (chain : List BlockWrapper) :
    Prop where
  /-- The head has an identifier. -/
  identified : isBlockId head.headerSignature = true
  /-- The head is in the cache. -/
  cached : blockCache.cache head.headerSignature = some head
  /-- The cache agrees with the store. -/
  agrees : blockCache.Agrees
  /-- The blocks have consecutive numbers. -/
  numbered : ∀ (i : Nat) (block : BlockWrapper), chain[i]? = some block → block.num = i
  /-- Every block names the one before it. -/
  linked : ∀ (i : Nat) (block next : BlockWrapper), chain[i]? = some block →
    chain[i + 1]? = some next → blockCache.parent next = some block
  /-- The head is on top. -/
  top : chain[head.num]? = some head

/-- The signers of the heights between two are found in a chain. -/
def SignedBy (chain : List BlockWrapper) (a b : Nat) (signers : List Text) : Prop :=
  signers.length = b + 1 - a ∧
    ∀ i < b + 1 - a, signers[i]? = (chain[a + i]?).map BlockWrapper.signerPublicKey

/-- The rewarded heights can be fetched together: they are two to twenty, and the head is not far
above them or the store has its chain there. -/
def Retrievable (blockCache : BlockCache) (head : BlockWrapper) (chain : List BlockWrapper)
    (last upto : Int) : Prop :=
  last + 1 < upto ∧ upto ≤ last + intervalLimit ∧
    (head.num ≤ upto.toNat + depthLimit ∨
      blockCache.store.getBlockByNumber upto.toNat = chain[upto.toNat]?)

/-- The environment of a block; a block that is being built has no signature. -/
def forBlock (env : Env) (blockSignature : Text) : Env :=
  { env with blockSignature := blockSignature }

/-- The signers come from a chain: by number, and together from the answers to requests for the
predecessors of the head. -/
structure Fetches (env : Env) (blockCache : BlockCache) (head : BlockWrapper)
    (chain : List BlockWrapper) : Prop where
  /-- The head is not below the tip. -/
  below : env.head ≤ head.num
  /-- The signer of a height. -/
  byNum : ∀ height block, chain[height]? = some block →
    env.getSigByNum (UInt64.ofNat height) = .ok block.signerPublicKey
  /-- An answer has the signers of its blocks. -/
  together : ∀ (first last : UInt64) (response : RewardListResponse),
    RewardListRequest.respond ⟨head.headerSignature, first.toNat, last.toNat⟩ blockCache =
      .ok response →
    env.getRewardBlockSignatures head.headerSignature first last =
      .ok (response.blocks.map BlockWrapper.signerPublicKey)
  /-- A request that is refused gets no signers. -/
  refused : ∀ (first last : UInt64) (status : RewardStatus),
    RewardListRequest.respond ⟨head.headerSignature, first.toNat, last.toNat⟩ blockCache =
      .error status →
    env.getRewardBlockSignatures head.headerSignature first last = .ok [] ∨
      ∃ failure, env.getRewardBlockSignatures head.headerSignature first last = .error failure

/-- A `Housekeeping` rewards the heights up to one. -/
def RewardsUpTo (env : Env) (last blockIdx upto : Int) : Prop :=
  blockIdx = 0 ∧ last + confirmationCount * 2 + blockRewardProcessingCount < env.head ∧
      upto = last + blockRewardProcessingCount ∨
    env.Passes last blockIdx ∧ upto = blockIdx

section Ancestry

variable {blockCache : BlockCache} {head tip block below last : BlockWrapper}
  {chain blocks : List BlockWrapper} {a b more : Nat}

/-- The blocks of a line from a block of the chain are blocks of the chain, with falling numbers. -/
theorem Ancestry.line (ancestry : Ancestry blockCache head chain)
    (stored : chain[tip.num]? = some tip) (line : Line blockCache.parent tip blocks last) :
    chain[last.num]? = some last ∧
      ∀ i < blocks.length, blocks.reverse[i]? = chain[last.num + 1 + i]? := by
  induction line with
  | nil => exact ⟨stored, fun i inside => absurd inside (Nat.not_lt_zero i)⟩
  | @cons block below last blocks child follows rest ih =>
    have inside : below.num < chain.length := by
      have bound := (List.getElem?_eq_some_iff.mp stored).1
      omega
    have lower : chain[below.num]? = some below := by
      have found := List.getElem?_eq_getElem inside
      rw [← follows] at stored
      rw [ancestry.linked _ _ _ found stored, Option.some.injEq] at child
      rw [found, child]
    obtain ⟨reached, each⟩ := ih lower
    refine ⟨reached, fun i within => ?_⟩
    have long := rest.num
    rw [List.reverse_cons]
    rw [List.length_cons] at within
    by_cases under : i < blocks.length
    · rw [List.getElem?_append_left (by rw [List.length_reverse]; exact under), each i under]
    · have same : i = blocks.length := by omega
      have place : last.num + 1 + i = block.num := by omega
      rw [List.getElem?_append_right (by rw [List.length_reverse]; omega), List.length_reverse,
        same,
        Nat.sub_self, ← same, place, stored]
      rfl

/-- The parent of a block of the chain. -/
theorem Ancestry.parent (ancestry : Ancestry blockCache head chain)
    (stored : chain[b + 1]? = some block) :
    ∃ below, chain[b]? = some below ∧ blockCache.parent block = some below ∧
      below.num + 1 = block.num := by
  have inside : b < chain.length := by
    have bound := (List.getElem?_eq_some_iff.mp stored).1
    omega
  have found := List.getElem?_eq_getElem inside
  refine ⟨_, found, ancestry.linked _ _ _ found stored, ?_⟩
  rw [ancestry.numbered _ _ found, ancestry.numbered _ _ stored]

/-- From a block of the chain, the cache is left before a height, or leads down to it. -/
theorem Ancestry.walk (ancestry : Ancestry blockCache head chain)
    (stored : chain[b + more]? = some block) :
    (∃ blocks last below, Leaves blockCache block b blocks last below) ∨
      ∃ blocks tip, chain[b]? = some tip ∧ Line blockCache.cachedParent block blocks tip := by
  induction more generalizing block with
  | zero => exact .inr ⟨[], block, stored, .nil⟩
  | succ more ih =>
    have number := ancestry.numbered _ _ stored
    obtain ⟨below, lower, child, follows⟩ := ancestry.parent stored
    cases cached : blockCache.cache block.previousBlockId with
    | none =>
      have found : blockCache.store.get block.previousBlockId = some below := by
        simpa only [BlockCache.parent, BlockCache.lookup, cached] using child
      exact .inl ⟨[], block, below, .nil, by omega, cached, found⟩
    | some other =>
      have same : other = below := by
        simpa only [BlockCache.parent, BlockCache.lookup, cached, Option.some.injEq] using child
      rw [same] at cached
      rcases ih lower with ⟨blocks, last, under, leaves⟩ | ⟨blocks, tip, found, line⟩
      · exact .inl ⟨block :: blocks, last, under, .cons cached follows leaves.line, leaves.above,
          leaves.missing, leaves.stored⟩
      · exact .inr ⟨block :: blocks, tip, found, .cons cached follows line⟩

/-- A chain is left honestly. -/
theorem Ancestry.leavesHonestly (ancestry : Ancestry blockCache head chain)
    (stored : chain[tip.num]? = some tip) : LeavesHonestly blockCache tip b := by
  intro blocks above below line high missing found
  left
  obtain ⟨reached, _⟩ := ancestry.line stored (line.mono fun _ _ => lookup_of_cached)
  obtain ⟨n, number⟩ : ∃ n, above.num = n + 1 := ⟨above.num - 1, by omega⟩
  rw [number] at reached
  obtain ⟨parent, _, child, follows⟩ := ancestry.parent reached
  have same : below = parent := by
    simpa only [BlockCache.parent, BlockCache.lookup, missing, found, Option.some.injEq] using child
  exact same ▸ follows

/-- Along a line in the cache the loop ends at its last block. -/
theorem findTip_cached (line : Line blockCache.cachedParent head blocks tip) (at_b : tip.num = b)
    (number : head.num = b + more) :
    findTip b blockCache more head = .ok (tip, b, blockCache) := by
  induction line generalizing more with
  | nil =>
    obtain rfl : more = 0 := by omega
    rfl
  | cons child follows rest ih =>
    have long := rest.num
    obtain ⟨more, rfl⟩ : ∃ less, more = less + 1 := ⟨more - 1, by omega⟩
    rw [findTip, if_pos ⟨by omega, number⟩]
    simp only [BlockCache.getItem, child, Bool.false_eq_true, if_false]
    exact ih at_b (by omega)

/-- From a block of the chain, the blocks are pushed. -/
theorem Ancestry.pushBlocks (ancestry : Ancestry blockCache head chain)
    (stored : chain[a - 1 + more]? = some tip) :
    ∃ last blocks, pushBlocks a more blockCache tip = .ok (last, a - 1, blocks) ∧
      last.num = a - 1 := by
  induction more generalizing tip with
  | zero => exact ⟨tip, [], rfl, ancestry.numbered _ _ stored⟩
  | succ more ih =>
    have number := ancestry.numbered _ _ stored
    obtain ⟨below, lower, child, follows⟩ := ancestry.parent stored
    have goes : tip.num ≠ a - 1 ∧ tip.num = a - 1 + (more + 1) := ⟨by omega, number⟩
    cases cached : blockCache.cache tip.previousBlockId with
    | some other =>
      have same : other = below := by
        simpa only [BlockCache.parent, BlockCache.lookup, cached, Option.some.injEq] using child
      obtain ⟨last, blocks, rest, honest⟩ := ih lower
      refine ⟨last, tip :: blocks, ?_, honest⟩
      rw [Validator.pushBlocks, if_pos goes]
      simp only [BlockCache.getItem, cached, same, rest]
    | none =>
      have found : blockCache.store.get tip.previousBlockId = some below := by
        simpa only [BlockCache.parent, BlockCache.lookup, cached] using child
      have place := BlockStore.index_of_get found
      rw [ancestry.numbered _ _ lower] at place
      have within := (within_self ancestry.agrees).setItem found
      obtain ⟨last, blocks, rest, honest⟩ := pushBlocks_stored within
        (show (blockCache.setItem tip.previousBlockId below).store.chain[a - 1 + more]? = some below
          from place)
      refine ⟨last, tip :: blocks, ?_, honest⟩
      rw [Validator.pushBlocks, if_pos goes]
      simp only [BlockCache.getItem, cached, found, rest]

/-- From a block of the chain there is an answer. -/
theorem Ancestry.answered (ancestry : Ancestry blockCache head chain)
    (stored : chain[tip.num]? = some tip) (positive : 0 < a) (ordered : a < b) (high : b ≤ tip.num) :
    ∃ response, rewardBlocks blockCache tip b a = .ok response := by
  obtain ⟨more, number⟩ : ∃ more, tip.num = b + more := ⟨tip.num - b, by omega⟩
  rw [number] at stored
  rcases ancestry.walk stored with ⟨blocks, last, below, leaves⟩ | ⟨blocks, low, found, line⟩
  · have place := BlockStore.index_of_get leaves.stored
    have reached := (ancestry.line (number ▸ stored) (leaves.line.mono fun _ _ =>
      lookup_of_cached)).1
    obtain ⟨n, above⟩ : ∃ n, last.num = n + 1 := ⟨last.num - 1, by have := leaves.above; omega⟩
    rw [above] at reached
    obtain ⟨parent, _, child, follows⟩ := ancestry.parent reached
    have same : below = parent := by
      simpa only [BlockCache.parent, BlockCache.lookup, leaves.missing, leaves.stored,
        Option.some.injEq] using child
    have inside : b < blockCache.store.chain.length := by
      have bound := (List.getElem?_eq_some_iff.mp place).1
      have higher := leaves.above
      rw [same] at bound
      omega
    have jumped : blockCache.store.getBlockByNumber b = some blockCache.store.chain[b] := by
      rw [BlockStore.getBlockByNumber_eq, List.getElem?_eq_getElem inside]
    exact rewardBlocks_leaves ancestry.agrees positive ordered leaves jumped
  · have tipped := findTip_cached line (ancestry.numbered _ _ found) number
    have place : chain[a - 1 + (b - (a - 1))]? = some low := by
      rw [show a - 1 + (b - (a - 1)) = b by omega]
      exact found
    obtain ⟨last, pushed, pushes, matching⟩ := ancestry.pushBlocks place
    refine ⟨⟨last.headerSignature, pushed.reverse⟩, ?_⟩
    unfold rewardBlocks
    rw [show tip.num - b = more by omega]
    simp only [tipped, pushes, ne_eq, matching, not_true_eq_false, if_false]

/-- The answer from a block of the chain has the signers of the heights. -/
theorem Ancestry.signers (ancestry : Ancestry blockCache head chain)
    (stored : chain[tip.num]? = some tip) (positive : 0 < a) (ordered : a < b)
    {response : RewardListResponse} (answered : rewardBlocks blockCache tip b a = .ok response) :
    SignedBy chain a b (response.blocks.map BlockWrapper.signerPublicKey) := by
  obtain ⟨above, last, line, number, counted⟩ := rewardBlocks_faithful ancestry.agrees positive
    ordered (ancestry.leavesHonestly stored) answered
  obtain ⟨_, each⟩ := ancestry.line stored line
  refine ⟨by rw [List.length_map, counted], fun i inside => ?_⟩
  have within : i < response.blocks.length := by omega
  have found := each i (by rw [List.length_append, List.length_reverse]; omega)
  rw [List.reverse_append, List.reverse_reverse, List.getElem?_append_left within, number] at found
  rw [List.getElem?_map, found]

/-- A request for retrievable heights is answered with their signers. -/
theorem Ancestry.respond (ancestry : Ancestry blockCache head chain) {last upto : Int}
    (nonneg : 0 ≤ last) (high : upto < head.num)
    (retrievable : Retrievable blockCache head chain last upto) :
    ∃ response, RewardListRequest.respond ⟨head.headerSignature, upto.toNat, (last + 1).toNat⟩
        blockCache = .ok response ∧
      SignedBy chain (last + 1).toNat upto.toNat
        (response.blocks.map BlockWrapper.signerPublicKey) := by
  obtain ⟨two, twenty, reach⟩ := retrievable
  have limit : intervalLimit = 20 := rfl
  have positive : 0 < (last + 1).toNat := by omega
  have ordered : (last + 1).toNat < upto.toNat := by omega
  have identified := ancestry.identified
  have answer {tip : BlockWrapper} (stored : chain[tip.num]? = some tip)
      (above : upto.toNat ≤ tip.num) : ∃ response,
        rewardBlocks blockCache tip upto.toNat (last + 1).toNat = .ok response ∧
          SignedBy chain (last + 1).toNat upto.toNat
            (response.blocks.map BlockWrapper.signerPublicKey) := by
    obtain ⟨response, answered⟩ := ancestry.answered stored positive ordered above
    exact ⟨response, answered, ancestry.signers stored positive ordered answered⟩
  unfold RewardListRequest.respond BlockCache.getItem
  rw [if_neg (by simp [identified])]
  simp only [ancestry.cached]
  rw [if_pos (by omega)]
  by_cases deep : (depthLimit : Int) < (head.num : Int) - upto.toNat
  · rw [if_pos deep]
    have jumps : blockCache.store.getBlockByNumber upto.toNat = chain[upto.toNat]? :=
      reach.resolve_left (by omega)
    have inside : upto.toNat < chain.length := by
      have bound := (List.getElem?_eq_some_iff.mp ancestry.top).1
      omega
    have found := List.getElem?_eq_getElem inside
    have number := ancestry.numbered _ _ found
    rw [jumps, found]
    exact answer (by rw [number, found]) (by omega)
  · rw [if_neg deep]
    exact answer ancestry.top (by omega)

variable {env : Env} {last upto : Int} {signers : List Text}

/-- The signers of the heights are fetched one by one. -/
theorem Fetches.heights (fetches : Fetches env blockCache head chain) (nonneg : 0 ≤ last)
    (signed : SignedBy chain (last + 1).toNat upto.toNat signers)
    (high : upto.toNat < chain.length) :
    List.Forall₂ (fun height signer => env.getSigByNum (UInt64.ofNat height.toNat) = .ok signer)
      (heightsAbove last (upto - last).toNat) signers := by
  obtain ⟨length, each⟩ := signed
  rw [List.forall₂_iff_get]
  refine ⟨by rw [heightsAbove_length, length]; omega, fun i inside within => ?_⟩
  rw [heightsAbove_length] at inside
  have bound : (last + 1).toNat + i < chain.length := by omega
  have found := List.getElem?_eq_getElem bound
  have signer := each i (by omega)
  rw [found, Option.map_some, List.getElem?_eq_getElem within, Option.some.injEq] at signer
  have height : (heightsAbove last (upto - last).toNat).get ⟨i, by simpa using inside⟩ =
      last + 1 + i := by
    simp [heightsAbove_eq]
  rw [height, show (last + 1 + (i : Int)).toNat = (last + 1).toNat + i by omega,
    fetches.byNum _ _ found, List.get_eq_getElem, signer]

/-- The node that builds a block and those that validate it reward the same blocks. -/
theorem Fetches.rewards_iff (fetches : Fetches env blockCache head chain)
    (ancestry : Ancestry blockCache head chain) (nonneg : 0 ≤ last) (high : upto < env.head)
    (retrievable : Retrievable blockCache head chain last upto) {blocks : List (Int × Text)} :
    (forBlock env []).Rewards last upto blocks ↔
      (forBlock env head.headerSignature).Rewards last upto blocks := by
  have above : upto < head.num := Int.lt_of_lt_of_le high fetches.below
  have two := retrievable.1
  have bound := (List.getElem?_eq_some_iff.mp ancestry.top).1
  obtain ⟨response, answered, signed⟩ := ancestry.respond nonneg above retrievable
  generalize named : response.blocks.map BlockWrapper.signerPublicKey = signers at signed
  have heights := fetches.heights nonneg signed (by omega)
  have word : head.num < 2 ^ 64 := head.blockNum.toNat_lt
  have first : (UInt64.ofNat upto.toNat).toNat = upto.toNat := by
    rw [UInt64.toNat_ofNat', Nat.mod_eq_of_lt (by omega)]
  have lowest : (UInt64.ofNat (last + 1).toNat).toNat = (last + 1).toNat := by
    rw [UInt64.toNat_ofNat', Nat.mod_eq_of_lt (by omega)]
  have together : env.getRewardBlockSignatures head.headerSignature (UInt64.ofNat upto.toNat)
      (UInt64.ofNat (last + 1).toNat) = .ok signers := by
    rw [← named]
    apply fetches.together
    rw [first, lowest]
    exact answered
  have count : signers.length = (upto - last).toNat := by
    rw [signed.1]
    omega
  have present : head.headerSignature ≠ [] := by
    intro missing
    have identified := ancestry.identified
    rw [missing] at identified
    exact absurd identified (by decide)
  constructor
  · intro fetched
    cases fetched with
    | built building fetched =>
      rename_i signers'
      have same : signers' = signers := by
        refine List.right_unique_forall₂' ?_ fetched heights
        intro height signer signer' one other
        exact Except.ok.inj (one.symm.trans other)
      rw [same, ← count]
      exact .validated present together
    | validated validating fetched => exact absurd rfl validating
  · intro fetched
    cases fetched with
    | built building fetched => exact absurd building present
    | validated validating fetched =>
      have same := Except.ok.inj (fetched.symm.trans together)
      rw [same, count]
      exact .built rfl heights

end Ancestry

/-! ## Two executions -/

section Executions

variable {sha : Sha512} {env : Env} {memory after : Memory} {blockIdx last : Int}
  {blockCache : BlockCache} {head : BlockWrapper} {chain : List BlockWrapper}
  {signature signature' : Text} {blocks : List (Int × Text)}

/-- The node does not replay for any block. -/
theorem live_forBlock (live : env.Live) : (forBlock env signature).Live :=
  ⟨live.transitioning, live.replaying, live.tip⟩

/-- The listings are swept alike for any block. -/
theorem sweep_forBlock (live : env.Live) (settled : blockIdx < env.head - confirmationCount) :
    sweep sha blockIdx (forBlock env signature) memory = .ok ((), after) ↔
      sweep sha blockIdx (forBlock env signature') memory = .ok ((), after) := by
  have one : (forBlock env signature).Live := live_forBlock live
  have other : (forBlock env signature').Live := live_forBlock live
  rw [sweep_ok one settled, sweep_ok other settled]
  refine and_congr Iff.rfl ?_
  exact Exec.forEach_congr_ok fun _ _ _ => settle_elsewhere one

/-- A `Housekeeping` that rewards the same blocks takes the same path for any block. -/
theorem housekept_forBlock (live : env.Live)
    (same : ∀ upto, RewardsUpTo env last blockIdx upto →
      (forBlock env signature).Rewards last upto blocks →
        (forBlock env signature').Rewards last upto blocks)
    (path : Housekept sha (forBlock env signature) blockIdx last memory blocks after) :
    Housekept sha (forBlock env signature') blockIdx last memory blocks after := by
  have here : (forBlock env signature).Live := live_forBlock live
  cases path with
  | idle periodic early => exact .idle periodic early
  | rewarded periodic late formula fetched ran =>
    exact .rewarded periodic late formula (same _ (.inl ⟨periodic, late, rfl⟩) fetched)
      ((awards_elsewhere here).mp ran)
  | ignored explicit verified outside =>
    exact .ignored explicit ((verifyGatewaySigner_elsewhere here).mp verified) outside
  | settled explicit verified inside settled sweeps formula fetched ran =>
    have passes : env.Passes last blockIdx := ⟨explicit, by omega, by omega, settled⟩
    exact .settled explicit ((verifyGatewaySigner_elsewhere here).mp verified) inside settled
      ((sweep_forBlock live settled).mp sweeps) formula (same _ (.inr ⟨passes, rfl⟩) fetched)
      ((awards_elsewhere here).mp ran)

/-- A transaction is accepted while a block is built when it is accepted while the block is
validated, and both leave the same. -/
def ValidatesAsBuilt (sha : Sha512) (env : Env) (head : BlockWrapper) (payload : Json)
    (memory : Memory) : Prop :=
  ∀ after, apply sha payload (forBlock env []) memory = .ok ((), after) ↔
    apply sha payload (forBlock env head.headerSignature) memory = .ok ((), after)

/-- A `Housekeeping` whose rewarded heights can be fetched together validates as it was built. -/
theorem housekeeping_validates (live : env.Live) (fetches : Fetches env blockCache head chain)
    (ancestry : Ancestry blockCache head chain) {payload : Json}
    (read : payload.command = .ok (.housekeeping blockIdx))
    (retrievable : ∀ last upto, Processed sha memory.state last →
      RewardsUpTo env last blockIdx upto → Retrievable blockCache head chain last upto) :
    ValidatesAsBuilt sha env head payload memory := by
  intro after
  have built : (forBlock env []).Live := live_forBlock live
  have validated : (forBlock env head.headerSignature).Live := live_forBlock live
  have fetched {last upto : Int} {blocks : List (Int × Text)}
      (processed : Processed sha memory.state last) (goes : RewardsUpTo env last blockIdx upto) :
      (forBlock env []).Rewards last upto blocks ↔
        (forBlock env head.headerSignature).Rewards last upto blocks := by
    have high : upto < env.head := by
      have count : confirmationCount = 30 := rfl
      have step : blockRewardProcessingCount = 10 := rfl
      rcases goes with ⟨_, late, rfl⟩ | ⟨⟨_, _, _, settled⟩, rfl⟩
      · omega
      · omega
    exact fetches.rewards_iff ancestry processed.read.2 high (retrievable _ _ processed goes)
  rw [apply_housekeeping_ok built read, apply_housekeeping_ok validated read]
  refine and_congr Iff.rfl (and_congr Iff.rfl ?_)
  constructor
  · rintro ⟨last, blocks, processed, path⟩
    exact ⟨last, blocks, processed,
      housekept_forBlock live (fun _ goes => (fetched processed goes).mp) path⟩
  · rintro ⟨last, blocks, processed, path⟩
    exact ⟨last, blocks, processed,
      housekept_forBlock live (fun _ goes => (fetched processed goes).mpr) path⟩

end Executions

/-! ## A chain of a hundred blocks -/

/-- A block of the chain in the store. -/
def pastBlock (i : Nat) : BlockWrapper where
  headerSignature := [Char.ofNat (256 + i)]
  blockNum := UInt64.ofNat i
  previousBlockId := [Char.ofNat (255 + i)]
  signerPublicKey := investorKey
  stateRootHash := []
  batches := []

/-- What is in the chain. -/
theorem pastBlock_index {i : Nat} {block : BlockWrapper}
    (stored : ((List.range 100).map pastBlock)[i]? = some block) :
    i < 100 ∧ block = pastBlock i := by
  rw [List.getElem?_map, Option.map_eq_some_iff] at stored
  obtain ⟨j, found, rfl⟩ := stored
  obtain ⟨inside, rfl⟩ := List.getElem?_eq_some_iff.mp found
  rw [List.getElem_range]
  exact ⟨by simpa using inside, rfl⟩

/-- A store with the chain. -/
def pastStore : BlockStore where
  chain := (List.range 100).map pastBlock
  numbered i block stored := by
    obtain ⟨inside, rfl⟩ := pastBlock_index stored
    have numbers : ∀ i < 100, (pastBlock i).num = i := by decide
    exact numbers i inside
  linked i block next stored stored' := by
    obtain ⟨inside, rfl⟩ := pastBlock_index stored
    obtain ⟨_, rfl⟩ := pastBlock_index stored'
    have links : ∀ i < 100,
        (pastBlock (i + 1)).previousBlockId = (pastBlock i).headerSignature := by
      decide
    exact links i inside
  distinct := by decide +kernel

/-- The block that is built. -/
def pastHead : BlockWrapper :=
  { pastBlock 100 with headerSignature := sampleHeadId }

/-- The chain with the block. -/
def pastChain : List BlockWrapper := (List.range 100).map pastBlock ++ [pastHead]

/-- A cache with the block only. -/
def pastCache : BlockCache where
  cache blockId := if blockId = sampleHeadId then some pastHead else none
  store := pastStore
  expired _ _ := false

/-- The block and its chain are found. -/
theorem pastChain_ancestry : Ancestry pastCache pastHead pastChain := by
  have length : pastChain.length = 101 := by decide
  have checked : ∀ i < 101, (pastChain[i]?).map BlockWrapper.num = some i ∧
      (i < 100 → (pastChain[i + 1]?).bind pastCache.parent = pastChain[i]?) := by
    decide +kernel
  have inside {i : Nat} {block : BlockWrapper} (stored : pastChain[i]? = some block) : i < 101 :=
    length ▸ (List.getElem?_eq_some_iff.mp stored).1
  refine ⟨by decide +kernel, ?_, ?_, ?_, ?_, by decide +kernel⟩
  · change (if sampleHeadId = sampleHeadId then some pastHead else none) = some pastHead
    exact if_pos rfl
  · intro blockId block stored cached found
    have same : blockId = sampleHeadId := by
      by_contra other
      change (if blockId = sampleHeadId then some pastHead else none) = some block at cached
      rw [if_neg other] at cached
      cases cached
    subst same
    have missing : pastCache.store.get sampleHeadId = none := by decide
    rw [missing] at found
    cases found
  · intro i block stored
    have number := (checked i (inside stored)).1
    rw [stored, Option.map_some, Option.some.injEq] at number
    exact number
  · intro i block next stored stored'
    have above := inside stored'
    have link := (checked i (inside stored)).2 (by omega)
    rw [stored, stored', Option.bind_some] at link
    exact link

/-- The sample node of the gateway signer with the signers of the chain. -/
def fetchingNode : Env :=
  { updatedNode with
    getRewardBlockSignatures := fun headId first last =>
      match RewardListRequest.respond ⟨headId, first.toNat, last.toNat⟩ pastCache with
      | .ok response => .ok (response.blocks.map BlockWrapper.signerPublicKey)
      | .error _ => .error (.standard "no signatures".toList) }

/-- The environment of the sample block. -/
def pastEnv : Env := (Chain.empty 100).serve fetchingNode investorKey "1".toList

/-- Its signers come from the chain. -/
theorem pastEnv_fetches : Fetches pastEnv pastCache pastHead pastChain := by
  have length : pastChain.length = 101 := by decide +kernel
  have signers : ∀ i < 101,
      (pastChain[i]?).map BlockWrapper.signerPublicKey = some investorKey := by
    decide +kernel
  constructor
  · decide +kernel
  · intro height block stored
    have inside : height < 101 := length ▸ (List.getElem?_eq_some_iff.mp stored).1
    have signer := signers height inside
    rw [stored, Option.map_some, Option.some.injEq] at signer
    rw [signer]
    rfl
  · intro first last response answered
    simp only [pastEnv, Chain.serve, fetchingNode, answered]
  · intro first last status refused
    right
    simp only [pastEnv, Chain.serve, fetchingNode, refused, Except.error.injEq, exists_eq']

/-- The first ten blocks are rewarded while a block is built and while it is validated. -/
theorem housekeeping_validates_sample :
    (apply sample (keepHouse "0") (forBlock pastEnv []) ⟨∅, ∅⟩).isOk = true ∧
      ValidatesAsBuilt sample pastEnv pastHead (keepHouse "0") ⟨∅, ∅⟩ := by
  have serves : (Chain.empty 100).Serves pastEnv := Chain.serve_serves investorKey "1".toList
  have read : (keepHouse "0").command = .ok (.housekeeping 0) := by decide
  refine ⟨by decide +kernel,
    housekeeping_validates serves.live pastEnv_fetches pastChain_ancestry read ?_⟩
  intro last upto processed goes
  have start : Processed sample (Chain.empty 100).context 0 := processed_empty
  obtain rfl : last = 0 := processed.read.1.symm.trans start.read.1
  obtain rfl : upto = 10 := by
    rcases goes with ⟨_, _, same⟩ | ⟨⟨explicit, _⟩, _⟩
    · exact same
    · exact absurd rfl explicit
  exact ⟨by decide, by decide, .inl (by decide +kernel)⟩

/-- A block that rewards sixty blocks at once is built and fails to validate. -/
theorem rewards_unvalidated :
    ¬ ∀ (sha : Sha512) (tip : UInt64) (steps : List ChainStep) (chain : Chain) (env : Env)
        (blockCache : BlockCache) (head : BlockWrapper) (blocks : List BlockWrapper)
        (payload : Json) (blockIdx : Int), ChainRun sha tip steps chain → chain.Serves env →
        Fetches env blockCache head blocks → Ancestry blockCache head blocks →
        payload.command = .ok (.housekeeping blockIdx) →
        ValidatesAsBuilt sha env head payload ⟨chain.context, ∅⟩ := by
  intro claim
  have read : (keepHouse "60").command = .ok (.housekeeping 60) := by decide
  have outcomes :
      (apply sample (keepHouse "60") (forBlock pastEnv []) ⟨∅, ∅⟩).isOk = true ∧
      (apply sample (keepHouse "60") (forBlock pastEnv pastHead.headerSignature) ⟨∅, ∅⟩).isOk =
        false := by
    decide +kernel
  obtain ⟨built, validated⟩ := outcomes
  have agrees := claim sample 100 [] (Chain.empty 100) pastEnv pastCache pastHead pastChain
    (keepHouse "60") 60 .nil (Chain.serve_serves investorKey "1".toList) pastEnv_fetches
    pastChain_ancestry read
  cases ran : apply sample (keepHouse "60") (forBlock pastEnv []) ⟨∅, ∅⟩ with
  | error failure =>
    rw [ran] at built
    cases built
  | ok result =>
    have again := (agrees result.2).mp ran
    change apply sample (keepHouse "60") (forBlock pastEnv pastHead.headerSignature) ⟨∅, ∅⟩ = _
      at again
    rw [again] at validated
    cases validated

end Creditcoin.Validator
