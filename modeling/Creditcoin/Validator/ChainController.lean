import Creditcoin.Lib.Run
import Creditcoin.PoW.Heads
import Creditcoin.Validator.ForkDiff
import Creditcoin.Validator.Peers
import Creditcoin.Validator.Validation

/-!
# The chain controller

The controller hands the blocks that it receives to threads that verify them against the chain head
of the moment, and lets blocks wait whose predecessor is verified or waits. A thread ends in a
callback, which moves the head, resubmits, or drops what waits for an invalid block. Blocks come,
threads start and end, and the cache loses blocks in any order.
-/

namespace Creditcoin.Validator

open Lib (Run Transition)
open PoW (Block Py)

/-- What the controller needs of the block store, which is a database under block identifiers. -/
structure ChainStore (σ : Type) where
  /-- `block_store[block_id]`. -/
  get : σ → Text → Option Block
  /-- `chain_head`. -/
  chainHead : σ → Option Block
  /-- `update_chain(new_chain, old_chain)`. -/
  updateChain : σ → List Block → List Block → σ
  /-- The chain head is in the store. -/
  get_chainHead : ∀ {store block}, chainHead store = some block →
    get store block.headerSignature = some block
  /-- A store that holds a block has a chain head. -/
  chainHead_isSome : ∀ {store id block}, get store id = some block → (chainHead store).isSome
  /-- The blocks of the old chain go, those of the new one come. -/
  get_updateChain : ∀ {store new old id},
    (∀ block ∈ new, ∀ block' ∈ old, block.headerSignature ≠ block'.headerSignature) →
    (new.map fun block : Block => block.headerSignature).Nodup →
    get (updateChain store new old) id =
      match new.find? fun block : Block => block.headerSignature == id with
      | some block => some block
      | none => if ∃ block ∈ old, block.headerSignature = id then none else get store id

/-- How `validate_block` ends for a block. -/
inductive Verdict where
  /-- It returns `True` for a valid block. -/
  | valid
  /-- It returns `False` for a block that it marks invalid. -/
  | invalid
  /-- It returns `False` and marks nothing. -/
  | unmarked
  /-- It raises `ChainHeadUpdated`. -/
  | chainHeadUpdated
  deriving DecidableEq

/-- What a verification comes upon. -/
structure Verifier where
  /-- What the block cache finds. -/
  cache : PoW.BlockCache
  /-- `validate_block`. -/
  validateBlock : Block → Verdict
  /-- `compare_forks`. -/
  compareForks : Block → Block → Py Bool
  /-- Whether `_get_batch_commit_changes` returns. -/
  changes : List Block → List Block → Bool

/-- `BlockValidationResult`, with the statuses that the verification assigns. -/
structure BlockValidationResult where
  block : Block
  chainHead : Option Block
  newChain : List Block
  currentChain : List Block
  statuses : List (Text × BlockStatus)

namespace Verifier

variable (verifier : Verifier)

/-- The loop of `process_block_verification` over the new chain from its end: whether all blocks are
valid, nothing when the chain head has changed, and the statuses assigned. -/
def validateChain : List Block → Bool → List (Text × BlockStatus) →
    Option Bool × List (Text × BlockStatus)
  | [], valid, statuses => (some valid, statuses)
  | blk :: rest, true, statuses =>
    match verifier.validateBlock blk with
    | .valid => validateChain rest true (statuses ++ [(blk.headerSignature, .valid)])
    | .invalid => validateChain rest false (statuses ++ [(blk.headerSignature, .invalid)])
    | .unmarked => validateChain rest false statuses
    | .chainHeadUpdated => (none, statuses)
  | blk :: rest, false, statuses =>
    validateChain rest false (statuses ++ [(blk.headerSignature, .invalid)])

/-- Whether the forks are compared for the new one, and all that follows returns. -/
def commits (chainHead block : Block) (newChain currentChain : List Block) : Bool :=
  match verifier.compareForks chainHead block with
  | .ok true => verifier.changes newChain currentChain && !newChain.isEmpty
  | _ => false

/-- `process_block_verification`: the arguments of the callback. -/
def processBlockVerification (block : Block) (chainHead : Option Block) :
    Bool × BlockValidationResult :=
  match chainHead with
  | none => (false, ⟨block, none, [], [], []⟩)
  | some head =>
    match forkDiff verifier.cache head block with
    | .error (.blockValidationAborted marked) =>
      (false, ⟨block, chainHead, [], [], marked.map fun blk => (blk.headerSignature, .invalid)⟩)
    | .error .keyError => (false, ⟨block, chainHead, [], [], []⟩)
    | .ok (newChain, currentChain) =>
      let (valid, statuses) := verifier.validateChain newChain.reverse true []
      (decide (valid = some true) && verifier.commits head block newChain currentChain,
        ⟨block, chainHead, newChain, currentChain, statuses⟩)

end Verifier

/-- A thread that verifies a block: it has read the chain head, or waits in the pool. -/
structure VerifierThread where
  block : Block
  reading : Option (Option Block)
  deriving DecidableEq

/-- `ChainController`, with the threads of the block validator. -/
structure ChainController (σ : Type) where
  /-- `_chain_head`. -/
  chainHead : Option Block
  /-- `_block_store`. -/
  blockStore : σ
  /-- `_block_cache`, but for its store. -/
  blockCache : Dict Block
  /-- `_blocks_processing`. -/
  blocksProcessing : Finset Text
  /-- `_blocks_pending`. -/
  blocksPending : Dict (List Block)
  /-- The chain id that `_chain_id_manager` has saved. -/
  chainId : Option Text
  /-- The statuses of blocks. -/
  statuses : Dict BlockStatus
  /-- The threads of the block validator. -/
  threads : List VerifierThread

namespace ChainController

variable {σ : Type} (store : ChainStore σ) (controller : ChainController σ)

/-- The identifiers of some blocks. -/
def idsOf (blocks : List Block) : List Text := blocks.map fun block => block.headerSignature

/-- `_submit_blocks_for_verification`. -/
def submitBlocksForVerification (blocks : List Block) : ChainController σ :=
  { controller with
    blocksProcessing := controller.blocksProcessing ∪ (idsOf blocks).toFinset
    threads := controller.threads ++ blocks.map fun block => ⟨block, none⟩ }

/-- `_verify_block_again`. -/
def verifyBlockAgain (newBlock : Block) (descendantBlocks : List Block) : ChainController σ :=
  submitBlocksForVerification { controller with
    blocksPending :=
      controller.blocksPending.insert newBlock.headerSignature descendantBlocks } [newBlock]

/-- `_chain_changed_on_validation`. -/
def chainChangedOnValidation (newBlock : Block) (descendantBlocks : List Block) :
    ChainController σ :=
  if descendantBlocks = [] then controller.verifyBlockAgain newBlock []
  else controller.submitBlocksForVerification descendantBlocks

/-- The blocks that wait for a block. -/
def pendingOn (id : Text) : List Block := (controller.blocksPending.lookup id).getD []

/-- The loop of `on_block_validated` over the descendants of an invalid block, for so many passes at
most: the last one is marked, and what waits for it is added. They are listed with the last one
first. -/
def dropDescendants : Nat → ChainController σ → List Block → ChainController σ
  | 0, controller, _ => controller
  | _ + 1, controller, [] => controller
  | passes + 1, controller, pendingBlock :: rest =>
    dropDescendants passes { controller with
      statuses := controller.statuses.insert pendingBlock.headerSignature .invalid
      blocksPending := controller.blocksPending.erase pendingBlock.headerSignature }
      ((controller.pendingOn pendingBlock.headerSignature).reverse ++ rest)

/-- How many blocks wait. -/
def waiting : Nat :=
  (controller.blocksPending.keys.map fun id => (controller.pendingOn id).length).sum

/-- `on_block_validated`, when the lock of the chain head is acquired in time or not. What it raises
is logged. -/
def onBlockValidated (acquired commitNewBlock : Bool) (result : BlockValidationResult) :
    ChainController σ :=
  let newBlock := result.block
  if newBlock.headerSignature ∉ controller.blocksProcessing then controller
  else
    let descendantBlocks := controller.pendingOn newBlock.headerSignature
    let popped := { controller with
      blocksProcessing := controller.blocksProcessing.erase newBlock.headerSignature
      blocksPending := controller.blocksPending.erase newBlock.headerSignature }
    match result.chainHead, controller.chainHead with
    | some resultHead, some chainHead =>
      if resultHead.headerSignature ≠ chainHead.headerSignature then
        popped.chainChangedOnValidation newBlock descendantBlocks
      else if commitNewBlock then
        if acquired then
          submitBlocksForVerification { popped with
            chainHead := some newBlock
            blockStore :=
              store.updateChain popped.blockStore result.newChain result.currentChain }
            descendantBlocks
        else popped.verifyBlockAgain newBlock descendantBlocks
      else if popped.statuses.lookup newBlock.headerSignature = some .invalid then
        popped.dropDescendants (popped.waiting + descendantBlocks.length) descendantBlocks.reverse
      else popped.submitBlocksForVerification descendantBlocks
    | _, _ => popped

/-- `block_id in self._block_cache`. -/
def cached (blockId : Text) : Bool :=
  decide (blockId ∈ controller.blockCache) || (store.get controller.blockStore blockId).isSome

/-- `has_block`. -/
def hasBlock (blockId : Text) : Bool :=
  controller.cached store blockId || decide (blockId ∈ controller.blocksProcessing) ||
    decide (blockId ∈ controller.blocksPending)

/-- `_set_genesis`, with what `validate_block` returns. -/
def setGenesis (valid : Bool) (block : Block) : ChainController σ :=
  if block.previousBlockId = nullBlockIdentifier then
    if controller.chainId ≠ none ∧ controller.chainId ≠ some block.headerSignature then controller
    else if valid then
      { controller with
        chainId := some (controller.chainId.getD block.headerSignature)
        blockStore := store.updateChain controller.blockStore [block] []
        chainHead := some block }
    else controller
  else controller

/-- `on_block_received`. -/
def onBlockReceived (valid : Bool) (block : Block) : ChainController σ :=
  if controller.hasBlock store block.headerSignature then controller
  else if controller.chainHead = none then controller.setGenesis store valid block
  else if block.headerSignature ∈ controller.blocksProcessing then controller
  else
    let received := { controller with
      blockCache := controller.blockCache.insert block.headerSignature block
      blocksPending := controller.blocksPending.insert block.headerSignature [] }
    if block.previousBlockId ∈ received.blocksProcessing ∨
        block.previousBlockId ∈ received.blocksPending then
      let pendingBlocks := received.pendingOn block.previousBlockId
      { received with
        blocksPending := received.blocksPending.insert block.previousBlockId
          (if block ∈ pendingBlocks then pendingBlocks else pendingBlocks ++ [block]) }
    else received.submitBlocksForVerification [block]

/-! ## Steps -/

/-- What happens to the controller. -/
inductive Event where
  /-- A block is received; as a genesis block it is valid or not. -/
  | received (block : Block) (valid : Bool)
  /-- A thread reads the chain head. -/
  | started (id : Text)
  /-- A thread verifies its block and calls back. -/
  | verified (id : Text) (verifier : Verifier) (acquired : Bool)
  /-- The block cache loses blocks. -/
  | purged (ids : List Text)

/-- The controller with the statuses that a verification assigns. -/
def assign (statuses : List (Text × BlockStatus)) : ChainController σ :=
  { controller with
    statuses := statuses.foldl (fun known entry => known.insert entry.1 entry.2)
      controller.statuses }

/-- A thread reads the chain head of the store. -/
def start (id : Text) : ChainController σ :=
  { controller with
    threads := controller.threads.map fun thread =>
      if thread.block.headerSignature = id ∧ thread.reading = none then
        { thread with reading := some (store.chainHead controller.blockStore) }
      else thread }

/-- A thread that has read a chain head verifies its block, calls back, and is done. -/
def verify (id : Text) (verifier : Verifier) (acquired : Bool) : ChainController σ :=
  match controller.threads.find? fun thread => thread.block.headerSignature == id with
  | some ⟨block, some chainHead⟩ =>
    let (commitNewBlock, result) := verifier.processBlockVerification block chainHead
    ({ controller.assign result.statuses with
      threads := controller.threads.eraseP fun thread =>
        thread.block.headerSignature == id }).onBlockValidated store acquired commitNewBlock result
  | _ => controller

/-- The controller after an event. -/
def next : Event → ChainController σ
  | .received block valid => controller.onBlockReceived store valid block
  | .started id => controller.start store id
  | .verified id verifier acquired => controller.verify store id verifier acquired
  | .purged ids => { controller with
      blockCache := ids.foldl (fun known id => known.erase id) controller.blockCache }

/-- `ChainController.__init__`, with `_set_chain_head_from_block_store`. -/
def init (blockStore : σ) (chainId : Option Text) : ChainController σ :=
  ⟨store.chainHead blockStore, blockStore, ∅, ∅, ∅, chainId, ∅, []⟩

/-- A step of the controller. The blocks that come are among the known ones, and the cache finds
known ones. -/
def Steps (known : PoW.BlockCache) (before : ChainController σ) (event : Event)
    (after : ChainController σ) : Prop :=
  after = before.next store event ∧
    match event with
    | .received block _ => known.Holds block
    | .verified _ verifier _ => Subcache verifier.cache known
    | .started _ | .purged _ => True

end ChainController

end Creditcoin.Validator
