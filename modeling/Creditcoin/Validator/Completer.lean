import Creditcoin.Validator.Blocks
import Creditcoin.Validator.ForkDiff
import Creditcoin.Validator.Peers

/-!
# The completer

Blocks and batches come from gossip in any order. The completer holds a batch back until it has seen
the transactions that the batch depends on, and a block until its predecessor and its batches are
there; what is missing it requests once. What completes is handed on, and what waited for it is
looked at again.
-/

namespace Creditcoin.Validator

/-- What the completer reads of a block. -/
structure GossipBlock extends BlockWrapper where
  /-- `header.batch_ids`. -/
  batchIds : List Text
  deriving DecidableEq

/-- What the completer asks of the chain. -/
structure ChainView where
  /-- `block_id in block_store`. -/
  stored : Text → Bool
  /-- `_has_block`. -/
  hasBlock : Text → Bool
  /-- `block_store.has_transaction`. -/
  hasTransaction : Text → Bool

/-- What the completer sends. -/
inductive Sent where
  /-- `_on_block_received`. -/
  | block (block : GossipBlock)
  /-- `_on_batch_received`. -/
  | batch (batch : Batch)
  /-- `broadcast_block_request`. -/
  | blockRequest (id : Text)
  /-- `broadcast_batch_by_batch_id_request`. -/
  | batchRequest (id : Text)
  /-- `broadcast_batch_by_transaction_id_request`. -/
  | transactionsRequest (ids : List Text)
  deriving DecidableEq

/-- `Completer`, with what it has sent. -/
structure Completer where
  /-- `batch_cache`. -/
  batchCache : Dict Batch
  /-- `block_cache`, but for its store. -/
  blockCache : Dict (Option GossipBlock)
  /-- `_seen_txns`: the batches of transactions. -/
  seenTxns : Dict Text
  /-- `_incomplete_batches`, by the transaction that they wait for. -/
  incompleteBatches : Dict (List Batch)
  /-- `_incomplete_blocks`, by the block or batch that they wait for. -/
  incompleteBlocks : Dict (List GossipBlock)
  /-- `_requested`. -/
  requested : Finset Text
  sent : List Sent

namespace Completer

variable (chain : ChainView) (completer : Completer)

/-- `Completer.__init__`. -/
def init : Completer where
  batchCache := ∅
  blockCache := AList.insert nullBlockIdentifier none ∅
  seenTxns := ∅
  incompleteBatches := ∅
  incompleteBlocks := ∅
  requested := ∅
  sent := []

/-- `block_id in self.block_cache`. -/
def cached (blockId : Text) : Bool :=
  decide (blockId ∈ completer.blockCache) || chain.stored blockId

/-- The batches that wait for a transaction. -/
def batchesOn (key : Text) : List Batch := (completer.incompleteBatches.lookup key).getD []

/-- The blocks that wait for a block or a batch. -/
def blocksOn (key : Text) : List GossipBlock := (completer.incompleteBlocks.lookup key).getD []

/-- A value at the end of a list that does not have it. -/
def appendNew {α : Type} [DecidableEq α] (values : List α) (value : α) : List α :=
  if value ∈ values then values else values ++ [value]

/-- A block waits for a block or a batch. -/
def awaitBlock (key : Text) (block : GossipBlock) : Completer :=
  { completer with
    incompleteBlocks :=
      completer.incompleteBlocks.insert key (appendNew (completer.blocksOn key) block) }

/-- A batch waits for a transaction. -/
def awaitBatch (key : Text) (batch : Batch) : Completer :=
  { completer with
    incompleteBatches :=
      completer.incompleteBatches.insert key (appendNew (completer.batchesOn key) batch) }

/-- An identifier is requested. -/
def request (key : Text) : Completer :=
  { completer with requested := insert key completer.requested }

/-- An identifier is no longer requested. -/
def unrequest (key : Text) : Completer :=
  { completer with requested := completer.requested.erase key }

/-- Something is sent. -/
def send (message : Sent) : Completer :=
  { completer with sent := completer.sent ++ [message] }

/-! ## Blocks -/

/-- The signatures of the batches that come with a block. -/
def heldIds (block : GossipBlock) : List Text := block.batches.map Batch.headerSignature

/-- The loop of `_complete_block` over the batch identifiers of a block with too few batches:
whether all are there. -/
def buildFrom (block : GossipBlock) : List Text → Bool → Completer → Completer × Bool
  | [], building, completer => (completer, building)
  | batchId :: rest, building, completer =>
    if batchId ∉ completer.batchCache ∧ batchId ∉ heldIds block then
      let waiting := completer.awaitBlock batchId block
      if batchId ∈ waiting.requested then (waiting, false)
      else buildFrom block rest false ((waiting.request batchId).send (.batchRequest batchId))
    else buildFrom block rest building completer

/-- `_finalize_batch_list`. Of batches of one signature in the block, the last one counts. -/
def finalizeBatchList (block : GossipBlock) : List Text → Option (List Batch)
  | [] => some []
  | batchId :: rest =>
    match completer.batchCache.lookup batchId with
    | some batch => (finalizeBatchList block rest).map (batch :: ·)
    | none =>
      match block.batches.reverse.find? fun batch => batch.headerSignature == batchId with
      | some batch => (finalizeBatchList block rest).map (batch :: ·)
      | none => none

/-- A block with other batches. -/
def withBatches (block : GossipBlock) (batches : List Batch) : GossipBlock :=
  { block with batches := batches }

/-- A block is complete with the batches of its header, if these are found. -/
def complete (block : GossipBlock) : Completer × Option GossipBlock :=
  match completer.finalizeBatchList block block.batchIds with
  | some batches => (completer.unrequest block.headerSignature, some (withBatches block batches))
  | none => (completer, none)

/-- `_complete_block`. Sorted lists are the same when one is a permutation of the other. -/
def completeBlock (block : GossipBlock) : Completer × Option GossipBlock :=
  if completer.cached chain block.headerSignature then (completer, none)
  else if ¬completer.cached chain block.previousBlockId ∧
      ¬chain.hasBlock block.previousBlockId then
    let waiting := completer.awaitBlock block.previousBlockId block
    if block.previousBlockId ∈ waiting.requested then (waiting, none)
    else
      ((waiting.request block.previousBlockId).send (.blockRequest block.previousBlockId), none)
  else if block.batches.length > block.batchIds.length then (completer, none)
  else if block.batches.length ≠ block.batchIds.length then
    match buildFrom block block.batchIds true completer with
    | (built, true) => built.complete block
    | (built, false) => (built, none)
  else if heldIds block = block.batchIds then
    (completer.unrequest block.headerSignature, some block)
  else if (heldIds block).Perm block.batchIds then completer.complete block
  else (completer, none)

/-- A complete block is cached and handed on. -/
def deliverBlock (block : GossipBlock) : Completer :=
  { completer with
    blockCache := completer.blockCache.insert block.headerSignature (some block) }.send
      (.block block)

/-- The loop of `_process_incomplete_blocks` over the blocks that waited for a key: those that are
complete now. -/
def completeBlocks : Completer → List GossipBlock → Completer × List Text
  | completer, [] => (completer, [])
  | completer, incBlock :: rest =>
    match completer.completeBlock chain incBlock with
    | (waiting, none) => completeBlocks waiting rest
    | (done, some block) =>
      let (finish, keys) := completeBlocks (done.deliverBlock block) rest
      (finish, block.headerSignature :: keys)

/-- The loop of `_process_incomplete_blocks` over the keys to complete, for so many passes at
most. -/
def completeKeys : Nat → Completer → List Text → Completer
  | 0, completer, _ => completer
  | _ + 1, completer, [] => completer
  | passes + 1, completer, myKey :: toComplete =>
    match completer.incompleteBlocks.lookup myKey with
    | none => completeKeys passes completer toComplete
    | some incBlocks =>
      let (done, keys) := completer.completeBlocks chain incBlocks
      completeKeys passes
        { done with incompleteBlocks := done.incompleteBlocks.erase myKey } (toComplete ++ keys)

/-- The blocks that wait. -/
def waitingBlocks : List GossipBlock :=
  completer.incompleteBlocks.keys.flatMap completer.blocksOn

/-- `_process_incomplete_blocks`. Each key to complete but the first is that of a block that
waited. -/
def processIncompleteBlocks (key : Text) : Completer :=
  completer.completeKeys chain (completer.waitingBlocks.length + 1) [key]

/-- `add_block`. -/
def addBlock (block : GossipBlock) : Completer :=
  match completer.completeBlock chain block with
  | (waiting, none) => waiting
  | (done, some block) =>
    (done.deliverBlock block).processIncompleteBlocks chain block.headerSignature

/-! ## Batches -/

/-- The transactions that a batch depends on. -/
def dependenciesOf (batch : Batch) : List Text :=
  batch.transactions.flatMap Transaction.dependencies

/-- The loops of `_complete_batch` over the dependencies of a batch: those to request, and whether
all are seen or in the chain. -/
def checkDependencies (batch : Batch) :
    List Text → List Text → Bool → Completer → Completer × List Text × Bool
  | [], dependencies, valid, completer => (completer, dependencies, valid)
  | dependency :: rest, dependencies, valid, completer =>
    if dependency ∉ completer.seenTxns ∧ ¬chain.hasTransaction dependency then
      if dependency ∈ completer.requested then
        checkDependencies batch rest dependencies false (completer.awaitBatch dependency batch)
      else
        checkDependencies batch rest (dependencies ++ [dependency]) false
          ((completer.request dependency).awaitBatch dependency batch)
    else checkDependencies batch rest dependencies valid completer

/-- `_complete_batch`. -/
def completeBatch (batch : Batch) : Completer × Bool :=
  match checkDependencies chain batch (dependenciesOf batch) [] true completer with
  | (checked, _, true) => (checked, true)
  | (checked, dependencies, false) => (checked.send (.transactionsRequest dependencies), false)

/-- The transactions of a batch. -/
def txnIds (batch : Batch) : List Text := batch.transactions.map Transaction.headerSignature

/-- `_add_seen_txns`. -/
def addSeenTxns (batch : Batch) : Completer :=
  { completer with
    seenTxns := (txnIds batch).foldl (fun seen id => seen.insert id batch.headerSignature)
      completer.seenTxns }

/-- A complete batch is cached and handed on. -/
def deliverBatch (batch : Batch) : Completer :=
  ({ completer with
    batchCache := completer.batchCache.insert batch.headerSignature batch }.addSeenTxns batch).send
      (.batch batch)

/-- `_process_incomplete_batches`, over `add_batch`. What is raised comes with the completer that it
leaves: the deletion raises a `KeyError` when a batch that was added has deleted the key. -/
def processIncompleteBatches (addBatch : Completer → Batch → Except Completer Completer)
    (key : Text) : Except Completer Completer :=
  match completer.incompleteBatches.lookup key with
  | none => .ok completer
  | some batches => do
    let added ← batches.foldlM addBatch completer
    if key ∈ added.incompleteBatches then
      .ok { added with incompleteBatches := added.incompleteBatches.erase key }
    else .error added

/-- A step of the last loop of `add_batch`, over the transactions of the batch. -/
def processTxn (addBatch : Completer → Batch → Except Completer Completer)
    (completer : Completer) (key : Text) : Except Completer Completer :=
  if key ∈ completer.incompleteBatches then
    (completer.unrequest key).processIncompleteBatches addBatch key
  else .ok completer

/-- `add_batch`, with how many calls of it the recursion limit allows within each other. Past the
limit a `RecursionError` is raised. -/
def addBatch : Nat → Completer → Batch → Except Completer Completer
  | 0, completer, _ => .error completer
  | limit + 1, completer, batch =>
    if batch.headerSignature ∈ completer.batchCache then .ok completer
    else
      match completer.completeBatch chain batch with
      | (waiting, false) => .ok waiting
      | (done, true) =>
        (txnIds batch).foldlM (processTxn (addBatch limit))
          (((done.deliverBatch batch).processIncompleteBlocks chain
            batch.headerSignature).unrequest batch.headerSignature)

/-! ## Arrivals -/

/-- What comes from gossip. -/
inductive Arrival where
  | block (block : GossipBlock)
  | batch (batch : Batch)
  deriving DecidableEq

/-- `add_block` or `add_batch`. -/
def add (limit : Nat) : Arrival → Except Completer Completer
  | .block block => .ok (completer.addBlock chain block)
  | .batch batch => addBatch chain limit completer batch

end Completer

end Creditcoin.Validator
