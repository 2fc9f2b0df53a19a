import Creditcoin.Lib.Exec
import Creditcoin.Validator.Blocks

/-!
# Validation of a block

`validate_block` runs a chain of checks and marks the block. The batches are executed on the state
of the predecessor, and the root of the last result is compared with the root in the header. A block
without batches skips that comparison together with the execution.
-/

namespace Creditcoin.Validator

open Lib

/-! ## What the validator asks others -/

/-- What leaves a check by an exception. -/
inductive Failure where
  | chainHeadUpdated
  | keyError
  | attributeError
  | typeError
  | other (what : Text)
  deriving DecidableEq

/-- `BatchExecutionResult`. -/
structure BatchExecutionResult where
  isValid : Bool
  stateHash : Option Text
  deriving DecidableEq

/-- `ChainCommitState`: what the chain has committed, and what was added since. -/
structure ChainCommitState where
  committedBatch : Text → Bool
  committedTransaction : Text → Bool
  batchIds : List Text
  transactionIds : List Text

/-- `has_batch`. -/
def ChainCommitState.hasBatch (state : ChainCommitState) (batchId : Text) : Bool :=
  state.committedBatch batchId || state.batchIds.contains batchId

/-- `has_transaction`. -/
def ChainCommitState.hasTransaction (state : ChainCommitState) (transactionId : Text) : Bool :=
  state.committedTransaction transactionId || state.transactionIds.contains transactionId

/-- `add_batch(batch, add_transactions=True)`. -/
def ChainCommitState.addBatch (state : ChainCommitState) (batch : Batch) : ChainCommitState :=
  { state with
    batchIds := batch.headerSignature :: state.batchIds
    transactionIds := batch.transactions.map Transaction.headerSignature ++ state.transactionIds }

/-- What the validator of a block asks others. -/
structure Services where
  /-- `NULL_BLOCK_IDENTIFIER`. -/
  nullBlockIdentifier : Text
  /-- `block_cache[block_id].state_root_hash`. -/
  stateRootHash : Text → Except Failure Text
  /-- `ChainCommitState(block_store, chain)`. -/
  chainCommitState : Except Failure ChainCommitState
  /-- `is_batch_signer_authorized(batch, prev_state_root, from_state=True)`. -/
  isBatchSignerAuthorized : Batch → Text → Except Failure Bool
  /-- `verify_block` of the consensus module. -/
  verifyBlock : BlockWrapper → Except Failure Bool
  /-- `enforce_validation_rules` under the settings of a state root. -/
  enforceValidationRules : Text → Text → List Batch → Except Failure Bool
  /-- The results of a finished schedule: a state root, the signature and the number of the block, and
  the batches with the roots that are required of them. -/
  schedule : Text → Text → UInt64 → List (Batch × Option Text) →
    Except Failure (Text → Option BatchExecutionResult)
  /-- The identifier of the chain head when the validation starts. -/
  chainHead : Option Text
  /-- The identifier of the chain head of the block store when the checks have passed. -/
  chainHeadAfter : Option Text

/-! ## The checks -/

/-- `INIT_ROOT_KEY`. -/
def initRootKey : Text := []

/-- `look_ahead`: every element with whether there are more to come. -/
def lookAhead {α : Type} : List α → List (α × Bool)
  | [] => []
  | [last] => [(last, false)]
  | value :: next :: rest => (value, true) :: lookAhead (next :: rest)

/-- `_validate_transactions_in_batch`. -/
def validateTransactionsInBatch (batch : Batch) (chainCommitState : ChainCommitState) : Bool :=
  batch.transactions.all fun txn =>
    !chainCommitState.hasTransaction txn.headerSignature &&
      txn.dependencies.all fun dep => chainCommitState.hasTransaction dep

/-- The loop that adds the batches to the scheduler; false stands for `InvalidBatch`. -/
def addBatches (chainCommitState : ChainCommitState) : List Batch → Bool
  | [] => true
  | batch :: batches =>
    !chainCommitState.hasBatch batch.headerSignature &&
      validateTransactionsInBatch batch chainCommitState &&
      addBatches (chainCommitState.addBatch batch) batches

/-- The loop over the results of the batches: the last root, or none when a batch is invalid. The
message about an invalid batch raises when there is no result. -/
def readResults (results : Text → Option BatchExecutionResult) (stateHash : Option Text) :
    List Batch → Except Failure (Option (Option Text))
  | [] => .ok (some stateHash)
  | batch :: batches =>
    match results batch.headerSignature with
    | some result =>
      if result.isValid then readResults results result.stateHash batches else .ok none
    | none => .error .typeError

namespace Services

variable (services : Services)

/-- `_get_previous_block_state_root`. -/
def getPreviousBlockStateRoot (blkw : BlockWrapper) : Except Failure Text :=
  if blkw.previousBlockId = services.nullBlockIdentifier then .ok initRootKey
  else services.stateRootHash blkw.previousBlockId

/-- `_validate_permissions`. -/
def validatePermissions (blkw : BlockWrapper) (prevStateRoot : Text) : Except Failure Bool :=
  if blkw.blockNum ≠ 0 then
    blkw.batches.allM fun batch => services.isBatchSignerAuthorized batch prevStateRoot
  else .ok true

/-- `_validate_on_chain_rules`. -/
def validateOnChainRules (blkw : BlockWrapper) (prevStateRoot : Text) : Except Failure Bool :=
  if blkw.blockNum ≠ 0 then
    if blkw.batches.tail.any fun batch => batch.transactions.any fun tx =>
        tx.payload == housekeepingPayload then .ok false
    else services.enforceValidationRules prevStateRoot blkw.signerPublicKey blkw.batches
  else .ok true

/-- `_validate_batches_in_block`. No batch is added to a finalized scheduler, so none is refused. -/
def validateBatchesInBlock (blkw : BlockWrapper) (prevStateRoot : Text)
    (chainCommitState : ChainCommitState) : Except Failure Bool := do
  if blkw.batches.isEmpty then return true
  if !addBatches chainCommitState blkw.batches then return false
  let scheduled := (lookAhead blkw.batches).map fun (batch, hasMore) =>
    (batch, if hasMore then none else some blkw.stateRootHash)
  let results ← services.schedule prevStateRoot blkw.headerSignature blkw.blockNum scheduled
  match ← readResults results none blkw.batches with
  | none => return false
  | some stateHash => return some blkw.stateRootHash == stateHash

end Services

/-- `BlockStatus`. -/
inductive BlockStatus where
  | unknown
  | invalid
  | valid
  deriving DecidableEq

/-- How the checks of a block end. -/
inductive Outcome where
  /-- The predecessor is missing. -/
  | missing
  /-- A check refuses the block. -/
  | refused
  /-- All checks pass. -/
  | passed
  deriving DecidableEq

/-- A check that marks the block invalid when it fails. -/
def refuseUnless (test : Except Failure Bool) (next : Except Failure Outcome) :
    Except Failure Outcome := do
  if ← test then next else return .refused

/-- The last check of `validate_block`, that the chain head has not changed. -/
def Services.checkChainHead (services : Services) : Except Failure Outcome :=
  match services.chainHead, services.chainHeadAfter with
  | none, _ => .ok .passed
  | some _, none => .error .attributeError
  | some chainHead, some chainHeadAfter =>
    if chainHead ≠ chainHeadAfter then .error .chainHeadUpdated else .ok .passed

/-- The body of `validate_block` for a block that has no status yet. -/
def Services.check (services : Services) (blkw : BlockWrapper) : Except Failure Outcome := do
  let chainCommitState ← services.chainCommitState
  match services.getPreviousBlockStateRoot blkw with
  | .error .keyError => return .missing
  | .error failure => throw failure
  | .ok prevStateRoot =>
    refuseUnless (services.validatePermissions blkw prevStateRoot) <|
      refuseUnless (services.verifyBlock blkw) <|
      refuseUnless (services.validateOnChainRules blkw prevStateRoot) <|
      refuseUnless (services.validateBatchesInBlock blkw prevStateRoot chainCommitState)
        services.checkChainHead

/-- `validate_block`: what it returns, and the status of the block afterwards. -/
def Services.validateBlock (services : Services) (status : BlockStatus) (blkw : BlockWrapper) :
    Except Failure Bool × BlockStatus :=
  match status with
  | .valid => (.ok true, .valid)
  | .invalid => (.ok false, .invalid)
  | .unknown =>
    match services.check blkw with
    | .ok .passed => (.ok true, .valid)
    | .ok .refused => (.ok false, .invalid)
    | .ok .missing => (.ok false, .unknown)
    | .error .chainHeadUpdated => (.error .chainHeadUpdated, .unknown)
    | .error _ => (.ok false, .unknown)

/-! ## Roots that are earned -/

section Earned

variable {services : Services} {blkw : BlockWrapper} {prevStateRoot : Text}
  {chainCommitState : ChainCommitState} {batches : List Batch} {batch last : Batch}
  {results : Text → Option BatchExecutionResult} {executeBatch : Text → Batch → Option Text}

end Earned

/-! ## A block without batches -/

end Creditcoin.Validator
