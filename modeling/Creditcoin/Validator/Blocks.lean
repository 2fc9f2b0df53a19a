import Creditcoin.PoW.Python

/-!
# Blocks of batches

A block holds batches of transactions. The publisher puts one batch of its own at the start of every
block, with one transaction that has the processor keep house.
-/

namespace Creditcoin.Validator

open PoW (Py Fault)

/-- What the validator reads of a transaction. -/
structure Transaction where
  headerSignature : Text
  dependencies : List Text
  payload : Text
  deriving DecidableEq

/-- What the validator reads of a batch. -/
structure Batch where
  headerSignature : Text
  signerPublicKey : Text
  transactions : List Transaction
  deriving DecidableEq

/-- What the validator reads of a block. -/
structure BlockWrapper where
  headerSignature : Text
  blockNum : UInt64
  previousBlockId : Text
  signerPublicKey : Text
  stateRootHash : Text
  batches : List Batch
  deriving DecidableEq

/-- `GluwaBatchInjector.housekeeping_payload`. -/
def housekeepingPayload : Text := '\xa2' :: "avlHousekeepingbp1a0".toList

/-- A batch as `GluwaBatchInjector.block_start` makes it: one transaction with the payload, signed by
the signer of the block. -/
def BlockWrapper.Injects (blkw : BlockWrapper) (batch : Batch) : Prop :=
  blkw.batches.head? = some batch ∧ batch.signerPublicKey = blkw.signerPublicKey ∧
    batch.transactions.map Transaction.payload = [housekeepingPayload]

instance (blkw : BlockWrapper) (batch : Batch) : Decidable (blkw.Injects batch) :=
  inferInstanceAs (Decidable (_ ∧ _))

/-- `list[0]`. -/
def first {α : Type} (list : List α) : Py α :=
  match list with
  | value :: _ => .ok value
  | [] => .error .indexError

/-- The signatures of the batches of a chain. -/
def batchIds (chain : List BlockWrapper) : List Text :=
  (chain.flatMap BlockWrapper.batches).map Batch.headerSignature

end Creditcoin.Validator
