import Creditcoin.Validator.Blocks

/-!
# Batches of an abandoned chain

When the validator adopts another chain, the batches of the abandoned one are pending again unless
the adopted chain has them. The first batch of an abandoned block is looked at to drop the batch that
the publisher has put there. The list of pending batches is not searched before a batch is added to
it, neither here nor where batches are received.
-/

namespace Creditcoin.Validator

open PoW (Py Fault)

/-! ## The two functions -/

/-- The batches that a publisher holds, and their signatures. -/
structure Pending where
  pendingBatches : List Batch
  pendingBatchIds : List Text

/-- A batch has to be pending after a reorganisation: it was pending, or a block of the abandoned
chain has it and did not inject it, and the adopted chain does not have it. -/
def Returns (newChain curChain : List BlockWrapper) (pending : Pending) (id : Text) : Prop :=
  id ∉ batchIds newChain ∧ (id ∈ pending.pendingBatches.map Batch.headerSignature ∨
    ∃ blkw ∈ curChain, ∃ batch ∈ blkw.batches, ¬ blkw.Injects batch ∧ batch.headerSignature = id)

/-- The payload of the first transaction of a block. -/
def BlockWrapper.firstPayload (blkw : BlockWrapper) : Option Text :=
  (blkw.batches.head?.bind fun batch => batch.transactions.head?).map Transaction.payload

/-- The batches of a block that are uncommitted with it. -/
def BlockWrapper.uncommitted (blkw : BlockWrapper) : List Batch :=
  if blkw.firstPayload = some housekeepingPayload then blkw.batches.drop 1 else blkw.batches

/-- The chains and the pending batches are such that a reorganisation loses nothing. -/
structure Orderly (newChain curChain : List BlockWrapper) (pending : Pending) : Prop where
  /-- Every abandoned block starts with a transaction. -/
  opened : ∀ blkw ∈ curChain, blkw.firstPayload ≠ none
  /-- The adopted chain has a batch, unless the first abandoned block starts with another payload. -/
  named : newChain.flatMap BlockWrapper.batches ≠ [] ∨
    ∀ blkw ∈ curChain.head?, blkw.firstPayload ≠ some housekeepingPayload
  /-- What has to be pending stands once among the batches that are uncommitted or pending. -/
  once : ∀ id, Returns newChain curChain pending id →
    ((curChain.flatMap BlockWrapper.uncommitted ++ pending.pendingBatches).map
      Batch.headerSignature).count id = 1

/-! ## The loop over the abandoned chain -/

section Loop

variable {batch : Option Batch} {curChain newChain : List BlockWrapper} {blkw : BlockWrapper}
  {pending : Pending} {batches : List Batch}

end Loop

/-! ## The rebuilt list -/

section Rebuilt

variable {newChain curChain : List BlockWrapper} {pending : Pending} {id : Text}
  {committed uncommitted : List Batch}

end Rebuilt

/-! ## Batches that are received again -/

/-- No batch is pending. -/
def Pending.none : Pending := ⟨[], []⟩

end Creditcoin.Validator
