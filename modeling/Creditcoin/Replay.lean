import Creditcoin.Interfaces
import Creditcoin.Lib.Driver
import Creditcoin.Lib.Run

/-!
# Replay of recorded blocks

A processor that takes over a recorded chain keeps the state in two maps: the blocks that are done
and the transactions of the block at hand. Two cursors say how far the maps go. A request for a
recorded transaction first catches up with the transactions between the cursors and its position,
then runs its own command, then moves the cursors.
-/

namespace Creditcoin

open Lib

/-! ## The driver -/

/-- `transitioningState` and `tipCurrentState`. -/
structure Overlays where
  /-- The state after the blocks that are done. -/
  transitioningState : State
  /-- What the transactions of the block at hand wrote. -/
  tipCurrentState : State

/-- A computation over the maps; what it wrote stays when it throws. -/
abbrev Driver : Type → Type := EStateM Exception Overlays

/-- The environment of a command in a context, over the maps. -/
def Env.over (env : Env) (ctx : Ctx) (overlays : Overlays) : Env :=
  { env with
    ctx := ctx
    tipCurrentState := overlays.tipCurrentState
    transitioningState := overlays.transitioningState }

/-- `doApply`: what the command wrote covers what the block wrote before. The state in the
validator's context is not read, so the command starts from an empty one. -/
def doApply (sha : Sha512) (env : Env) (ctx : Ctx) (cmd : Text) (query : Query) : Driver Unit := do
  let overlays ← get
  match applyCommand sha cmd query (env.over ctx overlays) ⟨∅, ∅⟩ with
  | .ok (_, memory) =>
    set { overlays with tipCurrentState := memory.currentState ∪ overlays.tipCurrentState }
  | .error failure => throw failure

/-- The context of a transaction that is caught up. -/
def Tx.ctx (tx : Tx) (tip : Int) : Ctx :=
  { sighash := tx.sighash, guid := tx.guid, tip := tip, replaying := true, transitioning := true }

/-- `execute`. -/
def execute (sha : Sha512) (env : Env) (tip : Int) (tx : Tx) : Driver Unit :=
  match tx.payload with
  | some payload =>
    if tx.guid = [] then pure ()
    else
      match cborToParams payload with
      | .ok (query, cmd) => doApply sha env (tx.ctx tip) cmd query
      | .error failure => throw failure
  | none => pure ()

/-- A transaction that a loop of `Apply` goes through; those of other families are skipped. -/
def catchUpTx (sha : Sha512) (env : Env) (tip : Int) (tx : Tx) : Driver Unit :=
  if tx.sighash = [] then pure () else execute sha env tip tx

/-- A loop of `Apply` over transactions of a block. -/
def catchUpTxs (sha : Sha512) (env : Env) (tip : Int) (txs : List Tx) : Driver Unit :=
  Driver.forEach txs (catchUpTx sha env tip)

/-- The block at hand is done. -/
def finishBlock : Driver Unit := modify fun overlays =>
  { transitioningState := overlays.tipCurrentState ∪ overlays.transitioningState
    tipCurrentState := ∅ }

/-- The transactions of a recorded block. -/
def Env.txsOf (env : Env) (blockIdx : Nat) : List Tx :=
  match env.blocks[blockIdx]? with
  | some block => block.txs
  | none => []

/-- The cursors and the maps. -/
structure Replay where
  /-- `updatedBlockIdx`. -/
  updatedBlockIdx : Nat
  /-- `updatedTxIdx`, one below zero when the block has no transactions. -/
  updatedTxIdx : Int
  /-- The maps. -/
  overlays : Overlays

/-- The loops of `Apply` before the requested command. -/
def Replay.catchUp (sha : Sha512) (env : Env) (replay : Replay) (currentBlockIdx txIdx : Nat) :
    Driver Unit :=
  let updated := env.txsOf replay.updatedBlockIdx
  let next := (replay.updatedTxIdx + 1).toNat
  let tip : Int := currentBlockIdx - 1
  if replay.updatedBlockIdx < currentBlockIdx then do
    catchUpTxs sha env (replay.updatedBlockIdx - 1) (updated.drop next)
    finishBlock
    Driver.forEach (List.range' (replay.updatedBlockIdx + 1)
        (currentBlockIdx - (replay.updatedBlockIdx + 1))) fun i => do
      catchUpTxs sha env (i - 1) (env.txsOf i)
      finishBlock
    -- the loop is over the block that was left, not over the one that is entered
    catchUpTxs sha env tip (updated.take txIdx)
    -- past the end of that block the source reads no transaction at all
    if updated.length < txIdx then throw (.standard "vector".toList) else pure ()
  else if currentBlockIdx = replay.updatedBlockIdx then
    if (txIdx : Int) ≤ replay.updatedTxIdx then do
      modify fun overlays => { overlays with tipCurrentState := ∅ }
      catchUpTxs sha env tip (updated.take txIdx)
    else catchUpTxs sha env tip ((updated.take txIdx).drop next)
  else pure ()

/-- `TxPos`: the block before a recorded transaction and the place in its own block. -/
structure TxPos where
  /-- The block before. -/
  block : Int
  /-- The place in the block. -/
  txIdx : Nat

/-- `txguid2prevblockidx`, as a list with the last assignment first. -/
def txguid2prevblockidx (blocks : List SimpleBlock) : List (Text × TxPos) :=
  (blocks.zipIdx.flatMap fun block =>
    block.1.txs.zipIdx.map fun tx => (tx.1.guid, ⟨(block.2 : Int) - 1, tx.2⟩)).reverse

/-- A request of a transaction. -/
structure Request where
  /-- The header and the surroundings. -/
  env : Env
  /-- The payload. -/
  payload : Json

/-- `Apply()` while recorded blocks are replayed: the outcome and what is kept of the replay. The
process ends when the nonce was not recorded. -/
def Replay.apply (sha : Sha512) (replay : Replay) (request : Request) :
    Except Exception Unit × Replay :=
  let env := request.env
  match cborToParams request.payload, compress env.signerPublicKey with
  | .error failure, _ => (.error failure, replay)
  | _, .error failure => (.error failure, replay)
  | .ok (query, cmd), .ok compressed =>
    match (txguid2prevblockidx env.blocks).find? fun entry => entry.1 == env.nonce with
    | none => (.error (.standard "exit".toList), replay)
    | some (_, position) =>
      let currentBlockIdx := (position.block + 1).toNat
      let ctx : Ctx :=
        { sighash := sha.id compressed, guid := env.nonce, tip := position.block,
          replaying := false, transitioning := true }
      let run : Driver Unit := do
        replay.catchUp sha env currentBlockIdx position.txIdx
        doApply sha env ctx cmd query
      match run replay.overlays with
      | .ok _ overlays => (.ok (), ⟨currentBlockIdx, position.txIdx, overlays⟩)
      | .error failure overlays => (.error failure, { replay with overlays := overlays })

/-- The replay that `setupSettingsAndExternalGatewayAddress` starts with. -/
def Replay.setup (env : Env) : Replay := ⟨0, (env.txsOf 0).length - 1, ⟨∅, ∅⟩⟩

/-! ## The straight replay -/

/-- All transactions of the first blocks, once each and in order. -/
def replayBlocks (sha : Sha512) (env : Env) : Nat → Driver Unit
  | 0 => pure ()
  | blockIdx + 1 => do
    replayBlocks sha env blockIdx
    catchUpTxs sha env (blockIdx - 1) (env.txsOf blockIdx)
    finishBlock

/-- All transactions before a position, once each and in order. -/
def replayPrefix (sha : Sha512) (env : Env) (blockIdx txIdx : Nat) : Driver Unit := do
  replayBlocks sha env blockIdx
  catchUpTxs sha env (blockIdx - 1) ((env.txsOf blockIdx).take txIdx)

/-- The maps hold exactly the transactions before a position. -/
def Overlays.Hold (sha : Sha512) (env : Env) (blockIdx txIdx : Nat) (overlays : Overlays) : Prop :=
  replayPrefix sha env blockIdx txIdx ⟨∅, ∅⟩ = .ok () overlays

end Creditcoin
