import Creditcoin.Lib.Exec
import Creditcoin.Lib.Store
import Creditcoin.Message
import Mathlib.Data.Char
import Mathlib.Data.List.Lex

/-!
# The applicator's surroundings

A command reads the transaction header, the answers of the validator and of the gateways,
and the settings; it writes the state of its transaction context. While the processor
replays recorded blocks it works on three overlays instead, and the innermost one that holds
a key counts. Everything a command reads or writes goes through the functions of this
module.
-/

namespace Creditcoin

open Lib

/-- State records by key. -/
abbrev State : Type := Store Text Char

/-- A recorded transaction. -/
structure Tx where
  /-- Who signed the transaction, empty when it belongs to another family. -/
  sighash : Text
  /-- The nonce of the transaction. -/
  guid : Text
  /-- The decoded payload, none when it is empty. -/
  payload : Option Json

/-- A recorded block. -/
structure SimpleBlock where
  /-- Who signed the block. -/
  signer : Text
  /-- The transactions of the block, in order. -/
  txs : List Tx

/-- The parts of `Ctx` a command does not write. -/
structure Ctx where
  /-- The signer of the replayed transaction. -/
  sighash : Text := []
  /-- The nonce of the replayed transaction. -/
  guid : Text := []
  /-- The block before the replayed one, zero outside of replay. -/
  tip : Int := 0
  /-- Whether writes stay out of the validator's state. -/
  replaying : Bool := false
  /-- Whether the processor replays recorded blocks. -/
  transitioning : Bool := false

/-- What a command reads and does not write. -/
structure Env where
  /-- The applicator's context. -/
  ctx : Ctx
  /-- The public key in the transaction header. -/
  signerPublicKey : Text
  /-- The nonce in the transaction header. -/
  nonce : Text
  /-- The family version in the transaction header. -/
  familyVersion : Text
  /-- `txn->block_signature()`, empty while a block is built. -/
  blockSignature : Text
  /-- `state->GetTip()`. -/
  tip : UInt64
  /-- The pages of `contextlessState->GetStatesByPrefix`. -/
  getStatesByPrefix : Text → Except Exception (List (List (Text × Text)))
  /-- `contextlessState->GetSigByNum`. -/
  getSigByNum : UInt64 → Except Exception Text
  /-- `contextlessState->GetRewardBlockSignatures(sig, first, last)`. -/
  getRewardBlockSignatures : Text → UInt64 → UInt64 → Except Exception (List Text)
  /-- The settings as last loaded. -/
  settings : List (Text × Text)
  /-- The settings after `doUpdateSettings`. -/
  updatedSettings : List (Text × Text)
  /-- `v2block`. -/
  v2block : Int
  /-- The answer of the local gateway, none when it does not answer. -/
  localGateway : Text → Except Exception (Option Text)
  /-- `externalGatewayAddress`. -/
  externalGatewayAddress : Text
  /-- The answer of the external gateway, none when it does not answer. -/
  externalGateway : Text → Except Exception (Option Text)
  /-- `pow(19.0 / 20.0, period)` printed with `std::fixed`. -/
  fixedPower : Int → Text
  /-- `dealExpFixBlock`. -/
  dealExpFixBlock : Int
  /-- The recorded blocks. -/
  blocks : List SimpleBlock
  /-- `tipCurrentState`. -/
  tipCurrentState : State
  /-- `transitioningState`. -/
  transitioningState : State

/-- What a command writes. -/
structure Memory where
  /-- The state in the validator's transaction context. -/
  state : State
  /-- `ctx.currentState`. -/
  currentState : State

/-- A computation of the applicator. -/
abbrev App : Type → Type := Exec Env Memory Exception

/-- `CONFIRMATION_COUNT`. -/
def confirmationCount : Int := 30

/-- `YEAR_OF_BLOCKS`. -/
def yearOfBlocks : Int := 60 * 24 * 365

/-- `BLOCK_REWARD_PROCESSING_COUNT`. -/
def blockRewardProcessingCount : Int := 10

/-- The height of the last block, as `lastBlockInt` computes it. -/
def Env.head (env : Env) : Int :=
  if env.ctx.transitioning then env.ctx.tip else (env.tip - 1).toNat

/-- `lastBlockInt`. -/
def lastBlockInt : App Int := Exec.asks Env.head

/-- `lastBlock`. -/
def lastBlock : App Text := Exec.asks fun env => toText env.head

/-- The nonce a command runs under. -/
def Env.guid (env : Env) : Text := if env.ctx.transitioning then env.ctx.guid else env.nonce

/-- `getGuid`. -/
def getGuid : App Text := Exec.asks Env.guid

/-- `getSighash`, on the environment. -/
def Env.sighash (sha : Sha512) (env : Env) : Except Exception Text :=
  if env.ctx.transitioning then .ok env.ctx.sighash
  else
    match compress env.signerPublicKey with
    | .ok compressed => .ok (sha.id compressed)
    | .error failure => .error failure

/-- `getSighash`. -/
def getSighash (sha : Sha512) : App Text := Exec.asksExcept (Env.sighash sha)

/-- What `getState` finds under a key, empty when there is nothing. -/
def Memory.read (env : Env) (memory : Memory) (id : Text) : Text :=
  if env.ctx.transitioning then
    match memory.currentState.lookup id with
    | some stateData => stateData
    | none =>
      match env.tipCurrentState.lookup id with
      | some stateData => stateData
      | none => env.transitioningState.get id
  else memory.state.get id

/-- `getState`. -/
def getState (id : Text) : App Text := Exec.gets fun env memory => memory.read env id

/-- `getStateData(id, existing)`. -/
def getStateData (id : Text) (existing : Bool) : App Text := do
  let stateData ← getState id
  Exec.failIf (existing && stateData.isEmpty)
    (.invalidTransaction ("Existing state expected ".toList ++ id))
  pure stateData

/-- `setState(state, states)`. -/
def setStates (states : List (Text × Text)) : App Unit := Exec.modify fun env memory =>
  { state := if env.ctx.replaying then memory.state else memory.state.setAll states
    currentState :=
      if env.ctx.transitioning then memory.currentState.setAll states else memory.currentState }

/-- `setState(GlobalState*, stateData, id)`. -/
def setStatePointer (stateData id : Text) : App Unit := Exec.modify fun env memory =>
  { state := if env.ctx.replaying then memory.state else memory.state.set id stateData
    currentState :=
      if env.ctx.transitioning then memory.currentState.set id stateData
      else memory.currentState }

/-- `setState(GlobalStateUPtr const&, stateData, id)`: it hands its arguments over swapped. -/
def setState (stateData id : Text) : App Unit := setStatePointer id stateData

/-- `deleteState`. -/
def deleteState (id : Text) : App Unit := Exec.modify fun env memory =>
  { state := if env.ctx.replaying then memory.state else memory.state.erase id
    currentState :=
      if env.ctx.transitioning then memory.currentState.set id [] else memory.currentState }

/-- The entries of a map with a key prefix and a value, in key order. -/
def entriesIn (start : Text) (values : State) : List (Text × Text) :=
  ((values.entries.map fun entry => (entry.1, entry.2)).filter fun entry =>
    entry.1.startsWith start && !entry.2.isEmpty).mergeSort fun left right => left.1 ≤ right.1

/-- What `filter` lists while blocks are replayed. -/
def Memory.overlaid (env : Env) (memory : Memory) (start : Text) : List (Text × Text) :=
  let inserted (key : Text) : Bool :=
    (memory.currentState.lookup key).isSome || (env.tipCurrentState.lookup key).isSome
  let current : List (Text × Text) :=
    entriesIn start (env.tipCurrentState.entries.foldl
      (fun values entry =>
        if (memory.currentState.lookup entry.1).isSome then values
        else values.set entry.1 entry.2)
      memory.currentState)
  (entriesIn start env.transitioningState).filter (fun entry => !inserted entry.1) ++ current

/-- How `filter` reports an exception of the listing or of its callback. -/
def filterFailure : Exception → Exception
  | .invalidTransaction what => .invalidTransaction what
  | .standard what => .invalidTransaction what

/-- `filter`. -/
def filter (start : Text) (lister : Text → Text → App Unit) : App Unit := do
  let transitioning ← Exec.asks fun env => env.ctx.transitioning
  if transitioning then
    let listed ← Exec.gets fun env memory => memory.overlaid env start
    Exec.forEach listed fun entry => lister entry.1 entry.2
  else
    Exec.mapError filterFailure do
      let pages ← Exec.asksExcept fun env => env.getStatesByPrefix start
      Exec.forEach pages.flatten fun entry => lister entry.1 entry.2

/-! ## What the surroundings do outside of replay -/

/-- An environment of a processor that does not replay. -/
structure Env.Live (env : Env) : Prop where
  /-- No recorded blocks are replayed. -/
  transitioning : env.ctx.transitioning = false
  /-- Writes reach the validator. -/
  replaying : env.ctx.replaying = false
  /-- The replay tip is unset. -/
  tip : env.ctx.tip = 0

section Live

variable {env : Env} {memory after : Memory}

/-- The last block is the one before the block being executed. -/
theorem Env.Live.head_eq (live : env.Live) : env.head = ((env.tip - 1).toNat : Int) := by
  simp [Env.head, live.transitioning]

/-- The head is not negative. -/
theorem Env.Live.head_nonneg (live : env.Live) : 0 ≤ env.head := by
  rw [live.head_eq]
  exact Int.natCast_nonneg _

/-- The printed head is short. -/
theorem Env.Live.head_length (live : env.Live) : (toText env.head).length ≤ 20 := by
  rw [live.head_eq]
  exact toText_length (env.tip - 1).toNat_lt

/-- The signer is read off the header. -/
theorem getSighash_ok {sha : Sha512} {sighash : Text} :
    getSighash sha env memory = .ok (sighash, after) ↔
      env.sighash sha = .ok sighash ∧ after = memory :=
  Exec.asksExcept_ok

/-- The last block is read off the tip. -/
theorem lastBlockInt_ok {head : Int} :
    lastBlockInt env memory = .ok (head, after) ↔ head = env.head ∧ after = memory :=
  Exec.asks_ok

/-- The last block is printed. -/
theorem lastBlock_ok {head : Text} :
    lastBlock env memory = .ok (head, after) ↔ head = toText env.head ∧ after = memory :=
  Exec.asks_ok

/-- The nonce is read off the header. -/
theorem getGuid_ok {guid : Text} :
    getGuid env memory = .ok (guid, after) ↔ guid = env.guid ∧ after = memory :=
  Exec.asks_ok

/-- A read reads the state. -/
theorem getState_ok (live : env.Live) {id stateData : Text} :
    getState id env memory = .ok (stateData, after) ↔
      stateData = memory.state.get id ∧ after = memory := by
  simp [getState, Memory.read, live.transitioning]

/-- A read of an expected record reads the state, and the record is there. -/
theorem getStateData_existing_ok (live : env.Live) {id stateData : Text} :
    getStateData id true env memory = .ok (stateData, after) ↔
      memory.state.get id ≠ [] ∧ stateData = memory.state.get id ∧ after = memory := by
  simp only [getStateData, Exec.bind_ok, getState_ok live, Exec.failIf_ok, Exec.pure_ok,
    Bool.true_and, List.isEmpty_iff]
  constructor
  · rintro ⟨_, _, ⟨rfl, rfl⟩, _, _, ⟨present, rfl⟩, rfl, rfl⟩
    exact ⟨present, rfl, rfl⟩
  · rintro ⟨present, rfl, rfl⟩
    exact ⟨_, _, ⟨rfl, rfl⟩, (), _, ⟨present, rfl⟩, rfl, rfl⟩

/-- A read of a record that may be missing reads the state. -/
theorem getStateData_optional_ok (live : env.Live) {id stateData : Text} :
    getStateData id false env memory = .ok (stateData, after) ↔
      stateData = memory.state.get id ∧ after = memory := by
  simp only [getStateData, Exec.bind_ok, getState_ok live, Exec.failIf_ok, Exec.pure_ok,
    Bool.false_and, Bool.false_eq_true]
  constructor
  · rintro ⟨_, _, ⟨rfl, rfl⟩, _, _, ⟨_, rfl⟩, rfl, rfl⟩
    exact ⟨rfl, rfl⟩
  · rintro ⟨rfl, rfl⟩
    exact ⟨_, _, ⟨rfl, rfl⟩, (), _, ⟨not_false, rfl⟩, rfl, rfl⟩

/-- A write of records writes the state. -/
theorem setStates_ok (live : env.Live) {states : List (Text × Text)} {result : Unit} :
    setStates states env memory = .ok (result, after) ↔
      after = { memory with state := memory.state.setAll states } := by
  simp [setStates, live.transitioning, live.replaying]

/-- A write through the pointer writes the second argument's key. -/
theorem setStatePointer_ok (live : env.Live) {stateData id : Text} {result : Unit} :
    setStatePointer stateData id env memory = .ok (result, after) ↔
      after = { memory with state := memory.state.set id stateData } := by
  simp [setStatePointer, live.transitioning, live.replaying]

/-- A write through the smart pointer writes the first argument's key. -/
theorem setState_ok (live : env.Live) {stateData id : Text} {result : Unit} :
    setState stateData id env memory = .ok (result, after) ↔
      after = { memory with state := memory.state.set stateData id } :=
  setStatePointer_ok live

/-- A deletion erases the state. -/
theorem deleteState_ok (live : env.Live) {id : Text} {result : Unit} :
    deleteState id env memory = .ok (result, after) ↔
      after = { memory with state := memory.state.erase id } := by
  simp [deleteState, live.transitioning, live.replaying]

/-- A listing calls the lister on every listed record. -/
theorem filter_ok (live : env.Live) {start : Text} {lister : Text → Text → App Unit} :
    filter start lister env memory = .ok ((), after) ↔
      ∃ pages, env.getStatesByPrefix start = .ok pages ∧
        Exec.forEach pages.flatten (fun entry => lister entry.1 entry.2) env memory =
          .ok ((), after) := by
  simp only [filter, Exec.bind_ok, Exec.asks_ok, live.transitioning]
  constructor
  · rintro ⟨_, _, ⟨rfl, rfl⟩, ran⟩
    simp only [Bool.false_eq_true, if_false, Exec.mapError_ok, Exec.bind_ok,
      Exec.asksExcept_ok] at ran
    obtain ⟨pages, _, ⟨found, rfl⟩, ran⟩ := ran
    exact ⟨pages, found, ran⟩
  · rintro ⟨pages, found, ran⟩
    refine ⟨_, _, ⟨rfl, rfl⟩, ?_⟩
    simp only [Bool.false_eq_true, if_false, Exec.mapError_ok, Exec.bind_ok, Exec.asksExcept_ok]
    exact ⟨pages, _, ⟨found, rfl⟩, ran⟩

end Live

end Creditcoin
