import Creditcoin.Applicator
import Creditcoin.Lib.Agree

/-!
# Commands under two environments

Every command but `Housekeeping` is built from a few operations: it reads and writes records, asks
for the head, the nonce and the signer, and has a payment verified. When these operations agree
under two environments, so does the command.
-/

namespace Creditcoin

open Lib Lib.Exec

/-- The operations of the commands agree under two environments. -/
structure Interfaces (sha : Sha512) (env env' : Env) (related : Memory → Memory → Prop) : Prop where
  /-- The same records are read. -/
  read : ∀ before before', related before before' → ∀ id, before.read env id = before'.read env' id
  /-- Writes agree. -/
  setStates : ∀ states, Agree env env' related (setStates states) (setStates states)
  /-- Writes through a pointer agree. -/
  setStatePointer : ∀ stateData id,
    Agree env env' related (setStatePointer stateData id) (setStatePointer stateData id)
  /-- Deletions agree. -/
  deleteState : ∀ id, Agree env env' related (deleteState id) (deleteState id)
  /-- The last block is the same. -/
  head : env.head = env'.head
  /-- The nonce is the same. -/
  guid : env.guid = env'.guid
  /-- The signer is the same. -/
  sighash : env.sighash sha = env'.sighash sha
  /-- Payments are verified alike. -/
  verify : ∀ gatewayCommand, Agree env env' related (verify gatewayCommand) (verify gatewayCommand)

namespace Interfaces

variable {sha : Sha512} {env env' : Env} {related : Memory → Memory → Prop}

/-- Reads agree. -/
theorem getState (same : Interfaces sha env env' related) (id : Text) :
    Agree env env' related (getState id) (getState id) :=
  Agree.gets fun _ _ kept => same.read _ _ kept id

/-- Checked reads agree. -/
theorem getStateData (same : Interfaces sha env env' related) (id : Text) (existing : Bool) :
    Agree env env' related (getStateData id existing) (getStateData id existing) := by
  apply Agree.bind (same.getState id)
  intro stateData
  apply Agree.bind Agree.failIf
  intro _
  exact Agree.pure stateData

/-- The last block agrees as a number. -/
theorem lastBlockInt (same : Interfaces sha env env' related) :
    Agree env env' related lastBlockInt lastBlockInt :=
  Agree.asks same.head

/-- The last block agrees as a text. -/
theorem lastBlock (same : Interfaces sha env env' related) :
    Agree env env' related lastBlock lastBlock :=
  Agree.asks (congrArg toText same.head)

/-- The nonce agrees. -/
theorem getGuid (same : Interfaces sha env env' related) :
    Agree env env' related getGuid getGuid :=
  Agree.asks same.guid

/-- The signer agrees. -/
theorem getSighash (same : Interfaces sha env env' related) :
    Agree env env' related (getSighash sha) (getSighash sha) :=
  Agree.asksExcept same.sighash

/-- Writes of one record agree. -/
theorem setState (same : Interfaces sha env env' related) (stateData id : Text) :
    Agree env env' related (setState stateData id) (setState stateData id) :=
  same.setStatePointer id stateData

/-- Charges agree. -/
theorem charge (same : Interfaces sha env env' related) (sighash : Text) :
    Agree env env' related (charge sha sighash) (charge sha sighash) := by
  apply Agree.bind (same.getStateData _ _)
  intro stateData
  apply Agree.bind (Agree.lift _)
  intro balance
  apply Agree.bind Agree.failIf
  intro _
  exact Agree.pure _

/-- Fee records agree. -/
theorem addFee (same : Interfaces sha env env' related) (sighash : Text)
    (states : List (Text × Text)) :
    Agree env env' related (addFee sha sighash states) (addFee sha sighash states) := by
  apply Agree.bind same.getGuid
  intro guid
  apply Agree.bind same.lastBlock
  intro block
  exact Agree.pure _

/-- Fee records with a wallet agree. -/
theorem addFeeAndWallet (same : Interfaces sha env env' related) (sighash : Text)
    (states : List (Text × Text)) (walletId : Text) (wallet : Wallet) :
    Agree env env' related (addFeeAndWallet sha sighash states walletId wallet)
      (addFeeAndWallet sha sighash states walletId wallet) := by
  apply Agree.bind (same.addFee _ _)
  intro states
  exact Agree.pure _

/-- Checks of the expiration agree. -/
theorem checkExpiration (same : Interfaces sha env env' related) (expiration : UInt64)
    (block : Text) :
    Agree env env' related (checkExpiration expiration block) (checkExpiration expiration block) := by
  apply Agree.bind same.lastBlockInt
  intro head
  apply Agree.bind (Agree.lift _)
  intro start
  exact Agree.failIf

/-- A command other than `Housekeeping` agrees. -/
theorem run (same : Interfaces sha env env' related) {verb : Verb} (query : Query)
    (other : verb ≠ .housekeeping) :
    Agree env env' related (verb.run sha query) (verb.run sha query) := by
  cases verb
  case housekeeping => exact absurd rfl other
  all_goals
    simp only [Verb.run]
    first
      | unfold sendFunds
      | unfold registerAddress
      | unfold registerTransfer transferAmount
      | unfold addAskOrder addOrder
      | unfold addBidOrder addOrder
      | unfold addOffer
      | unfold addDealOrder
      | unfold completeDealOrder
      | unfold lockDealOrder
      | unfold closeDealOrder
      | unfold exempt
      | unfold addRepaymentOrder
      | unfold completeRepaymentOrder
      | unfold closeRepaymentOrder
      | unfold collectCoins
    -- the command is a sequence of operations: each bind leaves its first part and the rest
    repeat' first
      | with_reducible exact same.getSighash
      | with_reducible exact same.getGuid
      | with_reducible exact same.lastBlock
      | with_reducible exact same.lastBlockInt
      | with_reducible exact same.charge _
      | with_reducible exact same.checkExpiration _ _
      | with_reducible exact same.getStateData _ _
      | with_reducible exact same.addFee _ _
      | with_reducible exact same.addFeeAndWallet _ _ _ _
      | with_reducible exact same.setStates _
      | with_reducible exact same.deleteState _
      | with_reducible exact same.verify _
      | with_reducible exact Agree.pure _
      | with_reducible exact Agree.lift _
      | with_reducible exact Agree.failIf
      | with_reducible apply Agree.bind
      | with_reducible apply Agree.ite
      | intro _

end Interfaces

end Creditcoin
