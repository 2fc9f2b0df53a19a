import Creditcoin.Gateway
import Mathlib.Logic.Relation

/-!
# What commands do to the ledger

`Executed` is the meaning of the commands on the state alone: for every command the facts a
successful run has checked and the state it leaves. The applicator refines it, so a property
of the ledger is proved by cases on `Executed` and never by unfolding a command.
-/

namespace Creditcoin

open Lib

/-! ## Commands -/

/-- The two sides of a loan that place orders. -/
inductive Side where
  /-- The investor's side. -/
  | ask
  /-- The fundraiser's side. -/
  | bid
deriving DecidableEq

/-- The kind of the orders of a side. -/
def Side.kind : Side → Kind
  | .ask => .askOrder
  | .bid => .bidOrder

/-- A command with its parameters as the applicator uses them. -/
inductive Command where
  | sendFunds (amountString : Text) (amount : Int) (sighash : Text)
  | registerAddress (blockchain address network : Text)
  | registerTransfer (gain : Int) (orderId blockchainTxId : Text)
  | addOrder (side : Side) (addressId amount interest maturity fee : Text) (expiration : UInt64)
  | addOffer (askOrderId bidOrderId : Text) (expiration : UInt64)
  | addDealOrder (offerId : Text) (expiration : UInt64)
  | completeDealOrder (dealOrderId transferId : Text)
  | lockDealOrder (dealOrderId : Text)
  | closeDealOrder (dealOrderId transferId : Text)
  | exempt (dealOrderId transferId : Text)
  | addRepaymentOrder (dealOrderId addressId amount : Text) (expiration : UInt64)
  | completeRepaymentOrder (repaymentOrderId : Text)
  | closeRepaymentOrder (repaymentOrderId transferId : Text)
  | collectCoins (ethAddress amountString : Text) (amount : Int) (blockchainTxId : Text)
  | housekeeping (blockIdx : Int)
deriving DecidableEq

namespace Query

variable (query : Query)

/-- The parameters of `SendFunds`. -/
def sendFunds : Except Exception Command := do
  let (amountString, amount) ← query.getBigint "p1" "amount"
  let sighash ← query.getStringLower "p2" "sighash"
  pure (.sendFunds amountString amount sighash)

/-- The parameters of `RegisterAddress`. -/
def registerAddress : Except Exception Command := do
  let blockchain ← query.getStringLower "p1" "blockchain"
  let address ← query.getString "p2" "address"
  let network ← query.getStringLower "p3" "network"
  pure (.registerAddress blockchain address network)

/-- The parameters of `RegisterTransfer`. -/
def registerTransfer : Except Exception Command := do
  let gainString ← query.getString "p1" "gain"
  let gain ← Creditcoin.getBigint gainString true
  let orderId ← query.getStringLower "p2" "orderId"
  let blockchainTxId ← query.getStringLower "p3" "blockchainTxId"
  pure (.registerTransfer gain orderId blockchainTxId)

/-- The parameters of `AddAskOrder` and `AddBidOrder`. -/
def addOrder (side : Side) : Except Exception Command := do
  let addressId ← query.getStringLower "p1" "addressId"
  let amount ← query.getBigint "p2" "amount"
  let interest ← query.getBigint "p3" "interest"
  let maturity ← query.getBigint "p4" "maturity"
  let fee ← query.getBigint "p5" "fee"
  let expiration ← query.getUint64 "p6" "expiration"
  pure (.addOrder side addressId amount.1 interest.1 maturity.1 fee.1 expiration)

/-- The parameters of `AddOffer`. -/
def addOffer : Except Exception Command := do
  let askOrderId ← query.getStringLower "p1" "askOrderId"
  let bidOrderId ← query.getStringLower "p2" "bidOrderId"
  let expiration ← query.getUint64 "p3" "expiration"
  pure (.addOffer askOrderId bidOrderId expiration)

/-- The parameters of `AddDealOrder`. -/
def addDealOrder : Except Exception Command := do
  let offerId ← query.getStringLower "p1" "offerId"
  let expiration ← query.getUint64 "p2" "expiration"
  pure (.addDealOrder offerId expiration)

/-- The parameters of `CompleteDealOrder`. -/
def completeDealOrder : Except Exception Command := do
  let dealOrderId ← query.getStringLower "p1" "dealOrderId"
  let transferId ← query.getStringLower "p2" "transferId"
  pure (.completeDealOrder dealOrderId transferId)

/-- The parameters of `LockDealOrder`. -/
def lockDealOrder : Except Exception Command := do
  let dealOrderId ← query.getStringLower "p1" "dealOrderId"
  pure (.lockDealOrder dealOrderId)

/-- The parameters of `CloseDealOrder`. -/
def closeDealOrder : Except Exception Command := do
  let dealOrderId ← query.getStringLower "p1" "dealOrderId"
  let transferId ← query.getStringLower "p2" "transferId"
  pure (.closeDealOrder dealOrderId transferId)

/-- The parameters of `Exempt`. -/
def exempt : Except Exception Command := do
  let dealOrderId ← query.getStringLower "p1" "dealOrderId"
  let transferId ← query.getStringLower "p2" "transferId"
  pure (.exempt dealOrderId transferId)

/-- The parameters of `AddRepaymentOrder`. -/
def addRepaymentOrder : Except Exception Command := do
  let dealOrderId ← query.getStringLower "p1" "dealOrderId"
  let addressId ← query.getStringLower "p2" "addressId"
  let amount ← query.getBigint "p3" "amount"
  let expiration ← query.getUint64 "p4" "expiration"
  pure (.addRepaymentOrder dealOrderId addressId amount.1 expiration)

/-- The parameters of `CompleteRepaymentOrder`. -/
def completeRepaymentOrder : Except Exception Command := do
  let repaymentOrderId ← query.getStringLower "p1" "repaymentOrderId"
  pure (.completeRepaymentOrder repaymentOrderId)

/-- The parameters of `CloseRepaymentOrder`. -/
def closeRepaymentOrder : Except Exception Command := do
  let repaymentOrderId ← query.getStringLower "p1" "repaymentOrderId"
  let transferId ← query.getStringLower "p2" "transferId"
  pure (.closeRepaymentOrder repaymentOrderId transferId)

/-- The parameters of `CollectCoins`. -/
def collectCoins : Except Exception Command := do
  let ethAddress ← query.getStringLower "p1" "ethAddress"
  let (amountString, amount) ← query.getBigint "p2" "amount"
  let blockchainTxId ← query.getStringLower "p3" "blockchainTxId"
  pure (.collectCoins ethAddress amountString amount blockchainTxId)

/-- The parameters of `Housekeeping`. -/
def housekeeping : Except Exception Command := do
  let blockIdx ← query.getBigint "p1" "blockIdx"
  pure (.housekeeping blockIdx.2)

end Query

/-! ## Records in a state -/

section Records

variable (state : State) (id : Text)

/-- The record under a key, read as an address. -/
def addressAt : Address := Address.parseFromString (state.get id)

/-- The record under a key, read as a transfer. -/
def transferAt : Transfer := Transfer.parseFromString (state.get id)

/-- The record under a key, read as an ask or a bid order. -/
def orderAt : Order := Order.parseFromString (state.get id)

/-- The record under a key, read as an offer. -/
def offerAt : Offer := Offer.parseFromString (state.get id)

/-- The record under a key, read as a deal order. -/
def dealAt : DealOrder := DealOrder.parseFromString (state.get id)

/-- The record under a key, read as a repayment order. -/
def repaymentAt : RepaymentOrder := RepaymentOrder.parseFromString (state.get id)

/-- The record under a key, read as a fee. -/
def feeAt : Fee := Fee.parseFromString (state.get id)

end Records

/-- The wallet of an owner. -/
def walletOf (sha : Sha512) (state : State) (sighash : Text) : Wallet :=
  Wallet.parseFromString (state.get (sha.walletId sighash))

/-- The wallet of an owner with another balance, as an entry of the state. -/
def walletEntry (sha : Sha512) (state : State) (sighash : Text) (balance : Int) : Text × Text :=
  (sha.walletId sighash,
    { walletOf sha state sighash with amount := toText balance : Wallet }.serializeToString)

/-- The key of the fee record of a transaction. -/
def Env.feeId (sha : Sha512) (env : Env) : Text := sha.makeAddress .fee env.guid

/-- The fee record of a transaction, as an entry of the state. -/
def Env.feeEntry (sha : Sha512) (env : Env) (sighash : Text) : Text × Text :=
  (env.feeId sha, { sighash := sighash, block := toText env.head : Fee }.serializeToString)

/-- A wallet entry is under the key of its owner. -/
@[simp] theorem walletEntry_fst (sha : Sha512) (state : State) (sighash : Text) (balance : Int) :
    (walletEntry sha state sighash balance).1 = sha.walletId sighash := rfl

/-- A fee entry is under the key of its transaction. -/
@[simp] theorem Env.feeEntry_fst (sha : Sha512) (env : Env) (sighash : Text) :
    (env.feeEntry sha sighash).1 = env.feeId sha := rfl

/-- A fee key belongs to the fees. -/
@[simp] theorem Env.kindOf_feeId (sha : Sha512) (env : Env) :
    sha.kindOf (env.feeId sha) = some .fee := sha.kindOf_makeAddress .fee _

/-- An owner has a wallet with a balance that covers a cost. -/
structure Covers (sha : Sha512) (state : State) (sighash : Text) (cost balance : Int) : Prop where
  /-- The wallet exists. -/
  present : state.get (sha.walletId sighash) ≠ []
  /-- The balance is a literal. -/
  read : cppInt (walletOf sha state sighash).amount = some balance
  /-- The balance is not negative. -/
  nonneg : 0 ≤ balance
  /-- The cost can be paid. -/
  covered : cost ≤ balance

/-- How an amount changes the text of a wallet: a missing wallet takes the text of the amount. -/
inductive Credited (stateData amountString : Text) (amount : Int) : Wallet → Prop
  /-- A missing wallet is created. -/
  | created (missing : stateData = []) : Credited stateData amountString amount
      { amount := amountString }
  /-- A wallet is raised. -/
  | raised {balance : Int} (present : stateData ≠ [])
      (read : cppInt (Wallet.parseFromString stateData).amount = some balance)
      (nonneg : 0 ≤ balance) : Credited stateData amountString amount
      { Wallet.parseFromString stateData with amount := toText (balance + amount) }

/-- An order of a block is still open at a height. -/
def Unexpired (expiration : UInt64) (block : Text) (height : Int) : Prop :=
  ∃ start, IsAmount block start ∧ height - start ≤ expiration.toNat

/-- An order of a block has expired at a height. -/
def Expired (expiration : UInt64) (block : Text) (height : Int) : Prop :=
  ∃ start, IsAmount block start ∧ expiration.toNat < height - start

/-- The two ends and the principal of a transfer for an order. -/
inductive Pays (sha : Sha512) (state : State) (orderId : Text) (gain : Int) :
    Text → Text → Text → Prop
  /-- The investor pays the loan out. -/
  | loan (kind : sha.kindOf orderId = some .dealOrder) (none : gain = 0) :
      Pays sha state orderId gain (dealAt state orderId).srcAddress
        (dealAt state orderId).dstAddress (dealAt state orderId).amount
  /-- The fundraiser pays the loan back. -/
  | repayment (kind : sha.kindOf orderId = some .dealOrder) (some : gain ≠ 0) :
      Pays sha state orderId gain (dealAt state orderId).dstAddress
        (dealAt state orderId).srcAddress (dealAt state orderId).amount
  /-- The collector pays the investor. -/
  | sale (kind : sha.kindOf orderId = some .repaymentOrder) (none : gain = 0) :
      Pays sha state orderId gain (repaymentAt state orderId).srcAddress
        (repaymentAt state orderId).dstAddress (repaymentAt state orderId).amount

/-- `calcInterest`, over a number of ticks that is not negative. -/
def calcInterest (amount : Int) (ticks : Nat) (interest : Int) : Int :=
  match ticks with
  | 0 => amount
  | ticks + 1 => calcInterest (amount + (amount * interest).tdiv 1000000) ticks interest

/-- The records a listing hands to its callback. -/
def Listed (env : Env) (start key value : Text) : Prop :=
  ∃ pages, env.getStatesByPrefix start = .ok pages ∧ (key, value) ∈ pages.flatten

/-- One write of `Housekeeping`. -/
inductive Swept (sha : Sha512) (env : Env) (blockIdx : Int) (state : State) : State → Prop
  /-- An expired ask or bid order is deleted. -/
  | order {side : Side} {key value : Text} (listed : Listed env (sha.space side.kind) key value)
      (expired : Expired (Order.parseFromString value).expiration
        (Order.parseFromString value).block blockIdx) :
      Swept sha env blockIdx state (state.erase key)
  /-- An expired offer is deleted. -/
  | offer {key value : Text} (listed : Listed env (sha.space .offer) key value)
      (expired : Expired (Offer.parseFromString value).expiration
        (Offer.parseFromString value).block blockIdx) :
      Swept sha env blockIdx state (state.erase key)
  /-- An expired deal order without a loan is deleted and its fee refunded. -/
  | deal {key value : Text} {fee balance : Int}
      (listed : Listed env (sha.space .dealOrder) key value)
      (settled : blockIdx < env.head - confirmationCount)
      (expired : Expired (DealOrder.parseFromString value).expiration
        (DealOrder.parseFromString value).block blockIdx)
      (pending : (DealOrder.parseFromString value).loanTransfer = [])
      (wallet : Covers sha state (DealOrder.parseFromString value).sighash 0 balance)
      (read : IsAmount (DealOrder.parseFromString value).fee fee) :
      Swept sha env blockIdx state
        ((state.setAll [walletEntry sha state (DealOrder.parseFromString value).sighash
          (balance + fee)]).erase key)
  /-- An expired repayment order that nobody accepted is deleted. -/
  | repayment {key value : Text} (listed : Listed env (sha.space .repaymentOrder) key value)
      (expired : Expired (RepaymentOrder.parseFromString value).expiration
        (RepaymentOrder.parseFromString value).block blockIdx)
      (open' : (RepaymentOrder.parseFromString value).previousOwner = []) :
      Swept sha env blockIdx state (state.erase key)
  /-- A due fee record is deleted; the refund is written with key and value exchanged. -/
  | fee {key value : Text} {balance start : Int} (listed : Listed env (sha.space .fee) key value)
      (read : cppInt (Fee.parseFromString value).block = some start)
      (due : yearOfBlocks < blockIdx - start)
      (wallet : Covers sha state (Fee.parseFromString value).sighash 0 balance) :
      Swept sha env blockIdx state
        ((state.set (walletEntry sha state (Fee.parseFromString value).sighash
          (balance + txFee)).2 (sha.walletId (Fee.parseFromString value).sighash)).erase key)
  /-- The signer of a block is rewarded. -/
  | award {signer rewardString : Text} {reward : Int} {wallet : Wallet} (positive : 0 < reward)
      (printed : cppInt rewardString = some reward)
      (credited : Credited (state.get (sha.walletId (sha.id signer))) rewardString reward wallet) :
      Swept sha env blockIdx state
        (state.setAll [(sha.walletId (sha.id signer), wallet.serializeToString)])
  /-- The processed block is marked. -/
  | mark (height : Int) :
      Swept sha env blockIdx state (state.set sha.processedBlockIdx (toText height))

/-! ## Successful commands -/

/-- What a successful command of a signer has checked, and the state it leaves. -/
inductive Executed (sha : Sha512) (env : Env) (signer : Text) (state : State) :
    Command → State → Prop
  /-- Coins move from the signer to another owner. -/
  | sendFunds {amountString sighash : Text} {amount balance : Int} {wallet : Wallet}
      (numeral : IsAmount amountString amount) (other : sighash ≠ signer)
      (covers : Covers sha state signer (amount + txFee) balance)
      (credited : Credited (state.get (sha.walletId sighash)) amountString amount wallet) :
      Executed sha env signer state (.sendFunds amountString amount sighash)
        (state.setAll [(sha.walletId sighash, wallet.serializeToString), env.feeEntry sha signer,
          walletEntry sha state signer (balance - (amount + txFee))])
  /-- An address is registered for the signer. -/
  | registerAddress {blockchain address network : Text} {balance : Int}
      (covers : Covers sha state signer txFee balance)
      (fresh : state.get (sha.makeAddress .addr (blockchain ++ address.toLower ++ network)) = []) :
      Executed sha env signer state (.registerAddress blockchain address network)
        (state.setAll [(sha.makeAddress .addr (blockchain ++ address.toLower ++ network),
            { blockchain := blockchain, value := address, network := network,
              sighash := signer : Address }.serializeToString),
          walletEntry sha state signer (balance - txFee), env.feeEntry sha signer])
  /-- A transfer for an order is registered by the owner of its source. -/
  | registerTransfer {gain balance : Int} {orderId blockchainTxId source target principal : Text}
      {amount : Text} (covers : Covers sha state signer txFee balance)
      (order : state.get orderId ≠ [])
      (pays : Pays sha state orderId gain source target principal)
      (sourcePresent : state.get source ≠ []) (targetPresent : state.get target ≠ [])
      (owner : (addressAt state source).sighash = signer)
      (blockchain : (addressAt state target).blockchain = (addressAt state source).blockchain)
      (network : (addressAt state target).network = (addressAt state source).network)
      (fresh : state.get (sha.makeAddress .transfer ((addressAt state source).blockchain ++
        blockchainTxId ++ (addressAt state source).network)) = [])
      (paid : if blockchainTxId = "0".toList then amount = "0".toList
        else ∃ value, IsAmount principal value ∧ amount = toText (value + gain) ∧
          env.Verified (registerTransferCommand (addressAt state source) (addressAt state target)
            orderId amount blockchainTxId)) :
      Executed sha env signer state (.registerTransfer gain orderId blockchainTxId)
        (state.setAll [(sha.makeAddress .transfer ((addressAt state source).blockchain ++
            blockchainTxId ++ (addressAt state source).network),
            { blockchain := (addressAt state source).blockchain, srcAddress := source,
              dstAddress := target, order := orderId, amount := amount, tx := blockchainTxId,
              block := toText env.head, sighash := signer : Transfer }.serializeToString),
          env.feeEntry sha signer, walletEntry sha state signer (balance - txFee)])
  /-- An ask or a bid order is placed for an address of the signer. -/
  | addOrder {side : Side} {addressId amount interest maturity fee : Text} {expiration : UInt64}
      {balance amount' interest' maturity' fee' : Int}
      (covers : Covers sha state signer txFee balance) (amountRead : IsAmount amount amount')
      (interestRead : IsAmount interest interest') (maturityRead : IsAmount maturity maturity')
      (feeRead : IsAmount fee fee') (fresh : state.get (sha.makeAddress side.kind env.guid) = [])
      (present : state.get addressId ≠ []) (owner : (addressAt state addressId).sighash = signer) :
      Executed sha env signer state
        (.addOrder side addressId amount interest maturity fee expiration)
        (state.setAll [(sha.makeAddress side.kind env.guid,
            { blockchain := (addressAt state addressId).blockchain, address := addressId,
              amount := amount, interest := interest, maturity := maturity, fee := fee,
              expiration := expiration, block := toText env.head,
              sighash := signer : Order }.serializeToString),
          env.feeEntry sha signer, walletEntry sha state signer (balance - txFee)])
  /-- An ask order of the signer is offered to a bid order of another party. -/
  | addOffer {askOrderId bidOrderId : Text} {expiration : UInt64} {balance : Int}
      {askInterest askMaturity bidInterest bidMaturity : Int}
      (covers : Covers sha state signer txFee balance)
      (fresh : state.get (sha.makeAddress .offer (askOrderId ++ bidOrderId)) = [])
      (askPresent : state.get askOrderId ≠ [])
      (askOwner : (orderAt state askOrderId).sighash = signer)
      (askUnexpired : Unexpired (orderAt state askOrderId).expiration
        (orderAt state askOrderId).block env.head)
      (sourcePresent : state.get (orderAt state askOrderId).address ≠ [])
      (bidPresent : state.get bidOrderId ≠ [])
      (bidOwner : (orderAt state bidOrderId).sighash ≠ signer)
      (bidUnexpired : Unexpired (orderAt state bidOrderId).expiration
        (orderAt state bidOrderId).block env.head)
      (targetPresent : state.get (orderAt state bidOrderId).address ≠ [])
      (blockchain : (addressAt state (orderAt state askOrderId).address).blockchain =
        (addressAt state (orderAt state bidOrderId).address).blockchain)
      (network : (addressAt state (orderAt state askOrderId).address).network =
        (addressAt state (orderAt state bidOrderId).address).network)
      (amount : (orderAt state askOrderId).amount = (orderAt state bidOrderId).amount)
      (fee : ¬ (orderAt state bidOrderId).fee < (orderAt state askOrderId).fee)
      (askInterestRead : IsAmount (orderAt state askOrderId).interest askInterest)
      (askMaturityRead : IsAmount (orderAt state askOrderId).maturity askMaturity)
      (askMaturityNonzero : askMaturity ≠ 0)
      (bidInterestRead : IsAmount (orderAt state bidOrderId).interest bidInterest)
      (bidMaturityRead : IsAmount (orderAt state bidOrderId).maturity bidMaturity)
      (bidMaturityNonzero : bidMaturity ≠ 0)
      (rate : askInterest.tdiv askMaturity ≤ bidInterest.tdiv bidMaturity) :
      Executed sha env signer state (.addOffer askOrderId bidOrderId expiration)
        (state.setAll [(sha.makeAddress .offer (askOrderId ++ bidOrderId),
            state.get (orderAt state bidOrderId).address),
          (sha.makeAddress .offer (askOrderId ++ bidOrderId),
            { blockchain := (addressAt state (orderAt state askOrderId).address).blockchain,
              askOrder := askOrderId, bidOrder := bidOrderId, expiration := expiration,
              block := toText env.head, sighash := signer : Offer }.serializeToString),
          env.feeEntry sha signer, walletEntry sha state signer (balance - txFee)])
  /-- The fundraiser accepts an offer and puts up the fee of the deal. -/
  | addDealOrder {offerId : Text} {expiration : UInt64} {balance fee : Int}
      (fresh : state.get (sha.makeAddress .dealOrder offerId) = [])
      (present : state.get offerId ≠ [])
      (unexpired : Unexpired (offerAt state offerId).expiration (offerAt state offerId).block
        env.head)
      (bidPresent : state.get (offerAt state offerId).bidOrder ≠ [])
      (bidOwner : (orderAt state (offerAt state offerId).bidOrder).sighash = signer)
      (askPresent : state.get (offerAt state offerId).askOrder ≠ [])
      (feeRead : IsAmount (orderAt state (offerAt state offerId).bidOrder).fee fee)
      (covers : Covers sha state signer (fee + txFee) balance) :
      Executed sha env signer state (.addDealOrder offerId expiration)
        ((((state.setAll [(sha.makeAddress .dealOrder offerId,
            { blockchain := (offerAt state offerId).blockchain,
              srcAddress := (orderAt state (offerAt state offerId).askOrder).address,
              dstAddress := (orderAt state (offerAt state offerId).bidOrder).address,
              amount := (orderAt state (offerAt state offerId).bidOrder).amount,
              interest := (orderAt state (offerAt state offerId).bidOrder).interest,
              maturity := (orderAt state (offerAt state offerId).bidOrder).maturity,
              fee := (orderAt state (offerAt state offerId).bidOrder).fee,
              expiration := expiration, block := toText env.head,
              sighash := signer : DealOrder }.serializeToString),
          env.feeEntry sha signer,
          walletEntry sha state signer (balance - (fee + txFee))]).erase
            (offerAt state offerId).askOrder).erase (offerAt state offerId).bidOrder).erase offerId)
  /-- The investor proves that the loan was paid out and earns the fee of the deal. -/
  | completeDealOrder {dealOrderId transferId : Text} {balance fee : Int}
      (present : state.get dealOrderId ≠ [])
      (pending : (dealAt state dealOrderId).loanTransfer = [])
      (sourcePresent : state.get (dealAt state dealOrderId).srcAddress ≠ [])
      (owner : (addressAt state (dealAt state dealOrderId).srcAddress).sighash = signer)
      (unexpired : Unexpired (dealAt state dealOrderId).expiration
        (dealAt state dealOrderId).block env.head)
      (transferPresent : state.get transferId ≠ [])
      (order : (transferAt state transferId).order = dealOrderId)
      (amount : (transferAt state transferId).amount = (dealAt state dealOrderId).amount)
      (registrant : (transferAt state transferId).sighash = signer)
      (unprocessed : (transferAt state transferId).processed = false)
      (feeRead : IsAmount (dealAt state dealOrderId).fee fee)
      (covers : Covers sha state signer (txFee - fee) balance) :
      Executed sha env signer state (.completeDealOrder dealOrderId transferId)
        (state.setAll [(dealOrderId,
            { dealAt state dealOrderId with
              loanTransfer := transferId, block := toText env.head }.serializeToString),
          (transferId, { transferAt state transferId with processed := true }.serializeToString),
          env.feeEntry sha signer, walletEntry sha state signer (balance + (fee - txFee))])
  /-- The fundraiser locks a completed deal. -/
  | lockDealOrder {dealOrderId : Text} {balance : Int}
      (covers : Covers sha state signer txFee balance) (present : state.get dealOrderId ≠ [])
      (unlocked : (dealAt state dealOrderId).lock = [])
      (completed : (dealAt state dealOrderId).loanTransfer ≠ [])
      (owner : (dealAt state dealOrderId).sighash = signer) :
      Executed sha env signer state (.lockDealOrder dealOrderId)
        (state.setAll [(dealOrderId,
            { dealAt state dealOrderId with lock := signer }.serializeToString),
          env.feeEntry sha signer, walletEntry sha state signer (balance - txFee)])
  /-- The fundraiser closes a deal that is locked by the fundraiser and paid back. -/
  | closeDealOrder {dealOrderId transferId : Text} {balance start maturity principal interest : Int}
      {repaid : Int} (covers : Covers sha state signer txFee balance)
      (present : state.get dealOrderId ≠ [])
      (unclosed : (dealAt state dealOrderId).repaymentTransfer = [])
      (owner : (dealAt state dealOrderId).sighash = signer)
      (locked : (dealAt state dealOrderId).lock = signer)
      (transferPresent : state.get transferId ≠ [])
      (order : (transferAt state transferId).order = dealOrderId)
      (registrant : (transferAt state transferId).sighash = signer)
      (unprocessed : (transferAt state transferId).processed = false)
      (loanPresent : state.get (dealAt state dealOrderId).loanTransfer ≠ [])
      (startRead : IsAmount (transferAt state (dealAt state dealOrderId).loanTransfer).block start)
      (maturityRead : IsAmount (dealAt state dealOrderId).maturity maturity)
      (maturityNonzero : maturity ≠ 0)
      (principalRead : IsAmount (dealAt state dealOrderId).amount principal)
      (interestRead : IsAmount (dealAt state dealOrderId).interest interest)
      (repaidRead : IsAmount (transferAt state transferId).amount repaid)
      (enough : calcInterest principal ((env.head - start + maturity).tdiv maturity).toNat
        interest ≤ repaid) :
      Executed sha env signer state (.closeDealOrder dealOrderId transferId)
        (state.setAll [(dealOrderId,
            { dealAt state dealOrderId with repaymentTransfer := transferId }.serializeToString),
          (transferId, { transferAt state transferId with processed := true }.serializeToString),
          env.feeEntry sha signer, walletEntry sha state signer (balance - txFee)])
  /-- The investor releases the fundraiser. -/
  | exempt {dealOrderId transferId : Text} {balance : Int}
      (covers : Covers sha state signer txFee balance) (present : state.get dealOrderId ≠ [])
      (unclosed : (dealAt state dealOrderId).repaymentTransfer = [])
      (transferPresent : state.get transferId ≠ [])
      (order : (transferAt state transferId).order = dealOrderId)
      (unprocessed : (transferAt state transferId).processed = false)
      (sourcePresent : state.get (dealAt state dealOrderId).srcAddress ≠ [])
      (owner : (addressAt state (dealAt state dealOrderId).srcAddress).sighash = signer) :
      Executed sha env signer state (.exempt dealOrderId transferId)
        (state.setAll [(dealOrderId,
            { dealAt state dealOrderId with repaymentTransfer := transferId }.serializeToString),
          (transferId, { transferAt state transferId with processed := true }.serializeToString),
          env.feeEntry sha signer, walletEntry sha state signer (balance - txFee)])
  /-- A collector orders the purchase of an active loan. -/
  | addRepaymentOrder {dealOrderId addressId amount : Text} {expiration : UInt64}
      {balance amount' : Int} (covers : Covers sha state signer txFee balance)
      (amountRead : IsAmount amount amount')
      (fresh : state.get (sha.makeAddress .repaymentOrder env.guid) = [])
      (fundraiser : (dealAt state dealOrderId).sighash ≠ signer)
      (completed : (dealAt state dealOrderId).loanTransfer ≠ [])
      (unclosed : (dealAt state dealOrderId).repaymentTransfer = [])
      (investor : (addressAt state (dealAt state dealOrderId).srcAddress).sighash ≠ signer)
      (blockchain : (addressAt state (dealAt state dealOrderId).srcAddress).blockchain =
        (addressAt state addressId).blockchain)
      (network : (addressAt state (dealAt state dealOrderId).srcAddress).network =
        (addressAt state addressId).network)
      (value : (addressAt state (dealAt state dealOrderId).srcAddress).value ≠
        (addressAt state addressId).value) :
      Executed sha env signer state (.addRepaymentOrder dealOrderId addressId amount expiration)
        (state.setAll [(sha.makeAddress .repaymentOrder env.guid,
            { blockchain := (addressAt state (dealAt state dealOrderId).srcAddress).blockchain,
              srcAddress := addressId, dstAddress := (dealAt state dealOrderId).srcAddress,
              amount := amount, expiration := expiration, block := toText env.head,
              deal := dealOrderId, sighash := signer : RepaymentOrder }.serializeToString),
          env.feeEntry sha signer, walletEntry sha state signer (balance - txFee)])
  /-- The owner of the target address accepts a repayment order and locks the deal. -/
  | completeRepaymentOrder {repaymentOrderId : Text} {balance : Int}
      (covers : Covers sha state signer txFee balance)
      (present : state.get repaymentOrderId ≠ [])
      (targetPresent : state.get (repaymentAt state repaymentOrderId).dstAddress ≠ [])
      (owner : (addressAt state (repaymentAt state repaymentOrderId).dstAddress).sighash = signer)
      (dealPresent : state.get (repaymentAt state repaymentOrderId).deal ≠ [])
      (unlocked : (dealAt state (repaymentAt state repaymentOrderId).deal).lock = []) :
      Executed sha env signer state (.completeRepaymentOrder repaymentOrderId)
        (state.setAll [(repaymentOrderId,
            { repaymentAt state repaymentOrderId with
              previousOwner := signer }.serializeToString),
          ((repaymentAt state repaymentOrderId).deal,
            { dealAt state (repaymentAt state repaymentOrderId).deal with
              lock := signer }.serializeToString),
          env.feeEntry sha signer, walletEntry sha state signer (balance - txFee)])
  /-- The collector takes the loan over. -/
  | closeRepaymentOrder {repaymentOrderId transferId : Text} {balance : Int}
      (covers : Covers sha state signer txFee balance)
      (present : state.get repaymentOrderId ≠ [])
      (owner : (repaymentAt state repaymentOrderId).sighash = signer)
      (transferPresent : state.get transferId ≠ [])
      (order : (transferAt state transferId).order = repaymentOrderId)
      (amount : (transferAt state transferId).amount = (repaymentAt state repaymentOrderId).amount)
      (registrant : (transferAt state transferId).sighash = signer)
      (unprocessed : (transferAt state transferId).processed = false)
      (dealPresent : state.get (repaymentAt state repaymentOrderId).deal ≠ [])
      (sourcePresent :
        state.get (dealAt state (repaymentAt state repaymentOrderId).deal).srcAddress ≠ [])
      (locked : (dealAt state (repaymentAt state repaymentOrderId).deal).lock =
        (addressAt state
          (dealAt state (repaymentAt state repaymentOrderId).deal).srcAddress).sighash) :
      Executed sha env signer state (.closeRepaymentOrder repaymentOrderId transferId)
        (state.setAll [(repaymentOrderId,
            { repaymentAt state repaymentOrderId with transfer := transferId }.serializeToString),
          ((repaymentAt state repaymentOrderId).deal,
            { dealAt state (repaymentAt state repaymentOrderId).deal with
              srcAddress := (repaymentAt state repaymentOrderId).srcAddress,
              lock := [] }.serializeToString),
          (transferId, { transferAt state transferId with processed := true }.serializeToString),
          env.feeEntry sha signer, walletEntry sha state signer (balance - txFee)])
  /-- Coins burned elsewhere are collected. -/
  | collectCoins {ethAddress amountString blockchainTxId : Text} {amount : Int} {wallet : Wallet}
      (numeral : IsAmount amountString amount)
      (fresh : state.get (sha.makeAddress .erc20 blockchainTxId) = [])
      (verified : env.Verified
        (collectCoinsCommand ethAddress signer amountString blockchainTxId))
      (credited : Credited (state.get (sha.walletId signer)) amountString amount wallet) :
      Executed sha env signer state
        (.collectCoins ethAddress amountString amount blockchainTxId)
        (state.setAll [(sha.walletId signer, wallet.serializeToString),
          (sha.makeAddress .erc20 blockchainTxId, amountString)])
  /-- Expired records are swept, fees refunded and blocks rewarded. -/
  | housekeeping {blockIdx : Int} {after : State}
      (swept : Relation.ReflTransGen (Swept sha env blockIdx) state after) :
      Executed sha env signer state (.housekeeping blockIdx) after

end Creditcoin
