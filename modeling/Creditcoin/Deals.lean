import Creditcoin.Orders

/-!
# Deal orders

A fundraiser accepts an offer, which consumes the offer and both orders and puts up the fee of
the investor. The investor completes the deal with the transfer that paid the loan out; the
fundraiser locks the deal and closes it with the transfer that paid it back. The investor may
also exempt the fundraiser with any unprocessed transfer for the deal.
-/

namespace Creditcoin

open Lib

/-- `AddDealOrder`. -/
def addDealOrder (sha : Sha512) (query : Query) : App Unit := do
  let offerId ← Exec.lift (query.getStringLower "p1" "offerId")
  let expiration ← Exec.lift (query.getUint64 "p2" "expiration")
  let id := sha.makeAddress .dealOrder offerId
  let stateData ← getStateData id false
  Exec.failIf (stateData ≠ []) (rejection "Duplicate id")
  let mySighash ← getSighash sha
  let stateData ← getStateData offerId true
  let offer := Offer.parseFromString stateData
  checkExpiration offer.expiration offer.block
  let stateData ← getStateData offer.bidOrder true
  let bidOrder := Order.parseFromString stateData
  Exec.failIf (bidOrder.sighash ≠ mySighash) (rejection "Only a fundraiser can add a deal order")
  let stateData ← getStateData offer.askOrder true
  let askOrder := Order.parseFromString stateData
  let walletId := sha.walletId mySighash
  let stateData ← getStateData walletId true
  let wallet := Wallet.parseFromString stateData
  let balance ← Exec.lift (getBigint wallet.amount false)
  let bidFee ← Exec.lift (getBigint bidOrder.fee false)
  let fee := bidFee + txFee
  Exec.failIf (balance < fee) (rejection "Insufficient funds")
  let wallet := { wallet with amount := toText (balance - fee) }
  let block ← lastBlock
  let dealOrder : DealOrder :=
    { blockchain := offer.blockchain, srcAddress := askOrder.address,
      dstAddress := bidOrder.address, amount := bidOrder.amount, interest := bidOrder.interest,
      maturity := bidOrder.maturity, fee := bidOrder.fee, expiration := expiration,
      block := block, sighash := mySighash }
  let states ← addFeeAndWallet sha mySighash [(id, dealOrder.serializeToString)] walletId wallet
  setStates states
  deleteState offer.askOrder
  deleteState offer.bidOrder
  deleteState offerId

/-- `CompleteDealOrder`. -/
def completeDealOrder (sha : Sha512) (query : Query) : App Unit := do
  let dealOrderId ← Exec.lift (query.getStringLower "p1" "dealOrderId")
  let transferId ← Exec.lift (query.getStringLower "p2" "transferId")
  let mySighash ← getSighash sha
  let stateData ← getStateData dealOrderId true
  let dealOrder := DealOrder.parseFromString stateData
  Exec.failIf (dealOrder.loanTransfer ≠ []) (rejection "The deal has been already completed")
  let stateData ← getStateData dealOrder.srcAddress true
  let srcAddress := Address.parseFromString stateData
  Exec.failIf (srcAddress.sighash ≠ mySighash) (rejection "Only an investor can complete a deal")
  checkExpiration dealOrder.expiration dealOrder.block
  let stateData ← getStateData transferId true
  let transfer := Transfer.parseFromString stateData
  Exec.failIf (transfer.order ≠ dealOrderId ∨ transfer.amount ≠ dealOrder.amount)
    (rejection "The transfer doesn't match the deal order")
  Exec.failIf (transfer.sighash ≠ mySighash) (rejection "The transfer doesn't match the signer")
  Exec.failIf (transfer.processed = true) (rejection "The transfer has been already processed")
  let walletId := sha.walletId mySighash
  let stateData ← getStateData walletId true
  let dealFee ← Exec.lift (getBigint dealOrder.fee false)
  let fee := dealFee - txFee
  -- the wallet exists, so the branch of the source for a missing one is not taken
  let wallet := Wallet.parseFromString stateData
  let balance ← Exec.lift (getBigint wallet.amount false)
  Exec.failIf (balance + fee < 0) (rejection "Insufficient funds")
  let wallet := { wallet with amount := toText (balance + fee) }
  let block ← lastBlock
  let states ← addFeeAndWallet sha mySighash
    [(dealOrderId,
        { dealOrder with loanTransfer := transferId, block := block }.serializeToString),
      (transferId, { transfer with processed := true }.serializeToString)] walletId wallet
  setStates states

/-- `LockDealOrder`. -/
def lockDealOrder (sha : Sha512) (query : Query) : App Unit := do
  let mySighash ← getSighash sha
  let (walletId, wallet) ← charge sha mySighash
  let dealOrderId ← Exec.lift (query.getStringLower "p1" "dealOrderId")
  let stateData ← getStateData dealOrderId true
  let dealOrder := DealOrder.parseFromString stateData
  Exec.failIf (dealOrder.lock ≠ []) (rejection "The deal has been already locked")
  Exec.failIf (dealOrder.loanTransfer = []) (rejection "The deal has not been completed yet")
  Exec.failIf (mySighash ≠ dealOrder.sighash) (rejection "Only a fundraiser can lock a deal")
  let states ← addFeeAndWallet sha mySighash
    [(dealOrderId, { dealOrder with lock := mySighash }.serializeToString)] walletId wallet
  setStates states

/-- The amount due at a height, as `CloseDealOrder` computes it. -/
def amountDue (head start maturity amount interest : Int) : Int :=
  let ticks := ((head - start) + maturity).tdiv maturity
  calcInterest amount ticks.toNat interest

/-- `CloseDealOrder`. -/
def closeDealOrder (sha : Sha512) (query : Query) : App Unit := do
  let mySighash ← getSighash sha
  let (walletId, wallet) ← charge sha mySighash
  let dealOrderId ← Exec.lift (query.getStringLower "p1" "dealOrderId")
  let transferId ← Exec.lift (query.getStringLower "p2" "transferId")
  let stateData ← getStateData dealOrderId true
  let dealOrder := DealOrder.parseFromString stateData
  Exec.failIf (dealOrder.repaymentTransfer ≠ []) (rejection "The deal has been already closed")
  Exec.failIf (mySighash ≠ dealOrder.sighash) (rejection "Only a fundraiser can close a deal")
  Exec.failIf (dealOrder.lock ≠ mySighash) (rejection "The deal must be locked first")
  let stateData ← getStateData transferId true
  let repaymentTransfer := Transfer.parseFromString stateData
  Exec.failIf (repaymentTransfer.order ≠ dealOrderId)
    (rejection "The transfer doesn't match the order")
  Exec.failIf (repaymentTransfer.sighash ≠ mySighash)
    (rejection "The transfer doesn't match the signer")
  Exec.failIf (repaymentTransfer.processed = true)
    (rejection "The transfer has been already processed")
  let stateData ← getStateData dealOrder.loanTransfer true
  let loanTransfer := Transfer.parseFromString stateData
  let head ← lastBlockInt
  let start ← Exec.lift (getBigint loanTransfer.block false)
  let maturity ← Exec.lift (getBigint dealOrder.maturity false)
  Exec.failIf (maturity = 0) (.standard "Division by zero.".toList)
  let principal ← Exec.lift (getBigint dealOrder.amount false)
  let interest ← Exec.lift (getBigint dealOrder.interest false)
  let repaid ← Exec.lift (getBigint repaymentTransfer.amount false)
  Exec.failIf (repaid < amountDue head start maturity principal interest)
    (rejection "The transfer doesn't match the order")
  let states ← addFeeAndWallet sha mySighash
    [(dealOrderId, { dealOrder with repaymentTransfer := transferId }.serializeToString),
      (transferId, { repaymentTransfer with processed := true }.serializeToString)] walletId wallet
  setStates states

/-- `Exempt`. -/
def exempt (sha : Sha512) (query : Query) : App Unit := do
  let mySighash ← getSighash sha
  let (walletId, wallet) ← charge sha mySighash
  let dealOrderId ← Exec.lift (query.getStringLower "p1" "dealOrderId")
  let transferId ← Exec.lift (query.getStringLower "p2" "transferId")
  let stateData ← getStateData dealOrderId true
  let dealOrder := DealOrder.parseFromString stateData
  Exec.failIf (dealOrder.repaymentTransfer ≠ []) (rejection "The deal has been already closed")
  let stateData ← getStateData transferId true
  let transfer := Transfer.parseFromString stateData
  Exec.failIf (transfer.order ≠ dealOrderId) (rejection "The transfer doesn't match the order")
  Exec.failIf (transfer.processed = true) (rejection "The transfer has been already processed")
  let stateData ← getStateData dealOrder.srcAddress true
  let address := Address.parseFromString stateData
  Exec.failIf (mySighash ≠ address.sighash) (rejection "Only an investor can exempt a deal")
  let states ← addFeeAndWallet sha mySighash
    [(dealOrderId, { dealOrder with repaymentTransfer := transferId }.serializeToString),
      (transferId, { transfer with processed := true }.serializeToString)] walletId wallet
  setStates states

/-! ## What they do to the ledger -/

section Effects

variable {sha : Sha512} {env : Env} {memory after : Memory} {query : Query}

/-- `AddDealOrder` turns an offer into a deal. -/
theorem addDealOrder_executed (live : env.Live)
    (ran : addDealOrder sha query env memory = .ok ((), after)) :
    ∃ signer command, env.sighash sha = .ok signer ∧ query.addDealOrder = .ok command ∧
      Executed sha env signer memory.state command after.state := by
  simp only [addDealOrder, Exec.bind_ok, Exec.lift_ok, getSighash_ok, Exec.failIf_ok,
    getStateData_existing_ok live, getStateData_optional_ok live, lastBlock_ok, getBigint_ok,
    checkExpiration_ok, addFeeAndWallet_ok, setStates_ok live, deleteState_ok live, existsAndEq,
    exists_const, true_and, and_assoc, ne_eq, not_not, Int.not_lt] at ran
  obtain ⟨offerId, offerRead, expiration, expirationRead, fresh, signed, present, unexpired,
    bidPresent, askPresent, walletPresent, balance, balanceRead, fee, feeRead, covered, rfl⟩ := ran
  have covers : Covers sha memory.state _ (fee + txFee) balance :=
    ⟨walletPresent, balanceRead.1, balanceRead.2, covered⟩
  have executed : Executed sha env _ memory.state (.addDealOrder offerId expiration) _ :=
    .addDealOrder fresh present unexpired bidPresent rfl askPresent feeRead covers
  refine ⟨_, _, signed, ?_, executed⟩
  rw [Query.addDealOrder, offerRead, expirationRead]
  rfl

/-- `CompleteDealOrder` records the loan. -/
theorem completeDealOrder_executed (live : env.Live)
    (ran : completeDealOrder sha query env memory = .ok ((), after)) :
    ∃ signer command, env.sighash sha = .ok signer ∧ query.completeDealOrder = .ok command ∧
      Executed sha env signer memory.state command after.state := by
  simp only [completeDealOrder, Exec.bind_ok, Exec.lift_ok, getSighash_ok, Exec.failIf_ok,
    getStateData_existing_ok live, lastBlock_ok, getBigint_ok, checkExpiration_ok,
    addFeeAndWallet_ok, setStates_ok live, existsAndEq, exists_const, true_and, and_assoc, ne_eq,
    not_not, not_or, Int.not_lt, Bool.not_eq_true] at ran
  -- the order of the transfer identifies the deal, its investor the signer
  obtain ⟨transferId, orderRead, transferRead, signed, present, pending, sourcePresent, unexpired,
    transferPresent, amount, registrant, unprocessed, walletPresent, fee, feeRead, balance,
    balanceRead, covered, rfl⟩ := ran
  have covers : Covers sha memory.state _ (txFee - fee) balance :=
    ⟨walletPresent, balanceRead.1, balanceRead.2, by omega⟩
  have executed : Executed sha env _ memory.state
      (.completeDealOrder (transferAt memory.state transferId).order transferId) _ :=
    .completeDealOrder present pending sourcePresent rfl unexpired transferPresent rfl amount
      registrant unprocessed feeRead covers
  refine ⟨_, _, signed, ?_, executed⟩
  rw [Query.completeDealOrder, orderRead, transferRead]
  rfl

/-- `LockDealOrder` locks a completed deal. -/
theorem lockDealOrder_executed (live : env.Live)
    (ran : lockDealOrder sha query env memory = .ok ((), after)) :
    ∃ signer command, env.sighash sha = .ok signer ∧ query.lockDealOrder = .ok command ∧
      Executed sha env signer memory.state command after.state := by
  simp only [lockDealOrder, Exec.bind_ok, Exec.lift_ok, getSighash_ok, Exec.failIf_ok,
    charge_ok live, getStateData_existing_ok live, addFeeAndWallet_ok, setStates_ok live,
    existsAndEq, exists_const, true_and, and_assoc, Prod.exists, ne_eq, not_not] at ran
  obtain ⟨balance, dealOrderId, signed, covers, dealRead, present, unlocked, completed, rfl⟩ := ran
  have executed : Executed sha env _ memory.state (.lockDealOrder dealOrderId) _ :=
    .lockDealOrder covers present unlocked completed rfl
  refine ⟨_, _, signed, ?_, executed⟩
  rw [Query.lockDealOrder, dealRead]
  rfl

/-- `CloseDealOrder` records the repayment. -/
theorem closeDealOrder_executed (live : env.Live)
    (ran : closeDealOrder sha query env memory = .ok ((), after)) :
    ∃ signer command, env.sighash sha = .ok signer ∧ query.closeDealOrder = .ok command ∧
      Executed sha env signer memory.state command after.state := by
  simp only [closeDealOrder, Exec.bind_ok, Exec.lift_ok, getSighash_ok, Exec.failIf_ok,
    charge_ok live, getStateData_existing_ok live, lastBlockInt_ok, getBigint_ok,
    addFeeAndWallet_ok, setStates_ok live, existsAndEq, exists_const, true_and, and_assoc,
    Prod.exists, ne_eq, not_not, Int.not_lt, Bool.not_eq_true] at ran
  obtain ⟨balance, transferId, signed, covers, orderRead, transferRead, present, unclosed, locked,
    transferPresent, registrant, unprocessed, loanPresent, start, startRead, maturity, maturityRead,
    nonzero, principal, principalRead, interest, interestRead, repaid, repaidRead, enough, rfl⟩ :=
    ran
  have executed : Executed sha env _ memory.state
      (.closeDealOrder (transferAt memory.state transferId).order transferId) _ :=
    .closeDealOrder covers present unclosed rfl locked transferPresent rfl registrant unprocessed
      loanPresent startRead maturityRead nonzero principalRead interestRead repaidRead enough
  refine ⟨_, _, signed, ?_, executed⟩
  rw [Query.closeDealOrder, orderRead, transferRead]
  rfl

/-- `Exempt` closes a deal without the fundraiser. -/
theorem exempt_executed (live : env.Live)
    (ran : exempt sha query env memory = .ok ((), after)) :
    ∃ signer command, env.sighash sha = .ok signer ∧ query.exempt = .ok command ∧
      Executed sha env signer memory.state command after.state := by
  simp only [exempt, Exec.bind_ok, Exec.lift_ok, getSighash_ok, Exec.failIf_ok, charge_ok live,
    getStateData_existing_ok live, addFeeAndWallet_ok, setStates_ok live, existsAndEq,
    exists_const, true_and, and_assoc, Prod.exists, ne_eq, not_not, Bool.not_eq_true] at ran
  obtain ⟨balance, transferId, signed, covers, orderRead, transferRead, present, unclosed,
    transferPresent, unprocessed, sourcePresent, rfl⟩ := ran
  have executed : Executed sha env _ memory.state
      (.exempt (transferAt memory.state transferId).order transferId) _ :=
    .exempt covers present unclosed transferPresent rfl unprocessed sourcePresent rfl
  refine ⟨_, _, signed, ?_, executed⟩
  rw [Query.exempt, orderRead, transferRead]
  rfl

end Effects

end Creditcoin
