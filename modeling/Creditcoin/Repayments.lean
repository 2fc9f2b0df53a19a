import Creditcoin.Funds

/-!
# Repayment orders

A collector orders the purchase of an active loan, the owner of the investor's address accepts
the order by locking the deal, and the collector closes it with the transfer that paid the
price. Acceptance is recorded in the order and in the deal; closing looks at the deal only.
-/

namespace Creditcoin

open Lib

/-- `AddRepaymentOrder`. -/
def addRepaymentOrder (sha : Sha512) (query : Query) : App Unit := do
  let mySighash ← getSighash sha
  let (walletId, wallet) ← charge sha mySighash
  let dealOrderId ← Exec.lift (query.getStringLower "p1" "dealOrderId")
  let addressId ← Exec.lift (query.getStringLower "p2" "addressId")
  let (amount, _) ← Exec.lift (query.getBigint "p3" "amount")
  let expiration ← Exec.lift (query.getUint64 "p4" "expiration")
  let guid ← getGuid
  let id := sha.makeAddress .repaymentOrder guid
  let stateData ← getStateData id false
  Exec.failIf (stateData ≠ []) (rejection "Duplicated id")
  let stateData ← getStateData dealOrderId false
  let dealOrder := DealOrder.parseFromString stateData
  Exec.failIf (dealOrder.sighash = mySighash)
    (rejection "Fundraisers cannot create repayment orders")
  Exec.failIf (dealOrder.loanTransfer = [] ∨ dealOrder.repaymentTransfer ≠ [])
    (rejection "A repayment order can be created only for a deal with an active loan")
  let stateData ← getStateData dealOrder.srcAddress false
  let srcAddress := Address.parseFromString stateData
  Exec.failIf (srcAddress.sighash = mySighash)
    (rejection "Investors cannot create repayment orders")
  let stateData ← getStateData addressId false
  let newAddress := Address.parseFromString stateData
  Exec.failIf (srcAddress.blockchain ≠ newAddress.blockchain ∨
      srcAddress.network ≠ newAddress.network ∨ srcAddress.value = newAddress.value)
    (rejection "Invalid address")
  let block ← lastBlock
  let repaymentOrder : RepaymentOrder :=
    { blockchain := srcAddress.blockchain, srcAddress := addressId,
      dstAddress := dealOrder.srcAddress, amount := amount, expiration := expiration,
      block := block, deal := dealOrderId, sighash := mySighash }
  let states ← addFeeAndWallet sha mySighash [(id, repaymentOrder.serializeToString)] walletId
    wallet
  setStates states

/-- `CompleteRepaymentOrder`. -/
def completeRepaymentOrder (sha : Sha512) (query : Query) : App Unit := do
  let mySighash ← getSighash sha
  let (walletId, wallet) ← charge sha mySighash
  let repaymentOrderId ← Exec.lift (query.getStringLower "p1" "repaymentOrderId")
  let stateData ← getStateData repaymentOrderId true
  let repaymentOrder := RepaymentOrder.parseFromString stateData
  let stateData ← getStateData repaymentOrder.dstAddress true
  let address := Address.parseFromString stateData
  Exec.failIf (address.sighash ≠ mySighash)
    (rejection "Only an investor can complete a repayment order")
  let stateData ← getStateData repaymentOrder.deal true
  let dealOrder := DealOrder.parseFromString stateData
  Exec.failIf (dealOrder.lock ≠ []) (rejection "The deal has been already locked")
  let states ← addFeeAndWallet sha mySighash
    [(repaymentOrderId, { repaymentOrder with previousOwner := mySighash }.serializeToString),
      (repaymentOrder.deal, { dealOrder with lock := mySighash }.serializeToString)] walletId wallet
  setStates states

/-- `CloseRepaymentOrder`. -/
def closeRepaymentOrder (sha : Sha512) (query : Query) : App Unit := do
  let mySighash ← getSighash sha
  let (walletId, wallet) ← charge sha mySighash
  let repaymentOrderId ← Exec.lift (query.getStringLower "p1" "repaymentOrderId")
  let transferId ← Exec.lift (query.getStringLower "p2" "transferId")
  let stateData ← getStateData repaymentOrderId true
  let repaymentOrder := RepaymentOrder.parseFromString stateData
  Exec.failIf (repaymentOrder.sighash ≠ mySighash)
    (rejection "Only a collector can close a repayment order")
  let stateData ← getStateData transferId true
  let transfer := Transfer.parseFromString stateData
  Exec.failIf (transfer.order ≠ repaymentOrderId ∨ transfer.amount ≠ repaymentOrder.amount)
    (rejection "The transfer doesn't match the order")
  Exec.failIf (transfer.sighash ≠ mySighash) (rejection "The transfer doesn't match the signer")
  Exec.failIf (transfer.processed = true) (rejection "The transfer has been already processed")
  let stateData ← getStateData repaymentOrder.deal true
  let dealOrder := DealOrder.parseFromString stateData
  let stateData ← getStateData dealOrder.srcAddress true
  let srcAddress := Address.parseFromString stateData
  Exec.failIf (dealOrder.lock ≠ srcAddress.sighash) (rejection "The deal must be locked")
  let states ← addFeeAndWallet sha mySighash
    [(repaymentOrderId, { repaymentOrder with transfer := transferId }.serializeToString),
      (repaymentOrder.deal,
        { dealOrder with srcAddress := repaymentOrder.srcAddress, lock := [] }.serializeToString),
      (transferId, { transfer with processed := true }.serializeToString)] walletId wallet
  setStates states

/-! ## What they do to the ledger -/

section Effects

variable {sha : Sha512} {env : Env} {memory after : Memory} {query : Query}

/-- `AddRepaymentOrder` orders the purchase of an active loan. -/
theorem addRepaymentOrder_executed (live : env.Live)
    (ran : addRepaymentOrder sha query env memory = .ok ((), after)) :
    ∃ signer command, env.sighash sha = .ok signer ∧ query.addRepaymentOrder = .ok command ∧
      Executed sha env signer memory.state command after.state := by
  simp only [addRepaymentOrder, Exec.bind_ok, Exec.lift_ok, getSighash_ok, Exec.failIf_ok,
    charge_ok live, getStateData_optional_ok live, lastBlock_ok, getGuid_ok, addFeeAndWallet_ok,
    setStates_ok live, existsAndEq, exists_const, true_and, and_assoc, Prod.exists, ne_eq,
    not_not, not_or] at ran
  obtain ⟨signer, signed, balance, covers, dealOrderId, dealRead, addressId, addressRead, amount,
    amount', amountRead, expiration, expirationRead, fresh, fundraiser, completed, unclosed,
    investor, blockchain, network, value, rfl⟩ := ran
  have executed : Executed sha env signer memory.state
      (.addRepaymentOrder dealOrderId addressId amount expiration) _ :=
    .addRepaymentOrder covers (Query.getBigint_ok.mp amountRead).2 fresh fundraiser completed
      unclosed investor blockchain network value
  refine ⟨signer, _, signed, ?_, executed⟩
  rw [Query.addRepaymentOrder, dealRead, addressRead, amountRead, expirationRead]
  rfl

/-- `CompleteRepaymentOrder` accepts an order and locks its deal. -/
theorem completeRepaymentOrder_executed (live : env.Live)
    (ran : completeRepaymentOrder sha query env memory = .ok ((), after)) :
    ∃ signer command, env.sighash sha = .ok signer ∧ query.completeRepaymentOrder = .ok command ∧
      Executed sha env signer memory.state command after.state := by
  simp only [completeRepaymentOrder, Exec.bind_ok, Exec.lift_ok, getSighash_ok, Exec.failIf_ok,
    charge_ok live, getStateData_existing_ok live, addFeeAndWallet_ok, setStates_ok live,
    existsAndEq, exists_const, true_and, and_assoc, Prod.exists, ne_eq, not_not] at ran
  obtain ⟨balance, repaymentOrderId, signed, covers, orderRead, present, targetPresent,
    dealPresent, unlocked, rfl⟩ := ran
  have executed : Executed sha env _ memory.state (.completeRepaymentOrder repaymentOrderId) _ :=
    .completeRepaymentOrder covers present targetPresent rfl dealPresent unlocked
  refine ⟨_, _, signed, ?_, executed⟩
  rw [Query.completeRepaymentOrder, orderRead]
  rfl

/-- `CloseRepaymentOrder` hands the loan over. -/
theorem closeRepaymentOrder_executed (live : env.Live)
    (ran : closeRepaymentOrder sha query env memory = .ok ((), after)) :
    ∃ signer command, env.sighash sha = .ok signer ∧ query.closeRepaymentOrder = .ok command ∧
      Executed sha env signer memory.state command after.state := by
  simp only [closeRepaymentOrder, Exec.bind_ok, Exec.lift_ok, getSighash_ok, Exec.failIf_ok,
    charge_ok live, getStateData_existing_ok live, addFeeAndWallet_ok, setStates_ok live,
    existsAndEq, exists_const, true_and, and_assoc, Prod.exists, ne_eq, not_not, not_or,
    Bool.not_eq_true] at ran
  obtain ⟨balance, transferId, signed, covers, orderRead, transferRead, present, transferPresent,
    amount, registrant, unprocessed, dealPresent, sourcePresent, locked, rfl⟩ := ran
  have executed : Executed sha env _ memory.state
      (.closeRepaymentOrder (transferAt memory.state transferId).order transferId) _ :=
    .closeRepaymentOrder covers present rfl transferPresent rfl amount registrant unprocessed
      dealPresent sourcePresent locked
  refine ⟨_, _, signed, ?_, executed⟩
  rw [Query.closeRepaymentOrder, orderRead, transferRead]
  rfl

end Effects

end Creditcoin
