import Creditcoin.Funds

/-!
# Addresses and transfers

An owner registers addresses on other blockchains, and registers the payments made from them
for deal orders and repayment orders. A transfer for a deal runs from the investor to the
fundraiser, or back when it has a gain.
-/

namespace Creditcoin

open Lib

/-- `RegisterAddress`. -/
def registerAddress (sha : Sha512) (query : Query) : App Unit := do
  let blockchain ← Exec.lift (query.getStringLower "p1" "blockchain")
  let addressString ← Exec.lift (query.getString "p2" "address")
  let network ← Exec.lift (query.getStringLower "p3" "network")
  let addressStringLower := addressString.toLower
  let mySighash ← getSighash sha
  let (walletId, wallet) ← charge sha mySighash
  let id := sha.makeAddress .addr (blockchain ++ addressStringLower ++ network)
  let stateData ← getStateData id false
  Exec.failIf (stateData ≠ []) (rejection "The address has been already registered")
  let address : Address :=
    { blockchain := blockchain, value := addressString, network := network, sighash := mySighash }
  let states ← addFee sha mySighash
    [(id, address.serializeToString), (walletId, wallet.serializeToString)]
  setStates states

/-- The ends and the principal of a transfer, by the kind of its order. -/
def transferEnds (sha : Sha512) (gain : Int) (orderId stateData : Text) :
    Except Exception (Text × Text × Text) :=
  if orderId.startsWith (sha.space .dealOrder) then
    let order := DealOrder.parseFromString stateData
    if gain = 0 then .ok (order.srcAddress, order.dstAddress, order.amount)
    else .ok (order.dstAddress, order.srcAddress, order.amount)
  else if orderId.startsWith (sha.space .repaymentOrder) then
    if gain ≠ 0 then .error (rejection "gain must be 0 for repayment orders")
    else
      let order := RepaymentOrder.parseFromString stateData
      .ok (order.srcAddress, order.dstAddress, order.amount)
  else .error (rejection "unexpected referred order")

/-- The amount of a transfer; a payment that took place is verified. -/
def transferAmount (srcAddress dstAddress : Address) (orderId amountString : Text) (gain : Int)
    (blockchainTxId : Text) : App Text :=
  if blockchainTxId = "0".toList then pure "0".toList
  else do
    let amount ← Exec.lift (getBigint amountString false)
    let amountString := toText (amount + gain)
    verify (registerTransferCommand srcAddress dstAddress orderId amountString blockchainTxId)
    pure amountString

/-- `RegisterTransfer`. -/
def registerTransfer (sha : Sha512) (query : Query) : App Unit := do
  let mySighash ← getSighash sha
  let (walletId, wallet) ← charge sha mySighash
  let gainString ← Exec.lift (query.getString "p1" "gain")
  let gain ← Exec.lift (getBigint gainString true)
  let orderId ← Exec.lift (query.getStringLower "p2" "orderId")
  let blockchainTxId ← Exec.lift (query.getStringLower "p3" "blockchainTxId")
  let stateData ← getStateData orderId true
  let (srcAddressId, dstAddressId, amountString) ←
    Exec.lift (transferEnds sha gain orderId stateData)
  let stateData ← getStateData srcAddressId true
  let srcAddress := Address.parseFromString stateData
  let stateData ← getStateData dstAddressId true
  let dstAddress := Address.parseFromString stateData
  Exec.failIf (srcAddress.sighash ≠ mySighash) (rejection "Only the owner can register")
  let blockchain := srcAddress.blockchain
  Exec.failIf (dstAddress.blockchain ≠ blockchain)
    (rejection "Source and destination addresses must be on the same blockchain")
  let network := srcAddress.network
  Exec.failIf (dstAddress.network ≠ network)
    (rejection "Source and destination addresses must be on the same network")
  let transferId := sha.makeAddress .transfer (blockchain ++ blockchainTxId ++ network)
  let stateData ← getStateData transferId false
  Exec.failIf (stateData ≠ []) (rejection "The transfer has been already registered")
  let amountString ← transferAmount srcAddress dstAddress orderId amountString gain blockchainTxId
  let block ← lastBlock
  let transfer : Transfer :=
    { blockchain := blockchain, srcAddress := srcAddressId, dstAddress := dstAddressId,
      order := orderId, amount := amountString, tx := blockchainTxId, block := block,
      processed := false, sighash := mySighash }
  let states ← addFeeAndWallet sha mySighash [(transferId, transfer.serializeToString)] walletId
    wallet
  setStates states

/-! ## What they do to the ledger -/

section Effects

variable {sha : Sha512} {env : Env} {memory after : Memory} {query : Query}

/-- `RegisterAddress` adds an address of the signer. -/
theorem registerAddress_executed (live : env.Live)
    (ran : registerAddress sha query env memory = .ok ((), after)) :
    ∃ signer command, env.sighash sha = .ok signer ∧ query.registerAddress = .ok command ∧
      Executed sha env signer memory.state command after.state := by
  simp only [registerAddress, Exec.bind_ok, Exec.lift_ok, getSighash_ok, Exec.failIf_ok,
    charge_ok live, getStateData_optional_ok live, addFee_ok, setStates_ok live, existsAndEq,
    exists_const, true_and, and_assoc, Prod.exists, ne_eq, not_not] at ran
  obtain ⟨blockchain, blockchainRead, address, addressRead, network, networkRead, signer, signed,
    balance, covers, fresh, rfl⟩ := ran
  have executed : Executed sha env signer memory.state (.registerAddress blockchain address network)
    _ := .registerAddress covers fresh
  refine ⟨signer, _, signed, ?_, executed⟩
  rw [Query.registerAddress, blockchainRead, addressRead, networkRead]
  rfl

/-- The ends of a transfer are those of its order. -/
theorem transferEnds_pays {state : State} {gain : Int} {orderId source target principal : Text}
    (found : transferEnds sha gain orderId (state.get orderId) = .ok (source, target, principal)) :
    Pays sha state orderId gain source target principal := by
  unfold transferEnds at found
  split at found
  · rename_i deal
    have kind := sha.kindOf_eq_some_iff_startsWith.mpr deal
    split at found
    · rename_i none
      cases found
      exact .loan kind none
    · rename_i some
      cases found
      exact .repayment kind some
  · split at found
    · rename_i repayment
      have kind := sha.kindOf_eq_some_iff_startsWith.mpr repayment
      split at found
      · cases found
      · rename_i none
        cases found
        exact .sale kind (not_not.mp none)
    · cases found

/-- A transfer that took place carries the verified amount. -/
theorem transferAmount_ok (live : env.Live) {srcAddress dstAddress : Address} {gain : Int}
    {orderId principal blockchainTxId amount : Text} :
    transferAmount srcAddress dstAddress orderId principal gain blockchainTxId env memory =
        .ok (amount, after) ↔
      (if blockchainTxId = "0".toList then amount = "0".toList
        else ∃ value, IsAmount principal value ∧ amount = toText (value + gain) ∧
          env.Verified (registerTransferCommand srcAddress dstAddress orderId amount
            blockchainTxId)) ∧ after = memory := by
  unfold transferAmount
  by_cases zero : blockchainTxId = "0".toList
  · rw [if_pos zero, if_pos zero, Exec.pure_ok]
  · simp only [if_neg zero, Exec.bind_ok, Exec.lift_ok, getBigint_ok, verify_ok live, Exec.pure_ok,
      existsAndEq, exists_const, true_and, and_assoc]
    constructor
    · rintro ⟨value, read, verified, rfl, rfl⟩
      exact ⟨⟨value, read, rfl, verified⟩, rfl⟩
    · rintro ⟨⟨value, read, rfl, verified⟩, rfl⟩
      exact ⟨value, read, verified, rfl, rfl⟩

/-- `RegisterTransfer` adds a transfer of the owner of its source. -/
theorem registerTransfer_executed (live : env.Live)
    (ran : registerTransfer sha query env memory = .ok ((), after)) :
    ∃ signer command, env.sighash sha = .ok signer ∧ query.registerTransfer = .ok command ∧
      Executed sha env signer memory.state command after.state := by
  simp only [registerTransfer, Exec.bind_ok, Exec.lift_ok, getSighash_ok, Exec.failIf_ok,
    charge_ok live, getStateData_existing_ok live, getStateData_optional_ok live, lastBlock_ok,
    getBigint_signed_ok, transferAmount_ok live, addFeeAndWallet_ok, setStates_ok live,
    existsAndEq, exists_const, true_and, and_assoc, Prod.exists, ne_eq, not_not] at ran
  -- the owner check identifies the signer
  obtain ⟨balance, gainString, gain, orderId, blockchainTxId, source, target, principal, signed,
    covers, gainRead, gainNumeral, orderRead, txRead, order, ends, sourcePresent, targetPresent,
    blockchain, network, fresh, amount, paid, rfl⟩ := ran
  have executed := Executed.registerTransfer covers order (transferEnds_pays ends) sourcePresent
    targetPresent rfl blockchain network fresh paid
  refine ⟨_, _, signed, ?_, executed⟩
  rw [Query.registerTransfer, gainRead, orderRead, txRead]
  change (getBigint gainString true >>= fun gain => _) = _
  rw [getBigint_signed_ok.mpr gainNumeral]
  rfl

end Effects

end Creditcoin
