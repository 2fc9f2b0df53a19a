import Creditcoin.Funds

/-!
# Ask orders, bid orders and offers

Both sides of a loan place orders under keys made from their nonces. An investor offers an ask
order to a bid order of another party when amounts, fees and rates match; the amounts and the
fees are compared as texts, the rates as quotients of the parsed numbers.
-/

namespace Creditcoin

open Lib

/-- The check that an order of a block is still open. -/
def checkExpiration (expiration : UInt64) (block : Text) : App Unit := do
  let head ← lastBlockInt
  let start ← Exec.lift (getBigint block false)
  let elapsed := head - start
  Exec.failIf ((expiration.toNat : Int) < elapsed) (rejection "The order has expired")

/-- `AddAskOrder` and `AddBidOrder`, which differ in the kind of the record they write. -/
def addOrder (sha : Sha512) (kind : Kind) (query : Query) : App Unit := do
  let mySighash ← getSighash sha
  let (walletId, wallet) ← charge sha mySighash
  let addressId ← Exec.lift (query.getStringLower "p1" "addressId")
  let (amountString, _) ← Exec.lift (query.getBigint "p2" "amount")
  let (interest, _) ← Exec.lift (query.getBigint "p3" "interest")
  let (maturity, _) ← Exec.lift (query.getBigint "p4" "maturity")
  let (fee, _) ← Exec.lift (query.getBigint "p5" "fee")
  let expiration ← Exec.lift (query.getUint64 "p6" "expiration")
  let guid ← getGuid
  let id := sha.makeAddress kind guid
  let stateData ← getStateData id false
  Exec.failIf (stateData ≠ []) (rejection "Duplicate id")
  let stateData ← getStateData addressId true
  let address := Address.parseFromString stateData
  Exec.failIf (address.sighash ≠ mySighash) (rejection "The address doesn't belong to the party")
  let block ← lastBlock
  let order : Order :=
    { blockchain := address.blockchain, address := addressId, amount := amountString,
      interest := interest, maturity := maturity, fee := fee, expiration := expiration,
      block := block, sighash := mySighash }
  let states ← addFeeAndWallet sha mySighash [(id, order.serializeToString)] walletId wallet
  setStates states

/-- `AddAskOrder`. -/
def addAskOrder (sha : Sha512) (query : Query) : App Unit := addOrder sha .askOrder query

/-- `AddBidOrder`. -/
def addBidOrder (sha : Sha512) (query : Query) : App Unit := addOrder sha .bidOrder query

/-- `getBigint(interest) / getBigint(maturity)`. -/
def interestRate (order : Order) : Except Exception Int :=
  match getBigint order.interest false with
  | .error failure => .error failure
  | .ok interest =>
    match getBigint order.maturity false with
    | .error failure => .error failure
    | .ok maturity =>
      if maturity = 0 then .error (.standard "Division by zero.".toList)
      else .ok (interest.tdiv maturity)

/-- Whether an ask order and a bid order match, tested from left to right. -/
def ordersMatch (askOrder : AskOrder) (bidOrder : BidOrder) : Except Exception Bool :=
  if askOrder.amount ≠ bidOrder.amount ∨ bidOrder.fee < askOrder.fee then .ok false
  else
    match interestRate askOrder with
    | .error failure => .error failure
    | .ok askRate =>
      match interestRate bidOrder with
      | .error failure => .error failure
      | .ok bidRate => .ok (askRate ≤ bidRate)

/-- `AddOffer`. -/
def addOffer (sha : Sha512) (query : Query) : App Unit := do
  let mySighash ← getSighash sha
  let (walletId, wallet) ← charge sha mySighash
  let askOrderId ← Exec.lift (query.getStringLower "p1" "askOrderId")
  let bidOrderId ← Exec.lift (query.getStringLower "p2" "bidOrderId")
  let expiration ← Exec.lift (query.getUint64 "p3" "expiration")
  let id := sha.makeAddress .offer (askOrderId ++ bidOrderId)
  let stateData ← getStateData id false
  Exec.failIf (stateData ≠ []) (rejection "Duplicate id")
  let stateData ← getStateData askOrderId true
  let askOrder := Order.parseFromString stateData
  Exec.failIf (askOrder.sighash ≠ mySighash) (rejection "Only an investor can add an offer")
  checkExpiration askOrder.expiration askOrder.block
  let stateData ← getStateData askOrder.address true
  let srcAddress := Address.parseFromString stateData
  let stateData ← getStateData bidOrderId true
  let bidOrder := Order.parseFromString stateData
  Exec.failIf (bidOrder.sighash = mySighash)
    (rejection "The ask and bid orders are from the same party")
  checkExpiration bidOrder.expiration bidOrder.block
  let stateData ← getStateData bidOrder.address true
  let dstAddress := Address.parseFromString stateData
  Exec.failIf (srcAddress.blockchain ≠ dstAddress.blockchain ∨
      srcAddress.network ≠ dstAddress.network)
    (rejection "The ask and bid orders must be on the same blockchain and network")
  let matched ← Exec.lift (ordersMatch askOrder bidOrder)
  Exec.failIf (matched = false) (rejection "The ask and bid orders do not match")
  let block ← lastBlock
  let offer : Offer :=
    { blockchain := srcAddress.blockchain, askOrder := askOrderId, bidOrder := bidOrderId,
      expiration := expiration, block := block, sighash := mySighash }
  -- the record of the target address is written first, under the key of the offer
  let states ← addFeeAndWallet sha mySighash
    [(id, stateData), (id, offer.serializeToString)] walletId wallet
  setStates states

/-! ## What they do to the ledger -/

section Effects

variable {sha : Sha512} {env : Env} {memory after : Memory} {query : Query}

/-- The check passes for open orders. -/
theorem checkExpiration_ok {expiration : UInt64} {block : Text} {result : Unit} :
    checkExpiration expiration block env memory = .ok (result, after) ↔
      Unexpired expiration block env.head ∧ after = memory := by
  simp only [checkExpiration, Exec.bind_ok, lastBlockInt_ok, Exec.lift_ok, getBigint_ok,
    Exec.failIf_ok, existsAndEq, true_and, and_assoc, Unexpired, Int.not_lt]
  constructor
  · rintro ⟨start, read, unexpired, rfl⟩
    exact ⟨⟨start, read, unexpired⟩, rfl⟩
  · rintro ⟨⟨start, read, unexpired⟩, rfl⟩
    exact ⟨start, read, unexpired, rfl⟩

/-- A rate is the quotient of two amounts. -/
theorem interestRate_ok {order : Order} {rate : Int} :
    interestRate order = .ok rate ↔
      ∃ interest maturity, IsAmount order.interest interest ∧ IsAmount order.maturity maturity ∧
        maturity ≠ 0 ∧ rate = interest.tdiv maturity := by
  unfold interestRate
  constructor
  · intro found
    cases interestRead : getBigint order.interest false with
    | error failure => simp [interestRead] at found
    | ok interest =>
      cases maturityRead : getBigint order.maturity false with
      | error failure => simp [interestRead, maturityRead] at found
      | ok maturity =>
        by_cases zero : maturity = 0
        · simp [interestRead, maturityRead, zero] at found
        · simp only [interestRead, maturityRead, if_neg zero, Except.ok.injEq] at found
          exact ⟨interest, maturity, getBigint_ok.mp interestRead, getBigint_ok.mp maturityRead,
            zero, found.symm⟩
  · rintro ⟨interest, maturity, interestRead, maturityRead, nonzero, rfl⟩
    simp only [getBigint_ok.mpr interestRead, getBigint_ok.mpr maturityRead, if_neg nonzero]

/-- Matching orders agree on the amount, and neither the fee nor the rate asked for is higher. -/
theorem ordersMatch_true {askOrder : AskOrder} {bidOrder : BidOrder} :
    ordersMatch askOrder bidOrder = .ok true ↔
      askOrder.amount = bidOrder.amount ∧ ¬ bidOrder.fee < askOrder.fee ∧
        ∃ askRate bidRate, interestRate askOrder = .ok askRate ∧
          interestRate bidOrder = .ok bidRate ∧ askRate ≤ bidRate := by
  unfold ordersMatch
  by_cases differs : askOrder.amount ≠ bidOrder.amount ∨ bidOrder.fee < askOrder.fee
  · rw [if_pos differs]
    constructor
    · intro matched
      cases matched
    · rintro ⟨amount, fee, _⟩
      rcases differs with other | lower
      · exact absurd amount other
      · exact absurd lower fee
  · rw [if_neg differs]
    have agree := not_or.mp differs
    cases askRead : interestRate askOrder with
    | error failure => simp
    | ok askRate =>
      cases bidRead : interestRate bidOrder with
      | error failure => simp
      | ok bidRate =>
        simp only [Except.ok.injEq, decide_eq_true_eq, existsAndEq, true_and]
        exact ⟨fun rate => ⟨not_not.mp agree.1, agree.2, rate⟩, fun found => found.2.2⟩

/-- `AddAskOrder` and `AddBidOrder` place an order for an address of the signer. -/
theorem addOrder_executed (live : env.Live) (side : Side)
    (ran : addOrder sha side.kind query env memory = .ok ((), after)) :
    ∃ signer command, env.sighash sha = .ok signer ∧ query.addOrder side = .ok command ∧
      Executed sha env signer memory.state command after.state := by
  simp only [addOrder, Exec.bind_ok, Exec.lift_ok, getSighash_ok, Exec.failIf_ok,
    charge_ok live, getStateData_existing_ok live, getStateData_optional_ok live, lastBlock_ok,
    getGuid_ok, addFeeAndWallet_ok, setStates_ok live, existsAndEq, exists_const, true_and,
    and_assoc, Prod.exists, ne_eq, not_not] at ran
  obtain ⟨balance, addressId, amount, amount', interest, interest', maturity, maturity', fee, fee',
    expiration, signed, covers, addressRead, amountRead, interestRead, maturityRead, feeRead,
    expirationRead, fresh, present, rfl⟩ := ran
  have executed : Executed sha env _ memory.state
      (.addOrder side addressId amount interest maturity fee expiration) _ :=
    .addOrder covers (Query.getBigint_ok.mp amountRead).2 (Query.getBigint_ok.mp interestRead).2
      (Query.getBigint_ok.mp maturityRead).2 (Query.getBigint_ok.mp feeRead).2 fresh present rfl
  refine ⟨_, _, signed, ?_, executed⟩
  rw [Query.addOrder, addressRead, amountRead, interestRead, maturityRead, feeRead, expirationRead]
  rfl

/-- `AddOffer` pairs an ask order of the signer with a bid order of another party. -/
theorem addOffer_executed (live : env.Live)
    (ran : addOffer sha query env memory = .ok ((), after)) :
    ∃ signer command, env.sighash sha = .ok signer ∧ query.addOffer = .ok command ∧
      Executed sha env signer memory.state command after.state := by
  simp only [addOffer, Exec.bind_ok, Exec.lift_ok, getSighash_ok, Exec.failIf_ok,
    charge_ok live, getStateData_existing_ok live, getStateData_optional_ok live, lastBlock_ok,
    checkExpiration_ok, addFeeAndWallet_ok, setStates_ok live, existsAndEq, exists_const,
    true_and, and_assoc, Prod.exists, ne_eq, not_not, not_or] at ran
  obtain ⟨balance, askOrderId, bidOrderId, expiration, signed, covers, askRead, bidRead,
    expirationRead, fresh, askPresent, askUnexpired, sourcePresent, bidPresent, bidOwner,
    bidUnexpired, targetPresent, blockchain, network, matched, matching, accepted, rfl⟩ := ran
  rw [Bool.not_eq_false] at accepted
  subst accepted
  obtain ⟨amount, fee, askRate, bidRate, askRateRead, bidRateRead, rate⟩ :=
    ordersMatch_true.mp matching
  obtain ⟨askInterest, askMaturity, askInterestRead, askMaturityRead, askNonzero, rfl⟩ :=
    interestRate_ok.mp askRateRead
  obtain ⟨bidInterest, bidMaturity, bidInterestRead, bidMaturityRead, bidNonzero, rfl⟩ :=
    interestRate_ok.mp bidRateRead
  have executed : Executed sha env _ memory.state (.addOffer askOrderId bidOrderId expiration) _ :=
    .addOffer covers fresh askPresent rfl askUnexpired sourcePresent bidPresent bidOwner
      bidUnexpired targetPresent blockchain network amount fee askInterestRead askMaturityRead
      askNonzero bidInterestRead bidMaturityRead bidNonzero rate
  refine ⟨_, _, signed, ?_, executed⟩
  rw [Query.addOffer, askRead, bidRead, expirationRead]
  rfl

end Effects

end Creditcoin
