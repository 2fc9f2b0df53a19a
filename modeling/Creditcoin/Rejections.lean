import Creditcoin.Script

/-!
# How commands fail

The executor drops a transaction that leaves by `InvalidTransaction` and sends any other one
again. Every part of a command either succeeds or refuses its input, except for two divisions:
the rates compared by `AddOffer` and the ticks counted by `CloseDealOrder` divide by a maturity,
and a maturity of zero is accepted when an order is placed.
-/

namespace Creditcoin

open Lib

/-- The gateway sockets do not throw. -/
structure Env.Quiet (env : Env) : Prop where
  /-- The local gateway answers or stays silent. -/
  localGateway : ∀ gatewayCommand what,
    env.localGateway gatewayCommand ≠ .error (.standard what)
  /-- The external gateway answers or stays silent. -/
  externalGateway : ∀ gatewayCommand what,
    env.externalGateway gatewayCommand ≠ .error (.standard what)

/-! ## Parts of commands -/

section Parts

variable {sha : Sha512} {env : Env} {memory : Memory} {query : Query} {what text : Text}

/-- A rejection is no other exception. -/
@[simp] theorem rejection_standard {message : String} :
    rejection message = .standard what ↔ False := by
  simp [rejection]

/-- A public key is refused by a rejection. -/
@[simp] theorem compress_standard : compress text = .error (.standard what) ↔ False := by
  unfold compress
  dsimp only
  repeat' split
  all_goals simp

/-- The signer is refused by a rejection. -/
@[simp] theorem sighash_standard : env.sighash sha = .error (.standard what) ↔ False := by
  unfold Env.sighash
  split
  · simp
  · split
    · simp
    · rename_i failure refused
      rw [Except.error.injEq, iff_false]
      rintro rfl
      exact compress_standard.mp refused

/-- The signer is refused by a rejection. -/
@[simp] theorem getSighash_standard :
    getSighash sha env memory = .error (.standard what) ↔ False := by
  simp [getSighash]

/-- A numeral is refused by a rejection. -/
@[simp] theorem getBigint_standard {allowNegative : Bool} :
    getBigint text allowNegative = .error (.standard what) ↔ False := by
  unfold getBigint
  split
  · simp
  · split <;> simp

/-- A parameter is refused by a rejection. -/
@[simp] theorem getString_standard {id name : String} :
    query.getString id name = .error (.standard what) ↔ False := by
  unfold Query.getString Query.getParam
  cases query.find id.toList with
  | none => simp
  | some param => simp

/-- A lower case parameter is refused by a rejection. -/
@[simp] theorem getStringLower_standard {id name : String} :
    query.getStringLower id name = .error (.standard what) ↔ False := by
  unfold Query.getStringLower
  cases read : query.getString id name with
  | ok text => simp
  | error failure =>
    rw [Except.error.injEq, iff_false]
    rintro rfl
    exact getString_standard.mp read

/-- A numeral parameter is refused by a rejection. -/
@[simp] theorem getBigintParameter_standard {id name : String} :
    query.getBigint id name = .error (.standard what) ↔ False := by
  unfold Query.getBigint
  cases read : query.getString id name with
  | ok text =>
    cases parsed : getBigint text false with
    | ok value => simp [parsed]
    | error failure =>
      simp only [parsed, Except.error.injEq, iff_false]
      rintro rfl
      exact getBigint_standard.mp parsed
  | error failure =>
    rw [Except.error.injEq, iff_false]
    rintro rfl
    exact getString_standard.mp read

/-- An expiration parameter is refused by a rejection. -/
@[simp] theorem getUint64_standard {id name : String} :
    query.getUint64 id name = .error (.standard what) ↔ False := by
  unfold Query.getUint64
  cases read : query.getString id name with
  | ok text =>
    dsimp only
    split <;> simp
  | error failure =>
    rw [Except.error.injEq, iff_false]
    rintro rfl
    exact getString_standard.mp read

/-- A read never fails. -/
@[simp] theorem getState_error {id : Text} {failure : Exception} :
    getState id env memory = .error failure ↔ False := by
  simp [getState]

/-- A missing record is refused by a rejection. -/
@[simp] theorem getStateData_standard {id : Text} {existing : Bool} :
    getStateData id existing env memory = .error (.standard what) ↔ False := by
  simp [getStateData]

/-- The last block is always there. -/
@[simp] theorem lastBlockInt_error {failure : Exception} :
    lastBlockInt env memory = .error failure ↔ False := by
  simp [lastBlockInt]

/-- The last block is always there. -/
@[simp] theorem lastBlock_error {failure : Exception} :
    lastBlock env memory = .error failure ↔ False := by
  simp [lastBlock]

/-- The nonce is always there. -/
@[simp] theorem getGuid_error {failure : Exception} :
    getGuid env memory = .error failure ↔ False := by
  simp [getGuid]

/-- A write never fails. -/
@[simp] theorem setStates_error {states : List (Text × Text)} {failure : Exception} :
    setStates states env memory = .error failure ↔ False := by
  simp [setStates]

/-- A write never fails. -/
@[simp] theorem setStatePointer_error {stateData id : Text} {failure : Exception} :
    setStatePointer stateData id env memory = .error failure ↔ False := by
  simp [setStatePointer]

/-- A write never fails. -/
@[simp] theorem setState_error {stateData id : Text} {failure : Exception} :
    setState stateData id env memory = .error failure ↔ False := by
  simp [setState]

/-- A deletion never fails. -/
@[simp] theorem deleteState_error {id : Text} {failure : Exception} :
    deleteState id env memory = .error failure ↔ False := by
  simp [deleteState]

/-- A fee record is always added. -/
@[simp] theorem addFeeAndWallet_error {sighash walletId : Text} {wallet : Wallet}
    {states : List (Text × Text)} {failure : Exception} :
    addFeeAndWallet sha sighash states walletId wallet env memory = .error failure ↔ False := by
  simp [addFeeAndWallet, addFee]

/-- A fee record is always added. -/
@[simp] theorem addFee_error {sighash : Text} {states : List (Text × Text)} {failure : Exception} :
    addFee sha sighash states env memory = .error failure ↔ False := by
  simp [addFee]

/-- A charge is refused by a rejection. -/
@[simp] theorem charge_standard {sighash : Text} :
    charge sha sighash env memory = .error (.standard what) ↔ False := by
  simp [charge]

/-- A credit is refused by a rejection. -/
@[simp] theorem credit_standard {stateData amountString : Text} {amount : Int} :
    credit stateData amountString amount = .error (.standard what) ↔ False := by
  unfold credit
  split
  · simp
  · dsimp only
    cases read : getBigint (Wallet.parseFromString stateData).amount false with
    | ok balance => simp
    | error failure =>
      rw [Except.error.injEq, iff_false]
      rintro rfl
      exact getBigint_standard.mp read

/-- An expired order is refused by a rejection. -/
@[simp] theorem checkExpiration_standard {expiration : UInt64} {block : Text} :
    checkExpiration expiration block env memory = .error (.standard what) ↔ False := by
  simp [checkExpiration]

/-- A request is refused by a rejection. -/
theorem verify_standard (quiet : env.Quiet) {gatewayCommand : Text} :
    verify gatewayCommand env memory = .error (.standard what) ↔ False := by
  have answered : env.gatewayResponse gatewayCommand ≠ .error (.standard what) := by
    unfold Env.gatewayResponse
    intro failed
    split at failed
    · rename_i failure local'
      rw [Except.error.injEq] at failed
      exact quiet.localGateway _ _ (failed ▸ local')
    · dsimp only at failed
      repeat' split at failed
      all_goals try cases failed
      rename_i external
      exact quiet.externalGateway _ _ external
  simp [verify, Exec.ite_error, answered]

/-- The ends of a transfer are refused by a rejection. -/
@[simp] theorem transferEnds_standard {gain : Int} {orderId stateData : Text} :
    transferEnds sha gain orderId stateData = .error (.standard what) ↔ False := by
  unfold transferEnds
  dsimp only
  repeat' split
  all_goals simp

/-- The amount of a transfer is refused by a rejection. -/
theorem transferAmount_standard (quiet : env.Quiet) {srcAddress dstAddress : Address}
    {orderId amountString blockchainTxId : Text} {gain : Int} :
    transferAmount srcAddress dstAddress orderId amountString gain blockchainTxId env memory =
      .error (.standard what) ↔ False := by
  simp [transferAmount, Exec.ite_error, verify_standard quiet]

/-- A listing passes no exception on. -/
theorem filter_standard (live : env.Live) {start : Text} {lister : Text → Text → App Unit} :
    filter start lister env memory = .error (.standard what) ↔ False := by
  have converted (failure : Exception) : filterFailure failure ≠ .standard what := by
    cases failure <;> simp [filterFailure]
  simp [filter, Exec.ite_error, live.transitioning, converted]

/-- Rewarding passes no exception on. -/
@[simp] theorem reward_standard {processedBlockIdx uptoBlockIdx : Int} :
    reward sha processedBlockIdx uptoBlockIdx env memory = .error (.standard what) ↔ False := by
  have converted (failure : Exception) : rewardFailure failure ≠ .standard what := by
    cases failure <;> simp [rewardFailure, rpcFailure]
  simp only [reward, Exec.mapError_error, converted, and_false, exists_false]

/-- The marker is refused by a rejection. -/
@[simp] theorem getLastProcessedBlockIdx_standard :
    getLastProcessedBlockIdx sha env memory = .error (.standard what) ↔ False := by
  simp [getLastProcessedBlockIdx, Exec.ite_error]

/-- The setting of the gateway signer is missing by a rejection. -/
theorem verifyGatewaySigner_standard :
    verifyGatewaySigner sha env memory = .error (.standard what) ↔ False := by
  simp only [verifyGatewaySigner, Exec.bind_error, Exec.asks_error, Exec.ite_error,
    Exec.pure_error, getSighash_standard, Exec.asksExcept_error, Exec.failIf_error,
    rejection_standard, and_false, exists_false, or_false, false_or, iff_false, not_exists, not_and]
  intro _ _ _ _ _ _ _ missing
  repeat' split at missing
  all_goals simp at missing

/-- `Housekeeping` is refused by a rejection. -/
theorem housekeeping_standard (live : env.Live) :
    housekeeping sha query env memory = .error (.standard what) ↔ False := by
  simp only [housekeeping, sweep, Exec.bind_error, Exec.ite_error, Exec.lift_error,
    getBigintParameter_standard, getLastProcessedBlockIdx_standard, lastBlockInt_error,
    reward_standard, setState_error, Exec.pure_error, verifyGatewaySigner_standard,
    filter_standard live, and_false, exists_false, or_false]

end Parts

/-! ## The two divisions -/

/-- The rate of an order divides by zero. -/
structure Order.Rateless (order : Order) : Prop where
  /-- The dividend is read. -/
  interest : ∃ interest, IsAmount order.interest interest
  /-- The divisor is zero. -/
  maturity : IsAmount order.maturity 0

/-- What a command has checked when it divides by zero. -/
inductive DividesByZero (sha : Sha512) (env : Env) (signer : Text) (state : State) :
    Command → Prop
  /-- One of the orders of an offer, of equal amounts and sufficient fee, has no rate. -/
  | addOffer {askOrderId bidOrderId : Text} {expiration : UInt64} {balance : Int}
      (covers : Covers sha state signer txFee balance)
      (fresh : state.get (sha.makeAddress .offer (askOrderId ++ bidOrderId)) = [])
      (askPresent : state.get askOrderId ≠ [])
      (askOwner : (orderAt state askOrderId).sighash = signer)
      (askUnexpired : Unexpired (orderAt state askOrderId).expiration
        (orderAt state askOrderId).block env.head)
      (sourcePresent : state.get (orderAt state askOrderId).address ≠ [])
      (bidPresent : state.get bidOrderId ≠ [])
      (bidOwner : (orderAt state bidOrderId).sighash ≠ signer)
      (bidUnexpired : Unexpired (orderAt state bidOrderId).expiration
        (orderAt state bidOrderId).block env.head)
      (targetPresent : state.get (orderAt state bidOrderId).address ≠ [])
      (blockchain : (addressAt state (orderAt state askOrderId).address).blockchain =
        (addressAt state (orderAt state bidOrderId).address).blockchain)
      (network : (addressAt state (orderAt state askOrderId).address).network =
        (addressAt state (orderAt state bidOrderId).address).network)
      (amount : (orderAt state askOrderId).amount = (orderAt state bidOrderId).amount)
      (fee : ¬ (orderAt state bidOrderId).fee < (orderAt state askOrderId).fee)
      (rateless : (orderAt state askOrderId).Rateless ∨
        (∃ rate, interestRate (orderAt state askOrderId) = .ok rate) ∧
          (orderAt state bidOrderId).Rateless) :
      DividesByZero sha env signer state (.addOffer askOrderId bidOrderId expiration)
  /-- A locked deal with a loan and a transfer of the fundraiser has no maturity. -/
  | closeDealOrder {dealOrderId transferId : Text} {balance start : Int}
      (covers : Covers sha state signer txFee balance) (present : state.get dealOrderId ≠ [])
      (unclosed : (dealAt state dealOrderId).repaymentTransfer = [])
      (fundraiser : (dealAt state dealOrderId).sighash = signer)
      (locked : (dealAt state dealOrderId).lock = signer)
      (transferPresent : state.get transferId ≠ [])
      (order : (transferAt state transferId).order = dealOrderId)
      (registrant : (transferAt state transferId).sighash = signer)
      (unprocessed : (transferAt state transferId).processed = false)
      (loanPresent : state.get (dealAt state dealOrderId).loanTransfer ≠ [])
      (startRead : IsAmount (transferAt state (dealAt state dealOrderId).loanTransfer).block start)
      (maturity : IsAmount (dealAt state dealOrderId).maturity 0) :
      DividesByZero sha env signer state (.closeDealOrder dealOrderId transferId)

section Divisions

variable {sha : Sha512} {env : Env} {memory : Memory} {query : Query} {what : Text}

/-- A rate fails by a rejection unless it divides by zero. -/
theorem interestRate_standard {order : Order} :
    interestRate order = .error (.standard what) ↔
      "Division by zero.".toList = what ∧ order.Rateless := by
  unfold interestRate
  constructor
  · intro failed
    split at failed
    · rename_i failure refused
      rw [Except.error.injEq] at failed
      exact absurd (failed ▸ refused) getBigint_standard.mp
    · rename_i interest interestRead
      split at failed
      · rename_i failure refused
        rw [Except.error.injEq] at failed
        exact absurd (failed ▸ refused) getBigint_standard.mp
      · rename_i maturity maturityRead
        split at failed
        · rename_i zero
          rw [Except.error.injEq, Exception.standard.injEq] at failed
          subst zero
          exact ⟨failed, ⟨interest, getBigint_ok.mp interestRead⟩, getBigint_ok.mp maturityRead⟩
        · cases failed
  · rintro ⟨rfl, ⟨interest, interestRead⟩, maturityRead⟩
    simp only [getBigint_ok.mpr interestRead, getBigint_ok.mpr maturityRead, if_true]

/-- Two orders are compared by their rates only after their amounts and fees agree. -/
theorem ordersMatch_standard {askOrder : AskOrder} {bidOrder : BidOrder} :
    ordersMatch askOrder bidOrder = .error (.standard what) ↔
      askOrder.amount = bidOrder.amount ∧ ¬ bidOrder.fee < askOrder.fee ∧
        "Division by zero.".toList = what ∧ (askOrder.Rateless ∨
          (∃ rate, interestRate askOrder = .ok rate) ∧ bidOrder.Rateless) := by
  unfold ordersMatch
  by_cases differs : askOrder.amount ≠ bidOrder.amount ∨ bidOrder.fee < askOrder.fee
  · rw [if_pos differs]
    simp only [reduceCtorEq, false_iff]
    rintro ⟨amount, fee, _⟩
    exact differs.elim (fun other => other amount) fee
  · rw [if_neg differs]
    have agree : askOrder.amount = bidOrder.amount ∧ ¬ bidOrder.fee < askOrder.fee := by
      simpa only [ne_eq, not_or, not_not] using differs
    have fails (order : Order) : interestRate order = .error (.standard what) ↔
        "Division by zero.".toList = what ∧ order.Rateless := interestRate_standard
    cases askRead : interestRate askOrder with
    | error failure =>
      have askFails := fails askOrder
      simp only [askRead, Except.error.injEq] at askFails
      simp only [Except.error.injEq, askFails, agree, reduceCtorEq, exists_false, false_and,
        or_false, not_false_eq_true, true_and]
    | ok askRate =>
      have rated : ¬ askOrder.Rateless := by
        intro rateless
        rw [interestRate_standard.mpr ⟨rfl, rateless⟩] at askRead
        cases askRead
      cases bidRead : interestRate bidOrder with
      | error failure =>
        have bidFails := fails bidOrder
        simp only [bidRead, Except.error.injEq] at bidFails
        have found : ∃ rate, (Except.ok askRate : Except Exception Int) = .ok rate := ⟨askRate, rfl⟩
        simp only [Except.error.injEq, bidFails, agree, rated, found, not_false_eq_true, true_and,
          false_or]
      | ok bidRate =>
        have rated' : ¬ bidOrder.Rateless := by
          intro rateless
          rw [interestRate_standard.mpr ⟨rfl, rateless⟩] at bidRead
          cases bidRead
        simp only [reduceCtorEq, rated, rated', and_false, or_false]

/-- The parameters of `AddOffer` are read one by one. -/
theorem addOffer_read {command : Command} : query.addOffer = .ok command ↔
    ∃ askOrderId, query.getStringLower "p1" "askOrderId" = .ok askOrderId ∧
      ∃ bidOrderId, query.getStringLower "p2" "bidOrderId" = .ok bidOrderId ∧
      ∃ expiration, query.getUint64 "p3" "expiration" = .ok expiration ∧
      .addOffer askOrderId bidOrderId expiration = command := by
  simp only [Query.addOffer, bind_eq_ok, pure_eq_ok]

/-- The parameters of `CloseDealOrder` are read one by one. -/
theorem closeDealOrder_read {command : Command} : query.closeDealOrder = .ok command ↔
    ∃ dealOrderId, query.getStringLower "p1" "dealOrderId" = .ok dealOrderId ∧
      ∃ transferId, query.getStringLower "p2" "transferId" = .ok transferId ∧
      .closeDealOrder dealOrderId transferId = command := by
  simp only [Query.closeDealOrder, bind_eq_ok, pure_eq_ok]

/-- `AddOffer` fails by a rejection unless it divides by zero. -/
theorem addOffer_standard (live : env.Live) :
    addOffer sha query env memory = .error (.standard what) ↔
      "Division by zero.".toList = what ∧ ∃ signer command, env.sighash sha = .ok signer ∧
        query.addOffer = .ok command ∧ DividesByZero sha env signer memory.state command := by
  simp only [addOffer, Exec.bind_error, Exec.lift_error, getSighash_standard, charge_standard,
    getStringLower_standard, getUint64_standard, getStateData_standard, Exec.failIf_error,
    rejection_standard, checkExpiration_standard, lastBlock_error, addFeeAndWallet_error,
    setStates_error, ordersMatch_standard, getSighash_ok, charge_ok live, Exec.lift_ok,
    Exec.failIf_ok, checkExpiration_ok, getStateData_existing_ok live,
    getStateData_optional_ok live, existsAndEq, exists_const, true_and, and_assoc, Prod.exists,
    ne_eq, not_not, not_or, and_false, exists_false, or_false, false_or]
  constructor
  · rintro ⟨balance, askOrderId, bidOrderId, expiration, signed, covers, askRead, bidRead,
      expirationRead, fresh, askPresent, askUnexpired, sourcePresent, bidPresent, bidOwner,
      bidUnexpired, targetPresent, blockchain, network, amount, fee, thrown, rateless⟩
    exact ⟨thrown, _, _, signed,
      addOffer_read.mpr ⟨_, askRead, _, bidRead, _, expirationRead, rfl⟩,
      .addOffer covers fresh askPresent rfl askUnexpired sourcePresent bidPresent bidOwner
        bidUnexpired targetPresent blockchain network amount fee rateless⟩
  · rintro ⟨thrown, signer, command, signed, read, divides⟩
    obtain ⟨askOrderId, askRead, bidOrderId, bidRead, expiration, expirationRead, rfl⟩ :=
      addOffer_read.mp read
    cases divides with
    | addOffer covers fresh askPresent askOwner askUnexpired sourcePresent bidPresent bidOwner
        bidUnexpired targetPresent blockchain network amount fee rateless =>
      subst askOwner
      exact ⟨_, askOrderId, bidOrderId, expiration, signed, covers, askRead, bidRead,
        expirationRead, fresh, askPresent, askUnexpired, sourcePresent, bidPresent, bidOwner,
        bidUnexpired, targetPresent, blockchain, network, amount, fee, thrown, rateless⟩

/-- `CloseDealOrder` fails by a rejection unless it divides by zero. -/
theorem closeDealOrder_standard (live : env.Live) :
    closeDealOrder sha query env memory = .error (.standard what) ↔
      "Division by zero.".toList = what ∧ ∃ signer command, env.sighash sha = .ok signer ∧
        query.closeDealOrder = .ok command ∧
        DividesByZero sha env signer memory.state command := by
  simp only [closeDealOrder, Exec.bind_error, Exec.lift_error, getSighash_standard,
    charge_standard, getStringLower_standard, getStateData_standard, Exec.failIf_error,
    rejection_standard, lastBlockInt_error, getBigint_standard, addFeeAndWallet_error,
    setStates_error, Exception.standard.injEq, getSighash_ok, charge_ok live, Exec.lift_ok,
    Exec.failIf_ok, getStateData_existing_ok live, lastBlockInt_ok, getBigint_ok, existsAndEq,
    exists_const, true_and, and_assoc, Prod.exists, ne_eq, not_not, and_false, exists_false,
    or_false, false_or]
  constructor
  · rintro ⟨balance, transferId, signed, covers, dealRead, transferRead, present, unclosed, locked,
      transferPresent, registrant, unprocessed, loanPresent, start, startRead, maturity, thrown⟩
    exact ⟨thrown, _, _, signed, closeDealOrder_read.mpr ⟨_, dealRead, _, transferRead, rfl⟩,
      .closeDealOrder covers present unclosed rfl locked transferPresent rfl registrant
        (Bool.not_eq_true _ ▸ unprocessed) loanPresent startRead maturity⟩
  · rintro ⟨thrown, signer, command, signed, read, divides⟩
    obtain ⟨dealOrderId, dealRead, transferId, transferRead, rfl⟩ := closeDealOrder_read.mp read
    cases divides with
    | closeDealOrder covers present unclosed fundraiser locked transferPresent order registrant
        unprocessed loanPresent startRead maturity =>
      subst fundraiser order
      exact ⟨_, transferId, signed, covers, dealRead, transferRead, present, unclosed, locked,
        transferPresent, registrant, Bool.eq_false_iff.mp unprocessed, loanPresent, _, startRead,
        maturity, thrown⟩

end Divisions

/-! ## Commands -/

section Commands

variable {sha : Sha512} {env : Env} {memory : Memory} {query : Query} {what : Text}

/-- Every other verb is refused by a rejection. -/
theorem run_standard (live : env.Live) (quiet : env.Quiet) {verb : Verb} (offer : verb ≠ .addOffer)
    (close : verb ≠ .closeDealOrder) :
    verb.run sha query env memory = .error (.standard what) ↔ False := by
  cases verb with
  | sendFunds => simp [Verb.run, sendFunds]
  | registerAddress => simp [Verb.run, registerAddress]
  | registerTransfer => simp [Verb.run, registerTransfer, transferAmount_standard quiet]
  | addAskOrder => simp [Verb.run, addAskOrder, addOrder]
  | addBidOrder => simp [Verb.run, addBidOrder, addOrder]
  | addOffer => exact absurd rfl offer
  | addDealOrder => simp [Verb.run, addDealOrder]
  | completeDealOrder => simp [Verb.run, completeDealOrder]
  | lockDealOrder => simp [Verb.run, lockDealOrder]
  | closeDealOrder => exact absurd rfl close
  | exempt => simp [Verb.run, exempt]
  | addRepaymentOrder => simp [Verb.run, addRepaymentOrder]
  | completeRepaymentOrder => simp [Verb.run, completeRepaymentOrder]
  | closeRepaymentOrder => simp [Verb.run, closeRepaymentOrder]
  | collectCoins => simp [Verb.run, collectCoins, verify_standard quiet]
  | housekeeping => exact housekeeping_standard live

/-- What a transaction has passed when it divides by zero. -/
def Env.Crashes (sha : Sha512) (env : Env) (state : State) (payload : Json) : Prop :=
  ¬ (env.v2block ≠ 0 ∧ env.v2block < env.head ∧ env.familyVersion.head? = some '1') ∧
    ∃ signer command, env.sighash sha = .ok signer ∧ payload.command = .ok command ∧
      DividesByZero sha env signer state command

/-- A verb is refused by a rejection unless its command divides by zero. -/
theorem run_crashes (live : env.Live) (quiet : env.Quiet) {verb : Verb} :
    verb.run sha query env memory = .error (.standard what) ↔
      "Division by zero.".toList = what ∧ ∃ signer command, env.sighash sha = .ok signer ∧
        verb.command query = .ok command ∧
        DividesByZero sha env signer memory.state command := by
  by_cases offer : verb = .addOffer
  · subst offer
    exact addOffer_standard live
  by_cases close : verb = .closeDealOrder
  · subst close
    exact closeDealOrder_standard live
  rw [run_standard live quiet offer close, false_iff]
  rintro ⟨_, signer, command, _, read, divides⟩
  have named := command_verb read
  cases divides with
  | addOffer => exact offer named.symm
  | closeDealOrder => exact close named.symm

/-- A transaction leaves by a rejection unless it divides by zero. -/
theorem apply_standard (live : env.Live) (quiet : env.Quiet) {payload : Json} :
    apply sha payload env memory = .error (.standard what) ↔
      "Division by zero.".toList = what ∧ env.Crashes sha memory.state payload := by
  have params : cborToParams payload ≠ .error (.standard what) := by
    unfold cborToParams
    repeat' split
    all_goals simp
  simp only [apply, applyCommand, Exec.bind_error, Exec.lift_error, Exec.asksExcept_error,
    Exec.asks_error, Exec.failIf_error, rejection_standard, compress_standard, params, Exec.lift_ok,
    Exec.asksExcept_ok, Exec.asks_ok, Exec.failIf_ok, existsAndEq, exists_const, true_and,
    and_assoc, Prod.exists, and_false, false_or]
  constructor
  · rintro ⟨query, cmd, parsed, compressed, key, version, ran⟩
    cases found : Verb.find cmd with
    | none => simp [found] at ran
    | some verb =>
      simp only [found] at ran
      obtain ⟨thrown, signer, command, signed, read, divides⟩ := (run_crashes live quiet).mp ran
      have commanded : payload.command = .ok command := by
        simp only [Json.command, parsed, found]
        exact read
      refine ⟨thrown, fun refused => version ?_, signer, command, signed, commanded, divides⟩
      simp [refused]
  · rintro ⟨thrown, version, signer, command, signed, commanded, divides⟩
    unfold Json.command at commanded
    cases parsed : cborToParams payload with
    | error failure => simp [parsed] at commanded
    | ok parameters =>
      obtain ⟨query, cmd⟩ := parameters
      simp only [parsed] at commanded
      cases found : Verb.find cmd with
      | none => simp [found] at commanded
      | some verb =>
        simp only [found] at commanded
        have ran : verb.run sha query env memory = .error (.standard what) :=
          (run_crashes live quiet).mpr ⟨thrown, signer, command, signed, commanded, divides⟩
        cases key : compress env.signerPublicKey with
        | error failure => simp [Env.sighash, live.transitioning, key] at signed
        | ok compressed =>
          refine ⟨query, cmd, rfl, compressed, rfl, fun refused => version ?_, ?_⟩
          · simpa [and_assoc] using refused
          · simp only [found]
            exact ran

end Commands

/-! ## Rejections only -/

/-- Every failure of a computation is a rejection. -/
def Rejects (outcome : Except Exception (Unit × Memory)) : Prop :=
  ∀ failure, outcome = .error failure → ∃ what, failure = .invalidTransaction what

/-- A transaction either succeeds or leaves by `InvalidTransaction`, exactly when it does not
divide by a maturity of zero. -/
theorem only_rejections {sha : Sha512} {env : Env} (live : env.Live) (quiet : env.Quiet)
    (payload : Json) (memory : Memory) :
    Rejects (apply sha payload env memory) ↔ ¬ env.Crashes sha memory.state payload := by
  constructor
  · intro rejects crashes
    have thrown := (apply_standard live quiet).mpr ⟨rfl, crashes⟩
    obtain ⟨what, other⟩ := rejects _ thrown
    cases other
  · intro sound failure failed
    cases failure with
    | invalidTransaction what => exact ⟨what, rfl⟩
    | standard what => exact absurd ((apply_standard live quiet).mp failed).2 sound

/-- The gateways of the sample node always answer. -/
theorem sampleNode_quiet (chain : Chain) (signerPublicKey nonce : Text) :
    (chain.serve sampleNode signerPublicKey nonce).Quiet where
  localGateway _ _ answered := nomatch answered
  externalGateway _ _ answered := nomatch answered

/-- A transaction of the sample investor is refused on an empty chain. -/
theorem only_rejections_sample :
    Rejects (apply sample (call "AddOffer" [("p1", []), ("p2", []), ("p3", "100".toList)])
      ((Chain.empty 1).serve sampleNode investorKey "1".toList) ⟨∅, ∅⟩) := by
  refine (only_rejections (Chain.serve_serves _ _).live (sampleNode_quiet _ _ _) _ _).mpr ?_
  rintro ⟨_, signer, command, _, _, divides⟩
  have nothing (id : Text) : (∅ : State).get id = [] := rfl
  cases divides with
  | addOffer covers => exact covers.present (nothing _)
  | closeDealOrder covers => exact covers.present (nothing _)

/-- The sample parties place matching orders, the investor's with a maturity of zero. -/
def zeroMaturity : List Turn :=
  [collect investorKey "1", collect fundraiserKey "2", register investorKey "4" "0x1",
    register fundraiserKey "5" "0x2",
    .submit investorKey "7".toList (call "AddAskOrder" [("p1", sampleAddress "0x1"),
      ("p2", "1000".toList), ("p3", "100".toList), ("p4", "0".toList), ("p5", "1".toList),
      ("p6", "100".toList)]),
    order fundraiserKey "8" "AddBidOrder" "0x2"]

/-- A payload whose parameters are texts. -/
def Json.Textual : Json → Prop
  | .object members => ∀ member ∈ members, ∃ text, member.2 = .string text
  | _ => False

/-- Whether a computation leaves by another exception. -/
def throws : Except Exception (Unit × Memory) → Bool
  | .error (.standard _) => true
  | _ => false

/-- The chain after the two orders. -/
def zeroMaturityChain : Chain := (Chain.empty 1).plays sample sampleNode zeroMaturity

/-- The payload of the offer of the two orders. -/
def zeroMaturityOffer : Json :=
  call "AddOffer" [("p1", sample.makeAddress .askOrder "7".toList),
    ("p2", sample.makeAddress .bidOrder "8".toList), ("p3", "100".toList)]

/-- The offer of the two orders leaves by another exception. -/
theorem zeroMaturity_throws :
    throws (apply sample zeroMaturityOffer
      (zeroMaturityChain.serve sampleNode investorKey "9".toList)
      ⟨zeroMaturityChain.context, ∅⟩) = true := by
  decide +kernel

/-- An offer of orders of the sample parties divides by zero. -/
theorem offer_crashes :
    ¬ ∀ (sha : Sha512) (tip : UInt64) (steps : List ChainStep) (chain : Chain) (env : Env)
        (payload : Json), ChainRun sha tip steps chain → chain.Serves env → env.Quiet →
        payload.Textual → Rejects (apply sha payload env ⟨chain.context, ∅⟩) := by
  intro claim
  have textual : zeroMaturityOffer.Textual := by
    intro member listed
    simp only [List.mem_cons, List.map_cons, List.map_nil, List.not_mem_nil, or_false] at listed
    rcases listed with rfl | rfl | rfl | rfl <;> exact ⟨_, rfl⟩
  have rejects := claim sample 1 _ zeroMaturityChain _ zeroMaturityOffer Chain.steps_run
    (Chain.serve_serves investorKey "9".toList) (sampleNode_quiet _ _ _) textual
  have thrown := zeroMaturity_throws
  cases ran : apply sample zeroMaturityOffer
      (zeroMaturityChain.serve sampleNode investorKey "9".toList)
      ⟨zeroMaturityChain.context, ∅⟩ with
  | ok result =>
    rw [ran] at thrown
    cases thrown
  | error failure =>
    obtain ⟨what, rfl⟩ := rejects failure ran
    rw [ran] at thrown
    cases thrown

end Creditcoin
