import Creditcoin.Ledger

/-!
# Wallets and fees

Every charged command takes the transaction fee from the signer's wallet and leaves a fee
record under a key made from the nonce. Coins also move between wallets by `SendFunds` and
enter by `CollectCoins`, which asks the gateway whether coins were burned for them.
-/

namespace Creditcoin

open Lib

/-- `addFee(sighash, states)`. -/
def addFee (sha : Sha512) (sighash : Text) (states : List (Text × Text)) :
    App (List (Text × Text)) := do
  let guid ← getGuid
  let feeId := sha.makeAddress .fee guid
  let block ← lastBlock
  let fee : Fee := { sighash := sighash, block := block }
  pure (states ++ [(feeId, fee.serializeToString)])

/-- `addFee(sighash, states, walletId, wallet)`. -/
def addFeeAndWallet (sha : Sha512) (sighash : Text) (states : List (Text × Text))
    (walletId : Text) (wallet : Wallet) : App (List (Text × Text)) := do
  let states ← addFee sha sighash states
  pure (states ++ [(walletId, wallet.serializeToString)])

/-- `charge`: the wallet key and the wallet after the fee. -/
def charge (sha : Sha512) (sighash : Text) : App (Text × Wallet) := do
  let walletId := sha.walletId sighash
  let stateData ← getStateData walletId true
  let wallet := Wallet.parseFromString stateData
  let balance ← Exec.lift (getBigint wallet.amount false)
  Exec.failIf (balance - txFee < 0) (rejection "Insufficient funds")
  pure (walletId, { wallet with amount := toText (balance - txFee) })

/-- How an amount is added to the wallet stored as a text: a wallet that does not exist yet
takes the given text as it is. -/
def credit (stateData amountString : Text) (amount : Int) : Except Exception Wallet :=
  if stateData.isEmpty then .ok { amount := amountString }
  else
    let wallet := Wallet.parseFromString stateData
    match getBigint wallet.amount false with
    | .ok balance => .ok { wallet with amount := toText (balance + amount) }
    | .error failure => .error failure

/-- `SendFunds`. -/
def sendFunds (sha : Sha512) (query : Query) : App Unit := do
  let (amountString, amount) ← Exec.lift (query.getBigint "p1" "amount")
  let sighash ← Exec.lift (query.getStringLower "p2" "sighash")
  let mySighash ← getSighash sha
  Exec.failIf (sighash = mySighash) (rejection "Invalid destination")
  let srcWalletId := sha.walletId mySighash
  let stateData ← getStateData srcWalletId true
  let srcWallet := Wallet.parseFromString stateData
  let amountPlusTxFee := amount + txFee
  let srcBalance ← Exec.lift (getBigint srcWallet.amount false)
  Exec.failIf (srcBalance < amountPlusTxFee) (rejection "Insufficient funds")
  let srcWallet := { srcWallet with amount := toText (srcBalance - amountPlusTxFee) }
  let dstWalletId := sha.walletId sighash
  let stateData ← getStateData dstWalletId false
  let dstWallet ← Exec.lift (credit stateData amountString amount)
  let states ← addFeeAndWallet sha mySighash [(dstWalletId, dstWallet.serializeToString)]
    srcWalletId srcWallet
  setStates states

/-- `CollectCoins`. -/
def collectCoins (sha : Sha512) (query : Query) : App Unit := do
  let ethAddress ← Exec.lift (query.getStringLower "p1" "ethAddress")
  let (amountString, amount) ← Exec.lift (query.getBigint "p2" "amount")
  let blockchainTxId ← Exec.lift (query.getStringLower "p3" "blockchainTxId")
  let id := sha.makeAddress .erc20 blockchainTxId
  let stateData ← getStateData id false
  Exec.failIf (stateData ≠ []) (rejection "Already collected")
  let mySighash ← getSighash sha
  verify (collectCoinsCommand ethAddress mySighash amountString blockchainTxId)
  let walletId := sha.walletId mySighash
  let stateData ← getStateData walletId false
  let wallet ← Exec.lift (credit stateData amountString amount)
  setStates [(walletId, wallet.serializeToString), (id, amountString)]

/-! ## What they do to the ledger -/

section Effects

variable {sha : Sha512} {env : Env} {memory after : Memory} {query : Query}

/-- A fee record is added to the writes. -/
theorem addFee_ok {sighash : Text} {states result : List (Text × Text)} :
    addFee sha sighash states env memory = .ok (result, after) ↔
      result = states ++ [env.feeEntry sha sighash] ∧ after = memory := by
  simp only [addFee, Exec.bind_ok, getGuid_ok, lastBlock_ok, Exec.pure_ok, existsAndEq, true_and,
    and_assoc, Env.feeEntry, Env.feeId]

/-- A fee record and the charged wallet are added to the writes. -/
theorem addFeeAndWallet_ok {sighash walletId : Text} {wallet : Wallet}
    {states result : List (Text × Text)} :
    addFeeAndWallet sha sighash states walletId wallet env memory = .ok (result, after) ↔
      result = states ++ [env.feeEntry sha sighash, (walletId, wallet.serializeToString)] ∧
        after = memory := by
  simp only [addFeeAndWallet, Exec.bind_ok, addFee_ok, Exec.pure_ok, existsAndEq, true_and,
    and_assoc, List.append_assoc, List.cons_append, List.nil_append]

/-- A charge takes the fee from a wallet that covers it. -/
theorem charge_ok (live : env.Live) {sighash walletId : Text} {wallet : Wallet} :
    charge sha sighash env memory = .ok ((walletId, wallet), after) ↔
      ∃ balance, Covers sha memory.state sighash txFee balance ∧ walletId = sha.walletId sighash ∧
        wallet = { walletOf sha memory.state sighash with amount := toText (balance - txFee) } ∧
        after = memory := by
  simp only [charge, Exec.bind_ok, getStateData_existing_ok live, Exec.lift_ok, getBigint_ok,
    Exec.failIf_ok, Exec.pure_ok, existsAndEq, exists_const, true_and, and_assoc, Prod.mk.injEq]
  constructor
  · rintro ⟨present, balance, read, covered, rfl, rfl, rfl⟩
    exact ⟨balance, ⟨present, read.1, read.2, by omega⟩, rfl, rfl, rfl⟩
  · rintro ⟨balance, covers, rfl, rfl, rfl⟩
    have covered := covers.covered
    exact ⟨covers.present, balance, ⟨covers.read, covers.nonneg⟩, by omega, rfl, rfl, rfl⟩

/-- An amount is added to a wallet as the relation says. -/
theorem credit_ok {stateData amountString : Text} {amount : Int} {wallet : Wallet} :
    credit stateData amountString amount = .ok wallet ↔
      Credited stateData amountString amount wallet := by
  unfold credit
  by_cases missing : stateData = []
  · subst missing
    simp only [List.isEmpty_nil, if_true, Except.ok.injEq]
    constructor
    · rintro rfl
      exact .created rfl
    · intro credited
      cases credited with
      | created => rfl
      | raised present => exact absurd rfl present
  · simp only [List.isEmpty_iff, missing, if_false]
    constructor
    · intro made
      cases read : getBigint (Wallet.parseFromString stateData).amount false with
      | error failure => simp [read] at made
      | ok balance =>
        simp only [read, Except.ok.injEq] at made
        have accepted := getBigint_ok.mp read
        exact made ▸ .raised missing accepted.1 accepted.2
    · intro credited
      cases credited with
      | created empty => exact absurd empty missing
      | raised _ read nonneg => rw [getBigint_ok.mpr ⟨read, nonneg⟩]

/-- `SendFunds` moves coins. -/
theorem sendFunds_executed (live : env.Live)
    (ran : sendFunds sha query env memory = .ok ((), after)) :
    ∃ signer command, env.sighash sha = .ok signer ∧ query.sendFunds = .ok command ∧
      Executed sha env signer memory.state command after.state := by
  simp only [sendFunds, Exec.bind_ok, Exec.lift_ok, getSighash_ok, Exec.failIf_ok,
    getStateData_existing_ok live, getStateData_optional_ok live, getBigint_ok, credit_ok,
    addFeeAndWallet_ok, setStates_ok live, existsAndEq, exists_const, true_and, and_assoc,
    Prod.exists] at ran
  obtain ⟨amountString, amount, amountRead, sighash, sighashRead, signer, signed, other, present,
    balance, read, covered, wallet, credited, rfl⟩ := ran
  have covers : Covers sha memory.state signer (amount + txFee) balance :=
    ⟨present, read.1, read.2, by omega⟩
  refine ⟨signer, _, signed, ?_, .sendFunds (Query.getBigint_ok.mp amountRead).2 other covers
    credited⟩
  rw [Query.sendFunds, amountRead, sighashRead]
  rfl

/-- `CollectCoins` brings coins in. -/
theorem collectCoins_executed (live : env.Live)
    (ran : collectCoins sha query env memory = .ok ((), after)) :
    ∃ signer command, env.sighash sha = .ok signer ∧ query.collectCoins = .ok command ∧
      Executed sha env signer memory.state command after.state := by
  simp only [collectCoins, Exec.bind_ok, Exec.lift_ok, getSighash_ok, Exec.failIf_ok,
    getStateData_optional_ok live, credit_ok, verify_ok live, setStates_ok live, existsAndEq,
    exists_const, true_and, and_assoc, Prod.exists, ne_eq, not_not] at ran
  obtain ⟨ethAddress, ethRead, amountString, amount, amountRead, blockchainTxId, txRead, fresh,
    signer, signed, verified, wallet, credited, rfl⟩ := ran
  have executed := Executed.collectCoins (Query.getBigint_ok.mp amountRead).2 fresh verified credited
  refine ⟨signer, _, signed, ?_, executed⟩
  rw [Query.collectCoins, ethRead, amountRead, txRead]
  rfl

end Effects

end Creditcoin
