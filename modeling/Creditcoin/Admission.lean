import Creditcoin.Acceptance

/-!
# What is admitted besides

The commands that register addresses and payments, and those that close orders with a payment,
are accepted exactly when the ledger lets them be executed, like the commands that take up orders.
-/

namespace Creditcoin

open Lib

/-- Whether a command registers an address or a payment, or closes an order with a payment. -/
def Command.settles : Command → Bool
  | .registerAddress .. => true
  | .registerTransfer .. => true
  | .completeDealOrder .. => true
  | .closeDealOrder .. => true
  | .closeRepaymentOrder .. => true
  | _ => false

section Admission

variable {sha : Sha512} {env : Env} {memory : Memory} {query : Query} {signer : Text}
  {state written : State} {payload : Json} {command : Command}

/-- `RegisterAddress` succeeds where the ledger lets it be executed. -/
theorem registerAddress_runs (live : env.Live) (signed : env.sighash sha = .ok signer)
    {blockchain address network : Text}
    (read : query.registerAddress = .ok (.registerAddress blockchain address network))
    (executed : Executed sha env signer memory.state
      (.registerAddress blockchain address network) written) :
    ∃ after, registerAddress sha query env memory = .ok ((), after) := by
  simp only [Query.registerAddress, bind_eq_ok, pure_eq_ok, Command.registerAddress.injEq] at read
  obtain ⟨_, blockchainRead, _, addressRead, _, networkRead, rfl, rfl, rfl⟩ := read
  simp only [registerAddress, Exec.bind_ok, Exec.lift_ok, getSighash_ok, Exec.failIf_ok,
    charge_ok live, getStateData_optional_ok live, addFee_ok, setStates_ok live, existsAndEq,
    exists_const, true_and, and_assoc, Prod.exists, ne_eq, not_not]
  cases executed with
  | registerAddress covers fresh =>
    exact ⟨_, _, _, _, _, blockchainRead, addressRead, networkRead, signed, covers, fresh, trivial⟩

/-- The ends of an order are those of its transfer. -/
theorem Pays.ends {gain : Int} {orderId source target principal : Text}
    (pays : Pays sha state orderId gain source target principal) :
    transferEnds sha gain orderId (state.get orderId) = .ok (source, target, principal) := by
  unfold transferEnds
  cases pays with
  | loan kind none =>
    rw [if_pos (sha.kindOf_eq_some_iff_startsWith.mp kind), if_pos none]
    rfl
  | repayment kind some =>
    rw [if_pos (sha.kindOf_eq_some_iff_startsWith.mp kind), if_neg some]
    rfl
  | sale kind none =>
    have other : ¬ orderId.startsWith (sha.space .dealOrder) = true := by
      intro deal
      rw [sha.kindOf_eq_some_iff_startsWith.mpr deal] at kind
      cases kind
    rw [if_neg other, if_pos (sha.kindOf_eq_some_iff_startsWith.mp kind),
      if_neg (fun some => some none)]
    rfl

/-- `RegisterTransfer` succeeds where the ledger lets it be executed. -/
theorem registerTransfer_runs (live : env.Live) (signed : env.sighash sha = .ok signer)
    {gain : Int} {orderId blockchainTxId : Text}
    (read : query.registerTransfer = .ok (.registerTransfer gain orderId blockchainTxId))
    (executed : Executed sha env signer memory.state
      (.registerTransfer gain orderId blockchainTxId) written) :
    ∃ after, registerTransfer sha query env memory = .ok ((), after) := by
  simp only [Query.registerTransfer, bind_eq_ok, pure_eq_ok, Command.registerTransfer.injEq,
    getBigint_signed_ok] at read
  obtain ⟨_, gainRead, _, gainNumeral, _, orderRead, _, txRead, rfl, rfl, rfl⟩ := read
  simp only [registerTransfer, Exec.bind_ok, Exec.lift_ok, getSighash_ok, Exec.failIf_ok,
    charge_ok live, getStateData_existing_ok live, getStateData_optional_ok live, lastBlock_ok,
    getBigint_signed_ok, transferAmount_ok live, addFeeAndWallet_ok, setStates_ok live,
    existsAndEq, exists_const, true_and, and_assoc, Prod.exists, ne_eq, not_not]
  cases executed with
  | registerTransfer covers order pays sourcePresent targetPresent owner blockchain network fresh
      paid =>
    subst owner
    exact ⟨_, _, _, _, _, _, _, _, _, signed, covers, gainRead, gainNumeral, orderRead, txRead,
      order, pays.ends, sourcePresent, targetPresent, blockchain, network, fresh, paid, trivial⟩

/-- `CloseDealOrder` succeeds where the ledger lets it be executed. -/
theorem closeDealOrder_runs (live : env.Live) (signed : env.sighash sha = .ok signer)
    {dealOrderId transferId : Text}
    (read : query.closeDealOrder = .ok (.closeDealOrder dealOrderId transferId))
    (executed : Executed sha env signer memory.state (.closeDealOrder dealOrderId transferId)
      written) : ∃ after, closeDealOrder sha query env memory = .ok ((), after) := by
  simp only [Query.closeDealOrder, bind_eq_ok, pure_eq_ok, Command.closeDealOrder.injEq] at read
  obtain ⟨_, orderRead, _, transferRead, rfl, rfl⟩ := read
  simp only [closeDealOrder, Exec.bind_ok, Exec.lift_ok, getSighash_ok, Exec.failIf_ok,
    charge_ok live, getStateData_existing_ok live, lastBlockInt_ok, getBigint_ok,
    addFeeAndWallet_ok, setStates_ok live, existsAndEq, exists_const, true_and, and_assoc,
    Prod.exists, ne_eq, not_not, Int.not_lt, Bool.not_eq_true]
  cases executed with
  | closeDealOrder covers present unclosed owner locked transferPresent order registrant
      unprocessed loanPresent startRead maturityRead maturityNonzero principalRead interestRead
      repaidRead enough =>
    subst owner order
    exact ⟨_, _, _, _, _, _, _, signed, covers, orderRead, transferRead, present, unclosed, locked,
      transferPresent, registrant, unprocessed, loanPresent, startRead, maturityRead,
      maturityNonzero, principalRead, interestRead, repaidRead, enough, trivial⟩

/-- `CloseRepaymentOrder` succeeds where the ledger lets it be executed. -/
theorem closeRepaymentOrder_runs (live : env.Live) (signed : env.sighash sha = .ok signer)
    {repaymentOrderId transferId : Text}
    (read : query.closeRepaymentOrder = .ok (.closeRepaymentOrder repaymentOrderId transferId))
    (executed : Executed sha env signer memory.state
      (.closeRepaymentOrder repaymentOrderId transferId) written) :
    ∃ after, closeRepaymentOrder sha query env memory = .ok ((), after) := by
  simp only [Query.closeRepaymentOrder, bind_eq_ok, pure_eq_ok, Command.closeRepaymentOrder.injEq]
    at read
  obtain ⟨_, orderRead, _, transferRead, rfl, rfl⟩ := read
  simp only [closeRepaymentOrder, Exec.bind_ok, Exec.lift_ok, getSighash_ok, Exec.failIf_ok,
    charge_ok live, getStateData_existing_ok live, addFeeAndWallet_ok, setStates_ok live,
    existsAndEq, exists_const, true_and, and_assoc, Prod.exists, ne_eq, not_not, not_or,
    Bool.not_eq_true]
  cases executed with
  | closeRepaymentOrder covers present owner transferPresent order amount registrant unprocessed
      dealPresent sourcePresent locked =>
    subst owner order
    exact ⟨_, _, signed, covers, orderRead, transferRead, present, transferPresent, amount,
      registrant, unprocessed, dealPresent, sourcePresent, locked, trivial⟩

/-- An accepted command is executed in the ledger. -/
theorem Accepts.executed (live : env.Live) (signed : env.sighash sha = .ok signer)
    (read : payload.command = .ok command) (accepted : Accepts sha env state payload) :
    ∃ written, Executed sha env signer state command written := by
  obtain ⟨memory, ran⟩ := accepted
  obtain ⟨signer', command', signed', read', executed⟩ := apply_executed live ran
  rw [signed, Except.ok.injEq] at signed'
  rw [read, Except.ok.injEq] at read'
  subst signed' read'
  exact ⟨memory.state, executed⟩

/-- A command that settles is accepted exactly when the ledger lets it be executed. -/
theorem settles_iff (live : env.Live) (signed : env.sighash sha = .ok signer)
    (admits : env.Admits) (read : payload.command = .ok command)
    (settles : command.settles = true) :
    Accepts sha env state payload ↔ ∃ written, Executed sha env signer state command written := by
  constructor
  · exact Accepts.executed live signed read
  · rintro ⟨written, executed⟩
    apply accepts_of_runs live signed admits read
    intro query parameters
    cases command with
    | registerAddress => exact registerAddress_runs live signed parameters executed
    | registerTransfer => exact registerTransfer_runs live signed parameters executed
    | completeDealOrder => exact completeDealOrder_runs live signed parameters executed
    | closeDealOrder => exact closeDealOrder_runs live signed parameters executed
    | closeRepaymentOrder => exact closeRepaymentOrder_runs live signed parameters executed
    | _ => cases settles

end Admission

end Creditcoin
