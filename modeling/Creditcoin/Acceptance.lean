import Creditcoin.Chain

/-!
# What is accepted

The commands that take up orders are accepted exactly when the ledger lets them be executed: what
`Executed` lists for them is all that they check. So whether such a command is accepted is read off
the records of the state.
-/

namespace Creditcoin

open Lib

/-- The transaction has a version that is accepted at its height. -/
def Env.Admits (env : Env) : Prop :=
  ¬ (env.v2block != 0 && decide (env.v2block < env.head) &&
    env.familyVersion.head? == some '1') = true

instance (env : Env) : Decidable env.Admits := inferInstanceAs (Decidable (¬ _))

/-- A transaction is accepted in a state. -/
def Accepts (sha : Sha512) (env : Env) (state : State) (payload : Json) : Prop :=
  ∃ memory, apply sha payload env ⟨state, ∅⟩ = .ok ((), memory)

/-- Whether a transaction is accepted is decided by running it. -/
instance (sha : Sha512) (env : Env) (state : State) (payload : Json) :
    Decidable (Accepts sha env state payload) :=
  decidable_of_iff ((apply sha payload env ⟨state, ∅⟩).isOk = true) (by
    unfold Accepts
    cases apply sha payload env ⟨state, ∅⟩ with
    | ok result =>
      obtain ⟨_, memory⟩ := result
      simp [Except.isOk, Except.toBool]
    | error failure => simp [Except.isOk, Except.toBool])

/-- Whether a command takes up orders that others have placed. -/
def Command.takesUp : Command → Bool
  | .addOffer .. => true
  | .addDealOrder .. => true
  | .completeDealOrder .. => true
  | .completeRepaymentOrder .. => true
  | _ => false

section Acceptance

variable {sha : Sha512} {env : Env} {memory : Memory} {query : Query} {signer : Text}
  {state written : State} {payload : Json} {command : Command}

/-- `AddOffer` succeeds where the ledger lets it be executed. -/
theorem addOffer_runs (live : env.Live) (signed : env.sighash sha = .ok signer)
    {askOrderId bidOrderId : Text} {expiration : UInt64}
    (read : query.addOffer = .ok (.addOffer askOrderId bidOrderId expiration))
    (executed : Executed sha env signer memory.state (.addOffer askOrderId bidOrderId expiration)
      written) : ∃ after, addOffer sha query env memory = .ok ((), after) := by
  simp only [Query.addOffer, bind_eq_ok, pure_eq_ok, Command.addOffer.injEq] at read
  obtain ⟨_, askRead, _, bidRead, _, expirationRead, rfl, rfl, rfl⟩ := read
  simp only [addOffer, Exec.bind_ok, Exec.lift_ok, getSighash_ok, Exec.failIf_ok,
    charge_ok live, getStateData_existing_ok live, getStateData_optional_ok live, lastBlock_ok,
    checkExpiration_ok, addFeeAndWallet_ok, setStates_ok live, existsAndEq, exists_const,
    true_and, and_assoc, Prod.exists, ne_eq, not_not, not_or]
  cases executed with
  | addOffer covers fresh askPresent askOwner askUnexpired sourcePresent bidPresent bidOwner
      bidUnexpired targetPresent blockchain network amount fee askInterestRead askMaturityRead
      askNonzero bidInterestRead bidMaturityRead bidNonzero rate =>
    subst askOwner
    have matched : ordersMatch (orderAt memory.state _) (orderAt memory.state _) = .ok true :=
      ordersMatch_true.mpr ⟨amount, fee, _, _,
        interestRate_ok.mpr ⟨_, _, askInterestRead, askMaturityRead, askNonzero, rfl⟩,
        interestRate_ok.mpr ⟨_, _, bidInterestRead, bidMaturityRead, bidNonzero, rfl⟩, rate⟩
    exact ⟨_, _, _, _, _, signed, covers, askRead, bidRead, expirationRead, fresh, askPresent,
      askUnexpired, sourcePresent, bidPresent, bidOwner, bidUnexpired, targetPresent, blockchain,
      network, matched, Bool.true_eq_false_eq_False, trivial⟩

/-- `AddDealOrder` succeeds where the ledger lets it be executed. -/
theorem addDealOrder_runs (live : env.Live) (signed : env.sighash sha = .ok signer)
    {offerId : Text} {expiration : UInt64}
    (read : query.addDealOrder = .ok (.addDealOrder offerId expiration))
    (executed : Executed sha env signer memory.state (.addDealOrder offerId expiration) written) :
    ∃ after, addDealOrder sha query env memory = .ok ((), after) := by
  simp only [Query.addDealOrder, bind_eq_ok, pure_eq_ok, Command.addDealOrder.injEq] at read
  obtain ⟨_, offerRead, _, expirationRead, rfl, rfl⟩ := read
  simp only [addDealOrder, Exec.bind_ok, Exec.lift_ok, getSighash_ok, Exec.failIf_ok,
    getStateData_existing_ok live, getStateData_optional_ok live, lastBlock_ok, getBigint_ok,
    checkExpiration_ok, addFeeAndWallet_ok, setStates_ok live, deleteState_ok live, existsAndEq,
    exists_const, true_and, and_assoc, ne_eq, not_not, Int.not_lt]
  cases executed with
  | addDealOrder fresh present unexpired bidPresent bidOwner askPresent feeRead covers =>
    subst bidOwner
    exact ⟨_, _, _, _, offerRead, expirationRead, fresh, signed, present, unexpired, bidPresent,
      askPresent, covers.present, ⟨covers.read, covers.nonneg⟩, feeRead, covers.covered, trivial⟩

/-- `CompleteDealOrder` succeeds where the ledger lets it be executed. -/
theorem completeDealOrder_runs (live : env.Live) (signed : env.sighash sha = .ok signer)
    {dealOrderId transferId : Text}
    (read : query.completeDealOrder = .ok (.completeDealOrder dealOrderId transferId))
    (executed : Executed sha env signer memory.state (.completeDealOrder dealOrderId transferId)
      written) : ∃ after, completeDealOrder sha query env memory = .ok ((), after) := by
  simp only [Query.completeDealOrder, bind_eq_ok, pure_eq_ok, Command.completeDealOrder.injEq]
    at read
  obtain ⟨_, orderRead, _, transferRead, rfl, rfl⟩ := read
  simp only [completeDealOrder, Exec.bind_ok, Exec.lift_ok, getSighash_ok, Exec.failIf_ok,
    getStateData_existing_ok live, lastBlock_ok, getBigint_ok, checkExpiration_ok,
    addFeeAndWallet_ok, setStates_ok live, existsAndEq, exists_const, true_and, and_assoc, ne_eq,
    not_not, not_or, Int.not_lt, Bool.not_eq_true]
  cases executed with
  | completeDealOrder present pending sourcePresent owner unexpired transferPresent order amount
      registrant unprocessed feeRead covers =>
    have covered := covers.covered
    subst order owner
    exact ⟨_, _, _, orderRead, transferRead, signed, present, pending, sourcePresent, unexpired,
      transferPresent, amount, registrant, unprocessed, covers.present, feeRead,
      ⟨covers.read, covers.nonneg⟩, by omega, trivial⟩

/-- `CompleteRepaymentOrder` succeeds where the ledger lets it be executed. -/
theorem completeRepaymentOrder_runs (live : env.Live) (signed : env.sighash sha = .ok signer)
    {repaymentOrderId : Text}
    (read : query.completeRepaymentOrder = .ok (.completeRepaymentOrder repaymentOrderId))
    (executed : Executed sha env signer memory.state (.completeRepaymentOrder repaymentOrderId)
      written) : ∃ after, completeRepaymentOrder sha query env memory = .ok ((), after) := by
  simp only [Query.completeRepaymentOrder, bind_eq_ok, pure_eq_ok,
    Command.completeRepaymentOrder.injEq] at read
  obtain ⟨_, orderRead, rfl⟩ := read
  simp only [completeRepaymentOrder, Exec.bind_ok, Exec.lift_ok, getSighash_ok, Exec.failIf_ok,
    charge_ok live, getStateData_existing_ok live, addFeeAndWallet_ok, setStates_ok live,
    existsAndEq, exists_const, true_and, and_assoc, Prod.exists, ne_eq, not_not]
  cases executed with
  | completeRepaymentOrder covers present targetPresent owner dealPresent unlocked =>
    subst owner
    exact ⟨_, _, signed, covers, orderRead, present, targetPresent, dealPresent, unlocked, trivial⟩

/-- A transaction whose command takes up orders is accepted when its verb succeeds. -/
theorem accepts_of_runs (live : env.Live) (signed : env.sighash sha = .ok signer)
    (admits : env.Admits) (read : payload.command = .ok command)
    (runs : ∀ query, command.verb.command query = .ok command →
      ∃ after, command.verb.run sha query env ⟨state, ∅⟩ = .ok ((), after)) :
    Accepts sha env state payload := by
  unfold Json.command at read
  split at read
  · rename_i query cmd params
    split at read
    · rename_i verb found
      obtain rfl := command_verb read
      obtain ⟨after, ran⟩ := runs query read
      have key : ∃ compressed, compress env.signerPublicKey = .ok compressed := by
        simp only [Env.sighash, live.transitioning, Bool.false_eq_true, if_false] at signed
        split at signed
        · rename_i compressed pressed
          exact ⟨compressed, pressed⟩
        · cases signed
      obtain ⟨compressed, pressed⟩ := key
      exact ⟨after, apply_ok.mpr ⟨query, cmd, _, compressed, params, pressed, admits, found, ran⟩⟩
    · cases read
  · cases read

/-- A command that takes up orders is accepted exactly when the ledger lets it be executed. -/
theorem accepts_iff (live : env.Live) (signed : env.sighash sha = .ok signer)
    (admits : env.Admits) (read : payload.command = .ok command)
    (takes : command.takesUp = true) :
    Accepts sha env state payload ↔ ∃ written, Executed sha env signer state command written := by
  constructor
  · rintro ⟨memory, ran⟩
    obtain ⟨signer', command', signed', read', executed⟩ := apply_executed live ran
    rw [signed, Except.ok.injEq] at signed'
    rw [read, Except.ok.injEq] at read'
    subst signed' read'
    exact ⟨memory.state, executed⟩
  · rintro ⟨written, executed⟩
    apply accepts_of_runs live signed admits read
    intro query parameters
    cases command with
    | addOffer => exact addOffer_runs live signed parameters executed
    | addDealOrder => exact addDealOrder_runs live signed parameters executed
    | completeDealOrder => exact completeDealOrder_runs live signed parameters executed
    | completeRepaymentOrder => exact completeRepaymentOrder_runs live signed parameters executed
    | _ => cases takes

end Acceptance

end Creditcoin
