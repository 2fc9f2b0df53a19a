import Creditcoin.Deals
import Creditcoin.Housekeeping
import Creditcoin.Repayments
import Creditcoin.Transfers

/-!
# The applicator

A payload is a CBOR object whose verb, read without regard to case, chooses the command. A
successful transaction does to the ledger what its command means, so every property of the
ledger holds of the processor.
-/

namespace Creditcoin

open Lib

/-- The verbs, in the order they are compared. -/
inductive Verb where
  | sendFunds
  | registerAddress
  | registerTransfer
  | addAskOrder
  | addBidOrder
  | addOffer
  | addDealOrder
  | completeDealOrder
  | lockDealOrder
  | closeDealOrder
  | exempt
  | addRepaymentOrder
  | completeRepaymentOrder
  | closeRepaymentOrder
  | collectCoins
  | housekeeping
deriving DecidableEq

namespace Verb

/-- The name of a verb. -/
def name : Verb → Text
  | .sendFunds => "SendFunds".toList
  | .registerAddress => "RegisterAddress".toList
  | .registerTransfer => "RegisterTransfer".toList
  | .addAskOrder => "AddAskOrder".toList
  | .addBidOrder => "AddBidOrder".toList
  | .addOffer => "AddOffer".toList
  | .addDealOrder => "AddDealOrder".toList
  | .completeDealOrder => "CompleteDealOrder".toList
  | .lockDealOrder => "LockDealOrder".toList
  | .closeDealOrder => "CloseDealOrder".toList
  | .exempt => "Exempt".toList
  | .addRepaymentOrder => "AddRepaymentOrder".toList
  | .completeRepaymentOrder => "CompleteRepaymentOrder".toList
  | .closeRepaymentOrder => "CloseRepaymentOrder".toList
  | .collectCoins => "CollectCoins".toList
  | .housekeeping => "Housekeeping".toList

/-- All verbs, in the order they are compared. -/
def all : List Verb :=
  [.sendFunds, .registerAddress, .registerTransfer, .addAskOrder, .addBidOrder, .addOffer,
    .addDealOrder, .completeDealOrder, .lockDealOrder, .closeDealOrder, .exempt,
    .addRepaymentOrder, .completeRepaymentOrder, .closeRepaymentOrder, .collectCoins,
    .housekeeping]

/-- The verb a command text names. -/
def find (cmd : Text) : Option Verb := all.find? fun verb => cmd.iequals verb.name

/-- What a verb runs. -/
def run (sha : Sha512) : Verb → Query → App Unit
  | .sendFunds => Creditcoin.sendFunds sha
  | .registerAddress => Creditcoin.registerAddress sha
  | .registerTransfer => Creditcoin.registerTransfer sha
  | .addAskOrder => Creditcoin.addAskOrder sha
  | .addBidOrder => Creditcoin.addBidOrder sha
  | .addOffer => Creditcoin.addOffer sha
  | .addDealOrder => Creditcoin.addDealOrder sha
  | .completeDealOrder => Creditcoin.completeDealOrder sha
  | .lockDealOrder => Creditcoin.lockDealOrder sha
  | .closeDealOrder => Creditcoin.closeDealOrder sha
  | .exempt => Creditcoin.exempt sha
  | .addRepaymentOrder => Creditcoin.addRepaymentOrder sha
  | .completeRepaymentOrder => Creditcoin.completeRepaymentOrder sha
  | .closeRepaymentOrder => Creditcoin.closeRepaymentOrder sha
  | .collectCoins => Creditcoin.collectCoins sha
  | .housekeeping => Creditcoin.housekeeping sha

/-- What a verb means. -/
def command : Verb → Query → Except Exception Command
  | .sendFunds => Query.sendFunds
  | .registerAddress => Query.registerAddress
  | .registerTransfer => Query.registerTransfer
  | .addAskOrder => fun query => query.addOrder .ask
  | .addBidOrder => fun query => query.addOrder .bid
  | .addOffer => Query.addOffer
  | .addDealOrder => Query.addDealOrder
  | .completeDealOrder => Query.completeDealOrder
  | .lockDealOrder => Query.lockDealOrder
  | .closeDealOrder => Query.closeDealOrder
  | .exempt => Query.exempt
  | .addRepaymentOrder => Query.addRepaymentOrder
  | .completeRepaymentOrder => Query.completeRepaymentOrder
  | .closeRepaymentOrder => Query.closeRepaymentOrder
  | .collectCoins => Query.collectCoins
  | .housekeeping => Query.housekeeping

end Verb

/-- `Apply(cmd, query)`. -/
def applyCommand (sha : Sha512) (cmd : Text) (query : Query) : App Unit := do
  let refused ← Exec.asks fun env =>
    env.v2block != 0 && decide (env.v2block < env.head) && env.familyVersion.head? == some '1'
  Exec.failIf (refused = true)
    (rejection "Version 1 transactions are not accepted after 2.0")
  match Verb.find cmd with
  | some verb => verb.run sha query
  | none => Exec.fail (.invalidTransaction ("invalid command: '".toList ++ cmd ++ "'".toList))

/-- `cborToParams`: the parameters and the command text. -/
def cborToParams (payload : Json) : Except Exception (Query × Text) :=
  match payload with
  | .object query =>
    match Query.find query "v".toList with
    | some verb => .ok (query, trimQuotes verb.dump)
    | none => .error (rejection "verb is required")
  | _ => .error (rejection "CBOR Object as the encoded command")

/-- `Apply()`, outside of replay. -/
def apply (sha : Sha512) (payload : Json) : App Unit := do
  let (query, cmd) ← Exec.lift (cborToParams payload)
  let _ ← Exec.asksExcept fun env => compress env.signerPublicKey
  applyCommand sha cmd query

/-- The command of a payload. -/
def Json.command (payload : Json) : Except Exception Command :=
  match cborToParams payload with
  | .ok (query, cmd) =>
    match Verb.find cmd with
    | some verb => verb.command query
    | none => .error (.invalidTransaction ("invalid command: '".toList ++ cmd ++ "'".toList))
  | .error failure => .error failure

/-- The verb of a command. -/
def Command.verb : Command → Verb
  | .sendFunds .. => .sendFunds
  | .registerAddress .. => .registerAddress
  | .registerTransfer .. => .registerTransfer
  | .addOrder .ask .. => .addAskOrder
  | .addOrder .bid .. => .addBidOrder
  | .addOffer .. => .addOffer
  | .addDealOrder .. => .addDealOrder
  | .completeDealOrder .. => .completeDealOrder
  | .lockDealOrder .. => .lockDealOrder
  | .closeDealOrder .. => .closeDealOrder
  | .exempt .. => .exempt
  | .addRepaymentOrder .. => .addRepaymentOrder
  | .completeRepaymentOrder .. => .completeRepaymentOrder
  | .closeRepaymentOrder .. => .closeRepaymentOrder
  | .collectCoins .. => .collectCoins
  | .housekeeping .. => .housekeeping

/-! ## The applicator refines the ledger -/

section Effects

variable {sha : Sha512} {env : Env} {memory after : Memory} {query : Query}

/-- A verb reads its own command. -/
theorem command_verb {verb : Verb} {command : Command} (read : verb.command query = .ok command) :
    command.verb = verb := by
  cases verb
  all_goals
    simp only [Verb.command, Query.sendFunds, Query.registerAddress, Query.registerTransfer,
      Query.addOrder, Query.addOffer, Query.addDealOrder, Query.completeDealOrder,
      Query.lockDealOrder, Query.closeDealOrder, Query.exempt, Query.addRepaymentOrder,
      Query.completeRepaymentOrder, Query.closeRepaymentOrder, Query.collectCoins,
      Query.housekeeping, bind_eq_ok, pure_eq_ok, Prod.exists] at read
  all_goals grind [Command.verb]

/-- A transaction succeeds when its version is accepted and its verb succeeds. -/
theorem apply_ok {payload : Json} :
    apply sha payload env memory = .ok ((), after) ↔
      ∃ query cmd verb compressed, cborToParams payload = .ok (query, cmd) ∧
        compress env.signerPublicKey = .ok compressed ∧
        ¬ (env.v2block != 0 && decide (env.v2block < env.head) &&
          env.familyVersion.head? == some '1') = true ∧
        Verb.find cmd = some verb ∧ verb.run sha query env memory = .ok ((), after) := by
  simp only [apply, applyCommand, Exec.bind_ok, Exec.lift_ok, Exec.asksExcept_ok, Exec.asks_ok,
    Exec.failIf_ok, existsAndEq, exists_const, true_and, and_assoc, Prod.exists]
  constructor
  · rintro ⟨query, cmd, params, compressed, key, version, ran⟩
    cases found : Verb.find cmd with
    | none => simp [found] at ran
    | some verb =>
      simp only [found] at ran
      exact ⟨query, cmd, verb, compressed, params, key, version, found, ran⟩
  · rintro ⟨query, cmd, verb, compressed, params, key, version, found, ran⟩
    refine ⟨query, cmd, params, compressed, key, version, ?_⟩
    simp only [found]
    exact ran

/-- A transaction runs the verb of its command. -/
theorem apply_ran {payload : Json} {command : Command} (read : payload.command = .ok command)
    (ran : apply sha payload env memory = .ok ((), after)) :
    ∃ query, command.verb.command query = .ok command ∧
      command.verb.run sha query env memory = .ok ((), after) := by
  obtain ⟨query, cmd, verb, _, params, _, _, found, ran⟩ := apply_ok.mp ran
  simp only [Json.command, params, found] at read
  obtain rfl := command_verb read
  exact ⟨query, read, ran⟩

/-- Every verb does what its command means. -/
theorem run_executed (live : env.Live) {verb : Verb} {signer : Text}
    (signed : env.sighash sha = .ok signer)
    (ran : verb.run sha query env memory = .ok ((), after)) :
    ∃ command, verb.command query = .ok command ∧
      Executed sha env signer memory.state command after.state := by
  have named {read : Except Exception Command}
      (found : ∃ other command, env.sighash sha = .ok other ∧ read = .ok command ∧
        Executed sha env other memory.state command after.state) :
      ∃ command, read = .ok command ∧
        Executed sha env signer memory.state command after.state := by
    obtain ⟨other, command, otherSigned, read, executed⟩ := found
    rw [signed, Except.ok.injEq] at otherSigned
    subst otherSigned
    exact ⟨command, read, executed⟩
  cases verb with
  | sendFunds => exact named (sendFunds_executed live ran)
  | registerAddress => exact named (registerAddress_executed live ran)
  | registerTransfer => exact named (registerTransfer_executed live ran)
  | addAskOrder => exact named (addOrder_executed live .ask ran)
  | addBidOrder => exact named (addOrder_executed live .bid ran)
  | addOffer => exact named (addOffer_executed live ran)
  | addDealOrder => exact named (addDealOrder_executed live ran)
  | completeDealOrder => exact named (completeDealOrder_executed live ran)
  | lockDealOrder => exact named (lockDealOrder_executed live ran)
  | closeDealOrder => exact named (closeDealOrder_executed live ran)
  | exempt => exact named (exempt_executed live ran)
  | addRepaymentOrder => exact named (addRepaymentOrder_executed live ran)
  | completeRepaymentOrder => exact named (completeRepaymentOrder_executed live ran)
  | closeRepaymentOrder => exact named (closeRepaymentOrder_executed live ran)
  | collectCoins => exact named (collectCoins_executed live ran)
  | housekeeping => exact housekeeping_executed live ran

/-- A successful transaction has a signer and does what its command means. -/
theorem apply_executed (live : env.Live) {payload : Json}
    (ran : apply sha payload env memory = .ok ((), after)) :
    ∃ signer command, env.sighash sha = .ok signer ∧ payload.command = .ok command ∧
      Executed sha env signer memory.state command after.state := by
  obtain ⟨query, cmd, verb, compressed, params, key, _, found, ran⟩ := apply_ok.mp ran
  have signed : env.sighash sha = .ok (sha.id compressed) := by
    simp only [Env.sighash, live.transitioning, Bool.false_eq_true, if_false, key]
  obtain ⟨command, read, executed⟩ := run_executed live signed ran
  refine ⟨_, command, signed, ?_, executed⟩
  simp only [Json.command, params, found]
  exact read

/-- The signer of a transaction is an identifier. -/
theorem sighash_isId (live : env.Live) {signer : Text} (signed : env.sighash sha = .ok signer) :
    ∃ key, signer = sha.id key := by
  simp only [Env.sighash, live.transitioning, Bool.false_eq_true, if_false] at signed
  split at signed
  · rename_i compressed _
    exact ⟨compressed, (Except.ok.inj signed).symm⟩
  · cases signed

end Effects

end Creditcoin
