import Creditcoin.Admission
import Creditcoin.Balances
import Creditcoin.Networks

/-!
# Closing a loan with what is due

The fundraiser pays what is due at the tip, registers the payment with the gain over the principal,
and closes the deal with it. `RegisterTransfer` takes a gain of zero for the investor's payment of
the loan, so the fundraiser is refused exactly when no more than the principal is due.
-/

namespace Creditcoin

open Lib

/-- The principal of a deal. -/
def principalAt (state : State) (dealOrderId : Text) : Int :=
  amountOf (dealAt state dealOrderId).amount

/-- What `CloseDealOrder` takes to be due for a deal at a height. -/
def dueAt (state : State) (head : Int) (dealOrderId : Text) : Int :=
  let deal := dealAt state dealOrderId
  amountDue head (amountOf (transferAt state deal.loanTransfer).block) (amountOf deal.maturity)
    (principalAt state dealOrderId) (amountOf deal.interest)

/-- The key of the fundraiser's payment for a deal. -/
def repaymentId (sha : Sha512) (state : State) (dealOrderId blockchainTxId : Text) : Text :=
  paymentId sha state (dealAt state dealOrderId).dstAddress blockchainTxId

/-- The fundraiser of an open deal, which is locked by the fundraiser, registers the payment of what
is due at the tip, which the gateway confirms, and closes the deal with it at the same tip. -/
structure PaysDue (sha : Sha512) (chain : Chain) (registering closing : Env)
    (registration closure : Json) (dealOrderId blockchainTxId : Text) : Prop where
  /-- The record is a deal order. -/
  found : sha.kindOf dealOrderId = some .dealOrder
  /-- The fundraiser has locked it. -/
  locked : (dealAt chain.context dealOrderId).lock = (dealAt chain.context dealOrderId).sighash
  /-- It is not closed yet. -/
  unclosed : (dealAt chain.context dealOrderId).repaymentTransfer = []
  /-- The payment is registered at the tip. -/
  serves : chain.Serves registering
  /-- The fundraiser registers it. -/
  signed : registering.sighash sha = .ok (dealAt chain.context dealOrderId).sighash
  /-- The version of the registration is accepted. -/
  admits : registering.Admits
  /-- The registration names what is gained. -/
  read : registration.command = .ok (.registerTransfer
    (dueAt chain.context chain.head dealOrderId - principalAt chain.context dealOrderId) dealOrderId
    blockchainTxId)
  /-- The payment is one of a blockchain. -/
  real : blockchainTxId ≠ "0".toList
  /-- The payment was not registered before. -/
  fresh : chain.context.get (repaymentId sha chain.context dealOrderId blockchainTxId) = []
  /-- The gateway confirms the payment of what is due. -/
  good : registering.Verified (registerTransferCommand
    (addressAt chain.context (dealAt chain.context dealOrderId).dstAddress)
    (addressAt chain.context (dealAt chain.context dealOrderId).srcAddress) dealOrderId
    (toText (dueAt chain.context chain.head dealOrderId)) blockchainTxId)
  /-- The fundraiser has the fees of both transactions. -/
  funds : ∃ balance, Covers sha chain.context (dealAt chain.context dealOrderId).sighash
    (txFee + txFee) balance
  /-- The deal is closed by a transaction of its own. -/
  live : closing.Live
  /-- It runs at the same tip. -/
  tip : closing.tip = chain.tip
  /-- The fundraiser closes the deal. -/
  signed' : closing.sighash sha = .ok (dealAt chain.context dealOrderId).sighash
  /-- The version of the closing transaction is accepted. -/
  admits' : closing.Admits
  /-- It closes the deal with the payment. -/
  read' : closure.command = .ok (.closeDealOrder dealOrderId
    (repaymentId sha chain.context dealOrderId blockchainTxId))

/-- Two transactions are accepted one after the other. -/
def AcceptsBoth (sha : Sha512) (first second : Env) (state : State) (payload payload' : Json) :
    Prop :=
  ∃ memory, apply sha payload first ⟨state, ∅⟩ = .ok ((), memory) ∧
    Accepts sha second memory.state payload'

/-- What is known of a deal that its fundraiser can repay. -/
structure Repayable (sha : Sha512) (state : State) (dealOrderId : Text) : Prop where
  /-- The deal is there. -/
  present : state.get dealOrderId ≠ []
  /-- Its addresses are on one network. -/
  ends : SameNetwork sha state (dealAt state dealOrderId).srcAddress
    (dealAt state dealOrderId).dstAddress
  /-- The target is the fundraiser's. -/
  owner : ownerOf state (dealAt state dealOrderId).dstAddress = (dealAt state dealOrderId).sighash
  /-- The source is another party's. -/
  differ : ownerOf state (dealAt state dealOrderId).srcAddress ≠ (dealAt state dealOrderId).sighash
  /-- The loan transfer is a transfer. -/
  loanTransfer : sha.kindOf (dealAt state dealOrderId).loanTransfer = some .transfer
  /-- The loan transfer is there. -/
  loanPresent : state.get (dealAt state dealOrderId).loanTransfer ≠ []
  /-- The block of the loan transfer. -/
  start : IsAmount (transferAt state (dealAt state dealOrderId).loanTransfer).block
    (amountOf (transferAt state (dealAt state dealOrderId).loanTransfer).block)
  /-- The maturity. -/
  maturity : IsAmount (dealAt state dealOrderId).maturity
    (amountOf (dealAt state dealOrderId).maturity)
  /-- The maturity can be divided by. -/
  divisor : amountOf (dealAt state dealOrderId).maturity ≠ 0
  /-- The principal. -/
  principal : IsAmount (dealAt state dealOrderId).amount (principalAt state dealOrderId)
  /-- The interest. -/
  interest : IsAmount (dealAt state dealOrderId).interest
    (amountOf (dealAt state dealOrderId).interest)

section Closing

variable {sha : Sha512} {env env' : Env} {signer : Text} {state after : State}
  {tip : UInt64} {steps : List ChainStep} {chain : Chain} {payload payload' : Json}
  {dealOrderId blockchainTxId : Text}

/-- A numeral has its amount. -/
theorem HasAmount.read {text : Text} (numeral : HasAmount text) :
    IsAmount text (amountOf text) := by
  obtain ⟨amount, read⟩ := numeral
  rw [read.amountOf]
  exact read

/-- Who can pay two fees can still pay one after a transfer was registered. -/
theorem Executed.covers_again {gain balance : Int} {orderId : Text}
    (executed : Executed sha env signer state (.registerTransfer gain orderId blockchainTxId) after)
    (funds : Covers sha state signer (txFee + txFee) balance) :
    Covers sha after signer txFee (balance - txFee) := by
  have written : after.get (sha.walletId signer) =
      (walletEntry sha state signer (balance - txFee)).2 := by
    cases executed with
    | registerTransfer covers =>
      have same := covers.read.symm.trans funds.read
      rw [Option.some.injEq] at same
      subst same
      have found : sha.kindOf (sha.walletId signer) = some .wallet := sha.kindOf_walletId signer
      exact (get_setAll_at [_, _] found (by simp) (by simp)).trans (if_pos rfl)
  have covered := funds.covered
  have fee : txFee = 10000000000000000 := rfl
  refine ⟨?_, ?_, by omega, by omega⟩
  · intro missing
    have head : (walletEntry sha state signer (balance - txFee)).2.head? = some '\n' :=
      walletEntry_head signer _
    rw [← written, missing] at head
    cases head
  · rw [walletOf, written, walletEntry, Wallet.parse_serialize]
    exact cppInt_toText _

/-- A deal of a run that is locked by its fundraiser can be repaid. -/
theorem ChainRun.repayable (run : ChainRun sha tip steps chain) (separate : Separate sha steps)
    (guarded : ∀ taken ∈ steps, NamesParties sha taken)
    (found : sha.kindOf dealOrderId = some .dealOrder)
    (fundraiser : (dealAt chain.context dealOrderId).sighash ≠ [])
    (locked : (dealAt chain.context dealOrderId).lock = (dealAt chain.context dealOrderId).sighash) :
    Repayable sha chain.context dealOrderId := by
  have named (taken : ChainStep) (listed : taken ∈ steps) : NamesOffers sha taken :=
    (guarded taken listed).offers
  have kept := (run.kept named).context
  have networked := run.networked guarded separate
  have present := present_of_fundraiser fundraiser
  have ends := networked.deal dealOrderId found present
  have owner : ownerOf chain.context (dealAt chain.context dealOrderId).dstAddress =
      (dealAt chain.context dealOrderId).sighash := by
    rcases (run.matched guarded separate).2.target dealOrderId found present with
      owns | ⟨gone, _⟩
    · exact owns
    · exact absurd gone ends.rightPresent
  have differ := parties_differ run separate fun taken listed =>
    ⟨(guarded taken listed).offers, (guarded taken listed).deals⟩
  have loan := networked.locked dealOrderId found (locked ▸ fundraiser)
  obtain ⟨transfer, processed⟩ :=
    (run.consumedOnce named).processed (.loan dealOrderId) _ ⟨found, loan, rfl⟩
  have loanPresent := present_of_processed processed
  have loanContent : TransferContent sha
      (transferAt chain.context (dealAt chain.context dealOrderId).loanTransfer) :=
    kept.content loanPresent transfer
  have content : DealContent sha (dealAt chain.context dealOrderId) := kept.content present found
  obtain ⟨⟨maturity, maturityRead, positive⟩, interest⟩ :=
    (run.termed named separate).deal dealOrderId found present
  have divisor := maturityRead.amountOf
  exact
    { present := present
      ends := ends
      owner := owner
      differ := differ dealOrderId found present
      loanTransfer := transfer
      loanPresent := loanPresent
      start := loanContent.block.read
      maturity := divisor ▸ maturityRead
      divisor := by omega
      principal := content.amount.read
      interest := interest.read }

/-- At least the principal is due. -/
theorem Repayable.least (repayable : Repayable sha state dealOrderId) (head : Int) :
    principalAt state dealOrderId ≤ dueAt state head dealOrderId :=
  le_calcInterest repayable.principal.2 repayable.interest.2 _

/-- A payment without a gain is the investor's. -/
theorem Repayable.refused (repayable : Repayable sha state dealOrderId)
    (found : sha.kindOf dealOrderId = some .dealOrder) (live : env.Live)
    (signed : env.sighash sha = .ok (dealAt state dealOrderId).sighash)
    (read : payload.command = .ok (.registerTransfer 0 dealOrderId blockchainTxId)) :
    ¬ Accepts sha env state payload := by
  intro accepted
  obtain ⟨written, executed⟩ := Accepts.executed live signed read accepted
  cases executed with
  | registerTransfer covers order pays sourcePresent targetPresent owner =>
    cases pays with
    | loan => exact repayable.differ owner
    | repayment _ some => exact some rfl
    | sale kind =>
      rw [found] at kind
      cases kind

/-- A payment with a gain is the fundraiser's. -/
theorem PaysDue.pays
    (paying : PaysDue sha chain env env' payload payload' dealOrderId blockchainTxId)
    (gains : dueAt chain.context chain.head dealOrderId ≠ principalAt chain.context dealOrderId) :
    Pays sha chain.context dealOrderId
      (dueAt chain.context chain.head dealOrderId - principalAt chain.context dealOrderId)
      (dealAt chain.context dealOrderId).dstAddress (dealAt chain.context dealOrderId).srcAddress
      (dealAt chain.context dealOrderId).amount :=
  .repayment paying.found (sub_ne_zero.mpr gains)

/-- The fundraiser registers the payment of what is due, when that is more than the principal. -/
theorem PaysDue.registers
    (paying : PaysDue sha chain env env' payload payload' dealOrderId blockchainTxId)
    (repayable : Repayable sha chain.context dealOrderId)
    (gains : dueAt chain.context chain.head dealOrderId ≠
      principalAt chain.context dealOrderId) : Accepts sha env chain.context payload := by
  obtain ⟨balance, funds⟩ := paying.funds
  have covered := funds.covered
  have fee : txFee = 10000000000000000 := rfl
  have covers : Covers sha chain.context (dealAt chain.context dealOrderId).sighash txFee balance :=
    ⟨funds.present, funds.read, funds.nonneg, by omega⟩
  have pays := paying.pays gains
  have whole : principalAt chain.context dealOrderId +
      (dueAt chain.context chain.head dealOrderId - principalAt chain.context dealOrderId) =
        dueAt chain.context chain.head dealOrderId := by omega
  have paid : if blockchainTxId = "0".toList then
        toText (dueAt chain.context chain.head dealOrderId) = "0".toList
      else ∃ value, IsAmount (dealAt chain.context dealOrderId).amount value ∧
        toText (dueAt chain.context chain.head dealOrderId) =
          toText (value + (dueAt chain.context chain.head dealOrderId -
            principalAt chain.context dealOrderId)) ∧
        env.Verified (registerTransferCommand
          (addressAt chain.context (dealAt chain.context dealOrderId).dstAddress)
          (addressAt chain.context (dealAt chain.context dealOrderId).srcAddress) dealOrderId
          (toText (dueAt chain.context chain.head dealOrderId)) blockchainTxId) := by
    rw [if_neg paying.real]
    exact ⟨_, repayable.principal, congrArg toText whole.symm, paying.good⟩
  exact (settles_iff paying.serves.live paying.signed paying.admits paying.read rfl).mpr
    ⟨_, .registerTransfer covers repayable.present pays repayable.ends.rightPresent
      repayable.ends.leftPresent repayable.owner repayable.ends.blockchain.symm
      repayable.ends.network.symm paying.fresh paid⟩

/-- The fundraiser closes the deal with the registered payment. -/
theorem PaysDue.closes
    (paying : PaysDue sha chain env env' payload payload' dealOrderId blockchainTxId)
    (repayable : Repayable sha chain.context dealOrderId)
    (gains : dueAt chain.context chain.head dealOrderId ≠ principalAt chain.context dealOrderId)
    (executed : Executed sha env (dealAt chain.context dealOrderId).sighash chain.context
      (.registerTransfer (dueAt chain.context chain.head dealOrderId -
        principalAt chain.context dealOrderId) dealOrderId blockchainTxId) after) :
    Accepts sha env' after payload' := by
  obtain ⟨balance, funds⟩ := paying.funds
  have isId : sha.IsId (dealAt chain.context dealOrderId).sighash :=
    sighash_isId paying.serves.live paying.signed
  have covers := executed.covers_again funds
  have pays := paying.pays gains
  have deal : dealAt after dealOrderId = dealAt chain.context dealOrderId := by
    rw [dealAt, executed.transfer_leaves paying.found (by decide), dealAt]
  -- the payment is under its key, and the loan transfer under another one
  have payment : sha.kindOf (repaymentId sha chain.context dealOrderId blockchainTxId) =
      some .transfer := sha.kindOf_makeAddress .transfer _
  obtain ⟨amount, _, paid, written⟩ := executed.transfer_added pays payment
  obtain ⟨_, _, _, left⟩ := executed.transfer_added pays repayable.loanTransfer
  have apart : (dealAt chain.context dealOrderId).loanTransfer ≠
      paymentId sha chain.context (dealAt chain.context dealOrderId).dstAddress blockchainTxId := by
    intro same
    have there := repayable.loanPresent
    rw [same] at there
    exact there paying.fresh
  rw [if_neg apart] at left
  rw [repaymentId, if_pos rfl] at written
  rw [if_neg paying.real] at paid
  obtain ⟨value, principal, rfl⟩ := paid
  have amount : value = principalAt chain.context dealOrderId := by
    have same := principal.1.symm.trans repayable.principal.1
    exact Option.some.inj same
  have least := repayable.least chain.head
  have nonneg := repayable.principal.2
  have repaid : value + (dueAt chain.context chain.head dealOrderId -
      principalAt chain.context dealOrderId) = dueAt chain.context chain.head dealOrderId := by omega
  rw [repaid] at written
  have head : env'.head = chain.head := by
    rw [paying.live.head_eq, paying.tip]
    rfl
  have present : after.get dealOrderId ≠ [] :=
    executed.transfer_leaves paying.found (by decide) ▸ repayable.present
  have unclosed : (dealAt after dealOrderId).repaymentTransfer = [] := deal ▸ paying.unclosed
  have owner : (dealAt after dealOrderId).sighash = (dealAt chain.context dealOrderId).sighash := by
    rw [deal]
  have locked : (dealAt after dealOrderId).lock = (dealAt chain.context dealOrderId).sighash :=
    deal ▸ paying.locked
  have transferPresent :
      after.get (repaymentId sha chain.context dealOrderId blockchainTxId) ≠ [] := by
    rw [repaymentId, written]
    exact transfer_ne_nil isId.ne_nil
  have read : transferAt after (repaymentId sha chain.context dealOrderId blockchainTxId) = _ :=
    (congrArg Transfer.parseFromString written).trans (Transfer.parse_serialize _)
  have loanPresent : after.get (dealAt after dealOrderId).loanTransfer ≠ [] := by
    rw [deal, left]
    exact repayable.loanPresent
  have startRead : IsAmount (transferAt after (dealAt after dealOrderId).loanTransfer).block
      (amountOf (transferAt chain.context
        (dealAt chain.context dealOrderId).loanTransfer).block) := by
    rw [deal, transferAt, left]
    exact repayable.start
  have terms : IsAmount (dealAt after dealOrderId).maturity
        (amountOf (dealAt chain.context dealOrderId).maturity) ∧
      IsAmount (dealAt after dealOrderId).amount (principalAt chain.context dealOrderId) ∧
      IsAmount (dealAt after dealOrderId).interest
        (amountOf (dealAt chain.context dealOrderId).interest) := by
    rw [deal]
    exact ⟨repayable.maturity, repayable.principal, repayable.interest⟩
  have repaidRead : IsAmount
      (transferAt after (repaymentId sha chain.context dealOrderId blockchainTxId)).amount
      (dueAt chain.context chain.head dealOrderId) := by
    rw [read]
    exact ⟨cppInt_toText _, by omega⟩
  have enough : dueAt chain.context env'.head dealOrderId ≤
      dueAt chain.context chain.head dealOrderId := by rw [head]
  refine (settles_iff paying.live paying.signed' paying.admits' paying.read' rfl).mpr
    ⟨_, .closeDealOrder covers present unclosed owner locked transferPresent ?_ ?_ ?_ loanPresent
      startRead terms.1 repayable.divisor terms.2.1 terms.2.2 repaidRead enough⟩
  · rw [read]
  · rw [read]
  · rw [read]

/-- A first tick that rounds to nothing leaves all ticks without interest. -/
theorem calcInterest_eq_iff {amount interest : Int} (amountNonneg : 0 ≤ amount)
    (interestNonneg : 0 ≤ interest) {ticks : Nat} (started : 1 ≤ ticks) :
    calcInterest amount ticks interest = amount ↔ amount * interest < 1000000 := by
  have product : 0 ≤ amount * interest := Int.mul_nonneg amountNonneg interestNonneg
  have once := addInterest_floor amountNonneg interestNonneg
  constructor
  · intro same
    obtain ⟨further, rfl⟩ := Nat.exists_eq_add_of_le' started
    rw [calcInterest_succ] at same
    have more : addInterest amount interest ≤
        calcInterest (addInterest amount interest) further interest :=
      le_calcInterest (by omega) interestNonneg further
    omega
  · intro less
    have still : addInterest amount interest = amount := by omega
    clear started
    induction ticks with
    | zero => rfl
    | succ ticks ih => rw [calcInterest_last, ih, still]

/-- More than the principal is due when a tick yields something. -/
theorem Repayable.gains_iff (repayable : Repayable sha state dealOrderId) {head : Int}
    (started : amountOf (transferAt state (dealAt state dealOrderId).loanTransfer).block ≤ head) :
    dueAt state head dealOrderId ≠ principalAt state dealOrderId ↔
      1000000 ≤ principalAt state dealOrderId * amountOf (dealAt state dealOrderId).interest := by
  have positive : 0 < amountOf (dealAt state dealOrderId).maturity := by
    have nonneg := repayable.maturity.2
    have nonzero := repayable.divisor
    omega
  have ticks := (ticksAt positive started repayable.principal.2 repayable.interest.2).ticks
  have same := calcInterest_eq_iff repayable.principal.2 repayable.interest.2
    (Int.toNat_le_toNat ticks)
  exact (not_congr same).trans Int.not_lt

/-- In a run the fundraiser closes a loan by paying what is due exactly when a tick of interest on
the principal does not round to zero. -/
theorem paid_loan_closes_iff (run : ChainRun sha tip steps chain) (separate : Separate sha steps)
    (guarded : ∀ taken ∈ steps, NamesParties sha taken ∧ Numbered taken)
    (paying : PaysDue sha chain env env' payload payload' dealOrderId blockchainTxId) :
    AcceptsBoth sha env env' chain.context payload payload' ↔
      1000000 ≤ principalAt chain.context dealOrderId *
        amountOf (dealAt chain.context dealOrderId).interest := by
  have live := paying.serves.live
  have isId : sha.IsId (dealAt chain.context dealOrderId).sighash := sighash_isId live paying.signed
  have repayable := run.repayable separate (fun taken listed => (guarded taken listed).1)
    paying.found isId.ne_nil paying.locked
  have started : amountOf (transferAt chain.context
      (dealAt chain.context dealOrderId).loanTransfer).block ≤ chain.head := by
    have dated := run.dated fun taken listed =>
      ⟨(guarded taken listed).1.offers, (guarded taken listed).2⟩
    obtain ⟨start, read, started⟩ := dated _ repayable.loanTransfer repayable.loanPresent
    rw [read.amountOf]
    exact started
  rw [← repayable.gains_iff started]
  constructor
  · rintro ⟨memory, ran, _⟩ same
    have read := paying.read
    rw [same, Int.sub_self] at read
    exact repayable.refused paying.found live paying.signed read ⟨memory, ran⟩
  · intro gains
    obtain ⟨memory, ran⟩ := paying.registers repayable gains
    refine ⟨memory, ran, ?_⟩
    obtain ⟨signer, command, signed, read, executed⟩ := apply_executed live ran
    rw [paying.signed, Except.ok.injEq] at signed
    rw [paying.read, Except.ok.injEq] at read
    subst signed read
    exact paying.closes repayable gains executed

end Closing

/-! ## Loans with an interest -/

/-- A party orders the sample loan with an interest. -/
def orderEarning (key : Text) (nonce verb address interest : String) : Turn :=
  .submit key nonce.toList (call verb
    [("p1", sampleAddress address), ("p2", "1000".toList), ("p3", interest.toList),
      ("p4", "10".toList), ("p5", "1".toList), ("p6", "100".toList)])

/-- A loan with an interest is paid out and locked by the fundraiser. -/
def loanEarning (interest : String) : List Turn :=
  [collect investorKey "1", collect fundraiserKey "2", register investorKey "4" "0x1",
    register fundraiserKey "5" "0x2", orderEarning investorKey "7" "AddAskOrder" "0x1" interest,
    orderEarning fundraiserKey "8" "AddBidOrder" "0x2" interest,
    request investorKey "9" "AddOffer" (sample.makeAddress .askOrder "7".toList)
      (sample.makeAddress .bidOrder "8".toList),
    request fundraiserKey "10" "AddDealOrder" sampleOffer "100".toList,
    transfer investorKey "11" "0" sampleDeal "1",
    request investorKey "12" "CompleteDealOrder" sampleDeal (sampleTransfer "1"),
    request fundraiserKey "13" "LockDealOrder" sampleDeal []]

/-- The chain with a locked loan. -/
def earningChain (interest : String) : Chain :=
  (Chain.empty 2).plays sample sampleNode (loanEarning interest)

/-- The environment of a transaction of the fundraiser. -/
def repayingEnv (interest nonce : String) : Env :=
  (earningChain interest).serve sampleNode fundraiserKey nonce.toList

/-- The payload that registers the payment of what is due. -/
def repayingPayload (gain : String) : Json :=
  call "RegisterTransfer" [("p1", gain.toList), ("p2", sampleDeal), ("p3", "2".toList)]

/-- The payload that closes the loan. -/
def closingPayload : Json :=
  call "CloseDealOrder" [("p1", sampleDeal), ("p2", sampleTransfer "2")]

/-- A gain is what is due over the principal, and the fundraiser can repay the loan. -/
@[mk_iff] structure LoanEarns (interest gain : String) : Prop where
  /-- The fundraiser. -/
  fundraiser : (dealAt (earningChain interest).context sampleDeal).sighash = sample.id fundraiserKey
  /-- The fundraiser has locked the deal. -/
  locked : (dealAt (earningChain interest).context sampleDeal).lock = sample.id fundraiserKey
  /-- The deal is open. -/
  unclosed : (dealAt (earningChain interest).context sampleDeal).repaymentTransfer = []
  /-- The registration names the gain. -/
  read : (repayingPayload gain).command = .ok (.registerTransfer
    (dueAt (earningChain interest).context (earningChain interest).head sampleDeal -
      principalAt (earningChain interest).context sampleDeal) sampleDeal "2".toList)
  /-- The key of the payment. -/
  payment : repaymentId sample (earningChain interest).context sampleDeal "2".toList =
    sampleTransfer "2"
  /-- The payment is new. -/
  fresh : (earningChain interest).context.get (sampleTransfer "2") = []
  /-- The fundraiser has a wallet. -/
  wallet : (earningChain interest).context.get (sample.walletId (sample.id fundraiserKey)) ≠ []
  /-- The balance of the fundraiser. -/
  balance : (walletOf sample (earningChain interest).context (sample.id fundraiserKey)).amount =
    "959999999999999999".toList
  /-- The fundraiser signs both transactions. -/
  signed : (repayingEnv interest "14").sighash sample = .ok (sample.id fundraiserKey) ∧
    (repayingEnv interest "15").sighash sample = .ok (sample.id fundraiserKey)
  /-- The versions are accepted. -/
  admits : (repayingEnv interest "14").Admits ∧ (repayingEnv interest "15").Admits

instance (interest gain : String) : Decidable (LoanEarns interest gain) :=
  decidable_of_iff _ (loanEarns_iff interest gain).symm

/-- The gateway of the sample node confirms everything. -/
theorem sampleNode_verified (chain : Chain) (signerPublicKey nonce gatewayCommand : Text) :
    (chain.serve sampleNode signerPublicKey nonce).Verified gatewayCommand := rfl

/-- The fundraiser of a script pays what is due. -/
theorem LoanEarns.paysDue {interest gain : String} (earns : LoanEarns interest gain)
    (closes : closingPayload.command = .ok (.closeDealOrder sampleDeal (sampleTransfer "2"))) :
    PaysDue sample (earningChain interest) (repayingEnv interest "14") (repayingEnv interest "15")
      (repayingPayload gain) closingPayload sampleDeal "2".toList where
  found := sample.kindOf_makeAddress .dealOrder _
  locked := earns.locked.trans earns.fundraiser.symm
  unclosed := earns.unclosed
  serves := Chain.serve_serves fundraiserKey "14".toList
  signed := by
    rw [earns.fundraiser]
    exact earns.signed.1
  admits := earns.admits.1
  read := earns.read
  real := by decide
  fresh := earns.payment ▸ earns.fresh
  good := sampleNode_verified _ _ _ _
  funds := by
    rw [earns.fundraiser]
    refine ⟨959999999999999999, earns.wallet, ?_, by decide, by decide⟩
    rw [earns.balance]
    decide
  live := (Chain.serve_serves fundraiserKey "15".toList).live
  tip := (Chain.serve_serves fundraiserKey "15".toList).tip
  signed' := by
    rw [earns.fundraiser]
    exact earns.signed.2
  admits' := earns.admits.2
  read' := by
    rw [earns.payment]
    exact closes

/-- The runs of a loan that earns something and of a loan that earns nothing. The payment of what is
due on the second loan is refused. -/
theorem loansEarning_run :
    closingPayload.command = .ok (.closeDealOrder sampleDeal (sampleTransfer "2")) ∧
      (LoanEarns "100000" "100" ∧
        1000000 ≤ principalAt (earningChain "100000").context sampleDeal *
          amountOf (dealAt (earningChain "100000").context sampleDeal).interest ∧
        Turn.differ sample (loanEarning "100000") = true ∧
        (loanEarning "100000").all (Turn.asks fun command => command.plain sample &&
          (command.namesDeal sample && command.namesAddress sample)) = true) ∧
      LoanEarns "100" "0" ∧
      ¬ Accepts sample (repayingEnv "100" "14") (earningChain "100").context
        (repayingPayload "0") ∧
      Turn.differ sample (loanEarning "100") = true := by
  decide +kernel

/-- A loan that earns something is closed by paying what is due. -/
theorem paid_loan_closes_sample :
    AcceptsBoth sample (repayingEnv "100000" "14") (repayingEnv "100000" "15")
      (earningChain "100000").context (repayingPayload "100") closingPayload := by
  obtain ⟨closes, ⟨earns, yields, differ, asks⟩, -⟩ := loansEarning_run
  have checked : (Chain.empty 2).checks sample sampleNode
      (fun chain _ _ command => command.ordinary sample chain && (command.namesDeal sample &&
        command.namesAddress sample)) (loanEarning "100000") = true :=
    Chain.checks_plain asks
  have separate : Separate sample ((Chain.empty 2).steps sample sampleNode (loanEarning "100000")) :=
    Chain.steps_separate differ
  have numbered : ∀ taken ∈ (Chain.empty 2).steps sample sampleNode (loanEarning "100000"),
      Numbered taken := Chain.steps_numbered (by decide) (by decide)
  exact (paid_loan_closes_iff Chain.steps_run separate
    (fun taken listed => ⟨Chain.checks_parties checked taken listed, numbered taken listed⟩)
    (earns.paysDue closes)).mpr yields

/-- A loan whose interest rounds to zero cannot be closed by paying what is due. -/
theorem loan_without_gain_stuck :
    ¬ ∀ (sha : Sha512) (tip : UInt64) (steps : List ChainStep) (chain : Chain) (env env' : Env)
      (payload payload' : Json) (dealOrderId blockchainTxId : Text), ChainRun sha tip steps chain →
      Separate sha steps →
      PaysDue sha chain env env' payload payload' dealOrderId blockchainTxId →
      AcceptsBoth sha env env' chain.context payload payload' := by
  intro claim
  obtain ⟨closes, -, earns, refused, differ⟩ := loansEarning_run
  have separate : Separate sample ((Chain.empty 2).steps sample sampleNode (loanEarning "100")) :=
    Chain.steps_separate differ
  obtain ⟨memory, ran, _⟩ : AcceptsBoth sample (repayingEnv "100" "14") (repayingEnv "100" "15")
      (earningChain "100").context (repayingPayload "0") closingPayload :=
    claim sample 2 _ _ _ _ _ _ _ _ Chain.steps_run separate (earns.paysDue closes)
  exact refused ⟨memory, ran⟩

end Creditcoin
