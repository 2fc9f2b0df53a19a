import Creditcoin.Literals
import Creditcoin.Registrations

/-!
# Completing what was paid

A transfer names the number that was paid in decimal digits, while the order keeps the text its
party typed. The commands that settle the order compare the two texts. They agree exactly when
the amount was typed as a plain decimal numeral.
-/

namespace Creditcoin

open Lib

/-- A party settles an order with a transfer when it is the party's turn and the costs are
covered; whether the transfer matches the order is left open. -/
inductive Settling (sha : Sha512) (env : Env) (state : State) (signer orderId transferId : Text) :
    Command → Prop
  /-- The investor completes a deal before it expires. -/
  | loan {fee balance : Int} (kind : sha.kindOf orderId = some .dealOrder)
      (pending : (dealAt state orderId).loanTransfer = [])
      (investor : (addressAt state (dealAt state orderId).srcAddress).sighash = signer)
      (unexpired : Unexpired (dealAt state orderId).expiration (dealAt state orderId).block
        env.head)
      (feeRead : IsAmount (dealAt state orderId).fee fee)
      (funds : Covers sha state signer (txFee - fee) balance) :
      Settling sha env state signer orderId transferId (.completeDealOrder orderId transferId)
  /-- The collector takes over a deal that its investor has locked. -/
  | sale {balance : Int} (kind : sha.kindOf orderId = some .repaymentOrder)
      (collector : (repaymentAt state orderId).sighash = signer)
      (locked : (dealAt state (repaymentAt state orderId).deal).lock ≠ [])
      (investor : (dealAt state (repaymentAt state orderId).deal).lock =
        (addressAt state (dealAt state (repaymentAt state orderId).deal).srcAddress).sighash)
      (funds : Covers sha state signer txFee balance) :
      Settling sha env state signer orderId transferId (.closeRepaymentOrder orderId transferId)

/-- What a payment is registered with is the typed amount of its order. A payment without a
transaction is registered with a zero. -/
def PaidAsTyped (blockchainTxId amount : Text) : Prop :=
  if blockchainTxId = "0".toList then amount = "0".toList else IsPlain amount

instance (blockchainTxId amount : Text) : Decidable (PaidAsTyped blockchainTxId amount) :=
  inferInstanceAs (Decidable (ite _ _ _))

section Completion

variable {sha : Sha512} {env env' : Env} {signer : Text} {state after later : State}
  {payload : Json} {command : Command} {orderId source target principal blockchainTxId : Text}

/-- A payment without a gain has the text of the principal when that was typed plainly. -/
theorem paidAsTyped_iff {amount : Text}
    (paid : if blockchainTxId = "0".toList then amount = "0".toList
      else ∃ value, IsAmount principal value ∧ amount = toText (value + 0)) :
    amount = principal ↔ PaidAsTyped blockchainTxId principal := by
  unfold PaidAsTyped
  split at paid
  · rename_i zero
    rw [if_pos zero, paid]
    exact eq_comm
  · rename_i real
    obtain ⟨value, read, rfl⟩ := paid
    rw [if_neg real, Int.add_zero]
    exact toText_eq_iff read

/-- A record with an owner is there. -/
theorem ownerOf_present {addressId owner : Text}
    (owned : (addressAt state addressId).sighash = owner) (named : owner ≠ []) : state.get addressId ≠ [] := by
  intro missing
  rw [addressAt, missing] at owned
  exact named owned.symm

/-- A paid order can be settled, as long as the order and the transfer are as they were left,
exactly when its amount was typed as a plain numeral. -/
theorem paid_order_settles_iff (live : env.Live) (signed : env.sighash sha = .ok signer)
    (executed : Executed sha env signer state (.registerTransfer 0 orderId blockchainTxId) after)
    (pays : Pays sha state orderId 0 source target principal)
    (orderKept : later.get orderId = state.get orderId)
    (transferKept : later.get (paymentId sha state source blockchainTxId) =
      after.get (paymentId sha state source blockchainTxId))
    (settling : Settling sha env' later signer orderId
      (paymentId sha state source blockchainTxId) command)
    (live' : env'.Live) (signed' : env'.sighash sha = .ok signer) (admits : env'.Admits)
    (read : payload.command = .ok command) :
    Accepts sha env' later payload ↔ PaidAsTyped blockchainTxId principal := by
  have isId : sha.IsId signer := sighash_isId live signed
  have found : sha.kindOf (paymentId sha state source blockchainTxId) = some .transfer :=
    sha.kindOf_makeAddress .transfer _
  obtain ⟨amount, _, paid, written⟩ := executed.transfer_added pays found
  rw [if_pos rfl] at written
  rw [← paidAsTyped_iff paid]
  have present : later.get orderId ≠ [] := by
    rw [orderKept]
    cases executed with
    | registerTransfer covers order => exact order
  -- what is read back under the key of the payment
  have stored : later.get (paymentId sha state source blockchainTxId) =
      { blockchain := (addressAt state source).blockchain, srcAddress := source,
        dstAddress := target, order := orderId, amount := amount, tx := blockchainTxId,
        block := toText env.head, sighash := signer : Transfer }.serializeToString :=
    transferKept.trans written
  have transferPresent : later.get (paymentId sha state source blockchainTxId) ≠ [] := by
    rw [stored]
    exact transfer_ne_nil isId.ne_nil
  generalize paymentId sha state source blockchainTxId = transferId at *
  have fields : (transferAt later transferId).order = orderId ∧
      (transferAt later transferId).amount = amount ∧
      (transferAt later transferId).sighash = signer ∧
      (transferAt later transferId).processed = false := by
    rw [transferAt, stored, Transfer.parse_serialize]
    exact ⟨rfl, rfl, rfl, rfl⟩
  obtain ⟨order, amountRead, registrant, unprocessed⟩ := fields
  cases settling with
  | loan kind pending investor unexpired feeRead funds =>
    have same : principal = (dealAt later orderId).amount := by
      rw [dealAt, orderKept]
      cases pays with
      | loan => rfl
      | repayment _ some => exact absurd rfl some
      | sale kind' => rw [kind] at kind'; cases kind'
    rw [settles_iff live' signed' admits read rfl, same, ← amountRead]
    constructor
    · rintro ⟨written, completed⟩
      cases completed with
      | completeDealOrder _ _ _ _ _ _ _ matched => exact matched
    · intro matched
      exact ⟨_, .completeDealOrder present pending (ownerOf_present investor isId.ne_nil) investor
        unexpired transferPresent order matched registrant unprocessed feeRead funds⟩
  | sale kind collector locked investor funds =>
    have same : principal = (repaymentAt later orderId).amount := by
      rw [repaymentAt, orderKept]
      cases pays with
      | loan kind' => rw [kind] at kind'; cases kind'
      | repayment kind' => rw [kind] at kind'; cases kind'
      | sale => rfl
    have dealPresent : later.get (repaymentAt later orderId).deal ≠ [] := by
      intro missing
      rw [dealAt, missing] at locked
      exact locked rfl
    rw [settles_iff live' signed' admits read rfl, same, ← amountRead]
    constructor
    · rintro ⟨written, closed⟩
      cases closed with
      | closeRepaymentOrder _ _ _ _ _ matched => exact matched
    · intro matched
      exact ⟨_, .closeRepaymentOrder funds present collector transferPresent order matched registrant
        unprocessed dealPresent (ownerOf_present investor.symm locked) investor⟩

end Completion

/-! ## Loans of typed amounts -/

/-- A party orders the sample loan with an amount that was typed. -/
def orderTyped (key : Text) (nonce verb address amount : String) : Turn :=
  .submit key nonce.toList (call verb
    [("p1", sampleAddress address), ("p2", amount.toList), ("p3", "100".toList),
      ("p4", "10".toList), ("p5", "1".toList), ("p6", "100".toList)])

/-- The chain with a deal order whose amount was typed. -/
def typedChain (amount : String) : Chain :=
  (Chain.empty 2).plays sample sampleNode
    [collect investorKey "1", collect fundraiserKey "2", register investorKey "4" "0x1",
      register fundraiserKey "5" "0x2", orderTyped investorKey "7" "AddAskOrder" "0x1" amount,
      orderTyped fundraiserKey "8" "AddBidOrder" "0x2" amount,
      request investorKey "9" "AddOffer" (sample.makeAddress .askOrder "7".toList)
        (sample.makeAddress .bidOrder "8".toList),
      request fundraiserKey "10" "AddDealOrder" sampleOffer "100".toList]

/-- The payload that registers the payment of the sample loan. -/
def payPayload : Json :=
  call "RegisterTransfer" [("p1", "0".toList), ("p2", sampleDeal), ("p3", "1".toList)]

/-- The investor registers the payment of the sample loan. -/
def payTyped : Turn := .submit investorKey "11".toList payPayload

/-- The chain after the payment. -/
def paidChain (amount : String) : Chain := (typedChain amount).play sample sampleNode payTyped

/-- The payload that completes the sample loan. -/
def completePayload : Json :=
  call "CompleteDealOrder" [("p1", sampleDeal), ("p2", sampleTransfer "1")]

/-- The environment in which the investor completes the sample loan. -/
def completeEnv (amount : String) : Env :=
  (paidChain amount).serve sampleNode investorKey "12".toList

/-- The payment of a typed amount is registered, and the investor can afford to complete. -/
@[mk_iff] structure TypedLoan (amount : String) : Prop where
  /-- The payment is registered. -/
  accepted : (typedChain amount).accepts sample sampleNode payTyped =
    some (sample.id investorKey, .registerTransfer 0 sampleDeal "1".toList)
  /-- The key of the payment. -/
  payment : paymentId sample (typedChain amount).context
    (dealAt (typedChain amount).context sampleDeal).srcAddress "1".toList = sampleTransfer "1"
  /-- The deal order keeps the typed amount. -/
  typed : (dealAt (typedChain amount).context sampleDeal).amount = amount.toList
  /-- The deal order is left. -/
  kept : (paidChain amount).context.get sampleDeal = (typedChain amount).context.get sampleDeal
  /-- The deal order is not completed. -/
  pending : (dealAt (paidChain amount).context sampleDeal).loanTransfer = []
  /-- The investor owns the source. -/
  investor : (addressAt (paidChain amount).context
    (dealAt (paidChain amount).context sampleDeal).srcAddress).sighash = sample.id investorKey
  /-- The deal order is as old as the tip. -/
  start : (dealAt (paidChain amount).context sampleDeal).block = toText (completeEnv amount).head
  /-- The fee of the deal. -/
  fee : (dealAt (paidChain amount).context sampleDeal).fee = "1".toList
  /-- The investor has a wallet. -/
  wallet : (paidChain amount).context.get (sample.walletId (sample.id investorKey)) ≠ []
  /-- The balance of the investor. -/
  balance : (walletOf sample (paidChain amount).context (sample.id investorKey)).amount =
    "960000000000000000".toList
  /-- The version of the transaction is accepted. -/
  admits : (completeEnv amount).Admits

instance (amount : String) : Decidable (TypedLoan amount) :=
  decidable_of_iff _ (typedLoan_iff amount).symm

section TypedLoan

variable {amount : String}

/-- The investor pays the typed amount. -/
theorem TypedLoan.pays (sampled : TypedLoan amount) :
    Pays sample (typedChain amount).context sampleDeal 0
      (dealAt (typedChain amount).context sampleDeal).srcAddress
      (dealAt (typedChain amount).context sampleDeal).dstAddress amount.toList :=
  sampled.typed ▸ .loan (sample.kindOf_makeAddress .dealOrder _) rfl

/-- The investor may complete the deal order. -/
theorem TypedLoan.settling (sampled : TypedLoan amount) :
    Settling sample (completeEnv amount) (paidChain amount).context (sample.id investorKey)
      sampleDeal (paymentId sample (typedChain amount).context
        (dealAt (typedChain amount).context sampleDeal).srcAddress "1".toList)
      (.completeDealOrder sampleDeal (sampleTransfer "1")) := by
  rw [sampled.payment]
  have unexpired : Unexpired (dealAt (paidChain amount).context sampleDeal).expiration
      (dealAt (paidChain amount).context sampleDeal).block (completeEnv amount).head := by
    refine ⟨(completeEnv amount).head, ⟨?_, Int.natCast_nonneg _⟩, ?_⟩
    · rw [sampled.start, cppInt_toText]
    · rw [Int.sub_self]
      exact Int.natCast_nonneg _
  have funds : Covers sample (paidChain amount).context (sample.id investorKey) (txFee - 1)
      960000000000000000 := by
    refine ⟨sampled.wallet, ?_, by decide, by decide⟩
    rw [sampled.balance]
    decide
  have feeRead : IsAmount (dealAt (paidChain amount).context sampleDeal).fee 1 := by
    rw [sampled.fee]
    exact ⟨by decide, by decide⟩
  exact .loan (sample.kindOf_makeAddress .dealOrder _) sampled.pending sampled.investor unexpired
    feeRead funds

end TypedLoan

/-- The runs of both loans. The loan that was typed in hexadecimal digits is not completed. -/
theorem typedLoans_run :
    completePayload.command = .ok (.completeDealOrder sampleDeal (sampleTransfer "1")) ∧
      TypedLoan "1000" ∧ TypedLoan "0x3e8" ∧
      ¬ Accepts sample (completeEnv "0x3e8") (paidChain "0x3e8").context completePayload := by
  decide +kernel

/-- A loan of a plainly typed amount is completed once it was paid. -/
theorem paid_order_settles_sample :
    Accepts sample (completeEnv "1000") (paidChain "1000").context completePayload := by
  obtain ⟨read, sampled, -⟩ := typedLoans_run
  have settles : Accepts sample (completeEnv "1000") (paidChain "1000").context completePayload ↔
      PaidAsTyped "1".toList "1000".toList := paid_order_settles_iff
    (Chain.serve_serves investorKey "11".toList).live (by decide)
    (Chain.accepts_executed sampled.accepted) sampled.pays sampled.kept rfl sampled.settling
    (Chain.serve_serves investorKey "12".toList).live (by decide) sampled.admits read
  exact settles.mpr (by decide +kernel)

/-- A loan of an amount that was typed in hexadecimal digits is paid and cannot be completed. -/
theorem paid_loan_stuck :
    ¬ ∀ (sha : Sha512) (tip : UInt64) (steps : List ChainStep) (chain : Chain) (taken : ChainStep)
      (env env' : Env) (signer orderId source target principal blockchainTxId : Text)
      (command : Command) (payload : Json), ChainRun sha tip (steps ++ [taken]) chain →
      Succeeds sha taken env signer (.registerTransfer 0 orderId blockchainTxId) →
      blockchainTxId ≠ "0".toList →
      Pays sha taken.before.context orderId 0 source target principal →
      Settling sha env' chain.context signer orderId
        (paymentId sha taken.before.context source blockchainTxId) command →
      chain.Serves env' → env'.sighash sha = .ok signer → env'.Admits →
      payload.command = .ok command → Accepts sha env' chain.context payload := by
  intro claim
  obtain ⟨read, -, sampled, refused⟩ := typedLoans_run
  have accepts : Accepts sample (completeEnv "0x3e8") (paidChain "0x3e8").context
      completePayload :=
    claim sample 2 _ _ _ _ _ _ sampleDeal _ _ _ "1".toList _ _
      (Run.snoc Chain.steps_run Chain.play_step) (Chain.accepts_succeeds sampled.accepted)
      (by decide) sampled.pays sampled.settling (Chain.serve_serves investorKey "12".toList)
      (by decide +kernel) sampled.admits read
  exact refused accepts

end Creditcoin
