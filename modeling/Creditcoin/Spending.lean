import Creditcoin.Balances
import Creditcoin.Script

/-!
# Spending

A command takes coins from the wallet of its signer only, and no more than its price: the amount
of `SendFunds`, the fee of the bid for `AddDealOrder`, and the transaction fee. What it pays goes
to one owner, and `Housekeeping` only raises wallets. So nobody spends the coins of another one,
in a run whose `AddDealOrder`s name offers; an `AddDealOrder` of any other record deletes the
wallet that the record names.
-/

namespace Creditcoin

open Lib

/-- The fee of the bid that an offer takes. -/
def bidFee (state : State) (offerId : Text) : Int :=
  amountOf (orderAt state (offerAt state offerId).bidOrder).fee

/-- What a command takes from the wallet of its signer, which the fee of a completed deal reaches. -/
def Command.cost (state : State) : Command → Int
  | .sendFunds _ amount _ => amount + txFee
  | .addDealOrder offerId _ => bidFee state offerId + txFee
  | .completeDealOrder dealOrderId _ => txFee - amountOf (dealAt state dealOrderId).fee
  | .collectCoins .. => 0
  | .housekeeping .. => 0
  | _ => txFee

/-- What a command of a signer pays to an owner. -/
def Command.pays (signer owner : Text) : Command → Int
  | .sendFunds _ amount sighash => if owner = sighash then amount else 0
  | .collectCoins _ _ amount _ => if owner = signer then amount else 0
  | _ => 0

/-- The most that a command may take from the wallet of its signer. -/
def Command.allowance (state : State) : Command → Int
  | .sendFunds _ amount _ => amount + txFee
  | .addDealOrder offerId _ => bidFee state offerId + txFee
  | .collectCoins .. => 0
  | .housekeeping .. => 0
  | _ => txFee

/-- A step takes coins from the wallet of its signer only, and no more than its command allows;
a step that is not accepted leaves every record. -/
structure SpendsOwn (sha : Sha512) (taken : ChainStep) : Prop where
  /-- The other wallets do not fall. -/
  others : ∀ env signer command, Succeeds sha taken env signer command → ∀ owner, owner ≠ signer →
    balanceOf sha taken.before.context owner ≤ balanceOf sha taken.after.context owner
  /-- The wallet of the signer falls by the allowance at most. -/
  own : ∀ env signer command, Succeeds sha taken env signer command →
    balanceOf sha taken.before.context signer - command.allowance taken.before.context ≤
      balanceOf sha taken.after.context signer
  /-- Without a command nothing changes. -/
  idle : (∀ env signer command, ¬ Succeeds sha taken env signer command) →
    taken.after.context = taken.before.context

section Spending

variable {sha : Sha512} {env : Env} {signer owner : Text} {state after : State}
  {command : Command} {tip : UInt64} {steps : List ChainStep} {chain : Chain}

/-- The amount of a numeral is not negative. -/
theorem HasAmount.amountOf_nonneg {text : Text} (numeral : HasAmount text) :
    0 ≤ amountOf text := by
  obtain ⟨amount, read⟩ := numeral
  rw [read.amountOf]
  exact read.2

/-- Writes of other kinds leave the balances. -/
theorem balanceOf_setAll_apart {values : List (Text × Text)}
    (apart : ∀ entry ∈ values, sha.kindOf entry.1 ≠ some .wallet) :
    balanceOf sha (state.setAll values) owner = balanceOf sha state owner :=
  balanceOf_same (get_setAll_apart (sha.kindOf_walletId owner) apart)

/-- Among writes of other kinds, the written wallet of a signer gets its balance. -/
theorem Covers.written {cost balance left : Int} (before : List (Text × Text))
    {values : List (Text × Text)} (covers : Covers sha state signer cost balance)
    (skipped : ∀ entry ∈ before, sha.kindOf entry.1 ≠ some .wallet)
    (apart : ∀ entry ∈ values, sha.kindOf entry.1 ≠ some .wallet) :
    Creditcoin.balanceOf sha
        (state.setAll (before ++ walletEntry sha state signer left :: values)) owner =
      Creditcoin.balanceOf sha state owner - if owner = signer then balance - left else 0 := by
  rw [Store.setAll_append, Store.setAll_cons, balanceOf_setAll_apart apart, walletEntry_fst,
    balanceOf_walletEntry, balanceOf_setAll_apart skipped]
  by_cases same : signer = owner
  · subst same
    have whole := covers.balanceOf
    rw [if_pos rfl, if_pos rfl]
    omega
  · rw [if_neg same, if_neg fun equal => same equal.symm, Int.sub_zero]

/-- A signer who is charged the transaction fee pays it alone. -/
theorem Covers.charged {balance : Int} (before : List (Text × Text))
    {values : List (Text × Text)} (covers : Covers sha state signer txFee balance)
    (skipped : ∀ entry ∈ before, sha.kindOf entry.1 ≠ some .wallet)
    (apart : ∀ entry ∈ values, sha.kindOf entry.1 ≠ some .wallet) :
    Creditcoin.balanceOf sha
        (state.setAll (before ++ walletEntry sha state signer (balance - txFee) :: values)) owner =
      Creditcoin.balanceOf sha state owner + 0 - if owner = signer then txFee else 0 := by
  rw [covers.written before skipped apart, Int.add_zero, Int.sub_sub_self]

/-- What a command other than `Housekeeping` does to a balance. -/
theorem Executed.balance (around : Surroundings sha env signer state command)
    (executed : Executed sha env signer state command after)
    (other : ∀ blockIdx, command ≠ .housekeeping blockIdx) :
    balanceOf sha after owner = balanceOf sha state owner + command.pays signer owner -
      (if owner = signer then command.cost state else 0) := by
  obtain ⟨kept, live, isId, lists, named⟩ := around
  cases executed with
  | sendFunds numeral receiver covers credited =>
    rename_i amountString sighash amount balance wallet
    have whole := covers.balanceOf
    rw [Store.setAll_cons, Store.setAll_cons, Store.setAll_cons, Store.setAll_nil, walletEntry_fst,
      balanceOf_walletEntry, balanceOf_set_apart (by simp), balanceOf_credit numeral.1 credited,
      Command.pays, Command.cost]
    by_cases same : owner = signer
    · subst same
      rw [if_pos rfl, if_pos rfl, if_neg fun paid => receiver paid.symm]
      omega
    · have unpaid : signer ≠ owner := fun equal => same equal.symm
      rw [if_neg unpaid, if_neg same, Int.sub_zero]
      simp only [eq_comm]
  | registerAddress covers fresh =>
    exact covers.charged [_] (by simp) (by simp)
  | registerTransfer covers order pays sourcePresent targetPresent owner blockchain network fresh
      paid =>
    exact covers.charged [_, _] (by simp) (by simp)
  | addOrder covers amountRead interestRead maturityRead feeRead fresh present owner =>
    rename_i side _ _ _ _ _ _ _ _ _ _ _
    have apart : side.kind ≠ .wallet := by cases side <;> exact Kind.noConfusion
    exact covers.charged [_, _] (by simpa using apart) (by simp)
  | addOffer covers fresh askPresent askOwner askUnexpired sourcePresent bidPresent bidOwner
      bidUnexpired targetPresent blockchain network amount fee askInterestRead askMaturityRead
      askMaturityNonzero bidInterestRead bidMaturityRead bidMaturityNonzero rate =>
    exact covers.charged [_, _, _] (by simp) (by simp)
  | addDealOrder fresh present unexpired bidPresent bidOwner askPresent feeRead covers =>
    have offer : OfferContent sha (offerAt state _) := kept.content present named
    rw [balanceOf_erase_apart (by rw [named]; decide),
      balanceOf_erase_apart (offer.bid.apart (by decide) (by decide)),
      balanceOf_erase_apart (offer.ask.apart (by decide) (by decide))]
    refine (covers.written [_, _] (by simp) (by simp)).trans ?_
    dsimp only [Command.pays, Command.cost, bidFee]
    rw [feeRead.amountOf, Int.add_zero, Int.sub_sub_self]
  | completeDealOrder present pending sourcePresent owner unexpired transferPresent order amount
      registrant unprocessed feeRead covers =>
    rename_i dealOrderId transferId balance fee
    obtain ⟨transfer, payable⟩ := kept.consumed isId transferPresent order present registrant
    have deal := kept.deal_of_pending present payable pending
    refine (covers.written [_, _, _] (by simp [deal, transfer]) (by simp)).trans ?_
    have same : balance - (balance + (fee - txFee)) = txFee - fee := by omega
    dsimp only [Command.pays, Command.cost]
    rw [feeRead.amountOf, Int.add_zero, same]
  | lockDealOrder covers present unlocked completed owner =>
    have deal := kept.deal_of_owner present (owner ▸ isId.ne_nil)
    exact covers.charged [_, _] (by simp [deal]) (by simp)
  | closeDealOrder covers present unclosed owner locked transferPresent order registrant
      unprocessed loanPresent startRead maturityRead maturityNonzero principalRead interestRead
      repaidRead enough =>
    obtain ⟨transfer, _⟩ := kept.consumed isId transferPresent order present registrant
    have deal := kept.deal_of_owner present (owner ▸ isId.ne_nil)
    exact covers.charged [_, _, _] (by simp [deal, transfer]) (by simp)
  | exempt covers present unclosed transferPresent order unprocessed sourcePresent owner =>
    obtain ⟨transfer, payable⟩ := kept.exempted transferPresent order present sourcePresent
    have apart : sha.kindOf _ ≠ some .wallet := payable.apart (by decide) (by decide)
    exact covers.charged [_, _, _] (by simp [apart, transfer]) (by simp)
  | addRepaymentOrder covers amountRead fresh fundraiser completed unclosed investor blockchain
      network value =>
    exact covers.charged [_, _] (by simp) (by simp)
  | completeRepaymentOrder covers present targetPresent owner dealPresent unlocked =>
    have repayment := kept.repayment_of_deal present targetPresent dealPresent
    have content : RepaymentContent sha _ (repaymentAt state _) := kept.content present repayment
    have apart : sha.kindOf (repaymentAt state _).deal ≠ some .wallet :=
      content.deal.apart (by decide) (by decide)
    exact covers.charged [_, _, _] (by simp [apart, repayment]) (by simp)
  | closeRepaymentOrder covers present owner transferPresent order amount registrant unprocessed
      dealPresent sourcePresent locked =>
    obtain ⟨transfer, payable⟩ := kept.consumed isId transferPresent order present registrant
    have repayment := kept.repayment_of_collector present payable (owner ▸ isId)
    have content : RepaymentContent sha _ (repaymentAt state _) := kept.content present repayment
    have apart : sha.kindOf (repaymentAt state _).deal ≠ some .wallet :=
      content.deal.apart (by decide) (by decide)
    exact covers.charged [_, _, _, _] (by simp [apart, repayment, transfer]) (by simp)
  | collectCoins numeral fresh verified credited =>
    rw [Store.setAll_cons, Store.setAll_cons, Store.setAll_nil, balanceOf_set_apart (by simp),
      balanceOf_credit numeral.1 credited, Command.pays, Command.cost, ite_self, Int.sub_zero]
    simp only [eq_comm]
  | housekeeping swept => exact absurd rfl (other _)

/-- A write of `Housekeeping` lowers no balance. -/
theorem Swept.balance_le {blockIdx : Int} (lists : env.ListsKept sha)
    (swept : Swept sha env blockIdx state after) :
    balanceOf sha state owner ≤ balanceOf sha after owner := by
  have erased {before : State} {key value : Text} {kind : Kind} (noWallet : kind ≠ .wallet)
      (listed : Listed env (sha.space kind) key value) :
      balanceOf sha (before.erase key) owner = balanceOf sha before owner := by
    apply balanceOf_erase_apart
    rw [(lists _ _ _ listed).1, ne_eq, Option.some.injEq]
    exact noWallet
  cases swept with
  | order listed expired =>
    rename_i side _ _
    rw [erased (by cases side <;> decide) listed]
  | offer listed expired => rw [erased (by decide) listed]
  | deal listed settled expired pending covers read =>
    have whole := covers.balanceOf
    have positive := read.2
    rw [erased (by decide) listed, Store.setAll_cons, Store.setAll_nil, walletEntry_fst,
      balanceOf_walletEntry]
    split
    · subst owner
      omega
    · exact Int.le_refl _
  | repayment listed expired open' => rw [erased (by decide) listed]
  | fee listed read due covers =>
    rw [erased (by decide) listed, balanceOf_set_apart]
    rw [sha.kindOf_line (walletEntry_head _ _)]
    exact fun same => nomatch same
  | award positive printed credited =>
    rw [Store.setAll_cons, Store.setAll_nil, balanceOf_credit printed credited]
    split
    · omega
    · omega
  | mark height =>
    rw [balanceOf_set_apart]
    rw [sha.kindOf_processedBlockIdx]
    exact fun same => nomatch same

/-- `Housekeeping` lowers no balance. -/
theorem swept_balance_le {blockIdx : Int} (lists : env.ListsKept sha)
    (swept : Relation.ReflTransGen (Swept sha env blockIdx) state after) :
    balanceOf sha state owner ≤ balanceOf sha after owner := by
  induction swept with
  | refl => exact Int.le_refl _
  | tail _ step ih => exact Int.le_trans ih (step.balance_le lists)

/-- The price of a command is within its allowance. -/
theorem Executed.cost_le
    (executed : Executed sha env signer state command after) :
    command.cost state ≤ command.allowance state := by
  cases executed with
  | completeDealOrder present pending sourcePresent owner unexpired transferPresent order amount
      registrant unprocessed feeRead covers =>
    have positive := feeRead.2
    dsimp only [Command.cost, Command.allowance]
    rw [feeRead.amountOf]
    omega
  | _ => exact Int.le_refl _

/-- What a command pays is not negative. -/
theorem Executed.pays_nonneg (executed : Executed sha env signer state command after) :
    0 ≤ command.pays signer owner := by
  cases executed with
  | sendFunds numeral receiver covers credited =>
    have positive := numeral.2
    dsimp only [Command.pays]
    split <;> omega
  | collectCoins numeral fresh verified credited =>
    have positive := numeral.2
    dsimp only [Command.pays]
    split <;> omega
  | _ => exact Int.le_refl _

/-- A command lowers the wallet of its signer only, and by its allowance at most. -/
theorem Executed.spends (around : Surroundings sha env signer state command)
    (executed : Executed sha env signer state command after) :
    balanceOf sha state owner - (if owner = signer then command.allowance state else 0) ≤
      balanceOf sha after owner := by
  by_cases house : ∃ blockIdx, command = .housekeeping blockIdx
  · obtain ⟨blockIdx, rfl⟩ := house
    cases executed with
    | housekeeping swept =>
      dsimp only [Command.allowance]
      rw [ite_self, Int.sub_zero]
      exact swept_balance_le around.lists swept
  · have within := executed.cost_le
    have paid : 0 ≤ command.pays signer owner := executed.pays_nonneg
    rw [executed.balance around fun blockIdx same => house ⟨blockIdx, same⟩]
    split <;> omega

/-- In a run whose `AddDealOrder`s name offers, signers spend their own coins. -/
theorem coins_spent_by_owner (run : ChainRun sha tip steps chain)
    (guarded : ∀ taken ∈ steps, NamesOffers sha taken) : ∀ taken ∈ steps, SpendsOwn sha taken := by
  intro taken listed
  obtain ⟨earlier, later, _, reached, before, step⟩ := run.split guarded listed
  have kept := reached.kept before
  have spends (env : Env) (signer : Text) (command : Command)
      (succeeds : Succeeds sha taken env signer command) (owner : Text) :
      balanceOf sha taken.before.context owner -
          (if owner = signer then command.allowance taken.before.context else 0) ≤
        balanceOf sha taken.after.context owner := by
    obtain ⟨serves, executed⟩ := succeeds.executed step
    exact executed.spends (succeeds.around serves kept (guarded taken listed))
  constructor
  · intro env signer command succeeds owner other
    have bound := spends env signer command succeeds owner
    rw [if_neg other, Int.sub_zero] at bound
    exact bound
  · intro env signer command succeeds
    have bound := spends env signer command succeeds signer
    rw [if_pos rfl] at bound
    exact bound
  · intro idle
    cases step.did with
    | executed serves succeeds => exact absurd succeeds (idle _ _ _)
    | rejected same => exact congrArg Chain.context same
    | committed committed context => exact context

end Spending

/-! ## Coins of the sample loan -/

/-- The investor sends coins to the fundraiser. -/
theorem coins_spent_by_owner_sample :
    let script := [collect investorKey "1", collect fundraiserKey "2",
      .submit investorKey "3".toList (call "SendFunds"
        [("p1", "5".toList), ("p2", sample.id fundraiserKey)])]
    balanceOf sample ((Chain.empty 2).plays sample sampleNode script).context
        (sample.id fundraiserKey) = 1000000000000000005 ∧
      ∀ taken ∈ (Chain.empty 2).steps sample sampleNode script, SpendsOwn sample taken := by
  intro script
  have paid : balanceOf sample ((Chain.empty 2).plays sample sampleNode script).context
      (sample.id fundraiserKey) = 1000000000000000005 := by
    decide +kernel
  have checked : (Chain.empty 2).checks sample sampleNode
      (fun chain _ _ command => command.ordinary sample chain && true) script = true :=
    Chain.checks_plain (by decide +kernel)
  exact ⟨paid, coins_spent_by_owner Chain.steps_run fun taken listed =>
    (Chain.checks_ordinary checked taken listed).1⟩

/-- The collector deletes the wallet of the investor. -/
def walletDeleted : List Turn :=
  [collect investorKey "1", collect collectorKey "3", register collectorKey "6" "0x3"] ++
    deletes (sample.walletId (sample.id investorKey))

/-- The chain before the deal order that deletes the wallet. -/
def walletChain : Chain := (Chain.empty 1).plays sample sampleNode (walletDeleted.take 5)

/-- The deal order that deletes the wallet. -/
def deletesWallet : Turn :=
  request collectorKey "15" "AddDealOrder"
    (misnamedAddress (sample.walletId (sample.id investorKey))) "100".toList

/-- The wallet is deleted by the last step of the script. -/
theorem deletesWallet_listed :
    ⟨walletChain, walletChain.event sampleNode deletesWallet,
      walletChain.play sample sampleNode deletesWallet⟩ ∈
      (Chain.empty 1).steps sample sampleNode walletDeleted := by
  have last : walletDeleted.drop 5 = [deletesWallet] := rfl
  exact Chain.step_mem last

/-- The collector spends the coins of the investor. -/
theorem wallet_deleted :
    ¬ ∀ (sha : Sha512) (tip : UInt64) (steps : List ChainStep) (chain : Chain),
      ChainRun sha tip steps chain → ∀ taken ∈ steps, SpendsOwn sha taken := by
  intro claim
  have fallen : walletChain.accepts sample sampleNode deletesWallet =
        some (sample.id collectorKey,
          .addDealOrder (misnamedAddress (sample.walletId (sample.id investorKey))) 100) ∧
      sample.id investorKey ≠ sample.id collectorKey ∧
      ¬ balanceOf sample walletChain.context (sample.id investorKey) ≤
        balanceOf sample (walletChain.play sample sampleNode deletesWallet).context
          (sample.id investorKey) := by
    decide +kernel
  obtain ⟨accepted, other, less⟩ := fallen
  have spends := claim sample 1 _ _ Chain.steps_run _ deletesWallet_listed
  exact less (spends.others _ _ _ (Chain.accepts_succeeds accepted) _ other)

end Creditcoin
