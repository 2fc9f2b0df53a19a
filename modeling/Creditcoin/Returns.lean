import Creditcoin.Parties

/-!
# Whom a repayment reaches

The fundraiser registers the repayment of a loan in one transaction and closes the deal with it in
a later one. The closing compares the order, the signer and the amount of the transfer and not its
addresses. A transfer of the fundraiser pays from the address of the fundraiser to the investor of
the time; it reaches the investor of the closing when the loan was not sold in between.
-/

namespace Creditcoin

open Lib

/-- A step sells a deal. -/
def Sells (sha : Sha512) (taken : ChainStep) (dealOrderId : Text) : Prop :=
  ∃ env signer repaymentOrderId transferId,
    Succeeds sha taken env signer (.closeRepaymentOrder repaymentOrderId transferId) ∧
    (repaymentAt taken.before.context repaymentOrderId).deal = dealOrderId

/-- A deal was sold when a transfer was registered already. -/
def SoldSince (sha : Sha512) (steps : List ChainStep) (dealOrderId transferId : Text) : Prop :=
  ∃ sale ∈ steps, Sells sha sale dealOrderId ∧ sale.before.context.get transferId ≠ []

/-- The deals of a run are closed with transfers that were registered after the last sale. -/
def ClosesCurrent (sha : Sha512) (steps : List ChainStep) : Prop :=
  ∀ earlier taken later, steps = earlier ++ taken :: later →
    ∀ env signer dealOrderId transferId,
    Succeeds sha taken env signer (.closeDealOrder dealOrderId transferId) →
    ¬ SoldSince sha earlier dealOrderId transferId

/-- A transfer pays from the fundraiser of a deal to its investor. -/
def Repays (state : State) (dealOrderId transferId : Text) : Prop :=
  (transferAt state transferId).dstAddress = (dealAt state dealOrderId).srcAddress ∧
    (transferAt state transferId).srcAddress = (dealAt state dealOrderId).dstAddress

/-- Every deal of a run is closed with a repayment to the investor. -/
def RepaysInvestors (sha : Sha512) (steps : List ChainStep) : Prop :=
  ∀ taken ∈ steps, ∀ env signer dealOrderId transferId,
    Succeeds sha taken env signer (.closeDealOrder dealOrderId transferId) →
    Repays taken.before.context dealOrderId transferId

/-- The transfers of a fundraiser pay to the investor, or the loan was sold. -/
def Outstanding (sha : Sha512) (steps : List ChainStep) (state : State) : Prop :=
  ∀ key, sha.kindOf key = some .transfer → state.get key ≠ [] →
    sha.kindOf (transferAt state key).order = some .dealOrder →
    (∃ offerId, Dealt sha steps offerId ∧
      (transferAt state key).order = sha.makeAddress .dealOrder offerId) ∧
    (state.get (transferAt state key).order ≠ [] →
      (transferAt state key).sighash = (dealAt state (transferAt state key).order).sighash →
      (transferAt state key).srcAddress = (dealAt state (transferAt state key).order).dstAddress ∧
        ((transferAt state key).dstAddress =
            (dealAt state (transferAt state key).order).srcAddress ∨
          SoldSince sha steps (transferAt state key).order key))

section Returns

variable {sha : Sha512} {env : Env} {signer : Text} {state after : State} {command : Command}
  {key : Text} {tip : UInt64} {steps later : List ChainStep} {chain : Chain} {taken : ChainStep}

/-- A sale stays one in a longer run. -/
theorem SoldSince.mono {dealOrderId transferId : Text}
    (sold : SoldSince sha steps dealOrderId transferId) (within : steps ⊆ later) :
    SoldSince sha later dealOrderId transferId := by
  obtain ⟨sale, listed, sells⟩ := sold
  exact ⟨sale, within listed, sells⟩

/-- A deal keeps its investor unless it is sold. -/
theorem Executed.investor_after (around : Surroundings sha env signer state command)
    (executed : Executed sha env signer state command after)
    (found : sha.kindOf key = some .dealOrder) (present : state.get key ≠ [])
    (remains : after.get key ≠ []) :
    (dealAt after key).srcAddress = (dealAt state key).srcAddress ∨
      ∃ repaymentOrderId transferId,
        command = .closeRepaymentOrder repaymentOrderId transferId ∧
        (repaymentAt state repaymentOrderId).deal = key := by
  rcases executed.deal_cases around found with
    same | ⟨fresh, _⟩ | ⟨_, _, step⟩ | ⟨gone, _⟩
  · left
    rw [dealAt, same, dealAt]
  · exact absurd fresh present
  · generalize dealAt after key = next at step ⊢
    cases step with
    | sold orderPresent orderFound names => exact .inr ⟨_, _, rfl, names⟩
    | _ => exact .inl rfl
  · exact absurd gone remains

/-- A transfer that was registered keeps what it says. -/
theorem Executed.transfer_terms (around : Surroundings sha env signer state command)
    (executed : Executed sha env signer state command after)
    (found : sha.kindOf key = some .transfer) (present : state.get key ≠ []) :
    (transferAt after key).order = (transferAt state key).order ∧
      (transferAt after key).sighash = (transferAt state key).sighash ∧
      (transferAt after key).srcAddress = (transferAt state key).srcAddress ∧
      (transferAt after key).dstAddress = (transferAt state key).dstAddress := by
  rcases executed.transfer_registered around found present with same | ⟨_, processed⟩
  · rw [transferAt, same]
    exact ⟨rfl, rfl, rfl, rfl⟩
  · rw [processed]
    exact ⟨rfl, rfl, rfl, rfl⟩

/-- A command keeps that the transfers of fundraisers pay to the investors or the loan was sold. -/
theorem Executed.outstanding (succeeds : Succeeds sha taken env signer command)
    (around : Surroundings sha env signer taken.before.context command)
    (executed : Executed sha env signer taken.before.context command after)
    (grows : Grows sha steps (steps ++ [taken]) env command)
    (apart : Apart sha steps taken.before.context)
    (outstanding : Outstanding sha steps taken.before.context) :
    Outstanding sha (steps ++ [taken]) after := by
  have within : steps ⊆ steps ++ [taken] := List.subset_append_left steps [taken]
  intro key found remains deal
  by_cases present : taken.before.context.get key = []
  · rcases executed.transfer around found with same | change
    · exact absurd (same.trans present) remains
    · obtain ⟨data, written, change⟩ : ∃ data, after.get key = data ∧
          TransferChange sha env signer taken.before.context key command data := ⟨_, rfl, change⟩
      have read := congrArg Transfer.parseFromString written
      change transferAt after key = _ at read
      cases change with
      | consumed there => exact absurd present there
      | registered fresh order pays made =>
        rename_i gain orderId blockchainTxId source target principal amount
        rw [Transfer.parse_serialize] at read
        rw [read] at deal ⊢
        dsimp only at deal ⊢
        obtain ⟨⟨offerId, dealt, named⟩, _⟩ := apart.deal orderId deal order
        refine ⟨⟨offerId, dealt.mono within, named⟩, fun _ party => ?_⟩
        have frame : after.get orderId = taken.before.context.get orderId :=
          executed.frame around (by rw [deal]; simp [Command.kinds])
        have same : dealAt after orderId = dealAt taken.before.context orderId := by
          rw [dealAt, frame, dealAt]
        rw [same] at party ⊢
        cases pays with
        | repayment kind some => exact ⟨rfl, .inl rfl⟩
        | sale kind none =>
          rw [deal] at kind
          cases kind
        | loan kind none =>
          -- the investor who pays the loan out is not the fundraiser
          exfalso
          cases executed with
          | registerTransfer covers order' pays' sourcePresent targetPresent owner =>
            cases pays' with
            | loan => exact apart.differ around.kept orderId deal order (owner.trans party)
            | repayment kind some => exact some none
            | sale kind =>
              rw [deal] at kind
              cases kind
  · obtain ⟨order, registrant, source, target⟩ := executed.transfer_terms around found present
    rw [order] at deal
    rw [order, registrant, source, target]
    obtain ⟨⟨offerId, dealt, made⟩, pays⟩ := outstanding key found present deal
    refine ⟨⟨offerId, dealt.mono within, made⟩, fun there party => ?_⟩
    obtain ⟨before, same⟩ := executed.deal_after around grows apart dealt made there
    have fundraiser := congrArg (fun terms => terms.2.2.2.2.2) same
    have address := congrArg Prod.fst same
    change (dealAt after _).sighash = (dealAt taken.before.context _).sighash at fundraiser
    change (dealAt after _).dstAddress = (dealAt taken.before.context _).dstAddress at address
    rw [fundraiser] at party
    obtain ⟨paid, reached⟩ := pays before party
    refine ⟨paid.trans address.symm, ?_⟩
    rcases reached with reached | sold
    · rcases executed.investor_after around deal before there with
        kept | ⟨repaymentOrderId, transferId, rfl, names⟩
      · exact .inl (reached.trans kept.symm)
      · exact .inr ⟨taken, List.mem_append_right _ List.mem_cons_self,
          ⟨env, signer, repaymentOrderId, transferId, succeeds, names⟩, present⟩
    · exact .inr (sold.mono within)

/-- In a run the transfers of fundraisers pay to the investors, or the loans were sold. -/
theorem ChainRun.outstanding (run : ChainRun sha tip steps chain)
    (guarded : ∀ taken ∈ steps, NamesOffers sha taken ∧ NamesDeals sha taken)
    (separate : Separate sha steps) : Outstanding sha steps chain.context := by
  revert separate
  refine run.history (fun steps chain => Separate sha steps →
    Outstanding sha steps chain.context) (fun _ _ _ present => absurd rfl present) ?_ guarded
  intro earlier taken reached before holds did allowed separate
  have outstanding := holds separate.start
  have within : earlier ⊆ earlier ++ [taken] := List.subset_append_left earlier [taken]
  have longer : Outstanding sha (earlier ++ [taken]) taken.before.context := by
    intro key found present deal
    obtain ⟨⟨offerId, dealt, made⟩, pays⟩ := outstanding key found present deal
    refine ⟨⟨offerId, dealt.mono within, made⟩, fun there party => ?_⟩
    exact (pays there party).imp_right (Or.imp_right fun sold => sold.mono within)
  cases did with
  | executed serves succeeds effect committed tip housekept =>
    have kept := reached.kept fun other listed => (before other listed).1
    exact effect.outstanding succeeds (succeeds.around serves kept allowed.1)
      (separate.grows succeeds serves.live) (reached.apart before separate.start) outstanding
  | rejected same idle => exact same ▸ longer
  | committed committed context housekept idle => exact context ▸ longer

/-- In a run with distinct nonces every deal is closed with a repayment to the investor, when the
loan was not sold since the repayment was registered, the deal orders are made of offers and the
repayment orders are placed for deals. -/
theorem repays_investors (run : ChainRun sha tip steps chain) (separate : Separate sha steps)
    (guarded : ∀ taken ∈ steps, NamesOffers sha taken ∧ NamesDeals sha taken)
    (current : ClosesCurrent sha steps) : RepaysInvestors sha steps := by
  intro taken listed env signer dealOrderId transferId closes
  obtain ⟨earlier, later, split, reached, before, step⟩ := run.split guarded listed
  have separate' : Separate sha earlier := Separate.start (split ▸ separate)
  have outstanding := reached.outstanding before separate'
  have unsold := current earlier taken later split env signer dealOrderId transferId closes
  have kept := (reached.kept fun other shown => (before other shown).1).context
  obtain ⟨serves, executed⟩ := closes.executed step
  have isId : sha.IsId signer := sighash_isId serves.live closes.signed
  generalize taken.after.context = after at executed
  cases executed with
  | closeDealOrder covers present unclosed owner locked transferPresent order registrant =>
    obtain ⟨transfer, _⟩ := kept.consumed isId transferPresent order present registrant
    have deal := kept.deal_of_owner present (owner ▸ isId.ne_nil)
    obtain ⟨_, pays⟩ := outstanding transferId transfer transferPresent (order ▸ deal)
    rw [order] at pays
    obtain ⟨source, reaches | sold⟩ := pays present (registrant.trans owner.symm)
    · exact ⟨reaches, source⟩
    · exact absurd sold unsold

end Returns

/-! ## The repayment of the sample loan -/

/-- The fundraiser locks the sample loan after its sale, pays it back and closes it. -/
def loanRepaid : List Turn :=
  loanSold ++ [request fundraiserKey "17" "LockDealOrder" sampleDeal [],
    transfer fundraiserKey "18" "100" sampleDeal "3",
    request fundraiserKey "19" "CloseDealOrder" sampleDeal (sampleTransfer "3")]

/-- Whether a command sells a loan before a transfer, or closes a deal with the transfer. -/
def Command.current (transferId : Text) (state : State) : Command → Bool
  | .closeRepaymentOrder .. => (state.get transferId).isEmpty
  | .closeDealOrder _ other => other = transferId
  | _ => true

/-- The fundraiser registers the repayment of the sample loan before the loan is sold. -/
def repaidEarly : List Turn :=
  loanPaid ++ [transfer fundraiserKey "13" "100" sampleDeal "2", purchase "14" "500",
    request investorKey "15" "CompleteRepaymentOrder" (sampleRepayment "14") [],
    transfer collectorKey "16" "0" (sampleRepayment "14") "3",
    request collectorKey "17" "CloseRepaymentOrder" (sampleRepayment "14") (sampleTransfer "3"),
    request fundraiserKey "18" "LockDealOrder" sampleDeal []]

/-- The fundraiser closes the sample loan. -/
def closesEarly : Turn :=
  request fundraiserKey "19" "CloseDealOrder" sampleDeal (sampleTransfer "2")

/-- The chain before the fundraiser closes the sample loan. -/
def repaidEarlyChain : Chain := (Chain.empty 2).plays sample sampleNode repaidEarly

/-- The runs of both repayments. The first closes the deal with the third transfer, which is
registered after the sale, the second with a transfer to another address. -/
theorem repayments_run :
    ((dealAt ((Chain.empty 2).plays sample sampleNode loanRepaid).context
          sampleDeal).repaymentTransfer = sampleTransfer "3" ∧
        (Chain.empty 2).checks sample sampleNode (fun chain _ _ command =>
          command.ordinary sample chain && (command.namesDeal sample &&
            command.current (sampleTransfer "3") chain.context)) loanRepaid = true ∧
        Turn.differ sample loanRepaid = true) ∧
      repaidEarlyChain.accepts sample sampleNode closesEarly =
        some (sample.id fundraiserKey, .closeDealOrder sampleDeal (sampleTransfer "2")) ∧
      (transferAt repaidEarlyChain.context (sampleTransfer "2")).dstAddress ≠
        (dealAt repaidEarlyChain.context sampleDeal).srcAddress ∧
      Turn.differ sample (repaidEarly ++ [closesEarly]) = true := by
  decide +kernel

/-- The sample loan is paid back to the collector who bought it. -/
theorem repays_investors_sample :
    let reached := ((Chain.empty 2).plays sample sampleNode loanRepaid).context
    (dealAt reached sampleDeal).repaymentTransfer = sampleTransfer "3" ∧
      RepaysInvestors sample ((Chain.empty 2).steps sample sampleNode loanRepaid) := by
  obtain ⟨⟨closed, checked, differ⟩, _⟩ := repayments_run
  have separate : Separate sample ((Chain.empty 2).steps sample sampleNode loanRepaid) :=
    Chain.steps_separate differ
  refine ⟨closed, repays_investors Chain.steps_run separate
    (fun taken listed => (Chain.checks_deals checked taken listed).1) ?_⟩
  rintro earlier taken later split env signer dealOrderId transferId closes
    ⟨sale, listed, ⟨env', signer', repaymentOrderId, paid, sells, _⟩, registered⟩
  have passes (other : ChainStep) (shown : other ∈ earlier ++ taken :: later) :=
    (Chain.checks_deals checked other (split ▸ shown)).2
  have named := passes taken (List.mem_append_right _ List.mem_cons_self) _ _ _ closes
  have missing := passes sale (List.mem_append_left _ listed) _ _ _ sells
  obtain rfl := of_decide_eq_true named
  exact registered (List.isEmpty_iff.mp missing)

/-- A repayment can reach an investor who sold the loan. -/
theorem repaid_past_investor :
    ¬ ∀ (sha : Sha512) (tip : UInt64) (steps : List ChainStep) (chain : Chain),
      ChainRun sha tip steps chain → Separate sha steps → RepaysInvestors sha steps := by
  intro claim
  obtain ⟨_, closes, astray, differ⟩ := repayments_run
  have separate : Separate sample
      ((Chain.empty 2).steps sample sampleNode (repaidEarly ++ [closesEarly])) :=
    Chain.steps_separate differ
  have listed : ⟨repaidEarlyChain, repaidEarlyChain.event sampleNode closesEarly,
      repaidEarlyChain.play sample sampleNode closesEarly⟩ ∈
      (Chain.empty 2).steps sample sampleNode (repaidEarly ++ [closesEarly]) := Chain.turn_mem
  exact astray (claim sample 2 _ _ Chain.steps_run separate _ listed _ _ _ _
    (Chain.accepts_succeeds closes)).1

end Creditcoin
