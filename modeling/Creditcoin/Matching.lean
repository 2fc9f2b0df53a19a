import Creditcoin.Returns

/-!
# Payments and their orders

A loan and a sale are settled with a transfer that was registered before. The settling command
compares the order, the amount and the signer of the transfer; that the addresses agree too was seen
to by `RegisterTransfer`, and holds on because a pending deal is never sold and a repayment order
never changes its addresses.
-/

namespace Creditcoin

open Lib

/-- Two texts stand for one amount. -/
def SameAmount (text other : Text) : Prop := ∃ amount, IsAmount text amount ∧ IsAmount other amount

/-- A transfer of the investor who signs pays a loan out. -/
structure PaysLoan (state : State) (signer dealOrderId transferId : Text) : Prop where
  /-- It comes from the address of the investor. -/
  source : (transferAt state transferId).srcAddress = (dealAt state dealOrderId).srcAddress
  /-- It goes to the address of the fundraiser. -/
  target : (transferAt state transferId).dstAddress = (dealAt state dealOrderId).dstAddress
  /-- It is for the deal. -/
  order : (transferAt state transferId).order = dealOrderId
  /-- It has the amount of the deal. -/
  amount : SameAmount (transferAt state transferId).amount (dealAt state dealOrderId).amount
  /-- The signer registered it. -/
  registrant : (transferAt state transferId).sighash = signer
  /-- The signer is the investor. -/
  investor : ownerOf state (dealAt state dealOrderId).srcAddress = signer

/-- A transfer of the collector who signs pays for a loan, which the collector then owns. -/
structure PaysSale (state after : State) (signer repaymentOrderId transferId : Text) : Prop where
  /-- It comes from the address of the collector. -/
  source : (transferAt state transferId).srcAddress =
    (repaymentAt state repaymentOrderId).srcAddress
  /-- It goes to the address of the investor. -/
  target : (transferAt state transferId).dstAddress =
    (repaymentAt state repaymentOrderId).dstAddress
  /-- It is for the repayment order. -/
  order : (transferAt state transferId).order = repaymentOrderId
  /-- It has the amount of the repayment order. -/
  amount : SameAmount (transferAt state transferId).amount
    (repaymentAt state repaymentOrderId).amount
  /-- The signer registered it. -/
  registrant : (transferAt state transferId).sighash = signer
  /-- The signer placed the repayment order. -/
  collector : (repaymentAt state repaymentOrderId).sighash = signer
  /-- The new address of the deal is the signer's. -/
  owner : ownerOf after
    (dealAt after (repaymentAt state repaymentOrderId).deal).srcAddress = signer

/-- Every loan and every sale of a run is settled with a payment that matches its order. -/
def PaymentsMatch (sha : Sha512) (steps : List ChainStep) : Prop :=
  ∀ taken ∈ steps, ∀ env signer,
    (∀ dealOrderId transferId,
      Succeeds sha taken env signer (.completeDealOrder dealOrderId transferId) →
      PaysLoan taken.before.context signer dealOrderId transferId) ∧
    ∀ repaymentOrderId transferId,
      Succeeds sha taken env signer (.closeRepaymentOrder repaymentOrderId transferId) →
      PaysSale taken.before.context taken.after.context signer repaymentOrderId transferId

/-- A signer registers a transfer. -/
def Registers (sha : Sha512) (signer : Text) (state : State) (command : Command)
    (transfer : Transfer) : Prop :=
  ∃ gain orderId blockchainTxId principal,
    command = .registerTransfer gain orderId blockchainTxId ∧
    transfer.order = orderId ∧ state.get orderId ≠ [] ∧
    Pays sha state orderId gain transfer.srcAddress transfer.dstAddress principal ∧
    state.get transfer.srcAddress ≠ [] ∧ ownerOf state transfer.srcAddress = signer ∧
    transfer.sighash = signer

/-- The links between transfers and their orders. -/
structure Matched (sha : Sha512) (steps : List ChainStep) (state : State) : Prop where
  /-- The fundraiser owns the target of a deal. -/
  target : ∀ key, sha.kindOf key = some .dealOrder → state.get key ≠ [] →
    Owned sha steps state (dealAt state key).dstAddress (dealAt state key).sighash
  /-- The deal of a repayment order was paid out. -/
  completed : ∀ key, sha.kindOf key = some .repaymentOrder → state.get key ≠ [] →
    state.get (repaymentAt state key).deal ≠ [] →
    (dealAt state (repaymentAt state key).deal).loanTransfer ≠ []
  /-- Whoever is not the fundraiser pays a pending deal out. -/
  loan : ∀ key, sha.kindOf key = some .transfer → state.get key ≠ [] →
    sha.kindOf (transferAt state key).order = some .dealOrder →
    (∃ offerId, Dealt sha steps offerId ∧
      (transferAt state key).order = sha.makeAddress .dealOrder offerId) ∧
    (state.get (transferAt state key).order ≠ [] →
      (dealAt state (transferAt state key).order).loanTransfer = [] →
      (transferAt state key).sighash ≠ (dealAt state (transferAt state key).order).sighash →
      (transferAt state key).srcAddress = (dealAt state (transferAt state key).order).srcAddress ∧
        (transferAt state key).dstAddress =
          (dealAt state (transferAt state key).order).dstAddress)
  /-- The owner of the source of a repayment order pays for the sale. -/
  sale : ∀ key, sha.kindOf key = some .transfer → state.get key ≠ [] →
    sha.kindOf (transferAt state key).order = some .repaymentOrder →
    state.get (transferAt state key).order ≠ [] →
    (transferAt state key).srcAddress =
        (repaymentAt state (transferAt state key).order).srcAddress ∧
      (transferAt state key).dstAddress =
        (repaymentAt state (transferAt state key).order).dstAddress ∧
      ownerOf state (transferAt state key).srcAddress = (transferAt state key).sighash

section Matching

variable {sha : Sha512} {env : Env} {signer : Text} {state after : State} {command : Command}
  {key : Text} {tip : UInt64} {steps later : List ChainStep} {chain : Chain}

/-- A deal that is pending was pending before. -/
theorem Executed.pending_before (around : Surroundings sha env signer state command)
    (executed : Executed sha env signer state command after)
    (found : sha.kindOf key = some .dealOrder) (present : state.get key ≠ [])
    (remains : after.get key ≠ []) (pending : (dealAt after key).loanTransfer = []) :
    (dealAt state key).loanTransfer = [] := by
  rcases executed.deal_cases around found with
    same | ⟨fresh, _⟩ | ⟨_, _, step⟩ | ⟨gone, _⟩
  · rw [dealAt, same] at pending
    exact pending
  · exact absurd fresh present
  · obtain ⟨_, _, ⟨loan, _⟩ | ⟨pending, _⟩⟩ := step.term
    · exact loan ▸ pending
    · exact pending
  · exact absurd gone remains

/-- The fundraiser still owns the target of a deal. -/
theorem Executed.matched_target (around : Surroundings sha env signer state command)
    (executed : Executed sha env signer state command after)
    (grows : Grows sha steps later env command) (apart : Apart sha steps state)
    (matched : Matched sha steps state) (found : sha.kindOf key = some .dealOrder)
    (remains : after.get key ≠ []) :
    Owned sha later after (dealAt after key).dstAddress (dealAt after key).sighash := by
  have kept := around.kept
  have owns {addressId owner : Text} (filled : owner ≠ [])
      (owned : Owned sha steps state addressId owner) : Owned sha later after addressId owner :=
    executed.owned around grows apart filled owned
  have carried (present : state.get key ≠ [])
      (same : (dealAt after key).terms = (dealAt state key).terms) :
      Owned sha later after (dealAt after key).dstAddress (dealAt after key).sighash := by
    have target := congrArg Prod.fst same
    have party := congrArg (fun terms => terms.2.2.2.2.2) same
    change (dealAt after key).dstAddress = (dealAt state key).dstAddress at target
    change (dealAt after key).sighash = (dealAt state key).sighash at party
    rw [target, party]
    exact owns (kept.fundraiser found present).ne_nil (matched.target key found present)
  rcases executed.deal_cases around found with
    same | ⟨_, _, offerId, expiration, rfl, _, made⟩ | ⟨present, _, step⟩ | ⟨gone, _⟩
  · apply carried (same ▸ remains)
    rw [dealAt, same, dealAt]
  · rw [made]
    cases executed with
    | addDealOrder fresh present unexpired bidPresent bidOwner askPresent feeRead covers =>
      have content : OfferContent sha (offerAt state offerId) := kept.content present around.named
      have owned := (apart.order _ content.bid bidPresent).2
      rw [bidOwner] at owned
      exact owns around.isId.ne_nil owned
  · exact carried present step.terms
  · exact absurd gone remains

/-- The deals of repayment orders stay paid out. -/
theorem Executed.matched_completed (around : Surroundings sha env signer state command)
    (executed : Executed sha env signer state command after)
    (grows : Grows sha steps later env command) (apart : Apart sha steps state)
    (matched : Matched sha steps state)
    (deals : ∀ dealOrderId addressId amount expiration,
      command = .addRepaymentOrder dealOrderId addressId amount expiration →
      sha.kindOf dealOrderId = some .dealOrder)
    (found : sha.kindOf key = some .repaymentOrder) (remains : after.get key ≠ [])
    (there : after.get (repaymentAt after key).deal ≠ []) :
    (dealAt after (repaymentAt after key).deal).loanTransfer ≠ [] := by
  rcases executed.repayment_after around apart.deals found remains with
    ⟨present, same⟩ | ⟨dealOrderId, addressId, amount, expiration, rfl, _, _, completed, same⟩
  · have names := congrArg (fun terms => terms.2.2.2.1) same
    change (repaymentAt after key).deal = (repaymentAt state key).deal at names
    rw [names] at there ⊢
    obtain ⟨_, ⟨offerId, dealt, made⟩, _⟩ := apart.repayment key found present
    have before := (executed.deal_after around grows apart dealt made there).1
    intro pending
    exact matched.completed key found present before
      (executed.pending_before around (apart.deals key found present) before there pending)
  · have names := congrArg (fun terms => terms.2.2.2.1) same
    change (repaymentAt after key).deal = dealOrderId at names
    have deal := deals dealOrderId addressId amount expiration rfl
    have frame : after.get dealOrderId = state.get dealOrderId :=
      executed.frame around (by rw [deal]; simp [Command.kinds])
    rw [names, dealAt, frame]
    exact completed

/-- A new transfer is one that `RegisterTransfer` makes. -/
theorem Executed.transfer_new (around : Surroundings sha env signer state command)
    (executed : Executed sha env signer state command after)
    (found : sha.kindOf key = some .transfer) (missing : state.get key = [])
    (remains : after.get key ≠ []) : Registers sha signer state command (transferAt after key) := by
  let registers (data : Text) : Prop :=
    Registers sha signer state command (Transfer.parseFromString data)
  have either : after.get key = state.get key ∨ registers (after.get key) := by
    rcases executed.transfer around found with same | change
    · exact .inl same
    obtain ⟨gain, orderId, blockchainTxId, rfl⟩ : ∃ gain orderId blockchainTxId,
        command = .registerTransfer gain orderId blockchainTxId := by
      generalize after.get key = data at change
      cases change with
      | consumed there => exact absurd missing there
      | registered => exact ⟨_, _, _, rfl⟩
    cases executed with
    | registerTransfer covers order pays sourcePresent targetPresent owner blockchain network
        fresh paid =>
      rename_i balance source target principal amount
      apply get_setAll_one [] found (by simp) (by simp)
      intro _
      dsimp only [registers]
      rw [Transfer.parse_serialize]
      exact ⟨gain, orderId, blockchainTxId, principal, rfl, rfl, order, pays, sourcePresent, owner,
        rfl⟩
  exact either.resolve_left fun same => remains (same.trans missing)

/-- A sale names a repayment order. -/
theorem Executed.sells {repaymentOrderId transferId : Text}
    (executed : Executed sha env signer state
      (.closeRepaymentOrder repaymentOrderId transferId) after)
    (around : Surroundings sha env signer state
      (.closeRepaymentOrder repaymentOrderId transferId)) :
    sha.kindOf repaymentOrderId = some .repaymentOrder ∧ state.get repaymentOrderId ≠ [] := by
  cases executed with
  | closeRepaymentOrder covers present owner transferPresent order amount registrant =>
    have isId := around.isId
    obtain ⟨_, payable⟩ := around.kept.consumed isId transferPresent order present registrant
    exact ⟨around.kept.repayment_of_collector present payable (owner ▸ isId), present⟩

/-- Whoever is not the fundraiser still pays a pending deal out. -/
theorem Executed.matched_loan (around : Surroundings sha env signer state command)
    (executed : Executed sha env signer state command after)
    (grows : Grows sha steps later env command) (apart : Apart sha steps state)
    (matched : Matched sha steps state) (found : sha.kindOf key = some .transfer)
    (remains : after.get key ≠ [])
    (deal : sha.kindOf (transferAt after key).order = some .dealOrder) :
    (∃ offerId, Dealt sha later offerId ∧
      (transferAt after key).order = sha.makeAddress .dealOrder offerId) ∧
    (after.get (transferAt after key).order ≠ [] →
      (dealAt after (transferAt after key).order).loanTransfer = [] →
      (transferAt after key).sighash ≠ (dealAt after (transferAt after key).order).sighash →
      (transferAt after key).srcAddress = (dealAt after (transferAt after key).order).srcAddress ∧
        (transferAt after key).dstAddress =
          (dealAt after (transferAt after key).order).dstAddress) := by
  by_cases present : state.get key = []
  · have made := executed.transfer_new around found present remains
    generalize transferAt after key = transfer at deal made ⊢
    obtain ⟨gain, orderId, blockchainTxId, principal, rfl, named, order, pays, source, owner,
      registrant⟩ := made
    rw [named] at deal ⊢
    obtain ⟨⟨offerId, dealt, made⟩, _⟩ := apart.deal orderId deal order
    refine ⟨⟨offerId, dealt.mono grows.within, made⟩, fun _ _ party => ?_⟩
    have frame : after.get orderId = state.get orderId :=
      executed.frame around (by rw [deal]; simp [Command.kinds])
    rw [registrant, dealAt, frame] at party
    rw [dealAt, frame]
    obtain ⟨_, payer, payee, _, _, _, _, _⟩ := transfer
    dsimp only at pays source owner ⊢
    cases pays with
    | loan kind none => exact ⟨rfl, rfl⟩
    | sale kind none =>
      rw [deal] at kind
      cases kind
    | repayment kind some =>
      -- the fundraiser, who owns the target, registered the transfer
      exfalso
      rcases matched.target orderId deal order with owns | ⟨gone, _⟩
      · exact party (owner.symm.trans owns)
      · exact source gone
  · obtain ⟨order, registrant, source, target⟩ := executed.transfer_terms around found present
    rw [order] at deal
    rw [order, registrant, source, target]
    obtain ⟨⟨offerId, dealt, made⟩, pays⟩ := matched.loan key found present deal
    refine ⟨⟨offerId, dealt.mono grows.within, made⟩, fun there pending party => ?_⟩
    obtain ⟨before, same⟩ := executed.deal_after around grows apart dealt made there
    have fundraiser := congrArg (fun terms => terms.2.2.2.2.2) same
    have address := congrArg Prod.fst same
    change (dealAt after _).sighash = (dealAt state _).sighash at fundraiser
    change (dealAt after _).dstAddress = (dealAt state _).dstAddress at address
    have open' := executed.pending_before around deal before there pending
    rw [fundraiser] at party
    obtain ⟨paid, reached⟩ := pays before open' party
    refine ⟨?_, reached.trans address.symm⟩
    rcases executed.investor_after around deal before there with
      kept | ⟨repaymentOrderId, transferId, rfl, names⟩
    · exact paid.trans kept.symm
    · exfalso
      obtain ⟨repayment, there'⟩ := executed.sells around
      exact matched.completed repaymentOrderId repayment there' (names ▸ before) (names ▸ open')

/-- The owner of the source of a repayment order still pays for the sale. -/
theorem Executed.matched_sale (around : Surroundings sha env signer state command)
    (executed : Executed sha env signer state command after)
    (grows : Grows sha steps later env command) (apart : Apart sha steps state)
    (addresses : AddressesKept sha state) (matched : Matched sha steps state)
    (found : sha.kindOf key = some .transfer) (remains : after.get key ≠ [])
    (repayment : sha.kindOf (transferAt after key).order = some .repaymentOrder)
    (there : after.get (transferAt after key).order ≠ []) :
    (transferAt after key).srcAddress =
        (repaymentAt after (transferAt after key).order).srcAddress ∧
      (transferAt after key).dstAddress =
        (repaymentAt after (transferAt after key).order).dstAddress ∧
      ownerOf after (transferAt after key).srcAddress = (transferAt after key).sighash := by
  by_cases present : state.get key = []
  · have made := executed.transfer_new around found present remains
    generalize transferAt after key = transfer at repayment there made ⊢
    obtain ⟨gain, orderId, blockchainTxId, principal, rfl, named, order, pays, source, owner,
      registrant⟩ := made
    rw [named] at repayment ⊢
    have frame : after.get orderId = state.get orderId :=
      executed.frame around (by rw [repayment]; simp [Command.kinds])
    rw [registrant, repaymentAt, frame]
    obtain ⟨_, payer, payee, _, _, _, _, _⟩ := transfer
    dsimp only at pays source owner ⊢
    cases pays with
    | loan kind none =>
      rw [repayment] at kind
      cases kind
    | repayment kind some =>
      rw [repayment] at kind
      cases kind
    | sale kind none =>
      refine ⟨rfl, rfl, ?_⟩
      have address := addresses.repayment orderId repayment order
      exact (executed.owner_stays around address (owner ▸ around.isId.ne_nil)).trans owner
  · obtain ⟨order, registrant, source, target⟩ := executed.transfer_terms around found present
    rw [order] at repayment there
    rw [order, registrant, source, target]
    have placed := (apart.transfer key found present repayment).1
    obtain ⟨before, same⟩ := executed.repayment_same around grows apart repayment placed there
    have payer := congrArg Prod.fst same
    have payee := congrArg (fun terms => terms.2.1) same
    change (repaymentAt after _).srcAddress = (repaymentAt state _).srcAddress at payer
    change (repaymentAt after _).dstAddress = (repaymentAt state _).dstAddress at payee
    obtain ⟨paid, reached, owns⟩ := matched.sale key found present repayment before
    refine ⟨paid.trans payer.symm, reached.trans payee.symm, ?_⟩
    have address := addresses.repayment _ repayment before
    have content : TransferContent sha (transferAt state key) :=
      around.kept.content present found
    rw [← paid] at address
    exact (executed.owner_stays around address (owns ▸ content.owner.ne_nil)).trans owns

/-- A command keeps the links between transfers and their orders. -/
theorem Executed.matched (around : Surroundings sha env signer state command)
    (executed : Executed sha env signer state command after)
    (grows : Grows sha steps later env command) (apart : Apart sha steps state)
    (addresses : AddressesKept sha state)
    (deals : ∀ dealOrderId addressId amount expiration,
      command = .addRepaymentOrder dealOrderId addressId amount expiration →
      sha.kindOf dealOrderId = some .dealOrder)
    (matched : Matched sha steps state) : Matched sha later after where
  target _ found remains := executed.matched_target around grows apart matched found remains
  completed _ found remains there :=
    executed.matched_completed around grows apart matched deals found remains there
  loan _ found remains deal := executed.matched_loan around grows apart matched found remains deal
  sale _ found remains repayment there :=
    executed.matched_sale around grows apart addresses matched found remains repayment there

/-- The links hold in a longer history. -/
theorem Matched.mono (matched : Matched sha steps state) (within : steps ⊆ later) :
    Matched sha later state where
  target key found present := (matched.target key found present).mono within
  completed := matched.completed
  loan key found present deal := by
    obtain ⟨⟨offerId, dealt, made⟩, pays⟩ := matched.loan key found present deal
    exact ⟨⟨offerId, dealt.mono within, made⟩, pays⟩
  sale := matched.sale

/-- What the steps of a run name. -/
structure NamesParties (sha : Sha512) (taken : ChainStep) : Prop where
  /-- Deal orders are made of offers. -/
  offers : NamesOffers sha taken
  /-- Repayment orders are placed for deal orders. -/
  deals : NamesDeals sha taken
  /-- Orders and repayment orders are placed for addresses. -/
  addresses : NamesAddresses sha taken

/-- In a run the transfers stay linked to their orders. -/
theorem ChainRun.matched (run : ChainRun sha tip steps chain)
    (guarded : ∀ taken ∈ steps, NamesParties sha taken) (separate : Separate sha steps) :
    AddressesKept sha chain.context ∧ Matched sha steps chain.context := by
  revert separate
  refine run.history (fun steps chain => Separate sha steps →
    AddressesKept sha chain.context ∧ Matched sha steps chain.context) (fun _ => ?_) ?_ guarded
  · refine ⟨⟨?_, ?_, ?_⟩, ⟨?_, ?_, ?_, ?_⟩⟩
    all_goals exact fun _ _ present => absurd rfl present
  intro earlier taken reached before holds did allowed separate
  obtain ⟨addresses, matched⟩ := holds separate.start
  have within : earlier ⊆ earlier ++ [taken] := List.subset_append_left earlier [taken]
  cases did with
  | executed serves succeeds effect committed tip housekept =>
    have kept := reached.kept fun other listed => (before other listed).offers
    have around := succeeds.around serves kept allowed.offers
    have apart := reached.apart (fun other listed => ⟨(before other listed).offers,
      (before other listed).deals⟩) separate.start
    refine ⟨effect.addressesKept around (fun addressId => allowed.addresses _ _ _ _ succeeds)
      addresses, effect.matched around (separate.grows succeeds serves.live) apart addresses ?_
      matched⟩
    rintro dealOrderId addressId amount expiration rfl
    exact allowed.deals _ _ _ _ _ _ succeeds
  | rejected same idle => exact same ▸ ⟨addresses, matched.mono within⟩
  | committed committed context housekept idle =>
    exact context ▸ ⟨addresses, matched.mono within⟩

/-- A loan is completed with a payment that matches the deal. -/
theorem Executed.pays_loan {dealOrderId transferId : Text}
    (executed : Executed sha env signer state (.completeDealOrder dealOrderId transferId) after)
    (kept : Kept sha state) (isId : sha.IsId signer) (apart : Apart sha steps state)
    (matched : Matched sha steps state) : PaysLoan state signer dealOrderId transferId := by
  cases executed with
  | completeDealOrder present pending sourcePresent owner unexpired transferPresent order amount
      registrant unprocessed feeRead covers =>
    obtain ⟨transfer, payable⟩ := kept.consumed isId transferPresent order present registrant
    have deal := kept.deal_of_pending present payable pending
    have content : DealContent sha (dealAt state dealOrderId) := kept.content present deal
    obtain ⟨value, read⟩ := content.amount
    obtain ⟨_, pays⟩ := matched.loan transferId transfer transferPresent (order ▸ deal)
    rw [order] at pays
    -- the registrant is the investor, so the transfer goes the way of the loan
    have party : (transferAt state transferId).sighash ≠ (dealAt state dealOrderId).sighash :=
      fun same => apart.differ kept dealOrderId deal present
        (owner.trans (registrant.symm.trans same))
    obtain ⟨source, target⟩ := pays present pending party
    exact ⟨source, target, order, ⟨value, amount ▸ read, read⟩, registrant, owner⟩

/-- A sold deal has the source of the repayment order. -/
theorem Executed.sold_to {repaymentOrderId transferId : Text}
    (executed : Executed sha env signer state (.closeRepaymentOrder repaymentOrderId transferId)
      after) (kept : Kept sha state) (isId : sha.IsId signer)
    (deal : sha.kindOf (repaymentAt state repaymentOrderId).deal = some .dealOrder) :
    (dealAt after (repaymentAt state repaymentOrderId).deal).srcAddress =
      (repaymentAt state repaymentOrderId).srcAddress := by
  cases executed with
  | closeRepaymentOrder covers present owner transferPresent order amount registrant =>
    obtain ⟨transfer, payable⟩ := kept.consumed isId transferPresent order present registrant
    have repayment := kept.repayment_of_collector present payable (owner ▸ isId)
    refine (congrArg (fun data => (DealOrder.parseFromString data).srcAddress)
      (get_setAll_at [_] deal (by simp [repayment]) (by simp [transfer]))).trans ?_
    rw [if_pos rfl, DealOrder.parse_serialize]

/-- A loan is sold for a payment that matches the repayment order. -/
theorem Executed.pays_sale {repaymentOrderId transferId : Text}
    (executed : Executed sha env signer state (.closeRepaymentOrder repaymentOrderId transferId)
      after)
    (around : Surroundings sha env signer state (.closeRepaymentOrder repaymentOrderId transferId))
    (apart : Apart sha steps state) (addresses : AddressesKept sha state)
    (matched : Matched sha steps state) :
    PaysSale state after signer repaymentOrderId transferId := by
  have kept := around.kept
  have isId := around.isId
  have ⟨repayment, present⟩ := executed.sells around
  have deal := apart.deals repaymentOrderId repayment present
  have sold := executed.sold_to kept isId deal
  have stays {addressId : Text} (found : sha.kindOf addressId = some .addr)
      (owns : ownerOf state addressId = signer) : ownerOf after addressId = signer :=
    (executed.owner_stays around found (owns ▸ isId.ne_nil)).trans owns
  cases executed with
  | closeRepaymentOrder covers _ owner transferPresent order amount registrant =>
    obtain ⟨transfer, _⟩ := kept.consumed isId transferPresent order present registrant
    have content : RepaymentContent sha repaymentOrderId (repaymentAt state repaymentOrderId) :=
      kept.content present repayment
    obtain ⟨value, read⟩ := content.amount
    have pays := matched.sale transferId transfer transferPresent (order ▸ repayment)
    rw [order] at pays
    obtain ⟨source, target, owns⟩ := pays present
    rw [registrant, source] at owns
    refine ⟨source, target, order, ⟨value, amount ▸ read, read⟩, registrant, owner, ?_⟩
    rw [sold]
    exact stays (addresses.repayment repaymentOrderId repayment present) owns

/-- In a run with distinct nonces every loan and every sale is settled with a payment that matches
its order, when the parameters name deal orders, offers and addresses. -/
theorem payments_match (run : ChainRun sha tip steps chain) (separate : Separate sha steps)
    (guarded : ∀ taken ∈ steps, NamesParties sha taken) : PaymentsMatch sha steps := by
  intro taken listed env signer
  obtain ⟨earlier, later, split, reached, before, step⟩ := run.split guarded listed
  have separate' : Separate sha earlier := Separate.start (split ▸ separate)
  obtain ⟨addresses, matched⟩ := reached.matched before separate'
  have apart := reached.apart (fun other shown => ⟨(before other shown).offers,
    (before other shown).deals⟩) separate'
  have kept := reached.kept fun other shown => (before other shown).offers
  constructor
  · intro dealOrderId transferId succeeds
    obtain ⟨serves, executed⟩ := succeeds.executed step
    exact executed.pays_loan kept.context (sighash_isId serves.live succeeds.signed) apart matched
  · intro repaymentOrderId transferId succeeds
    obtain ⟨serves, executed⟩ := succeeds.executed step
    exact executed.pays_sale (succeeds.around serves kept (guarded taken listed).offers) apart
      addresses matched

end Matching

/-! ## Payments of the sample loan -/

/-- A script that passes the checks names records of the kinds that its commands take. -/
theorem Chain.checks_parties {sha : Sha512} {node : Env} {chain : Chain} {script : List Turn}
    (checked : chain.checks sha node (fun chain _ _ command => command.ordinary sha chain &&
      (command.namesDeal sha && command.namesAddress sha)) script = true) :
    ∀ taken ∈ chain.steps sha node script, NamesParties sha taken := by
  intro taken listed
  obtain ⟨⟨offers, deals⟩, passes⟩ := Chain.checks_deals checked taken listed
  refine ⟨offers, deals, fun env signer command addressId succeeds places => ?_⟩
  have named := passes env signer command succeeds
  simpa only [Command.namesAddress, places, decide_eq_true_eq] using named

/-- The sample loan is paid out and sold with payments that match. -/
theorem payments_match_sample :
    let reached := ((Chain.empty 2).plays sample sampleNode loanSold).context
    (dealAt reached sampleDeal).srcAddress = sampleAddress "0x3" ∧
      PaymentsMatch sample ((Chain.empty 2).steps sample sampleNode loanSold) := by
  obtain ⟨-, ⟨-, sold⟩, -⟩ := loanSold_run
  exact ⟨sold, payments_match Chain.steps_run loanSold_separate
    (Chain.checks_parties loanSold_checks)⟩

/-- A loan can be sold for a payment that does not match its order. -/
theorem sold_for_other_payment :
    ¬ ∀ (sha : Sha512) (tip : UInt64) (steps : List ChainStep) (chain : Chain),
      ChainRun sha tip steps chain → Separate sha steps → PaymentsMatch sha steps := by
  intro claim
  obtain ⟨-, ⟨closes, astray⟩, -, differ⟩ := sales_run
  have separate : Separate sample ((Chain.empty 2).steps sample sampleNode loanReturned) :=
    Chain.steps_separate differ
  have listed : ⟨beforeReturn, beforeReturn.event sampleNode takesOver,
      beforeReturn.play sample sampleNode takesOver⟩ ∈
      (Chain.empty 2).steps sample sampleNode loanReturned := by
    have last : loanReturned.drop 19 = [takesOver] := rfl
    exact Chain.step_mem last
  have settled := (claim sample 2 _ _ Chain.steps_run separate _ listed _ _).2 _ _
    (Chain.accepts_succeeds closes)
  exact astray settled.source

end Creditcoin
