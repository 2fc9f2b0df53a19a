import Creditcoin.Matching
import Creditcoin.Registrations
import Creditcoin.Ticks
import Mathlib.Tactic.MkIffOfInductiveProp

/-!
# The network of a loan

All addresses of a loan are on one network of one blockchain. `AddOffer` compares the addresses of
two orders, `RegisterTransfer` the ends of a payment, and address records never change, so that the
network of a deal is still the same after it was sold.
-/

namespace Creditcoin

open Lib

/-- Two registered addresses are on one network of one blockchain. -/
@[mk_iff] structure SameNetwork (sha : Sha512) (state : State) (left right : Text) : Prop where
  /-- The left one is an address. -/
  leftKind : sha.kindOf left = some .addr
  /-- The left one is registered. -/
  leftPresent : state.get left ≠ []
  /-- The right one is an address. -/
  rightKind : sha.kindOf right = some .addr
  /-- The right one is registered. -/
  rightPresent : state.get right ≠ []
  /-- The blockchain is the same. -/
  blockchain : (addressAt state right).blockchain = (addressAt state left).blockchain
  /-- The network is the same. -/
  network : (addressAt state right).network = (addressAt state left).network

/-- The addresses of a loan are on one network. -/
structure Networked (sha : Sha512) (state : State) : Prop where
  /-- The addresses of two orders that are offered. -/
  offer : ∀ key, sha.kindOf key = some .offer → state.get key ≠ [] →
    state.get (offerAt state key).askOrder ≠ [] → state.get (offerAt state key).bidOrder ≠ [] →
    SameNetwork sha state (orderAt state (offerAt state key).askOrder).address
      (orderAt state (offerAt state key).bidOrder).address
  /-- The addresses of a deal. -/
  deal : ∀ key, sha.kindOf key = some .dealOrder → state.get key ≠ [] →
    SameNetwork sha state (dealAt state key).srcAddress (dealAt state key).dstAddress
  /-- The target of a repayment order is an address. -/
  target : ∀ key, sha.kindOf key = some .repaymentOrder → state.get key ≠ [] →
    sha.kindOf (repaymentAt state key).dstAddress = some .addr
  /-- The target of a repayment order and that of its deal. -/
  repayment : ∀ key, sha.kindOf key = some .repaymentOrder → state.get key ≠ [] →
    state.get (repaymentAt state key).deal ≠ [] →
    SameNetwork sha state (repaymentAt state key).dstAddress
      (dealAt state (repaymentAt state key).deal).dstAddress
  /-- The ends of the payment for a sale. -/
  sale : ∀ key, sha.kindOf key = some .transfer → state.get key ≠ [] →
    sha.kindOf (transferAt state key).order = some .repaymentOrder →
    state.get (transferAt state key).order ≠ [] →
    SameNetwork sha state (transferAt state key).srcAddress (transferAt state key).dstAddress
  /-- A locked deal was paid out. -/
  locked : ∀ key, sha.kindOf key = some .dealOrder → (dealAt state key).lock ≠ [] →
    (dealAt state key).loanTransfer ≠ []

section Networks

variable {sha : Sha512} {env : Env} {signer : Text} {state after : State} {command : Command}
  {key left middle right : Text} {tip : UInt64} {steps later : List ChainStep} {chain : Chain}

/-- What is on one network with the same address is on one network. -/
theorem SameNetwork.trans (first : SameNetwork sha state left middle)
    (second : SameNetwork sha state middle right) : SameNetwork sha state left right where
  leftKind := first.leftKind
  leftPresent := first.leftPresent
  rightKind := second.rightKind
  rightPresent := second.rightPresent
  blockchain := second.blockchain.trans first.blockchain
  network := second.network.trans first.network

/-- Addresses stay on their network. -/
theorem Executed.sameNetwork (around : Surroundings sha env signer state command)
    (executed : Executed sha env signer state command after)
    (same : SameNetwork sha state left right) : SameNetwork sha after left right := by
  have leftSame := executed.address_present around same.leftKind same.leftPresent
  have rightSame := executed.address_present around same.rightKind same.rightPresent
  refine ⟨same.leftKind, leftSame ▸ same.leftPresent, same.rightKind,
    rightSame ▸ same.rightPresent, ?_, ?_⟩
  · rw [addressAt, addressAt, leftSame, rightSame]
    exact same.blockchain
  · rw [addressAt, addressAt, leftSame, rightSame]
    exact same.network

/-- The addresses of two orders that are offered stay on one network. -/
theorem Executed.networked_offer (around : Surroundings sha env signer state command)
    (executed : Executed sha env signer state command after)
    (grows : Grows sha steps later env command) (apart : Apart sha steps state)
    (addresses : AddressesKept sha state) (networked : Networked sha state)
    (found : sha.kindOf key = some .offer) (remains : after.get key ≠ [])
    (askThere : after.get (offerAt after key).askOrder ≠ [])
    (bidThere : after.get (offerAt after key).bidOrder ≠ []) :
    SameNetwork sha after (orderAt after (offerAt after key).askOrder).address
      (orderAt after (offerAt after key).bidOrder).address := by
  have party {orderId : Text} (isOrder : sha.IsOrder orderId) (placed : Placed sha steps orderId)
      (there : after.get orderId ≠ []) :
      state.get orderId ≠ [] ∧ orderAt after orderId = orderAt state orderId := by
    have same := executed.order_same around grows isOrder placed there
    rw [orderAt, same]
    exact ⟨same ▸ there, rfl⟩
  rcases executed.offer_after around found remains with
    same | ⟨askOrderId, bidOrderId, _, rfl, _, ask, bid, askPresent, bidPresent, _⟩
  · obtain ⟨offered, _⟩ := apart.offer key found (same ▸ remains)
    have read : offerAt after key = offerAt state key := by rw [offerAt, same, offerAt]
    rw [read] at askThere bidThere ⊢
    obtain ⟨askPresent, askSame⟩ := party offered.askOrder offered.askPlaced askThere
    obtain ⟨bidPresent, bidSame⟩ := party offered.bidOrder offered.bidPlaced bidThere
    rw [askSame, bidSame]
    exact executed.sameNetwork around
      (networked.offer key found (same ▸ remains) askPresent bidPresent)
  · have shapes := executed.kept around.kept around.live around.isId around.lists around.named
    have content : OfferContent sha (offerAt after key) := shapes.content remains found
    rw [ask] at askThere ⊢
    rw [bid] at bidThere ⊢
    have askOrder : sha.IsOrder askOrderId := ask ▸ content.ask
    have bidOrder : sha.IsOrder bidOrderId := bid ▸ content.bid
    rw [(party askOrder (apart.order askOrderId askOrder askPresent).1 askThere).2,
      (party bidOrder (apart.order bidOrderId bidOrder bidPresent).1 bidThere).2]
    apply executed.sameNetwork around
    cases executed with
    | addOffer covers fresh _ askOwner askUnexpired sourcePresent _ bidOwner bidUnexpired
        targetPresent blockchain network =>
      exact ⟨addresses.order askOrderId askOrder askPresent, sourcePresent,
        addresses.order bidOrderId bidOrder bidPresent, targetPresent, blockchain.symm,
        network.symm⟩

/-- A transfer for a repayment order goes along its addresses, on one network. -/
theorem Networked.sold (networked : Networked sha state) (matched : Matched sha steps state)
    {repaymentOrderId transferId : Text} (transfer : sha.kindOf transferId = some .transfer)
    (transferPresent : state.get transferId ≠ [])
    (order : (transferAt state transferId).order = repaymentOrderId)
    (repayment : sha.kindOf repaymentOrderId = some .repaymentOrder)
    (present : state.get repaymentOrderId ≠ [])
    (dealPresent : state.get (repaymentAt state repaymentOrderId).deal ≠ []) :
    SameNetwork sha state (repaymentAt state repaymentOrderId).srcAddress
      (dealAt state (repaymentAt state repaymentOrderId).deal).dstAddress := by
  have ends := networked.sale transferId transfer transferPresent (order ▸ repayment)
    (order ▸ present)
  obtain ⟨source, target, _⟩ := matched.sale transferId transfer transferPresent
    (order ▸ repayment) (order ▸ present)
  rw [source, target, order] at ends
  exact ends.trans (networked.repayment repaymentOrderId repayment present dealPresent)

/-- The addresses of a deal stay on one network. -/
theorem Executed.networked_deal (around : Surroundings sha env signer state command)
    (executed : Executed sha env signer state command after)
    (networked : Networked sha state) (matched : Matched sha steps state)
    (found : sha.kindOf key = some .dealOrder) (remains : after.get key ≠ []) :
    SameNetwork sha after (dealAt after key).srcAddress (dealAt after key).dstAddress := by
  rcases executed.deal_cases around found with
    same | ⟨_, _, offerId, expiration, rfl, _, read⟩ | ⟨present, _, step⟩ | ⟨gone, _⟩
  · have read : dealAt after key = dealAt state key := by rw [dealAt, same, dealAt]
    rw [read]
    exact executed.sameNetwork around (networked.deal key found (same ▸ remains))
  · rw [read]
    have kind : sha.kindOf offerId = some .offer := around.named
    apply executed.sameNetwork around
    cases executed with
    | addDealOrder fresh present unexpired bidPresent bidOwner askPresent =>
      exact networked.offer offerId kind present askPresent bidPresent
  · have target : (dealAt after key).dstAddress = (dealAt state key).dstAddress :=
      congrArg Prod.fst step.terms
    rw [target]
    apply executed.sameNetwork around
    have carried (same : (dealAt after key).srcAddress = (dealAt state key).srcAddress) :
        SameNetwork sha state (dealAt after key).srcAddress (dealAt state key).dstAddress := by
      rw [same]
      exact networked.deal key found present
    generalize dealAt after key = next at step carried ⊢
    cases step with
    | sold orderPresent orderFound names locked =>
      -- the payment for the sale was registered on the network of the deal
      cases executed with
      | closeRepaymentOrder covers _ owner transferPresent order amount registrant =>
        obtain ⟨transfer, _⟩ :=
          around.kept.consumed around.isId transferPresent order orderPresent registrant
        rw [← names] at present ⊢
        exact networked.sold matched transfer transferPresent order orderFound orderPresent present
    | _ => exact carried rfl
  · exact absurd gone remains

/-- The target of a repayment order stays an address, and on the network of its deal. -/
theorem Executed.networked_repayment (around : Surroundings sha env signer state command)
    (executed : Executed sha env signer state command after)
    (grows : Grows sha steps later env command) (apart : Apart sha steps state)
    (addresses : AddressesKept sha state) (networked : Networked sha state)
    (names : ∀ dealOrderId addressId amount expiration,
      command = .addRepaymentOrder dealOrderId addressId amount expiration →
      sha.kindOf dealOrderId = some .dealOrder)
    (found : sha.kindOf key = some .repaymentOrder) (remains : after.get key ≠ []) :
    sha.kindOf (repaymentAt after key).dstAddress = some .addr ∧
      (after.get (repaymentAt after key).deal ≠ [] →
        SameNetwork sha after (repaymentAt after key).dstAddress
          (dealAt after (repaymentAt after key).deal).dstAddress) := by
  have target {offerId dealOrderId : Text} (dealt : Dealt sha steps offerId)
      (made : dealOrderId = sha.makeAddress .dealOrder offerId)
      (there : after.get dealOrderId ≠ []) : state.get dealOrderId ≠ [] ∧
        (dealAt after dealOrderId).dstAddress = (dealAt state dealOrderId).dstAddress := by
    obtain ⟨present, same⟩ := executed.deal_after around grows apart dealt made there
    exact ⟨present, congrArg Prod.fst same⟩
  rcases executed.repayment_after around apart.deals found remains with
    ⟨present, same⟩ | ⟨dealOrderId, _, _, _, rfl, _, _, completed, same⟩
  · obtain ⟨_, ⟨offerId, dealt, made⟩, _⟩ := apart.repayment key found present
    have address : (repaymentAt after key).dstAddress = (repaymentAt state key).dstAddress :=
      congrArg (fun terms => terms.2.1) same
    have deal : (repaymentAt after key).deal = (repaymentAt state key).deal :=
      congrArg (fun terms => terms.2.2.2.1) same
    rw [address, deal]
    refine ⟨networked.target key found present, fun there => ?_⟩
    obtain ⟨dealPresent, dealTarget⟩ := target dealt made there
    rw [dealTarget]
    exact executed.sameNetwork around (networked.repayment key found present dealPresent)
  · have kind := names _ _ _ _ rfl
    have dealPresent := present_of_loan completed
    obtain ⟨⟨offerId, dealt, made⟩, _⟩ := apart.deal dealOrderId kind dealPresent
    have address : (repaymentAt after key).dstAddress = (dealAt state dealOrderId).srcAddress :=
      congrArg (fun terms => terms.2.1) same
    have deal : (repaymentAt after key).deal = dealOrderId :=
      congrArg (fun terms => terms.2.2.2.1) same
    rw [address, deal]
    refine ⟨addresses.deal dealOrderId kind dealPresent, fun there => ?_⟩
    rw [(target dealt made there).2]
    exact executed.sameNetwork around (networked.deal dealOrderId kind dealPresent)

/-- The ends of the payment for a sale stay on one network. -/
theorem Executed.networked_sale (around : Surroundings sha env signer state command)
    (executed : Executed sha env signer state command after)
    (grows : Grows sha steps later env command) (apart : Apart sha steps state)
    (addresses : AddressesKept sha state) (networked : Networked sha state)
    (found : sha.kindOf key = some .transfer) (remains : after.get key ≠ [])
    (repayment : sha.kindOf (transferAt after key).order = some .repaymentOrder)
    (there : after.get (transferAt after key).order ≠ []) :
    SameNetwork sha after (transferAt after key).srcAddress (transferAt after key).dstAddress := by
  apply executed.sameNetwork around
  by_cases present : state.get key = []
  · have made := executed.transfer_new around found present remains
    generalize transferAt after key = transfer at repayment made ⊢
    obtain ⟨gain, orderId, blockchainTxId, principal, rfl, rfl, order, pays, _, _, _⟩ := made
    cases executed with
    | registerTransfer covers _ pays' sourcePresent targetPresent owner blockchain network =>
      obtain ⟨source, target, _⟩ := pays.unique pays'
      rw [source, target]
      cases pays' with
      | loan kind _ =>
        rw [repayment] at kind
        cases kind
      | repayment kind _ =>
        rw [repayment] at kind
        cases kind
      | sale kind _ =>
        exact ⟨addresses.repayment _ kind order, sourcePresent, networked.target _ kind order,
          targetPresent, blockchain, network⟩
  · obtain ⟨order, _, source, target⟩ := executed.transfer_terms around found present
    rw [order] at repayment there
    rw [source, target]
    have placed := (apart.transfer key found present repayment).1
    have before := (executed.repayment_same around grows apart repayment placed there).1
    exact networked.sale key found present repayment before

/-- A locked deal stays paid out. -/
theorem Executed.networked_locked (around : Surroundings sha env signer state command)
    (executed : Executed sha env signer state command after)
    (networked : Networked sha state) (matched : Matched sha steps state)
    (found : sha.kindOf key = some .dealOrder) (locked : (dealAt after key).lock ≠ []) :
    (dealAt after key).loanTransfer ≠ [] := by
  rcases executed.deal_cases around found with
    same | ⟨_, _, offerId, expiration, rfl, _, read⟩ | ⟨present, _, step⟩ | ⟨gone, _⟩
  · rw [dealAt, same] at locked ⊢
    exact networked.locked key found locked
  · rw [read] at locked
    exact absurd rfl locked
  · generalize dealAt after key = next at step locked ⊢
    have earlier := networked.locked key found
    cases step with
    | completed pending paid unexpired => exact paid
    | locked unlocked active owner => exact active
    | closed => exact earlier locked
    | exempted => exact earlier locked
    | accepted unlocked orderPresent orderFound names owner =>
      have completed := matched.completed _ orderFound orderPresent
      rw [names] at completed
      exact completed present
    | sold => exact absurd rfl locked
  · rw [dealAt, gone] at locked
    exact absurd rfl locked

/-- A command keeps the addresses of loans on one network. -/
theorem Executed.networked (around : Surroundings sha env signer state command)
    (executed : Executed sha env signer state command after)
    (grows : Grows sha steps later env command) (apart : Apart sha steps state)
    (addresses : AddressesKept sha state) (matched : Matched sha steps state)
    (names : ∀ dealOrderId addressId amount expiration,
      command = .addRepaymentOrder dealOrderId addressId amount expiration →
      sha.kindOf dealOrderId = some .dealOrder)
    (networked : Networked sha state) : Networked sha after where
  offer _ found remains ask bid :=
    executed.networked_offer around grows apart addresses networked found remains ask bid
  deal _ found remains := executed.networked_deal around networked matched found remains
  target _ found remains :=
    (executed.networked_repayment around grows apart addresses networked names found remains).1
  repayment _ found remains there :=
    (executed.networked_repayment around grows apart addresses networked names found remains).2 there
  sale _ found remains repayment there :=
    executed.networked_sale around grows apart addresses networked found remains repayment there
  locked _ found locked := executed.networked_locked around networked matched found locked

/-- In a run the addresses of loans are on one network. -/
theorem ChainRun.networked (run : ChainRun sha tip steps chain)
    (guarded : ∀ taken ∈ steps, NamesParties sha taken) (separate : Separate sha steps) :
    Networked sha chain.context := by
  revert separate
  refine run.history (fun steps chain => Separate sha steps → Networked sha chain.context)
    (fun _ => ?_) ?_ guarded
  · refine ⟨?_, ?_, ?_, ?_, ?_, fun _ _ locked => absurd rfl locked⟩
    all_goals exact fun _ _ present => absurd rfl present
  intro earlier taken reached before holds did allowed separate
  have networked := holds separate.start
  cases did with
  | executed serves succeeds effect =>
    have kept := reached.kept fun other listed => (before other listed).offers
    have around := succeeds.around serves kept allowed.offers
    have apart := reached.apart (fun other listed => ⟨(before other listed).offers,
      (before other listed).deals⟩) separate.start
    obtain ⟨addresses, matched⟩ := reached.matched before separate.start
    refine effect.networked around (separate.grows succeeds serves.live) apart addresses matched ?_
      networked
    rintro dealOrderId addressId amount expiration rfl
    exact allowed.deals _ _ _ _ _ _ succeeds
  | rejected same => exact same ▸ networked
  | committed _ context => exact context ▸ networked

end Networks

end Creditcoin
