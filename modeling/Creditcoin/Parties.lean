import Creditcoin.Payments
import Creditcoin.Separation

/-!
# The parties of a deal

The investor and the fundraiser of a deal are different parties. `AddOffer` finds this out of two
orders, `AddDealOrder` takes it over, and the collector who buys a loan has shown by a transfer to
own the new address and by the repayment order to be no fundraiser. Every link of this chain is a
record that names another one, and records that were deleted never come back.
-/

namespace Creditcoin

open Lib

/-- What a deal order says for good. -/
def DealOrder.terms (deal : DealOrder) : Text × Text × Text × Text × Text × Text :=
  (deal.dstAddress, deal.amount, deal.interest, deal.maturity, deal.fee, deal.sighash)

/-- What a repayment order says for good. -/
def RepaymentOrder.terms (order : RepaymentOrder) : Text × Text × Text × Text × Text :=
  (order.srcAddress, order.dstAddress, order.amount, order.deal, order.sighash)

/-- How a command changes a repayment order that is placed for a deal order: the record after it. -/
inductive RepaymentStep (sha : Sha512) (env : Env) (signer : Text) (state : State) (key : Text) :
    Command → Text → Prop
  /-- The order is placed. -/
  | placed {dealOrderId addressId amount : Text} {expiration : UInt64}
      (made : key = sha.makeAddress .repaymentOrder env.guid) (fresh : state.get key = [])
      (fundraiser : (dealAt state dealOrderId).sighash ≠ signer)
      (completed : (dealAt state dealOrderId).loanTransfer ≠ []) :
      RepaymentStep sha env signer state key
        (.addRepaymentOrder dealOrderId addressId amount expiration)
        { blockchain := (addressAt state (dealAt state dealOrderId).srcAddress).blockchain,
          srcAddress := addressId, dstAddress := (dealAt state dealOrderId).srcAddress,
          amount := amount, expiration := expiration, block := toText env.head,
          deal := dealOrderId, sighash := signer : RepaymentOrder }.serializeToString
  /-- The order is accepted. -/
  | accepted (present : state.get key ≠ []) :
      RepaymentStep sha env signer state key (.completeRepaymentOrder key)
        { repaymentAt state key with previousOwner := signer }.serializeToString
  /-- The loan is taken over. -/
  | sold {transferId : Text} (present : state.get key ≠ []) :
      RepaymentStep sha env signer state key (.closeRepaymentOrder key transferId)
        { repaymentAt state key with transfer := transferId }.serializeToString
  /-- The order is exempted as if it were a deal order. -/
  | exempted {transferId : Text} (present : state.get key ≠ []) :
      RepaymentStep sha env signer state key (.exempt key transferId)
        { dealAt state key with repaymentTransfer := transferId }.serializeToString
  /-- The order expires. -/
  | expired {blockIdx : Int} : RepaymentStep sha env signer state key (.housekeeping blockIdx) []

/-- The links between the records that keep the parties of a deal apart. -/
structure Apart (sha : Sha512) (steps : List ChainStep) (state : State) : Prop where
  /-- The party of an order owns its address. -/
  order : ∀ key, sha.IsOrder key → state.get key ≠ [] → Placed sha steps key ∧
    Owned sha steps state (orderAt state key).address (orderAt state key).sighash
  /-- An offer is made of orders of different parties. -/
  offer : ∀ key, sha.kindOf key = some .offer → state.get key ≠ [] →
    Offered sha steps key (offerAt state key).askOrder (offerAt state key).bidOrder ∧
      (state.get (offerAt state key).askOrder ≠ [] → state.get (offerAt state key).bidOrder ≠ [] →
        (orderAt state (offerAt state key).askOrder).sighash ≠
          (orderAt state (offerAt state key).bidOrder).sighash)
  /-- An offer that became a deal is gone with its orders. -/
  dealt : ∀ offerId, Dealt sha steps offerId → state.get offerId = [] ∧
    ∃ askOrderId bidOrderId, Offered sha steps offerId askOrderId bidOrderId ∧
      state.get bidOrderId = []
  /-- The investor of a deal is not the fundraiser. -/
  deal : ∀ key, sha.kindOf key = some .dealOrder → state.get key ≠ [] →
    (∃ offerId, Dealt sha steps offerId ∧ key = sha.makeAddress .dealOrder offerId) ∧
      ∃ investor, investor ≠ [] ∧ investor ≠ (dealAt state key).sighash ∧
        Owned sha steps state (dealAt state key).srcAddress investor
  /-- The collector of a repayment order is not the fundraiser of the deal. -/
  repayment : ∀ key, sha.kindOf key = some .repaymentOrder → state.get key ≠ [] →
    Placed sha steps key ∧
      (∃ offerId, Dealt sha steps offerId ∧
        (repaymentAt state key).deal = sha.makeAddress .dealOrder offerId) ∧
      (state.get (repaymentAt state key).deal ≠ [] →
        (repaymentAt state key).sighash ≠ (dealAt state (repaymentAt state key).deal).sighash)
  /-- The registrant of a transfer for a repayment order owns its address. -/
  transfer : ∀ key, sha.kindOf key = some .transfer → state.get key ≠ [] →
    sha.kindOf (transferAt state key).order = some .repaymentOrder →
    Placed sha steps (transferAt state key).order ∧
      (state.get (transferAt state key).order ≠ [] →
        Owned sha steps state (repaymentAt state (transferAt state key).order).srcAddress
          (transferAt state key).sighash)

section Parties

variable {sha : Sha512} {env : Env} {signer : Text} {state after : State} {command : Command}
  {key : Text} {tip : UInt64} {steps later : List ChainStep} {chain : Chain}

/-! ## Single records -/

/-- A step in the life of a deal keeps what it says for good. -/
theorem DealStep.terms {deal next : DealOrder}
    (step : DealStep sha env signer state key command deal next) : next.terms = deal.terms := by
  cases step with
  | _ => rfl

/-- A record of an order was there before, or its key is made of the nonce. -/
theorem Executed.order_after (around : Surroundings sha env signer state command)
    (executed : Executed sha env signer state command after) (isOrder : sha.IsOrder key)
    (remains : after.get key ≠ []) :
    after.get key = state.get key ∨
      (∃ kind, key = sha.makeAddress kind env.guid) ∧ (orderAt after key).sighash = signer ∧
        ownerOf state (orderAt after key).address = signer := by
  obtain ⟨side, found⟩ : ∃ side : Side, sha.kindOf key = some side.kind := by
    rcases isOrder with found | found
    · exact ⟨.ask, found⟩
    · exact ⟨.bid, found⟩
  rcases executed.order around side found with same | change
  · exact .inl same
  · obtain ⟨data, written, change⟩ : ∃ data, after.get key = data ∧
        OrderChange sha env signer state key command data := ⟨_, rfl, change⟩
    have read := congrArg Order.parseFromString written
    change orderAt after key = _ at read
    cases change with
    | created made present owner =>
      rw [read, Order.parse_serialize]
      exact .inr ⟨⟨_, made⟩, rfl, owner⟩
    | deleted => exact absurd written remains

/-- A record of an offer was there before, or is made of two orders of different parties. -/
theorem Executed.offer_after (around : Surroundings sha env signer state command)
    (executed : Executed sha env signer state command after)
    (found : sha.kindOf key = some .offer) (remains : after.get key ≠ []) :
    after.get key = state.get key ∨ ∃ askOrderId bidOrderId expiration,
      command = .addOffer askOrderId bidOrderId expiration ∧
      key = sha.makeAddress .offer (askOrderId ++ bidOrderId) ∧
      (offerAt after key).askOrder = askOrderId ∧ (offerAt after key).bidOrder = bidOrderId ∧
      state.get askOrderId ≠ [] ∧ state.get bidOrderId ≠ [] ∧
      (orderAt state askOrderId).sighash ≠ (orderAt state bidOrderId).sighash := by
  rcases executed.offer around found with same | change
  · exact .inl same
  · obtain ⟨data, written, change⟩ : ∃ data, after.get key = data ∧
        OfferChange sha env signer state key command data := ⟨_, rfl, change⟩
    have read := congrArg Offer.parseFromString written
    change offerAt after key = _ at read
    cases change with
    | created made askPresent bidPresent =>
      rw [read, Offer.parse_serialize]
      cases executed with
      | addOffer covers fresh _ askOwner _ _ _ bidOwner =>
        exact .inr ⟨_, _, _, rfl, made, rfl, rfl, askPresent, bidPresent,
          fun same => bidOwner (same.symm.trans askOwner)⟩
    | deleted => exact absurd written remains

/-- Where only one record that is written has its kind, a record is written there or left. -/
theorem written_or_left {target data written : Text} {change : Text → Prop}
    (at' : written = if key = target then data else state.get key)
    (changed : key = target → change data) : written = state.get key ∨ change written := by
  by_cases same : key = target
  · rw [at', if_pos same]
    exact .inr (changed same)
  · rw [at', if_neg same]
    exact .inl rfl

/-- The commands change a repayment order in these ways only, as long as repayment orders are placed
for deals. -/
theorem Executed.repayment_cases (around : Surroundings sha env signer state command)
    (executed : Executed sha env signer state command after)
    (deals : ∀ other, sha.kindOf other = some .repaymentOrder → state.get other ≠ [] →
      sha.kindOf (repaymentAt state other).deal = some .dealOrder)
    (found : sha.kindOf key = some .repaymentOrder) :
    after.get key = state.get key ∨
      RepaymentStep sha env signer state key command (after.get key) := by
  have frame (unwritten : some .repaymentOrder ∉ command.kinds) :
      after.get key = state.get key := executed.frame around (found ▸ unwritten)
  obtain ⟨shapes, live, isId, lists, named⟩ := around
  cases executed with
  | exempt covers present unclosed transferPresent order unprocessed sourcePresent owner =>
    obtain ⟨transfer, _⟩ := shapes.exempted transferPresent order present sourcePresent
    apply written_or_left (get_setAll_at [] found (by simp) (by simp [transfer]))
    rintro rfl
    exact .exempted present
  | addRepaymentOrder covers amountRead fresh fundraiser completed unclosed investor blockchain
      network value =>
    apply written_or_left (get_setAll_at [] found (by simp) (by simp))
    rintro rfl
    exact .placed rfl fresh fundraiser completed
  | completeRepaymentOrder covers present targetPresent owner dealPresent unlocked =>
    have repayment := shapes.repayment_of_deal present targetPresent dealPresent
    have deal := deals _ repayment present
    apply written_or_left (get_setAll_at [] found (by simp) (by simp [deal]))
    rintro rfl
    exact .accepted present
  | closeRepaymentOrder covers present owner transferPresent order amount registrant unprocessed
      dealPresent sourcePresent locked =>
    obtain ⟨transfer, payable⟩ := shapes.consumed isId transferPresent order present registrant
    have repayment := shapes.repayment_of_collector present payable (owner ▸ isId)
    have deal := deals _ repayment present
    apply written_or_left (get_setAll_at [] found (by simp) (by simp [deal, transfer]))
    rintro rfl
    exact .sold present
  | housekeeping swept =>
    rcases swept_record lists found (by decide) (by decide) swept with same | ⟨gone, _⟩
    · exact .inl same
    · rw [gone]
      exact .inr .expired
  | _ => exact .inl (frame (by simp [Command.kinds]))

/-- A record of a repayment order was there before and says the same for good, or is new, as long
as repayment orders are placed for deals. -/
theorem Executed.repayment_after (around : Surroundings sha env signer state command)
    (executed : Executed sha env signer state command after)
    (deals : ∀ other, sha.kindOf other = some .repaymentOrder → state.get other ≠ [] →
      sha.kindOf (repaymentAt state other).deal = some .dealOrder)
    (found : sha.kindOf key = some .repaymentOrder) (remains : after.get key ≠ []) :
    (state.get key ≠ [] ∧ (repaymentAt after key).terms = (repaymentAt state key).terms) ∨
      ∃ dealOrderId addressId amount expiration,
        command = .addRepaymentOrder dealOrderId addressId amount expiration ∧
        key = sha.makeAddress .repaymentOrder env.guid ∧
        (dealAt state dealOrderId).sighash ≠ signer ∧
        (dealAt state dealOrderId).loanTransfer ≠ [] ∧
        (repaymentAt after key).terms =
          (addressId, (dealAt state dealOrderId).srcAddress, amount, dealOrderId, signer) := by
  rcases executed.repayment_cases around deals found with same | step
  · left
    rw [repaymentAt, same]
    exact ⟨same ▸ remains, rfl⟩
  · obtain ⟨data, written, step⟩ : ∃ data, after.get key = data ∧
        RepaymentStep sha env signer state key command data := ⟨_, rfl, step⟩
    have read := congrArg RepaymentOrder.parseFromString written
    change repaymentAt after key = _ at read
    rw [read]
    cases step with
    | placed made fresh fundraiser completed =>
      rw [RepaymentOrder.parse_serialize]
      exact .inr ⟨_, _, _, _, rfl, made, fundraiser, completed, rfl⟩
    | accepted present =>
      rw [RepaymentOrder.parse_serialize]
      exact .inl ⟨present, rfl⟩
    | sold present =>
      rw [RepaymentOrder.parse_serialize]
      exact .inl ⟨present, rfl⟩
    | exempted present =>
      rw [repayment_of_deal_write rfl]
      exact .inl ⟨present, rfl⟩
    | expired => exact absurd written remains

/-! ## Records that are gone -/

/-- The deals of repayment orders are deal orders. -/
theorem Apart.deals (apart : Apart sha steps state) (other : Text)
    (found : sha.kindOf other = some .repaymentOrder) (present : state.get other ≠ []) :
    sha.kindOf (repaymentAt state other).deal = some .dealOrder := by
  obtain ⟨_, ⟨offerId, _, made⟩, _⟩ := apart.repayment other found present
  rw [made, sha.kindOf_makeAddress]

/-- An order that was placed is as it was, or gone. -/
theorem Executed.order_same (around : Surroundings sha env signer state command)
    (executed : Executed sha env signer state command after)
    (grows : Grows sha steps later env command) (isOrder : sha.IsOrder key)
    (placed : Placed sha steps key) (remains : after.get key ≠ []) :
    after.get key = state.get key := by
  rcases executed.order_after around isOrder remains with same | ⟨⟨kind, rfl⟩, _⟩
  · exact same
  · exact absurd placed (grows.nonce kind)

/-- An offer that became a deal is gone. -/
theorem Executed.dealt_gone (around : Surroundings sha env signer state command)
    (executed : Executed sha env signer state command after)
    (grows : Grows sha steps later env command) (apart : Apart sha steps state) {offerId : Text}
    (dealt : Dealt sha steps offerId) : after.get offerId = [] := by
  obtain ⟨gone, askOrderId, bidOrderId, offered, bidGone⟩ := apart.dealt offerId dealt
  by_contra remains
  have found : sha.kindOf offerId = some .offer := by
    rw [offered.made, sha.kindOf_makeAddress]
  rcases executed.offer_after around found remains with
    same | ⟨askOrderId', bidOrderId', _, rfl, made, ask, _, askPresent, bidPresent, _⟩
  · exact remains (same.trans gone)
  · have equal : askOrderId' ++ bidOrderId' = askOrderId ++ bidOrderId :=
      grows.message _ List.mem_cons_self _ offered.hashed
        (sha.makeAddress_injective (made.symm.trans offered.made))
    have shapes := executed.kept around.kept around.live around.isId around.lists around.named
    have content : OfferContent sha (offerAt after offerId) := shapes.content remains found
    have isOrder : sha.IsOrder askOrderId' := ask ▸ content.ask
    have length : askOrderId'.length = 70 := by
      rcases isOrder with kind | kind
      · exact around.kept.key_length askPresent kind (by decide)
      · exact around.kept.key_length askPresent kind (by decide)
    obtain ⟨_, rfl⟩ := List.append_inj equal (length.trans offered.length.symm)
    exact bidPresent bidGone

/-- A deal that was made says what it said, or is gone. -/
theorem Executed.deal_after (around : Surroundings sha env signer state command)
    (executed : Executed sha env signer state command after)
    (grows : Grows sha steps later env command) (apart : Apart sha steps state) {offerId : Text}
    (dealt : Dealt sha steps offerId) (made : key = sha.makeAddress .dealOrder offerId)
    (remains : after.get key ≠ []) :
    state.get key ≠ [] ∧ (dealAt after key).terms = (dealAt state key).terms := by
  have found : sha.kindOf key = some .dealOrder := by rw [made, sha.kindOf_makeAddress]
  rcases executed.deal_cases around found with
    same | ⟨_, _, offerId', expiration, rfl, made', _⟩ | ⟨there, _, step⟩ | ⟨gone, _⟩
  · rw [dealAt, same]
    exact ⟨same ▸ remains, rfl⟩
  · have equal : offerId' = offerId :=
      grows.message _ List.mem_cons_self _ dealt.hashed
        (sha.makeAddress_injective (made'.symm.trans made))
    subst equal
    cases executed with
    | addDealOrder fresh present => exact absurd (apart.dealt offerId' dealt).1 present
  · exact ⟨there, step.terms⟩
  · exact absurd gone remains

/-- A repayment order that was placed says what it said, or is gone. -/
theorem Executed.repayment_same (around : Surroundings sha env signer state command)
    (executed : Executed sha env signer state command after)
    (grows : Grows sha steps later env command) (apart : Apart sha steps state)
    (found : sha.kindOf key = some .repaymentOrder) (placed : Placed sha steps key)
    (remains : after.get key ≠ []) :
    state.get key ≠ [] ∧ (repaymentAt after key).terms = (repaymentAt state key).terms := by
  rcases executed.repayment_after around apart.deals found remains with
    same | ⟨_, _, _, _, _, rfl, _⟩
  · exact same
  · exact absurd placed (grows.nonce .repaymentOrder)

/-- A record that was deleted for good stays away. -/
theorem Executed.spent_gone (around : Surroundings sha env signer state command)
    (executed : Executed sha env signer state command after)
    (grows : Grows sha steps later env command) (apart : Apart sha steps state)
    (gone : state.get key = []) (spent : Spent sha steps key) : after.get key = [] := by
  by_contra remains
  rcases spent with ⟨isOrder | found, placed⟩ | ⟨offerId, dealt, made⟩
  · exact remains ((executed.order_same around grows isOrder placed remains).trans gone)
  · exact (executed.repayment_same around grows apart found placed remains).1 gone
  · exact (executed.deal_after around grows apart dealt made remains).1 gone

/-- What an address record names as its owner stays, or the record is deleted for good. -/
theorem Executed.owned (around : Surroundings sha env signer state command)
    (executed : Executed sha env signer state command after)
    (grows : Grows sha steps later env command) (apart : Apart sha steps state)
    {addressId owner : Text} (named : owner ≠ [])
    (owned : Owned sha steps state addressId owner) : Owned sha later after addressId owner := by
  rcases owned with rfl | ⟨gone, spent⟩
  · have present : state.get addressId ≠ [] := by
      intro missing
      rw [ownerOf, addressAt, missing] at named
      exact named rfl
    have member : sha.kindOf addressId ∈ kindsWith [4] := by
      apply around.kept.kind_mem present
      intro number listed
      rw [List.mem_singleton] at listed
      subst listed
      exact named
    rw [show kindsWith [4] = [some .addr, some .transfer, some .askOrder, some .bidOrder,
      some .dealOrder, some .repaymentOrder] by decide] at member
    simp only [List.mem_cons, List.not_mem_nil, or_false] at member
    -- an order is as it was, or gone; a deal and a repayment order keep their amounts
    have order (isOrder : sha.IsOrder addressId) :
        Owned sha later after addressId (ownerOf state addressId) := by
      have placed := (apart.order addressId isOrder present).1
      by_cases remains : after.get addressId = []
      · exact .inr ⟨remains, .inl ⟨.inl isOrder, placed.mono grows.within⟩⟩
      · left
        rw [ownerOf, addressAt, executed.order_same around grows isOrder placed remains]
        rfl
    rcases member with found | found | found | found | found | found
    · exact .inl (executed.owner_stays around found named)
    · left
      rcases executed.transfer_registered around found present with same | ⟨_, processed⟩
      · rw [ownerOf, addressAt, same]
        rfl
      · exact congrArg Transfer.order processed
    · exact order (.inl found)
    · exact order (.inr found)
    · obtain ⟨⟨offerId, dealt, made⟩, _⟩ := apart.deal addressId found present
      by_cases remains : after.get addressId = []
      · exact .inr ⟨remains, .inr ⟨offerId, dealt.mono grows.within, made⟩⟩
      · have same := (executed.deal_after around grows apart dealt made remains).2
        exact .inl (congrArg (fun terms => terms.2.1) same)
    · have placed := (apart.repayment addressId found present).1
      by_cases remains : after.get addressId = []
      · exact .inr ⟨remains, .inl ⟨.inr found, placed.mono grows.within⟩⟩
      · have same := (executed.repayment_same around grows apart found placed remains).2
        exact .inl (congrArg (fun terms => terms.2.2.1) same)
  · exact .inr ⟨executed.spent_gone around grows apart gone spent, spent.mono grows.within⟩

/-! ## The parties stay apart -/

/-- The party of an order still owns its address. -/
theorem Executed.apart_order (around : Surroundings sha env signer state command)
    (executed : Executed sha env signer state command after)
    (grows : Grows sha steps later env command) (apart : Apart sha steps state)
    (isOrder : sha.IsOrder key) (remains : after.get key ≠ []) : Placed sha later key ∧
      Owned sha later after (orderAt after key).address (orderAt after key).sighash := by
  rcases executed.order_after around isOrder remains with same | ⟨⟨kind, rfl⟩, party, owns⟩
  · have present : state.get key ≠ [] := same ▸ remains
    obtain ⟨placed, owned⟩ := apart.order key isOrder present
    have content : OrderContent sha (orderAt state key) := by
      rcases isOrder with found | found
      · exact around.kept.content present found
      · exact around.kept.content present found
    rw [orderAt, same]
    exact ⟨placed.mono grows.within,
      executed.owned around grows apart content.owner.ne_nil owned⟩
  · rw [party]
    exact ⟨grows.placed kind, executed.owned around grows apart around.isId.ne_nil (.inl owns)⟩

/-- An offer is still made of orders of different parties. -/
theorem Executed.apart_offer (around : Surroundings sha env signer state command)
    (executed : Executed sha env signer state command after)
    (grows : Grows sha steps later env command) (apart : Apart sha steps state)
    (found : sha.kindOf key = some .offer) (remains : after.get key ≠ []) :
    Offered sha later key (offerAt after key).askOrder (offerAt after key).bidOrder ∧
      (after.get (offerAt after key).askOrder ≠ [] → after.get (offerAt after key).bidOrder ≠ [] →
        (orderAt after (offerAt after key).askOrder).sighash ≠
          (orderAt after (offerAt after key).bidOrder).sighash) := by
  have party {orderId : Text} (isOrder : sha.IsOrder orderId) (placed : Placed sha steps orderId)
      (there : after.get orderId ≠ []) :
      state.get orderId ≠ [] ∧
        (orderAt after orderId).sighash = (orderAt state orderId).sighash := by
    have same := executed.order_same around grows isOrder placed there
    rw [orderAt, same]
    exact ⟨same ▸ there, rfl⟩
  rcases executed.offer_after around found remains with
    same | ⟨askOrderId, bidOrderId, _, rfl, made, ask, bid, askPresent, bidPresent, differ⟩
  · obtain ⟨offered, differ⟩ := apart.offer key found (same ▸ remains)
    rw [offerAt, same]
    refine ⟨offered.mono grows.within, fun askThere bidThere => ?_⟩
    obtain ⟨askPresent, askSame⟩ := party offered.askOrder offered.askPlaced askThere
    obtain ⟨bidPresent, bidSame⟩ := party offered.bidOrder offered.bidPlaced bidThere
    change (orderAt after (offerAt state key).askOrder).sighash ≠
      (orderAt after (offerAt state key).bidOrder).sighash
    rw [askSame, bidSame]
    exact differ askPresent bidPresent
  · have shapes := executed.kept around.kept around.live around.isId around.lists around.named
    have content : OfferContent sha (offerAt after key) := shapes.content remains found
    rw [ask, bid]
    have askOrder : sha.IsOrder askOrderId := ask ▸ content.ask
    have bidOrder : sha.IsOrder bidOrderId := bid ▸ content.bid
    have askPlaced := (apart.order askOrderId askOrder askPresent).1
    have bidPlaced := (apart.order bidOrderId bidOrder bidPresent).1
    have length : askOrderId.length = 70 := by
      rcases askOrder with kind | kind
      · exact around.kept.key_length askPresent kind (by decide)
      · exact around.kept.key_length askPresent kind (by decide)
    refine ⟨⟨made, grows.hashed List.mem_cons_self, length, askOrder, bidOrder,
      askPlaced.mono grows.within, bidPlaced.mono grows.within⟩, fun askThere bidThere => ?_⟩
    rw [(party askOrder askPlaced askThere).2, (party bidOrder bidPlaced bidThere).2]
    exact differ

/-- An offer that became a deal is still gone with its orders. -/
theorem Executed.apart_dealt (around : Surroundings sha env signer state command)
    (executed : Executed sha env signer state command after)
    (grows : Grows sha steps later env command) (apart : Apart sha steps state) {offerId : Text}
    (dealt : Dealt sha later offerId) : after.get offerId = [] ∧
      ∃ askOrderId bidOrderId, Offered sha later offerId askOrderId bidOrderId ∧
        after.get bidOrderId = [] := by
  rcases (grows.dealt offerId).mp dealt with earlier | ⟨expiration, rfl⟩
  · obtain ⟨_, askOrderId, bidOrderId, offered, gone⟩ := apart.dealt offerId earlier
    refine ⟨executed.dealt_gone around grows apart earlier, askOrderId, bidOrderId,
      offered.mono grows.within, ?_⟩
    exact executed.spent_gone around grows apart gone
      (.inl ⟨.inl offered.bidOrder, offered.bidPlaced⟩)
  · have found : sha.kindOf offerId = some .offer := around.named
    cases executed with
    | addDealOrder fresh present =>
      obtain ⟨offered, _⟩ := apart.offer offerId found present
      refine ⟨?_, _, _, offered.mono grows.within, ?_⟩
      · rw [Store.get_erase, if_pos rfl]
      · rw [Store.get_erase]
        split
        · rfl
        · rw [Store.get_erase, if_pos rfl]

/-- The investor of a deal still is not the fundraiser. -/
theorem Executed.apart_deal (around : Surroundings sha env signer state command)
    (executed : Executed sha env signer state command after)
    (grows : Grows sha steps later env command) (apart : Apart sha steps state)
    (found : sha.kindOf key = some .dealOrder) (remains : after.get key ≠ []) :
    (∃ offerId, Dealt sha later offerId ∧ key = sha.makeAddress .dealOrder offerId) ∧
      ∃ investor, investor ≠ [] ∧ investor ≠ (dealAt after key).sighash ∧
        Owned sha later after (dealAt after key).srcAddress investor := by
  rcases executed.deal_cases around found with
    same | ⟨_, _, offerId, expiration, rfl, made, read⟩ | ⟨present, _, step⟩ | ⟨gone, _⟩
  · obtain ⟨⟨offerId, dealt, made⟩, investor, named, differ, owned⟩ :=
      apart.deal key found (same ▸ remains)
    rw [dealAt, same]
    exact ⟨⟨offerId, dealt.mono grows.within, made⟩, investor, named, differ,
      executed.owned around grows apart named owned⟩
  · refine ⟨⟨offerId, (grows.dealt offerId).mpr (.inr ⟨expiration, rfl⟩), made⟩, ?_⟩
    have kind : sha.kindOf offerId = some .offer := around.named
    rw [read]
    have owned (addressId investor : Text) (named : investor ≠ [])
        (owns : Owned sha steps state addressId investor) :
        Owned sha later after addressId investor := executed.owned around grows apart named owns
    cases executed with
    | addDealOrder fresh present unexpired bidPresent bidOwner askPresent =>
      obtain ⟨offered, differ⟩ := apart.offer offerId kind present
      have source := (apart.order _ offered.askOrder askPresent).2
      have content : OrderContent sha (orderAt state (offerAt state offerId).askOrder) := by
        rcases offered.askOrder with side | side
        · exact around.kept.content askPresent side
        · exact around.kept.content askPresent side
      refine ⟨_, content.owner.ne_nil, ?_, owned _ _ content.owner.ne_nil source⟩
      rw [← bidOwner]
      exact differ askPresent bidPresent
  · obtain ⟨⟨offerId, dealt, made⟩, investor, named, differ, owned⟩ := apart.deal key found present
    refine ⟨⟨offerId, dealt.mono grows.within, made⟩, ?_⟩
    have fundraiser : (dealAt after key).sighash = (dealAt state key).sighash :=
      congrArg (fun terms => terms.2.2.2.2.2) step.terms
    rw [fundraiser]
    have carried (same : (dealAt after key).srcAddress = (dealAt state key).srcAddress) :
        ∃ investor, investor ≠ [] ∧ investor ≠ (dealAt state key).sighash ∧
          Owned sha later after (dealAt after key).srcAddress investor := by
      rw [same]
      exact ⟨investor, named, differ, executed.owned around grows apart named owned⟩
    generalize dealAt after key = next at step carried ⊢
    cases step with
    | sold orderPresent orderFound names locked =>
      rename_i repaymentOrderId transferId
      obtain ⟨_, _, parties⟩ := apart.repayment _ orderFound orderPresent
      have source (owns : Owned sha steps state (repaymentAt state repaymentOrderId).srcAddress
            signer) :
          Owned sha later after (repaymentAt state repaymentOrderId).srcAddress signer :=
        executed.owned around grows apart around.isId.ne_nil owns
      cases executed with
      | closeRepaymentOrder covers _ owner transferPresent order amount registrant unprocessed =>
        obtain ⟨transfer, _⟩ :=
          around.kept.consumed around.isId transferPresent order orderPresent registrant
        obtain ⟨_, owns⟩ := apart.transfer _ transfer transferPresent (order ▸ orderFound)
        rw [order, registrant] at owns
        rw [names, owner] at parties
        exact ⟨signer, around.isId.ne_nil, parties present,
          source (owns orderPresent)⟩
    | _ => exact carried rfl
  · exact absurd gone remains

/-- The collector of a repayment order still is not the fundraiser of the deal. -/
theorem Executed.apart_repayment (around : Surroundings sha env signer state command)
    (executed : Executed sha env signer state command after)
    (grows : Grows sha steps later env command) (apart : Apart sha steps state)
    (names : ∀ dealOrderId addressId amount expiration,
      command = .addRepaymentOrder dealOrderId addressId amount expiration →
      sha.kindOf dealOrderId = some .dealOrder)
    (found : sha.kindOf key = some .repaymentOrder) (remains : after.get key ≠ []) :
    Placed sha later key ∧
      (∃ offerId, Dealt sha later offerId ∧
        (repaymentAt after key).deal = sha.makeAddress .dealOrder offerId) ∧
      (after.get (repaymentAt after key).deal ≠ [] →
        (repaymentAt after key).sighash ≠ (dealAt after (repaymentAt after key).deal).sighash) := by
  have party {offerId dealOrderId : Text} (dealt : Dealt sha steps offerId)
      (made : dealOrderId = sha.makeAddress .dealOrder offerId)
      (there : after.get dealOrderId ≠ []) : state.get dealOrderId ≠ [] ∧
        (dealAt after dealOrderId).sighash = (dealAt state dealOrderId).sighash := by
    obtain ⟨present, same⟩ := executed.deal_after around grows apart dealt made there
    exact ⟨present, congrArg (fun terms => terms.2.2.2.2.2) same⟩
  rcases executed.repayment_after around apart.deals found remains with
    ⟨present, same⟩ | ⟨dealOrderId, _, _, _, rfl, rfl, fundraiser, completed, same⟩
  · obtain ⟨placed, ⟨offerId, dealt, made⟩, differ⟩ := apart.repayment key found present
    have deal : (repaymentAt after key).deal = (repaymentAt state key).deal :=
      congrArg (fun terms => terms.2.2.2.1) same
    have collector : (repaymentAt after key).sighash = (repaymentAt state key).sighash :=
      congrArg (fun terms => terms.2.2.2.2) same
    rw [deal, collector]
    refine ⟨placed.mono grows.within, ⟨offerId, dealt.mono grows.within, made⟩, fun there => ?_⟩
    obtain ⟨there', fundraiser⟩ := party dealt made there
    rw [fundraiser]
    exact differ there'
  · have kind := names _ _ _ _ rfl
    obtain ⟨⟨offerId, dealt, made⟩, _⟩ := apart.deal dealOrderId kind (present_of_loan completed)
    have deal : (repaymentAt after _).deal = dealOrderId :=
      congrArg (fun terms => terms.2.2.2.1) same
    have collector : (repaymentAt after _).sighash = signer :=
      congrArg (fun terms => terms.2.2.2.2) same
    rw [deal, collector]
    refine ⟨grows.placed _, ⟨offerId, dealt.mono grows.within, made⟩, fun there => ?_⟩
    rw [(party dealt made there).2]
    exact fundraiser.symm

/-- The registrant of a transfer for a repayment order still owns its address. -/
theorem Executed.apart_transfer (around : Surroundings sha env signer state command)
    (executed : Executed sha env signer state command after)
    (grows : Grows sha steps later env command) (apart : Apart sha steps state)
    (found : sha.kindOf key = some .transfer) (remains : after.get key ≠ [])
    (sale : sha.kindOf (transferAt after key).order = some .repaymentOrder) :
    Placed sha later (transferAt after key).order ∧
      (after.get (transferAt after key).order ≠ [] →
        Owned sha later after (repaymentAt after (transferAt after key).order).srcAddress
          (transferAt after key).sighash) := by
  have source {orderId owner : Text} (kind : sha.kindOf orderId = some .repaymentOrder)
      (placed : Placed sha steps orderId) (named : owner ≠ [])
      (owned : state.get orderId ≠ [] →
        Owned sha steps state (repaymentAt state orderId).srcAddress owner)
      (there : after.get orderId ≠ []) :
      Owned sha later after (repaymentAt after orderId).srcAddress owner := by
    obtain ⟨present, same⟩ := executed.repayment_same around grows apart kind placed there
    have address :
        (repaymentAt after orderId).srcAddress = (repaymentAt state orderId).srcAddress :=
      congrArg Prod.fst same
    rw [address]
    exact executed.owned around grows apart named (owned present)
  by_cases present : state.get key = []
  · rcases executed.transfer around found with same | change
    · exact absurd (same.trans present) remains
    · obtain ⟨data, written, change⟩ : ∃ data, after.get key = data ∧
          TransferChange sha env signer state key command data := ⟨_, rfl, change⟩
      have read := congrArg Transfer.parseFromString written
      change transferAt after key = _ at read
      cases change with
      | consumed there => exact absurd present there
      | registered fresh order pays made =>
        rw [Transfer.parse_serialize] at read
        rw [read] at sale ⊢
        dsimp only at sale ⊢
        have placed := (apart.repayment _ sale order).1
        refine ⟨placed.mono grows.within, source sale placed around.isId.ne_nil fun _ => ?_⟩
        cases executed with
        | registerTransfer covers order' pays' sourcePresent targetPresent owner =>
          left
          cases pays' with
          | loan kind none =>
            rw [kind] at sale
            cases sale
          | repayment kind some =>
            rw [kind] at sale
            cases sale
          | sale kind none => exact owner
  · have content : TransferContent sha (transferAt state key) := around.kept.content present found
    have same : (transferAt after key).order = (transferAt state key).order ∧
        (transferAt after key).sighash = (transferAt state key).sighash := by
      rcases executed.transfer_registered around found present with same | ⟨_, processed⟩
      · rw [transferAt, same]
        exact ⟨rfl, rfl⟩
      · rw [processed]
        exact ⟨rfl, rfl⟩
    rw [same.1] at sale
    rw [same.1, same.2]
    obtain ⟨placed, owned⟩ := apart.transfer key found present sale
    exact ⟨placed.mono grows.within, source sale placed content.owner.ne_nil owned⟩

/-- A command keeps the parties of the deals apart, when it places repayment orders for deals. -/
theorem Executed.apart (around : Surroundings sha env signer state command)
    (executed : Executed sha env signer state command after)
    (grows : Grows sha steps later env command)
    (names : ∀ dealOrderId addressId amount expiration,
      command = .addRepaymentOrder dealOrderId addressId amount expiration →
      sha.kindOf dealOrderId = some .dealOrder)
    (apart : Apart sha steps state) : Apart sha later after where
  order _ isOrder remains := executed.apart_order around grows apart isOrder remains
  offer _ found remains := executed.apart_offer around grows apart found remains
  dealt _ dealt := executed.apart_dealt around grows apart dealt
  deal _ found remains := executed.apart_deal around grows apart found remains
  repayment _ found remains := executed.apart_repayment around grows apart names found remains
  transfer _ found remains := executed.apart_transfer around grows apart found remains

/-- Without records the parties are apart. -/
theorem Apart.empty : Apart sha [] ∅ where
  order _ _ present := absurd rfl present
  offer _ _ present := absurd rfl present
  dealt _ dealt := by
    obtain ⟨_, listed, _⟩ := dealt
    cases listed
  deal _ _ present := absurd rfl present
  repayment _ _ present := absurd rfl present
  transfer _ _ present := absurd rfl present

/-- Steps that do not succeed leave the parties apart. -/
theorem Apart.idle {taken : ChainStep} (apart : Apart sha steps state)
    (idle : ∀ env signer command, ¬ Succeeds sha taken env signer command) :
    Apart sha (steps ++ [taken]) state := by
  have within : steps ⊆ steps ++ [taken] := List.subset_append_left steps [taken]
  constructor
  · intro key isOrder present
    obtain ⟨placed, owned⟩ := apart.order key isOrder present
    exact ⟨placed.mono within, owned.mono within⟩
  · intro key found present
    obtain ⟨offered, differ⟩ := apart.offer key found present
    exact ⟨offered.mono within, differ⟩
  · intro offerId dealt
    rcases dealt_append.mp dealt with earlier | ⟨_, _, _, succeeds⟩
    · obtain ⟨gone, askOrderId, bidOrderId, offered, bidGone⟩ := apart.dealt offerId earlier
      exact ⟨gone, askOrderId, bidOrderId, offered.mono within, bidGone⟩
    · exact absurd succeeds (idle _ _ _)
  · intro key found present
    obtain ⟨⟨offerId, dealt, made⟩, investor, named, differ, owned⟩ := apart.deal key found present
    exact ⟨⟨offerId, dealt.mono within, made⟩, investor, named, differ, owned.mono within⟩
  · intro key found present
    obtain ⟨placed, ⟨offerId, dealt, made⟩, differ⟩ := apart.repayment key found present
    exact ⟨placed.mono within, ⟨offerId, dealt.mono within, made⟩, differ⟩
  · intro key found present sale
    obtain ⟨placed, owned⟩ := apart.transfer key found present sale
    exact ⟨placed.mono within, fun there => (owned there).mono within⟩

/-! ## Runs -/

/-- In a run with distinct nonces the parties of the deals stay apart, when its deal orders are made
of offers and its repayment orders are placed for deals. -/
theorem ChainRun.apart (run : ChainRun sha tip steps chain)
    (guarded : ∀ taken ∈ steps, NamesOffers sha taken ∧ NamesDeals sha taken)
    (separate : Separate sha steps) : Apart sha steps chain.context := by
  revert separate
  refine run.history (fun steps chain => Separate sha steps → Apart sha steps chain.context)
    (fun _ => Apart.empty) ?_ guarded
  intro earlier taken reached before holds did allowed separate
  have apart := holds separate.start
  have kept := reached.kept fun other listed => (before other listed).1
  cases did with
  | executed serves succeeds effect committed tip housekept =>
    refine effect.apart (succeeds.around serves kept allowed.1)
      (separate.grows succeeds serves.live) ?_ apart
    rintro dealOrderId addressId amount expiration rfl
    exact allowed.2 _ _ _ _ _ _ succeeds
  | rejected same idle => exact same ▸ apart.idle idle
  | committed committed context housekept idle => exact context ▸ apart.idle idle

/-- The investor of a deal order is not its fundraiser. -/
def PartiesDiffer (sha : Sha512) (state : State) : Prop :=
  ∀ key, sha.kindOf key = some .dealOrder → state.get key ≠ [] →
    ownerOf state (dealAt state key).srcAddress ≠ (dealAt state key).sighash

/-- The parties of every deal are different. -/
theorem Apart.differ (apart : Apart sha steps state) (kept : Kept sha state) :
    PartiesDiffer sha state := by
  intro key found present
  obtain ⟨_, investor, _, differ, owns | ⟨gone, _⟩⟩ := apart.deal key found present
  · rw [owns]
    exact differ
  · intro same
    rw [ownerOf, addressAt, gone] at same
    exact (kept.fundraiser found present).ne_nil same.symm

/-- In a run with distinct nonces the investor of a deal is not its fundraiser, when the deal orders
are made of offers and the repayment orders are placed for deals. -/
theorem parties_differ (run : ChainRun sha tip steps chain) (separate : Separate sha steps)
    (guarded : ∀ taken ∈ steps, NamesOffers sha taken ∧ NamesDeals sha taken) :
    PartiesDiffer sha chain.context :=
  (run.apart guarded separate).differ
    (run.kept fun taken listed => (guarded taken listed).1).context

end Parties

/-! ## Parties of the sample loan -/

/-- Whether a repayment order is placed for a deal order. -/
def Command.namesDeal (sha : Sha512) : Command → Bool
  | .addRepaymentOrder dealOrderId .. => sha.kindOf dealOrderId = some .dealOrder
  | _ => true

/-- A script that passes the checks makes deals of offers and places repayment orders for deals. -/
theorem Chain.checks_deals {sha : Sha512} {node : Env} {chain : Chain} {script : List Turn}
    {check : Chain → Env → Text → Command → Bool}
    (checked : chain.checks sha node (fun chain env signer command =>
      command.ordinary sha chain && (command.namesDeal sha && check chain env signer command))
      script = true) :
    ∀ taken ∈ chain.steps sha node script, (NamesOffers sha taken ∧ NamesDeals sha taken) ∧
      ∀ env signer command, Succeeds sha taken env signer command →
        check taken.before env signer command = true := by
  intro taken listed
  obtain ⟨named, _, passes⟩ := Chain.checks_ordinary checked taken listed
  refine ⟨⟨named, ?_⟩, fun env signer command succeeds => ?_⟩
  · intro env signer dealOrderId addressId amount expiration succeeds
    exact of_decide_eq_true (Bool.and_eq_true _ _ ▸ passes _ _ _ succeeds).1
  · exact (Bool.and_eq_true _ _ ▸ passes _ _ _ succeeds).2

/-- The collector pays for the sample loan. The fundraiser buys the repayment order of the collector
as if it were a deal, so that the order names the address of the fundraiser; then the collector
closes it. -/
def loanReturned : List Turn :=
  loanPaid ++ [purchase "13" "500",
    request investorKey "14" "CompleteRepaymentOrder" (sampleRepayment "13") [],
    transfer collectorKey "15" "0" (sampleRepayment "13") "2",
    .submit fundraiserKey "16".toList (call "AddRepaymentOrder"
      [("p1", sampleRepayment "13"), ("p2", sampleAddress "0x2"), ("p3", "500".toList),
        ("p4", "100".toList)]),
    request collectorKey "17" "CompleteRepaymentOrder" (sampleRepayment "16") [],
    transfer fundraiserKey "18" "0" (sampleRepayment "16") "3",
    request fundraiserKey "19" "CloseRepaymentOrder" (sampleRepayment "16") (sampleTransfer "3"),
    request collectorKey "20" "CloseRepaymentOrder" (sampleRepayment "13") (sampleTransfer "2")]

/-- The chain before the collector closes the order that was changed. -/
def beforeReturn : Chain := (Chain.empty 2).plays sample sampleNode (loanReturned.take 19)

/-- The chain that has the loan returned. -/
def returnedChain : Chain := (Chain.empty 2).plays sample sampleNode loanReturned

/-- The collector takes the sample loan over with a repayment order that was changed. -/
def takesOver : Turn :=
  request collectorKey "20" "CloseRepaymentOrder" (sampleRepayment "13") (sampleTransfer "2")

/-- The messages of the sale of the sample loan differ, and it asks for records of the kinds that
its commands take. In the run of the loan that is returned, the collector closes the changed order
with a payment from another address than the order names, and the deal is then the fundraiser's. -/
theorem sales_run :
    (Turn.differ sample loanSold = true ∧
        loanSold.all (Turn.asks fun command => command.plain sample &&
          (command.namesDeal sample && command.namesAddress sample)) = true) ∧
      (beforeReturn.accepts sample sampleNode takesOver =
          some (sample.id collectorKey,
            .closeRepaymentOrder (sampleRepayment "13") (sampleTransfer "2")) ∧
        (transferAt beforeReturn.context (sampleTransfer "2")).srcAddress ≠
          (repaymentAt beforeReturn.context (sampleRepayment "13")).srcAddress) ∧
      (returnedChain.context.get sampleDeal ≠ [] ∧
        ownerOf returnedChain.context (dealAt returnedChain.context sampleDeal).srcAddress =
          (dealAt returnedChain.context sampleDeal).sighash) ∧
      Turn.differ sample loanReturned = true := by
  decide +kernel

/-- The messages of the sale of the sample loan have identifiers of their own. -/
theorem loanSold_separate :
    Separate sample ((Chain.empty 2).steps sample sampleNode loanSold) :=
  Chain.steps_separate sales_run.1.1

/-- The sale of the sample loan asks for records of the kinds that its commands take. -/
theorem loanSold_checks : (Chain.empty 2).checks sample sampleNode
    (fun chain _ _ command => command.ordinary sample chain &&
      (command.namesDeal sample && command.namesAddress sample)) loanSold = true :=
  Chain.checks_plain sales_run.1.2

/-- The sample loan is sold to another party than the fundraiser. -/
theorem parties_differ_sample :
    PartiesDiffer sample ((Chain.empty 2).plays sample sampleNode loanSold).context :=
  parties_differ Chain.steps_run loanSold_separate fun taken listed =>
    (Chain.checks_deals loanSold_checks taken listed).1

/-- A loan can be sold to its fundraiser. -/
theorem loan_returned :
    ¬ ∀ (sha : Sha512) (tip : UInt64) (steps : List ChainStep) (chain : Chain),
      ChainRun sha tip steps chain → Separate sha steps → PartiesDiffer sha chain.context := by
  intro claim
  obtain ⟨-, -, sold, differ⟩ := sales_run
  have separate : Separate sample ((Chain.empty 2).steps sample sampleNode loanReturned) :=
    Chain.steps_separate differ
  exact claim sample 2 _ returnedChain Chain.steps_run separate sampleDeal
    (sample.kindOf_makeAddress .dealOrder _) sold.1 sold.2

end Creditcoin
