import Creditcoin.Preservation

/-!
# Changes, kind by kind

Once the kinds of the records are known, a command writes only a few kinds of keys and leaves
all others. For the kinds that matter later, this module lists the ways a command changes one
record. An invariant about a kind is then proved by cases on its changes, and a change of one
command in the source touches the cases of that command only.
-/

namespace Creditcoin

open Lib Lib.Wire

/-- What a command of a run may rely on. -/
structure Surroundings (sha : Sha512) (env : Env) (signer : Text) (state : State)
    (command : Command) : Prop where
  /-- The records have the shapes of their kinds. -/
  kept : Kept sha state
  /-- No recorded blocks are replayed. -/
  live : env.Live
  /-- The signer is an identifier. -/
  isId : sha.IsId signer
  /-- Listed records have the shapes of their kinds. -/
  lists : env.ListsKept sha
  /-- `AddDealOrder` names an offer. -/
  named : command.NamesOffer sha

/-- What a successful step of a run may rely on. -/
theorem Succeeds.around {sha : Sha512} {taken : ChainStep} {env : Env} {signer : Text}
    {command : Command} (succeeds : Succeeds sha taken env signer command)
    (serves : taken.before.Serves env) (kept : taken.before.Kept sha)
    (named : NamesOffers sha taken) :
    Surroundings sha env signer taken.before.context command where
  kept := kept.context
  live := serves.live
  isId := sighash_isId serves.live succeeds.signed
  lists := serves.listsKept kept.committed
  named := named _ _ _ succeeds

/-- The kinds of keys a command writes. -/
def Command.kinds : Command → List (Option Kind)
  | .sendFunds .. => [some .wallet, some .fee]
  | .registerAddress .. => [some .addr, some .wallet, some .fee]
  | .registerTransfer .. => [some .transfer, some .wallet, some .fee]
  | .addOrder .. => [some .askOrder, some .bidOrder, some .wallet, some .fee]
  | .addOffer .. => [some .offer, some .wallet, some .fee]
  | .addDealOrder .. =>
    [some .dealOrder, some .askOrder, some .bidOrder, some .offer, some .wallet, some .fee]
  | .completeDealOrder .. => [some .dealOrder, some .transfer, some .wallet, some .fee]
  | .lockDealOrder .. => [some .dealOrder, some .wallet, some .fee]
  | .closeDealOrder .. => [some .dealOrder, some .transfer, some .wallet, some .fee]
  | .exempt .. =>
    [some .dealOrder, some .repaymentOrder, some .transfer, some .wallet, some .fee]
  | .addRepaymentOrder .. => [some .repaymentOrder, some .wallet, some .fee]
  | .completeRepaymentOrder .. =>
    [some .repaymentOrder, some .dealOrder, some .wallet, some .fee]
  | .closeRepaymentOrder .. =>
    [some .repaymentOrder, some .dealOrder, some .transfer, some .wallet, some .fee]
  | .collectCoins .. => [some .wallet, some .erc20]
  | .housekeeping .. => [some .askOrder, some .bidOrder, some .offer, some .dealOrder,
      some .repaymentOrder, some .fee, some .wallet, some .processedBlock, none]

section Frames

variable {sha : Sha512} {env : Env} {signer : Text} {state after : State} {command : Command}
  {key : Text}

/-- Writing keys of other kinds leaves a record. -/
theorem get_setAll_of_kind {values : List (Text × Text)} {kinds : List (Option Kind)}
    (written : values.map (fun entry => sha.kindOf entry.1) ⊆ kinds)
    (other : sha.kindOf key ∉ kinds) : (state.setAll values).get key = state.get key := by
  apply Store.get_setAll_of_notMem
  intro listed
  obtain ⟨entry, member, rfl⟩ := List.mem_map.mp listed
  exact other (written (List.mem_map.mpr ⟨entry, member, rfl⟩))

/-- Erasing a key of another kind leaves a record. -/
theorem get_erase_of_kind (sha : Sha512) {erased : Text}
    (other : sha.kindOf key ≠ sha.kindOf erased) :
    Store.get (state.erase erased) key = state.get key := by
  rw [Store.get_erase, if_neg (sha.ne_of_kindOf_ne other)]

/-- The kind of an order is one of two. -/
theorem Sha512.IsOrder.mem {kinds : List (Option Kind)} {orderId : Text}
    (isOrder : sha.IsOrder orderId) (ask : some .askOrder ∈ kinds) (bid : some .bidOrder ∈ kinds) :
    sha.kindOf orderId ∈ kinds := by
  rcases isOrder with kind | kind
  · exact kind ▸ ask
  · exact kind ▸ bid

/-- The kind of a payable order is one of two. -/
theorem Sha512.IsPayable.mem {kinds : List (Option Kind)} {orderId : Text}
    (payable : sha.IsPayable orderId) (deal : some .dealOrder ∈ kinds)
    (repayment : some .repaymentOrder ∈ kinds) : sha.kindOf orderId ∈ kinds := by
  rcases payable with kind | kind
  · exact kind ▸ deal
  · exact kind ▸ repayment

/-- An order is of no other kind. -/
theorem Sha512.IsOrder.apart {orderId : Text} (isOrder : sha.IsOrder orderId) {kind : Kind}
    (noAsk : kind ≠ .askOrder) (noBid : kind ≠ .bidOrder) : sha.kindOf orderId ≠ some kind := by
  rcases isOrder with found | found
  · rw [found, ne_eq, Option.some.injEq]
    exact noAsk.symm
  · rw [found, ne_eq, Option.some.injEq]
    exact noBid.symm

/-- A payable order is of no other kind. -/
theorem Sha512.IsPayable.apart {orderId : Text} (payable : sha.IsPayable orderId) {kind : Kind}
    (noDeal : kind ≠ .dealOrder) (noRepayment : kind ≠ .repaymentOrder) :
    sha.kindOf orderId ≠ some kind := by
  rcases payable with found | found
  · rw [found, ne_eq, Option.some.injEq]
    exact noDeal.symm
  · rw [found, ne_eq, Option.some.injEq]
    exact noRepayment.symm

/-- A write of `Housekeeping` leaves the records of other kinds. -/
theorem Swept.frame {blockIdx : Int} (lists : env.ListsKept sha)
    (other : sha.kindOf key ∉ (Command.housekeeping blockIdx).kinds)
    (swept : Swept sha env blockIdx state after) : after.get key = state.get key := by
  have apart {kind : Option Kind} (written : kind ∈ (Command.housekeeping blockIdx).kinds) :
      sha.kindOf key ≠ kind := fun same => other (same ▸ written)
  have wallet : sha.kindOf key ≠ some .wallet := apart (by simp [Command.kinds])
  cases swept with
  | order listed expired =>
    rename_i side _ _
    apply get_erase_of_kind sha
    rw [(lists _ _ _ listed).1]
    cases side with
    | ask => exact apart (by simp [Command.kinds, Side.kind])
    | bid => exact apart (by simp [Command.kinds, Side.kind])
  | offer listed expired =>
    apply get_erase_of_kind sha
    rw [(lists _ _ _ listed).1]
    exact apart (by simp [Command.kinds])
  | deal listed settled expired pending covers read =>
    rw [get_erase_of_kind sha, Store.setAll_cons, Store.setAll_nil, Store.get_set_ne]
    · exact sha.ne_of_kindOf_ne (by simpa [walletEntry] using wallet)
    · rw [(lists _ _ _ listed).1]
      exact apart (by simp [Command.kinds])
  | repayment listed expired open' =>
    apply get_erase_of_kind sha
    rw [(lists _ _ _ listed).1]
    exact apart (by simp [Command.kinds])
  | fee listed read due covers =>
    rw [get_erase_of_kind sha, Store.get_set_ne]
    · apply sha.ne_of_kindOf_ne
      rw [sha.kindOf_line (walletEntry_head _ _)]
      exact apart (by simp [Command.kinds])
    · rw [(lists _ _ _ listed).1]
      exact apart (by simp [Command.kinds])
  | award positive printed credited =>
    rw [Store.setAll_cons, Store.setAll_nil, Store.get_set_ne]
    exact sha.ne_of_kindOf_ne (by simpa using wallet)
  | mark height =>
    rw [Store.get_set_ne]
    apply sha.ne_of_kindOf_ne
    rw [sha.kindOf_processedBlockIdx]
    exact apart (by simp [Command.kinds])

/-- Commands leave the records of the kinds they do not write. -/
theorem Executed.frame (around : Surroundings sha env signer state command)
    (other : sha.kindOf key ∉ command.kinds)
    (executed : Executed sha env signer state command after) : after.get key = state.get key := by
  obtain ⟨kept, live, isId, lists, named⟩ := around
  cases executed with
  | sendFunds numeral receiver covers credited =>
    exact get_setAll_of_kind (by simp [Command.kinds]) other
  | registerAddress covers fresh =>
    exact get_setAll_of_kind (by simp [Command.kinds]) other
  | registerTransfer covers order pays sourcePresent targetPresent owner blockchain network fresh
      paid =>
    exact get_setAll_of_kind (by simp [Command.kinds]) other
  | addOrder covers amountRead interestRead maturityRead feeRead fresh present owner =>
    rename_i side _ _ _ _ _ _ _ _ _ _ _
    refine get_setAll_of_kind ?_ other
    cases side with
    | ask => simp [Command.kinds, Side.kind]
    | bid => simp [Command.kinds, Side.kind]
  | addOffer covers fresh askPresent askOwner askUnexpired sourcePresent bidPresent bidOwner
      bidUnexpired targetPresent blockchain network amount fee askInterestRead askMaturityRead
      askMaturityNonzero bidInterestRead bidMaturityRead bidMaturityNonzero rate =>
    exact get_setAll_of_kind (by simp [Command.kinds]) other
  | addDealOrder fresh present unexpired bidPresent bidOwner askPresent feeRead covers =>
    have offer : OfferContent sha (offerAt state _) := kept.content present named
    have apart {erased : Text}
        (written : sha.kindOf erased ∈ (Command.addDealOrder [] 0).kinds) :
        sha.kindOf key ≠ sha.kindOf erased := fun same => other (same ▸ written)
    rw [get_erase_of_kind sha (apart (by rw [named]; simp [Command.kinds])),
      get_erase_of_kind sha (apart (offer.bid.mem (by simp [Command.kinds])
        (by simp [Command.kinds]))),
      get_erase_of_kind sha (apart (offer.ask.mem (by simp [Command.kinds])
        (by simp [Command.kinds])))]
    exact get_setAll_of_kind (by simp [Command.kinds]) other
  | completeDealOrder present pending sourcePresent owner unexpired transferPresent order amount
      registrant unprocessed feeRead covers =>
    obtain ⟨transfer, payable⟩ := kept.consumed isId transferPresent order present registrant
    have deal := kept.deal_of_pending present payable pending
    exact get_setAll_of_kind (by simp [Command.kinds,
      transfer, deal]) other
  | lockDealOrder covers present unlocked completed owner =>
    have deal := kept.deal_of_owner present (owner ▸ isId.ne_nil)
    exact get_setAll_of_kind (by simp [Command.kinds,
      deal]) other
  | closeDealOrder covers present unclosed owner locked transferPresent order registrant
      unprocessed loanPresent startRead maturityRead maturityNonzero principalRead interestRead
      repaidRead enough =>
    obtain ⟨transfer, _⟩ := kept.consumed isId transferPresent order present registrant
    have deal := kept.deal_of_owner present (owner ▸ isId.ne_nil)
    exact get_setAll_of_kind (by simp [Command.kinds,
      transfer, deal]) other
  | exempt covers present unclosed transferPresent order unprocessed sourcePresent owner =>
    obtain ⟨transfer, payable⟩ := kept.exempted transferPresent order present sourcePresent
    refine get_setAll_of_kind ?_ other
    rcases payable with deal | deal
    · simp [Command.kinds, transfer, deal]
    · simp [Command.kinds, transfer, deal]
  | addRepaymentOrder covers amountRead fresh fundraiser completed unclosed investor blockchain
      network value =>
    exact get_setAll_of_kind (by simp [Command.kinds]) other
  | completeRepaymentOrder covers present targetPresent owner dealPresent unlocked =>
    have repayment := kept.repayment_of_deal present targetPresent dealPresent
    have content : RepaymentContent sha _ (repaymentAt state _) := kept.content present repayment
    refine get_setAll_of_kind ?_ other
    rcases content.deal with deal | deal
    · simp [Command.kinds, repayment, deal]
    · simp [Command.kinds, repayment, deal]
  | closeRepaymentOrder covers present owner transferPresent order amount registrant unprocessed
      dealPresent sourcePresent locked =>
    obtain ⟨transfer, payable⟩ := kept.consumed isId transferPresent order present registrant
    have repayment := kept.repayment_of_collector present payable (owner ▸ isId)
    have content : RepaymentContent sha _ (repaymentAt state _) := kept.content present repayment
    refine get_setAll_of_kind ?_ other
    rcases content.deal with deal | deal
    · simp [Command.kinds, transfer, repayment, deal]
    · simp [Command.kinds, transfer, repayment, deal]
  | collectCoins numeral fresh verified credited =>
    exact get_setAll_of_kind (by simp [Command.kinds]) other
  | housekeeping swept =>
    induction swept with
    | refl => rfl
    | tail _ step ih => rw [step.frame lists other, ih]

end Frames

/-! ## What housekeeping deletes -/

/-- When `Housekeeping` deletes a listed record of a kind. -/
def Due (env : Env) (blockIdx : Int) (value : Text) : Kind → Prop
  | .askOrder =>
    Expired (Order.parseFromString value).expiration (Order.parseFromString value).block blockIdx
  | .bidOrder =>
    Expired (Order.parseFromString value).expiration (Order.parseFromString value).block blockIdx
  | .offer =>
    Expired (Offer.parseFromString value).expiration (Offer.parseFromString value).block blockIdx
  | .dealOrder =>
    blockIdx < env.head - confirmationCount ∧
      Expired (DealOrder.parseFromString value).expiration
        (DealOrder.parseFromString value).block blockIdx ∧
      (DealOrder.parseFromString value).loanTransfer = []
  | .repaymentOrder =>
    Expired (RepaymentOrder.parseFromString value).expiration
        (RepaymentOrder.parseFromString value).block blockIdx ∧
      (RepaymentOrder.parseFromString value).previousOwner = []
  | .fee => ∃ start, cppInt (Fee.parseFromString value).block = some start ∧
      yearOfBlocks < blockIdx - start
  | .wallet => False
  | .addr => False
  | .transfer => False
  | .erc20 => False
  | .processedBlock => False

/-! ## Deal orders -/

/-- The deal order `AddDealOrder` makes of an offer. -/
def madeDeal (env : Env) (signer : Text) (state : State) (offerId : Text) (expiration : UInt64) :
    DealOrder where
  blockchain := (offerAt state offerId).blockchain
  srcAddress := (orderAt state (offerAt state offerId).askOrder).address
  dstAddress := (orderAt state (offerAt state offerId).bidOrder).address
  amount := (orderAt state (offerAt state offerId).bidOrder).amount
  interest := (orderAt state (offerAt state offerId).bidOrder).interest
  maturity := (orderAt state (offerAt state offerId).bidOrder).maturity
  fee := (orderAt state (offerAt state offerId).bidOrder).fee
  expiration := expiration
  block := toText env.head
  sighash := signer

/-- How a command changes a deal order: the record after it. -/
inductive DealChange (sha : Sha512) (env : Env) (signer : Text) (state : State) (key : Text) :
    Command → Text → Prop
  /-- The deal is made of an offer. -/
  | created {offerId : Text} {expiration : UInt64} (made : key = sha.makeAddress .dealOrder offerId) :
      DealChange sha env signer state key (.addDealOrder offerId expiration)
        (madeDeal env signer state offerId expiration).serializeToString
  /-- The loan is paid out. -/
  | completed {transferId : Text} :
      DealChange sha env signer state key (.completeDealOrder key transferId)
        { dealAt state key with
          loanTransfer := transferId, block := toText env.head }.serializeToString
  /-- The fundraiser locks the deal. -/
  | locked : DealChange sha env signer state key (.lockDealOrder key)
      { dealAt state key with lock := signer }.serializeToString
  /-- The fundraiser closes the deal. -/
  | closed {transferId : Text} :
      DealChange sha env signer state key (.closeDealOrder key transferId)
        { dealAt state key with repaymentTransfer := transferId }.serializeToString
  /-- The investor closes the deal. -/
  | exempted {transferId : Text} :
      DealChange sha env signer state key (.exempt key transferId)
        { dealAt state key with repaymentTransfer := transferId }.serializeToString
  /-- A repayment order for the deal is accepted. -/
  | accepted {repaymentOrderId : Text} (deal : (repaymentAt state repaymentOrderId).deal = key) :
      DealChange sha env signer state key (.completeRepaymentOrder repaymentOrderId)
        { dealAt state key with lock := signer }.serializeToString
  /-- The deal is sold by a repayment order. -/
  | sold {repaymentOrderId transferId : Text}
      (deal : (repaymentAt state repaymentOrderId).deal = key) :
      DealChange sha env signer state key (.closeRepaymentOrder repaymentOrderId transferId)
        { dealAt state key with
          srcAddress := (repaymentAt state repaymentOrderId).srcAddress,
          lock := [] }.serializeToString
  /-- The deal expires. -/
  | expired {blockIdx : Int} {value : Text} (listed : Listed env (sha.space .dealOrder) key value)
      (due : Due env blockIdx value .dealOrder) :
      DealChange sha env signer state key (.housekeeping blockIdx) []

/-! ## Transfers -/

/-- The transfer a command consumes. -/
def Command.consumes : Command → Option Text
  | .completeDealOrder _ transferId => some transferId
  | .closeDealOrder _ transferId => some transferId
  | .exempt _ transferId => some transferId
  | .closeRepaymentOrder _ transferId => some transferId
  | _ => none

/-- How a command changes a transfer: the record after it. -/
inductive TransferChange (sha : Sha512) (env : Env) (signer : Text) (state : State) (key : Text) :
    Command → Text → Prop
  /-- The transfer is registered. -/
  | registered {gain : Int} {orderId blockchainTxId source target principal amount : Text}
      (fresh : state.get key = []) (order : state.get orderId ≠ [])
      (pays : Pays sha state orderId gain source target principal)
      (made : key = sha.makeAddress .transfer ((addressAt state source).blockchain ++
        blockchainTxId ++ (addressAt state source).network)) :
      TransferChange sha env signer state key (.registerTransfer gain orderId blockchainTxId)
        { blockchain := (addressAt state source).blockchain, srcAddress := source,
          dstAddress := target, order := orderId, amount := amount, tx := blockchainTxId,
          block := toText env.head, sighash := signer : Transfer }.serializeToString
  /-- The transfer is consumed. -/
  | consumed {command : Command} (present : state.get key ≠ [])
      (consumes : command.consumes = some key)
      (unprocessed : (transferAt state key).processed = false) :
      TransferChange sha env signer state key command
        { transferAt state key with processed := true }.serializeToString

/-! ## Repayment orders -/

/-- How a command changes a repayment order: the record after it. -/
inductive RepaymentChange (sha : Sha512) (env : Env) (signer : Text) (state : State)
    (key : Text) : Command → Text → Prop
  /-- The order is placed. -/
  | created {dealOrderId addressId amount : Text} {expiration : UInt64}
      (made : key = sha.makeAddress .repaymentOrder env.guid) :
      RepaymentChange sha env signer state key
        (.addRepaymentOrder dealOrderId addressId amount expiration)
        { blockchain := (addressAt state (dealAt state dealOrderId).srcAddress).blockchain,
          srcAddress := addressId, dstAddress := (dealAt state dealOrderId).srcAddress,
          amount := amount, expiration := expiration, block := toText env.head,
          deal := dealOrderId, sighash := signer : RepaymentOrder }.serializeToString
  /-- The order is accepted. -/
  | accepted : RepaymentChange sha env signer state key (.completeRepaymentOrder key)
      { repaymentAt state key with previousOwner := signer }.serializeToString
  /-- The loan is taken over. -/
  | sold {transferId : Text} :
      RepaymentChange sha env signer state key (.closeRepaymentOrder key transferId)
        { repaymentAt state key with transfer := transferId }.serializeToString
  /-- The order is taken for a deal order, and another investor, repayment or lock written. -/
  | mistaken {command : Command} {deal : DealOrder} (present : state.get key ≠ [])
      (changed : deal = { dealAt state key with
        srcAddress := deal.srcAddress, repaymentTransfer := deal.repaymentTransfer,
        lock := deal.lock })
      (source : deal.srcAddress = (repaymentAt state key).srcAddress ∨
        ∃ other, state.get other ≠ [] ∧ sha.kindOf other = some .repaymentOrder ∧
          deal.srcAddress = (repaymentAt state other).srcAddress) :
      RepaymentChange sha env signer state key command deal.serializeToString
  /-- The order expires. -/
  | expired {blockIdx : Int} {value : Text}
      (listed : Listed env (sha.space .repaymentOrder) key value)
      (due : Due env blockIdx value .repaymentOrder) :
      RepaymentChange sha env signer state key (.housekeeping blockIdx) []

/-! ## Addresses, orders and offers -/

/-- How a command changes an address. -/
inductive AddressChange (sha : Sha512) (signer : Text) (state : State) (key : Text) :
    Command → Text → Prop
  /-- The address is registered. -/
  | registered {blockchain address network : Text} (fresh : state.get key = []) :
      AddressChange sha signer state key (.registerAddress blockchain address network)
        { blockchain := blockchain, value := address, network := network,
          sighash := signer : Address }.serializeToString

/-- How a command changes an ask or a bid order. -/
inductive OrderChange (sha : Sha512) (env : Env) (signer : Text) (state : State) (key : Text) :
    Command → Text → Prop
  /-- The order is placed. -/
  | created {side : Side} {addressId amount interest maturity fee : Text} {expiration : UInt64}
      (made : key = sha.makeAddress side.kind env.guid) (present : state.get addressId ≠ [])
      (owner : (addressAt state addressId).sighash = signer) :
      OrderChange sha env signer state key
        (.addOrder side addressId amount interest maturity fee expiration)
        { blockchain := (addressAt state addressId).blockchain, address := addressId,
          amount := amount, interest := interest, maturity := maturity, fee := fee,
          expiration := expiration, block := toText env.head,
          sighash := signer : Order }.serializeToString
  /-- The order is deleted. -/
  | deleted {command : Command} : OrderChange sha env signer state key command []

/-- How a command changes an offer. -/
inductive OfferChange (sha : Sha512) (env : Env) (signer : Text) (state : State) (key : Text) :
    Command → Text → Prop
  /-- The offer is made. -/
  | created {askOrderId bidOrderId : Text} {expiration : UInt64}
      (made : key = sha.makeAddress .offer (askOrderId ++ bidOrderId))
      (askPresent : state.get askOrderId ≠ []) (bidPresent : state.get bidOrderId ≠ []) :
      OfferChange sha env signer state key (.addOffer askOrderId bidOrderId expiration)
        { blockchain := (addressAt state (orderAt state askOrderId).address).blockchain,
          askOrder := askOrderId, bidOrder := bidOrderId, expiration := expiration,
          block := toText env.head, sighash := signer : Offer }.serializeToString
  /-- The offer is deleted. -/
  | deleted {command : Command} : OfferChange sha env signer state key command []

/-- Whether a command pays the transaction fee. -/
def Command.isCharged : Command → Bool
  | .collectCoins .. => false
  | .housekeeping .. => false
  | _ => true

section Changes

variable {sha : Sha512} {env : Env} {signer : Text} {state after : State} {command : Command}
  {key : Text}

/-- Writing keys of other kinds leaves a record of a known kind. -/
theorem get_setAll_apart {kind : Kind} {values : List (Text × Text)}
    (found : sha.kindOf key = some kind)
    (apart : ∀ entry ∈ values, sha.kindOf entry.1 ≠ some kind) :
    (state.setAll values).get key = state.get key := by
  apply Store.get_setAll_of_notMem
  intro listed
  obtain ⟨entry, member, rfl⟩ := List.mem_map.mp listed
  exact apart entry member found

/-- When only one key written is of the kind of a record, the record is the one written there
or is left. -/
theorem get_setAll_at {kind : Kind} (before : List (Text × Text)) {values : List (Text × Text)}
    {target data : Text} (found : sha.kindOf key = some kind)
    (skipped : ∀ entry ∈ before, sha.kindOf entry.1 ≠ some kind)
    (apart : ∀ entry ∈ values, sha.kindOf entry.1 ≠ some kind) :
    (state.setAll (before ++ (target, data) :: values)).get key =
      if key = target then data else state.get key := by
  rw [Store.setAll_append, Store.setAll_cons, get_setAll_apart found apart, Store.get_set,
    get_setAll_apart found skipped]

/-- When only one key written is of the kind of a record, the record is left or changed the way
the written one is. -/
theorem get_setAll_one {kind : Kind} (before : List (Text × Text)) {values : List (Text × Text)}
    {target data : Text} {change : Text → Prop} (found : sha.kindOf key = some kind)
    (skipped : ∀ entry ∈ before, sha.kindOf entry.1 ≠ some kind)
    (apart : ∀ entry ∈ values, sha.kindOf entry.1 ≠ some kind)
    (changed : key = target → change data) :
    (state.setAll (before ++ (target, data) :: values)).get key = state.get key ∨
      change ((state.setAll (before ++ (target, data) :: values)).get key) := by
  rw [get_setAll_at before found skipped apart]
  by_cases same : key = target
  · rw [if_pos same]
    exact .inr (changed same)
  · rw [if_neg same]
    exact .inl rfl

/-- A write of `Housekeeping` leaves a record or deletes one that is due. -/
theorem Swept.record {blockIdx : Int} {kind : Kind} (lists : env.ListsKept sha)
    (found : sha.kindOf key = some kind) (noWallet : kind ≠ .wallet)
    (noMarker : kind ≠ .processedBlock) (swept : Swept sha env blockIdx state after) :
    after.get key = state.get key ∨ after.get key = [] ∧
      ∃ value, Listed env (sha.space kind) key value ∧ Due env blockIdx value kind := by
  have erased {before : State} {other value : Text} {kind' : Kind}
      (listed : Listed env (sha.space kind') other value) (due : Due env blockIdx value kind')
      (same : before.get key = state.get key) :
      Store.get (before.erase other) key = state.get key ∨
        Store.get (before.erase other) key = [] ∧
          ∃ value, Listed env (sha.space kind) key value ∧ Due env blockIdx value kind := by
    rw [Store.get_erase]
    by_cases equal : key = other
    · subst equal
      have kinds := (lists _ _ _ listed).1
      rw [found, Option.some.injEq] at kinds
      subst kinds
      rw [if_pos rfl]
      exact .inr ⟨rfl, value, listed, due⟩
    · rw [if_neg equal]
      exact .inl same
  have wallet {owner data : Text} : (state.set (sha.walletId owner) data).get key =
      state.get key := by
    apply Store.get_set_ne
    apply sha.ne_of_kindOf_ne
    rw [found, sha.kindOf_walletId, ne_eq, Option.some.injEq]
    exact noWallet
  cases swept with
  | order listed expired =>
    rename_i side _ _
    refine erased listed ?_ rfl
    cases side <;> exact expired
  | offer listed expired => exact erased listed expired rfl
  | deal listed settled expired pending covers read =>
    exact erased listed ⟨settled, expired, pending⟩ wallet
  | repayment listed expired open' => exact erased listed ⟨expired, open'⟩ rfl
  | fee listed read due covers =>
    refine erased listed ⟨_, read, due⟩ (Store.get_set_ne _ (sha.ne_of_kindOf_ne ?_) _)
    rw [found, sha.kindOf_line (walletEntry_head _ _)]
    exact Option.some_ne_none _
  | award positive printed credited => exact .inl wallet
  | mark height =>
    left
    apply Store.get_set_ne
    apply sha.ne_of_kindOf_ne
    rw [found, sha.kindOf_processedBlockIdx, ne_eq, Option.some.injEq]
    exact noMarker

/-- `Housekeeping` leaves a record or deletes one that is due. -/
theorem swept_record {blockIdx : Int} {kind : Kind} (lists : env.ListsKept sha)
    (found : sha.kindOf key = some kind) (noWallet : kind ≠ .wallet)
    (noMarker : kind ≠ .processedBlock)
    (swept : Relation.ReflTransGen (Swept sha env blockIdx) state after) :
    after.get key = state.get key ∨ after.get key = [] ∧
      ∃ value, Listed env (sha.space kind) key value ∧ Due env blockIdx value kind := by
  induction swept with
  | refl => exact .inl rfl
  | tail _ step ih =>
    rcases step.record lists found noWallet noMarker with same | gone
    · rw [same]
      exact ih
    · exact .inr gone

/-- The commands change a deal order in these ways only. -/
theorem Executed.deal (around : Surroundings sha env signer state command)
    (executed : Executed sha env signer state command after)
    (found : sha.kindOf key = some .dealOrder) :
    after.get key = state.get key ∨
      DealChange sha env signer state key command (after.get key) := by
  have frame (unwritten : some .dealOrder ∉ command.kinds) : after.get key = state.get key :=
    executed.frame around (found ▸ unwritten)
  obtain ⟨kept, live, isId, lists, named⟩ := around
  cases executed with
  | addDealOrder fresh present unexpired bidPresent bidOwner askPresent feeRead covers =>
    have offer : OfferContent sha (offerAt state _) := kept.content present named
    rw [get_erase_of_kind sha (by rw [found, named]; decide),
      get_erase_of_kind sha (found ▸ (offer.bid.apart (by decide) (by decide)).symm),
      get_erase_of_kind sha (found ▸ (offer.ask.apart (by decide) (by decide)).symm)]
    exact get_setAll_one [] found (by simp) (by simp) .created
  | completeDealOrder present pending sourcePresent owner unexpired transferPresent order amount
      registrant unprocessed feeRead covers =>
    obtain ⟨transfer, _⟩ := kept.consumed isId transferPresent order present registrant
    exact get_setAll_one [] found (by simp) (by simp [transfer]) fun same => same ▸ .completed
  | lockDealOrder covers present unlocked completed owner =>
    exact get_setAll_one [] found (by simp) (by simp) fun same => same ▸ .locked
  | closeDealOrder covers present unclosed owner locked transferPresent order registrant
      unprocessed loanPresent startRead maturityRead maturityNonzero principalRead interestRead
      repaidRead enough =>
    obtain ⟨transfer, _⟩ := kept.consumed isId transferPresent order present registrant
    exact get_setAll_one [] found (by simp) (by simp [transfer]) fun same => same ▸ .closed
  | exempt covers present unclosed transferPresent order unprocessed sourcePresent owner =>
    obtain ⟨transfer, _⟩ := kept.exempted transferPresent order present sourcePresent
    exact get_setAll_one [] found (by simp) (by simp [transfer]) fun same => same ▸ .exempted
  | completeRepaymentOrder covers present targetPresent owner dealPresent unlocked =>
    rename_i repaymentOrderId balance
    have repayment := kept.repayment_of_deal present targetPresent dealPresent
    exact get_setAll_one [_] found (by simp [repayment]) (by simp) fun same => by
      subst same
      exact .accepted rfl
  | closeRepaymentOrder covers present owner transferPresent order amount registrant unprocessed
      dealPresent sourcePresent locked =>
    rename_i repaymentOrderId transferId balance
    obtain ⟨transfer, payable⟩ := kept.consumed isId transferPresent order present registrant
    have repayment := kept.repayment_of_collector present payable (owner ▸ isId)
    exact get_setAll_one [_] found (by simp [repayment]) (by simp [transfer]) fun same => by
      subst same
      exact .sold rfl
  | housekeeping swept =>
    rcases swept_record lists found (by decide) (by decide) swept with
      same | ⟨gone, value, listed, due⟩
    · exact .inl same
    · rw [gone]
      exact .inr (.expired listed due)
  | _ => exact .inl (frame (by simp [Command.kinds]))

/-- The commands change a transfer in these ways only. -/
theorem Executed.transfer (around : Surroundings sha env signer state command)
    (executed : Executed sha env signer state command after)
    (found : sha.kindOf key = some .transfer) :
    after.get key = state.get key ∨
      TransferChange sha env signer state key command (after.get key) := by
  have frame (unwritten : some .transfer ∉ command.kinds) : after.get key = state.get key :=
    executed.frame around (found ▸ unwritten)
  obtain ⟨kept, live, isId, lists, named⟩ := around
  cases executed with
  | registerTransfer covers order pays sourcePresent targetPresent owner blockchain network fresh
      paid =>
    refine get_setAll_one [] found (by simp) (by simp) fun same => ?_
    subst same
    exact .registered fresh order pays rfl
  | completeDealOrder present pending sourcePresent owner unexpired transferPresent order amount
      registrant unprocessed feeRead covers =>
    have payable := (kept.consumed isId transferPresent order present registrant).2
    have deal := kept.deal_of_pending present payable pending
    refine get_setAll_one [_] found (by simp [deal]) (by simp) fun same => ?_
    subst same
    exact .consumed transferPresent rfl unprocessed
  | closeDealOrder covers present unclosed owner locked transferPresent order registrant
      unprocessed loanPresent startRead maturityRead maturityNonzero principalRead interestRead
      repaidRead enough =>
    have deal := kept.deal_of_owner present (owner ▸ isId.ne_nil)
    refine get_setAll_one [_] found (by simp [deal]) (by simp) fun same => ?_
    subst same
    exact .consumed transferPresent rfl unprocessed
  | exempt covers present unclosed transferPresent order unprocessed sourcePresent owner =>
    have payable := (kept.exempted transferPresent order present sourcePresent).2
    refine get_setAll_one [_] found (by simp [payable.apart]) (by simp) fun same => ?_
    subst same
    exact .consumed transferPresent rfl unprocessed
  | closeRepaymentOrder covers present owner transferPresent order amount registrant unprocessed
      dealPresent sourcePresent locked =>
    have payable := (kept.consumed isId transferPresent order present registrant).2
    have repayment := kept.repayment_of_collector present payable (owner ▸ isId)
    have content : RepaymentContent sha _ (repaymentAt state _) := kept.content present repayment
    refine get_setAll_one [_, _] found (by simp [repayment, content.deal.apart]) (by simp)
      fun same => ?_
    subst same
    exact .consumed transferPresent rfl unprocessed
  | housekeeping swept =>
    rcases swept_record lists found (by decide) (by decide) swept with same | ⟨_, _, _, due⟩
    · exact .inl same
    · exact due.elim
  | _ => exact .inl (frame (by simp [Command.kinds]))

/-- The commands change a repayment order in these ways only. -/
theorem Executed.repayment (around : Surroundings sha env signer state command)
    (executed : Executed sha env signer state command after)
    (found : sha.kindOf key = some .repaymentOrder) :
    after.get key = state.get key ∨
      RepaymentChange sha env signer state key command (after.get key) := by
  have frame (unwritten : some .repaymentOrder ∉ command.kinds) :
      after.get key = state.get key := executed.frame around (found ▸ unwritten)
  obtain ⟨kept, live, isId, lists, named⟩ := around
  cases executed with
  | exempt covers present unclosed transferPresent order unprocessed sourcePresent owner =>
    obtain ⟨transfer, _⟩ := kept.exempted transferPresent order present sourcePresent
    refine get_setAll_one [] found (by simp) (by simp [transfer]) fun same => ?_
    subst same
    exact .mistaken present rfl (.inl rfl)
  | addRepaymentOrder covers amountRead fresh fundraiser completed unclosed investor blockchain
      network value =>
    exact get_setAll_one [] found (by simp) (by simp) .created
  | completeRepaymentOrder covers present targetPresent owner dealPresent unlocked =>
    rename_i repaymentOrderId balance
    rw [Store.setAll_cons, Store.setAll_cons, get_setAll_apart found (by simp), Store.get_set,
      Store.get_set]
    by_cases deal : key = (repaymentAt state repaymentOrderId).deal
    · subst deal
      rw [if_pos rfl]
      exact .inr (.mistaken dealPresent rfl (.inl rfl))
    · rw [if_neg deal]
      by_cases same : key = repaymentOrderId
      · subst same
        rw [if_pos rfl]
        exact .inr .accepted
      · rw [if_neg same]
        exact .inl rfl
  | closeRepaymentOrder covers present owner transferPresent order amount registrant unprocessed
      dealPresent sourcePresent locked =>
    rename_i repaymentOrderId transferId balance
    obtain ⟨transfer, payable⟩ := kept.consumed isId transferPresent order present registrant
    rw [Store.setAll_cons, Store.setAll_cons, get_setAll_apart found (by simp [transfer]),
      Store.get_set, Store.get_set]
    by_cases deal : key = (repaymentAt state repaymentOrderId).deal
    · subst deal
      rw [if_pos rfl]
      have repayment := kept.repayment_of_collector present payable (owner ▸ isId)
      exact .inr (.mistaken dealPresent rfl (.inr ⟨repaymentOrderId, present, repayment, rfl⟩))
    · rw [if_neg deal]
      by_cases same : key = repaymentOrderId
      · subst same
        rw [if_pos rfl]
        exact .inr .sold
      · rw [if_neg same]
        exact .inl rfl
  | housekeeping swept =>
    rcases swept_record lists found (by decide) (by decide) swept with
      same | ⟨gone, value, listed, due⟩
    · exact .inl same
    · rw [gone]
      exact .inr (.expired listed due)
  | _ => exact .inl (frame (by simp [Command.kinds]))

/-- The commands change an address in this way only. -/
theorem Executed.address (around : Surroundings sha env signer state command)
    (executed : Executed sha env signer state command after)
    (found : sha.kindOf key = some .addr) :
    after.get key = state.get key ∨
      AddressChange sha signer state key command (after.get key) := by
  have frame (unwritten : some .addr ∉ command.kinds) : after.get key = state.get key :=
    executed.frame around (found ▸ unwritten)
  cases executed with
  | registerAddress covers fresh =>
    refine get_setAll_one [] found (by simp) (by simp) fun same => ?_
    subst same
    exact .registered fresh
  | _ => exact .inl (frame (by simp [Command.kinds]))

/-- A registered address stays. -/
theorem Executed.address_present (around : Surroundings sha env signer state command)
    (executed : Executed sha env signer state command after)
    (found : sha.kindOf key = some .addr) (present : state.get key ≠ []) :
    after.get key = state.get key := by
  rcases executed.address around found with same | change
  · exact same
  · generalize after.get key = data at change
    cases change with
    | registered fresh => exact absurd fresh present

/-- The commands change an ask or a bid order in these ways only. -/
theorem Executed.order (around : Surroundings sha env signer state command)
    (executed : Executed sha env signer state command after) (side : Side)
    (found : sha.kindOf key = some side.kind) :
    after.get key = state.get key ∨
      OrderChange sha env signer state key command (after.get key) := by
  have frame (unwritten : some side.kind ∉ command.kinds) : after.get key = state.get key :=
    executed.frame around (found ▸ unwritten)
  obtain ⟨kept, live, isId, lists, named⟩ := around
  cases executed with
  | addOrder covers amountRead interestRead maturityRead feeRead fresh present owner =>
    refine get_setAll_one [] found (by simp) (by cases side <;> simp [Side.kind]) fun same => ?_
    exact .created same present owner
  | addDealOrder fresh present unexpired bidPresent bidOwner askPresent feeRead covers =>
    rename_i offerId expiration balance fee
    have erased {before : State} {other : Text} (same : before.get key = state.get key ∨
        before.get key = []) : Store.get (before.erase other) key = state.get key ∨
          Store.get (before.erase other) key = [] := by
      rw [Store.get_erase]
      split
      · exact .inr rfl
      · exact same
    have deleted {data : Text} (either : data = state.get key ∨ data = []) :
        data = state.get key ∨
          OrderChange sha env signer state key (.addDealOrder offerId expiration) data := by
      rcases either with same | rfl
      · exact .inl same
      · exact .inr .deleted
    exact deleted (erased (erased (erased (.inl
      (get_setAll_apart found (by cases side <;> simp [Side.kind]))))))
  | housekeeping swept =>
    rcases swept_record lists found (by cases side <;> decide) (by cases side <;> decide) swept
      with same | ⟨gone, _⟩
    · exact .inl same
    · rw [gone]
      exact .inr .deleted
  | _ => exact .inl (frame (by cases side <;> simp [Command.kinds, Side.kind]))

/-- The commands change an offer in these ways only. -/
theorem Executed.offer (around : Surroundings sha env signer state command)
    (executed : Executed sha env signer state command after)
    (found : sha.kindOf key = some .offer) :
    after.get key = state.get key ∨
      OfferChange sha env signer state key command (after.get key) := by
  have frame (unwritten : some .offer ∉ command.kinds) : after.get key = state.get key :=
    executed.frame around (found ▸ unwritten)
  obtain ⟨kept, live, isId, lists, named⟩ := around
  cases executed with
  | addOffer covers fresh askPresent askOwner askUnexpired sourcePresent bidPresent bidOwner
      bidUnexpired targetPresent blockchain network amount fee askInterestRead askMaturityRead
      askMaturityNonzero bidInterestRead bidMaturityRead bidMaturityNonzero rate =>
    rename_i askOrderId bidOrderId _ _ _ _ _ _
    by_cases same : key = sha.makeAddress .offer (askOrderId ++ bidOrderId)
    · subst same
      rw [Store.setAll_cons, Store.setAll_cons, get_setAll_apart found (by simp),
        Store.get_set_self]
      exact .inr (.created rfl askPresent bidPresent)
    · rw [Store.setAll_cons, Store.setAll_cons, get_setAll_apart found (by simp),
        Store.get_set_ne _ same, Store.get_set_ne _ same]
      exact .inl rfl
  | addDealOrder fresh present unexpired bidPresent bidOwner askPresent feeRead covers =>
    rw [Store.get_erase]
    split
    · exact .inr .deleted
    · have offer : OfferContent sha (offerAt state _) := kept.content present named
      rw [get_erase_of_kind sha (found ▸ (offer.bid.apart (by decide) (by decide)).symm),
        get_erase_of_kind sha (found ▸ (offer.ask.apart (by decide) (by decide)).symm)]
      exact .inl (get_setAll_apart found (by simp))
  | housekeeping swept =>
    rcases swept_record lists found (by decide) (by decide) swept with same | ⟨gone, _⟩
    · exact .inl same
    · rw [gone]
      exact .inr .deleted
  | _ => exact .inl (frame (by simp [Command.kinds]))

/-- A charged command writes its fee record and no other. -/
theorem Executed.fee_paid (around : Surroundings sha env signer state command)
    (executed : Executed sha env signer state command after)
    (charged : command.isCharged = true) (found : sha.kindOf key = some .fee) :
    after.get key =
      if key = env.feeId sha then (env.feeEntry sha signer).2 else state.get key := by
  obtain ⟨kept, live, isId, lists, named⟩ := around
  cases executed with
  | sendFunds numeral receiver covers credited =>
    exact get_setAll_at [_] found (by simp) (by simp)
  | registerAddress covers fresh =>
    exact get_setAll_at [_, _] found (by simp) (by simp)
  | registerTransfer covers order pays sourcePresent targetPresent owner blockchain network fresh
      paid =>
    exact get_setAll_at [_] found (by simp) (by simp)
  | addOrder covers amountRead interestRead maturityRead feeRead fresh present owner =>
    rename_i side _ _ _ _ _ _ _ _ _ _ _
    exact get_setAll_at [_] found (by cases side <;> simp [Side.kind]) (by simp)
  | addOffer covers fresh askPresent askOwner askUnexpired sourcePresent bidPresent bidOwner
      bidUnexpired targetPresent blockchain network amount fee askInterestRead askMaturityRead
      askMaturityNonzero bidInterestRead bidMaturityRead bidMaturityNonzero rate =>
    exact get_setAll_at [_, _] found (by simp) (by simp)
  | addDealOrder fresh present unexpired bidPresent bidOwner askPresent feeRead covers =>
    have offer : OfferContent sha (offerAt state _) := kept.content present named
    rw [get_erase_of_kind sha (by rw [found, named]; decide),
      get_erase_of_kind sha (found ▸ (offer.bid.apart (by decide) (by decide)).symm),
      get_erase_of_kind sha (found ▸ (offer.ask.apart (by decide) (by decide)).symm)]
    exact get_setAll_at [_] found (by simp) (by simp)
  | completeDealOrder present pending sourcePresent owner unexpired transferPresent order amount
      registrant unprocessed feeRead covers =>
    obtain ⟨transfer, payable⟩ := kept.consumed isId transferPresent order present registrant
    have deal := kept.deal_of_pending present payable pending
    exact get_setAll_at [_, _] found (by simp [deal, transfer]) (by simp)
  | lockDealOrder covers present unlocked completed owner =>
    have deal := kept.deal_of_owner present (owner ▸ isId.ne_nil)
    exact get_setAll_at [_] found (by simp [deal]) (by simp)
  | closeDealOrder covers present unclosed owner locked transferPresent order registrant
      unprocessed loanPresent startRead maturityRead maturityNonzero principalRead interestRead
      repaidRead enough =>
    obtain ⟨transfer, _⟩ := kept.consumed isId transferPresent order present registrant
    have deal := kept.deal_of_owner present (owner ▸ isId.ne_nil)
    exact get_setAll_at [_, _] found (by simp [deal, transfer]) (by simp)
  | exempt covers present unclosed transferPresent order unprocessed sourcePresent owner =>
    obtain ⟨transfer, payable⟩ := kept.exempted transferPresent order present sourcePresent
    exact get_setAll_at [_, _] found (by simp [payable.apart, transfer]) (by simp)
  | addRepaymentOrder covers amountRead fresh fundraiser completed unclosed investor blockchain
      network value =>
    exact get_setAll_at [_] found (by simp) (by simp)
  | completeRepaymentOrder covers present targetPresent owner dealPresent unlocked =>
    have repayment := kept.repayment_of_deal present targetPresent dealPresent
    have content : RepaymentContent sha _ (repaymentAt state _) := kept.content present repayment
    exact get_setAll_at [_, _] found (by simp [repayment, content.deal.apart]) (by simp)
     
  | closeRepaymentOrder covers present owner transferPresent order amount registrant unprocessed
      dealPresent sourcePresent locked =>
    obtain ⟨transfer, payable⟩ := kept.consumed isId transferPresent order present registrant
    have repayment := kept.repayment_of_collector present payable (owner ▸ isId)
    have content : RepaymentContent sha _ (repaymentAt state _) := kept.content present repayment
    exact get_setAll_at [_, _, _] found (by simp [repayment, content.deal.apart, transfer])
      (by simp)
  | collectCoins numeral fresh verified credited => cases charged
  | housekeeping swept => cases charged

/-- A command that is not charged leaves a fee record, or deletes it when due. -/
theorem Executed.fee_refunded (around : Surroundings sha env signer state command)
    (executed : Executed sha env signer state command after)
    (uncharged : command.isCharged = false) (found : sha.kindOf key = some .fee) :
    after.get key = state.get key ∨
      after.get key = [] ∧ ∃ blockIdx value, command = .housekeeping blockIdx ∧
        Listed env (sha.space .fee) key value ∧ Due env blockIdx value .fee := by
  cases executed with
  | collectCoins numeral fresh verified credited =>
    exact .inl (get_setAll_apart found (by simp))
  | housekeeping swept =>
    rcases swept_record around.lists found (by decide) (by decide) swept with
      same | ⟨gone, value, listed, due⟩
    · exact .inl same
    · exact .inr ⟨gone, _, value, rfl, listed, due⟩
  | _ => cases uncharged

end Changes

end Creditcoin
