import Creditcoin.Shapes

/-!
# Commands keep the shapes

Every record a command writes has the shape of its key, as long as `AddDealOrder` names an
offer. `AddDealOrder` is the one command that takes the kind of a record on trust and deletes
the keys it reads there; every other command has checks that only records of the right kind
pass. So in a run whose `AddDealOrder`s name offers every record of every state is what its
key says.
-/

namespace Creditcoin

open Lib Lib.Wire

/-- The one kind a command does not find out by itself. -/
def Command.NamesOffer (sha : Sha512) : Command → Prop
  | .addDealOrder offerId _ => sha.kindOf offerId = some .offer
  | _ => True

/-- The offer of a step is one. -/
def NamesOffers (sha : Sha512) (taken : ChainStep) : Prop :=
  ∀ env signer command, Succeeds sha taken env signer command → command.NamesOffer sha

/-! ## Written records -/

section Written

variable {sha : Sha512} {env : Env} {state : State} {signer key : Text} {kind : Kind}
  {schema : Schema} {slots : List Slot}

/-- A new message of a kind has the shape of a key of the kind. -/
theorem shape_new (found : sha.kindOf key = some kind) (length : kind ≠ .wallet → key.length = 70)
    (fits : schema.Fits slots) (inside : ∀ number ∈ schema.texts, number ∈ fieldsOf (some kind))
    (content : Content sha key (schema.write slots schema.noUnknown) (some kind)) :
    Shape sha key (schema.write slots schema.noUnknown) :=
  ⟨.inl ⟨kind, found, length⟩, found ▸ fillsOnly_new fits inside, found ▸ content⟩

/-- A message that was read from a key and is written back has the shape of the key. -/
theorem Kept.shape_rewritten (kept : Kept sha state) (present : state.get key ≠ [])
    (found : sha.kindOf key = some kind) (fits : schema.Fits slots)
    (inside : ∀ number ∈ schema.texts, number ∈ fieldsOf (some kind))
    (content : Content sha key (schema.write slots (schema.unknown (state.get key))) (some kind)) :
    Shape sha key (schema.write slots (schema.unknown (state.get key))) :=
  ⟨(kept.shape present).isKey,
    fillsOnly_rewritten fits (kept.shape present).fields (found ▸ inside), found ▸ content⟩

/-- A new address has the shape of its key. -/
theorem shape_newAddress {address : Address} (new : address.unknown = addressSchema.noUnknown)
    (content : sha.IsId address.sighash) :
    Shape sha (sha.makeAddress .addr key) address.serializeToString := by
  have read := Address.parse_serialize address
  rw [Address.serializeToString, new] at read ⊢
  refine shape_new (sha.kindOf_makeAddress .addr key)
    (fun _ => sha.makeAddress_length .addr key) address.fits (by decide) ?_
  rw [Content, read]
  exact content

/-- A new transfer has the shape of its key. -/
theorem shape_newTransfer {transfer : Transfer} (new : transfer.unknown = transferSchema.noUnknown)
    (content : TransferContent sha transfer) :
    Shape sha (sha.makeAddress .transfer key) transfer.serializeToString := by
  have read := Transfer.parse_serialize transfer
  rw [Transfer.serializeToString, new] at read ⊢
  refine shape_new (sha.kindOf_makeAddress .transfer key)
    (fun _ => sha.makeAddress_length .transfer key) transfer.fits (by decide) ?_
  rw [Content, read]
  exact content

/-- A new offer has the shape of its key. -/
theorem shape_newOffer {offer : Offer} (new : offer.unknown = offerSchema.noUnknown)
    (content : OfferContent sha offer) :
    Shape sha (sha.makeAddress .offer key) offer.serializeToString := by
  have read := Offer.parse_serialize offer
  rw [Offer.serializeToString, new] at read ⊢
  refine shape_new (sha.kindOf_makeAddress .offer key)
    (fun _ => sha.makeAddress_length .offer key) offer.fits (by decide) ?_
  rw [Content, read]
  exact content

/-- A new deal order has the shape of its key. -/
theorem shape_newDealOrder {deal : DealOrder} (new : deal.unknown = dealOrderSchema.noUnknown)
    (content : DealContent sha deal) :
    Shape sha (sha.makeAddress .dealOrder key) deal.serializeToString := by
  have read := DealOrder.parse_serialize deal
  rw [DealOrder.serializeToString, new] at read ⊢
  refine shape_new (sha.kindOf_makeAddress .dealOrder key)
    (fun _ => sha.makeAddress_length .dealOrder key) deal.fits (by decide) ?_
  rw [Content, read]
  exact content

/-- A new ask or bid order has the shape of its key. -/
theorem shape_newOrder {side : Side} {order : Order}
    (new : order.unknown = orderSchema.noUnknown) (content : OrderContent sha order) :
    Shape sha (sha.makeAddress side.kind key) order.serializeToString := by
  have read := Order.parse_serialize order
  rw [Order.serializeToString, new] at read ⊢
  refine shape_new (sha.kindOf_makeAddress side.kind key)
    (fun _ => sha.makeAddress_length side.kind key) order.fits ?_ ?_
  · cases side <;> decide
  · cases side <;> (rw [Side.kind, Content, read]; exact content)

/-- A new repayment order has the shape of its key. -/
theorem shape_newRepaymentOrder {order : RepaymentOrder}
    (new : order.unknown = repaymentOrderSchema.noUnknown)
    (content : RepaymentContent sha (sha.makeAddress .repaymentOrder key) order) :
    Shape sha (sha.makeAddress .repaymentOrder key) order.serializeToString := by
  have read := RepaymentOrder.parse_serialize order
  rw [RepaymentOrder.serializeToString, new] at read ⊢
  refine shape_new (sha.kindOf_makeAddress .repaymentOrder key)
    (fun _ => sha.makeAddress_length .repaymentOrder key) order.fits (by decide) ?_
  rw [Content, read]
  exact content

/-- A numeral may stand under a key that is no record's. -/
theorem shape_numeral {data : Text} (found : sha.kindOf key = some kind) (length : key.length = 70)
    (fields : fieldsOf (some kind) = [6, 8, 12]) (content : Content sha key data (some kind))
    (numerals : ∀ c ∈ data, Text.isNumeralChar c = true) : Shape sha key data := by
  refine ⟨.inl ⟨kind, found, fun _ => length⟩, ?_, found ▸ content⟩
  rw [found, fields]
  exact fillsOnly_of_numerals numerals

/-- A wallet raised or lowered to an amount keeps its shape. -/
theorem Kept.walletEntry (kept : Kept sha state) {owner : Text} {balance : Int}
    (present : state.get (sha.walletId owner) ≠ []) (nonneg : 0 ≤ balance) :
    Shape sha (walletEntry sha state owner balance).1 (walletEntry sha state owner balance).2 := by
  have read := Wallet.parse_serialize { walletOf sha state owner with amount := toText balance }
  refine kept.shape_rewritten present (sha.kindOf_walletId owner)
    (Wallet.fits { walletOf sha state owner with amount := toText balance }) (by decide) ?_
  change HasAmount (Wallet.parseFromString (Wallet.serializeToString _)).amount
  rw [read]
  exact hasAmount_toText nonneg

/-- A serialized wallet, taken for a key, starts with a line feed. -/
theorem walletEntry_head (owner : Text) (balance : Int) :
    (walletEntry sha state owner balance).2.head? = some '\n' :=
  Wallet.serialize_head (toText_ne_nil _)

/-- A credited wallet has the shape of its key. -/
theorem Kept.credited (kept : Kept sha state) {owner amountString : Text} {amount : Int}
    {wallet : Wallet} (numeral : IsAmount amountString amount)
    (credited : Credited (state.get (sha.walletId owner)) amountString amount wallet) :
    Shape sha (sha.walletId owner) wallet.serializeToString := by
  cases credited with
  | created missing =>
    refine shape_new (sha.kindOf_walletId owner) (fun other => absurd rfl other)
      (Wallet.fits { amount := amountString }) (by decide) ?_
    change HasAmount (Wallet.parseFromString (Wallet.serializeToString _)).amount
    rw [Wallet.parse_serialize]
    exact ⟨amount, numeral⟩
  | raised present read nonneg =>
    rename_i balance
    have raised : 0 ≤ balance + amount := Int.add_nonneg nonneg numeral.2
    exact kept.walletEntry present raised

/-- A new fee record has the shape of its key. -/
theorem shape_feeEntry (isId : sha.IsId signer) (head : 0 ≤ env.head) :
    Shape sha (env.feeEntry sha signer).1 (env.feeEntry sha signer).2 := by
  refine shape_new (sha.kindOf_makeAddress .fee _) (fun _ => sha.makeAddress_length .fee _)
    (Fee.fits { sighash := signer, block := toText env.head }) (by decide) ?_
  change FeeContent sha (Fee.parseFromString (Fee.serializeToString _))
  rw [Fee.parse_serialize]
  exact ⟨isId, hasAmount_toText head⟩

/-- The entries every charged command ends with keep the shapes. -/
theorem Kept.charged {written : State} (kept : Kept sha written) (isId : sha.IsId signer)
    (head : 0 ≤ env.head) {balance : Int}
    (shape : Shape sha (Creditcoin.walletEntry sha state signer balance).1
      (Creditcoin.walletEntry sha state signer balance).2) :
    Kept sha (written.setAll [env.feeEntry sha signer,
      Creditcoin.walletEntry sha state signer balance]) :=
  (kept.set (shape_feeEntry isId head)).set shape

/-- A consumed transfer keeps its shape. -/
theorem Kept.processed (kept : Kept sha state) {transferId : Text}
    (present : state.get transferId ≠ []) (found : sha.kindOf transferId = some .transfer) :
    Shape sha transferId
      { transferAt state transferId with processed := true }.serializeToString := by
  have content : TransferContent sha (transferAt state transferId) := kept.content present found
  refine kept.shape_rewritten present found
    (Transfer.fits { transferAt state transferId with processed := true }) (by decide) ?_
  change TransferContent sha (Transfer.parseFromString (Transfer.serializeToString _))
  rw [Transfer.parse_serialize]
  exact ⟨content.order, content.block, content.owner⟩

/-- A deal order that is read and written back keeps its shape, whatever its new fields. -/
theorem Kept.rewrittenDeal (kept : Kept sha state) {dealOrderId : Text} {deal : DealOrder}
    (present : state.get dealOrderId ≠ []) (found : sha.kindOf dealOrderId = some .dealOrder)
    (carried : deal.unknown = dealOrderSchema.unknown (state.get dealOrderId))
    (content : DealContent sha deal) : Shape sha dealOrderId deal.serializeToString := by
  rw [DealOrder.serializeToString, carried]
  refine kept.shape_rewritten present found deal.fits (by decide) ?_
  change DealContent sha (DealOrder.parseFromString _)
  rw [← carried]
  change DealContent sha (DealOrder.parseFromString deal.serializeToString)
  rw [DealOrder.parse_serialize]
  exact content

/-- A repayment order that is read and written back keeps its shape, whatever its new fields. -/
theorem Kept.rewrittenRepayment (kept : Kept sha state) {orderId : Text} {order : RepaymentOrder}
    (present : state.get orderId ≠ []) (found : sha.kindOf orderId = some .repaymentOrder)
    (carried : order.unknown = repaymentOrderSchema.unknown (state.get orderId))
    (content : RepaymentContent sha orderId order) :
    Shape sha orderId order.serializeToString := by
  rw [RepaymentOrder.serializeToString, carried]
  refine kept.shape_rewritten present found order.fits (by decide) ?_
  change RepaymentContent sha orderId (RepaymentOrder.parseFromString _)
  rw [← carried]
  change RepaymentContent sha orderId (RepaymentOrder.parseFromString order.serializeToString)
  rw [RepaymentOrder.parse_serialize]
  exact content

/-- A repayment order written back as a deal order, read as a repayment order again. -/
theorem repayment_of_deal_write {data : Text} {deal : DealOrder}
    (carried : deal.unknown = dealOrderSchema.unknown data) :
    RepaymentOrder.parseFromString deal.serializeToString =
      { RepaymentOrder.parseFromString data with
        blockchain := deal.blockchain
        srcAddress := deal.srcAddress
        dstAddress := deal.dstAddress
        amount := deal.amount
        block := deal.maturity
        deal := deal.fee
        transfer := deal.block
        sighash := deal.loanTransfer
        expiration := (RepaymentOrder.parseFromString deal.serializeToString).expiration
        unknown := (RepaymentOrder.parseFromString deal.serializeToString).unknown } := by
  have texts {number : Nat} {value : Text} (member : .text number value ∈ deal.slots) :=
    deal.fits.textAt_write deal.unknown member
  have owner : textAt 8 (decode deal.serializeToString) = textAt 8 (decode data) := by
    rw [DealOrder.serializeToString, carried]
    exact textAt_rewritten deal.fits (by decide)
  simp only [RepaymentOrder.parseFromString, RepaymentOrder.mk.injEq, true_and, and_true]
  exact ⟨texts (by simp [DealOrder.slots]), texts (by simp [DealOrder.slots]),
    texts (by simp [DealOrder.slots]), texts (by simp [DealOrder.slots]),
    texts (by simp [DealOrder.slots]), texts (by simp [DealOrder.slots]), owner,
    texts (by simp [DealOrder.slots]), texts (by simp [DealOrder.slots])⟩

/-- What a deal order does not change when it is written back is what was read. -/
theorem textAt_deal_write {data : Text} {deal : DealOrder}
    (changed : deal = { DealOrder.parseFromString data with
      srcAddress := deal.srcAddress, repaymentTransfer := deal.repaymentTransfer,
      lock := deal.lock }) {number : Nat} (kept : number ∉ [2, 11, 12]) :
    textAt number (decode deal.serializeToString) = textAt number (decode data) := by
  have carried : deal.unknown = dealOrderSchema.unknown data := by
    rw [changed]
    rfl
  by_cases known : number ∈ dealOrderSchema.texts
  · have texts {value : Text} (member : .text number value ∈ deal.slots) :
        textAt number (decode deal.serializeToString) = value :=
      deal.fits.textAt_write deal.unknown member
    have read := (by decide : ∀ number ∈ dealOrderSchema.texts, number ∉ [2, 11, 12] →
      number ∈ [1, 3, 4, 5, 6, 7, 9, 10, 13]) number known kept
    simp only [List.mem_cons, List.not_mem_nil, or_false] at read
    rcases read with rfl | rfl | rfl | rfl | rfl | rfl | rfl | rfl | rfl
    all_goals
      apply texts
      rw [changed]
      simp [DealOrder.slots, DealOrder.parseFromString]
  · rw [DealOrder.serializeToString, carried]
    exact textAt_rewritten deal.fits known

/-- A payable order written back as a deal order with another investor, repayment or lock keeps
its shape. -/
theorem Kept.rewrittenPayable (kept : Kept sha state) {dealOrderId : Text} {deal : DealOrder}
    (present : state.get dealOrderId ≠ []) (payable : sha.IsPayable dealOrderId)
    (changed : deal = { dealAt state dealOrderId with
      srcAddress := deal.srcAddress, repaymentTransfer := deal.repaymentTransfer,
      lock := deal.lock }) : Shape sha dealOrderId deal.serializeToString := by
  have carried : deal.unknown = dealOrderSchema.unknown (state.get dealOrderId) := by
    rw [changed]
    rfl
  rcases payable with found | found
  · have content : DealContent sha (dealAt state dealOrderId) := kept.content present found
    refine kept.rewrittenDeal present found carried ?_
    rw [changed]
    exact ⟨content.target, content.amount, content.fee, content.block, content.blockLength,
      content.loan, content.owner⟩
  · have content : RepaymentContent sha dealOrderId (repaymentAt state dealOrderId) :=
      kept.content present found
    refine ⟨(kept.shape present).isKey, fun number filled => ?_, ?_⟩
    · by_cases written : number ∈ [2, 11, 12]
      · rw [found]
        exact (by decide : [2, 11, 12] ⊆ fieldsOf (some .repaymentOrder)) written
      · rw [textAt_deal_write changed written] at filled
        exact kept.field present filled
    rw [found]
    change RepaymentContent sha dealOrderId
      (RepaymentOrder.parseFromString deal.serializeToString)
    rw [repayment_of_deal_write carried, changed]
    exact ⟨content.amount, content.block, content.deal, content.other, content.transfer,
      content.owner⟩

end Written

/-! ## Commands -/

/-- The records an environment lists are of the kind that was asked for and have its shape. -/
def Env.ListsKept (sha : Sha512) (env : Env) : Prop :=
  ∀ kind key value, Listed env (sha.space kind) key value →
    sha.kindOf key = some kind ∧ Shape sha key value

section Commands

variable {sha : Sha512} {env : Env} {signer : Text} {state after : State} {command : Command}

/-- The owner of a listed fee record is a text of digits. -/
theorem Env.ListsKept.payer (lists : env.ListsKept sha) {key value : Text}
    (listed : Listed env (sha.space .fee) key value) :
    ∀ c ∈ sha.walletId (Fee.parseFromString value).sighash, Text.isNumeralChar c = true := by
  obtain ⟨found, shape⟩ := lists .fee key value listed
  have kept := shape.content
  rw [found] at kept
  have content : FeeContent sha (Fee.parseFromString value) := kept
  have owner : ∀ c ∈ (Fee.parseFromString value).sighash, Text.isNumeralChar c = true :=
    fun c listed =>
      Text.isNumeralChar_of_isHexDigit (List.all_eq_true.mp content.owner.isHex c listed)
  intro c listed
  rw [Sha512.walletId, Sha512.space, sha.namespacePrefix_eq] at listed
  rcases List.mem_append.mp listed with start | rest
  · have space : ∀ c ∈ "8a1a04".toList ++ Kind.wallet.code, Text.isNumeralChar c = true :=
      Text.all_holds (by decide)
    exact space c start
  · exact owner c rest

/-- Writes of `Housekeeping` keep the shapes. -/
theorem Swept.kept {blockIdx : Int} (kept : Kept sha state) (lists : env.ListsKept sha)
    (swept : Swept sha env blockIdx state after) : Kept sha after := by
  cases swept with
  | order listed expired => exact kept.erase
  | offer listed expired => exact kept.erase
  | deal listed settled expired pending wallet read =>
    have raised := Int.add_nonneg wallet.nonneg read.2
    exact (kept.set (kept.walletEntry wallet.present raised)).erase
  | repayment listed expired open' => exact kept.erase
  | fee listed read due wallet =>
    -- the key is a serialized wallet, the value the key of the wallet
    refine (kept.set ?_).erase
    refine ⟨.inr (walletEntry_head _ _), ?_, ?_⟩
    · rw [sha.kindOf_line (walletEntry_head _ _)]
      exact fillsOnly_of_numerals (lists.payer listed)
    · rw [sha.kindOf_line (walletEntry_head _ _)]
      trivial
  | award positive printed credited =>
    exact kept.set (kept.credited ⟨printed, Int.le_of_lt positive⟩ credited)
  | mark height =>
    refine kept.set ?_
    exact shape_numeral sha.kindOf_processedBlockIdx sha.processedBlockIdx_length rfl trivial
      (cppInt_chars (cppInt_toText height))

/-- The order of a registered transfer is a deal or a repayment order. -/
theorem Pays.payable {orderId source target principal : Text} {gain : Int}
    (pays : Pays sha state orderId gain source target principal) : sha.IsPayable orderId := by
  cases pays with
  | loan kind none => exact .inl kind
  | repayment kind some => exact .inl kind
  | sale kind none => exact .inr kind

/-- A transfer a command consumes is a transfer, and pays for a deal or a repayment order. -/
theorem Kept.consumed (kept : Kept sha state) (isId : sha.IsId signer)
    {transferId orderId : Text} (present : state.get transferId ≠ [])
    (order : (transferAt state transferId).order = orderId) (orderPresent : state.get orderId ≠ [])
    (registrant : (transferAt state transferId).sighash = signer) :
    sha.kindOf transferId = some .transfer ∧ sha.IsPayable orderId := by
  have kind : sha.kindOf transferId = some .transfer :=
    kept.transfer_of_registrant present (order ▸ orderPresent) (registrant ▸ isId.ne_nil)
  exact ⟨kind, order ▸ kept.transfer_payable present kind⟩

/-- A transfer `Exempt` consumes is a transfer, and pays for a deal or a repayment order. -/
theorem Kept.exempted (kept : Kept sha state) {transferId dealOrderId : Text}
    (present : state.get transferId ≠ [])
    (order : (transferAt state transferId).order = dealOrderId)
    (orderPresent : state.get dealOrderId ≠ [])
    (sourcePresent : state.get (dealAt state dealOrderId).srcAddress ≠ []) :
    sha.kindOf transferId = some .transfer ∧ sha.IsPayable dealOrderId := by
  have kind : sha.kindOf transferId = some .transfer := by
    refine kept.transfer_of_order present (order ▸ orderPresent) fun address => ?_
    -- an address names its owner there, and the record of an owner is a wallet
    have isId : sha.IsId (transferAt state transferId).order := kept.content present address
    rw [order] at isId
    have wallet := kept.kind_of_id orderPresent isId
    have two : 2 ∈ fieldsOf (sha.kindOf dealOrderId) :=
      kept.field orderPresent (kept.shape sourcePresent).isKey.ne_nil
    rw [wallet] at two
    exact absurd two (by decide)
  exact ⟨kind, order ▸ kept.transfer_payable present kind⟩

/-- The ask and the bid order of `AddOffer` are orders. -/
theorem Kept.offered (kept : Kept sha state) (isId : sha.IsId signer)
    {askOrderId bidOrderId : Text} (askPresent : state.get askOrderId ≠ [])
    (askOwner : (orderAt state askOrderId).sighash = signer)
    (askInterest : HasAmount (orderAt state askOrderId).interest)
    (bidPresent : state.get bidOrderId ≠ [])
    (targetPresent : state.get (orderAt state bidOrderId).address ≠ [])
    (amount : (orderAt state askOrderId).amount = (orderAt state bidOrderId).amount)
    (bidInterest : HasAmount (orderAt state bidOrderId).interest)
    (bidMaturity : (orderAt state bidOrderId).maturity ≠ []) :
    sha.IsOrder askOrderId ∧ sha.IsOrder bidOrderId := by
  have ask : sha.IsOrder askOrderId := kept.order_of_party askPresent (askOwner ▸ isId) askInterest
  have content : OrderContent sha (orderAt state askOrderId) := by
    rcases ask with kind | kind
    · exact kept.content askPresent kind
    · exact kept.content askPresent kind
  exact ⟨ask, kept.order_of_terms bidPresent targetPresent (amount ▸ content.amount) bidInterest
    bidMaturity⟩

/-- The content of an order record. -/
theorem Kept.order_content (kept : Kept sha state) {orderId : Text}
    (present : state.get orderId ≠ []) (isOrder : sha.IsOrder orderId) :
    OrderContent sha (orderAt state orderId) := by
  rcases isOrder with kind | kind
  · exact kept.content present kind
  · exact kept.content present kind

/-- Commands keep the shapes when `AddDealOrder` names an offer. -/
theorem Executed.kept (kept : Kept sha state) (live : env.Live) (isId : sha.IsId signer)
    (lists : env.ListsKept sha) (named : command.NamesOffer sha)
    (executed : Executed sha env signer state command after) : Kept sha after := by
  have head := live.head_nonneg
  have lowered {balance cost : Int} (covers : Covers sha state signer cost balance) :
      Shape sha (walletEntry sha state signer (balance - cost)).1
        (walletEntry sha state signer (balance - cost)).2 :=
    kept.walletEntry covers.present (by have := covers.covered; omega)
  cases executed with
  | sendFunds numeral other covers credited =>
    rw [Store.setAll_cons]
    exact (kept.set (kept.credited numeral credited)).charged isId head (lowered covers)
  | registerAddress covers fresh =>
    refine ((kept.set ?_).set (lowered covers)).set
      (shape_feeEntry isId head)
    exact shape_newAddress rfl isId
  | registerTransfer covers order pays sourcePresent targetPresent owner blockchain network fresh
      paid =>
    rw [Store.setAll_cons]
    refine (kept.set ?_).charged isId head (lowered covers)
    exact shape_newTransfer rfl ⟨pays.payable, hasAmount_toText head, isId⟩
  | addOrder covers amountRead interestRead maturityRead feeRead fresh present owner =>
    rw [Store.setAll_cons]
    refine (kept.set ?_).charged isId head (lowered covers)
    exact shape_newOrder rfl ⟨(kept.shape present).isKey, ⟨_, amountRead⟩, ⟨_, interestRead⟩,
      ⟨_, feeRead⟩, hasAmount_toText head, isId⟩
  | addOffer covers fresh askPresent askOwner askUnexpired sourcePresent bidPresent bidOwner
      bidUnexpired targetPresent blockchain network amount fee askInterestRead askMaturityRead
      askMaturityNonzero bidInterestRead bidMaturityRead bidMaturityNonzero rate =>
    rename_i bidOrderId _ _ _ _ _ _
    have maturity : (orderAt state bidOrderId).maturity ≠ [] := by
      intro empty
      rw [empty] at bidMaturityRead
      exact bidMaturityNonzero (Option.some.inj bidMaturityRead.1).symm
    obtain ⟨ask, bid⟩ := kept.offered isId askPresent askOwner ⟨_, askInterestRead⟩ bidPresent
      targetPresent amount ⟨_, bidInterestRead⟩ maturity
    rw [Store.setAll_cons, Store.setAll_cons]
    refine Kept.charged (Kept.set_twice kept ?_) isId head (lowered covers)
    exact shape_newOffer rfl ⟨ask, bid, hasAmount_toText head⟩
  | addDealOrder fresh present unexpired bidPresent bidOwner askPresent feeRead covers =>
    have offer : OfferContent sha (offerAt state _) := kept.content present named
    have bid := kept.order_content bidPresent offer.bid
    rw [Store.setAll_cons]
    refine (Kept.charged (kept.set ?_) isId head (lowered covers)).erase.erase.erase
    exact shape_newDealOrder rfl ⟨bid.address, bid.amount, bid.fee, hasAmount_toText head,
      live.head_length, .inl rfl, isId⟩
  | completeDealOrder present pending sourcePresent owner unexpired transferPresent order amount
      registrant unprocessed feeRead covers =>
    rename_i dealOrderId transferId balance fee
    obtain ⟨transfer, payable⟩ :=
      kept.consumed isId transferPresent order present registrant
    have deal := kept.deal_of_pending present payable pending
    have content : DealContent sha (dealAt state dealOrderId) := kept.content present deal
    have long := kept.key_length transferPresent transfer (by decide)
    have earned := lowered covers
    rw [show balance - (txFee - fee) = balance + (fee - txFee) by omega] at earned
    rw [Store.setAll_cons, Store.setAll_cons]
    refine ((kept.set ?_).set (kept.processed transferPresent transfer)).charged
      isId head earned
    exact kept.rewrittenDeal present deal rfl ⟨content.target, content.amount, content.fee,
      hasAmount_toText head, live.head_length, .inr long, content.owner⟩
  | lockDealOrder covers present unlocked completed owner =>
    have deal := kept.deal_of_owner present (owner ▸ isId.ne_nil)
    rw [Store.setAll_cons]
    refine (kept.set ?_).charged isId head (lowered covers)
    exact kept.rewrittenPayable present (.inl deal) rfl
  | closeDealOrder covers present unclosed owner locked transferPresent order registrant
      unprocessed loanPresent startRead maturityRead maturityNonzero principalRead interestRead
      repaidRead enough =>
    obtain ⟨transfer, payable⟩ :=
      kept.consumed isId transferPresent order present registrant
    rw [Store.setAll_cons, Store.setAll_cons]
    refine ((kept.set ?_).set (kept.processed transferPresent transfer)).charged
      isId head (lowered covers)
    exact kept.rewrittenPayable present payable rfl
  | exempt covers present unclosed transferPresent order unprocessed sourcePresent owner =>
    obtain ⟨transfer, payable⟩ := kept.exempted transferPresent order present sourcePresent
    rw [Store.setAll_cons, Store.setAll_cons]
    refine ((kept.set ?_).set (kept.processed transferPresent transfer)).charged
      isId head (lowered covers)
    exact kept.rewrittenPayable present payable rfl
  | addRepaymentOrder covers amountRead fresh fundraiser completed unclosed investor blockchain
      network value =>
    rename_i dealOrderId addressId amount expiration balance _
    have payable := kept.payable_of_completed completed
    have other : dealOrderId ≠ sha.makeAddress .repaymentOrder env.guid := by
      rintro rfl
      rw [dealAt, fresh] at completed
      exact completed rfl
    rw [Store.setAll_cons]
    refine (kept.set ?_).charged isId head (lowered covers)
    exact shape_newRepaymentOrder rfl
      ⟨⟨_, amountRead⟩, hasAmount_toText head, payable, other, .inl rfl, isId⟩
  | completeRepaymentOrder covers present targetPresent owner dealPresent unlocked =>
    have repayment := kept.repayment_of_deal present targetPresent dealPresent
    have content : RepaymentContent sha _ (repaymentAt state _) := kept.content present repayment
    rw [Store.setAll_cons, Store.setAll_cons]
    refine ((kept.set ?_).set ?_).charged isId head (lowered covers)
    · exact kept.rewrittenRepayment present repayment rfl ⟨content.amount, content.block,
        content.deal, content.other, content.transfer, content.owner⟩
    · exact kept.rewrittenPayable dealPresent content.deal rfl
  | closeRepaymentOrder covers present owner transferPresent order amount registrant unprocessed
      dealPresent sourcePresent locked =>
    obtain ⟨transfer, payable⟩ :=
      kept.consumed isId transferPresent order present registrant
    have repayment := kept.repayment_of_collector present payable (owner ▸ isId)
    have content : RepaymentContent sha _ (repaymentAt state _) := kept.content present repayment
    have long := kept.key_length transferPresent transfer (by decide)
    rw [Store.setAll_cons, Store.setAll_cons, Store.setAll_cons]
    refine (((kept.set ?_).set ?_).set
      (kept.processed transferPresent transfer)).charged isId head (lowered covers)
    · exact kept.rewrittenRepayment present repayment rfl ⟨content.amount, content.block,
        content.deal, content.other, .inr long, content.owner⟩
    · exact kept.rewrittenPayable dealPresent content.deal rfl
  | collectCoins numeral fresh verified credited =>
    refine (kept.set (kept.credited numeral credited)).set ?_
    exact shape_numeral (sha.kindOf_makeAddress .erc20 _) (sha.makeAddress_length .erc20 _) rfl
      trivial (cppInt_chars numeral.1)
  | housekeeping swept =>
    induction swept with
    | refl => exact kept
    | tail _ step ih => exact step.kept ih lists

end Commands

/-! ## Runs -/

section Runs

variable {sha : Sha512}

/-- A listed record is the committed record of its key, and the key has the prefix. -/
theorem Chain.Serves.listed {chain : Chain} {env : Env} (serves : chain.Serves env)
    {start key value : Text} (listed : Listed env start key value) :
    key.startsWith start = true ∧ chain.committed.get key = value ∧
      key ∈ chain.committed := by
  obtain ⟨pages, found, member⟩ := listed
  have record := (serves.listing start pages found).mem_iff.mp member
  rw [Chain.records, List.mem_filter, List.mem_map] at record
  obtain ⟨⟨⟨key', value'⟩, entry, same⟩, starts⟩ := record
  obtain ⟨rfl, rfl⟩ := Prod.mk.inj same
  exact ⟨starts, Store.get_of_mem_entries entry, List.mem_keys_of_mem entry⟩

/-- The environments of a chain list records of the right shape. -/
theorem Chain.Serves.listsKept {chain : Chain} {env : Env} (serves : chain.Serves env)
    (kept : Kept sha chain.committed) : env.ListsKept sha := by
  intro kind key value listed
  obtain ⟨starts, rfl, member⟩ := serves.listed listed
  exact ⟨sha.kindOf_eq_some_iff_startsWith.mpr starts, kept key member⟩

/-- The records of both states of a chain have the shapes of their kinds. -/
structure Chain.Kept (sha : Sha512) (chain : Chain) : Prop where
  /-- The committed records. -/
  committed : Creditcoin.Kept sha chain.committed
  /-- The records of the block. -/
  context : Creditcoin.Kept sha chain.context

/-- A step whose `AddDealOrder` names an offer keeps the shapes. -/
theorem Chain.Did.kept {taken : ChainStep} (did : Chain.Did sha taken)
    (kept : taken.before.Kept sha) (named : NamesOffers sha taken) : taken.after.Kept sha := by
  cases did with
  | executed serves succeeds effect committed tip housekept =>
    have isId := sighash_isId serves.live succeeds.signed
    refine ⟨committed ▸ kept.committed, ?_⟩
    exact effect.kept kept.context serves.live isId (serves.listsKept kept.committed)
      (named _ _ _ succeeds)
  | rejected same => exact same ▸ kept
  | committed committed context housekept => exact ⟨committed ▸ kept.context, context ▸ kept.context⟩

/-- In a run whose `AddDealOrder`s name offers every record has the shape of its kind. -/
theorem ChainRun.kept {tip : UInt64} {steps : List ChainStep} {chain : Chain}
    (run : ChainRun sha tip steps chain) (named : ∀ taken ∈ steps, NamesOffers sha taken) :
    chain.Kept sha :=
  run.invariant (Chain.Kept sha) ⟨Kept.empty, Kept.empty⟩
    (fun _ earlier did named => did.kept earlier named) named

/-- The rule of chains for runs whose `AddDealOrder`s name offers: every step may use the shapes
of the records. -/
theorem ChainRun.keptInvariant {tip : UInt64} {steps : List ChainStep} {chain : Chain}
    {allowed : ChainStep → Prop} (holds : Chain → Prop) (initially : holds (Chain.empty tip))
    (kept : ∀ taken : ChainStep, taken.before.Kept sha → holds taken.before →
      Chain.Did sha taken → NamesOffers sha taken → allowed taken → holds taken.after)
    (run : ChainRun sha tip steps chain)
    (guarded : ∀ taken ∈ steps, NamesOffers sha taken ∧ allowed taken) : holds chain := by
  refine (run.invariant (fun chain => chain.Kept sha ∧ holds chain)
    ⟨⟨Kept.empty, Kept.empty⟩, initially⟩ ?_ guarded).2
  rintro taken ⟨shapes, earlier⟩ did ⟨named, allow⟩
  exact ⟨did.kept shapes named, kept taken shapes earlier did named allow⟩

end Runs

end Creditcoin
