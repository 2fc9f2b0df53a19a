import Creditcoin.Parties

/-!
# Records under their kinds

A command takes the keys of records from its parameters and reads every record as the type that it
expects. Most commands compare what they read with something that only a record of the right kind
holds. Seven parameters are taken on trust; when they name what they should, every parameter does,
and every record that is written back is written as the type of its key.
-/

namespace Creditcoin

open Lib

/-- The records that the parameters of a command name, with the kinds they should have. -/
def Command.names : Command → List (List Kind × Text)
  | .registerTransfer _ orderId _ => [([.dealOrder, .repaymentOrder], orderId)]
  | .addOrder _ addressId .. => [([.addr], addressId)]
  | .addOffer askOrderId bidOrderId _ => [([.askOrder], askOrderId), ([.bidOrder], bidOrderId)]
  | .addDealOrder offerId _ => [([.offer], offerId)]
  | .completeDealOrder dealOrderId transferId =>
    [([.dealOrder], dealOrderId), ([.transfer], transferId)]
  | .lockDealOrder dealOrderId => [([.dealOrder], dealOrderId)]
  | .closeDealOrder dealOrderId transferId =>
    [([.dealOrder], dealOrderId), ([.transfer], transferId)]
  | .exempt dealOrderId transferId => [([.dealOrder], dealOrderId), ([.transfer], transferId)]
  | .addRepaymentOrder dealOrderId addressId .. =>
    [([.dealOrder], dealOrderId), ([.addr], addressId)]
  | .completeRepaymentOrder repaymentOrderId => [([.repaymentOrder], repaymentOrderId)]
  | .closeRepaymentOrder repaymentOrderId transferId =>
    [([.repaymentOrder], repaymentOrderId), ([.transfer], transferId)]
  | _ => []

/-- The records that a command takes for what they should be. -/
def Command.trusts : Command → List (List Kind × Text)
  | .addOrder _ addressId .. => [([.addr], addressId)]
  | .addOffer askOrderId bidOrderId _ => [([.askOrder], askOrderId), ([.bidOrder], bidOrderId)]
  | .addDealOrder offerId _ => [([.offer], offerId)]
  | .exempt dealOrderId _ => [([.dealOrder], dealOrderId)]
  | .addRepaymentOrder dealOrderId addressId .. =>
    [([.dealOrder], dealOrderId), ([.addr], addressId)]
  | _ => []

/-- A key has one of some kinds. -/
def Sha512.IsOneOf (sha : Sha512) (named : List Kind × Text) : Prop :=
  ∃ kind ∈ named.1, sha.kindOf named.2 = some kind

/-- A record is read as the type of a kind and written back; a fee record is written anew. -/
def Rewritten (old new : Text) : Kind → Prop
  | .wallet => ∃ wallet : Wallet, wallet.unknown = walletSchema.unknown old ∧
      new = wallet.serializeToString
  | .addr => ∃ address : Address, address.unknown = addressSchema.unknown old ∧
      new = address.serializeToString
  | .transfer => ∃ transfer : Transfer, transfer.unknown = transferSchema.unknown old ∧
      new = transfer.serializeToString
  | .askOrder => ∃ order : Order, order.unknown = orderSchema.unknown old ∧
      new = order.serializeToString
  | .bidOrder => ∃ order : Order, order.unknown = orderSchema.unknown old ∧
      new = order.serializeToString
  | .dealOrder => ∃ deal : DealOrder, deal.unknown = dealOrderSchema.unknown old ∧
      new = deal.serializeToString
  | .repaymentOrder => ∃ order : RepaymentOrder,
      order.unknown = repaymentOrderSchema.unknown old ∧ new = order.serializeToString
  | .offer => ∃ offer : Offer, offer.unknown = offerSchema.unknown old ∧
      new = offer.serializeToString
  | .erc20 => ∃ value, cppInt new = some value
  | .processedBlock => ∃ value, cppInt new = some value
  | .fee => ∃ fee : Fee, new = fee.serializeToString

/-- What a record becomes under its kind. -/
def Becomes (kind : Kind) (old new : Text) : Prop := new = old ∨ new = [] ∨ Rewritten old new kind

/-- Every parameter of a step names a record of its kind, and every record is written back as one
of its kind. -/
def UsedAsKinds (sha : Sha512) (taken : ChainStep) : Prop :=
  ∀ env signer command, Succeeds sha taken env signer command →
    (∀ named ∈ command.names, sha.IsOneOf named) ∧
    ∀ key kind, sha.kindOf key = some kind → taken.before.context.get key ≠ [] →
      Becomes kind (taken.before.context.get key) (taken.after.context.get key)

/-- What a step takes on trust has its kind. -/
def TrustsKinds (sha : Sha512) (taken : ChainStep) : Prop :=
  ∀ env signer command, Succeeds sha taken env signer command →
    ∀ named ∈ command.trusts, sha.IsOneOf named

/-- Repayment orders are placed for deal orders. -/
def OrdersDeals (sha : Sha512) (state : State) : Prop :=
  ∀ key, sha.kindOf key = some .repaymentOrder → state.get key ≠ [] →
    sha.kindOf (repaymentAt state key).deal = some .dealOrder

section Kinds

variable {sha : Sha512} {env : Env} {signer : Text} {state after : State} {command : Command}
  {key : Text} {kind : Kind} {tip : UInt64} {steps : List ChainStep} {chain : Chain}
  {taken : ChainStep}

/-! ## Parameters -/

/-- A key is of the only kind it may have. -/
theorem Sha512.isOneOf_singleton : sha.IsOneOf ([kind], key) ↔ sha.kindOf key = some kind := by
  simp [Sha512.IsOneOf]

/-- What is taken on trust is named. -/
theorem Command.trusts_subset : command.trusts ⊆ command.names := by
  cases command with
  | exempt => exact List.cons_subset_cons _ (List.nil_subset _)
  | _ => simp [Command.trusts, Command.names]

/-- The parameters of a command name what they should when those taken on trust do. -/
theorem Executed.names (around : Surroundings sha env signer state command)
    (executed : Executed sha env signer state command after)
    (trusted : ∀ named ∈ command.trusts, sha.IsOneOf named) :
    ∀ named ∈ command.names, sha.IsOneOf named := by
  have kept := around.kept
  have isId := around.isId
  cases executed with
  | registerTransfer covers order pays =>
    rw [Command.names, List.forall_mem_singleton]
    cases pays with
    | loan kind => exact ⟨.dealOrder, by simp, kind⟩
    | repayment kind => exact ⟨.dealOrder, by simp, kind⟩
    | sale kind => exact ⟨.repaymentOrder, by simp, kind⟩
  | completeDealOrder present pending sourcePresent owner unexpired transferPresent order amount
      registrant =>
    obtain ⟨transfer, payable⟩ := kept.consumed isId transferPresent order present registrant
    have deal := kept.deal_of_pending present payable pending
    simp [Command.names, Sha512.isOneOf_singleton, deal, transfer]
  | lockDealOrder covers present unlocked completed owner =>
    have deal := kept.deal_of_owner present (owner ▸ isId.ne_nil)
    simp [Command.names, Sha512.isOneOf_singleton, deal]
  | closeDealOrder covers present unclosed owner locked transferPresent order registrant =>
    obtain ⟨transfer, _⟩ := kept.consumed isId transferPresent order present registrant
    have deal := kept.deal_of_owner present (owner ▸ isId.ne_nil)
    simp [Command.names, Sha512.isOneOf_singleton, deal, transfer]
  | exempt covers present unclosed transferPresent order unprocessed sourcePresent =>
    obtain ⟨transfer, _⟩ := kept.exempted transferPresent order present sourcePresent
    have deal := Sha512.isOneOf_singleton.mp (trusted _ List.mem_cons_self)
    simp [Command.names, Sha512.isOneOf_singleton, deal, transfer]
  | completeRepaymentOrder covers present targetPresent owner dealPresent =>
    have repayment := kept.repayment_of_deal present targetPresent dealPresent
    simp [Command.names, Sha512.isOneOf_singleton, repayment]
  | closeRepaymentOrder covers present owner transferPresent order amount registrant =>
    obtain ⟨transfer, payable⟩ := kept.consumed isId transferPresent order present registrant
    have repayment := kept.repayment_of_collector present payable (owner ▸ isId)
    simp [Command.names, Sha512.isOneOf_singleton, repayment, transfer]
  | addOrder => exact trusted
  | addOffer => exact trusted
  | addDealOrder => exact trusted
  | addRepaymentOrder => exact trusted
  | _ => exact fun named listed => absurd listed List.not_mem_nil

/-! ## Writes -/

/-- A write of a record is one of its kind. -/
def WritesKind (sha : Sha512) (state : State) (entry : Text × Text) : Prop :=
  state.get entry.1 ≠ [] → ∀ kind, sha.kindOf entry.1 = some kind →
    Rewritten (state.get entry.1) entry.2 kind

/-- Writes of the right kinds leave every record one of its kind. -/
theorem becomes_setAll {values : List (Text × Text)}
    (written : ∀ entry ∈ values, WritesKind sha state entry)
    (found : sha.kindOf key = some kind) (present : state.get key ≠ []) :
    Becomes kind (state.get key) ((state.setAll values).get key) := by
  apply Store.get_setAll_holds (.inl rfl)
  rintro entry listed rfl
  exact .inr (.inr (written entry listed present kind found))

/-- Deleting a record leaves every record one of its kind. -/
theorem becomes_erase {before : State} {erased : Text}
    (becomes : Becomes kind (state.get key) (before.get key)) :
    Becomes kind (state.get key) (Store.get (before.erase erased) key) := by
  rw [Store.get_erase]
  split
  · exact .inr (.inl rfl)
  · exact becomes

/-- A new key is written for the first time. -/
theorem writesKind_fresh {entry : Text × Text} (fresh : state.get entry.1 = []) :
    WritesKind sha state entry := fun present => absurd fresh present

/-- A fee record is written as one. -/
theorem writesKind_fee : WritesKind sha state (env.feeEntry sha signer) := by
  intro present kind found
  rw [Env.feeEntry_fst, Env.kindOf_feeId, Option.some.injEq] at found
  subst found
  exact ⟨_, rfl⟩

/-- A wallet is written as one. -/
theorem writesKind_wallet {owner : Text} {balance : Int} :
    WritesKind sha state (walletEntry sha state owner balance) := by
  intro present kind found
  rw [walletEntry_fst, sha.kindOf_walletId, Option.some.injEq] at found
  subst found
  exact ⟨_, rfl, rfl⟩

/-- A credited wallet is written as one. -/
theorem Credited.writesKind {owner amountString : Text} {amount : Int} {wallet : Wallet}
    (credited : Credited (state.get (sha.walletId owner)) amountString amount wallet) :
    WritesKind sha state (sha.walletId owner, wallet.serializeToString) := by
  intro present kind found
  rw [sha.kindOf_walletId, Option.some.injEq] at found
  subst found
  cases credited with
  | created missing => exact absurd missing present
  | raised => exact ⟨_, rfl, rfl⟩

/-- A transfer is written as one. -/
theorem writesKind_transfer {transferId : Text} {transfer : Transfer}
    (found : sha.kindOf transferId = some .transfer)
    (carried : transfer.unknown = transferSchema.unknown (state.get transferId)) :
    WritesKind sha state (transferId, transfer.serializeToString) := by
  intro present kind found'
  rw [found, Option.some.injEq] at found'
  subst found'
  exact ⟨_, carried, rfl⟩

/-- A deal order is written as one. -/
theorem writesKind_deal {dealOrderId : Text} {deal : DealOrder}
    (found : sha.kindOf dealOrderId = some .dealOrder)
    (carried : deal.unknown = dealOrderSchema.unknown (state.get dealOrderId)) :
    WritesKind sha state (dealOrderId, deal.serializeToString) := by
  intro present kind found'
  rw [found, Option.some.injEq] at found'
  subst found'
  exact ⟨_, carried, rfl⟩

/-- A repayment order is written as one. -/
theorem writesKind_repayment {orderId : Text} {order : RepaymentOrder}
    (found : sha.kindOf orderId = some .repaymentOrder)
    (carried : order.unknown = repaymentOrderSchema.unknown (state.get orderId)) :
    WritesKind sha state (orderId, order.serializeToString) := by
  intro present kind found'
  rw [found, Option.some.injEq] at found'
  subst found'
  exact ⟨_, carried, rfl⟩

/-! ## Housekeeping -/

/-- A wallet that is there, as it was or read and written back. -/
def WalletKept (old new : Text) : Prop := new ≠ [] ∧ (new = old ∨ Rewritten old new .wallet)

/-- What is read and written back once more still is one of its kind. -/
theorem WalletKept.again {old new last : Text} (kept : WalletKept old new)
    (rewritten : Rewritten new last .wallet) (filled : last ≠ []) : WalletKept old last := by
  refine ⟨filled, .inr ?_⟩
  rcases kept.2 with rfl | ⟨first, carried, rfl⟩
  · exact rewritten
  · obtain ⟨wallet, carried', written⟩ := rewritten
    refine ⟨wallet, carried'.trans ?_, written⟩
    change (Wallet.parseFromString first.serializeToString).unknown = _
    rw [Wallet.parse_serialize]
    exact carried

/-- A wallet entry is not empty. -/
theorem walletEntry_ne_nil {owner : Text} {balance : Int} :
    (walletEntry sha state owner balance).2 ≠ [] := by
  intro empty
  have head : (walletEntry sha state owner balance).2.head? = some '\n' :=
    walletEntry_head owner balance
  rw [empty] at head
  cases head

/-- A write of `Housekeeping` keeps a wallet one. -/
theorem Swept.wallet {blockIdx : Int} {old owner : Text} (lists : env.ListsKept sha)
    (kept : WalletKept old (state.get (sha.walletId owner)))
    (swept : Swept sha env blockIdx state after) :
    WalletKept old (after.get (sha.walletId owner)) := by
  have erased {before : State} {listed value : Text} {kind : Kind} (other : kind ≠ .wallet)
      (record : Listed env (sha.space kind) listed value)
      (same : WalletKept old (before.get (sha.walletId owner))) :
      WalletKept old (Store.get (before.erase listed) (sha.walletId owner)) := by
    have found := (lists _ _ _ record).1
    rw [Store.get_erase, if_neg]
    · exact same
    · intro equal
      rw [← equal, sha.kindOf_walletId, Option.some.injEq] at found
      exact other found.symm
  have written {before : State} {other data : Text}
      (same : WalletKept old (before.get (sha.walletId owner)))
      (changed : other = sha.walletId owner → WalletKept old data) :
      WalletKept old (Store.get (before.set other data) (sha.walletId owner)) := by
    rw [Store.get_set]
    split
    · rename_i equal
      exact changed equal.symm
    · exact same
  cases swept with
  | order listed expired =>
    rename_i side _ _
    exact erased (by cases side <;> decide) listed kept
  | offer listed expired => exact erased (by decide) listed kept
  | deal listed settled expired pending covers read =>
    apply erased (by decide) listed
    apply written kept
    intro equal
    rw [walletEntry_fst] at equal
    obtain rfl := sha.walletId_injective equal
    exact kept.again ⟨_, rfl, rfl⟩ walletEntry_ne_nil
  | repayment listed expired open' => exact erased (by decide) listed kept
  | fee listed read due covers =>
    rename_i address value balance start
    have line : sha.kindOf (walletEntry sha state (Fee.parseFromString value).sighash
        (balance + txFee)).2 = none := sha.kindOf_line (walletEntry_head _ _)
    apply erased (by decide) listed
    apply written kept
    intro equal
    rw [equal, sha.kindOf_walletId] at line
    cases line
  | award positive printed credited =>
    apply written kept
    intro equal
    obtain rfl := sha.walletId_injective equal
    cases credited with
    | created missing => exact absurd missing kept.1
    | raised present read nonneg =>
      exact kept.again ⟨_, rfl, rfl⟩ walletEntry_ne_nil
  | mark height =>
    apply written kept
    intro equal
    have kinds := congrArg sha.kindOf equal
    rw [sha.kindOf_processedBlockIdx, sha.kindOf_walletId] at kinds
    cases kinds

/-- `Housekeeping` keeps a wallet one. -/
theorem swept_wallet {blockIdx : Int} {owner : Text} (lists : env.ListsKept sha)
    (present : state.get (sha.walletId owner) ≠ [])
    (swept : Relation.ReflTransGen (Swept sha env blockIdx) state after) :
    WalletKept (state.get (sha.walletId owner)) (after.get (sha.walletId owner)) := by
  induction swept with
  | refl => exact ⟨present, .inl rfl⟩
  | tail _ step ih => exact step.wallet lists ih

/-- A write of `Housekeeping` leaves the marker one. -/
theorem Swept.marker {blockIdx : Int} {old : Text} (found : sha.kindOf key = some .processedBlock)
    (becomes : Becomes .processedBlock old (state.get key))
    (swept : Swept sha env blockIdx state after) :
    Becomes .processedBlock old (after.get key) := by
  have erased {before : State} {other : Text}
      (same : Becomes .processedBlock old (before.get key)) :
      Becomes .processedBlock old (Store.get (before.erase other) key) := by
    rw [Store.get_erase]
    split
    · exact .inr (.inl rfl)
    · exact same
  have apart {other data : Text} (kinds : sha.kindOf other ≠ some .processedBlock) :
      Becomes .processedBlock old (Store.get (state.set other data) key) := by
    rw [Store.get_set_ne _ (sha.ne_of_kindOf_ne (found ▸ kinds.symm))]
    exact becomes
  cases swept with
  | order => exact erased becomes
  | offer => exact erased becomes
  | deal => exact erased (apart (by simp))
  | repayment => exact erased becomes
  | fee =>
    apply erased
    apply apart
    rw [sha.kindOf_line (walletEntry_head _ _)]
    exact (Option.some_ne_none _).symm
  | award => exact apart (by simp)
  | mark height =>
    rw [Store.get_set]
    split
    · exact .inr (.inr ⟨height, cppInt_toText height⟩)
    · exact becomes

/-- `Housekeeping` leaves every record one of its kind. -/
theorem swept_becomes {blockIdx : Int} (lists : env.ListsKept sha)
    (found : sha.kindOf key = some kind) (present : state.get key ≠ [])
    (swept : Relation.ReflTransGen (Swept sha env blockIdx) state after) :
    Becomes kind (state.get key) (after.get key) := by
  by_cases wallet : kind = .wallet
  · subst wallet
    obtain ⟨owner, rfl⟩ := sha.kindOf_eq_some.mp found
    exact (swept_wallet lists present swept).2.imp_right .inr
  by_cases marker : kind = .processedBlock
  · subst marker
    induction swept with
    | refl => exact .inl rfl
    | tail _ step ih => exact step.marker found ih
  · rcases swept_record lists found wallet marker swept with same | ⟨gone, _⟩
    · exact .inl same
    · exact .inr (.inl gone)

/-! ## Commands -/

/-- A command leaves every record one of its kind when what it takes on trust has its kind. -/
theorem Executed.becomes (around : Surroundings sha env signer state command)
    (executed : Executed sha env signer state command after)
    (trusted : ∀ named ∈ command.trusts, sha.IsOneOf named) (deals : OrdersDeals sha state)
    (found : sha.kindOf key = some kind) (present : state.get key ≠ []) :
    Becomes kind (state.get key) (after.get key) := by
  have names := executed.names around trusted
  obtain ⟨kept, live, isId, lists, named⟩ := around
  cases executed with
  | sendFunds numeral other covers credited =>
    apply becomes_setAll _ found present
    simp only [List.forall_mem_cons]
    exact ⟨credited.writesKind, writesKind_fee, writesKind_wallet, List.forall_mem_nil _⟩
  | registerAddress covers fresh =>
    apply becomes_setAll _ found present
    simp only [List.forall_mem_cons]
    exact ⟨writesKind_fresh fresh, writesKind_wallet, writesKind_fee, List.forall_mem_nil _⟩
  | registerTransfer covers order pays sourcePresent targetPresent owner blockchain network fresh =>
    apply becomes_setAll _ found present
    simp only [List.forall_mem_cons]
    exact ⟨writesKind_fresh fresh, writesKind_fee, writesKind_wallet, List.forall_mem_nil _⟩
  | addOrder covers amountRead interestRead maturityRead feeRead fresh =>
    apply becomes_setAll _ found present
    simp only [List.forall_mem_cons]
    exact ⟨writesKind_fresh fresh, writesKind_fee, writesKind_wallet, List.forall_mem_nil _⟩
  | addOffer covers fresh =>
    apply becomes_setAll _ found present
    simp only [List.forall_mem_cons]
    exact ⟨writesKind_fresh fresh, writesKind_fresh fresh, writesKind_fee, writesKind_wallet,
      List.forall_mem_nil _⟩
  | addDealOrder fresh =>
    apply becomes_erase
    apply becomes_erase
    apply becomes_erase
    apply becomes_setAll _ found present
    simp only [List.forall_mem_cons]
    exact ⟨writesKind_fresh fresh, writesKind_fee, writesKind_wallet, List.forall_mem_nil _⟩
  | completeDealOrder =>
    simp only [Command.names, List.forall_mem_cons, Sha512.isOneOf_singleton] at names
    apply becomes_setAll _ found present
    simp only [List.forall_mem_cons]
    exact ⟨writesKind_deal names.1 rfl, writesKind_transfer names.2.1 rfl, writesKind_fee,
      writesKind_wallet, List.forall_mem_nil _⟩
  | lockDealOrder =>
    simp only [Command.names, List.forall_mem_cons, Sha512.isOneOf_singleton] at names
    apply becomes_setAll _ found present
    simp only [List.forall_mem_cons]
    exact ⟨writesKind_deal names.1 rfl, writesKind_fee, writesKind_wallet, List.forall_mem_nil _⟩
  | closeDealOrder =>
    simp only [Command.names, List.forall_mem_cons, Sha512.isOneOf_singleton] at names
    apply becomes_setAll _ found present
    simp only [List.forall_mem_cons]
    exact ⟨writesKind_deal names.1 rfl, writesKind_transfer names.2.1 rfl, writesKind_fee,
      writesKind_wallet, List.forall_mem_nil _⟩
  | exempt =>
    simp only [Command.names, List.forall_mem_cons, Sha512.isOneOf_singleton] at names
    apply becomes_setAll _ found present
    simp only [List.forall_mem_cons]
    exact ⟨writesKind_deal names.1 rfl, writesKind_transfer names.2.1 rfl, writesKind_fee,
      writesKind_wallet, List.forall_mem_nil _⟩
  | addRepaymentOrder covers amountRead fresh =>
    apply becomes_setAll _ found present
    simp only [List.forall_mem_cons]
    exact ⟨writesKind_fresh fresh, writesKind_fee, writesKind_wallet, List.forall_mem_nil _⟩
  | completeRepaymentOrder covers there =>
    simp only [Command.names, List.forall_mem_cons, Sha512.isOneOf_singleton] at names
    apply becomes_setAll _ found present
    simp only [List.forall_mem_cons]
    exact ⟨writesKind_repayment names.1 rfl, writesKind_deal (deals _ names.1 there) rfl,
      writesKind_fee, writesKind_wallet, List.forall_mem_nil _⟩
  | closeRepaymentOrder covers there =>
    simp only [Command.names, List.forall_mem_cons, Sha512.isOneOf_singleton] at names
    apply becomes_setAll _ found present
    simp only [List.forall_mem_cons]
    exact ⟨writesKind_repayment names.1 rfl, writesKind_deal (deals _ names.1 there) rfl,
      writesKind_transfer names.2.1 rfl, writesKind_fee, writesKind_wallet, List.forall_mem_nil _⟩
  | collectCoins numeral fresh verified credited =>
    apply becomes_setAll _ found present
    simp only [List.forall_mem_cons]
    exact ⟨credited.writesKind, writesKind_fresh fresh, List.forall_mem_nil _⟩
  | housekeeping swept => exact swept_becomes lists found present swept

/-! ## Runs -/

/-- A step that trusts the right kinds makes deals of offers. -/
theorem TrustsKinds.namesOffers (trusts : TrustsKinds sha taken) : NamesOffers sha taken := by
  intro env signer command succeeds
  cases command with
  | addDealOrder offerId expiration =>
    exact Sha512.isOneOf_singleton.mp (trusts _ _ _ succeeds _ List.mem_cons_self)
  | _ => trivial

/-- In a run that trusts the right kinds, repayment orders are placed for deal orders. -/
theorem ChainRun.ordersDeals (run : ChainRun sha tip steps chain)
    (trusted : ∀ taken ∈ steps, TrustsKinds sha taken) : OrdersDeals sha chain.context := by
  refine run.keptInvariant (fun chain => OrdersDeals sha chain.context)
    (fun _ _ present => absurd rfl present) ?_
    (fun taken listed => ⟨(trusted taken listed).namesOffers, trusted taken listed⟩)
  intro taken kept deals did named trusts
  cases did with
  | executed serves succeeds effect committed tip housekept =>
    intro key found remains
    rcases effect.repayment_after (succeeds.around serves kept named) deals found remains with
      ⟨present, same⟩ | ⟨dealOrderId, addressId, amount, expiration, rfl, _, _, _, same⟩
    · have deal : (repaymentAt taken.after.context key).deal =
          (repaymentAt taken.before.context key).deal := congrArg (fun terms => terms.2.2.2.1) same
      rw [deal]
      exact deals key found present
    · have deal : (repaymentAt taken.after.context key).deal = dealOrderId :=
        congrArg (fun terms => terms.2.2.2.1) same
      rw [deal]
      exact Sha512.isOneOf_singleton.mp (trusts _ _ _ succeeds _ List.mem_cons_self)
  | rejected same => exact same ▸ deals
  | committed committed context housekept => exact context ▸ deals

/-- In a run every record is used as what it is, exactly when the parameters that are taken on trust
name what they should. -/
theorem records_used_as_kinds (run : ChainRun sha tip steps chain) :
    (∀ taken ∈ steps, UsedAsKinds sha taken) ↔ ∀ taken ∈ steps, TrustsKinds sha taken := by
  constructor
  · intro used taken listed env signer command succeeds named trusted
    exact (used taken listed env signer command succeeds).1 named (Command.trusts_subset trusted)
  · intro trusted taken listed env signer command succeeds
    obtain ⟨earlier, _, _, reached, before, step⟩ := run.split trusted listed
    have kept := reached.kept fun other shown => (before other shown).namesOffers
    have deals := reached.ordersDeals before
    obtain ⟨serves, executed⟩ := succeeds.executed step
    have around := succeeds.around serves kept (trusted taken listed).namesOffers
    have trusts := trusted taken listed env signer command succeeds
    exact ⟨executed.names around trusts,
      fun key kind found present => executed.becomes around trusts deals found present⟩

end Kinds

/-! ## Records of the sample loan -/

/-- A key is tested for its kinds. -/
instance (sha : Sha512) (named : List Kind × Text) : Decidable (sha.IsOneOf named) :=
  inferInstanceAs (Decidable (∃ kind ∈ named.1, sha.kindOf named.2 = some kind))

/-- The records of the sample loan are used as what they are. -/
theorem records_used_as_kinds_sample :
    (∀ taken ∈ (Chain.empty 2).steps sample sampleNode loanSold, TrustsKinds sample taken) ∧
      ∀ taken ∈ (Chain.empty 2).steps sample sampleNode loanSold, UsedAsKinds sample taken := by
  have checked : (Chain.empty 2).checks sample sampleNode
      (fun chain _ _ command => command.ordinary sample chain &&
        command.trusts.all fun named => sample.IsOneOf named) loanSold = true :=
    Chain.checks_plain (by decide +kernel)
  have run : ChainRun sample 2 ((Chain.empty 2).steps sample sampleNode loanSold) _ :=
    Chain.steps_run
  have trusts : ∀ taken ∈ (Chain.empty 2).steps sample sampleNode loanSold,
      TrustsKinds sample taken := by
    intro taken listed env signer command succeeds named trusted
    have passes := Chain.checks_succeeds checked taken listed env signer command succeeds
    have kinds := (Bool.and_eq_true_iff.mp passes).2
    exact of_decide_eq_true (List.all_eq_true.mp kinds named trusted)
  exact ⟨trusts, (records_used_as_kinds run).mpr trusts⟩

/-- The fundraiser offers the bid order as an ask order. -/
def offersSwapped : Turn :=
  request fundraiserKey "9" "AddOffer" (sample.makeAddress .bidOrder "8".toList)
    (sample.makeAddress .askOrder "7".toList)

/-- The chain that has the orders of the sample loan. -/
def orderedChain : Chain := (Chain.empty 2).plays sample sampleNode (dealMade.take 8)

/-- A bid order can be offered as an ask order. -/
theorem orders_swapped :
    ¬ ∀ (sha : Sha512) (tip : UInt64) (steps : List ChainStep) (chain : Chain),
      ChainRun sha tip steps chain → ∀ taken ∈ steps, UsedAsKinds sha taken := by
  intro claim
  have offers : orderedChain.accepts sample sampleNode offersSwapped =
      some (sample.id fundraiserKey, .addOffer (sample.makeAddress .bidOrder "8".toList)
        (sample.makeAddress .askOrder "7".toList) 100) := by
    decide +kernel
  have listed : ⟨orderedChain, orderedChain.event sampleNode offersSwapped,
      orderedChain.play sample sampleNode offersSwapped⟩ ∈
      (Chain.empty 2).steps sample sampleNode (dealMade.take 8 ++ [offersSwapped]) :=
    Chain.turn_mem
  have used := claim sample 2 _ _ Chain.steps_run _ listed _ _ _ (Chain.accepts_succeeds offers)
  have named := Sha512.isOneOf_singleton.mp (used.1 _ List.mem_cons_self)
  rw [sample.kindOf_makeAddress] at named
  cases named

end Creditcoin
