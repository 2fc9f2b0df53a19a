import Creditcoin.Finality
import Creditcoin.Script

/-!
# Locks

A deal order is locked by its fundraiser before it is closed, and by its investor before it is
sold. `CompleteRepaymentOrder` asks the owner of the target of the repayment order, who was the
investor when the order was placed. As long as that owner still is a party of the deal, every
lock is held by a party of the deal.
-/

namespace Creditcoin

open Lib

/-- The owner of an address. -/
def ownerOf (state : State) (addressId : Text) : Text := (addressAt state addressId).sighash

/-- The address an order or a repayment order is placed for. -/
def Command.places : Command → Option Text
  | .addOrder _ addressId .. => some addressId
  | .addRepaymentOrder _ addressId .. => some addressId
  | _ => none

/-- The orders of a step are placed for addresses. -/
def NamesAddresses (sha : Sha512) (taken : ChainStep) : Prop :=
  ∀ env signer command addressId, Succeeds sha taken env signer command →
    command.places = some addressId → sha.kindOf addressId = some .addr

/-- A repayment order is accepted by the fundraiser or the present investor of its deal. -/
def AcceptedByParty (sha : Sha512) (taken : ChainStep) : Prop :=
  ∀ env signer repaymentOrderId,
    Succeeds sha taken env signer (.completeRepaymentOrder repaymentOrderId) →
    let state := taken.before.context
    let deal := dealAt state (repaymentAt state repaymentOrderId).deal
    signer = deal.sighash ∨ signer = ownerOf state deal.srcAddress

/-- The sources of orders, repayment orders and deal orders are addresses. -/
structure AddressesKept (sha : Sha512) (state : State) : Prop where
  /-- The orders. -/
  order : ∀ key, sha.IsOrder key → state.get key ≠ [] →
    sha.kindOf (orderAt state key).address = some .addr
  /-- The repayment orders. -/
  repayment : ∀ key, sha.kindOf key = some .repaymentOrder → state.get key ≠ [] →
    sha.kindOf (repaymentAt state key).srcAddress = some .addr
  /-- The deal orders. -/
  deal : ∀ key, sha.kindOf key = some .dealOrder → state.get key ≠ [] →
    sha.kindOf (dealAt state key).srcAddress = some .addr

/-- A party of the deal holds its lock. -/
def LockSound (sha : Sha512) (state : State) : Prop :=
  ∀ key, sha.kindOf key = some .dealOrder → (dealAt state key).lock ≠ [] →
    (dealAt state key).lock = (dealAt state key).sighash ∨
      (dealAt state key).lock = ownerOf state (dealAt state key).srcAddress

section Locks

variable {sha : Sha512} {env : Env} {signer : Text} {state after : State} {command : Command}
  {key : Text} {tip : UInt64} {steps : List ChainStep} {chain : Chain}

/-! ## Addresses -/

/-- The owner of an address stays. -/
theorem Executed.owner_stays (around : Surroundings sha env signer state command)
    (executed : Executed sha env signer state command after) {addressId : Text}
    (found : sha.kindOf addressId = some .addr) (owned : ownerOf state addressId ≠ []) :
    ownerOf after addressId = ownerOf state addressId := by
  have present : state.get addressId ≠ [] := by
    intro missing
    rw [ownerOf, addressAt, missing] at owned
    exact owned rfl
  rw [ownerOf, addressAt, executed.address_present around found present]
  rfl

/-- Commands that place orders for addresses keep the sources. -/
theorem Executed.addressesKept (around : Surroundings sha env signer state command)
    (executed : Executed sha env signer state command after)
    (placed : ∀ addressId, command.places = some addressId → sha.kindOf addressId = some .addr)
    (addresses : AddressesKept sha state) : AddressesKept sha after := by
  constructor
  · intro key isOrder present
    obtain ⟨side, found⟩ : ∃ side : Side, sha.kindOf key = some side.kind := by
      rcases isOrder with found | found
      · exact ⟨.ask, found⟩
      · exact ⟨.bid, found⟩
    rcases executed.order around side found with same | change
    · rw [orderAt, same]
      exact addresses.order key isOrder (same ▸ present)
    · obtain ⟨data, written, change⟩ : ∃ data, after.get key = data ∧
          OrderChange sha env signer state key command data := ⟨_, rfl, change⟩
      have read := congrArg Order.parseFromString written
      change orderAt after key = _ at read
      cases change with
      | created made =>
        rw [read, Order.parse_serialize]
        exact placed _ rfl
      | deleted => exact absurd written present
  · intro key found present
    rcases executed.repayment around found with same | change
    · rw [repaymentAt, same]
      exact addresses.repayment key found (same ▸ present)
    · obtain ⟨data, written, change⟩ : ∃ data, after.get key = data ∧
          RepaymentChange sha env signer state key command data := ⟨_, rfl, change⟩
      have read := congrArg RepaymentOrder.parseFromString written
      change repaymentAt after key = _ at read
      cases change with
      | created made =>
        rw [read, RepaymentOrder.parse_serialize]
        exact placed _ rfl
      | accepted =>
        cases executed with
        | completeRepaymentOrder covers there =>
          rw [read, RepaymentOrder.parse_serialize]
          exact addresses.repayment key found there
      | sold =>
        cases executed with
        | closeRepaymentOrder covers there =>
          rw [read, RepaymentOrder.parse_serialize]
          exact addresses.repayment key found there
      | mistaken there changed source =>
        rw [read, repayment_of_deal_write (by rw [changed]; rfl)]
        rcases source with same | ⟨other, otherThere, otherFound, same⟩
        · change sha.kindOf (DealOrder.srcAddress _) = _
          rw [same]
          exact addresses.repayment key found there
        · change sha.kindOf (DealOrder.srcAddress _) = _
          rw [same]
          exact addresses.repayment other otherFound otherThere
      | expired listed due => exact absurd written present
  · intro key found present
    rcases executed.deal_cases around found with
      same | ⟨_, _, offerId, _, rfl, _, read⟩ | ⟨there, _, step⟩ | ⟨gone, _⟩
    · rw [dealAt, same]
      exact addresses.deal key found (same ▸ present)
    · rw [read]
      cases executed with
      | addDealOrder fresh offerPresent unexpired bidPresent bidOwner askPresent =>
        have content : OfferContent sha (offerAt state offerId) :=
          around.kept.content offerPresent around.named
        exact addresses.order _ content.ask askPresent
    · have source := addresses.deal key found there
      generalize dealAt after key = next at step ⊢
      generalize dealAt state key = deal at step source
      cases step with
      | sold orderPresent orderFound =>
        exact addresses.repayment _ orderFound orderPresent
      | _ => exact source
    · exact absurd gone present

/-! ## Lock soundness -/

/-- A step in the life of a deal keeps its lock with a party, when a party accepts. -/
theorem DealStep.lockSound {deal next : DealOrder}
    (step : DealStep sha env signer state key command deal next)
    (sound : deal.lock ≠ [] → deal.lock = deal.sighash ∨ deal.lock = ownerOf state deal.srcAddress)
    (party : ∀ repaymentOrderId, command = .completeRepaymentOrder repaymentOrderId →
      (repaymentAt state repaymentOrderId).deal = key →
      signer = deal.sighash ∨ signer = ownerOf state deal.srcAddress) :
    next.lock ≠ [] → next.lock = next.sighash ∨
      next.srcAddress = deal.srcAddress ∧ next.lock = ownerOf state deal.srcAddress := by
  have carried (filled : deal.lock ≠ []) : deal.lock = deal.sighash ∨
      deal.srcAddress = deal.srcAddress ∧ deal.lock = ownerOf state deal.srcAddress :=
    (sound filled).imp_right fun held => ⟨rfl, held⟩
  cases step with
  | completed => exact carried
  | locked unlocked active owner => exact fun _ => .inl owner.symm
  | closed => exact carried
  | exempted => exact carried
  | accepted unlocked present found names =>
    exact fun _ => (party _ rfl names).imp_right fun held => ⟨rfl, held⟩
  | sold => exact fun filled => absurd rfl filled

/-- A command keeps every lock with a party, when a party accepts. -/
theorem Executed.lockSound (around : Surroundings sha env signer state command)
    (executed : Executed sha env signer state command after)
    (addresses : AddressesKept sha state)
    (party : ∀ repaymentOrderId, command = .completeRepaymentOrder repaymentOrderId →
      let deal := dealAt state (repaymentAt state repaymentOrderId).deal
      signer = deal.sighash ∨ signer = ownerOf state deal.srcAddress)
    (sound : LockSound sha state) : LockSound sha after := by
  intro key found filled
  have stays {addressId owner : Text} (kind : sha.kindOf addressId = some .addr)
      (named : owner ≠ []) (owns : owner = ownerOf state addressId) :
      owner = ownerOf after addressId := by
    rw [executed.owner_stays around kind (owns ▸ named)]
    exact owns
  rcases executed.deal_cases around found with
    same | ⟨_, _, offerId, _, rfl, _, read⟩ | ⟨there, _, step⟩ | ⟨gone, _⟩
  · rw [dealAt, same] at filled ⊢
    have there : state.get key ≠ [] := by
      intro missing
      rw [missing] at filled
      exact filled rfl
    exact (sound key found filled).imp_right (stays (addresses.deal key found there) filled)
  · rw [read] at filled
    exact absurd rfl filled
  · have held := step.lockSound (sound key found)
      (fun orderId accepts names => by
        have deal := party orderId accepts
        rw [names] at deal
        exact deal) filled
    refine held.imp_right ?_
    rintro ⟨source, owns⟩
    rw [source]
    exact stays (addresses.deal key found there) filled owns
  · rw [dealAt, gone] at filled
    exact absurd rfl filled

/-- In a run whose orders are placed for addresses and whose repayment orders are accepted by a
party of the deal, every lock is held by the fundraiser or the present investor. -/
theorem locks_sound (run : ChainRun sha tip steps chain)
    (guarded : ∀ taken ∈ steps,
      NamesOffers sha taken ∧ NamesAddresses sha taken ∧ AcceptedByParty sha taken) :
    LockSound sha chain.context := by
  refine (run.keptInvariant
    (fun chain => AddressesKept sha chain.context ∧ LockSound sha chain.context) ?_ ?_ guarded).2
  · refine ⟨⟨fun key _ present => absurd rfl present, fun key _ present => absurd rfl present,
      fun key _ present => absurd rfl present⟩, fun key _ filled => absurd rfl filled⟩
  · rintro taken kept ⟨addresses, sound⟩ did named ⟨places, party⟩
    cases did with
    | executed serves succeeds effect committed tip housekept =>
      have around := succeeds.around serves kept named
      refine ⟨effect.addressesKept around (fun addressId => places _ _ _ addressId succeeds)
        addresses, effect.lockSound around addresses ?_ sound⟩
      rintro repaymentOrderId rfl
      exact party _ _ _ succeeds
    | rejected same => exact same ▸ ⟨addresses, sound⟩
    | committed committed context housekept => exact context ▸ ⟨addresses, sound⟩

end Locks

/-! ## Locks of present and past investors -/

/-- Whether a command places orders for addresses only. -/
def Command.namesAddress (sha : Sha512) (command : Command) : Bool :=
  match command.places with
  | some addressId => sha.kindOf addressId = some .addr
  | none => true

/-- Whether a party of the deal accepts a repayment order. -/
def Command.acceptedByParty (state : State) (signer : Text) : Command → Bool
  | .completeRepaymentOrder repaymentOrderId =>
    let deal := dealAt state (repaymentAt state repaymentOrderId).deal
    signer = deal.sighash || signer = ownerOf state deal.srcAddress
  | _ => true

/-- Whether a command closes only an open repayment order for a deal order. -/
def Command.closesOpen (sha : Sha512) (chain : Chain) : Command → Bool
  | .closeRepaymentOrder repaymentOrderId _ =>
    let order := repaymentAt chain.context repaymentOrderId
    !order.previousOwner.isEmpty && order.transfer.isEmpty &&
      sha.kindOf order.deal = some .dealOrder
  | _ => true

/-- After the sale the past investor accepts the repayment order again. -/
def relocked : List Turn :=
  loanSold ++ [request investorKey "17" "CompleteRepaymentOrder" (sampleRepayment "13") []]

/-- The chain after the past investor accepted the repayment order again. -/
def relockedChain : Chain := (Chain.empty 2).plays sample sampleNode relocked

/-- The run of the sale: a party accepts the repayment order, the collector closes the open order
and has the deal, and the past investor locks it afterwards. -/
theorem loanSold_run :
    (Chain.empty 2).checks sample sampleNode (fun chain _ signer command =>
        command.ordinary sample chain &&
          (command.namesAddress sample && command.acceptedByParty chain.context signer &&
            command.closesOpen sample chain))
        loanSold = true ∧
      (((Chain.empty 2).plays sample sampleNode loanSold).context.get sampleDeal ≠ [] ∧
        (dealAt ((Chain.empty 2).plays sample sampleNode loanSold).context sampleDeal).srcAddress =
          sampleAddress "0x3") ∧
      (dealAt relockedChain.context sampleDeal).lock = sample.id investorKey ∧
      (dealAt relockedChain.context sampleDeal).sighash ≠ sample.id investorKey ∧
      ownerOf relockedChain.context (dealAt relockedChain.context sampleDeal).srcAddress ≠
        sample.id investorKey := by
  decide +kernel

/-- The sample loan is sold under a lock of its investor. -/
theorem locks_sound_sample :
    LockSound sample ((Chain.empty 2).plays sample sampleNode loanSold).context := by
  refine locks_sound Chain.steps_run fun taken listed => ?_
  obtain ⟨named, _, parties⟩ := Chain.checks_ordinary loanSold_run.1 taken listed
  refine ⟨named, fun env signer command addressId succeeds places => ?_,
    fun env signer repaymentOrderId succeeds => ?_⟩
  · have passes := (Bool.and_eq_true_iff.mp (parties _ _ _ succeeds)).1
    have address := (Bool.and_eq_true_iff.mp passes).1
    simpa only [Command.namesAddress, places, decide_eq_true_eq] using address
  · have passes := (Bool.and_eq_true_iff.mp (parties _ _ _ succeeds)).1
    have party := (Bool.and_eq_true_iff.mp passes).2
    simpa only [Command.acceptedByParty, Bool.or_eq_true, decide_eq_true_eq] using party

/-- A past investor can lock a deal order. -/
theorem locked_by_past_investor :
    ¬ ∀ (sha : Sha512) (tip : UInt64) (steps : List ChainStep) (chain : Chain),
      ChainRun sha tip steps chain → DistinctNonces steps → LockSound sha chain.context := by
  intro claim
  have distinct : DistinctNonces ((Chain.empty 2).steps sample sampleNode relocked) := by
    rw [DistinctNonces, Chain.steps_nonces]
    decide +kernel
  obtain ⟨-, -, lock, fundraiser, investor⟩ := loanSold_run
  have held := claim sample 2 _ relockedChain Chain.steps_run distinct sampleDeal
    (sample.kindOf_makeAddress .dealOrder _) (lock ▸ sample.id_ne_nil _)
  rcases held with same | same
  · exact fundraiser (same.symm.trans lock)
  · exact investor (same.symm.trans lock)

end Creditcoin
