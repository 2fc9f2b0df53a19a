import Creditcoin.Script

/-!
# Payments

A transfer is consumed by completing, closing or exempting a deal order, or by closing a
repayment order. The command marks the transfer as processed and names it in one field of one
record, and a processed transfer is refused from then on. So no payment counts twice.
-/

namespace Creditcoin

open Lib

/-- A field that names a consumed transfer. -/
inductive Slot where
  /-- `DealOrder.loan_transfer`. -/
  | loan (dealOrderId : Text)
  /-- `DealOrder.repayment_transfer`. -/
  | repayment (dealOrderId : Text)
  /-- `RepaymentOrder.transfer`. -/
  | sale (repaymentOrderId : Text)
deriving DecidableEq

namespace Slot

/-- The record of a field. -/
def key : Slot → Text
  | .loan dealOrderId => dealOrderId
  | .repayment dealOrderId => dealOrderId
  | .sale repaymentOrderId => repaymentOrderId

/-- The kind of the record of a field. -/
def kind : Slot → Kind
  | .loan _ => .dealOrder
  | .repayment _ => .dealOrder
  | .sale _ => .repaymentOrder

/-- The transfer a field names. -/
def transferId (state : State) : Slot → Text
  | .loan dealOrderId => (dealAt state dealOrderId).loanTransfer
  | .repayment dealOrderId => (dealAt state dealOrderId).repaymentTransfer
  | .sale repaymentOrderId => (repaymentAt state repaymentOrderId).transfer

end Slot

/-- The field a command fills. -/
def Command.fills : Command → Option Slot
  | .completeDealOrder dealOrderId _ => some (.loan dealOrderId)
  | .closeDealOrder dealOrderId _ => some (.repayment dealOrderId)
  | .exempt dealOrderId _ => some (.repayment dealOrderId)
  | .closeRepaymentOrder repaymentOrderId _ => some (.sale repaymentOrderId)
  | _ => none

/-- A field of a record of its kind names a transfer. -/
structure Slot.Names (sha : Sha512) (state : State) (slot : Slot) (transferId : Text) : Prop where
  /-- The record is of the kind of the field. -/
  found : sha.kindOf slot.key = some slot.kind
  /-- The field is filled. -/
  filled : transferId ≠ []
  /-- The field names the transfer. -/
  names : slot.transferId state = transferId

/-- Every transfer is named by one field at most, and then it is processed. -/
structure ConsumedOnce (sha : Sha512) (state : State) : Prop where
  /-- A named transfer is processed. -/
  processed : ∀ (slot : Slot) transferId, slot.Names sha state transferId →
    sha.kindOf transferId = some .transfer ∧ (transferAt state transferId).processed = true
  /-- Two fields name different transfers. -/
  unique : ∀ (left right : Slot) transferId, left.Names sha state transferId →
    right.Names sha state transferId → left = right

/-- Every payment of a run is consumed once, and neither released nor registered again. -/
structure PaymentsOnce (sha : Sha512) (steps : List ChainStep) (chain : Chain) : Prop where
  /-- A transfer is consumed once. -/
  consumed : ConsumedOnce sha chain.context
  /-- A processed transfer stays processed. -/
  settled : ∀ taken ∈ steps, ∀ transferId, sha.kindOf transferId = some .transfer →
    (transferAt taken.before.context transferId).processed = true →
    taken.after.context.get transferId = taken.before.context.get transferId
  /-- A registered transfer is not registered again. -/
  registered : ∀ taken ∈ steps, ∀ transferId, sha.kindOf transferId = some .transfer →
    taken.before.context.get transferId ≠ [] →
    taken.after.context.get transferId = taken.before.context.get transferId ∨
      transferAt taken.after.context transferId =
        { transferAt taken.before.context transferId with processed := true }

section Payments

variable {sha : Sha512} {env : Env} {signer : Text} {state after : State} {command : Command}
  {key transferId : Text} {tip : UInt64} {steps : List ChainStep} {chain : Chain}

/-! ## Transfers -/

/-- A registered transfer is left or processed. -/
theorem Executed.transfer_registered (around : Surroundings sha env signer state command)
    (executed : Executed sha env signer state command after)
    (found : sha.kindOf transferId = some .transfer) (present : state.get transferId ≠ []) :
    after.get transferId = state.get transferId ∨
      (transferAt state transferId).processed = false ∧
        transferAt after transferId = { transferAt state transferId with processed := true } := by
  rcases executed.transfer around found with same | change
  · exact .inl same
  · obtain ⟨data, written, change⟩ : ∃ data, after.get transferId = data ∧
        TransferChange sha env signer state transferId command data := ⟨_, rfl, change⟩
    have read := congrArg Transfer.parseFromString written
    cases change with
    | registered fresh order pays made => exact absurd fresh present
    | consumed present consumes unprocessed =>
      rw [Transfer.parse_serialize] at read
      exact .inr ⟨unprocessed, read⟩

/-- A processed transfer is present. -/
theorem present_of_processed (processed : (transferAt state transferId).processed = true) :
    state.get transferId ≠ [] := by
  intro missing
  rw [transferAt, missing] at processed
  cases processed

/-- A processed transfer is left. -/
theorem Executed.transfer_settled (around : Surroundings sha env signer state command)
    (executed : Executed sha env signer state command after)
    (found : sha.kindOf transferId = some .transfer)
    (processed : (transferAt state transferId).processed = true) :
    after.get transferId = state.get transferId := by
  rcases executed.transfer_registered around found (present_of_processed processed) with
    same | ⟨unprocessed, _⟩
  · exact same
  · rw [processed] at unprocessed
    cases unprocessed

/-- A command that consumes a transfer finds it unprocessed and leaves it processed. -/
theorem Executed.consumes (around : Surroundings sha env signer state command)
    (executed : Executed sha env signer state command after)
    (consumes : command.consumes = some transferId) :
    sha.kindOf transferId = some .transfer ∧ (transferAt state transferId).processed = false ∧
      (transferAt after transferId).processed = true := by
  have read {values : List (Text × Text)} (before : List (Text × Text))
      (transfer : sha.kindOf transferId = some .transfer)
      (skipped : ∀ entry ∈ before, sha.kindOf entry.1 ≠ some .transfer)
      (apart : ∀ entry ∈ values, sha.kindOf entry.1 ≠ some .transfer) :
      (transferAt (state.setAll (before ++ (transferId, { transferAt state transferId with
        processed := true }.serializeToString) :: values)) transferId).processed = true := by
    rw [transferAt, get_setAll_at before transfer skipped apart, if_pos rfl,
      Transfer.parse_serialize]
  obtain ⟨kept, live, isId, lists, named⟩ := around
  cases executed with
  | completeDealOrder present pending sourcePresent owner unexpired transferPresent order amount
      registrant unprocessed feeRead covers =>
    obtain rfl := Option.some.inj consumes
    obtain ⟨transfer, payable⟩ := kept.consumed isId transferPresent order present registrant
    have deal := kept.deal_of_pending present payable pending
    exact ⟨transfer, unprocessed, read [_] transfer (by simp [deal]) (by simp)⟩
  | closeDealOrder covers present unclosed owner locked transferPresent order registrant
      unprocessed loanPresent startRead maturityRead maturityNonzero principalRead interestRead
      repaidRead enough =>
    obtain rfl := Option.some.inj consumes
    obtain ⟨transfer, _⟩ := kept.consumed isId transferPresent order present registrant
    have deal := kept.deal_of_owner present (owner ▸ isId.ne_nil)
    exact ⟨transfer, unprocessed, read [_] transfer (by simp [deal]) (by simp)⟩
  | exempt covers present unclosed transferPresent order unprocessed sourcePresent owner =>
    obtain rfl := Option.some.inj consumes
    obtain ⟨transfer, payable⟩ := kept.exempted transferPresent order present sourcePresent
    exact ⟨transfer, unprocessed, read [_] transfer (by simp [payable.apart]) (by simp)⟩
  | closeRepaymentOrder covers present owner transferPresent order amount registrant unprocessed
      dealPresent sourcePresent locked =>
    obtain rfl := Option.some.inj consumes
    obtain ⟨transfer, payable⟩ := kept.consumed isId transferPresent order present registrant
    have repayment := kept.repayment_of_collector present payable (owner ▸ isId)
    have content : RepaymentContent sha _ (repaymentAt state _) := kept.content present repayment
    exact ⟨transfer, unprocessed,
      read [_, _] transfer (by simp [repayment, content.deal.apart]) (by simp)⟩
  | _ => cases consumes

/-! ## Fields -/

/-- A command leaves a field, clears it, or fills it with the transfer it consumes. -/
theorem Executed.slot (around : Surroundings sha env signer state command)
    (executed : Executed sha env signer state command after) (slot : Slot)
    (found : sha.kindOf slot.key = some slot.kind) :
    slot.transferId after = slot.transferId state ∨ slot.transferId after = [] ∨
      command.fills = some slot ∧ command.consumes = some (slot.transferId after) := by
  have deal (dealOrderId : Text) (found : sha.kindOf dealOrderId = some .dealOrder) :
      (dealAt after dealOrderId).loanTransfer = (dealAt state dealOrderId).loanTransfer ∧
          (dealAt after dealOrderId).repaymentTransfer =
            (dealAt state dealOrderId).repaymentTransfer ∨
        (dealAt after dealOrderId).loanTransfer = [] ∧
          (dealAt after dealOrderId).repaymentTransfer = [] ∨
        (command.fills = some (.loan dealOrderId) ∧
          command.consumes = some (dealAt after dealOrderId).loanTransfer ∧
          (dealAt after dealOrderId).repaymentTransfer =
            (dealAt state dealOrderId).repaymentTransfer) ∨
        (command.fills = some (.repayment dealOrderId) ∧
          command.consumes = some (dealAt after dealOrderId).repaymentTransfer ∧
          (dealAt after dealOrderId).loanTransfer = (dealAt state dealOrderId).loanTransfer) := by
    rcases executed.deal around found with same | change
    · rw [dealAt, same]
      exact .inl ⟨rfl, rfl⟩
    · obtain ⟨data, written, change⟩ : ∃ data, after.get dealOrderId = data ∧
          DealChange sha env signer state dealOrderId command data := ⟨_, rfl, change⟩
      have read := congrArg DealOrder.parseFromString written
      change dealAt after dealOrderId = _ at read
      rw [read]
      cases change with
      | created made =>
        rw [DealOrder.parse_serialize]
        exact .inr (.inl ⟨rfl, rfl⟩)
      | completed =>
        rw [DealOrder.parse_serialize]
        exact .inr (.inr (.inl ⟨rfl, rfl, rfl⟩))
      | locked =>
        rw [DealOrder.parse_serialize]
        exact .inl ⟨rfl, rfl⟩
      | closed =>
        rw [DealOrder.parse_serialize]
        exact .inr (.inr (.inr ⟨rfl, rfl, rfl⟩))
      | exempted =>
        rw [DealOrder.parse_serialize]
        exact .inr (.inr (.inr ⟨rfl, rfl, rfl⟩))
      | accepted names =>
        rw [DealOrder.parse_serialize]
        exact .inl ⟨rfl, rfl⟩
      | sold names =>
        rw [DealOrder.parse_serialize]
        exact .inl ⟨rfl, rfl⟩
      | expired listed due => exact .inr (.inl ⟨rfl, rfl⟩)
  cases slot with
  | loan dealOrderId =>
    rcases deal dealOrderId found with
      ⟨same, _⟩ | ⟨cleared, _⟩ | ⟨fills, consumes, _⟩ | ⟨_, _, same⟩
    · exact .inl same
    · exact .inr (.inl cleared)
    · exact .inr (.inr ⟨fills, consumes⟩)
    · exact .inl same
  | repayment dealOrderId =>
    rcases deal dealOrderId found with
      ⟨_, same⟩ | ⟨_, cleared⟩ | ⟨_, _, same⟩ | ⟨fills, consumes, _⟩
    · exact .inl same
    · exact .inr (.inl cleared)
    · exact .inl same
    · exact .inr (.inr ⟨fills, consumes⟩)
  | sale repaymentOrderId =>
    change sha.kindOf repaymentOrderId = some .repaymentOrder at found
    rcases executed.repayment around found with same | change
    · left
      rw [Slot.transferId, repaymentAt, same]
      rfl
    · obtain ⟨data, written, change⟩ : ∃ data, after.get repaymentOrderId = data ∧
          RepaymentChange sha env signer state repaymentOrderId command data := ⟨_, rfl, change⟩
      have read := congrArg RepaymentOrder.parseFromString written
      change repaymentAt after repaymentOrderId = _ at read
      rw [Slot.transferId, read]
      cases change with
      | created made =>
        rw [RepaymentOrder.parse_serialize]
        exact .inr (.inl rfl)
      | accepted =>
        rw [RepaymentOrder.parse_serialize]
        exact .inl rfl
      | sold =>
        rw [RepaymentOrder.parse_serialize]
        exact .inr (.inr ⟨rfl, rfl⟩)
      | mistaken there changed source =>
        exact .inl (textAt_deal_write changed (by decide : 9 ∉ [2, 11, 12]))
      | expired listed due => exact .inr (.inl rfl)

/-- Commands keep that every transfer is consumed once. -/
theorem Executed.consumedOnce (around : Surroundings sha env signer state command)
    (executed : Executed sha env signer state command after) (once : ConsumedOnce sha state) :
    ConsumedOnce sha after := by
  have cases' (slot : Slot) (transferId : Text) (named : slot.Names sha after transferId) :
      slot.Names sha state transferId ∨
        command.fills = some slot ∧ command.consumes = some transferId := by
    obtain ⟨found, filled, rfl⟩ := named
    rcases executed.slot around slot found with same | cleared | filling
    · exact .inl ⟨found, filled, same.symm⟩
    · exact absurd cleared filled
    · exact .inr filling
  have exclusive (slot : Slot) (transferId : Text) (named : slot.Names sha state transferId)
      (consumes : command.consumes = some transferId) : False := by
    have processed := (once.processed slot transferId named).2
    have unprocessed := (executed.consumes around consumes).2.1
    rw [processed] at unprocessed
    cases unprocessed
  constructor
  · intro slot transferId named
    rcases cases' slot transferId named with earlier | ⟨_, consumes⟩
    · obtain ⟨found, processed⟩ := once.processed slot transferId earlier
      refine ⟨found, ?_⟩
      rw [transferAt, executed.transfer_settled around found processed]
      exact processed
    · obtain ⟨found, _, processed⟩ := executed.consumes around consumes
      exact ⟨found, processed⟩
  · intro left right transferId leftNamed rightNamed
    rcases cases' left transferId leftNamed with leftEarlier | ⟨leftFills, leftConsumes⟩
    · rcases cases' right transferId rightNamed with rightEarlier | ⟨_, consumes⟩
      · exact once.unique left right transferId leftEarlier rightEarlier
      · exact (exclusive left transferId leftEarlier consumes).elim
    · rcases cases' right transferId rightNamed with rightEarlier | ⟨rightFills, _⟩
      · exact (exclusive right transferId rightEarlier leftConsumes).elim
      · rw [leftFills] at rightFills
        exact Option.some.inj rightFills

/-! ## Runs -/

/-- In a run every transfer is consumed once. -/
theorem ChainRun.consumedOnce (run : ChainRun sha tip steps chain)
    (named : ∀ taken ∈ steps, NamesOffers sha taken) : ConsumedOnce sha chain.context := by
  refine run.keptInvariant (fun chain => ConsumedOnce sha chain.context) ?_ ?_
    (fun taken listed => ⟨named taken listed, trivial⟩)
  · have empty (slot : Slot) (transferId : Text) : ¬ slot.Names sha ∅ transferId := by
      rintro ⟨_, filled, rfl⟩
      cases slot with
      | loan dealOrderId => exact filled rfl
      | repayment dealOrderId => exact filled rfl
      | sale repaymentOrderId => exact filled rfl
    exact ⟨fun slot transferId names => (empty slot transferId names).elim,
      fun left _ transferId names => (empty left transferId names).elim⟩
  · rintro taken kept once did named -
    cases did with
    | executed serves succeeds effect committed tip housekept =>
      exact effect.consumedOnce (succeeds.around serves kept named) once
    | rejected same => exact same ▸ once
    | committed committed context housekept => exact context ▸ once

/-- In a run whose deal orders are made of offers every payment is consumed once. -/
theorem payments_once (run : ChainRun sha tip steps chain)
    (guarded : ∀ taken ∈ steps, NamesOffers sha taken) : PaymentsOnce sha steps chain := by
  have around (taken : ChainStep) (listed : taken ∈ steps) :
      Chain.Did sha taken ∧ taken.before.Kept sha := by
    obtain ⟨earlier, _, _, reached, before, step⟩ := run.split guarded listed
    exact ⟨step.did, reached.kept before⟩
  refine ⟨run.consumedOnce guarded, fun taken listed transferId found processed => ?_,
    fun taken listed transferId found present => ?_⟩
  · obtain ⟨did, kept⟩ := around taken listed
    cases did with
    | executed serves succeeds effect committed tip housekept =>
      exact effect.transfer_settled (succeeds.around serves kept (guarded taken listed)) found
        processed
    | rejected same => rw [same]
    | committed committed context housekept => rw [context]
  · obtain ⟨did, kept⟩ := around taken listed
    cases did with
    | executed serves succeeds effect committed tip housekept =>
      exact (effect.transfer_registered (succeeds.around serves kept (guarded taken listed)) found
        present).imp_right And.right
    | rejected same => exact .inl (by rw [same])
    | committed committed context housekept => exact .inl (by rw [context])

end Payments

/-! ## Payments of the sample loan -/

/-- The payment of the sample loan is consumed once. -/
theorem payments_once_sample :
    PaymentsOnce sample ((Chain.empty 2).steps sample sampleNode loanPaid)
      ((Chain.empty 2).plays sample sampleNode loanPaid) := by
  have checked : (Chain.empty 2).checks sample sampleNode
      (fun chain _ _ command => command.ordinary sample chain && true) loanPaid = true :=
    Chain.checks_plain (by decide +kernel)
  exact payments_once Chain.steps_run fun taken listed =>
    (Chain.checks_ordinary checked taken listed).1

/-- The chain that has the payment of the sample loan deleted. -/
def deletedChain : Chain :=
  (Chain.empty 1).plays sample sampleNode (loanPaid ++ deletes (sampleTransfer "1"))

/-- A consumed transfer can be deleted, and then it is not processed. -/
theorem payment_deleted :
    ¬ ∀ (sha : Sha512) (tip : UInt64) (steps : List ChainStep) (chain : Chain),
      ChainRun sha tip steps chain → PaymentsOnce sha steps chain := by
  intro claim
  have deleted : (dealAt deletedChain.context sampleDeal).loanTransfer = sampleTransfer "1" ∧
      sampleTransfer "1" ≠ [] ∧
      (transferAt deletedChain.context (sampleTransfer "1")).processed = false := by
    decide +kernel
  obtain ⟨names, filled, unprocessed⟩ := deleted
  have named : (Slot.loan sampleDeal).Names sample deletedChain.context (sampleTransfer "1") :=
    ⟨sample.kindOf_makeAddress .dealOrder _, filled, names⟩
  have consumed := (claim sample 1 _ deletedChain Chain.steps_run).consumed
  have processed := (consumed.processed _ _ named).2
  rw [unprocessed] at processed
  cases processed

end Creditcoin
