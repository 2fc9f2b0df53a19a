import Creditcoin.Acceptance
import Creditcoin.Determinism
import Creditcoin.Settlements

/-!
# Cleaning up

`Housekeeping` deletes records whose terms have run out. The commands that take up orders check the
terms of some records that they read and not of others: `AddDealOrder` checks the offer and not its
orders, and `CompleteRepaymentOrder` checks no term at all. So a clean-up leaves the verdict on such
a command as it would have been without it, as long as no record is due that the command reads
without a look at its term.
-/

namespace Creditcoin

open Lib

/-- A state with the records that a clean-up lists as they were before it. -/
def spare (sha : Sha512) (before after : State) : State :=
  after.setAll ((before.entries.map fun entry => (entry.1, entry.2)).filter fun entry =>
    sweptKinds.any fun kind => sha.kindOf entry.1 = some kind)

/-- The keys that a command that takes up orders reads. -/
def Command.reads (sha : Sha512) (signer : Text) (state : State) : Command → List Text
  | .addOffer askOrderId bidOrderId _ =>
    [sha.walletId signer, sha.makeAddress .offer (askOrderId ++ bidOrderId), askOrderId,
      (orderAt state askOrderId).address, bidOrderId, (orderAt state bidOrderId).address]
  | .addDealOrder offerId _ =>
    [sha.walletId signer, sha.makeAddress .dealOrder offerId, offerId,
      (offerAt state offerId).askOrder, (offerAt state offerId).bidOrder]
  | .completeDealOrder dealOrderId transferId =>
    [sha.walletId signer, transferId, dealOrderId, (dealAt state dealOrderId).srcAddress]
  | .completeRepaymentOrder repaymentOrderId =>
    [sha.walletId signer, repaymentOrderId, (repaymentAt state repaymentOrderId).dstAddress,
      (repaymentAt state repaymentOrderId).deal]
  | _ => []

/-- The keys among them whose terms the command checks. -/
def Command.watches : Command → List Text
  | .addOffer askOrderId bidOrderId _ => [askOrderId, bidOrderId]
  | .addDealOrder offerId _ => [offerId]
  | .completeDealOrder dealOrderId _ => [dealOrderId]
  | _ => []

/-- The keys among them whose terms the command does not check. -/
def Command.overlooks (sha : Sha512) (state : State) : Command → List Text
  | .addOffer askOrderId bidOrderId _ =>
    [sha.makeAddress .offer (askOrderId ++ bidOrderId), (orderAt state askOrderId).address,
      (orderAt state bidOrderId).address]
  | .addDealOrder offerId _ =>
    [sha.makeAddress .dealOrder offerId, (offerAt state offerId).askOrder,
      (offerAt state offerId).bidOrder]
  | .completeDealOrder dealOrderId _ => [(dealAt state dealOrderId).srcAddress]
  | .completeRepaymentOrder repaymentOrderId =>
    [repaymentOrderId, (repaymentAt state repaymentOrderId).dstAddress,
      (repaymentAt state repaymentOrderId).deal]
  | _ => []

/-- The key that a command writes only when it is free. -/
def Command.claims (sha : Sha512) : Command → List Text
  | .addOffer askOrderId bidOrderId _ => [sha.makeAddress .offer (askOrderId ++ bidOrderId)]
  | .addDealOrder offerId _ => [sha.makeAddress .dealOrder offerId]
  | _ => []

/-- A clean-up does not touch what a later command overlooks. -/
structure Harmless (sha : Sha512) (env : Env) (blockIdx : Int) (state : State)
    (command : Command) : Prop where
  /-- The later command names an offer. -/
  named : command.NamesOffer sha
  /-- No due record that the command watches was replaced in the block. -/
  current : ∀ record ∈ dueRecords sha env blockIdx, record.2.1 ∈ command.watches →
    state.get record.2.1 = record.2.2 ∨ state.get record.2.1 = []
  /-- Nothing that the command overlooks is due. -/
  undue : ∀ record ∈ dueRecords sha env blockIdx, record.2.1 ∉ command.overlooks sha state

/-- The verdict on a later transaction is what it would have been without the step. -/
def SameVerdict (sha : Sha512) (taken : ChainStep) (later : Env) (payload : Json) : Prop :=
  Accepts sha later taken.after.context payload ↔
    Accepts sha later (spare sha taken.before.context taken.after.context) payload

/-- A record of a kind whose term a command checks, and has not run out at a height. -/
def StillOpen (height : Int) (value : Text) : Kind → Prop
  | .askOrder =>
    Unexpired (Order.parseFromString value).expiration (Order.parseFromString value).block height
  | .bidOrder =>
    Unexpired (Order.parseFromString value).expiration (Order.parseFromString value).block height
  | .offer =>
    Unexpired (Offer.parseFromString value).expiration (Offer.parseFromString value).block height
  | .dealOrder =>
    Unexpired (DealOrder.parseFromString value).expiration
      (DealOrder.parseFromString value).block height
  | _ => False

section Footprints

variable {sha : Sha512} {env : Env} {signer key : Text} {state other after : State}
  {command : Command} {payload : Json}

/-! ## What the commands read -/

/-- A wallet that is the same covers the same. -/
theorem Covers.elsewhere {cost balance : Int}
    (same : other.get (sha.walletId signer) = state.get (sha.walletId signer))
    (covers : Covers sha state signer cost balance) : Covers sha other signer cost balance := by
  have wallet : walletOf sha other signer = walletOf sha state signer :=
    congrArg Wallet.parseFromString same
  exact ⟨same ▸ covers.present, wallet ▸ covers.read, covers.nonneg, covers.covered⟩

/-- A command that takes up orders can be executed in every state with the records that it reads. -/
theorem Executed.elsewhere (takes : command.takesUp = true)
    (executed : Executed sha env signer state command after)
    (same : ∀ key ∈ command.reads sha signer state, other.get key = state.get key) :
    ∃ written, Executed sha env signer other command written := by
  cases executed with
  | addOffer covers fresh askPresent askOwner askUnexpired sourcePresent bidPresent bidOwner
      bidUnexpired targetPresent blockchain network amount fee askInterestRead askMaturityRead
      askMaturityNonzero bidInterestRead bidMaturityRead bidMaturityNonzero rate =>
    simp only [Command.reads, List.forall_mem_cons] at same
    obtain ⟨wallet, free, ask, source, bid, target, -⟩ := same
    rename_i askOrderId bidOrderId _ _ _ _ _ _
    have askSame : orderAt other askOrderId = orderAt state askOrderId :=
      congrArg Order.parseFromString ask
    have bidSame : orderAt other bidOrderId = orderAt state bidOrderId :=
      congrArg Order.parseFromString bid
    have sourceSame : addressAt other (orderAt state askOrderId).address =
        addressAt state (orderAt state askOrderId).address :=
      congrArg Address.parseFromString source
    have targetSame : addressAt other (orderAt state bidOrderId).address =
        addressAt state (orderAt state bidOrderId).address :=
      congrArg Address.parseFromString target
    refine ⟨_, .addOffer (covers.elsewhere wallet) (free.trans fresh) (ask ▸ askPresent) ?_ ?_ ?_
      (bid ▸ bidPresent) ?_ ?_ ?_ ?_ ?_ ?_ ?_ ?_ ?_ askMaturityNonzero ?_ ?_ bidMaturityNonzero
      rate⟩
    · rwa [askSame]
    · rwa [askSame]
    · rwa [askSame, source]
    · rwa [bidSame]
    · rwa [bidSame]
    · rwa [bidSame, target]
    · rwa [askSame, bidSame, sourceSame, targetSame]
    · rwa [askSame, bidSame, sourceSame, targetSame]
    · rwa [askSame, bidSame]
    · rwa [askSame, bidSame]
    · rwa [askSame]
    · rwa [askSame]
    · rwa [bidSame]
    · rwa [bidSame]
  | addDealOrder fresh present unexpired bidPresent bidOwner askPresent feeRead covers =>
    simp only [Command.reads, List.forall_mem_cons] at same
    obtain ⟨wallet, free, offer, ask, bid, -⟩ := same
    rename_i offerId _ _ _
    have offerSame : offerAt other offerId = offerAt state offerId :=
      congrArg Offer.parseFromString offer
    have bidSame : orderAt other (offerAt state offerId).bidOrder =
        orderAt state (offerAt state offerId).bidOrder := congrArg Order.parseFromString bid
    refine ⟨_, .addDealOrder (free.trans fresh) (offer ▸ present) ?_ ?_ ?_ ?_ ?_
      (covers.elsewhere wallet)⟩
    · rwa [offerSame]
    · rwa [offerSame, bid]
    · rwa [offerSame, bidSame]
    · rwa [offerSame, ask]
    · rwa [offerSame, bidSame]
  | completeDealOrder present pending sourcePresent owner unexpired transferPresent order amount
      registrant unprocessed feeRead covers =>
    simp only [Command.reads, List.forall_mem_cons] at same
    obtain ⟨wallet, transfer, deal, source, -⟩ := same
    rename_i dealOrderId transferId _ _
    have dealSame : dealAt other dealOrderId = dealAt state dealOrderId :=
      congrArg DealOrder.parseFromString deal
    have transferSame : transferAt other transferId = transferAt state transferId :=
      congrArg Transfer.parseFromString transfer
    have sourceSame : addressAt other (dealAt state dealOrderId).srcAddress =
        addressAt state (dealAt state dealOrderId).srcAddress :=
      congrArg Address.parseFromString source
    refine ⟨_, .completeDealOrder (deal ▸ present) ?_ ?_ ?_ ?_ (transfer ▸ transferPresent) ?_ ?_
      ?_ ?_ ?_ (covers.elsewhere wallet)⟩
    · rwa [dealSame]
    · rwa [dealSame, source]
    · rwa [dealSame, sourceSame]
    · rwa [dealSame]
    · rwa [transferSame]
    · rwa [transferSame, dealSame]
    · rwa [transferSame]
    · rwa [transferSame]
    · rwa [dealSame]
  | completeRepaymentOrder covers present targetPresent owner dealPresent unlocked =>
    simp only [Command.reads, List.forall_mem_cons] at same
    obtain ⟨wallet, order, target, deal, -⟩ := same
    rename_i repaymentOrderId _
    have orderSame : repaymentAt other repaymentOrderId = repaymentAt state repaymentOrderId :=
      congrArg RepaymentOrder.parseFromString order
    have targetSame : addressAt other (repaymentAt state repaymentOrderId).dstAddress =
        addressAt state (repaymentAt state repaymentOrderId).dstAddress :=
      congrArg Address.parseFromString target
    have dealSame : dealAt other (repaymentAt state repaymentOrderId).deal =
        dealAt state (repaymentAt state repaymentOrderId).deal :=
      congrArg DealOrder.parseFromString deal
    refine ⟨_, .completeRepaymentOrder (covers.elsewhere wallet) (order ▸ present) ?_ ?_ ?_ ?_⟩
    · rwa [orderSame, target]
    · rwa [orderSame, targetSame]
    · rwa [orderSame, deal]
    · rwa [orderSame, dealSame]
  | _ => cases takes

/-- What a command reads is there, besides the key that it claims. -/
theorem Executed.reads_present (executed : Executed sha env signer state command after)
    (read : key ∈ command.reads sha signer state) :
    state.get key ≠ [] ∨ key ∈ command.claims sha := by
  cases executed with
  | addOffer covers fresh askPresent askOwner askUnexpired sourcePresent bidPresent bidOwner
      bidUnexpired targetPresent =>
    simp only [Command.reads, List.mem_cons, List.not_mem_nil, or_false] at read
    rcases read with rfl | rfl | rfl | rfl | rfl | rfl
    · exact .inl covers.present
    · exact .inr List.mem_cons_self
    · exact .inl askPresent
    · exact .inl sourcePresent
    · exact .inl bidPresent
    · exact .inl targetPresent
  | addDealOrder fresh present unexpired bidPresent bidOwner askPresent feeRead covers =>
    simp only [Command.reads, List.mem_cons, List.not_mem_nil, or_false] at read
    rcases read with rfl | rfl | rfl | rfl | rfl
    · exact .inl covers.present
    · exact .inr List.mem_cons_self
    · exact .inl present
    · exact .inl askPresent
    · exact .inl bidPresent
  | completeDealOrder present pending sourcePresent owner unexpired transferPresent order amount
      registrant unprocessed feeRead covers =>
    simp only [Command.reads, List.mem_cons, List.not_mem_nil, or_false] at read
    rcases read with rfl | rfl | rfl | rfl
    · exact .inl covers.present
    · exact .inl transferPresent
    · exact .inl present
    · exact .inl sourcePresent
  | completeRepaymentOrder covers present targetPresent owner dealPresent =>
    simp only [Command.reads, List.mem_cons, List.not_mem_nil, or_false] at read
    rcases read with rfl | rfl | rfl | rfl
    · exact .inl covers.present
    · exact .inl present
    · exact .inl targetPresent
    · exact .inl dealPresent
  | _ => exact absurd read List.not_mem_nil

/-- A key that a command claims is one that it overlooks. -/
theorem Command.overlooks_of_claims (claimed : key ∈ command.claims sha) :
    key ∈ command.overlooks sha state := by
  cases command with
  | addOffer =>
    obtain rfl := List.mem_singleton.mp claimed
    exact List.mem_cons_self
  | addDealOrder =>
    obtain rfl := List.mem_singleton.mp claimed
    exact List.mem_cons_self
  | _ => exact absurd claimed List.not_mem_nil

/-- What a command reads is of a kind that is not listed, or overlooked, or still open. -/
theorem Executed.reads_open {before : State} (kept : Kept sha state) (isId : sha.IsId signer)
    (named : command.NamesOffer sha) (executed : Executed sha env signer state command after)
    (same : ∀ key kind, sha.kindOf key = some kind → kind ∈ sweptKinds →
      state.get key = before.get key)
    (read : key ∈ command.reads sha signer state) :
    (∀ kind ∈ sweptKinds, sha.kindOf key ≠ some kind) ∨ key ∈ command.overlooks sha before ∨
      key ∈ command.watches ∧
        ∀ kind, sha.kindOf key = some kind → StillOpen env.head (state.get key) kind := by
  have apart {other : Kind} (found : sha.kindOf key = some other) (unlisted : other ∉ sweptKinds) :
      ∀ kind ∈ sweptKinds, sha.kindOf key ≠ some kind := by
    intro kind swept equal
    rw [found, Option.some.injEq] at equal
    exact unlisted (equal ▸ swept)
  cases executed with
  | addOffer covers fresh askPresent askOwner askUnexpired sourcePresent bidPresent bidOwner
      bidUnexpired targetPresent blockchain network amount fee askInterestRead askMaturityRead
      askMaturityNonzero bidInterestRead bidMaturityRead bidMaturityNonzero rate =>
    rename_i askOrderId bidOrderId _ _ _ _ _ _
    have maturity : (orderAt state bidOrderId).maturity ≠ [] := by
      intro empty
      rw [empty] at bidMaturityRead
      exact bidMaturityNonzero (Option.some.inj bidMaturityRead.1).symm
    obtain ⟨ask, bid⟩ := kept.offered isId askPresent askOwner ⟨_, askInterestRead⟩ bidPresent
      targetPresent amount ⟨_, bidInterestRead⟩ maturity
    have before' {orderId : Text} (isOrder : sha.IsOrder orderId) :
        orderAt state orderId = orderAt before orderId := by
      rcases isOrder with kind | kind
      · exact congrArg Order.parseFromString (same _ _ kind (by decide))
      · exact congrArg Order.parseFromString (same _ _ kind (by decide))
    have open' {orderId : Text} (isOrder : sha.IsOrder orderId)
        (unexpired : Unexpired (orderAt state orderId).expiration (orderAt state orderId).block
          env.head) (kind : Kind) (found : sha.kindOf orderId = some kind) :
        StillOpen env.head (state.get orderId) kind := by
      rcases isOrder with other | other
      · rw [found, Option.some.injEq] at other
        exact other ▸ unexpired
      · rw [found, Option.some.injEq] at other
        exact other ▸ unexpired
    simp only [Command.reads, List.mem_cons, List.not_mem_nil, or_false] at read
    rcases read with rfl | rfl | rfl | rfl | rfl | rfl
    · exact .inl (apart (sha.kindOf_walletId _) (by decide))
    · exact .inr (.inl List.mem_cons_self)
    · exact .inr (.inr ⟨List.mem_cons_self, open' ask askUnexpired⟩)
    · rw [before' ask]
      exact .inr (.inl (by simp [Command.overlooks]))
    · exact .inr (.inr ⟨by simp [Command.watches], open' bid bidUnexpired⟩)
    · rw [before' bid]
      exact .inr (.inl (by simp [Command.overlooks]))
  | addDealOrder fresh present unexpired bidPresent bidOwner askPresent feeRead covers =>
    rename_i offerId _ _ _
    have offer : offerAt state offerId = offerAt before offerId :=
      congrArg Offer.parseFromString (same _ _ named (by decide))
    simp only [Command.reads, List.mem_cons, List.not_mem_nil, or_false] at read
    rcases read with rfl | rfl | rfl | rfl | rfl
    · exact .inl (apart (sha.kindOf_walletId _) (by decide))
    · exact .inr (.inl List.mem_cons_self)
    · refine .inr (.inr ⟨List.mem_cons_self, fun kind found => ?_⟩)
      have isOffer : sha.kindOf _ = some .offer := named
      rw [found, Option.some.injEq] at isOffer
      exact isOffer ▸ unexpired
    · rw [offer]
      exact .inr (.inl (by simp [Command.overlooks]))
    · rw [offer]
      exact .inr (.inl (by simp [Command.overlooks]))
  | completeDealOrder present pending sourcePresent owner unexpired transferPresent order amount
      registrant unprocessed feeRead covers =>
    obtain ⟨transfer, payable⟩ := kept.consumed isId transferPresent order present registrant
    have isDeal := kept.deal_of_pending present payable pending
    rename_i dealOrderId transferId _ _
    have deal : dealAt state dealOrderId = dealAt before dealOrderId :=
      congrArg DealOrder.parseFromString (same _ _ isDeal (by decide))
    simp only [Command.reads, List.mem_cons, List.not_mem_nil, or_false] at read
    rcases read with rfl | rfl | rfl | rfl
    · exact .inl (apart (sha.kindOf_walletId _) (by decide))
    · exact .inl (apart transfer (by decide))
    · refine .inr (.inr ⟨List.mem_cons_self, fun kind found => ?_⟩)
      rw [found, Option.some.injEq] at isDeal
      exact isDeal ▸ unexpired
    · rw [deal]
      exact .inr (.inl List.mem_cons_self)
  | completeRepaymentOrder covers present targetPresent owner dealPresent unlocked =>
    have isRepayment := kept.repayment_of_deal present targetPresent dealPresent
    rename_i repaymentOrderId _
    have repayment : repaymentAt state repaymentOrderId = repaymentAt before repaymentOrderId :=
      congrArg RepaymentOrder.parseFromString (same _ _ isRepayment (by decide))
    simp only [Command.reads, List.mem_cons, List.not_mem_nil, or_false] at read
    rcases read with rfl | rfl | rfl | rfl
    · exact .inl (apart (sha.kindOf_walletId _) (by decide))
    · exact .inr (.inl List.mem_cons_self)
    · rw [repayment]
      exact .inr (.inl (by simp [Command.overlooks]))
    · rw [repayment]
      exact .inr (.inl (by simp [Command.overlooks]))
  | _ => exact absurd read List.not_mem_nil

/-- A transaction that is accepted in a state is accepted in every state with the records that its
command reads. -/
theorem accepts_elsewhere (live : env.Live) (read : payload.command = .ok command)
    (takes : command.takesUp = true)
    (same : ∀ signer written, sha.IsId signer → Executed sha env signer state command written →
      ∀ key ∈ command.reads sha signer state, other.get key = state.get key)
    (accepted : Accepts sha env state payload) : Accepts sha env other payload := by
  obtain ⟨memory, ran⟩ := accepted
  obtain ⟨_, _, _, _, _, _, admits, _, _⟩ := apply_ok.mp ran
  obtain ⟨signer, command', signed, read', executed⟩ := apply_executed live ran
  rw [read, Except.ok.injEq] at read'
  subst read'
  apply (accepts_iff live signed admits read takes).mpr
  exact executed.elsewhere takes (same signer _ (sighash_isId live signed) executed)

end Footprints

/-! ## What a clean-up leaves -/

section Collection

variable {sha : Sha512} {env later : Env} {signer key : Text} {before after : State}
  {command : Command} {payload : Json} {kind : Kind} {blockIdx last : Int} {memory left : Memory}
  {blocks : List (Int × Text)} {tip : UInt64} {steps : List ChainStep} {chain : Chain}
  {taken : ChainStep}

/-- What a clean-up may restore is as it was. -/
theorem mem_spared {entry : Text × Text}
    (listed : entry ∈ (before.entries.map fun entry => (entry.1, entry.2)).filter fun entry =>
      sweptKinds.any fun kind => sha.kindOf entry.1 = some kind) :
    before.get entry.1 = entry.2 ∧ entry.1 ∈ before ∧
      ∃ kind ∈ sweptKinds, sha.kindOf entry.1 = some kind := by
  rw [List.mem_filter, List.mem_map, List.any_eq_true] at listed
  obtain ⟨⟨stored, member, rfl⟩, kind, swept, found⟩ := listed
  exact ⟨Store.get_of_mem_entries member, List.mem_keys_of_mem member, kind, swept,
    of_decide_eq_true found⟩

/-- Records of the kinds that are listed are spared. -/
theorem get_spare (found : sha.kindOf key = some kind) (swept : kind ∈ sweptKinds)
    (gone : before.get key = [] → after.get key = []) :
    (spare sha before after).get key = before.get key := by
  have written (entry : Text × Text)
      (listed : entry ∈ (before.entries.map fun entry => (entry.1, entry.2)).filter fun entry =>
        sweptKinds.any fun kind => sha.kindOf entry.1 = some kind)
      (equal : entry.1 = key) : entry.2 = before.get key := by
    rw [← (mem_spared listed).1, equal]
  by_cases missing : before.get key = []
  · exact @Store.get_setAll_holds _ _ _ after (fun data => data = before.get key) _ _
      ((gone missing).trans missing.symm) written
  · refine @Store.get_setAll_written _ _ _ after (fun data => data = before.get key) _ _ ?_ written
    refine List.mem_map.mpr ⟨(key, before.get key), ?_, rfl⟩
    rw [List.mem_filter, List.mem_map, List.any_eq_true]
    exact ⟨⟨_, Store.mem_entries_of_get missing, rfl⟩, kind, swept, decide_eq_true found⟩

/-- Other records are as the clean-up leaves them. -/
theorem get_spare_apart (apart : ∀ kind ∈ sweptKinds, sha.kindOf key ≠ some kind) :
    (spare sha before after).get key = after.get key := by
  apply Store.get_setAll_of_notMem
  intro listed
  obtain ⟨entry, member, rfl⟩ := List.mem_map.mp listed
  obtain ⟨_, _, kind, swept, found⟩ := mem_spared member
  exact apart kind swept found

/-- Sparing records keeps the shapes. -/
theorem Kept.spare (kept : Kept sha before) (later : Kept sha after) :
    Kept sha (Creditcoin.spare sha before after) := by
  have shaped (values : List (Text × Text)) (state : State) (shapes : Kept sha state)
      (written : ∀ entry ∈ values, Shape sha entry.1 entry.2) : Kept sha (state.setAll values) := by
    induction values generalizing state with
    | nil => exact shapes
    | cons entry values ih =>
      rw [List.forall_mem_cons] at written
      exact ih _ (shapes.set written.1) written.2
  apply shaped _ _ later
  intro entry listed
  obtain ⟨stored, member, _⟩ := mem_spared listed
  exact stored ▸ kept entry.1 member

/-- What was listed is handed to the callbacks. -/
theorem Listed.mem {start value : Text} (listed : Listed env start key value) :
    (key, value) ∈ env.listed start := by
  obtain ⟨pages, answer, member⟩ := listed
  rw [Env.listed, answer]
  exact member

/-- The marker is not listed. -/
theorem sweptKinds_marker (swept : kind ∈ sweptKinds) : kind ≠ .processedBlock := by
  intro same
  subst same
  simp [sweptKinds] at swept

/-- A `Housekeeping` leaves a record of a kind that is listed, or deletes it when it is due, well
below the head. -/
theorem Housekept.record (live : env.Live) (lists : env.ListsKept sha)
    (path : Housekept sha env blockIdx last memory blocks left)
    (found : sha.kindOf key = some kind) (swept : kind ∈ sweptKinds) :
    left.state.get key = memory.state.get key ∨
      left.state.get key = [] ∧ blockIdx < env.head - confirmationCount ∧
        ∃ value, (kind, key, value) ∈ dueRecords sha env blockIdx := by
  have noWallet : sha.kindOf key ≠ some .wallet := by
    rw [found]
    exact fun same => sweptKinds_apart swept (Option.some.inj same)
  have noMarker : key ≠ sha.processedBlockIdx := by
    apply sha.ne_of_kindOf_ne
    rw [found, sha.kindOf_processedBlockIdx]
    exact fun same => sweptKinds_marker swept (Option.some.inj same)
  cases path with
  | idle => exact .inl rfl
  | ignored => exact .inl rfl
  | rewarded periodic late formula fetched ran =>
    left
    rw [Store.get_set_ne _ noMarker]
    exact awards_frame live noWallet ran
  | settled explicit verified inside settled sweeps formula fetched ran =>
    rw [Store.get_set_ne _ noMarker, awards_frame live noWallet ran]
    rcases swept_record lists found (sweptKinds_apart swept) (sweptKinds_marker swept)
      (sweep_swept live settled sweeps) with same | ⟨gone, value, listed, due⟩
    · exact .inl same
    · exact .inr ⟨gone, settled, value, mem_dueRecords.mpr ⟨swept, listed.mem, due⟩⟩

/-- A record that is due is not open any more. -/
theorem Due.not_open {value : Text} {height : Int} (due : Due env blockIdx value kind)
    (later : blockIdx ≤ height) : ¬ StillOpen height value kind := by
  cases kind with
  | askOrder => exact due.not_unexpired later
  | bidOrder => exact due.not_unexpired later
  | offer => exact due.not_unexpired later
  | dealOrder => exact due.2.1.not_unexpired later
  | _ => exact id

/-- In a run whose `AddDealOrder`s name offers, a clean-up leaves the verdict on a later transaction
that takes up orders, when it does not touch what the command overlooks. -/
theorem verdict_same (run : ChainRun sha tip steps chain)
    (guarded : ∀ taken ∈ steps, NamesOffers sha taken) (listed : taken ∈ steps)
    (succeeds : Succeeds sha taken env signer (.housekeeping blockIdx)) (live : later.Live)
    (afterwards : env.head ≤ later.head) (read : payload.command = .ok command)
    (takes : command.takesUp = true)
    (harmless : Harmless sha env blockIdx taken.before.context command) :
    SameVerdict sha taken later payload := by
  obtain ⟨earlier, _, _, reached, before, step⟩ := run.split guarded listed
  have kept := reached.kept before
  obtain ⟨serves, executed⟩ := succeeds.executed step
  have around := succeeds.around serves kept (guarded taken listed)
  obtain ⟨last, blocks, memory, _, path, left⟩ := succeeds.housekept step
  have record {key : Text} {kind : Kind} (found : sha.kindOf key = some kind)
      (swept : kind ∈ sweptKinds) :
      taken.after.context.get key = taken.before.context.get key ∨
        taken.after.context.get key = [] ∧ blockIdx < env.head - confirmationCount ∧
          ∃ value, (kind, key, value) ∈ dueRecords sha env blockIdx := by
    rw [left]
    exact path.record serves.live around.lists found swept
  have spared (key : Text) (kind : Kind) (found : sha.kindOf key = some kind)
      (swept : kind ∈ sweptKinds) :
      (spare sha taken.before.context taken.after.context).get key =
        taken.before.context.get key := by
    apply get_spare found swept
    intro missing
    rcases record found swept with same | ⟨gone, _⟩
    · exact same.trans missing
    · exact gone
  -- a record is there with and without the clean-up, or it was due and is deleted
  have cases (key : Text) :
      taken.after.context.get key =
          (spare sha taken.before.context taken.after.context).get key ∨
        taken.after.context.get key = [] ∧ blockIdx ≤ later.head ∧ ∃ kind ∈ sweptKinds,
          sha.kindOf key = some kind ∧ ∃ value, (kind, key, value) ∈ dueRecords sha env blockIdx := by
    by_cases swept : ∃ kind ∈ sweptKinds, sha.kindOf key = some kind
    · obtain ⟨kind, swept, found⟩ := swept
      rcases record found swept with same | ⟨gone, settled, value, due⟩
      · exact .inl (same.trans (spared key kind found swept).symm)
      · have count : confirmationCount = 30 := rfl
        exact .inr ⟨gone, by omega, kind, swept, found, value, due⟩
    · left
      rw [get_spare_apart]
      intro kind listed found
      exact swept ⟨kind, listed, found⟩
  have shapes : Kept sha taken.after.context :=
    executed.kept around.kept around.live around.isId around.lists around.named
  constructor
  · apply accepts_elsewhere live read takes
    intro signer' written _ executed' key member
    rcases cases key with same | ⟨gone, _, kind, _, _, value, due⟩
    · exact same.symm
    · rcases executed'.reads_present member with present | claimed
      · exact absurd gone present
      · exact absurd (Command.overlooks_of_claims claimed) (harmless.undue _ due)
  · apply accepts_elsewhere live read takes
    intro signer' written isId executed' key member
    rcases cases key with same | ⟨gone, below, kind, swept, found, value, due⟩
    · exact same
    · rcases executed'.reads_open (around.kept.spare shapes) isId harmless.named spared member with
        apart | overlooked | ⟨watched, open'⟩
      · exact absurd found (apart kind swept)
      · exact absurd overlooked (harmless.undue _ due)
      · rw [spared key kind found swept]
        rcases harmless.current _ due watched with current | missing
        · have expired := (mem_dueRecords.mp due).2.2
          have opened := open' kind found
          rw [spared key kind found swept, current] at opened
          exact absurd opened (expired.not_open below)
        · exact gone.trans missing.symm

end Collection

/-! ## Orders of five blocks -/

instance (sha : Sha512) (taken : ChainStep) (later : Env) (payload : Json) :
    Decidable (SameVerdict sha taken later payload) :=
  inferInstanceAs (Decidable (_ ↔ _))

/-- A party orders a loan of the sample's terms for five blocks. -/
def briefOrder (key : Text) (nonce verb address : String) : Turn :=
  .submit key nonce.toList (call verb
    [("p1", sampleAddress address), ("p2", "1000".toList), ("p3", "100".toList),
      ("p4", "10".toList), ("p5", "1".toList), ("p6", "5".toList)])

/-- The gateway signer has the sixtieth block cleaned up. -/
def cleanUp : Turn := .submit investorKey "17".toList (keepHouse "60")

/-- The parties of a loan have coins and addresses. -/
def loanParties : List Turn :=
  [collect investorKey "1", register investorKey "4" "0x1", collect fundraiserKey "2",
    register fundraiserKey "5" "0x2"]

/-- Two orders are open for a hundred blocks and a third one for five; then blocks pass. -/
def staleAsk : List Turn :=
  loanParties ++ [order investorKey "7" "AddAskOrder" "0x1", order fundraiserKey "8" "AddBidOrder"
    "0x2", briefOrder investorKey "9" "AddAskOrder" "0x1"] ++ List.replicate 91 .commit

/-- An offer is open for a hundred blocks and its orders for five; then blocks pass. -/
def staleSides : List Turn :=
  loanParties ++ [briefOrder investorKey "7" "AddAskOrder" "0x1", briefOrder fundraiserKey "8"
    "AddBidOrder" "0x2", request investorKey "9" "AddOffer" (sample.makeAddress .askOrder "7".toList)
      (sample.makeAddress .bidOrder "8".toList)] ++ List.replicate 91 .commit

/-- The step that cleans up after a script. -/
def cleaned (script : List Turn) : ChainStep :=
  let before := (Chain.empty 1).plays sample keeperNode script
  ⟨before, before.event keeperNode cleanUp, before.play sample keeperNode cleanUp⟩

/-- The chain before the stale ask order is cleaned up. -/
def staleAskChain : Chain := (Chain.empty 1).plays sample keeperNode staleAsk

/-- The offer of the orders that are left. -/
def leftOffer : Json :=
  call "AddOffer" [("p1", sample.makeAddress .askOrder "7".toList),
    ("p2", sample.makeAddress .bidOrder "8".toList), ("p3", "100".toList)]

/-- The command of the offer. -/
def leftOfferCommand : Command :=
  .addOffer (sample.makeAddress .askOrder "7".toList) (sample.makeAddress .bidOrder "8".toList) 100

/-- The chain before the sides of an open offer are cleaned up. -/
def staleSidesChain : Chain := (Chain.empty 1).plays sample keeperNode staleSides

/-- The deal order of the open offer. -/
def strandedDeal : Json := call "AddDealOrder" [("p1", sampleOffer), ("p2", "100".toList)]

/-- The runs of the stale ask order and of the open offer. The first clean-up finds the order alone
due and deletes it, and the other two orders can be offered after it; the second changes the verdict
on the deal order of the offer. -/
theorem cleanUps_run :
    (let taken := cleaned staleAsk
      let later := taken.after.serve keeperNode investorKey "18".toList
      (taken.after.context.get (sample.makeAddress .askOrder "9".toList) = [] ∧
          Accepts sample later taken.after.context leftOffer ∧
          (staleAskChain.serve keeperNode investorKey "17".toList).head ≤ later.head) ∧
        staleAskChain.accepts sample keeperNode cleanUp =
          some (sample.id investorKey, .housekeeping 60) ∧
        (dueRecords sample (staleAskChain.serve keeperNode investorKey "17".toList) 60).map
          (fun record => record.2.1) = [sample.makeAddress .askOrder "9".toList] ∧
        sample.makeAddress .askOrder "9".toList ∉ leftOfferCommand.watches ∧
        sample.makeAddress .askOrder "9".toList ∉
          leftOfferCommand.overlooks sample staleAskChain.context ∧
        (Chain.empty 1).checks sample keeperNode
          (fun chain _ _ command => command.ordinary sample chain && true) (staleAsk ++ [cleanUp]) =
            true) ∧
      let later := (cleaned staleSides).after.serve keeperNode fundraiserKey "18".toList
      staleSidesChain.accepts sample keeperNode cleanUp =
          some (sample.id investorKey, .housekeeping 60) ∧
        (staleSidesChain.serve keeperNode investorKey "17".toList).head ≤ later.head ∧
        ¬ SameVerdict sample (cleaned staleSides) later strandedDeal := by
  decide +kernel

/-- The orders that are left can still be offered. -/
theorem verdict_same_sample :
    let taken := cleaned staleAsk
    let later := taken.after.serve keeperNode investorKey "18".toList
    let payload := call "AddOffer" [("p1", sample.makeAddress .askOrder "7".toList),
      ("p2", sample.makeAddress .bidOrder "8".toList), ("p3", "100".toList)]
    taken.after.context.get (sample.makeAddress .askOrder "9".toList) = [] ∧
      Accepts sample later taken.after.context payload ∧ SameVerdict sample taken later payload := by
  obtain ⟨⟨gone, accepts, order⟩, houses, due, unwatched, apart, checked⟩ := cleanUps_run.1
  have live : ((cleaned staleAsk).after.serve keeperNode investorKey "18".toList).Live :=
    (Chain.serve_serves investorKey "18".toList).live
  have stale (record : Kind × Text × Text) (member : record ∈ dueRecords sample
      (staleAskChain.serve keeperNode investorKey "17".toList) 60) :
      record.2.1 = sample.makeAddress .askOrder "9".toList := by
    have listed := List.mem_map_of_mem (f := fun record : Kind × Text × Text => record.2.1) member
    rw [due] at listed
    exact List.mem_singleton.mp listed
  have harmless : Harmless sample (staleAskChain.serve keeperNode investorKey "17".toList) 60
      staleAskChain.context leftOfferCommand := by
    refine ⟨trivial, fun record member watched => ?_, fun record member => ?_⟩
    · rw [stale record member] at watched
      exact absurd watched unwatched
    · rw [stale record member]
      exact apart
  have listed : cleaned staleAsk ∈
      (Chain.empty 1).steps sample keeperNode (staleAsk ++ [cleanUp]) := Chain.turn_mem
  have read : leftOffer.command = .ok leftOfferCommand := by decide
  exact ⟨gone, accepts, verdict_same Chain.steps_run
    (fun other shown => (Chain.checks_ordinary checked other shown).1) listed
    (Chain.accepts_succeeds houses) live order read rfl harmless⟩

/-- The clean-up deletes the orders of an offer that could still be accepted. -/
theorem offer_stranded :
    ¬ ∀ (sha : Sha512) (tip : UInt64) (steps : List ChainStep) (chain : Chain),
      ChainRun sha tip steps chain → ∀ taken ∈ steps, ∀ env signer blockIdx later payload command,
        Succeeds sha taken env signer (.housekeeping blockIdx) → later.Live →
        env.head ≤ later.head → payload.command = .ok command → command.takesUp = true →
        SameVerdict sha taken later payload := by
  intro claim
  obtain ⟨houses, order, other⟩ := cleanUps_run.2
  have live : ((cleaned staleSides).after.serve keeperNode fundraiserKey "18".toList).Live :=
    (Chain.serve_serves fundraiserKey "18".toList).live
  have read : strandedDeal.command = .ok (.addDealOrder sampleOffer 100) := by decide
  have listed : cleaned staleSides ∈
      (Chain.empty 1).steps sample keeperNode (staleSides ++ [cleanUp]) := Chain.turn_mem
  exact other (claim sample 1 _ _ Chain.steps_run _ listed _ _ 60 _ strandedDeal _
    (Chain.accepts_succeeds houses) live order read rfl)

end Creditcoin
