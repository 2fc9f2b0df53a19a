import Creditcoin.Acceptance
import Creditcoin.Kinds
import Creditcoin.Settlements
import Creditcoin.Spending

/-!
# Visited records

`Housekeeping` reads the block of every record that it lists, the fee of every due deal order, and
the wallets that due deal orders and due fee records name. A record that cannot be read, or whose
wallet is gone, stops every later `Housekeeping`. Commands read the numerals that they store, a
charged signer has a wallet, and nothing deletes wallets besides an `AddDealOrder` that names no
offer, so in a run without such an `AddDealOrder` no record stops a `Housekeeping`.
-/

namespace Creditcoin

open Lib

/-- What the callback of a kind needs of a record. -/
def Serviceable (sha : Sha512) (state : State) (value : Text) : Kind → Prop
  | .askOrder => HasAmount (Order.parseFromString value).block
  | .bidOrder => HasAmount (Order.parseFromString value).block
  | .offer => HasAmount (Offer.parseFromString value).block
  | .dealOrder =>
    HasAmount (DealOrder.parseFromString value).block ∧
      HasAmount (DealOrder.parseFromString value).fee ∧
      state.get (sha.walletId (DealOrder.parseFromString value).sighash) ≠ []
  | .repaymentOrder => HasAmount (RepaymentOrder.parseFromString value).block
  | .fee =>
    HasAmount (Fee.parseFromString value).block ∧
      state.get (sha.walletId (Fee.parseFromString value).sighash) ≠ []
  | _ => True

/-- An environment lets a `Housekeeping` through its guards and answers what it asks for. -/
structure Env.Attends (sha : Sha512) (env : Env) (chain : Chain) (blockIdx : Int) : Prop where
  /-- The key of the signer can be compressed. -/
  signed : ∃ compressed, compress env.signerPublicKey = .ok compressed
  /-- The version of the family is accepted. -/
  admits : env.Admits
  /-- The signer is the gateway. -/
  verified : verifyGatewaySigner sha env ⟨chain.context, ∅⟩ = .ok ((), ⟨chain.context, ∅⟩)
  /-- The listings answer. -/
  listings : ∀ kind ∈ sweptKinds, ∃ pages, env.getStatesByPrefix (sha.space kind) = .ok pages
  /-- The height passes, and the blocks up to it have signers and rewards. -/
  rewards : ∃ last newFormula blocks, Processed sha chain.context last ∧
    env.Passes last blockIdx ∧ env.newFormula last = .ok newFormula ∧
    env.Rewards last blockIdx blocks ∧
    ∀ block ∈ blocks, ∃ reward, env.blockReward newFormula block.1 = .ok reward

/-- No record of a chain stops a `Housekeeping`. -/
structure NoPoison (sha : Sha512) (chain : Chain) : Prop where
  /-- Every record that a callback can visit has what the callback needs. -/
  visited : ∀ kind ∈ sweptKinds, ∀ key ∈ chain.committed, sha.kindOf key = some kind →
    Serviceable sha chain.context (chain.committed.get key) kind
  /-- A `Housekeeping` that passes its guards succeeds. -/
  cleared : ∀ env payload blockIdx, chain.Serves env →
    payload.command = .ok (.housekeeping blockIdx) → env.Attends sha chain blockIdx →
    ∃ after, apply sha payload env ⟨chain.context, ∅⟩ = .ok ((), after)

/-- The wallets exist that the deal orders and the fee records among some records name. -/
structure Walleted (sha : Sha512) (records state : State) : Prop where
  /-- The wallets of fundraisers. -/
  deals : ∀ key, sha.kindOf key = some .dealOrder → records.get key ≠ [] →
    state.get (sha.walletId (dealAt records key).sighash) ≠ []
  /-- The wallets of payers. -/
  fees : ∀ key, sha.kindOf key = some .fee → records.get key ≠ [] →
    state.get (sha.walletId (feeAt records key).sighash) ≠ []

/-- A write that empties no wallet. -/
def Fills (sha : Sha512) (state : State) (entry : Text × Text) : Prop :=
  sha.kindOf entry.1 = some .wallet → state.get entry.1 ≠ [] → entry.2 ≠ []

section Visits

variable {sha : Sha512} {env : Env} {signer owner key : Text} {state records after : State}
  {command : Command} {kind : Kind} {blockIdx : Int} {memory : Memory} {chain : Chain}
  {tip : UInt64} {steps : List ChainStep}

/-! ## Wallets stay -/

/-- Writes that empty no wallet keep a wallet. -/
theorem filled_setAll {values : List (Text × Text)}
    (written : ∀ entry ∈ values, Fills sha state entry)
    (present : state.get (sha.walletId owner) ≠ []) :
    (state.setAll values).get (sha.walletId owner) ≠ [] := by
  refine @Store.get_setAll_holds _ _ _ state (fun data => data ≠ []) _ values present ?_
  intro entry listed same
  apply written entry listed
  · rw [same, sha.kindOf_walletId]
  · rw [same]
    exact present

/-- Erasing a record of another kind keeps a wallet. -/
theorem filled_erase (apart : sha.kindOf key ≠ some .wallet)
    (present : state.get (sha.walletId owner) ≠ []) :
    Store.get (state.erase key) (sha.walletId owner) ≠ [] := by
  rw [get_erase_of_kind sha]
  · exact present
  · rw [sha.kindOf_walletId]
    exact apart.symm

/-- A write of another kind empties no wallet. -/
theorem fills_apart {entry : Text × Text} (apart : sha.kindOf entry.1 ≠ some .wallet) :
    Fills sha state entry := fun same => absurd same apart

/-- A fee record is no wallet. -/
theorem fills_fee : Fills sha state (env.feeEntry sha signer) := fills_apart (by simp)

/-- A written wallet is not empty. -/
theorem fills_wallet {balance : Int} : Fills sha state (walletEntry sha state owner balance) :=
  fun _ _ => walletEntry_ne_nil

/-- A credited wallet that was there is not empty. -/
theorem Credited.fills {amountString : Text} {amount : Int} {wallet : Wallet}
    (credited : Credited (state.get (sha.walletId owner)) amountString amount wallet) :
    Fills sha state (sha.walletId owner, wallet.serializeToString) := by
  intro _ present
  cases credited with
  | created missing => exact absurd missing present
  | raised => exact walletEntry_ne_nil

/-- No command deletes a wallet when its offer is one. -/
theorem Executed.wallet_stays (around : Surroundings sha env signer state command)
    (executed : Executed sha env signer state command after)
    (present : state.get (sha.walletId owner) ≠ []) : after.get (sha.walletId owner) ≠ [] := by
  obtain ⟨kept, live, isId, lists, named⟩ := around
  cases executed with
  | sendFunds numeral receiver covers credited =>
    apply filled_setAll _ present
    simp only [List.forall_mem_cons]
    exact ⟨credited.fills, fills_fee, fills_wallet, List.forall_mem_nil _⟩
  | registerAddress covers fresh =>
    apply filled_setAll _ present
    simp only [List.forall_mem_cons]
    exact ⟨fills_apart (by simp), fills_wallet, fills_fee, List.forall_mem_nil _⟩
  | registerTransfer covers order pays =>
    apply filled_setAll _ present
    simp only [List.forall_mem_cons]
    exact ⟨fills_apart (by simp), fills_fee, fills_wallet, List.forall_mem_nil _⟩
  | addOrder covers amountRead interestRead maturityRead feeRead fresh =>
    have apart (side : Side) : side.kind ≠ .wallet := by cases side <;> exact Kind.noConfusion
    apply filled_setAll _ present
    simp only [List.forall_mem_cons]
    exact ⟨fills_apart (by simpa using apart _), fills_fee, fills_wallet, List.forall_mem_nil _⟩
  | addOffer covers fresh =>
    apply filled_setAll _ present
    simp only [List.forall_mem_cons]
    exact ⟨fills_apart (by simp), fills_apart (by simp), fills_fee, fills_wallet,
      List.forall_mem_nil _⟩
  | addDealOrder fresh there =>
    have offer : OfferContent sha (offerAt state _) := kept.content there named
    apply filled_erase (by rw [named]; decide)
    apply filled_erase (offer.bid.apart (by decide) (by decide))
    apply filled_erase (offer.ask.apart (by decide) (by decide))
    apply filled_setAll _ present
    simp only [List.forall_mem_cons]
    exact ⟨fills_apart (by simp), fills_fee, fills_wallet, List.forall_mem_nil _⟩
  | completeDealOrder there pending sourcePresent _ unexpired transferPresent order amount
      registrant =>
    obtain ⟨transfer, payable⟩ := kept.consumed isId transferPresent order there registrant
    have deal := kept.deal_of_pending there payable pending
    apply filled_setAll _ present
    simp only [List.forall_mem_cons]
    exact ⟨fills_apart (by simp [deal]), fills_apart (by simp [transfer]), fills_fee, fills_wallet,
      List.forall_mem_nil _⟩
  | lockDealOrder covers there unlocked completed fundraiser =>
    have deal := kept.deal_of_owner there (fundraiser ▸ isId.ne_nil)
    apply filled_setAll _ present
    simp only [List.forall_mem_cons]
    exact ⟨fills_apart (by simp [deal]), fills_fee, fills_wallet, List.forall_mem_nil _⟩
  | closeDealOrder covers there unclosed fundraiser locked transferPresent order registrant =>
    obtain ⟨transfer, _⟩ := kept.consumed isId transferPresent order there registrant
    have deal := kept.deal_of_owner there (fundraiser ▸ isId.ne_nil)
    apply filled_setAll _ present
    simp only [List.forall_mem_cons]
    exact ⟨fills_apart (by simp [deal]), fills_apart (by simp [transfer]), fills_fee, fills_wallet,
      List.forall_mem_nil _⟩
  | exempt covers there unclosed transferPresent order unprocessed sourcePresent =>
    obtain ⟨transfer, payable⟩ := kept.exempted transferPresent order there sourcePresent
    apply filled_setAll _ present
    simp only [List.forall_mem_cons]
    exact ⟨fills_apart (payable.apart (by decide) (by decide)), fills_apart (by simp [transfer]),
      fills_fee, fills_wallet, List.forall_mem_nil _⟩
  | addRepaymentOrder covers amountRead fresh =>
    apply filled_setAll _ present
    simp only [List.forall_mem_cons]
    exact ⟨fills_apart (by simp), fills_fee, fills_wallet, List.forall_mem_nil _⟩
  | completeRepaymentOrder covers there targetPresent _ dealPresent =>
    have repayment := kept.repayment_of_deal there targetPresent dealPresent
    have content : RepaymentContent sha _ (repaymentAt state _) := kept.content there repayment
    apply filled_setAll _ present
    simp only [List.forall_mem_cons]
    exact ⟨fills_apart (by simp [repayment]),
      fills_apart (content.deal.apart (by decide) (by decide)), fills_fee, fills_wallet,
      List.forall_mem_nil _⟩
  | closeRepaymentOrder covers there collector transferPresent order amount registrant =>
    obtain ⟨transfer, payable⟩ := kept.consumed isId transferPresent order there registrant
    have repayment := kept.repayment_of_collector there payable (collector ▸ isId)
    have content : RepaymentContent sha _ (repaymentAt state _) := kept.content there repayment
    apply filled_setAll _ present
    simp only [List.forall_mem_cons]
    exact ⟨fills_apart (by simp [repayment]),
      fills_apart (content.deal.apart (by decide) (by decide)), fills_apart (by simp [transfer]),
      fills_fee, fills_wallet, List.forall_mem_nil _⟩
  | collectCoins numeral fresh verified credited =>
    apply filled_setAll _ present
    simp only [List.forall_mem_cons]
    exact ⟨credited.fills, fills_apart (by simp), List.forall_mem_nil _⟩
  | housekeeping swept => exact (swept_wallet lists present swept).1

/-- A charged signer has a wallet. -/
theorem Executed.signer_present (executed : Executed sha env signer state command after)
    (charged : command.isCharged = true) : state.get (sha.walletId signer) ≠ [] := by
  cases executed with
  | collectCoins => cases charged
  | housekeeping => cases charged
  | addDealOrder fresh there unexpired bidPresent bidOwner askPresent feeRead covers =>
    exact covers.present
  | completeDealOrder there pending sourcePresent owner unexpired transferPresent order amount
      registrant unprocessed feeRead covers => exact covers.present
  | sendFunds numeral other covers => exact covers.present
  | _ covers => exact covers.present

/-! ## Wallets that records name -/

/-- Named wallets exist when what names them stays and the wallets stay. -/
theorem Walleted.mono (walleted : Walleted sha records state)
    (stays : ∀ owner, state.get (sha.walletId owner) ≠ [] → after.get (sha.walletId owner) ≠ []) :
    Walleted sha records after :=
  ⟨fun key found present => stays _ (walleted.deals key found present),
    fun key found present => stays _ (walleted.fees key found present)⟩

/-- A command keeps the wallets that the records of a state name, and makes records that name the
wallet of its signer. -/
theorem Executed.walleted (around : Surroundings sha env signer state command)
    (executed : Executed sha env signer state command after)
    (walleted : Walleted sha state state) : Walleted sha after after := by
  have stays (owner : Text) (present : state.get (sha.walletId owner) ≠ []) :
      after.get (sha.walletId owner) ≠ [] := executed.wallet_stays around present
  constructor
  · intro key found remains
    rcases executed.deal_cases around found with
      same | ⟨_, _, offerId, expiration, rfl, _, made⟩ | ⟨there, _, step⟩ | ⟨gone, _⟩
    · rw [dealAt, same]
      exact stays _ (walleted.deals key found (same ▸ remains))
    · rw [made]
      exact stays _ (executed.signer_present rfl)
    · rw [step.term.2.1]
      exact stays _ (walleted.deals key found there)
    · exact absurd gone remains
  · intro key found remains
    have left (same : after.get key = state.get key) :
        after.get (sha.walletId (feeAt after key).sighash) ≠ [] := by
      rw [feeAt, same]
      exact stays _ (walleted.fees key found (same ▸ remains))
    by_cases charged : command.isCharged = true
    · have paid := executed.fee_paid around charged found
      by_cases fresh : key = env.feeId sha
      · rw [if_pos fresh] at paid
        have payer : (feeAt after key).sighash = signer := by
          rw [feeAt, paid, Env.feeEntry, Fee.parse_serialize]
        rw [payer]
        exact stays _ (executed.signer_present charged)
      · rw [if_neg fresh] at paid
        exact left paid
    · rw [Bool.not_eq_true] at charged
      rcases executed.fee_refunded around charged found with same | ⟨gone, _⟩
      · exact left same
      · exact absurd gone remains

/-- In a run whose `AddDealOrder`s name offers, the committed records and those of the block name
wallets that exist. -/
theorem ChainRun.walleted (run : ChainRun sha tip steps chain)
    (guarded : ∀ taken ∈ steps, NamesOffers sha taken) :
    Walleted sha chain.committed chain.context ∧ Walleted sha chain.context chain.context := by
  have empty (state : State) : Walleted sha ∅ state :=
    ⟨fun _ _ present => absurd rfl present, fun _ _ present => absurd rfl present⟩
  refine run.keptInvariant
    (fun chain => Walleted sha chain.committed chain.context ∧
      Walleted sha chain.context chain.context) ⟨empty _, empty _⟩ ?_
    (fun taken listed => ⟨guarded taken listed, guarded taken listed⟩)
  rintro taken kept ⟨below, within⟩ did named _
  cases did with
  | executed serves succeeds effect committed tip housekept =>
    have around := succeeds.around serves kept named
    rw [committed]
    exact ⟨below.mono fun owner present => effect.wallet_stays around present,
      effect.walleted around within⟩
  | rejected same =>
    rw [same]
    exact ⟨below, within⟩
  | committed committed context housekept =>
    rw [committed, context]
    exact ⟨within, within⟩

/-! ## Callbacks succeed -/

/-- A record of the shape of its kind, with its wallet, has what its callback needs. -/
theorem Kept.serviceable (kept : Kept sha records) (walleted : Walleted sha records state)
    (listed : key ∈ records) (found : sha.kindOf key = some kind) :
    Serviceable sha state (records.get key) kind := by
  have content := (kept key listed).content
  rw [found] at content
  cases kind with
  | askOrder =>
    have order : OrderContent sha (Order.parseFromString (records.get key)) := content
    exact order.block
  | bidOrder =>
    have order : OrderContent sha (Order.parseFromString (records.get key)) := content
    exact order.block
  | offer =>
    have offer : OfferContent sha (Offer.parseFromString (records.get key)) := content
    exact offer.block
  | dealOrder =>
    have deal : DealContent sha (dealAt records key) := content
    exact ⟨deal.block, deal.fee,
      walleted.deals key found (present_of_fundraiser deal.owner.ne_nil)⟩
  | repaymentOrder =>
    have order : RepaymentContent sha key (RepaymentOrder.parseFromString (records.get key)) :=
      content
    exact order.block
  | fee =>
    have fee : FeeContent sha (feeAt records key) := content
    refine ⟨fee.block, walleted.fees key found fun missing => ?_⟩
    have payer := fee.owner.ne_nil
    rw [feeAt, missing] at payer
    exact payer rfl
  | _ => trivial

/-- The block of a record that a callback can serve can be read. -/
theorem Serviceable.readable {value : Text} (ready : Serviceable sha state value kind) :
    Readable value kind := by
  cases kind with
  | dealOrder => exact ready.1
  | fee =>
    obtain ⟨start, read⟩ := ready.1
    exact ⟨start, read.1⟩
  | _ => exact ready

/-- Other states have the wallets of a record as well. -/
theorem Serviceable.mono {value : Text} (ready : Serviceable sha state value kind)
    (stays : ∀ owner, state.get (sha.walletId owner) ≠ [] → after.get (sha.walletId owner) ≠ []) :
    Serviceable sha after value kind := by
  cases kind with
  | dealOrder => exact ⟨ready.1, ready.2.1, stays _ ready.2.2⟩
  | fee => exact ⟨ready.1, stays _ ready.2⟩
  | _ => exact ready

/-- A wallet of its shape has an amount. -/
theorem Kept.solvent (kept : Kept sha state) : Solvent sha state := by
  intro owner present
  have amount : HasAmount (walletOf sha state owner).amount :=
    kept.content present (sha.kindOf_walletId owner)
  exact amount

/-- A due record that its callback can serve is settled. -/
theorem settle_runs (live : env.Live) (solvent : Solvent sha memory.state)
    {record : Kind × Text × Text} (member : record ∈ dueRecords sha env blockIdx)
    (ready : Serviceable sha memory.state record.2.2 record.1) :
    ∃ later, settle sha record env memory = .ok ((), later) ∧
      Swept sha env blockIdx memory.state later.state := by
  obtain ⟨swept, member', due⟩ := mem_dueRecords.mp member
  have listed := listed_of_mem member'
  obtain ⟨kind, address, protobuf⟩ := record
  have covers {owner : Text} (present : memory.state.get (sha.walletId owner) ≠ []) :
      ∃ balance, Covers sha memory.state owner 0 balance := by
    obtain ⟨balance, read⟩ := solvent owner present
    exact ⟨balance, present, read.1, read.2, read.2⟩
  cases kind with
  | askOrder =>
    exact ⟨_, (settle_ok live (by decide) (by decide)).mpr rfl,
      @Swept.order sha env blockIdx memory.state .ask _ _ listed due⟩
  | bidOrder =>
    exact ⟨_, (settle_ok live (by decide) (by decide)).mpr rfl,
      @Swept.order sha env blockIdx memory.state .bid _ _ listed due⟩
  | offer => exact ⟨_, (settle_ok live (by decide) (by decide)).mpr rfl, .offer listed due⟩
  | dealOrder =>
    obtain ⟨settled, expired, pending⟩ := due
    obtain ⟨_, ⟨fee, read⟩, present⟩ := ready
    obtain ⟨balance, covers⟩ := covers present
    exact ⟨_, (settle_deal_ok live).mpr ⟨balance, fee, covers, read, rfl⟩,
      .deal listed settled expired pending covers read⟩
  | repaymentOrder =>
    exact ⟨_, (settle_ok live (by decide) (by decide)).mpr rfl, .repayment listed due.1 due.2⟩
  | fee =>
    obtain ⟨start, read, elapsed⟩ := due
    obtain ⟨balance, covers⟩ := covers ready.2
    exact ⟨_, (settle_fee_ok live).mpr ⟨balance, covers, rfl⟩, .fee listed read elapsed covers⟩
  | _ => exact absurd due id

/-- Writes of `Housekeeping` keep the shapes. -/
theorem swept_kept (kept : Kept sha state) (lists : env.ListsKept sha)
    (swept : Relation.ReflTransGen (Swept sha env blockIdx) state after) : Kept sha after := by
  induction swept with
  | refl => exact kept
  | tail _ step ih => exact step.kept ih lists

/-- The listings succeed when every record that they visit has what its callback needs. -/
theorem sweep_runs (serves : chain.Serves env) (shapes : chain.Kept sha)
    (walleted : Walleted sha chain.committed chain.context)
    (settled : blockIdx < env.head - confirmationCount)
    (listings : ∀ kind ∈ sweptKinds, ∃ pages, env.getStatesByPrefix (sha.space kind) = .ok pages) :
    ∃ after, sweep sha blockIdx env ⟨chain.context, ∅⟩ = .ok ((), after) ∧
      Kept sha after.state := by
  have lists := serves.listsKept shapes.committed
  have ready {record : Kind × Text × Text}
      (found : sha.kindOf record.2.1 = some record.1)
      (stored : chain.committed.get record.2.1 = record.2.2)
      (listed : record.2.1 ∈ chain.committed) :
      Serviceable sha chain.context record.2.2 record.1 :=
    stored ▸ shapes.committed.serviceable walleted listed found
  have legible : env.Legible sha := by
    intro kind swept
    refine ⟨listings kind swept, fun entry member => ?_⟩
    obtain ⟨starts, stored, listed⟩ := serves.listed (listed_of_mem member)
    have found := sha.kindOf_eq_some_iff_startsWith.mpr starts
    exact (@ready (kind, entry) found stored listed).readable
  -- the states on the way are what writes of housekeeping leave, so their wallets are there
  have runs (record : Kind × Text × Text) (member : record ∈ dueRecords sha env blockIdx)
      (before : Memory)
      (path : Relation.ReflTransGen (Swept sha env blockIdx) chain.context before.state) :
      ∃ later, settle sha record env before = .ok ((), later) ∧
        Relation.ReflTransGen (Swept sha env blockIdx) chain.context later.state := by
    obtain ⟨found, stored, listed⟩ := serves.due member
    have solvent := (swept_kept shapes.context lists path).solvent
    have here := (ready found stored listed).mono
      fun owner present => (swept_wallet lists present path).1
    obtain ⟨later, ran, step⟩ := settle_runs serves.live solvent member here
    exact ⟨later, ran, path.tail step⟩
  have loop : ∃ after, Exec.forEach (dueRecords sha env blockIdx) (settle sha) env
      ⟨chain.context, ∅⟩ = .ok ((), after) ∧
        Relation.ReflTransGen (Swept sha env blockIdx) chain.context after.state :=
    Exec.forEach_runs (fun memory : Memory =>
      Relation.ReflTransGen (Swept sha env blockIdx) chain.context memory.state) runs .refl
  obtain ⟨after, ran, path⟩ := loop
  exact ⟨after, (sweep_ok serves.live settled).mpr ⟨legible, ran⟩,
    swept_kept shapes.context lists path⟩

/-- In a run whose `AddDealOrder`s name offers, no record stops a `Housekeeping`. -/
theorem no_poison (run : ChainRun sha tip steps chain)
    (guarded : ∀ taken ∈ steps, NamesOffers sha taken) : NoPoison sha chain := by
  have shapes := run.kept guarded
  have walleted := (run.walleted guarded).1
  constructor
  · intro kind _ key listed found
    exact shapes.committed.serviceable walleted listed found
  · intro env payload blockIdx serves read attends
    obtain ⟨last, newFormula, blocks, processed, passes, formula, fetched, computed⟩ :=
      attends.rewards
    obtain ⟨swept, sweeps, kept⟩ :=
      sweep_runs serves shapes walleted passes.2.2.2 attends.listings
    obtain ⟨after, housekept, _⟩ := Housekept.settles serves.live passes attends.verified sweeps
      kept.solvent formula fetched computed
    exact ⟨after, (apply_housekeeping_ok serves.live read).mpr
      ⟨attends.signed, attends.admits, last, blocks, processed, housekept⟩⟩

end Visits

/-! ## Records of the sample loan -/

/-- The committed deal of the sample loan stops no `Housekeeping`. -/
theorem no_poison_sample :
    let script := dealMade ++ [Turn.commit]
    ((Chain.empty 2).plays sample sampleNode script).committed.get sampleDeal ≠ [] ∧
      NoPoison sample ((Chain.empty 2).plays sample sampleNode script) := by
  intro script
  have present : ((Chain.empty 2).plays sample sampleNode script).committed.get sampleDeal ≠ [] := by
    decide +kernel
  have checked : (Chain.empty 2).checks sample sampleNode
      (fun chain _ _ command => command.ordinary sample chain && true) script = true :=
    Chain.checks_plain (by decide +kernel)
  exact ⟨present, no_poison Chain.steps_run fun taken listed =>
    (Chain.checks_ordinary checked taken listed).1⟩

/-- The collector deletes the wallet of the investor, who has paid a fee before. -/
def feesOutlive : List Turn :=
  [collect investorKey "1", register investorKey "4" "0x1",
    collect collectorKey "3", register collectorKey "6" "0x3"] ++
    deletes (sample.walletId (sample.id investorKey)) ++ [Turn.commit]

/-- The chain with a fee of an owner without a wallet. -/
def poisonedChain : Chain := (Chain.empty 1).plays sample sampleNode feesOutlive

/-- The fees of the investor outlive the wallet that the collector deletes. -/
theorem fees_poisoned :
    ¬ ∀ (sha : Sha512) (tip : UInt64) (steps : List ChainStep) (chain : Chain),
      ChainRun sha tip steps chain → NoPoison sha chain := by
  intro claim
  have poisoned :
      (Fee.parseFromString (poisonedChain.committed.get
        (sample.makeAddress .fee "4".toList))).sighash = sample.id investorKey ∧
      poisonedChain.context.get (sample.walletId (sample.id investorKey)) = [] ∧
      poisonedChain.committed.get (sample.makeAddress .fee "4".toList) ≠ [] := by
    decide +kernel
  have visited := (claim sample 1 _ poisonedChain Chain.steps_run).visited
  have needs := visited .fee (by decide) (sample.makeAddress .fee "4".toList)
    (Store.mem_of_get poisoned.2.2) (sample.kindOf_makeAddress .fee _)
  have wallet := needs.2
  rw [poisoned.1] at wallet
  exact wallet poisoned.2.1

end Creditcoin
