import Creditcoin.Interest
import Creditcoin.Parties

/-!
# Ticks of a deal

`CloseDealOrder` divides the time since the loan by the maturity of the deal. The maturity is no
zero because `AddOffer` has divided by it, and the loan is not younger than the tip because the
height of a block never falls. So there is at least one tick, and the amount due starts at the
principal and only grows.
-/

namespace Creditcoin

open Lib

/-- The block of a step is not the first one, so that there is a block below it. -/
def Numbered (taken : ChainStep) : Prop := taken.before.tip ≠ 0

/-- A text is a numeral of at least one. -/
def IsTerm (text : Text) : Prop := ∃ maturity, IsAmount text maturity ∧ 1 ≤ maturity

/-- The ticks of a deal can be counted at a height, and the amount due is in order. -/
structure TicksAt (head start maturity principal interest : Int) : Prop where
  /-- The divisor is positive. -/
  divisor : 0 < maturity
  /-- There is at least one tick. -/
  ticks : 1 ≤ (head - start + maturity).tdiv maturity
  /-- At least the principal is due. -/
  whole : principal ≤ amountDue head start maturity principal interest
  /-- The amount due does not fall. -/
  grows : ∀ later, head ≤ later → amountDue head start maturity principal interest ≤
    amountDue later start maturity principal interest

/-- What `CloseDealOrder` has read of a deal for the amount due. -/
structure ReadsDue (state : State) (dealOrderId : Text) (start maturity principal interest : Int) :
    Prop where
  /-- The deal has a fundraiser. -/
  fundraiser : (dealAt state dealOrderId).sighash ≠ []
  /-- The loan transfer is there. -/
  loanPresent : state.get (dealAt state dealOrderId).loanTransfer ≠ []
  /-- The block of the loan transfer. -/
  startRead : IsAmount (transferAt state (dealAt state dealOrderId).loanTransfer).block start
  /-- The maturity. -/
  maturityRead : IsAmount (dealAt state dealOrderId).maturity maturity
  /-- The principal. -/
  principalRead : IsAmount (dealAt state dealOrderId).amount principal
  /-- The interest. -/
  interestRead : IsAmount (dealAt state dealOrderId).interest interest

/-- Ticks can be counted for every deal of a chain. -/
structure TicksSafe (sha : Sha512) (chain : Chain) : Prop where
  /-- Every deal has a maturity of at least one. -/
  maturity : ∀ key, sha.kindOf key = some .dealOrder → chain.context.get key ≠ [] →
    IsTerm (dealAt chain.context key).maturity
  /-- Every loan was paid at the tip or below. -/
  loan : ∀ key, sha.kindOf key = some .dealOrder →
    (dealAt chain.context key).loanTransfer ≠ [] → ∃ start,
      IsAmount (transferAt chain.context (dealAt chain.context key).loanTransfer).block start ∧
        start ≤ chain.head
  /-- Whatever `CloseDealOrder` reads for the amount due, now or later, is in order. -/
  counts : ∀ dealOrderId head start maturity principal interest,
    ReadsDue chain.context dealOrderId start maturity principal interest → chain.head ≤ head →
      TicksAt head start maturity principal interest

/-- The terms of offered orders and of deals are numerals that can be divided by. -/
structure Termed (sha : Sha512) (steps : List ChainStep) (state : State) : Prop where
  /-- The key of an order was placed. -/
  order : ∀ key, sha.IsOrder key → state.get key ≠ [] → Placed sha steps key
  /-- The bid order of an offer was placed, and has a term as long as it is there. -/
  offer : ∀ key, sha.kindOf key = some .offer → state.get key ≠ [] →
    Placed sha steps (offerAt state key).bidOrder ∧
      (state.get (offerAt state key).bidOrder ≠ [] →
        IsTerm (orderAt state (offerAt state key).bidOrder).maturity)
  /-- A deal has a term and an interest. -/
  deal : ∀ key, sha.kindOf key = some .dealOrder → state.get key ≠ [] →
    IsTerm (dealAt state key).maturity ∧ HasAmount (dealAt state key).interest

/-- Every transfer was registered at a height or below. -/
def Dated (sha : Sha512) (state : State) (height : Int) : Prop :=
  ∀ key, sha.kindOf key = some .transfer → state.get key ≠ [] →
    ∃ start, IsAmount (transferAt state key).block start ∧ start ≤ height

/-! ## Counting -/

section Counting

variable {head later start maturity principal interest : Int}

/-- Later there are not fewer ticks. -/
theorem ticks_mono (positive : 0 < maturity) (started : start ≤ head) (more : head ≤ later) :
    ((head - start + maturity).tdiv maturity).toNat ≤
      ((later - start + maturity).tdiv maturity).toNat := by
  rw [Int.tdiv_eq_ediv_of_nonneg (by omega), Int.tdiv_eq_ediv_of_nonneg (by omega)]
  have quotient : (head - start + maturity) / maturity ≤ (later - start + maturity) / maturity :=
    Int.ediv_le_ediv positive (by omega)
  omega

/-- Ticks can be counted for a loan that is not younger than the tip. -/
theorem ticksAt (positive : 0 < maturity) (started : start ≤ head) (principalNonneg : 0 ≤ principal)
    (interestNonneg : 0 ≤ interest) : TicksAt head start maturity principal interest where
  divisor := positive
  ticks := by
    rw [Int.tdiv_eq_ediv_of_nonneg (by omega)]
    apply Int.le_ediv_of_mul_le positive
    omega
  whole := le_calcInterest principalNonneg interestNonneg _
  grows later more := by
    apply calcInterest_mono_ticks principalNonneg interestNonneg
    exact ticks_mono positive started more

end Counting

/-! ## Steps -/

section Dates

variable {sha : Sha512} {env : Env} {signer : Text} {state after : State} {command : Command}
  {key : Text} {tip : UInt64} {steps later : List ChainStep} {chain : Chain} {taken : ChainStep}
  {height height' : Int}

/-- The height does not fall while there is a block below. -/
theorem Chain.Step.head_le (step : Chain.Step sha taken.before taken.label taken.after)
    (numbered : Numbered taken) : taken.before.head ≤ taken.after.head := by
  obtain ⟨before, label, after⟩ := taken
  dsimp only at step ⊢
  cases step with
  | accepted => exact Int.le_refl _
  | rejected => exact Int.le_refl _
  | commit =>
    have positive : before.tip ≠ 0 := numbered
    have below : (before.tip - 1).toNat ≤ before.tip.toNat := by
      have one : (1 : UInt64) ≤ before.tip := by
        rw [UInt64.le_iff_toNat_le]
        have nonzero : before.tip.toNat ≠ 0 := fun zero => positive (UInt64.toNat_inj.mp zero)
        have unit : (1 : UInt64).toNat = 1 := rfl
        omega
      rw [UInt64.toNat_sub_of_le _ _ one]
      exact Nat.sub_le _ _
    have next : before.tip + 1 - 1 = before.tip := UInt64.add_sub_cancel _ _
    change ((before.tip - 1).toNat : Int) ≤ ((before.tip + 1 - 1).toNat : Int)
    rw [next]
    exact_mod_cast below

/-- The bid order of an offer still has a term. -/
theorem Executed.termed_offer (around : Surroundings sha env signer state command)
    (executed : Executed sha env signer state command after)
    (grows : Grows sha steps later env command) (termed : Termed sha steps state)
    (found : sha.kindOf key = some .offer) (remains : after.get key ≠ []) :
    Placed sha later (offerAt after key).bidOrder ∧
      (after.get (offerAt after key).bidOrder ≠ [] →
        IsTerm (orderAt after (offerAt after key).bidOrder).maturity) := by
  have term {orderId : Text} (isOrder : sha.IsOrder orderId) (placed : Placed sha steps orderId)
      (read : state.get orderId ≠ [] → IsTerm (orderAt state orderId).maturity)
      (there : after.get orderId ≠ []) : IsTerm (orderAt after orderId).maturity := by
    have same := executed.order_same around grows isOrder placed there
    rw [orderAt, same]
    exact read (same ▸ there)
  rcases executed.offer_after around found remains with
    same | ⟨askOrderId, bidOrderId, _, rfl, _, _, bid, _, bidPresent, _⟩
  · have content : OfferContent sha (offerAt state key) :=
      around.kept.content (same ▸ remains) found
    obtain ⟨placed, read⟩ := termed.offer key found (same ▸ remains)
    rw [offerAt, same]
    exact ⟨placed.mono grows.within, term content.bid placed read⟩
  · have shapes := executed.kept around.kept around.live around.isId around.lists around.named
    have content : OfferContent sha (offerAt after key) := shapes.content remains found
    rw [bid]
    have isOrder : sha.IsOrder bidOrderId := bid ▸ content.bid
    have placed := termed.order bidOrderId isOrder bidPresent
    refine ⟨placed.mono grows.within, term isOrder placed fun _ => ?_⟩
    -- the rate of the bid order was computed
    cases executed with
    | addOffer _ _ _ _ _ _ _ _ _ _ _ _ _ _ _ _ _ _ maturityRead nonzero =>
      have nonneg := maturityRead.2
      exact ⟨_, maturityRead, by omega⟩

/-- A deal still has a term and an interest. -/
theorem Executed.termed_deal (around : Surroundings sha env signer state command)
    (executed : Executed sha env signer state command after) (termed : Termed sha steps state)
    (found : sha.kindOf key = some .dealOrder) (remains : after.get key ≠ []) :
    IsTerm (dealAt after key).maturity ∧ HasAmount (dealAt after key).interest := by
  rcases executed.deal_cases around found with
    same | ⟨_, _, offerId, expiration, rfl, _, read⟩ | ⟨present, _, step⟩ | ⟨gone, _⟩
  · rw [dealAt, same]
    exact termed.deal key found (same ▸ remains)
  · rw [read]
    have kind : sha.kindOf offerId = some .offer := around.named
    cases executed with
    | addDealOrder fresh present unexpired bidPresent =>
      have offer : OfferContent sha (offerAt state offerId) := around.kept.content present kind
      have content : OrderContent sha (orderAt state (offerAt state offerId).bidOrder) := by
        rcases offer.bid with side | side
        · exact around.kept.content bidPresent side
        · exact around.kept.content bidPresent side
      exact ⟨(termed.offer offerId kind present).2 bidPresent, content.interest⟩
  · have maturity : (dealAt after key).maturity = (dealAt state key).maturity :=
      congrArg (fun terms => terms.2.2.2.1) step.terms
    have interest : (dealAt after key).interest = (dealAt state key).interest :=
      congrArg (fun terms => terms.2.2.1) step.terms
    rw [maturity, interest]
    exact termed.deal key found present
  · exact absurd gone remains

/-- A command keeps the terms. -/
theorem Executed.termed (around : Surroundings sha env signer state command)
    (executed : Executed sha env signer state command after)
    (grows : Grows sha steps later env command) (termed : Termed sha steps state) :
    Termed sha later after where
  order key isOrder remains := by
    rcases executed.order_after around isOrder remains with same | ⟨⟨kind, rfl⟩, _⟩
    · exact (termed.order key isOrder (same ▸ remains)).mono grows.within
    · exact grows.placed kind
  offer key found remains := executed.termed_offer around grows termed found remains
  deal key found remains := executed.termed_deal around termed found remains

/-- The terms hold in a longer history. -/
theorem Termed.mono (termed : Termed sha steps state) (within : steps ⊆ later) :
    Termed sha later state where
  order key isOrder present := (termed.order key isOrder present).mono within
  offer key found present := by
    obtain ⟨placed, read⟩ := termed.offer key found present
    exact ⟨placed.mono within, read⟩
  deal := termed.deal

/-- A transfer was still registered at the height or below. -/
theorem Executed.dated (around : Surroundings sha env signer state command)
    (executed : Executed sha env signer state command after) (dated : Dated sha state env.head) :
    Dated sha after env.head := by
  intro key found remains
  have earlier (present : state.get key ≠ [])
      (same : (transferAt after key).block = (transferAt state key).block) :
      ∃ start, IsAmount (transferAt after key).block start ∧ start ≤ env.head := by
    rw [same]
    exact dated key found present
  rcases executed.transfer around found with same | change
  · apply earlier (same ▸ remains)
    rw [transferAt, same, transferAt]
  · obtain ⟨data, written, change⟩ : ∃ data, after.get key = data ∧
        TransferChange sha env signer state key command data := ⟨_, rfl, change⟩
    have read := congrArg Transfer.parseFromString written
    change transferAt after key = _ at read
    cases change with
    | registered fresh order pays made =>
      rw [read, Transfer.parse_serialize]
      exact ⟨env.head, ⟨cppInt_toText _, around.live.head_nonneg⟩, Int.le_refl _⟩
    | consumed present =>
      apply earlier present
      rw [read, Transfer.parse_serialize]

/-- What was registered at a height was registered below a larger one. -/
theorem Dated.mono (dated : Dated sha state height) (higher : height ≤ height') :
    Dated sha state height' := by
  intro key found present
  obtain ⟨start, read, started⟩ := dated key found present
  exact ⟨start, read, started.trans higher⟩

/-- No record has the empty key. -/
theorem Kept.get_nil (kept : Kept sha state) : state.get [] = [] := by
  by_contra present
  rcases (kept.shape present).isKey with ⟨kind, found, _⟩ | head
  · obtain ⟨rest, starts⟩ := sha.kindOf_eq_some.mp found
    have length := congrArg List.length starts
    simp at length
    omega
  · cases head

/-! ## Runs -/

/-- In a run with distinct nonces, whose deals are made of offers, offered orders and deals have
terms. -/
theorem ChainRun.termed (run : ChainRun sha tip steps chain)
    (named : ∀ taken ∈ steps, NamesOffers sha taken) (separate : Separate sha steps) :
    Termed sha steps chain.context := by
  revert separate
  refine run.history (fun steps chain => Separate sha steps → Termed sha steps chain.context)
    (fun _ => ?_) ?_ named
  · refine ⟨?_, ?_, ?_⟩
    all_goals exact fun _ _ present => absurd rfl present
  · intro earlier taken reached before holds did named separate
    have termed := holds separate.start
    have within : earlier ⊆ earlier ++ [taken] := List.subset_append_left _ _
    cases did with
    | executed serves succeeds effect =>
      exact effect.termed (succeeds.around serves (reached.kept before) named)
        (separate.grows succeeds serves.live) termed
    | rejected same => exact same ▸ termed.mono within
    | committed _ context => exact context ▸ termed.mono within

/-- In a run whose blocks have blocks below them, transfers were registered at the tip or below. -/
theorem ChainRun.dated (run : ChainRun sha tip steps chain)
    (guarded : ∀ taken ∈ steps, NamesOffers sha taken ∧ Numbered taken) :
    Dated sha chain.context chain.head := by
  induction run with
  | nil => exact fun _ _ present => absurd rfl present
  | snoc run next ih =>
    rename_i earlier before label after
    have allowed (taken : ChainStep) (listed : taken ∈ earlier) :
        NamesOffers sha taken ∧ Numbered taken := guarded taken (List.mem_append_left _ listed)
    obtain ⟨named, numbered⟩ := guarded ⟨before, label, after⟩ (by simp)
    have dated := ih allowed
    have kept := ChainRun.kept run fun taken listed => (allowed taken listed).1
    have higher := @Chain.Step.head_le sha ⟨before, label, after⟩ next numbered
    have did : Chain.Did sha ⟨before, label, after⟩ := next.did
    cases did with
    | executed serves succeeds effect =>
      rw [← Chain.Serves.head serves] at dated higher
      exact (effect.dated (succeeds.around serves kept named) dated).mono higher
    | rejected same =>
      dsimp only at same
      exact same ▸ dated
    | committed _ context =>
      dsimp only at context
      exact context ▸ dated.mono higher

/-- In a run with distinct nonces, whose deals are made of offers and whose blocks have blocks
below them, ticks can be counted for every deal. -/
theorem ticks_safe (run : ChainRun sha tip steps chain) (separate : Separate sha steps)
    (guarded : ∀ taken ∈ steps, NamesOffers sha taken ∧ Numbered taken) :
    TicksSafe sha chain := by
  have named (taken : ChainStep) (listed : taken ∈ steps) : NamesOffers sha taken :=
    (guarded taken listed).1
  have termed := run.termed named separate
  have kept := (run.kept named).context
  have once := run.consumedOnce named
  have loan (key : Text) (found : sha.kindOf key = some .dealOrder)
      (filled : (dealAt chain.context key).loanTransfer ≠ []) : ∃ start,
        IsAmount (transferAt chain.context (dealAt chain.context key).loanTransfer).block start ∧
          start ≤ chain.head := by
    obtain ⟨transfer, processed⟩ := once.processed (.loan key) _ ⟨found, filled, rfl⟩
    exact run.dated guarded _ transfer (present_of_processed processed)
  refine ⟨fun key found present => (termed.deal key found present).1, loan, ?_⟩
  intro dealOrderId head start maturity principal interest reads later
  have present := present_of_fundraiser reads.fundraiser
  have found := kept.deal_of_owner present reads.fundraiser
  have positive : 0 < maturity := by
    obtain ⟨read, same, positive⟩ := (termed.deal dealOrderId found present).1
    have equal := reads.maturityRead.1.symm.trans same.1
    rw [Option.some.injEq] at equal
    omega
  have filled : (dealAt chain.context dealOrderId).loanTransfer ≠ [] := by
    intro missing
    have there := reads.loanPresent
    rw [missing] at there
    exact there kept.get_nil
  have started : start ≤ head := by
    obtain ⟨read, same, started⟩ := loan dealOrderId found filled
    have equal := reads.startRead.1.symm.trans same.1
    rw [Option.some.injEq] at equal
    omega
  exact ticksAt positive started reads.principalRead.2 reads.interestRead.2

end Dates

/-! ## Ticks of the sample loan -/

/-- A transaction leaves the tip. -/
theorem Chain.play_tip {sha : Sha512} {node : Env} {chain : Chain} {turn : Turn}
    (submits : turn.nonce.isSome = true) : (chain.play sha node turn).tip = chain.tip := by
  cases turn with
  | submit signerPublicKey nonce payload =>
    unfold Chain.play
    dsimp only
    split <;> rfl
  | commit => cases submits

/-- The transactions of a block with a number are numbered. -/
theorem Chain.steps_numbered {sha : Sha512} {node : Env} {chain : Chain} {script : List Turn}
    (numbered : chain.tip ≠ 0) (submits : (script.all fun turn => turn.nonce.isSome) = true) :
    ∀ taken ∈ chain.steps sha node script, Numbered taken := by
  induction script generalizing chain with
  | nil =>
    intro taken listed
    cases listed
  | cons turn script ih =>
    rw [List.all_cons, Bool.and_eq_true] at submits
    rw [Chain.steps_cons, List.forall_mem_cons]
    refine ⟨numbered, ih ?_ submits.2⟩
    rw [Chain.play_tip submits.1]
    exact numbered

/-- Ticks can be counted for the sample loan. -/
theorem ticks_safe_sample :
    TicksSafe sample ((Chain.empty 2).plays sample sampleNode loanPaid) := by
  have checked : (Chain.empty 2).checks sample sampleNode
      (fun chain _ _ command => command.ordinary sample chain && true) loanPaid = true :=
    Chain.checks_plain (by decide +kernel)
  have numbered : ∀ taken ∈ (Chain.empty 2).steps sample sampleNode loanPaid, Numbered taken :=
    Chain.steps_numbered (by decide) (by decide)
  have separate : Separate sample ((Chain.empty 2).steps sample sampleNode loanPaid) :=
    Chain.steps_separate (by decide +kernel)
  exact ticks_safe Chain.steps_run separate fun taken listed =>
    ⟨(Chain.checks_ordinary checked taken listed).1, numbered taken listed⟩

/-- The collector bids for a loan without a term, registers an address that reads as an offer of
the bid, and makes a deal order of the address. -/
def dealOfNoTerm : List Turn :=
  [collect collectorKey "3", register collectorKey "6" "0x3",
    .submit collectorKey "13".toList (call "AddBidOrder"
      [("p1", sampleAddress "0x3"), ("p2", "1000".toList), ("p3", "100".toList),
        ("p4", "0".toList), ("p5", "1".toList), ("p6", "100".toList)]),
    .submit collectorKey "14".toList (call "RegisterAddress" [("p1", "ethereum".toList),
      ("p2", sampleAddress "0x3"), ("p3", sample.makeAddress .bidOrder "13".toList)]),
    request collectorKey "15" "AddDealOrder" (misnamedAddress (sampleAddress "0x3"))
      "100".toList]

/-- The deal order without a term. -/
def dealOrderOfNoTerm : Text :=
  sample.makeAddress .dealOrder (misnamedAddress (sampleAddress "0x3"))

/-- The run of the deal without a term: the deal order is left with a term of zero. -/
theorem dealOfNoTerm_run :
    ((Chain.empty 1).plays sample sampleNode dealOfNoTerm).context.get dealOrderOfNoTerm ≠ [] ∧
      (dealAt ((Chain.empty 1).plays sample sampleNode dealOfNoTerm).context
        dealOrderOfNoTerm).maturity = "0".toList ∧
      Turn.differ sample dealOfNoTerm = true := by
  decide +kernel

/-- There is a deal without a term. -/
theorem ticks_unsafe :
    ¬ ∀ (sha : Sha512) (tip : UInt64) (steps : List ChainStep) (chain : Chain),
      ChainRun sha tip steps chain → Separate sha steps → (∀ taken ∈ steps, Numbered taken) →
      TicksSafe sha chain := by
  intro claim
  obtain ⟨made, term, differ⟩ := dealOfNoTerm_run
  have numbered : ∀ taken ∈ (Chain.empty 1).steps sample sampleNode dealOfNoTerm,
      Numbered taken := Chain.steps_numbered (by decide) (by decide)
  have separate : Separate sample ((Chain.empty 1).steps sample sampleNode dealOfNoTerm) :=
    Chain.steps_separate differ
  have safe := claim sample 1 _ _ Chain.steps_run separate numbered
  obtain ⟨maturity, ⟨read, _⟩, positive⟩ :=
    safe.maturity dealOrderOfNoTerm (sample.kindOf_makeAddress .dealOrder _) made
  rw [term] at read
  have zero : maturity = 0 := (Option.some.inj read).symm
  omega

end Creditcoin
