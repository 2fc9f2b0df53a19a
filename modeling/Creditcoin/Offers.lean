import Creditcoin.Acceptance
import Creditcoin.Script
import Mathlib.Data.Rat.Cast.Order
import Mathlib.Tactic.Linarith
import Mathlib.Tactic.MkIffOfInductiveProp

/-!
# Terms of orders as numbers

The terms of ask and bid orders are numerals, and a numeral has several spellings. `AddOffer`
compares the texts of the amounts and of the fees, and the rates as truncated quotients. This module
says for which orders that is the comparison of the numbers themselves.
-/

namespace Creditcoin

open Lib

/-! ## Terms -/

/-- The terms of an order as numbers. -/
structure Terms where
  /-- The amount of the loan. -/
  amount : Int
  /-- The interest for the whole term. -/
  interest : Int
  /-- The length of the term. -/
  maturity : Int
  /-- The fee of the investor. -/
  fee : Int
deriving DecidableEq

/-- The terms that the texts of an order stand for. -/
def Order.terms (order : Order) : Terms where
  amount := (cppInt order.amount).getD 0
  interest := (cppInt order.interest).getD 0
  maturity := (cppInt order.maturity).getD 0
  fee := (cppInt order.fee).getD 0

/-- The texts of the terms are numerals. -/
structure Order.HasTerms (order : Order) : Prop where
  /-- The amount is a numeral. -/
  amount : IsAmount order.amount order.terms.amount
  /-- The interest is a numeral. -/
  interest : IsAmount order.interest order.terms.interest
  /-- The maturity is a numeral. -/
  maturity : IsAmount order.maturity order.terms.maturity
  /-- The fee is a numeral. -/
  fee : IsAmount order.fee order.terms.fee

/-- The interest for a unit of the term. -/
def Terms.rate (terms : Terms) : ℚ := terms.interest / terms.maturity

/-- The terms of an ask order and of a bid order match as numbers. -/
structure Terms.Match (ask bid : Terms) : Prop where
  /-- The amounts are equal. -/
  amount : ask.amount = bid.amount
  /-- The fee asked for is not higher. -/
  fee : ask.fee ≤ bid.fee
  /-- The rate asked for is not higher. -/
  rate : ask.rate ≤ bid.rate

/-- The comparison of the texts and of the truncated rates differs from that of the numbers. -/
inductive Misjudged (ask bid : Order) : Prop where
  /-- Matching terms have the same amount in two spellings. -/
  | spelling (matching : ask.terms.Match bid.terms) (differs : ask.amount ≠ bid.amount)
  /-- Matching terms have a lower bid fee in the order of texts. -/
  | fee (matching : ask.terms.Match bid.terms) (lower : bid.fee < ask.fee)
  /-- The bid fee is lower, but not in the order of texts. -/
  | lowFee (amount : ask.amount = bid.amount) (higher : ¬ bid.fee < ask.fee)
    (lower : bid.terms.fee < ask.terms.fee)
    (quotient : ask.terms.interest / ask.terms.maturity ≤
      bid.terms.interest / bid.terms.maturity)
  /-- The bid rate is lower, but only by the remainders. -/
  | lowRate (amount : ask.amount = bid.amount) (higher : ¬ bid.fee < ask.fee)
    (quotient : ask.terms.interest / ask.terms.maturity =
      bid.terms.interest / bid.terms.maturity)
    (lower : bid.terms.rate < ask.terms.rate)

/-- An order in a state was placed in the run and has not changed. -/
def StillPlaced (sha : Sha512) (steps : List ChainStep) (state : State) (side : Side)
    (orderId : Text) : Prop :=
  ∃ taken ∈ steps, ∃ env signer addressId amount interest maturity fee expiration,
    Succeeds sha taken env signer
      (.addOrder side addressId amount interest maturity fee expiration) ∧
    orderId = sha.makeAddress side.kind env.guid ∧
    state.get orderId = taken.after.context.get orderId

/-- What `AddOffer` checks besides the terms of the orders. -/
structure Offerable (sha : Sha512) (env : Env) (signer : Text) (state : State)
    (askOrderId bidOrderId : Text) : Prop where
  /-- The signer can pay. -/
  funds : ∃ balance, Covers sha state signer txFee balance
  /-- The key of the offer is free. -/
  fresh : state.get (sha.makeAddress .offer (askOrderId ++ bidOrderId)) = []
  /-- There is an ask order. -/
  askPresent : state.get askOrderId ≠ []
  /-- The ask order is the signer's. -/
  askOwner : (orderAt state askOrderId).sighash = signer
  /-- The ask order is open. -/
  askUnexpired : Unexpired (orderAt state askOrderId).expiration
    (orderAt state askOrderId).block env.head
  /-- The ask order has an address. -/
  sourcePresent : state.get (orderAt state askOrderId).address ≠ []
  /-- There is a bid order. -/
  bidPresent : state.get bidOrderId ≠ []
  /-- The bid order is another party's. -/
  bidOwner : (orderAt state bidOrderId).sighash ≠ signer
  /-- The bid order is open. -/
  bidUnexpired : Unexpired (orderAt state bidOrderId).expiration
    (orderAt state bidOrderId).block env.head
  /-- The bid order has an address. -/
  targetPresent : state.get (orderAt state bidOrderId).address ≠ []
  /-- The addresses are on one blockchain. -/
  blockchain : (addressAt state (orderAt state askOrderId).address).blockchain =
    (addressAt state (orderAt state bidOrderId).address).blockchain
  /-- The addresses are on one network. -/
  network : (addressAt state (orderAt state askOrderId).address).network =
    (addressAt state (orderAt state bidOrderId).address).network

/-! ## Rates -/

section Rates

variable {ask bid : Terms}

/-- Rates are compared by cross products. -/
theorem Terms.rate_le (askPositive : 0 < ask.maturity) (bidPositive : 0 < bid.maturity) :
    ask.rate ≤ bid.rate ↔ ask.interest * bid.maturity ≤ bid.interest * ask.maturity := by
  have askMaturity : (0 : ℚ) < ask.maturity := by exact_mod_cast askPositive
  have bidMaturity : (0 : ℚ) < bid.maturity := by exact_mod_cast bidPositive
  rw [Terms.rate, Terms.rate, div_le_div_iff₀ askMaturity bidMaturity]
  exact_mod_cast Iff.rfl

/-- A rate that is not higher has a quotient that is not higher. -/
theorem Terms.quotient_le (askPositive : 0 < ask.maturity) (bidPositive : 0 < bid.maturity)
    (rate : ask.rate ≤ bid.rate) :
    ask.interest / ask.maturity ≤ bid.interest / bid.maturity := by
  have cross := (Terms.rate_le askPositive bidPositive).mp rate
  apply Int.le_ediv_of_mul_le bidPositive
  have truncated : ask.interest / ask.maturity * ask.maturity ≤ ask.interest :=
    Int.ediv_mul_le _ askPositive.ne'
  have scaled : ask.interest / ask.maturity * bid.maturity * ask.maturity ≤
      bid.interest * ask.maturity := by
    calc ask.interest / ask.maturity * bid.maturity * ask.maturity
        = ask.interest / ask.maturity * ask.maturity * bid.maturity := Int.mul_right_comm _ _ _
      _ ≤ ask.interest * bid.maturity := Int.mul_le_mul_of_nonneg_right truncated bidPositive.le
      _ ≤ bid.interest * ask.maturity := cross
  exact le_of_mul_le_mul_right scaled askPositive

/-- A rate that is not lower has a quotient that is not lower. -/
theorem Terms.quotient_eq (askPositive : 0 < ask.maturity) (bidPositive : 0 < bid.maturity)
    (quotient : ask.interest / ask.maturity ≤ bid.interest / bid.maturity)
    (lower : bid.rate < ask.rate) :
    ask.interest / ask.maturity = bid.interest / bid.maturity :=
  le_antisymm quotient (Terms.quotient_le bidPositive askPositive lower.le)

end Rates

/-! ## Offers -/

section Offers

variable {sha : Sha512} {env : Env} {signer : Text} {state : State} {askOrderId bidOrderId : Text}
  {steps : List ChainStep} {ask bid : Order}

/-- An order with the terms that a command has read has terms. -/
theorem Order.hasTerms {order : Order} {amount interest maturity fee : Int}
    (amountRead : IsAmount order.amount amount) (interestRead : IsAmount order.interest interest)
    (maturityRead : IsAmount order.maturity maturity) (feeRead : IsAmount order.fee fee) :
    order.HasTerms := by
  have read {text : Text} {value : Int} (isAmount : IsAmount text value) :
      IsAmount text ((cppInt text).getD 0) := by
    rw [isAmount.1]
    exact isAmount
  exact ⟨read amountRead, read interestRead, read maturityRead, read feeRead⟩

/-- A placed order has terms. -/
theorem StillPlaced.hasTerms {sha : Sha512} {tip : UInt64} {steps : List ChainStep} {chain : Chain}
    {state : State} {side : Side} {orderId : Text} (run : ChainRun sha tip steps chain)
    (placed : StillPlaced sha steps state side orderId) : (orderAt state orderId).HasTerms := by
  obtain ⟨taken, listed, env, signer, addressId, amount, interest, maturity, fee, expiration,
    succeeds, rfl, same⟩ := placed
  have allowed : ∀ taken ∈ steps, (fun _ : ChainStep => True) taken := fun _ _ => trivial
  obtain ⟨_, _, _, _, _, step⟩ := ChainRun.split run allowed listed
  have executed := (succeeds.executed step).2
  rw [orderAt, same]
  generalize taken.after.context = written at executed
  cases executed with
  | addOrder covers amountRead interestRead maturityRead feeRead fresh present owner =>
    have found : sha.kindOf (sha.makeAddress side.kind env.guid) = some side.kind :=
      sha.kindOf_makeAddress side.kind env.guid
    rw [Store.setAll_cons, get_setAll_apart found (by cases side <;> simp [Side.kind]),
      Store.get_set_self, Order.parse_serialize]
    exact Order.hasTerms amountRead interestRead maturityRead feeRead

/-- The texts of terms match under the conditions that `AddOffer` tests. -/
theorem ordersMatch_terms (askTerms : ask.HasTerms) (bidTerms : bid.HasTerms)
    (askPositive : 0 < ask.terms.maturity) (bidPositive : 0 < bid.terms.maturity) :
    ordersMatch ask bid = .ok true ↔ ask.amount = bid.amount ∧ ¬ bid.fee < ask.fee ∧
      ask.terms.interest / ask.terms.maturity ≤ bid.terms.interest / bid.terms.maturity := by
  have rate {order : Order} (terms : order.HasTerms) (positive : 0 < order.terms.maturity) :
      interestRate order = .ok (order.terms.interest / order.terms.maturity) :=
    interestRate_ok.mpr ⟨_, _, terms.interest, terms.maturity, positive.ne',
      (Int.tdiv_eq_ediv_of_nonneg terms.interest.2).symm⟩
  rw [ordersMatch_true, rate askTerms askPositive, rate bidTerms bidPositive]
  simp only [Except.ok.injEq, existsAndEq, true_and]

/-- The terms are judged as numbers unless they are misjudged. -/
theorem ordersMatch_numbers (askTerms : ask.HasTerms) (bidTerms : bid.HasTerms)
    (askPositive : 0 < ask.terms.maturity) (bidPositive : 0 < bid.terms.maturity) :
    (ordersMatch ask bid = .ok true ↔ ask.terms.Match bid.terms) ↔ ¬ Misjudged ask bid := by
  rw [ordersMatch_terms askTerms bidTerms askPositive bidPositive]
  have spelled : ask.amount = bid.amount → ask.terms.amount = bid.terms.amount := fun same => by
    rw [Order.terms, Order.terms, same]
  have truncated := Terms.quotient_le askPositive bidPositive
  constructor
  · rintro judged (⟨matching, differs⟩ | ⟨matching, lower⟩ | ⟨amount, higher, lower, quotient⟩ |
      ⟨amount, higher, quotient, lower⟩)
    · exact differs (judged.mpr matching).1
    · exact (judged.mpr matching).2.1 lower
    · exact absurd (judged.mp ⟨amount, higher, quotient⟩).fee (by omega)
    · exact absurd (judged.mp ⟨amount, higher, quotient.le⟩).rate (not_le.mpr lower)
  · intro judged
    constructor
    · rintro ⟨amount, higher, quotient⟩
      refine ⟨spelled amount, ?_, ?_⟩
      · by_contra lower
        exact judged (.lowFee amount higher (by omega) quotient)
      · by_contra lower
        have lower := not_le.mp lower
        exact judged (.lowRate amount higher
          (Terms.quotient_eq askPositive bidPositive quotient lower) lower)
    · intro matching
      refine ⟨?_, ?_, truncated matching.rate⟩
      · by_contra differs
        exact judged (.spelling matching differs)
      · intro lower
        exact judged (.fee matching lower)

/-- An offer can be made exactly of orders whose terms match. -/
theorem executed_addOffer {expiration : UInt64} :
    (∃ written, Executed sha env signer state (.addOffer askOrderId bidOrderId expiration) written)
      ↔ Offerable sha env signer state askOrderId bidOrderId ∧
        ordersMatch (orderAt state askOrderId) (orderAt state bidOrderId) = .ok true := by
  rw [ordersMatch_true]
  constructor
  · rintro ⟨written, executed⟩
    cases executed with
    | addOffer covers fresh askPresent askOwner askUnexpired sourcePresent bidPresent bidOwner
        bidUnexpired targetPresent blockchain network amount fee askInterestRead askMaturityRead
        askNonzero bidInterestRead bidMaturityRead bidNonzero rate =>
      exact ⟨⟨⟨_, covers⟩, fresh, askPresent, askOwner, askUnexpired, sourcePresent, bidPresent,
        bidOwner, bidUnexpired, targetPresent, blockchain, network⟩, amount, fee, _, _,
        interestRate_ok.mpr ⟨_, _, askInterestRead, askMaturityRead, askNonzero, rfl⟩,
        interestRate_ok.mpr ⟨_, _, bidInterestRead, bidMaturityRead, bidNonzero, rfl⟩, rate⟩
  · rintro ⟨offerable, amount, fee, askRate, bidRate, askRead, bidRead, rate⟩
    obtain ⟨balance, covers⟩ := offerable.funds
    obtain ⟨_, _, askInterestRead, askMaturityRead, askNonzero, rfl⟩ := interestRate_ok.mp askRead
    obtain ⟨_, _, bidInterestRead, bidMaturityRead, bidNonzero, rfl⟩ := interestRate_ok.mp bidRead
    exact ⟨_, .addOffer covers offerable.fresh offerable.askPresent offerable.askOwner
      offerable.askUnexpired offerable.sourcePresent offerable.bidPresent offerable.bidOwner
      offerable.bidUnexpired offerable.targetPresent offerable.blockchain offerable.network amount
      fee askInterestRead askMaturityRead askNonzero bidInterestRead bidMaturityRead bidNonzero
      rate⟩

/-- `AddOffer` of placed orders compares their terms as numbers unless it misjudges them. -/
theorem offers_match_numbers {tip : UInt64} {chain : Chain} {payload : Json} {expiration : UInt64}
    (run : ChainRun sha tip steps chain) (serves : chain.Serves env)
    (signed : env.sighash sha = .ok signer) (admits : env.Admits)
    (read : payload.command = .ok (.addOffer askOrderId bidOrderId expiration))
    (offerable : Offerable sha env signer chain.context askOrderId bidOrderId)
    (askPlaced : StillPlaced sha steps chain.context .ask askOrderId)
    (bidPlaced : StillPlaced sha steps chain.context .bid bidOrderId)
    (askPositive : 0 < (orderAt chain.context askOrderId).terms.maturity)
    (bidPositive : 0 < (orderAt chain.context bidOrderId).terms.maturity) :
    (Accepts sha env chain.context payload ↔
        (orderAt chain.context askOrderId).terms.Match (orderAt chain.context bidOrderId).terms) ↔
      ¬ Misjudged (orderAt chain.context askOrderId) (orderAt chain.context bidOrderId) := by
  have accepted : Accepts sha env chain.context payload ↔
      ordersMatch (orderAt chain.context askOrderId) (orderAt chain.context bidOrderId) =
        .ok true := by
    rw [accepts_iff serves.live signed admits read rfl, executed_addOffer]
    exact and_iff_right offerable
  rw [accepted]
  exact ordersMatch_numbers (askPlaced.hasTerms run) (bidPlaced.hasTerms run) askPositive
    bidPositive

end Offers

/-! ## Offers of a script -/

/-- A party places an order of an amount of 1000 for 100 over 10 blocks. -/
def orderFor (key : Text) (nonce verb address fee : String) : Turn :=
  .submit key nonce.toList (call verb
    [("p1", sampleAddress address), ("p2", "1000".toList), ("p3", "100".toList),
      ("p4", "10".toList), ("p5", fee.toList), ("p6", "100".toList)])

/-- An investor asks for one fee and a fundraiser bids another one. -/
def ordersFor (askFee bidFee : String) : List Turn :=
  [collect investorKey "1", collect fundraiserKey "2", register investorKey "4" "0x1",
    register fundraiserKey "5" "0x2", orderFor investorKey "7" "AddAskOrder" "0x1" askFee,
    orderFor fundraiserKey "8" "AddBidOrder" "0x2" bidFee]

/-- The environment in which the investor makes the offer. -/
def offersEnv (chain : Chain) : Env := chain.serve sampleNode investorKey "9".toList

/-- The payload of the offer. -/
def offersPayload : Json :=
  call "AddOffer" [("p1", sample.makeAddress .askOrder "7".toList),
    ("p2", sample.makeAddress .bidOrder "8".toList), ("p3", "100".toList)]

/-- The offer as a turn. -/
def offers : Turn := .submit investorKey "9".toList offersPayload

/-- The offer as a command. -/
def offersCommand : Command :=
  .addOffer (sample.makeAddress .askOrder "7".toList) (sample.makeAddress .bidOrder "8".toList) 100

/-- An offer that a script makes passes every check. -/
theorem offers_offerable {chain : Chain}
    (accepted : chain.accepts sample sampleNode offers = some (sample.id investorKey, offersCommand)) :
    Accepts sample (offersEnv chain) chain.context offersPayload ∧
      (offersEnv chain).sighash sample = .ok (sample.id investorKey) ∧
      offersPayload.command = .ok offersCommand ∧
      Offerable sample (offersEnv chain) (sample.id investorKey) chain.context
        (sample.makeAddress .askOrder "7".toList) (sample.makeAddress .bidOrder "8".toList) := by
  have succeeds := Chain.accepts_succeeds accepted
  have executed := Chain.accepts_executed accepted
  obtain ⟨payload, memory, labelled, read, ran⟩ := succeeds.ran
  obtain ⟨_, rfl⟩ := Event.transaction.inj labelled
  exact ⟨⟨memory, ran⟩, succeeds.signed, read, (executed_addOffer.mp ⟨_, executed⟩).1⟩

/-- The ask order of a script. -/
def Chain.ask (chain : Chain) : Order :=
  orderAt chain.context (sample.makeAddress .askOrder "7".toList)

/-- The bid order of a script. -/
def Chain.bid (chain : Chain) : Order :=
  orderAt chain.context (sample.makeAddress .bidOrder "8".toList)

/-- The chain before a turn of the script with two fees. -/
def ordersChain (askFee bidFee : String) (turns : Nat) : Chain :=
  (Chain.empty 2).plays sample sampleNode ((ordersFor askFee bidFee).take turns)

/-- The script places two orders with terms, and the offer is accepted. -/
@[mk_iff] structure OffersAccepted (askFee bidFee : String) (ask bid : Terms) : Prop where
  /-- The ask order is placed. -/
  asked : (ordersChain askFee bidFee 4).accepts sample sampleNode
      (orderFor investorKey "7" "AddAskOrder" "0x1" askFee) =
    some (sample.id investorKey, .addOrder .ask (sampleAddress "0x1") "1000".toList
      "100".toList "10".toList askFee.toList 100)
  /-- The bid order is placed. -/
  bidden : (ordersChain askFee bidFee 5).accepts sample sampleNode
      (orderFor fundraiserKey "8" "AddBidOrder" "0x2" bidFee) =
    some (sample.id fundraiserKey, .addOrder .bid (sampleAddress "0x2") "1000".toList
      "100".toList "10".toList bidFee.toList 100)
  /-- The bid order leaves the ask order. -/
  same : (ordersChain askFee bidFee 6).context.get (sample.makeAddress .askOrder "7".toList) =
    (ordersChain askFee bidFee 5).context.get (sample.makeAddress .askOrder "7".toList)
  /-- The offer is accepted. -/
  accepted : (ordersChain askFee bidFee 6).accepts sample sampleNode offers =
    some (sample.id investorKey, offersCommand)
  /-- The version of the offer is accepted. -/
  admits : (offersEnv (ordersChain askFee bidFee 6)).Admits
  /-- The ask order has its terms. -/
  askTerms : (ordersChain askFee bidFee 6).ask.terms = ask
  /-- The bid order has its terms. -/
  bidTerms : (ordersChain askFee bidFee 6).bid.terms = bid

instance (askFee bidFee : String) (ask bid : Terms) :
    Decidable (OffersAccepted askFee bidFee ask bid) :=
  decidable_of_iff _ (offersAccepted_iff askFee bidFee ask bid).symm

section OffersAccepted

variable {askFee bidFee : String} {ask bid : Terms}

/-- A turn of the script is a step of its run. -/
theorem ordersChain_step {place : Nat} {turn : Turn} {later : List Turn}
    (split : (ordersFor askFee bidFee).drop place = turn :: later) :
    ⟨ordersChain askFee bidFee place, (ordersChain askFee bidFee place).event sampleNode turn,
        ordersChain askFee bidFee (place + 1)⟩ ∈
      (Chain.empty 2).steps sample sampleNode (ordersFor askFee bidFee) := by
  rw [ordersChain, ordersChain, Chain.plays_take split]
  exact Chain.step_mem split

/-- A turn of the script that is accepted succeeds. -/
theorem ordersChain_succeeds {place : Nat} {key nonce signer : Text} {payload : Json}
    {later : List Turn} {command : Command}
    (split : (ordersFor askFee bidFee).drop place = .submit key nonce payload :: later)
    (accepted : (ordersChain askFee bidFee place).accepts sample sampleNode
      (.submit key nonce payload) = some (signer, command)) :
    Succeeds sample ⟨ordersChain askFee bidFee place,
        (ordersChain askFee bidFee place).event sampleNode (.submit key nonce payload),
        ordersChain askFee bidFee (place + 1)⟩
      ((ordersChain askFee bidFee place).serve sampleNode key nonce) signer command := by
  rw [ordersChain, ordersChain, Chain.plays_take split]
  exact Chain.accepts_succeeds accepted

/-- The ask order of the script is still placed. -/
theorem OffersAccepted.askPlaced (sampled : OffersAccepted askFee bidFee ask bid) :
    StillPlaced sample ((Chain.empty 2).steps sample sampleNode (ordersFor askFee bidFee))
      (ordersChain askFee bidFee 6).context .ask (sample.makeAddress .askOrder "7".toList) :=
  ⟨_, ordersChain_step rfl, _, _, _, _, _, _, _, _, ordersChain_succeeds rfl sampled.asked, rfl,
    sampled.same⟩

/-- The bid order of the script is still placed. -/
theorem OffersAccepted.bidPlaced (sampled : OffersAccepted askFee bidFee ask bid) :
    StillPlaced sample ((Chain.empty 2).steps sample sampleNode (ordersFor askFee bidFee))
      (ordersChain askFee bidFee 6).context .bid (sample.makeAddress .bidOrder "8".toList) :=
  ⟨_, ordersChain_step rfl, _, _, _, _, _, _, _, _, ordersChain_succeeds rfl sampled.bidden, rfl,
    rfl⟩

/-- The maturity of the ask order of the script is positive. -/
theorem OffersAccepted.askPositive (sampled : OffersAccepted askFee bidFee ask bid)
    (positive : 0 < ask.maturity) :
    0 < (orderAt (ordersChain askFee bidFee 6).context
      (sample.makeAddress .askOrder "7".toList)).terms.maturity := by
  rw [← sampled.askTerms] at positive
  exact positive

/-- The maturity of the bid order of the script is positive. -/
theorem OffersAccepted.bidPositive (sampled : OffersAccepted askFee bidFee ask bid)
    (positive : 0 < bid.maturity) :
    0 < (orderAt (ordersChain askFee bidFee 6).context
      (sample.makeAddress .bidOrder "8".toList)).terms.maturity := by
  rw [← sampled.bidTerms] at positive
  exact positive

/-- The script is a run. -/
theorem ordersChain_run (askFee bidFee : String) :
    ChainRun sample 2 ((Chain.empty 2).steps sample sampleNode (ordersFor askFee bidFee))
      (ordersChain askFee bidFee 6) := Chain.steps_run

end OffersAccepted

/-- Offers of orders with the same fee and with two fees are accepted. -/
theorem ordersFor_accepted :
    OffersAccepted "1" "1" ⟨1000, 100, 10, 1⟩ ⟨1000, 100, 10, 1⟩ ∧
      OffersAccepted "10" "9" ⟨1000, 100, 10, 10⟩ ⟨1000, 100, 10, 9⟩ := by
  decide +kernel

/-- Orders with the same fee are judged by their numbers. -/
theorem offers_match_numbers_sample :
    let chain := ordersChain "1" "1" 6
    Accepts sample (offersEnv chain) chain.context offersPayload ∧
      ((Accepts sample (offersEnv chain) chain.context offersPayload ↔
        chain.ask.terms.Match chain.bid.terms) ↔ ¬ Misjudged chain.ask chain.bid) := by
  have sampled := ordersFor_accepted.1
  obtain ⟨accepts, signed, read, offerable⟩ := offers_offerable sampled.accepted
  refine ⟨accepts, ?_⟩
  exact offers_match_numbers (ordersChain_run "1" "1") (Chain.serve_serves investorKey "9".toList)
    signed sampled.admits read offerable sampled.askPlaced sampled.bidPlaced
    (sampled.askPositive (by decide)) (sampled.bidPositive (by decide))

/-- An ask fee of 10 is taken for less than a bid fee of 9. -/
theorem fee_misjudged :
    ¬ ∀ (sha : Sha512) (tip : UInt64) (steps : List ChainStep) (chain : Chain) (env : Env)
      (signer : Text) (payload : Json) (askOrderId bidOrderId : Text) (expiration : UInt64),
      ChainRun sha tip steps chain → chain.Serves env → env.sighash sha = .ok signer →
      env.Admits → payload.command = .ok (.addOffer askOrderId bidOrderId expiration) →
      Offerable sha env signer chain.context askOrderId bidOrderId →
      StillPlaced sha steps chain.context .ask askOrderId →
      StillPlaced sha steps chain.context .bid bidOrderId →
      0 < (orderAt chain.context askOrderId).terms.maturity →
      0 < (orderAt chain.context bidOrderId).terms.maturity →
      (Accepts sha env chain.context payload ↔
        (orderAt chain.context askOrderId).terms.Match (orderAt chain.context bidOrderId).terms) := by
  intro claim
  let chain := ordersChain "10" "9" 6
  have sampled := ordersFor_accepted.2
  obtain ⟨accepts, signed, read, offerable⟩ := offers_offerable sampled.accepted
  have matching : chain.ask.terms.Match chain.bid.terms :=
    (claim sample 2 _ chain (offersEnv chain) _ offersPayload _ _ 100
      (ordersChain_run "10" "9") (Chain.serve_serves investorKey "9".toList) signed sampled.admits
      read offerable sampled.askPlaced sampled.bidPlaced (sampled.askPositive (by decide))
      (sampled.bidPositive (by decide))).mp accepts
  have fees := matching.fee
  rw [sampled.askTerms, sampled.bidTerms] at fees
  exact absurd fees (by decide)

end Creditcoin
