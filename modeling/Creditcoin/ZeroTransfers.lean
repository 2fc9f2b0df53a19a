import Creditcoin.Networks

/-!
# Transfers without a payment

A party that settles an order without a payment registers a transfer with the identifier zero,
which the gateway does not check. Its key is made like that of a payment, so there is room for one
such transfer on a network, whichever order it is for.
-/

namespace Creditcoin

open Lib

/-- The place of the transfers without a payment from an address. -/
def zeroPlace (state : State) (source : Text) : Registration where
  blockchain := (addressAt state source).blockchain
  value := "0".toList
  network := (addressAt state source).network

/-- The owner of the source asks to register a transfer without a payment for an order. -/
structure RegistersZero (sha : Sha512) (state : State) (env : Env) (payload : Json) (gain : Int)
    (orderId source target principal : Text) : Prop where
  /-- The transaction runs on a live node. -/
  live : env.Live
  /-- The owner of the source signs it. -/
  signed : env.sighash sha = .ok (ownerOf state source)
  /-- The version of the transaction is accepted. -/
  admits : env.Admits
  /-- It registers a transfer without a payment. -/
  read : payload.command = .ok (.registerTransfer gain orderId "0".toList)
  /-- The order is there. -/
  present : state.get orderId ≠ []
  /-- The ends of the transfer. -/
  pays : Pays sha state orderId gain source target principal

section ZeroTransfers

variable {sha : Sha512} {env env' : Env} {signer : Text} {state after : State}
  {tip : UInt64} {steps : List ChainStep} {chain : Chain} {payload payload' : Json}
  {gain gain' : Int} {orderId orderId' source source' target target' principal principal' : Text}

/-- A transfer has its key in the place of its source. -/
theorem paymentId_zero : paymentId sha state source "0".toList =
    (zeroPlace state source).transferKey sha := rfl

/-- A transfer without a payment is accepted when its ends are on one network and its key is
free. -/
theorem RegistersZero.accepts_iff
    (zero : RegistersZero sha state env payload gain orderId source target principal)
    (sourceKind : sha.kindOf source = some .addr) (targetKind : sha.kindOf target = some .addr)
    (funds : ∃ balance, Covers sha state (ownerOf state source) txFee balance) :
    Accepts sha env state payload ↔ SameNetwork sha state source target ∧
      state.get ((zeroPlace state source).transferKey sha) = [] := by
  have isId : sha.IsId (ownerOf state source) := sighash_isId zero.live zero.signed
  rw [settles_iff zero.live zero.signed zero.admits zero.read rfl]
  constructor
  · rintro ⟨written, executed⟩
    cases executed with
    | registerTransfer covers order pays sourcePresent targetPresent owner blockchain network
        fresh =>
      obtain ⟨rfl, rfl, rfl⟩ := zero.pays.unique pays
      exact ⟨⟨sourceKind, sourcePresent, targetKind, targetPresent, blockchain, network⟩, fresh⟩
  · rintro ⟨ends, fresh⟩
    obtain ⟨balance, covers⟩ := funds
    exact ⟨_, .registerTransfer covers zero.present zero.pays ends.leftPresent ends.rightPresent
      rfl ends.blockchain ends.network fresh ((if_pos rfl).mpr rfl)⟩

/-- In a run the ends of a transfer for an order are addresses. -/
theorem Pays.kinds (pays : Pays sha state orderId gain source target principal)
    (present : state.get orderId ≠ []) (addresses : AddressesKept sha state)
    (networked : Networked sha state) :
    sha.kindOf source = some .addr ∧ sha.kindOf target = some .addr := by
  cases pays with
  | loan kind =>
    have ends := networked.deal orderId kind present
    exact ⟨ends.leftKind, ends.rightKind⟩
  | repayment kind =>
    have ends := networked.deal orderId kind present
    exact ⟨ends.rightKind, ends.leftKind⟩
  | sale kind =>
    exact ⟨addresses.repayment orderId kind present, networked.target orderId kind present⟩

/-- Registering a transfer leaves the ends of the transfers for all orders. -/
theorem Executed.pays_left {registered blockchainTxId : Text}
    (executed : Executed sha env signer state
      (.registerTransfer gain registered blockchainTxId) after)
    (pays : Pays sha state orderId gain' source target principal) :
    after.get orderId = state.get orderId ∧
      Pays sha after orderId gain' source target principal := by
  cases pays with
  | loan kind none =>
    have same := executed.transfer_leaves kind (by decide)
    have deal : dealAt after orderId = dealAt state orderId := by rw [dealAt, same, dealAt]
    exact ⟨same, deal ▸ .loan kind none⟩
  | repayment kind some =>
    have same := executed.transfer_leaves kind (by decide)
    have deal : dealAt after orderId = dealAt state orderId := by rw [dealAt, same, dealAt]
    exact ⟨same, deal ▸ .repayment kind some⟩
  | sale kind none =>
    have same := executed.transfer_leaves kind (by decide)
    have order : repaymentAt after orderId = repaymentAt state orderId := by
      rw [repaymentAt, same, repaymentAt]
    exact ⟨same, order ▸ .sale kind none⟩

/-- Registering a transfer leaves the wallets of others. -/
theorem Executed.wallet_left {registered blockchainTxId party : Text}
    (executed : Executed sha env signer state
      (.registerTransfer gain registered blockchainTxId) after)
    (other : party ≠ signer) :
    after.get (sha.walletId party) = state.get (sha.walletId party) := by
  have found : sha.kindOf (sha.walletId party) = some .wallet := sha.kindOf_walletId party
  have apart : sha.walletId party ≠ sha.walletId signer :=
    fun equal => other (sha.walletId_injective equal)
  cases executed with
  | registerTransfer => exact (get_setAll_at [_, _] found (by simp) (by simp)).trans (if_neg apart)

/-- Who can pay the fee after a transfer was registered could pay it before. -/
theorem Executed.covers_before {registered blockchainTxId party : Text} {balance : Int}
    (executed : Executed sha env signer state
      (.registerTransfer gain registered blockchainTxId) after)
    (funds : Covers sha after party txFee balance) : ∃ more, Covers sha state party txFee more := by
  by_cases own : party = signer
  · cases executed with
    | registerTransfer covers => exact ⟨_, own ▸ covers⟩
  · have same := executed.wallet_left own
    have wallet : walletOf sha after party = walletOf sha state party := by
      rw [walletOf, same, walletOf]
    exact ⟨balance, same ▸ funds.present, wallet ▸ funds.read, funds.nonneg, funds.covered⟩

/-- A request to register a transfer without a payment is still one after another was registered,
and has the same place. -/
theorem RegistersZero.kept {first : Text}
    (executed : Executed sha env signer state (.registerTransfer gain first "0".toList) after)
    (zero : RegistersZero sha state env' payload' gain' orderId source target principal)
    (sourceKind : sha.kindOf source = some .addr) :
    RegistersZero sha after env' payload' gain' orderId source target principal ∧
      addressAt after source = addressAt state source := by
  have same : addressAt after source = addressAt state source := by
    rw [addressAt, executed.transfer_leaves sourceKind (by decide), addressAt]
  obtain ⟨left, pays⟩ := executed.pays_left zero.pays
  have signed : env'.sighash sha = .ok (ownerOf after source) := by
    rw [ownerOf, same]
    exact zero.signed
  exact ⟨⟨zero.live, signed, zero.admits, zero.read, left ▸ zero.present, pays⟩, same⟩

/-- Registering a transfer leaves the networks of addresses. -/
theorem Executed.networks_left {registered blockchainTxId : Text}
    (executed : Executed sha env signer state
      (.registerTransfer gain registered blockchainTxId) after)
    (sourceKind : sha.kindOf source = some .addr) (targetKind : sha.kindOf target = some .addr) :
    SameNetwork sha after source target ↔ SameNetwork sha state source target := by
  have left := executed.transfer_leaves sourceKind (by decide)
  have right := executed.transfer_leaves targetKind (by decide)
  have leftSame : addressAt after source = addressAt state source := by
    rw [addressAt, left, addressAt]
  have rightSame : addressAt after target = addressAt state target := by
    rw [addressAt, right, addressAt]
  constructor
  · rintro ⟨_, sourcePresent, _, targetPresent, blockchain, network⟩
    rw [leftSame, rightSame] at blockchain network
    exact ⟨sourceKind, left ▸ sourcePresent, targetKind, right ▸ targetPresent, blockchain, network⟩
  · rintro ⟨_, sourcePresent, _, targetPresent, blockchain, network⟩
    refine ⟨sourceKind, left ▸ sourcePresent, targetKind, right ▸ targetPresent, ?_, ?_⟩
    · rw [leftSame, rightSame, blockchain]
    · rw [leftSame, rightSame, network]

/-- A transfer without a payment for one order leaves another one allowed exactly when their places
have different texts, or there is no room for the other one at all. -/
theorem RegistersZero.independent_iff
    (first : RegistersZero sha state env payload gain orderId source target principal)
    (executed : Executed sha env (ownerOf state source) state
      (.registerTransfer gain orderId "0".toList) after)
    (second : RegistersZero sha state env' payload' gain' orderId' source' target' principal')
    (sourceKind : sha.kindOf source' = some .addr) (targetKind : sha.kindOf target' = some .addr)
    (funds : ∃ balance, Covers sha after (ownerOf state source') txFee balance)
    (separate : sha.id (zeroPlace state source).joined = sha.id (zeroPlace state source').joined →
      (zeroPlace state source).joined = (zeroPlace state source').joined) :
    (Accepts sha env' after payload' ↔ Accepts sha env' state payload') ↔
      (zeroPlace state source).joined ≠ (zeroPlace state source').joined ∨
        ¬ SameNetwork sha state source' target' := by
  have isId : sha.IsId (ownerOf state source) := sighash_isId first.live first.signed
  obtain ⟨balance, covers⟩ := funds
  have before := second.accepts_iff sourceKind targetKind (executed.covers_before covers)
  obtain ⟨kept, same⟩ := second.kept executed sourceKind
  have owner : ownerOf after source' = ownerOf state source' := by rw [ownerOf, same, ownerOf]
  have place : zeroPlace after source' = zeroPlace state source' := by
    rw [zeroPlace, same, zeroPlace]
  have allowed := kept.accepts_iff sourceKind targetKind ⟨balance, owner ▸ covers⟩
  rw [executed.networks_left sourceKind targetKind, place] at allowed
  -- what is under the keys of the two transfers afterwards
  have found : sha.kindOf ((zeroPlace state source').transferKey sha) = some .transfer :=
    sha.kindOf_makeAddress .transfer _
  obtain ⟨amount, _, _, written⟩ := executed.transfer_added first.pays found
  rw [paymentId_zero] at written
  have fresh : state.get ((zeroPlace state source).transferKey sha) = [] := by
    cases executed with
    | registerTransfer covers order pays sourcePresent targetPresent owner blockchain network
        fresh =>
      obtain ⟨rfl, rfl, rfl⟩ := first.pays.unique pays
      exact fresh
  have keys : (zeroPlace state source).transferKey sha ≠
      (zeroPlace state source').transferKey sha ↔
        (zeroPlace state source).joined ≠ (zeroPlace state source').joined :=
    makeAddress_ne_iff separate
  rw [← keys, before, allowed]
  by_cases shared : (zeroPlace state source).transferKey sha =
      (zeroPlace state source').transferKey sha
  · rw [if_pos shared.symm] at written
    have taken : after.get ((zeroPlace state source').transferKey sha) ≠ [] := by
      rw [written]
      exact transfer_ne_nil isId.ne_nil
    have free : state.get ((zeroPlace state source').transferKey sha) = [] := shared ▸ fresh
    simp only [taken, free, shared, and_false, and_true, false_iff, ne_eq, not_true_eq_false,
      false_or]
  · rw [if_neg (fun equal => shared equal.symm)] at written
    rw [written]
    exact iff_of_true Iff.rfl (.inl shared)

/-- In a run a transfer without a payment for one order leaves that for another order allowed
exactly when the places of the two have different texts or the ends of the other one are not on one
network; and the investor of a deal may register it exactly when its place is free. -/
theorem zero_transfers_iff (run : ChainRun sha tip steps chain) (separate : Separate sha steps)
    (guarded : ∀ taken ∈ steps, NamesParties sha taken) :
    (∀ {env env' payload payload' gain gain' orderId orderId' source source' target target'
        principal principal' after},
      RegistersZero sha chain.context env payload gain orderId source target principal →
      Executed sha env (ownerOf chain.context source) chain.context
        (.registerTransfer gain orderId "0".toList) after →
      RegistersZero sha chain.context env' payload' gain' orderId' source' target' principal' →
      (∃ balance, Covers sha after (ownerOf chain.context source') txFee balance) →
      (sha.id (zeroPlace chain.context source).joined =
          sha.id (zeroPlace chain.context source').joined →
        (zeroPlace chain.context source).joined = (zeroPlace chain.context source').joined) →
      ((Accepts sha env' after payload' ↔ Accepts sha env' chain.context payload') ↔
        (zeroPlace chain.context source).joined ≠ (zeroPlace chain.context source').joined ∨
          ¬ SameNetwork sha chain.context source' target')) ∧
    ∀ {env payload dealOrderId source target principal},
      sha.kindOf dealOrderId = some .dealOrder →
      RegistersZero sha chain.context env payload 0 dealOrderId source target principal →
      (∃ balance, Covers sha chain.context (ownerOf chain.context source) txFee balance) →
      (Accepts sha env chain.context payload ↔
        chain.context.get ((zeroPlace chain.context source).transferKey sha) = []) := by
  have networked := run.networked guarded separate
  have addresses := (run.matched guarded separate).1
  constructor
  · intro env env' payload payload' gain gain' orderId orderId' source source' target target'
      principal principal' after first executed second funds collide
    obtain ⟨sourceKind, targetKind⟩ := second.pays.kinds second.present addresses networked
    exact first.independent_iff executed second sourceKind targetKind funds collide
  · intro env payload dealOrderId source target principal found zero funds
    obtain ⟨sourceKind, targetKind⟩ := zero.pays.kinds zero.present addresses networked
    rw [zero.accepts_iff sourceKind targetKind funds]
    refine and_iff_right ?_
    have ends := networked.deal dealOrderId found zero.present
    cases zero.pays with
    | loan => exact ends
    | repayment _ some => exact absurd rfl some
    | sale kind =>
      rw [found] at kind
      cases kind

end ZeroTransfers

/-! ## Two orders on one network -/

/-- A paid loan that the collector has ordered to buy. -/
def zeroScript : List Turn := loanPaid ++ [purchase "13" "500"]

/-- The chain with the paid loan. -/
def zeroChain : Chain := (Chain.empty 2).plays sample sampleNode zeroScript

/-- The environment of a transaction on that chain. -/
def zeroEnv (key : Text) (nonce : String) : Env := zeroChain.serve sampleNode key nonce.toList

/-- The payload that registers a transfer without a payment. -/
def zeroPayload (orderId : Text) : Json :=
  call "RegisterTransfer" [("p1", "0".toList), ("p2", orderId), ("p3", "0".toList)]

/-- The investor registers a transfer without a payment for the deal. -/
def zeroTurn : Turn := .submit investorKey "14".toList (zeroPayload sampleDeal)

/-- The chain after the investor's transfer. -/
def zeroTaken : Chain := zeroChain.play sample sampleNode zeroTurn

/-- The address of the investor. -/
def zeroSource : Text := (dealAt zeroChain.context sampleDeal).srcAddress

/-- The address of the collector. -/
def zeroSource' : Text := (repaymentAt zeroChain.context (sampleRepayment "13")).srcAddress

/-- A party asks for a transfer without a payment for its order. -/
@[mk_iff] structure ZeroAsked (key : Text) (nonce : String) (orderId source : Text) : Prop where
  /-- The party owns the source. -/
  signed : (zeroEnv key nonce).sighash sample = .ok (ownerOf zeroChain.context source)
  /-- The version of the transaction is accepted. -/
  admits : (zeroEnv key nonce).Admits
  /-- The payload names the order. -/
  read : (zeroPayload orderId).command = .ok (.registerTransfer 0 orderId "0".toList)
  /-- The order is there. -/
  present : zeroChain.context.get orderId ≠ []

instance (key : Text) (nonce : String) (orderId source : Text) :
    Decidable (ZeroAsked key nonce orderId source) :=
  decidable_of_iff _ (zeroAsked_iff key nonce orderId source).symm

/-- A party that asks registers the transfer without a payment. -/
theorem ZeroAsked.registers {key orderId source target principal : Text} {nonce : String}
    (asked : ZeroAsked key nonce orderId source)
    (pays : Pays sample zeroChain.context orderId 0 source target principal) :
    RegistersZero sample zeroChain.context (zeroEnv key nonce) (zeroPayload orderId) 0 orderId
      source target principal where
  live := (Chain.serve_serves key nonce.toList).live
  signed := asked.signed
  admits := asked.admits
  read := asked.read
  present := asked.present
  pays := pays

/-- The investor's transfer for the deal. -/
theorem zeroPays : Pays sample zeroChain.context sampleDeal 0 zeroSource
    (dealAt zeroChain.context sampleDeal).dstAddress
    (dealAt zeroChain.context sampleDeal).amount :=
  .loan (sample.kindOf_makeAddress .dealOrder _) rfl

/-- The collector's transfer for the repayment order. -/
theorem zeroPays' : Pays sample zeroChain.context (sampleRepayment "13") 0 zeroSource'
    (repaymentAt zeroChain.context (sampleRepayment "13")).dstAddress
    (repaymentAt zeroChain.context (sampleRepayment "13")).amount :=
  .sale (sample.kindOf_makeAddress .repaymentOrder _) rfl

/-- A transfer that is accepted is executed. -/
theorem zeroTurn_executed {chain : Chain} {signer : Text} {command : Command}
    (accepted : chain.accepts sample sampleNode zeroTurn = some (signer, command)) :
    Executed sample (chain.serve sampleNode investorKey "14".toList) signer chain.context command
      (chain.play sample sampleNode zeroTurn).context :=
  Chain.accepts_executed accepted

/-- The ends of a transfer are tested for their network. -/
instance (sha : Sha512) (state : State) (left right : Text) :
    Decidable (SameNetwork sha state left right) :=
  decidable_of_iff _ (sameNetwork_iff sha state left right).symm

/-- The run of the two orders: the investor asks for a transfer whose place is free, the collector
asks for one in the same place and can still pay for it afterwards. -/
theorem zeroChain_run :
    (ZeroAsked investorKey "14" sampleDeal zeroSource ∧
        zeroChain.context.get ((zeroPlace zeroChain.context zeroSource).transferKey sample) = [] ∧
        zeroChain.context.get (sample.walletId (ownerOf zeroChain.context zeroSource)) ≠ [] ∧
        (walletOf sample zeroChain.context (ownerOf zeroChain.context zeroSource)).amount =
          "950000000000000001".toList) ∧
      (ZeroAsked collectorKey "15" (sampleRepayment "13") zeroSource' ∧
        zeroChain.accepts sample sampleNode zeroTurn =
          some (ownerOf zeroChain.context zeroSource,
            .registerTransfer 0 sampleDeal "0".toList) ∧
        ownerOf zeroChain.context zeroSource' = sample.id collectorKey ∧
        zeroTaken.context.get (sample.walletId (sample.id collectorKey)) ≠ [] ∧
        (walletOf sample zeroTaken.context (sample.id collectorKey)).amount =
          "980000000000000000".toList) ∧
      ((zeroPlace zeroChain.context zeroSource).joined =
          (zeroPlace zeroChain.context zeroSource').joined ∧
        SameNetwork sample zeroChain.context zeroSource'
          (repaymentAt zeroChain.context (sampleRepayment "13")).dstAddress) ∧
      Turn.differ sample zeroScript = true := by
  decide +kernel

/-- The digests of the script do not collide. -/
theorem zero_separate : Separate sample ((Chain.empty 2).steps sample sampleNode zeroScript) :=
  Chain.steps_separate zeroChain_run.2.2.2

/-- The investor of the sample loan may register the transfer that its exemption needs. -/
theorem zero_transfers_sample : Accepts sample (zeroEnv investorKey "14") zeroChain.context
    (zeroPayload sampleDeal) := by
  have checked : (Chain.empty 2).checks sample sampleNode
      (fun chain _ _ command => command.ordinary sample chain && (command.namesDeal sample &&
        command.namesAddress sample)) zeroScript = true :=
    Chain.checks_plain (by decide +kernel)
  obtain ⟨⟨asked, free, wallet, balance⟩, -⟩ := zeroChain_run
  have funds : Covers sample zeroChain.context (ownerOf zeroChain.context zeroSource) txFee
      950000000000000001 := by
    refine ⟨wallet, ?_, by decide, by decide +kernel⟩
    rw [balance]
    decide
  exact ((zero_transfers_iff Chain.steps_run zero_separate (Chain.checks_parties checked)).2
    (sample.kindOf_makeAddress .dealOrder _) (asked.registers zeroPays) ⟨_, funds⟩).mpr free

/-- The investor's transfer without a payment takes the place of the collector's. -/
theorem zero_transfers_collide :
    ¬ ∀ (sha : Sha512) (tip : UInt64) (steps : List ChainStep) (chain : Chain) (env env' : Env)
      (payload payload' : Json) (gain gain' : Int) (orderId orderId' source source' target target'
        principal principal' : Text) (after : State), ChainRun sha tip steps chain →
      Separate sha steps → orderId ≠ orderId' →
      RegistersZero sha chain.context env payload gain orderId source target principal →
      Executed sha env (ownerOf chain.context source) chain.context
        (.registerTransfer gain orderId "0".toList) after →
      RegistersZero sha chain.context env' payload' gain' orderId' source' target' principal' →
      (∃ balance, Covers sha after (ownerOf chain.context source') txFee balance) →
      (Accepts sha env' after payload' ↔ Accepts sha env' chain.context payload') := by
  intro claim
  obtain ⟨⟨asked, -⟩, ⟨collector, accepted, owner, wallet, balance⟩, ⟨shared, ends⟩, -⟩ :=
    zeroChain_run
  have executed : Executed sample (zeroEnv investorKey "14") (ownerOf zeroChain.context zeroSource)
      zeroChain.context (.registerTransfer 0 sampleDeal "0".toList) zeroTaken.context :=
    zeroTurn_executed accepted
  have registered := asked.registers zeroPays
  have asking := collector.registers zeroPays'
  have funds : Covers sample zeroTaken.context (ownerOf zeroChain.context zeroSource') txFee
      980000000000000000 := by
    rw [owner]
    refine ⟨wallet, ?_, by decide, by decide +kernel⟩
    rw [balance]
    decide
  have same : Accepts sample (zeroEnv collectorKey "15") zeroTaken.context
        (zeroPayload (sampleRepayment "13")) ↔
      Accepts sample (zeroEnv collectorKey "15") zeroChain.context
        (zeroPayload (sampleRepayment "13")) :=
    claim sample 2 _ _ _ _ _ _ 0 0 sampleDeal (sampleRepayment "13") _ _ _ _ _ _ _
      Chain.steps_run zero_separate (by decide) registered executed asking ⟨_, funds⟩
  -- the two places are one, and the ends of the collector's transfer are on its network
  rcases (registered.independent_iff executed asking ends.leftKind ends.rightKind ⟨_, funds⟩
    fun _ => shared).mp same with apart | astray
  · exact apart shared
  · exact astray ends

end Creditcoin
