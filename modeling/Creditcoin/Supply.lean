import Creditcoin.Fees
import Creditcoin.Separation
import Creditcoin.Spending
import Creditcoin.Status

/-!
# Supply

The coins of a state are those in the wallets, those paid for the fee records, and the fees of the
deal orders that wait for a loan. A command of a user moves coins between these and makes none,
apart from `CollectCoins`, which makes what is collected. That holds in a run with distinct nonces
whose `AddDealOrder`s name offers; an `AddDealOrder` of a wallet destroys the coins in it.
-/

namespace Creditcoin

open Lib

/-- The coins that a deal order holds. -/
def pendingFee (deal : DealOrder) : Int :=
  if deal.loanTransfer = [] then amountOf deal.fee else 0

/-- The coins that a record holds. -/
def coinsIn (sha : Sha512) (key value : Text) : Int :=
  match sha.kindOf key with
  | some .wallet => amountOf (Wallet.parseFromString value).amount
  | some .fee => if value = [] then 0 else txFee
  | some .dealOrder => pendingFee (DealOrder.parseFromString value)
  | _ => 0

/-- The coins of a state. -/
def supply (sha : Sha512) (state : State) : Int := Store.sum (coinsIn sha) state

/-- The coins that a command makes. -/
def Command.collected : Command → Int
  | .collectCoins _ _ amount _ => amount
  | _ => 0

/-- The wallets that a command pays to. -/
def Command.receipts (sha : Sha512) (signer : Text) : Command → List (Text × Int)
  | .sendFunds _ amount sighash => [(sha.walletId sighash, amount)]
  | .collectCoins _ _ amount _ => [(sha.walletId signer, amount)]
  | _ => []

/-- The fee record that a command pays for. -/
def Command.charge (sha : Sha512) (env : Env) (command : Command) : List (Text × Int) :=
  if command.isCharged then [(env.feeId sha, txFee)] else []

/-- The deal order whose fee a command puts away or takes out. -/
def Command.escrow (sha : Sha512) (state : State) : Command → List (Text × Int)
  | .addDealOrder offerId _ => [(sha.makeAddress .dealOrder offerId, bidFee state offerId)]
  | .completeDealOrder dealOrderId _ => [(dealOrderId, -amountOf (dealAt state dealOrderId).fee)]
  | _ => []

/-- The records between which a command moves coins. -/
def Command.moves (sha : Sha512) (env : Env) (signer : Text) (state : State) (command : Command) :
    List (Text × Int) :=
  (sha.walletId signer, -command.cost state) ::
    (command.receipts sha signer ++ (command.charge sha env ++ command.escrow sha state))

/-- What listed changes amount to under a key. -/
def changeAt (key : Text) (changes : List (Text × Int)) : Int :=
  (changes.map fun change => if key = change.1 then change.2 else 0).sum

/-- A command other than `Housekeeping` makes no coins but those that it collects, and leaves
readable wallets. -/
structure Conserves (sha : Sha512) (taken : ChainStep) : Prop where
  /-- The supply grows by what is collected. -/
  coins : ∀ env signer command, Succeeds sha taken env signer command →
    (∀ blockIdx, command ≠ .housekeeping blockIdx) →
    supply sha taken.after.context = supply sha taken.before.context + command.collected
  /-- The amounts of the wallets are numerals that are not negative. -/
  wallets : ∀ env signer command, Succeeds sha taken env signer command →
    (∀ blockIdx, command ≠ .housekeeping blockIdx) →
    ∀ key ∈ taken.after.context, sha.kindOf key = some .wallet →
      HasAmount (Wallet.parseFromString (taken.after.context.get key)).amount

section Supply

variable {sha : Sha512} {env : Env} {signer key : Text} {state after : State}
  {command : Command} {tip : UInt64} {steps : List ChainStep} {chain : Chain}
  {changes later : List (Text × Int)}

/-! ## Changes -/

/-- Changes of other kinds do not reach a key. -/
theorem changeAt_apart (sha : Sha512)
    (apart : ∀ change ∈ changes, sha.kindOf change.1 ≠ sha.kindOf key) :
    changeAt key changes = 0 := by
  apply Store.sum_of_notMem
  intro listed
  obtain ⟨change, member, rfl⟩ := List.mem_map.mp listed
  exact apart change member rfl

/-- Changes add up. -/
theorem changeAt_append : changeAt key (changes ++ later) =
    changeAt key changes + changeAt key later := by
  rw [changeAt, List.map_append, List.sum_append, changeAt, changeAt]

/-- The wallet of the signer pays the cost. -/
theorem changeAt_moves : changeAt key (command.moves sha env signer state) =
    (if key = sha.walletId signer then -command.cost state else 0) +
      (changeAt key (command.receipts sha signer) +
        (changeAt key (command.charge sha env) + changeAt key (command.escrow sha state))) := by
  rw [Command.moves, changeAt, List.map_cons, List.sum_cons, ← changeAt, changeAt_append,
    changeAt_append]

/-- What a command moves adds up to what it makes. -/
theorem Command.moves_sum (other : ∀ blockIdx, command ≠ .housekeeping blockIdx) :
    ((command.moves sha env signer state).map Prod.snd).sum = command.collected := by
  cases command with
  | housekeeping blockIdx => exact absurd rfl (other blockIdx)
  | sendFunds amountString amount sighash =>
    simp [moves, receipts, charge, escrow, cost, collected, isCharged]
  | addDealOrder offerId expiration =>
    simp [moves, receipts, charge, escrow, cost, collected, isCharged]
    omega
  | completeDealOrder dealOrderId transferId =>
    simp [moves, receipts, charge, escrow, cost, collected, isCharged]
    omega
  | collectCoins ethAddress amountString amount blockchainTxId =>
    simp [moves, receipts, charge, escrow, cost, collected, isCharged]
  | _ => simp [moves, receipts, charge, escrow, cost, collected, isCharged]

/-! ## Wallets -/

/-- Owners have wallets of their own. -/
theorem walletId_eq_iff {owner payee : Text} :
    sha.walletId owner = sha.walletId payee ↔ owner = payee :=
  ⟨fun same => sha.walletId_injective same, congrArg sha.walletId⟩

/-- The coins in a wallet are the balance of its owner. -/
theorem coinsIn_wallet (owner : Text) :
    coinsIn sha (sha.walletId owner) (state.get (sha.walletId owner)) =
      balanceOf sha state owner := by
  rw [coinsIn, sha.kindOf_walletId, balanceOf, walletOf]

/-- A wallet receives what its owner is paid. -/
theorem changeAt_receipts (owner : Text) :
    changeAt (sha.walletId owner) (command.receipts sha signer) = command.pays signer owner := by
  cases command with
  | sendFunds amountString amount sighash =>
    simp [changeAt, Command.receipts, Command.pays, walletId_eq_iff]
  | collectCoins ethAddress amountString amount blockchainTxId =>
    simp [changeAt, Command.receipts, Command.pays, walletId_eq_iff]
  | _ => rfl

/-- Receipts are paid to wallets. -/
theorem Command.receipts_kind {change : Text × Int}
    (listed : change ∈ command.receipts sha signer) : sha.kindOf change.1 = some .wallet := by
  cases command with
  | sendFunds amountString amount sighash =>
    rw [List.mem_singleton.mp listed]
    exact sha.kindOf_walletId _
  | collectCoins ethAddress amountString amount blockchainTxId =>
    rw [List.mem_singleton.mp listed]
    exact sha.kindOf_walletId _
  | _ => cases listed

/-- The charge is for a fee record. -/
theorem Command.charge_kind {change : Text × Int} (listed : change ∈ command.charge sha env) :
    sha.kindOf change.1 = some .fee := by
  rw [Command.charge] at listed
  split at listed
  · rw [List.mem_singleton.mp listed]
    exact env.kindOf_feeId sha
  · cases listed

/-! ## Deal orders -/

/-- The deal order whose fee a command moves is written by the command. -/
theorem Executed.escrow_written (around : Surroundings sha env signer state command)
    (executed : Executed sha env signer state command after) {change : Text × Int}
    (listed : change ∈ command.escrow sha state) :
    sha.kindOf change.1 = some .dealOrder ∧ after.get change.1 ≠ state.get change.1 := by
  obtain ⟨kept, live, isId, lists, named⟩ := around
  cases executed with
  | addDealOrder fresh present unexpired bidPresent bidOwner askPresent feeRead covers =>
    rename_i offerId expiration balance fee
    obtain rfl := List.mem_singleton.mp listed
    have found := sha.kindOf_makeAddress .dealOrder offerId
    refine ⟨found, ?_⟩
    have offer : OfferContent sha (offerAt state offerId) := kept.content present named
    intro same
    rw [get_erase_of_kind sha (by rw [found, named]; decide),
      get_erase_of_kind sha (found ▸ (offer.bid.apart (by decide) (by decide)).symm),
      get_erase_of_kind sha (found ▸ (offer.ask.apart (by decide) (by decide)).symm)] at same
    have written := (get_setAll_at [] found (by simp) (by simp)).symm.trans same
    rw [if_pos rfl, fresh] at written
    have owner := congrArg (fun data => (DealOrder.parseFromString data).sighash) written
    rw [DealOrder.parse_serialize] at owner
    exact isId.ne_nil owner
  | completeDealOrder present pending sourcePresent owner unexpired transferPresent order amount
      registrant unprocessed feeRead covers =>
    rename_i dealOrderId transferId balance fee
    obtain rfl := List.mem_singleton.mp listed
    obtain ⟨transfer, payable⟩ := kept.consumed isId transferPresent order present registrant
    have found := kept.deal_of_pending present payable pending
    refine ⟨found, ?_⟩
    intro same
    have written := (get_setAll_at [] found (by simp) (by simp [transfer])).symm.trans same
    rw [if_pos rfl] at written
    have paid := congrArg (fun data => (DealOrder.parseFromString data).loanTransfer) written
    rw [DealOrder.parse_serialize] at paid
    exact (kept.shape transferPresent).isKey.ne_nil (paid.trans pending)
  | _ => cases listed

/-- A missing deal order holds no coins. -/
theorem pendingFee_missing (missing : state.get key = []) : pendingFee (dealAt state key) = 0 := by
  rw [dealAt, missing]
  rfl

/-- The coins in a deal order change by the fee that a command puts away or takes out. -/
theorem Executed.escrowed (around : Surroundings sha env signer state command)
    (executed : Executed sha env signer state command after)
    (other : ∀ blockIdx, command ≠ .housekeeping blockIdx)
    (found : sha.kindOf key = some .dealOrder) :
    pendingFee (dealAt after key) =
      pendingFee (dealAt state key) + changeAt key (command.escrow sha state) := by
  rcases executed.deal_cases around found with
    same | ⟨fresh, _, offerId, expiration, rfl, rfl, made⟩ | ⟨_, _, step⟩ |
      ⟨_, blockIdx, _, house, _⟩
  · have untouched : changeAt key (command.escrow sha state) = 0 := by
      apply Store.sum_of_notMem
      intro listed
      obtain ⟨change, member, rfl⟩ := List.mem_map.mp listed
      exact (executed.escrow_written around member).2 same
    rw [untouched, Int.add_zero, dealAt, same, dealAt]
  · rw [made, pendingFee_missing fresh]
    simp [pendingFee, madeDeal, changeAt, Command.escrow, bidFee]
  · revert step
    generalize dealAt after key = next
    intro step
    cases step with
    | completed pending paid unexpired =>
      simp [pendingFee, changeAt, Command.escrow, pending, paid]
    | locked => exact (Int.add_zero _).symm
    | closed => exact (Int.add_zero _).symm
    | exempted => exact (Int.add_zero _).symm
    | accepted => exact (Int.add_zero _).symm
    | sold => exact (Int.add_zero _).symm
  · exact absurd house (other blockIdx)

/-! ## Fee records -/

/-- The coins in a fee record change by the charge when its key was free. -/
theorem Executed.charged_coins (around : Surroundings sha env signer state command)
    (executed : Executed sha env signer state command after)
    (other : ∀ blockIdx, command ≠ .housekeeping blockIdx)
    (free : command.isCharged = true → state.get (env.feeId sha) = [])
    (found : sha.kindOf key = some .fee) :
    coinsIn sha key (after.get key) =
      coinsIn sha key (state.get key) + changeAt key (command.charge sha env) := by
  cases charged : command.isCharged with
  | true =>
    rw [executed.fee_paid around charged found, Command.charge, if_pos charged]
    by_cases own : key = env.feeId sha
    · subst own
      simp [coinsIn, changeAt, free charged, feeEntry_ne_nil around.isId]
    · simp [changeAt, own]
  | false =>
    have uncharged : ¬ command.isCharged = true := by rw [charged]; decide
    rw [Command.charge, if_neg uncharged]
    rcases executed.fee_refunded around charged found with same | ⟨_, blockIdx, _, house, _⟩
    · rw [same]
      exact (Int.add_zero _).symm
    · exact absurd house (other blockIdx)

/-! ## All records -/

/-- A command other than `Housekeeping` changes the coins in a record by what it moves. -/
theorem Executed.moved (around : Surroundings sha env signer state command)
    (executed : Executed sha env signer state command after)
    (other : ∀ blockIdx, command ≠ .housekeeping blockIdx)
    (free : command.isCharged = true → state.get (env.feeId sha) = []) (key : Text) :
    coinsIn sha key (after.get key) = coinsIn sha key (state.get key) +
      changeAt key (command.moves sha env signer state) := by
  rw [changeAt_moves]
  have wallet (elsewhere : sha.kindOf key ≠ some .wallet) :
      key ≠ sha.walletId signer ∧ changeAt key (command.receipts sha signer) = 0 := by
    refine ⟨?_, changeAt_apart sha fun change listed => ?_⟩
    · rintro rfl
      exact elsewhere (sha.kindOf_walletId signer)
    · rw [Command.receipts_kind listed]
      exact elsewhere.symm
  have fee (elsewhere : sha.kindOf key ≠ some .fee) :
      changeAt key (command.charge sha env) = 0 :=
    changeAt_apart sha fun change listed => Command.charge_kind listed ▸ elsewhere.symm
  have deal (elsewhere : sha.kindOf key ≠ some .dealOrder) :
      changeAt key (command.escrow sha state) = 0 :=
    changeAt_apart sha fun change listed =>
      (executed.escrow_written around listed).1 ▸ elsewhere.symm
  by_cases isWallet : sha.kindOf key = some .wallet
  · obtain ⟨owner, rfl⟩ : ∃ owner, key = sha.walletId owner := sha.kindOf_eq_some.mp isWallet
    rw [fee (by rw [isWallet]; decide), deal (by rw [isWallet]; decide)]
    rw [coinsIn_wallet, coinsIn_wallet, changeAt_receipts, executed.balance around other]
    simp only [walletId_eq_iff]
    split <;> omega
  obtain ⟨elsewhere, unpaid⟩ := wallet isWallet
  rw [if_neg elsewhere, unpaid, Int.zero_add, Int.zero_add]
  by_cases isFee : sha.kindOf key = some .fee
  · rw [deal (by rw [isFee]; decide), Int.add_zero, executed.charged_coins around other free isFee]
  rw [fee isFee, Int.zero_add]
  by_cases isDeal : sha.kindOf key = some .dealOrder
  · have moved := executed.escrowed around other isDeal
    simp only [coinsIn, isDeal]
    exact moved
  rw [deal isDeal, Int.add_zero]
  unfold coinsIn
  split
  · contradiction
  · contradiction
  · contradiction
  · rfl

/-- A command other than `Housekeeping` makes what it collects. -/
theorem Executed.supply_eq (around : Surroundings sha env signer state command)
    (executed : Executed sha env signer state command after)
    (other : ∀ blockIdx, command ≠ .housekeeping blockIdx)
    (free : command.isCharged = true → state.get (env.feeId sha) = []) :
    supply sha after = supply sha state + command.collected := by
  have absent (key : Text) : coinsIn sha key [] = 0 := by
    unfold coinsIn
    split <;> rfl
  have whole := Store.sum_changes (command.moves sha env signer state) absent
    (executed.moved around other free)
  rw [Command.moves_sum other] at whole
  exact whole

/-! ## Runs -/

/-- The fee records of a run are under keys of its nonces. -/
theorem ChainRun.fees_placed (run : ChainRun sha tip steps chain)
    (named : ∀ taken ∈ steps, NamesOffers sha taken) :
    ∀ key, sha.kindOf key = some .fee → chain.context.get key ≠ [] → Placed sha steps key := by
  refine run.history (fun steps chain => ∀ key, sha.kindOf key = some .fee →
    chain.context.get key ≠ [] → Placed sha steps key) (fun _ _ present => absurd rfl present) ?_
    named
  intro earlier taken reached before placed did naming key found present
  have within : earlier ⊆ earlier ++ [taken] := List.subset_append_left earlier [taken]
  cases did with
  | executed serves succeeds effect committed tip housekept =>
    rename_i env signer command
    have around := succeeds.around serves (reached.kept before) naming
    have left (same : taken.after.context.get key = taken.before.context.get key) :
        Placed sha (earlier ++ [taken]) key :=
      (placed key found (same ▸ present)).mono within
    cases charged : command.isCharged with
    | true =>
      have written := effect.fee_paid around charged found
      by_cases own : key = env.feeId sha
      · refine ⟨taken, List.mem_append_right _ List.mem_cons_self, env.nonce, .fee,
          succeeds.hashed.2, ?_⟩
        rw [own, Env.feeId, serves.live.guid]
      · rw [if_neg own] at written
        exact left written
    | false =>
      rcases effect.fee_refunded around charged found with same | ⟨gone, _⟩
      · exact left same
      · exact absurd gone present
  | rejected same => exact (placed key found (same ▸ present)).mono within
  | committed committed context => exact (placed key found (context ▸ present)).mono within

/-- In a run with distinct nonces a charged command finds the key of its fee record free. -/
theorem ChainRun.fresh_fee {taken : ChainStep} (run : ChainRun sha tip steps taken.before)
    (named : ∀ other ∈ steps, NamesOffers sha other) (separate : Separate sha (steps ++ [taken]))
    (succeeds : Succeeds sha taken env signer command) (live : env.Live) :
    taken.before.context.get (env.feeId sha) = [] := by
  by_contra present
  exact (separate.grows succeeds live).nonce .fee
    (run.fees_placed named _ (env.kindOf_feeId sha) present)

/-- In a run with distinct nonces whose `AddDealOrder`s name offers, commands other than
`Housekeeping` conserve coins. -/
theorem supply_conserved (run : ChainRun sha tip steps chain) (separate : Separate sha steps)
    (guarded : ∀ taken ∈ steps, NamesOffers sha taken) :
    ∀ taken ∈ steps, Conserves sha taken := by
  intro taken listed
  obtain ⟨earlier, later, split, reached, before, step⟩ := run.split guarded listed
  have naming := guarded taken listed
  have shorter : Separate sha (earlier ++ [taken]) :=
    Separate.start (List.append_cons earlier taken later ▸ split ▸ separate)
  constructor
  · intro env signer command succeeds other
    obtain ⟨serves, executed⟩ := succeeds.executed step
    exact executed.supply_eq (succeeds.around serves (reached.kept before) naming) other
      fun _ => reached.fresh_fee before shorter succeeds serves.live
  · intro env signer command succeeds other key present found
    have kept := ChainRun.kept (reached.snoc step) fun other shown => by
      rcases List.mem_append.mp shown with earlier | last
      · exact before other earlier
      · exact List.mem_singleton.mp last ▸ naming
    have content := (kept.context key present).content
    rw [found] at content
    exact content

end Supply

/-! ## Coins of the sample loan -/

/-- The coins that the investor and the fundraiser collect are still there after one pays the
other. -/
theorem supply_conserved_sample :
    let script := [collect investorKey "1", collect fundraiserKey "2",
      .submit investorKey "3".toList (call "SendFunds"
        [("p1", "5".toList), ("p2", sample.id fundraiserKey)])]
    supply sample ((Chain.empty 2).plays sample sampleNode script).context =
        2000000000000000000 ∧
      ∀ taken ∈ (Chain.empty 2).steps sample sampleNode script, Conserves sample taken := by
  intro script
  have whole : supply sample ((Chain.empty 2).plays sample sampleNode script).context =
      2000000000000000000 := by
    decide +kernel
  have checked : (Chain.empty 2).checks sample sampleNode
      (fun chain _ _ command => command.ordinary sample chain && true) script = true :=
    Chain.checks_plain (by decide +kernel)
  have separate : Separate sample ((Chain.empty 2).steps sample sampleNode script) :=
    Chain.steps_separate (by decide +kernel)
  exact ⟨whole, supply_conserved Chain.steps_run separate fun taken listed =>
    (Chain.checks_ordinary checked taken listed).1⟩

/-- The coins in the wallet of the investor are lost with the wallet. -/
theorem coins_destroyed :
    ¬ ∀ (sha : Sha512) (tip : UInt64) (steps : List ChainStep) (chain : Chain),
      ChainRun sha tip steps chain → Separate sha steps →
        ∀ taken ∈ steps, Conserves sha taken := by
  intro claim
  have fallen : walletChain.accepts sample sampleNode deletesWallet =
        some (sample.id collectorKey,
          .addDealOrder (misnamedAddress (sample.walletId (sample.id investorKey))) 100) ∧
      supply sample (walletChain.play sample sampleNode deletesWallet).context <
        supply sample walletChain.context ∧
      Turn.differ sample walletDeleted = true := by
    decide +kernel
  obtain ⟨accepted, less, differ⟩ := fallen
  have separate : Separate sample ((Chain.empty 1).steps sample sampleNode walletDeleted) :=
    Chain.steps_separate differ
  have conserves := claim sample 1 _ _ Chain.steps_run separate _ deletesWallet_listed
  have same := conserves.coins _ _ _ (Chain.accepts_succeeds accepted)
    fun blockIdx housekeeping => nomatch housekeeping
  exact absurd (same.trans (Int.add_zero _)) less.ne

end Creditcoin
