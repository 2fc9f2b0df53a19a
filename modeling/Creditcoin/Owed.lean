import Creditcoin.Batching
import Creditcoin.Determinism
import Creditcoin.Unsettled
import Creditcoin.Visits

/-!
# What is owed

A `Housekeeping` owes an owner the fees of the owner's deal orders that ran out without a loan, the
refunds of the owner's fee records that are older than a year, and the rewards of the blocks that
the owner signed. The deal orders and the rewards are paid to the full. The refund of a fee record
is written with key and value exchanged, so that the wallet stays as it was, and a record appears
under the text of the wallet.
-/

namespace Creditcoin

open Lib

/-- What a record owes an owner at a height. -/
def owes (sha : Sha512) (env : Env) (blockIdx : Int) (owner key value : Text) : Int :=
  match sha.kindOf key with
  | some .fee =>
    if value ≠ [] ∧ Due env blockIdx value .fee ∧ (Fee.parseFromString value).sighash = owner then
      txFee
    else 0
  | some .dealOrder =>
    if value ≠ [] ∧ Due env blockIdx value .dealOrder ∧
        (DealOrder.parseFromString value).sighash = owner then
      amountOf (DealOrder.parseFromString value).fee
    else 0
  | _ => 0

/-- What the records of a state owe an owner at a height. -/
def owed (sha : Sha512) (env : Env) (blockIdx : Int) (owner : Text) (state : State) : Int :=
  Store.sum (owes sha env blockIdx owner) state

/-- An order, an offer or a repayment order has expired at a height. -/
def RanOut (blockIdx : Int) (value : Text) : Kind → Prop
  | .askOrder =>
    Expired (Order.parseFromString value).expiration (Order.parseFromString value).block blockIdx
  | .bidOrder =>
    Expired (Order.parseFromString value).expiration (Order.parseFromString value).block blockIdx
  | .offer =>
    Expired (Offer.parseFromString value).expiration (Offer.parseFromString value).block blockIdx
  | .repaymentOrder =>
    Expired (RepaymentOrder.parseFromString value).expiration
      (RepaymentOrder.parseFromString value).block blockIdx
  | _ => False

/-- A height is settled: owners get what they are owed, what was paid is deleted, and the rest stays
unless it ran out. -/
structure Settled (sha : Sha512) (env : Env) (blockIdx last : Int) (before after : State) :
    Prop where
  /-- A wallet holds what it held and what was owed. -/
  wallets : ∀ signerOf, env.Honest signerOf → ∀ owner,
    balanceOf sha after owner = balanceOf sha before owner + owed sha env blockIdx owner before +
      env.creditsOf sha (env.formula last) (signedHeights signerOf last blockIdx) owner
  /-- Fee records and deal orders are deleted when they were due. -/
  paid : ∀ key kind, sha.kindOf key = some kind → kind.paysOut →
    after.get key = if Due env blockIdx (before.get key) kind then [] else before.get key
  /-- Other records stay unless they ran out. -/
  rest : ∀ key, sha.kindOf key ≠ some .wallet →
    (∀ kind, sha.kindOf key = some kind → ¬ kind.paysOut) → key ≠ sha.processedBlockIdx →
    after.get key = before.get key ∨ after.get key = [] ∧
      ∃ kind, sha.kindOf key = some kind ∧ RanOut blockIdx (before.get key) kind

/-- The records of a state are those that a step leaves, in whatever order they are listed. -/
def LeavesInAnyOrder (sha : Sha512) (taken : ChainStep) (env : Env) : Prop :=
  ∀ payload lists, taken.label = .transaction env payload →
    taken.before.Serves (env.listing lists) →
    (∀ start pages, env.getStatesByPrefix start = .ok pages → ∃ pages', lists start = .ok pages') →
    ∃ memory, apply sha payload (env.listing lists) ⟨taken.before.context, ∅⟩ = .ok ((), memory) ∧
      ∀ key, memory.state.get key = taken.after.context.get key

/-- A `Housekeeping` that passes its guards, the first one of its block, settles its height in
whatever order the records are listed. -/
def SettlesOwed (sha : Sha512) (taken : ChainStep) : Prop :=
  ∀ env signer blockIdx last, Succeeds sha taken env signer (.housekeeping blockIdx) →
    Processed sha taken.before.context last → env.Passes last blockIdx →
    taken.before.housekept = false →
    Settled sha env blockIdx last taken.before.context taken.after.context ∧
      LeavesInAnyOrder sha taken env

/-- What a `Housekeeping` lists as due is no fee record, and it is a deal order, or ran out, or is
gone, in the block's own state. -/
def FindsNoFees (sha : Sha512) (taken : ChainStep) : Prop :=
  ∀ env signer blockIdx, Succeeds sha taken env signer (.housekeeping blockIdx) →
    ∀ record ∈ dueRecords sha env blockIdx, record.1 ≠ .fee ∧
      (record.1 = .dealOrder ∨ taken.before.context.get record.2.1 = [] ∨
        RanOut blockIdx (taken.before.context.get record.2.1) record.1)

section Owed

variable {sha : Sha512} {env : Env} {signer key owner : Text} {state : State}
  {blockIdx last : Int} {blocks : List (Int × Text)} {memory left : Memory} {chain : Chain}
  {tip : UInt64} {steps : List ChainStep} {taken : ChainStep} {record : Kind × Text × Text}
  {records : List (Kind × Text × Text)}
  {lists : Text → Except Exception (List (List (Text × Text)))}

/-! ## Wallets -/

/-- A wallet with a new balance is the wallet with the last of two new balances. -/
theorem walletEntry_again {middle : State} {balance later : Int}
    (written : middle.get (sha.walletId owner) = (walletEntry sha state owner balance).2) :
    walletEntry sha middle owner later = walletEntry sha state owner later := by
  have wallet : walletOf sha middle owner =
      { walletOf sha state owner with amount := toText balance } := by
    rw [walletOf, written, walletEntry, Wallet.parse_serialize]
  rw [walletEntry, wallet, walletEntry]

/-- Settling a record writes the wallet that it refunds and no other. -/
theorem settle_wallet (live : env.Live) {result : Unit} (plain : record.1 ≠ .fee)
    (found : sha.kindOf record.2.1 ≠ some .wallet)
    (ran : settle sha record env memory = .ok (result, left)) :
    left.state.get (sha.walletId owner) =
      if record.1 = .dealOrder ∧ (DealOrder.parseFromString record.2.2).sighash = owner then
        (walletEntry sha memory.state owner
          (balanceOf sha memory.state owner + refundOf owner record)).2
      else memory.state.get (sha.walletId owner) := by
  obtain ⟨kind, address, protobuf⟩ := record
  have apart : sha.walletId owner ≠ address :=
    sha.ne_of_kindOf_ne fun same => found (same.symm.trans (sha.kindOf_walletId owner))
  by_cases deal : kind = .dealOrder
  · subst deal
    obtain ⟨balance, fee, covers, read, rfl⟩ := (settle_deal_ok live).mp ran
    rw [Store.get_erase, if_neg apart, Store.setAll_cons, Store.setAll_nil, walletEntry_fst]
    by_cases same : (DealOrder.parseFromString protobuf).sighash = owner
    · rw [if_pos ⟨rfl, same⟩, refundOf, if_pos ⟨rfl, same⟩, read.amountOf]
      rw [same] at covers ⊢
      rw [Store.get_set_self, covers.balanceOf]
    · have other : sha.walletId owner ≠
          sha.walletId (DealOrder.parseFromString protobuf).sighash :=
        fun equal => same (sha.walletId_injective equal).symm
      rw [if_neg fun hit => same hit.2, Store.get_set_ne _ other]
  · obtain rfl := (settle_ok live deal plain).mp ran
    rw [Store.get_erase, if_neg apart, if_neg fun hit => deal hit.1]

/-- Whether some records refund an owner. -/
def Refunded (owner : Text) (records : List (Kind × Text × Text)) : Prop :=
  ∃ record ∈ records,
    record.1 = .dealOrder ∧ (DealOrder.parseFromString record.2.2).sighash = owner

instance (owner : Text) (records : List (Kind × Text × Text)) :
    Decidable (Refunded owner records) :=
  inferInstanceAs (Decidable (∃ record ∈ records, _))

/-- Settling records writes the wallets that they refund and no others. -/
theorem settleAll_wallet (live : env.Live) (plain : ∀ record ∈ records, record.1 ≠ .fee)
    (found : ∀ record ∈ records, sha.kindOf record.2.1 ≠ some .wallet)
    (ran : Exec.forEach records (settle sha) env memory = .ok ((), left)) :
    left.state.get (sha.walletId owner) =
      if Refunded owner records then
        (walletEntry sha memory.state owner
          (balanceOf sha memory.state owner + (records.map (refundOf owner)).sum)).2
      else memory.state.get (sha.walletId owner) := by
  induction records generalizing memory with
  | nil =>
    obtain rfl := Exec.forEach_nil_ok.mp ran
    have none : ¬ Refunded owner ([] : List (Kind × Text × Text)) := by
      rintro ⟨record, listed, _⟩
      cases listed
    rw [if_neg none]
  | cons record records ih =>
    rw [List.forall_mem_cons] at plain found
    obtain ⟨middle, first, rest⟩ := Exec.forEach_cons_ok.mp ran
    have wallet := @settle_wallet sha env owner memory middle record live () plain.1 found.1 first
    rw [ih plain.2 found.2 rest, List.map_cons, List.sum_cons]
    by_cases hit : record.1 = .dealOrder ∧ (DealOrder.parseFromString record.2.2).sighash = owner
    · have refunded : Refunded owner (record :: records) := ⟨record, List.mem_cons_self, hit⟩
      rw [if_pos hit] at wallet
      have balance : balanceOf sha middle.state owner =
          balanceOf sha memory.state owner + refundOf owner record := by
        rw [balanceOf, walletOf, wallet, walletEntry, Wallet.parse_serialize, amountOf_toText]
      rw [if_pos refunded, balance, walletEntry_again wallet, wallet]
      by_cases more : Refunded owner records
      · rw [if_pos more, Int.add_assoc]
      · have nothing : (records.map (refundOf owner)).sum = 0 := by
          apply List.sum_eq_zero
          intro amount listed
          obtain ⟨other, member, rfl⟩ := List.mem_map.mp listed
          exact if_neg fun due => more ⟨other, member, due⟩
        rw [if_neg more, nothing, Int.add_zero]
    · rw [if_neg hit] at wallet
      have unpaid : refundOf owner record = 0 := if_neg hit
      have same : Refunded owner (record :: records) ↔ Refunded owner records := by
        rw [Refunded, List.exists_mem_cons_iff, or_iff_right hit, Refunded]
      have entry (balance : Int) : walletEntry sha middle.state owner balance =
          walletEntry sha memory.state owner balance := by
        rw [walletEntry, walletOf, wallet, walletEntry, walletOf]
      rw [unpaid, Int.zero_add, balanceOf_same wallet, entry, wallet]
      simp only [same]


/-! ## What is refunded -/

/-- A missing record owes nothing. -/
theorem owes_missing : owes sha env blockIdx owner key [] = 0 := by
  unfold owes
  split
  · exact if_neg fun owing => owing.1 rfl
  · exact if_neg fun owing => owing.1 rfl
  · rfl

/-- What the due deal orders refund to an owner is owed to the owner when no fee record is due. -/
theorem Chain.Unsettled.refunds (unsettled : chain.Unsettled sha) (serves : chain.Serves env)
    (kept : chain.Kept sha) (legible : env.Legible sha) (first : chain.housekept = false)
    (below : blockIdx ≤ env.head)
    (plain : ∀ record ∈ dueRecords sha env blockIdx, record.1 ≠ .fee) :
    env.refundsOf sha blockIdx owner = owed sha env blockIdx owner chain.context := by
  let changes : List (Text × Int) :=
    (dueRecords sha env blockIdx).map fun record => (record.2.1, refundOf owner record)
  have keys : changes.map Prod.fst =
      (dueRecords sha env blockIdx).map fun record => record.2.1 := by
    rw [List.map_map]
    rfl
  have amounts : (changes.map Prod.snd).sum = env.refundsOf sha blockIdx owner := by
    rw [List.map_map, Env.refundsOf]
    rfl
  have unique : (changes.map Prod.fst).Nodup := keys ▸ serves.due_nodup
  have changed (key : Text) : owes sha env blockIdx owner key (chain.context.get key) =
      owes sha env blockIdx owner key ((∅ : State).get key) +
        (changes.map fun change => if key = change.1 then change.2 else 0).sum := by
    rw [Store.get_empty, owes_missing, Int.zero_add]
    by_cases listed : key ∈ changes.map Prod.fst
    · rw [keys] at listed
      obtain ⟨record, member, rfl⟩ := List.mem_map.mp listed
      obtain ⟨found, stored⟩ := serves.due member
      have refund := Store.sum_of_mem unique
        (List.mem_map_of_mem (f := fun record => (record.2.1, refundOf owner record)) member)
      rw [refund]
      change owes sha env blockIdx owner record.2.1 _ = refundOf owner record
      by_cases deal : record.1 = .dealOrder
      · rw [deal] at found
        have present := kept.committed.deal_present found stored.2
        have due : Due env blockIdx (chain.committed.get record.2.1) .dealOrder := by
          rw [stored.1, ← deal]
          exact (mem_dueRecords.mp member).2.2
        obtain ⟨both, alike⟩ := unsettled.deal_due serves first found blockIdx
        have owing := both.mp ⟨present, due⟩
        have same := alike owing
        rw [dealAt, dealAt, stored.1] at same
        simp only [owes, found, refundOf, deal, owing, ne_eq, not_false_eq_true, true_and,
          same.sighash, same.fee]
      · rw [refundOf, if_neg fun hit => deal hit.1]
        unfold owes
        split
        · rename_i fee
          exact absurd (Option.some.inj (found.symm.trans fee)) (plain record member)
        · rename_i same
          exact absurd (Option.some.inj (found.symm.trans same)) deal
        · rfl
    · rw [Store.sum_of_notMem listed]
      rw [keys] at listed
      unfold owes
      split
      · rename_i found
        exact if_neg fun owing =>
          unsettled.fee_due serves legible first below plain found owing.1 owing.2.1
      · rename_i found
        refine if_neg fun owing => listed ?_
        have due := (unsettled.deal_due serves first found blockIdx).1.mpr ⟨owing.1, owing.2.1⟩
        exact (serves.due_iff legible found (by decide) due.1).mpr due.2
      · rfl
  have whole := Store.sum_changes changes (fun _ => owes_missing) changed
  rw [owed, whole, amounts]
  exact (Int.zero_add _).symm

/-- The listings of a settled height answer. -/
theorem Housekept.legible (live : env.Live)
    (path : Housekept sha env blockIdx last memory blocks left)
    (passes : env.Passes last blockIdx) : env.Legible sha := by
  obtain ⟨_, _, _, _, sweeps, _⟩ := path.passed passes
  exact ((sweep_ok live passes.2.2.2).mp sweeps).1

/-- A `Housekeeping` that finds no fee records settles its height. -/
theorem Chain.Unsettled.settles (unsettled : chain.Unsettled sha) (serves : chain.Serves env)
    (kept : chain.Kept sha) (first : chain.housekept = false)
    (path : Housekept sha env blockIdx last ⟨chain.context, ∅⟩ blocks left)
    (processed : Processed sha chain.context last) (passes : env.Passes last blockIdx)
    (finds : ∀ record ∈ dueRecords sha env blockIdx, record.1 ≠ .fee ∧
      (record.1 = .dealOrder ∨ chain.context.get record.2.1 = [] ∨
        RanOut blockIdx (chain.context.get record.2.1) record.1)) :
    Settled sha env blockIdx last chain.context left.state := by
  have legible := path.legible serves.live passes
  have plain := fun record member => (finds record member).1
  have below : blockIdx ≤ env.head := by
    have count : confirmationCount = 30 := rfl
    have settled := passes.2.2.2
    omega
  have known (key : Text) : ∀ record ∈ dueRecords sha env blockIdx, record.1 = .fee →
      sha.kindOf key ≠ none :=
    fun record member fee => absurd fee (plain record member)
  constructor
  · intro signerOf honest owner
    obtain ⟨upto, reached, _, _, named⟩ := path.progress processed honest
    obtain rfl := reached.unique (path.marked processed passes)
    rw [path.balance serves, Env.paidBack, if_pos passes,
      unsettled.refunds serves kept legible first below plain, named]
  · intro key kind found pays
    rw [path.get serves.live passes found pays.swept]
    by_cases present : chain.context.get key = []
    · simp only [present, ite_self]
    · simp only [unsettled.listed_iff serves kept legible first below plain found pays present]
  · intro key noWallet unpaid noMarker
    rw [path.leaves serves.live passes noWallet noMarker (known key)]
    by_cases listed : key ∈ (dueRecords sha env blockIdx).map fun record => record.2.1
    · rw [if_pos listed]
      obtain ⟨record, member, rfl⟩ := List.mem_map.mp listed
      have found := (serves.due member).1
      rcases (finds record member).2 with deal | gone | out
      · exact absurd (.inl deal) (unpaid _ found)
      · exact .inl gone.symm
      · exact .inr ⟨rfl, _, found, out⟩
    · rw [if_neg listed]
      exact .inl rfl

/-! ## In whatever order -/

/-- Two listings of a chain find the same records due. -/
theorem Chain.Serves.due_perm (serves : chain.Serves env)
    (again : chain.Serves (env.listing lists)) (blockIdx : Int)
    (answers : ∀ kind ∈ sweptKinds, ∃ pages, env.getStatesByPrefix (sha.space kind) = .ok pages)
    (answers' : ∀ kind ∈ sweptKinds,
      ∃ pages, (env.listing lists).getStatesByPrefix (sha.space kind) = .ok pages) :
    (dueRecords sha env blockIdx).Perm (dueRecords sha (env.listing lists) blockIdx) := by
  refine (List.perm_ext_iff_of_nodup serves.due_nodup.of_map again.due_nodup.of_map).mpr ?_
  intro record
  rw [mem_dueRecords, mem_dueRecords]
  refine and_congr_right fun swept => and_congr ?_ Iff.rfl
  rw [serves.mem_listed (answers _ swept), again.mem_listed (answers' _ swept)]

/-- Records settled in two orders leave the same records. -/
theorem settleAll_agree (live : env.Live) {records' : List (Kind × Text × Text)} {left' : Memory}
    (order : records.Perm records')
    (plain : ∀ record ∈ records, record.1 ≠ .fee)
    (found : ∀ record ∈ records, sha.kindOf record.2.1 ≠ some .wallet)
    (ran : Exec.forEach records (settle sha) env memory = .ok ((), left))
    (again : Exec.forEach records' (settle sha) env memory = .ok ((), left')) :
    left.state.get key = left'.state.get key := by
  have plain' : ∀ record ∈ records', record.1 ≠ .fee :=
    fun record listed => plain record (order.mem_iff.mpr listed)
  by_cases wallet : ∃ owner, key = sha.walletId owner
  · obtain ⟨owner, rfl⟩ := wallet
    have refunded : Refunded owner records ↔ Refunded owner records' := by
      simp only [Refunded, order.mem_iff]
    rw [settleAll_wallet live plain found ran, settleAll_wallet live plain'
      (fun record listed => found record (order.mem_iff.mpr listed)) again,
      (order.map (refundOf owner)).sum_eq]
    exact if_congr refunded rfl rfl
  · have apart (owner : Text) : key ≠ sha.walletId owner := fun same => wallet ⟨owner, same⟩
    rw [settleAll_leaves live apart (fun _ listed fee => absurd fee (plain _ listed)) ran,
      settleAll_leaves live apart (fun _ listed fee => absurd fee (plain' _ listed)) again]
    have keys : key ∈ records.map (fun record => record.2.1) ↔
        key ∈ records'.map (fun record => record.2.1) :=
      (order.map fun record => record.2.1).mem_iff
    simp only [keys]

/-- Two listings of a chain leave the same when no fee record is due. -/
theorem Housekept.agree {left' : Memory} (serves : chain.Serves env)
    (again : chain.Serves (env.listing lists))
    (plain : ∀ record ∈ dueRecords sha env blockIdx, record.1 ≠ .fee)
    (passes : env.Passes last blockIdx)
    (path : Housekept sha env blockIdx last memory blocks left)
    (path' : Housekept sha (env.listing lists) blockIdx last memory blocks left') :
    left.state.get key = left'.state.get key := by
  have legible := path.legible serves.live passes
  have legible' := path'.legible again.live passes
  obtain ⟨newFormula, swept, after, _, sweeps, formula, _, ran, same⟩ := path.passed passes
  obtain ⟨newFormula', swept', after', _, sweeps', formula', _, ran', same'⟩ := path'.passed passes
  obtain rfl := Except.ok.inj (formula.symm.trans formula')
  have settles := ((sweep_ok serves.live passes.2.2.2).mp sweeps).2
  have settles' := ((sweep_ok again.live passes.2.2.2).mp sweeps').2
  replace settles' := (Exec.forEach_congr_ok fun _ _ _ => settle_elsewhere serves.live).mpr settles'
  have order := serves.due_perm again blockIdx (fun kind swept => (legible kind swept).1)
    fun kind swept => (legible' kind swept).1
  have found : ∀ record ∈ dueRecords sha env blockIdx, sha.kindOf record.2.1 ≠ some .wallet := by
    intro record member wallet
    rw [(serves.due member).1, Option.some.injEq] at wallet
    exact sweptKinds_apart (mem_dueRecords.mp member).1 wallet
  have between (key : Text) : swept.state.get key = swept'.state.get key :=
    settleAll_agree serves.live order plain found settles settles'
  rw [same, same', Store.get_set, Store.get_set,
    awards_agree serves.live between ran ((awards_elsewhere serves.live).mpr ran')]

/-- A `Housekeeping` that finds no fee records leaves the same in whatever order the records are
listed. -/
theorem Succeeds.leaves_in_any_order
    (succeeds : Succeeds sha taken env signer (.housekeeping blockIdx))
    (step : Chain.Step sha taken.before taken.label taken.after) (kept : taken.before.Kept sha)
    (walleted : Walleted sha taken.before.committed taken.before.context)
    (processed : Processed sha taken.before.context last) (passes : env.Passes last blockIdx)
    (plain : ∀ record ∈ dueRecords sha env blockIdx, record.1 ≠ .fee) :
    LeavesInAnyOrder sha taken env := by
  intro payload lists label again answers
  have serves := (succeeds.executed step).1
  obtain ⟨payload', memory, labelled, read, ran⟩ := succeeds.ran
  obtain ⟨_, rfl⟩ := Event.transaction.inj (labelled.symm.trans label)
  obtain ⟨signed, version, _⟩ := (apply_housekeeping_ok serves.live read).mp ran
  obtain ⟨last', blocks, left, processed', path, context⟩ := succeeds.housekept step
  obtain rfl := processed.unique processed'
  obtain ⟨_, swept, after, verified, sweeps, formula, fetched, ran, _⟩ := path.passed passes
  have computed := awards_computed serves.live ran
  have legible := path.legible serves.live passes
  have listings : ∀ kind ∈ sweptKinds,
      ∃ pages, (env.listing lists).getStatesByPrefix (sha.space kind) = .ok pages := by
    intro kind swept
    obtain ⟨pages, answer⟩ := (legible kind swept).1
    exact answers _ _ answer
  obtain ⟨swept', sweeps', kept'⟩ := sweep_runs again kept walleted passes.2.2.2 listings
  obtain ⟨left', path', _⟩ := Housekept.settles again.live passes
    ((verifyGatewaySigner_elsewhere serves.live).mp verified) sweeps' kept'.solvent formula
    (rewards_listing.mp fetched) computed
  refine ⟨left', (apply_housekeeping_ok again.live read).mpr
    ⟨signed, version, _, blocks, processed, path'⟩, fun key => ?_⟩
  rw [context]
  exact (path.agree serves again plain passes path').symm

/-- In a run whose `AddDealOrder`s name offers, a `Housekeeping` that finds no fee records settles
exactly what is owed, in whatever order the records are listed. -/
theorem housekeeping_settles (run : ChainRun sha tip steps chain)
    (guarded : ∀ taken ∈ steps, NamesOffers sha taken ∧ FindsNoFees sha taken) :
    ∀ taken ∈ steps, SettlesOwed sha taken := by
  intro taken listed env signer blockIdx last succeeds processed passes first
  obtain ⟨_, _, _, reached, before, step⟩ := run.split guarded listed
  have named := fun other listed => (before other listed).1
  have finds := (guarded taken listed).2 env signer blockIdx succeeds
  have kept := reached.kept named
  obtain ⟨last', blocks, left, processed', path, context⟩ := succeeds.housekept step
  obtain rfl := processed.unique processed'
  constructor
  · rw [context]
    exact (reached.unsettled named).settles (succeeds.executed step).1 kept first path processed
      passes finds
  · exact succeeds.leaves_in_any_order step kept (reached.walleted named).1 processed passes
      fun record member => (finds record member).1

/-! ## Chains without deal orders -/

/-- Where heights are settled, what is owed is what the listings refund. -/
theorem Settled.refunds (settled : Settled sha env blockIdx last chain.context left.state)
    {signerOf : Int → Text} (serves : chain.Serves env)
    (path : Housekept sha env blockIdx last ⟨chain.context, ∅⟩ blocks left)
    (processed : Processed sha chain.context last) (passes : env.Passes last blockIdx)
    (honest : env.Honest signerOf) (owner : Text) :
    owed sha env blockIdx owner chain.context = env.refundsOf sha blockIdx owner := by
  have wallet := settled.wallets signerOf honest owner
  obtain ⟨upto, reached, _, _, named⟩ := path.progress processed honest
  obtain rfl := reached.unique (path.marked processed passes)
  have balance : balanceOf sha left.state owner = balanceOf sha chain.context owner +
      env.paidBack sha last upto owner + env.creditsOf sha (env.formula last) blocks owner :=
    path.balance serves
  rw [Env.paidBack, if_pos passes, named] at balance
  exact Int.add_left_cancel (add_right_cancel (wallet.symm.trans balance))

/-- A chain without deal orders refunds nothing. -/
theorem refundsOf_noDeals (serves : chain.Serves env)
    (none : ∀ key ∈ chain.committed.keys, sha.kindOf key ≠ some .dealOrder) :
    env.refundsOf sha blockIdx owner = 0 := by
  apply List.sum_eq_zero
  intro amount listed
  obtain ⟨record, member, rfl⟩ := List.mem_map.mp listed
  obtain ⟨found, _, stored⟩ := serves.due member
  apply if_neg
  rintro ⟨deal, _⟩
  exact none _ (AList.mem_keys.mp stored) (deal ▸ found)

/-- What fee records are owed depends on no environment. -/
theorem owed_noDeals (other : Env)
    (none : ∀ key ∈ state.keys, sha.kindOf key ≠ some .dealOrder) :
    owed sha env blockIdx owner state = owed sha other blockIdx owner state := by
  rw [owed, owed, Store.sum, Store.sum]
  congr 1
  apply List.map_congr_left
  intro entry listed
  have stored : entry.1 ∈ state.keys := List.mem_map_of_mem listed
  unfold owes
  split
  · rfl
  · rename_i deal
    exact absurd deal (none _ stored)
  · rfl

end Owed

/-! ## A deal order and a fee record that are due -/

/-- A step that finds deal orders only finds no fee records. -/
theorem FindsNoFees.of_deals {sha : Sha512} {taken : ChainStep}
    (finds : ∀ env signer command, Succeeds sha taken env signer command →
      command.findsDeals sha env = true) : FindsNoFees sha taken := by
  intro env signer blockIdx succeeds record member
  have deal : record.1 = .dealOrder :=
    of_decide_eq_true (List.all_eq_true.mp (finds _ _ _ succeeds) _ member)
  exact ⟨fun fee => Kind.noConfusion (deal.symm.trans fee), .inl deal⟩

/-- The fundraiser gets the fee of the deal order back, exactly. -/
theorem housekeeping_settles_sample :
    let steps := (Chain.empty 1).steps sample keeperNode (staleDeal ++ [cleanUp])
    (∃ taken ∈ steps, PaysOut sample taken .dealOrder sampleDeal) ∧
      ∀ taken ∈ steps, SettlesOwed sample taken := by
  intro steps
  obtain ⟨cleans, checked, -⟩ := staleDeal_run
  refine ⟨⟨_, ?_, cleans.paysOut⟩, housekeeping_settles Chain.steps_run fun taken listed => ?_⟩
  · unfold steps
    rw [Chain.steps_append]
    exact List.mem_append_right _ (List.mem_singleton_self _)
  · obtain ⟨⟨named, _⟩, finds⟩ := Chain.checks_owing checked taken listed
    exact ⟨named, .of_deals finds⟩

/-- Blocks that pass commit the context and raise the tip. -/
theorem Chain.plays_commits {sha : Sha512} {node : Env} {chain : Chain} (count : Nat) :
    chain.plays sha node (List.replicate (count + 1) .commit) =
      ⟨chain.context, chain.context, chain.tip + UInt64.ofNat (count + 1), false⟩ := by
  induction count generalizing chain with
  | zero => rfl
  | succ count ih =>
    rw [List.replicate_succ, Chain.plays_cons, ih]
    simp only [Chain.play, Chain.mk.injEq, true_and, and_true]
    rw [UInt64.ofNat_add (count + 1) 1, UInt64.add_assoc, UInt64.add_comm 1]
    rfl

/-- Blocks that pass are steps without transactions. -/
theorem Chain.steps_commits {sha : Sha512} {node : Env} {chain : Chain} {count : Nat} :
    ∀ taken ∈ chain.steps sha node (List.replicate count .commit), taken.label = .commit := by
  induction count generalizing chain with
  | zero =>
    intro taken listed
    cases listed
  | succ count ih =>
    rw [List.replicate_succ, Chain.steps_cons, List.forall_mem_cons]
    exact ⟨rfl, ih⟩

/-- The sample node of the gateway signer answers a `Housekeeping` that passes its guards. -/
theorem updatedNode_attends {chain : Chain} {nonce : Text} {blockIdx : Int}
    (processed : Processed sample chain.context 0)
    (passes : (chain.serve updatedNode investorKey nonce).Passes 0 blockIdx) :
    (chain.serve updatedNode investorKey nonce).sighash sample = .ok (sample.id investorKey) ∧
      (chain.serve updatedNode investorKey nonce).Attends sample chain blockIdx := by
  have key : compress investorKey = .ok investorKey := by decide
  have signed : (chain.serve updatedNode investorKey nonce).sighash sample =
      .ok (sample.id investorKey) := by
    simp only [Env.sighash, Bool.false_eq_true, if_false, Chain.serve, key]
  refine ⟨signed, ⟨⟨investorKey, key⟩, ?_, ?_, fun kind swept => ⟨_, rfl⟩, ?_⟩⟩
  · simp [Env.Admits, Chain.serve, updatedNode, miningNode, sampleNode]
  · exact verifyGatewaySigner_verified (Chain.serve_serves _ _).live signed rfl
  · exact ⟨0, false, _, processed, passes, rfl, .mined rfl fun _ => rfl, fun _ _ => ⟨_, rfl⟩⟩

/-- The investor registers an address. -/
def registers : List Turn := [collect investorKey "1", register investorKey "4" "0x1"]

/-- The chain of the investor. -/
def registered : Chain := (Chain.empty 1).plays sample updatedNode registers

/-- A chain without deal orders owes the investor nothing if all heights are settled. -/
theorem SettlesOwed.nothing (count : Nat) {text : String} {blockIdx : Int}
    (claim : ∀ (sha : Sha512) (tip : UInt64) (steps : List ChainStep) (chain : Chain),
      ChainRun sha tip steps chain → ∀ taken ∈ steps, SettlesOwed sha taken)
    (read : (keepHouse text).command = .ok (.housekeeping blockIdx))
    (bounds : 60 ≤ blockIdx ∧ blockIdx + 30 < count) (short : count < 2 ^ 32) :
    owed sample updatedNode blockIdx (sample.id investorKey) registered.context = 0 := by
  have facts : (registered.tip = 1 ∧ Processed sample registered.context 0) ∧
      ∀ key ∈ registered.context.keys, sample.kindOf key ≠ some .dealOrder := by
    decide
  obtain ⟨⟨tip, processed⟩, noDeals⟩ := facts
  have checked : (Chain.empty 1).checks sample updatedNode
      (fun chain _ _ command => command.ordinary sample chain && true) registers = true :=
    Chain.checks_plain (by decide)
  let script := registers ++ List.replicate (count + 1) .commit
  let turn := keepsHouseAt text
  obtain ⟨chain, played⟩ : ∃ chain, chain = (Chain.empty 1).plays sample updatedNode script :=
    ⟨_, rfl⟩
  have later : chain = ⟨registered.context, registered.context,
      registered.tip + UInt64.ofNat (count + 1), false⟩ :=
    played.trans (Chain.plays_append.trans (Chain.plays_commits count))
  have named : ∀ taken ∈ (Chain.empty 1).steps sample updatedNode script,
      NamesOffers sample taken := by
    intro taken listed
    rw [Chain.steps_append, List.mem_append] at listed
    rcases listed with first | second
    · exact (Chain.checks_ordinary checked taken first).1
    · rintro env signer command ⟨⟨payload, memory, label, _⟩, _⟩
      rw [Chain.steps_commits taken second] at label
      cases label
  let env := chain.serve updatedNode investorKey "1".toList
  have serves : chain.Serves env := Chain.serve_serves investorKey "1".toList
  have head : env.head = count + 1 := by
    rw [serves.live.head_eq]
    simp only [env, Chain.serve, later, tip]
    rw [UInt64.add_comm, UInt64.add_sub_cancel, UInt64.toNat_ofNat', Nat.mod_eq_of_lt (by omega)]
    omega
  have passes : env.Passes 0 blockIdx := by
    have confirmations : confirmationCount = 30 := rfl
    refine ⟨by omega, by omega, by omega, by omega⟩
  have marked : Processed sample chain.context 0 := by
    rw [later]
    exact processed
  obtain ⟨signed, attends⟩ := updatedNode_attends marked passes
  have run : ChainRun sample 1 ((Chain.empty 1).steps sample updatedNode script) chain :=
    played ▸ Chain.steps_run
  obtain ⟨memory, ran⟩ := (no_poison run named).cleared env _ _ serves read attends
  have succeeds : Succeeds sample ⟨chain, chain.event updatedNode turn,
      chain.play sample updatedNode turn⟩ env (sample.id investorKey) (.housekeeping blockIdx) :=
    ⟨⟨_, memory, rfl, read, ran⟩, signed⟩
  have whole : ChainRun sample 1 ((Chain.empty 1).steps sample updatedNode (script ++ [turn])) _ :=
    Chain.steps_run
  have listed : (⟨chain, chain.event updatedNode turn,
      chain.play sample updatedNode turn⟩ : ChainStep) ∈
        (Chain.empty 1).steps sample updatedNode (script ++ [turn]) := by
    rw [Chain.steps_append, ← played]
    exact List.mem_append_right _ (List.mem_singleton_self _)
  obtain ⟨settled, _⟩ := claim sample 1 _ _ whole _ listed env _ _ 0 succeeds marked passes
    (by rw [later])
  have step : Chain.Step sample chain (chain.event updatedNode turn)
      (chain.play sample updatedNode turn) := Chain.play_step
  obtain ⟨last, blocks, left, processed', path, context⟩ := succeeds.housekept step
  obtain rfl := marked.unique processed'
  rw [context] at settled
  have refunds := settled.refunds serves path marked passes
    (updatedNode_honest chain investorKey "1".toList) (sample.id investorKey)
  rw [refundsOf_noDeals serves (by rw [later]; exact noDeals), later,
    owed_noDeals updatedNode noDeals] at refunds
  exact refunds

/-- The fee of the registration is not refunded after more than a year of blocks. -/
theorem fee_unsettled :
    ¬ ∀ (sha : Sha512) (tip : UInt64) (steps : List ChainStep) (chain : Chain),
      ChainRun sha tip steps chain → ∀ taken ∈ steps, SettlesOwed sha taken := by
  intro claim
  have read : (keepHouse "525601").command = .ok (.housekeeping 525601) := by decide
  have nothing := SettlesOwed.nothing 525700 claim read (by decide) (by decide)
  have fee : owed sample updatedNode 525601 (sample.id investorKey) registered.context = txFee := by
    decide
  rw [fee] at nothing
  exact absurd nothing (by decide)

end Creditcoin
