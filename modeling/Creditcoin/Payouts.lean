import Creditcoin.Cleaning
import Creditcoin.Status

/-!
# Payouts

The fee of a deal order is held back until `CompleteDealOrder` pays it to the investor or
`Housekeeping` returns it to the fundraiser, and the fee of a command until `Housekeeping` refunds
it. `Housekeeping` goes by the records of the last committed block and pays without a look at the
context, so it pays once what is still owing there and again what the block has already paid.
-/

namespace Creditcoin

open Lib

/-- A record of a kind has something to pay out. -/
def Owing (state : State) (key : Text) : Kind → Prop
  | .dealOrder => state.get key ≠ [] ∧ (dealAt state key).loanTransfer = []
  | .fee => state.get key ≠ []
  | _ => False

/-- The kinds whose records are paid out. -/
def Kind.paysOut (kind : Kind) : Prop := kind = .dealOrder ∨ kind = .fee

/-- A step pays out a record. -/
inductive PaysOut (sha : Sha512) (taken : ChainStep) : Kind → Text → Prop
  /-- The investor completes the deal and gets its fee. -/
  | completed {env : Env} {signer key transferId : Text}
      (succeeds : Succeeds sha taken env signer (.completeDealOrder key transferId)) :
      PaysOut sha taken .dealOrder key
  /-- `Housekeeping` returns the fee of a listed record that is due. -/
  | settled {env : Env} {signer : Text} {blockIdx last : Int} {kind : Kind} {key value : Text}
      (succeeds : Succeeds sha taken env signer (.housekeeping blockIdx))
      (processed : Processed sha taken.before.context last) (passes : env.Passes last blockIdx)
      (due : (kind, key, value) ∈ dueRecords sha env blockIdx) (pays : kind.paysOut) :
      PaysOut sha taken kind key

/-- A step writes a new record that is to be paid out. -/
inductive Deposits (sha : Sha512) (taken : ChainStep) : Kind → Text → Prop
  /-- A deal order is made. -/
  | deal {env : Env} {signer offerId : Text} {expiration : UInt64}
      (succeeds : Succeeds sha taken env signer (.addDealOrder offerId expiration)) :
      Deposits sha taken .dealOrder (sha.makeAddress .dealOrder offerId)
  /-- A command is charged. -/
  | fee {env : Env} {signer : Text} {command : Command}
      (succeeds : Succeeds sha taken env signer command) (charged : command.isCharged = true) :
      Deposits sha taken .fee (env.feeId sha)

/-- What `Housekeeping` pays out is still owing in the context of the block. -/
def PaysOwing (sha : Sha512) (taken : ChainStep) : Prop :=
  ∀ env signer blockIdx last, Succeeds sha taken env signer (.housekeeping blockIdx) →
    Processed sha taken.before.context last → env.Passes last blockIdx →
    ∀ kind key value, (kind, key, value) ∈ dueRecords sha env blockIdx → kind.paysOut →
      Owing taken.before.context key kind

/-- Every record is paid out at most once: no `Housekeeping` pays a record twice, and between two
payouts of one record it was written anew. -/
structure PaidOnce (sha : Sha512) (steps : List ChainStep) : Prop where
  /-- One step pays a record once. -/
  alone : ∀ taken ∈ steps, ∀ env signer blockIdx,
    Succeeds sha taken env signer (.housekeeping blockIdx) →
      ((dueRecords sha env blockIdx).map fun record => record.2.1).Nodup
  /-- Two steps pay two records. -/
  apart : ∀ earlier first between second later,
    steps = earlier ++ first :: (between ++ second :: later) → ∀ kind key,
      PaysOut sha first kind key → PaysOut sha second kind key →
        ∃ made ∈ between, Deposits sha made kind key

section Payouts

variable {sha : Sha512} {env : Env} {signer : Text} {state after : State} {memory left : Memory}
  {command : Command} {key : Text} {kind : Kind} {blockIdx last : Int}
  {blocks : List (Int × Text)} {tip : UInt64} {steps : List ChainStep} {chain : Chain}
  {taken : ChainStep}

/-! ## What is settled is gone -/

/-- Settling a record deletes it and leaves all records but wallets; the line that a fee record
leaves is under no key of a kind. -/
theorem settle_leaves (live : env.Live) {record : Kind × Text × Text} {result : Unit}
    (apart : ∀ owner, key ≠ sha.walletId owner)
    (known : record.1 = .fee → sha.kindOf key ≠ none)
    (ran : settle sha record env memory = .ok (result, left)) :
    left.state.get key = if key = record.2.1 then [] else memory.state.get key := by
  obtain ⟨other, address, protobuf⟩ := record
  by_cases deal : other = .dealOrder
  · subst deal
    obtain ⟨balance, fee, covers, read, rfl⟩ := (settle_deal_ok live).mp ran
    rw [Store.get_erase, Store.setAll_cons, Store.setAll_nil, walletEntry_fst,
      Store.get_set_ne _ (apart _)]
  by_cases fee : other = .fee
  · subst fee
    obtain ⟨balance, covers, rfl⟩ := (settle_fee_ok live).mp ran
    have line : key ≠ (walletEntry sha memory.state (Fee.parseFromString protobuf).sighash
        (balance + txFee)).2 := by
      rintro rfl
      exact known rfl (sha.kindOf_line (walletEntry_head _ _))
    rw [Store.get_erase, Store.get_set_ne _ line]
  obtain rfl := (settle_ok live deal fee).mp ran
  exact Store.get_erase _ _ _

/-- Settling records deletes them and leaves all records but wallets. -/
theorem settleAll_leaves (live : env.Live) {records : List (Kind × Text × Text)}
    (apart : ∀ owner, key ≠ sha.walletId owner)
    (known : ∀ record ∈ records, record.1 = .fee → sha.kindOf key ≠ none)
    (ran : Exec.forEach records (settle sha) env memory = .ok ((), left)) :
    left.state.get key =
      if key ∈ records.map (fun record => record.2.1) then [] else memory.state.get key := by
  induction records generalizing memory with
  | nil =>
    obtain rfl := Exec.forEach_nil_ok.mp ran
    rw [List.map_nil, if_neg List.not_mem_nil]
  | cons record records ih =>
    rw [List.forall_mem_cons] at known
    obtain ⟨middle, first, rest⟩ := Exec.forEach_cons_ok.mp ran
    rw [ih known.2 rest, settle_leaves live apart known.1 first, List.map_cons]
    by_cases later : key ∈ records.map fun record => record.2.1
    · rw [if_pos later, if_pos (List.mem_cons_of_mem _ later)]
    · rw [if_neg later]
      by_cases same : key = record.2.1
      · rw [if_pos same, if_pos (same ▸ List.mem_cons_self)]
      · rw [if_neg same, if_neg fun listed => (List.mem_cons.mp listed).elim same later]

/-- What a `Housekeeping` does that passes its guards. -/
theorem Housekept.passed (path : Housekept sha env blockIdx last memory blocks left)
    (passes : env.Passes last blockIdx) :
    ∃ newFormula swept after, verifyGatewaySigner sha env memory = .ok ((), memory) ∧
      sweep sha blockIdx env memory = .ok ((), swept) ∧
      env.newFormula last = .ok newFormula ∧ env.Rewards last blockIdx blocks ∧
      awards sha newFormula blocks env swept = .ok ((), after) ∧
      left.state = after.state.set sha.processedBlockIdx (toText blockIdx) := by
  obtain ⟨explicit, high, above, below⟩ := passes
  cases path with
  | idle periodic early => exact absurd periodic explicit
  | rewarded periodic late formula fetched ran => exact absurd periodic explicit
  | ignored _ verified outside => omega
  | settled _ verified inside settled sweeps formula fetched ran =>
    exact ⟨_, _, _, verified, sweeps, formula, fetched, ran, rfl⟩

/-- A `Housekeeping` that passes its guards deletes the due records and leaves the other records
but wallets and the marker. -/
theorem Housekept.leaves (live : env.Live)
    (path : Housekept sha env blockIdx last memory blocks left)
    (passes : env.Passes last blockIdx) (noWallet : sha.kindOf key ≠ some .wallet)
    (noMarker : key ≠ sha.processedBlockIdx)
    (known : ∀ record ∈ dueRecords sha env blockIdx, record.1 = .fee → sha.kindOf key ≠ none) :
    left.state.get key =
      if key ∈ (dueRecords sha env blockIdx).map (fun record => record.2.1) then []
      else memory.state.get key := by
  obtain ⟨newFormula, swept, after, _, sweeps, _, _, ran, same⟩ := path.passed passes
  have apart (owner : Text) : key ≠ sha.walletId owner := by
    rintro rfl
    exact noWallet (sha.kindOf_walletId owner)
  have settles := ((sweep_ok live passes.2.2.2).mp sweeps).2
  rw [same, Store.get_set_ne _ noMarker, awards_frame live noWallet ran,
    settleAll_leaves live apart known settles]

/-- A `Housekeeping` that passes its guards deletes the due records and leaves the other records
of the kinds that are listed. -/
theorem Housekept.get (live : env.Live) (path : Housekept sha env blockIdx last memory blocks left)
    (passes : env.Passes last blockIdx) (found : sha.kindOf key = some kind)
    (swept : kind ∈ sweptKinds) :
    left.state.get key =
      if key ∈ (dueRecords sha env blockIdx).map (fun record => record.2.1) then []
      else memory.state.get key := by
  have noWallet : sha.kindOf key ≠ some .wallet := by
    rw [found]
    exact fun same => sweptKinds_apart swept (Option.some.inj same)
  have noMarker : key ≠ sha.processedBlockIdx := by
    apply sha.ne_of_kindOf_ne
    rw [found, sha.kindOf_processedBlockIdx]
    exact fun same => sweptKinds_marker swept (Option.some.inj same)
  refine path.leaves live passes noWallet noMarker fun _ _ _ => ?_
  rw [found]
  exact Option.some_ne_none _

/-- The marker stands for one height. -/
theorem Processed.unique {first second : Int} (processed : Processed sha state first)
    (again : Processed sha state second) : first = second := by
  unfold Processed at processed again
  split at processed
  · rename_i none
    rw [if_pos none] at again
    rw [processed, again]
  · rename_i some
    rw [if_neg some] at again
    exact Option.some.inj (processed.1.symm.trans again.1)

/-! ## What is paid out is owing before and not after -/

/-- The kinds that are paid out are listed. -/
theorem Kind.paysOut.swept (pays : kind.paysOut) : kind ∈ sweptKinds := by
  rcases pays with rfl | rfl
  · decide
  · decide

/-- A payout needs a record that is owing and leaves none. -/
theorem PaysOut.owing (step : Chain.Step sha taken.before taken.label taken.after)
    (kept : taken.before.Kept sha) (named : NamesOffers sha taken) (fresh : PaysOwing sha taken)
    (pays : PaysOut sha taken kind key) :
    Owing taken.before.context key kind ∧ ¬ Owing taken.after.context key kind ∧
      sha.kindOf key = some kind := by
  cases pays with
  | completed succeeds =>
    obtain ⟨serves, executed⟩ := succeeds.executed step
    have around := succeeds.around serves kept named
    generalize taken.before.context = state at executed around ⊢
    generalize taken.after.context = after at executed ⊢
    have whole := executed
    cases executed with
    | completeDealOrder present pending sourcePresent owner unexpired transferPresent order amount
        registrant unprocessed feeRead covers =>
      rename_i transferId balance fee
      obtain ⟨transfer, payable⟩ :=
        around.kept.consumed around.isId transferPresent order present registrant
      have found := around.kept.deal_of_pending present payable pending
      refine ⟨⟨present, pending⟩, ?_, found⟩
      rintro ⟨_, open'⟩
      have loan : transferId = [] := by
        refine Eq.trans ?_ open'
        refine Eq.trans ?_ (congrArg (fun data => (DealOrder.parseFromString data).loanTransfer)
          (get_setAll_at [] found (by simp) (by simp [transfer]))).symm
        rw [if_pos rfl, DealOrder.parse_serialize]
      exact (around.kept.shape transferPresent).isKey.ne_nil loan
  | @settled env signer blockIdx last _ _ value succeeds processed passes due pays =>
    obtain ⟨serves, _⟩ := succeeds.executed step
    have found := (serves.due due).1
    refine ⟨fresh _ _ _ _ succeeds processed passes _ _ _ due pays, ?_, found⟩
    obtain ⟨last', blocks, memory, processed', path, left⟩ := succeeds.housekept step
    obtain rfl := processed.unique processed'
    have gone : taken.after.context.get key = [] := by
      rw [left, path.get serves.live passes found pays.swept]
      exact if_pos (List.mem_map.mpr ⟨_, due, rfl⟩)
    rcases pays with rfl | rfl
    · exact fun owing => owing.1 gone
    · exact fun owing => owing gone

/-- What is not owing stays so until it is written anew. -/
theorem Chain.Did.owing (did : Chain.Did sha taken) (kept : taken.before.Kept sha)
    (named : NamesOffers sha taken) (found : sha.kindOf key = some kind)
    (other : ¬ Deposits sha taken kind key) (paid : ¬ Owing taken.before.context key kind) :
    ¬ Owing taken.after.context key kind := by
  cases did with
  | @executed env signer command serves succeeds executed =>
    have around := succeeds.around serves kept named
    cases kind with
    | dealOrder =>
      rintro ⟨present, open'⟩
      apply paid
      rcases executed.deal_cases around found with same | ⟨_, _, offerId, expiration, rfl, rfl, _⟩ |
        ⟨before, _, step⟩ | ⟨gone, _⟩
      · rw [Owing, dealAt, ← same]
        exact ⟨present, open'⟩
      · exact absurd (.deal succeeds) other
      · refine ⟨before, ?_⟩
        generalize dealAt taken.after.context key = dealAfter at step open'
        cases step with
        | completed pending paid => exact pending
        | locked => exact open'
        | closed => exact open'
        | exempted => exact open'
        | accepted => exact open'
        | sold => exact open'
      · exact absurd gone present
    | fee =>
      intro present
      apply paid
      cases charged : command.isCharged with
      | true =>
        have written := executed.fee_paid around charged found
        by_cases same : key = env.feeId sha
        · exact absurd (same ▸ .fee succeeds charged) other
        · rw [if_neg same] at written
          exact fun none => present (written.trans none)
      | false =>
        rcases executed.fee_refunded around charged found with same | ⟨gone, _⟩
        · exact fun none => present (same.trans none)
        · exact absurd gone present
    | _ => exact id
  | rejected same idle => rw [same]; exact paid
  | committed committed context => rw [context]; exact paid

/-- The records of a chain are listed once. -/
theorem Chain.Serves.due_nodup (serves : chain.Serves env) :
    ((dueRecords sha env blockIdx).map fun record => record.2.1).Nodup := by
  have kinds (kind : Kind) :
      (((env.listed (sha.space kind)).filter fun entry => Due env blockIdx entry.2 kind).map
        Prod.fst).Nodup := by
    have whole : ((env.listed (sha.space kind)).map Prod.fst).Nodup := by
      unfold Env.listed
      cases answer : env.getStatesByPrefix (sha.space kind) with
      | error failure => exact List.nodup_nil
      | ok pages =>
        have same := (serves.listing _ _ answer).map Prod.fst
        refine same.nodup_iff.mpr ?_
        have stored : List.Sublist ((chain.records (sha.space kind)).map Prod.fst)
            chain.committed.keys := by
          unfold Chain.records
          refine (List.filter_sublist.map Prod.fst).trans ?_
          rw [List.map_map]
          exact List.Sublist.refl _
        exact stored.nodup (AList.keys_nodup _)
    exact (List.filter_sublist.map Prod.fst).nodup whole
  unfold dueRecords
  rw [List.map_flatMap, List.nodup_flatMap]
  constructor
  · intro kind _
    rw [List.map_map]
    exact kinds kind
  · have apart : sweptKinds.Pairwise (· ≠ ·) := by decide
    refine apart.imp fun {first second} differ => ?_
    intro key one two
    dsimp only at one two
    rw [List.map_map] at one two
    obtain ⟨entry, listed, rfl⟩ := List.mem_map.mp one
    obtain ⟨entry', listed', same⟩ := List.mem_map.mp two
    have kind (kind : Kind) (entry : Text × Text)
        (listed : entry ∈ (env.listed (sha.space kind)).filter fun entry =>
          Due env blockIdx entry.2 kind) : sha.kindOf entry.1 = some kind :=
      sha.kindOf_eq_some_iff_startsWith.mpr
        (serves.listed (listed_of_mem (List.mem_of_mem_filter listed))).1
    have one := kind _ _ listed
    have two := kind _ _ listed'
    change entry'.1 = entry.1 at same
    rw [same, one, Option.some.injEq] at two
    exact differ two

/-- What was paid out stays paid until it is written anew. -/
theorem paid_until_deposit {between : List ChainStep} {first last : Chain}
    (run : Run (Chain.Step sha) first between last) (kept : first.Kept sha)
    (named : ∀ taken ∈ between, NamesOffers sha taken) (found : sha.kindOf key = some kind)
    (other : ∀ taken ∈ between, ¬ Deposits sha taken kind key)
    (paid : ¬ Owing first.context key kind) :
    last.Kept sha ∧ ¬ Owing last.context key kind := by
  refine run.invariant (fun chain => chain.Kept sha ∧ ¬ Owing chain.context key kind) ⟨kept, paid⟩
    ?_ fun taken listed => And.intro (named taken listed) (other taken listed)
  rintro before label after ⟨kept, paid⟩ step ⟨named, other⟩
  exact ⟨step.did.kept kept named, step.did.owing kept named found other paid⟩

/-- In a run whose `AddDealOrder`s name offers, every fee is paid out at most once when
`Housekeeping` pays what is still owing. -/
theorem paid_once (run : ChainRun sha tip steps chain)
    (guarded : ∀ taken ∈ steps, NamesOffers sha taken ∧ PaysOwing sha taken) :
    PaidOnce sha steps := by
  constructor
  · intro taken listed env signer blockIdx succeeds
    obtain ⟨_, _, _, _, _, step⟩ := run.split guarded listed
    exact (succeeds.executed step).1.due_nodup
  · rintro earlier first between second later rfl kind key pays again
    obtain ⟨reached, step, rest⟩ := Run.split run
    obtain ⟨middle, step', _⟩ := rest.split
    have named (taken : ChainStep) (listed : taken ∈ earlier ++ first :: (between ++ second ::
        later)) := (guarded taken listed).1
    have kept : first.before.Kept sha := ChainRun.kept reached fun taken listed =>
      named taken (List.mem_append_left _ listed)
    have guard := guarded first (by simp)
    obtain ⟨_, paid, found⟩ := pays.owing step kept guard.1 guard.2
    by_contra none
    push Not at none
    obtain ⟨kept', stays⟩ := paid_until_deposit middle (step.did.kept kept guard.1)
      (fun taken listed => named taken (by simp [listed])) found none paid
    have guard' := guarded second (by simp)
    exact stays (again.owing step' kept' guard'.1 guard'.2).1

end Payouts

/-! ## A deal order that expires -/

instance (kind : Kind) : Decidable kind.paysOut := inferInstanceAs (Decidable (_ ∨ _))

instance (state : State) (key : Text) : (kind : Kind) → Decidable (Owing state key kind)
  | .dealOrder => inferInstanceAs (Decidable (_ ∧ _))
  | .fee => inferInstanceAs (Decidable (¬ _))
  | .askOrder => inferInstanceAs (Decidable False)
  | .bidOrder => inferInstanceAs (Decidable False)
  | .offer => inferInstanceAs (Decidable False)
  | .repaymentOrder => inferInstanceAs (Decidable False)
  | .wallet => inferInstanceAs (Decidable False)
  | .addr => inferInstanceAs (Decidable False)
  | .transfer => inferInstanceAs (Decidable False)
  | .erc20 => inferInstanceAs (Decidable False)
  | .processedBlock => inferInstanceAs (Decidable False)

instance (sha : Sha512) (state : State) (height : Int) : Decidable (Processed sha state height) :=
  decidable_of_iff (if state.get sha.processedBlockIdx = [] then height = 0
    else cppInt (state.get sha.processedBlockIdx) = some height ∧ 0 ≤ height) Iff.rfl

/-- Whether a `Housekeeping` finds all that it would pay out still owing. -/
def Command.findsOwing (sha : Sha512) (chain : Chain) (env : Env) : Command → Bool
  | .housekeeping blockIdx => (dueRecords sha env blockIdx).all fun record =>
      decide (record.1.paysOut → Owing chain.context record.2.1 record.1)
  | _ => true

/-- Whether a `Housekeeping` finds deal orders only. -/
def Command.findsDeals (sha : Sha512) (env : Env) : Command → Bool
  | .housekeeping blockIdx =>
    (dueRecords sha env blockIdx).all fun record => record.1 = .dealOrder
  | _ => true

/-- A command that finds what it pays out owing pays what is owing. -/
theorem Chain.checks_owing {sha : Sha512} {node : Env} {chain : Chain} {script : List Turn}
    {check : Chain → Env → Text → Command → Bool}
    (checked : chain.checks sha node (fun chain env signer command =>
      command.ordinary sha chain &&
        (command.findsOwing sha chain env && check chain env signer command)) script = true) :
    ∀ taken ∈ chain.steps sha node script, (NamesOffers sha taken ∧ PaysOwing sha taken) ∧
      ∀ env signer command, Succeeds sha taken env signer command →
        check taken.before env signer command = true := by
  intro taken listed
  obtain ⟨named, _, passes⟩ := Chain.checks_ordinary checked taken listed
  refine ⟨⟨named, ?_⟩, fun env signer command succeeds => ?_⟩
  · intro env signer blockIdx last succeeds _ _ kind key value due pays
    have finds := (Bool.and_eq_true_iff.mp (passes env signer _ succeeds)).1
    exact of_decide_eq_true (List.all_eq_true.mp finds _ due) pays
  · exact (Bool.and_eq_true_iff.mp (passes env signer command succeeds)).2

/-- A deal order is open for five blocks; then blocks pass. -/
def staleDeal : List Turn :=
  loanParties ++ [order investorKey "7" "AddAskOrder" "0x1", order fundraiserKey "8" "AddBidOrder"
    "0x2", request investorKey "9" "AddOffer" (sample.makeAddress .askOrder "7".toList)
      (sample.makeAddress .bidOrder "8".toList),
    request fundraiserKey "10" "AddDealOrder" sampleOffer "5".toList] ++ List.replicate 92 .commit

/-- The gateway signer has one more block cleaned up. -/
def cleanUpNext : Turn := .submit investorKey "18".toList (keepHouse "61")

/-- The gateway signer has a block cleaned up while the sample deal is due. -/
@[mk_iff]
structure CleansDeal (chain : Chain) (nonce : Text) (payload : Json) (blockIdx last : Int) :
    Prop where
  /-- The transaction is accepted. -/
  accepted : chain.accepts sample keeperNode (.submit investorKey nonce payload) =
    some (sample.id investorKey, .housekeeping blockIdx)
  /-- The processed block. -/
  processed : Processed sample chain.context last
  /-- The height passes the guards. -/
  passes : (chain.serve keeperNode investorKey nonce).Passes last blockIdx
  /-- The deal is listed and due. -/
  due : ((dueRecords sample (chain.serve keeperNode investorKey nonce) blockIdx).map
    fun record => (record.1, record.2.1)) = [(.dealOrder, sampleDeal)]

instance (chain : Chain) (nonce : Text) (payload : Json) (blockIdx last : Int) :
    Decidable (CleansDeal chain nonce payload blockIdx last) :=
  decidable_of_iff _ (cleansDeal_iff ..).symm

/-- Cleaning up pays the sample deal out. -/
theorem CleansDeal.paysOut {chain : Chain} {nonce : Text} {payload : Json} {blockIdx last : Int}
    (cleans : CleansDeal chain nonce payload blockIdx last) :
    PaysOut sample ⟨chain, chain.event keeperNode (.submit investorKey nonce payload),
      chain.play sample keeperNode (.submit investorKey nonce payload)⟩ .dealOrder sampleDeal := by
  have listed : ((.dealOrder, sampleDeal) : Kind × Text) ∈
      (dueRecords sample (chain.serve keeperNode investorKey nonce) blockIdx).map
        fun record => (record.1, record.2.1) := by
    rw [cleans.due]
    exact List.mem_singleton_self _
  obtain ⟨⟨kind, key, value⟩, due, same⟩ := List.mem_map.mp listed
  obtain ⟨rfl, rfl⟩ := Prod.mk.inj same
  exact .settled (Chain.accepts_succeeds cleans.accepted) cleans.processed cleans.passes due
    (.inl rfl)

/-- The run of the stale deal: the deal alone is due and is owing, and both clean-ups find it. -/
theorem staleDeal_run :
    CleansDeal ((Chain.empty 1).plays sample keeperNode staleDeal) "17".toList (keepHouse "60") 60
        0 ∧
      (Chain.empty 1).checks sample keeperNode (fun chain env _ command =>
        command.ordinary sample chain &&
          (command.findsOwing sample chain env && command.findsDeals sample env))
        (staleDeal ++ [cleanUp]) = true ∧
      CleansDeal ((Chain.empty 1).plays sample keeperNode (staleDeal ++ [cleanUp])) "18".toList
        (keepHouse "61") 61 60 := by
  decide +kernel

/-- The fundraiser gets the fee of the deal order back once. -/
theorem paid_once_sample :
    let steps := (Chain.empty 1).steps sample keeperNode (staleDeal ++ [cleanUp])
    (∃ taken ∈ steps, PaysOut sample taken .dealOrder sampleDeal) ∧ PaidOnce sample steps := by
  intro steps
  obtain ⟨cleans, checked, -⟩ := staleDeal_run
  refine ⟨⟨_, ?_, cleans.paysOut⟩, paid_once Chain.steps_run fun taken listed =>
    (Chain.checks_owing checked taken listed).1⟩
  unfold steps
  rw [Chain.steps_append]
  exact List.mem_append_right _ (List.mem_singleton_self _)

/-- Two clean-ups in one block both give the fee of the deal order back. -/
theorem deal_paid_twice :
    ¬ ∀ (sha : Sha512) (tip : UInt64) (steps : List ChainStep) (chain : Chain),
      ChainRun sha tip steps chain → DistinctNonces steps → PaidOnce sha steps := by
  intro claim
  obtain ⟨cleans, -, again⟩ := staleDeal_run
  have distinct : DistinctNonces
      ((Chain.empty 1).steps sample keeperNode (staleDeal ++ [cleanUp, cleanUpNext])) := by
    unfold DistinctNonces
    rw [Chain.steps_nonces]
    decide +kernel
  have once := claim sample 1 _ _ Chain.steps_run distinct
  have first := cleans.paysOut
  rw [Chain.steps_append, Chain.steps_cons, Chain.steps_cons, Chain.steps_nil] at once
  rw [Chain.plays_append, Chain.plays_cons, Chain.plays_nil] at again
  generalize (Chain.empty 1).plays sample keeperNode staleDeal = start at once first again
  obtain ⟨made, none, _⟩ := once.apart _ _ [] _ [] rfl _ _ first again.paysOut
  exact List.not_mem_nil none

end Creditcoin
