import Creditcoin.Payouts
import Creditcoin.Settlements

/-!
# Records of the last block

`Housekeeping` lists the records of the last committed block and settles those of the block's own
state. Before the first `Housekeeping` of a block the two agree on what is paid out: a deal order
that differs has a loan, is open, or is missing in both states, and a fee record that differs is
new.
-/

namespace Creditcoin

open Lib

/-- Two deal orders have the same term and the same fee. -/
structure DealOrder.Alike (deal other : DealOrder) : Prop where
  /-- The loan. -/
  loan : deal.loanTransfer = other.loanTransfer
  /-- The expiration. -/
  expiration : deal.expiration = other.expiration
  /-- The block. -/
  block : deal.block = other.block
  /-- The fundraiser. -/
  sighash : deal.sighash = other.sighash
  /-- The fee. -/
  fee : deal.fee = other.fee

/-- A deal order is missing, or has a loan, or is still open. -/
def DealQuiet (head : Int) (state : State) (key : Text) : Prop :=
  state.get key = [] ∨ (dealAt state key).loanTransfer ≠ [] ∨
    Unexpired (dealAt state key).expiration (dealAt state key).block head

/-- In a block without a `Housekeeping` the deal orders that are not quiet are those of the last
block, and the fee records are those of the last block or new. -/
structure Chain.Unsettled (sha : Sha512) (chain : Chain) : Prop where
  /-- The deal orders. -/
  deals : chain.housekept = false → ∀ key, sha.kindOf key = some .dealOrder →
    ((chain.context.get key = [] ↔ chain.committed.get key = []) ∧
        (dealAt chain.context key).Alike (dealAt chain.committed key)) ∨
      DealQuiet chain.head chain.context key ∧ DealQuiet chain.head chain.committed key
  /-- The fee records. -/
  fees : chain.housekept = false → ∀ key, sha.kindOf key = some .fee →
    chain.context.get key = chain.committed.get key ∨
      (feeAt chain.context key).block = toText chain.head

section Unsettled

variable {sha : Sha512} {env : Env} {signer key : Text} {state after before : State}
  {command : Command} {kind : Kind} {blockIdx : Int} {chain : Chain} {tip : UInt64}
  {steps : List ChainStep} {taken : ChainStep}

/-! ## Commands before the first `Housekeeping` -/

/-- A deal order that is led on without a loan keeps its term and its fee. -/
theorem DealStep.alike {deal next : DealOrder}
    (step : DealStep sha env signer state key command deal next) :
    next.Alike deal ∨ next.loanTransfer ≠ [] ∧ Unexpired deal.expiration deal.block env.head := by
  cases step with
  | completed pending paid unexpired => exact .inr ⟨paid, unexpired⟩
  | locked => exact .inl ⟨rfl, rfl, rfl, rfl, rfl⟩
  | closed => exact .inl ⟨rfl, rfl, rfl, rfl, rfl⟩
  | exempted => exact .inl ⟨rfl, rfl, rfl, rfl, rfl⟩
  | accepted => exact .inl ⟨rfl, rfl, rfl, rfl, rfl⟩
  | sold => exact .inl ⟨rfl, rfl, rfl, rfl, rfl⟩

/-- What is alike something alike is alike. -/
theorem DealOrder.Alike.trans {deal middle other : DealOrder} (first : deal.Alike middle)
    (second : middle.Alike other) : deal.Alike other :=
  ⟨first.loan.trans second.loan, first.expiration.trans second.expiration,
    first.block.trans second.block, first.sighash.trans second.sighash, first.fee.trans second.fee⟩

/-- A quiet deal order is not due. -/
theorem DealQuiet.not_due (quiet : DealQuiet env.head state key) (present : state.get key ≠ []) :
    ¬ Due env blockIdx (state.get key) .dealOrder := by
  rintro ⟨settled, expired, pending⟩
  have count : confirmationCount = 30 := rfl
  rcases quiet with missing | loan | unexpired
  · exact present missing
  · exact loan pending
  · exact expired.not_unexpired (by omega) unexpired

/-- A `Housekeeping` of a due record has an explicit height. -/
theorem Due.explicit {value : Text} (due : Due env blockIdx value .dealOrder) :
    (Command.housekeeping blockIdx).isExplicitHousekeeping = true := by
  have positive := due.2.1.blockIdx_pos
  rw [Command.isExplicitHousekeeping, decide_eq_true_eq]
  omega

/-- An open record is open at its own block. -/
theorem unexpired_now {expiration : UInt64} {head : Int} (nonneg : 0 ≤ head) :
    Unexpired expiration (toText head) head :=
  ⟨head, ⟨cppInt_toText head, nonneg⟩, by omega⟩

/-- A command keeps the account of the deal orders. -/
theorem Executed.deal_unsettled (around : Surroundings sha env signer state command)
    (executed : Executed sha env signer state command after)
    (implicit : command.isExplicitHousekeeping = false) (found : sha.kindOf key = some .dealOrder)
    (earlier : ((state.get key = [] ↔ before.get key = []) ∧
        (dealAt state key).Alike (dealAt before key)) ∨
      DealQuiet env.head state key ∧ DealQuiet env.head before key) :
    ((after.get key = [] ↔ before.get key = []) ∧ (dealAt after key).Alike (dealAt before key)) ∨
      DealQuiet env.head after key ∧ DealQuiet env.head before key := by
  rcases executed.deal_cases around found with
    same | ⟨fresh, _, offerId, expiration, rfl, _, made⟩ | ⟨there, there', step⟩ |
      ⟨_, other, value, rfl, _, due⟩
  · rw [DealQuiet, dealAt, same]
    exact earlier
  · right
    constructor
    · refine .inr (.inr ?_)
      rw [made]
      exact unexpired_now around.live.head_nonneg
    · rcases earlier with ⟨both, _⟩ | ⟨_, quiet⟩
      · exact .inl (both.mp fresh)
      · exact quiet
  · rcases step.alike with alike | ⟨loan, unexpired⟩
    · rcases earlier with ⟨both, same⟩ | ⟨quiet, quiet'⟩
      · exact .inl ⟨iff_of_false there' (both.not.mp there), alike.trans same⟩
      · refine .inr ⟨?_, quiet'⟩
        rcases quiet with missing | loan | open'
        · exact absurd missing there
        · exact .inr (.inl (alike.loan ▸ loan))
        · refine .inr (.inr ?_)
          rw [alike.expiration, alike.block]
          exact open'
    · refine .inr ⟨.inr (.inl loan), ?_⟩
      rcases earlier with ⟨_, same⟩ | ⟨_, quiet⟩
      · rw [same.expiration, same.block] at unexpired
        exact .inr (.inr unexpired)
      · exact quiet
  · rw [due.explicit] at implicit
    cases implicit

/-- A command keeps the account of the fee records. -/
theorem Executed.fee_unsettled (around : Surroundings sha env signer state command)
    (executed : Executed sha env signer state command after)
    (implicit : command.isExplicitHousekeeping = false) (found : sha.kindOf key = some .fee)
    (earlier : state.get key = before.get key ∨ (feeAt state key).block = toText env.head) :
    after.get key = before.get key ∨ (feeAt after key).block = toText env.head := by
  have left (same : after.get key = state.get key) :
      after.get key = before.get key ∨ (feeAt after key).block = toText env.head := by
    rw [feeAt, same]
    exact earlier
  cases charged : command.isCharged with
  | true =>
    have written := executed.fee_paid around charged found
    by_cases own : key = env.feeId sha
    · rw [if_pos own] at written
      right
      rw [feeAt, written, Env.feeEntry, Fee.parse_serialize]
    · rw [if_neg own] at written
      exact left written
  | false =>
    rcases executed.fee_refunded around charged found with
      same | ⟨_, other, value, rfl, listed, start, read, old⟩
    · exact left same
    · have content := (around.lists _ _ _ listed).2.content
      rw [found] at content
      have fee : FeeContent sha (Fee.parseFromString value) := content
      obtain ⟨height, own⟩ := fee.block
      obtain rfl : start = height := Option.some.inj (read.symm.trans own.1)
      have nonneg := own.2
      have year : yearOfBlocks = 525600 := rfl
      have positive : other ≠ 0 := by omega
      rw [Command.isExplicitHousekeeping, decide_eq_false_iff_not] at implicit
      exact absurd positive implicit

/-- Steps keep the account of the records of the last block. -/
theorem Chain.Did.unsettled (did : Chain.Did sha taken) (kept : taken.before.Kept sha)
    (named : NamesOffers sha taken) (unsettled : taken.before.Unsettled sha) :
    taken.after.Unsettled sha := by
  cases did with
  | executed serves succeeds effect committed tip housekept =>
    have around := succeeds.around serves kept named
    have head : taken.after.head = taken.before.head := by rw [Chain.head, tip, Chain.head]
    have split (still : taken.after.housekept = false) := by
      rw [housekept, Bool.or_eq_false_iff] at still
      exact still
    constructor
    · intro still key found
      obtain ⟨idle, implicit⟩ := split still
      have earlier := unsettled.deals idle key found
      rw [← serves.head] at earlier
      rw [committed, head, ← serves.head]
      exact effect.deal_unsettled around implicit found earlier
    · intro still key found
      obtain ⟨idle, implicit⟩ := split still
      have earlier := unsettled.fees idle key found
      rw [← serves.head] at earlier
      rw [committed, head, ← serves.head]
      exact effect.fee_unsettled around implicit found earlier
  | rejected same => exact same ▸ unsettled
  | committed committed context housekept =>
    constructor
    · intro _ key _
      rw [committed, context]
      exact .inl ⟨Iff.rfl, ⟨rfl, rfl, rfl, rfl, rfl⟩⟩
    · intro _ key _
      rw [committed, context]
      exact .inl rfl

/-- Runs whose `AddDealOrder`s name offers keep the account of the records of the last block. -/
theorem ChainRun.unsettled (run : ChainRun sha tip steps chain)
    (named : ∀ taken ∈ steps, NamesOffers sha taken) : chain.Unsettled sha := by
  refine run.keptInvariant (Chain.Unsettled sha) ?_
    (fun _ kept unsettled did named _ => did.unsettled kept named unsettled)
    (fun taken listed => ⟨named taken listed, trivial⟩)
  exact ⟨fun _ _ _ => .inl ⟨Iff.rfl, ⟨rfl, rfl, rfl, rfl, rfl⟩⟩, fun _ _ _ => .inl rfl⟩

/-! ## What is listed -/

/-- A listing that answers has the records of the last block. -/
theorem Chain.Serves.mem_listed (serves : chain.Serves env) {start : Text} {entry : Text × Text}
    (answers : ∃ pages, env.getStatesByPrefix start = .ok pages) :
    entry ∈ env.listed start ↔ entry ∈ chain.records start := by
  obtain ⟨pages, answer⟩ := answers
  simp only [Env.listed, answer]
  exact (serves.listing _ _ answer).mem_iff

/-- A due record of the last block is listed. -/
theorem Chain.Serves.due_of_committed (serves : chain.Serves env) (legible : env.Legible sha)
    (found : sha.kindOf key = some kind) (swept : kind ∈ sweptKinds)
    (present : chain.committed.get key ≠ [])
    (due : Due env blockIdx (chain.committed.get key) kind) :
    (kind, key, chain.committed.get key) ∈ dueRecords sha env blockIdx := by
  refine mem_dueRecords.mpr ⟨swept, ?_, due⟩
  rw [serves.mem_listed (legible kind swept).1, Chain.records, List.mem_filter, List.mem_map]
  exact ⟨⟨_, Store.mem_entries_of_get present, rfl⟩,
    sha.kindOf_eq_some_iff_startsWith.mp found⟩

/-- A record is listed as due when the chain has it and it is due. -/
theorem Chain.Serves.due_iff (serves : chain.Serves env) (legible : env.Legible sha)
    (found : sha.kindOf key = some kind) (swept : kind ∈ sweptKinds)
    (present : chain.committed.get key ≠ []) :
    key ∈ (dueRecords sha env blockIdx).map (fun record => record.2.1) ↔
      Due env blockIdx (chain.committed.get key) kind := by
  constructor
  · intro listed
    obtain ⟨record, member, rfl⟩ := List.mem_map.mp listed
    obtain ⟨kinded, stored, _⟩ := serves.due member
    have due := (mem_dueRecords.mp member).2.2
    rw [found, Option.some.injEq] at kinded
    rw [stored, kinded]
    exact due
  · intro due
    exact List.mem_map_of_mem (serves.due_of_committed legible found swept present due)

/-- A deal order of shaped records is not empty. -/
theorem Kept.deal_present (kept : Kept sha state) (found : sha.kindOf key = some .dealOrder)
    (listed : key ∈ state) : state.get key ≠ [] := by
  intro missing
  have content := (kept key listed).content
  rw [found, missing] at content
  have deal : DealContent sha (DealOrder.parseFromString []) := content
  exact deal.owner.ne_nil rfl

/-- A deal order that is due in the block's own state is listed, with its fee. -/
theorem Chain.Unsettled.deal_due (unsettled : chain.Unsettled sha) (serves : chain.Serves env)
    (first : chain.housekept = false) (found : sha.kindOf key = some .dealOrder)
    (blockIdx : Int) :
    (chain.committed.get key ≠ [] ∧ Due env blockIdx (chain.committed.get key) .dealOrder ↔
      chain.context.get key ≠ [] ∧ Due env blockIdx (chain.context.get key) .dealOrder) ∧
    (chain.context.get key ≠ [] ∧ Due env blockIdx (chain.context.get key) .dealOrder →
      (dealAt chain.context key).Alike (dealAt chain.committed key)) := by
  rcases unsettled.deals first key found with ⟨both, alike⟩ | ⟨quiet, quiet'⟩
  · refine ⟨and_congr both.not.symm ?_, fun _ => alike⟩
    change (_ ∧ Expired (dealAt chain.committed key).expiration (dealAt chain.committed key).block
        blockIdx ∧ (dealAt chain.committed key).loanTransfer = []) ↔
      (_ ∧ Expired (dealAt chain.context key).expiration (dealAt chain.context key).block
        blockIdx ∧ (dealAt chain.context key).loanTransfer = [])
    rw [alike.expiration, alike.block, alike.loan]
  · rw [← serves.head] at quiet quiet'
    refine ⟨iff_of_false ?_ ?_, ?_⟩
    · rintro ⟨present, due⟩
      exact quiet'.not_due present due
    · rintro ⟨present, due⟩
      exact quiet.not_due present due
    · rintro ⟨present, due⟩
      exact absurd due (quiet.not_due present)

/-- An old fee record of a block without a `Housekeeping` is listed. -/
theorem Chain.Unsettled.fee_due (unsettled : chain.Unsettled sha) (serves : chain.Serves env)
    (legible : env.Legible sha) (first : chain.housekept = false)
    (below : blockIdx ≤ env.head)
    (plain : ∀ record ∈ dueRecords sha env blockIdx, record.1 ≠ .fee)
    (found : sha.kindOf key = some .fee) (present : chain.context.get key ≠ []) :
    ¬ Due env blockIdx (chain.context.get key) .fee := by
  intro due
  rcases unsettled.fees first key found with same | fresh
  · rw [same] at present due
    exact plain _ (serves.due_of_committed legible found (by decide) present due) rfl
  · obtain ⟨start, read, old⟩ := due
    rw [feeAt, ← serves.head] at fresh
    rw [fresh, cppInt_toText, Option.some.injEq] at read
    have year : yearOfBlocks = 525600 := rfl
    omega

/-- A record of the block's own state that is paid out is listed when it is due. -/
theorem Chain.Unsettled.listed_iff (unsettled : chain.Unsettled sha) (serves : chain.Serves env)
    (kept : chain.Kept sha) (legible : env.Legible sha) (first : chain.housekept = false)
    (below : blockIdx ≤ env.head)
    (plain : ∀ record ∈ dueRecords sha env blockIdx, record.1 ≠ .fee)
    (found : sha.kindOf key = some kind) (pays : kind.paysOut)
    (present : chain.context.get key ≠ []) :
    key ∈ (dueRecords sha env blockIdx).map (fun record => record.2.1) ↔
      Due env blockIdx (chain.context.get key) kind := by
  rcases pays with rfl | rfl
  · have both := (unsettled.deal_due serves first found blockIdx).1
    constructor
    · intro listed
      have stored : chain.committed.get key ≠ [] := by
        obtain ⟨record, member, rfl⟩ := List.mem_map.mp listed
        exact kept.committed.deal_present found (serves.due member).2.2
      exact (both.mp ⟨stored, (serves.due_iff legible found (by decide) stored).mp listed⟩).2
    · intro due
      obtain ⟨stored, due⟩ := both.mpr ⟨present, due⟩
      exact (serves.due_iff legible found (by decide) stored).mpr due
  · refine iff_of_false ?_ (unsettled.fee_due serves legible first below plain found present)
    intro listed
    obtain ⟨record, member, rfl⟩ := List.mem_map.mp listed
    exact plain record member (Option.some.inj ((serves.due member).1.symm.trans found))

end Unsettled

end Creditcoin
