import Creditcoin.Awards
import Creditcoin.Listings

/-!
# Settlements

A `Housekeeping` pays out twice. Every due deal order returns its fee to the wallet of the
fundraiser, and every block passed by the marker is awarded to the wallet of its signer. A due fee
record is deleted without reaching the wallet. A balance afterwards is the balance before with the
refunds and the awards.
-/

namespace Creditcoin

open Lib

/-- What settling a record refunds to an owner. -/
def refundOf (owner : Text) (record : Kind × Text × Text) : Int :=
  let dealOrder := DealOrder.parseFromString record.2.2
  if record.1 = .dealOrder ∧ dealOrder.sighash = owner then amountOf dealOrder.fee else 0

/-- What the listings at a height refund to an owner. -/
def Env.refundsOf (sha : Sha512) (env : Env) (blockIdx : Int) (owner : Text) : Int :=
  ((dueRecords sha env blockIdx).map (refundOf owner)).sum

/-- Whether the new formula applies after a processed block; a setting that cannot be read rewards
nothing. -/
def Env.formula (env : Env) (processedBlockIdx : Int) : Bool :=
  match env.newFormula processedBlockIdx with
  | .ok newFormula => newFormula
  | .error _ => false

/-- Whether a height passes the guards is decided by comparing it. -/
instance (env : Env) (last blockIdx : Int) : Decidable (env.Passes last blockIdx) :=
  inferInstanceAs (Decidable (_ ∧ _))

/-- What a `Housekeeping` refunds to an owner. -/
def Env.paidBack (sha : Sha512) (env : Env) (last blockIdx : Int) (owner : Text) : Int :=
  if env.Passes last blockIdx then env.refundsOf sha blockIdx owner else 0

section Settlements

variable {sha : Sha512} {env : Env} {memory after : Memory} {blockIdx last : Int}
  {blocks : List (Int × Text)} {chain : Chain} {owner : Text} {record : Kind × Text × Text}

/-- A due record is listed under its kind. -/
theorem mem_dueRecords : record ∈ dueRecords sha env blockIdx ↔
    record.1 ∈ sweptKinds ∧ record.2 ∈ env.listed (sha.space record.1) ∧
      Due env blockIdx record.2.2 record.1 := by
  obtain ⟨kind, entry⟩ := record
  simp only [dueRecords, List.mem_flatMap, List.mem_map, List.mem_filter, decide_eq_true_eq,
    Prod.mk.injEq]
  constructor
  · rintro ⟨other, swept, entry', ⟨listed, due⟩, rfl, rfl⟩
    exact ⟨swept, listed, due⟩
  · rintro ⟨swept, listed, due⟩
    exact ⟨kind, swept, entry, ⟨listed, due⟩, rfl, rfl⟩

/-- What is handed to a callback was listed. -/
theorem listed_of_mem {start : Text} {entry : Text × Text} (member : entry ∈ env.listed start) :
    Listed env start entry.1 entry.2 := by
  unfold Env.listed at member
  cases answer : env.getStatesByPrefix start with
  | ok pages =>
    rw [answer] at member
    exact ⟨pages, answer, member⟩
  | error failure =>
    rw [answer] at member
    cases member

/-- A due record is a committed record of its kind. -/
theorem Chain.Serves.due (serves : chain.Serves env)
    (member : record ∈ dueRecords sha env blockIdx) :
    sha.kindOf record.2.1 = some record.1 ∧ chain.committed.get record.2.1 = record.2.2 ∧
      record.2.1 ∈ chain.committed := by
  obtain ⟨_, listed, _⟩ := mem_dueRecords.mp member
  obtain ⟨starts, stored, present⟩ := serves.listed (listed_of_mem listed)
  exact ⟨sha.kindOf_eq_some_iff_startsWith.mpr starts, stored, present⟩

/-- The kinds that are listed are not wallets. -/
theorem sweptKinds_apart {kind : Kind} (swept : kind ∈ sweptKinds) : kind ≠ .wallet := by
  intro same
  subst same
  simp [sweptKinds] at swept

/-- Settling a record refunds a deal order and leaves all other balances. -/
theorem settle_balance (live : env.Live) {result : Unit} (swept : record.1 ∈ sweptKinds)
    (found : sha.kindOf record.2.1 = some record.1)
    (ran : settle sha record env memory = .ok (result, after)) :
    balanceOf sha after.state owner = balanceOf sha memory.state owner + refundOf owner record := by
  obtain ⟨kind, address, protobuf⟩ := record
  dsimp only at swept found
  have apart : sha.kindOf address ≠ some .wallet := by
    rw [found]
    exact fun same => sweptKinds_apart swept (Option.some.inj same)
  have deleted (plain : kind ≠ .dealOrder) (unpaid : kind ≠ .fee) :
      balanceOf sha after.state owner =
        balanceOf sha memory.state owner + refundOf owner (kind, address, protobuf) := by
    obtain rfl := (settle_ok live plain unpaid).mp ran
    rw [balanceOf_erase_apart apart, refundOf, if_neg fun due => plain due.1, Int.add_zero]
  cases kind with
  | dealOrder =>
    obtain ⟨balance, fee, covers, read, rfl⟩ := (settle_deal_ok live).mp ran
    have whole := covers.balanceOf
    rw [balanceOf_erase_apart apart, Store.setAll_cons, Store.setAll_nil, walletEntry_fst,
      balanceOf_walletEntry, refundOf, read.amountOf]
    by_cases same : (DealOrder.parseFromString protobuf).sighash = owner
    · rw [if_pos same, if_pos ⟨rfl, same⟩, ← same, whole]
    · rw [if_neg same, if_neg fun due => same due.2, Int.add_zero]
  | fee =>
    obtain ⟨balance, covers, rfl⟩ := (settle_fee_ok live).mp ran
    have line : sha.kindOf (walletEntry sha memory.state (Fee.parseFromString protobuf).sighash
        (balance + txFee)).2 ≠ some .wallet := by
      rw [sha.kindOf_line (walletEntry_head _ _)]
      exact fun same => nomatch same
    have unpaid : refundOf owner (.fee, address, protobuf) = 0 := by
      rw [refundOf, if_neg]
      exact fun due => nomatch due.1
    rw [balanceOf_erase_apart apart, balanceOf_set_apart line, unpaid, Int.add_zero]
  | _ => exact deleted (by decide) (by decide)

/-- The listings refund the due deal orders and leave all other balances. -/
theorem sweep_balance (serves : chain.Serves env) (settled : blockIdx < env.head - confirmationCount)
    (ran : sweep sha blockIdx env memory = .ok ((), after)) :
    balanceOf sha after.state owner =
      balanceOf sha memory.state owner + env.refundsOf sha blockIdx owner := by
  replace ran := ((sweep_ok serves.live settled).mp ran).2
  have due (record : Kind × Text × Text) (member : record ∈ dueRecords sha env blockIdx) :
      record.1 ∈ sweptKinds ∧ sha.kindOf record.2.1 = some record.1 :=
    ⟨(mem_dueRecords.mp member).1, (serves.due member).1⟩
  unfold Env.refundsOf
  generalize dueRecords sha env blockIdx = records at ran due
  induction records generalizing memory with
  | nil =>
    obtain rfl := Exec.forEach_nil_ok.mp ran
    exact (Int.add_zero _).symm
  | cons record records ih =>
    obtain ⟨middle, first, rest⟩ := Exec.forEach_cons_ok.mp ran
    obtain ⟨swept, found⟩ := due record List.mem_cons_self
    rw [ih rest fun other member => due other (List.mem_cons_of_mem _ member),
      settle_balance serves.live swept found first, List.map_cons, List.sum_cons, Int.add_assoc]

/-- The marker is no wallet. -/
theorem balanceOf_marked {state : State} (height : Int) :
    balanceOf sha (state.set sha.processedBlockIdx (toText height)) owner =
      balanceOf sha state owner := by
  apply balanceOf_set_apart
  rw [sha.kindOf_processedBlockIdx]
  exact fun same => nomatch same

/-- A balance after a `Housekeeping` is the balance before with the refunds and the awards. -/
theorem Housekept.balance (serves : chain.Serves env)
    (path : Housekept sha env blockIdx last memory blocks after) :
    balanceOf sha after.state owner = balanceOf sha memory.state owner +
      env.paidBack sha last blockIdx owner +
      env.creditsOf sha (env.formula last) blocks owner := by
  have none : env.creditsOf sha (env.formula last) [] owner = 0 := rfl
  have kept (stopped : ¬ env.Passes last blockIdx) : env.paidBack sha last blockIdx owner = 0 :=
    if_neg stopped
  cases path with
  | idle periodic early =>
    rw [kept fun passes => passes.1 periodic, none, Int.add_zero, Int.add_zero]
  | rewarded periodic late formula fetched ran =>
    rename_i newFormula later
    have same : env.formula last = newFormula := by rw [Env.formula, formula]
    rw [kept fun passes => passes.1 periodic, balanceOf_marked, awards_balance serves.live ran, same,
      Int.add_zero]
  | ignored explicit verified outside =>
    have stopped : ¬ env.Passes last blockIdx := by
      rintro ⟨_, high, above, below⟩
      omega
    rw [kept stopped, none, Int.add_zero, Int.add_zero]
  | settled explicit verified inside settled sweeps formula fetched ran =>
    rename_i newFormula swept later
    have same : env.formula last = newFormula := by rw [Env.formula, formula]
    have passes : env.Passes last blockIdx := ⟨explicit, by omega, by omega, settled⟩
    have refunded : env.paidBack sha last blockIdx owner = env.refundsOf sha blockIdx owner :=
      if_pos passes
    rw [balanceOf_marked, awards_balance serves.live ran, sweep_balance serves settled sweeps, same,
      refunded]

end Settlements

end Creditcoin
