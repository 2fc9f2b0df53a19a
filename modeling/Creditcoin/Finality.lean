import Creditcoin.Script

/-!
# Well-formed and closed deals

A deal order is well formed when a lock or a repayment comes with a loan, and closed when it
has both a loan and a repayment. `Exempt` does not ask for the loan, and the commands that lock
a deal or hand it over do not ask whether it is closed. Runs that keep to these conditions have
only well-formed deals, and their closed deals never change.
-/

namespace Creditcoin

open Lib

/-- The loan was paid out and settled. -/
def DealOrder.Closed (deal : DealOrder) : Prop :=
  deal.loanTransfer ≠ [] ∧ deal.repaymentTransfer ≠ []

/-- A lock or a repayment comes with a loan. -/
def DealOrder.WellFormed (deal : DealOrder) : Prop :=
  deal.repaymentTransfer ≠ [] ∨ deal.lock ≠ [] → deal.loanTransfer ≠ []

/-- The deal a command locks or hands over. -/
def Command.relocks (state : State) : Command → Option Text
  | .lockDealOrder dealOrderId => some dealOrderId
  | .completeRepaymentOrder repaymentOrderId => some (repaymentAt state repaymentOrderId).deal
  | .closeRepaymentOrder repaymentOrderId _ => some (repaymentAt state repaymentOrderId).deal
  | _ => none

/-- A step locks or hands over no closed deal. -/
def SparesClosed (sha : Sha512) (taken : ChainStep) : Prop :=
  ∀ env signer command dealOrderId, Succeeds sha taken env signer command →
    command.relocks taken.before.context = some dealOrderId →
    ¬ (dealAt taken.before.context dealOrderId).Closed

/-- A step exempts only deals with a loan. -/
def ExemptsActive (sha : Sha512) (taken : ChainStep) : Prop :=
  ∀ env signer dealOrderId transferId,
    Succeeds sha taken env signer (.exempt dealOrderId transferId) →
    (dealAt taken.before.context dealOrderId).loanTransfer ≠ []

/-- Every deal order of a run is well formed; no deal order with a repayment is deleted, completed
or due later. -/
structure WellFormedDeals (sha : Sha512) (steps : List ChainStep) (chain : Chain) : Prop where
  /-- A lock or a repayment comes with a loan. -/
  formed : ∀ key, sha.kindOf key = some .dealOrder → (dealAt chain.context key).WellFormed
  /-- A deal order with a repayment stays and is neither completed nor refunded. -/
  repaid : ∀ taken ∈ steps, ∀ key, sha.kindOf key = some .dealOrder →
    (dealAt taken.before.context key).repaymentTransfer ≠ [] →
    taken.after.context.get key ≠ [] ∧
      (∀ env signer transferId,
        ¬ Succeeds sha taken env signer (.completeDealOrder key transferId)) ∧
      ∀ env signer blockIdx value,
        Succeeds sha taken env signer (.housekeeping blockIdx) →
        Listed env (sha.space .dealOrder) key value → ¬ Due env blockIdx value .dealOrder

section Finality

variable {sha : Sha512} {env : Env} {signer : Text} {state after : State} {command : Command}
  {key : Text} {tip : UInt64} {steps earlier later : List ChainStep} {middle chain : Chain}

/-! ## Closed deals -/

/-- The steps a closed deal may still take are those that lock it or hand it over. -/
theorem DealStep.relocks {deal next : DealOrder} (closed : deal.Closed)
    (step : DealStep sha env signer state key command deal next) :
    command.relocks state = some key := by
  cases step with
  | completed pending => exact absurd pending closed.1
  | locked => rfl
  | closed unclosed => exact absurd unclosed closed.2
  | exempted unclosed => exact absurd unclosed closed.2
  | accepted unlocked present found names => exact congrArg some names
  | sold present found names => exact congrArg some names

/-- Pending deals stay in time in a run. -/
theorem ChainRun.timely (run : ChainRun sha tip steps chain)
    (named : ∀ taken ∈ steps, NamesOffers sha taken) : chain.Timely sha := by
  refine run.keptInvariant (Chain.Timely sha) ?_
    (fun _ kept timely did named _ => did.timely kept named timely)
    (fun taken listed => ⟨named taken listed, trivial⟩)
  intro _ key _ present
  exact absurd rfl present

/-- A closed deal never changes again and is never deleted, however the chain goes on, when no
command locks it or hands it over. -/
theorem closed_final (start : ChainRun sha tip earlier middle)
    (run : Run (Chain.Step sha) middle later chain)
    (guarded : ∀ taken ∈ earlier ++ later,
      NamesOffers sha taken ∧ HousekeepsOnce sha taken ∧ SparesClosed sha taken)
    (found : sha.kindOf key = some .dealOrder)
    (closed : (dealAt middle.context key).Closed) :
    chain.context.get key = middle.context.get key := by
  induction run with
  | nil => rfl
  | snoc run next ih =>
    rename_i steps before label after
    have reached : ChainRun sha tip (earlier ++ steps) before := start.append run
    have prefix' : ∀ taken ∈ earlier ++ steps, NamesOffers sha taken ∧
        HousekeepsOnce sha taken ∧ SparesClosed sha taken := by
      intro taken listed
      apply guarded
      rw [← List.append_assoc]
      exact List.mem_append_left _ listed
    obtain ⟨named, once, spares⟩ := guarded ⟨before, label, after⟩ (by simp)
    have same := ih prefix'
    have still : (dealAt before.context key).Closed := by
      rw [dealAt, same]
      exact closed
    have shapes := reached.kept fun taken listed => (prefix' taken listed).1
    have timely := reached.timely fun taken listed => (prefix' taken listed).1
    rcases next.did.loan_cases shapes named once timely found still.1 with
      kept | ⟨_, env, signer, command, succeeds, step⟩
    · exact kept.trans same
    · exact absurd still (spares env signer command key succeeds (step.relocks still))

/-! ## Well-formed deals -/

/-- The deal order a repayment order names has a loan. -/
def NamesLoans (sha : Sha512) (state : State) : Prop :=
  ∀ key, sha.kindOf key = some .repaymentOrder → state.get key ≠ [] →
    sha.kindOf (repaymentAt state key).deal = some .dealOrder →
    (dealAt state (repaymentAt state key).deal).loanTransfer ≠ []

/-- A missing deal order is well formed. -/
theorem wellFormed_of_missing (missing : state.get key = []) : (dealAt state key).WellFormed := by
  rw [dealAt, missing]
  rintro (filled | filled)
  · exact absurd rfl filled
  · exact absurd rfl filled

/-- A step in the life of a deal keeps it well formed. -/
theorem DealStep.wellFormed {deal next : DealOrder}
    (step : DealStep sha env signer state key command deal next) (isId : sha.IsId signer)
    (formed : deal.WellFormed)
    (ordered : ∀ repaymentOrderId, state.get repaymentOrderId ≠ [] →
      sha.kindOf repaymentOrderId = some .repaymentOrder →
      (repaymentAt state repaymentOrderId).deal = key → deal.loanTransfer ≠ [])
    (active : ∀ transferId, command = .exempt key transferId → deal.loanTransfer ≠ []) :
    next.WellFormed := by
  cases step with
  | completed pending paid unexpired => exact fun _ => paid
  | locked unlocked active owner => exact fun _ => active
  | closed unclosed paid owner locked => exact fun _ => formed (.inr (locked ▸ isId.ne_nil))
  | exempted unclosed paid investor => exact fun _ => active _ rfl
  | accepted unlocked present found names owner => exact fun _ => ordered _ present found names
  | sold present found names locked => exact fun _ => ordered _ present found names

/-- The loan of a deal stays. -/
theorem Chain.Did.loan_ne_nil {taken : ChainStep} (did : Chain.Did sha taken)
    (kept : taken.before.Kept sha) (named : NamesOffers sha taken)
    (once : HousekeepsOnce sha taken) (timely : taken.before.Timely sha)
    (found : sha.kindOf key = some .dealOrder)
    (loan : (dealAt taken.before.context key).loanTransfer ≠ []) :
    (dealAt taken.after.context key).loanTransfer ≠ [] := by
  rcases did.loan_cases kept named once timely found loan with same | ⟨_, _, _, _, _, step⟩
  · rw [dealAt, same]
    exact loan
  · rcases step.term.2.2 with ⟨same, _⟩ | ⟨pending, _⟩
    · rw [same]
      exact loan
    · exact absurd pending loan

/-- A repayment order after a step is new and names a deal with a loan, or was there and names
the same deal. -/
theorem Executed.repayment_deal (around : Surroundings sha env signer state command)
    (executed : Executed sha env signer state command after)
    (found : sha.kindOf key = some .repaymentOrder) (remains : after.get key ≠ []) :
    (state.get key ≠ [] ∧ (repaymentAt after key).deal = (repaymentAt state key).deal) ∨
      (dealAt state (repaymentAt after key).deal).loanTransfer ≠ [] := by
  rcases executed.repayment around found with same | change
  · left
    rw [repaymentAt, same]
    exact ⟨same ▸ remains, rfl⟩
  obtain ⟨data, written, change⟩ : ∃ data, after.get key = data ∧
      RepaymentChange sha env signer state key command data := ⟨_, rfl, change⟩
  have read := congrArg RepaymentOrder.parseFromString written
  change repaymentAt after key = _ at read
  cases change with
  | created made =>
    right
    rw [read, RepaymentOrder.parse_serialize]
    cases executed with
    | addRepaymentOrder covers amountRead fresh fundraiser completed => exact completed
  | accepted =>
    left
    cases executed with
    | completeRepaymentOrder covers present =>
      refine ⟨present, ?_⟩
      rw [read, RepaymentOrder.parse_serialize]
  | sold =>
    left
    cases executed with
    | closeRepaymentOrder covers present =>
      refine ⟨present, ?_⟩
      rw [read, RepaymentOrder.parse_serialize]
  | mistaken there changed source =>
    left
    refine ⟨there, ?_⟩
    rw [read, repayment_of_deal_write (by rw [changed]; rfl), changed]
    rfl
  | expired listed due => exact absurd written remains

/-- A step keeps that repayment orders name deals with a loan. -/
theorem Chain.Did.namesLoans {taken : ChainStep} (did : Chain.Did sha taken)
    (kept : taken.before.Kept sha) (named : NamesOffers sha taken)
    (once : HousekeepsOnce sha taken) (timely : taken.before.Timely sha)
    (loans : NamesLoans sha taken.before.context) : NamesLoans sha taken.after.context := by
  have stays (key : Text) (found : sha.kindOf key = some .dealOrder)
      (loan : (dealAt taken.before.context key).loanTransfer ≠ []) :
      (dealAt taken.after.context key).loanTransfer ≠ [] :=
    did.loan_ne_nil kept named once timely found loan
  cases did with
  | executed serves succeeds effect committed tip housekept =>
    intro key found present dealKind
    apply stays _ dealKind
    rcases effect.repayment_deal (succeeds.around serves kept named) found present with
      ⟨there, same⟩ | loan
    · rw [same] at dealKind ⊢
      exact loans key found there dealKind
    · exact loan
  | rejected same => exact same ▸ loans
  | committed committed context housekept => exact context ▸ loans

/-- In a run whose blocks have one explicit `Housekeeping`, repayment orders name deals with a
loan. -/
theorem ChainRun.namesLoans (run : ChainRun sha tip steps chain)
    (guarded : ∀ taken ∈ steps, NamesOffers sha taken ∧ HousekeepsOnce sha taken) :
    NamesLoans sha chain.context := by
  refine (run.keptInvariant (fun chain => chain.Timely sha ∧ NamesLoans sha chain.context) ?_ ?_
    guarded).2
  · exact ⟨fun _ key _ present => absurd rfl present, fun key _ present => absurd rfl present⟩
  · rintro taken kept ⟨timely, loans⟩ did named once
    exact ⟨did.timely kept named timely, did.namesLoans kept named once timely loans⟩

/-- A step keeps the deals well formed, when it exempts only deals with a loan. -/
theorem Chain.Did.wellFormed {taken : ChainStep} (did : Chain.Did sha taken)
    (kept : taken.before.Kept sha) (named : NamesOffers sha taken)
    (active : ExemptsActive sha taken) (loans : NamesLoans sha taken.before.context)
    (found : sha.kindOf key = some .dealOrder)
    (formed : (dealAt taken.before.context key).WellFormed) :
    (dealAt taken.after.context key).WellFormed := by
  cases did with
  | executed serves succeeds effect committed tip housekept =>
    have around := succeeds.around serves kept named
    rcases effect.deal_cases around found with
      same | ⟨_, _, _, _, _, _, read⟩ | ⟨present, _, step⟩ | ⟨gone, _⟩
    · rw [dealAt, same]
      exact formed
    · rw [read]
      rintro (filled | filled)
      · exact absurd rfl filled
      · exact absurd rfl filled
    · refine step.wellFormed around.isId formed ?_ ?_
      · rintro orderId there kind rfl
        exact loans orderId kind there found
      · rintro transferId rfl
        exact active _ _ _ _ succeeds
    · exact wellFormed_of_missing gone
  | rejected same => exact same ▸ formed
  | committed committed context housekept => exact context ▸ formed

/-- The deals are well formed in a run that exempts only deals with a loan. -/
theorem ChainRun.wellFormed (run : ChainRun sha tip steps chain)
    (guarded : ∀ taken ∈ steps,
      NamesOffers sha taken ∧ HousekeepsOnce sha taken ∧ ExemptsActive sha taken)
    (found : sha.kindOf key = some .dealOrder) : (dealAt chain.context key).WellFormed := by
  refine (run.keptInvariant (fun chain => chain.Timely sha ∧ NamesLoans sha chain.context ∧
    (dealAt chain.context key).WellFormed) ?_ ?_ guarded).2.2
  · exact ⟨fun _ key _ present => absurd rfl present, fun key _ present => absurd rfl present,
      wellFormed_of_missing rfl⟩
  · rintro taken kept ⟨timely, loans, formed⟩ did named ⟨once, active⟩
    exact ⟨did.timely kept named timely, did.namesLoans kept named once timely loans,
      did.wellFormed kept named active loans found formed⟩

/-- In a run that exempts only deals with a loan, deal orders are well formed. -/
theorem deals_wellFormed (run : ChainRun sha tip steps chain)
    (guarded : ∀ taken ∈ steps,
      NamesOffers sha taken ∧ HousekeepsOnce sha taken ∧ ExemptsActive sha taken) :
    WellFormedDeals sha steps chain := by
  refine ⟨fun key found => run.wellFormed guarded found, fun taken listed key found closed => ?_⟩
  obtain ⟨earlier, _, _, reached, before, step⟩ := run.split guarded listed
  obtain ⟨named, once, active⟩ := guarded taken listed
  have shapes := reached.kept fun taken listed => (before taken listed).1
  have timely := reached.timely fun taken listed => (before taken listed).1
  have loan := reached.wellFormed before found (.inl closed)
  refine ⟨?_, fun env signer transferId succeeds => ?_,
    fun env signer blockIdx value succeeds listed due => ?_⟩
  · rcases step.did.loan_cases shapes named once timely found loan with same | ⟨remains, _⟩
    · rw [same]
      exact present_of_loan loan
    · exact remains
  · have executed := (succeeds.executed step).2
    generalize taken.after.context = after at executed
    cases executed with
    | completeDealOrder present pending => exact loan pending
  · have serves := (succeeds.executed step).1
    have explicit : blockIdx ≠ 0 := by
      have positive := due.2.1.blockIdx_pos
      omega
    exact timely.not_due shapes serves (once _ _ _ succeeds explicit) loan listed due

end Finality

/-! ## Deals that are exempted -/

/-- Whether a command exempts only a deal with a loan. -/
def Command.exemptsActive (state : State) : Command → Bool
  | .exempt dealOrderId _ => !(dealAt state dealOrderId).loanTransfer.isEmpty
  | _ => true

/-- Whether a command locks or hands over no closed deal. -/
def Command.sparesClosed (state : State) (command : Command) : Bool :=
  match command.relocks state with
  | some dealOrderId => (dealAt state dealOrderId).loanTransfer.isEmpty ||
      (dealAt state dealOrderId).repaymentTransfer.isEmpty
  | none => true

/-- The sample loan with a second transfer of the investor, by which the fundraiser is exempted. -/
def loanExempted : List Turn :=
  loanPaid ++ [transfer investorKey "13" "0" sampleDeal "2",
    request investorKey "14" "Exempt" sampleDeal (sampleTransfer "2")]

/-- The chain that has the exempted sample loan. -/
def exemptedChain : Chain := (Chain.empty 2).plays sample sampleNode loanExempted

/-- The fundraiser registers another address. -/
def registersOther : Turn := register fundraiserKey "15" "0x1"

/-- The fundraiser locks the deal. -/
def locksClosed : Turn := request fundraiserKey "15" "LockDealOrder" sampleDeal []

/-- The sample deal, exempted before its loan is paid. -/
def dealExempted : List Turn :=
  dealMade ++ [request investorKey "12" "Exempt" sampleDeal (sampleTransfer "1")]

/-- The deal that is exempted before its loan is paid. -/
def exemptedDeal : DealOrder :=
  dealAt ((Chain.empty 2).plays sample sampleNode dealExempted).context sampleDeal

/-- The runs of both exemptions. The first exempts an active deal and spares a closed one, its deal
is closed, and a lock of the fundraiser changes it; the second leaves a repayment and no loan. -/
theorem exemptions_run :
    (Chain.empty 2).checks sample sampleNode (fun chain _ _ command =>
        command.ordinary sample chain &&
          (command.exemptsActive chain.context && command.sparesClosed chain.context))
        (loanExempted ++ [registersOther]) = true ∧
      ((dealAt exemptedChain.context sampleDeal).loanTransfer ≠ [] ∧
        (dealAt exemptedChain.context sampleDeal).repaymentTransfer ≠ []) ∧
      (exemptedChain.plays sample sampleNode [locksClosed]).context.get sampleDeal ≠
        exemptedChain.context.get sampleDeal ∧
      exemptedDeal.repaymentTransfer ≠ [] ∧ exemptedDeal.loanTransfer = [] := by
  decide +kernel

/-- The exempted sample loan is well formed. -/
theorem deals_wellFormed_sample :
    WellFormedDeals sample ((Chain.empty 2).steps sample sampleNode loanExempted)
      ((Chain.empty 2).plays sample sampleNode loanExempted) := by
  have checked := exemptions_run.1
  rw [Chain.checks_append, Bool.and_eq_true] at checked
  refine deals_wellFormed Chain.steps_run fun taken listed => ?_
  obtain ⟨named, once, passes⟩ := Chain.checks_ordinary checked.1 taken listed
  refine ⟨named, once, fun env signer dealOrderId transferId succeeds => ?_⟩
  have active := (Bool.and_eq_true_iff.mp (passes _ _ _ succeeds)).1
  simpa only [Command.exemptsActive, Bool.not_eq_true', List.isEmpty_eq_false_iff] using active

/-- A deal order can get a repayment without a loan. -/
theorem exempted_without_loan :
    ¬ ∀ (sha : Sha512) (tip : UInt64) (steps : List ChainStep) (chain : Chain),
      ChainRun sha tip steps chain → WellFormedDeals sha steps chain := by
  intro claim
  obtain ⟨-, -, -, repaid, unpaid⟩ := exemptions_run
  have run : ChainRun sample 2 _ ((Chain.empty 2).plays sample sampleNode dealExempted) :=
    Chain.steps_run
  have formed := (claim sample 2 _ _ run).formed sampleDeal (sample.kindOf_makeAddress .dealOrder _)
  exact formed (.inl repaid) unpaid

/-- The exempted sample loan stays as it is while the fundraiser registers another address. -/
theorem closed_final_sample :
    let middle := (Chain.empty 2).plays sample sampleNode loanExempted
    (middle.plays sample sampleNode [register fundraiserKey "15" "0x1"]).context.get sampleDeal =
      middle.context.get sampleDeal := by
  obtain ⟨checked, closed, -⟩ := exemptions_run
  refine closed_final Chain.steps_run Chain.steps_run (fun taken listed => ?_)
    (sample.kindOf_makeAddress .dealOrder _) closed
  rw [← Chain.steps_append] at listed
  obtain ⟨named, once, passes⟩ := Chain.checks_ordinary checked taken listed
  refine ⟨named, once, fun env signer command dealOrderId succeeds relocks both => ?_⟩
  have spares := (Bool.and_eq_true_iff.mp (passes _ _ _ succeeds)).2
  simp only [Command.sparesClosed, relocks, Bool.or_eq_true, List.isEmpty_iff] at spares
  exact spares.elim both.1 both.2

/-- A closed deal can be locked. -/
theorem closed_relocked :
    ¬ ∀ (sha : Sha512) (tip : UInt64) (earlier later : List ChainStep) (middle chain : Chain)
      (key : Text), ChainRun sha tip earlier middle → Run (Chain.Step sha) middle later chain →
      sha.kindOf key = some .dealOrder → (dealAt middle.context key).Closed →
      chain.context.get key = middle.context.get key := by
  intro claim
  obtain ⟨-, closed, relocked, -⟩ := exemptions_run
  exact relocked (claim sample 2 _ _ exemptedChain _ sampleDeal Chain.steps_run Chain.steps_run
    (sample.kindOf_makeAddress .dealOrder _) closed)

end Creditcoin
