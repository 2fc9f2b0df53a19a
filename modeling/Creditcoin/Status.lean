import Creditcoin.Changes

/-!
# The status of a deal

A deal order is pending until its loan is paid out, active until it is repaid or exempted, and
closed after that. `Housekeeping` decides what to delete by the records of the last committed
block, so a deal that changed in the block counts with its old record. A deal that is completed
in time cannot be due in the same block, which keeps completed deals safe as long as a block
has one explicit `Housekeeping`.
-/

namespace Creditcoin

open Lib

/-- The height below the block of a chain. -/
def Chain.head (chain : Chain) : Int := ((chain.tip - 1).toNat : Int)

/-- A block has one explicit `Housekeeping`. -/
def HousekeepsOnce (sha : Sha512) (taken : ChainStep) : Prop :=
  ∀ env signer blockIdx, Succeeds sha taken env signer (.housekeeping blockIdx) → blockIdx ≠ 0 →
    taken.before.housekept = false

/-- A deal order that was pending in the last block still is, with its term, unless its term
has not run out. -/
def Chain.Timely (sha : Sha512) (chain : Chain) : Prop :=
  chain.housekept = false → ∀ key, sha.kindOf key = some .dealOrder →
    chain.committed.get key ≠ [] → (dealAt chain.committed key).loanTransfer = [] →
      (chain.context.get key ≠ [] ∧ (dealAt chain.context key).loanTransfer = [] ∧
        (dealAt chain.context key).expiration = (dealAt chain.committed key).expiration ∧
        (dealAt chain.context key).block = (dealAt chain.committed key).block) ∨
      Unexpired (dealAt chain.committed key).expiration (dealAt chain.committed key).block
        chain.head

/-- One step in the life of a deal order: what its command checks, and the deal after it. -/
inductive DealStep (sha : Sha512) (env : Env) (signer : Text) (state : State) (key : Text) :
    Command → DealOrder → DealOrder → Prop
  /-- The investor completes a pending deal in time. -/
  | completed {deal : DealOrder} {transferId : Text} (pending : deal.loanTransfer = [])
      (paid : transferId ≠ []) (unexpired : Unexpired deal.expiration deal.block env.head) :
      DealStep sha env signer state key (.completeDealOrder key transferId) deal
        { deal with loanTransfer := transferId, block := toText env.head }
  /-- The fundraiser locks an active deal. -/
  | locked {deal : DealOrder} (unlocked : deal.lock = []) (active : deal.loanTransfer ≠ [])
      (owner : deal.sighash = signer) :
      DealStep sha env signer state key (.lockDealOrder key) deal { deal with lock := signer }
  /-- The fundraiser closes a deal under the fundraiser's lock. -/
  | closed {deal : DealOrder} {transferId : Text} (unclosed : deal.repaymentTransfer = [])
      (paid : transferId ≠ []) (owner : deal.sighash = signer) (locked : deal.lock = signer) :
      DealStep sha env signer state key (.closeDealOrder key transferId) deal
        { deal with repaymentTransfer := transferId }
  /-- The investor closes a deal. -/
  | exempted {deal : DealOrder} {transferId : Text} (unclosed : deal.repaymentTransfer = [])
      (paid : transferId ≠ []) (investor : (addressAt state deal.srcAddress).sighash = signer) :
      DealStep sha env signer state key (.exempt key transferId) deal
        { deal with repaymentTransfer := transferId }
  /-- The owner of the target of a repayment order accepts it. -/
  | accepted {deal : DealOrder} {repaymentOrderId : Text} (unlocked : deal.lock = [])
      (present : state.get repaymentOrderId ≠ [])
      (found : sha.kindOf repaymentOrderId = some .repaymentOrder)
      (names : (repaymentAt state repaymentOrderId).deal = key)
      (owner : (addressAt state (repaymentAt state repaymentOrderId).dstAddress).sighash =
        signer) :
      DealStep sha env signer state key (.completeRepaymentOrder repaymentOrderId) deal
        { deal with lock := signer }
  /-- The collector takes the deal over under the investor's lock. -/
  | sold {deal : DealOrder} {repaymentOrderId transferId : Text}
      (present : state.get repaymentOrderId ≠ [])
      (found : sha.kindOf repaymentOrderId = some .repaymentOrder)
      (names : (repaymentAt state repaymentOrderId).deal = key)
      (locked : deal.lock = (addressAt state deal.srcAddress).sighash) :
      DealStep sha env signer state key (.closeRepaymentOrder repaymentOrderId transferId) deal
        { deal with srcAddress := (repaymentAt state repaymentOrderId).srcAddress, lock := [] }

section Status

variable {sha : Sha512} {env : Env} {signer : Text} {state after : State} {command : Command}
  {key : Text}

/-- The height a command sees is the one below the block. -/
theorem Chain.Serves.head {chain : Chain} (serves : chain.Serves env) :
    env.head = chain.head := by
  rw [serves.live.head_eq, serves.tip]
  rfl

/-- A record with a fundraiser is present. -/
theorem present_of_fundraiser (owner : (dealAt state key).sighash ≠ []) : state.get key ≠ [] := by
  intro missing
  rw [dealAt, missing] at owner
  exact owner rfl

/-- The fundraiser of a deal order is an identifier. -/
theorem Kept.fundraiser (kept : Kept sha state) (found : sha.kindOf key = some .dealOrder)
    (present : state.get key ≠ []) : sha.IsId (dealAt state key).sighash := by
  have content : DealContent sha (dealAt state key) := kept.content present found
  exact content.owner

/-- A listed deal order is not empty. -/
theorem Env.ListsKept.deal_ne_nil (lists : env.ListsKept sha) {value : Text}
    (listed : Listed env (sha.space .dealOrder) key value) : value ≠ [] := by
  obtain ⟨found, shape⟩ := lists .dealOrder key value listed
  have content := shape.content
  rw [found] at content
  have content : DealContent sha (DealOrder.parseFromString value) := content
  rintro rfl
  exact content.owner.ne_nil rfl

/-- Nothing expires at height zero. -/
theorem Expired.blockIdx_pos {expiration : UInt64} {block : Text} {height : Int}
    (expired : Expired expiration block height) : 0 < height := by
  obtain ⟨start, read, elapsed⟩ := expired
  have nonneg := read.2
  have word : (0 : Int) ≤ expiration.toNat := Int.natCast_nonneg _
  omega

/-- An order cannot have expired at a height and be open at a later one. -/
theorem Expired.not_unexpired {expiration : UInt64} {block : Text} {height later : Int}
    (expired : Expired expiration block height) (after : height ≤ later) :
    ¬ Unexpired expiration block later := by
  rintro ⟨start, read, open'⟩
  obtain ⟨start', read', elapsed⟩ := expired
  have same := read'.1.symm.trans read.1
  rw [Option.some.injEq] at same
  subst same
  omega

/-- The life of a deal order: it is left, made, led one step further, or deleted when due. -/
theorem Executed.deal_cases (around : Surroundings sha env signer state command)
    (executed : Executed sha env signer state command after)
    (found : sha.kindOf key = some .dealOrder) :
    after.get key = state.get key ∨
      (state.get key = [] ∧ after.get key ≠ [] ∧ ∃ offerId expiration,
        command = .addDealOrder offerId expiration ∧ key = sha.makeAddress .dealOrder offerId ∧
        dealAt after key = madeDeal env signer state offerId expiration) ∨
      (state.get key ≠ [] ∧ after.get key ≠ [] ∧
        DealStep sha env signer state key command (dealAt state key) (dealAt after key)) ∨
      (after.get key = [] ∧ ∃ blockIdx value, command = .housekeeping blockIdx ∧
        Listed env (sha.space .dealOrder) key value ∧ Due env blockIdx value .dealOrder) := by
  rcases executed.deal around found with same | change
  · exact .inl same
  right
  have kept := around.kept
  have isId := around.isId
  -- a step that is read back as such leaves the record present
  have step {deal : DealOrder} (present : state.get key ≠ [])
      (written : after.get key = deal.serializeToString)
      (fundraiser : deal.sighash = (dealAt state key).sighash)
      (taken : DealStep sha env signer state key command (dealAt state key) deal) :
      state.get key ≠ [] ∧ after.get key ≠ [] ∧
        DealStep sha env signer state key command (dealAt state key) (dealAt after key) := by
    have read : dealAt after key = deal := by rw [dealAt, written, DealOrder.parse_serialize]
    have owner := (kept.fundraiser found present).ne_nil
    refine ⟨present, present_of_fundraiser ?_, read ▸ taken⟩
    rw [read, fundraiser]
    exact owner
  obtain ⟨data, written, change⟩ : ∃ data, after.get key = data ∧
      DealChange sha env signer state key command data := ⟨_, rfl, change⟩
  cases change with
  | created made =>
    cases executed with
    | addDealOrder fresh =>
      have read := congrArg DealOrder.parseFromString written
      rw [DealOrder.parse_serialize] at read
      refine .inl ⟨made ▸ fresh, present_of_fundraiser ?_, _, _, rfl, made, read⟩
      rw [dealAt, read]
      exact isId.ne_nil
  | completed =>
    cases executed with
    | completeDealOrder present pending sourcePresent owner unexpired transferPresent order =>
      exact .inr (.inl (step present written rfl
        (.completed pending (kept.shape transferPresent).isKey.ne_nil unexpired)))
  | locked =>
    cases executed with
    | lockDealOrder covers present unlocked completed owner =>
      exact .inr (.inl (step present written rfl (.locked unlocked completed owner)))
  | closed =>
    cases executed with
    | closeDealOrder covers present unclosed owner locked transferPresent =>
      exact .inr (.inl (step present written rfl
        (.closed unclosed (kept.shape transferPresent).isKey.ne_nil owner locked)))
  | exempted =>
    cases executed with
    | exempt covers present unclosed transferPresent order unprocessed sourcePresent owner =>
      exact .inr (.inl (step present written rfl
        (.exempted unclosed (kept.shape transferPresent).isKey.ne_nil owner)))
  | accepted names =>
    cases executed with
    | completeRepaymentOrder covers present targetPresent owner dealPresent unlocked =>
      have repayment := kept.repayment_of_deal present targetPresent dealPresent
      subst names
      exact .inr (.inl (step dealPresent written rfl
        (.accepted unlocked present repayment rfl owner)))
  | sold names =>
    cases executed with
    | closeRepaymentOrder covers present owner transferPresent order amount registrant unprocessed
        dealPresent sourcePresent locked =>
      have payable := (kept.consumed isId transferPresent order present registrant).2
      have repayment := kept.repayment_of_collector present payable (owner ▸ isId)
      subst names
      exact .inr (.inl (step dealPresent written rfl (.sold present repayment rfl locked)))
  | expired listed due => exact .inr (.inr ⟨written, _, _, rfl, listed, due⟩)

/-- A deal that is led on keeps its term and its fundraiser, and its loan unless it is completed
in time. -/
theorem DealStep.term {deal next : DealOrder}
    (step : DealStep sha env signer state key command deal next) :
    next.expiration = deal.expiration ∧ next.sighash = deal.sighash ∧
      (next.loanTransfer = deal.loanTransfer ∧ next.block = deal.block ∨
        deal.loanTransfer = [] ∧ Unexpired deal.expiration deal.block env.head) := by
  cases step with
  | completed pending paid unexpired => exact ⟨rfl, rfl, .inr ⟨pending, unexpired⟩⟩
  | locked => exact ⟨rfl, rfl, .inl ⟨rfl, rfl⟩⟩
  | closed => exact ⟨rfl, rfl, .inl ⟨rfl, rfl⟩⟩
  | exempted => exact ⟨rfl, rfl, .inl ⟨rfl, rfl⟩⟩
  | accepted => exact ⟨rfl, rfl, .inl ⟨rfl, rfl⟩⟩
  | sold => exact ⟨rfl, rfl, .inl ⟨rfl, rfl⟩⟩

/-- A step with one explicit `Housekeeping` in its block keeps pending deals in time. -/
theorem Chain.Did.timely {taken : ChainStep} (did : Chain.Did sha taken)
    (kept : taken.before.Kept sha) (named : NamesOffers sha taken)
    (timely : taken.before.Timely sha) : taken.after.Timely sha := by
  cases did with
  | executed serves succeeds effect committed tip housekept =>
    intro still key found present pending
    rw [housekept, Bool.or_eq_false_iff] at still
    obtain ⟨earlier, implicit⟩ := still
    rw [committed] at present pending ⊢
    have head : taken.after.head = taken.before.head := by rw [Chain.head, tip, Chain.head]
    rw [head]
    have around := succeeds.around serves kept named
    rcases timely earlier key found present pending with ⟨there, open', term, start⟩ | inTime
    · rcases effect.deal_cases around found with
        same | ⟨fresh, _⟩ | ⟨_, there', step⟩ | ⟨_, blockIdx, value, rfl, _, due⟩
      · left
        rw [dealAt, same]
        exact ⟨there, open', term, start⟩
      · exact absurd fresh there
      · obtain ⟨term', _, ⟨open'', start'⟩ | ⟨_, unexpired⟩⟩ := step.term
        · exact .inl ⟨there', open''.trans open', term'.trans term, start'.trans start⟩
        · rw [term, start, serves.head] at unexpired
          exact .inr unexpired
      · have positive := due.2.1.blockIdx_pos
        simp only [Command.isExplicitHousekeeping, ne_eq, decide_not, Bool.not_eq_false',
          decide_eq_true_eq] at implicit
        omega
    · exact .inr inTime
  | rejected same => exact same ▸ timely
  | committed committed context housekept =>
    intro _ key found present pending
    rw [committed] at present pending ⊢
    rw [context]
    exact .inl ⟨present, pending, rfl, rfl⟩

/-- A record with a loan is present. -/
theorem present_of_loan (loan : (dealAt state key).loanTransfer ≠ []) : state.get key ≠ [] := by
  intro missing
  rw [dealAt, missing] at loan
  exact loan rfl

/-- A deal order with a loan is not due. -/
theorem Chain.Timely.not_due {chain : Chain} {blockIdx : Int} {value : Text}
    (timely : chain.Timely sha) (kept : chain.Kept sha) (serves : chain.Serves env)
    (once : chain.housekept = false)
    (loan : (dealAt chain.context key).loanTransfer ≠ [])
    (listed : Listed env (sha.space .dealOrder) key value) :
    ¬ Due env blockIdx value .dealOrder := by
  rintro ⟨settled, expired, pending⟩
  have lists := serves.listsKept kept.committed
  have found := (lists _ _ _ listed).1
  have filled := lists.deal_ne_nil listed
  obtain ⟨_, rfl, _⟩ := serves.listed listed
  rcases timely once key found filled pending with ⟨_, open', _⟩ | inTime
  · exact loan open'
  · rw [serves.head] at settled
    refine expired.not_unexpired (Int.le_of_lt ?_) inTime
    have count : confirmationCount = 30 := rfl
    omega

/-- A step with one explicit `Housekeeping` in its block leaves a deal order with a loan, or
leads it on. -/
theorem Chain.Did.loan_cases {taken : ChainStep} (did : Chain.Did sha taken)
    (kept : taken.before.Kept sha) (named : NamesOffers sha taken)
    (once : HousekeepsOnce sha taken) (timely : taken.before.Timely sha)
    (found : sha.kindOf key = some .dealOrder)
    (loan : (dealAt taken.before.context key).loanTransfer ≠ []) :
    taken.after.context.get key = taken.before.context.get key ∨
      (taken.after.context.get key ≠ [] ∧ ∃ env signer command,
        Succeeds sha taken env signer command ∧
        DealStep sha env signer taken.before.context key command
          (dealAt taken.before.context key) (dealAt taken.after.context key)) := by
  cases did with
  | executed serves succeeds effect committed tip housekept =>
    have around := succeeds.around serves kept named
    rcases effect.deal_cases around found with
      same | ⟨fresh, _⟩ | ⟨_, there, step⟩ | ⟨_, blockIdx, value, rfl, listed, due⟩
    · exact .inl same
    · exact absurd fresh (present_of_loan loan)
    · exact .inr ⟨there, _, _, _, succeeds, step⟩
    · have explicit : blockIdx ≠ 0 := by
        have positive := due.2.1.blockIdx_pos
        omega
      exact absurd due (timely.not_due kept serves (once _ _ _ succeeds explicit) loan listed)
  | rejected same => exact .inl (by rw [same])
  | committed committed context housekept => exact .inl (by rw [context])

end Status

end Creditcoin
