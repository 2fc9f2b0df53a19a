import Creditcoin.Locks

/-!
# Consent to a sale

The investor consents to a repayment order by completing it, which names the investor in the
order and locks the deal. `CloseRepaymentOrder` looks at the lock only. Runs that close only
repayment orders that were accepted and not closed before sell a loan only by the order its
investor accepted, under the lock set for that order.
-/

namespace Creditcoin

open Lib

/-- A repayment order that was accepted and not closed. -/
structure RepaymentOrder.Open (order : RepaymentOrder) : Prop where
  /-- Somebody accepted the order. -/
  accepted : order.previousOwner ≠ []
  /-- The order has no transfer. -/
  unpaid : order.transfer = []

/-- A step closes only open repayment orders for deal orders. -/
def ClosesOpen (sha : Sha512) (taken : ChainStep) : Prop :=
  ∀ env signer repaymentOrderId transferId,
    Succeeds sha taken env signer (.closeRepaymentOrder repaymentOrderId transferId) →
    let order := repaymentAt taken.before.context repaymentOrderId
    order.Open ∧ sha.kindOf order.deal = some .dealOrder

/-- An investor accepted a repayment order in a history and holds the lock of the deal since. -/
def AcceptedIn (sha : Sha512) (steps : List ChainStep) (repaymentOrderId dealOrderId : Text)
    (investor : Text) : Prop :=
  ∃ first accept later, steps = first ++ accept :: later ∧
    (∃ env, Succeeds sha accept env investor (.completeRepaymentOrder repaymentOrderId)) ∧
    (repaymentAt accept.before.context repaymentOrderId).deal = dealOrderId ∧
    ∀ other ∈ accept :: later, (dealAt other.after.context dealOrderId).lock = investor

/-- The deal of every open repayment order is locked for that order only. -/
structure LockedForOpen (sha : Sha512) (steps : List ChainStep) (state : State) : Prop where
  /-- The lock is the one set when the order was accepted. -/
  accepted : ∀ key, sha.kindOf key = some .repaymentOrder → (repaymentAt state key).Open →
    sha.kindOf (repaymentAt state key).deal = some .dealOrder →
    (dealAt state (repaymentAt state key).deal).lock = (repaymentAt state key).previousOwner ∧
      AcceptedIn sha steps key (repaymentAt state key).deal (repaymentAt state key).previousOwner
  /-- A deal has one open order. -/
  unique : ∀ left right, sha.kindOf left = some .repaymentOrder →
    sha.kindOf right = some .repaymentOrder → (repaymentAt state left).Open →
    (repaymentAt state right).Open →
    (repaymentAt state left).deal = (repaymentAt state right).deal →
    sha.kindOf (repaymentAt state left).deal = some .dealOrder → left = right

/-- Whenever a loan is sold, its investor accepted that very repayment order, and the lock that
is released is the one set then. -/
def ConsentedSales (sha : Sha512) (steps : List ChainStep) : Prop :=
  ∀ earlier taken later, steps = earlier ++ taken :: later →
    ∀ env signer repaymentOrderId transferId,
    Succeeds sha taken env signer (.closeRepaymentOrder repaymentOrderId transferId) →
    let state := taken.before.context
    let order := repaymentAt state repaymentOrderId
    let investor := (addressAt state (dealAt state order.deal).srcAddress).sighash
    order.previousOwner ≠ [] ∧ order.previousOwner = investor ∧
      AcceptedIn sha earlier repaymentOrderId order.deal investor

section Consent

variable {sha : Sha512} {env : Env} {signer : Text} {state after : State} {command : Command}
  {key : Text} {tip : UInt64} {steps : List ChainStep} {chain : Chain}

/-- An open repayment order is present. -/
theorem RepaymentOrder.Open.present (isOpen : (repaymentAt state key).Open) :
    state.get key ≠ [] := by
  intro missing
  have accepted := isOpen.accepted
  rw [repaymentAt, missing] at accepted
  exact accepted rfl

/-- `CloseRepaymentOrder` leaves no open order. -/
theorem Executed.closes (around : Surroundings sha env signer state command)
    {repaymentOrderId transferId : Text}
    (executed : Executed sha env signer state
      (.closeRepaymentOrder repaymentOrderId transferId) after) :
    ¬ (repaymentAt after repaymentOrderId).Open := by
  have kept := around.kept
  have isId := around.isId
  intro isOpen
  have unpaid := isOpen.unpaid
  cases executed with
  | closeRepaymentOrder covers present owner transferPresent order amount registrant unprocessed
      dealPresent sourcePresent locked =>
    obtain ⟨transfer, payable⟩ := kept.consumed isId transferPresent order present registrant
    have repayment := kept.repayment_of_collector present payable (owner ▸ isId)
    have content : RepaymentContent sha _ (repaymentAt state _) := kept.content present repayment
    have apart {other : Text} (kind : sha.kindOf other ≠ some .repaymentOrder) :
        repaymentOrderId ≠ other := by
      rintro rfl
      exact kind repayment
    rw [repaymentAt, Store.setAll_cons, Store.get_setAll_of_notMem, Store.get_set_self,
      RepaymentOrder.parse_serialize] at unpaid
    · exact (kept.shape transferPresent).isKey.ne_nil unpaid
    · simp only [List.map_cons, List.map_nil, List.mem_cons, List.not_mem_nil, or_false,
        Env.feeEntry_fst, walletEntry_fst, not_or]
      exact ⟨content.other.symm, apart (by rw [transfer]; decide), apart (by simp),
        apart (by simp)⟩

/-- A repayment order that is open after a step was open before, for the same deal and by the
same owner, and the step did not close it; or the step accepted it. -/
theorem Executed.open_cases (around : Surroundings sha env signer state command)
    (executed : Executed sha env signer state command after)
    (found : sha.kindOf key = some .repaymentOrder) (isOpen : (repaymentAt after key).Open) :
    ((repaymentAt state key).Open ∧
        (repaymentAt after key).deal = (repaymentAt state key).deal ∧
        (repaymentAt after key).previousOwner = (repaymentAt state key).previousOwner ∧
        ∀ transferId, command ≠ .closeRepaymentOrder key transferId) ∨
      (command = .completeRepaymentOrder key ∧
        (repaymentAt after key).deal = (repaymentAt state key).deal ∧
        (repaymentAt after key).previousOwner = signer) := by
  have unclosed (transferId : Text) : command ≠ .closeRepaymentOrder key transferId := by
    rintro rfl
    exact executed.closes around isOpen
  rcases executed.repayment around found with same | change
  · have read : repaymentAt after key = repaymentAt state key := by
      rw [repaymentAt, same, repaymentAt]
    rw [read] at isOpen ⊢
    exact .inl ⟨isOpen, rfl, rfl, unclosed⟩
  obtain ⟨data, written, change⟩ : ∃ data, after.get key = data ∧
      RepaymentChange sha env signer state key command data := ⟨_, rfl, change⟩
  have read := congrArg RepaymentOrder.parseFromString written
  change repaymentAt after key = _ at read
  rw [read] at isOpen ⊢
  cases change with
  | created made =>
    rw [RepaymentOrder.parse_serialize] at isOpen
    exact absurd rfl isOpen.accepted
  | accepted =>
    rw [RepaymentOrder.parse_serialize]
    exact .inr ⟨rfl, rfl, rfl⟩
  | sold => exact absurd rfl (unclosed _)
  | mistaken there changed source =>
    rename_i deal
    have carried : deal.unknown = dealOrderSchema.unknown (state.get key) := by
      rw [changed]
      rfl
    rw [repayment_of_deal_write carried, changed] at isOpen ⊢
    exact .inl ⟨⟨isOpen.accepted, isOpen.unpaid⟩, rfl, rfl, unclosed⟩
  | expired listed due => exact absurd rfl isOpen.accepted

/-- The lock of a deal with a loan stays while an order for it is open and not closed. -/
theorem DealStep.lock_stays {deal next : DealOrder}
    (step : DealStep sha env signer state key command deal next)
    (loan : deal.loanTransfer ≠ []) (filled : deal.lock ≠ [])
    (unsold : ∀ repaymentOrderId transferId, (repaymentAt state repaymentOrderId).deal = key →
      sha.kindOf repaymentOrderId = some .repaymentOrder →
      command ≠ .closeRepaymentOrder repaymentOrderId transferId) :
    next.lock = deal.lock := by
  cases step with
  | completed pending => exact absurd pending loan
  | locked unlocked => exact absurd unlocked filled
  | closed => rfl
  | exempted => rfl
  | accepted unlocked => exact absurd unlocked filled
  | sold present found names => exact absurd rfl (unsold _ _ names found)

/-- A history continues with a step that keeps the lock. -/
theorem AcceptedIn.snoc {repaymentOrderId dealOrderId investor : Text} {taken : ChainStep}
    (accepted : AcceptedIn sha steps repaymentOrderId dealOrderId investor)
    (locked : (dealAt taken.after.context dealOrderId).lock = investor) :
    AcceptedIn sha (steps ++ [taken]) repaymentOrderId dealOrderId investor := by
  obtain ⟨first, accept, later, rfl, succeeds, names, held⟩ := accepted
  refine ⟨first, accept, later ++ [taken], by simp, succeeds, names, fun other listed => ?_⟩
  rw [← List.cons_append, List.mem_append, List.mem_singleton] at listed
  rcases listed with listed | rfl
  · exact held other listed
  · exact locked

/-- `CompleteRepaymentOrder` finds the deal unlocked and locks it. -/
theorem Executed.accepts {repaymentOrderId : Text}
    (executed : Executed sha env signer state (.completeRepaymentOrder repaymentOrderId) after)
    (found : sha.kindOf (repaymentAt state repaymentOrderId).deal = some .dealOrder) :
    (dealAt state (repaymentAt state repaymentOrderId).deal).lock = [] ∧
      (dealAt after (repaymentAt state repaymentOrderId).deal).lock = signer := by
  cases executed with
  | completeRepaymentOrder covers present targetPresent owner dealPresent unlocked =>
    refine ⟨unlocked, ?_⟩
    rw [dealAt, Store.setAll_cons, Store.setAll_cons, get_setAll_apart found (by simp),
      Store.get_set_self, DealOrder.parse_serialize]

/-- A step that closes only open orders keeps the lock of a deal with an open order, unless it
closes that order. -/
theorem Chain.Did.lock_stays {taken : ChainStep} (did : Chain.Did sha taken)
    (kept : taken.before.Kept sha) (named : NamesOffers sha taken)
    (once : HousekeepsOnce sha taken) (closes : ClosesOpen sha taken)
    (timely : taken.before.Timely sha) (loans : NamesLoans sha taken.before.context)
    (locked : LockedForOpen sha steps taken.before.context)
    (found : sha.kindOf key = some .repaymentOrder)
    (isOpen : (repaymentAt taken.before.context key).Open)
    (dealKind : sha.kindOf (repaymentAt taken.before.context key).deal = some .dealOrder)
    (unclosed : ∀ env signer transferId,
      ¬ Succeeds sha taken env signer (.closeRepaymentOrder key transferId)) :
    (dealAt taken.after.context (repaymentAt taken.before.context key).deal).lock =
      (repaymentAt taken.before.context key).previousOwner := by
  have held := (locked.accepted key found isOpen dealKind).1
  have loan := loans key found isOpen.present dealKind
  rcases did.loan_cases kept named once timely dealKind loan with
    same | ⟨_, env, signer, command, succeeds, step⟩
  · rw [dealAt, same]
    exact held
  · rw [← held]
    refine step.lock_stays loan (by rw [held]; exact isOpen.accepted) ?_
    rintro other transferId names otherFound rfl
    obtain ⟨otherOpen, _⟩ := closes env signer other transferId succeeds
    have equal := locked.unique other key otherFound found otherOpen isOpen names
      (by rw [names]; exact dealKind)
    subst equal
    exact unclosed env signer transferId succeeds

/-- A step that closes only open orders keeps every deal locked for its open order only. -/
theorem Chain.Did.lockedForOpen {taken : ChainStep} (did : Chain.Did sha taken)
    (kept : taken.before.Kept sha) (named : NamesOffers sha taken)
    (once : HousekeepsOnce sha taken) (closes : ClosesOpen sha taken)
    (timely : taken.before.Timely sha) (loans : NamesLoans sha taken.before.context)
    (locked : LockedForOpen sha steps taken.before.context) :
    LockedForOpen sha (steps ++ [taken]) taken.after.context := by
  have stays (key : Text) (found : sha.kindOf key = some .repaymentOrder)
      (isOpen : (repaymentAt taken.before.context key).Open)
      (dealKind : sha.kindOf (repaymentAt taken.before.context key).deal = some .dealOrder)
      (unclosed : ∀ env signer transferId,
        ¬ Succeeds sha taken env signer (.closeRepaymentOrder key transferId)) :=
    did.lock_stays kept named once closes timely loans locked found isOpen dealKind unclosed
  have idle (same : taken.after.context = taken.before.context) :
      LockedForOpen sha (steps ++ [taken]) taken.after.context := by
    refine ⟨fun key found isOpen dealKind => ?_, same ▸ locked.unique⟩
    rw [same] at isOpen dealKind ⊢
    obtain ⟨held, accepted⟩ := locked.accepted key found isOpen dealKind
    refine ⟨held, accepted.snoc ?_⟩
    rw [same]
    exact held
  cases did with
  | executed serves succeeds effect committed tip housekept =>
    rename_i env signer command
    have around := succeeds.around serves kept named
    -- an order that was open before keeps the lock, whatever the command
    have carried {key : Text} (found : sha.kindOf key = some .repaymentOrder)
        (isOpen : (repaymentAt taken.before.context key).Open)
        (dealKind : sha.kindOf (repaymentAt taken.before.context key).deal = some .dealOrder)
        (unclosed : ∀ transferId, command ≠ .closeRepaymentOrder key transferId) :
        (dealAt taken.after.context (repaymentAt taken.before.context key).deal).lock =
          (repaymentAt taken.before.context key).previousOwner := by
      refine stays key found isOpen dealKind fun other signer' transferId closed => ?_
      obtain ⟨_, _, same⟩ := succeeds.unique closed
      exact unclosed transferId same
    constructor
    · intro key found isOpen dealKind
      rcases effect.open_cases around found isOpen with
        ⟨earlier, sameDeal, sameOwner, unclosed⟩ | ⟨rfl, sameDeal, owner⟩
      · rw [sameDeal] at dealKind
        rw [sameDeal, sameOwner]
        have held := carried found earlier dealKind unclosed
        exact ⟨held, (locked.accepted key found earlier dealKind).2.snoc held⟩
      · rw [sameDeal] at dealKind
        rw [sameDeal, owner]
        have held := (effect.accepts dealKind).2
        refine ⟨held, steps, taken, [], rfl, ⟨env, succeeds⟩, rfl, fun other listed => ?_⟩
        rw [List.mem_singleton] at listed
        rw [listed]
        exact held
    · intro left right leftFound rightFound leftOpen rightOpen same dealKind
      have exclusive {accepted other : Text}
          (effect : Executed sha env signer taken.before.context
            (.completeRepaymentOrder accepted) taken.after.context)
          (otherFound : sha.kindOf other = some .repaymentOrder)
          (otherOpen : (repaymentAt taken.before.context other).Open)
          (names : (repaymentAt taken.before.context other).deal =
            (repaymentAt taken.before.context accepted).deal)
          (dealKind : sha.kindOf (repaymentAt taken.before.context accepted).deal =
            some .dealOrder) : False := by
        have unlocked := (effect.accepts dealKind).1
        rw [← names] at unlocked dealKind
        have held := (locked.accepted other otherFound otherOpen dealKind).1
        exact otherOpen.accepted (held.symm.trans unlocked)
      rcases effect.open_cases around leftFound leftOpen with
        ⟨leftEarlier, leftDeal, _⟩ | ⟨leftAccepted, leftDeal, _⟩
      · rcases effect.open_cases around rightFound rightOpen with
          ⟨rightEarlier, rightDeal, _⟩ | ⟨rfl, rightDeal, _⟩
        · rw [leftDeal, rightDeal] at same
          rw [leftDeal] at dealKind
          exact locked.unique left right leftFound rightFound leftEarlier rightEarlier same dealKind
        · rw [leftDeal, rightDeal] at same
          rw [leftDeal, same] at dealKind
          exact (exclusive effect leftFound leftEarlier same dealKind).elim
      · subst leftAccepted
        rcases effect.open_cases around rightFound rightOpen with
          ⟨rightEarlier, rightDeal, _⟩ | ⟨accepted, _, _⟩
        · rw [leftDeal, rightDeal] at same
          rw [leftDeal] at dealKind
          exact (exclusive effect rightFound rightEarlier same.symm dealKind).elim
        · exact (Command.completeRepaymentOrder.inj accepted)
  | rejected same => exact idle (by rw [same])
  | committed committed context housekept => exact idle context

/-- In a run that closes only open orders every deal is locked for its open order only. -/
theorem ChainRun.lockedForOpen (run : ChainRun sha tip steps chain)
    (guarded : ∀ taken ∈ steps,
      NamesOffers sha taken ∧ HousekeepsOnce sha taken ∧ ClosesOpen sha taken) :
    LockedForOpen sha steps chain.context := by
  refine run.history (fun steps chain => LockedForOpen sha steps chain.context) ?_ ?_ guarded
  · refine ⟨fun key _ isOpen => absurd rfl isOpen.accepted,
      fun left _ _ _ isOpen => absurd rfl isOpen.accepted⟩
  · rintro earlier taken reached before locked did ⟨named, once, closes⟩
    have offers := fun other listed => (before other listed).1
    exact did.lockedForOpen (reached.kept offers) named once closes (reached.timely offers)
      (reached.namesLoans fun other listed => ⟨offers other listed, (before other listed).2.1⟩)
      locked

/-- Runs that close only open repayment orders sell loans only by the orders their investors
accepted. -/
theorem sold_with_consent (run : ChainRun sha tip steps chain)
    (guarded : ∀ taken ∈ steps,
      NamesOffers sha taken ∧ HousekeepsOnce sha taken ∧ ClosesOpen sha taken) :
    ConsentedSales sha steps := by
  rintro earlier taken later rfl env signer repaymentOrderId transferId succeeds
  obtain ⟨reached, step, _⟩ := Run.split run
  have before : ∀ other ∈ earlier,
      NamesOffers sha other ∧ HousekeepsOnce sha other ∧ ClosesOpen sha other :=
    fun other listed => guarded other (List.mem_append_left _ listed)
  obtain ⟨_, _, closes⟩ := guarded taken (by simp)
  obtain ⟨isOpen, dealKind⟩ := closes _ _ _ _ succeeds
  have locked := ChainRun.lockedForOpen reached before
  have shapes := ChainRun.kept reached fun other listed => (before other listed).1
  obtain ⟨serves, executed⟩ := succeeds.executed step
  generalize taken.after.context = after at executed
  cases executed with
  | closeRepaymentOrder covers present owner transferPresent order amount registrant unprocessed
      dealPresent sourcePresent held =>
    have payable := (shapes.context.consumed (sighash_isId serves.live succeeds.signed)
      transferPresent order present registrant).2
    have found := shapes.context.repayment_of_collector present payable
      (owner ▸ sighash_isId serves.live succeeds.signed)
    obtain ⟨lock, accepted⟩ := locked.accepted _ found isOpen dealKind
    have same := lock.symm.trans held
    refine ⟨isOpen.accepted, same, ?_⟩
    rw [← same]
    exact accepted

end Consent

/-! ## Sales with and without consent -/

/-- The sample loan is sold with the consent of its investor. -/
theorem sold_with_consent_sample :
    ConsentedSales sample ((Chain.empty 2).steps sample sampleNode loanSold) := by
  refine sold_with_consent Chain.steps_run fun taken listed => ?_
  obtain ⟨named, once, passes⟩ := Chain.checks_ordinary loanSold_run.1 taken listed
  refine ⟨named, once, fun env signer repaymentOrderId transferId succeeds => ?_⟩
  have open' := (Bool.and_eq_true_iff.mp (passes _ _ _ succeeds)).2
  simp only [Command.closesOpen, Bool.and_eq_true, Bool.not_eq_true', List.isEmpty_eq_false_iff,
    List.isEmpty_iff, decide_eq_true_eq] at open'
  exact ⟨⟨open'.1.1, open'.1.2⟩, open'.2⟩

/-- The sample loan with two repayment orders, of which the investor accepts the first and the
collector pays the second. -/
def twiceOrdered : List Turn :=
  loanPaid ++ [purchase "13" "500", purchase "14" "400",
    request investorKey "15" "CompleteRepaymentOrder" (sampleRepayment "13") [],
    transfer collectorKey "16" "0" (sampleRepayment "14") "2"]

/-- The collector closes the second order. -/
def closesSecond : Turn :=
  request collectorKey "17" "CloseRepaymentOrder" (sampleRepayment "14") (sampleTransfer "2")

/-- A loan can be sold by an order that its investor did not accept. -/
theorem sold_without_consent :
    ¬ ∀ (sha : Sha512) (tip : UInt64) (steps : List ChainStep) (chain : Chain),
      ChainRun sha tip steps chain → ConsentedSales sha steps := by
  intro claim
  have sold : ((Chain.empty 2).plays sample sampleNode twiceOrdered).accepts sample sampleNode
          closesSecond =
        some (sample.id collectorKey,
          .closeRepaymentOrder (sampleRepayment "14") (sampleTransfer "2")) ∧
      (repaymentAt ((Chain.empty 2).plays sample sampleNode twiceOrdered).context
        (sampleRepayment "14")).previousOwner = [] := by
    decide +kernel
  have run : ChainRun sample 2
      ((Chain.empty 2).steps sample sampleNode (twiceOrdered ++ [closesSecond])) _ :=
    Chain.steps_run
  exact (claim _ _ _ _ run _ _ [] Chain.steps_append _ _ _ _
    (Chain.accepts_succeeds sold.1)).1 sold.2

end Creditcoin
