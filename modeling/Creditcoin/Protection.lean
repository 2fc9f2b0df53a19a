import Creditcoin.Parties

/-!
# The fundraiser's lock

The terms of a deal never change. Once the fundraiser has locked the deal, nobody takes the lock
away: a sale asks for a lock of the investor, who is another party, and a deal with a loan does not
expire. So a repayment that is registered under the lock names the investor to the end. A repayment
that was registered before reaches the investor as long as the loan was not sold in between.
-/

namespace Creditcoin

open Lib

/-- A deal order that was in the last block is what it was, or in time, or gone for good. -/
structure Chain.Prompt (sha : Sha512) (steps : List ChainStep) (chain : Chain) : Prop where
  /-- A deal order of the last block was made by the run. -/
  dealt : ∀ key, sha.kindOf key = some .dealOrder → chain.committed.get key ≠ [] →
    ∃ offerId, Dealt sha steps offerId ∧ key = sha.makeAddress .dealOrder offerId
  /-- A deal order that was pending in the last block still is, unless its term has not run out. -/
  pending : ∀ key, sha.kindOf key = some .dealOrder → chain.committed.get key ≠ [] →
    (dealAt chain.committed key).loanTransfer = [] →
    chain.context.get key = [] ∨ (dealAt chain.context key).loanTransfer = [] ∧
        (dealAt chain.context key).expiration = (dealAt chain.committed key).expiration ∧
        (dealAt chain.context key).block = (dealAt chain.committed key).block ∨
      Unexpired (dealAt chain.committed key).expiration (dealAt chain.committed key).block
        chain.head

/-- A deal order is locked by its fundraiser. -/
structure Held (sha : Sha512) (state : State) (key : Text) : Prop where
  /-- The key is of a deal order. -/
  found : sha.kindOf key = some .dealOrder
  /-- The loan was paid out. -/
  active : (dealAt state key).loanTransfer ≠ []
  /-- The fundraiser holds the lock. -/
  locked : (dealAt state key).lock = (dealAt state key).sighash

/-- A deal order keeps its investor and its lock. -/
def SameHolders (state after : State) (key : Text) : Prop :=
  (dealAt after key).srcAddress = (dealAt state key).srcAddress ∧
    (dealAt after key).lock = (dealAt state key).lock

/-- What the terms and the lock of a deal order promise to the fundraiser. -/
structure FundraiserProtected (sha : Sha512) (steps : List ChainStep) (chain : Chain) : Prop where
  /-- The terms of a deal order stay until it is deleted. -/
  terms : ∀ taken ∈ steps, ∀ key, sha.kindOf key = some .dealOrder →
    taken.after.context.get key ≠ [] → chain.context.get key ≠ [] →
    (dealAt chain.context key).terms = (dealAt taken.after.context key).terms
  /-- A deal order that the fundraiser locked stays, with its lock and its investor. -/
  locked : ∀ taken ∈ steps, ∀ env signer key,
    Succeeds sha taken env signer (.lockDealOrder key) →
    chain.context.get key ≠ [] ∧ SameHolders taken.after.context chain.context key
  /-- A repayment that is registered under the lock names the investor. -/
  repayment : ∀ earlier taken later, steps = earlier ++ taken :: later →
    ∀ lock ∈ earlier, ∀ env signer env' signer' key gain blockchainTxId transferId,
    Succeeds sha lock env signer (.lockDealOrder key) →
    Succeeds sha taken env' signer' (.registerTransfer gain key blockchainTxId) → gain ≠ 0 →
    sha.kindOf transferId = some .transfer → taken.before.context.get transferId = [] →
    taken.after.context.get transferId ≠ [] →
    chain.context.get transferId ≠ [] ∧
      (transferAt chain.context transferId).dstAddress = (dealAt chain.context key).srcAddress

section Protection

variable {sha : Sha512} {env : Env} {signer : Text} {state after : State} {command : Command}
  {key transferId : Text} {tip : UInt64} {steps later : List ChainStep} {chain : Chain}
  {taken : ChainStep}

/-! ## Deals with a loan -/

/-- A command keeps that pending deals are in time. -/
theorem Executed.prompt (serves : chain.Serves env)
    (around : Surroundings sha env signer chain.context command)
    (executed : Executed sha env signer chain.context command after)
    (grows : Grows sha steps later env command) (apart : Apart sha steps chain.context)
    (prompt : chain.Prompt sha steps) {next : Chain} (committed : next.committed = chain.committed)
    (context : next.context = after) (tip : next.tip = chain.tip) : next.Prompt sha later := by
  have head : next.head = chain.head := by rw [Chain.head, tip, Chain.head]
  constructor
  · intro key found present
    rw [committed] at present
    obtain ⟨offerId, dealt, made⟩ := prompt.dealt key found present
    exact ⟨offerId, dealt.mono grows.within, made⟩
  · intro key found present pending
    rw [committed] at present pending ⊢
    rw [context, head]
    rcases prompt.pending key found present pending with gone | ⟨open', term, start⟩ | inTime
    · obtain ⟨offerId, dealt, made⟩ := prompt.dealt key found present
      exact .inl (executed.spent_gone around grows apart gone (.inr ⟨offerId, dealt, made⟩))
    · rcases executed.deal_cases around found with
        same | ⟨fresh, _⟩ | ⟨_, _, step⟩ | ⟨gone, _⟩
      · right
        left
        rw [dealAt, same]
        exact ⟨open', term, start⟩
      · obtain ⟨offerId, dealt, made⟩ := prompt.dealt key found present
        exact .inl (executed.spent_gone around grows apart fresh (.inr ⟨offerId, dealt, made⟩))
      · right
        obtain ⟨term', _, ⟨open'', start'⟩ | ⟨_, unexpired⟩⟩ := step.term
        · exact .inl ⟨open''.trans open', term'.trans term, start'.trans start⟩
        · rw [term, start, serves.head] at unexpired
          exact .inr unexpired
      · exact .inl gone
    · exact .inr (.inr inTime)

/-- A deal order with a loan is not due. -/
theorem Chain.Prompt.not_due {blockIdx : Int} {value : Text} (prompt : chain.Prompt sha steps)
    (kept : chain.Kept sha) (serves : chain.Serves env)
    (loan : (dealAt chain.context key).loanTransfer ≠ [])
    (listed : Listed env (sha.space .dealOrder) key value) :
    ¬ Due env blockIdx value .dealOrder := by
  rintro ⟨settled, expired, pending⟩
  have lists := serves.listsKept kept.committed
  have found := (lists _ _ _ listed).1
  have filled := lists.deal_ne_nil listed
  obtain ⟨_, rfl, _⟩ := serves.listed listed
  rcases prompt.pending key found filled pending with gone | ⟨open', _⟩ | inTime
  · exact present_of_loan loan gone
  · exact loan open'
  · rw [serves.head] at settled
    refine expired.not_unexpired (Int.le_of_lt ?_) inTime
    have count : confirmationCount = 30 := rfl
    omega

/-- A command leaves a held deal order held, with its investor and its lock. -/
theorem Executed.held (serves : chain.Serves env) (kept : chain.Kept sha)
    (around : Surroundings sha env signer chain.context command)
    (executed : Executed sha env signer chain.context command after)
    (prompt : chain.Prompt sha steps) (differ : PartiesDiffer sha chain.context)
    (held : Held sha chain.context key) :
    Held sha after key ∧ SameHolders chain.context after key := by
  have present := present_of_loan held.active
  have owner := (kept.context.fundraiser held.found present).ne_nil
  rcases executed.deal_cases around held.found with
    same | ⟨fresh, _⟩ | ⟨_, _, step⟩ | ⟨_, blockIdx, value, rfl, listed, due⟩
  · have read : dealAt after key = dealAt chain.context key := by rw [dealAt, same, dealAt]
    refine ⟨⟨held.found, ?_, ?_⟩, ?_⟩
    · exact read ▸ held.active
    · exact read ▸ held.locked
    · exact ⟨congrArg _ read, congrArg _ read⟩
  · exact absurd fresh present
  · have active := held.active
    have locked := held.locked
    have apart := differ key held.found present
    have result (next : DealOrder) (read : dealAt after key = next)
        (loan : next.loanTransfer ≠ [])
        (source : next.srcAddress = (dealAt chain.context key).srcAddress)
        (lock : next.lock = (dealAt chain.context key).lock)
        (fundraiser : next.sighash = (dealAt chain.context key).sighash) :
        Held sha after key ∧ SameHolders chain.context after key := by
      subst read
      exact ⟨⟨held.found, loan, lock.trans (locked.trans fundraiser.symm)⟩, source, lock⟩
    generalize read : dealAt after key = next at step
    cases step with
    | completed pending => exact absurd pending active
    | locked unlocked => exact absurd (locked.symm.trans unlocked) owner
    | closed => exact result _ read active rfl rfl rfl
    | exempted => exact result _ read active rfl rfl rfl
    | accepted unlocked => exact absurd (locked.symm.trans unlocked) owner
    | sold orderPresent orderFound names investor =>
      exact absurd (investor.symm.trans locked) apart
  · exact absurd due (prompt.not_due kept serves held.active listed)

/-- A fundraiser who locks a deal order holds it. -/
theorem Executed.holds (around : Surroundings sha env signer state (.lockDealOrder key))
    (executed : Executed sha env signer state (.lockDealOrder key) after) :
    Held sha after key := by
  cases executed with
  | lockDealOrder covers present unlocked completed owner =>
    have found := around.kept.deal_of_owner present (owner ▸ around.isId.ne_nil)
    have read (data : Text) (values : List (Text × Text))
        (apart : ∀ entry ∈ values, sha.kindOf entry.1 ≠ some .dealOrder) :
        dealAt (state.setAll ((key, data) :: values)) key = DealOrder.parseFromString data := by
      have written : (state.setAll ((key, data) :: values)).get key = data :=
        (get_setAll_at [] found (by simp) apart).trans (if_pos rfl)
      rw [dealAt, written]
    constructor
    · exact found
    · rw [read, DealOrder.parse_serialize]
      · exact completed
      · simp
    · rw [read, DealOrder.parse_serialize]
      · exact owner.symm
      · simp

/-- A transfer that is registered for a deal order with a gain names the investor. -/
theorem Executed.repays {gain : Int} {orderId blockchainTxId : Text}
    (around : Surroundings sha env signer state (.registerTransfer gain orderId blockchainTxId))
    (executed : Executed sha env signer state (.registerTransfer gain orderId blockchainTxId) after)
    (gained : gain ≠ 0) (deal : sha.kindOf orderId = some .dealOrder)
    (found : sha.kindOf transferId = some .transfer) (fresh : state.get transferId = [])
    (registered : after.get transferId ≠ []) :
    (transferAt after transferId).dstAddress = (dealAt state orderId).srcAddress := by
  rcases executed.transfer around found with same | change
  · exact absurd (same.trans fresh) registered
  · obtain ⟨data, written, change⟩ : ∃ data, after.get transferId = data ∧
        TransferChange sha env signer state transferId
          (.registerTransfer gain orderId blockchainTxId) data := ⟨_, rfl, change⟩
    have read := congrArg Transfer.parseFromString written
    change transferAt after transferId = _ at read
    rw [read]
    cases change with
    | registered _ order pays made =>
      rw [Transfer.parse_serialize]
      cases pays with
      | loan kind none => exact absurd none gained
      | repayment kind some => rfl
      | sale kind none =>
        rw [deal] at kind
        cases kind
    | consumed there => exact absurd fresh there

/-! ## Runs under the lock -/

/-- What a run under separate keys keeps of its deal orders. -/
structure Steady (sha : Sha512) (steps : List ChainStep) (chain : Chain) : Prop where
  /-- Pending deals are in time. -/
  prompt : chain.Prompt sha steps
  /-- Every deal order was made by the run. -/
  dealt : ∀ taken ∈ steps, ∀ key, sha.kindOf key = some .dealOrder →
    taken.after.context.get key ≠ [] →
    ∃ offerId, Dealt sha steps offerId ∧ key = sha.makeAddress .dealOrder offerId
  /-- A deal order that was locked is held. -/
  held : ∀ taken ∈ steps, ∀ env signer key,
    Succeeds sha taken env signer (.lockDealOrder key) → Held sha chain.context key
  /-- The fundraiser is protected. -/
  secure : FundraiserProtected sha steps chain

/-- The place of a step in a run that grew by a step. -/
theorem split_append {earlier : List ChainStep} {other : ChainStep}
    (split : steps ++ [taken] = earlier ++ other :: later) :
    (earlier = steps ∧ other = taken) ∨ ∃ rest, steps = earlier ++ other :: rest := by
  rcases List.eq_nil_or_concat later with rfl | ⟨rest, last, rfl⟩
  · obtain ⟨rfl, same⟩ := List.append_inj' split rfl
    exact .inl ⟨rfl, (List.singleton_inj.mp same).symm⟩
  · rw [List.concat_eq_append, ← List.cons_append, ← List.append_assoc] at split
    exact .inr ⟨rest, (List.append_inj' split rfl).1⟩

/-- A command keeps the promises to the fundraisers. -/
theorem Steady.executed (steady : Steady sha steps taken.before)
    (serves : taken.before.Serves env) (kept : taken.before.Kept sha)
    (succeeds : Succeeds sha taken env signer command)
    (around : Surroundings sha env signer taken.before.context command)
    (effect : Executed sha env signer taken.before.context command taken.after.context)
    (grows : Grows sha steps (steps ++ [taken]) env command)
    (apart : Apart sha steps taken.before.context)
    (last : Apart sha (steps ++ [taken]) taken.after.context)
    (committed : taken.after.committed = taken.before.committed)
    (tip : taken.after.tip = taken.before.tip) :
    Steady sha (steps ++ [taken]) taken.after := by
  have differ := apart.differ kept.context
  have holders (key : Text) (held : Held sha taken.before.context key) :=
    effect.held serves kept around steady.prompt differ held
  have shown {other : ChainStep} (listed : other ∈ steps ++ [taken]) :
      other ∈ steps ∨ other = taken :=
    (List.mem_append.mp listed).imp_right List.mem_singleton.mp
  refine ⟨effect.prompt serves around grows apart steady.prompt committed rfl tip, ?_, ?_,
    ?_, ?_, ?_⟩
  · intro other listed key found present
    rcases shown listed with before | rfl
    · obtain ⟨offerId, dealt, made⟩ := steady.dealt other before key found present
      exact ⟨offerId, dealt.mono grows.within, made⟩
    · exact (last.deal key found present).1
  · intro other listed env' signer' key locks
    rcases shown listed with before | rfl
    · exact (holders key (steady.held other before env' signer' key locks)).1
    · obtain ⟨rfl, rfl, rfl⟩ := locks.unique succeeds
      exact effect.holds around
  · intro other listed key found present remains
    rcases shown listed with before | rfl
    · obtain ⟨offerId, dealt, made⟩ := steady.dealt other before key found present
      obtain ⟨there, same⟩ := effect.deal_after around grows apart dealt made remains
      exact same.trans (steady.secure.terms other before key found present there)
    · rfl
  · intro other listed env' signer' key locks
    rcases shown listed with before | rfl
    · obtain ⟨source, lock⟩ := (steady.secure.locked other before env' signer' key locks).2
      obtain ⟨held, source', lock'⟩ := holders key (steady.held other before env' signer' key locks)
      exact ⟨present_of_loan held.active, source'.trans source, lock'.trans lock⟩
    · obtain ⟨rfl, rfl, rfl⟩ := locks.unique succeeds
      exact ⟨present_of_loan (effect.holds around).active, rfl, rfl⟩
  · intro earlier other rest split lock listed env' signer' env'' signer'' key gain blockchainTxId
      transferId locks registers gained found fresh registered
    rcases split_append split with ⟨rfl, rfl⟩ | ⟨rest', split'⟩
    · obtain ⟨rfl, rfl, rfl⟩ := registers.unique succeeds
      obtain ⟨held, source, _⟩ := holders key (steady.held lock listed env' signer' key locks)
      refine ⟨registered, ?_⟩
      rw [source]
      exact effect.repays around gained held.found found fresh registered
    · have before : lock ∈ steps := split' ▸ List.mem_append_left _ listed
      obtain ⟨_, source, _⟩ := holders key (steady.held lock before env' signer' key locks)
      obtain ⟨there, names⟩ := steady.secure.repayment earlier other rest' split' lock listed env'
        signer' env'' signer'' key gain blockchainTxId transferId locks registers gained found fresh
        registered
      rw [source, ← names]
      rcases effect.transfer_registered around found there with same | ⟨_, processed⟩
      · rw [transferAt, same]
        exact ⟨there, rfl⟩
      · rw [processed]
        refine ⟨present_of_processed ?_, rfl⟩
        rw [processed]

/-- Steps that do not succeed keep the promises to the fundraisers. -/
theorem Steady.idle (steady : Steady sha steps taken.before)
    (same : taken.after.context = taken.before.context)
    (prompt : taken.after.Prompt sha (steps ++ [taken]))
    (apart : Apart sha steps taken.before.context)
    (idle : ∀ env signer command, ¬ Succeeds sha taken env signer command) :
    Steady sha (steps ++ [taken]) taken.after := by
  have within : steps ⊆ steps ++ [taken] := List.subset_append_left steps [taken]
  have shown {other : ChainStep} (listed : other ∈ steps ++ [taken]) :
      other ∈ steps ∨ other = taken :=
    (List.mem_append.mp listed).imp_right List.mem_singleton.mp
  refine ⟨prompt, ?_, ?_, ?_, ?_, ?_⟩
  · intro other listed key found present
    rcases shown listed with before | rfl
    · obtain ⟨offerId, dealt, made⟩ := steady.dealt other before key found present
      exact ⟨offerId, dealt.mono within, made⟩
    · rw [same] at present
      obtain ⟨⟨offerId, dealt, made⟩, _⟩ := apart.deal key found present
      exact ⟨offerId, dealt.mono within, made⟩
  · intro other listed env' signer' key locks
    rcases shown listed with before | rfl
    · rw [same]
      exact steady.held other before env' signer' key locks
    · exact absurd locks (idle _ _ _)
  · intro other listed key found present remains
    rcases shown listed with before | rfl
    · rw [same] at remains ⊢
      exact steady.secure.terms other before key found present remains
    · rfl
  · intro other listed env' signer' key locks
    rcases shown listed with before | rfl
    · rw [same]
      exact steady.secure.locked other before env' signer' key locks
    · exact absurd locks (idle _ _ _)
  · intro earlier other rest split lock listed env' signer' env'' signer'' key gain blockchainTxId
      transferId locks registers gained found fresh registered
    rcases split_append split with ⟨rfl, rfl⟩ | ⟨rest', split'⟩
    · exact absurd registers (idle _ _ _)
    · rw [same]
      exact steady.secure.repayment earlier other rest' split' lock listed env' signer' env''
        signer'' key gain blockchainTxId transferId locks registers gained found fresh registered

/-- A run without steps keeps the promises to the fundraisers. -/
theorem Steady.empty : Steady sha [] (Chain.empty tip) where
  prompt := ⟨fun _ _ present => absurd rfl present, fun _ _ present => absurd rfl present⟩
  dealt _ listed := absurd listed List.not_mem_nil
  held _ listed := absurd listed List.not_mem_nil
  secure := {
    terms := fun _ listed => absurd listed List.not_mem_nil
    locked := fun _ listed => absurd listed List.not_mem_nil
    repayment := fun earlier _ _ split => by
      cases earlier with
      | nil => cases split
      | cons => cases split }

/-- A run keeps the promises to the fundraisers. -/
theorem ChainRun.steady (run : ChainRun sha tip steps chain)
    (guarded : ∀ taken ∈ steps, NamesOffers sha taken ∧ NamesDeals sha taken)
    (separate : Separate sha steps) : Steady sha steps chain := by
  revert separate
  refine run.history (fun steps chain => Separate sha steps → Steady sha steps chain)
    (fun _ => Steady.empty) ?_ guarded
  intro earlier taken reached before holds did allowed separate
  have steady := holds separate.start
  have apart := reached.apart before separate.start
  have kept := reached.kept fun other listed => (before other listed).1
  have within : earlier ⊆ earlier ++ [taken] := List.subset_append_left earlier [taken]
  cases did with
  | executed serves succeeds effect committed tip housekept =>
    have around := succeeds.around serves kept allowed.1
    have grows := separate.grows succeeds serves.live
    refine steady.executed serves kept succeeds around effect grows apart ?_ committed tip
    refine effect.apart around grows ?_ apart
    rintro dealOrderId addressId amount expiration rfl
    exact allowed.2 _ _ _ _ _ _ succeeds
  | rejected same idle =>
    refine steady.idle (by rw [same]) ?_ apart idle
    rw [same]
    constructor
    · intro key found present
      obtain ⟨offerId, dealt, made⟩ := steady.prompt.dealt key found present
      exact ⟨offerId, dealt.mono within, made⟩
    · exact steady.prompt.pending
  | committed committed context housekept idle =>
    refine steady.idle context ?_ apart idle
    constructor
    · intro key found present
      rw [committed] at present
      obtain ⟨⟨offerId, dealt, made⟩, _⟩ := apart.deal key found present
      exact ⟨offerId, dealt.mono within, made⟩
    · intro key found present pending
      rw [committed] at present pending ⊢
      rw [context]
      exact .inr (.inl ⟨pending, rfl, rfl⟩)

/-- In a run with distinct nonces the terms of a deal order stay until it is deleted, and the lock
of its fundraiser protects it, when the deal orders are made of offers and the repayment orders are
placed for deals. -/
theorem fundraiser_protected (run : ChainRun sha tip steps chain) (separate : Separate sha steps)
    (guarded : ∀ taken ∈ steps, NamesOffers sha taken ∧ NamesDeals sha taken) :
    FundraiserProtected sha steps chain := (run.steady guarded separate).secure

end Protection

/-! ## The lock of the sample loan -/

/-- The fundraiser locks the sample loan and registers its repayment. -/
def loanLocked : List Turn :=
  loanPaid ++ [request fundraiserKey "13" "LockDealOrder" sampleDeal [],
    transfer fundraiserKey "14" "100" sampleDeal "2"]

/-- The fundraiser of the sample loan is protected. -/
theorem fundraiser_protected_sample :
    FundraiserProtected sample ((Chain.empty 2).steps sample sampleNode loanLocked)
      ((Chain.empty 2).plays sample sampleNode loanLocked) := by
  have checked : (Chain.empty 2).checks sample sampleNode
      (fun chain _ _ command => command.ordinary sample chain &&
        (command.namesDeal sample && true)) loanLocked = true :=
    Chain.checks_plain (by decide +kernel)
  have separate : Separate sample ((Chain.empty 2).steps sample sampleNode loanLocked) :=
    Chain.steps_separate (by decide +kernel)
  exact fundraiser_protected Chain.steps_run separate fun taken listed =>
    (Chain.checks_deals checked taken listed).1

/-- The lock of the fundraiser on the sample loan. -/
def lockTurn : Turn := request fundraiserKey "16" "LockDealOrder" sampleDeal []

/-- The fundraiser locks the sample loan, and the collector has its deal order deleted. -/
def lockedDeleted : List Turn := loanPaid ++ lockTurn :: deletes sampleDeal

/-- The chain before the fundraiser locks the sample loan. -/
def unlockedChain : Chain := (Chain.empty 1).plays sample sampleNode loanPaid

/-- The run of the deal order that is deleted: it is locked, and gone at the end. -/
theorem lockedDeleted_run :
    unlockedChain.accepts sample sampleNode lockTurn =
        some (sample.id fundraiserKey, .lockDealOrder sampleDeal) ∧
      ((Chain.empty 1).plays sample sampleNode lockedDeleted).context.get sampleDeal = [] ∧
      Turn.differ sample lockedDeleted = true := by
  decide +kernel

/-- A deal order can be deleted under the lock of its fundraiser. -/
theorem locked_deleted :
    ¬ ∀ (sha : Sha512) (tip : UInt64) (steps : List ChainStep) (chain : Chain),
      ChainRun sha tip steps chain → Separate sha steps → FundraiserProtected sha steps chain := by
  intro claim
  obtain ⟨locks, deleted, differ⟩ := lockedDeleted_run
  have separate : Separate sample ((Chain.empty 1).steps sample sampleNode lockedDeleted) :=
    Chain.steps_separate differ
  have listed : ⟨unlockedChain, unlockedChain.event sampleNode lockTurn,
      unlockedChain.play sample sampleNode lockTurn⟩ ∈
      (Chain.empty 1).steps sample sampleNode lockedDeleted := Chain.turn_mem
  have secure := claim sample 1 _ _ Chain.steps_run separate
  exact (secure.locked _ listed _ _ _ (Chain.accepts_succeeds locks)).1 deleted

end Creditcoin
