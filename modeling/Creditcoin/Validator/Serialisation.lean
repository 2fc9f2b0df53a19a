import Creditcoin.Validator.Scheduling
import Mathlib.Algebra.Order.Ring.GeomSum

/-!
# Parallel execution

In every run of the parallel scheduler the predecessors of a transaction are exactly what the order
of the batches asks for: directly only transactions that conflict with it, and through others all of
them. So as long as the results are valid, they may come in any order: the transactions end in the
state in which they end one after the other. And the scheduler is never stuck.
-/

namespace Creditcoin.Validator

open Lib (Run Transition)
open Lib.Accesses (Precedence Respects Task)

namespace ParallelScheduler

section Runs

variable {steps : List (Transition ParallelScheduler Call)} {scheduler finish : ParallelScheduler}

/-- The transactions of a schedule with one batch more. -/
theorem Adds.txns {before after : ParallelScheduler} {batch : TxnBatch}
    (adds : Adds before batch after) : after.txns = before.txns ++ batch.transactions := by
  rw [ParallelScheduler.txns, adds.batches, List.flatMap_append, List.flatMap_singleton]
  rfl

/-- In every run, whatever the results, the tree and the predecessors are those of the batches that
were added, in their order. -/
theorem tracks_run (run : Run Calls init steps finish) : finish.Tracks finish.txns := by
  refine @Run.invariant _ _ _ _ _ _ (fun _ => True)
    (fun scheduler => scheduler.Tracks scheduler.txns) ?_ ?_ run ?_
  · exact ⟨PredecessorTree.table_init, fun _ _ => ⟨fun found => absurd found (by simp [init,
      predecessorsOf]), fun impossible => impossible.elim⟩⟩
  · intro before label after tracks called _
    have kept (leaves : Leaves before after) : after.Tracks after.txns := by
      have same : after.txns = before.txns := by
        rw [ParallelScheduler.txns, leaves.batches, ParallelScheduler.txns]
      rw [same]
      exact tracks.of_eq leaves.predecessorTree leaves.txnPredecessors
    cases label with
    | addBatch batch =>
      have adds := addBatch_ok called
      rw [adds.txns]
      exact adds.tracks _ tracks
    | nextTransaction =>
      obtain ⟨info, handed⟩ := call_nextTransaction called
      exact kept (nextTransaction_leaves handed)
    | setTransactionExecutionResult txnSignature isValid contextId =>
      exact kept (setTransactionExecutionResult_leaves called)
    | finalize =>
      cases called
      exact kept ⟨rfl, rfl, rfl, rfl⟩
  · exact fun _ _ => trivial

/-- What a run keeps in which every result is valid, with the results in the order of their
coming. -/
structure Sound (scheduler : ParallelScheduler) (done : List Text) : Prop where
  /-- What is handed out has its predecessors behind it. -/
  scheduled : ∀ id ∈ scheduler.scheduled, ∀ earlier ∈ scheduler.predecessorsOf id, earlier ∈ done
  /-- What is handed out is in the schedule. -/
  named : ∀ id ∈ scheduler.scheduled, id ∈ scheduler.txns.map Txn.headerSignature
  /-- The results are those that came. -/
  results : ∀ id, id ∈ scheduler.txnResults ↔ id ∈ done
  /-- They are valid. -/
  valid : ∀ id result, scheduler.txnResults.lookup id = some result → result.isValid = true
  /-- Nothing is to be run again. -/
  outstanding : scheduler.outstanding = ∅
  /-- Each result came after those of its predecessors. -/
  respects : Respects (fun earlier later => earlier ∈ scheduler.predecessorsOf later) done
  /-- What has a result was handed out. -/
  reported : ∀ id ∈ done, id ∈ scheduler.scheduled
  /-- What is not handed out is available. -/
  waiting : ∀ txn ∈ scheduler.txns,
    txn ∈ scheduler.txnsAvailable ∨ txn.headerSignature ∈ scheduler.scheduled
  /-- It is available in the order of the schedule. -/
  available : scheduler.txnsAvailable.Sublist scheduler.txns
  /-- Transactions are looked up in their batches. -/
  batch : ∀ id batch, scheduler.batchesByTxnId.lookup id = some batch →
    batch ∈ scheduler.batches ∧ id ∈ batch.transactions.map Txn.headerSignature
  /-- Every transaction has its batch. -/
  listed : ∀ txn ∈ scheduler.txns, txn.headerSignature ∈ scheduler.batchesByTxnId

/-- At first nothing is kept. -/
theorem sound_init : init.Sound [] where
  scheduled _ impossible := absurd impossible List.not_mem_nil
  named _ impossible := absurd impossible List.not_mem_nil
  results id := by simp [init]
  valid _ _ impossible := nomatch impossible
  outstanding := rfl
  respects done later rest split := by simp at split
  reported _ impossible := absurd impossible List.not_mem_nil
  waiting _ impossible := absurd impossible List.not_mem_nil
  available := List.nil_sublist _
  batch _ _ impossible := nomatch impossible
  listed _ impossible := absurd impossible List.not_mem_nil

/-- Looking up the transactions of a batch that is added. -/
theorem lookup_foldl_insert {batch : TxnBatch} {txns : List Txn} {known : Dict TxnBatch}
    {id : Text} :
    (txns.foldl (fun known txn => known.insert txn.headerSignature batch) known).lookup id =
      if id ∈ txns.map Txn.headerSignature then some batch else known.lookup id := by
  induction txns generalizing known with
  | nil => rfl
  | cons txn txns ih =>
    rw [List.foldl_cons, ih, List.map_cons]
    by_cases later : id ∈ txns.map Txn.headerSignature
    · rw [if_pos later, if_pos (List.mem_cons_of_mem _ later)]
    · rw [if_neg later]
      by_cases same : id = txn.headerSignature
      · rw [same, AList.lookup_insert, if_pos List.mem_cons_self]
      · rw [AList.lookup_insert_ne same, if_neg]
        rw [List.mem_cons, not_or]
        exact ⟨same, later⟩

/-- Adding a batch keeps a sound schedule. -/
theorem Sound.addBatch {done : List Text} {after : ParallelScheduler} {batch : TxnBatch}
    (sound : scheduler.Sound done) (adds : Adds scheduler batch after)
    (fresh : ∀ id ∈ scheduler.txns.map Txn.headerSignature,
      id ∉ batch.transactions.map Txn.headerSignature) : after.Sound done where
  scheduled id listed earlier found := by
    rw [adds.scheduled] at listed
    rw [adds.predecessorsOf id (fresh id (sound.named id listed))] at found
    exact sound.scheduled id listed earlier found
  named id listed := by
    rw [adds.scheduled] at listed
    rw [adds.txns, List.map_append]
    exact List.mem_append_left _ (sound.named id listed)
  results id := by rw [adds.txnResults, sound.results]
  valid id result found := by
    rw [adds.txnResults] at found
    exact sound.valid id result found
  outstanding := adds.outstanding.trans sound.outstanding
  respects front later rest split earlier found := by
    have listed : later ∈ done := by simp [split]
    change earlier ∈ after.predecessorsOf later at found
    rw [adds.predecessorsOf later
      (fresh later (sound.named later (sound.reported later listed)))] at found
    exact sound.respects front later rest split earlier found
  reported id listed := by
    rw [adds.scheduled]
    exact sound.reported id listed
  waiting txn listed := by
    rw [adds.txns] at listed
    rw [adds.txnsAvailable, adds.scheduled]
    rcases List.mem_append.mp listed with old | added
    · exact (sound.waiting txn old).imp_left (List.mem_append_left _)
    · exact .inl (List.mem_append_right _ added)
  available := by
    rw [adds.txnsAvailable, adds.txns]
    exact sound.available.append (List.Sublist.refl _)
  batch id other found := by
    rw [adds.batchesByTxnId, lookup_foldl_insert] at found
    rw [adds.batches]
    split at found
    · rename_i named
      cases found
      exact ⟨by simp, named⟩
    · exact (sound.batch id other found).imp_left (List.mem_append_left _)
  listed txn listed := by
    rw [adds.batchesByTxnId, ← AList.lookup_isSome, lookup_foldl_insert]
    rw [adds.txns] at listed
    split
    · rfl
    · rename_i other
      rcases List.mem_append.mp listed with old | added
      · exact AList.lookup_isSome.mpr (sound.listed txn old)
      · exact absurd (List.mem_map_of_mem added) other

/-- Without an invalid result no batch has one. -/
theorem anyInBatchAreInvalid_of_valid
    (valid : ∀ id result, scheduler.txnResults.lookup id = some result → result.isValid = true)
    (batch : TxnBatch) : scheduler.anyInBatchAreInvalid batch = false := by
  unfold anyInBatchAreInvalid
  rw [List.any_eq_false]
  intro txn _
  split
  · rename_i result found
    simp [valid _ _ found]
  · exact Bool.false_ne_true

/-- Without an invalid result no transaction fails by what it depends on. -/
theorem txnFailedByDep_of_valid
    (valid : ∀ id result, scheduler.txnResults.lookup id = some result → result.isValid = true)
    (txn : Txn) : scheduler.txnFailedByDep txn = false := by
  unfold txnFailedByDep
  rw [List.any_eq_false]
  intro dependency _
  split
  · rw [anyInBatchAreInvalid_of_valid valid]
    exact Bool.false_ne_true
  · exact Bool.false_ne_true

/-- Without an invalid result every transaction is in a valid batch. -/
theorem txnIsInValidBatch_of_valid
    (valid : ∀ id result, scheduler.txnResults.lookup id = some result → result.isValid = true)
    (txnId : Text) : scheduler.txnIsInValidBatch txnId = true := by
  unfold txnIsInValidBatch
  split
  · rw [anyInBatchAreInvalid_of_valid valid]
    rfl
  · rfl

/-- Without an invalid result the loop of `next_transaction` fails nothing, and finds a transaction
whose predecessors have results. -/
theorem scan_of_valid
    (valid : ∀ id result, scheduler.txnResults.lookup id = some result → result.isValid = true)
    (available : List Txn) :
    (scheduler.scan available).2 = scheduler ∧
      ∀ txn, (scheduler.scan available).1 = some txn →
        txn ∈ available ∧ scheduler.hasPredecessors txn = false := by
  induction available with
  | nil => exact ⟨rfl, fun _ impossible => nomatch impossible⟩
  | cons txn rest ih =>
    unfold scan
    rw [txnFailedByDep_of_valid valid, txnIsInValidBatch_of_valid valid]
    split
    · rename_i free
      simp only [Bool.and_eq_true, Bool.not_eq_true'] at free
      simp only [Bool.false_eq_true, if_false, Bool.not_true, Bool.false_and]
      refine ⟨trivial, fun found same => ?_⟩
      cases same
      exact ⟨List.mem_cons_self, free.1.1⟩
    · exact ⟨ih.1, fun found same => (ih.2 found same).imp_left (List.mem_cons_of_mem _)⟩

/-- Handing out a transaction keeps a sound schedule. -/
theorem Sound.nextTransaction {done : List Text} {after : ParallelScheduler}
    {info : Option TxnInformation} (sound : scheduler.Sound done)
    (handed : scheduler.nextTransaction = .ok (info, after)) : after.Sound done := by
  obtain ⟨same, found⟩ := scan_of_valid sound.valid scheduler.txnsAvailable
  rcases nextTransaction_ok handed with ⟨scanned, _⟩ | ⟨txn, bases, middle, scanned, _, _, rfl⟩
  · rw [scanned] at same
    dsimp only at same
    subst same
    exact sound
  · rw [scanned] at same found
    dsimp only at same
    subst same
    obtain ⟨listed, free⟩ := found txn rfl
    have behind : ∀ earlier ∈ middle.predecessorsOf txn.headerSignature, earlier ∈ done := by
      intro earlier member
      by_contra missing
      rw [← sound.results] at missing
      exact of_decide_eq_false free ⟨earlier, member, .inl missing⟩
    have inSchedule := sound.available.subset listed
    exact {
      scheduled := fun id member => by
        rcases List.mem_append.mp member with old | new
        · exact sound.scheduled id old
        · obtain rfl := List.mem_singleton.mp new
          exact behind
      named := fun id member => by
        rcases List.mem_append.mp member with old | new
        · exact sound.named id old
        · obtain rfl := List.mem_singleton.mp new
          exact List.mem_map_of_mem inSchedule
      results := sound.results
      valid := sound.valid
      outstanding := sound.outstanding
      respects := sound.respects
      reported := fun id member => List.mem_append_left _ (sound.reported id member)
      waiting := fun other member => by
        by_cases same : other = txn
        · subst same
          exact .inr (List.mem_append_right _ (List.mem_singleton_self _))
        · exact (sound.waiting other member).imp
            (fun waits => (List.mem_erase_of_ne same).mpr waits) (List.mem_append_left _)
      available := (List.erase_sublist).trans sound.available
      batch := sound.batch
      listed := sound.listed }

/-- A valid result keeps a sound schedule, with its transaction as the last. -/
theorem Sound.setTransactionExecutionResult {done : List Text} {after : ParallelScheduler}
    {txnSignature contextId : Text} (sound : scheduler.Sound done)
    (set : scheduler.setTransactionExecutionResult txnSignature true contextId = .ok after) :
    after.Sound (done ++ [txnSignature]) := by
  obtain ⟨least, leastEq⟩ := setLeastBatchId_eq scheduler txnSignature
  unfold ParallelScheduler.setTransactionExecutionResult at set
  split at set
  · cases set
  · rename_i handed
    rw [not_not] at handed
    split at set
    · rename_i unlisted
      obtain ⟨txn, listed, rfl⟩ := List.mem_map.mp (sound.named _ handed)
      exact absurd (sound.listed txn listed) unlisted
    · have still : txnSignature ∉ scheduler.outstanding := by
        rw [sound.outstanding]
        exact Finset.notMem_empty _
      simp only [if_true, leastEq, rescheduleIfOutstanding, if_neg still] at set
      injection set with same
      subst same
      exact {
        scheduled := fun id member earlier found =>
          List.mem_append_left _ (sound.scheduled id member earlier found)
        named := sound.named
        results := fun id => by
          rw [AList.mem_insert, sound.results, List.mem_append, List.mem_singleton, or_comm]
        valid := fun id result found => by
          by_cases same : id = txnSignature
          · rw [same, AList.lookup_insert] at found
            cases found
            rfl
          · rw [AList.lookup_insert_ne same] at found
            exact sound.valid id result found
        outstanding := sound.outstanding
        respects := fun front later rest split earlier found => by
          cases rest using List.reverseRecOn with
          | nil =>
            obtain ⟨rfl, last⟩ := List.append_inj' split rfl
            obtain rfl := List.singleton_inj.mp last
            exact sound.scheduled _ handed earlier found
          | append_singleton rest last =>
            rw [← List.cons_append, ← List.append_assoc] at split
            obtain ⟨rfl, _⟩ := List.append_inj' split rfl
            exact sound.respects front later rest rfl earlier found
        reported := fun id member => by
          rcases List.mem_append.mp member with old | new
          · exact sound.reported id old
          · obtain rfl := List.mem_singleton.mp new
            exact handed
        waiting := sound.waiting
        available := sound.available
        batch := sound.batch
        listed := sound.listed }

/-- The results of a call are not reported as invalid. -/
def Call.Valid : Call → Prop
  | .setTransactionExecutionResult _ isValid _ => isValid = true
  | _ => True

instance : (label : Call) → Decidable label.Valid
  | .setTransactionExecutionResult _ isValid _ => inferInstanceAs (Decidable (isValid = true))
  | .addBatch _ | .nextTransaction | .finalize => isTrue trivial

/-- The transactions reported by a run with one step more. -/
theorem reported_append (taken : Transition ParallelScheduler Call) :
    reported (steps ++ [taken]) = reported steps ++ reported [taken] := List.filterMap_append

/-- A run in which every result is valid, of transactions with different names, is sound. -/
theorem sound_run (run : Run Calls init steps finish)
    (valid : ∀ taken ∈ steps, taken.label.Valid)
    (distinct : (finish.txns.map Txn.headerSignature).Nodup) : finish.Sound (reported steps) := by
  induction run with
  | nil => exact sound_init
  | @snoc steps middle label finish run next ih =>
    have validSteps := fun taken listed => valid taken (List.mem_append_left _ listed)
    have validLabel : label.Valid := valid ⟨middle, label, finish⟩ (by simp)
    rw [reported_append]
    have kept (leaves : Leaves middle finish) : finish.txns = middle.txns := by
      rw [ParallelScheduler.txns, leaves.batches, ParallelScheduler.txns]
    cases label with
    | addBatch batch =>
      have adds := addBatch_ok next
      rw [adds.txns, List.map_append, List.nodup_append] at distinct
      have sound := (ih validSteps distinct.1).addBatch adds
        fun id old new => distinct.2.2 id old id new rfl
      simpa [reported] using sound
    | nextTransaction =>
      obtain ⟨info, handed⟩ := call_nextTransaction next
      rw [kept (nextTransaction_leaves handed)] at distinct
      simpa [reported] using (ih validSteps distinct).nextTransaction handed
    | setTransactionExecutionResult txnSignature isValid contextId =>
      rw [kept (setTransactionExecutionResult_leaves next)] at distinct
      cases validLabel
      exact (ih validSteps distinct).setTransactionExecutionResult next
    | finalize =>
      cases next
      have sound := ih validSteps distinct
      simpa [reported] using ({ sound with } : middle.finalize.Sound (reported steps))

end Runs

/-! ## A sample -/

/-- The scheduler after a call, or the same one when the call raises something. -/
def next (scheduler : ParallelScheduler) (label : Call) : ParallelScheduler :=
  match scheduler.call label with
  | .ok after => after
  | .error _ => scheduler

/-- Calls that raise nothing make a run. -/
theorem run_along {labels : List Call}
    (raises : ∀ taken ∈ Run.along next init labels,
      (taken.before.call taken.label).isOk = true) :
    Run Calls init (Run.along next init labels) (labels.foldl next init) := by
  apply Run.of_along
  intro taken listed
  have okay := raises taken listed
  rw [Run.mem_along listed]
  unfold Calls next
  cases called : taken.before.call taken.label with
  | ok after => rfl
  | error failure =>
    rw [called] at okay
    cases okay

/-- A transaction of a first batch writes below an address that one of a second batch reads; another
one has nothing to do with them. Its result comes first. -/
def sampleCalls : List Call :=
  [.addBatch ⟨"b1".toList, [⟨"t1".toList, [], ["aabb".toList], []⟩]⟩,
    .addBatch ⟨"b2".toList, [⟨"t2".toList, ["aa".toList], ["cc".toList], ["t1".toList]⟩,
      ⟨"t3".toList, [], ["dd".toList], []⟩]⟩,
    .finalize, .nextTransaction, .nextTransaction,
    .setTransactionExecutionResult "t3".toList true "c3".toList,
    .setTransactionExecutionResult "t1".toList true "c1".toList, .nextTransaction,
    .setTransactionExecutionResult "t2".toList true "c2".toList]

/-- The steps of the sample. -/
def sampleSteps : List (Transition ParallelScheduler Call) := Run.along next init sampleCalls

/-- The scheduler at the end of the sample. -/
def sampleFinish : ParallelScheduler := sampleCalls.foldl next init

/-- The calls of the sample raise nothing and report no invalid result. -/
theorem sampleSteps_clean :
    (∀ taken ∈ sampleSteps, (taken.before.call taken.label).isOk = true) ∧
      (∀ taken ∈ sampleSteps, taken.label.Valid) ∧
        reported sampleSteps = ["t3".toList, "t1".toList, "t2".toList] := by
  decide +kernel

/-- The run of the sample. -/
theorem sample_run : Run Calls init sampleSteps sampleFinish := run_along sampleSteps_clean.1

/-- The transactions of the sample have different names and whole addresses, and results. -/
theorem sampleFinish_txns :
    sampleFinish.complete = true ∧
      sampleFinish.txns.map Txn.headerSignature = ["t1".toList, "t2".toList, "t3".toList] ∧
        (∀ txn ∈ sampleFinish.txns, txn.Whole) ∧ ∀ txn ∈ sampleFinish.txns,
          txn.headerSignature ∈ sampleFinish.txnResults := by
  decide +kernel

section Runs

variable {steps : List (Transition ParallelScheduler Call)} {scheduler finish : ParallelScheduler}

/-! ## Serial execution -/

/-- The predecessors of a schedule that tracks its order are those that conflict. -/
theorem predecessors_order (tracks : scheduler.Tracks scheduler.txns)
    (distinct : (scheduler.txns.map Txn.headerSignature).Nodup)
    (whole : ∀ txn ∈ scheduler.txns, txn.Whole) :
    (∀ earlier later, earlier ∈ scheduler.predecessorsOf later →
      ∃ first second : Txn, [first, second].Sublist scheduler.txns ∧
        first.headerSignature = earlier ∧ second.headerSignature = later ∧
          first.Conflicts second) ∧
      scheduler.txns.Pairwise fun first second => first.Conflicts second →
        Relation.ReflTransGen (fun earlier later => earlier ∈ scheduler.predecessorsOf later)
          first.headerSignature second.headerSignature := by
  have exact := orderOf_exact distinct whole
  have same : (fun earlier later => earlier ∈ scheduler.predecessorsOf later) =
      (orderOf scheduler.txns).before := by
    funext earlier later
    exact propext (tracks.before earlier later)
  rw [same]
  exact ⟨fun earlier later found => exact.1 earlier later ((tracks.before _ _).mp found), exact.2⟩

/-- In every run, whatever the results, each predecessor of a transaction is one that was added
before it and conflicts with it, and every transaction that was added before another one and
conflicts with it is reached through predecessors. -/
theorem predecessors_exact (run : Run Calls init steps finish)
    (distinct : (finish.txns.map Txn.headerSignature).Nodup)
    (whole : ∀ txn ∈ finish.txns, txn.Whole) :
    (∀ earlier later, earlier ∈ finish.predecessorsOf later →
      ∃ first second : Txn, [first, second].Sublist finish.txns ∧
        first.headerSignature = earlier ∧ second.headerSignature = later ∧
          first.Conflicts second) ∧
      finish.txns.Pairwise fun first second => first.Conflicts second →
        Relation.ReflTransGen (fun earlier later => earlier ∈ finish.predecessorsOf later)
          first.headerSignature second.headerSignature :=
  predecessors_order (tracks_run run) distinct whole

/-- In the sample the second transaction waits for the first one alone. -/
theorem predecessors_exact_sample :
    (∀ earlier later, earlier ∈ sampleFinish.predecessorsOf later →
      ∃ first second : Txn, [first, second].Sublist sampleFinish.txns ∧
        first.headerSignature = earlier ∧ second.headerSignature = later ∧
          first.Conflicts second) ∧
      sampleFinish.predecessorsOf "t2".toList = {"t1".toList} := by
  obtain ⟨_, names, whole, _⟩ := sampleFinish_txns
  have distinct : (sampleFinish.txns.map Txn.headerSignature).Nodup := by
    rw [names]
    decide
  exact ⟨(predecessors_exact sample_run distinct whole).1, by decide +kernel⟩

/-- The state after the effects of some transactions. -/
def execute {ν : Type} (effects : Text → Lib.Accesses.Effect Char ν) (state : Text → ν)
    (order : List Text) : Text → ν :=
  order.foldl (fun state id => Lib.Accesses.Effect.run state (effects id)) state

/-- Of a sound schedule, with results for all transactions, the results came in an order that ends
in the same state as the order of the schedule. -/
theorem Sound.execute_eq {done : List Text} (sound : scheduler.Sound done)
    (tracks : scheduler.Tracks scheduler.txns)
    (distinct : (scheduler.txns.map Txn.headerSignature).Nodup) (once : done.Nodup)
    (finished : ∀ txn ∈ scheduler.txns, txn.headerSignature ∈ scheduler.txnResults)
    (whole : ∀ txn ∈ scheduler.txns, txn.Whole) {ν : Type}
    {effects : Text → Lib.Accesses.Effect Char ν}
    (confined : ∀ txn ∈ scheduler.txns,
      (effects txn.headerSignature).Confined txn.inputs txn.outputs) (state : Text → ν) :
    execute effects state done =
      execute effects state (scheduler.txns.map Txn.headerSignature) := by
  let tasks : List (Task Char Text) := scheduler.txns.map Txn.accesses
  have names : tasks.map Task.name = scheduler.txns.map Txn.headerSignature := List.map_map
  have perm : done.Perm (tasks.map Task.name) := by
    rw [names, List.perm_ext_iff_of_nodup once distinct]
    intro id
    constructor
    · exact fun listed => sound.named id (sound.reported id listed)
    · intro listed
      obtain ⟨txn, member, rfl⟩ := List.mem_map.mp listed
      exact (sound.results _).mp (finished txn member)
  have ordered := (orderOf_exact distinct whole).2
  rw [← names] at distinct ⊢
  have same : (orderOf scheduler.txns).before =
      fun earlier later => earlier ∈ scheduler.predecessorsOf later := by
    funext earlier later
    exact propext (tracks.before earlier later).symm
  rw [Precedence.Reaches, same] at ordered
  apply Lib.Accesses.foldl_of_respects distinct _ _ perm sound.respects
  · exact List.pairwise_map.mpr ordered
  · intro task listed
    obtain ⟨txn, member, rfl⟩ := List.mem_map.mp listed
    exact confined txn member

/-- Whatever the order in which valid results come, the transactions end in the state in which they
end one after the other in the order of the schedule. -/
theorem execute_reported (run : Run Calls init steps finish)
    (valid : ∀ taken ∈ steps, taken.label.Valid)
    (distinct : (finish.txns.map Txn.headerSignature).Nodup) (once : (reported steps).Nodup)
    (finished : ∀ txn ∈ finish.txns, txn.headerSignature ∈ finish.txnResults)
    (whole : ∀ txn ∈ finish.txns, txn.Whole) {ν : Type}
    {effects : Text → Lib.Accesses.Effect Char ν}
    (confined : ∀ txn ∈ finish.txns,
      (effects txn.headerSignature).Confined txn.inputs txn.outputs) (state : Text → ν) :
    execute effects state (reported steps) =
      execute effects state (finish.txns.map Txn.headerSignature) :=
  (sound_run run valid distinct).execute_eq (tracks_run run) distinct once finished whole confined
    state

/-- What the transactions of the sample write. -/
def sampleEffects (id : Text) : Lib.Accesses.Effect Char Nat := fun state =>
  if id = "t1".toList then [("aabb".toList, 1)]
  else if id = "t2".toList then [("cc".toList, state "aabb".toList + 1)]
  else [("dd".toList, 5)]

/-- The transactions of the sample read and write at their addresses. -/
theorem sampleEffects_confined : ∀ txn ∈ sampleFinish.txns,
    (sampleEffects txn.headerSignature).Confined txn.inputs txn.outputs := by
  have txns : sampleFinish.txns = [⟨"t1".toList, [], ["aabb".toList], []⟩,
      ⟨"t2".toList, ["aa".toList], ["cc".toList], ["t1".toList]⟩,
      ⟨"t3".toList, [], ["dd".toList], []⟩] := by decide +kernel
  rw [txns]
  simp only [List.forall_mem_cons, List.not_mem_nil, false_imp_iff, implies_true, and_true]
  refine ⟨⟨fun _ _ _ => rfl, ?_⟩, ⟨?_, ?_⟩, ⟨fun _ _ _ => rfl, ?_⟩⟩
  · intro state entry listed
    obtain rfl := List.mem_singleton.mp listed
    exact ⟨_, List.mem_singleton_self _, List.prefix_rfl⟩
  · intro state state' same
    have read := same "aabb".toList ⟨"aa".toList, List.mem_singleton_self _, "bb".toList, rfl⟩
    change [("cc".toList, state "aabb".toList + 1)] = [("cc".toList, state' "aabb".toList + 1)]
    rw [read]
  · intro state entry listed
    obtain rfl := List.mem_singleton.mp listed
    exact ⟨_, List.mem_singleton_self _, List.prefix_rfl⟩
  · intro state entry listed
    obtain rfl := List.mem_singleton.mp listed
    exact ⟨_, List.mem_singleton_self _, List.prefix_rfl⟩

/-- The results of the sample come in another order than that of the schedule, and the state is the
same. -/
theorem execute_reported_sample :
    execute sampleEffects (fun _ => 0) ["t3".toList, "t1".toList, "t2".toList] =
      execute sampleEffects (fun _ => 0) ["t1".toList, "t2".toList, "t3".toList] := by
  obtain ⟨_, valid, order⟩ := sampleSteps_clean
  obtain ⟨_, names, whole, finished⟩ := sampleFinish_txns
  have distinct : (sampleFinish.txns.map Txn.headerSignature).Nodup := by
    rw [names]
    decide
  have once : (reported sampleSteps).Nodup := by
    rw [order]
    decide
  have same := execute_reported sample_run valid distinct once finished whole
    sampleEffects_confined fun _ => 0
  rwa [order, names] at same

/-! ## What a transaction starts from -/

/-- A predecessor stands before its transaction in the schedule. -/
theorem Tracks.idxOf_lt (tracks : scheduler.Tracks scheduler.txns)
    (distinct : (scheduler.txns.map Txn.headerSignature).Nodup) {earlier later : Text}
    (found : earlier ∈ scheduler.predecessorsOf later) :
    earlier ∈ scheduler.txns.map Txn.headerSignature ∧
      (scheduler.txns.map Txn.headerSignature).idxOf earlier <
        (scheduler.txns.map Txn.headerSignature).idxOf later := by
  have direct := (tracks.before _ _).mp found
  obtain ⟨task, task', mapped, rfl, rfl, _⟩ := Precedence.conflicts_of_before
    ((names_eq scheduler.txns).symm ▸ distinct) direct
  have sub := mapped.map Task.name
  rw [names_eq] at sub
  exact ⟨sub.subset List.mem_cons_self, Lib.Accesses.idxOf_lt_of_sublist distinct sub⟩

/-- What is sorted in reverse is what it was. -/
theorem mem_sortTxnIdsInReverse {txnIds : Finset Text} {id : Text} :
    id ∈ scheduler.sortTxnIdsInReverse txnIds ↔ id ∈ txnIds := by
  rw [sortTxnIdsInReverse, List.mem_mergeSort, Finset.mem_sort]

/-- How many rounds a transaction may lead to, at most: as many as there are sets of transactions
before it. -/
def weight (scheduler : ParallelScheduler) (id : Text) : ℕ :=
  2 ^ (scheduler.txns.map Txn.headerSignature).idxOf id

/-- The predecessors of a transaction weigh less than it does. -/
theorem Tracks.weight_lt (tracks : scheduler.Tracks scheduler.txns)
    (distinct : (scheduler.txns.map Txn.headerSignature).Nodup) (id : Text) :
    ((scheduler.sortTxnIdsInReverse (scheduler.predecessorsOf id)).map scheduler.weight).sum <
      scheduler.weight id := by
  have sorted : ((scheduler.sortTxnIdsInReverse (scheduler.predecessorsOf id)).map
      scheduler.weight).sum =
        ∑ earlier ∈ scheduler.predecessorsOf id, scheduler.weight earlier := by
    rw [sortTxnIdsInReverse, ((List.mergeSort_perm _ _).map _).sum_eq,
      ← List.sum_toFinset _ (Finset.sort_nodup _ _), Finset.sort_toFinset]
  have apart : Set.InjOn (fun earlier => (scheduler.txns.map Txn.headerSignature).idxOf earlier)
      (scheduler.predecessorsOf id) := by
    intro first found second found' same
    exact (List.idxOf_inj (tracks.idxOf_lt distinct found).1).mp same
  rw [sorted]
  unfold weight
  have positions := Finset.sum_image (f := fun position => 2 ^ position) apart
  rw [← positions]
  apply Nat.geomSum_lt le_rfl
  intro position listed
  obtain ⟨earlier, found, rfl⟩ := Finset.mem_image.mp listed
  exact (tracks.idxOf_lt distinct found).2

/-- The loop over the predecessors ends within the weight of its queue. -/
theorem Tracks.collectContexts_ends (tracks : scheduler.Tracks scheduler.txns)
    (distinct : (scheduler.txns.map Txn.headerSignature).Nodup) {rounds : ℕ} {queue : List Text}
    (enough : (queue.map scheduler.weight).sum ≤ rounds) (inChain : List Text)
    (contexts : List (Option Text)) :
    scheduler.collectContexts rounds queue inChain contexts ≠ .error .rounds := by
  induction rounds generalizing queue inChain contexts with
  | zero =>
    cases queue with
    | nil => exact fun impossible => nomatch impossible
    | cons id queue =>
      have positive : 0 < scheduler.weight id := Nat.two_pow_pos _
      rw [List.map_cons, List.sum_cons] at enough
      omega
  | succ rounds ih =>
    cases queue with
    | nil => exact fun impossible => nomatch impossible
    | cons id queue =>
      have positive : 0 < scheduler.weight id := Nat.two_pow_pos _
      have less := tracks.weight_lt distinct id
      rw [List.map_cons, List.sum_cons] at enough
      unfold collectContexts
      split
      · split
        · exact fun impossible => nomatch impossible
        · split
          · exact ih (by omega) _ _
          · exact ih (by omega) _ _
      · apply ih
        rw [List.map_append, List.sum_append]
        omega

/-- In every run, whatever the results, the loop over the predecessors of a transaction ends. -/
theorem Tracks.getInitialState_ends (tracks : scheduler.Tracks scheduler.txns)
    (distinct : (scheduler.txns.map Txn.headerSignature).Nodup) (txn : Txn) :
    scheduler.getInitialStateForTransaction txn ≠ .error .rounds := by
  intro out
  unfold getInitialStateForTransaction at out
  have less := tracks.weight_lt distinct txn.headerSignature
  have bound : scheduler.weight txn.headerSignature ≤ 2 ^ scheduler.txns.length := by
    apply Nat.pow_le_pow_right (by omega)
    rw [← List.length_map Txn.headerSignature]
    exact List.idxOf_le_length
  cases collected : scheduler.collectContexts (2 ^ scheduler.txns.length)
      (scheduler.sortTxnIdsInReverse (scheduler.predecessorsOf txn.headerSignature)) [] [] with
  | ok given =>
    rw [collected] at out
    cases out
  | error fault =>
    rw [collected] at out
    cases out
    exact tracks.collectContexts_ends distinct (less.le.trans bound) _ _ collected

/-- The context of a result. -/
def contextOf (scheduler : ParallelScheduler) (id : Text) : Option Text :=
  (scheduler.txnResults.lookup id).bind TxnExecutionResult.contextId

/-- Without an invalid result the loop collects the contexts of some predecessors that have all
others among their own. -/
theorem collectContexts_of_valid
    (valid : ∀ id result, scheduler.txnResults.lookup id = some result → result.isValid = true)
    {rounds : ℕ} {queue inChain : List Text}
    (ends : scheduler.collectContexts rounds queue inChain (inChain.map scheduler.contextOf) ≠
      .error .rounds)
    (reported : ∀ id ∈ queue, id ∈ scheduler.txnResults) :
    ∃ more, scheduler.collectContexts rounds queue inChain (inChain.map scheduler.contextOf) =
        .ok (inChain ++ more, (inChain ++ more).map scheduler.contextOf) ∧ more ⊆ queue ∧
      ∀ id ∈ queue, id ∈ inChain ++ more ∨
        ∃ base ∈ inChain ++ more, id ∈ scheduler.predecessorsOf base := by
  induction queue generalizing rounds inChain with
  | nil =>
    refine ⟨[], ?_, List.Subset.refl _, fun _ impossible => absurd impossible List.not_mem_nil⟩
    rw [List.append_nil, collectContexts]
  | cons id queue ih =>
    have rest : ∀ other ∈ queue, other ∈ scheduler.txnResults :=
      fun other listed => reported other (List.mem_cons_of_mem _ listed)
    obtain ⟨result, found⟩ := Option.isSome_iff_exists.mp
      (AList.lookup_isSome.mpr (reported id List.mem_cons_self))
    cases rounds with
    | zero => exact absurd rfl ends
    | succ rounds =>
      have context : scheduler.contextOf id = result.contextId := by
        rw [contextOf, found]
        rfl
      unfold collectContexts at ends ⊢
      simp only [txnIsInValidBatch_of_valid valid, if_true, found] at ends ⊢
      by_cases apart : scheduler.predecessorNotInChain id inChain = true
      · rw [if_pos apart, ← context, ← List.map_singleton, ← List.map_append] at ends ⊢
        obtain ⟨more, collected, inside, covers⟩ := ih ends rest
        refine ⟨id :: more, ?_, List.cons_subset_cons _ inside, ?_⟩
        · rw [collected, List.append_assoc]
          rfl
        · rw [List.append_assoc] at covers
          refine List.forall_mem_cons.mpr ⟨.inl ?_, covers⟩
          exact List.mem_append_right _ List.mem_cons_self
      · rw [if_neg apart] at ends ⊢
        obtain ⟨more, collected, inside, covers⟩ := ih ends rest
        refine ⟨more, collected, List.subset_cons_of_subset _ inside,
          List.forall_mem_cons.mpr ⟨?_, covers⟩⟩
        -- what is not in the chain is a predecessor of one that is
        rw [predecessorNotInChain, Bool.not_eq_true, Bool.not_eq_false', List.any_eq_true] at apart
        obtain ⟨base, listed, leads⟩ := apart
        rw [Bool.and_eq_true, Bool.or_eq_true, decide_eq_true_eq, decide_eq_true_eq] at leads
        rcases leads.1 with before | already
        · exact .inr ⟨base, List.mem_append_left _ listed, before⟩
        · exact .inl (List.mem_append_left _ already)

/-- Of a sound schedule, a transaction whose predecessors have results starts from the contexts of
some of them that have all others among their predecessors. -/
theorem Sound.getInitialState_ok {done : List Text} (sound : scheduler.Sound done)
    (tracks : scheduler.Tracks scheduler.txns)
    (distinct : (scheduler.txns.map Txn.headerSignature).Nodup) {txn : Txn}
    (free : scheduler.hasPredecessors txn = false) :
    ∃ bases : List Text,
      scheduler.getInitialStateForTransaction txn = .ok (bases.map scheduler.contextOf) ∧
        (∀ base ∈ bases, base ∈ scheduler.predecessorsOf txn.headerSignature) ∧
          ∀ earlier ∈ scheduler.predecessorsOf txn.headerSignature, earlier ∈ bases ∨
            ∃ base ∈ bases, earlier ∈ scheduler.predecessorsOf base := by
  have ends := tracks.getInitialState_ends distinct txn
  unfold getInitialStateForTransaction at ends ⊢
  have reported : ∀ id ∈ scheduler.sortTxnIdsInReverse
      (scheduler.predecessorsOf txn.headerSignature), id ∈ scheduler.txnResults := by
    intro id listed
    by_contra missing
    exact of_decide_eq_false free ⟨id, mem_sortTxnIdsInReverse.mp listed, .inl missing⟩
  have some := @collectContexts_of_valid scheduler sound.valid (2 ^ scheduler.txns.length)
    (scheduler.sortTxnIdsInReverse (scheduler.predecessorsOf txn.headerSignature)) []
  rw [List.map_nil] at some
  obtain ⟨bases, collected, inside, covers⟩ := some
    (fun out => ends (by rw [out]; rfl)) reported
  rw [List.nil_append] at collected
  refine ⟨bases, ?_, fun base listed => mem_sortTxnIdsInReverse.mp (inside listed),
    fun earlier found => covers earlier (mem_sortTxnIdsInReverse.mpr found)⟩
  rw [collected]
  rfl

/-- What leads to a member of a closed collection is a member. -/
theorem mem_of_reaches {before : Text → Text → Prop} {seen : List Text}
    (closed : ∀ later ∈ seen, ∀ earlier, before earlier later → earlier ∈ seen)
    {earlier later : Text} (reached : Relation.ReflTransGen before earlier later)
    (listed : later ∈ seen) : earlier ∈ seen := by
  induction reached using Relation.ReflTransGen.head_induction_on with
  | refl => exact listed
  | head direct _ ih => exact closed _ ih _ direct

/-- In every run, whatever the results, a transaction that starts from the effects of its
predecessors, and of theirs in turn, writes what it writes after all transactions before it. -/
theorem effects_of_predecessors (run : Run Calls init steps finish)
    (distinct : (finish.txns.map Txn.headerSignature).Nodup)
    (whole : ∀ txn ∈ finish.txns, txn.Whole) {ν : Type}
    {effects : Text → Lib.Accesses.Effect Char ν}
    (confined : ∀ txn ∈ finish.txns,
      (effects txn.headerSignature).Confined txn.inputs txn.outputs)
    {front back : List Txn} {txn : Txn} (split : finish.txns = front ++ txn :: back)
    {seen : List Text} (sub : seen.Sublist (front.map Txn.headerSignature))
    (direct : ∀ earlier ∈ finish.predecessorsOf txn.headerSignature, earlier ∈ seen)
    (closed : ∀ later ∈ seen, ∀ earlier ∈ finish.predecessorsOf later, earlier ∈ seen)
    (state : Text → ν) :
    effects txn.headerSignature (execute effects state seen) =
      effects txn.headerSignature (execute effects state (front.map Txn.headerSignature)) := by
  have ordered := (predecessors_order (tracks_run run) distinct whole).2
  have inFront {other : Txn} (listed : other ∈ front) : other ∈ finish.txns := by
    rw [split]
    exact List.mem_append_left _ listed
  have own : txn ∈ finish.txns := by simp [split]
  obtain ⟨members, inside, rfl⟩ := List.sublist_map_iff.mp sub
  have named {other : Txn} (listed : other ∈ front)
      (found : other.headerSignature ∈ members.map Txn.headerSignature) : other ∈ members := by
    obtain ⟨member, isMember, same⟩ := List.mem_map.mp found
    have member' := inFront (inside.subset isMember)
    rw [← List.inj_on_of_nodup_map distinct member' (inFront listed) same]
    exact isMember
  have runs (txns : List Txn) : execute effects state (txns.map Txn.headerSignature) =
      (txns.map Txn.accesses).foldl
        (fun state task => Lib.Accesses.Effect.run state (effects task.name)) state := by
    rw [execute, List.foldl_map, List.foldl_map]
    rfl
  have distinctFront : ((front.map Txn.accesses).map Task.name).Nodup := by
    rw [split, List.map_append, List.nodup_append] at distinct
    rw [List.map_map]
    exact distinct.1
  apply (confined txn own).reads
  rintro address ⟨place, reads, leads⟩
  rw [runs, runs]
  apply Lib.Accesses.foldl_of_closed (inside.map _) distinctFront.of_map
  · intro task listed
    obtain ⟨other, member, rfl⟩ := List.mem_map.mp listed
    exact confined other (inFront member)
  · intro earlier later mapped listed conflicts
    obtain ⟨first, second, before, rfl, rfl⟩ := Lib.Accesses.pair_of_sublist_map mapped
    have inSchedule : [first, second].Sublist finish.txns := by
      rw [split]
      exact before.trans (List.sublist_append_left _ _)
    have reached := List.pairwise_iff_forall_sublist.mp ordered inSchedule conflicts
    obtain ⟨member, isMember, same⟩ := List.mem_map.mp listed
    have found : second.headerSignature ∈ members.map Txn.headerSignature :=
      List.mem_map.mpr ⟨member, isMember, congrArg Task.name same⟩
    exact List.mem_map_of_mem
      (named (before.subset List.mem_cons_self) (mem_of_reaches closed reached found))
  · intro task listed other written writes leads'
    obtain ⟨earlier, member, rfl⟩ := List.mem_map.mp listed
    -- a writer of what the transaction reads is one of its predecessors, or of theirs
    have inSchedule : [earlier, txn].Sublist finish.txns := by
      rw [split]
      exact (List.singleton_sublist.mpr member).append
        (List.cons_sublist_cons.mpr (List.nil_sublist _))
    have reached := List.pairwise_iff_forall_sublist.mp ordered inSchedule
      (.inl ⟨written, writes, place, List.mem_append_left _ reads,
        List.prefix_or_prefix_of_prefix leads' leads⟩)
    have found : earlier.headerSignature ∈ members.map Txn.headerSignature := by
      rcases Relation.ReflTransGen.cases_tail reached with same | ⟨last, reached, isDirect⟩
      · have less := Lib.Accesses.idxOf_lt_of_sublist distinct (inSchedule.map _)
        rw [same] at less
        exact absurd less (lt_irrefl _)
      · exact mem_of_reaches closed reached (direct last isDirect)
    exact other (List.mem_map_of_mem (named member found))

/-- In every run of valid results, the contexts that `next_transaction` gives are those of some
transactions with results, and a transaction that starts from their effects, and from those of their
predecessors in turn, writes what it writes after all transactions before it. -/
theorem nextTransaction_bases (run : Run Calls init steps finish)
    (valid : ∀ taken ∈ steps, taken.label.Valid)
    (distinct : (finish.txns.map Txn.headerSignature).Nodup)
    (whole : ∀ txn ∈ finish.txns, txn.Whole) {info : TxnInformation} {after : ParallelScheduler}
    (handed : finish.nextTransaction = .ok (some info, after)) :
    ∃ (bases : List Text) (front back : List Txn),
      info.baseContextIds = bases.map finish.contextOf ∧ (∀ base ∈ bases, base ∈ reported steps) ∧
        finish.txns = front ++ info.txn :: back ∧
          ∀ {ν : Type} (effects : Text → Lib.Accesses.Effect Char ν),
            (∀ txn ∈ finish.txns,
              (effects txn.headerSignature).Confined txn.inputs txn.outputs) →
            ∀ seen : List Text, seen.Sublist (front.map Txn.headerSignature) →
              (∀ base ∈ bases, base ∈ seen) →
              (∀ later ∈ seen, ∀ earlier ∈ finish.predecessorsOf later, earlier ∈ seen) →
              ∀ state, effects info.txn.headerSignature (execute effects state seen) =
                effects info.txn.headerSignature
                  (execute effects state (front.map Txn.headerSignature)) := by
  have sound := sound_run run valid distinct
  obtain ⟨same, found⟩ := scan_of_valid sound.valid finish.txnsAvailable
  rcases nextTransaction_ok handed with
    ⟨_, impossible⟩ | ⟨txn, contexts, middle, scanned, initial, given, _⟩
  · cases impossible
  · rw [scanned] at same found
    dsimp only at same
    subst same
    cases given
    obtain ⟨listed, free⟩ := found txn rfl
    obtain ⟨bases, started, direct, covers⟩ :=
      sound.getInitialState_ok (tracks_run run) distinct free
    rw [initial] at started
    cases started
    obtain ⟨front, back, split⟩ := List.mem_iff_append.mp (sound.available.subset listed)
    refine ⟨bases, front, back, rfl, ?_, split, ?_⟩
    · intro base isBase
      by_contra missing
      rw [← sound.results] at missing
      exact of_decide_eq_false free ⟨base, direct base isBase, .inl missing⟩
    · intro ν effects confined seen sub based closed state
      refine effects_of_predecessors run distinct whole confined split sub ?_ closed state
      intro earlier before
      rcases covers earlier before with isBase | ⟨base, isBase, before'⟩
      · exact based earlier isBase
      · exact closed base (based base isBase) earlier before'

/-- In the sample the second transaction starts from the context of the first. -/
theorem nextTransaction_bases_sample :
    ∃ (info : TxnInformation) (after : ParallelScheduler) (bases : List Text),
      ((sampleCalls.take 7).foldl next init).nextTransaction = .ok (some info, after) ∧
        info.baseContextIds = [some "c1".toList] ∧
          info.baseContextIds = bases.map ((sampleCalls.take 7).foldl next init).contextOf := by
  have raises : ∀ taken ∈ Run.along next init (sampleCalls.take 7),
      (taken.before.call taken.label).isOk = true ∧ taken.label.Valid := by decide +kernel
  have facts : (((sampleCalls.take 7).foldl next init).txns.map Txn.headerSignature).Nodup ∧
      ∀ txn ∈ ((sampleCalls.take 7).foldl next init).txns, txn.Whole := by
    decide +kernel
  have given : (((sampleCalls.take 7).foldl next init).nextTransaction.map Prod.fst).toOption =
      some (some ⟨⟨"t2".toList, ["aa".toList], ["cc".toList], ["t1".toList]⟩,
        [some "c1".toList]⟩) := by
    decide +kernel
  cases handed : ((sampleCalls.take 7).foldl next init).nextTransaction with
  | error fault =>
    rw [handed] at given
    cases given
  | ok both =>
    obtain ⟨info, after⟩ := both
    rw [handed] at given
    cases given
    obtain ⟨bases, _, _, contexts, _⟩ := nextTransaction_bases
      (run_along fun taken listed => (raises taken listed).1)
      (fun taken listed => (raises taken listed).2) facts.1 facts.2 handed
    exact ⟨_, after, bases, rfl, rfl, contexts⟩

/-! ## Progress -/

/-- A transaction depends on no transaction of its batch or of a later one. -/
def Grounded : List TxnBatch → Prop
  | [] => True
  | batch :: back =>
    (∀ txn ∈ batch.transactions, ∀ dependency ∈ txn.dependencies,
      dependency ∉ ((batch :: back).flatMap TxnBatch.transactions).map Txn.headerSignature) ∧
      Grounded back

instance Grounded.decide : (batches : List TxnBatch) → Decidable (Grounded batches)
  | [] => isTrue trivial
  | _ :: back =>
    have := Grounded.decide back
    inferInstanceAs (Decidable (_ ∧ Grounded back))

/-- What a transaction of a batch depends on is of an earlier batch. -/
theorem Grounded.apart {front back : List TxnBatch} {batch : TxnBatch}
    (grounded : Grounded (front ++ batch :: back)) :
    ∀ txn ∈ batch.transactions, ∀ dependency ∈ txn.dependencies,
      dependency ∉ ((batch :: back).flatMap TxnBatch.transactions).map Txn.headerSignature := by
  induction front with
  | nil => exact grounded.1
  | cons first front ih => exact ih grounded.2

/-- What stands in the schedule before the first available transaction is not available. -/
theorem Sound.scheduled_of_before {done : List Text} (sound : scheduler.Sound done)
    (distinct : (scheduler.txns.map Txn.headerSignature).Nodup) {txn other : Txn} {rest : List Txn}
    (available : scheduler.txnsAvailable = txn :: rest)
    (before : [other, txn].Sublist scheduler.txns) :
    other.headerSignature ∈ scheduler.scheduled := by
  have distinct' := distinct.of_map
  rcases sound.waiting other (before.subset List.mem_cons_self) with waits | handed
  · exfalso
    have sub := sound.available
    rw [available] at waits sub
    have less := Lib.Accesses.idxOf_lt_of_sublist distinct' before
    rcases List.mem_cons.mp waits with rfl | later
    · exact lt_irrefl _ less
    · have after : [txn, other].Sublist scheduler.txns :=
        (List.cons_sublist_cons.mpr (List.singleton_sublist.mpr later)).trans sub
      exact lt_asymm less (Lib.Accesses.idxOf_lt_of_sublist distinct' after)
  · exact handed

/-- Of a sound schedule `next_transaction` raises nothing, and hands out what its loop finds. -/
theorem Sound.nextTransaction_eq {done : List Text} (sound : scheduler.Sound done)
    (tracks : scheduler.Tracks scheduler.txns)
    (distinct : (scheduler.txns.map Txn.headerSignature).Nodup) :
    ∃ info after, scheduler.nextTransaction = .ok (info, after) ∧
      info.map TxnInformation.txn = (scheduler.scan scheduler.txnsAvailable).1 := by
  obtain ⟨same, found⟩ := scan_of_valid sound.valid scheduler.txnsAvailable
  unfold ParallelScheduler.nextTransaction
  cases scanned : scheduler.scan scheduler.txnsAvailable with
  | mk next middle =>
    rw [scanned] at same found
    dsimp only at same
    subst same
    cases next with
    | none => exact ⟨none, middle, rfl, rfl⟩
    | some txn =>
      obtain ⟨bases, started, _⟩ := sound.getInitialState_ok tracks distinct (found txn rfl).2
      dsimp only
      rw [started]
      exact ⟨_, _, rfl, rfl⟩

/-- When nothing is under way, the first available transaction is handed out. -/
theorem Sound.scan_head {done : List Text} (sound : scheduler.Sound done)
    (tracks : scheduler.Tracks scheduler.txns)
    (distinct : (scheduler.txns.map Txn.headerSignature).Nodup)
    (grounded : Grounded scheduler.batches)
    (idle : ∀ id ∈ scheduler.scheduled, id ∈ scheduler.txnResults) {txn : Txn} {rest : List Txn}
    (available : scheduler.txnsAvailable = txn :: rest) :
    (scheduler.scan scheduler.txnsAvailable).1 = some txn := by
  have behind {other : Txn} (before : [other, txn].Sublist scheduler.txns) :
      other.headerSignature ∈ scheduler.txnResults :=
    idle _ (sound.scheduled_of_before distinct available before)
  have inSchedule : txn ∈ scheduler.txns := by
    apply sound.available.subset
    rw [available]
    exact List.mem_cons_self
  have first : ∀ earlier ∈ scheduler.predecessorsOf txn.headerSignature,
      earlier ∈ scheduler.txnResults := by
    intro earlier found
    have direct := (tracks.before _ _).mp found
    obtain ⟨task, task', mapped, rfl, named, _⟩ := Precedence.conflicts_of_before
      ((names_eq scheduler.txns).symm ▸ distinct) direct
    obtain ⟨other, same, sub, rfl, rfl⟩ := Lib.Accesses.pair_of_sublist_map mapped
    have itself : same = txn :=
      List.inj_on_of_nodup_map distinct (sub.subset (by simp)) inSchedule named
    subst itself
    exact behind sub
  have free : scheduler.hasPredecessors txn = false := by
    apply decide_eq_false
    rintro ⟨earlier, found, missing | ⟨prior, found', missing⟩⟩
    · exact missing (first earlier found)
    · have handed := sound.reported earlier ((sound.results _).mp (first earlier found))
      exact missing ((sound.results _).mpr (sound.scheduled earlier handed prior found'))
  have processed : scheduler.dependencyNotProcessed txn = false := by
    unfold dependencyNotProcessed
    rw [List.any_eq_false]
    intro dependency depends
    split
    · rename_i batch found
      obtain ⟨member, named⟩ := sound.batch dependency batch found
      obtain ⟨own, ownMember, listed⟩ := List.mem_flatMap.mp inSchedule
      obtain ⟨front, back, split⟩ := List.mem_iff_append.mp ownMember
      rw [split] at grounded
      have apart := grounded.apart txn listed dependency depends
      have earlier : batch ∈ front := by
        rw [split] at member
        rcases List.mem_append.mp member with earlier | later
        · exact earlier
        · refine absurd ?_ apart
          obtain ⟨other, listed', rfl⟩ := List.mem_map.mp named
          exact List.mem_map_of_mem (List.mem_flatMap.mpr ⟨batch, later, listed'⟩)
      have all : scheduler.allInBatchHaveResults batch = true := by
        unfold allInBatchHaveResults
        rw [List.all_eq_true]
        intro other listed'
        apply decide_eq_true
        apply behind
        rw [ParallelScheduler.txns, split, List.flatMap_append, List.flatMap_cons]
        have ahead : [other].Sublist (front.flatMap TxnBatch.transactions) :=
          List.singleton_sublist.mpr (List.mem_flatMap.mpr ⟨batch, earlier, listed'⟩)
        have after : [txn].Sublist (own.transactions ++ back.flatMap TxnBatch.transactions) :=
          List.singleton_sublist.mpr (List.mem_append_left _ listed)
        exact ahead.append after
      rw [all]
      exact Bool.false_ne_true
    · exact Bool.false_ne_true
  have failed := txnFailedByDep_of_valid sound.valid txn
  have inValid := txnIsInValidBatch_of_valid sound.valid txn.headerSignature
  have still : scheduler.isOutstanding txn = false := by
    unfold isOutstanding
    rw [sound.outstanding]
    rfl
  rw [available]
  simp [scan, free, processed, failed, inValid, still]

/-- The scheduler is never stuck: as long as results are valid, `next_transaction` raises nothing,
and a transaction is under way, or the call hands one out, or all have results. -/
theorem nextTransaction_progress (run : Run Calls init steps finish)
    (valid : ∀ taken ∈ steps, taken.label.Valid)
    (distinct : (finish.txns.map Txn.headerSignature).Nodup) (grounded : Grounded finish.batches) :
    ∃ info after, finish.nextTransaction = .ok (info, after) ∧
      ((∃ id ∈ finish.scheduled, id ∉ finish.txnResults) ∨ info.isSome = true ∨
        ∀ txn ∈ finish.txns, txn.headerSignature ∈ finish.txnResults) := by
  have sound := sound_run run valid distinct
  obtain ⟨info, after, handed, scanned⟩ := sound.nextTransaction_eq (tracks_run run) distinct
  refine ⟨info, after, handed, ?_⟩
  by_cases idle : ∀ id ∈ finish.scheduled, id ∈ finish.txnResults
  · right
    cases available : finish.txnsAvailable with
    | nil =>
      right
      intro txn listed
      rcases sound.waiting txn listed with waits | handed
      · rw [available] at waits
        exact absurd waits List.not_mem_nil
      · exact idle _ handed
    | cons txn rest =>
      left
      rw [sound.scan_head (tracks_run run) distinct grounded idle available] at scanned
      rw [← Option.isSome_map, scanned]
      rfl
  · push Not at idle
    exact .inl idle

/-- The scheduler of the sample is not stuck when the batches are added. -/
theorem nextTransaction_progress_sample :
    ∃ info after, ((sampleCalls.take 3).foldl next init).nextTransaction = .ok (info, after) ∧
      info.isSome = true := by
  have raises : ∀ taken ∈ Run.along next init (sampleCalls.take 3),
      (taken.before.call taken.label).isOk = true ∧ taken.label.Valid := by decide
  have facts : ((sampleCalls.take 3).foldl next init).scheduled = [] ∧
      (((sampleCalls.take 3).foldl next init).txns.map Txn.headerSignature).Nodup ∧
        Grounded ((sampleCalls.take 3).foldl next init).batches ∧
          ¬ ∀ txn ∈ ((sampleCalls.take 3).foldl next init).txns,
            txn.headerSignature ∈ ((sampleCalls.take 3).foldl next init).txnResults := by
    decide
  obtain ⟨none, distinct, grounded, open'⟩ := facts
  obtain ⟨info, after, handed, progress⟩ :=
    nextTransaction_progress (run_along fun taken listed => (raises taken listed).1)
      (fun taken listed => (raises taken listed).2) distinct grounded
  rcases progress with ⟨id, underWay, _⟩ | found | finished
  · rw [none] at underWay
    exact absurd underWay List.not_mem_nil
  · exact ⟨info, after, handed, found⟩
  · exact absurd finished open'

end Runs

end ParallelScheduler

end Creditcoin.Validator
