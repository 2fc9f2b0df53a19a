import Creditcoin.Lib.Extension
import Creditcoin.Lib.Run
import Creditcoin.Validator.Peers
import Creditcoin.Validator.Predecessors
import Mathlib.Algebra.Group.Nat.Defs
import Mathlib.Data.Char
import Mathlib.Data.Finset.Sort
import Mathlib.Data.List.Lex

/-!
# The parallel scheduler

The scheduler is given batches in order and hands out their transactions as soon as the transactions
that the predecessor tree found for them have results. Results may come in any order. The result of
an invalid transaction takes back the results that follow from its batch, and fails what depends on
it.
-/

namespace Creditcoin.Validator

open Lib (Run Transition)
open Lib.Accesses (Precedence Overlaps Respects Task)

/-- What the scheduler reads of a transaction. -/
structure Txn where
  headerSignature : Text
  inputs : List Text
  outputs : List Text
  dependencies : List Text
  deriving DecidableEq

/-- What the scheduler reads of a batch. -/
structure TxnBatch where
  headerSignature : Text
  transactions : List Txn
  deriving DecidableEq

/-- What the scheduler reads of a `TxnExecutionResult`. -/
structure TxnExecutionResult where
  isValid : Bool
  contextId : Option Text
  deriving DecidableEq

/-- What the scheduler gives of a `TxnInformation`. -/
structure TxnInformation where
  txn : Txn
  baseContextIds : List (Option Text)
  deriving DecidableEq

/-- What the scheduler raises. -/
inductive SchedulerFault where
  /-- `SchedulerError`, with its text. -/
  | schedulerError (text : Text)
  /-- `KeyError`, for a transaction without result. -/
  | keyError
  /-- More rounds than the loop over predecessors is given. -/
  | rounds
  deriving DecidableEq

/-- `ParallelScheduler`. -/
structure ParallelScheduler where
  /-- `_predecessor_tree`. -/
  predecessorTree : PredecessorTree
  /-- `_txn_predecessors`. -/
  txnPredecessors : Dict (Finset Text)
  /-- `_scheduled`. -/
  scheduled : List Text
  /-- `_outstanding`. -/
  outstanding : Finset Text
  /-- `_least_batch_id_wo_results`. -/
  leastBatchIdWoResults : Option Text
  /-- `_batches`. -/
  batches : List TxnBatch
  /-- `_batches_by_id`. -/
  batchesById : Dict TxnBatch
  /-- `_batches_by_txn_id`. -/
  batchesByTxnId : Dict TxnBatch
  /-- `_txn_results`. -/
  txnResults : Dict TxnExecutionResult
  /-- `_txns_available`. -/
  txnsAvailable : List Txn
  /-- `_transactions`. -/
  transactions : Dict Txn
  /-- `_final`. -/
  final : Bool

namespace ParallelScheduler

/-- `ParallelScheduler.__init__`. -/
def init : ParallelScheduler :=
  ⟨.init, ∅, [], ∅, none, [], ∅, ∅, ∅, [], ∅, false⟩

variable (scheduler : ParallelScheduler)

/-! ## Adding batches -/

/-- `_find_input_dependencies`. -/
def findInputDependencies (inputs : List Text) : Finset Text :=
  inputs.foldl (fun dependencies address =>
    dependencies ∪ scheduler.predecessorTree.findReadPredecessors address) ∅

/-- `_find_output_dependencies`. -/
def findOutputDependencies (outputs : List Text) : Finset Text :=
  outputs.foldl (fun dependencies address =>
    dependencies ∪ scheduler.predecessorTree.findWritePredecessors address) ∅

/-- The last loop of `add_batch`, for one transaction. -/
def addDependencies (txn : Txn) : ParallelScheduler :=
  let predecessors := scheduler.findInputDependencies txn.inputs ∪
    scheduler.findOutputDependencies txn.outputs
  let tree := txn.inputs.foldl (fun tree address => tree.addReader address txn.headerSignature)
    scheduler.predecessorTree
  { scheduler with
    txnPredecessors := scheduler.txnPredecessors.insert txn.headerSignature predecessors
    predecessorTree :=
      txn.outputs.foldl (fun tree address => tree.setWriter address txn.headerSignature) tree }

/-- The first loop of `add_batch`, for one transaction. -/
def addTxn (batch : TxnBatch) (txn : Txn) : ParallelScheduler :=
  { scheduler with
    batchesByTxnId := scheduler.batchesByTxnId.insert txn.headerSignature batch
    txnsAvailable := scheduler.txnsAvailable ++ [txn]
    transactions := scheduler.transactions.insert txn.headerSignature txn }

/-- `add_batch`. -/
def addBatch (batch : TxnBatch) : Except SchedulerFault ParallelScheduler :=
  if scheduler.final then
    .error (.schedulerError ("Invalid attempt to add batch to finalized scheduler; batch: ".toList
      ++ batch.headerSignature))
  else
    let listed : ParallelScheduler := { scheduler with
      leastBatchIdWoResults :=
        if scheduler.batches = [] then some batch.headerSignature
        else scheduler.leastBatchIdWoResults
      batches := scheduler.batches ++ [batch]
      batchesById := scheduler.batchesById.insert batch.headerSignature batch }
    let added := batch.transactions.foldl (fun scheduler txn => scheduler.addTxn batch txn) listed
    .ok (batch.transactions.foldl addDependencies added)

/-! ## Handing out transactions -/

/-- `_txn_predecessors[txn_id]`. -/
def predecessorsOf (txnId : Text) : Finset Text := (scheduler.txnPredecessors.lookup txnId).getD ∅

/-- `_txn_has_result`. -/
def txnHasResult (txnId : Text) : Bool := decide (txnId ∈ scheduler.txnResults)

/-- `_has_predecessors`. -/
def hasPredecessors (txn : Txn) : Bool :=
  decide (∃ predecessorId ∈ scheduler.predecessorsOf txn.headerSignature,
    predecessorId ∉ scheduler.txnResults ∨
      ∃ prePredId ∈ scheduler.predecessorsOf predecessorId, prePredId ∉ scheduler.txnResults)

/-- `_is_outstanding`. -/
def isOutstanding (txn : Txn) : Bool := decide (txn.headerSignature ∈ scheduler.outstanding)

/-- `_all_in_batch_have_results`, for the batch of a transaction. -/
def allInBatchHaveResults (batch : TxnBatch) : Bool :=
  batch.transactions.all fun txn => scheduler.txnHasResult txn.headerSignature

/-- `_any_in_batch_are_invalid`, for the batch of a transaction. -/
def anyInBatchAreInvalid (batch : TxnBatch) : Bool :=
  batch.transactions.any fun txn =>
    match scheduler.txnResults.lookup txn.headerSignature with
    | some result => !result.isValid
    | none => false

/-- `_dependency_not_processed`. -/
def dependencyNotProcessed (txn : Txn) : Bool :=
  txn.dependencies.any fun dependency =>
    match scheduler.batchesByTxnId.lookup dependency with
    | some batch => !scheduler.allInBatchHaveResults batch
    | none => false

/-- `_txn_failed_by_dep`. -/
def txnFailedByDep (txn : Txn) : Bool :=
  txn.dependencies.any fun dependency =>
    match scheduler.batchesByTxnId.lookup dependency with
    | some batch => scheduler.anyInBatchAreInvalid batch
    | none => false

/-- `_txn_is_in_valid_batch`: the results of its batch that there are, are valid. -/
def txnIsInValidBatch (txnId : Text) : Bool :=
  match scheduler.batchesByTxnId.lookup txnId with
  | some batch => !scheduler.anyInBatchAreInvalid batch
  | none => true

/-- `_can_fail_fast`. -/
def canFailFast (txnId : Text) : Bool :=
  decide ((scheduler.batchesByTxnId.lookup txnId).map TxnBatch.headerSignature =
    scheduler.leastBatchIdWoResults)

/-- A transaction fails without being handed out. -/
def fail (txn : Txn) : ParallelScheduler :=
  { scheduler with
    txnsAvailable := scheduler.txnsAvailable.erase txn
    txnResults := scheduler.txnResults.insert txn.headerSignature ⟨false, none⟩ }

/-- The loop of `next_transaction`, over a copy of the available transactions. -/
def scan (scheduler : ParallelScheduler) : List Txn → Option Txn × ParallelScheduler
  | [] => (none, scheduler)
  | txn :: rest =>
    if !scheduler.hasPredecessors txn && !scheduler.isOutstanding txn &&
        !scheduler.dependencyNotProcessed txn then
      if scheduler.txnFailedByDep txn then (scheduler.fail txn).scan rest
      else if !scheduler.txnIsInValidBatch txn.headerSignature &&
          scheduler.canFailFast txn.headerSignature then (scheduler.fail txn).scan rest
      else (some txn, scheduler)
    else scheduler.scan rest

/-- `_predecessor_not_in_chain`. -/
def predecessorNotInChain (priorTxnId : Text) (chain : List Text) : Bool :=
  !chain.any fun predId =>
    (decide (priorTxnId ∈ scheduler.predecessorsOf predId) || decide (priorTxnId ∈ chain)) &&
      scheduler.txnIsInValidBatch predId

/-- The transactions of the schedule, in order. -/
def txns : List Txn := scheduler.batches.flatMap TxnBatch.transactions

/-- `_index_of_txn_in_schedule`, of a transaction in the schedule. -/
def indexOfTxnInSchedule (txnId : Text) : Int :=
  match scheduler.batchesByTxnId.lookup txnId with
  | some batch =>
    let prior := scheduler.batches.take (scheduler.batches.idxOf batch)
    ((prior.map fun batch => batch.transactions.length).sum +
      (batch.transactions.map Txn.headerSignature).idxOf txnId : Nat) - 1
  | none => -1

/-- `_sort_txn_ids_in_reverse`, of a set that is listed in some order. -/
def sortTxnIdsInReverse (txnIds : Finset Text) : List Text :=
  (txnIds.sort (· ≤ ·)).mergeSort fun left right =>
    decide (scheduler.indexOfTxnInSchedule right ≤ scheduler.indexOfTxnInSchedule left)

/-- The loop of `_get_initial_state_for_transaction` over its queue, for so many rounds at most,
with the chain and the contexts that it collects. -/
def collectContexts : Nat → List Text → List Text → List (Option Text) →
    Except SchedulerFault (List Text × List (Option Text))
  | _, [], inChain, contexts => .ok (inChain, contexts)
  | 0, _ :: _, _, _ => .error .rounds
  | rounds + 1, priorTxnId :: txnDependencies, inChain, contexts =>
    if scheduler.txnIsInValidBatch priorTxnId then
      match scheduler.txnResults.lookup priorTxnId with
      | none => .error .keyError
      | some result =>
        if scheduler.predecessorNotInChain priorTxnId inChain then
          collectContexts rounds txnDependencies (inChain ++ [priorTxnId])
            (contexts ++ [result.contextId])
        else collectContexts rounds txnDependencies inChain contexts
    else
      collectContexts rounds (txnDependencies ++
        scheduler.sortTxnIdsInReverse (scheduler.predecessorsOf priorTxnId)) inChain contexts

/-- `_get_initial_state_for_transaction`. A predecessor leads to fewer rounds than there are sets of
transactions before it. -/
def getInitialStateForTransaction (txn : Txn) : Except SchedulerFault (List (Option Text)) :=
  (scheduler.collectContexts (2 ^ scheduler.txns.length)
    (scheduler.sortTxnIdsInReverse (scheduler.predecessorsOf txn.headerSignature)) [] []).map
      Prod.snd

/-- `next_transaction`. -/
def nextTransaction : Except SchedulerFault (Option TxnInformation × ParallelScheduler) :=
  match scheduler.scan scheduler.txnsAvailable with
  | (some txn, scheduler) => do
    let bases ← scheduler.getInitialStateForTransaction txn
    .ok (some ⟨txn, bases⟩, { scheduler with
      scheduled := scheduler.scheduled ++ [txn.headerSignature]
      txnsAvailable := scheduler.txnsAvailable.erase txn })
  | (none, scheduler) => .ok (none, scheduler)

/-! ## Results -/

/-- `_set_least_batch_id`. -/
def setLeastBatchId (txnSignature : Text) : ParallelScheduler :=
  match scheduler.batchesByTxnId.lookup txnSignature,
      scheduler.leastBatchIdWoResults.bind scheduler.batchesById.lookup with
  | some batch, some least =>
    let leastIndex := scheduler.batches.idxOf least
    let currentIndex := scheduler.batches.idxOf batch
    if currentIndex ≤ leastIndex then scheduler
    else if ((scheduler.batches.take currentIndex).drop leastIndex).all
        scheduler.allInBatchHaveResults then
      let incomplete := (scheduler.batches.drop currentIndex).find? fun later =>
        !scheduler.allInBatchHaveResults later
      { scheduler with leastBatchIdWoResults := some (incomplete.getD batch).headerSignature }
    else scheduler
  | _, _ => scheduler

/-- `_is_txn_to_replay`. -/
def isTxnToReplay (txnId possibleSuccessor : Text) (alreadySeen : List Text) : Bool :=
  decide (txnId ∈ scheduler.predecessorsOf possibleSuccessor) &&
    decide (scheduler.batchesByTxnId.lookup txnId ≠
      scheduler.batchesByTxnId.lookup possibleSuccessor) &&
    decide (possibleSuccessor ∉ alreadySeen)

/-- A pass of the inner loop of `_remove_subsequent_result_because_of_batch_failure`. -/
def takeBack (txnId : Text) (taken : ParallelScheduler × List Text) (possSuccessor : Text) :
    ParallelScheduler × List Text :=
  let (scheduler, seen) := taken
  if scheduler.isTxnToReplay txnId possSuccessor seen then
    if scheduler.txnHasResult possSuccessor then
      ({ scheduler with
        txnResults := scheduler.txnResults.erase possSuccessor
        scheduled := scheduler.scheduled.erase possSuccessor
        txnsAvailable := scheduler.txnsAvailable ++
          (scheduler.transactions.lookup possSuccessor).toList }, seen ++ [possSuccessor])
    else
      ({ scheduler with outstanding := insert possSuccessor scheduler.outstanding },
        seen ++ [possSuccessor])
  else (scheduler, seen)

/-- `_remove_subsequent_result_because_of_batch_failure`. -/
def removeSubsequentResultBecauseOfBatchFailure (sig : Text) : ParallelScheduler :=
  match scheduler.batchesByTxnId.lookup sig with
  | none => scheduler
  | some batch =>
    (batch.transactions.foldl (fun taken txn =>
      taken.1.scheduled.foldl (takeBack txn.headerSignature) taken) (scheduler, [])).1

/-- `_reschedule_if_outstanding`, with whether it did. -/
def rescheduleIfOutstanding (txnSignature : Text) : Bool × ParallelScheduler :=
  if txnSignature ∈ scheduler.outstanding then
    (true, { scheduler with
      txnsAvailable := scheduler.txnsAvailable ++
        (scheduler.transactions.lookup txnSignature).toList
      scheduled := scheduler.scheduled.erase txnSignature
      outstanding := scheduler.outstanding.erase txnSignature })
  else (false, scheduler)

/-- `set_transaction_execution_result`. -/
def setTransactionExecutionResult (txnSignature : Text) (isValid : Bool) (contextId : Text) :
    Except SchedulerFault ParallelScheduler :=
  if txnSignature ∉ scheduler.scheduled then
    .error (.schedulerError ("transaction not scheduled: ".toList ++ txnSignature))
  else if txnSignature ∉ scheduler.batchesByTxnId then .ok scheduler
  else
    let least := scheduler.setLeastBatchId txnSignature
    let removed :=
      if isValid then least else least.removeSubsequentResultBecauseOfBatchFailure txnSignature
    match removed.rescheduleIfOutstanding txnSignature with
    | (true, scheduler) => .ok scheduler
    | (false, scheduler) =>
      .ok { scheduler with
        txnResults := scheduler.txnResults.insert txnSignature
          ⟨isValid, if isValid then some contextId else none⟩ }

/-- `finalize`. -/
def finalize : ParallelScheduler := { scheduler with final := true }

/-- `_complete`. -/
def complete : Bool :=
  scheduler.final &&
    decide (scheduler.txnResults.entries.length = scheduler.batchesByTxnId.entries.length)

end ParallelScheduler

/-! ## The order of the schedule -/

/-- The places that a transaction reads and writes, by tokens. -/
def Txn.task (txn : Txn) : Task Text Text :=
  ⟨txn.headerSignature, txn.inputs.map tokenizeAddress, txn.outputs.map tokenizeAddress⟩

/-- The order of some transactions that are added one by one. -/
def orderOf (txns : List Txn) : Precedence Text Text := Precedence.addAll (txns.map Txn.task)

/-- The transactions are named as their tasks. -/
theorem names_eq (txns : List Txn) :
    (txns.map Txn.task).map Task.name = txns.map Txn.headerSignature := by
  rw [List.map_map]
  rfl

/-- Adding one transaction more. -/
theorem orderOf_append (txns : List Txn) (txn : Txn) :
    orderOf (txns ++ [txn]) = (orderOf txns).add txn.task := by
  rw [orderOf, List.map_append, List.map_singleton, Precedence.addAll_append, orderOf]

namespace ParallelScheduler

section Dependencies

variable {scheduler : ParallelScheduler} {member : Text}

/-- What is found for some addresses is what is found for each. -/
theorem mem_foldl_union {find : Text → Finset Text} {addresses : List Text}
    (found : Finset Text) :
    member ∈ addresses.foldl (fun dependencies address => dependencies ∪ find address) found ↔
      member ∈ found ∨ ∃ address ∈ addresses, member ∈ find address := by
  induction addresses generalizing found with
  | nil => simp
  | cons address addresses ih =>
    rw [List.foldl_cons, ih, Finset.mem_union, or_assoc]
    simp

/-- What is found for some inputs. -/
theorem mem_findInputDependencies {inputs : List Text} :
    member ∈ scheduler.findInputDependencies inputs ↔
      ∃ place ∈ inputs.map tokenizeAddress,
        scheduler.predecessorTree.table.Precedes false place member := by
  rw [findInputDependencies, mem_foldl_union]
  simp [PredecessorTree.mem_findReadPredecessors]

/-- What is found for some outputs. -/
theorem mem_findOutputDependencies {outputs : List Text} :
    member ∈ scheduler.findOutputDependencies outputs ↔
      ∃ place ∈ outputs.map tokenizeAddress,
        scheduler.predecessorTree.table.Precedes true place member := by
  rw [findOutputDependencies, mem_foldl_union]
  simp [PredecessorTree.mem_findWritePredecessors]

/-- Steps of the tree that are steps of its table, one for each address. -/
theorem table_foldl {change : PredecessorTree → Text → PredecessorTree}
    {act : Lib.Accesses.Table Text Text → List Text → Lib.Accesses.Table Text Text}
    (acts : ∀ tree address, (change tree address).table = act tree.table (tokenizeAddress address))
    (addresses : List Text) (tree : PredecessorTree) :
    (addresses.foldl change tree).table =
      (addresses.map tokenizeAddress).foldl act tree.table := by
  induction addresses generalizing tree with
  | nil => rfl
  | cons address addresses ih =>
    rw [List.foldl_cons, ih, acts, List.map_cons, List.foldl_cons]

/-- The table after the loop for a transaction. -/
theorem addDependencies_table (scheduler : ParallelScheduler) (txn : Txn) :
    (scheduler.addDependencies txn).predecessorTree.table =
      Precedence.after scheduler.predecessorTree.table txn.task := by
  unfold addDependencies
  dsimp only
  rw [table_foldl fun tree address => PredecessorTree.table_setWriter tree address _,
    table_foldl fun tree address => PredecessorTree.table_addReader tree address _]
  rfl

/-- The predecessors after the loop for a transaction. -/
theorem mem_predecessorsOf_addDependencies (txn : Txn) (later : Text) :
    member ∈ (scheduler.addDependencies txn).predecessorsOf later ↔
      if later = txn.headerSignature then
        Precedence.Finds scheduler.predecessorTree.table txn.task member
      else member ∈ scheduler.predecessorsOf later := by
  unfold predecessorsOf addDependencies
  by_cases same : later = txn.headerSignature
  · subst same
    rw [AList.lookup_insert, Option.getD_some, if_pos rfl, Finset.mem_union,
      mem_findInputDependencies, mem_findOutputDependencies]
    rfl
  · rw [AList.lookup_insert_ne same, if_neg same]

/-- The tree and the predecessors are those of the transactions in their order. -/
structure Tracks (scheduler : ParallelScheduler) (txns : List Txn) : Prop where
  /-- The tree is their table. -/
  table : scheduler.predecessorTree.table = (orderOf txns).table
  /-- The predecessors are what comes directly before. -/
  before : ∀ earlier later, earlier ∈ scheduler.predecessorsOf later ↔
    (orderOf txns).before earlier later

/-- A scheduler with the same tree and the same predecessors has them in the same order. -/
theorem Tracks.of_eq {txns : List Txn} {other : ParallelScheduler}
    (tracks : scheduler.Tracks txns) (tree : other.predecessorTree = scheduler.predecessorTree)
    (predecessors : other.txnPredecessors = scheduler.txnPredecessors) : other.Tracks txns where
  table := by rw [tree, tracks.table]
  before earlier later := by
    rw [← tracks.before, predecessorsOf, predecessorsOf, predecessors]

/-- The loop for a transaction adds it to the order. -/
theorem Tracks.addDependencies {txns : List Txn} (tracks : scheduler.Tracks txns) (txn : Txn) :
    (scheduler.addDependencies txn).Tracks (txns ++ [txn]) where
  table := by
    rw [addDependencies_table, orderOf_append, tracks.table]
    rfl
  before earlier later := by
    rw [mem_predecessorsOf_addDependencies, orderOf_append, tracks.table, tracks.before]
    rfl

/-- The loop for some transactions adds them to the order. -/
theorem Tracks.foldl_addDependencies {txns : List Txn} (tracks : scheduler.Tracks txns)
    (added : List Txn) :
    (added.foldl ParallelScheduler.addDependencies scheduler).Tracks (txns ++ added) := by
  induction added generalizing scheduler txns with
  | nil => rwa [List.append_nil]
  | cons txn added ih =>
    have rest := ih (tracks.addDependencies txn)
    rwa [List.append_assoc] at rest

end Dependencies

end ParallelScheduler

/-! ## Addresses -/

/-- The addresses that a transaction reads and writes. -/
def Txn.accesses (txn : Txn) : Task Char Text := ⟨txn.headerSignature, txn.inputs, txn.outputs⟩

/-- The transactions conflict: one writes at an address that leads to, or from, one of the other. -/
def Txn.Conflicts (earlier later : Txn) : Prop := earlier.accesses.Conflicts later.accesses

/-- All addresses are of whole tokens. -/
def Txn.Whole (txn : Txn) : Prop :=
  ∀ address ∈ txn.inputs ++ txn.outputs, address.length % 2 = 0

instance (txn : Txn) : Decidable txn.Whole :=
  inferInstanceAs (Decidable (∀ address ∈ txn.inputs ++ txn.outputs, address.length % 2 = 0))

/-- Addresses of whole tokens overlap as their tokens do. -/
theorem overlaps_tokenizeAddress {left right : Text} (even : left.length % 2 = 0)
    (even' : right.length % 2 = 0) :
    Overlaps (tokenizeAddress left) (tokenizeAddress right) ↔ Overlaps left right := by
  have prefixes {left right : Text} (even : left.length % 2 = 0) :
      tokenizeAddress left <+: tokenizeAddress right ↔ left <+: right := by
    constructor
    · rintro ⟨rest, joined⟩
      refine ⟨rest.flatten, ?_⟩
      rw [← tokenizeAddress_flatten left, ← List.flatten_append, joined, tokenizeAddress_flatten]
    · rintro ⟨rest, rfl⟩
      refine ⟨tokenizeAddress rest, ?_⟩
      induction left using tokenizeAddress.induct with
      | case1 => rfl
      | case2 c => simp at even
      | case3 first second left ih =>
        rw [List.length_cons, List.length_cons] at even
        rw [tokenizeAddress, List.cons_append, ih (by omega)]
        rfl
  rw [Overlaps, Overlaps, prefixes even, prefixes even']

/-- Transactions whose addresses are of whole tokens conflict as their tasks do. -/
theorem conflicts_task {earlier later : Txn} (whole : earlier.Whole) (whole' : later.Whole) :
    earlier.task.Conflicts later.task ↔ earlier.Conflicts later := by
  have places {lefts rights : List Text} (even : ∀ address ∈ lefts, address.length % 2 = 0)
      (even' : ∀ address ∈ rights, address.length % 2 = 0) :
      (∃ place ∈ lefts.map tokenizeAddress, ∃ other ∈ rights.map tokenizeAddress,
        Overlaps place other) ↔ ∃ place ∈ lefts, ∃ other ∈ rights, Overlaps place other := by
    simp only [List.mem_map, exists_exists_and_eq_and]
    refine exists_congr fun place => and_congr_right fun listed => ?_
    refine exists_congr fun other => and_congr_right fun listed' => ?_
    exact overlaps_tokenizeAddress (even place listed) (even' other listed')
  have inputs {txn : Txn} (whole : txn.Whole) : ∀ address ∈ txn.inputs, address.length % 2 = 0 :=
    fun address listed => whole address (List.mem_append_left _ listed)
  have outputs {txn : Txn} (whole : txn.Whole) : ∀ address ∈ txn.outputs, address.length % 2 = 0 :=
    fun address listed => whole address (List.mem_append_right _ listed)
  unfold Txn.Conflicts Task.Conflicts Txn.task Txn.accesses
  dsimp only
  rw [← List.map_append, places (outputs whole) whole', places (inputs whole) (outputs whole')]

/-- An order has the transactions that conflict in the order of the schedule, and no others directly
one before the other. -/
theorem orderOf_exact {txns : List Txn} (distinct : (txns.map Txn.headerSignature).Nodup)
    (whole : ∀ txn ∈ txns, txn.Whole) :
    (∀ earlier later, (orderOf txns).before earlier later →
      ∃ first second : Txn, [first, second].Sublist txns ∧ first.headerSignature = earlier ∧
        second.headerSignature = later ∧ first.Conflicts second) ∧
      txns.Pairwise fun first second => first.Conflicts second →
        (orderOf txns).Reaches first.headerSignature second.headerSignature := by
  rw [← names_eq] at distinct
  constructor
  · intro earlier later direct
    obtain ⟨task, task', mapped, rfl, rfl, conflicts⟩ :=
      Precedence.conflicts_of_before distinct direct
    obtain ⟨first, second, sub, rfl, rfl⟩ := Lib.Accesses.pair_of_sublist_map mapped
    exact ⟨first, second, sub, rfl, rfl, (conflicts_task (whole first (sub.subset (by simp)))
      (whole second (sub.subset (by simp)))).mp conflicts⟩
  · have ordered := List.pairwise_map.mp (Precedence.reaches_of_conflicts distinct)
    refine ordered.imp_of_mem fun listed listed' reaches conflicts => reaches ?_
    exact (conflicts_task (whole _ listed) (whole _ listed')).mpr conflicts

namespace ParallelScheduler

/-! ## Runs -/

/-- A call of the scheduler. -/
inductive Call where
  /-- `add_batch`. -/
  | addBatch (batch : TxnBatch)
  /-- `next_transaction`. -/
  | nextTransaction
  /-- `set_transaction_execution_result`. -/
  | setTransactionExecutionResult (txnSignature : Text) (isValid : Bool) (contextId : Text)
  /-- `finalize`. -/
  | finalize

/-- The scheduler after a call that raises nothing. -/
def call (scheduler : ParallelScheduler) : Call → Except SchedulerFault ParallelScheduler
  | .addBatch batch => scheduler.addBatch batch
  | .nextTransaction => scheduler.nextTransaction.map Prod.snd
  | .setTransactionExecutionResult txnSignature isValid contextId =>
    scheduler.setTransactionExecutionResult txnSignature isValid contextId
  | .finalize => .ok scheduler.finalize

/-- The step of a run is a call that raises nothing. -/
def Calls (before : ParallelScheduler) (label : Call) (after : ParallelScheduler) : Prop :=
  before.call label = .ok after

/-- The transactions whose results are reported, in order. -/
def reported (steps : List (Transition ParallelScheduler Call)) : List Text :=
  steps.filterMap fun taken =>
    match taken.label with
    | .setTransactionExecutionResult txnSignature _ _ => some txnSignature
    | _ => none

section Frames

variable {scheduler after : ParallelScheduler}

/-- What a call other than `add_batch` leaves. -/
structure Leaves (before after : ParallelScheduler) : Prop where
  predecessorTree : after.predecessorTree = before.predecessorTree
  txnPredecessors : after.txnPredecessors = before.txnPredecessors
  batches : after.batches = before.batches
  batchesByTxnId : after.batchesByTxnId = before.batchesByTxnId

/-- A scheduler leaves itself. -/
theorem Leaves.refl (scheduler : ParallelScheduler) : Leaves scheduler scheduler :=
  ⟨rfl, rfl, rfl, rfl⟩

/-- Calls one after the other leave what both leave. -/
theorem Leaves.trans {before middle after : ParallelScheduler} (first : Leaves before middle)
    (second : Leaves middle after) : Leaves before after :=
  ⟨second.1.trans first.1, second.2.trans first.2, second.3.trans first.3, second.4.trans first.4⟩

/-- The loop of `next_transaction` adds nothing. -/
theorem scan_leaves (available : List Txn) : Leaves scheduler (scheduler.scan available).2 := by
  induction available generalizing scheduler with
  | nil => exact .refl _
  | cons txn rest ih =>
    have failed : Leaves scheduler (scheduler.fail txn) := ⟨rfl, rfl, rfl, rfl⟩
    unfold scan
    split
    · split
      · exact failed.trans ih
      · split
        · exact failed.trans ih
        · exact .refl _
    · exact ih

/-- What `next_transaction` does to the scheduler that its loop leaves. -/
theorem nextTransaction_ok {info : Option TxnInformation}
    (handed : scheduler.nextTransaction = .ok (info, after)) :
    (scheduler.scan scheduler.txnsAvailable = (none, after) ∧ info = none) ∨
      ∃ txn bases middle, scheduler.scan scheduler.txnsAvailable = (some txn, middle) ∧
        middle.getInitialStateForTransaction txn = .ok bases ∧ info = some ⟨txn, bases⟩ ∧
          after = { middle with
            scheduled := middle.scheduled ++ [txn.headerSignature]
            txnsAvailable := middle.txnsAvailable.erase txn } := by
  unfold nextTransaction at handed
  split at handed
  · rename_i txn middle scanned
    cases initial : middle.getInitialStateForTransaction txn with
    | error fault =>
      rw [initial] at handed
      cases handed
    | ok bases =>
      rw [initial] at handed
      cases handed
      exact .inr ⟨txn, bases, middle, scanned, initial, rfl, rfl⟩
  · rename_i middle scanned
    cases handed
    exact .inl ⟨scanned, rfl⟩

/-- `next_transaction` adds nothing. -/
theorem nextTransaction_leaves {info : Option TxnInformation}
    (handed : scheduler.nextTransaction = .ok (info, after)) : Leaves scheduler after := by
  have scanned := @scan_leaves scheduler scheduler.txnsAvailable
  rcases nextTransaction_ok handed with ⟨found, _⟩ | ⟨txn, bases, middle, found, _, _, rfl⟩
  · rw [found] at scanned
    exact scanned
  · rw [found] at scanned
    exact scanned.trans ⟨rfl, rfl, rfl, rfl⟩

/-- What a call of `next_transaction` gives. -/
theorem call_nextTransaction (called : scheduler.call .nextTransaction = .ok after) :
    ∃ info, scheduler.nextTransaction = .ok (info, after) := by
  unfold call at called
  cases handed : scheduler.nextTransaction with
  | error fault =>
    rw [handed] at called
    cases called
  | ok given =>
    rw [handed] at called
    cases called
    exact ⟨given.1, rfl⟩

/-- `_set_least_batch_id` changes the least batch alone. -/
theorem setLeastBatchId_eq (scheduler : ParallelScheduler) (txnSignature : Text) :
    ∃ least, scheduler.setLeastBatchId txnSignature =
      { scheduler with leastBatchIdWoResults := least } := by
  unfold setLeastBatchId
  split
  · dsimp only
    split
    · exact ⟨_, rfl⟩
    · split
      · exact ⟨_, rfl⟩
      · exact ⟨_, rfl⟩
  · exact ⟨_, rfl⟩

/-- Taking back results adds nothing. -/
theorem removeSubsequent_leaves (scheduler : ParallelScheduler) (sig : Text) :
    Leaves scheduler (scheduler.removeSubsequentResultBecauseOfBatchFailure sig) := by
  have pass (txnId : Text) (taken : ParallelScheduler × List Text) (successor : Text) :
      Leaves taken.1 (takeBack txnId taken successor).1 := by
    unfold takeBack
    dsimp only
    split
    · split <;> exact ⟨rfl, rfl, rfl, rfl⟩
    · exact .refl _
  have inner (txnId : Text) (successors : List Text) (taken : ParallelScheduler × List Text) :
      Leaves taken.1 (successors.foldl (takeBack txnId) taken).1 := by
    induction successors generalizing taken with
    | nil => exact .refl _
    | cons successor successors ih => exact (pass txnId taken successor).trans (ih _)
  have outer (txns : List Txn) (taken : ParallelScheduler × List Text) :
      Leaves taken.1 (txns.foldl (fun taken txn =>
        taken.1.scheduled.foldl (takeBack txn.headerSignature) taken) taken).1 := by
    induction txns generalizing taken with
    | nil => exact .refl _
    | cons txn txns ih => exact (inner txn.headerSignature _ taken).trans (ih _)
  unfold removeSubsequentResultBecauseOfBatchFailure
  split
  · exact .refl _
  · exact outer _ (scheduler, [])

/-- `_reschedule_if_outstanding` adds nothing. -/
theorem rescheduleIfOutstanding_leaves (scheduler : ParallelScheduler) (txnSignature : Text) :
    Leaves scheduler (scheduler.rescheduleIfOutstanding txnSignature).2 := by
  unfold rescheduleIfOutstanding
  split <;> exact ⟨rfl, rfl, rfl, rfl⟩

/-- `set_transaction_execution_result` adds nothing. -/
theorem setTransactionExecutionResult_leaves {txnSignature contextId : Text} {isValid : Bool}
    (set : scheduler.setTransactionExecutionResult txnSignature isValid contextId = .ok after) :
    Leaves scheduler after := by
  obtain ⟨least, leastEq⟩ := setLeastBatchId_eq scheduler txnSignature
  have first : Leaves scheduler (if isValid then scheduler.setLeastBatchId txnSignature
      else (scheduler.setLeastBatchId txnSignature).removeSubsequentResultBecauseOfBatchFailure
        txnSignature) := by
    have kept : Leaves scheduler (scheduler.setLeastBatchId txnSignature) := by
      rw [leastEq]
      exact ⟨rfl, rfl, rfl, rfl⟩
    split
    · exact kept
    · exact kept.trans (removeSubsequent_leaves _ _)
  unfold setTransactionExecutionResult at set
  split at set
  · cases set
  · split at set
    · cases set
      exact .refl _
    · have second := first.trans (rescheduleIfOutstanding_leaves _ txnSignature)
      dsimp only at set
      split at set
      · rename_i found
        rw [found] at second
        cases set
        exact second
      · rename_i found
        rw [found] at second
        cases set
        exact second.trans ⟨rfl, rfl, rfl, rfl⟩

/-- The first loop of `add_batch`. -/
theorem foldl_addTxn (batch : TxnBatch) (txns : List Txn) (scheduler : ParallelScheduler) :
    txns.foldl (fun scheduler txn => scheduler.addTxn batch txn) scheduler =
      { scheduler with
        batchesByTxnId := txns.foldl (fun known txn => known.insert txn.headerSignature batch)
          scheduler.batchesByTxnId
        txnsAvailable := scheduler.txnsAvailable ++ txns
        transactions := txns.foldl (fun known txn => known.insert txn.headerSignature txn)
          scheduler.transactions } := by
  induction txns generalizing scheduler with
  | nil => rw [List.append_nil]; rfl
  | cons txn txns ih =>
    rw [List.foldl_cons, ih]
    simp [addTxn]

/-- The last loop of `add_batch` changes the tree and the predecessors alone. -/
theorem foldl_addDependencies_eq (txns : List Txn) (scheduler : ParallelScheduler) :
    ∃ tree predecessors, txns.foldl addDependencies scheduler =
      { scheduler with predecessorTree := tree, txnPredecessors := predecessors } := by
  induction txns generalizing scheduler with
  | nil => exact ⟨_, _, rfl⟩
  | cons txn txns ih =>
    obtain ⟨tree, predecessors, same⟩ := ih (scheduler.addDependencies txn)
    exact ⟨tree, predecessors, same⟩

/-- What `add_batch` does. -/
structure Adds (before : ParallelScheduler) (batch : TxnBatch) (after : ParallelScheduler) :
    Prop where
  batches : after.batches = before.batches ++ [batch]
  batchesByTxnId : after.batchesByTxnId = batch.transactions.foldl
    (fun known txn => known.insert txn.headerSignature batch) before.batchesByTxnId
  txnsAvailable : after.txnsAvailable = before.txnsAvailable ++ batch.transactions
  scheduled : after.scheduled = before.scheduled
  txnResults : after.txnResults = before.txnResults
  outstanding : after.outstanding = before.outstanding
  tracks : ∀ txns, before.Tracks txns → after.Tracks (txns ++ batch.transactions)
  predecessorsOf : ∀ later, later ∉ batch.transactions.map Txn.headerSignature →
    after.predecessorsOf later = before.predecessorsOf later

/-- The last loop of `add_batch` leaves the predecessors of other transactions. -/
theorem foldl_addDependencies_other {txns : List Txn} {later : Text}
    (other : later ∉ txns.map Txn.headerSignature) (scheduler : ParallelScheduler) :
    (txns.foldl addDependencies scheduler).predecessorsOf later =
      scheduler.predecessorsOf later := by
  induction txns generalizing scheduler with
  | nil => rfl
  | cons txn txns ih =>
    rw [List.map_cons, List.mem_cons, not_or] at other
    rw [List.foldl_cons, ih other.2]
    ext member
    rw [mem_predecessorsOf_addDependencies, if_neg other.1]

/-- `add_batch` adds the batch. -/
theorem addBatch_ok {batch : TxnBatch} (added : scheduler.addBatch batch = .ok after) :
    Adds scheduler batch after := by
  unfold addBatch at added
  split at added
  · cases added
  · dsimp only at added
    rw [foldl_addTxn] at added
    injection added with same
    subst same
    obtain ⟨tree, predecessors, same⟩ := foldl_addDependencies_eq batch.transactions
      { scheduler with
        leastBatchIdWoResults :=
          if scheduler.batches = [] then some batch.headerSignature
          else scheduler.leastBatchIdWoResults
        batches := scheduler.batches ++ [batch]
        batchesById := scheduler.batchesById.insert batch.headerSignature batch
        batchesByTxnId := batch.transactions.foldl
          (fun known txn => known.insert txn.headerSignature batch) scheduler.batchesByTxnId
        txnsAvailable := scheduler.txnsAvailable ++ batch.transactions
        transactions := batch.transactions.foldl
          (fun known txn => known.insert txn.headerSignature txn) scheduler.transactions }
    constructor
    case tracks =>
      intro txns tracks
      refine Tracks.foldl_addDependencies ?_ batch.transactions
      exact tracks.of_eq rfl rfl
    case predecessorsOf =>
      intro later other
      exact foldl_addDependencies_other other _
    all_goals rw [same]

end Frames

end ParallelScheduler

end Creditcoin.Validator
