import Creditcoin.Cursors

/-!
# Requests that are rejected during a replay

`Apply` writes what it caught up with to the maps before the command runs, and moves the cursors
only after it. A request that is rejected first of all is as if it had never been made; once
something was caught up, the maps are ahead of the cursors, and the next request does it again.
-/

namespace Creditcoin

open Lib Lib.Driver

/-! ## What a request goes through -/

/-- What a loop of `Apply` does next. -/
inductive Pending where
  /-- A transaction is caught up in the block after a tip. -/
  | catchUp (tip : Int) (tx : Tx)
  /-- The block at hand is done. -/
  | finish

/-- What is done is executed. -/
def Pending.runs : Pending → Bool
  | .catchUp _ tx => tx.runs
  | .finish => false

/-- What is next is done. -/
def Pending.perform (sha : Sha512) (env : Env) : Pending → Driver Unit
  | .catchUp tip tx => catchUpTx sha env tip tx
  | .finish => finishBlock

/-- What the loops of `Apply` go through on the way to a place. -/
def Replay.queue (env : Env) (replay : Replay) (blockIdx txIdx : Nat) : List Pending :=
  let updated := env.txsOf replay.updatedBlockIdx
  let next := (replay.updatedTxIdx + 1).toNat
  let tip : Int := blockIdx - 1
  if replay.updatedBlockIdx < blockIdx then
    ((updated.drop next).map (Pending.catchUp (replay.updatedBlockIdx - 1)) ++ [.finish]) ++
      ((List.range' (replay.updatedBlockIdx + 1)
        (blockIdx - (replay.updatedBlockIdx + 1))).flatMap fun i =>
          (env.txsOf i).map (Pending.catchUp (i - 1)) ++ [.finish]) ++
      (updated.take txIdx).map (Pending.catchUp tip)
  else if blockIdx = replay.updatedBlockIdx then
    if (txIdx : Int) ≤ replay.updatedTxIdx then (updated.take txIdx).map (Pending.catchUp tip)
    else ((updated.take txIdx).drop next).map (Pending.catchUp tip)
  else []

/-- A request goes on in the block at hand, or comes to a block that was left. -/
def Replay.Onward (replay : Replay) (asked : Asked) : Prop :=
  asked.blockIdx < replay.updatedBlockIdx ∨
    asked.blockIdx = replay.updatedBlockIdx ∧ replay.updatedTxIdx < asked.txIdx

/-- Nothing is executed for a request before the rejection: nothing is at hand that a change of the
block could move, and the first transaction that is caught up, if there is one, is rejected. -/
structure Replay.Untouched (sha : Sha512) (replay : Replay) (asked : Asked) : Prop where
  /-- Nothing is moved. -/
  atHand : replay.Onward asked ∨ replay.overlays.tipCurrentState = ∅
  /-- Nothing is caught up. -/
  first : ∀ pending,
    (replay.queue asked.request.env asked.blockIdx asked.txIdx).find? Pending.runs = some pending →
      ∃ failure after,
        pending.perform sha asked.request.env replay.overlays = .error failure after

section Requests

variable {sha : Sha512} {env node : Env} {replay after : Replay} {asked : Asked}
  {overlays later : Overlays}

/-- A loop over transactions as what is done next. -/
theorem forEach_txs {tip : Int} {txs : List Tx} :
    Driver.forEach (txs.map (Pending.catchUp tip)) (Pending.perform sha env) =
      catchUpTxs sha env tip txs :=
  forEach_map

/-- The loops over a block. -/
theorem forEach_block {tip : Int} {txs : List Tx} :
    Driver.forEach (txs.map (Pending.catchUp tip) ++ [.finish]) (Pending.perform sha env) =
      (do
        catchUpTxs sha env tip txs
        finishBlock) := by
  have last : Driver.forEach [.finish] (Pending.perform sha env) = finishBlock :=
    bind_pure finishBlock
  rw [forEach_append, forEach_txs, last]

/-- A block with nothing at hand is left as it is. -/
theorem finishBlock_empty (empty : overlays.tipCurrentState = ∅) :
    finishBlock overlays = .ok () overlays := by
  apply modify_ok.mpr
  obtain ⟨transitioningState, tipCurrentState⟩ := overlays
  subst empty
  rw [AList.empty_union]

/-- A command that fails leaves the maps. -/
theorem doApply_stays {ctx : Ctx} {cmd : Text} {query : Query} {failure : Exception}
    (failed : doApply sha env ctx cmd query overlays = .error failure later) :
    later = overlays := by
  unfold doApply at failed
  rcases bind_error.mp failed with got | ⟨value, middle, got, ran⟩
  · cases got
  obtain ⟨rfl, rfl⟩ : overlays = value ∧ overlays = middle := EStateM.Result.ok.inj got
  cases outcome : applyCommand sha cmd query (env.over ctx overlays) ⟨∅, ∅⟩ with
  | ok result =>
    rw [outcome] at ran
    cases ran
  | error failure =>
    rw [outcome] at ran
    exact (EStateM.Result.error.inj ran).2.symm

/-- A transaction that fails to be caught up leaves the maps. -/
theorem catchUpTx_stays {tip : Int} {tx : Tx} {failure : Exception}
    (failed : catchUpTx sha env tip tx overlays = .error failure later) : later = overlays := by
  cases runs : tx.runs with
  | false =>
    rw [catchUpTx_skips runs] at failed
    cases failed
  | true =>
    obtain ⟨family, payload, named, found⟩ := Tx.runs_iff.mp runs
    rw [catchUpTx, if_neg family, execute, found] at failed
    dsimp only at failed
    rw [if_neg named] at failed
    cases read : cborToParams payload with
    | ok parts =>
      rw [read] at failed
      exact doApply_stays failed
    | error failure =>
      rw [read] at failed
      exact (EStateM.Result.error.inj failed).2.symm

/-- What fails leaves the maps. -/
theorem Pending.perform_stays {pending : Pending} {failure : Exception}
    (failed : pending.perform sha env overlays = .error failure later) : later = overlays := by
  cases pending with
  | catchUp tip tx => exact catchUpTx_stays failed
  | finish => cases failed

/-- The block at hand starts over when a request goes back in it. -/
def Replay.startOver (replay : Replay) (blockIdx txIdx : Nat) : Driver Unit :=
  if blockIdx = replay.updatedBlockIdx ∧ (txIdx : Int) ≤ replay.updatedTxIdx then
    modify fun overlays => { overlays with tipCurrentState := ∅ }
  else pure ()

/-- A place past the end of the block that is left fails. -/
def Replay.pastEnd (env : Env) (replay : Replay) (blockIdx txIdx : Nat) : Driver Unit :=
  if replay.updatedBlockIdx < blockIdx ∧ (env.txsOf replay.updatedBlockIdx).length < txIdx then
    throw (.standard "vector".toList)
  else pure ()

/-- The loops of `Apply` go through the queue. -/
theorem Replay.catchUp_queue (blockIdx txIdx : Nat) :
    replay.catchUp sha env blockIdx txIdx =
      (replay.startOver blockIdx txIdx >>= fun _ =>
        Driver.forEach (replay.queue env blockIdx txIdx) (Pending.perform sha env) >>= fun _ =>
          replay.pastEnd env blockIdx txIdx) := by
  unfold Replay.catchUp Replay.queue Replay.startOver Replay.pastEnd
  rcases Nat.lt_trichotomy blockIdx replay.updatedBlockIdx with earlier | rfl | later
  · simp only [Nat.lt_asymm earlier, earlier.ne, if_false, false_and, Driver.forEach, pure_bind]
  · simp only [lt_irrefl, if_false, if_true, true_and, false_and, bind_pure_unit]
    split
    · rw [forEach_txs]
    · rw [forEach_txs]
      rfl
  · simp only [later, later.ne', if_true, false_and, true_and, if_false, forEach_append,
      forEach_flatMap, forEach_txs, bind_assoc, Driver.forEach, pure_bind, bind_pure_unit,
      Pending.perform]

/-- A block is done only on the way to a later one. -/
theorem Replay.queue_finishes {blockIdx txIdx : Nat}
    (listed : Pending.finish ∈ replay.queue env blockIdx txIdx) :
    replay.updatedBlockIdx < blockIdx := by
  unfold Replay.queue at listed
  dsimp only at listed
  split at listed
  · assumption
  have other (tip : Int) (txs : List Tx) : Pending.finish ∉ txs.map (Pending.catchUp tip) := by
    intro found
    obtain ⟨tx, _, same⟩ := List.mem_map.mp found
    cases same
  split at listed
  · split at listed
    · exact absurd listed (other _ _)
    · exact absurd listed (other _ _)
  · exact absurd listed List.not_mem_nil

/-- A request for which nothing is executed before the rejection catches up with nothing. -/
theorem Replay.Untouched.stays (untouched : replay.Untouched sha asked) :
    Stays (replay.catchUp sha asked.request.env asked.blockIdx asked.txIdx) replay.overlays := by
  rw [Replay.catchUp_queue]
  apply Stays.bind
  · unfold Replay.startOver
    split
    · rename_i back
      rcases untouched.atHand with onward | empty
      · unfold Replay.Onward at onward
        omega
      · refine .inl ⟨(), modify_ok.mpr ?_⟩
        rw [← empty]
    · exact .inl ⟨(), rfl⟩
  intro _
  apply Stays.bind
  · have idle : ∀ pending ∈ replay.queue asked.request.env asked.blockIdx asked.txIdx,
        pending.runs = false →
          pending.perform sha asked.request.env replay.overlays = .ok () replay.overlays := by
      intro pending listed idle
      cases pending with
      | catchUp tip tx =>
        have skipped : catchUpTx sha asked.request.env tip tx = pure () := catchUpTx_skips idle
        exact congrFun skipped replay.overlays
      | finish =>
        have later := Replay.queue_finishes listed
        rcases untouched.atHand with onward | empty
        · unfold Replay.Onward at onward
          omega
        · exact finishBlock_empty empty
    refine Stays.forEach idle fun pending found => ?_
    obtain ⟨failure, after, failed⟩ := untouched.first pending found
    obtain rfl := Pending.perform_stays failed
    exact ⟨failure, failed⟩
  intro _
  unfold Replay.pastEnd
  split
  · exact .inr ⟨_, rfl⟩
  · exact .inl ⟨(), rfl⟩

end Requests

/-! ## Requests that are rejected -/

/-- A request of any payload. -/
def Replay.Serves (sha : Sha512) (node : Env) (replay : Replay) (asked : Asked) (after : Replay) :
    Prop :=
  asked.Located node ∧ (replay.apply sha asked.request).2 = after

/-- The requests, of any payloads, that a node is asked one after another. -/
abbrev ServiceRun (sha : Sha512) (node : Env) : List ReplayStep → Replay → Prop :=
  Run (Replay.Serves sha node) (Replay.setup node)

/-- A request is rejected. -/
def ReplayStep.rejected (sha : Sha512) (taken : ReplayStep) : Bool :=
  match (taken.before.apply sha taken.label.request).1 with
  | .error (.invalidTransaction _) => true
  | _ => false

/-- What the command of a request finds under a key, when it is executed. -/
def Replay.sees (sha : Sha512) (replay : Replay) (asked : Asked) (key : Text) : Option Text :=
  Driver.found key (replay.catchUp sha asked.request.env asked.blockIdx asked.txIdx)
    replay.overlays

/-- The replay after further requests. -/
def Replay.serve (sha : Sha512) (replay : Replay) (requests : List Asked) : Replay :=
  requests.foldl (fun replay asked => (replay.apply sha asked.request).2) replay

/-- No further request is served. -/
@[simp] theorem Replay.serve_nil (sha : Sha512) (replay : Replay) :
    replay.serve sha [] = replay := rfl

/-- After a request every later command finds what it finds without the request. -/
def ReplayStep.Forgotten (sha : Sha512) (taken : ReplayStep) : Prop :=
  ∀ (requests : List Asked) (next : Asked),
    (taken.after.serve sha requests).sees sha next =
      (taken.before.serve sha requests).sees sha next

section Rejections

variable {sha : Sha512} {env node : Env} {replay after : Replay} {asked : Asked}
  {taken : ReplayStep}

/-- A request that is rejected before anything was executed leaves the replay. -/
theorem Replay.Untouched.rejected (located : asked.Located node)
    (nonces : (node.blocks.flatMap fun block => block.txs.map Tx.guid).Nodup)
    (untouched : replay.Untouched sha asked) {failure : Exception}
    (rejected : (replay.apply sha asked.request).1 = .error failure) :
    (replay.apply sha asked.request).2 = replay := by
  have found := located.found nonces
  have current : ((asked.blockIdx : Int) - 1 + 1).toNat = asked.blockIdx := by omega
  unfold Replay.apply at rejected ⊢
  dsimp only at rejected ⊢
  split
  · rfl
  · rfl
  rename_i query cmd compressed params key
  rw [params, key, found] at rejected
  rw [found]
  dsimp only at rejected ⊢
  rw [current] at rejected ⊢
  split
  · rename_i overlays ran
    rw [ran] at rejected
    cases rejected
  rename_i failure' overlays ran
  have kept : overlays = replay.overlays := by
    rcases bind_error.mp ran with caught | ⟨_, middle, caught, own⟩
    · rcases untouched.stays with ⟨_, stays⟩ | ⟨_, stays⟩
      · rw [stays] at caught
        cases caught
      · rw [stays] at caught
        exact (EStateM.Result.error.inj caught).2.symm
    · rcases untouched.stays with ⟨_, stays⟩ | ⟨_, stays⟩
      · rw [stays] at caught
        obtain rfl := (EStateM.Result.ok.inj caught).2
        exact doApply_stays own
      · rw [stays] at caught
        cases caught
  rw [kept]

/-- A step that is rejected before anything was executed leaves the replay. -/
theorem ReplayStep.rejected_leaves
    (nonces : (node.blocks.flatMap fun block => block.txs.map Tx.guid).Nodup)
    (step : Replay.Serves sha node taken.before taken.label taken.after)
    (untouched : taken.before.Untouched sha taken.label) (rejected : taken.rejected sha = true) :
    taken.after = taken.before := by
  obtain ⟨located, stepped⟩ := step
  unfold ReplayStep.rejected at rejected
  split at rejected
  · rename_i outcome
    rw [← stepped]
    exact untouched.rejected located nonces outcome
  · cases rejected

/-- Rejections before which nothing was executed are as if they had never been requested: every
later command finds what it finds without them, the other requests alone lead to the same maps, and
these hold every recorded transaction up to the cursors once when the other requests left nothing
out. -/
theorem rejections_forgotten {steps : List ReplayStep} (run : ServiceRun sha node steps replay)
    (nonces : (node.blocks.flatMap fun block => block.txs.map Tx.guid).Nodup)
    (guarded : ∀ taken ∈ steps, taken.rejected sha = true →
      taken.before.Untouched sha taken.label) :
    (∀ taken ∈ steps, taken.rejected sha = true → taken.Forgotten sha) ∧
      ServiceRun sha node (steps.filter fun taken => !taken.rejected sha) replay ∧
      (node.Replayable sha →
        (∀ taken ∈ steps, taken.rejected sha = false → taken.label.Recorded sha node ∧
          taken.before.updatedBlockIdx ≤ taken.label.blockIdx ∧
          taken.before.Fronts node taken.label.blockIdx taken.label.txIdx) →
        replay.Held sha node) := by
  refine ⟨?_, ?_, ?_⟩
  · intro taken listed rejected requests next
    obtain ⟨earlier, later, rfl⟩ := List.append_of_mem listed
    obtain ⟨_, step, _⟩ := run.split
    rw [ReplayStep.rejected_leaves nonces step (guarded taken listed rejected) rejected]
  · induction run with
    | nil => exact .nil
    | @snoc steps middle label finish run step ih =>
      have shorter := ih fun taken listed => guarded taken (List.mem_append_left _ listed)
      have last := guarded ⟨middle, label, finish⟩ (by simp)
      rw [List.filter_append]
      cases rejected : ReplayStep.rejected sha ⟨middle, label, finish⟩ with
      | true =>
        have same : finish = middle := @ReplayStep.rejected_leaves sha node
          ⟨middle, label, finish⟩ nonces step (last rejected) rejected
        rw [List.filter_cons_of_neg (by simp [rejected]), List.filter_nil, List.append_nil, same]
        exact shorter
      | false =>
        rw [List.filter_cons_of_pos (by simp [rejected]), List.filter_nil]
        exact shorter.snoc step
  · intro replayable others
    refine run.invariant (Replay.Held sha node) (setup_held replayable.genesis) ?_
      fun taken listed => And.intro (guarded taken listed) (others taken listed)
    intro before label after held step ⟨untouched, left⟩
    cases rejected : ReplayStep.rejected sha ⟨before, label, after⟩ with
    | true =>
      have same : after = before := @ReplayStep.rejected_leaves sha node
        ⟨before, label, after⟩ nonces step (untouched rejected) rejected
      rw [same]
      exact held
    | false =>
      obtain ⟨recorded, forward, fronts⟩ := left rejected
      exact (@ReplayStep.exact sha node ⟨before, label, after⟩ replayable held
        ⟨recorded, forward, step.2⟩ fronts).2

end Rejections

/-! ## A rejection after a transaction was caught up -/

/-- In the second block the fundraiser collects coins for three transfers, but two are the same. -/
def collectingNode : Env :=
  { sampleNode with
    blocks := [⟨[], [⟨[], "0".toList, none⟩]⟩,
      ⟨[], [recordedTx "1" (collecting "1"), recordedTx "2" (collecting "2"),
        recordedTx "3" (collecting "1")]⟩] }

/-- The nonces of the sample differ. -/
theorem collectingNode_nonces :
    (collectingNode.blocks.flatMap fun block => block.txs.map Tx.guid).Nodup := by decide

/-- The third collection is requested after the first one: it is rejected after the second one was
caught up, and then the second one is requested and was already executed. -/
theorem rejections_forgotten_executed :
    ¬ ∀ (sha : Sha512) (node : Env) (steps : List ReplayStep) (replay : Replay),
      ServiceRun sha node steps replay →
      (node.blocks.flatMap fun block => block.txs.map Tx.guid).Nodup →
      ∀ taken ∈ steps, taken.rejected sha = true → taken.Forgotten sha := by
  intro claimed
  let start : Replay := Replay.setup collectingNode
  let first : Asked := requested collectingNode "1" (collecting "1") 0
  let third : Asked := requested collectingNode "3" (collecting "1") 2
  let second : Asked := requested collectingNode "2" (collecting "2") 1
  let middle : Replay := (start.apply sample first.request).2
  let after : Replay := (middle.apply sample third.request).2
  have run : ServiceRun sample collectingNode [⟨start, first, middle⟩, ⟨middle, third, after⟩]
      after := by
    have begun : ServiceRun sample collectingNode [⟨start, first, middle⟩] middle :=
      Run.nil.snoc ⟨⟨⟨rfl, rfl, rfl, rfl, rfl⟩, _, rfl, rfl⟩, rfl⟩
    exact begun.snoc ⟨⟨⟨rfl, rfl, rfl, rfl, rfl⟩, _, rfl, rfl⟩, rfl⟩
  have rejected : ReplayStep.rejected sample ⟨middle, third, after⟩ = true := by decide +kernel
  have forgotten := claimed _ _ _ _ run collectingNode_nonces _ (by simp) rejected [] second
  let collected : Text := sample.makeAddress .erc20 "2".toList
  have executed : after.sees sample second collected ≠ some [] := by decide +kernel
  have without : middle.sees sample second collected = some [] := by decide
  rw [Replay.serve_nil, Replay.serve_nil] at forgotten
  apply executed
  rw [forgotten, without]

/-- A registration is requested in the place of the first collection, and rejected. -/
theorem rejections_forgotten_sample :
    ∃ steps replay, ServiceRun sample collectingNode steps replay ∧
      (∃ taken ∈ steps, ReplayStep.rejected sample taken = true ∧ taken.Forgotten sample) ∧
      ServiceRun sample collectingNode (steps.filter fun taken => !taken.rejected sample)
        replay := by
  let start : Replay := Replay.setup collectingNode
  let asked : Asked := requested collectingNode "1" registering 0
  let after : Replay := (start.apply sample asked.request).2
  have run : ServiceRun sample collectingNode [⟨start, asked, after⟩] after :=
    Run.nil.snoc ⟨⟨⟨rfl, rfl, rfl, rfl, rfl⟩, _, rfl, rfl⟩, rfl⟩
  have rejected : ReplayStep.rejected sample ⟨start, asked, after⟩ = true := by decide +kernel
  have untouched : start.Untouched sample asked := by
    refine ⟨.inr rfl, fun pending found => ?_⟩
    have idle : (start.queue asked.request.env asked.blockIdx asked.txIdx).all
        (fun pending => !pending.runs) = true := by decide
    have skipped := List.all_eq_true.mp idle pending (List.mem_of_find?_eq_some found)
    rw [List.find?_some found] at skipped
    cases skipped
  obtain ⟨forgotten, kept, _⟩ := rejections_forgotten run collectingNode_nonces (by
    intro taken listed _
    obtain rfl := List.mem_singleton.mp listed
    exact untouched)
  exact ⟨_, after, run, ⟨_, by simp, rejected, forgotten _ (by simp) rejected⟩, kept⟩

end Creditcoin
