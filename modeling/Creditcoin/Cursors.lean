import Creditcoin.Prefixes

/-!
# The cursors of a replay

A request catches up from the cursors to its own place and then moves the cursors there. Within a
block, and from block to block as long as nothing was left out at the front of the block that is
entered, the maps then hold the straight replay of all transactions up to the cursors.
-/

namespace Creditcoin

open Lib Lib.Driver

/-- A recorded transaction is one of the family, so that a replay executes it. -/
def Tx.runs (tx : Tx) : Bool :=
  !tx.sighash.isEmpty && !tx.guid.isEmpty && tx.payload.isSome

/-- What a transaction that is executed has. -/
theorem Tx.runs_iff {tx : Tx} : tx.runs = true ↔
    tx.sighash ≠ [] ∧ ∃ payload, tx.guid ≠ [] ∧ tx.payload = some payload := by
  simp only [Tx.runs, Bool.and_eq_true, Bool.not_eq_true', List.isEmpty_eq_false_iff,
    Option.isSome_iff_exists, exists_and_left, and_assoc]

/-- A request is served by a node that replays the recorded blocks: versions are not checked before
the settings were read. -/
structure Env.Replays (env node : Env) : Prop where
  /-- The recorded blocks. -/
  blocks : env.blocks = node.blocks
  /-- The powers are printed the same. -/
  fixedPower : env.fixedPower = node.fixedPower
  /-- Refunds start at the same block. -/
  dealExpFixBlock : env.dealExpFixBlock = node.dealExpFixBlock
  /-- The settings were not read. -/
  v2block : env.v2block = 0 ∧ node.v2block = 0

/-- Two drivers succeed alike. -/
def SucceedAlike (first second : Driver Unit) : Prop :=
  ∀ overlays after, first overlays = .ok () after ↔ second overlays = .ok () after

section CatchUp

variable {sha : Sha512} {env node : Env} {overlays middle after reached : Overlays} {tip : Int}
  {tx : Tx} {txs : List Tx}

/-- A transaction of another family is skipped. -/
theorem catchUpTx_skips (skipped : tx.runs = false) : catchUpTx sha env tip tx = pure () := by
  unfold catchUpTx execute
  by_cases family : tx.sighash = []
  · rw [if_pos family]
  rw [if_neg family]
  cases found : tx.payload with
  | none => rfl
  | some payload =>
    have unnamed : tx.guid = [] := by
      by_contra named
      simp [Tx.runs, family, named, found] at skipped
    exact if_pos unnamed

/-- A transaction of the family runs its command. -/
theorem catchUpTx_ok (runs : tx.runs = true) : catchUpTx sha env tip tx overlays = .ok () after ↔
    ∃ payload query cmd, tx.payload = some payload ∧ cborToParams payload = .ok (query, cmd) ∧
      doApply sha env (tx.ctx tip) cmd query overlays = .ok () after := by
  obtain ⟨family, payload, named, found⟩ := Tx.runs_iff.mp runs
  simp only [catchUpTx, execute, if_neg family, if_neg named, found, Option.some.injEq,
    existsAndEq, true_and]
  cases read : cborToParams payload with
  | ok parts =>
    obtain ⟨query, cmd⟩ := parts
    constructor
    · intro ran
      exact ⟨query, cmd, rfl, ran⟩
    · rintro ⟨query', cmd', same, ran⟩
      obtain ⟨rfl, rfl⟩ := Prod.mk.inj (Except.ok.inj same)
      exact ran
  | error failure =>
    constructor
    · intro ran
      cases ran
    · rintro ⟨_, _, same, _⟩
      cases same

/-- Transactions of other families are skipped. -/
theorem catchUpTxs_skips (skipped : ∀ tx ∈ txs, tx.runs = false) :
    catchUpTxs sha env tip txs overlays = .ok () after ↔ overlays = after := by
  induction txs generalizing overlays with
  | nil => exact forEach_nil_ok
  | cons tx txs ih =>
    unfold catchUpTxs at ih ⊢
    rw [forEach_cons_ok]
    simp only [catchUpTx_skips (skipped tx List.mem_cons_self), pure_ok, true_and,
      exists_eq_left', ih fun other listed => skipped other (List.mem_cons_of_mem _ listed)]

/-- Transactions are caught up in parts. -/
theorem catchUpTxs_append {others : List Tx} :
    catchUpTxs sha env tip (txs ++ others) overlays = .ok () after ↔
      ∃ middle, catchUpTxs sha env tip txs overlays = .ok () middle ∧
        catchUpTxs sha env tip others middle = .ok () after :=
  forEach_append_ok

/-- A command that succeeds covers the block at hand with its writes. -/
theorem doApply_ok {ctx : Ctx} {cmd : Text} {query : Query} :
    doApply sha env ctx cmd query overlays = .ok () after ↔
      ∃ memory, applyCommand sha cmd query (env.over ctx overlays) ⟨∅, ∅⟩ = .ok ((), memory) ∧
        { overlays with
          tipCurrentState := memory.currentState ∪ overlays.tipCurrentState } = after := by
  unfold doApply
  rw [bind_ok]
  constructor
  · rintro ⟨value, middle, got, ran⟩
    obtain ⟨rfl, rfl⟩ : overlays = value ∧ overlays = middle := EStateM.Result.ok.inj got
    cases outcome : applyCommand sha cmd query (env.over ctx overlays) ⟨∅, ∅⟩ with
    | ok result =>
      obtain ⟨_, memory⟩ := result
      rw [outcome] at ran
      exact ⟨memory, rfl, (EStateM.Result.ok.inj ran).2⟩
    | error failure =>
      rw [outcome] at ran
      cases ran
  · rintro ⟨memory, outcome, rfl⟩
    refine ⟨overlays, overlays, rfl, ?_⟩
    rw [outcome]
    rfl

/-- A command does the same in contexts of one signer, nonce and tip. -/
theorem doApply_alike (replays : env.Replays node) (ctx ctx' : Ctx)
    (transitioning : ctx.transitioning = true ∧ ctx'.transitioning = true)
    (sighash : ctx.sighash = ctx'.sighash) (guid : ctx.guid = ctx'.guid) (tip : ctx.tip = ctx'.tip)
    (cmd : Text) (query : Query) :
    SucceedAlike (doApply sha env ctx cmd query) (doApply sha node ctx' cmd query) := by
  intro overlays after
  have alike : (env.over ctx overlays).Alike (node.over ctx' overlays) :=
    ⟨transitioning, sighash, guid, tip, rfl, rfl, replays.blocks, replays.fixedPower,
      replays.dealExpFixBlock⟩
  have commands : Exec.Agree (env.over ctx overlays) (node.over ctx' overlays) SameWrites
      (applyCommand sha cmd query) (applyCommand sha cmd query) := by
    unfold applyCommand
    apply Exec.Agree.bind_asks
    have first : (env.over ctx overlays).v2block = 0 := replays.v2block.1
    have second : (node.over ctx' overlays).v2block = 0 := replays.v2block.2
    rw [first, second]
    apply Exec.Agree.bind Exec.Agree.failIf
    intro _
    cases Verb.find cmd with
    | none => exact Exec.Agree.fail
    | some verb => exact alike.run verb query
  have outcomes := commands ⟨∅, ∅⟩ ⟨∅, ∅⟩ rfl
  rw [doApply_ok, doApply_ok]
  generalize applyCommand sha cmd query (env.over ctx overlays) ⟨∅, ∅⟩ = first at outcomes
  generalize applyCommand sha cmd query (node.over ctx' overlays) ⟨∅, ∅⟩ = second at outcomes
  cases outcomes with
  | @ok _ memory memory' kept =>
    have writes : memory.currentState = memory'.currentState := kept
    simp only [Except.ok.injEq, Prod.mk.injEq, true_and, exists_eq_left', writes]
  | error => simp only [reduceCtorEq, false_and, exists_false]

/-- A transaction is caught up alike. -/
theorem catchUpTx_alike (replays : env.Replays node) (tip : Int) (tx : Tx) :
    SucceedAlike (catchUpTx sha env tip tx) (catchUpTx sha node tip tx) := by
  intro overlays after
  cases runs : tx.runs with
  | false => rw [catchUpTx_skips runs, catchUpTx_skips runs]
  | true =>
    have commands (cmd : Text) (query : Query) :
        doApply sha env (tx.ctx tip) cmd query overlays = .ok () after ↔
          doApply sha node (tx.ctx tip) cmd query overlays = .ok () after :=
      doApply_alike replays _ _ ⟨rfl, rfl⟩ rfl rfl rfl cmd query overlays after
    rw [catchUpTx_ok runs, catchUpTx_ok runs]
    simp only [commands]

/-- Transactions are caught up alike. -/
theorem catchUpTxs_alike (replays : env.Replays node) (tip : Int) (txs : List Tx) :
    SucceedAlike (catchUpTxs sha env tip txs) (catchUpTxs sha node tip txs) := by
  intro overlays after
  induction txs generalizing overlays with
  | nil => exact Iff.rfl
  | cons tx txs ih =>
    unfold catchUpTxs at ih ⊢
    rw [forEach_cons_ok, forEach_cons_ok]
    simp only [catchUpTx_alike replays tip tx overlays, ih]

/-- A transaction leaves the blocks that are done. -/
theorem catchUpTx_blocks (ran : catchUpTx sha env tip tx overlays = .ok () after) :
    after.transitioningState = overlays.transitioningState := by
  cases runs : tx.runs with
  | false =>
    rw [catchUpTx_skips runs] at ran
    rw [← (pure_ok.mp ran).2]
  | true =>
    obtain ⟨_, query, cmd, _, _, ran⟩ := (catchUpTx_ok runs).mp ran
    obtain ⟨memory, _, rfl⟩ := doApply_ok.mp ran
    rfl

/-- Transactions leave the blocks that are done. -/
theorem catchUpTxs_blocks (ran : catchUpTxs sha env tip txs overlays = .ok () after) :
    after.transitioningState = overlays.transitioningState := by
  induction txs generalizing overlays with
  | nil => rw [forEach_nil_ok.mp ran]
  | cons tx txs ih =>
    obtain ⟨middle, first, rest⟩ := forEach_cons_ok.mp ran
    rw [ih rest, catchUpTx_blocks first]

/-- The straight replay of whole blocks goes on with the next block. -/
theorem replayBlocks_succ_ok {blockIdx : Nat} :
    replayBlocks sha node (blockIdx + 1) overlays = .ok () after ↔
      ∃ middle done, replayBlocks sha node blockIdx overlays = .ok () middle ∧
        catchUpTxs sha node (blockIdx - 1) (node.txsOf blockIdx) middle = .ok () done ∧
        { transitioningState := done.tipCurrentState ∪ done.transitioningState,
          tipCurrentState := ∅ } = after := by
  simp only [replayBlocks, finishBlock, bind_ok, modify_ok]
  constructor
  · rintro ⟨_, middle, blocks, _, done, txs, rfl⟩
    exact ⟨middle, done, blocks, txs, rfl⟩
  · rintro ⟨middle, done, blocks, txs, rfl⟩
    exact ⟨(), middle, blocks, (), done, txs, rfl⟩

/-- The straight replay up to a place is that of the blocks and of the front of the last one. -/
theorem replayPrefix_ok {blockIdx txIdx : Nat} :
    replayPrefix sha node blockIdx txIdx overlays = .ok () after ↔
      ∃ middle, replayBlocks sha node blockIdx overlays = .ok () middle ∧
        catchUpTxs sha node (blockIdx - 1) ((node.txsOf blockIdx).take txIdx) middle =
          .ok () after := by
  unfold replayPrefix
  rw [bind_ok]
  exact ⟨fun ⟨_, middle, blocks, txs⟩ => ⟨middle, blocks, txs⟩,
    fun ⟨middle, blocks, txs⟩ => ⟨(), middle, blocks, txs⟩⟩

/-- A straight replay that succeeds succeeds with all earlier blocks. -/
theorem replayBlocks_le {first last : Nat} (le : first ≤ last)
    (ran : replayBlocks sha node last overlays = .ok () after) :
    ∃ middle, replayBlocks sha node first overlays = .ok () middle := by
  induction le generalizing after with
  | refl => exact ⟨after, ran⟩
  | step _ ih =>
    obtain ⟨middle, _, blocks, _⟩ := replayBlocks_succ_ok.mp ran
    exact ih blocks

/-- The straight replay of whole blocks ends with a block that is done. -/
theorem replayBlocks_done {blockIdx : Nat}
    (ran : replayBlocks sha node blockIdx ⟨∅, ∅⟩ = .ok () after) : after.tipCurrentState = ∅ := by
  cases blockIdx with
  | zero => rw [← (pure_ok.mp ran).2]
  | succ blockIdx =>
    obtain ⟨_, _, _, _, rfl⟩ := replayBlocks_succ_ok.mp ran
    rfl

/-- A node that replays has the recorded transactions. -/
theorem Env.Replays.txsOf (replays : env.Replays node) (blockIdx : Nat) :
    env.txsOf blockIdx = node.txsOf blockIdx := by
  rw [Env.txsOf, replays.blocks, Env.txsOf]

/-- The loop over whole blocks goes on with the straight replay. -/
theorem blocks_caughtUp (replays : env.Replays node) {first count : Nat}
    (start : replayBlocks sha node first ⟨∅, ∅⟩ = .ok () middle)
    (straight : replayBlocks sha node (first + count) ⟨∅, ∅⟩ = .ok () after) :
    forEach (List.range' first count) (fun i => do
      catchUpTxs sha env (i - 1) (env.txsOf i)
      finishBlock) middle = .ok () after := by
  induction count generalizing after with
  | zero =>
    rw [Nat.add_zero, start] at straight
    exact straight
  | succ count ih =>
    obtain ⟨reached, done, blocks, txs, rfl⟩ := replayBlocks_succ_ok.mp straight
    rw [List.range'_1_concat, forEach_append_ok]
    refine ⟨reached, ih blocks, ?_⟩
    rw [forEach_cons_ok]
    refine ⟨_, ?_, forEach_nil_ok.mpr rfl⟩
    rw [bind_ok]
    have caught : catchUpTxs sha env _ (node.txsOf (first + count)) reached = .ok () done :=
      (catchUpTxs_alike replays _ _ _ _).mpr txs
    rw [← replays.txsOf] at caught
    exact ⟨(), done, caught, modify_ok.mpr rfl⟩

/-- Nothing is left out at the front of a block that is entered. -/
def Replay.Fronts (node : Env) (replay : Replay) (blockIdx txIdx : Nat) : Prop :=
  replay.updatedBlockIdx < blockIdx →
    (∀ tx ∈ (node.txsOf replay.updatedBlockIdx).take txIdx, tx.runs = false) ∧
      (∀ tx ∈ (node.txsOf blockIdx).take txIdx, tx.runs = false) ∧
      txIdx ≤ (node.txsOf replay.updatedBlockIdx).length

/-- The maps of a replay hold the transactions up to its cursors. -/
def Replay.Held (sha : Sha512) (node : Env) (replay : Replay) : Prop :=
  replay.overlays.Hold sha node replay.updatedBlockIdx (replay.updatedTxIdx + 1).toNat

/-- From maps that hold what is before the cursors the loops come to the straight replay. -/
theorem Replay.Held.catchUp {replay : Replay} {blockIdx txIdx : Nat}
    (held : replay.Held sha node) (replays : env.Replays node)
    (forward : replay.updatedBlockIdx ≤ blockIdx) (fronts : replay.Fronts node blockIdx txIdx)
    (straight : replayPrefix sha node blockIdx txIdx ⟨∅, ∅⟩ = .ok () reached) :
    replay.catchUp sha env blockIdx txIdx replay.overlays = .ok () reached := by
  obtain ⟨updatedBlockIdx, updatedTxIdx, overlays⟩ := replay
  obtain ⟨start, before, front⟩ := replayPrefix_ok.mp held
  obtain ⟨entered, blocks, txs⟩ := replayPrefix_ok.mp straight
  dsimp only at forward before front ⊢
  have caught (tip : Int) (txs : List Tx) (overlays after : Overlays) :
      catchUpTxs sha env tip txs overlays = .ok () after ↔
        catchUpTxs sha node tip txs overlays = .ok () after :=
    catchUpTxs_alike replays tip txs overlays after
  rcases Nat.lt_or_eq_of_le forward with later | rfl
  · obtain ⟨others, skipped, enough⟩ := fronts later
    -- the rest of the block at hand, then whole blocks, then nothing
    obtain ⟨next, following⟩ := replayBlocks_le later blocks
    obtain ⟨start', done, before', whole, rfl⟩ := replayBlocks_succ_ok.mp following
    rw [before] at before'
    obtain rfl := (EStateM.Result.ok.inj before').2
    rw [← List.take_append_drop (updatedTxIdx + 1).toNat (node.txsOf updatedBlockIdx),
      catchUpTxs_append] at whole
    obtain ⟨middle, front', rest⟩ := whole
    rw [front] at front'
    obtain rfl := (EStateM.Result.ok.inj front').2
    obtain rfl := (catchUpTxs_skips skipped).mp txs
    obtain ⟨count, rfl⟩ := Nat.exists_eq_add_of_le later
    simp only [Replay.catchUp, if_pos later, bind_ok]
    refine ⟨(), done, ?_, (), _, modify_ok.mpr rfl, (), entered, ?_, (), entered, ?_, ?_⟩
    · rw [replays.txsOf]
      exact (caught _ _ _ _).mpr rest
    · rw [Nat.add_sub_cancel_left]
      exact blocks_caughtUp replays following blocks
    · rw [replays.txsOf]
      exact (catchUpTxs_skips others).mpr rfl
    · rw [replays.txsOf, if_neg (Nat.not_lt.mpr enough)]
      rfl
  · rw [before] at blocks
    obtain rfl := (EStateM.Result.ok.inj blocks).2
    simp only [Replay.catchUp, lt_irrefl, if_false, if_true]
    rw [replays.txsOf]
    split
    · -- back in the block: it starts over
      rw [bind_ok]
      refine ⟨(), start, modify_ok.mpr ?_, (caught _ _ _ _).mpr txs⟩
      obtain ⟨transitioningState, tipCurrentState⟩ := start
      have kept : overlays.transitioningState = transitioningState := catchUpTxs_blocks front
      have empty : tipCurrentState = ∅ := replayBlocks_done before
      rw [kept, empty]
    · rename_i onward
      have order : (updatedTxIdx + 1).toNat ≤ txIdx := by omega
      have parts : (node.txsOf updatedBlockIdx).take txIdx =
          (node.txsOf updatedBlockIdx).take (updatedTxIdx + 1).toNat ++
            ((node.txsOf updatedBlockIdx).take txIdx).drop (updatedTxIdx + 1).toNat := by
        have whole := List.take_append_drop (updatedTxIdx + 1).toNat
          ((node.txsOf updatedBlockIdx).take txIdx)
        rw [List.take_take, min_eq_left order] at whole
        exact whole.symm
      rw [parts, catchUpTxs_append] at txs
      obtain ⟨middle, front', rest⟩ := txs
      rw [front] at front'
      obtain rfl := (EStateM.Result.ok.inj front').2
      exact (caught _ _ _ _).mpr rest

end CatchUp

/-! ## Requests -/

/-- A request with its place in the recorded blocks. -/
structure Asked where
  /-- The request. -/
  request : Request
  /-- The recorded block. -/
  blockIdx : Nat
  /-- The place in the block. -/
  txIdx : Nat

/-- A node that replays is asked for the nonce that is recorded at the place. -/
structure Asked.Located (node : Env) (asked : Asked) : Prop where
  /-- The request is served by the node. -/
  replays : asked.request.env.Replays node
  /-- The nonce is recorded at the place. -/
  place : ∃ tx, (node.txsOf asked.blockIdx)[asked.txIdx]? = some tx ∧
    tx.guid = asked.request.env.nonce

/-- A node that replays is asked for a transaction that is recorded at the place. -/
structure Asked.Recorded (sha : Sha512) (node : Env) (asked : Asked) : Prop where
  /-- The request is served by the node. -/
  replays : asked.request.env.Replays node
  /-- The transaction has a nonce. -/
  named : asked.request.env.nonce ≠ []
  /-- The transaction is recorded. -/
  recorded : ∃ compressed, compress asked.request.env.signerPublicKey = .ok compressed ∧
    (node.txsOf asked.blockIdx)[asked.txIdx]? =
      some ⟨sha.id compressed, asked.request.env.nonce, some asked.request.payload⟩

/-- A request, at a place that is not before the block at hand. -/
def Replay.Step (sha : Sha512) (node : Env) (replay : Replay) (asked : Asked) (after : Replay) :
    Prop :=
  asked.Recorded sha node ∧ replay.updatedBlockIdx ≤ asked.blockIdx ∧
    (replay.apply sha asked.request).2 = after

/-- A request with the replay around it. -/
abbrev ReplayStep : Type := Transition Replay Asked

/-- The requests that a node is asked one after another. -/
abbrev ReplayRun (sha : Sha512) (node : Env) : List ReplayStep → Replay → Prop :=
  Run (Replay.Step sha node) (Replay.setup node)

/-- The recorded blocks can be replayed: their nonces differ, the first block has nothing to
execute, and in their order no transaction is rejected. -/
structure Env.Replayable (sha : Sha512) (node : Env) : Prop where
  /-- The nonces differ. -/
  nonces : (node.blocks.flatMap fun block => block.txs.map Tx.guid).Nodup
  /-- The first block has nothing to execute. -/
  genesis : ∀ tx ∈ node.txsOf 0, tx.runs = false
  /-- The transactions are executed in order. -/
  executes : ∃ overlays, replayBlocks sha node node.blocks.length ⟨∅, ∅⟩ = .ok () overlays

/-- What a command finds under a key in the maps. -/
def Overlays.read (overlays : Overlays) (key : Text) : Text :=
  match overlays.tipCurrentState.lookup key with
  | some stateData => stateData
  | none => overlays.transitioningState.get key

/-- The maps are found to be those of the straight replay up to a place. -/
def Overlays.Shows (sha : Sha512) (node : Env) (blockIdx txIdx : Nat) (overlays : Overlays) :
    Prop :=
  ∃ straight, replayPrefix sha node blockIdx txIdx ⟨∅, ∅⟩ = .ok () straight ∧
    overlays.read = straight.read

/-- A request is executed on the straight replay up to its place, and the maps hold that replay with
the request when the cursors are there. -/
structure ReplayStep.Exact (sha : Sha512) (node : Env) (taken : ReplayStep) : Prop where
  /-- The command runs on exactly what is recorded before. -/
  caughtUp : ∃ reached,
    taken.before.catchUp sha taken.label.request.env taken.label.blockIdx taken.label.txIdx
        taken.before.overlays = .ok () reached ∧
      reached.Shows sha node taken.label.blockIdx taken.label.txIdx
  /-- The cursors move to the place. -/
  cursors : taken.after.updatedBlockIdx = taken.label.blockIdx ∧
    taken.after.updatedTxIdx = taken.label.txIdx
  /-- The maps hold what is recorded up to the place. -/
  held : taken.after.overlays.Shows sha node taken.label.blockIdx (taken.label.txIdx + 1)

section Requests

variable {sha : Sha512} {env node : Env} {replay after : Replay} {asked : Asked}

/-- A value is found under its key when the keys differ. -/
theorem find_of_nodup {α : Type} {entries : List (Text × α)} {key : Text} {value : α}
    (differ : (entries.map Prod.fst).Nodup) (listed : (key, value) ∈ entries) :
    entries.find? (fun entry => entry.1 == key) = some (key, value) := by
  induction entries with
  | nil => exact absurd listed List.not_mem_nil
  | cons entry entries ih =>
    rw [List.map_cons, List.nodup_cons] at differ
    rcases List.mem_cons.mp listed with rfl | later
    · exact List.find?_cons_of_pos (beq_self_eq_true key)
    · have other : (entry.1 == key) = false := by
        rw [beq_eq_false_iff_ne]
        intro same
        exact differ.1 (same ▸ List.mem_map_of_mem later)
      rw [List.find?_cons_of_neg (by rw [other]; exact Bool.false_ne_true)]
      exact ih differ.2 later

/-- The nonces of the recorded transactions. -/
theorem txguid2prevblockidx_keys (blocks : List SimpleBlock) :
    ((txguid2prevblockidx blocks).map Prod.fst).reverse =
      blocks.flatMap fun block => block.txs.map Tx.guid := by
  have txs (block : SimpleBlock) (place : Nat) :
      (block.txs.zipIdx.map fun tx => (tx.1.guid, (⟨(place : Int) - 1, tx.2⟩ : TxPos))).map
        Prod.fst = block.txs.map Tx.guid := by
    calc
      _ = (block.txs.zipIdx.map Prod.fst).map Tx.guid := by
        rw [List.map_map, List.map_map]
        rfl
      _ = block.txs.map Tx.guid := by rw [List.zipIdx_map_fst]
  unfold txguid2prevblockidx
  rw [List.map_reverse, List.reverse_reverse, List.map_flatMap]
  simp only [txs]
  calc
    _ = (blocks.zipIdx.map Prod.fst).flatMap fun block => block.txs.map Tx.guid := by
      rw [List.flatMap_map]
    _ = blocks.flatMap fun block => block.txs.map Tx.guid := by rw [List.zipIdx_map_fst]

/-- A recorded transaction is located. -/
theorem Asked.Recorded.located (recorded : asked.Recorded sha node) : asked.Located node := by
  obtain ⟨_, _, place⟩ := recorded.recorded
  exact ⟨recorded.replays, _, place, rfl⟩

/-- A recorded nonce is found at its place. -/
theorem Asked.Located.found (located : asked.Located node)
    (nonces : (node.blocks.flatMap fun block => block.txs.map Tx.guid).Nodup) :
    (txguid2prevblockidx asked.request.env.blocks).find?
        (fun entry => entry.1 == asked.request.env.nonce) =
      some (asked.request.env.nonce, ⟨(asked.blockIdx : Int) - 1, asked.txIdx⟩) := by
  rw [located.replays.blocks]
  apply find_of_nodup
  · rw [← List.nodup_reverse, txguid2prevblockidx_keys]
    exact nonces
  obtain ⟨tx, place, named⟩ := located.place
  rw [← named]
  unfold Env.txsOf at place
  cases block : node.blocks[asked.blockIdx]? with
  | none => simp [block] at place
  | some found =>
    rw [block] at place
    unfold txguid2prevblockidx
    rw [List.mem_reverse, List.mem_flatMap]
    refine ⟨(found, asked.blockIdx), List.mk_mem_zipIdx_iff_getElem?.mpr block, ?_⟩
    exact List.mem_map.mpr ⟨(tx, asked.txIdx), List.mk_mem_zipIdx_iff_getElem?.mpr place, rfl⟩

/-- A recorded transaction is executed by the straight replay. -/
theorem Asked.Recorded.straight (recorded : asked.Recorded sha node)
    (executes : ∃ overlays, replayBlocks sha node node.blocks.length ⟨∅, ∅⟩ = .ok () overlays) :
    ∃ tx reached next, (node.txsOf asked.blockIdx)[asked.txIdx]? = some tx ∧
      replayPrefix sha node asked.blockIdx asked.txIdx ⟨∅, ∅⟩ = .ok () reached ∧
      catchUpTx sha node (asked.blockIdx - 1) tx reached = .ok () next ∧
      replayPrefix sha node asked.blockIdx (asked.txIdx + 1) ⟨∅, ∅⟩ = .ok () next := by
  obtain ⟨compressed, _, place⟩ := recorded.recorded
  obtain ⟨overlays, executes⟩ := executes
  have inside : asked.blockIdx + 1 ≤ node.blocks.length := by
    by_contra outside
    have missing : node.blocks[asked.blockIdx]? = none :=
      List.getElem?_eq_none (Nat.not_lt.mp outside)
    simp [Env.txsOf, missing] at place
  obtain ⟨done, blocks⟩ := replayBlocks_le inside executes
  obtain ⟨start, last, before, whole, _⟩ := replayBlocks_succ_ok.mp blocks
  generalize (⟨sha.id compressed, asked.request.env.nonce, some asked.request.payload⟩ : Tx) = tx
    at place
  have front : (node.txsOf asked.blockIdx).take (asked.txIdx + 1) =
      (node.txsOf asked.blockIdx).take asked.txIdx ++ [tx] := by
    rw [List.take_add_one, place]
    rfl
  rw [← List.take_append_drop (asked.txIdx + 1) (node.txsOf asked.blockIdx), catchUpTxs_append]
    at whole
  obtain ⟨next, upto, _⟩ := whole
  have parts := upto
  rw [front, catchUpTxs_append] at parts
  obtain ⟨reached, earlier, alone⟩ := parts
  obtain ⟨next', own, final⟩ := forEach_cons_ok.mp alone
  obtain rfl := forEach_nil_ok.mp final
  exact ⟨tx, reached, next', place, replayPrefix_ok.mpr ⟨start, before, earlier⟩, own,
    replayPrefix_ok.mpr ⟨start, before, upto⟩⟩

/-- A request keeps the maps at the cursors when nothing is left out at the front of its block. -/
theorem ReplayStep.exact {taken : ReplayStep} (replayable : node.Replayable sha)
    (held : taken.before.Held sha node)
    (step : Replay.Step sha node taken.before taken.label taken.after)
    (fronts : taken.before.Fronts node taken.label.blockIdx taken.label.txIdx) :
    taken.Exact sha node ∧ taken.after.Held sha node := by
  obtain ⟨replay, asked, after⟩ := taken
  obtain ⟨recorded, forward, stepped⟩ := step
  dsimp only at held fronts recorded forward stepped
  subst stepped
  obtain ⟨tx, reached, next, place, straight, own, upto⟩ :=
    recorded.straight replayable.executes
  have caughtUp := held.catchUp recorded.replays forward fronts straight
  obtain ⟨compressed, key, place'⟩ := recorded.recorded
  rw [place, Option.some.injEq] at place'
  subst place'
  -- the command runs as it does when it is caught up
  have runs : (⟨sha.id compressed, asked.request.env.nonce, some asked.request.payload⟩ :
      Tx).runs = true := by
    have id : sha.id compressed ≠ [] := Sha512.IsId.ne_nil ⟨compressed, rfl⟩
    simp [Tx.runs, id, recorded.named]
  obtain ⟨payload, query, cmd, payloadIs, params, own⟩ := (catchUpTx_ok runs).mp own
  obtain rfl := Option.some.inj payloadIs
  let ctx : Ctx :=
    { sighash := sha.id compressed, guid := asked.request.env.nonce,
      tip := (asked.blockIdx : Int) - 1, replaying := false, transitioning := true }
  let caught : Ctx := Tx.ctx ⟨sha.id compressed, asked.request.env.nonce,
    some asked.request.payload⟩ (asked.blockIdx - 1)
  have alike : SucceedAlike (doApply sha asked.request.env ctx cmd query)
      (doApply sha node caught cmd query) :=
    doApply_alike recorded.replays ctx caught ⟨rfl, rfl⟩ rfl rfl rfl cmd query
  have ran : doApply sha asked.request.env ctx cmd query reached = .ok () next :=
    (alike reached next).mpr own
  have current : ((asked.blockIdx : Int) - 1 + 1).toNat = asked.blockIdx := by omega
  have served : replay.apply sha asked.request =
      (.ok (), ⟨asked.blockIdx, asked.txIdx, next⟩) := by
    simp only [Replay.apply, params, key, recorded.located.found replayable.nonces, current]
    have both : (replay.catchUp sha asked.request.env asked.blockIdx asked.txIdx >>= fun _ =>
        doApply sha asked.request.env ctx cmd query) replay.overlays = .ok () next :=
      bind_ok.mpr ⟨(), reached, caughtUp, ran⟩
    rw [both]
  rw [served]
  exact ⟨⟨⟨reached, caughtUp, reached, straight, rfl⟩, ⟨rfl, rfl⟩, next, upto, rfl⟩, upto⟩

/-- The replay starts with maps that hold the first block. -/
theorem setup_held (genesis : ∀ tx ∈ node.txsOf 0, tx.runs = false) :
    (Replay.setup node).Held sha node := by
  refine replayPrefix_ok.mpr ⟨⟨∅, ∅⟩, pure_ok.mpr ⟨rfl, rfl⟩, ?_⟩
  exact (catchUpTxs_skips fun tx listed => genesis tx (List.mem_of_mem_take listed)).mpr rfl

/-- Every request of a replay is executed on exactly what is recorded before it, as long as no
request that enters a block leaves anything out at its front. -/
theorem replay_exact {steps : List ReplayStep} (run : ReplayRun sha node steps replay)
    (replayable : node.Replayable sha) (guarded : ∀ taken ∈ steps,
      taken.before.Fronts node taken.label.blockIdx taken.label.txIdx) :
    ∀ taken ∈ steps, taken.Exact sha node := by
  intro taken listed
  obtain ⟨earlier, later, rfl⟩ := List.append_of_mem listed
  obtain ⟨before, step, _⟩ := run.split
  refine (ReplayStep.exact replayable ?_ step (guarded taken listed)).1
  refine before.invariant (Replay.Held sha node) (setup_held replayable.genesis)
    (fun before label after held step fronts => ?_)
    (fun other shown => guarded other (List.mem_append_left _ shown))
  exact (@ReplayStep.exact sha node ⟨before, label, after⟩ replayable held step fronts).2

end Requests

/-! ## A request at a later place of its block -/

/-- Coins are collected for a transfer. -/
def collecting (blockchainTxId : String) : Json :=
  call "CollectCoins" [("p1", "0x1".toList), ("p2", "1000000000000000000".toList),
    ("p3", blockchainTxId.toList)]

/-- An address is registered. -/
def registering : Json :=
  call "RegisterAddress" [("p1", "ethereum".toList), ("p2", "0x2".toList),
    ("p3", "rinkeby".toList)]

/-- A transaction that the fundraiser recorded. -/
def recordedTx (nonce : String) (payload : Json) : Tx :=
  ⟨sample.id fundraiserKey, nonce.toList, some payload⟩

/-- In the first block is a transaction of another family, in the second the fundraiser collects
coins and registers an address. -/
def recordedNode : Env :=
  { sampleNode with
    blocks := [⟨[], [⟨[], "0".toList, none⟩]⟩,
      ⟨[], [recordedTx "2" (collecting "2"), recordedTx "5" registering]⟩] }

/-- The fundraiser's transaction in the second block is requested. -/
def requested (node : Env) (nonce : String) (payload : Json) (txIdx : Nat) : Asked :=
  ⟨⟨{ node with signerPublicKey := fundraiserKey, nonce := nonce.toList }, payload⟩, 1, txIdx⟩

/-- A recorded transaction can be requested. -/
theorem requested_recorded {nonce : String} {payload : Json} {txIdx : Nat}
    (named : nonce.toList ≠ [])
    (recorded : (recordedNode.txsOf 1)[txIdx]? = some (recordedTx nonce payload)) :
    (requested recordedNode nonce payload txIdx).Recorded sample recordedNode where
  replays := ⟨rfl, rfl, rfl, rfl, rfl⟩
  named := named
  recorded := by
    have key : compress fundraiserKey = .ok fundraiserKey := by decide
    exact ⟨fundraiserKey, key, recorded⟩

/-- What the loops find under a key, when they succeed. -/
def Driver.found (key : Text) (driver : Driver Unit) (overlays : Overlays) : Option Text :=
  match driver overlays with
  | .ok _ after => some (after.read key)
  | .error _ _ => none

/-- The recorded blocks of the sample are replayed in order. -/
theorem recordedNode_replayable : recordedNode.Replayable sample where
  nonces := by decide
  genesis := by decide
  executes := by
    have executed : Driver.found [] (replayBlocks sample recordedNode 2) ⟨∅, ∅⟩ = some [] := by
      decide +kernel
    unfold Driver.found at executed
    split at executed
    · rename_i after replayed
      exact ⟨after, replayed⟩
    · cases executed

/-- The registration is requested before the collection: the loop over the block that is entered
goes over the block that is left, so the collected coins are missing. -/
theorem replay_exact_skipped :
    ¬ ∀ (sha : Sha512) (node : Env) (steps : List ReplayStep) (replay : Replay),
      ReplayRun sha node steps replay → node.Replayable sha →
      ∀ taken ∈ steps, taken.Exact sha node := by
  intro claimed
  let asked : Asked := requested recordedNode "5" registering 1
  let start : Replay := Replay.setup recordedNode
  let after : Replay := (start.apply sample asked.request).2
  have recorded : asked.Recorded sample recordedNode :=
    requested_recorded (by decide) rfl
  have run : ReplayRun sample recordedNode [⟨start, asked, after⟩] after :=
    Run.nil.snoc ⟨recorded, Nat.zero_le _, rfl⟩
  obtain ⟨⟨reached, caughtUp, straight, replayed, same⟩, _, _⟩ :=
    claimed _ _ _ _ run recordedNode_replayable _ (List.mem_singleton_self _)
  let wallet : Text := sample.walletId (sample.id fundraiserKey)
  have missing : Driver.found wallet (start.catchUp sample asked.request.env 1 1)
      start.overlays = some [] := by decide
  have collected : Driver.found wallet (replayPrefix sample recordedNode 1 1) ⟨∅, ∅⟩ ≠
      some [] := by decide +kernel
  apply collected
  rw [← missing]
  unfold Driver.found
  dsimp only [asked, requested, start] at caughtUp replayed ⊢
  rw [caughtUp, replayed]
  exact congrArg some (congrFun same wallet).symm

/-- The transactions are requested in order. -/
theorem replay_exact_sample :
    ∃ steps replay, ReplayRun sample recordedNode steps replay ∧ steps.length = 2 ∧
      ∀ taken ∈ steps, taken.Exact sample recordedNode := by
  let start : Replay := Replay.setup recordedNode
  let first : Asked := requested recordedNode "2" (collecting "2") 0
  let second : Asked := requested recordedNode "5" registering 1
  let middle : Replay := (start.apply sample first.request).2
  let after : Replay := (middle.apply sample second.request).2
  have cursors : middle.updatedBlockIdx = 1 := by decide
  have run : ReplayRun sample recordedNode [⟨start, first, middle⟩, ⟨middle, second, after⟩]
      after := by
    have begun : ReplayRun sample recordedNode [⟨start, first, middle⟩] middle :=
      Run.nil.snoc ⟨requested_recorded (by decide) rfl, Nat.zero_le _, rfl⟩
    exact begun.snoc ⟨requested_recorded (by decide) rfl, cursors.le, rfl⟩
  refine ⟨_, after, run, rfl, replay_exact run recordedNode_replayable ?_⟩
  intro taken listed later
  rcases List.mem_cons.mp listed with rfl | listed
  · exact ⟨by decide, by decide, Nat.zero_le _⟩
  · obtain rfl := List.mem_singleton.mp listed
    exact absurd (cursors ▸ later) (by decide)

end Creditcoin
