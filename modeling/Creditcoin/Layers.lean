import Creditcoin.Replay
import Creditcoin.Script
import Creditcoin.Lib.Layers

/-!
# The maps of a replay as one map

While recorded blocks are replayed, a command writes `currentState`, its writes then cover those
of its block in `tipCurrentState`, and a block that is done is folded into
`transitioningState`; a deletion writes the empty string. Reading through the three maps and
listing them by prefix give what a single map would.
-/

namespace Creditcoin

open Lib

/-- What a command wrote covers what its block wrote before. -/
def Overlays.commit (overlays : Overlays) (memory : Memory) : Overlays :=
  { overlays with tipCurrentState := memory.currentState ∪ overlays.tipCurrentState }

/-- The three maps, with the validator's state beside them. -/
structure Layers where
  /-- The maps below. -/
  overlays : Overlays
  /-- What the command at hand writes. -/
  memory : Memory

/-- What happens to the three maps. -/
inductive Operation where
  /-- `setState(state, states)`. -/
  | setStates (states : List (Text × Text))
  /-- `setState(state, stateData, id)`. -/
  | setState (stateData id : Text)
  /-- `deleteState(state, id)`. -/
  | deleteState (id : Text)
  /-- The end of `doApply`. -/
  | doApply
  /-- The end of a block. -/
  | fold

/-- The environment over the maps. -/
def Layers.env (layers : Layers) (env : Env) : Env := env.over env.ctx layers.overlays

/-- The maps before anything happened. -/
def Layers.empty (state : State) : Layers := ⟨⟨∅, ∅⟩, ⟨state, ∅⟩⟩

/-- The maps after a write of a command. -/
def Layers.written (env : Env) (layers : Layers) (write : App Unit) : Layers :=
  match write (layers.env env) layers.memory with
  | .ok (_, memory) => { layers with memory := memory }
  | .error _ => layers

/-- The maps after an operation. -/
def Layers.perform (env : Env) (layers : Layers) : Operation → Layers
  | .setStates states => layers.written env (Creditcoin.setStates states)
  | .setState stateData id => layers.written env (setStatePointer stateData id)
  | .deleteState id => layers.written env (Creditcoin.deleteState id)
  | .doApply =>
    ⟨layers.overlays.commit layers.memory, { layers.memory with currentState := ∅ }⟩
  | .fold =>
    match finishBlock layers.overlays with
    | .ok _ overlays => { layers with overlays := overlays }
    | .error _ overlays => { layers with overlays := overlays }

/-- What an operation does to a single map. -/
def Operation.apply (values : Text → Text) : Operation → Text → Text
  | .setStates states =>
    states.foldl (fun values entry => Function.update values entry.1 entry.2) values
  | .setState stateData id => Function.update values id stateData
  | .deleteState id => Function.update values id []
  | .doApply => values
  | .fold => values

/-- The single map after operations: the last value that was set under each key. -/
def lastValues (operations : List Operation) : Text → Text :=
  operations.foldl Operation.apply fun _ => []

/-- A command that succeeds ends by covering the writes of its block. -/
theorem doApply_commit (sha : Sha512) (env : Env) (ctx : Ctx) (cmd : Text) (query : Query)
    (overlays : Overlays) :
    doApply sha env ctx cmd query overlays =
      match applyCommand sha cmd query (env.over ctx overlays) ⟨∅, ∅⟩ with
      | .ok (_, memory) => .ok () (overlays.commit memory)
      | .error failure => .error failure overlays := by
  have current : (EStateM.get overlays : EStateM.Result Exception Overlays Overlays) =
      .ok overlays overlays := rfl
  cases ran : applyCommand sha cmd query (env.over ctx overlays) ⟨∅, ∅⟩ with
  | ok done =>
    simp only [doApply, bind, EStateM.bind, get, getThe, MonadStateOf.get, current, ran]
    rfl
  | error failure =>
    simp only [doApply, bind, EStateM.bind, get, getThe, MonadStateOf.get, current, ran]
    rfl

section Reading

variable {env : Env}

/-- The maps from the top. -/
def Layers.stack (layers : Layers) : List State :=
  [layers.memory.currentState, layers.overlays.tipCurrentState,
    layers.overlays.transitioningState]

/-- `getState` reads the first map that has the key. -/
theorem Layers.read_through (transitioning : env.ctx.transitioning = true) (layers : Layers)
    (key : Text) :
    layers.memory.read (layers.env env) key = Store.getThrough layers.stack key := by
  have replays : (layers.env env).ctx.transitioning = true := transitioning
  unfold Memory.read Store.getThrough Store.through
  rw [if_pos replays]
  dsimp only [Layers.stack]
  cases layers.memory.currentState.lookup key with
  | some stateData => rfl
  | none =>
    rw [Option.none_or, Store.through]
    dsimp only [Layers.env, Env.over]
    cases layers.overlays.tipCurrentState.lookup key with
    | some stateData => rfl
    | none =>
      rw [Option.none_or, Store.through, Store.through, Option.or_none]
      rfl

/-- Every operation does to what is read what it does to a single map. -/
theorem Layers.perform_read (transitioning : env.ctx.transitioning = true) (layers : Layers)
    (operation : Operation) :
    Store.getThrough (layers.perform env operation).stack =
      operation.apply (Store.getThrough layers.stack) := by
  have replays : (layers.env env).ctx.transitioning = true := transitioning
  cases operation with
  | setStates states =>
    have wrote : (layers.perform env (.setStates states)).stack =
        layers.memory.currentState.setAll states :: layers.stack.tail := by
      simp only [perform, written, Creditcoin.setStates, Exec.modify, replays, if_true]
      rfl
    rw [wrote]
    exact Store.getThrough_setAll _ _ states
  | setState stateData id =>
    have wrote : (layers.perform env (.setState stateData id)).stack =
        layers.memory.currentState.set id stateData :: layers.stack.tail := by
      simp only [perform, written, setStatePointer, Exec.modify, replays, if_true]
      rfl
    rw [wrote]
    exact Store.getThrough_set _ _ id stateData
  | deleteState id =>
    have wrote : (layers.perform env (.deleteState id)).stack =
        layers.memory.currentState.set id [] :: layers.stack.tail := by
      simp only [perform, written, Creditcoin.deleteState, Exec.modify, replays, if_true]
      rfl
    rw [wrote]
    exact Store.getThrough_set _ _ id []
  | doApply =>
    -- the writes of the command move down into the map of its block
    funext key
    change (Store.through [∅, layers.memory.currentState ∪ layers.overlays.tipCurrentState,
      layers.overlays.transitioningState] key).getD [] = (Store.through layers.stack key).getD []
    rw [Store.through_empty, Store.through_union]
    rfl
  | fold =>
    -- the map of the block moves down, below the writes of the command
    funext key
    change (Store.through [layers.memory.currentState, ∅,
      layers.overlays.tipCurrentState ∪ layers.overlays.transitioningState] key).getD [] =
        (Store.through layers.stack key).getD []
    have below : Store.through [∅,
        layers.overlays.tipCurrentState ∪ layers.overlays.transitioningState] key =
        Store.through [layers.overlays.tipCurrentState,
          layers.overlays.transitioningState] key := by
      rw [Store.through_empty, Store.through_union]
    rw [Store.through_cons_congr _ below]
    rfl

/-- After any operations the three maps read as the last values that were set. -/
theorem Layers.foldl_read (transitioning : env.ctx.transitioning = true)
    (operations : List Operation) (layers : Layers) :
    Store.getThrough (operations.foldl (Layers.perform env) layers).stack =
      operations.foldl Operation.apply (Store.getThrough layers.stack) := by
  induction operations generalizing layers with
  | nil => rfl
  | cons operation operations ih =>
    rw [List.foldl_cons, ih, layers.perform_read transitioning]
    rfl

end Reading

section Listing

variable {env : Env}

/-- The entries of one map: the keys with the prefix that have a value. -/
theorem mem_entriesIn {start key value : Text} {values : State} :
    (key, value) ∈ entriesIn start values ↔
      key.startsWith start = true ∧ value ≠ [] ∧ values.lookup key = some value := by
  have stored : (key, value) ∈ (values.entries.map fun entry => (entry.1, entry.2)) ↔
      values.lookup key = some value := by
    rw [← Option.mem_def, AList.mem_lookup_iff]
    constructor
    · intro listed
      obtain ⟨entry, member, same⟩ := List.mem_map.mp listed
      obtain ⟨rfl, rfl⟩ := Prod.mk.inj same
      exact member
    · intro member
      exact List.mem_map.mpr ⟨⟨key, value⟩, member, rfl⟩
  have filled : (!List.isEmpty value) = true ↔ value ≠ [] := by
    cases value with
    | nil => simp
    | cons first rest => simp
  rw [entriesIn, List.mem_mergeSort, List.mem_filter, stored, Bool.and_eq_true, filled]
  constructor
  · rintro ⟨found, named, present⟩
    exact ⟨named, present, found⟩
  · rintro ⟨named, present, found⟩
    exact ⟨found, named, present⟩

/-- No key is listed twice from one map. -/
theorem entriesIn_nodup (start : Text) (values : State) :
    ((entriesIn start values).map Prod.fst).Nodup := by
  have keys : ((values.entries.map fun entry => (entry.1, entry.2)).map Prod.fst).Nodup := by
    rw [List.map_map]
    exact AList.keys_nodup values
  have sorted : (entriesIn start values).Perm ((values.entries.map fun entry =>
      (entry.1, entry.2)).filter fun entry => entry.1.startsWith start && !entry.2.isEmpty) :=
    List.mergeSort_perm _ _
  have kept := (List.filter_sublist (p := fun entry : Text × Text =>
    entry.1.startsWith start && !entry.2.isEmpty)
    (l := values.entries.map fun entry => (entry.1, entry.2))).map Prod.fst
  exact ((sorted.map Prod.fst).nodup_iff).mpr (keys.sublist kept)

/-- The map that the second loop of `filter` goes through. -/
def Layers.merged (layers : Layers) : State :=
  layers.overlays.tipCurrentState.entries.foldl
    (fun values entry =>
      if (layers.memory.currentState.lookup entry.1).isSome then values
      else values.set entry.1 entry.2)
    layers.memory.currentState

/-- The merged map has what the two upper maps have. -/
theorem Layers.merged_lookup (layers : Layers) (key : Text) :
    layers.merged.lookup key = (layers.memory.currentState.lookup key).or
      (layers.overlays.tipCurrentState.lookup key) := by
  rw [merged, Store.lookup_insertMissing _ _ layers.overlays.tipCurrentState.nodupKeys]
  cases found : layers.memory.currentState.lookup key with
  | some value => rfl
  | none =>
    rw [Option.or_none]
    rfl

/-- The list of `filter` is that of the lowest map, but for the keys above, and the merged one. -/
theorem Layers.overlaid_eq (layers : Layers) (start : Text) :
    layers.memory.overlaid (layers.env env) start =
      (entriesIn start layers.overlays.transitioningState).filter
          (fun entry => !(layers.merged.lookup entry.1).isSome) ++
        entriesIn start layers.merged := by
  have inserted (entry : Text × Text) : (layers.merged.lookup entry.1).isSome =
      ((layers.memory.currentState.lookup entry.1).isSome ||
        (layers.overlays.tipCurrentState.lookup entry.1).isSome) := by
    rw [layers.merged_lookup, Option.isSome_or]
  simp only [inserted]
  rfl

/-- `filter` lists the keys with the prefix whose value is not empty, with that value. -/
theorem Layers.mem_overlaid (layers : Layers) {start key value : Text} :
    (key, value) ∈ layers.memory.overlaid (layers.env env) start ↔
      key.startsWith start = true ∧ value ≠ [] ∧ value = Store.getThrough layers.stack key := by
  have read : Store.getThrough layers.stack key =
      ((layers.merged.lookup key).or
        (layers.overlays.transitioningState.lookup key)).getD [] := by
    rw [layers.merged_lookup, Option.or_assoc, Store.getThrough]
    simp only [stack, Store.through, Option.or_none]
  rw [layers.overlaid_eq, List.mem_append, List.mem_filter, mem_entriesIn, mem_entriesIn, read]
  cases above : layers.merged.lookup key with
  | some upper =>
    simp only [Option.isSome_some, Bool.not_true, Bool.false_eq_true, and_false, false_or,
      Option.some.injEq, Option.some_or, Option.getD_some, eq_comm]
  | none =>
    simp only [Option.isSome_none, Bool.not_false, and_true, reduceCtorEq, and_false, or_false,
      Option.none_or]
    cases layers.overlays.transitioningState.lookup key with
    | some lower => simp only [Option.some.injEq, Option.getD_some, eq_comm]
    | none =>
      simp only [reduceCtorEq, and_false, Option.getD_none, false_iff]
      rintro ⟨_, present, empty⟩
      exact present empty

/-- `filter` lists no key twice. -/
theorem Layers.overlaid_nodup (layers : Layers) (start : Text) :
    ((layers.memory.overlaid (layers.env env) start).map Prod.fst).Nodup := by
  rw [layers.overlaid_eq, List.map_append, List.nodup_append]
  have lower := (List.filter_sublist (p := fun entry : Text × Text =>
    !(layers.merged.lookup entry.1).isSome)
    (l := entriesIn start layers.overlays.transitioningState)).map Prod.fst
  refine ⟨(entriesIn_nodup _ _).sublist lower, entriesIn_nodup _ _, ?_⟩
  intro key below other above same
  subst same
  obtain ⟨entry, listed, rfl⟩ := List.mem_map.mp below
  obtain ⟨upper, found, named⟩ := List.mem_map.mp above
  have hidden := (List.mem_filter.mp listed).2
  have present := (mem_entriesIn.mp (show (upper.1, upper.2) ∈ _ from found)).2.2
  rw [named] at present
  rw [present] at hidden
  cases hidden

/-- While recorded blocks are replayed, the lister runs on the list made at the start, whatever
it writes. -/
theorem filter_replayed (transitioning : env.ctx.transitioning = true) (memory : Memory)
    (start : Text) (lister : Text → Text → App Unit) :
    filter start lister env memory =
      Exec.forEach (memory.overlaid env start) (fun entry => lister entry.1 entry.2) env
        memory := by
  simp only [filter, bind, Exec.asks, Exec.gets, transitioning]
  rfl

/-- The three maps behave as one: a read finds the last value set, and a listing goes once
through every key with the prefix that has a value, whatever its callback does. -/
theorem replay_maps_agree (transitioning : env.ctx.transitioning = true) (state : State)
    (operations : List Operation) :
    let layers := operations.foldl (Layers.perform env) (Layers.empty state)
    (∀ key, getState key (layers.env env) layers.memory =
      .ok (lastValues operations key, layers.memory)) ∧
    ∀ start, ∃ listed : List (Text × Text), (listed.map Prod.fst).Nodup ∧
      (∀ key value, (key, value) ∈ listed ↔
        key.startsWith start = true ∧ value ≠ [] ∧ value = lastValues operations key) ∧
      ∀ lister, filter start lister (layers.env env) layers.memory =
        Exec.forEach listed (fun entry => lister entry.1 entry.2) (layers.env env)
          layers.memory := by
  intro layers
  have initial : Store.getThrough (Layers.empty state).stack = fun _ => [] := by
    funext key
    rfl
  have reads : Store.getThrough layers.stack = lastValues operations := by
    rw [lastValues, ← initial]
    exact Layers.foldl_read transitioning operations (Layers.empty state)
  constructor
  · intro key
    have read := layers.read_through transitioning key
    rw [reads] at read
    rw [← read]
    rfl
  · intro start
    refine ⟨layers.memory.overlaid (layers.env env) start, layers.overlaid_nodup start, ?_, ?_⟩
    · intro key value
      rw [layers.mem_overlaid, reads]
    · intro lister
      exact @filter_replayed (layers.env env) transitioning layers.memory start lister

/-- The sample node while it replays. -/
def replayingNode : Env :=
  { sampleNode with ctx := { replaying := true, transitioning := true } }

/-- A record is written, committed, deleted and the block folded. -/
def deletedRecord : List Operation :=
  [.setStates [("record".toList, "value".toList)], .doApply, .deleteState "record".toList,
    .doApply, .fold]

/-- A deleted record is not read back from the maps below. -/
theorem replay_maps_sample :
    let layers := deletedRecord.foldl (Layers.perform replayingNode) (Layers.empty ∅)
    lastValues deletedRecord "record".toList = [] ∧
      getState "record".toList (layers.env replayingNode) layers.memory =
        .ok (lastValues deletedRecord "record".toList, layers.memory) :=
  ⟨by decide, (replay_maps_agree rfl ∅ deletedRecord).1 "record".toList⟩

end Listing

end Creditcoin
