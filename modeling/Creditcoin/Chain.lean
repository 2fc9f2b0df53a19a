import Creditcoin.Applicator
import Creditcoin.Lib.Run

/-!
# Chains

Transactions run one after the other in the context of a block and are committed together. A
listing answers from the committed state, in any order and any pages; everything else is read
from the context. Runs of a chain start from an empty state and interleave transactions of
any signers, accepted or rejected, with commits.
-/

namespace Creditcoin

open Lib

/-- A chain while a block is executed. -/
structure Chain where
  /-- The state after the last committed block. -/
  committed : State
  /-- The state in the context of the block. -/
  context : State
  /-- The height of the block. -/
  tip : UInt64
  /-- Whether a `Housekeeping` with an explicit index ran in the block. -/
  housekept : Bool

/-- A chain with no records. -/
def Chain.empty (tip : UInt64) : Chain := ⟨∅, ∅, tip, false⟩

/-- What happens to a chain. -/
inductive Event where
  /-- A transaction is executed; the environment holds its header and all answers it gets. -/
  | transaction (env : Env) (payload : Json)
  /-- The block is committed. -/
  | commit

/-- The committed records under a key prefix. -/
def Chain.records (chain : Chain) (start : Text) : List (Text × Text) :=
  (chain.committed.entries.map fun entry => (entry.1, entry.2)).filter fun entry =>
    entry.1.startsWith start

/-- An environment that answers for a chain. -/
structure Chain.Serves (chain : Chain) (env : Env) : Prop where
  /-- No recorded blocks are replayed. -/
  live : env.Live
  /-- The tip is the height of the block. -/
  tip : env.tip = chain.tip
  /-- A listing has every committed record once. -/
  listing : ∀ start pages, env.getStatesByPrefix start = .ok pages →
    pages.flatten.Perm (chain.records start)

/-- Whether a command is a `Housekeeping` with an explicit index. -/
def Command.isExplicitHousekeeping : Command → Bool
  | .housekeeping blockIdx => blockIdx ≠ 0
  | _ => false

/-- One step of a chain. -/
inductive Chain.Step (sha : Sha512) : Chain → Event → Chain → Prop
  /-- A transaction is accepted. -/
  | accepted {chain : Chain} {env : Env} {payload : Json} {command : Command} {memory : Memory}
      (serves : chain.Serves env)
      (ran : apply sha payload env ⟨chain.context, ∅⟩ = .ok ((), memory))
      (read : payload.command = .ok command) :
      Chain.Step sha chain (.transaction env payload)
        { chain with
          context := memory.state
          housekept := chain.housekept || command.isExplicitHousekeeping }
  /-- A transaction is rejected. -/
  | rejected {chain : Chain} {env : Env} {payload : Json} {failure : Exception}
      (serves : chain.Serves env)
      (ran : apply sha payload env ⟨chain.context, ∅⟩ = .error failure) :
      Chain.Step sha chain (.transaction env payload) chain
  /-- The block is committed. -/
  | commit {chain : Chain} :
      Chain.Step sha chain .commit ⟨chain.context, chain.context, chain.tip + 1, false⟩

/-- A step of a chain with the states around it. -/
abbrev ChainStep : Type := Transition Chain Event

/-- The nonce of a transaction. -/
def Event.nonce : Event → Option Text
  | .transaction env _ => some env.nonce
  | .commit => none

/-- No two transactions have the same nonce. -/
def DistinctNonces (steps : List ChainStep) : Prop :=
  (steps.filterMap fun taken => taken.label.nonce).Nodup

/-- A run of a chain from no records. -/
abbrev ChainRun (sha : Sha512) (tip : UInt64) (steps : List ChainStep) (chain : Chain) : Prop :=
  Run (Chain.Step sha) (Chain.empty tip) steps chain

/-- A step executes a command of a signer successfully. -/
structure Succeeds (sha : Sha512) (taken : ChainStep) (env : Env) (signer : Text)
    (command : Command) : Prop where
  /-- The transaction was accepted. -/
  ran : ∃ payload memory, taken.label = .transaction env payload ∧
    payload.command = .ok command ∧
    apply sha payload env ⟨taken.before.context, ∅⟩ = .ok ((), memory)
  /-- The signer of the transaction. -/
  signed : env.sighash sha = .ok signer

/-- What a step does to the context of a chain. -/
inductive Chain.Did (sha : Sha512) (taken : ChainStep) : Prop
  /-- A command was executed. -/
  | executed {env : Env} {signer : Text} {command : Command}
      (serves : taken.before.Serves env) (succeeds : Succeeds sha taken env signer command)
      (effect : Executed sha env signer taken.before.context command taken.after.context)
      (committed : taken.after.committed = taken.before.committed)
      (tip : taken.after.tip = taken.before.tip)
      (housekept : taken.after.housekept =
        (taken.before.housekept || command.isExplicitHousekeeping)) : Chain.Did sha taken
  /-- Nothing happened. -/
  | rejected (same : taken.after = taken.before)
      (idle : ∀ env signer command, ¬ Succeeds sha taken env signer command) : Chain.Did sha taken
  /-- The block was committed. -/
  | committed (committed : taken.after.committed = taken.before.context)
      (context : taken.after.context = taken.before.context)
      (housekept : taken.after.housekept = false)
      (idle : ∀ env signer command, ¬ Succeeds sha taken env signer command) : Chain.Did sha taken

/-- Every step of a chain executes a command, is rejected or commits. -/
theorem Chain.Step.did {sha : Sha512} {before after : Chain} {label : Event}
    (step : Chain.Step sha before label after) : Chain.Did sha ⟨before, label, after⟩ := by
  cases step with
  | accepted serves ran read =>
    obtain ⟨signer, command, signed, read', executed⟩ := apply_executed serves.live ran
    rw [read, Except.ok.injEq] at read'
    subst read'
    exact .executed serves ⟨⟨_, _, rfl, read, ran⟩, signed⟩ executed rfl rfl rfl
  | rejected serves ran =>
    refine .rejected rfl fun env signer command succeeds => ?_
    obtain ⟨payload, memory, label, _, ran'⟩ := succeeds.ran
    obtain ⟨rfl, rfl⟩ := Event.transaction.inj label
    dsimp only at ran'
    rw [ran] at ran'
    cases ran'
  | commit =>
    refine .committed rfl rfl rfl fun env signer command succeeds => ?_
    obtain ⟨payload, memory, label, _, _⟩ := succeeds.ran
    cases label

/-- A successful step has one signer and one command. -/
theorem Succeeds.unique {sha : Sha512} {taken : ChainStep} {env other : Env} {signer : Text}
    {signer' : Text} {command command' : Command} (first : Succeeds sha taken env signer command)
    (second : Succeeds sha taken other signer' command') :
    env = other ∧ signer = signer' ∧ command = command' := by
  obtain ⟨payload, _, label, read, _⟩ := first.ran
  obtain ⟨payload', _, label', read', _⟩ := second.ran
  rw [label] at label'
  obtain ⟨rfl, rfl⟩ := Event.transaction.inj label'
  have signed := first.signed
  rw [second.signed, Except.ok.injEq] at signed
  rw [read', Except.ok.injEq] at read
  exact ⟨rfl, signed.symm, read.symm⟩

/-- What a successful step does to the context. -/
theorem Succeeds.executed {sha : Sha512} {taken : ChainStep} {env : Env} {signer : Text}
    {command : Command} (succeeds : Succeeds sha taken env signer command)
    (step : Chain.Step sha taken.before taken.label taken.after) :
    taken.before.Serves env ∧
      Executed sha env signer taken.before.context command taken.after.context := by
  obtain ⟨before, label, after⟩ := taken
  obtain ⟨payload, memory, labelled, read, ran⟩ := succeeds.ran
  dsimp only at step labelled ran ⊢
  subst labelled
  cases step with
  | accepted serves ran' read' =>
    obtain ⟨signer', command', signed, read'', executed⟩ := apply_executed serves.live ran'
    rw [read, Except.ok.injEq] at read''
    rw [succeeds.signed, Except.ok.injEq] at signed
    subst read'' signed
    exact ⟨serves, executed⟩
  | rejected serves ran' =>
    rw [ran] at ran'
    cases ran'

/-- The rule of chains: what an empty chain has, a commit keeps and every allowed execution
keeps, every state of a run of allowed steps has. -/
theorem ChainRun.invariant {sha : Sha512} {tip : UInt64} {steps : List ChainStep} {chain : Chain}
    {allowed : ChainStep → Prop} (run : ChainRun sha tip steps chain) (holds : Chain → Prop)
    (initially : holds (Chain.empty tip))
    (kept : ∀ taken : ChainStep, holds taken.before → Chain.Did sha taken → allowed taken →
      holds taken.after)
    (guarded : ∀ taken ∈ steps, allowed taken) : holds chain :=
  Run.invariant holds initially
    (fun before label after earlier step allow => kept ⟨before, label, after⟩ earlier step.did allow)
    run guarded

/-- The rule of chains for properties of the history: every step may use the run before it. -/
theorem ChainRun.history {sha : Sha512} {tip : UInt64} {steps : List ChainStep} {chain : Chain}
    {allowed : ChainStep → Prop} (run : ChainRun sha tip steps chain)
    (holds : List ChainStep → Chain → Prop) (initially : holds [] (Chain.empty tip))
    (kept : ∀ earlier (taken : ChainStep), ChainRun sha tip earlier taken.before →
      (∀ other ∈ earlier, allowed other) → holds earlier taken.before → Chain.Did sha taken →
      allowed taken → holds (earlier ++ [taken]) taken.after)
    (guarded : ∀ taken ∈ steps, allowed taken) : holds steps chain := by
  induction run with
  | nil => exact initially
  | snoc run next ih =>
    have before := fun other listed => guarded other (List.mem_append_left _ listed)
    exact kept _ ⟨_, _, _⟩ run before (ih before) next.did (guarded _ (by simp))

/-- Every step of a run of allowed steps starts where a shorter such run ends. -/
theorem ChainRun.split {sha : Sha512} {tip : UInt64} {steps : List ChainStep} {chain : Chain}
    {allowed : ChainStep → Prop} (run : ChainRun sha tip steps chain)
    (guarded : ∀ taken ∈ steps, allowed taken) {taken : ChainStep} (listed : taken ∈ steps) :
    ∃ earlier later, steps = earlier ++ taken :: later ∧
      ChainRun sha tip earlier taken.before ∧ (∀ other ∈ earlier, allowed other) ∧
      Chain.Step sha taken.before taken.label taken.after := by
  obtain ⟨earlier, later, rfl⟩ := List.append_of_mem listed
  obtain ⟨reached, step, _⟩ := Run.split run
  exact ⟨earlier, later, rfl, reached,
    fun other before => guarded other (List.mem_append_left _ before), step⟩

end Creditcoin
