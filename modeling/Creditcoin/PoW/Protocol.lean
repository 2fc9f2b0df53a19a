import Creditcoin.PoW.Publisher
import Creditcoin.PoW.Verification

/-!
# The protocol of publishers and solvers

A session is a system with what its callers keep to: a candidate block is started when there is
none, a block that was ready is reported as accepted, and no two candidates have one start time.
Calls and steps of the two processes interleave in any order.

In every pipe a `STOP` lies between two `START`s. The solver in the first role ends up standing by
unless a candidate is open, and the one in the second role does while a ready block is due. Every
answer under way solves a task whose start time belongs to the candidate of that task alone, so
what a publisher writes into its header solves that header.
-/

namespace Creditcoin.PoW

/-- A call, or a step of a solver process. -/
inductive Call where
  | initializeBlock (id : Nat) (header : BlockHeader) (setting : Option (List Text))
      (now : Instant) (arrived : Nat)
  | checkPublishBlock (id : Nat) (now later : Instant) (arrived : Nat)
  | awaitStopped (id : Nat) (later : Instant) (arrived : Nat)
  | onAccepted
  | updateBlock (id : Nat) (arrived : Nat)
  | onCancelPublishBlock
  | run (role : Role) (random : Nat) (polled : Bool)

/-- What a call returns, if it has ended, and the system after it. -/
def System.perform (node : Node) (system : System) : Call → Option (Py Bool) × System
  | .initializeBlock id header setting now arrived =>
    let (result, system) := system.initializeBlock node id header setting now arrived
    (some result, system)
  | .checkPublishBlock id now later arrived => system.checkPublishBlock node id now later arrived
  | .awaitStopped id later arrived => system.awaitStopped node id later arrived
  | .onAccepted => (none, system.onAccepted)
  | .updateBlock id arrived =>
    let (result, system) := system.updateBlock node id arrived
    (some (.ok result), system)
  | .onCancelPublishBlock => (none, system.onCancelPublishBlock)
  | .run role random polled =>
    (none, system.setChannel role ((system.channel role).run random polled))

/-- The call has returned `True`. -/
def succeeded : Option (Py Bool) → Bool
  | some (.ok true) => true
  | _ => false

/-- A system with the calls of its callers. -/
structure Session where
  system : System
  /-- A candidate block was started and neither accepted nor cancelled. -/
  opened : Bool
  /-- A block was ready and is not yet accepted. -/
  due : Bool
  /-- The start times of all publishers. -/
  startTimes : List Float

/-- A publisher before its candidate block. -/
def Publisher.init : Publisher := ⟨0, [], 0, ⟨0, [], [], []⟩, none, false⟩

/-- Two solvers standing by. -/
def Session.init : Session :=
  ⟨⟨Channel.init, Channel.init, fun _ => Publisher.init⟩, false, false, [0]⟩

namespace Session
variable (node : Node) (session : Session)

/-- The session after a call. -/
def next (call : Call) : Session :=
  let (result, system) := session.system.perform node call
  match call with
  | .initializeBlock _ _ _ now _ =>
    ⟨system, session.opened || succeeded result, session.due, now.seconds :: session.startTimes⟩
  | .checkPublishBlock .. | .awaitStopped .. =>
    ⟨system, session.opened, session.due || succeeded result, session.startTimes⟩
  | .onAccepted => ⟨system, false, false, session.startTimes⟩
  | .onCancelPublishBlock => ⟨system, false, session.due, session.startTimes⟩
  | .updateBlock .. | .run .. => ⟨system, session.opened, session.due, session.startTimes⟩

/-- What the callers keep to. A start time is a new one, and a candidate is started when none is
open. Only a wait that has begun goes on, and a block is accepted when it was ready. -/
def Allowed : Call → Prop
  | .initializeBlock id header setting now arrived =>
    (∀ earlier ∈ session.startTimes, (earlier == now.seconds) = false) ∧
      (succeeded (session.system.perform node
        (.initializeBlock id header setting now arrived)).1 = true → session.opened = false)
  | .awaitStopped id _ _ => (session.system.publishers id).stopping = true
  | .onAccepted => session.due = true
  | .checkPublishBlock .. | .updateBlock .. | .onCancelPublishBlock | .run .. => True

/-- A step of a session. -/
def Step (before : Session) (call : Call) (after : Session) : Prop :=
  before.Allowed node call ∧ after = before.next node call

end Session

/-! ## Soundness -/

section Soundness
variable {node : Node} {startTimes : List Float} {system after : System} {id : Nat} {role : Role}
  {arrived : Nat}

/-- The task is the one of the candidate block. -/
structure Task.IsFor (node : Node) (task : Task) (publisher : Publisher) : Prop where
  blockId : task.encodedBlockId = encode publisher.header.previousBlockId
  publicKey : task.encodedPublicKey = encode publisher.header.signerPublicKey
  difficulty : node.startDifficulty publisher.header publisher.startTime = .ok task.difficulty

/-- The task was started at one of the start times, and belongs to the candidate that has it. -/
structure Task.Known (node : Node) (startTimes : List Float) (publishers : Nat → Publisher)
    (task : Task) : Prop where
  started : task.id ∈ startTimes
  belongs : ∀ id, ((publishers id).startTime == task.id) = true → task.IsFor node (publishers id)

/-- What a publisher has written solves its candidate block. -/
structure Answer.Writes (node : Node) (answer : Answer) (publisher : Publisher) : Prop
    extends answer.Solved where
  id : (publisher.startTime == answer.task.id) = true
  task : answer.task.IsFor node publisher
  consensus : publisher.header.consensus =
    buildConsensus node.runtime answer.difficulty answer.nonce publisher.startTime

/-- Both channels are about known tasks, and each publisher has written what solves its block. -/
structure System.Sound (node : Node) (startTimes : List Float) (system : System) : Prop where
  channels : ∀ role, (system.channel role).Sound (Task.Known node startTimes system.publishers)
  started : ∀ id, (system.publishers id).startTime ∈ startTimes
  written : ∀ id, ∀ answer ∈ (system.publishers id).solution,
    answer.Writes node (system.publishers id)

/-- The publishers have one start time and one block to extend. -/
structure Publisher.Alike (publisher other : Publisher) : Prop where
  startTime : publisher.startTime = other.startTime
  previousBlockId : publisher.header.previousBlockId = other.header.previousBlockId
  signerPublicKey : publisher.header.signerPublicKey = other.header.signerPublicKey

@[simp] theorem System.setChannel_publishers (role : Role) (channel : Channel) :
    (system.setChannel role channel).publishers = system.publishers := by
  cases role <;> rfl

@[simp] theorem System.setPublisher_channel (publisher : Publisher) :
    (system.setPublisher id publisher).channel role = system.channel role := by
  cases role <;> rfl

@[simp] theorem System.setPublisher_publishers_self (publisher : Publisher) :
    (system.setPublisher id publisher).publishers id = publisher := Function.update_self ..

@[simp] theorem System.setPublisher_publishers_of_ne {other : Nat} (publisher : Publisher)
    (different : other ≠ id) :
    (system.setPublisher id publisher).publishers other = system.publishers other :=
  Function.update_of_ne different ..

/-- A solver is in one role. -/
theorem System.channel_setChannel (channel : Channel) (other : Role) :
    (system.setChannel role channel).channel other =
      if other = role then channel else system.channel other := by
  cases role <;> cases other <;> rfl

/-- What is known is known with publishers of the same candidates. -/
theorem Task.Known.of_alike {publishers others : Nat → Publisher} {task : Task}
    (alike : ∀ id, (publishers id).Alike (others id)) (known : task.Known node startTimes others) :
    task.Known node startTimes publishers := by
  refine ⟨known.started, fun id same => ?_⟩
  have ⟨startTime, previousBlockId, signerPublicKey⟩ := alike id
  rw [startTime] at same
  have ⟨blockId, publicKey, difficulty⟩ := known.belongs id same
  refine ⟨by rw [previousBlockId]; exact blockId, by rw [signerPublicKey]; exact publicKey, ?_⟩
  rw [Node.startDifficulty, previousBlockId, startTime]
  exact difficulty

/-- Another state of a sound channel is sound. -/
theorem System.Sound.setChannel {channel : Channel} (sound : system.Sound node startTimes)
    (replaced : channel.Sound (Task.Known node startTimes system.publishers)) :
    (system.setChannel role channel).Sound node startTimes := by
  refine ⟨fun other => ?_, ?_, ?_⟩
  · rw [channel_setChannel, setChannel_publishers]
    split
    · exact replaced
    · exact sound.channels other
  · rw [setChannel_publishers]
    exact sound.started
  · rw [setChannel_publishers]
    exact sound.written

/-- A publisher of the same candidate leaves the candidates the same. -/
theorem System.setPublisher_alike {publisher : Publisher}
    (alike : publisher.Alike (system.publishers id)) (other : Nat) :
    ((system.setPublisher id publisher).publishers other).Alike (system.publishers other) := by
  by_cases same : other = id
  · rw [same, setPublisher_publishers_self]
    exact alike
  · rw [setPublisher_publishers_of_ne publisher same]
    exact ⟨rfl, rfl, rfl⟩

/-- A publisher may change what its candidate does not depend on, and write what solves it. -/
theorem System.Sound.setPublisher {publisher : Publisher} (sound : system.Sound node startTimes)
    (alike : publisher.Alike (system.publishers id))
    (written : ∀ answer ∈ publisher.solution, answer.Writes node publisher) :
    (system.setPublisher id publisher).Sound node startTimes := by
  have others := setPublisher_alike alike
  refine ⟨fun role => ?_, fun other => ?_, fun other => ?_⟩
  · rw [setPublisher_channel]
    exact (sound.channels role).mono fun task known => known.of_alike others
  · rw [(others other).startTime]
    exact sound.started other
  · by_cases same : other = id
    · rw [same, setPublisher_publishers_self]
      exact written
    · rw [setPublisher_publishers_of_ne publisher same]
      exact sound.written other

/-- A system after a call that starts no candidate: each solver ends up in the same event loop or
standing by, and the candidates are the same. -/
structure System.Follows (node : Node) (startTimes : List Float) (system after : System) :
    Prop where
  sound : after.Sound node startTimes
  ordered : ∀ role, (after.channel role).worksAfter = (system.channel role).worksAfter ∨
    (after.channel role).worksAfter = some false
  alike : ∀ id, (after.publishers id).Alike (system.publishers id)

namespace System.Follows

/-- Nothing changes. -/
theorem refl (sound : system.Sound node startTimes) : system.Follows node startTimes system :=
  ⟨sound, fun _ => .inl rfl, fun _ => ⟨rfl, rfl, rfl⟩⟩

/-- One change follows another. -/
theorem trans {middle : System} (first : system.Follows node startTimes middle)
    (second : middle.Follows node startTimes after) : system.Follows node startTimes after := by
  refine ⟨second.sound, fun role => ?_, fun id => ?_⟩
  · rcases second.ordered role with same | halted
    · rw [same]
      exact first.ordered role
    · exact .inr halted
  · have ⟨startTime, previousBlockId, signerPublicKey⟩ := second.alike id
    have ⟨startTime', previousBlockId', signerPublicKey'⟩ := first.alike id
    exact ⟨startTime.trans startTime', previousBlockId.trans previousBlockId',
      signerPublicKey.trans signerPublicKey'⟩

/-- Another state of a solver. -/
theorem setChannel {channel : Channel} (sound : system.Sound node startTimes)
    (replaced : channel.Sound (Task.Known node startTimes system.publishers))
    (ordered : channel.worksAfter = (system.channel role).worksAfter ∨
      channel.worksAfter = some false) :
    system.Follows node startTimes (system.setChannel role channel) := by
  refine ⟨sound.setChannel replaced, fun other => ?_, fun id => ?_⟩
  · rw [channel_setChannel]
    split
    · rename_i same
      rw [same]
      exact ordered
    · exact .inl rfl
  · rw [setChannel_publishers]
    exact ⟨rfl, rfl, rfl⟩

/-- Another state of a publisher. -/
theorem setPublisher {publisher : Publisher} (sound : system.Sound node startTimes)
    (alike : publisher.Alike (system.publishers id))
    (written : ∀ answer ∈ publisher.solution, answer.Writes node publisher) :
    system.Follows node startTimes (system.setPublisher id publisher) :=
  ⟨sound.setPublisher alike written, fun _ => .inl (by rw [setPublisher_channel]),
    setPublisher_alike alike⟩

/-- `STOP` is sent. -/
theorem stop (sound : system.Sound node startTimes) (role : Role) :
    system.Follows node startTimes (system.send role .stop) :=
  setChannel sound (Channel.stop_sound (sound.channels role))
    (.inr (Channel.stop_worksAfter (sound.channels role).ordered))

/-- `SWAP` is sent. -/
theorem swap (sound : system.Sound node startTimes) (role : Role) :
    system.Follows node startTimes (system.send role .swap) :=
  setChannel sound (Channel.swap_sound (sound.channels role)) (.inl Channel.swap_worksAfter)

end System.Follows

namespace System

/-- A sound answer that a publisher accepts is written into its header. -/
theorem updateConsensus_follows {payload : Option Answer} {result : Py Unit}
    (sound : system.Sound node startTimes)
    (answers : ∀ answer ∈ payload,
      answer.Sound (Task.Known node startTimes system.publishers))
    (updated : system.updateConsensus node id payload = (result, after)) :
    system.Follows node startTimes after := by
  unfold updateConsensus Publisher.updateConsensus at updated
  cases payload with
  | none =>
    cases updated
    exact .refl sound
  | some answer =>
    have ⟨solved, known⟩ := answers answer rfl
    dsimp only at updated
    split at updated
    · rename_i publisher accepted
      split at accepted
      · rename_i same
        cases updated
        cases accepted
        have ⟨blockId, publicKey, difficulty⟩ := known.belongs id same
        refine .setPublisher sound ⟨rfl, rfl, rfl⟩ ?_
        intro written listed
        cases listed
        exact ⟨solved, same, ⟨blockId, publicKey, difficulty⟩, rfl⟩
      · contradiction
    · cases updated
      exact .refl sound

/-- Reading a solver gives a sound event. -/
theorem readSolver_follows {result : Py Event} (sound : system.Sound node startTimes)
    (read : system.readSolver node id role arrived = (result, after)) :
    system.Follows node startTimes after ∧
      ∀ event, result = .ok event → event.Sound (Task.Known node startTimes after.publishers) := by
  have ⟨drained, emptied, held, ordered⟩ :=
    Channel.drain_sound arrived (sound.channels role)
  have replaced : system.Follows node startTimes (system.setChannel role drained) :=
    .setChannel sound held (.inl ordered)
  have seen := held.view
  rw [← setChannel_publishers role drained] at seen
  unfold readSolver at read
  rw [emptied] at read
  dsimp only at read
  split at read
  · rename_i answer hash
    rw [hash] at seen
    have answered : ∀ answer' ∈ some answer, answer'.Sound
        (Task.Known node startTimes (system.setChannel role drained).publishers) := by
      intro answer' same
      rw [← Option.some_inj.mp same]
      exact seen.1
    have written (reply : Py Unit) (updated : System)
        (ran : (system.setChannel role drained).updateConsensus node id (some answer) =
          (reply, updated)) : system.Follows node startTimes updated ∧
        Event.Sound (Task.Known node startTimes updated.publishers) (.hash answer) := by
      have follows := updateConsensus_follows replaced.sound answered ran
      exact ⟨replaced.trans follows, seen.mono fun task known => known.of_alike follows.alike⟩
    split at read
    · rename_i updated ran
      cases read
      refine ⟨(written _ _ ran).1, fun event same => ?_⟩
      rw [← Except.ok.inj same]
      exact (written _ _ ran).2
    · rename_i fault updated ran
      cases read
      exact ⟨(written _ _ ran).1, nofun⟩
  · rename_i failed
    rw [failed] at seen
    contradiction
  · cases read
    refine ⟨replaced, fun event same => ?_⟩
    rw [← Except.ok.inj same]
    exact seen

/-- A publisher whose header and start time are the same has written the same. -/
theorem Sound.setPublisher_rest {publisher : Publisher} (sound : system.Sound node startTimes)
    (startTime : publisher.startTime = (system.publishers id).startTime)
    (header : publisher.header = (system.publishers id).header)
    (solution : publisher.solution = (system.publishers id).solution) :
    system.Follows node startTimes (system.setPublisher id publisher) := by
  refine .setPublisher sound ⟨startTime, by rw [header], by rw [header]⟩ ?_
  rw [solution]
  intro answer listed
  have ⟨solved, same, ⟨blockId, publicKey, difficulty⟩, consensus⟩ := sound.written id answer listed
  exact ⟨solved, by rw [startTime]; exact same, ⟨by rw [header]; exact blockId,
    by rw [header]; exact publicKey, by rw [header, startTime]; exact difficulty⟩,
    by rw [header, startTime]; exact consensus⟩

/-- The second solver is stopped for a block that is ready. -/
theorem ready_follows {later : Instant} {result : Py Bool} (sound : system.Sound node startTimes)
    (ran : system.ready node id later = (result, after)) :
    system.Follows node startTimes after ∧ after.perf.worksAfter = some false := by
  have stopped : system.Follows node startTimes (system.send .perf .stop) := .stop sound .perf
  have halted : (system.send .perf .stop).perf.worksAfter = some false :=
    Channel.stop_worksAfter (sound.channels .perf).ordered
  unfold ready at ran
  dsimp only at ran
  split at ran
  · rename_i publisher remaining
    cases ran
    have ⟨expected, _, built⟩ := bind_ok.mp remaining
    cases built
    exact ⟨stopped.trans (stopped.sound.setPublisher_rest rfl rfl rfl), halted⟩
  · cases ran
    exact ⟨stopped, halted⟩

/-- A check that returns `True` has stopped the second solver. -/
theorem checkPublishBlock_follows {now later : Instant} {result : Option (Py Bool)}
    (sound : system.Sound node startTimes)
    (ran : system.checkPublishBlock node id now later arrived = (result, after)) :
    system.Follows node startTimes after ∧
      (succeeded result = true → after.perf.worksAfter = some false) := by
  unfold checkPublishBlock at ran
  dsimp only at ran
  split at ran
  · cases ran
    exact ⟨.refl sound, nofun⟩
  · split at ran
    · rename_i read
      cases ran
      exact ⟨(readSolver_follows sound read).1, nofun⟩
    · rename_i middle read
      have follows := (readSolver_follows sound read).1
      split at ran
      · cases ran
        exact ⟨follows, nofun⟩
      · cases ran
        have stopped := follows.trans (.stop follows.sound .prim)
        exact ⟨stopped.trans (stopped.sound.setPublisher_rest rfl rfl rfl), nofun⟩
    · rename_i read
      cases ran
      exact ⟨(readSolver_follows sound read).1, nofun⟩
    · rename_i event middle working stopped read
      have follows := (readSolver_follows sound read).1
      cases ended : middle.ready node id later with
      | mk reply finish =>
        rw [ended] at ran
        cases ran
        have ⟨finished, halted⟩ := ready_follows follows.sound ended
        exact ⟨follows.trans finished, fun _ => halted⟩

/-- So has a wait that returns `True`. -/
theorem awaitStopped_follows {later : Instant} {result : Option (Py Bool)}
    (sound : system.Sound node startTimes)
    (ran : system.awaitStopped node id later arrived = (result, after)) :
    system.Follows node startTimes after ∧
      (succeeded result = true → after.perf.worksAfter = some false) := by
  have leaves (middle : System) (held : middle.Sound node startTimes) :
      middle.Follows node startTimes
        (middle.setPublisher id { middle.publishers id with stopping := false }) :=
    held.setPublisher_rest rfl rfl rfl
  unfold awaitStopped at ran
  dsimp only at ran
  split at ran
  · rename_i fault middle read
    have follows := (readSolver_follows sound read).1
    cases ran
    exact ⟨follows.trans (leaves middle follows.sound), nofun⟩
  · rename_i answer middle read
    have ⟨follows, answers⟩ := readSolver_follows sound read
    have solved : ∀ solution ∈ answer,
        solution.Sound (Task.Known node startTimes middle.publishers) := answers _ rfl
    split at ran
    · rename_i fault written updated
      have follows' := follows.trans (updateConsensus_follows follows.sound solved updated)
      cases ran
      exact ⟨follows'.trans (leaves written follows'.sound), nofun⟩
    · rename_i written updated
      have follows' := follows.trans (updateConsensus_follows follows.sound solved updated)
      have left := follows'.trans (leaves written follows'.sound)
      cases ended : (written.setPublisher id
          { written.publishers id with stopping := false }).ready node id later with
      | mk reply finish =>
        rw [ended] at ran
        cases ran
        have ⟨finished, halted⟩ := ready_follows left.sound ended
        exact ⟨left.trans finished, fun _ => halted⟩
  · rename_i event middle stopped read
    cases ran
    exact ⟨(readSolver_follows sound read).1, nofun⟩

/-- An update leaves the solvers in order. -/
theorem updateBlock_follows {result : Bool} (sound : system.Sound node startTimes)
    (ran : system.updateBlock node id arrived = (result, after)) :
    system.Follows node startTimes after := by
  unfold updateBlock at ran
  split at ran
  · rename_i answer middle read
    have follows := (readSolver_follows sound read).1
    cases ran
    exact follows.trans (.swap follows.sound .perf)
  · rename_i reply middle hash read
    cases ran
    exact (readSolver_follows sound read).1

/-- Cancelling stops both solvers. -/
theorem onCancelPublishBlock_follows (sound : system.Sound node startTimes) :
    system.Follows node startTimes system.onCancelPublishBlock ∧
      system.onCancelPublishBlock.prim.worksAfter = some false := by
  have first : system.Follows node startTimes (system.send .prim .stop) := .stop sound .prim
  exact ⟨first.trans (.stop first.sound .perf),
    Channel.stop_worksAfter (sound.channels .prim).ordered⟩

/-- A process takes a step. -/
theorem run_follows (role : Role) (random : Nat) (polled : Bool)
    (sound : system.Sound node startTimes) :
    system.Follows node startTimes
      (system.setChannel role ((system.channel role).run random polled)) :=
  .setChannel sound (Channel.run_sound (sound.channels role))
    (.inl (Channel.run_worksAfter (sound.channels role).ordered))

/-- The solvers change places. -/
theorem onAccepted_sound (sound : system.Sound node startTimes) :
    system.onAccepted.Sound node startTimes ∧
      system.onAccepted.prim.worksAfter = system.perf.worksAfter := by
  have swapped : ({ system with prim := system.perf, perf := system.prim } : System).Sound node
      startTimes := by
    refine ⟨fun role => ?_, sound.started, sound.written⟩
    cases role with
    | prim => exact sound.channels .perf
    | perf => exact sound.channels .prim
  have first := Follows.swap swapped .prim
  exact ⟨(Follows.swap first.sound .perf).sound, Channel.swap_worksAfter⟩

/-- A publisher begins with a new start time and no answer. -/
theorem begin_sound {publisher : Publisher} (sound : system.Sound node startTimes)
    (fresh : ∀ earlier ∈ startTimes, (earlier == publisher.startTime) = false)
    (empty : publisher.solution = none) :
    (system.setPublisher id publisher).Sound node (publisher.startTime :: startTimes) := by
  have known (task : Task) (earlier : task.Known node startTimes system.publishers) :
      task.Known node (publisher.startTime :: startTimes)
        (system.setPublisher id publisher).publishers := by
    refine ⟨List.mem_cons_of_mem _ earlier.started, fun other same => ?_⟩
    by_cases own : other = id
    · rw [own, setPublisher_publishers_self] at same
      have different := fresh _ earlier.started
      rw [Lib.Binary64.beq_symm same] at different
      contradiction
    · rw [setPublisher_publishers_of_ne publisher own] at same ⊢
      exact earlier.belongs other same
  refine ⟨fun role => ?_, fun other => ?_, fun other => ?_⟩
  · rw [setPublisher_channel]
    exact (sound.channels role).mono known
  · by_cases own : other = id
    · rw [own, setPublisher_publishers_self]
      exact List.mem_cons_self
    · rw [setPublisher_publishers_of_ne publisher own]
      exact List.mem_cons_of_mem _ (sound.started other)
  · by_cases own : other = id
    · rw [own, setPublisher_publishers_self, empty]
      simp
    · rw [setPublisher_publishers_of_ne publisher own]
      exact sound.written other

/-- A start time that is new belongs to one publisher. -/
theorem begin_known {publisher : Publisher} {task : Task} (sound : system.Sound node startTimes)
    (fresh : ∀ earlier ∈ startTimes, (earlier == publisher.startTime) = false)
    (same : task.id = publisher.startTime) (about : task.IsFor node publisher) :
    task.Known node (publisher.startTime :: startTimes)
      (system.setPublisher id publisher).publishers := by
  refine ⟨by rw [same]; exact List.mem_cons_self, fun other equal => ?_⟩
  by_cases own : other = id
  · rw [own, setPublisher_publishers_self]
    exact about
  · rw [setPublisher_publishers_of_ne publisher own, same] at equal
    rw [fresh _ (sound.started other)] at equal
    contradiction

/-- A candidate is started when the first solver ends up standing by, and it is not started
otherwise. -/
theorem initializeBlock_sound {header : BlockHeader} {setting : Option (List Text)} {now : Instant}
    {result : Py Bool} (sound : system.Sound node startTimes)
    (fresh : ∀ earlier ∈ startTimes, (earlier == now.seconds) = false)
    (idle : succeeded (some result) = true → system.prim.worksAfter = some false)
    (ran : system.initializeBlock node id header setting now arrived = (result, after)) :
    after.Sound node (now.seconds :: startTimes) ∧
      after.perf.worksAfter = system.perf.worksAfter ∧
      (succeeded (some result) = false → after.prim.worksAfter = system.prim.worksAfter) := by
  unfold initializeBlock at ran
  dsimp only at ran
  generalize opened : ({ system.publishers id with
      startTime := now.seconds
      validBlockPublishers := setting.getD (system.publishers id).validBlockPublishers
      header := header
      solution := none } : Publisher) = publisher at ran
  have started : publisher.startTime = now.seconds := by rw [← opened]
  have extends' : publisher.header = header := by rw [← opened]
  have empty : publisher.solution = none := by rw [← opened]
  rw [← started] at fresh ⊢
  have begun : (system.setPublisher id publisher).Sound node (publisher.startTime :: startTimes) :=
    begin_sound sound fresh empty
  split at ran
  · cases ran
    exact ⟨begun, rfl, fun _ => rfl⟩
  · rename_i difficulty asked
    have ⟨drained, emptied, held, ordered⟩ :=
      Channel.drain_sound arrived (begun.channels .prim)
    change (system.setPublisher id publisher).prim.drain arrived = _ at emptied
    change drained.worksAfter = system.prim.worksAfter at ordered
    have replaced : ((system.setPublisher id publisher).setChannel .prim drained).Sound node
        (publisher.startTime :: startTimes) := begun.setChannel held
    rw [emptied] at ran
    dsimp only at ran
    split at ran
    · cases ran
      have halted : drained.worksAfter = some false := ordered.trans (idle rfl)
      refine ⟨?_, rfl, nofun⟩
      apply System.Sound.setChannel replaced
      apply Channel.start_sound held _ halted
      apply begin_known sound fresh started.symm
      rw [← started, ← extends'] at asked
      exact ⟨by rw [extends'], by rw [extends'], asked⟩
    · cases ran
      exact ⟨replaced, rfl, fun _ => ordered⟩

end System

/-- A session whose system is sound, whose first solver ends up standing by when no candidate is
open, and whose second one does when a block is due. -/
structure Session.Sound (node : Node) (session : Session) : Prop where
  system : session.system.Sound node session.startTimes
  idle : session.opened = false → session.system.prim.worksAfter = some false
  halted : session.due = true → session.system.perf.worksAfter = some false

/-- The start is sound. -/
theorem Session.init_sound : Session.init.Sound node where
  system := by
    refine ⟨fun role => ?_, fun id => List.mem_cons_self, fun id => by simp [init, Publisher.init]⟩
    cases role <;> exact Channel.init_sound
  idle := fun _ => rfl
  halted := nofun

/-- A call keeps a session sound. -/
theorem Session.next_sound {before after : Session} {call : Call} (sound : before.Sound node)
    (stepped : Session.Step node before call after) : after.Sound node := by
  have ⟨allowed, moved⟩ := stepped
  subst moved
  have ⟨held, idle, halted⟩ := sound
  unfold next
  -- A solver that follows the commands ends up as before or standing by.
  have keeps {system : System} (follows : before.system.Follows node before.startTimes system) :
      (before.opened = false → system.prim.worksAfter = some false) ∧
        (before.due = true → system.perf.worksAfter = some false) := by
    constructor
    · intro closed
      exact (follows.ordered .prim).elim (fun same => same.trans (idle closed)) fun halts => halts
    · intro waits
      exact (follows.ordered .perf).elim (fun same => same.trans (halted waits)) fun halts => halts
  -- A block that is ready has stopped the second solver.
  have readied {system : System} {result : Option (Py Bool)}
      (follows : before.system.Follows node before.startTimes system ∧
        (succeeded result = true → system.perf.worksAfter = some false)) :
      Session.Sound node ⟨system, before.opened, before.due || succeeded result,
        before.startTimes⟩ := by
    refine ⟨follows.1.sound, (keeps follows.1).1, fun waits => ?_⟩
    rcases Bool.or_eq_true_iff.mp waits with earlier | now
    · exact (keeps follows.1).2 earlier
    · exact follows.2 now
  cases call with
  | initializeBlock id header setting now arrived =>
    have ⟨fresh, separate⟩ := allowed
    cases ran : before.system.initializeBlock node id header setting now arrived with
    | mk result system =>
      simp only [System.perform, ran] at separate ⊢
      have ⟨begun, perf, prim⟩ := System.initializeBlock_sound held fresh
        (fun started => idle (separate started)) ran
      refine ⟨begun, fun closed => ?_, fun waits => perf.trans (halted waits)⟩
      rw [Bool.or_eq_false_iff] at closed
      exact (prim closed.2).trans (idle closed.1)
  | checkPublishBlock id now later arrived =>
    cases ran : before.system.checkPublishBlock node id now later arrived with
    | mk result system =>
      simp only [System.perform, ran]
      exact readied (System.checkPublishBlock_follows held ran)
  | awaitStopped id later arrived =>
    cases ran : before.system.awaitStopped node id later arrived with
    | mk result system =>
      simp only [System.perform, ran]
      exact readied (System.awaitStopped_follows held ran)
  | onAccepted =>
    have ⟨swapped, prim⟩ := System.onAccepted_sound held
    exact ⟨swapped, fun _ => prim.trans (halted allowed), nofun⟩
  | updateBlock id arrived =>
    cases ran : before.system.updateBlock node id arrived with
    | mk result system =>
      simp only [System.perform, ran]
      have follows := System.updateBlock_follows held ran
      exact ⟨follows.sound, (keeps follows).1, (keeps follows).2⟩
  | onCancelPublishBlock =>
    have ⟨follows, prim⟩ := System.onCancelPublishBlock_follows held
    exact ⟨follows.sound, fun _ => prim, (keeps follows).2⟩
  | run role random polled =>
    have follows : before.system.Follows node before.startTimes _ :=
      System.run_follows role random polled held
    exact ⟨follows.sound, (keeps follows).1, (keeps follows).2⟩

/-- Every session is sound. -/
theorem Session.run_sound {steps : List (Lib.Transition Session Call)} {session : Session}
    (run : Lib.Run (Session.Step node) Session.init steps session) : session.Sound node := by
  have unconditional : ∀ taken ∈ steps, (fun _ => True) taken := fun _ _ => trivial
  exact run.invariant (Session.Sound node) init_sound
    (fun _ _ _ held stepped _ => next_sound held stepped) unconditional

end Soundness

/-- In every session no process receives `START` while it works, so none answers with an error,
and what a publisher has written into its header solves the block id and the key of this header,
in a task of its own start time. -/
theorem solvers_respected {node : Node} {steps : List (Lib.Transition Session Call)}
    {session : Session} (run : Lib.Run (Session.Step node) Session.init steps session) :
    (∀ role work task commands, (session.system.channel role).process = .working work →
      (session.system.channel role).commands ≠ .start task :: commands) ∧
    (∀ role, .error ∉ (session.system.channel role).events ∧
      (session.system.channel role).view ≠ .error) ∧
    ∀ id, ∀ answer ∈ (session.system.publishers id).solution,
      answer.Writes node (session.system.publishers id) := by
  have sound := (Session.run_sound run).system
  refine ⟨?_, ?_, sound.written⟩
  · intro role work task commands works received
    have ordered := (sound.channels role).ordered
    rw [Channel.worksAfter, works, received] at ordered
    contradiction
  · intro role
    constructor
    · intro failed
      exact (sound.channels role).events _ failed
    · intro failed
      have seen := (sound.channels role).view
      rw [failed] at seen
      exact seen

/-! ## A session that publishes a block -/

namespace Session

/-- Whether a call is allowed can be checked. -/
instance (node : Node) (session : Session) (call : Call) : Decidable (session.Allowed node call) :=
  match call with
  | .initializeBlock .. => inferInstanceAs (Decidable (_ ∧ _))
  | .awaitStopped .. | .onAccepted => inferInstanceAs (Decidable (_ = true))
  | .checkPublishBlock .. | .updateBlock .. | .onCancelPublishBlock | .run .. =>
    inferInstanceAs (Decidable True)

/-- The session after calls in order. -/
def performs (node : Node) (calls : List Call) : Session := calls.foldl (next node) init

/-- The steps of the calls. -/
def stepsOf (node : Node) (calls : List Call) : List (Lib.Transition Session Call) :=
  Lib.Run.along (next node) init calls

/-- Allowed calls are a run. -/
theorem run_performs {node : Node} {calls : List Call}
    (allowed : ∀ taken ∈ stepsOf node calls, taken.before.Allowed node taken.label) :
    Lib.Run (Step node) init (stepsOf node calls) (performs node calls) := by
  apply Lib.Run.of_along
  intro taken listed
  exact ⟨allowed taken listed, Lib.Run.mem_along listed⟩

end Session

/-- The header of a block on the first one. -/
def candidateHeader : BlockHeader := ⟨2, "a".toList, "k".toList, []⟩

/-- A clock at 1010 seconds. -/
def startClock : Instant := ⟨1010, by decide⟩

/-- A clock at 1020 seconds. -/
def readyClock : Instant := ⟨1020, by decide⟩

/-- An interpreter of ASCII texts that writes times of whole seconds. -/
def clockRuntime : Runtime where
  isSpace _ := false
  decimal _ := none
  str time := toText time.toUInt64.toNat ++ ".0".toList

/-- A node that holds the first block. -/
def publishingNode : Node := { sampleNode with runtime := clockRuntime }

/-- A block is published with the nonce 15, and a second candidate is started. -/
def publishingCalls : List Call :=
  [.initializeBlock 0 candidateHeader none startClock 0, .run .prim 15 false, .run .prim 0 true,
    .checkPublishBlock 0 readyClock readyClock 2, .onAccepted,
    .initializeBlock 1 candidateHeader none readyClock 0]

/-- The solvers are respected when the first candidate is published and the second one started. -/
theorem solvers_respected_publishing :
    ((Session.performs publishingNode publishingCalls).system.publishers 0).solution.isSome = true ∧
      ∀ id, ∀ answer ∈
        ((Session.performs publishingNode publishingCalls).system.publishers id).solution,
        answer.Writes publishingNode
          ((Session.performs publishingNode publishingCalls).system.publishers id) := by
  have run : Lib.Run (Session.Step publishingNode) Session.init
      (Session.stepsOf publishingNode publishingCalls)
      (Session.performs publishingNode publishingCalls) := Session.run_performs (by decide +kernel)
  exact ⟨by decide +kernel, (solvers_respected run).2.2⟩

end Creditcoin.PoW
