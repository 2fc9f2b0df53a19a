import Creditcoin.PoW.Difficulty

/-!
# Solver processes

A solver process stands by until it receives `START`, then tries nonces and answers each one that
reaches the difficulty with `HASH`, until it receives `STOP`. Commands and events travel through
the two directions of a pipe, in order, and the parent keeps the last event it has received. An
event that is under way may arrive later than the process sends it.

A process that receives `START` while it works ends the work with `ERROR`. The commands of a pipe
decide whether this happens: `worksAfter` follows them.
-/

namespace Creditcoin.PoW

/-- The payload of `START`. -/
structure Task where
  /-- The start time. -/
  id : Float
  difficulty : Int
  encodedBlockId : List Nat
  encodedPublicKey : List Nat

/-- `_SolverCommand`, with its payload. -/
inductive Command where
  | start (task : Task)
  | stop
  | swap

/-- The payload of `HASH` and `STOPPED`. The message names the task by its id only. -/
structure Answer where
  task : Task
  difficulty : Int
  nonce : Text

/-- `_SolverState`, with its payload. There is no answer to a `STOP` before the first event. -/
inductive Event where
  | hash (answer : Answer)
  | working
  | stopped (answer : Option Answer)
  | error

/-- Leading zeroes of the digest of a task with a nonce. -/
def Task.zeroes (task : Task) (nonce : Text) : Nat :=
  countLeadingZeroes (buildDigestWithEncodedData task.encodedBlockId task.encodedPublicKey nonce)

/-! ## The process -/

/-- The variables of the working event loop. `soFar` holds `difficulty_so_far` and
`b_nonce_so_far`, which the first nonce sets. -/
structure Work where
  task : Task
  difficulty : Int
  nonce : Nat
  soFar : Option Answer

/-- The event loop a process is in. -/
inductive Process where
  | standby
  | working (work : Work)

/-- The process is in its working event loop. -/
def Process.works : Process → Bool
  | .standby => false
  | .working _ => true

/-- The variables when the working event loop is entered. -/
def Task.begin (task : Task) (random : Nat) : Work := ⟨task, task.difficulty, random, none⟩

namespace Work
variable (work : Work)

/-- `b_nonce`. -/
def bNonce : Text := toText work.nonce

/-- `digest_difficulty`. -/
def digestDifficulty : Nat := work.task.zeroes work.bNonce

/-- The best difficulty and nonce so far, with the present nonce. -/
def best : Answer :=
  match work.soFar with
  | none => ⟨work.task, work.digestDifficulty, work.bNonce⟩
  | some soFar =>
    if soFar.difficulty ≤ work.digestDifficulty then
      ⟨work.task, work.digestDifficulty, work.bNonce⟩
    else soFar

/-- The `HASH` of a pass of the working event loop. -/
def found : List Event :=
  if work.difficulty ≤ work.digestDifficulty then
    [.hash ⟨work.task, work.difficulty, work.bNonce⟩]
  else []

/-- The variables after a pass of the working event loop. -/
def pass (random : Nat) : Work :=
  if work.difficulty ≤ work.digestDifficulty then
    ⟨work.task, work.digestDifficulty + 1, random, some work.best⟩
  else ⟨work.task, work.difficulty, work.nonce + 1, some work.best⟩

end Work

/-- A solver with its two pipes and the parent's view of it. -/
structure Channel where
  process : Process
  /-- Commands that the process has not received. -/
  commands : List Command
  /-- Events that the parent has not received. -/
  events : List Event
  /-- `_state` and `_payload`. -/
  view : Event

/-- `_Solver.__init__`. -/
def Channel.init : Channel := ⟨.standby, [], [], .stopped none⟩

namespace Channel
variable (channel : Channel)

/-- One pass of the event loop the process is in, with the next random number and the result of
`poll`. Standing by, the process waits for a command. -/
def run (random : Nat) (polled : Bool) : Channel :=
  match channel.process with
  | .standby =>
    match channel.commands with
    | [] => channel
    | .start task :: commands =>
      ⟨.working (task.begin random), commands, channel.events ++ [.working], channel.view⟩
    | .stop :: commands | .swap :: commands => ⟨.standby, commands, channel.events, channel.view⟩
  | .working work =>
    let events := channel.events ++ work.found
    match if polled then channel.commands else [] with
    | [] => ⟨.working (work.pass random), channel.commands, events, channel.view⟩
    | .swap :: commands =>
      ⟨.working (work.pass random), commands, events ++ [.working], channel.view⟩
    | .stop :: commands =>
      ⟨.standby, commands, events ++ [.stopped (some work.best)], channel.view⟩
    | .start _ :: commands => ⟨.standby, commands, events ++ [.error], channel.view⟩

/-- `_comm.send`. -/
def send (command : Command) : Channel := { channel with commands := channel.commands ++ [command] }

/-- The loop of `_drain_sender_event_queue_and_update_state`, for so many events that have arrived,
with the last one received. It leaves the events after them. -/
def receive : Nat → List Event → Option Event → Py (Option Event) × List Event
  | 0, events, payload => (.ok payload, events)
  | _ + 1, [], payload => (.ok payload, [])
  | _ + 1, .error :: events, _ => (.error .assertionError, events)
  | arrived + 1, event :: events, _ => receive arrived events (some event)

/-- `_drain_sender_event_queue_and_update_state`. -/
def drain (arrived : Nat) : Py Unit × Channel :=
  match receive arrived channel.events none with
  | (.ok (some payload), events) => (.ok (), ⟨channel.process, channel.commands, events, payload⟩)
  | (.ok none, events) => (.ok (), ⟨channel.process, channel.commands, events, channel.view⟩)
  | (.error fault, events) =>
    (.error fault, ⟨channel.process, channel.commands, events, channel.view⟩)

end Channel

/-! ## Commands in order -/

/-- Whether a process works after it has received the commands; nothing when it receives `START`
while it works. -/
def worksAfter : Bool → List Command → Option Bool
  | works, [] => some works
  | true, .start _ :: _ => none
  | false, .start _ :: commands => worksAfter true commands
  | _, .stop :: commands => worksAfter false commands
  | works, .swap :: commands => worksAfter works commands

/-- Commands are followed one after the other. -/
theorem worksAfter_append (works : Bool) (commands later : List Command) :
    worksAfter works (commands ++ later) =
      (worksAfter works commands).bind fun middle => worksAfter middle later := by
  induction commands generalizing works with
  | nil => rfl
  | cons command commands ih =>
    cases command with
    | start task =>
      cases works with
      | true => rfl
      | false => exact ih true
    | stop =>
      cases works with
      | true => exact ih false
      | false => exact ih false
    | swap =>
      cases works with
      | true => exact ih true
      | false => exact ih false

/-- Whether the process works after it has received what is in its pipe. -/
def Channel.worksAfter (channel : Channel) : Option Bool :=
  PoW.worksAfter channel.process.works channel.commands

/-! ## Answers and their tasks -/

/-- The nonce of the answer is a decimal number and reaches its difficulty on the task. -/
structure Answer.Solved (answer : Answer) : Prop where
  reached : answer.difficulty ≤ answer.task.zeroes answer.nonce
  decimal : ∃ nonce : Nat, answer.nonce = toText nonce

section Soundness
variable (known : Task → Prop)

/-- An answer solves a known task. -/
structure Answer.Sound (answer : Answer) : Prop extends answer.Solved where
  about : known answer.task

/-- Each answer solves a known task, a hash at the difficulty asked for, and nothing is an error. -/
def Event.Sound : Event → Prop
  | .hash answer => answer.Sound known ∧ answer.task.difficulty ≤ answer.difficulty
  | .working => True
  | .stopped answer => ∀ solved ∈ answer, solved.Sound known
  | .error => False

/-- The work is on a known task, its difficulty is not below the one asked for, and its best answer
solves the task. -/
structure Work.Sound (work : Work) : Prop where
  about : known work.task
  difficulty : work.task.difficulty ≤ work.difficulty
  soFar : ∀ answer ∈ work.soFar, answer.Sound known

/-- All that a channel holds is about known tasks, and no `START` finds the process working. -/
structure Channel.Sound (channel : Channel) : Prop where
  process : ∀ work, channel.process = .working work → work.Sound known
  commands : ∀ task, .start task ∈ channel.commands → known task
  events : ∀ event ∈ channel.events, event.Sound known
  view : channel.view.Sound known
  ordered : channel.worksAfter.isSome = true

variable {known} {channel : Channel}

/-- The start is sound. -/
theorem Channel.init_sound : Channel.init.Sound known where
  process := by
    intro work working
    contradiction
  commands := by simp [Channel.init]
  events := by simp [Channel.init]
  view := by simp [Channel.init, Event.Sound]
  ordered := rfl

/-- The best answer of sound work is sound. -/
theorem Work.best_sound {work : Work} (sound : work.Sound known) : work.best.Sound known := by
  have current : Answer.Sound known ⟨work.task, work.digestDifficulty, work.bNonce⟩ :=
    ⟨⟨Int.le_refl _, work.nonce, rfl⟩, sound.about⟩
  unfold best
  split
  · exact current
  · rename_i soFar held
    split
    · exact current
    · exact sound.soFar soFar held

/-- A hash of sound work is sound. -/
theorem Work.found_sound {work : Work} (sound : work.Sound known) :
    ∀ event ∈ work.found, event.Sound known := by
  unfold found
  split
  · rename_i reached
    intro event listed
    rw [List.mem_singleton.mp listed]
    exact ⟨⟨⟨reached, work.nonce, rfl⟩, sound.about⟩, sound.difficulty⟩
  · simp

/-- A pass keeps work sound: a difficulty that has been reached only grows. -/
theorem Work.pass_sound {work : Work} {random : Nat} (sound : work.Sound known) :
    (work.pass random).Sound known := by
  have held : ∀ answer ∈ some work.best, answer.Sound known := by
    intro answer same
    rw [← Option.some_inj.mp same]
    exact Work.best_sound sound
  have asked := sound.difficulty
  unfold pass
  split
  · rename_i reached
    have grown : work.task.difficulty ≤ (work.digestDifficulty : Int) + 1 := by omega
    exact ⟨sound.about, grown, held⟩
  · exact ⟨sound.about, asked, held⟩

namespace Channel

/-- The process step leaves what follows from the commands, unless it receives `START` while it
works. -/
theorem run_worksAfter {random : Nat} {polled : Bool} (ordered : channel.worksAfter.isSome = true) :
    (channel.run random polled).worksAfter = channel.worksAfter := by
  rcases channel with ⟨process, commands, events, view⟩
  cases process with
  | standby =>
    rcases commands with _ | ⟨_ | _ | _, commands⟩
    all_goals rfl
  | working work =>
    rcases commands with _ | ⟨_ | _ | _, commands⟩
    · cases polled <;> rfl
    · exact absurd ordered Bool.false_ne_true
    · cases polled <;> rfl
    · cases polled <;> rfl

/-- A step of the process keeps a channel sound. -/
theorem run_sound {random : Nat} {polled : Bool} (sound : channel.Sound known) :
    (channel.run random polled).Sound known := by
  have ordered : (channel.run random polled).worksAfter.isSome = true := by
    rw [run_worksAfter sound.ordered]
    exact sound.ordered
  rcases channel with ⟨process, commands, events, view⟩
  have ⟨worked, asked, sent, seen, held⟩ := sound
  dsimp only at worked asked sent seen
  cases process with
  | standby =>
    rcases commands with _ | ⟨task | _ | _, commands⟩
    · exact sound
    · have begun : (task.begin random).Sound known :=
        ⟨asked task List.mem_cons_self, Int.le_refl _, by simp [Task.begin]⟩
      refine ⟨?_, fun task listed => asked task (List.mem_cons_of_mem _ listed), ?_, seen, ordered⟩
      · intro work working
        rw [← Process.working.inj working]
        exact begun
      · exact List.forall_mem_append.mpr ⟨sent, by simp [Event.Sound]⟩
    · exact ⟨worked, fun task listed => asked task (List.mem_cons_of_mem _ listed), sent, seen,
        ordered⟩
    · exact ⟨worked, fun task listed => asked task (List.mem_cons_of_mem _ listed), sent, seen,
        ordered⟩
  | working work =>
    have working : work.Sound known := worked work rfl
    have passed : ∀ later, Process.working (work.pass random) = .working later →
        later.Sound known := by
      intro later same
      rw [← Process.working.inj same]
      exact Work.pass_sound working
    have answered := List.forall_mem_append.mpr ⟨sent, Work.found_sound working⟩
    have stopped : Event.Sound known (.stopped (some work.best)) := by
      intro answer same
      rw [← Option.some_inj.mp same]
      exact Work.best_sound working
    cases polled with
    | false => exact ⟨passed, asked, answered, seen, ordered⟩
    | true =>
      rcases commands with _ | ⟨_ | _ | _, commands⟩
      · exact ⟨passed, asked, answered, seen, ordered⟩
      · exact absurd held Bool.false_ne_true
      · refine ⟨nofun, fun task listed => asked task (List.mem_cons_of_mem _ listed), ?_, seen,
          ordered⟩
        exact List.forall_mem_append.mpr ⟨answered, by simpa using stopped⟩
      · refine ⟨passed, fun task listed => asked task (List.mem_cons_of_mem _ listed), ?_, seen,
          ordered⟩
        exact List.forall_mem_append.mpr ⟨answered, by simp [Event.Sound]⟩

/-- A command is followed after those before it. -/
theorem send_worksAfter {command : Command} :
    (channel.send command).worksAfter =
      channel.worksAfter.bind fun works => PoW.worksAfter works [command] :=
  worksAfter_append _ _ _

/-- A sound channel stays sound with a command that its process may receive. -/
theorem send_sound {command : Command} (sound : channel.Sound known)
    (about : ∀ task, command = .start task → known task)
    (ordered : (channel.send command).worksAfter.isSome = true) :
    (channel.send command).Sound known where
  process := sound.process
  commands := by
    intro task listed
    rcases List.mem_append.mp listed with earlier | last
    · exact sound.commands task earlier
    · exact about task (List.mem_singleton.mp last).symm
  events := sound.events
  view := sound.view
  ordered := ordered

/-- `STOP` ends in the standby event loop. -/
theorem stop_worksAfter (ordered : channel.worksAfter.isSome = true) :
    (channel.send .stop).worksAfter = some false := by
  have ⟨works, followed⟩ := Option.isSome_iff_exists.mp ordered
  rw [send_worksAfter, followed]
  cases works <;> rfl

/-- `SWAP` changes no event loop. -/
theorem swap_worksAfter : (channel.send .swap).worksAfter = channel.worksAfter := by
  rw [send_worksAfter]
  rcases channel.worksAfter with _ | _ | _ <;> rfl

/-- `STOP` keeps a channel sound. -/
theorem stop_sound (sound : channel.Sound known) : (channel.send .stop).Sound known := by
  apply send_sound sound
  · simp
  · rw [stop_worksAfter sound.ordered]
    rfl

/-- `SWAP` keeps a channel sound. -/
theorem swap_sound (sound : channel.Sound known) : (channel.send .swap).Sound known := by
  apply send_sound sound
  · simp
  · rw [swap_worksAfter]
    exact sound.ordered

/-- `START` keeps a channel sound when its process ends up standing by. -/
theorem start_sound {task : Task} (sound : channel.Sound known) (about : known task)
    (halted : channel.worksAfter = some false) : (channel.send (.start task)).Sound known := by
  apply send_sound sound
  · intro other same
    rw [← Command.start.inj same]
    exact about
  · rw [send_worksAfter, halted]
    rfl

/-- Sound events are received without an error. -/
theorem receive_sound (arrived : Nat) {events : List Event} (payload : Option Event)
    (sound : ∀ event ∈ events, event.Sound known) (held : ∀ event ∈ payload, event.Sound known) :
    ∃ last rest, receive arrived events payload = (.ok last, rest) ∧
      (∀ event ∈ last, event.Sound known) ∧ ∀ event ∈ rest, event.Sound known := by
  induction arrived generalizing events payload with
  | zero => exact ⟨payload, events, rfl, held, sound⟩
  | succ arrived ih =>
    cases events with
    | nil => exact ⟨payload, [], rfl, held, sound⟩
    | cons event events =>
      rw [List.forall_mem_cons] at sound
      have kept : ∀ later ∈ some event, later.Sound known := by
        intro later same
        rw [← Option.some_inj.mp same]
        exact sound.1
      cases event with
      | error => exact absurd sound.1 (by simp [Event.Sound])
      | hash answer => exact ih _ sound.2 kept
      | working => exact ih _ sound.2 kept
      | stopped answer => exact ih _ sound.2 kept

/-- A sound channel is drained without an error, and stays sound. -/
theorem drain_sound (arrived : Nat) (sound : channel.Sound known) :
    ∃ drained, channel.drain arrived = (.ok (), drained) ∧ drained.Sound known ∧
      drained.worksAfter = channel.worksAfter := by
  have ⟨last, rest, received, held, left⟩ :=
    receive_sound arrived none sound.events (by simp)
  unfold drain
  rw [received]
  cases last with
  | none => exact ⟨_, rfl, ⟨sound.process, sound.commands, left, sound.view, sound.ordered⟩, rfl⟩
  | some event =>
    exact ⟨_, rfl, ⟨sound.process, sound.commands, left, held event rfl, sound.ordered⟩, rfl⟩

end Channel

/-- An event that is sound for some tasks is sound for more. -/
theorem Event.Sound.mono {more : Task → Prop} {event : Event} (sound : event.Sound known)
    (wider : ∀ task, known task → more task) : event.Sound more := by
  cases event with
  | hash answer => exact ⟨⟨sound.1.toSolved, wider _ sound.1.about⟩, sound.2⟩
  | working => trivial
  | stopped answer =>
    intro solved same
    exact ⟨(sound solved same).toSolved, wider _ (sound solved same).about⟩
  | error => exact sound

/-- A channel that is sound for some tasks is sound for more. -/
theorem Channel.Sound.mono {more : Task → Prop} (sound : channel.Sound known)
    (wider : ∀ task, known task → more task) : channel.Sound more where
  process := by
    intro work working
    have ⟨about, asked, soFar⟩ := sound.process work working
    refine ⟨wider _ about, asked, fun answer held => ?_⟩
    exact ⟨(soFar answer held).toSolved, wider _ (soFar answer held).about⟩
  commands := fun task listed => wider task (sound.commands task listed)
  events := fun event listed => (sound.events event listed).mono wider
  view := sound.view.mono wider
  ordered := sound.ordered

end Soundness

end Creditcoin.PoW
