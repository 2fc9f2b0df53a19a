import Creditcoin.Lib.Run
import Creditcoin.PoW.Solver

/-!
# The block publisher

A validator process has two solvers, one for the next block and one that improves the last block,
and a publisher for each candidate block. A publisher starts the first solver with its start time,
writes what a solver has found into the header of its candidate, and the two solvers change places
when a block has been published.

A call that waits for the solver to stop is in progress until a later reading of the solver ends
it, and all other calls and the solver processes may take steps in between. The publisher's caller
starts a candidate when there is none, and reports each block that was ready.
-/

namespace Creditcoin.PoW

/-- `INITIAL_DIFFICULTY`. -/
def initialDifficulty : Int := 22

/-- A publisher with the header of its candidate block. -/
structure Publisher where
  /-- `_start_time`. -/
  startTime : Float
  /-- `_valid_block_publishers`. -/
  validBlockPublishers : List Text
  /-- `_remaining_time`. -/
  remainingTime : Float
  header : BlockHeader
  /-- The answer last written into the header. -/
  solution : Option Answer
  /-- `check_publish_block` waits for the solver to stop. -/
  stopping : Bool

/-- `SOLVER_PRIM`, `SOLVER_PERF` and the publishers. -/
structure System where
  prim : Channel
  perf : Channel
  publishers : Nat → Publisher

/-- The two solvers, by their role. -/
inductive Role where
  | prim
  | perf
  deriving DecidableEq

namespace System
variable (system : System)

/-- The solver in a role. -/
def channel : Role → Channel
  | .prim => system.prim
  | .perf => system.perf

/-- The system with another state of the solver in a role. -/
def setChannel (role : Role) (channel : Channel) : System :=
  match role with
  | .prim => { system with prim := channel }
  | .perf => { system with perf := channel }

/-- The system with another state of a publisher. -/
def setPublisher (id : Nat) (publisher : Publisher) : System :=
  { system with publishers := Function.update system.publishers id publisher }

/-- A command is sent to the solver in a role. -/
def send (role : Role) (command : Command) : System :=
  system.setChannel role ((system.channel role).send command)

end System

/-! ## Calls -/

/-- The difficulty that `initialize_block` asks for. -/
def Node.startDifficulty (node : Node) (header : BlockHeader) (startTime : Float) : Py Int := do
  let prevBlock ← node.cache.get header.previousBlockId
  let prevConsensus := prevBlock.fields
  if !isPow prevConsensus then return initialDifficulty
  node.getAdjustedDifficulty prevBlock prevConsensus startTime

/-- `GLUE.join([POW, str(difficulty).encode(), b_nonce, str(self._start_time).encode()])`. -/
def buildConsensus (runtime : Runtime) (difficulty : Int) (nonce : Text) (startTime : Float) :
    Text :=
  pow ++ glue :: (toText difficulty ++ glue :: (nonce ++ glue :: runtime.str startTime))

/-- `_update_consensus`. -/
def Publisher.updateConsensus (runtime : Runtime) (publisher : Publisher)
    (payload : Option Answer) : Py Publisher :=
  match payload with
  | none => .error .assertionError
  | some answer =>
    if publisher.startTime == answer.task.id then
      .ok { publisher with
        header := { publisher.header with
          consensus :=
            buildConsensus runtime answer.difficulty answer.nonce publisher.startTime }
        solution := some answer }
    else .error .assertionError

/-- `get_remaining_time`. -/
def Publisher.getRemainingTime (node : Node) (publisher : Publisher) (now : Instant) :
    Py Publisher := do
  let expected ← floatOfInt node.validator.expectedBlockInterval
  let remainingTime := expected - (now.seconds - publisher.startTime)
  return { publisher with remainingTime := if remainingTime < 0 then 0 else remainingTime }

namespace System
variable (node : Node)

/-- `_update_consensus` of a publisher, with the payload of a solver. -/
def updateConsensus (system : System) (id : Nat) (payload : Option Answer) : Py Unit × System :=
  match (system.publishers id).updateConsensus node.runtime payload with
  | .ok publisher => (.ok (), system.setPublisher id publisher)
  | .error fault => (.error fault, system)

/-- `_read_solver`, with the number of events that have arrived. -/
def readSolver (system : System) (id : Nat) (role : Role) (arrived : Nat) : Py Event × System :=
  match (system.channel role).drain arrived with
  | (.error fault, channel) => (.error fault, system.setChannel role channel)
  | (.ok (), channel) =>
    let system := system.setChannel role channel
    match channel.view with
    | .hash answer =>
      match system.updateConsensus node id (some answer) with
      | (.ok (), system) => (.ok (.hash answer), system)
      | (.error fault, system) => (.error fault, system)
    | .error => (.error .assertionError, system)
    | state => (.ok state, system)

/-- `initialize_block`, with the setting of the valid publishers if there is one. -/
def initializeBlock (system : System) (id : Nat) (header : BlockHeader)
    (setting : Option (List Text)) (now : Instant) (arrived : Nat) : Py Bool × System :=
  let publisher := { system.publishers id with
    startTime := now.seconds
    validBlockPublishers := setting.getD (system.publishers id).validBlockPublishers
    header := header
    solution := none }
  let system := system.setPublisher id publisher
  match node.startDifficulty header now.seconds with
  | .error fault => (.error fault, system)
  | .ok difficulty =>
    match system.prim.drain arrived with
    | (.error _, channel) => (.ok false, system.setChannel .prim channel)
    | (.ok (), channel) =>
      let system := system.setChannel .prim channel
      match channel.view with
      | .stopped _ =>
        let task : Task :=
          ⟨now.seconds, difficulty, encode header.previousBlockId, encode header.signerPublicKey⟩
        (.ok true, system.send .prim (.start task))
      | _ => (.ok false, system)

/-- The end of `check_publish_block` with a block that is ready. -/
def ready (system : System) (id : Nat) (now : Instant) : Py Bool × System :=
  let system := system.send .perf .stop
  match (system.publishers id).getRemainingTime node now with
  | .ok publisher => (.ok true, system.setPublisher id publisher)
  | .error fault => (.error fault, system)

/-- `check_publish_block`, up to the loop that waits for the solver to stop. There is no result
while it waits. -/
def checkPublishBlock (system : System) (id : Nat) (now later : Instant) (arrived : Nat) :
    Option (Py Bool) × System :=
  let publisher := system.publishers id
  if publisher.validBlockPublishers ≠ [] ∧
      publisher.header.signerPublicKey ∉ publisher.validBlockPublishers then
    (some (.ok false), system)
  else
    match system.readSolver node id .prim arrived with
    | (.error _, system) => (some (.ok false), system)
    | (.ok .working, system) =>
      if Lib.Binary64.ltInt (now.seconds - publisher.startTime) difficultyEnforcingInterval then
        (some (.ok false), system)
      else
        let system := system.send .prim .stop
        (none, system.setPublisher id { system.publishers id with stopping := true })
    | (.ok (.stopped _), system) => (some (.ok false), system)
    | (.ok _, system) =>
      let (result, system) := system.ready node id later
      (some result, system)

/-- A pass of the loop of `check_publish_block` that waits for the solver to stop. -/
def awaitStopped (system : System) (id : Nat) (later : Instant) (arrived : Nat) :
    Option (Py Bool) × System :=
  let leave (system : System) : System :=
    system.setPublisher id { system.publishers id with stopping := false }
  match system.readSolver node id .prim arrived with
  | (.error _, system) => (some (.ok false), leave system)
  | (.ok (.stopped answer), system) =>
    match system.updateConsensus node id answer with
    | (.error _, system) => (some (.ok false), leave system)
    | (.ok (), system) =>
      let (result, system) := (leave system).ready node id later
      (some result, system)
  | (.ok _, system) => (none, system)

/-- `on_accepted`. -/
def onAccepted (system : System) : System :=
  let system := { system with prim := system.perf, perf := system.prim }
  (system.send .prim .swap).send .perf .swap

/-- `update_block`. -/
def updateBlock (system : System) (id : Nat) (arrived : Nat) : Bool × System :=
  match system.readSolver node id .perf arrived with
  | (.ok (.hash _), system) => (true, system.send .perf .swap)
  | (_, system) => (false, system)

/-- `on_cancel_publish_block`. -/
def onCancelPublishBlock (system : System) : System := (system.send .prim .stop).send .perf .stop

end System

end Creditcoin.PoW
