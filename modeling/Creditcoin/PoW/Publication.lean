import Creditcoin.PoW.Protocol

/-!
# Published blocks and their verification

A publisher joins what a solver found with its start time, and the verifier reads the four fields
back. A found hash reaches the difficulty that the publisher asked for, which is the one that the
verifier expects, so such a block passes at any time.

After the enforcing interval the publisher takes the best digest so far. It measures the interval
from its start time, and the verifier measures it from the predecessor's time to the start time.
So a block of a lower difficulty passes only when the publisher has started an interval after the
predecessor.
-/

namespace Creditcoin.PoW

/-- The text of a time is one field and is read back as the time. -/
structure Runtime.Prints (runtime : Runtime) (time : Float) : Prop where
  unsplit : glue ∉ runtime.str time
  read : floatOfBytes (runtime.str time) = .ok time

/-- Verification accepts the difficulty at a time: the predecessor is no PoW block, the difficulty
reaches the expected one, or the comparisons of the times fail. -/
def Node.Excuses (node : Node) (previousBlockId : Text) (startTime : Float) (difficulty : Int)
    (now : Instant) : Prop :=
  ∃ prev, node.cache.find previousBlockId = some prev ∧ (isPow prev.fields = true →
    (∃ expected, node.getAdjustedDifficulty prev prev.fields startTime = .ok expected ∧
      expected ≤ difficulty) ∨
    ∃ prevTime, node.time prev.toBlockHeader = .ok prevTime ∧
      tooEarly now prevTime startTime = false)

section Written
variable {node : Node} {answer : Answer} {publisher : Publisher} {now later : Instant}

/-- The written consensus has four fields. -/
theorem Answer.Writes.fields (written : answer.Writes node publisher)
    (prints : node.runtime.Prints publisher.startTime) :
    publisher.header.fields =
      [pow, toText answer.difficulty, answer.nonce, node.runtime.str publisher.startTime] := by
  have ⟨nonce, decimal⟩ := written.decimal
  have difficultyField : glue ∉ toText answer.difficulty := toText_unsplit _
  have nonceField : glue ∉ answer.nonce := by
    rw [decimal]
    exact toText_unsplit nonce
  rw [BlockHeader.fields, written.consensus, buildConsensus, split_join (by decide),
    split_join difficultyField, split_join nonceField, split_last prints.unsplit]

/-- The predecessor of the written block, with the difficulty expected after it. -/
theorem Answer.Writes.prev (written : answer.Writes node publisher) :
    ∃ prev, node.cache.find publisher.header.previousBlockId = some prev ∧
      (isPow prev.fields = true →
        node.getAdjustedDifficulty prev prev.fields publisher.startTime =
          .ok answer.task.difficulty) := by
  have ⟨prev, found, asked⟩ := bind_ok.mp written.task.difficulty
  refine ⟨prev, ?_, fun powered => ?_⟩
  · unfold BlockCache.get at found
    split at found
    · rename_i block cached
      rw [cached, Except.ok.inj found]
    · contradiction
  · simp only [powered, Bool.not_true, Bool.false_eq_true, if_false] at asked
    exact asked

/-- The digest of the written block reaches its difficulty. -/
theorem Answer.Writes.digested (written : answer.Writes node publisher) :
    validDigest (buildDigest publisher.header answer.nonce) answer.difficulty = true := by
  have reached := written.reached
  rw [Task.zeroes, written.task.blockId, written.task.publicKey] at reached
  exact decide_eq_true reached

/-- Validation of a written difficulty, with the expected one. -/
theorem Answer.Writes.validated {prev : Block} {expected : Int}
    (written : answer.Writes node publisher) (prints : node.runtime.Prints publisher.startTime)
    (adjusted : node.getAdjustedDifficulty prev prev.fields publisher.startTime = .ok expected) :
    node.validateDifficulty now prev prev.fields publisher.header.fields = .ok true ↔
      expected ≤ answer.difficulty ∨ ∃ prevTime, node.time prev.toBlockHeader = .ok prevTime ∧
        tooEarly now prevTime publisher.startTime = false := by
  have fields := written.fields prints
  have timeField : field publisher.header.fields idxTime =
      .ok (node.runtime.str publisher.startTime) := by
    rw [fields]
    rfl
  have difficultyField : field publisher.header.fields idxDifficulty =
      .ok (toText answer.difficulty) := by
    rw [fields]
    rfl
  have readTime : node.runtime.float (node.runtime.str publisher.startTime) =
      .ok publisher.startTime := Runtime.float_of_bytes prints.read
  have readDifficulty : intOfBytes (toText answer.difficulty) = .ok answer.difficulty :=
    orValueError_ok.mpr (readInt_toText _)
  constructor
  · intro validated
    have ⟨time, expected', difficulty, read, adjusted', read', excused⟩ :=
      Node.validateDifficulty_ok validated
    have sameTime : time = publisher.startTime := by
      have ⟨text, found, value⟩ := bind_ok.mp read
      rw [timeField] at found
      rw [← Except.ok.inj found, readTime] at value
      exact (Except.ok.inj value).symm
    have sameDifficulty : difficulty = answer.difficulty := by
      have ⟨text, found, value⟩ := bind_ok.mp read'
      rw [difficultyField] at found
      rw [← Except.ok.inj found, Runtime.int_of_bytes readDifficulty] at value
      exact (Except.ok.inj value).symm
    subst sameTime sameDifficulty
    have sameExpected : expected = expected' := Except.ok.inj (adjusted.symm.trans adjusted')
    subst sameExpected
    by_cases below : answer.difficulty < expected
    · exact .inr (excused below)
    · exact .inl (not_lt.mp below)
  · intro excused
    apply bind_ok.mpr
    refine ⟨_, timeField, bind_ok.mpr ⟨_, prints.read, ?_⟩⟩
    apply bind_ok.mpr
    refine ⟨_, adjusted, bind_ok.mpr ⟨_, difficultyField, ?_⟩⟩
    apply bind_ok.mpr
    refine ⟨_, readDifficulty, ?_⟩
    split
    · rename_i below
      have ⟨prevTime, readPrev, late⟩ := excused.resolve_left (not_le.mpr below)
      have ⟨prevField, foundPrev, valuePrev⟩ := bind_ok.mp readPrev
      apply bind_ok.mpr
      refine ⟨prevField, foundPrev, bind_ok.mpr ⟨prevTime, valuePrev, ?_⟩⟩
      apply bind_ok.mpr
      refine ⟨_, timeField, bind_ok.mpr ⟨publisher.startTime, readTime, ?_⟩⟩
      rw [late]
      rfl
    · rfl

/-- Verification of a written block: it passes exactly when its difficulty is excused. -/
theorem Answer.Writes.verified (written : answer.Writes node publisher)
    (prints : node.runtime.Prints publisher.startTime) :
    node.verifyBlock now publisher.header = .ok true ↔
      node.Excuses publisher.header.previousBlockId publisher.startTime answer.difficulty now := by
  have fields := written.fields prints
  have ⟨prev, found, expects⟩ := written.prev
  have readDifficulty : intOfBytes (toText answer.difficulty) = .ok answer.difficulty :=
    orValueError_ok.mpr (readInt_toText _)
  have digested : (do
      let nonce ← field publisher.header.fields idxNonce
      let difficulty ← node.runtime.int (← field publisher.header.fields idxDifficulty)
      return validDigest (buildDigest publisher.header nonce) difficulty : Py Bool) = .ok true := by
    rw [fields]
    apply bind_ok.mpr
    refine ⟨answer.nonce, rfl, bind_ok.mpr ⟨_, rfl, ?_⟩⟩
    apply bind_ok.mpr
    refine ⟨answer.difficulty, Runtime.int_of_bytes readDifficulty, ?_⟩
    exact congrArg Except.ok written.digested
  have powered : isPow publisher.header.fields = true := by
    rw [fields, isPow]
    exact decide_eq_true rfl
  constructor
  · intro verified
    have ⟨prev', _, _, _, found', validates, _⟩ := Node.verifyBlock_ok verified
    refine ⟨prev', found', fun onPow => ?_⟩
    have same : prev = prev' := Option.some_inj.mp (found.symm.trans found')
    subst same
    have adjusted := expects onPow
    rcases (written.validated prints adjusted).mp (validates onPow) with reaches | late
    · exact .inl ⟨_, adjusted, reaches⟩
    · exact .inr late
  · intro excused
    have ⟨prev', found', excuse⟩ := excused
    have same : prev = prev' := Option.some_inj.mp (found.symm.trans found')
    subst same
    unfold Node.verifyBlock
    dsimp only
    rw [powered, found]
    by_cases onPow : isPow prev.fields = true
    · have adjusted := expects onPow
      have valid : node.validateDifficulty now prev prev.fields publisher.header.fields =
          .ok true := by
        apply (written.validated prints adjusted).mpr
        rcases excuse onPow with ⟨expected, adjusted', reaches⟩ | late
        · rw [Except.ok.inj (adjusted.symm.trans adjusted')]
          exact .inl reaches
        · exact .inr late
      simp only [onPow, valid]
      exact digested
    · simp only [Bool.not_eq_true] at onPow
      simp only [onPow]
      exact digested

/-- What is excused at a clock is excused at every later one. -/
theorem Node.Excuses.mono {previousBlockId : Text} {startTime : Float} {difficulty : Int}
    (excused : node.Excuses previousBlockId startTime difficulty now)
    (order : now.seconds ≤ later.seconds) :
    node.Excuses previousBlockId startTime difficulty later := by
  have ⟨prev, found, excuse⟩ := excused
  refine ⟨prev, found, fun powered => ?_⟩
  rcases excuse powered with reaches | ⟨prevTime, read, late⟩
  · exact .inl reaches
  · refine .inr ⟨prevTime, read, ?_⟩
    rw [tooEarly, Bool.or_eq_false_iff, Bool.or_eq_false_iff] at late ⊢
    refine ⟨⟨?_, late.1.2⟩, late.2⟩
    apply decide_eq_false
    intro before
    exact of_decide_eq_false late.1.1 (Lib.Binary64.le_trans order before)

/-- A difficulty that was asked for is excused. -/
theorem Answer.Writes.excused (written : answer.Writes node publisher)
    (reaches : answer.task.difficulty ≤ answer.difficulty) :
    node.Excuses publisher.header.previousBlockId publisher.startTime answer.difficulty now := by
  have ⟨prev, found, expects⟩ := written.prev
  exact ⟨prev, found, fun powered => .inl ⟨_, expects powered, reaches⟩⟩

end Written

/-! ## What a call publishes -/

section Published
variable {node : Node} {system after : System} {startTimes : List Float} {id arrived : Nat}
  {role : Role} {answer : Answer}

/-- An answer that is accepted is the one last written. -/
theorem System.updateConsensus_writes
    (updated : system.updateConsensus node id (some answer) = (.ok (), after)) :
    (after.publishers id).solution = some answer := by
  unfold updateConsensus Publisher.updateConsensus at updated
  dsimp only at updated
  split at updated
  · rename_i publisher accepted
    split at accepted
    · cases accepted
      cases updated
      rw [setPublisher_publishers_self]
    · contradiction
  · cases updated

/-- A hash that is read is the answer last written, and any state that is read is in view. -/
theorem System.readSolver_writes {event : Event}
    (read : system.readSolver node id role arrived = (.ok event, after)) :
    ((system.channel role).drain arrived).2.view = event ∧
      ∀ answer, event = .hash answer → (after.publishers id).solution = some answer := by
  unfold readSolver at read
  split at read
  · cases read
  · rename_i channel emptied
    dsimp only at read
    rw [emptied]
    split at read
    · rename_i found viewed
      split at read
      · rename_i updated
        cases read
        refine ⟨viewed, fun answer same => ?_⟩
        rw [← Event.hash.inj same]
        exact updateConsensus_writes updated
      · cases read
    · cases read
    · rename_i state notHash notError
      cases read
      exact ⟨rfl, fun answer same => absurd same (notHash answer)⟩

/-- The end of a check leaves the answer. -/
theorem System.ready_solution {later : Instant} {result : Py Bool}
    (ran : system.ready node id later = (result, after)) :
    (after.publishers id).solution = (system.publishers id).solution := by
  unfold ready at ran
  dsimp only at ran
  split at ran
  · rename_i publisher remaining
    cases ran
    have ⟨expected, _, built⟩ := bind_ok.mp remaining
    cases built
    rw [setPublisher_publishers_self]
    rfl
  · cases ran
    rfl

/-- A check that returns `True` has written a hash. -/
theorem System.checkPublishBlock_publishes {now later : Instant}
    (sound : system.Sound node startTimes)
    (ran : system.checkPublishBlock node id now later arrived = (some (.ok true), after)) :
    ∃ answer, (after.publishers id).solution = some answer ∧
      answer.task.difficulty ≤ answer.difficulty := by
  unfold checkPublishBlock at ran
  dsimp only at ran
  split at ran
  · cases ran
  · split at ran
    · cases ran
    · split at ran
      · cases ran
      · cases ran
    · cases ran
    · rename_i event middle working stopped read
      have ⟨_, sounds⟩ := readSolver_follows sound read
      have ⟨_, written⟩ := readSolver_writes read
      have heard := sounds event rfl
      cases event with
      | hash answer =>
        cases ended : middle.ready node id later with
        | mk reply finish =>
          rw [ended] at ran
          cases ran
          exact ⟨answer, (ready_solution ended).trans (written answer rfl), heard.2⟩
      | working => exact absurd rfl working
      | stopped answer => exact absurd rfl (stopped _)
      | error => exact heard.elim

/-- A wait that returns `True` has written what the solver stopped with. -/
theorem System.awaitStopped_publishes {later : Instant}
    (ran : system.awaitStopped node id later arrived = (some (.ok true), after)) :
    ∃ answer, (system.prim.drain arrived).2.view = .stopped (some answer) ∧
      (after.publishers id).solution = some answer := by
  unfold awaitStopped at ran
  dsimp only at ran
  split at ran
  · cases ran
  · rename_i payload middle read
    have viewed := (readSolver_writes read).1
    split at ran
    · cases ran
    · rename_i written updated
      cases payload with
      | none => cases updated
      | some answer =>
        cases ended : (written.setPublisher id
            { written.publishers id with stopping := false }).ready node id later with
        | mk reply finish =>
          rw [ended] at ran
          cases ran
          refine ⟨answer, viewed, (ready_solution ended).trans ?_⟩
          rw [setPublisher_publishers_self]
          exact updateConsensus_writes updated
  · cases ran

/-- An update that returns `True` has written a hash. -/
theorem System.updateBlock_publishes (sound : system.Sound node startTimes)
    (ran : system.updateBlock node id arrived = (true, after)) :
    ∃ answer, (after.publishers id).solution = some answer ∧
      answer.task.difficulty ≤ answer.difficulty := by
  unfold updateBlock at ran
  split at ran
  · rename_i answer middle read
    have heard := (readSolver_follows sound read).2 _ rfl
    cases ran
    exact ⟨answer, (readSolver_writes read).2 answer rfl, heard.2⟩
  · cases ran

end Published

/-! ## Publications -/

/-- The publisher whose candidate block a call may publish. -/
def Call.candidate : Call → Option Nat
  | .checkPublishBlock id .. | .awaitStopped id .. | .updateBlock id .. => some id
  | .initializeBlock .. | .onAccepted | .onCancelPublishBlock | .run .. => none

/-- The last reading of the clock in a call that may publish. -/
def Call.reading : Call → Option Instant
  | .checkPublishBlock _ _ later _ | .awaitStopped _ later _ => some later
  | .updateBlock .. | .initializeBlock .. | .onAccepted | .onCancelPublishBlock | .run .. => none

/-- A call publishes the candidate block of a publisher. -/
def Session.Publishes (node : Node) (session : Session) (call : Call) (id : Nat) : Prop :=
  call.candidate = some id ∧ succeeded (session.system.perform node call).1 = true

/-- A block passes verification at every clock that is not before the reading. -/
def Node.Accepts (node : Node) (header : BlockHeader) (reading : Option Instant) : Prop :=
  ∀ now : Instant, (∀ published ∈ reading, published.seconds ≤ now.seconds) →
    node.verifyBlock now header = .ok true

/-- The call is not the end of the fallback, or it finds a best answer that verification excuses
at the publisher's start time. -/
def Session.Excuses (node : Node) (session : Session) : Call → Prop
  | .awaitStopped id later arrived =>
    ∀ answer, (session.system.prim.drain arrived).2.view = .stopped (some answer) →
      node.Excuses (session.system.publishers id).header.previousBlockId
        (session.system.publishers id).startTime answer.difficulty later
  | _ => True

section Runs
variable {node : Node} {steps : List (Lib.Transition Session Call)} {session : Session}
  {taken : Lib.Transition Session Call} {id : Nat}

/-- A block with a found hash passes at any clock. -/
theorem accepts_hash {publisher : Publisher} {answer : Answer} {reading : Option Instant}
    (written : answer.Writes node publisher) (prints : node.runtime.Prints publisher.startTime)
    (reaches : answer.task.difficulty ≤ answer.difficulty) :
    node.Accepts publisher.header reading := by
  intro now _
  exact (written.verified prints).mpr (written.excused reaches)

/-- A clock reads its own time. -/
theorem Instant.le_refl (now : Instant) : now.seconds ≤ now.seconds :=
  Lib.Binary64.le_of_not_lt now.number now.number (Lib.Binary64.lt_irrefl _)

/-- A block with the best answer passes from a clock on exactly when it is excused there. -/
theorem accepts_best {publisher : Publisher} {answer : Answer} {later : Instant}
    (written : answer.Writes node publisher) (prints : node.runtime.Prints publisher.startTime) :
    node.Accepts publisher.header (some later) ↔
      node.Excuses publisher.header.previousBlockId publisher.startTime answer.difficulty
        later := by
  constructor
  · intro accepted
    apply (written.verified prints).mp
    apply accepted later
    intro published same
    rw [Option.some_inj.mp same]
    exact published.le_refl
  · intro excused now after
    exact (written.verified prints).mpr (excused.mono (after later rfl))

/-- Only `True` is a success. -/
theorem succeeded_iff {result : Option (Py Bool)} :
    succeeded result = true ↔ result = some (.ok true) := by
  rcases result with _ | _ | _ | _ <;> simp [succeeded]

/-- The system after a call is the one the call leaves. -/
theorem Session.next_system (before : Session) (call : Call) :
    (before.next node call).system = (before.system.perform node call).2 := by
  cases call <;> rfl

/-- The block that a call publishes passes verification exactly when the call is excused. -/
theorem Session.next_accepted {before : Session} {call : Call} (sound : before.Sound node)
    (published : before.Publishes node call id)
    (prints : node.runtime.Prints (before.system.publishers id).startTime) :
    node.Accepts ((before.next node call).system.publishers id).header call.reading ↔
      before.Excuses node call := by
  have held := sound.system
  obtain ⟨candidate, succeeds⟩ := published
  rw [next_system]
  rw [succeeded_iff] at succeeds
  -- A found hash passes, so there is nothing to excuse.
  have hashed {system : System} {reading : Option Instant}
      (follows : before.system.Follows node before.startTimes system)
      (written : ∃ answer, (system.publishers id).solution = some answer ∧
        answer.task.difficulty ≤ answer.difficulty) :
      node.Accepts (system.publishers id).header reading := by
    obtain ⟨answer, solution, reaches⟩ := written
    have writes := follows.sound.written id answer solution
    rw [← (follows.alike id).startTime] at prints
    exact accepts_hash writes prints reaches
  cases call with
  | initializeBlock => contradiction
  | onAccepted => contradiction
  | onCancelPublishBlock => contradiction
  | run => contradiction
  | checkPublishBlock own now later arrived =>
    have same : own = id := Option.some_inj.mp candidate
    subst same
    cases ran : before.system.checkPublishBlock node own now later arrived with
    | mk result system =>
      simp only [System.perform, ran] at succeeds ⊢
      subst succeeds
      have follows := (System.checkPublishBlock_follows held ran).1
      have written := System.checkPublishBlock_publishes held ran
      exact ⟨fun _ => trivial, fun _ => hashed follows written⟩
  | awaitStopped own later arrived =>
    have same : own = id := Option.some_inj.mp candidate
    subst same
    cases ran : before.system.awaitStopped node own later arrived with
    | mk result system =>
      simp only [System.perform, ran] at succeeds ⊢
      subst succeeds
      have follows := (System.awaitStopped_follows held ran).1
      obtain ⟨answer, viewed, solution⟩ := System.awaitStopped_publishes ran
      have writes := follows.sound.written own answer solution
      obtain ⟨startTime, previousBlockId, _⟩ := follows.alike own
      rw [← startTime] at prints
      have best : node.Accepts (system.publishers own).header (some later) ↔ _ :=
        accepts_best writes prints
      rw [startTime, previousBlockId] at best
      apply best.trans
      change _ ↔ ∀ answer, (before.system.prim.drain arrived).2.view = .stopped (some answer) → _
      rw [viewed]
      constructor
      · intro excused other same
        rw [← Option.some_inj.mp (Event.stopped.inj same)]
        exact excused
      · intro excused
        exact excused answer rfl
  | updateBlock own arrived =>
    have same : own = id := Option.some_inj.mp candidate
    subst same
    cases ran : before.system.updateBlock node own arrived with
    | mk result system =>
      simp only [System.perform, ran] at succeeds ⊢
      have found : result = true := Except.ok.inj (Option.some_inj.mp succeeds)
      subst found
      have follows := System.updateBlock_follows held ran
      have written := System.updateBlock_publishes held ran
      exact ⟨fun _ => trivial, fun _ => hashed follows written⟩

/-- A published block passes verification from its publication on exactly when it carries a found
hash, or its best difficulty is excused: the predecessor is no PoW block, the expected difficulty
is reached, or the publisher started the enforcing interval after the predecessor. -/
theorem publications_accepted
    (run : Lib.Run (Session.Step node) Session.init steps session) (listed : taken ∈ steps)
    (published : taken.before.Publishes node taken.label id)
    (prints : node.runtime.Prints (taken.before.system.publishers id).startTime) :
    node.Accepts (taken.after.system.publishers id).header taken.label.reading ↔
      taken.before.Excuses node taken.label := by
  obtain ⟨earlier, rest, rfl⟩ := List.append_of_mem listed
  have ⟨before, stepped, _⟩ := run.split
  have moved := stepped.2
  rw [moved]
  exact Session.next_accepted (Session.run_sound before) published prints

end Runs

/-! ## A found hash and a best digest -/

/-- The calls before the check of `publishingCalls`. -/
def startedCalls : List Call :=
  [.initializeBlock 0 candidateHeader none startClock 0, .run .prim 15 false, .run .prim 0 true]

/-- A check that finds the hash. -/
def checkCall : Call := .checkPublishBlock 0 readyClock readyClock 2

/-- The block with the nonce 15 passes verification from its publication on. -/
theorem publications_accepted_hash :
    publishingNode.Accepts
      (((Session.performs publishingNode startedCalls).next publishingNode
        checkCall).system.publishers 0).header (some readyClock) := by
  have run : Lib.Run (Session.Step publishingNode) Session.init
      (Session.stepsOf publishingNode (startedCalls ++ [checkCall]))
      (Session.performs publishingNode (startedCalls ++ [checkCall])) :=
    Session.run_performs (by decide)
  have published : (Session.performs publishingNode startedCalls).Publishes publishingNode
      checkCall 0 := ⟨rfl, by decide⟩
  have prints : publishingNode.runtime.Prints
      ((Session.performs publishingNode startedCalls).system.publishers 0).startTime :=
    ⟨by decide, by decide⟩
  exact (publications_accepted run (Lib.Run.mem_along_append startedCalls []) published prints).mpr
    trivial

/-- A clock at 2900 seconds. -/
def lateClock : Instant := ⟨2900, by decide⟩

/-- The solver has found a best digest of one bit when it is stopped after the enforcing
interval. -/
def stoppedCalls : List Call :=
  [.initializeBlock 0 candidateHeader none startClock 0, .run .prim 0 false, .run .prim 0 false,
    .checkPublishBlock 0 lateClock lateClock 1, .run .prim 0 true]

/-- The wait that publishes it. -/
def awaitCall : Call := .awaitStopped 0 lateClock 1

/-- The fallback publishes a block of difficulty one, started ten seconds after a predecessor of
difficulty three, and verification refuses it. -/
theorem publications_refused :
    ¬ ∀ (node : Node) (steps : List (Lib.Transition Session Call)) (session : Session),
      Lib.Run (Session.Step node) Session.init steps session → ∀ taken ∈ steps, ∀ id,
        taken.before.Publishes node taken.label id →
        node.runtime.Prints (taken.before.system.publishers id).startTime →
        node.Accepts (taken.after.system.publishers id).header taken.label.reading := by
  intro claim
  have run : Lib.Run (Session.Step publishingNode) Session.init
      (Session.stepsOf publishingNode (stoppedCalls ++ [awaitCall]))
      (Session.performs publishingNode (stoppedCalls ++ [awaitCall])) :=
    Session.run_performs (by decide)
  have published : (Session.performs publishingNode stoppedCalls).Publishes publishingNode
      awaitCall 0 := ⟨rfl, by decide⟩
  have prints : publishingNode.runtime.Prints
      ((Session.performs publishingNode stoppedCalls).system.publishers 0).startTime :=
    ⟨by decide, by decide⟩
  have accepted := claim _ _ _ run _ (Lib.Run.mem_along_append stoppedCalls []) 0 published prints
    lateClock (fun reading same => by rw [Option.some_inj.mp same]; exact reading.le_refl)
  exact absurd accepted (by decide)

end Creditcoin.PoW
