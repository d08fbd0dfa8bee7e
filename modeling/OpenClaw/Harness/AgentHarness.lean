import OpenClaw.AgentCore.LoopAwaits
import OpenClaw.Lib.Lts
import Mathlib.Data.List.Basic

/-!
# `harness/agent-harness.ts`: one harness, its runs and its callers

The state of a `CoreAgentHarness` and of every call on it that has not returned, cut at the
`await`s: an event is what one call does from one `await` to the next, so a run of the system is an
interleaving of any number of calls, those of listeners and hooks among them. A call that is refused
(`busy`, `invalid_state`) changes nothing and is no event.

* `Run` is a call of `prompt`, `skill` or `promptFromTemplate`; all three are `prompt` here, which
  differ in the text they send and in that an unknown skill or template is thrown from `turnState`.
* A run holds its place in `runAgentLoop` as a `Loop`.
* A queue array that `abort` replaces gets a new generation.

The fields from `direct` on are not fields of the class: they are the appends on their way to the
session, what it has recorded, and what the callers were told. The order in which a session records
appends that overlap is left open. Ids are numbers in order of the calls.
-/

namespace OpenClaw.Harness

open AgentCore (Loop LoopAwait LoopAnswer QueueMode TurnMessage AwaitOutcome)

inductive AgentHarnessPhase
  | idle
  | turn
  | compaction
  | branchSummary
  deriving DecidableEq

/-- The writes that the harness defers. -/
inductive PendingSessionWrite (μ : Type)
  | message (message : μ)
  | modelChange (provider modelId : String)
  | thinkingLevelChange (thinkingLevel : String)
  deriving DecidableEq

/-- An array that may be replaced while it is being drained. -/
structure MessageQueue (μ : Type) where
  generation : Nat
  messages : List μ
  deriving DecidableEq

inductive QueueName
  | steer
  | followUp
  deriving DecidableEq

/-- Where `flushPendingSessionWrites` waits. -/
inductive FlushAt (μ : Type)
  | writing (write : PendingSessionWrite μ)
  /-- The session has recorded the write, which is still at the head. -/
  | written (write : PendingSessionWrite μ)
  /-- Nothing was left to write. -/
  | settled
  deriving DecidableEq

/-- What the harness does for a call of the loop. -/
inductive LoopHandler (μ : Type)
  /-- Listeners, hooks, the provider, tools and appends of the run's own messages. -/
  | outside
  /-- What follows a flush: `save_point`, the listeners of `agent_end`, `createTurnState`. -/
  | afterFlush
  /-- `queue_update` in `drainQueuedMessages`. -/
  | queueUpdate (queue : QueueName) (generation : Nat) (messages : List μ)
  deriving DecidableEq

/-- The event that `emitRunFailure` delivers. -/
inductive ReportAt
  | messageStart
  | messageEnd
  | turnEnd
  | agentEnd
  deriving DecidableEq

/-- Who called `flushPendingSessionWrites`. -/
inductive FlushCaller (μ : Type)
  | loop (l : Loop (TurnMessage μ))
  | report (event : ReportAt)
  /-- The `finally` of `executeTurn`. -/
  | finally
  deriving DecidableEq

/-- Where a run waits. -/
inductive RunStage (μ : Type)
  | turnState
  /-- `queue_update` in `executeTurn`. -/
  | nextTurnTaken (queuedMessages : List μ)
  /-- The `before_agent_start` hook. -/
  | beforeStart (queuedMessages : List μ)
  | loop (l : Loop (TurnMessage μ)) (handler : LoopHandler μ)
  | report (event : ReportAt) (afterFlush : Bool)
  /-- `failed`: an error is thrown when the flush is over. -/
  | flush (flush : FlushAt μ) (failed : Bool) (caller : FlushCaller μ)
  /-- `runResultPromise` is settled. -/
  | ended (failed : Bool)
  /-- `executeTurn` has returned or thrown. -/
  | unwound (failed : Bool)
  | settled
  deriving DecidableEq

/-- `handedBack`: the run has set the phase to idle at an `agent_end`. -/
structure Run (μ : Type) where
  stage : RunStage μ
  handedBack : Bool
  deriving DecidableEq

inductive Op (μ : Type)
  | run (run : Run μ)
  /-- `compact` or `navigateTree`. -/
  | exclusive (settled : Bool)
  deriving DecidableEq

structure AgentHarness (μ : Type) where
  phase : AgentHarnessPhase
  runPromise : Option Nat
  runAbortController : Option Nat
  pendingSessionWrites : List (PendingSessionWrite μ)
  steerQueue : MessageQueue μ
  followUpQueue : MessageQueue μ
  steeringQueueMode : QueueMode
  followUpQueueMode : QueueMode
  nextTurnQueue : List μ
  ops : List (Op μ)
  /-- The runs whose controller is aborted. -/
  aborted : List Nat
  /-- The runs whose promise is resolved. -/
  resolved : List Nat
  /-- The appends of `appendMessage`, `setModel` and `setThinkingLevel` on their way. -/
  direct : List (PendingSessionWrite μ)
  recorded : List (PendingSessionWrite μ)
  acceptedWrites : List (PendingSessionWrite μ)
  acceptedMessages : List μ
  injected : List μ
  /-- What `abort` has reported as cleared. -/
  reported : List μ
  deriving DecidableEq

inductive HarnessEvent (μ : Type)
  /-- `prompt`, `skill` or `promptFromTemplate`. -/
  | prompt
  | compact
  | navigateTree
  /-- `compact` or `navigateTree` returns or throws. -/
  | leave (id : Nat)
  | resume (id : Nat) (outcome : AwaitOutcome μ)
  /-- The session records the write that a flush waits for. -/
  | recordPending (id : Nat)
  | appendMessage (message : μ)
  | setModel (provider modelId : String)
  | setThinkingLevel (level : String)
  | recordDirect (index : Nat)
  | failDirect (index : Nat)
  | steer (message : μ)
  | followUp (message : μ)
  | nextTurn (message : μ)
  | setSteeringMode (mode : QueueMode)
  | setFollowUpMode (mode : QueueMode)
  | abort
  deriving DecidableEq

namespace AgentHarness

variable {μ : Type}

def create (steeringMode followUpMode : QueueMode) : AgentHarness μ where
  phase := .idle
  runPromise := none
  runAbortController := none
  pendingSessionWrites := []
  steerQueue := ⟨0, []⟩
  followUpQueue := ⟨0, []⟩
  steeringQueueMode := steeringMode
  followUpQueueMode := followUpMode
  nextTurnQueue := []
  ops := []
  aborted := []
  resolved := []
  direct := []
  recorded := []
  acceptedWrites := []
  acceptedMessages := []
  injected := []
  reported := []

def setStage (s : AgentHarness μ) (id : Nat) (run : Run μ) (stage : RunStage μ) :
    AgentHarness μ :=
  { s with ops := s.ops.set id (.run { run with stage }) }

/-! ## The queues -/

def queue (s : AgentHarness μ) : QueueName → MessageQueue μ
  | .steer => s.steerQueue
  | .followUp => s.followUpQueue

def queueMode (s : AgentHarness μ) : QueueName → QueueMode
  | .steer => s.steeringQueueMode
  | .followUp => s.followUpQueueMode

def setMessages (s : AgentHarness μ) (name : QueueName) (messages : List μ) : AgentHarness μ :=
  match name with
  | .steer => { s with steerQueue := { s.steerQueue with messages } }
  | .followUp => { s with followUpQueue := { s.followUpQueue with messages } }

/-- `drainQueuedMessages`, up to its `queue_update`. -/
def drainQueuedMessages (s : AgentHarness μ) (name : QueueName) : List μ × AgentHarness μ :=
  let spliced := (s.queueMode name).splice (s.queue name).messages
  (spliced.1, s.setMessages name spliced.2)

/-- `queue.unshift(...messages)`, on the array that was drained. -/
def unshift (s : AgentHarness μ) (name : QueueName) (generation : Nat) (messages : List μ) :
    AgentHarness μ :=
  if (s.queue name).generation = generation then
    s.setMessages name (messages ++ (s.queue name).messages)
  else s

/-! ## The pending writes -/

/-- The head of the loop of `flushPendingSessionWrites`. -/
def nextFlush (s : AgentHarness μ) : FlushAt μ :=
  match s.pendingSessionWrites with
  | [] => .settled
  | write :: _ => .writing write

def flush (s : AgentHarness μ) (id : Nat) (run : Run μ) (failed : Bool)
    (caller : FlushCaller μ) : AgentHarness μ :=
  s.setStage id run (.flush s.nextFlush failed caller)

/-- `appendMessage`, `setModel` and `setThinkingLevel`. -/
def acceptWrite (s : AgentHarness μ) (write : PendingSessionWrite μ) : AgentHarness μ :=
  let s := { s with acceptedWrites := s.acceptedWrites ++ [write] }
  if s.phase = .idle then { s with direct := s.direct ++ [write] }
  else { s with pendingSessionWrites := s.pendingSessionWrites ++ [write] }

/-! ## A run -/

/-- The phase is handed back, and the `agent_end` listeners are called. -/
def handBack (s : AgentHarness μ) (id : Nat) (run : Run μ) (stage : RunStage μ) :
    AgentHarness μ :=
  { s with phase := .idle }.setStage id { run with handedBack := true } stage

/-- The `catch` around `runAgentLoop`: `emitRunFailure` is called. -/
def failLoop (s : AgentHarness μ) (id : Nat) (run : Run μ) : AgentHarness μ :=
  s.setStage id run (.report .messageStart false)

/-- `executeTurn`, up to its first `await`. -/
def executeTurn (s : AgentHarness μ) (id : Nat) (run : Run μ) : AgentHarness μ :=
  match s.nextTurnQueue with
  | [] => s.setStage id run (.beforeStart [])
  | _ :: _ => { s with nextTurnQueue := [] }.setStage id run (.nextTurnTaken s.nextTurnQueue)

/-- The loop has come to its next `await`: what the harness does for it, up to an `await` of its
own. -/
def serve (s : AgentHarness μ) (id : Nat) (run : Run μ) (l : Loop (TurnMessage μ)) :
    AgentHarness μ :=
  match l.await with
  | .promptEnd message | .pendingEnd message =>
    { s with injected := s.injected ++ message.queued?.toList }.setStage id run (.loop l .outside)
  | .initialSteering | .steering =>
    let drained := s.drainQueuedMessages .steer
    drained.2.setStage id run
      (.loop l (.queueUpdate .steer (s.queue .steer).generation drained.1))
  | .followUp =>
    let drained := s.drainQueuedMessages .followUp
    drained.2.setStage id run
      (.loop l (.queueUpdate .followUp (s.queue .followUp).generation drained.1))
  | .prepareNextTurn | .failedAgentEnd | .stoppedAgentEnd | .agentEnd | .abortedAgentEnd =>
    s.flush id run false (.loop l)
  | .returned => s.setStage id run (.ended false)
  | _ => s.setStage id run (.loop l .outside)

/-- `executeTurn` from the result of the hook to the first `await` of the loop. -/
def startLoop (s : AgentHarness μ) (id : Nat) (run : Run μ) (queuedMessages given : List μ) :
    AgentHarness μ :=
  { s with runAbortController := some id }.serve id run
    (.start (queuedMessages.map TurnMessage.queued ++ given.map TurnMessage.given))

/-- A call of the loop is answered. -/
def resumeLoop (s : AgentHarness μ) (id : Nat) (run : Run μ) (l : Loop (TurnMessage μ))
    (answer : LoopAnswer (TurnMessage μ)) : Option (AgentHarness μ) :=
  (l.resume (s.aborted.contains id) answer).map (s.serve id run)

/-- What follows a flush. -/
def afterFlush (s : AgentHarness μ) (id : Nat) (run : Run μ) (failed : Bool) :
    FlushCaller μ → AgentHarness μ
  | .loop l =>
    if failed then s.failLoop id run
    else if l.await.isAgentEnd then s.handBack id run (.loop l .afterFlush)
    else s.setStage id run (.loop l .afterFlush)
  | .report event =>
    if failed then s.setStage id run (.ended true)
    else if event = .agentEnd then s.handBack id run (.report event true)
    else s.setStage id run (.report event true)
  | .finally => { s with runAbortController := none }.setStage id run (.unwound failed)

/-- The `catch` and the `finally` of `prompt`. -/
def finish (s : AgentHarness μ) (id : Nat) (run : Run μ) (failed : Bool) : AgentHarness μ :=
  { s with
    phase := if failed then .idle else s.phase
    runPromise := none
    resolved := s.resolved ++ [id] }.setStage id run .settled

/-- An `await` of a run ends. -/
def resumeRun (s : AgentHarness μ) (id : Nat) (run : Run μ) (outcome : AwaitOutcome μ) :
    Option (AgentHarness μ) :=
  match run.stage, outcome with
  | .turnState, .returns .done => some (s.executeTurn id run)
  | .turnState, .throws => some (s.setStage id run (.unwound true))
  | .nextTurnTaken queuedMessages, .returns .done =>
    some (s.setStage id run (.beforeStart queuedMessages))
  | .nextTurnTaken queuedMessages, .throws =>
    some ({ s with nextTurnQueue := queuedMessages ++ s.nextTurnQueue }.setStage id run
      (.unwound true))
  | .beforeStart queuedMessages, .returns (.messages given) =>
    some (s.startLoop id run queuedMessages given)
  | .beforeStart _, .throws => some (s.setStage id run (.unwound true))
  | .loop l .outside, .returns answer =>
    match answer with
    | .done =>
      if l.await.isTurnEnd then some (s.flush id run false (.loop l))
      else s.resumeLoop id run l .done
    | .response failed toolUse => s.resumeLoop id run l (.response failed toolUse)
    | .tools terminate => s.resumeLoop id run l (.tools terminate)
    -- the harness gives no `shouldStopAfterTurn`
    | .flag false => s.resumeLoop id run l (.flag false)
    | .flag true | .messages _ => none
  | .loop l .outside, .throws =>
    match l.await with
    | .unaborted _ => none
    | _ => if l.await.isTurnEnd then some (s.flush id run true (.loop l))
      else some (s.failLoop id run)
  | .loop l .afterFlush, .returns .done => s.resumeLoop id run l .done
  | .loop _ .afterFlush, .throws => some (s.failLoop id run)
  | .loop l (.queueUpdate _ _ messages), .returns .done =>
    s.resumeLoop id run l (.messages (messages.map TurnMessage.queued))
  | .loop _ (.queueUpdate _ _ []), .throws => none
  | .loop _ (.queueUpdate name generation messages), .throws =>
    some ((s.unshift name generation messages).failLoop id run)
  | .report .messageStart _, .returns .done => some (s.setStage id run (.report .messageEnd false))
  | .report .messageEnd _, .returns .done => some (s.setStage id run (.report .turnEnd false))
  | .report .turnEnd false, .returns .done => some (s.flush id run false (.report .turnEnd))
  | .report .turnEnd false, .throws => some (s.flush id run true (.report .turnEnd))
  | .report .turnEnd true, .returns .done => some (s.flush id run false (.report .agentEnd))
  | .report .agentEnd true, .returns .done => some (s.setStage id run (.ended false))
  | .report _ _, .throws => some (s.setStage id run (.ended true))
  -- the storage may fail
  | .flush (.writing _) _ caller, .throws => some (s.afterFlush id run true caller)
  | .flush (.written _) failed caller, .returns .done =>
    some ({ s with pendingSessionWrites := s.pendingSessionWrites.tail }.flush id run failed caller)
  | .flush .settled failed caller, .returns .done => some (s.afterFlush id run failed caller)
  | .ended failed, .returns .done => some (s.flush id run failed .finally)
  | .unwound failed, .returns .done => some (s.finish id run failed)
  | _, _ => none

/-! ## The events -/

/-- `prompt`, up to its first `await`. -/
def beginRun (s : AgentHarness μ) : Option (AgentHarness μ) :=
  if s.phase = .idle then
    some { s with
      phase := .turn
      runPromise := some s.ops.length
      ops := s.ops ++ [.run ⟨.turnState, false⟩] }
  else none

/-- `compact` and `navigateTree`, up to their first `await`. -/
def beginExclusive (s : AgentHarness μ) (phase : AgentHarnessPhase) : Option (AgentHarness μ) :=
  if s.phase = .idle then some { s with phase, ops := s.ops ++ [.exclusive false] } else none

/-- `abort`, up to its first `await`. -/
def abort (s : AgentHarness μ) : AgentHarness μ :=
  { s with
    steerQueue := ⟨s.steerQueue.generation + 1, []⟩
    followUpQueue := ⟨s.followUpQueue.generation + 1, []⟩
    reported := s.reported ++ s.steerQueue.messages ++ s.followUpQueue.messages
    aborted := s.aborted ++ s.runAbortController.toList }

/-- The promise that `waitForIdle` awaits. -/
def waitForIdle (s : AgentHarness μ) : Option Nat := s.runPromise

def accept (s : AgentHarness μ) (message : μ) : AgentHarness μ :=
  { s with acceptedMessages := s.acceptedMessages ++ [message] }

/-- `steer` and `followUp`. -/
def enqueue (s : AgentHarness μ) (name : QueueName) (message : μ) : Option (AgentHarness μ) :=
  if s.phase = .idle then none
  else some ((s.setMessages name ((s.queue name).messages ++ [message])).accept message)

def step (s : AgentHarness μ) : HarnessEvent μ → Option (AgentHarness μ)
  | .prompt => s.beginRun
  | .compact => s.beginExclusive .compaction
  | .navigateTree => s.beginExclusive .branchSummary
  | .leave id =>
    match s.ops[id]? with
    | some (.exclusive false) =>
      some { s with phase := .idle, ops := s.ops.set id (.exclusive true) }
    | _ => none
  | .resume id outcome =>
    match s.ops[id]? with
    | some (.run run) => s.resumeRun id run outcome
    | _ => none
  | .recordPending id =>
    match s.ops[id]? with
    | some (.run run) =>
      match run.stage with
      | .flush (.writing write) failed caller =>
        some ({ s with recorded := s.recorded ++ [write] }.setStage id run
          (.flush (.written write) failed caller))
      | _ => none
    | _ => none
  | .appendMessage message => some (s.acceptWrite (.message message))
  | .setModel provider modelId => some (s.acceptWrite (.modelChange provider modelId))
  | .setThinkingLevel level => some (s.acceptWrite (.thinkingLevelChange level))
  | .recordDirect index =>
    s.direct[index]?.map fun write =>
      { s with direct := s.direct.eraseIdx index, recorded := s.recorded ++ [write] }
  | .failDirect index =>
    s.direct[index]?.map fun _ => { s with direct := s.direct.eraseIdx index }
  | .steer message => s.enqueue .steer message
  | .followUp message => s.enqueue .followUp message
  | .nextTurn message =>
    some ({ s with nextTurnQueue := s.nextTurnQueue ++ [message] }.accept message)
  | .setSteeringMode mode => some { s with steeringQueueMode := mode }
  | .setFollowUpMode mode => some { s with followUpQueueMode := mode }
  | .abort => some s.abort

def Step (s : AgentHarness μ) (e : HarnessEvent μ) (t : AgentHarness μ) : Prop := s.step e = some t

/-- A harness just made. -/
def Created (s : AgentHarness μ) : Prop := ∃ steeringMode followUpMode,
  s = create steeringMode followUpMode

end AgentHarness

end OpenClaw.Harness
