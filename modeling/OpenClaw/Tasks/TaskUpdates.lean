import OpenClaw.Tasks.TaskRegistry

/-!
# The writers of a task's status

The operations that change rows that exist: those that name one row, those that name a run (and
change every row of its scope), and the listener of agent events. Each is a list of patches handed
to `updateTask`, a row at a time.
-/

namespace OpenClaw.Tasks

variable (store : TaskRegistryStore)

/-- The outcomes a run is finalized with. -/
inductive TaskRunOutcome | succeeded | failed | timedOut | cancelled
  deriving DecidableEq, Repr

def TaskRunOutcome.status : TaskRunOutcome → TaskStatus
  | .succeeded => .succeeded
  | .failed => .failed
  | .timedOut => .timedOut
  | .cancelled => .cancelled

/-! ## Updates of one row -/

def setTaskCleanupAfterById (registry : TaskRegistry) (taskId : String) (cleanupAfter : Int) :
    Option TaskRecord × TaskRegistry :=
  updateTask store registry taskId { cleanupAfter := some cleanupAfter }

/-- What a row is marked terminal with; an inner `none` of `error` is a given `undefined`. -/
structure TaskTerminalMark where
  status : TaskRunOutcome
  endedAt : Int
  lastEventAt : Option Int := none
  error : Option (Option String) := none
  terminalSummary : Option (Option String) := none
  terminalOutcome : Option (Option TaskTerminalOutcome) := none
  cleanupAfter : Option Int := none

def TaskTerminalMark.patch (mark : TaskTerminalMark) : TaskPatch :=
  { status := some mark.status.status
    endedAt := some mark.endedAt
    lastEventAt := some (mark.lastEventAt.getD mark.endedAt)
    terminalSummary := mark.terminalSummary.map normalizeTaskSummary
    terminalOutcome := mark.terminalOutcome.map (resolveTaskTerminalOutcome mark.status.status)
    cleanupAfter := mark.cleanupAfter
    error := mark.error }

def markTaskTerminalById (registry : TaskRegistry) (taskId : String) (mark : TaskTerminalMark) :
    Option TaskRecord × TaskRegistry :=
  updateTask store registry taskId mark.patch

structure TaskLostMark where
  endedAt : Int
  lastEventAt : Option Int := none
  error : Option String := none
  cleanupAfter : Option Int := none
  terminalSummary : Option (Option String) := none

def TaskLostMark.patch (mark : TaskLostMark) : TaskPatch :=
  { status := some .lost
    endedAt := some mark.endedAt
    lastEventAt := some (mark.lastEventAt.getD mark.endedAt)
    error := mark.error.map some
    cleanupAfter := mark.cleanupAfter
    terminalSummary := mark.terminalSummary.map normalizeTaskSummary }

def markTaskLostById (registry : TaskRegistry) (taskId : String) (mark : TaskLostMark) :
    Option TaskRecord × TaskRegistry :=
  updateTask store registry taskId mark.patch

def updateTaskProgressById (registry : TaskRegistry) (now : Int) (taskId progressSummary : String)
    (lastEventAt : Option Int) : Option TaskRecord × TaskRegistry :=
  updateTask store registry taskId
    { progressSummary := some (normalizeTaskSummary (some progressSummary))
      lastEventAt := some (lastEventAt.getD now) }

def updateTaskNotifyPolicyById (registry : TaskRegistry) (now : Int) (taskId : String)
    (notifyPolicy : TaskNotifyPolicy) : Option TaskRecord × TaskRegistry :=
  updateTask store registry taskId { notifyPolicy := some notifyPolicy, lastEventAt := some now }

/-! ## Updates of a run -/

/-- What `updateTaskStateByRunId` is asked; an inner `none` of a summary or outcome is `null`. -/
structure RunStateUpdate where
  runId : String
  runtime : Option TaskRuntime := none
  sessionKey : Option String := none
  status : Option TaskStatus := none
  startedAt : Option Int := none
  endedAt : Option Int := none
  lastEventAt : Option Int := none
  error : Option String := none
  progressSummary : Option (Option String) := none
  terminalSummary : Option (Option String) := none
  terminalOutcome : Option (Option TaskTerminalOutcome) := none
  suppressDelivery : Bool := false

/-- What `shouldApplyRunScopedStatusUpdate` is asked about a row. -/
def RunStateUpdate.against (params : RunStateUpdate) (nextStatus : TaskStatus)
    (current : TaskRecord) : RunScopedStatusUpdate :=
  { currentStatus := current.status
    currentRuntime := current.runtime
    currentChildSessionKey := current.childSessionKey
    currentError := current.error
    currentEndedAt := current.endedAt
    nextStatus := nextStatus
    nextError := params.error
    nextEndedAt := params.endedAt }

/-- Whether a row of the run is left as it is. -/
def RunStateUpdate.skips (params : RunStateUpdate) (current : TaskRecord) : Bool :=
  params.status.any fun status =>
    !shouldApplyRunScopedStatusUpdate (params.against status current)

def RunStateUpdate.patch (params : RunStateUpdate) (current : TaskRecord) : TaskPatch :=
  let nextStatus := params.status.getD current.status
  { status := params.status
    startedAt := params.startedAt
    endedAt := params.endedAt
    lastEventAt := params.lastEventAt
    -- an outcome that replaces a cancellation also drops its error
    error := if current.status = .cancelled && nextStatus ≠ .cancelled && params.error.isNone then
        some none else params.error.map some
    progressSummary := params.progressSummary.map normalizeTaskSummary
    terminalSummary := params.terminalSummary.map normalizeTaskSummary
    terminalOutcome := params.terminalOutcome.map (resolveTaskTerminalOutcome nextStatus)
    deliveryStatus := if params.suppressDelivery then some .notApplicable else none }

/-- The patches of the rows of a run's scope. -/
def RunStateUpdate.patches (params : RunStateUpdate) (registry : TaskRegistry) :
    List (String × TaskPatch) :=
  let found := getTasksByRunScope registry params.runId params.runtime params.sessionKey
  (found.filter fun current => !params.skips current).map fun current =>
    (current.taskId, params.patch current)

def updateTaskStateByRunId (registry : TaskRegistry) (params : RunStateUpdate) :
    List TaskRecord × TaskRegistry :=
  updateTasks store registry (params.patches registry)

def markTaskRunningByRunId (registry : TaskRegistry) (runId : String)
    (runtime : Option TaskRuntime) (sessionKey : Option String)
    (startedAt lastEventAt : Option Int) (progressSummary : Option (Option String)) :
    List TaskRecord × TaskRegistry :=
  updateTaskStateByRunId store registry
    { runId, runtime, sessionKey, startedAt, lastEventAt, progressSummary
      status := some .running }

def recordTaskProgressByRunId (registry : TaskRegistry) (runId : String)
    (runtime : Option TaskRuntime) (sessionKey : Option String) (lastEventAt : Option Int)
    (progressSummary : Option (Option String)) : List TaskRecord × TaskRegistry :=
  updateTaskStateByRunId store registry
    { runId, runtime, sessionKey, lastEventAt, progressSummary }

/-- What `finalizeTaskRunByRunId` is asked. -/
structure RunFinalization where
  runId : String
  runtime : Option TaskRuntime := none
  sessionKey : Option String := none
  status : TaskRunOutcome
  startedAt : Option Int := none
  endedAt : Int
  lastEventAt : Option Int := none
  error : Option String := none
  progressSummary : Option (Option String) := none
  terminalSummary : Option (Option String) := none
  terminalOutcome : Option (Option TaskTerminalOutcome) := none
  suppressDelivery : Bool := false

def RunFinalization.toRunStateUpdate (params : RunFinalization) : RunStateUpdate :=
  { runId := params.runId
    runtime := params.runtime
    sessionKey := params.sessionKey
    status := some params.status.status
    startedAt := params.startedAt
    endedAt := some params.endedAt
    lastEventAt := params.lastEventAt
    error := params.error
    progressSummary := params.progressSummary
    terminalSummary := params.terminalSummary
    terminalOutcome := params.terminalOutcome
    suppressDelivery := params.suppressDelivery }

def finalizeTaskRunByRunId (registry : TaskRegistry) (params : RunFinalization) :
    List TaskRecord × TaskRegistry :=
  updateTaskStateByRunId store registry params.toRunStateUpdate

/-- `setTaskRunDeliveryStatusByRunId`. -/
def updateTaskDeliveryByRunId (registry : TaskRegistry) (runId : String)
    (runtime : Option TaskRuntime) (sessionKey : Option String)
    (deliveryStatus : TaskDeliveryStatus) (error : Option String) :
    List TaskRecord × TaskRegistry :=
  updateTasks store registry ((getTasksByRunScope registry runId runtime sessionKey).map
    fun task => (task.taskId, { deliveryStatus := some deliveryStatus, error := error.map some }))

/-! ## Agent events -/

inductive AgentRunTerminalReason
  | completed | hardTimeout | timedOut | cancelled | aborted | blocked | abandoned | failed
  deriving DecidableEq, Repr

/-- What `buildAgentRunTerminalOutcome` makes of the data of an event. -/
structure AgentRunTerminalOutcome where
  reason : AgentRunTerminalReason
  error : Option String := none
  endedAt : Option Int := none
  deriving DecidableEq, Repr

inductive LifecyclePhase
  | start
  | finish (terminal : AgentRunTerminalOutcome)
  | error (terminal : AgentRunTerminalOutcome)
  | other
  deriving DecidableEq, Repr

inductive AgentEventStream
  | lifecycle (phase : LifecyclePhase) (startedAt : Option Int)
  | error (error : Option String)
  | other
  deriving DecidableEq, Repr

structure AgentEvent where
  runId : String
  sessionKey : Option String := none
  now : Int
  stream : AgentEventStream
  deriving DecidableEq, Repr

def mapAgentRunTerminalOutcomeToTaskStatus (outcome : AgentRunTerminalOutcome) : TaskRunOutcome :=
  match outcome.reason with
  | .completed => .succeeded
  | .hardTimeout | .timedOut => .timedOut
  | .cancelled | .aborted => .cancelled
  | .blocked | .abandoned | .failed => .failed

/-- A subagent that was aborted is cancelled provisionally, whatever its error. -/
def resolveTaskLifecycleTerminalError (runtime : TaskRuntime) (status : TaskRunOutcome)
    (error : Option String) : Option String :=
  if runtime = .subagent && status = .cancelled then some SUBAGENT_KILL_TASK_ERROR else error

/-- The status, end and error of a run that ended; `onError` is the error where there is none. -/
def terminalEventPatch (now : Int) (startedAt : Option Int) (terminal : AgentRunTerminalOutcome)
    (current : TaskRecord) (onError : Option (Option String)) : TaskPatch :=
  let status := mapAgentRunTerminalOutcomeToTaskStatus terminal
  let error := resolveTaskLifecycleTerminalError current.runtime status terminal.error
  { lastEventAt := some now
    startedAt := startedAt
    status := some status.status
    endedAt := some (terminal.endedAt.getD now)
    error := (error.map some).or onError }

/-- What the listener writes to a row that is not terminal. -/
def AgentEvent.patch (event : AgentEvent) (current : TaskRecord) : TaskPatch :=
  match event.stream with
  | .lifecycle phase startedAt =>
    let startedAt := (startedAt.or current.startedAt).filter (· ≠ 0)
    match phase with
    | .start => { lastEventAt := some event.now, startedAt, status := some .running }
    | .finish terminal =>
      terminalEventPatch event.now startedAt { terminal with error := terminal.error.filter (· ≠ "") }
        current none
    | .error terminal =>
      terminalEventPatch event.now startedAt terminal current (some current.error)
    | .other => { lastEventAt := some event.now, startedAt }
  | .error error => { lastEventAt := some event.now, error := some (error.or current.error) }
  | .other => { lastEventAt := some event.now }

def AgentEvent.patches (event : AgentEvent) (registry : TaskRegistry) : List (String × TaskPatch) :=
  let found := getTasksByRunScope registry event.runId none event.sessionKey
  (found.filter fun current => !isTerminalTaskStatus current.status).map fun current =>
    (current.taskId, event.patch current)

/-- The listener of agent events (`ensureListener`). -/
def onAgentEvent (registry : TaskRegistry) (event : AgentEvent) : TaskRegistry :=
  (updateTasks store registry (event.patches registry)).2

end OpenClaw.Tasks
