import OpenClaw.Lib.Multimap
import OpenClaw.Tasks.TaskRecord

/-!
# The task registry

The rows of all tasks and their delivery states in memory, four indexes over the rows, and the
store they are written to. Every change is first written to the store; if the store throws,
memory stays as it is.

The store is the records it was last given. Which writes throw is a choice of the store, by how
many writes came before.
-/

namespace OpenClaw.Tasks

open KeyedList Multimap

structure TaskRegistrySnapshot where
  tasks : List TaskRecord := []
  deliveryStates : List TaskDeliveryState := []
  deriving DecidableEq, Repr

/-- A store: the methods it has beside `loadSnapshot` and `saveSnapshot`, and the writes that
throw. -/
structure TaskRegistryStore where
  upsertTaskWithDeliveryState : Bool
  upsertTask : Bool
  deleteTaskWithDeliveryState : Bool
  upsertDeliveryState : Bool
  throws : Nat → Bool

/-- The state of the process (`taskRegistryProcessState`) and of the store behind it. -/
structure TaskRegistry where
  tasks : List TaskRecord := []
  taskDeliveryStates : List TaskDeliveryState := []
  taskIdsByRunId : List (String × String) := []
  taskIdsByOwnerKey : List (String × String) := []
  taskIdsByParentFlowId : List (String × String) := []
  taskIdsByRelatedSessionKey : List (String × String) := []
  stored : TaskRegistrySnapshot := {}
  writes : Nat := 0
  deriving DecidableEq, Repr

/-- `tasks.get`. -/
def TaskRegistry.getTask (registry : TaskRegistry) (taskId : String) : Option TaskRecord :=
  get TaskRecord.taskId taskId registry.tasks

/-- `taskDeliveryStates.get`. -/
def TaskRegistry.getDeliveryState (registry : TaskRegistry) (taskId : String) :
    Option TaskDeliveryState :=
  get TaskDeliveryState.taskId taskId registry.taskDeliveryStates

/-! ## Keys of the indexes -/

def runIdKeys (task : TaskRecord) : List String := (normalizeOptionalString task.runId).toList

def ownerKeys (task : TaskRecord) : List String :=
  (normalizeOptionalString (some task.ownerKey)).toList

def parentFlowKeys (task : TaskRecord) : List String :=
  (normalizeOptionalString task.parentFlowId).toList

def getTaskRelatedSessionIndexKeys (task : TaskRecord) : List String :=
  (ownerKeys task ++ (normalizeOptionalString task.childSessionKey).toList).eraseDups

/-! ## Writes -/

section Writes

variable (store : TaskRegistryStore)

/-- One write: it throws, or the store holds what it was given. -/
def TaskRegistry.write (registry : TaskRegistry) (next : TaskRegistrySnapshot) :
    Bool × TaskRegistry :=
  if store.throws registry.writes then (false, { registry with writes := registry.writes + 1 })
  else (true, { registry with writes := registry.writes + 1, stored := next })

/-- What the store holds after `persistTaskUpsert`. -/
def persistTaskUpsert (registry : TaskRegistry) (task : TaskRecord)
    (pendingDeliveryState : Option TaskDeliveryState) : TaskRegistrySnapshot :=
  let deliveryState := pendingDeliveryState.or (registry.getDeliveryState task.taskId)
  let withState (states : List TaskDeliveryState) : List TaskDeliveryState :=
    deliveryState.elim states fun state => put TaskDeliveryState.taskId state states
  if store.upsertTaskWithDeliveryState then
    { tasks := put TaskRecord.taskId task registry.stored.tasks
      deliveryStates := if deliveryState.isSome then withState registry.stored.deliveryStates
        else registry.stored.deliveryStates.filter (·.taskId ≠ task.taskId) }
  else if deliveryState.isNone && store.upsertTask then
    { registry.stored with tasks := put TaskRecord.taskId task registry.stored.tasks }
  else
    -- a projection of memory, so that one write holds both the row and its delivery state
    { tasks := put TaskRecord.taskId task registry.tasks
      deliveryStates := withState registry.taskDeliveryStates }

def persistTaskDelete (registry : TaskRegistry) (taskId : String) : TaskRegistrySnapshot :=
  let kept : TaskRegistrySnapshot := if store.deleteTaskWithDeliveryState then registry.stored
    else { tasks := registry.tasks, deliveryStates := registry.taskDeliveryStates }
  { tasks := kept.tasks.filter (·.taskId ≠ taskId)
    deliveryStates := kept.deliveryStates.filter (·.taskId ≠ taskId) }

def persistTaskDeliveryStateUpsert (registry : TaskRegistry) (state : TaskDeliveryState) :
    TaskRegistrySnapshot :=
  if store.upsertDeliveryState then
    { registry.stored with
      deliveryStates := put TaskDeliveryState.taskId state registry.stored.deliveryStates }
  else
    { tasks := registry.tasks
      deliveryStates := put TaskDeliveryState.taskId state registry.taskDeliveryStates }

end Writes

/-! ## One row -/

/-- A partial record. An inner `none` is a field set to `undefined`. -/
structure TaskPatch where
  taskKind : Option String := none
  sourceId : Option String := none
  ownerKey : Option String := none
  childSessionKey : Option String := none
  parentFlowId : Option String := none
  parentTaskId : Option String := none
  agentId : Option String := none
  requesterAgentId : Option String := none
  runId : Option String := none
  label : Option String := none
  task : Option String := none
  status : Option TaskStatus := none
  deliveryStatus : Option TaskDeliveryStatus := none
  notifyPolicy : Option TaskNotifyPolicy := none
  startedAt : Option Int := none
  endedAt : Option Int := none
  lastEventAt : Option Int := none
  cleanupAfter : Option Int := none
  error : Option (Option String) := none
  progressSummary : Option (Option String) := none
  terminalSummary : Option (Option String) := none
  terminalOutcome : Option (Option TaskTerminalOutcome) := none
  deriving DecidableEq, Repr

/-- `{ ...current, ...patch }`. -/
def TaskPatch.apply (patch : TaskPatch) (current : TaskRecord) : TaskRecord :=
  { current with
    taskKind := patch.taskKind.or current.taskKind
    sourceId := patch.sourceId.or current.sourceId
    ownerKey := patch.ownerKey.getD current.ownerKey
    childSessionKey := patch.childSessionKey.or current.childSessionKey
    parentFlowId := patch.parentFlowId.or current.parentFlowId
    parentTaskId := patch.parentTaskId.or current.parentTaskId
    agentId := patch.agentId.or current.agentId
    requesterAgentId := patch.requesterAgentId.or current.requesterAgentId
    runId := patch.runId.or current.runId
    label := patch.label.or current.label
    task := patch.task.getD current.task
    status := patch.status.getD current.status
    deliveryStatus := patch.deliveryStatus.getD current.deliveryStatus
    notifyPolicy := patch.notifyPolicy.getD current.notifyPolicy
    startedAt := patch.startedAt.or current.startedAt
    endedAt := patch.endedAt.or current.endedAt
    lastEventAt := patch.lastEventAt.or current.lastEventAt
    cleanupAfter := patch.cleanupAfter.or current.cleanupAfter
    error := patch.error.getD current.error
    progressSummary := patch.progressSummary.getD current.progressSummary
    terminalSummary := patch.terminalSummary.getD current.terminalSummary
    terminalOutcome := patch.terminalOutcome.getD current.terminalOutcome }

/-- The row a patch makes of the current one. -/
def TaskPatch.next (patch : TaskPatch) (current : TaskRecord) : TaskRecord :=
  withCleanupAfter (normalizeTaskTimestamps (patch.apply current))

/-- The memory side of `updateTask`: the row, and the indexes whose key may have changed. -/
def TaskRegistry.replaceTask (registry : TaskRegistry) (patch : TaskPatch)
    (current next : TaskRecord) : TaskRegistry :=
  let taskId := current.taskId
  let tasks := put TaskRecord.taskId next registry.tasks
  let sessionIndexChanged : Bool :=
    normalizeOptionalString (some current.ownerKey) ≠ normalizeOptionalString (some next.ownerKey) ||
      normalizeOptionalString current.childSessionKey ≠ normalizeOptionalString next.childSessionKey
  let parentFlowIndexChanged : Bool :=
    current.parentFlowId.map JsString.trim ≠ next.parentFlowId.map JsString.trim
  { registry with
    tasks := tasks
    taskIdsByRunId :=
      if patch.runId.any fun runId => runId ≠ "" && some runId ≠ current.runId then
        rebuild runIdKeys TaskRecord.taskId tasks
      else registry.taskIdsByRunId
    taskIdsByOwnerKey :=
      if sessionIndexChanged then
        addAll (ownerKeys next) taskId
          (removeAll (ownerKeys current) taskId registry.taskIdsByOwnerKey)
      else registry.taskIdsByOwnerKey
    taskIdsByRelatedSessionKey :=
      if sessionIndexChanged then
        addAll (getTaskRelatedSessionIndexKeys next) taskId
          (removeAll (getTaskRelatedSessionIndexKeys current) taskId
            registry.taskIdsByRelatedSessionKey)
      else registry.taskIdsByRelatedSessionKey
    taskIdsByParentFlowId :=
      if parentFlowIndexChanged then
        addAll (parentFlowKeys next) taskId
          (removeAll (parentFlowKeys current) taskId registry.taskIdsByParentFlowId)
      else registry.taskIdsByParentFlowId }

section Mutators

variable (store : TaskRegistryStore)

def updateTask (registry : TaskRegistry) (taskId : String) (patch : TaskPatch) :
    Option TaskRecord × TaskRegistry :=
  match registry.getTask taskId with
  | none => (none, registry)
  | some current =>
    let next := patch.next current
    match registry.write store (persistTaskUpsert store registry next none) with
    | (false, registry) => (none, registry)
    | (true, registry) => (some next, registry.replaceTask patch current next)

/-- The records a change of several rows returns: those that were written. -/
def updateTasks (registry : TaskRegistry) : List (String × TaskPatch) →
    List TaskRecord × TaskRegistry
  | [] => ([], registry)
  | (taskId, patch) :: rest =>
    let first := updateTask store registry taskId patch
    let others := updateTasks first.2 rest
    (first.1.toList ++ others.1, others.2)

def upsertTaskDeliveryState
    (normalizeDeliveryContext : DeliveryContext → Option DeliveryContext)
    (registry : TaskRegistry) (state : TaskDeliveryState) : TaskDeliveryState × TaskRegistry :=
  let current := registry.getDeliveryState state.taskId
  let next : TaskDeliveryState :=
    { taskId := state.taskId
      requesterOrigin := state.requesterOrigin.bind normalizeDeliveryContext
      lastNotifiedEventAt := state.lastNotifiedEventAt }
  if next.requesterOrigin.isNone && next.lastNotifiedEventAt.isNone && current.isNone then
    ({ taskId := state.taskId }, registry)
  else
    match registry.write store (persistTaskDeliveryStateUpsert store registry next) with
    | (false, registry) => (current.getD { taskId := state.taskId }, registry)
    | (true, registry) =>
      (next, { registry with
        taskDeliveryStates := put TaskDeliveryState.taskId next registry.taskDeliveryStates })

def deleteTaskRecordById (registry : TaskRegistry) (taskId : String) : Bool × TaskRegistry :=
  match registry.getTask taskId with
  | none => (false, registry)
  | some current =>
    match registry.write store (persistTaskDelete store registry taskId) with
    | (false, registry) => (false, registry)
    | (true, registry) =>
      let tasks := registry.tasks.filter (·.taskId ≠ taskId)
      (true, { registry with
        tasks := tasks
        taskDeliveryStates := registry.taskDeliveryStates.filter (·.taskId ≠ taskId)
        taskIdsByRunId := rebuild runIdKeys TaskRecord.taskId tasks
        taskIdsByOwnerKey := removeAll (ownerKeys current) taskId registry.taskIdsByOwnerKey
        taskIdsByParentFlowId :=
          removeAll (parentFlowKeys current) taskId registry.taskIdsByParentFlowId
        taskIdsByRelatedSessionKey :=
          removeAll (getTaskRelatedSessionIndexKeys current) taskId
            registry.taskIdsByRelatedSessionKey })

end Mutators

/-- `restoreTaskRegistryOnce`: memory read from the store, and the indexes built. -/
def restoreTaskRegistry (stored : TaskRegistrySnapshot) : TaskRegistry :=
  let tasks := stored.tasks.map normalizeTaskTimestamps
  { tasks := tasks
    taskDeliveryStates := stored.deliveryStates
    taskIdsByRunId := rebuild runIdKeys TaskRecord.taskId tasks
    taskIdsByOwnerKey := rebuild ownerKeys TaskRecord.taskId tasks
    taskIdsByParentFlowId := rebuild parentFlowKeys TaskRecord.taskId tasks
    taskIdsByRelatedSessionKey :=
      rebuild getTaskRelatedSessionIndexKeys TaskRecord.taskId tasks
    stored := stored }

/-! ## Lookups -/

/-- The rows whose ids an index has under a key. -/
def TaskRegistry.readIndex (registry : TaskRegistry) (index : List (String × String))
    (key : String) : List TaskRecord :=
  (values index key).filterMap registry.getTask

def getTasksByRunId (registry : TaskRegistry) (runId : String) : List TaskRecord :=
  registry.readIndex registry.taskIdsByRunId (JsString.trim runId)

/-- The fields that tell the scopes of one run id apart (`taskRunScopeKey`). -/
def taskRunScopeKey (task : TaskRecord) : TaskRuntime × TaskScopeKind × String × String :=
  (task.runtime, task.scopeKind, (normalizeOptionalString (some task.ownerKey)).getD "",
    (normalizeOptionalString task.childSessionKey).getD "")

/-- The rows of a run among those with its run id. -/
def selectRunScope (runtime : Option TaskRuntime) (sessionKey : Option String)
    (withRunId : List TaskRecord) : List TaskRecord :=
  let found := withRunId.filter fun task => runtime.all (task.runtime = ·)
  match normalizeOptionalString sessionKey with
  | some sessionKey =>
    let childMatches :=
      found.filter fun task => normalizeOptionalString task.childSessionKey = some sessionKey
    if childMatches ≠ [] then childMatches
    else found.filter fun task => task.scopeKind = .session &&
      normalizeOptionalString (some task.ownerKey) = some sessionKey
  | none => if (found.map taskRunScopeKey).dedup.length ≤ 1 then found else []

def getTasksByRunScope (registry : TaskRegistry) (runId : String) (runtime : Option TaskRuntime)
    (sessionKey : Option String) : List TaskRecord :=
  selectRunScope runtime sessionKey (getTasksByRunId registry runId)

def getPeerTasksForDelivery (registry : TaskRegistry) (task : TaskRecord) : List TaskRecord :=
  match normalizeOptionalString task.runId with
  | none => []
  | some runId =>
    (getTasksByRunId registry runId).filter fun candidate =>
      taskRunScopeKey candidate = taskRunScopeKey task

def taskLookupPriority (task : TaskRecord) : Nat := if task.runtime = .cli then 1 else 0

/-- The order of `pickPreferredRunIdTask`. -/
def preferredBefore (left right : TaskRecord) : Bool :=
  taskLookupPriority left < taskLookupPriority right ||
    taskLookupPriority left = taskLookupPriority right && left.createdAt < right.createdAt

/-- The first of the rows in a stable sort by `preferredBefore`. -/
def pickPreferredRunIdTask : List TaskRecord → Option TaskRecord
  | [] => none
  | task :: rest =>
    match pickPreferredRunIdTask rest with
    | none => some task
    | some other => if preferredBefore other task then some other else some task

/-- `listTasksFromIndex`: newest first, the last of the index first among equals. -/
def listTasksFromIndex (registry : TaskRegistry) (index : List (String × String)) (key : String) :
    List TaskRecord :=
  (registry.readIndex index key).reverse.mergeSort fun left right =>
    right.createdAt ≤ left.createdAt

/-- The lookups by a key that a blank text has nothing under. -/
def listTasksForKey (registry : TaskRegistry) (index : List (String × String)) (key : String) :
    List TaskRecord :=
  match normalizeOptionalString (some key) with
  | none => []
  | some key => listTasksFromIndex registry index key

def listTasksForOwnerKey (registry : TaskRegistry) (ownerKey : String) : List TaskRecord :=
  listTasksForKey registry registry.taskIdsByOwnerKey ownerKey

def listTasksForFlowId (registry : TaskRegistry) (flowId : String) : List TaskRecord :=
  listTasksForKey registry registry.taskIdsByParentFlowId flowId

def listTasksForRelatedSessionKey (registry : TaskRegistry) (sessionKey : String) :
    List TaskRecord :=
  listTasksForKey registry registry.taskIdsByRelatedSessionKey sessionKey

def hasActiveTaskForChildSessionKey (registry : TaskRegistry) (sessionKey : String)
    (excludeTaskId : Option String) : Bool :=
  match normalizeOptionalString (some sessionKey) with
  | none => false
  | some sessionKey =>
    (registry.readIndex registry.taskIdsByRelatedSessionKey sessionKey).any fun task =>
      some task.taskId ≠ excludeTaskId && isActiveTaskStatus task.status &&
        normalizeOptionalString task.childSessionKey = some sessionKey

end OpenClaw.Tasks
