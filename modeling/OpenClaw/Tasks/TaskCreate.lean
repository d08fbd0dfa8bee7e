import OpenClaw.Lib.Except
import OpenClaw.Tasks.TaskRegistry

/-!
# Creating and linking tasks

`createTaskRecord` writes a new row, or merges what it is given into a row of the same run. A merge
that brings the requester's origin writes the delivery state first and the row after it.

Delivery contexts are normalized, and agent ids read from session keys, by the code of the
channels and of the session keys, of which nothing is assumed here.
-/

namespace OpenClaw.Tasks

/-- Code outside the task registry. -/
structure TaskRegistryDeps where
  store : TaskRegistryStore
  normalizeDeliveryContext : DeliveryContext → Option DeliveryContext
  /-- The agent id of `parseAgentSessionKey`. -/
  agentIdOfSessionKey : String → Option String
  normalizeAgentId : String → String

inductive ParentFlowLinkErrorCode
  | scopeKindNotSession | parentFlowNotFound | ownerKeyMismatch | cancelRequested | terminal
  deriving DecidableEq, Repr

inductive TaskRegistryError
  | ownerKeyRequired
  | parentFlowLink (code : ParentFlowLinkErrorCode) (flowId : String)
      (status : Option TaskFlowStatus)
  deriving DecidableEq, Repr

def TaskFlowStatus.text : TaskFlowStatus → String
  | .queued => "queued"
  | .running => "running"
  | .waiting => "waiting"
  | .blocked => "blocked"
  | .succeeded => "succeeded"
  | .failed => "failed"
  | .cancelled => "cancelled"
  | .lost => "lost"

def TaskRegistryError.message : TaskRegistryError → String
  | .ownerKeyRequired => "Task ownerKey is required."
  | .parentFlowLink .scopeKindNotSession _ _ => "Only session-scoped tasks can link to flows."
  | .parentFlowLink .parentFlowNotFound flowId _ => "Parent flow not found: " ++ flowId
  | .parentFlowLink .ownerKeyMismatch _ _ => "Task ownerKey must match parent flow ownerKey."
  | .parentFlowLink .cancelRequested _ _ => "Parent flow cancellation has already been requested."
  | .parentFlowLink .terminal _ status =>
    "Parent flow is already " ++ (status.map TaskFlowStatus.text).getD "undefined" ++ "."

def assertTaskOwner (ownerKey : String) (scopeKind : TaskScopeKind) :
    Except TaskRegistryError Unit :=
  if JsString.trim ownerKey = "" && scopeKind ≠ .system then .error .ownerKeyRequired else .ok ()

/-- A task may join a flow of its owner that is not over and not asked to cancel. -/
def assertParentFlowLinkAllowed (getTaskFlowById : String → Option TaskFlowRecord)
    (ownerKey : String) (scopeKind : TaskScopeKind) (parentFlowId : Option String) :
    Except TaskRegistryError Unit :=
  match normalizeOptionalString parentFlowId with
  | none => .ok ()
  | some flowId =>
    let refuse (code : ParentFlowLinkErrorCode) (status : Option TaskFlowStatus) :
        Except TaskRegistryError Unit := .error (.parentFlowLink code flowId status)
    if scopeKind ≠ .session then refuse .scopeKindNotSession none
    else
      match getTaskFlowById flowId with
      | none => refuse .parentFlowNotFound none
      | some flow =>
        if normalizeOptionalString (some flow.ownerKey) ≠ normalizeOptionalString (some ownerKey)
        then refuse .ownerKeyMismatch none
        else if flow.cancelRequestedAt.isSome then refuse .cancelRequested (some flow.status)
        else if isTerminalFlowStatus flow.status then refuse .terminal (some flow.status)
        else .ok ()

structure TaskCreateParams where
  runtime : TaskRuntime
  taskKind : Option String := none
  sourceId : Option String := none
  requesterSessionKey : Option String := none
  ownerKey : Option String := none
  scopeKind : Option TaskScopeKind := none
  requesterOrigin : Option DeliveryContext := none
  childSessionKey : Option String := none
  parentFlowId : Option String := none
  parentTaskId : Option String := none
  agentId : Option String := none
  requesterAgentId : Option String := none
  runId : Option String := none
  label : Option String := none
  task : String
  preferMetadata : Bool := false
  status : Option TaskStatus := none
  deliveryStatus : Option TaskDeliveryStatus := none
  notifyPolicy : Option TaskNotifyPolicy := none
  startedAt : Option Int := none
  lastEventAt : Option Int := none
  cleanupAfter : Option Int := none
  progressSummary : Option String := none
  terminalSummary : Option String := none
  terminalOutcome : Option TaskTerminalOutcome := none

/-! ## Finding a row to merge into -/

/-- Texts that are equal once trimmed, an absent one being blank. -/
def sameText (left right : Option String) : Bool :=
  (normalizeOptionalString left).getD "" = (normalizeOptionalString right).getD ""

/-- Whether a row with the run id is in the scope of a creation. One run of ACP is one task
whatever its flow. -/
def inCreateScope (params : TaskCreateParams) (ownerKey : String) (scopeKind : TaskScopeKind)
    (task : TaskRecord) : Bool :=
  task.runtime = params.runtime && task.scopeKind = scopeKind &&
    sameText (some task.ownerKey) (some ownerKey) &&
    sameText task.childSessionKey params.childSessionKey &&
    (params.runtime = .acp || sameText task.parentFlowId params.parentFlowId)

def findExistingTaskForCreate (registry : TaskRegistry) (params : TaskCreateParams)
    (ownerKey : String) (scopeKind : TaskScopeKind) : Option TaskRecord :=
  match normalizeOptionalString params.runId with
  | none => none
  | some runId =>
    let runScopeMatches :=
      (getTasksByRunId registry runId).filter (inCreateScope params ownerKey scopeKind)
    match runScopeMatches.find? fun task =>
        sameText task.label params.label && sameText (some task.task) (some params.task) with
    | some exact => some exact
    | none => if params.runtime = .acp then pickPreferredRunIdTask runScopeMatches else none

/-! ## Merging -/

/-- The trimmed value, where it is not blank and the row has none. -/
def fillBlank (value existing : Option String) : Option String :=
  (normalizeOptionalString value).filter fun _ => (normalizeOptionalString existing).isNone

/-- The fields a merge writes to the row. -/
def mergePatch (existing : TaskRecord) (params : TaskCreateParams) (agentId : Option String) :
    TaskPatch :=
  let nextLabel := normalizeOptionalString params.label
  let notifyPolicy := ensureNotifyPolicy params.notifyPolicy params.deliveryStatus
    existing.ownerKey existing.scopeKind
  { sourceId := fillBlank params.sourceId existing.sourceId
    taskKind := fillBlank params.taskKind existing.taskKind
    parentFlowId := fillBlank params.parentFlowId existing.parentFlowId
    parentTaskId := fillBlank params.parentTaskId existing.parentTaskId
    agentId := fillBlank agentId existing.agentId
    requesterAgentId := fillBlank params.requesterAgentId existing.requesterAgentId
    label :=
      if params.preferMetadata then
        nextLabel.filter fun label => (normalizeOptionalString existing.label).getD "" ≠ label
      else fillBlank params.label existing.label
    task :=
      if params.preferMetadata then
        (normalizeOptionalString (some params.task)).filter fun task =>
          (normalizeOptionalString (some existing.task)).getD "" ≠ task
      else none
    deliveryStatus :=
      if params.deliveryStatus = some .pending && existing.deliveryStatus ≠ .delivered then
        some .pending else none
    notifyPolicy :=
      if notifyPolicy ≠ existing.notifyPolicy && existing.notifyPolicy = .silent then
        some notifyPolicy else none }

variable (deps : TaskRegistryDeps)

/-- The origin a merge brings to a row that has none. -/
def newRequesterOrigin (registry : TaskRegistry) (existing : TaskRecord)
    (params : TaskCreateParams) : Option DeliveryContext :=
  (params.requesterOrigin.bind deps.normalizeDeliveryContext).filter fun _ =>
    ((registry.getDeliveryState existing.taskId).bind (·.requesterOrigin)).isNone

/-- The delivery state a merge writes. -/
def mergedDeliveryState (registry : TaskRegistry) (existing : TaskRecord)
    (origin : DeliveryContext) : TaskDeliveryState :=
  { taskId := existing.taskId
    requesterOrigin := some origin
    lastNotifiedEventAt :=
      (registry.getDeliveryState existing.taskId).bind (·.lastNotifiedEventAt) }

/-- The row part of a merge. -/
def mergeRow (getTaskFlowById : String → Option TaskFlowRecord) (registry : TaskRegistry)
    (existing : TaskRecord) (params : TaskCreateParams) (agentId : Option String) :
    Except TaskRegistryError (Option TaskRecord) × TaskRegistry :=
  let patch := mergePatch existing params agentId
  match assertParentFlowLinkAllowed getTaskFlowById existing.ownerKey existing.scopeKind
      patch.parentFlowId with
  | .error error => (.error error, registry)
  | .ok () =>
    if patch = {} then (.ok (some existing), registry)
    else
      let updated := updateTask deps.store registry existing.taskId patch
      (.ok updated.1, updated.2)

def mergeExistingTaskForCreate (getTaskFlowById : String → Option TaskFlowRecord)
    (registry : TaskRegistry) (existing : TaskRecord) (params : TaskCreateParams)
    (agentId : Option String) : Except TaskRegistryError (Option TaskRecord) × TaskRegistry :=
  match newRequesterOrigin deps registry existing params with
  | none => mergeRow deps getTaskFlowById registry existing params agentId
  | some origin =>
    -- the delivery state is a write of its own, before that of the row
    let delivery := upsertTaskDeliveryState deps.store deps.normalizeDeliveryContext registry
      (mergedDeliveryState registry existing origin)
    if delivery.1.requesterOrigin.isNone then (.ok none, delivery.2)
    else mergeRow deps getTaskFlowById delivery.2 existing params agentId

/-! ## Creation -/

def resolveTaskAgentId (explicitAgentId childSessionKey : Option String)
    (ownerKey requesterSessionKey : String) : Option String :=
  (normalizeOptionalString explicitAgentId).or
    ((childSessionKey.bind deps.agentIdOfSessionKey).or
      ((deps.agentIdOfSessionKey ownerKey).or (deps.agentIdOfSessionKey requesterSessionKey)))

def resolveTaskRequesterAgentId (explicitRequesterAgentId : Option String)
    (ownerKey requesterSessionKey : String) : Option String :=
  ((normalizeOptionalString explicitRequesterAgentId).map deps.normalizeAgentId).or
    ((deps.agentIdOfSessionKey ownerKey).or (deps.agentIdOfSessionKey requesterSessionKey))

/-- The keys of a task as they are resolved from the parameters. -/
structure TaskOwnership where
  requesterSessionKey : String
  scopeKind : TaskScopeKind
  ownerKey : String

def TaskCreateParams.ownership (params : TaskCreateParams) : TaskOwnership :=
  let requesterSessionKey :=
    resolveTaskRequesterSessionKey params.requesterSessionKey params.ownerKey params.scopeKind
  { requesterSessionKey
    scopeKind := resolveTaskScopeKind params.scopeKind requesterSessionKey
    ownerKey := resolveTaskOwnerKey requesterSessionKey params.ownerKey }

/-- The row of a task that is new. -/
def newTaskRecord (now : Int) (taskId : String) (params : TaskCreateParams) : TaskRecord :=
  let owned := params.ownership
  let status := params.status.getD .queued
  let deliveryStatus :=
    params.deliveryStatus.getD (ensureDeliveryStatus owned.ownerKey owned.scopeKind)
  withCleanupAfter <| normalizeTaskTimestamps
    { taskId
      runtime := params.runtime
      taskKind := normalizeOptionalString params.taskKind
      sourceId := normalizeOptionalString params.sourceId
      requesterSessionKey := owned.requesterSessionKey
      ownerKey := owned.ownerKey
      scopeKind := owned.scopeKind
      childSessionKey := params.childSessionKey
      parentFlowId := normalizeOptionalString params.parentFlowId
      parentTaskId := normalizeOptionalString params.parentTaskId
      agentId := resolveTaskAgentId deps params.agentId params.childSessionKey owned.ownerKey
        owned.requesterSessionKey
      requesterAgentId := resolveTaskRequesterAgentId deps params.requesterAgentId owned.ownerKey
        owned.requesterSessionKey
      runId := normalizeOptionalString params.runId
      label := normalizeOptionalString params.label
      task := params.task
      status
      deliveryStatus
      notifyPolicy := ensureNotifyPolicy params.notifyPolicy (some deliveryStatus) owned.ownerKey
        owned.scopeKind
      createdAt := now
      startedAt := params.startedAt
      lastEventAt := some ((params.lastEventAt.or params.startedAt).getD now)
      cleanupAfter := params.cleanupAfter
      progressSummary := normalizeTaskSummary params.progressSummary
      terminalSummary := normalizeTaskSummary params.terminalSummary
      terminalOutcome := resolveTaskTerminalOutcome status params.terminalOutcome }

/-- A row that is in memory for the first time, with its delivery state. -/
def TaskRegistry.insertTask (registry : TaskRegistry) (record : TaskRecord)
    (deliveryState : Option TaskDeliveryState) : TaskRegistry :=
  { registry with
    tasks := KeyedList.put TaskRecord.taskId record registry.tasks
    taskDeliveryStates := deliveryState.elim registry.taskDeliveryStates fun state =>
      KeyedList.put TaskDeliveryState.taskId state registry.taskDeliveryStates
    taskIdsByRunId := Multimap.addAll (runIdKeys record) record.taskId registry.taskIdsByRunId
    taskIdsByOwnerKey :=
      Multimap.addAll (ownerKeys record) record.taskId registry.taskIdsByOwnerKey
    taskIdsByParentFlowId :=
      Multimap.addAll (parentFlowKeys record) record.taskId registry.taskIdsByParentFlowId
    taskIdsByRelatedSessionKey :=
      Multimap.addAll (getTaskRelatedSessionIndexKeys record) record.taskId
        registry.taskIdsByRelatedSessionKey }

/-- The creation of a row of its own. -/
def createNewTask (now : Int) (taskId : String) (registry : TaskRegistry)
    (params : TaskCreateParams) : Option TaskRecord × TaskRegistry :=
  let record := newTaskRecord deps now taskId params
  let deliveryState : Option TaskDeliveryState :=
    (params.requesterOrigin.bind deps.normalizeDeliveryContext).map fun origin =>
      { taskId, requesterOrigin := some origin }
  match registry.write deps.store
      (persistTaskUpsert deps.store registry record deliveryState) with
  | (false, registry) => (none, registry)
  | (true, registry) => (some record, registry.insertTask record deliveryState)

/-- `taskId` is the random id a row of its own gets. -/
def createTaskRecord (getTaskFlowById : String → Option TaskFlowRecord) (now : Int)
    (taskId : String) (registry : TaskRegistry) (params : TaskCreateParams) :
    Except TaskRegistryError (Option TaskRecord) × TaskRegistry :=
  let owned := params.ownership
  match assertTaskOwner owned.ownerKey owned.scopeKind with
  | .error error => (.error error, registry)
  | .ok () =>
    match assertParentFlowLinkAllowed getTaskFlowById owned.ownerKey owned.scopeKind
        params.parentFlowId with
    | .error error => (.error error, registry)
    | .ok () =>
      match findExistingTaskForCreate registry params owned.ownerKey owned.scopeKind with
      | some existing =>
        mergeExistingTaskForCreate deps getTaskFlowById registry existing params
          (resolveTaskAgentId deps params.agentId params.childSessionKey owned.ownerKey
            owned.requesterSessionKey)
      | none =>
        let created := createNewTask deps now taskId registry params
        (.ok created.1, created.2)

/-! ## Linking -/

def linkTaskToFlowById (getTaskFlowById : String → Option TaskFlowRecord)
    (registry : TaskRegistry) (taskId flowId : String) :
    Except TaskRegistryError (Option TaskRecord) × TaskRegistry :=
  match normalizeOptionalString (some flowId), registry.getTask taskId with
  | none, _ => (.ok none, registry)
  | some _, none => (.ok none, registry)
  | some flowId, some current =>
    if (normalizeOptionalString current.parentFlowId).isSome then (.ok (some current), registry)
    else
      match assertParentFlowLinkAllowed getTaskFlowById current.ownerKey current.scopeKind
          (some flowId) with
      | .error error => (.error error, registry)
      | .ok () =>
        let updated := updateTask deps.store registry taskId { parentFlowId := some flowId }
        (.ok updated.1, updated.2)

end OpenClaw.Tasks
