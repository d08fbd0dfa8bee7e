import OpenClaw.Cron.Types
import OpenClaw.Tasks.TaskSystem
import Mathlib.Algebra.Group.Nat.Defs

/-!
# Inspection and maintenance of tasks

What an operator is shown of the tasks (`reconcileInspectableTasks`), what a pass of maintenance says
it would do (`previewTaskRegistryMaintenance`), and the pass (`runTaskRegistryMaintenance`) where no
recovery hook is registered.

What lies outside the registry is a `MaintenanceHost`: the logs and jobs of the cron service, the
session stores, and what is alive in the process. It is the same throughout a pass, so that the
caches of the source are read through. Messages to requesters and the closing of ACP sessions are
left out: they write no outcome of a task.
-/

namespace OpenClaw.Tasks

/-! ## What maintenance asks -/

/-- A line of the log of a cron job. -/
structure CronRunLogEntry where
  ts : Int
  jobId : String
  action : String := "finished"
  status : Option Cron.CronRunStatus := none
  error : Option String := none
  summary : Option String := none
  runAtMs : Option Int := none
  durationMs : Option Int := none

inductive SessionKeyChatType | direct | group | channel | unknown
  deriving DecidableEq

/-- The recovery state of a session. -/
structure SessionEntry where
  wedgedAt : Option Int := none
  wedgedReason : Option String := none

structure MaintenanceHost where
  toLowerCase : String → String
  /-- The log of a job; no lines where it cannot be read. -/
  readCronRunLogEntriesSync : String → List CronRunLogEntry
  /-- The jobs of the cron store; none where it cannot be read. -/
  cronJobs : List Cron.CronJob
  isRuntimeAuthoritative : Bool
  isCronJobActive : String → Bool
  /-- Whether `getAgentRunContext` finds a run. -/
  getAgentRunContext : String → Bool
  hasActiveAcpTurn : String → Bool
  isExecTaskBackingAlive : TaskRecord → Bool
  deriveSessionChatTypeFromKey : String → SessionKeyChatType
  /-- The store of the agent that a session key names. -/
  loadSessionStore : String → List (String × SessionEntry)

variable (host : MaintenanceHost) (now : Int)

/-! ## Cron runs -/

structure CronExecutionId where
  jobId : String
  startedAt : Int
  deriving DecidableEq

def parseStrictNonNegativeInteger (value : String) : Option Int :=
  let (negative, digits) : Bool × List Char := match (JsString.trim value).toList with
    | '-' :: digits => (true, digits)
    | '+' :: digits => (false, digits)
    | digits => (false, digits)
  let parsed := digits.foldl (fun n digit => 10 * n + (digit.toNat - '0'.toNat)) 0
  if digits ≠ [] && digits.all Char.isDigit && parsed < 2 ^ 53 && (!negative || parsed = 0) then
    some parsed
  else none

/-- A run id `cron:<jobId>:<startedAt>`, cut at its last colon. -/
def parseCronExecutionId (task : TaskRecord) : Option CronExecutionId :=
  (task.runId.map JsString.trim).bind fun runId =>
    if JsString.startsWith runId "cron:" then
      let reversed := (runId.toList.drop 5).reverse
      -- the job with the colon after it
      let job := (reversed.dropWhile (· ≠ ':')).reverse
      if job.length ≤ 1 then none
      else
        (parseStrictNonNegativeInteger
            (.ofList (reversed.takeWhile (· ≠ ':')).reverse)).bind fun startedAt =>
          let jobId := JsString.trim (.ofList job.dropLast)
          if jobId = "" || (normalizeOptionalString task.sourceId).any (· ≠ jobId) then none
          else some { jobId, startedAt }
    else none

def mapCronTerminalStatus (status : Cron.CronRunStatus) (error : Option String) : CronRunStatus :=
  if status = .ok || status = .skipped then .succeeded
  else if error = some "cron: job execution timed out" then .timedOut
  else .failed

def resolveCronRunLogRecovery (execution : CronExecutionId) : Option CronTerminalRecovery :=
  let found := (host.readCronRunLogEntriesSync execution.jobId).reverse.find? fun candidate =>
    candidate.jobId = execution.jobId && candidate.action = "finished" &&
      candidate.runAtMs = some execution.startedAt && candidate.status.isSome
  found.bind fun entry => entry.status.map fun status =>
    let endedAt := (entry.durationMs.map fun ms => execution.startedAt + max 0 ms).getD entry.ts
    { status := mapCronTerminalStatus status entry.error
      endedAt
      lastEventAt := endedAt
      error := entry.error
      terminalSummary := entry.summary }

def resolveCronJobStateRecovery (execution : CronExecutionId) : Option CronTerminalRecovery :=
  let job := host.cronJobs.find? fun entry => entry.id = execution.jobId
  (job.filter fun job => job.state.lastRunAtMs = some execution.startedAt).bind fun job =>
    job.lastRunStatus.map fun status =>
      let endedAt := execution.startedAt + max 0 (job.state.lastDurationMs.getD 0)
      { status := mapCronTerminalStatus status job.state.lastError
        endedAt
        lastEventAt := endedAt
        error := job.state.lastError }

def resolveDurableCronTaskRecovery (task : TaskRecord) : Option CronTerminalRecovery :=
  if isRecoverableCronTask host.toLowerCase task then
    (parseCronExecutionId task).bind fun execution =>
      (resolveCronRunLogRecovery host execution).or (resolveCronJobStateRecovery host execution)
  else none

/-! ## Backing sessions -/

def TASK_RECONCILE_GRACE_MS : Int := 5 * 60000

def CHILDLESS_NATIVE_SUBAGENT_RECONCILE_GRACE_MS : Int := 30 * 60000

def hasLostGraceExpired (task : TaskRecord) : Bool :=
  let referenceAt := (task.lastEventAt.or task.startedAt).getD task.createdAt
  let graceMs := if isChildlessNativeSubagentTask task then
    CHILDLESS_NATIVE_SUBAGENT_RECONCILE_GRACE_MS else TASK_RECONCILE_GRACE_MS
  graceMs ≤ now - referenceAt

/-- An entry by its key, or else the last whose key is the same in lower case. -/
def findSessionEntryByKey (store : List (String × SessionEntry)) (sessionKey : String) :
    Option SessionEntry :=
  let normalized := host.toLowerCase (JsString.trim sessionKey)
  ((store.find? fun entry => entry.1 = sessionKey).or
    (if normalized = "" then none
    else store.reverse.find? fun entry =>
      host.toLowerCase (JsString.trim entry.1) = normalized)).map Prod.snd

def findTaskSessionEntry (task : TaskRecord) : Option SessionEntry :=
  (normalizeOptionalString task.childSessionKey).bind fun childSessionKey =>
    findSessionEntryByKey host (host.loadSessionStore childSessionKey) childSessionKey

def isSubagentRecoveryWedgedEntry (entry : SessionEntry) : Bool := entry.wedgedAt.any (0 < ·)

def formatSubagentRecoveryWedgedReason (entry : SessionEntry) : String :=
  (normalizeOptionalString entry.wedgedReason).getD
    "subagent orphan recovery is tombstoned for this session"

/-- The ids under which a run of a task can be known to the process. -/
def cliRunIds (task : TaskRecord) : List String :=
  [task.sourceId, task.runId].filterMap normalizeOptionalString

def hasBackingSession (task : TaskRecord) : Bool :=
  match task.runtime with
  | .exec => host.isExecTaskBackingAlive task
  | .cron =>
    !host.isRuntimeAuthoritative ||
      (normalizeOptionalString task.sourceId).any host.isCronJobActive
  | runtime =>
    if runtime = .cli && (cliRunIds task).any host.getAgentRunContext then true
    else if runtime = .cli && cliRunIds task ≠ [] then false
    else
      match normalizeOptionalString task.childSessionKey with
      | none => !isChildlessNativeSubagentTask task
      | some childSessionKey =>
        if runtime = .acp then
          !host.isRuntimeAuthoritative || host.hasActiveAcpTurn childSessionKey
        else if runtime = .cli &&
            host.deriveSessionChatTypeFromKey childSessionKey ≠ .unknown then false
        else (findTaskSessionEntry host task).any fun entry =>
          !(runtime = .subagent && isSubagentRecoveryWedgedEntry entry)

/-- The definition of a native subagent that is found has the kind of the task. -/
def resolveTaskLostError (task : TaskRecord) : String :=
  if isChildlessNativeSubagentTask task then
    if task.taskKind = some "codex-native" then "Codex native subagent stopped reporting progress"
    else "Native subagent stopped reporting progress"
  else
    let entry := if task.runtime = .subagent then findTaskSessionEntry host task else none
    ((entry.filter isSubagentRecoveryWedgedEntry).map formatSubagentRecoveryWedgedReason).getD
      "backing session missing"

/-- The grace is over and nothing backs the task. -/
def backingMissing (task : TaskRecord) : Bool :=
  hasLostGraceExpired now task && !hasBackingSession host task

def shouldPruneTerminalTask (task : TaskRecord) : Bool :=
  !isActiveTaskStatus task.status &&
    if task.cleanupAfter.isSome then resolveEffectiveTaskCleanupAfter task ≤ now
    else resolveTaskRetentionMs task.status ≤
      now - (task.endedAt.or task.lastEventAt).getD task.createdAt

def shouldStampCleanupAfter (task : TaskRecord) : Bool :=
  !isActiveTaskStatus task.status && task.cleanupAfter.isNone

/-! ## What is shown -/

/-- A projected row keeps the time it is kept until, or gets one. -/
def projectCleanupAfter (projected : TaskRecord) : TaskRecord :=
  { projected with
    cleanupAfter := some (projected.cleanupAfter.getD (resolveTaskCleanupAfter projected)) }

def projectTaskRecovered (task : TaskRecord) (recovery : CronTerminalRecovery) : TaskRecord :=
  projectCleanupAfter { task with
    status := recovery.status.outcome.status
    endedAt := some recovery.endedAt
    lastEventAt := some recovery.lastEventAt
    error := recovery.error
    terminalSummary := recovery.terminalSummary.or task.terminalSummary }

def projectTaskLost (task : TaskRecord) : TaskRecord :=
  projectCleanupAfter { task with
    status := .lost
    endedAt := some (task.endedAt.getD now)
    lastEventAt := some now
    error := some (task.error.getD (resolveTaskLostError host task)) }

def reconcileTaskRecordForOperatorInspection (task : TaskRecord) : TaskRecord :=
  match resolveDurableCronTaskRecovery host task with
  | some recovery => projectTaskRecovered task recovery
  | none =>
    if shouldMarkLost task (backingMissing host now task) then projectTaskLost host now task
    else task

/-- The rows, newest first, the last of the table first among equals. -/
def listTaskRecords (registry : TaskRegistry) : List TaskRecord :=
  registry.tasks.reverse.mergeSort fun left right => right.createdAt ≤ left.createdAt

def reconcileInspectableTasks (registry : TaskRegistry) : List TaskRecord :=
  (listTaskRecords registry).map (reconcileTaskRecordForOperatorInspection host now)

/-! ## Preview and pass -/

structure TaskRegistryMaintenanceSummary where
  reconciled : Nat := 0
  recovered : Nat := 0
  cleanupStamped : Nat := 0
  pruned : Nat := 0
  deriving DecidableEq

def previewTask (summary : TaskRegistryMaintenanceSummary) (task : TaskRecord) :
    TaskRegistryMaintenanceSummary :=
  if (resolveDurableCronTaskRecovery host task).isSome then
    { summary with recovered := summary.recovered + 1 }
  else if shouldMarkLost task (backingMissing host now task) then
    { summary with reconciled := summary.reconciled + 1 }
  else if shouldPruneTerminalTask now task then { summary with pruned := summary.pruned + 1 }
  else if shouldStampCleanupAfter task then
    { summary with cleanupStamped := summary.cleanupStamped + 1 }
  else summary

def previewTaskRegistryMaintenance (registry : TaskRegistry) : TaskRegistryMaintenanceSummary :=
  (listTaskRecords registry).foldl (previewTask host now) {}

variable (store : TaskRegistryStore)

def getTaskById (registry : TaskRegistry) (taskId : String) : Option TaskRecord :=
  registry.getTask (JsString.trim taskId)

def markTaskRecovered (registry : TaskRegistry) (task : TaskRecord)
    (recovery : CronTerminalRecovery) : TaskRecord × TaskRegistry :=
  let marked := markTaskTerminalById store registry task.taskId recovery.mark
  (marked.1.getD (projectTaskRecovered task recovery), marked.2)

def markTaskLost (registry : TaskRegistry) (task : TaskRecord) : TaskRecord × TaskRegistry :=
  let marked := markTaskLostById store registry task.taskId
    (lostMark task now (resolveTaskLostError host task))
  (marked.1.getD task, marked.2)

/-- A row whose backing is missing: read again after the hook, which recovers nothing. -/
def reconcileTask (summary : TaskRegistryMaintenanceSummary) (registry : TaskRegistry)
    (current : TaskRecord) : TaskRegistryMaintenanceSummary × TaskRegistry :=
  match getTaskById registry current.taskId with
  | none => (summary, registry)
  | some fresh =>
    if hasTaskLostDecisionInputChanged current fresh &&
        !shouldMarkLost fresh (backingMissing host now fresh) then (summary, registry)
    else
      let lost := markTaskLost host now store registry fresh
      (if lost.1.status = .lost then { summary with reconciled := summary.reconciled + 1 }
        else summary, lost.2)

/-- One round of the loop of `runTaskRegistryMaintenance`. -/
def maintainTask (pass : TaskRegistryMaintenanceSummary × TaskRegistry) (task : TaskRecord) :
    TaskRegistryMaintenanceSummary × TaskRegistry :=
  let (summary, registry) := pass
  match getTaskById registry task.taskId with
  | none => pass
  | some current =>
    match resolveDurableCronTaskRecovery host current with
    | some recovery =>
      let recovered := markTaskRecovered store registry current recovery
      (if recovered.1.status ≠ current.status then
          { summary with recovered := summary.recovered + 1 }
        else summary, recovered.2)
    | none =>
      if shouldMarkLost current (backingMissing host now current) then
        reconcileTask host now store summary registry current
      else
        let deleted := if shouldPruneTerminalTask now current then
          deleteTaskRecordById store registry current.taskId else (false, registry)
        if deleted.1 then ({ summary with pruned := summary.pruned + 1 }, deleted.2)
        else
          let stamped := if shouldStampCleanupAfter current then
            setTaskCleanupAfterById store deleted.2 current.taskId (resolveTaskCleanupAfter current)
          else (none, deleted.2)
          (if stamped.1.isSome then
              { summary with cleanupStamped := summary.cleanupStamped + 1 }
            else summary, stamped.2)

def runTaskRegistryMaintenance (registry : TaskRegistry) :
    TaskRegistryMaintenanceSummary × TaskRegistry :=
  (listTaskRecords registry).foldl (maintainTask host now store) ({}, registry)

end OpenClaw.Tasks
