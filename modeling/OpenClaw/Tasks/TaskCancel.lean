import OpenClaw.Tasks.TaskUpdates

/-!
# Cancelling a task

`cancelTaskById`, cut at its await. Up to there (`beginCancel`) it reads the row and decides whether
a foreign runtime has to be asked; after it (`CancelAnswer.resume`) the row is read again where the
runtime is that of subagents, and not where it is ACP; last comes the write of `cancelled`
(`finishCancel`). What the foreign runtime answers, and the cron service's answer to the request to
abort a run, are not the registry's.
-/

namespace OpenClaw.Tasks

structure CancelTaskParams where
  taskId : String
  reason : Option String := none
  deriving DecidableEq, Repr

structure CancelResult where
  found : Bool
  cancelled : Bool
  reason : Option String := none
  task : Option TaskRecord := none
  deriving DecidableEq, Repr

/-- The error a cancelled row gets, which is never the marker of a direct kill. -/
def cancellationError (reason : Option String) : String :=
  ((normalizeOptionalString reason).filter (· ≠ SUBAGENT_KILL_TASK_ERROR)).getD
    "Cancelled by operator."

/-- A call in progress: the row it read, and whether it knows it to be killed provisionally. -/
structure PendingCancel where
  task : TaskRecord
  provisional : Bool
  error : String
  deriving DecidableEq, Repr

/-! ## Up to the await -/

/-- `CHILDLESS_NATIVE_SUBAGENT_DEFINITIONS`: task kinds and prefixes of run ids. -/
def childlessNativeSubagentDefinitions : List (String × String) :=
  [("codex-native", "codex-thread:"), ("copilot-native", "copilot-agent:")]

def isChildlessNativeSubagentTask (task : TaskRecord) : Bool :=
  task.runtime = .subagent && (normalizeOptionalString task.childSessionKey).isNone &&
    childlessNativeSubagentDefinitions.any fun definition =>
      task.taskKind = some definition.1 &&
        [task.sourceId, task.runId].any fun candidate =>
          candidate.any fun id => JsString.startsWith (JsString.trim id) definition.2

def refusal (task : TaskRecord) (reason : String) : CancelResult :=
  { found := true, cancelled := false, reason := some reason, task := some task }

inductive CancelStart
  | answers (result : CancelResult)
  | awaitsAcp (pending : PendingCancel)
  | awaitsSubagent (pending : PendingCancel)
  | writes (pending : PendingCancel)

/-- `cronAborted` is the answer of `cancelActiveCronTaskRun`. -/
def beginCancel (registry : TaskRegistry) (params : CancelTaskParams) (cronAborted : Bool) :
    CancelStart :=
  match registry.getTask (JsString.trim params.taskId) with
  | none =>
    .answers { found := false, cancelled := false, reason := some "Task not found." }
  | some task =>
    let provisional := isProvisionalSubagentKillTask task
    if !provisional && isTerminalTaskStatus task.status then
      .answers (refusal task "Task is already terminal.")
    else
      let pending : PendingCancel := { task, provisional, error := cancellationError params.reason }
      let hasChild := (normalizeOptionalString task.childSessionKey).isSome
      match task.runtime with
      | .cli => .writes pending
      | .cron =>
        -- a childless row without a live run is a stale record, which is cleared
        if !cronAborted && hasChild then
          .answers (refusal task "Cron task has no active cancellation handle.")
        else .writes pending
      | .acp =>
        if hasChild then .awaitsAcp pending
        else .answers (refusal task "Task has no cancellable child session.")
      | .subagent =>
        if hasChild then .awaitsSubagent pending
        else if isChildlessNativeSubagentTask task then .writes pending
        else .answers (refusal task "Task has no cancellable child session.")
      | .exec =>
        if hasChild then
          .answers (refusal task "Task runtime does not support cancellation yet.")
        else .answers (refusal task "Task has no cancellable child session.")

/-! ## After the await -/

/-- What the kill found the run to be; the run, runtime and session of an outcome are the task's. -/
inductive KillSubagentTargetState
  | finalizing
  | terminal (outcome : RunFinalization)

structure KillSubagentRunResult where
  found : Bool
  killed : Bool
  runId : String
  targetState : Option KillSubagentTargetState := none

def KillSubagentRunResult.isFinalizing (result : KillSubagentRunResult) : Bool :=
  match result.targetState with
  | some .finalizing => result.found
  | _ => false

inductive CancelDecision
  | answer (result : CancelResult) (registry : TaskRegistry)
  | write (pending : PendingCancel) (registry : TaskRegistry)

def TaskStatus.text : TaskStatus → String
  | .queued => "queued"
  | .running => "running"
  | .succeeded => "succeeded"
  | .failed => "failed"
  | .timedOut => "timed_out"
  | .cancelled => "cancelled"
  | .lost => "lost"

/-- Why a subagent that is found to be over is not cancelled. -/
def subagentOverReason (status : TaskStatus) : String :=
  if status = .succeeded then "Subagent completed while cancellation was in progress."
  else "Subagent became " ++ status.text ++ " while cancellation was in progress."

def reconciledOutcome (task : TaskRecord) (killRunId : String) (outcome : RunFinalization) :
    RunFinalization :=
  { outcome with
    runId := (normalizeOptionalString task.runId).getD killRunId
    runtime := some .subagent
    sessionKey := normalizeOptionalString task.childSessionKey }

variable (store : TaskRegistryStore)

/-- What is left once no outcome stands against the cancellation. -/
def afterReconcile (registry : TaskRegistry) (pending : PendingCancel)
    (current : Option TaskRecord) (result : KillSubagentRunResult) : CancelDecision :=
  let task := current.getD pending.task
  if result.isFinalizing then
    .answer (refusal task "Subagent completion is still being finalized.") registry
  else if (!result.found || !result.killed) && !pending.provisional then
    .answer (refusal task
      (if result.found then "Subagent was not running." else "Subagent task not found.")) registry
  else .write pending registry

/-- The outcome that the kill reports is written first, where there is one. -/
def reconcileKill (registry : TaskRegistry) (pending : PendingCancel)
    (current : Option TaskRecord) (result : KillSubagentRunResult) : CancelDecision :=
  match result.found, result.targetState with
  | true, some (.terminal outcome) =>
    let reconciled :=
      finalizeTaskRunByRunId store registry (reconciledOutcome pending.task result.runId outcome)
    match reconciled.1.find? (·.taskId = pending.task.taskId) with
    | none =>
      .answer (refusal ((reconciled.2.getTask pending.task.taskId).getD pending.task)
        "Subagent became terminal, but task state reconciliation failed to persist.") reconciled.2
    | some record =>
      if outcome.status = .cancelled && outcome.error = some SUBAGENT_KILL_TASK_ERROR then
        afterReconcile reconciled.2 { pending with provisional := true } current result
      else .answer (refusal record (subagentOverReason outcome.status.status)) reconciled.2
  | _, _ => afterReconcile registry pending current result

/-- The row is read again, so that an outcome that came in between wins. -/
def afterKill (registry : TaskRegistry) (pending : PendingCancel)
    (result : KillSubagentRunResult) : CancelDecision :=
  let current := registry.getTask pending.task.taskId
  let killed := current.any fun row =>
    row.status = .cancelled && row.error = some SUBAGENT_KILL_TASK_ERROR
  let pending := { pending with provisional := pending.provisional || killed }
  match current with
  | none => reconcileKill store registry pending none result
  | some row =>
    if isTerminalTaskStatus row.status && row.status ≠ .cancelled then
      .answer (refusal row (subagentOverReason row.status)) registry
    else if row.status = .cancelled && !pending.provisional then
      .answer (refusal row "Subagent was cancelled while cancellation was in progress.") registry
    else reconcileKill store registry pending (some row) result

/-- How the await of a call ends. -/
inductive CancelAnswer
  | threw (message : String)
  | acpCancelled
  | subagentKilled (result : KillSubagentRunResult)

def CancelAnswer.resume (registry : TaskRegistry) (pending : PendingCancel) :
    CancelAnswer → CancelDecision
  | .threw message => .answer (refusal pending.task message) registry
  | .acpCancelled => .write pending registry
  | .subagentKilled result => afterKill store registry pending result

/-! ## The write -/

/-- Whether the write goes to every row of the run. -/
def PendingCancel.isRunScoped (pending : PendingCancel) : Bool :=
  (pending.task.runtime = .acp || pending.task.runtime = .subagent) &&
    (normalizeOptionalString pending.task.runId).isSome

/-- The time of the cancellation: that of the kill, where there was one. -/
def PendingCancel.endedAt (pending : PendingCancel) (registry : TaskRegistry) (eventAt : Int) :
    Int :=
  if pending.provisional then
    (((registry.getTask pending.task.taskId).getD pending.task).endedAt).getD eventAt
  else eventAt

def PendingCancel.runUpdate (pending : PendingCancel) (registry : TaskRegistry) (eventAt : Int) :
    RunStateUpdate :=
  { runId := pending.task.runId.getD ""
    runtime := some pending.task.runtime
    sessionKey := normalizeOptionalString pending.task.childSessionKey
    status := some .cancelled
    endedAt := some (pending.endedAt registry eventAt)
    lastEventAt := some eventAt
    error := some pending.error }

def PendingCancel.rowPatch (pending : PendingCancel) (registry : TaskRegistry) (eventAt : Int) :
    TaskPatch :=
  { status := some .cancelled
    endedAt := some (pending.endedAt registry eventAt)
    lastEventAt := some eventAt
    error := some (some pending.error) }

/-- The rows that the write changes, and the row of the task among them. -/
def writeCancelled (registry : TaskRegistry) (eventAt : Int) (pending : PendingCancel) :
    Option TaskRecord × TaskRegistry :=
  if pending.isRunScoped then
    let updated := updateTaskStateByRunId store registry (pending.runUpdate registry eventAt)
    (updated.1.find? (·.taskId = pending.task.taskId), updated.2)
  else updateTask store registry pending.task.taskId (pending.rowPatch registry eventAt)

def finishCancel (registry : TaskRegistry) (eventAt : Int) (pending : PendingCancel) :
    CancelResult × TaskRegistry :=
  let written := writeCancelled store registry eventAt pending
  match written.1 with
  | none => (refusal pending.task "Task persistence failed.", written.2)
  | some task => ({ found := true, cancelled := true, task := some task }, written.2)

/-- The rest of a call from a decision on, without an await. -/
def CancelDecision.finish (eventAt : Int) : CancelDecision → CancelResult × TaskRegistry
  | .answer result registry => (result, registry)
  | .write pending registry => finishCancel store registry eventAt pending

end OpenClaw.Tasks
