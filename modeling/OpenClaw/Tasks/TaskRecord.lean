import OpenClaw.Normalization
import Mathlib.Order.Lattice
import Mathlib.Order.MinMax

/-!
# Task records

The rows of the task registry, and what the registry computes of one row: its times put in order
(`normalizeTaskTimestamps`), how long it is kept, its defaults on creation, and whether a status
update that names a run may replace the status it has.

Times are milliseconds.
-/

namespace OpenClaw.Tasks

/-! ## The row -/

inductive TaskRuntime | subagent | acp | cli | cron | exec
  deriving DecidableEq, Repr

inductive TaskStatus | queued | running | succeeded | failed | timedOut | cancelled | lost
  deriving DecidableEq, Repr

inductive TaskDeliveryStatus
  | pending | delivered | sessionQueued | failed | parentMissing | notApplicable
  deriving DecidableEq, Repr

inductive TaskNotifyPolicy | doneOnly | stateChanges | silent
  deriving DecidableEq, Repr

inductive TaskTerminalOutcome | succeeded | blocked
  deriving DecidableEq, Repr

inductive TaskScopeKind | session | system
  deriving DecidableEq, Repr

structure TaskRecord where
  taskId : String
  runtime : TaskRuntime
  taskKind : Option String := none
  sourceId : Option String := none
  requesterSessionKey : String
  ownerKey : String
  scopeKind : TaskScopeKind
  childSessionKey : Option String := none
  parentFlowId : Option String := none
  parentTaskId : Option String := none
  agentId : Option String := none
  requesterAgentId : Option String := none
  runId : Option String := none
  label : Option String := none
  task : String
  status : TaskStatus
  deliveryStatus : TaskDeliveryStatus
  notifyPolicy : TaskNotifyPolicy
  createdAt : Int
  startedAt : Option Int := none
  endedAt : Option Int := none
  lastEventAt : Option Int := none
  cleanupAfter : Option Int := none
  error : Option String := none
  progressSummary : Option String := none
  terminalSummary : Option String := none
  terminalOutcome : Option TaskTerminalOutcome := none
  deriving DecidableEq, Repr

inductive ThreadId | text (s : String) | number (n : Int)
  deriving DecidableEq, Repr

/-- Where a message to the requester of a task goes; `target` is the source's `to`. -/
structure DeliveryContext where
  channel : Option String := none
  target : Option String := none
  accountId : Option String := none
  threadId : Option ThreadId := none
  deriving DecidableEq, Repr

structure TaskDeliveryState where
  taskId : String
  requesterOrigin : Option DeliveryContext := none
  lastNotifiedEventAt : Option Int := none
  deriving DecidableEq, Repr

/-! ## Flows -/

inductive TaskFlowSyncMode | taskMirrored | managed
  deriving DecidableEq, Repr

inductive TaskFlowStatus
  | queued | running | waiting | blocked | succeeded | failed | cancelled | lost
  deriving DecidableEq, Repr

/-- A flow that tasks can belong to. -/
structure TaskFlowRecord where
  flowId : String
  syncMode : TaskFlowSyncMode
  ownerKey : String
  requesterOrigin : Option DeliveryContext := none
  controllerId : Option String := none
  revision : Nat := 0
  status : TaskFlowStatus
  notifyPolicy : TaskNotifyPolicy
  goal : String
  currentStep : Option String := none
  blockedTaskId : Option String := none
  blockedSummary : Option String := none
  cancelRequestedAt : Option Int := none
  createdAt : Int
  updatedAt : Int
  endedAt : Option Int := none
  deriving DecidableEq, Repr

/-- The task registry's own notion: a blocked flow is not over. -/
def isTerminalFlowStatus : TaskFlowStatus → Bool
  | .succeeded | .failed | .cancelled | .lost => true
  | .queued | .running | .waiting | .blocked => false

/-! ## Statuses -/

def isActiveTaskStatus (status : TaskStatus) : Bool := status = .queued || status = .running

def isTerminalTaskStatus : TaskStatus → Bool
  | .succeeded | .failed | .timedOut | .cancelled | .lost => true
  | .queued | .running => false

theorem isTerminalTaskStatus_eq_not_active (status : TaskStatus) :
    isTerminalTaskStatus status = !isActiveTaskStatus status := by
  cases status <;> rfl

def SUBAGENT_KILL_TASK_ERROR : String := "Subagent run killed."

/-- A subagent that was killed directly: its own outcome may still replace the cancellation. -/
def isProvisionalSubagentKillTask (task : TaskRecord) : Bool :=
  task.runtime = .subagent && task.status = .cancelled &&
    task.error = some SUBAGENT_KILL_TASK_ERROR

/-- What a status update by run id says, and what it finds. -/
structure RunScopedStatusUpdate where
  currentStatus : TaskStatus
  currentRuntime : TaskRuntime
  currentChildSessionKey : Option String
  currentError : Option String
  currentEndedAt : Option Int
  nextStatus : TaskStatus
  nextError : Option String
  nextEndedAt : Option Int

/-- `left < right` where both are numbers. -/
def definedLt : Option Int → Option Int → Bool
  | some left, some right => left < right
  | _, _ => false

def shouldApplyRunScopedStatusUpdate (params : RunScopedStatusUpdate) : Bool :=
  if params.currentRuntime = .subagent && params.nextStatus = .cancelled &&
      params.nextError = some SUBAGENT_KILL_TASK_ERROR &&
      isTerminalTaskStatus params.currentStatus &&
      !(params.currentStatus = .cancelled &&
        params.currentError = some SUBAGENT_KILL_TASK_ERROR) then
    -- the kill marker refreshes only its own tombstone
    false
  else if params.currentStatus = params.nextStatus then true
  else if !isTerminalTaskStatus params.currentStatus then true
  else if !isTerminalTaskStatus params.nextStatus then false
  else if params.currentStatus = .cancelled &&
      (params.nextStatus = .succeeded || params.nextStatus = .failed ||
        params.nextStatus = .timedOut) then
    -- an outcome of the run itself that predates the cancellation, or replaces a direct kill
    params.currentRuntime = .subagent && definedLt params.nextEndedAt params.currentEndedAt ||
      params.currentRuntime = .subagent &&
        (normalizeOptionalString params.currentChildSessionKey).isSome &&
        params.currentError = some SUBAGENT_KILL_TASK_ERROR
  else params.currentStatus = .succeeded && params.nextStatus ≠ .lost

/-! ## Times -/

/-- `createdAt` moved back to the earliest of the times a runtime reported. -/
def lifecycleFloor (task : TaskRecord) : Int :=
  [task.startedAt, task.lastEventAt, task.endedAt].foldl
    (fun createdAt candidate =>
      match candidate with
      | some time => if time < createdAt then time else createdAt
      | none => createdAt) task.createdAt

/-- The times of a row in order: nothing before its creation, nothing after before its start. -/
def normalizeTaskTimestamps (task : TaskRecord) : TaskRecord :=
  let createdAt := lifecycleFloor task
  let startedAt := task.startedAt.map fun time => max time createdAt
  let floor := startedAt.getD createdAt
  { task with
    createdAt := createdAt
    startedAt := startedAt
    lastEventAt := task.lastEventAt.map fun time => max time floor
    endedAt := task.endedAt.map fun time => max time floor }

def LOST_TASK_RETENTION_MS : Int := 24 * 60 * 60000

def DEFAULT_TASK_RETENTION_MS : Int := 7 * 24 * 60 * 60000

def resolveTaskRetentionMs (status : TaskStatus) : Int :=
  if status = .lost then LOST_TASK_RETENTION_MS else DEFAULT_TASK_RETENTION_MS

def resolveTaskCleanupAfter (task : TaskRecord) : Int :=
  (task.endedAt.orElse fun _ => task.lastEventAt).getD task.createdAt +
    resolveTaskRetentionMs task.status

/-- A row that is terminal gets the time it is kept until, unless it has one. -/
def withCleanupAfter (task : TaskRecord) : TaskRecord :=
  if isTerminalTaskStatus task.status && task.cleanupAfter.isNone then
    { task with cleanupAfter := some (resolveTaskCleanupAfter task) }
  else task

section Times

variable {task : TaskRecord}

theorem lifecycleFloor_le : lifecycleFloor task ≤ task.createdAt ∧
    (∀ time ∈ task.startedAt, lifecycleFloor task ≤ time) ∧
    (∀ time ∈ task.lastEventAt, lifecycleFloor task ≤ time) ∧
    ∀ time ∈ task.endedAt, lifecycleFloor task ≤ time := by
  simp only [lifecycleFloor, List.foldl]
  refine ⟨?_, ?_, ?_, ?_⟩ <;>
    cases task.startedAt <;> cases task.lastEventAt <;> cases task.endedAt <;>
      simp only [Option.mem_def, Option.some.injEq, reduceCtorEq, forall_eq', false_implies,
        implies_true] <;> grind

theorem lifecycleFloor_eq (hstarted : ∀ time ∈ task.startedAt, task.createdAt ≤ time)
    (hlast : ∀ time ∈ task.lastEventAt, task.createdAt ≤ time)
    (hended : ∀ time ∈ task.endedAt, task.createdAt ≤ time) :
    lifecycleFloor task = task.createdAt := by
  simp only [lifecycleFloor, List.foldl]
  cases h₁ : task.startedAt <;> cases h₂ : task.lastEventAt <;> cases h₃ : task.endedAt <;>
    simp only [h₁, h₂, h₃, Option.mem_def, Option.some.injEq, forall_eq'] at hstarted hlast hended <;>
      grind

/-- A row whose times are in order. -/
def TimesOrdered (task : TaskRecord) : Prop :=
  (∀ time ∈ task.startedAt, task.createdAt ≤ time) ∧
    (∀ time ∈ task.lastEventAt, task.startedAt.getD task.createdAt ≤ time) ∧
    ∀ time ∈ task.endedAt, task.startedAt.getD task.createdAt ≤ time

theorem timesOrdered_normalizeTaskTimestamps (task : TaskRecord) :
    TimesOrdered (normalizeTaskTimestamps task) := by
  refine ⟨?_, ?_, ?_⟩ <;> intro time htime <;>
    obtain ⟨reported, _, rfl⟩ := Option.map_eq_some_iff.1 htime
  · exact le_max_right _ _
  · exact le_max_right _ _
  · exact le_max_right _ _

theorem TimesOrdered.createdAt_le (h : TimesOrdered task) :
    task.createdAt ≤ task.startedAt.getD task.createdAt := by
  cases hstarted : task.startedAt with
  | none => exact le_rfl
  | some time => exact h.1 time hstarted

theorem map_max_eq_self {times : Option Int} {floor : Int} (h : ∀ time ∈ times, floor ≤ time) :
    (times.map fun time => max time floor) = times := by
  cases times with
  | none => rfl
  | some time => exact congrArg some (max_eq_left (h time rfl))

theorem TimesOrdered.normalizeTaskTimestamps_eq (h : TimesOrdered task) :
    normalizeTaskTimestamps task = task := by
  have hfloor : lifecycleFloor task = task.createdAt :=
    lifecycleFloor_eq h.1 (fun time htime => h.createdAt_le.trans (h.2.1 time htime))
      fun time htime => h.createdAt_le.trans (h.2.2 time htime)
  have hstarted := map_max_eq_self h.1
  simp only [normalizeTaskTimestamps, hfloor, hstarted, map_max_eq_self h.2.1,
    map_max_eq_self h.2.2]

theorem normalizeTaskTimestamps_normalizeTaskTimestamps (task : TaskRecord) :
    normalizeTaskTimestamps (normalizeTaskTimestamps task) = normalizeTaskTimestamps task :=
  (timesOrdered_normalizeTaskTimestamps task).normalizeTaskTimestamps_eq

theorem TimesOrdered.withCleanupAfter (h : TimesOrdered task) :
    TimesOrdered (withCleanupAfter task) := by
  unfold OpenClaw.Tasks.withCleanupAfter
  split
  · exact h
  · exact h

end Times

/-! ## Defaults of a new row -/

def normalizeTaskSummary (value : Option String) : Option String :=
  normalizeOptionalString (value.map JsString.collapseWhitespace)

def ensureDeliveryStatus (ownerKey : String) (scopeKind : TaskScopeKind) : TaskDeliveryStatus :=
  if scopeKind = .system then .notApplicable
  else if JsString.trim ownerKey ≠ "" then .pending
  else .parentMissing

def ensureNotifyPolicy (notifyPolicy : Option TaskNotifyPolicy)
    (deliveryStatus : Option TaskDeliveryStatus) (ownerKey : String) (scopeKind : TaskScopeKind) :
    TaskNotifyPolicy :=
  notifyPolicy.getD <|
    if deliveryStatus.getD (ensureDeliveryStatus ownerKey scopeKind) = .notApplicable then .silent
    else .doneOnly

def resolveTaskScopeKind (scopeKind : Option TaskScopeKind) (requesterSessionKey : String) :
    TaskScopeKind :=
  scopeKind.getD (if JsString.trim requesterSessionKey ≠ "" then .session else .system)

def resolveTaskRequesterSessionKey (requesterSessionKey ownerKey : Option String)
    (scopeKind : Option TaskScopeKind) : String :=
  match normalizeOptionalString requesterSessionKey with
  | some key => key
  | none => if scopeKind = some .system then "" else (ownerKey.map JsString.trim).getD ""

def resolveTaskOwnerKey (requesterSessionKey : String) (ownerKey : Option String) : String :=
  (normalizeOptionalString ownerKey).getD (JsString.trim requesterSessionKey)

def resolveTaskTerminalOutcome (status : TaskStatus)
    (terminalOutcome : Option TaskTerminalOutcome) : Option TaskTerminalOutcome :=
  terminalOutcome.orElse fun _ => if status = .succeeded then some .succeeded else none

end OpenClaw.Tasks
