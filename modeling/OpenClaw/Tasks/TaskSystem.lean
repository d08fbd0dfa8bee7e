import OpenClaw.Lib.Lts
import OpenClaw.Tasks.RegistryRuns
import OpenClaw.Tasks.TaskCancel
import Mathlib.Data.List.Infix

/-!
# Tasks under all their writers

The registry together with the calls that wait: cancellations for a foreign runtime, and passes of
maintenance for the hook that may recover a task before it is marked lost. An event is one stretch
of the program between two awaits.

What maintenance finds outside the registry (whether a session backs a task, what the logs of the
cron service say of a run) is part of the event.
-/

namespace OpenClaw.Tasks

/-! ## Maintenance -/

inductive CronRunStatus | succeeded | failed | timedOut
  deriving DecidableEq, Repr

def CronRunStatus.outcome : CronRunStatus → TaskRunOutcome
  | .succeeded => .succeeded
  | .failed => .failed
  | .timedOut => .timedOut

/-- What the logs of the cron service say of a run. -/
structure CronTerminalRecovery where
  status : CronRunStatus
  endedAt : Int
  lastEventAt : Int
  error : Option String := none
  terminalSummary : Option String := none
  deriving DecidableEq, Repr

def CronTerminalRecovery.mark (recovery : CronTerminalRecovery) : TaskTerminalMark :=
  { status := recovery.status.outcome
    endedAt := recovery.endedAt
    lastEventAt := some recovery.lastEventAt
    error := some recovery.error
    terminalSummary := recovery.terminalSummary.map some }

/-- `isRecoverableLostCronTask`: the error of a lost row says that nothing backed it. -/
def isRecoverableLostCronTask (toLowerCase : String → String) (task : TaskRecord) : Bool :=
  task.status = .lost && task.error.any fun error =>
    "backing session missing".toList <:+: (toLowerCase (JsString.trim error)).toList

/-- The rows that a durable record of a cron run replaces. -/
def isRecoverableCronTask (toLowerCase : String → String) (task : TaskRecord) : Bool :=
  task.runtime = .cron &&
    (isActiveTaskStatus task.status || isRecoverableLostCronTask toLowerCase task)

/-- `missing`: the grace is over and nothing backs the task. -/
def shouldMarkLost (task : TaskRecord) (missing : Bool) : Bool :=
  isActiveTaskStatus task.status && missing

def hasTaskLostDecisionInputChanged (before after : TaskRecord) : Bool :=
  before.status ≠ after.status || before.runtime ≠ after.runtime ||
    before.childSessionKey ≠ after.childSessionKey || before.sourceId ≠ after.sourceId ||
    before.runId ≠ after.runId || before.createdAt ≠ after.createdAt ||
    before.startedAt ≠ after.startedAt || before.lastEventAt ≠ after.lastEventAt

def resolveEffectiveTaskCleanupAfter (task : TaskRecord) : Int :=
  match task.cleanupAfter with
  | none => resolveTaskCleanupAfter task
  | some cleanupAfter =>
    if task.status = .lost then min cleanupAfter (resolveTaskCleanupAfter task) else cleanupAfter

/-- The mark `markTaskLost` gives; `lostError` is the error where the row has none. -/
def lostMark (task : TaskRecord) (now : Int) (lostError : String) : TaskLostMark :=
  let lostAt := task.endedAt.getD now
  { endedAt := lostAt
    lastEventAt := some now
    error := some (task.error.getD lostError)
    cleanupAfter := some (resolveEffectiveTaskCleanupAfter
      { task with status := .lost, endedAt := some lostAt }) }

/-- A pass of maintenance that waits for the recovery hook. -/
structure PendingLoss where
  task : TaskRecord
  now : Int
  recoveryHookRegistered : Bool
  deriving DecidableEq, Repr

/-- What maintenance does after the hook, with what it finds then. -/
structure LossRecheck where
  missing : Bool
  recovered : Bool
  lostError : String

variable (store : TaskRegistryStore)

def PendingLoss.resume (registry : TaskRegistry) (pending : PendingLoss) (recheck : LossRecheck) :
    TaskRegistry :=
  match registry.getTask pending.task.taskId with
  | none => registry
  | some fresh =>
    let shouldRecheckFreshTask :=
      pending.recoveryHookRegistered || hasTaskLostDecisionInputChanged pending.task fresh
    if shouldRecheckFreshTask && !shouldMarkLost fresh recheck.missing then registry
    else if recheck.recovered then registry
    else
      (markTaskLostById store registry fresh.taskId
        (lostMark fresh pending.now recheck.lostError)).2

/-! ## The system -/

structure TaskSystem where
  registry : TaskRegistry
  cancels : List PendingCancel := []
  losses : List PendingLoss := []

inductive TaskEvent
  | agentEvent (event : AgentEvent)
  | finalize (params : RunFinalization)
  | markRunning (runId : String) (runtime : Option TaskRuntime) (sessionKey : Option String)
      (startedAt lastEventAt : Option Int) (progressSummary : Option (Option String))
  | startCancel (params : CancelTaskParams) (cronAborted : Bool) (now : Int)
  | resumeCancel (call : Nat) (answer : CancelAnswer) (now : Int)
  | recoverCron (taskId : String) (recovery : CronTerminalRecovery)
  | startMarkLost (taskId : String) (now : Int) (missing recoveryHookRegistered : Bool)
  | resumeMarkLost (pass : Nat) (recheck : LossRecheck)
  /-- An operation that does not decide the outcome of a task. -/
  | other (op : TaskRegistryOp)

/-- Creations, links, deletions, and the updates of progress, policies and delivery. -/
def TaskRegistryOp.KeepsOutcomes : TaskRegistryOp → Prop
  | .markTaskTerminalById _ _ | .markTaskLostById _ _ | .onAgentEvent _ => False
  | .updateTask _ patch =>
    patch.status = none ∧ patch.error = none ∧ patch.endedAt = none ∧ patch.runId = none
  | .updateTaskStateByRunId params =>
    params.status = none ∧ params.error = none ∧ params.endedAt = none
  | .updateTaskDeliveryByRunId _ _ _ _ error => error = none
  | _ => True

/-- The ids in use: a new task gets another one. -/
def TaskSystem.Uses (s : TaskSystem) (taskId : String) : Prop :=
  (s.registry.getTask taskId).isSome ∨ (∃ pending ∈ s.cancels, pending.task.taskId = taskId) ∨
    ∃ pending ∈ s.losses, pending.task.taskId = taskId

def TaskEvent.Possible (s : TaskSystem) : TaskEvent → Prop
  | .other (.createTaskRecord _ _ taskId _) => ¬ s.Uses taskId
  | .other op => op.KeepsOutcomes
  | _ => True

variable (toLowerCase : String → String) (deps : TaskRegistryDeps)

def TaskSystem.cancelDecision (s : TaskSystem) : TaskEvent → Option (CancelDecision × Int)
  | .startCancel params cronAborted now =>
    match beginCancel s.registry params cronAborted with
    | .answers result => some (.answer result s.registry, now)
    | .writes pending => some (.write pending s.registry, now)
    | .awaitsAcp _ | .awaitsSubagent _ => none
  | .resumeCancel call answer now =>
    (s.cancels[call]?).map fun pending => (answer.resume deps.store s.registry pending, now)
  | _ => none

/-- The answers that the runtime of a call can give. -/
def CancelAnswer.Fits (pending : PendingCancel) : CancelAnswer → Prop
  | .threw _ => True
  | .acpCancelled => pending.task.runtime = .acp
  | .subagentKilled _ => pending.task.runtime = .subagent

/-- One stretch of the program. -/
inductive TaskStep : TaskSystem → TaskEvent → TaskSystem → Prop
  | agentEvent (s : TaskSystem) (event : AgentEvent) :
    TaskStep s (.agentEvent event) { s with registry := onAgentEvent deps.store s.registry event }
  | finalize (s : TaskSystem) (params : RunFinalization) :
    TaskStep s (.finalize params)
      { s with registry := (finalizeTaskRunByRunId deps.store s.registry params).2 }
  | markRunning (s : TaskSystem) (runId : String) (runtime : Option TaskRuntime)
      (sessionKey : Option String) (startedAt lastEventAt : Option Int)
      (progressSummary : Option (Option String)) :
    TaskStep s (.markRunning runId runtime sessionKey startedAt lastEventAt progressSummary)
      { s with registry := (markTaskRunningByRunId deps.store s.registry runId runtime sessionKey
          startedAt lastEventAt progressSummary).2 }
  | startCancel {s : TaskSystem} {params : CancelTaskParams} {cronAborted : Bool} {now : Int}
      {decision : CancelDecision}
      (h : s.cancelDecision deps (.startCancel params cronAborted now) = some (decision, now)) :
    TaskStep s (.startCancel params cronAborted now)
      { s with registry := (decision.finish deps.store now).2 }
  | awaitCancel {s : TaskSystem} {params : CancelTaskParams} {cronAborted : Bool} {now : Int}
      {pending : PendingCancel}
      (h : beginCancel s.registry params cronAborted = .awaitsAcp pending ∨
        beginCancel s.registry params cronAborted = .awaitsSubagent pending) :
    TaskStep s (.startCancel params cronAborted now) { s with cancels := s.cancels ++ [pending] }
  | resumeCancel {s : TaskSystem} {call : Nat} {answer : CancelAnswer} {now : Int}
      {pending : PendingCancel} (h : s.cancels[call]? = some pending)
      (hfits : answer.Fits pending) :
    TaskStep s (.resumeCancel call answer now)
      { s with
        registry := ((answer.resume deps.store s.registry pending).finish deps.store now).2
        cancels := s.cancels.eraseIdx call }
  | recoverCron {s : TaskSystem} {taskId : String} {recovery : CronTerminalRecovery}
      {current : TaskRecord} (h : s.registry.getTask taskId = some current)
      (hrecoverable : isRecoverableCronTask toLowerCase current) :
    TaskStep s (.recoverCron taskId recovery)
      { s with registry :=
          (markTaskTerminalById deps.store s.registry current.taskId recovery.mark).2 }
  | startMarkLost {s : TaskSystem} {taskId : String} {now : Int}
      {missing recoveryHookRegistered : Bool} {current : TaskRecord}
      (h : s.registry.getTask taskId = some current) (hlost : shouldMarkLost current missing) :
    TaskStep s (.startMarkLost taskId now missing recoveryHookRegistered)
      { s with losses := s.losses ++ [{ task := current, now, recoveryHookRegistered }] }
  | resumeMarkLost {s : TaskSystem} {pass : Nat} {recheck : LossRecheck} {pending : PendingLoss}
      (h : s.losses[pass]? = some pending) :
    TaskStep s (.resumeMarkLost pass recheck)
      { s with
        registry := pending.resume deps.store s.registry recheck
        losses := s.losses.eraseIdx pass }
  | other (s : TaskSystem) (op : TaskRegistryOp) :
    TaskStep s (.other op) { s with registry := (perform deps s.registry op).2 }

/-- The steps that can happen. -/
def TaskSystemStep (s : TaskSystem) (event : TaskEvent) (t : TaskSystem) : Prop :=
  TaskStep toLowerCase deps s event t ∧ event.Possible s

/-- The process has started: no call waits. -/
def TaskSystemStart (s : TaskSystem) : Prop :=
  RegistryStart s.registry ∧ s.cancels = [] ∧ s.losses = []

end OpenClaw.Tasks
