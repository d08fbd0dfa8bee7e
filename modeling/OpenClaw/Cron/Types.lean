import Mathlib.Data.Finset.Basic
import OpenClaw.Lib.JsString

/-!
# `src/cron/types.ts` and the cron service's state

Jobs, their runtime state and the service that holds them. Times and delays are whole milliseconds,
as the clock and the wire schema give them. A job keeps the fields its scheduling reads: the schedule
and the fields that pick a branch of the scheduler. Delivery, failure alerts, run diagnostics and
display fields are written by the scheduler but read by none of its decisions, and are left out.
-/

namespace OpenClaw.Cron

inductive CronSchedule
  | «at» (time : String)
  | every (everyMs : Int) (anchorMs : Option Int)
  | cron (expr : String) (tz : Option String) (staggerMs : Option Int)
  | onExit (command : String) (cwd : Option String)
  deriving DecidableEq

inductive ScheduleKind
  | «at»
  | every
  | cron
  | onExit
  deriving DecidableEq, Repr

def CronSchedule.kind : CronSchedule → ScheduleKind
  | .at .. => .at
  | .every .. => .every
  | .cron .. => .cron
  | .onExit .. => .onExit

inductive CronWakeMode
  | nextHeartbeat
  | now
  deriving DecidableEq, Repr

inductive PayloadKind
  | systemEvent
  | agentTurn
  | command
  deriving DecidableEq, Repr

inductive CronRunStatus
  | ok
  | error
  | skipped
  deriving DecidableEq, Repr

structure CronTrigger where
  script : String
  once : Bool := false
  deriving DecidableEq

inductive CronRetryOn
  | rateLimit
  | overloaded
  | network
  | timeout
  | serverError
  deriving DecidableEq, Repr

structure CronJobState where
  nextRunAtMs : Option Int := none
  runningAtMs : Option Int := none
  lastRunAtMs : Option Int := none
  lastRunStatus : Option CronRunStatus := none
  lastStatus : Option CronRunStatus := none
  lastError : Option String := none
  lastErrorReason : Option String := none
  lastDurationMs : Option Int := none
  consecutiveErrors : Option Int := none
  consecutiveSkipped : Option Int := none
  scheduleErrorCount : Option Nat := none
  lastTriggerEvalAtMs : Option Int := none
  triggerEvalCount : Option Nat := none
  lastTriggerFireAtMs : Option Int := none
  deriving DecidableEq

structure CronJob where
  id : String
  declarationKey : Option String := none
  enabled : Bool := true
  deleteAfterRun : Option Bool := none
  createdAtMs : Int
  updatedAtMs : Int
  schedule : CronSchedule
  sessionTarget : String
  wakeMode : CronWakeMode
  payload : PayloadKind
  trigger : Option CronTrigger := none
  state : CronJobState := {}
  deriving DecidableEq

structure CronRetryConfig where
  maxAttempts : Option Int := none
  backoffMs : Option (List Int) := none
  retryOn : Option (List CronRetryOn) := none

/-- The parts of `CronConfig` the scheduler reads. -/
structure CronConfig where
  retry : CronRetryConfig := {}
  triggersEnabled : Bool := false
  triggersMinIntervalMs : Option Int := none
  maxConcurrentRuns : Option Int := none

/-- What the scheduler calls that is not part of it: the configuration, the `croner` library, the
date parser, the hash behind the stagger offset and the two error classifiers. -/
structure CronDeps where
  cronConfig : CronConfig
  /-- The process's own time zone. -/
  timeZone : String
  /-- `new Cron(expr, { timezone }).nextRun(from)`, or what it throws. -/
  nextRun : String → String → Int → Except String (Option Int)
  /-- `new Cron(expr, { timezone }).previousRuns(1, from)[0]`, or what it throws. -/
  previousRun : String → String → Int → Except String (Option Int)
  parseAbsoluteTimeMs : String → Option Int
  /-- The first four bytes of `sha256(jobId)`. -/
  digest : String → Nat
  /-- `TRANSIENT_PATTERNS[key].test(error)`. -/
  transientPattern : CronRetryOn → String → Bool
  /-- `resolveFailoverReasonFromError(error, provider)`. -/
  failoverReason : String → Option String → Option String

/-- Surroundings without cron expressions or dates, where every error counts as transient. -/
def CronDeps.sample (cronConfig : CronConfig) : CronDeps where
  cronConfig := cronConfig
  timeZone := "UTC"
  nextRun _ _ _ := .ok none
  previousRun _ _ _ := .ok none
  parseAbsoluteTimeMs _ := none
  digest _ := 0
  transientPattern _ _ := true
  failoverReason _ _ := none

/-- Returns whether a stored next-run timestamp is schedulable. -/
def hasScheduledNextRunAtMs (value : Option Int) : Bool := value.any (0 < ·)

/-- `resolveJobLastRunStatus`. -/
def CronJob.lastRunStatus (job : CronJob) : Option CronRunStatus :=
  job.state.lastRunStatus <|> job.state.lastStatus

def isJobEnabled (job : CronJob) : Bool := job.enabled

def CronJob.setNextRunAtMs (job : CronJob) (next : Option Int) : CronJob :=
  { job with state := { job.state with nextRunAtMs := next } }

def CronJob.setRunningAtMs (job : CronJob) (running : Option Int) : CronJob :=
  { job with state := { job.state with runningAtMs := running } }

section Setters

variable (job : CronJob) (value : Option Int)

@[simp] theorem setNextRunAtMs_id : (job.setNextRunAtMs value).id = job.id := rfl
@[simp] theorem setNextRunAtMs_enabled : (job.setNextRunAtMs value).enabled = job.enabled := rfl
@[simp] theorem setNextRunAtMs_schedule : (job.setNextRunAtMs value).schedule = job.schedule := rfl
@[simp] theorem setNextRunAtMs_next : (job.setNextRunAtMs value).state.nextRunAtMs = value := rfl
@[simp] theorem setNextRunAtMs_running :
    (job.setNextRunAtMs value).state.runningAtMs = job.state.runningAtMs := rfl
@[simp] theorem setRunningAtMs_id : (job.setRunningAtMs value).id = job.id := rfl
@[simp] theorem setRunningAtMs_enabled : (job.setRunningAtMs value).enabled = job.enabled := rfl
@[simp] theorem setRunningAtMs_schedule : (job.setRunningAtMs value).schedule = job.schedule := rfl
@[simp] theorem setRunningAtMs_next :
    (job.setRunningAtMs value).state.nextRunAtMs = job.state.nextRunAtMs := rfl
@[simp] theorem setRunningAtMs_running : (job.setRunningAtMs value).state.runningAtMs = value := rfl

end Setters

end OpenClaw.Cron
