import Mathlib.Data.Finset.Basic
import Mathlib.Data.Finset.Filter
import OpenClaw.Cron.Schedule
import OpenClaw.Lib.Except
import OpenClaw.Normalization

/-!
# `src/cron/service/jobs.ts`

Creating and patching jobs, and the maintenance pass that every service operation runs over the
store: it normalizes disabled jobs and stuck running markers, fills in missing next runs and repairs
stale ones.

A function that mutates a job returns the job it leaves behind; where the source also reports
whether it changed anything, so does the model. Requests the source rejects for their delivery,
target agent or display fields change no job and are left out.
-/

namespace OpenClaw.Cron

variable (deps : CronDeps)

def stuckRunMs : Int := 2 * 60 * 60 * 1000

def maxScheduleErrors : Nat := 3

/-! ## Repairing one job -/

def isPendingErrorBackoffSlot (job : CronJob) (nextRunAtMs nowMs : Int) : Bool :=
  (resolveJobErrorBackoffUntilMs deps job).any fun backoffUntilMs =>
    nowMs < backoffUntilMs && nextRunAtMs ≤ backoffUntilMs

def shouldRepairFutureCronNextRunAtMs (job : CronJob) (nowMs : Int) : Bool :=
  match job.state.nextRunAtMs.filter (0 < ·) with
  | none => false
  | some nextRun =>
    if job.schedule.kind ≠ .cron ∨ nextRun ≤ nowMs ∨ job.state.runningAtMs.isSome then false
    else if isPendingErrorBackoffSlot deps job nextRun nowMs then false
    else
      match computeStaggeredCronNextRunAtMs deps job nowMs,
          isStaggeredCronRunAtMs deps job nextRun with
      | .ok (some naturalNext), .ok false =>
        if nextRun < naturalNext then job.payload ≠ .agentTurn
        else if nextRun = naturalNext then false
        else
          match computeStaggeredCronNextRunAtMs deps job naturalNext with
          | .ok (some followingNaturalNext) =>
            let naturalIntervalMs := followingNaturalNext - naturalNext
            0 < naturalIntervalMs && followingNaturalNext + naturalIntervalMs ≤ nextRun
          | _ => false
      | _, _ => false

/-- `recordScheduleComputeError`, without the notification. -/
def recordScheduleComputeError (job : CronJob) (err : String) : CronJob :=
  let errorCount := job.state.scheduleErrorCount.getD 0 + 1
  { job with
    enabled := if maxScheduleErrors ≤ errorCount then false else job.enabled
    state := { job.state with
      scheduleErrorCount := some errorCount
      nextRunAtMs := none
      lastError := some ("schedule error: " ++ err) } }

def recomputeJobNextRunAtMs (job : CronJob) (nowMs : Int) : CronJob × Bool :=
  match computeJobNextRunAtMs deps job nowMs with
  | .error err => (recordScheduleComputeError job err, true)
  | .ok natural =>
    let newNext :=
      if job.schedule.kind ≠ .at then
        natural.map fun next => (resolveJobErrorBackoffUntilMs deps job).elim next (max next)
      else natural
    let hadErrors := job.state.scheduleErrorCount.any (· ≠ 0)
    ({ job with state := { job.state with
        nextRunAtMs := newNext
        scheduleErrorCount := if hadErrors then none else job.state.scheduleErrorCount } },
      job.state.nextRunAtMs ≠ newNext || hadErrors)

/-- What `normalizeJobTickState` leaves: the job, whether it changed and whether to skip it. -/
structure TickState where
  job : CronJob
  changed : Bool
  skip : Bool

/-- The anchor normalization of `normalizeJobTickState`. -/
def normalizeEveryAnchor (job : CronJob) : CronJob :=
  match job.schedule with
  | .every everyMs anchorMs =>
    { job with schedule := .every everyMs (some (resolveEveryAnchorMs anchorMs job.createdAtMs)) }
  | _ => job

/-- The slot has been run: its last run is not older than it. -/
def alreadyExecutedSlot (job : CronJob) : Bool :=
  (job.state.nextRunAtMs.filter (0 < ·)).any fun nextRun =>
    job.state.lastRunAtMs.any fun lastRun => nextRun ≤ lastRun

def normalizeJobTickState (job₀ : CronJob) (nowMs : Int) : TickState :=
  let job := normalizeEveryAnchor job₀
  if !isJobEnabled job then
    let job := (job.setNextRunAtMs none).setRunningAtMs none
    ⟨job, job ≠ job₀, true⟩
  else
    let job :=
      if hasScheduledNextRunAtMs job.state.nextRunAtMs then job else job.setNextRunAtMs none
    if job.state.runningAtMs.any (stuckRunMs < nowMs - ·) then
      let job := job.setRunningAtMs none
      ⟨job, true, !alreadyExecutedSlot job⟩
    else ⟨job, job ≠ job₀, false⟩

/-! ## The maintenance pass -/

/-- The options of `recomputeNextRunsForMaintenance`. -/
structure MaintenanceOpts where
  recomputeExpired : Bool := false
  repairFutureCronNextRunAtMs : Bool := true

/-- The slot predates the active run-end backoff. -/
def isStaleBackoffSlot (job : CronJob) (nextRun nowMs : Int) : Bool :=
  (resolveJobErrorBackoffUntilMs deps job).any fun backoffUntilMs =>
    nowMs < backoffUntilMs && nextRun < backoffUntilMs

/-- The callback of the pass, on a normalized job that is not skipped. `deferred` says whether the
job has a catch-up deferral that has not arrived. -/
def maintainJob (opts : MaintenanceOpts) (nowMs : Int) (deferred : Bool) (job : CronJob) :
    CronJob × Bool :=
  match job.state.nextRunAtMs.filter (0 < ·) with
  | none => recomputeJobNextRunAtMs deps job nowMs
  | some nextRun =>
    if opts.repairFutureCronNextRunAtMs && !deferred &&
        shouldRepairFutureCronNextRunAtMs deps job nowMs then
      recomputeJobNextRunAtMs deps job nowMs
    else if opts.recomputeExpired && nextRun ≤ nowMs && job.state.runningAtMs.isNone &&
        (alreadyExecutedSlot job || isStaleBackoffSlot deps job nextRun nowMs) then
      recomputeJobNextRunAtMs deps job nowMs
    else (job, false)

/-- The deferral marker of a job whose slot has arrived is dropped. -/
def deferralArrived (job : CronJob) (nowMs : Int) : Bool :=
  (job.state.nextRunAtMs.filter (0 < ·)).any (· ≤ nowMs)

/-- What the pass leaves: the jobs, the deferral markers and whether anything changed. -/
structure Maintained where
  jobs : List CronJob
  deferralIds : Finset String
  changed : Bool

/-- `walkSchedulableJobs` with the callback of the maintenance pass. -/
def walkSchedulableJobs (opts : MaintenanceOpts) (nowMs : Int) :
    Finset String → List CronJob → Maintained
  | deferralIds, [] => ⟨[], deferralIds, false⟩
  | deferralIds, job :: jobs =>
    let tick := normalizeJobTickState job nowMs
    if tick.skip then
      let rest := walkSchedulableJobs opts nowMs deferralIds jobs
      { rest with jobs := tick.job :: rest.jobs, changed := tick.changed || rest.changed }
    else
      let arrived := tick.job.id ∈ deferralIds ∧ deferralArrived tick.job nowMs
      let deferralIds := if arrived then deferralIds.erase tick.job.id else deferralIds
      let (job, changed) := maintainJob deps opts nowMs (tick.job.id ∈ deferralIds) tick.job
      let rest := walkSchedulableJobs opts nowMs deferralIds jobs
      { rest with
        jobs := job :: rest.jobs
        changed := tick.changed || decide arrived || changed || rest.changed }

def recomputeNextRunsForMaintenance (opts : MaintenanceOpts) (nowMs : Int)
    (deferralIds : Finset String) (jobs : List CronJob) : Maintained :=
  let relevantDeferralIds := (jobs.filter isJobEnabled).map (·.id)
  walkSchedulableJobs deps opts nowMs (deferralIds.filter (· ∈ relevantDeferralIds)) jobs

/-- `recomputeNextRuns`, on one job. -/
def recomputeNextRun (nowMs : Int) (job : CronJob) : CronJob :=
  let tick := normalizeJobTickState job nowMs
  let isDueOrMissing := (tick.job.state.nextRunAtMs.filter (0 < ·)).all (· ≤ nowMs)
  if !tick.skip && (isDueOrMissing || shouldRepairFutureCronNextRunAtMs deps tick.job nowMs) then
    (recomputeJobNextRunAtMs deps tick.job nowMs).1
  else tick.job

/-! ## Reading the store -/

def nextWakeAtMs (jobs : List CronJob) : Option Int :=
  ((jobs.filter isJobEnabled).filterMap fun job => job.state.nextRunAtMs.filter (0 < ·)).min?

def isJobDue (job : CronJob) (nowMs : Int) (forced : Bool) : Bool :=
  job.state.runningAtMs.isNone &&
    (forced || isJobEnabled job && (job.state.nextRunAtMs.filter (0 < ·)).any (· ≤ nowMs))

/-! ## Validation -/

def assertSafeCronSessionTargetId (sessionId : String) : Except String Unit :=
  let trimmed := JsString.trim sessionId
  if trimmed = "" ∨ '\x00' ∈ trimmed.toList then
    .error "invalid cron sessionTarget session id"
  else .ok ()

def assertSupportedJobSpec (job : CronJob) : Except String Unit := do
  let isSession := JsString.startsWith job.sessionTarget "session:"
  let isIsolatedLike :=
    job.sessionTarget = "isolated" ∨ job.sessionTarget = "current" ∨ isSession
  if isSession then
    assertSafeCronSessionTargetId (.ofList (job.sessionTarget.toList.drop 8))
  if job.sessionTarget = "main" ∧ job.payload ≠ .systemEvent then
    throw "main cron jobs require payload.kind=\"systemEvent\""
  if isIsolatedLike ∧ job.payload = .systemEvent then
    throw "isolated/current/session cron jobs require payload.kind=\"agentTurn\" or \"command\""

def resolveCronTriggerMinIntervalMs (config : CronConfig) : Int :=
  (config.triggersMinIntervalMs.map (max 1)).getD 30000

def assertTriggerSupport (job : CronJob) (requireEnabled : Bool) : Except String Unit :=
  match job.trigger with
  | none => .ok ()
  | some _ =>
    let minIntervalMs := resolveCronTriggerMinIntervalMs deps.cronConfig
    if requireEnabled ∧ !deps.cronConfig.triggersEnabled then
      .error "cron triggers are disabled; set cron.triggers.enabled=true"
    else match job.schedule with
      | .every everyMs _ =>
        if everyMs < minIntervalMs then
          .error s!"cron trigger every interval must be at least {minIntervalMs}ms"
        else .ok ()
      | .cron .. => .ok ()
      | _ => .error "cron triggers require an every or cron schedule"

def assertCronExpressionSatisfiable (job : CronJob) (nowMs : Int) : Except String Unit :=
  match job.schedule with
  | .cron expr _ _ => do
    if (← computeJobNextRunAtMs deps { job with enabled := true } nowMs) = none then
      throw s!"cron expression \"{expr}\" has no upcoming run time and would never fire"
  | _ => .ok ()

/-! ## Creating and patching jobs -/

def cronDeclarativeLabelMaxLength : Nat := 200

structure CronJobCreate where
  id : Option String := none
  declarationKey : Option String := none
  enabled : Option Bool := none
  deleteAfterRun : Option Bool := none
  schedule : CronSchedule
  sessionTarget : String
  wakeMode : CronWakeMode
  payload : PayloadKind
  trigger : Option CronTrigger := none
  state : CronJobState := {}

/-- `CronJobPatch`. An omitted field is `none`; a `trigger` of `some none` removes the trigger.
A state field is set by `some`, as a patch read from JSON can only set one. -/
structure CronJobPatch where
  enabled : Option Bool := none
  deleteAfterRun : Option Bool := none
  schedule : Option CronSchedule := none
  sessionTarget : Option String := none
  wakeMode : Option CronWakeMode := none
  payload : Option PayloadKind := none
  trigger : Option (Option CronTrigger) := none
  state : CronJobState := {}

/-- `{ ...state, ...patch }`. -/
def CronJobState.merge (state patch : CronJobState) : CronJobState where
  nextRunAtMs := patch.nextRunAtMs <|> state.nextRunAtMs
  runningAtMs := patch.runningAtMs <|> state.runningAtMs
  lastRunAtMs := patch.lastRunAtMs <|> state.lastRunAtMs
  lastRunStatus := patch.lastRunStatus <|> state.lastRunStatus
  lastStatus := patch.lastStatus <|> state.lastStatus
  lastError := patch.lastError <|> state.lastError
  lastErrorReason := patch.lastErrorReason <|> state.lastErrorReason
  lastDurationMs := patch.lastDurationMs <|> state.lastDurationMs
  consecutiveErrors := patch.consecutiveErrors <|> state.consecutiveErrors
  consecutiveSkipped := patch.consecutiveSkipped <|> state.consecutiveSkipped
  scheduleErrorCount := patch.scheduleErrorCount <|> state.scheduleErrorCount
  lastTriggerEvalAtMs := patch.lastTriggerEvalAtMs <|> state.lastTriggerEvalAtMs
  triggerEvalCount := patch.triggerEvalCount <|> state.triggerEvalCount
  lastTriggerFireAtMs := patch.lastTriggerFireAtMs <|> state.lastTriggerFireAtMs

/-- The row `createJob` builds, before its first next run. `freshId` is the UUID drawn when the
input reserves no id. -/
def newJob (input : CronJobCreate) (freshId : String) (now : Int) : CronJob :=
  let schedule := match input.schedule with
    | .every everyMs anchorMs => .every everyMs (some (resolveEveryAnchorMs anchorMs now))
    | .cron expr tz staggerMs =>
      .cron expr tz (normalizeCronStaggerMs staggerMs <|> resolveDefaultCronStaggerMs expr)
    | schedule => schedule
  { id := (normalizeOptionalString input.id).getD freshId
    declarationKey := normalizeOptionalString input.declarationKey
    enabled := input.enabled.getD true
    deleteAfterRun := input.deleteAfterRun <|> (if schedule.kind = .at then some true else none)
    createdAtMs := now
    updatedAtMs := now
    schedule := schedule
    sessionTarget := input.sessionTarget
    wakeMode := input.wakeMode
    payload := input.payload
    trigger := input.trigger
    state := input.state }

/-- The checks of `createJob`, in its order. -/
def assertNewJob (input : CronJobCreate) (job : CronJob) (now : Int) : Except String Unit := do
  if input.declarationKey.isSome ∧ job.declarationKey = none then
    throw "cron declarationKey must not be blank"
  if job.declarationKey.any (cronDeclarativeLabelMaxLength < JsString.length ·) then
    throw s!"cron declarationKey must be at most {cronDeclarativeLabelMaxLength} characters"
  assertSupportedJobSpec job
  assertTriggerSupport deps job job.trigger.isSome
  assertCronExpressionSatisfiable deps job now

def createJob (input : CronJobCreate) (freshId : String) (now : Int) : Except String CronJob := do
  let job := newJob input freshId now
  assertNewJob deps input job now
  return job.setNextRunAtMs (← computeJobNextRunAtMs deps job now)

/-- The schedule `applyJobPatch` installs: editing only the expression keeps the stagger. -/
def patchedSchedule (old : CronSchedule) : CronSchedule → CronSchedule
  | .cron expr tz staggerMs =>
    match normalizeCronStaggerMs staggerMs with
    | some explicit => .cron expr tz (some explicit)
    | none =>
      match old with
      | .cron _ _ oldStaggerMs => .cron expr tz oldStaggerMs
      | _ => .cron expr tz (resolveDefaultCronStaggerMs expr)
  | schedule => schedule

/-- The job `applyJobPatch` leaves, if it passes the checks. -/
def patchedJob (job : CronJob) (patch : CronJobPatch) : CronJob :=
  { job with
    enabled := patch.enabled.getD job.enabled
    deleteAfterRun := patch.deleteAfterRun <|> job.deleteAfterRun
    schedule := (patch.schedule.map (patchedSchedule job.schedule)).getD job.schedule
    trigger := patch.trigger.getD job.trigger
    sessionTarget := patch.sessionTarget.getD job.sessionTarget
    wakeMode := patch.wakeMode.getD job.wakeMode
    payload := patch.payload.getD job.payload
    state := job.state.merge patch.state }

/-- `applyJobPatch`, validating the schedule at `now`. -/
def applyJobPatch (job : CronJob) (patch : CronJobPatch) (now : Int) : Except String CronJob := do
  let job := patchedJob job patch
  assertSupportedJobSpec job
  assertTriggerSupport deps job (patch.trigger.any Option.isSome)
  if patch.schedule.isSome ∨ patch.enabled = some true then
    assertCronExpressionSatisfiable deps job now
  return job

/-- The schedule `applyDeclarativeJobSpec` installs: an unchanged interval keeps its anchor. -/
def declaredSchedule (old : CronSchedule) (nowMs : Int) : CronSchedule → CronSchedule
  | .every everyMs none =>
    match old with
    | .every oldEveryMs oldAnchorMs =>
      if oldEveryMs = everyMs then .every everyMs oldAnchorMs else .every everyMs (some nowMs)
    | _ => .every everyMs (some nowMs)
  | .cron expr tz staggerMs =>
    .cron expr tz (normalizeCronStaggerMs staggerMs <|> resolveDefaultCronStaggerMs expr)
  | schedule => schedule

/-- The job `applyDeclarativeJobSpec` leaves, if it passes the checks. -/
def declaredJob (job : CronJob) (input : CronJobCreate) (enabledExplicit : Bool) (nowMs : Int) :
    CronJob :=
  { job with
    schedule := declaredSchedule job.schedule nowMs input.schedule
    payload := input.payload
    trigger := input.trigger
    enabled := if enabledExplicit then input.enabled.getD true else job.enabled }

def applyDeclarativeJobSpec (job : CronJob) (input : CronJobCreate) (enabledExplicit : Bool)
    (nowMs : Int) : Except String CronJob := do
  let job := declaredJob job input enabledExplicit nowMs
  assertTriggerSupport deps job input.trigger.isSome
  assertSupportedJobSpec job
  assertCronExpressionSatisfiable deps job nowMs
  return job

/-! ## What the checks let through -/

variable {deps}

variable {input : CronJobCreate} {now : Int} {job : CronJob}

theorem createJob_eq_ok {freshId : String} (h : createJob deps input freshId now = .ok job) :
    ∃ next, computeJobNextRunAtMs deps (newJob input freshId now) now = .ok next ∧
      job = (newJob input freshId now).setNextRunAtMs next := by
  obtain ⟨-, -, h⟩ := Except.bind_eq_ok.1 h
  obtain ⟨next, hnext, h⟩ := Except.bind_eq_ok.1 h
  exact ⟨next, hnext, (Except.pure_eq_ok.1 h).symm⟩

variable {nextJob : CronJob}

theorem applyJobPatch_eq_ok {patch : CronJobPatch}
    (h : applyJobPatch deps job patch now = .ok nextJob) : nextJob = patchedJob job patch := by
  obtain ⟨-, -, h⟩ := Except.bind_eq_ok.1 h
  obtain ⟨-, -, h⟩ := Except.bind_eq_ok.1 h
  dsimp only at h
  split_ifs at h
  · obtain ⟨-, -, h⟩ := Except.bind_eq_ok.1 h
    exact (Except.pure_eq_ok.1 h).symm
  · exact (Except.pure_eq_ok.1 h).symm

theorem applyDeclarativeJobSpec_eq_ok {enabledExplicit : Bool} {nowMs : Int}
    (h : applyDeclarativeJobSpec deps job input enabledExplicit nowMs = .ok nextJob) :
    nextJob = declaredJob job input enabledExplicit nowMs := by
  obtain ⟨-, -, h⟩ := Except.bind_eq_ok.1 h
  obtain ⟨-, -, h⟩ := Except.bind_eq_ok.1 h
  obtain ⟨-, -, h⟩ := Except.bind_eq_ok.1 h
  exact (Except.pure_eq_ok.1 h).symm

end OpenClaw.Cron
