import OpenClaw.Cron.Jobs

/-!
# `src/cron/service/timer.ts`: outcomes and runnable jobs

`applyJobResult` writes a finished run into its job and decides when the job runs next: a one-shot
job is retried or disabled, a recurring one is retried early after a transient error, held back by
the error backoff, or put on its natural next run. The second half says which jobs a tick runs.
-/

namespace OpenClaw.Cron

variable (deps : CronDeps)

def minRefireGapMs : Int := 2000

def heartbeatSkipDisabled : String := "disabled"

/-- `CronTriggerEvalOutcome`, without the script's own state. -/
structure CronTriggerEvalOutcome where
  fired : Bool
  stateChanged : Bool
  busy : Bool := false
  deriving DecidableEq

/-- What an execution of a job resolves to, with the times around it. -/
structure CronRunResult where
  status : CronRunStatus
  error : Option String := none
  provider : Option String := none
  startedAt : Int
  endedAt : Int
  triggerEval : Option CronTriggerEvalOutcome := none
  deriving DecidableEq

/-! ## Retry decisions -/

/-- `resolveRetryConfig(cronConfig).maxAttempts`. -/
def retryMaxAttempts : Int := deps.cronConfig.retry.maxAttempts.getD 3

/-- `resolveRetryConfig(cronConfig).backoffMs`. -/
def retryBackoffMs : List Int :=
  match deps.cronConfig.retry.backoffMs with
  | some (delay :: delays) => delay :: delays
  | _ => defaultErrorBackoffScheduleMs.take 3

/-- `resolveRetryConfig(cronConfig).retryOn`. -/
def retryOn : Option (List CronRetryOn) := deps.cronConfig.retry.retryOn.filter (· ≠ [])

/-- The name a classified reason has as a retry category. -/
def CronRetryOn.name : CronRetryOn → String
  | .rateLimit => "rate_limit"
  | .overloaded => "overloaded"
  | .network => "network"
  | .timeout => "timeout"
  | .serverError => "server_error"

/-- `resolveCronExecutionRetryHint(...).retryable`. -/
def isRetryableError (error : Option String) (lastErrorReason : Option String) : Bool :=
  match error with
  | none | some "" => false
  | some error =>
    let keys := (retryOn deps).getD [.rateLimit, .overloaded, .network, .timeout, .serverError]
    (lastErrorReason.filter (· ≠ "")).any (fun reason => keys.any (·.name = reason)) ||
      keys.any (deps.transientPattern · error)

/-- `resolveTransientCronRetryDecision`: the delay of a retry, or `none` when there is none. -/
def transientRetryMs (job : CronJob) : Option Int :=
  let consecutiveErrors := job.state.consecutiveErrors.getD 0
  if isRetryableError deps job.state.lastError job.state.lastErrorReason ∧
      consecutiveErrors ≤ retryMaxAttempts deps then
    some (errorBackoffMs consecutiveErrors (retryBackoffMs deps))
  else none

/-- `resolveDisabledHeartbeatOneShotRetryDecision`. -/
def disabledHeartbeatRetryMs (job : CronJob) : Option Int :=
  let consecutiveSkipped := job.state.consecutiveSkipped.getD 0
  if consecutiveSkipped ≤ retryMaxAttempts deps then
    some (errorBackoffMs consecutiveSkipped (retryBackoffMs deps))
  else none

def shouldRetryDisabledHeartbeatOneShot (job : CronJob) (result : CronRunResult) : Bool :=
  job.schedule.kind = .at && job.sessionTarget = "main" && job.wakeMode = .now &&
    result.status = .skipped && result.error = some heartbeatSkipDisabled

/-! ## Applying an outcome -/

/-- The first half of `applyJobResult`: run history and the error counters. -/
def recordRun (job : CronJob) (result : CronRunResult) : CronJob :=
  { job with
    updatedAtMs := result.endedAt
    state := { job.state with
      runningAtMs := none
      lastRunAtMs := some result.startedAt
      lastRunStatus := some result.status
      lastStatus := some result.status
      lastDurationMs := some (max 0 (result.endedAt - result.startedAt))
      lastError := result.error
      lastErrorReason :=
        if result.status = .error then
          result.error.bind fun error => deps.failoverReason error result.provider
        else none
      consecutiveErrors :=
        if result.status = .error then some (job.state.consecutiveErrors.getD 0 + 1) else some 0
      consecutiveSkipped :=
        if result.status = .skipped then some (job.state.consecutiveSkipped.getD 0 + 1)
        else some 0 } }

/-- The outcome of a one-shot job. -/
def applyOneShotResult (job : CronJob) (result : CronRunResult) : CronJob :=
  let retryMs :=
    if shouldRetryDisabledHeartbeatOneShot job result then disabledHeartbeatRetryMs deps job
    else if result.status = .error then transientRetryMs deps job
    else none
  match retryMs with
  | some backoffMs =>
    let job : CronJob := { job with enabled := if result.status = .error then job.enabled else true }
    job.setNextRunAtMs (some (result.endedAt + backoffMs))
  | none => { job with enabled := false }.setNextRunAtMs none

/-- The natural next run after an outcome. `job` already has the outcome recorded; `previous` is
the job before it. A run that did not move the cadence of an `every` schedule keeps its anchor. -/
def naturalNextRunAtMs (previous job : CronJob) (retryable preserveSchedule : Bool) (endedAt : Int) :
    Except String (Option Int) :=
  if preserveSchedule ∧ job.schedule.kind = .every then
    computeJobNextRunAtMs deps
      { job with state := { job.state with lastRunAtMs := previous.state.lastRunAtMs } } endedAt
  else if (retryable ∨ 0 < previous.state.consecutiveErrors.getD 0) ∧
      job.schedule.kind = .every then
    computeNextRunAtMs deps job.schedule endedAt
  else computeJobNextRunAtMs deps job endedAt

/-- A schedule computation inside `try`: its failure is recorded on the job. -/
def orRecordScheduleError (job : CronJob) : Except String (Option Int) → CronJob × Option Int
  | .ok next => (job, next)
  | .error err => (recordScheduleComputeError job err, none)

/-- The delay of the error backoff, as `applyJobResult` reads it. -/
def errorBackoffDelayMs (job : CronJob) : Int :=
  errorBackoffMs (job.state.consecutiveErrors.getD 1) (backoffScheduleMs deps)

/-- The next run of an enabled recurring job after an error: the transient retry if it comes before
the natural next run, otherwise the later of the natural next run and the end of the backoff. -/
def nextRunAfterError (job : CronJob) (normalNext : Option Int) (retryMs : Option Int)
    (endedAt : Int) : Option Int :=
  let backoffNext := endedAt + errorBackoffDelayMs deps job
  match normalNext, retryMs with
  | some next, some backoffMs =>
    if endedAt + backoffMs < next then some (endedAt + backoffMs)
    else some (max next backoffNext)
  | some next, none => some (max next backoffNext)
  | none, _ => if job.schedule.kind = .cron then none else some backoffNext

/-- The next run of an enabled recurring job after a run that did not fail. -/
def nextRunAfterSuccess (job : CronJob) (naturalNext : Option Int) (endedAt : Int) : Option Int :=
  let triggerFloorMs := resolveCronTriggerMinIntervalMs deps.cronConfig
  if job.schedule.kind = .cron then
    let gapMs := max minRefireGapMs (if job.trigger.isSome then triggerFloorMs else 0)
    naturalNext.map (max · (endedAt + gapMs))
  else if job.trigger.isSome then naturalNext.map (max · (endedAt + triggerFloorMs))
  else naturalNext

/-- The outcome of a recurring job, already recorded on `job`. -/
def applyRecurringResult (previous job : CronJob) (result : CronRunResult)
    (preserveSchedule : Bool) : CronJob :=
  if !isJobEnabled job then job.setNextRunAtMs none
  else if result.status = .error then
    let retryMs := transientRetryMs deps job
    let (job, normalNext) := orRecordScheduleError job
      (naturalNextRunAtMs deps previous job retryMs.isSome preserveSchedule result.endedAt)
    let retryMs := if preserveSchedule then none else retryMs
    job.setNextRunAtMs (nextRunAfterError deps job normalNext retryMs result.endedAt)
  else
    let (job, naturalNext) := orRecordScheduleError job
      (naturalNextRunAtMs deps previous job false preserveSchedule result.endedAt)
    job.setNextRunAtMs (nextRunAfterSuccess deps job naturalNext result.endedAt)

/-- Whether a finished one-shot job is removed. -/
def shouldDelete (job : CronJob) (result : CronRunResult) : Bool :=
  job.schedule.kind = .at && job.deleteAfterRun = some true && result.status = .ok

def applyJobResult (job : CronJob) (result : CronRunResult) (preserveSchedule : Bool := false) :
    CronJob :=
  let recorded := recordRun deps job result
  if shouldDelete job result then recorded
  else if job.schedule.kind = .at then applyOneShotResult deps recorded result
  else applyRecurringResult deps job recorded result preserveSchedule

/-! ## Trigger outcomes -/

def applyTriggerEvaluationState (job : CronJob) (triggerEval : CronTriggerEvalOutcome)
    (evaluatedAtMs : Int) : CronJob :=
  if triggerEval.busy then job
  else { job with state := { job.state with
    lastTriggerEvalAtMs := some evaluatedAtMs
    triggerEvalCount := some (job.state.triggerEvalCount.getD 0 + 1)
    lastTriggerFireAtMs :=
      if triggerEval.fired then some evaluatedAtMs else job.state.lastTriggerFireAtMs } }

def applyTriggerRunResult (job : CronJob) (result : CronRunResult) : CronJob :=
  match result.triggerEval with
  | none => job
  | some triggerEval =>
    let job := applyTriggerEvaluationState job triggerEval result.endedAt
    if triggerEval.fired && job.trigger.any (·.once) && result.status = .ok then
      { job with enabled := false }.setNextRunAtMs none
    else job

def applyTriggerNoFireResult (job : CronJob) (result : CronRunResult)
    (triggerEval : CronTriggerEvalOutcome) : CronJob :=
  let job := { job with updatedAtMs := result.endedAt }.setRunningAtMs none
  let job :=
    if triggerEval.busy then job
    else applyTriggerEvaluationState
      { job with state := { job.state with consecutiveErrors := some 0, scheduleErrorCount := some 0 } }
      triggerEval result.endedAt
  match computeJobNextRunAtMs deps job result.endedAt with
  | .ok naturalNext =>
    let floorMs := max minRefireGapMs (resolveCronTriggerMinIntervalMs deps.cronConfig)
    job.setNextRunAtMs (naturalNext.map (max · (result.endedAt + floorMs)))
  | .error err => recordScheduleComputeError job err

/-- A quiet trigger tick: the trigger was evaluated and did not fire. -/
def CronRunResult.quietTick (result : CronRunResult) : Option CronTriggerEvalOutcome :=
  if result.status = .ok then result.triggerEval.filter (!·.fired) else none

/-- What an outcome does to the stored job it belongs to. -/
def applyOutcomeToJob (job : CronJob) (result : CronRunResult) (preserveSchedule : Bool) : CronJob :=
  match result.quietTick with
  | some triggerEval => applyTriggerNoFireResult deps job result triggerEval
  | none => applyTriggerRunResult (applyJobResult deps job result preserveSchedule) result

/-- Whether the outcome removes the stored job it belongs to. -/
def outcomeDeletesJob (job : CronJob) (result : CronRunResult) : Bool :=
  result.quietTick.isNone && shouldDelete job result

/-! ## What an outcome leaves alone -/

section Preserved

variable (job : CronJob) (result : CronRunResult) (preserveSchedule : Bool)
  (triggerEval : CronTriggerEvalOutcome) (atMs : Int)

@[simp] theorem orRecordScheduleError_id (computed : Except String (Option Int)) :
    (orRecordScheduleError job computed).1.id = job.id := by
  cases computed <;> rfl

@[simp] theorem orRecordScheduleError_schedule (computed : Except String (Option Int)) :
    (orRecordScheduleError job computed).1.schedule = job.schedule := by
  cases computed <;> rfl

theorem applyJobResult_spec :
    (applyJobResult deps job result preserveSchedule).id = job.id ∧
      (applyJobResult deps job result preserveSchedule).schedule = job.schedule := by
  simp only [applyJobResult]
  split_ifs
  · exact ⟨rfl, rfl⟩
  · simp only [applyOneShotResult]
    split <;> exact ⟨rfl, rfl⟩
  · simp only [applyRecurringResult]
    split_ifs <;> simp [recordRun]

@[simp] theorem applyJobResult_id :
    (applyJobResult deps job result preserveSchedule).id = job.id :=
  (applyJobResult_spec deps job result preserveSchedule).1

@[simp] theorem applyJobResult_schedule :
    (applyJobResult deps job result preserveSchedule).schedule = job.schedule :=
  (applyJobResult_spec deps job result preserveSchedule).2

theorem applyTriggerEvaluationState_spec :
    (applyTriggerEvaluationState job triggerEval atMs).id = job.id ∧
      (applyTriggerEvaluationState job triggerEval atMs).schedule = job.schedule ∧
      (applyTriggerEvaluationState job triggerEval atMs).state.nextRunAtMs =
        job.state.nextRunAtMs := by
  unfold applyTriggerEvaluationState
  split <;> exact ⟨rfl, rfl, rfl⟩

@[simp] theorem applyTriggerEvaluationState_id :
    (applyTriggerEvaluationState job triggerEval atMs).id = job.id :=
  (applyTriggerEvaluationState_spec job triggerEval atMs).1

@[simp] theorem applyTriggerEvaluationState_schedule :
    (applyTriggerEvaluationState job triggerEval atMs).schedule = job.schedule :=
  (applyTriggerEvaluationState_spec job triggerEval atMs).2.1

@[simp] theorem applyTriggerEvaluationState_next :
    (applyTriggerEvaluationState job triggerEval atMs).state.nextRunAtMs =
      job.state.nextRunAtMs :=
  (applyTriggerEvaluationState_spec job triggerEval atMs).2.2

theorem applyTriggerNoFireResult_spec :
    ∃ quiet : CronJob, quiet.id = job.id ∧ quiet.schedule = job.schedule ∧
      applyTriggerNoFireResult deps job result triggerEval =
        match computeJobNextRunAtMs deps quiet result.endedAt with
        | .ok naturalNext =>
          let floorMs := max minRefireGapMs (resolveCronTriggerMinIntervalMs deps.cronConfig)
          quiet.setNextRunAtMs (naturalNext.map (max · (result.endedAt + floorMs)))
        | .error err => recordScheduleComputeError quiet err := by
  refine ⟨_, ?_, ?_, rfl⟩
  · dsimp only
    split <;> simp
  · dsimp only
    split <;> simp

@[simp] theorem applyOutcomeToJob_id :
    (applyOutcomeToJob deps job result preserveSchedule).id = job.id := by
  unfold applyOutcomeToJob
  split
  · obtain ⟨quiet, hid, -, h⟩ := applyTriggerNoFireResult_spec deps job result ‹_›
    rw [h]
    split <;> exact hid
  · unfold applyTriggerRunResult
    split
    · simp
    · dsimp only
      split_ifs <;> simp

end Preserved

/-! ## Runnable jobs -/

def isErrorBackoffPending (job : CronJob) (nowMs : Int) : Bool :=
  job.schedule.kind ≠ .at && (resolveJobErrorBackoffUntilMs deps job).any (nowMs < ·)

def isScheduledTerminalOneShotRetry (job : CronJob) (lastRunStatus : CronRunStatus) : Bool :=
  isJobEnabled job &&
    (job.state.nextRunAtMs.any fun nextRun =>
      job.state.lastRunAtMs.any fun lastRun => lastRun < nextRun) &&
    (lastRunStatus = .error ||
      lastRunStatus = .skipped && job.sessionTarget = "main" && job.wakeMode = .now &&
        job.state.lastError = some heartbeatSkipDisabled)

/-- The options of `collectRunnableJobs`. -/
structure RunnableOpts where
  skipJobIds : List String := []
  skipAtIfAlreadyRan : Bool := false
  allowCronMissedRunByLastRun : Bool := false

def isRunnableJob (opts : RunnableOpts) (nowMs : Int) (job : CronJob) : Bool :=
  if !isJobEnabled job || job.id ∈ opts.skipJobIds || job.state.runningAtMs.isSome then false
  else if let (true, .at, some status) :=
      (opts.skipAtIfAlreadyRan, job.schedule.kind, job.lastRunStatus) then
    isScheduledTerminalOneShotRetry job status && job.state.nextRunAtMs.any (· ≤ nowMs)
  else if isErrorBackoffPending deps job nowMs then false
  else if (job.state.nextRunAtMs.filter (0 < ·)).any (· ≤ nowMs) then true
  else if !opts.allowCronMissedRunByLastRun || job.schedule.kind ≠ .cron then false
  else
    match computeJobPreviousRunAtMs deps job nowMs with
    | .ok (some previousRunAtMs) => job.state.lastRunAtMs.any (· < previousRunAtMs)
    | _ => false

def collectRunnableJobs (opts : RunnableOpts) (nowMs : Int) (jobs : List CronJob) : List CronJob :=
  jobs.filter (isRunnableJob deps opts nowMs)

/-- `deferPendingBackoffMissedCronSlots`, on one job. -/
def deferPendingBackoffMissedCronSlot (skipJobIds : List String) (nowMs : Int) (job : CronJob) :
    CronJob :=
  if !isJobEnabled job || job.schedule.kind ≠ .cron || job.id ∈ skipJobIds ||
      job.state.runningAtMs.isSome then job
  else
    match (resolveJobErrorBackoffUntilMs deps job).filter (nowMs < ·),
        computeJobPreviousRunAtMs deps job nowMs with
    | some backoffUntilMs, .ok (some previousRunAtMs) =>
      if job.state.lastRunAtMs.any (· < previousRunAtMs) then
        job.setNextRunAtMs (some backoffUntilMs)
      else job
    | _, _ => job

end OpenClaw.Cron
