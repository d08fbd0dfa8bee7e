import Mathlib.Data.List.TakeDrop
import OpenClaw.Cron.Types

/-!
# `src/cron/schedule.ts`, `src/cron/stagger.ts` and the schedule half of `service/jobs.ts`

When a job runs next. `computeNextRunAtMs` reads the schedule alone; `computeJobNextRunAtMs` adds
what the job knows of its own past and its stagger offset. Both may throw, because `croner` may.

The second half is the error backoff: the delay after `n` consecutive errors and the time until
which a failed job is held back.
-/

namespace OpenClaw.Cron

variable (deps : CronDeps)

/-! ## Staggering -/

def defaultTopOfHourStaggerMs : Int := 5 * 60 * 1000

/-- `expr.trim().split(/\s+/).filter(Boolean)`. -/
def parseCronFields (expr : String) : List String :=
  (expr.toList.splitOnP JsString.isWhitespace |>.filter (· ≠ [])).map String.ofList

/-- One or more decimal digits. -/
def isDigits (cs : List Char) : Bool := cs ≠ [] && cs.all Char.isDigit

/-- `HOUR_LIST_PART`. -/
def isHourListPart (part : String) : Bool :=
  match part.toList.splitOn '/' with
  | [base] => isBase base
  | [base, step] => isBase base && isDigits step
  | _ => false
where
  isBase (cs : List Char) : Bool :=
    cs = ['*'] || cs = ['?'] ||
      match cs.splitOn '-' with
      | [n] => isDigits n
      | [lo, hi] => isDigits lo && isDigits hi
      | _ => false

def hasRecurringWildcardHour (field : String) : Bool :=
  let parts := (field.toList.splitOn ',').map String.ofList
  parts.all isHourListPart &&
    parts.any fun part => JsString.startsWith part "*" || JsString.startsWith part "?"

def isRecurringTopOfHourCronExpr (expr : String) : Bool :=
  match parseCronFields expr with
  | [minute, hour, _, _, _] => minute = "0" && hasRecurringWildcardHour hour
  | [second, minute, hour, _, _, _] =>
    second = "0" && minute = "0" && hasRecurringWildcardHour hour
  | _ => false

def normalizeCronStaggerMs (raw : Option Int) : Option Int := raw.map (max 0)

def resolveDefaultCronStaggerMs (expr : String) : Option Int :=
  if isRecurringTopOfHourCronExpr expr then some defaultTopOfHourStaggerMs else none

def resolveCronStaggerMs (expr : String) (staggerMs : Option Int) : Int :=
  (normalizeCronStaggerMs staggerMs <|> resolveDefaultCronStaggerMs expr).getD 0

/-- `resolveStableCronOffsetMs`, without its cache. -/
def resolveStableCronOffsetMs (jobId : String) (staggerMs : Int) : Int :=
  if staggerMs ≤ 1 then 0 else deps.digest jobId % staggerMs

/-! ## The next run of a schedule -/

def resolveCronTimezone (tz : Option String) : String :=
  match tz.map JsString.trim with
  | none | some "" => deps.timeZone
  | some trimmed => trimmed

/-- The first second after a time, and the first UTC midnight after it. -/
def nextSecondMs (nowMs : Int) : Int := nowMs / 1000 * 1000 + 1000

def tomorrowMs (nowMs : Int) : Int := (nowMs / 86400000 + 1) * 86400000

/-- `computeNextRunAtMs` for a cron expression, with its two retries past the year-rollback bug of
the library. -/
def computeCronNextRunAtMs (expr : String) (tz : Option String) (nowMs : Int) :
    Except String (Option Int) := do
  let trimmed := JsString.trim expr
  if trimmed = "" then return none
  let nextRun := deps.nextRun trimmed (resolveCronTimezone deps tz)
  match ← nextRun nowMs with
  | none => return none
  | some nextMs =>
    if nowMs < nextMs then return some nextMs
    match ← nextRun (nextSecondMs nowMs) with
    | some retryMs => if nowMs < retryMs then return some retryMs
    | none => pure ()
    match ← nextRun (tomorrowMs nowMs) with
    | some retryMs => return if nowMs < retryMs then some retryMs else none
    | none => return none

def computeNextRunAtMs (schedule : CronSchedule) (nowMs : Int) : Except String (Option Int) :=
  match schedule with
  | .at time => .ok ((deps.parseAbsoluteTimeMs time).filter (nowMs < ·))
  | .every everyMs anchorMs =>
    let everyMs := max 1 everyMs
    let anchor := max 0 (anchorMs.getD nowMs)
    if nowMs < anchor then .ok (some anchor)
    else .ok (some (anchor + ((nowMs - anchor) / everyMs + 1) * everyMs))
  | .onExit .. => .ok none
  | .cron expr tz _ => computeCronNextRunAtMs deps expr tz nowMs

def computePreviousRunAtMs (schedule : CronSchedule) (nowMs : Int) : Except String (Option Int) :=
  match schedule with
  | .cron expr tz _ => do
    let trimmed := JsString.trim expr
    if trimmed = "" then return none
    return (← deps.previousRun trimmed (resolveCronTimezone deps tz) nowMs).filter (· < nowMs)
  | _ => .ok none

/-! ## The next run of a job -/

/-- The loop of `computeStaggeredCronNextRunAtMs`. -/
def staggeredNext (schedule : CronSchedule) (offsetMs nowMs : Int) :
    Nat → Int → Except String (Option Int)
  | 0, _ => .ok none
  | attempts + 1, cursorMs => do
    match ← computeNextRunAtMs deps schedule cursorMs with
    | none => return none
    | some baseNext =>
      if nowMs < baseNext + offsetMs then return some (baseNext + offsetMs)
      staggeredNext schedule offsetMs nowMs attempts (max (cursorMs + 1) (baseNext + 1000))

def computeStaggeredCronNextRunAtMs (job : CronJob) (nowMs : Int) : Except String (Option Int) :=
  match job.schedule with
  | .cron expr _ staggerMs =>
    let offsetMs := resolveStableCronOffsetMs deps job.id (resolveCronStaggerMs expr staggerMs)
    if offsetMs ≤ 0 then computeNextRunAtMs deps job.schedule nowMs
    else staggeredNext deps job.schedule offsetMs nowMs 4 (max 0 (nowMs - offsetMs))
  | schedule => computeNextRunAtMs deps schedule nowMs

/-- The loop of `computeStaggeredCronPreviousRunAtMs`. -/
def staggeredPrevious (schedule : CronSchedule) (offsetMs nowMs : Int) :
    Nat → Int → Except String (Option Int)
  | 0, _ => .ok none
  | attempts + 1, cursorMs => do
    match ← computePreviousRunAtMs deps schedule cursorMs with
    | none => return none
    | some basePrevious =>
      if basePrevious + offsetMs ≤ nowMs then return some (basePrevious + offsetMs)
      staggeredPrevious schedule offsetMs nowMs attempts (max 0 (basePrevious - 1000))

def computeStaggeredCronPreviousRunAtMs (job : CronJob) (nowMs : Int) :
    Except String (Option Int) :=
  match job.schedule with
  | .cron expr _ staggerMs =>
    let offsetMs := resolveStableCronOffsetMs deps job.id (resolveCronStaggerMs expr staggerMs)
    if offsetMs ≤ 0 then computePreviousRunAtMs deps job.schedule nowMs
    else staggeredPrevious deps job.schedule offsetMs nowMs 4 (max 0 (nowMs - offsetMs))
  | _ => .ok none

def isStaggeredCronRunAtMs (job : CronJob) (runAtMs : Int) : Except String Bool :=
  match job.schedule with
  | .cron .. => do
    return (← computeStaggeredCronPreviousRunAtMs deps job (runAtMs + 1000)) = some runAtMs
  | _ => .ok false

def resolveEveryAnchorMs (anchorMs : Option Int) (fallbackAnchorMs : Int) : Int :=
  max 0 (anchorMs.getD fallbackAnchorMs)

def computeJobNextRunAtMs (job : CronJob) (nowMs : Int) : Except String (Option Int) :=
  if !isJobEnabled job then .ok none
  else match job.schedule with
    | .every everyMs anchorMs =>
      let everyMs := max 1 everyMs
      match job.state.lastRunAtMs.filter (nowMs < · + everyMs) with
      | some lastRunAtMs => .ok (some (lastRunAtMs + everyMs))
      | none =>
        let anchorMs := resolveEveryAnchorMs anchorMs job.createdAtMs
        computeNextRunAtMs deps (.every everyMs (some anchorMs)) nowMs
    | .at time =>
      let atMs := deps.parseAbsoluteTimeMs time
      match job.state.lastRunAtMs with
      | some lastRunAtMs =>
        if job.lastRunStatus = some .ok ∧ lastRunAtMs ≠ 0 then .ok (atMs.filter (lastRunAtMs < ·))
        else .ok atMs
      | none => .ok atMs
    | .cron .. => do
      match ← computeStaggeredCronNextRunAtMs deps job nowMs with
      | none => computeStaggeredCronNextRunAtMs deps job (nextSecondMs nowMs)
      | some next => return some next
    | .onExit .. => computeStaggeredCronNextRunAtMs deps job nowMs

def computeJobPreviousRunAtMs (job : CronJob) (nowMs : Int) : Except String (Option Int) :=
  if isJobEnabled job ∧ job.schedule.kind = .cron then
    computeStaggeredCronPreviousRunAtMs deps job nowMs
  else .ok none

/-! ## Error backoff -/

def defaultErrorBackoffScheduleMs : List Int :=
  [30000, 60000, 5 * 60000, 15 * 60000, 60 * 60000]

def errorBackoffMs (consecutiveErrors : Int) (scheduleMs : List Int) : Int :=
  let idx := min (consecutiveErrors - 1) ((scheduleMs.length : Int) - 1)
  (scheduleMs[(max 0 idx).toNat]?).getD 30000

/-- `cronConfig?.retry?.backoffMs ?? DEFAULT_ERROR_BACKOFF_SCHEDULE_MS`. -/
def backoffScheduleMs : List Int :=
  deps.cronConfig.retry.backoffMs.getD defaultErrorBackoffScheduleMs

/-- `resolveJobErrorBackoffUntilMs`, at the schedule every caller passes. -/
def resolveJobErrorBackoffUntilMs (job : CronJob) : Option Int :=
  if job.lastRunStatus = some .error then
    job.state.lastRunAtMs.map fun lastRunAtMs =>
      let consecutiveErrors := max 1 (job.state.consecutiveErrors.getD 1)
      let lastDurationMs := max 0 (job.state.lastDurationMs.getD 0)
      lastRunAtMs + lastDurationMs + errorBackoffMs consecutiveErrors (backoffScheduleMs deps)
  else none

/-! ## Event-driven schedules -/

theorem computeJobNextRunAtMs_onExit {job : CronJob} (h : job.schedule.kind = .onExit) (nowMs : Int) :
    computeJobNextRunAtMs deps job nowMs = .ok none := by
  cases hs : job.schedule with
  | onExit command cwd =>
    simp only [computeJobNextRunAtMs, hs, computeStaggeredCronNextRunAtMs, computeNextRunAtMs,
      ite_self]
  | «at» | every | cron => simp [hs, CronSchedule.kind] at h

end OpenClaw.Cron
