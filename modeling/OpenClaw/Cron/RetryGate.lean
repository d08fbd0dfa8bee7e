import OpenClaw.Cron.Timer

/-!
# The retry schedule and the backoff gate

After an error `applyJobResult` may put a recurring job on an early transient retry. A tick then
asks `isErrorBackoffPending` whether the job is still held back. The two read the retry
configuration in different ways: the retry takes the first three default delays when none are
configured, the gate all five.

**Theorem (`retry_meets_backoff_gate_iff`).** The gate is open from the scheduled run on exactly
when no early retry was scheduled, or the delays are configured, or this was at most the third
error in a row. If the clock went back during the run, the gate counts from the later start.
-/

namespace OpenClaw.Cron

variable (deps : CronDeps) (job : CronJob) (result : CronRunResult) (preserveSchedule : Bool)

/-! ## Two readings of the delays -/

/-- The consecutive errors once this error is counted. -/
def errorCountAfter (job : CronJob) : Int := job.state.consecutiveErrors.getD 0 + 1

/-- The delay the gate adds to the end of the failed run. -/
def gateMs (job : CronJob) : Int := errorBackoffMs (errorCountAfter job) (backoffScheduleMs deps)

theorem errorBackoffMs_max_one (n : Int) (delays : List Int) :
    errorBackoffMs (max 1 n) delays = errorBackoffMs n delays := by
  have hidx : max 0 (min (max 1 n - 1) ((delays.length : Int) - 1)) =
      max 0 (min (n - 1) ((delays.length : Int) - 1)) := by omega
  simp only [errorBackoffMs, hidx]

variable {n : Int}

theorem errorBackoffMs_take {delays : List Int} {k : Nat} (hk : 0 < k) (hn : n ≤ k)
    (hlen : k ≤ delays.length) : errorBackoffMs n (delays.take k) = errorBackoffMs n delays := by
  have hidx : max 0 (min (n - 1) (((delays.take k).length : Int) - 1)) =
      max 0 (min (n - 1) ((delays.length : Int) - 1)) := by
    rw [List.length_take, min_eq_left hlen]
    omega
  simp only [errorBackoffMs, hidx]
  rw [List.getElem?_take_of_lt]
  omega

theorem default_retry_lt_gate (hn : 3 < n) :
    errorBackoffMs n (defaultErrorBackoffScheduleMs.take 3) <
      errorBackoffMs n defaultErrorBackoffScheduleMs := by
  have hretry : max 0 (min (n - 1) ((3 : Nat) - 1)) = 2 := by omega
  have hgate : max 0 (min (n - 1) ((5 : Nat) - 1)) = 3 ∨
      max 0 (min (n - 1) ((5 : Nat) - 1)) = 4 := by omega
  have hlong : (defaultErrorBackoffScheduleMs.length : Int) = (5 : Nat) := rfl
  have hshort : ((defaultErrorBackoffScheduleMs.take 3).length : Int) = (3 : Nat) := rfl
  simp only [errorBackoffMs, hlong, hshort, hretry]
  rcases hgate with h | h <;> rw [h] <;> decide

theorem gate_le_retry_iff (n : Int) :
    errorBackoffMs n (backoffScheduleMs deps) ≤ errorBackoffMs n (retryBackoffMs deps) ↔
      deps.cronConfig.retry.backoffMs.isSome ∨ n ≤ 3 := by
  rcases hcfg : deps.cronConfig.retry.backoffMs with _ | ⟨_ | ⟨delay, delays⟩⟩
  · simp only [backoffScheduleMs, retryBackoffMs, hcfg, Option.getD_none, Option.isSome_none,
      Bool.false_eq_true, false_or]
    constructor
    · intro hle
      by_contra hn
      exact absurd hle (not_le.2 (default_retry_lt_gate (not_le.1 hn)))
    · intro hn
      rw [errorBackoffMs_take (by decide) hn (by decide)]
  · -- An empty list leaves the gate at its constant, the shortest default delay.
    have hgate : errorBackoffMs n (backoffScheduleMs deps) = 30000 := by
      simp [errorBackoffMs, backoffScheduleMs, hcfg]
    have hlen : ((defaultErrorBackoffScheduleMs.take 3).length : Int) = (3 : Nat) := rfl
    have hretry : 30000 ≤ errorBackoffMs n (retryBackoffMs deps) := by
      have hidx : max 0 (min (n - 1) ((3 : Nat) - 1)) = 0 ∨
          max 0 (min (n - 1) ((3 : Nat) - 1)) = 1 ∨
          max 0 (min (n - 1) ((3 : Nat) - 1)) = 2 := by omega
      simp only [errorBackoffMs, retryBackoffMs, hcfg, hlen]
      rcases hidx with h | h | h <;> rw [h] <;> decide
    simp [hgate, hretry]
  · simp [backoffScheduleMs, retryBackoffMs, hcfg]

/-! ## What an error leaves behind -/

@[simp] theorem resolveJobErrorBackoffUntilMs_setNextRunAtMs (next : Option Int) :
    resolveJobErrorBackoffUntilMs deps (job.setNextRunAtMs next) =
      resolveJobErrorBackoffUntilMs deps job := rfl

@[simp] theorem resolveJobErrorBackoffUntilMs_orRecordScheduleError
    (computed : Except String (Option Int)) :
    resolveJobErrorBackoffUntilMs deps (orRecordScheduleError job computed).1 =
      resolveJobErrorBackoffUntilMs deps job := by
  cases computed <;> rfl

theorem backoffUntil_recordRun (herr : result.status = .error) :
    resolveJobErrorBackoffUntilMs deps (recordRun deps job result) =
      some (max result.startedAt result.endedAt + gateMs deps job) := by
  have hend : result.startedAt + max 0 (result.endedAt - result.startedAt) =
      max result.startedAt result.endedAt := by omega
  simp [resolveJobErrorBackoffUntilMs, CronJob.lastRunStatus, recordRun, herr, gateMs,
    errorCountAfter, errorBackoffMs_max_one, hend]

/-- The natural next run the error branch compares the retry with. -/
def normalNextRunAtMs : Option Int :=
  let recorded := recordRun deps job result
  match naturalNextRunAtMs deps job recorded (transientRetryMs deps recorded).isSome
      preserveSchedule result.endedAt with
  | .ok next => next
  | .error _ => none

/-- The delay of the early retry, when the error branch schedules one: the run was not forced, the
error is transient, attempts are left and the retry comes before the natural next run. -/
def earlyRetryMs : Option Int :=
  if preserveSchedule then none
  else (transientRetryMs deps (recordRun deps job result)).filter fun retryMs =>
    (normalNextRunAtMs deps job result preserveSchedule).any (result.endedAt + retryMs < ·)

theorem earlyRetryMs_eq {retryMs : Int}
    (h : earlyRetryMs deps job result preserveSchedule = some retryMs)
    (herr : result.status = .error) :
    retryMs = errorBackoffMs (errorCountAfter job) (retryBackoffMs deps) := by
  unfold earlyRetryMs at h
  split_ifs at h
  have htransient := (Option.filter_eq_some_iff.1 h).1
  simp only [transientRetryMs] at htransient
  split_ifs at htransient
  rw [Option.some.injEq] at htransient
  rw [← htransient]
  simp [recordRun, herr, errorCountAfter]

theorem applyJobResult_error (herr : result.status = .error) (hrec : job.schedule.kind ≠ .at)
    (hen : isJobEnabled job = true) :
    (applyJobResult deps job result preserveSchedule).state.nextRunAtMs =
      match normalNextRunAtMs deps job result preserveSchedule,
          earlyRetryMs deps job result preserveSchedule with
      | _, some retryMs => some (result.endedAt + retryMs)
      | some next, none => some (max next (result.endedAt + gateMs deps job))
      | none, none =>
        if job.schedule.kind = .cron then none else some (result.endedAt + gateMs deps job) := by
  have hdel : shouldDelete job result = false := by simp [shouldDelete, herr]
  have hrecorded : isJobEnabled (recordRun deps job result) = true := hen
  have hdelay : ∀ computed, errorBackoffDelayMs deps
      (orRecordScheduleError (recordRun deps job result) computed).1 = gateMs deps job := by
    intro computed
    cases computed <;> simp [errorBackoffDelayMs, orRecordScheduleError, recordScheduleComputeError,
      recordRun, herr, gateMs, errorCountAfter]
  have hkind : ∀ computed, (orRecordScheduleError (recordRun deps job result) computed).1.schedule =
      job.schedule := by
    intro computed
    cases computed <;> rfl
  simp only [applyJobResult, hdel, hrec, applyRecurringResult, hrecorded, herr, nextRunAfterError,
    hdelay, hkind, normalNextRunAtMs, earlyRetryMs, Bool.not_true, Bool.false_eq_true, if_false,
    if_true, setNextRunAtMs_next]
  generalize naturalNextRunAtMs deps job (recordRun deps job result)
    (transientRetryMs deps (recordRun deps job result)).isSome preserveSchedule
    result.endedAt = computed
  cases preserveSchedule <;> cases transientRetryMs deps (recordRun deps job result) <;>
    rcases computed with _ | _ | next <;> simp [orRecordScheduleError, Option.filter]
  split_ifs <;> rfl

theorem backoffUntil_applyJobResult (herr : result.status = .error)
    (hrec : job.schedule.kind ≠ .at) :
    resolveJobErrorBackoffUntilMs deps (applyJobResult deps job result preserveSchedule) =
      some (max result.startedAt result.endedAt + gateMs deps job) := by
  have hdel : shouldDelete job result = false := by simp [shouldDelete, herr]
  rw [← backoffUntil_recordRun deps job result herr]
  simp only [applyJobResult, hdel, hrec, applyRecurringResult]
  split_ifs <;> simp

/-! ## The gate at the scheduled run -/

/-- When the gate is open at the run an error schedules. -/
def RetryMeetsGate : Prop :=
  match earlyRetryMs deps job result preserveSchedule with
  | some retryMs =>
    if result.startedAt ≤ result.endedAt then
      deps.cronConfig.retry.backoffMs.isSome ∨ errorCountAfter job ≤ 3
    else result.startedAt - result.endedAt + gateMs deps job ≤ retryMs
  | none =>
    result.startedAt ≤ result.endedAt ∨
      (normalNextRunAtMs deps job result preserveSchedule).any
        (result.startedAt + gateMs deps job ≤ ·)

theorem applyJobResult_disabled (hrec : job.schedule.kind ≠ .at) (herr : result.status = .error)
    (hen : isJobEnabled job = false) :
    (applyJobResult deps job result preserveSchedule).state.nextRunAtMs = none := by
  have hdel : shouldDelete job result = false := by simp [shouldDelete, herr]
  have hrecorded : isJobEnabled (recordRun deps job result) = false := hen
  simp [applyJobResult, hdel, hrec, applyRecurringResult, hrecorded]

theorem gate_open_iff (herr : result.status = .error) (hrec : job.schedule.kind ≠ .at) (r : Int) :
    (∀ t, r ≤ t →
      isErrorBackoffPending deps (applyJobResult deps job result preserveSchedule) t = false ∧
      isStaleBackoffSlot deps (applyJobResult deps job result preserveSchedule) r t = false) ↔
    max result.startedAt result.endedAt + gateMs deps job ≤ r := by
  have hkind : (applyJobResult deps job result preserveSchedule).schedule.kind ≠ .at := by
    rwa [applyJobResult_schedule]
  have huntil := backoffUntil_applyJobResult deps job result preserveSchedule herr hrec
  simp only [isErrorBackoffPending, isStaleBackoffSlot, huntil, hkind, Option.any_some, ne_eq,
    not_false_eq_true, decide_true, Bool.true_and, Bool.and_eq_false_iff, decide_eq_false_iff_not,
    not_lt]
  constructor
  · intro h
    exact (h r le_rfl).1
  · intro h t ht
    exact ⟨h.trans ht, Or.inl (h.trans ht)⟩

/-- **The gate is open at the scheduled run exactly when the two readings of the delays agree.** -/
theorem retry_meets_backoff_gate_iff (herr : result.status = .error)
    (hrec : job.schedule.kind ≠ .at) {r : Int}
    (hr : (applyJobResult deps job result preserveSchedule).state.nextRunAtMs = some r) :
    (∀ t, r ≤ t →
      isErrorBackoffPending deps (applyJobResult deps job result preserveSchedule) t = false ∧
      isStaleBackoffSlot deps (applyJobResult deps job result preserveSchedule) r t = false) ↔
    RetryMeetsGate deps job result preserveSchedule := by
  rw [gate_open_iff deps job result preserveSchedule herr hrec]
  cases hen : isJobEnabled job with
  | false =>
    rw [applyJobResult_disabled deps job result preserveSchedule hrec herr hen] at hr
    cases hr
  | true =>
    rw [applyJobResult_error deps job result preserveSchedule herr hrec hen] at hr
    unfold RetryMeetsGate
    cases hearly : earlyRetryMs deps job result preserveSchedule with
    | some retryMs =>
      have hretry := earlyRetryMs_eq deps job result preserveSchedule hearly herr
      have hagree := gate_le_retry_iff deps (errorCountAfter job)
      simp only [hearly, Option.some.injEq] at hr
      simp only [gateMs] at *
      split_ifs with hclock
      · rw [← hagree, max_eq_right hclock]
        omega
      · rw [max_eq_left (not_le.1 hclock).le]
        omega
    | none =>
      cases hnormal : normalNextRunAtMs deps job result preserveSchedule with
      | some next =>
        simp only [hearly, hnormal, Option.some.injEq] at hr
        simp only [Option.any_some, decide_eq_true_eq]
        omega
      | none =>
        simp only [hearly, hnormal] at hr
        split_ifs at hr
        rw [Option.some.injEq] at hr
        simp only [Option.any_none, Bool.false_eq_true, or_false]
        omega

/-- Five attempts with no delays configured. -/
def fiveAttempts : CronDeps := .sample { retry := { maxAttempts := some 5 } }

/-- An hourly job that has failed three times in a row. -/
def hourlyJob : CronJob where
  id := "hourly"
  createdAtMs := 0
  updatedAtMs := 0
  schedule := .every 3600000 (some 0)
  sessionTarget := "isolated"
  wakeMode := .now
  payload := .agentTurn
  state := { consecutiveErrors := some 3 }

def fourthFailure : CronRunResult where
  status := .error
  error := some "503"
  startedAt := 7200000
  endedAt := 7201000

theorem retry_meets_backoff_gate_iff_hourly :
    (∀ t, 7501000 ≤ t →
      isErrorBackoffPending fiveAttempts (applyJobResult fiveAttempts hourlyJob fourthFailure) t =
        false ∧
      isStaleBackoffSlot fiveAttempts (applyJobResult fiveAttempts hourlyJob fourthFailure)
        7501000 t = false) ↔
    RetryMeetsGate fiveAttempts hourlyJob fourthFailure false :=
  retry_meets_backoff_gate_iff fiveAttempts hourlyJob fourthFailure false rfl (by decide) rfl

/-- The fourth retry is scheduled five minutes after the failure and held back for fifteen. -/
theorem fourth_retry_held_back :
    ¬ ∀ (deps : CronDeps) (job : CronJob) (result : CronRunResult) (preserveSchedule : Bool)
      (r : Int), job.schedule.kind ≠ .at → result.status = .error →
      (applyJobResult deps job result preserveSchedule).state.nextRunAtMs = some r →
      ∀ t, r ≤ t →
        isErrorBackoffPending deps (applyJobResult deps job result preserveSchedule) t = false := by
  intro h
  have hopen := h fiveAttempts hourlyJob fourthFailure false 7501000 (by decide) rfl rfl 7501000
    le_rfl
  revert hopen
  decide

end OpenClaw.Cron
