import OpenClaw.Cron.RetryGate

/-!
# An outcome moves the schedule forward

What the next run of a recurring job must keep after an outcome (`Forward`): it is later than the
end of the run; on a cron schedule that did not fail, by `minRefireGapMs`; after an error, by the
delay of the retry or the backoff; and with a trigger, by the operator's floor.

**Theorem (`outcome_forward_iff`).** A quiet tick keeps all of this. So does `applyJobResult`,
**if and only if** the delay after an error is not below the floor, where the job has a trigger and
its natural next run does not come later than the floor anyway (`TriggerFloorKept`): the error
branch, alone of the three, does not look at the floor.
-/

namespace OpenClaw.Cron

variable {deps : CronDeps} {job : CronJob} {result : CronRunResult} {preserveSchedule : Bool}
  {nowMs endedAt : Int}

/-! ## Interval schedules -/

theorem computeNextRunAtMs_every (everyMs : Int) (anchorMs : Option Int) :
    ∃ next, computeNextRunAtMs deps (.every everyMs anchorMs) nowMs = .ok (some next) ∧
      nowMs < next := by
  simp only [computeNextRunAtMs]
  by_cases hanchor : nowMs < max 0 (anchorMs.getD nowMs)
  · rw [if_pos hanchor]
    exact ⟨_, rfl, hanchor⟩
  · rw [if_neg hanchor]
    refine ⟨_, rfl, ?_⟩
    have hlt := Int.lt_ediv_add_one_mul_self (nowMs - max 0 (anchorMs.getD nowMs))
      (show 0 < max 1 everyMs by omega)
    omega

theorem computeJobNextRunAtMs_every (hkind : job.schedule.kind = .every)
    (henabled : isJobEnabled job = true) :
    ∃ next, computeJobNextRunAtMs deps job nowMs = .ok (some next) ∧ nowMs < next := by
  unfold computeJobNextRunAtMs
  rw [henabled]
  cases hschedule : job.schedule with
  | every everyMs anchorMs =>
    simp only [Bool.not_true, Bool.false_eq_true, if_false]
    cases hlast : job.state.lastRunAtMs.filter (nowMs < · + max 1 everyMs) with
    | some lastRunAtMs =>
      have hlt := (Option.filter_eq_some_iff.1 hlast).2
      exact ⟨_, rfl, of_decide_eq_true hlt⟩
    | none => exact computeNextRunAtMs_every _ _
  | «at» | onExit | cron => simp [hschedule, CronSchedule.kind] at hkind

variable (deps job preserveSchedule endedAt) in
theorem naturalNextRunAtMs_every (previous : CronJob) (retryable : Bool)
    (hkind : job.schedule.kind = .every) (henabled : isJobEnabled job = true) :
    ∃ next, naturalNextRunAtMs deps previous job retryable preserveSchedule endedAt =
      .ok (some next) ∧ endedAt < next := by
  unfold naturalNextRunAtMs
  by_cases hpreserve : preserveSchedule = true ∧ job.schedule.kind = .every
  · rw [if_pos hpreserve]
    exact computeJobNextRunAtMs_every hkind henabled
  · rw [if_neg hpreserve]
    by_cases hanchored : (retryable = true ∨ 0 < previous.state.consecutiveErrors.getD 0) ∧
        job.schedule.kind = .every
    · rw [if_pos hanchored]
      cases hschedule : job.schedule with
      | every everyMs anchorMs => exact computeNextRunAtMs_every _ _
      | «at» | onExit | cron => simp [hschedule, CronSchedule.kind] at hkind
    · rw [if_neg hanchored]
      exact computeJobNextRunAtMs_every hkind henabled

/-! ## Delays -/

/-- The delays of the configuration are positive. -/
def PositiveDelays (deps : CronDeps) : Prop :=
  ∀ delays, deps.cronConfig.retry.backoffMs = some delays → ∀ delay ∈ delays, 0 < delay

theorem errorBackoffMs_pos {n : Int} {delays : List Int} (h : ∀ delay ∈ delays, 0 < delay) :
    0 < errorBackoffMs n delays := by
  unfold errorBackoffMs
  dsimp only
  cases hget : delays[(max 0 (min (n - 1) ((delays.length : Int) - 1))).toNat]? with
  | none => simp
  | some delay => exact h delay (List.mem_of_getElem? hget)

theorem backoffScheduleMs_pos (h : PositiveDelays deps) :
    ∀ delay ∈ backoffScheduleMs deps, 0 < delay := by
  unfold backoffScheduleMs
  cases hconfig : deps.cronConfig.retry.backoffMs with
  | none => decide
  | some delays => exact h delays hconfig

theorem retryBackoffMs_pos (h : PositiveDelays deps) :
    ∀ delay ∈ retryBackoffMs deps, 0 < delay := by
  unfold retryBackoffMs
  cases hconfig : deps.cronConfig.retry.backoffMs with
  | none => decide
  | some delays =>
    cases delays with
    | nil => decide
    | cons delay delays => exact h _ hconfig

theorem gateMs_pos (h : PositiveDelays deps) : 0 < gateMs deps job :=
  errorBackoffMs_pos (backoffScheduleMs_pos h)

variable {retryMs : Int}

theorem earlyRetryMs_pos (h : PositiveDelays deps) (herr : result.status = .error)
    (hearly : earlyRetryMs deps job result preserveSchedule = some retryMs) : 0 < retryMs := by
  rw [earlyRetryMs_eq deps job result preserveSchedule hearly herr]
  exact errorBackoffMs_pos (retryBackoffMs_pos h)

/-- The delay after an error: of the early retry if there is one, or else of the backoff. -/
def errorDelayMs (deps : CronDeps) (job : CronJob) (result : CronRunResult)
    (preserveSchedule : Bool) : Int :=
  (earlyRetryMs deps job result preserveSchedule).getD (gateMs deps job)

variable (job preserveSchedule) in
theorem errorDelayMs_pos (h : PositiveDelays deps) (herr : result.status = .error) :
    0 < errorDelayMs deps job result preserveSchedule := by
  unfold errorDelayMs
  cases hearly : earlyRetryMs deps job result preserveSchedule with
  | none => exact gateMs_pos h
  | some retryMs => exact earlyRetryMs_pos h herr hearly

/-- `cron.triggers.minIntervalMs`. -/
abbrev triggerFloorMs (deps : CronDeps) : Int := resolveCronTriggerMinIntervalMs deps.cronConfig

/-! ## Moving forward -/

/-- The next run after an outcome is absent or late enough. -/
def Forward (deps : CronDeps) (job : CronJob) (result : CronRunResult) (preserveSchedule : Bool)
    (next : Option Int) : Prop :=
  ∀ t, next = some t →
    result.endedAt < t ∧
    (job.schedule.kind = .cron → result.status ≠ .error → result.endedAt + minRefireGapMs ≤ t) ∧
    (job.trigger.isSome = true → result.endedAt + triggerFloorMs deps ≤ t) ∧
    (result.status = .error →
      result.endedAt + errorDelayMs deps job result preserveSchedule ≤ t)

/-- After an error of a job with a trigger: the delay is not below the floor, or no early retry is
due and the natural next run is not below it. -/
def TriggerFloorKept (deps : CronDeps) (job : CronJob) (result : CronRunResult)
    (preserveSchedule : Bool) : Prop :=
  result.status = .error → isJobEnabled job = true → job.trigger.isSome = true →
    ∀ next, normalNextRunAtMs deps job result preserveSchedule = some next →
      triggerFloorMs deps ≤ errorDelayMs deps job result preserveSchedule ∨
        earlyRetryMs deps job result preserveSchedule = none ∧
          result.endedAt + triggerFloorMs deps ≤ next

theorem forward_none : Forward deps job result preserveSchedule none :=
  fun _ h => by cases h

theorem nextRun_disabled (hkind : job.schedule.kind ≠ .at) (henabled : isJobEnabled job = false) :
    (applyJobResult deps job result preserveSchedule).state.nextRunAtMs = none := by
  have hdelete : shouldDelete job result = false := by simp [shouldDelete, hkind]
  have hrecorded : isJobEnabled (recordRun deps job result) = false := henabled
  simp [applyJobResult, hdelete, hkind, applyRecurringResult, hrecorded]

theorem nextRun_success (hkind : job.schedule.kind ≠ .at) (henabled : isJobEnabled job = true)
    (hok : result.status ≠ .error) :
    (applyJobResult deps job result preserveSchedule).state.nextRunAtMs =
      nextRunAfterSuccess deps job
        (orRecordScheduleError (recordRun deps job result) (naturalNextRunAtMs deps job
          (recordRun deps job result) false preserveSchedule result.endedAt)).2
        result.endedAt := by
  have hdelete : shouldDelete job result = false := by simp [shouldDelete, hkind]
  have hrecorded : isJobEnabled (recordRun deps job result) = true := henabled
  have hsame : ∀ computed next, nextRunAfterSuccess deps
      (orRecordScheduleError (recordRun deps job result) computed).1 next result.endedAt =
      nextRunAfterSuccess deps job next result.endedAt := by
    intro computed next
    cases computed <;> rfl
  simp [applyJobResult, hdelete, hkind, applyRecurringResult, hrecorded, hok, hsame]

theorem forward_success (hkind : job.schedule.kind = .every ∨ job.schedule.kind = .cron)
    (henabled : isJobEnabled job = true) (hok : result.status ≠ .error) :
    Forward deps job result preserveSchedule
      (applyJobResult deps job result preserveSchedule).state.nextRunAtMs := by
  have hat : job.schedule.kind ≠ .at := by
    rcases hkind with h | h <;> simp [h]
  have hgap : 0 < minRefireGapMs := by decide
  rw [nextRun_success hat henabled hok]
  unfold nextRunAfterSuccess
  by_cases hcron : job.schedule.kind = .cron
  · -- the gap, and the floor of a trigger, bound the natural next run from below
    rw [if_pos hcron]
    intro t ht
    obtain ⟨next, -, rfl⟩ := Option.map_eq_some_iff.1 ht
    refine ⟨by omega, fun _ _ => by omega, fun htrigger => ?_, fun herr => absurd herr hok⟩
    rw [if_pos htrigger]
    unfold triggerFloorMs
    omega
  · rw [if_neg hcron]
    have hevery : job.schedule.kind = .every := hkind.resolve_right hcron
    obtain ⟨next, hnext, hlt⟩ := naturalNextRunAtMs_every deps (recordRun deps job result)
      preserveSchedule result.endedAt job false hevery henabled
    rw [hnext]
    by_cases htrigger : job.trigger.isSome = true
    · rw [if_pos htrigger]
      intro t ht
      have ht' : max next (result.endedAt + triggerFloorMs deps) = t := Option.some.inj ht
      exact ⟨by omega, fun h => absurd h hcron, fun _ => by omega, fun herr => absurd herr hok⟩
    · rw [if_neg htrigger]
      intro t ht
      have ht' : next = t := Option.some.inj ht
      exact ⟨by omega, fun h => absurd h hcron, fun h => absurd h htrigger,
        fun herr => absurd herr hok⟩

variable (deps result preserveSchedule) in
theorem normalNextRunAtMs_every (hkind : job.schedule.kind = .every)
    (henabled : isJobEnabled job = true) :
    ∃ next, normalNextRunAtMs deps job result preserveSchedule = some next := by
  obtain ⟨next, hnext, -⟩ := naturalNextRunAtMs_every deps (recordRun deps job result)
    preserveSchedule result.endedAt job (transientRetryMs deps (recordRun deps job result)).isSome
    hkind henabled
  refine ⟨next, ?_⟩
  unfold normalNextRunAtMs
  dsimp only
  rw [hnext]

theorem normalNext_of_earlyRetry
    (hearly : earlyRetryMs deps job result preserveSchedule = some retryMs) :
    ∃ next, normalNextRunAtMs deps job result preserveSchedule = some next ∧
      result.endedAt + retryMs < next := by
  unfold earlyRetryMs at hearly
  by_cases hpreserve : preserveSchedule = true
  · rw [if_pos hpreserve] at hearly
    cases hearly
  · rw [if_neg hpreserve] at hearly
    have hany := (Option.filter_eq_some_iff.1 hearly).2
    obtain ⟨next, hnext, hlt⟩ := (Option.any_eq_true _ _).1 hany
    exact ⟨next, hnext, of_decide_eq_true hlt⟩

theorem nextRun_error (hkind : job.schedule.kind = .every ∨ job.schedule.kind = .cron)
    (henabled : isJobEnabled job = true) (herr : result.status = .error) :
    (applyJobResult deps job result preserveSchedule).state.nextRunAtMs =
      (normalNextRunAtMs deps job result preserveSchedule).map fun next =>
        if (earlyRetryMs deps job result preserveSchedule).isSome = true then
          result.endedAt + errorDelayMs deps job result preserveSchedule
        else max next (result.endedAt + errorDelayMs deps job result preserveSchedule) := by
  have hat : job.schedule.kind ≠ .at := by
    rcases hkind with h | h <;> simp [h]
  rw [applyJobResult_error deps job result preserveSchedule herr hat henabled]
  unfold errorDelayMs
  cases hearly : earlyRetryMs deps job result preserveSchedule with
  | some retryMs =>
    obtain ⟨next, hnext, -⟩ := normalNext_of_earlyRetry hearly
    simp [hnext]
  | none =>
    cases hnormal : normalNextRunAtMs deps job result preserveSchedule with
    | some next => simp
    | none =>
      rcases hkind with hevery | hcron
      · obtain ⟨next, hnext⟩ := normalNextRunAtMs_every deps result preserveSchedule hevery henabled
        rw [hnormal] at hnext
        cases hnext
      · simp [hcron]

theorem forward_error_iff (hdelays : PositiveDelays deps)
    (hkind : job.schedule.kind = .every ∨ job.schedule.kind = .cron)
    (henabled : isJobEnabled job = true) (herr : result.status = .error) :
    Forward deps job result preserveSchedule
        (applyJobResult deps job result preserveSchedule).state.nextRunAtMs ↔
      TriggerFloorKept deps job result preserveSchedule := by
  have hpos := errorDelayMs_pos job preserveSchedule hdelays herr
  rw [nextRun_error hkind henabled herr]
  unfold Forward TriggerFloorKept
  cases hnormal : normalNextRunAtMs deps job result preserveSchedule with
  | none => simp
  | some next =>
    simp only [Option.map_some, Option.some.injEq, forall_eq', herr, henabled, ne_eq,
      not_true_eq_false, false_implies, implies_true, true_and, forall_const]
    cases hearly : earlyRetryMs deps job result preserveSchedule with
    | some retryMs =>
      simp only [Option.isSome_some, if_true, reduceCtorEq, false_and, or_false]
      constructor
      · intro h htrigger
        have hfloor := h.2.1 htrigger
        omega
      · intro h
        refine ⟨by omega, fun htrigger => ?_, le_rfl⟩
        have hfloor := h htrigger
        omega
    | none =>
      simp only [Option.isSome_none, Bool.false_eq_true, if_false, true_and]
      constructor
      · intro h htrigger
        have hfloor := h.2.1 htrigger
        omega
      · intro h
        refine ⟨by omega, fun htrigger => ?_, by omega⟩
        have hfloor := h htrigger
        omega

/-! ## Quiet ticks -/

variable (deps job result) in
theorem quiet_tick_forward (triggerEval : CronTriggerEvalOutcome) (t : Int)
    (ht : (applyTriggerNoFireResult deps job result triggerEval).state.nextRunAtMs = some t) :
    result.endedAt < t ∧ result.endedAt + minRefireGapMs ≤ t ∧
      result.endedAt + triggerFloorMs deps ≤ t := by
  have hgap : 0 < minRefireGapMs := by decide
  obtain ⟨quiet, -, hschedule, heq⟩ := applyTriggerNoFireResult_spec deps job result triggerEval
  rw [heq] at ht
  cases hnext : computeJobNextRunAtMs deps quiet result.endedAt with
  | error err =>
    rw [hnext] at ht
    cases ht
  | ok naturalNext =>
    rw [hnext] at ht
    obtain ⟨next, -, rfl⟩ := Option.map_eq_some_iff.1 ht
    unfold triggerFloorMs
    exact ⟨by omega, by omega, by omega⟩

/-! ## The result -/

/-- **An outcome moves the schedule forward** exactly if the trigger floor is kept after errors. -/
theorem outcome_forward_iff (hdelays : PositiveDelays deps)
    (hkind : job.schedule.kind = .every ∨ job.schedule.kind = .cron) :
    (Forward deps job result preserveSchedule
        (applyJobResult deps job result preserveSchedule).state.nextRunAtMs ∧
      ∀ triggerEval t,
        (applyTriggerNoFireResult deps job result triggerEval).state.nextRunAtMs = some t →
        result.endedAt < t ∧ result.endedAt + minRefireGapMs ≤ t ∧
          result.endedAt + triggerFloorMs deps ≤ t) ↔
    TriggerFloorKept deps job result preserveSchedule := by
  have hquiet := fun triggerEval t => quiet_tick_forward deps job result triggerEval t
  rw [and_iff_left hquiet]
  by_cases henabled : isJobEnabled job = true
  · by_cases herr : result.status = .error
    · exact forward_error_iff hdelays hkind henabled herr
    · refine iff_of_true (forward_success hkind henabled herr) ?_
      exact fun h => absurd h herr
  · have hat : job.schedule.kind ≠ .at := by
      rcases hkind with h | h <;> simp [h]
    rw [nextRun_disabled hat (Bool.not_eq_true _ ▸ henabled)]
    refine iff_of_true forward_none ?_
    exact fun _ h => absurd h henabled

/-- Triggers with a floor of one minute. -/
def minuteFloor : CronDeps := .sample { triggersEnabled := true, triggersMinIntervalMs := some 60000 }

def hourlyWatcher : CronJob :=
  { hourlyJob with trigger := some { script := "" }, state := {} }

theorem outcome_forward_iff_hourly :
    (Forward minuteFloor hourlyWatcher fourthFailure true
        (applyJobResult minuteFloor hourlyWatcher fourthFailure true).state.nextRunAtMs ∧
      ∀ triggerEval t,
        (applyTriggerNoFireResult minuteFloor hourlyWatcher fourthFailure triggerEval).state.nextRunAtMs
          = some t →
        fourthFailure.endedAt < t ∧ fourthFailure.endedAt + minRefireGapMs ≤ t ∧
          fourthFailure.endedAt + triggerFloorMs minuteFloor ≤ t) ↔
    TriggerFloorKept minuteFloor hourlyWatcher fourthFailure true :=
  outcome_forward_iff nofun (Or.inl rfl)

/-- The watcher fails for the first time and is evaluated again after half a minute. -/
theorem watcher_below_floor :
    ¬ ∀ deps job result preserveSchedule, PositiveDelays deps →
      (job.schedule.kind = .every ∨ job.schedule.kind = .cron) →
      result.startedAt ≤ result.endedAt →
      Forward deps job result preserveSchedule
        (applyJobResult deps job result preserveSchedule).state.nextRunAtMs := by
  intro h
  have hforward := h minuteFloor hourlyWatcher fourthFailure false nofun (Or.inl rfl) (by decide)
    7231000 (by decide)
  have hfloor := hforward.2.2.1 rfl
  revert hfloor
  decide

end OpenClaw.Cron
