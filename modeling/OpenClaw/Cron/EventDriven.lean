import OpenClaw.Cron.Maintenance
import OpenClaw.Lib.Lts

/-!
# Event-driven jobs are not time-due

A job whose schedule is `on-exit` runs when a watched command exits. `computeJobNextRunAtMs` gives
it no next run, but two writers of `nextRunAtMs` do not ask: the error branch of `applyJobResult`
falls back to the end of the error backoff, and a patch of the runtime state writes what it carries.

**Theorem (`onExit_never_due`).** Where no step does either, no `on-exit` job is ever scheduled, the
next wake-up ignores it and no tick runs it.

**Theorem (`failed_onExit_job_becomes_due`).** A failed run of an `on-exit` job schedules it.
-/

namespace OpenClaw.Cron

variable (deps : CronDeps)

/-! ## Runs of the store operations -/

/-- The writers of a job: the store operations, the maintenance passes and the outcomes of runs. -/
inductive JobEvent
  | add (input : CronJobCreate) (opts : CronAddOptions) (freshId : String)
  | update (id : String) (patch : CronJobPatch)
  | remove (id : String)
  | maintain (opts : MaintenanceOpts)
  | recompute
  | outcome (id : String) (result : CronRunResult) (preserveSchedule : Bool)
  | tick (now : Int)

/-- A request that throws changes nothing. -/
def JobsState.step (s : JobsState) : JobEvent → JobsState
  | .add input opts freshId =>
    { s with store := (s.store.add deps input opts freshId s.now).toOption.getD s.store }
  | .update id patch =>
    { s with store := (s.store.update deps id patch s.now).toOption.getD s.store }
  | .remove id => { s with store := s.store.remove deps id s.now }
  | .maintain opts => { s with store := (s.store.maintain deps opts s.now).1 }
  | .recompute =>
    { s with store := { s.store with jobs := s.store.jobs.map (recomputeNextRun deps s.now) } }
  | .outcome id result preserveSchedule =>
    { s with store := s.store.applyOutcome deps id result preserveSchedule }
  | .tick now => { s with now := now }

/-- The empty store. -/
def JobsState.Initial (s : JobsState) : Prop := s.store = ⟨[], [], ∅⟩

/-- The step neither applies an error to an enabled event-driven job nor patches a next run onto an
event-driven job whose scheduling inputs the patch does not mention. -/
def KeepsUnscheduled (s : JobsState) : JobEvent → Prop
  | .outcome id result _ => ∀ job ∈ s.store.jobs, job.id = id → job.schedule.kind = .onExit →
      isJobEnabled job → result.status ≠ .error
  | .update id patch => ∀ job ∈ s.store.jobs, job.id = id → job.schedule.kind = .onExit →
      patch.schedule = none → patch.enabled = none → patch.trigger = none →
      hasScheduledNextRunAtMs patch.state.nextRunAtMs = false
  | _ => True

/-! ## One job -/

/-- An event-driven job is not scheduled. -/
def Unscheduled (job : CronJob) : Prop :=
  job.schedule.kind = .onExit → hasScheduledNextRunAtMs job.state.nextRunAtMs = false

variable {job : CronJob}

theorem unscheduled_setNextRunAtMs {next : Option Int}
    (h : job.schedule.kind = .onExit → hasScheduledNextRunAtMs next = false) :
    Unscheduled (job.setNextRunAtMs next) := h

theorem unscheduled_of_next_eq_none (h : job.state.nextRunAtMs = none) :
    Unscheduled job := fun _ => by rw [h]; rfl

variable {now : Int}

theorem unscheduled_compute {next : Option Int}
    (h : computeJobNextRunAtMs deps job now = .ok next) :
    Unscheduled (job.setNextRunAtMs next) := by
  refine unscheduled_setNextRunAtMs fun hkind => ?_
  rw [computeJobNextRunAtMs_onExit deps hkind, Except.ok.injEq] at h
  rw [← h]
  rfl

theorem unscheduled_recompute (job : CronJob) (now : Int) :
    Unscheduled (recomputeJobNextRunAtMs deps job now).1 := by
  intro hkind
  rw [recompute_schedule] at hkind
  rw [recompute_next deps job now (computeJobNextRunAtMs_onExit deps hkind now)]
  rfl

theorem unscheduled_normalize (h : Unscheduled job) (now : Int) :
    Unscheduled (normalizeJobTickState job now).job := by
  intro hkind
  rw [normalize_kind] at hkind
  rcases normalize_next job now with hnext | hnext
  · rw [hnext]
    exact h hkind
  · rw [hnext]
    rfl

theorem unscheduled_maintainsTo {opts : MaintenanceOpts} {job' : CronJob} (h : Unscheduled job)
    (hto : MaintainsTo deps opts now job job') : Unscheduled job' := by
  have hnorm := unscheduled_normalize h now
  cases hto with
  | skip => exact hnorm
  | maintain deferred =>
    rcases maintainJob_cases deps opts now deferred (normalizeJobTickState job now).job with h | h
    · rwa [h]
    · rw [h]
      exact unscheduled_recompute deps _ now

theorem unscheduled_recomputeNextRun (h : Unscheduled job) (now : Int) :
    Unscheduled (recomputeNextRun deps now job) := by
  have hnorm := unscheduled_normalize h now
  simp only [recomputeNextRun]
  split_ifs
  · exact unscheduled_recompute deps _ now
  · exact hnorm

theorem unscheduled_createJob {input : CronJobCreate} {freshId : String}
    (h : createJob deps input freshId now = .ok job) : Unscheduled job := by
  obtain ⟨next, hnext, rfl⟩ := createJob_eq_ok h
  exact unscheduled_compute deps hnext

theorem cronSchedulingInputsEqual_onExit {nextJob : CronJob} (h : nextJob.schedule.kind = .onExit) :
    cronSchedulingInputsEqual job nextJob = false := by
  have hnone : tryCronScheduleIdentity nextJob = none := by
    unfold tryCronScheduleIdentity
    cases hs : nextJob.schedule with
    | onExit => rfl
    | «at» | every | cron => simp [hs, CronSchedule.kind] at h
  simp [cronSchedulingInputsEqual, hnone]

theorem unscheduled_finalizesTo {nextJob job' : CronJob} {requested : Bool}
    (h : FinalizesTo deps job nextJob now requested job')
    (hkeep : requested = false → Unscheduled nextJob) : Unscheduled job' := by
  cases h with
  | rescheduled _ _ _ hnext => exact unscheduled_compute deps hnext
  | disabled => exact unscheduled_of_next_eq_none rfl
  | filledIn _ _ _ hnext => exact unscheduled_compute deps hnext
  | kept hequal =>
    cases hreq : requested with
    | false => exact hkeep hreq
    | true =>
      intro hkind
      have hne : cronSchedulingInputsEqual job nextJob = false :=
        cronSchedulingInputsEqual_onExit hkind
      rw [hequal hreq] at hne
      cases hne

section

variable {result : CronRunResult} {preserveSchedule : Bool}
  (hok : job.schedule.kind = .onExit → isJobEnabled job → result.status ≠ .error)
include hok

theorem unscheduled_applyJobResult :
    Unscheduled (applyJobResult deps job result preserveSchedule) := by
  intro hkind
  rw [applyJobResult_schedule] at hkind
  have hdel : shouldDelete job result = false := by simp [shouldDelete, hkind]
  have hnatural : naturalNextRunAtMs deps job (recordRun deps job result) false preserveSchedule
      result.endedAt = .ok none := by
    have hrecorded : (recordRun deps job result).schedule.kind = .onExit := hkind
    simp [naturalNextRunAtMs, hrecorded, computeJobNextRunAtMs_onExit deps hrecorded]
  cases hen : isJobEnabled job with
  | false =>
    have hrecorded : isJobEnabled (recordRun deps job result) = false := hen
    simp [applyJobResult, hdel, hkind, applyRecurringResult, hrecorded, hasScheduledNextRunAtMs]
  | true =>
    have hrecorded : isJobEnabled (recordRun deps job result) = true := hen
    simp [applyJobResult, hdel, hkind, applyRecurringResult, hrecorded, hok hkind hen, hnatural,
      orRecordScheduleError, nextRunAfterSuccess, hasScheduledNextRunAtMs]

theorem unscheduled_outcome :
    Unscheduled (applyOutcomeToJob deps job result preserveSchedule) := by
  unfold applyOutcomeToJob
  split
  · obtain ⟨quiet, -, hschedule, h⟩ := applyTriggerNoFireResult_spec deps job result ‹_›
    rw [h]
    split
    · rename_i naturalNext hnext
      refine unscheduled_setNextRunAtMs fun hkind => ?_
      rw [computeJobNextRunAtMs_onExit deps hkind, Except.ok.injEq] at hnext
      rw [← hnext]
      rfl
    · exact unscheduled_of_next_eq_none rfl
  · have happly : Unscheduled (applyJobResult deps job result preserveSchedule) :=
      unscheduled_applyJobResult deps hok
    unfold applyTriggerRunResult
    split
    · exact happly
    · dsimp only
      split_ifs
      · exact unscheduled_of_next_eq_none rfl
      · intro hkind
        rw [applyTriggerEvaluationState_next]
        exact happly (by simpa using hkind)

end

/-! ## Every run -/

/-- The store holds no scheduled event-driven job. -/
def JobsState.Unscheduled (s : JobsState) : Prop := ∀ job ∈ s.store.jobs, Cron.Unscheduled job

variable {s : JobsState}

theorem unscheduled_update (h : s.Unscheduled) {id : String} {patch : CronJobPatch}
    (hkeep : KeepsUnscheduled s (.update id patch)) (hfind : s.store.find id = some job)
    {scheduleChanged : Bool} (hreq : patch.schedulingInputsRequested = false) :
    Unscheduled (anchoredJob job (patchedJob job patch) s.now scheduleChanged) := by
  obtain ⟨hmem, hid⟩ := CronStore.mem_of_find hfind
  obtain ⟨schedule, hanchored, hkind⟩ :=
    anchoredJob_spec job (patchedJob job patch) s.now scheduleChanged
  simp only [CronJobPatch.schedulingInputsRequested, Bool.or_eq_false_iff, Option.isSome_eq_false_iff,
    Option.isNone_iff_eq_none] at hreq
  obtain ⟨⟨hschedule, henabled⟩, htrigger⟩ := hreq
  rw [hanchored]
  intro hexit
  have hjob : job.schedule.kind = .onExit := by
    simpa [hkind, patchedJob, hschedule] using hexit
  cases hpatch : patch.state.nextRunAtMs with
  | none => simpa [patchedJob, CronJobState.merge, hpatch] using h job hmem hjob
  | some next =>
    have hunset := hkeep job hmem hid hjob hschedule henabled htrigger
    simpa [patchedJob, CronJobState.merge, hpatch] using hunset

theorem unscheduled_step {e : JobEvent} (h : s.Unscheduled) (hkeep : KeepsUnscheduled s e) :
    (s.step deps e).Unscheduled := by
  have hpass : ∀ {store : CronStore} {opts : MaintenanceOpts},
      (∀ job ∈ store.jobs, Cron.Unscheduled job) →
      ∀ job ∈ (store.maintain deps opts s.now).1.jobs, Cron.Unscheduled job := fun hstore =>
    CronStore.forall_maintain hstore fun _ _ hjob hto => unscheduled_maintainsTo deps hjob hto
  cases e with
  | add input opts freshId =>
    cases hadd : s.store.add deps input opts freshId s.now with
    | error => simpa [JobsState.step, hadd, Except.toOption] using h
    | ok t =>
      simp only [JobsState.step, hadd, Except.toOption, Option.getD_some]
      cases CronStore.addsTo_of_eq_ok hadd with
      | unchanged => exact h
      | converged _ hto =>
        exact CronStore.forall_replace h (unscheduled_finalizesTo deps hto (by simp))
      | created _ hjob =>
        refine hpass fun job hmem => ?_
        rcases List.mem_append.1 hmem with hmem | hmem
        · exact h job hmem
        · rw [List.mem_singleton.1 hmem]
          exact unscheduled_createJob deps hjob
  | update id patch =>
    cases hupdate : s.store.update deps id patch s.now with
    | error => simpa [JobsState.step, hupdate, Except.toOption] using h
    | ok t =>
      obtain ⟨job, job', hfind, hto, rfl⟩ := CronStore.update_eq_ok hupdate
      simp only [JobsState.step, hupdate, Except.toOption, Option.getD_some]
      exact CronStore.forall_replace h
        (unscheduled_finalizesTo deps hto (unscheduled_update h hkeep hfind))
  | remove id => exact hpass (CronStore.forall_erase h)
  | maintain opts => exact hpass h
  | recompute =>
    intro job' hmem
    obtain ⟨job, hjob, rfl⟩ := List.mem_map.1 hmem
    exact unscheduled_recomputeNextRun deps (h job hjob) s.now
  | outcome id result preserveSchedule =>
    simp only [JobsState.step, CronStore.applyOutcome]
    cases hfind : s.store.find id with
    | none => exact h
    | some job =>
      obtain ⟨hmem, hid⟩ := CronStore.mem_of_find hfind
      dsimp only
      split
      · exact CronStore.forall_erase h
      · exact CronStore.forall_replace h (unscheduled_outcome deps (hkeep job hmem hid))
  | tick now => exact h

theorem unscheduled_of_reachable (hs : Lts.Reachable JobsState.Initial
      (Lts.Guarded (fun s e t => s.step deps e = t) KeepsUnscheduled) s) : s.Unscheduled := by
  refine hs.invariant ?_ ?_
  · intro s hinit job hmem
    rw [hinit] at hmem
    cases hmem
  · rintro s e _ h ⟨rfl, hkeep⟩
    exact unscheduled_step deps h hkeep

theorem scheduled_of_runnable {opts : RunnableOpts} (h : isRunnableJob deps opts now job = true)
    (hkind : job.schedule.kind = .onExit) :
    hasScheduledNextRunAtMs job.state.nextRunAtMs = true := by
  cases hnext : job.state.nextRunAtMs.filter (0 < ·) with
  | none => simp [isRunnableJob, hkind, hnext] at h
  | some next =>
    obtain ⟨hnext, hpos⟩ := Option.filter_eq_some_iff.1 hnext
    simpa [hasScheduledNextRunAtMs, hnext] using hpos

theorem nextWakeAtMs_filter {jobs : List CronJob} {p : CronJob → Bool}
    (h : ∀ job ∈ jobs, p job = false → hasScheduledNextRunAtMs job.state.nextRunAtMs = false) :
    nextWakeAtMs jobs = nextWakeAtMs (jobs.filter p) := by
  simp only [nextWakeAtMs, List.filter_filter, List.filterMap_filter]
  congr 1
  refine List.filterMap_congr fun job hmem => ?_
  cases hp : p job with
  | true => simp
  | false =>
    have hnone : job.state.nextRunAtMs.filter (0 < ·) = none := by
      have hunset := h job hmem hp
      rw [Option.filter_eq_none_iff]
      intro next hnext
      simpa [hasScheduledNextRunAtMs, hnext] using hunset
    simp [hnone]

/-- **Event-driven jobs are never time-due.** -/
theorem onExit_never_due {s : JobsState}
    (hs : Lts.Reachable JobsState.Initial
      (Lts.Guarded (fun s e t => s.step deps e = t) KeepsUnscheduled) s) :
    (∀ job ∈ s.store.jobs, job.schedule.kind = .onExit →
      hasScheduledNextRunAtMs job.state.nextRunAtMs = false) ∧
    nextWakeAtMs s.store.jobs =
      nextWakeAtMs (s.store.jobs.filter fun job => job.schedule.kind ≠ .onExit) ∧
    ∀ opts now, ∀ job ∈ collectRunnableJobs deps opts now s.store.jobs,
      job.schedule.kind ≠ .onExit := by
  have h := unscheduled_of_reachable deps hs
  refine ⟨h, ?_, fun opts now job hmem hkind => ?_⟩
  · exact nextWakeAtMs_filter fun job hmem hkind => h job hmem (by simpa using hkind)
  · obtain ⟨hjob, hrun⟩ := List.mem_filter.1 hmem
    have hscheduled := scheduled_of_runnable deps hrun hkind
    rw [h job hjob hkind] at hscheduled
    cases hscheduled

/-- A job that waits for a build to exit. -/
def watchBuild : CronJobCreate where
  id := some "build"
  schedule := .onExit "make" none
  sessionTarget := "main"
  wakeMode := .now
  payload := .systemEvent

theorem onExit_never_due_watchBuild :
    let s := (JobsState.mk ⟨[], [], ∅⟩ 1000).step (.sample {}) (.add watchBuild {} "")
    (∀ job ∈ s.store.jobs, job.schedule.kind = .onExit →
      hasScheduledNextRunAtMs job.state.nextRunAtMs = false) ∧
    nextWakeAtMs s.store.jobs =
      nextWakeAtMs (s.store.jobs.filter fun job => job.schedule.kind ≠ .onExit) ∧
    ∀ opts now, ∀ job ∈ collectRunnableJobs (.sample {}) opts now s.store.jobs,
      job.schedule.kind ≠ .onExit := by
  have hstart : Lts.Reachable JobsState.Initial
      (Lts.Guarded (fun s e t => s.step (.sample {}) e = t) KeepsUnscheduled)
      ⟨⟨[], [], ∅⟩, 1000⟩ := .start rfl
  exact onExit_never_due (.sample {}) (hstart.next (a := .add watchBuild {} "") ⟨rfl, trivial⟩)

/-- A failed run of an event-driven job puts it on the clock. -/
theorem failed_onExit_job_becomes_due :
    ¬ ∀ (deps : CronDeps) (s : JobsState),
      Lts.Reachable JobsState.Initial (fun s e t => s.step deps e = t) s →
      ∀ job ∈ s.store.jobs, job.schedule.kind = .onExit →
        hasScheduledNextRunAtMs job.state.nextRunAtMs = false := by
  intro h
  let result : CronRunResult :=
    { status := .error, error := some "exit 2", startedAt := 1000, endedAt := 2000 }
  let added := (JobsState.mk ⟨[], [], ∅⟩ 1000).step (.sample {}) (.add watchBuild {} "")
  let failed := added.step (.sample {}) (.outcome "build" result true)
  have hstart : Lts.Reachable JobsState.Initial (fun s e t => s.step (.sample {}) e = t)
      ⟨⟨[], [], ∅⟩, 1000⟩ := .start rfl
  have hadded : Lts.Reachable JobsState.Initial (fun s e t => s.step (.sample {}) e = t) added :=
    hstart.next (a := .add watchBuild {} "") rfl
  have hreach : Lts.Reachable JobsState.Initial (fun s e t => s.step (.sample {}) e = t) failed :=
    hadded.next (a := .outcome "build" result true) rfl
  have hnot : ¬ ∀ job ∈ failed.store.jobs, job.schedule.kind = .onExit →
      hasScheduledNextRunAtMs job.state.nextRunAtMs = false := by
    decide
  exact hnot (h (.sample {}) failed hreach)

end OpenClaw.Cron
