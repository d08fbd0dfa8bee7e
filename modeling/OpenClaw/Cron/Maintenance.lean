import OpenClaw.Cron.Ops
import OpenClaw.Lib.Forall2

/-!
# What the maintenance pass does to a job

The pass treats every job on its own: it normalizes the job and then, unless the job is to be
skipped, either leaves it or recomputes its next run. `MaintainsTo` says this for one job,
`maintain_forall₂` for the whole store; every invariant of the store that speaks about single jobs
follows from a lemma about `MaintainsTo`.
-/

namespace OpenClaw.Cron

variable {deps : CronDeps}

/-! ## Recomputing -/

section Recompute

variable (deps) (job : CronJob) (now : Int)

theorem recompute_eq :
    ∃ enabled next count error, (recomputeJobNextRunAtMs deps job now).1 =
      { job with
        enabled := enabled
        state := { job.state with
          nextRunAtMs := next, scheduleErrorCount := count, lastError := error } } := by
  unfold recomputeJobNextRunAtMs
  cases computeJobNextRunAtMs deps job now with
  | error err => exact ⟨_, none, _, _, rfl⟩
  | ok next => exact ⟨job.enabled, _, _, job.state.lastError, rfl⟩

@[simp] theorem recompute_id : (recomputeJobNextRunAtMs deps job now).1.id = job.id := by
  obtain ⟨_, _, _, _, h⟩ := recompute_eq deps job now
  rw [h]

@[simp] theorem recompute_schedule :
    (recomputeJobNextRunAtMs deps job now).1.schedule = job.schedule := by
  obtain ⟨_, _, _, _, h⟩ := recompute_eq deps job now
  rw [h]

@[simp] theorem recompute_running :
    (recomputeJobNextRunAtMs deps job now).1.state.runningAtMs = job.state.runningAtMs := by
  obtain ⟨_, _, _, _, h⟩ := recompute_eq deps job now
  rw [h]

theorem recompute_next (hnone : computeJobNextRunAtMs deps job now = .ok none) :
    (recomputeJobNextRunAtMs deps job now).1.state.nextRunAtMs = none := by
  simp only [recomputeJobNextRunAtMs, hnone, Option.map_none, ite_self]

end Recompute

/-! ## Normalizing -/

section Normalize

variable (job : CronJob) (now : Int)

theorem normalizeEveryAnchor_eq :
    ∃ schedule, normalizeEveryAnchor job = { job with schedule := schedule } ∧
      schedule.kind = job.schedule.kind ∧
      (schedule ≠ job.schedule → job.schedule.kind = .every) := by
  unfold normalizeEveryAnchor
  split
  · rename_i h
    exact ⟨_, rfl, by simp [h, CronSchedule.kind], fun _ => by simp [h, CronSchedule.kind]⟩
  · exact ⟨job.schedule, rfl, rfl, fun h => absurd rfl h⟩

theorem normalize_eq :
    ∃ next running, (normalizeJobTickState job now).job =
      { normalizeEveryAnchor job with
        state := { job.state with nextRunAtMs := next, runningAtMs := running } } ∧
      (next = job.state.nextRunAtMs ∨ next = none) ∧
      (running = job.state.runningAtMs ∨ running = none) := by
  obtain ⟨schedule, hanchor, -, -⟩ := normalizeEveryAnchor_eq job
  simp only [normalizeJobTickState, hanchor]
  split_ifs <;> exact ⟨_, _, rfl, by simp, by simp⟩

@[simp] theorem normalize_id : (normalizeJobTickState job now).job.id = job.id := by
  obtain ⟨_, _, h, -, -⟩ := normalize_eq job now
  obtain ⟨_, hanchor, -, -⟩ := normalizeEveryAnchor_eq job
  rw [h, hanchor]

@[simp] theorem normalize_enabled :
    (normalizeJobTickState job now).job.enabled = job.enabled := by
  obtain ⟨_, _, h, -, -⟩ := normalize_eq job now
  obtain ⟨_, hanchor, -, -⟩ := normalizeEveryAnchor_eq job
  rw [h, hanchor]

@[simp] theorem normalize_kind :
    (normalizeJobTickState job now).job.schedule.kind = job.schedule.kind := by
  obtain ⟨_, _, h, -, -⟩ := normalize_eq job now
  obtain ⟨_, hanchor, hkind, -⟩ := normalizeEveryAnchor_eq job
  rw [h, hanchor, hkind]

theorem normalize_next : (normalizeJobTickState job now).job.state.nextRunAtMs =
    job.state.nextRunAtMs ∨ (normalizeJobTickState job now).job.state.nextRunAtMs = none := by
  obtain ⟨_, _, h, hnext, -⟩ := normalize_eq job now
  rw [h]
  exact hnext

end Normalize

/-! ## The pass -/

/-- What one maintenance pass can make of a job. -/
inductive MaintainsTo (deps : CronDeps) (opts : MaintenanceOpts) (now : Int) (job : CronJob) :
    CronJob → Prop
  | skip : (normalizeJobTickState job now).skip = true →
      MaintainsTo deps opts now job (normalizeJobTickState job now).job
  | maintain (deferred : Bool) : (normalizeJobTickState job now).skip = false →
      MaintainsTo deps opts now job
        (maintainJob deps opts now deferred (normalizeJobTickState job now).job).1

theorem maintainJob_cases (deps : CronDeps) (opts : MaintenanceOpts) (now : Int) (deferred : Bool)
    (job : CronJob) :
    (maintainJob deps opts now deferred job).1 = job ∨
      (maintainJob deps opts now deferred job).1 = (recomputeJobNextRunAtMs deps job now).1 := by
  unfold maintainJob
  split
  · exact Or.inr rfl
  · split_ifs
    · exact Or.inr rfl
    · exact Or.inr rfl
    · exact Or.inl rfl

theorem walk_forall₂ (opts : MaintenanceOpts) (now : Int) (deferralIds : Finset String)
    (jobs : List CronJob) :
    List.Forall₂ (MaintainsTo deps opts now) jobs
      (walkSchedulableJobs deps opts now deferralIds jobs).jobs := by
  induction jobs generalizing deferralIds with
  | nil => exact .nil
  | cons job jobs ih =>
    unfold walkSchedulableJobs
    by_cases hskip : (normalizeJobTickState job now).skip
    · simp only [hskip, if_true]
      exact .cons (.skip hskip) (ih _)
    · simp only [hskip]
      exact .cons (.maintain _ (by simpa using hskip)) (ih _)

/-- **The pass treats every job on its own.** -/
theorem CronStore.maintain_forall₂ (s : CronStore) (opts : MaintenanceOpts) (now : Int) :
    List.Forall₂ (MaintainsTo deps opts now) s.jobs (s.maintain deps opts now).1.jobs :=
  walk_forall₂ opts now _ s.jobs

variable {opts : MaintenanceOpts} {now : Int}

theorem CronStore.forall_maintain {P : CronJob → Prop} {s : CronStore} (h : ∀ job ∈ s.jobs, P job)
    (hstep : ∀ job job', P job → MaintainsTo deps opts now job job' → P job') :
    ∀ job ∈ (s.maintain deps opts now).1.jobs, P job := by
  intro job' hmem
  obtain ⟨job, hjob, hto⟩ := (s.maintain_forall₂ opts now).exists_left hmem
  exact hstep job job' (h job hjob) hto

theorem MaintainsTo.id_eq {job job' : CronJob} (h : MaintainsTo deps opts now job job') :
    job'.id = job.id := by
  cases h with
  | skip => exact normalize_id ..
  | maintain deferred =>
    rcases maintainJob_cases deps opts now deferred (normalizeJobTickState job now).job with h | h
    · rw [h, normalize_id]
    · rw [h, recompute_id, normalize_id]

theorem CronStore.maintain_ids (s : CronStore) (opts : MaintenanceOpts) (now : Int) :
    (s.maintain deps opts now).1.jobs.map (·.id) = s.jobs.map (·.id) := by
  refine List.Forall₂.map_eq ?_
  exact (s.maintain_forall₂ opts now).imp fun _ _ hto => hto.id_eq

end OpenClaw.Cron
