import OpenClaw.Cron.Timer

/-!
# `src/cron/service/ops.ts` and `service/store.ts`: the store operations

Each public operation runs under the store lock from its first read to its last write, so it is one
function from store to store. A request that throws leaves the store as it was: the mutation works
on a copy, and a failed write restores the snapshot taken before it.

The store is the in-memory job list, the rows on disk and the catch-up deferral markers. A write
puts the whole list on disk; a forced reload reads it back.
-/

namespace OpenClaw.Cron

variable (deps : CronDeps)

/-! ## Schedule identity -/

/-- What `tryCronScheduleIdentity` serializes: `enabled` and the normalized schedule. -/
inductive ScheduleIdentity
  | «at» (enabled : Bool) (time : String)
  | every (enabled : Bool) (everyMs : Int) (anchorMs : Option Int)
  | cron (enabled : Bool) (expr : String) (tz : Option String) (staggerMs : Option Int)
  deriving DecidableEq

/-- `tryCronScheduleIdentity`. An event-driven schedule has no identity. -/
def tryCronScheduleIdentity (job : CronJob) : Option ScheduleIdentity :=
  match job.schedule with
  | .at time => (normalizeOptionalString (some time)).map (.at job.enabled)
  | .every everyMs anchorMs => some (.every job.enabled everyMs anchorMs)
  | .cron expr tz staggerMs =>
    (normalizeOptionalString (some expr)).map fun expr =>
      .cron job.enabled expr (normalizeOptionalString tz) (normalizeCronStaggerMs staggerMs)
  | .onExit .. => none

def cronSchedulingInputsEqual (previous next : CronJob) : Bool :=
  (tryCronScheduleIdentity previous).any fun identity =>
    tryCronScheduleIdentity next = some identity

/-! ## The store -/

structure CronStore where
  jobs : List CronJob
  persisted : List CronJob
  pendingCatchupDeferralJobIds : Finset String

namespace CronStore

def find (s : CronStore) (id : String) : Option CronJob := s.jobs.find? (·.id = id)

def persist (s : CronStore) : CronStore := { s with persisted := s.jobs }

/-- `invalidateStaleNextRunOnScheduleChange`. -/
def invalidateStaleNextRun (s : CronStore) (hydrated : CronJob) : CronJob :=
  match s.find hydrated.id with
  | some previousJob =>
    if cronSchedulingInputsEqual previousJob hydrated then hydrated
    else hydrated.setNextRunAtMs none
  | none => hydrated

/-- `ensureLoaded` with `forceReload`. -/
def reload (s : CronStore) : CronStore :=
  { s with jobs := s.persisted.map s.invalidateStaleNextRun }

/-- `recomputeNextRunsForMaintenance` on the store, and whether it changed anything. -/
def maintain (s : CronStore) (opts : MaintenanceOpts) (now : Int) : CronStore × Bool :=
  let maintained :=
    recomputeNextRunsForMaintenance deps opts now s.pendingCatchupDeferralJobIds s.jobs
  ({ s with jobs := maintained.jobs, pendingCatchupDeferralJobIds := maintained.deferralIds },
    maintained.changed)

/-- Replace the job with the given one's id. -/
def replace (s : CronStore) (job : CronJob) : CronStore :=
  { s with jobs := s.jobs.map fun entry => if entry.id = job.id then job else entry }

def erase (s : CronStore) (id : String) : CronStore :=
  { s with jobs := s.jobs.filter (·.id ≠ id) }

/-- A maintenance pass that is written out if it changed anything. -/
def maintainAndPersist (s : CronStore) (opts : MaintenanceOpts) (now : Int) : CronStore :=
  let (s, changed) := s.maintain deps opts now
  if changed then s.persist else s

/-- `ensureLoadedForRead`: what `list`, `listPage`, `status` and `readJob` do to the store. -/
def read (s : CronStore) (now : Int) : CronStore := s.maintainAndPersist deps {} now

/-- What a tick does to the store when it finds no runnable job. -/
def emptyTick (s : CronStore) (now : Int) : CronStore :=
  s.reload.maintainAndPersist deps { recomputeExpired := true } now

end CronStore

/-! ## Updating a job -/

/-- The anchor `finalizeUpdatedJob` gives an `every` schedule that has none. -/
def finalizeAnchor (job nextJob : CronJob) (now : Int) (scheduleChanged : Bool) : CronJob :=
  match nextJob.schedule with
  | .every everyMs none =>
    let previousAnchorMs := match job.schedule with
      | .every oldEveryMs oldAnchorMs => if oldEveryMs = everyMs then oldAnchorMs else none
      | _ => none
    let fallbackAnchorMs :=
      previousAnchorMs.getD (if scheduleChanged then now else nextJob.createdAtMs)
    { nextJob with schedule := .every everyMs (some (max 0 fallbackAnchorMs)) }
  | _ => nextJob

/-- The job with its anchor and its update time, before its next run is decided. -/
def anchoredJob (job nextJob : CronJob) (now : Int) (scheduleChanged : Bool) : CronJob :=
  { finalizeAnchor job nextJob now scheduleChanged with updatedAtMs := now }

theorem anchoredJob_spec (job nextJob : CronJob) (now : Int) (scheduleChanged : Bool) :
    ∃ schedule, anchoredJob job nextJob now scheduleChanged =
        { nextJob with schedule := schedule, updatedAtMs := now } ∧
      schedule.kind = nextJob.schedule.kind := by
  unfold anchoredJob finalizeAnchor
  split
  · rename_i h
    exact ⟨_, rfl, by simp [h, CronSchedule.kind]⟩
  · exact ⟨nextJob.schedule, rfl, rfl⟩

/-- The last part of `finalizeUpdatedJob`: only changed scheduling inputs, or a missing next run,
make it compute a new one. -/
def finalizeNextRun (job nextJob : CronJob) (now : Int) (schedulingInputsRequested : Bool) :
    Except String CronJob :=
  if schedulingInputsRequested && !cronSchedulingInputsEqual job nextJob then
    if isJobEnabled nextJob then
      nextJob.setNextRunAtMs <$> computeJobNextRunAtMs deps nextJob now
    else .ok ((nextJob.setNextRunAtMs none).setRunningAtMs none)
  else if isJobEnabled nextJob && !hasScheduledNextRunAtMs nextJob.state.nextRunAtMs then
    nextJob.setNextRunAtMs <$> computeJobNextRunAtMs deps nextJob now
  else .ok nextJob

def finalizeUpdatedJob (job nextJob : CronJob) (now : Int)
    (schedulingInputsRequested scheduleChanged : Bool) : Except String CronJob := do
  let nextJob := anchoredJob job nextJob now scheduleChanged
  if scheduleChanged ∧ nextJob.schedule.kind = .cron ∧ !isJobEnabled nextJob then
    let _ ← computeJobNextRunAtMs deps { nextJob with enabled := true } now
  finalizeNextRun deps job nextJob now schedulingInputsRequested

/-- What an update can make of a job, by whether its scheduling inputs changed. -/
inductive FinalizesTo (job nextJob : CronJob) (now : Int) (requested : Bool) : CronJob → Prop
  | rescheduled {next : Option Int} : requested = true →
      cronSchedulingInputsEqual job nextJob = false → isJobEnabled nextJob = true →
      computeJobNextRunAtMs deps nextJob now = .ok next →
      FinalizesTo job nextJob now requested (nextJob.setNextRunAtMs next)
  | disabled : requested = true → cronSchedulingInputsEqual job nextJob = false →
      isJobEnabled nextJob = false →
      FinalizesTo job nextJob now requested ((nextJob.setNextRunAtMs none).setRunningAtMs none)
  | filledIn {next : Option Int} : (requested = true → cronSchedulingInputsEqual job nextJob = true) →
      isJobEnabled nextJob = true → hasScheduledNextRunAtMs nextJob.state.nextRunAtMs = false →
      computeJobNextRunAtMs deps nextJob now = .ok next →
      FinalizesTo job nextJob now requested (nextJob.setNextRunAtMs next)
  | kept : (requested = true → cronSchedulingInputsEqual job nextJob = true) →
      (isJobEnabled nextJob = true → hasScheduledNextRunAtMs nextJob.state.nextRunAtMs = true) →
      FinalizesTo job nextJob now requested nextJob

variable {job nextJob job' : CronJob} {now : Int} {requested : Bool}

variable {deps} in
theorem finalizesTo_of_finalizeNextRun
    (h : finalizeNextRun deps job nextJob now requested = .ok job') :
    FinalizesTo deps job nextJob now requested job' := by
  unfold finalizeNextRun at h
  split_ifs at h with hchanged hen hfill
  · obtain ⟨next, hnext, rfl⟩ := Except.map_eq_ok.1 h
    simp only [Bool.and_eq_true, Bool.not_eq_true'] at hchanged
    exact .rescheduled hchanged.1 hchanged.2 hen hnext
  · cases h
    simp only [Bool.and_eq_true, Bool.not_eq_true'] at hchanged
    exact .disabled hchanged.1 hchanged.2 (Bool.eq_false_iff.2 hen)
  · obtain ⟨next, hnext, rfl⟩ := Except.map_eq_ok.1 h
    simp only [Bool.and_eq_true, Bool.not_eq_true'] at hchanged hfill
    exact .filledIn (by simpa using hchanged) hfill.1 hfill.2 hnext
  · cases h
    exact .kept (by simpa using hchanged) (by simpa using hfill)

variable {deps} in
theorem finalizesTo_of_eq_ok {scheduleChanged : Bool}
    (h : finalizeUpdatedJob deps job nextJob now requested scheduleChanged = .ok job') :
    FinalizesTo deps job (anchoredJob job nextJob now scheduleChanged) now requested job' := by
  unfold finalizeUpdatedJob at h
  dsimp only at h
  split_ifs at h
  · obtain ⟨-, -, h⟩ := Except.bind_eq_ok.1 h
    exact finalizesTo_of_finalizeNextRun h
  · exact finalizesTo_of_finalizeNextRun h

variable {deps} in
theorem FinalizesTo.id_eq (h : FinalizesTo deps job nextJob now requested job') :
    job'.id = nextJob.id := by
  cases h <;> rfl

/-- Whether a patch asks for new scheduling inputs. -/
def CronJobPatch.schedulingInputsRequested (patch : CronJobPatch) : Bool :=
  patch.schedule.isSome || patch.enabled.isSome || patch.trigger.isSome

/-- `updateLoadedJob` up to its write. -/
def updatedJob (job : CronJob) (patch : CronJobPatch) (now : Int) : Except String CronJob := do
  let nextJob ← applyJobPatch deps job patch now
  finalizeUpdatedJob deps job nextJob now patch.schedulingInputsRequested patch.schedule.isSome

/-- `CronAddOptions`. `restUnchanged` says whether the declared fields the model leaves out (the
payload's text, the delivery and the display name) are those of the existing job. -/
structure CronAddOptions where
  matchesExisting : CronJob → Bool := fun _ => true
  enabledExplicit : Bool := false
  restUnchanged : Bool := true

/-- `declarativeFields` of both jobs are equal. -/
def sameDeclaration (opts : CronAddOptions) (existing nextJob : CronJob) : Bool :=
  opts.restUnchanged && existing.schedule = nextJob.schedule &&
    existing.trigger = nextJob.trigger && existing.payload = nextJob.payload &&
    (!opts.enabledExplicit || existing.enabled = nextJob.enabled)

/-- The converging half of `add`: the job the declaration leaves, if it changes anything. -/
def convergedJob (existing : CronJob) (input : CronJobCreate) (opts : CronAddOptions) (now : Int) :
    Except String (Option CronJob) := do
  let nextJob ← applyDeclarativeJobSpec deps existing input opts.enabledExplicit now
  if sameDeclaration opts existing nextJob then return none
  else return some (← finalizeUpdatedJob deps existing nextJob now true
    (existing.schedule ≠ nextJob.schedule))

/-- The update asks for no other scheduling inputs. -/
def UpdateKeepsInputs (job : CronJob) (patch : CronJobPatch) (now : Int) : Prop :=
  patch.schedulingInputsRequested = true →
    cronSchedulingInputsEqual job
      (anchoredJob job (patchedJob job patch) now patch.schedule.isSome) = true

/-- The declaration asks for no other scheduling inputs. -/
def DeclarationKeepsInputs (job : CronJob) (input : CronJobCreate) (opts : CronAddOptions)
    (now : Int) : Prop :=
  let nextJob := declaredJob job input opts.enabledExplicit now
  cronSchedulingInputsEqual job (anchoredJob job nextJob now (job.schedule ≠ nextJob.schedule)) =
    true

namespace CronStore

/-- The jobs an `add` with a declaration key converges on. -/
def declared (s : CronStore) (input : CronJobCreate) (opts : CronAddOptions) : List CronJob :=
  match normalizeOptionalString input.declarationKey with
  | none => []
  | some key => s.jobs.filter fun job => job.declarationKey = some key && opts.matchesExisting job

/-- The creating half of `add`. `freshId` is the UUID drawn for a job without a reserved id. -/
def create (s : CronStore) (input : CronJobCreate) (freshId : String) (now : Int) :
    Except String CronStore :=
  match (normalizeOptionalString input.id).filter fun id => s.jobs.any (·.id = id) with
  | some id => .error s!"cron job already exists: {id}"
  | none => do
    let job ← createJob deps input freshId now
    return ({ s with jobs := s.jobs ++ [job] }.maintain deps {} now).1.persist

def add (s : CronStore) (input : CronJobCreate) (opts : CronAddOptions) (freshId : String)
    (now : Int) : Except String CronStore :=
  if input.id.isSome ∧ normalizeOptionalString input.id = none then
    .error "cron job id must not be blank"
  else match s.declared input opts with
    | [] => s.create deps input freshId now
    | [job] => do
      match ← convergedJob deps job input opts now with
      | some nextJob => return (s.replace nextJob).persist
      | none => return s
    | _ =>
      let key := (normalizeOptionalString input.declarationKey).getD ""
      .error s!"cron declarationKey is ambiguous within caller scope: {key}"

/-- `update` and `updateWithPrecondition`, past the precondition. -/
def update (s : CronStore) (id : String) (patch : CronJobPatch) (now : Int) :
    Except String CronStore := do
  match s.find id with
  | none => throw s!"unknown cron job id: {id}"
  | some job => return (s.replace (← updatedJob deps job patch now)).persist

def remove (s : CronStore) (id : String) (now : Int) : CronStore :=
  ((s.erase id).maintain deps {} now).1.persist

/-- What `add` can do to the store. -/
inductive AddsTo (s : CronStore) (input : CronJobCreate) (opts : CronAddOptions) (freshId : String)
    (now : Int) : CronStore → Prop
  | unchanged : AddsTo s input opts freshId now s
  | converged {job job' : CronJob} : s.declared input opts = [job] →
      FinalizesTo deps job
        (anchoredJob job (declaredJob job input opts.enabledExplicit now) now
          (job.schedule ≠ (declaredJob job input opts.enabledExplicit now).schedule)) now true job' →
      AddsTo s input opts freshId now (s.replace job').persist
  | created {job : CronJob} : s.declared input opts = [] →
      createJob deps input freshId now = .ok job →
      (∀ id, normalizeOptionalString input.id = some id → ∀ entry ∈ s.jobs, entry.id ≠ id) →
      AddsTo s input opts freshId now
        ({ s with jobs := s.jobs ++ [job] }.maintain deps {} now).1.persist

variable {s : CronStore}

variable {input : CronJobCreate} {opts : CronAddOptions}

theorem mem_of_mem_declared (h : job ∈ s.declared input opts) : job ∈ s.jobs := by
  unfold declared at h
  split at h
  · cases h
  · exact List.mem_of_mem_filter h

variable {t : CronStore}

variable {deps} in
theorem addsTo_of_eq_ok {freshId : String} (h : s.add deps input opts freshId now = .ok t) :
    AddsTo deps s input opts freshId now t := by
  unfold add at h
  split_ifs at h
  cases hdecl : s.declared input opts with
  | nil =>
    rw [hdecl] at h
    simp only [create] at h
    split at h
    · cases h
    · rename_i hfree
      obtain ⟨job, hjob, h⟩ := Except.bind_eq_ok.1 h
      rw [← Except.pure_eq_ok.1 h]
      refine .created hdecl hjob fun id hid entry hmem hentry => ?_
      rw [hid] at hfree
      simp only [Option.filter_eq_none_iff, Option.some.injEq, forall_eq', List.any_eq_true,
        decide_eq_true_eq, not_exists, not_and] at hfree
      exact hfree entry hmem hentry
  | cons job rest =>
    cases rest with
    | cons => simp only [hdecl, reduceCtorEq] at h
    | nil =>
      simp only [hdecl, convergedJob] at h
      obtain ⟨converged, hconverged, h⟩ := Except.bind_eq_ok.1 h
      obtain ⟨nextJob, hnext, hconverged⟩ := Except.bind_eq_ok.1 hconverged
      rw [applyDeclarativeJobSpec_eq_ok hnext] at hconverged
      split_ifs at hconverged
      · rw [← Except.pure_eq_ok.1 hconverged] at h
        rw [← Except.pure_eq_ok.1 h]
        exact .unchanged
      · obtain ⟨job', hjob', hconverged⟩ := Except.bind_eq_ok.1 hconverged
        rw [← Except.pure_eq_ok.1 hconverged] at h
        rw [← Except.pure_eq_ok.1 h]
        exact .converged hdecl (finalizesTo_of_eq_ok hjob')

variable {deps} in
theorem update_eq_ok {id : String} {patch : CronJobPatch} (h : s.update deps id patch now = .ok t) :
    ∃ job job', s.find id = some job ∧
      FinalizesTo deps job (anchoredJob job (patchedJob job patch) now patch.schedule.isSome) now
        patch.schedulingInputsRequested job' ∧
      t = (s.replace job').persist := by
  unfold update at h
  cases hfind : s.find id with
  | none =>
    rw [hfind] at h
    cases h
  | some job =>
    rw [hfind] at h
    obtain ⟨job', hjob', h⟩ := Except.bind_eq_ok.1 h
    obtain ⟨nextJob, hnext, hfinal⟩ := Except.bind_eq_ok.1 hjob'
    rw [applyJobPatch_eq_ok hnext] at hfinal
    exact ⟨job, job', rfl, finalizesTo_of_eq_ok hfinal, (Except.pure_eq_ok.1 h).symm⟩

/-- What a finished run does to its stored job, if the job is still there. -/
def applyOutcome (s : CronStore) (id : String) (result : CronRunResult) (preserveSchedule : Bool) :
    CronStore :=
  match s.find id with
  | none => s
  | some job =>
    if outcomeDeletesJob job result then s.erase id
    else s.replace (applyOutcomeToJob deps job result preserveSchedule)

/-- `applyOutcomeToStoredJob`: a scheduled run also ends the job's catch-up deferral. -/
def applyOutcomeToStoredJob (s : CronStore) (id : String) (result : CronRunResult) : CronStore :=
  match s.find id with
  | none => s
  | some _ =>
    { s.applyOutcome deps id result false with
      pendingCatchupDeferralJobIds := s.pendingCatchupDeferralJobIds.erase id }

/-- `finalizeCompletedResults`, on the outcomes it keeps. -/
def finalizeCompletedResults (s : CronStore) (outcomes : List (String × CronRunResult))
    (now : Int) : CronStore :=
  if outcomes = [] then s.reload
  else
    let applied := outcomes.foldl
      (fun s outcome => s.applyOutcomeToStoredJob deps outcome.1 outcome.2) s.reload
    (applied.maintain deps {} now).1.persist

/-! ## Properties of every job -/

section Forall

variable {P : CronJob → Prop} {s : CronStore}

variable {id : String}

theorem mem_of_find (h : s.find id = some job) : job ∈ s.jobs ∧ job.id = id :=
  ⟨List.mem_of_find?_eq_some h, by simpa using List.find?_some h⟩

theorem forall_replace (h : ∀ entry ∈ s.jobs, P entry) (hjob : P job) :
    ∀ entry ∈ (s.replace job).jobs, P entry := by
  intro entry hmem
  obtain ⟨old, hold, rfl⟩ := List.mem_map.1 hmem
  split
  · exact hjob
  · exact h old hold

theorem forall_erase (h : ∀ entry ∈ s.jobs, P entry) : ∀ entry ∈ (s.erase id).jobs, P entry :=
  fun entry hmem => h entry (List.mem_of_mem_filter hmem)

end Forall

end CronStore

/-- The store and the clock. -/
structure JobsState where
  store : CronStore
  now : Int

end OpenClaw.Cron
