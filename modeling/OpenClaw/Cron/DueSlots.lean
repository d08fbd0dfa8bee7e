import OpenClaw.Cron.Maintenance
import OpenClaw.Lib.Lts

/-!
# Due slots are not skipped

A job is due when it is enabled, its next run has come, it has not been run since and no error
backoff holds it back. The maintenance pass leaves such a job's slot alone under every option, and
from that no store operation skips it: it stays due until a run is finalized for it.

The operations that move the slot on request are left out of the law: an update or a converging
declaration that changes the scheduling inputs, an update that writes the runtime state itself, and
the removal of the job. So are event-driven jobs, which have no slot of their own.

**Theorem (`due_slot_stays_due`).** The pass keeps every due slot, and so does every such run.
-/

namespace OpenClaw.Cron

variable {deps : CronDeps}

/-! ## Due slots -/

/-- The job is to run at `slot`, which has come. -/
structure DueSlot (deps : CronDeps) (job : CronJob) (slot now : Int) : Prop where
  enabled : isJobEnabled job = true
  next : job.state.nextRunAtMs = some slot
  scheduled : 0 < slot
  arrived : slot ≤ now
  idle : job.state.runningAtMs = none
  notRun : ∀ lastRun, job.state.lastRunAtMs = some lastRun → lastRun < slot
  noBackoff : ∀ backoffUntilMs, resolveJobErrorBackoffUntilMs deps job = some backoffUntilMs →
    backoffUntilMs ≤ now

/-- A job with an identity of its schedule: every schedule the clock drives. -/
def TimeDriven (job : CronJob) : Prop := (tryCronScheduleIdentity job).isSome = true

namespace DueSlot

variable {job job' : CronJob} {slot now : Int}

section

variable (h : DueSlot deps job slot now)
include h

theorem of_state_eq (henabled : job'.enabled = job.enabled) (hstate : job'.state = job.state) :
    DueSlot deps job' slot now where
  enabled := henabled.trans h.enabled
  next := hstate ▸ h.next
  scheduled := h.scheduled
  arrived := h.arrived
  idle := hstate ▸ h.idle
  notRun := hstate ▸ h.notRun
  noBackoff := by
    have hbackoff : resolveJobErrorBackoffUntilMs deps job' =
        resolveJobErrorBackoffUntilMs deps job := by
      unfold resolveJobErrorBackoffUntilMs CronJob.lastRunStatus
      rw [hstate]
    exact hbackoff ▸ h.noBackoff

theorem later {t : Int} (ht : now ≤ t) : DueSlot deps job slot t where
  enabled := h.enabled
  next := h.next
  scheduled := h.scheduled
  arrived := h.arrived.trans ht
  idle := h.idle
  notRun := h.notRun
  noBackoff := fun backoffUntilMs hbackoff => (h.noBackoff backoffUntilMs hbackoff).trans ht

theorem filter_next : job.state.nextRunAtMs.filter (0 < ·) = some slot := by
  simp [h.next, h.scheduled]

theorem hasScheduledNextRunAtMs : hasScheduledNextRunAtMs job.state.nextRunAtMs = true := by
  simp [Cron.hasScheduledNextRunAtMs, h.next, h.scheduled]

theorem normalizeEveryAnchor : DueSlot deps (normalizeEveryAnchor job) slot now := by
  obtain ⟨schedule, hanchor, -, -⟩ := normalizeEveryAnchor_eq job
  rw [hanchor]
  exact h.of_state_eq rfl rfl

theorem normalize_eq : normalizeJobTickState job now =
      ⟨Cron.normalizeEveryAnchor job, Cron.normalizeEveryAnchor job ≠ job, false⟩ := by
  have hanchor := h.normalizeEveryAnchor
  simp only [normalizeJobTickState, hanchor.enabled, hanchor.hasScheduledNextRunAtMs, hanchor.idle,
    Bool.not_true, Bool.false_eq_true, if_true, if_false, Option.any_none]

theorem not_repaired : shouldRepairFutureCronNextRunAtMs deps job now = false := by
  simp [shouldRepairFutureCronNextRunAtMs, h.filter_next, h.arrived]

theorem not_executed : alreadyExecutedSlot job = false := by
  simp only [alreadyExecutedSlot, h.filter_next, Option.any_some]
  cases hlast : job.state.lastRunAtMs with
  | none => rfl
  | some lastRun => simpa using h.notRun lastRun hlast

theorem not_stale : isStaleBackoffSlot deps job slot now = false := by
  unfold isStaleBackoffSlot
  cases hbackoff : resolveJobErrorBackoffUntilMs deps job with
  | none => rfl
  | some backoffUntilMs =>
    have hle := h.noBackoff backoffUntilMs hbackoff
    simp [Int.not_lt.2 hle]

theorem maintainJob_eq (opts : MaintenanceOpts) (deferred : Bool) :
    maintainJob deps opts now deferred job = (job, false) := by
  simp [maintainJob, h.filter_next, h.not_repaired, h.not_executed, h.not_stale]

/-- **The pass leaves a due job alone**, up to its anchor. -/
theorem maintainsTo_eq {opts : MaintenanceOpts} (hto : MaintainsTo deps opts now job job') :
    job' = Cron.normalizeEveryAnchor job := by
  cases hto with
  | skip hskip =>
    rw [h.normalize_eq] at hskip
    cases hskip
  | maintain deferred => rw [h.normalize_eq, h.normalizeEveryAnchor.maintainJob_eq]

end

end DueSlot

variable {job : CronJob}

theorem timeDriven_normalizeEveryAnchor (h : TimeDriven job) :
    TimeDriven (normalizeEveryAnchor job) := by
  unfold normalizeEveryAnchor
  split
  · rfl
  · exact h

variable {now : Int}

variable {nextJob : CronJob} {scheduleChanged : Bool}

theorem timeDriven_anchoredJob (h : TimeDriven nextJob) :
    TimeDriven (anchoredJob job nextJob now scheduleChanged) := by
  unfold anchoredJob finalizeAnchor
  split
  · rfl
  · exact h

/-! ## The pass reports what it changes -/

theorem recompute_unchanged (h : (recomputeJobNextRunAtMs deps job now).2 = false) :
    (recomputeJobNextRunAtMs deps job now).1 = job := by
  unfold recomputeJobNextRunAtMs at h ⊢
  cases hnatural : computeJobNextRunAtMs deps job now with
  | error err =>
    rw [hnatural] at h
    cases h
  | ok natural =>
    simp only [hnatural, Bool.or_eq_false_iff, decide_eq_false_iff_not, not_not] at h ⊢
    obtain ⟨hnext, herrors⟩ := h
    simp only [herrors, ← hnext, Bool.false_eq_true, if_false]

variable {opts : MaintenanceOpts}

theorem maintainJob_unchanged {deferred : Bool}
    (h : (maintainJob deps opts now deferred job).2 = false) :
    (maintainJob deps opts now deferred job).1 = job := by
  unfold maintainJob at h ⊢
  split at h
  · exact recompute_unchanged h
  · split_ifs at h ⊢
    · exact recompute_unchanged h
    · exact recompute_unchanged h
    · rfl

theorem normalize_unchanged (h : (normalizeJobTickState job now).changed = false) :
    (normalizeJobTickState job now).job = job := by
  simp only [normalizeJobTickState] at h ⊢
  split_ifs at h ⊢ <;> simpa using h

/-- **A pass that reports no change made none.** -/
theorem walk_unchanged {deferralIds : Finset String} {jobs : List CronJob}
    (h : (walkSchedulableJobs deps opts now deferralIds jobs).changed = false) :
    (walkSchedulableJobs deps opts now deferralIds jobs).jobs = jobs := by
  induction jobs generalizing deferralIds with
  | nil => rfl
  | cons job jobs ih =>
    unfold walkSchedulableJobs at h ⊢
    by_cases hskip : (normalizeJobTickState job now).skip
    · simp only [hskip, if_true, Bool.or_eq_false_iff] at h ⊢
      rw [normalize_unchanged h.1, ih h.2]
    · simp only [hskip, Bool.false_eq_true, if_false, Bool.or_eq_false_iff] at h ⊢
      obtain ⟨⟨⟨htick, -⟩, hjob⟩, hrest⟩ := h
      rw [ih hrest, maintainJob_unchanged hjob, normalize_unchanged htick]

theorem CronStore.maintain_unchanged {s : CronStore} (h : (s.maintain deps opts now).2 = false) :
    (s.maintain deps opts now).1.jobs = s.jobs :=
  walk_unchanged h

/-! ## The only job with its id -/

/-- `job` is in the list, and no other job there has its id. -/
def Sole (jobs : List CronJob) (job : CronJob) : Prop :=
  job ∈ jobs ∧ ∀ entry ∈ jobs, entry.id = job.id → entry = job

namespace Sole

variable {jobs jobs' : List CronJob} {s : CronStore} {job job' : CronJob}

theorem of_nodup (h : (jobs.map (·.id)).Nodup) (hjob : job ∈ jobs) : Sole jobs job :=
  ⟨hjob, fun _ hentry hid => List.inj_on_of_nodup_map h hentry hjob hid⟩

theorem find_eq (h : Sole s.jobs job) : s.find job.id = some job := by
  cases hfind : s.find job.id with
  | none => simpa using List.find?_eq_none.1 hfind job h.1
  | some entry =>
    obtain ⟨hentry, hid⟩ := CronStore.mem_of_find hfind
    rw [h.2 entry hentry hid]

theorem forall₂ {R : CronJob → CronJob → Prop} (h : Sole jobs job)
    (hlists : List.Forall₂ R jobs jobs') (hid : ∀ a b, R a b → b.id = a.id)
    (hjob : ∀ b, R job b → b = job') : Sole jobs' job' := by
  obtain ⟨b, hb, hR⟩ := hlists.flip.exists_left h.1
  obtain rfl := hjob b hR
  refine ⟨hb, fun entry hentry heq => ?_⟩
  obtain ⟨a, ha, haR⟩ := hlists.exists_left hentry
  obtain rfl := h.2 a ha (by rw [← hid a entry haR, heq, hid job b hR])
  exact hjob entry haR

theorem replace (h : Sole s.jobs job) (hid : job'.id = job.id) : Sole (s.replace job').jobs job' := by
  refine ⟨List.mem_map.2 ⟨job, h.1, if_pos hid.symm⟩, fun entry hentry heq => ?_⟩
  obtain ⟨old, hold, rfl⟩ := List.mem_map.1 hentry
  split_ifs at heq ⊢ with hsame
  · rfl
  · exact absurd heq hsame

theorem replace_other (h : Sole s.jobs job) (hid : job'.id ≠ job.id) :
    Sole (s.replace job').jobs job := by
  refine ⟨List.mem_map.2 ⟨job, h.1, if_neg (Ne.symm hid)⟩, fun entry hentry heq => ?_⟩
  obtain ⟨old, hold, rfl⟩ := List.mem_map.1 hentry
  split_ifs at heq ⊢
  · exact absurd heq hid
  · exact h.2 old hold heq

theorem erase_other {id : String} (h : Sole s.jobs job) (hid : id ≠ job.id) :
    Sole (s.erase id).jobs job := by
  refine ⟨List.mem_filter.2 ⟨h.1, by simpa using Ne.symm hid⟩, fun entry hentry heq => ?_⟩
  exact h.2 entry (List.mem_of_mem_filter hentry) heq

theorem append (h : Sole jobs job) (hid : job'.id ≠ job.id) : Sole (jobs ++ [job']) job := by
  refine ⟨List.mem_append_left _ h.1, fun entry hentry heq => ?_⟩
  rcases List.mem_append.1 hentry with hentry | hentry
  · exact h.2 entry hentry heq
  · rw [List.mem_singleton.1 hentry] at heq
    exact absurd heq hid

theorem map {f : CronJob → CronJob} (h : Sole jobs job) (hid : ∀ entry, (f entry).id = entry.id)
    (hjob : f job = job) : Sole (jobs.map f) job := by
  have hlists : List.Forall₂ (fun a b => f a = b) jobs (jobs.map f) := by
    rw [List.forall₂_map_right_iff]
    exact List.forall₂_same.2 fun _ _ => rfl
  exact h.forall₂ hlists (fun a b hab => hab ▸ hid a) fun b hb => hb ▸ hjob

theorem maintain {slot now : Int} (h : Sole s.jobs job) (hdue : DueSlot deps job slot now) :
    Sole (s.maintain deps opts now).1.jobs (normalizeEveryAnchor job) :=
  h.forall₂ (s.maintain_forall₂ opts now) (fun _ _ hto => hto.id_eq) fun _ hto =>
    hdue.maintainsTo_eq hto

end Sole

/-! ## Runs of the store operations -/

/-- `read` is `list`, `listPage`, `status` and `readJob`; `finalize` ends the runs of a tick. -/
inductive StoreEvent
  | read
  | add (input : CronJobCreate) (opts : CronAddOptions) (freshId : String)
  | update (id : String) (patch : CronJobPatch)
  | remove (id : String)
  | emptyTick
  | finalize (outcomes : List (String × CronRunResult))
  | clock (now : Int)

/-- A request that throws changes nothing. -/
def JobsState.stepStore (deps : CronDeps) (s : JobsState) : StoreEvent → JobsState
  | .read => { s with store := s.store.read deps s.now }
  | .add input opts freshId =>
    { s with store := (s.store.add deps input opts freshId s.now).toOption.getD s.store }
  | .update id patch =>
    { s with store := (s.store.update deps id patch s.now).toOption.getD s.store }
  | .remove id => { s with store := s.store.remove deps id s.now }
  | .emptyTick => { s with store := s.store.emptyTick deps s.now }
  | .finalize outcomes =>
    { s with store := s.store.finalizeCompletedResults deps outcomes s.now }
  | .clock now => { s with now := now }

/-- The patch writes none of the state a due slot is read from. -/
structure LeavesSlotAlone (patch : CronJobState) : Prop where
  next : patch.nextRunAtMs = none
  running : patch.runningAtMs = none
  lastRun : patch.lastRunAtMs = none
  lastRunStatus : patch.lastRunStatus = none
  lastStatus : patch.lastStatus = none
  lastDuration : patch.lastDurationMs = none
  consecutiveErrors : patch.consecutiveErrors = none

/-- The steps of a run before a run of the job `id` is finalized: the job stays, its updates keep
its scheduling inputs, an id drawn for a new job is fresh and the clock does not go back. -/
def BeforeOutcome (id : String) (s : JobsState) : StoreEvent → Prop
  | .add _ _ freshId => freshId ≠ id
  | .update id' patch => id' = id →
      ∀ job ∈ s.store.jobs, job.id = id → UpdateKeepsInputs job patch s.now
  | .remove id' => id' ≠ id
  | .finalize outcomes => ∀ outcome ∈ outcomes, outcome.1 ≠ id
  | .clock now => s.now ≤ now
  | .read | .emptyTick => True

/-- The steps that also do not move the slot on request. -/
def KeepsDue (id : String) (s : JobsState) (e : StoreEvent) : Prop :=
  BeforeOutcome id s e ∧
    match e with
    | .add input opts _ => ∀ job, s.store.declared input opts = [job] → job.id = id →
        DeclarationKeepsInputs job input opts s.now
    | .update id' patch => id' = id → LeavesSlotAlone patch.state
    | _ => True

/-! ## One job under an update -/

/-- The flag an identity starts with. -/
def ScheduleIdentity.enabled : ScheduleIdentity → Bool
  | .at enabled _ | .every enabled _ _ | .cron enabled _ _ _ => enabled

theorem enabled_of_inputsEqual {previous next : CronJob}
    (h : cronSchedulingInputsEqual previous next = true) :
    next.enabled = previous.enabled ∧ TimeDriven next := by
  have henabled : ∀ {job identity}, tryCronScheduleIdentity job = some identity →
      job.enabled = identity.enabled := by
    intro job identity hidentity
    unfold tryCronScheduleIdentity at hidentity
    split at hidentity
    · obtain ⟨_, -, rfl⟩ := Option.map_eq_some_iff.1 hidentity
      rfl
    · cases hidentity
      rfl
    · obtain ⟨_, -, rfl⟩ := Option.map_eq_some_iff.1 hidentity
      rfl
    · cases hidentity
  obtain ⟨identity, hprevious, hnext⟩ := (Option.any_eq_true ..).1 h
  rw [decide_eq_true_eq] at hnext
  exact ⟨(henabled hnext).trans (henabled hprevious).symm, by simp [TimeDriven, hnext]⟩

variable {slot : Int}

variable {patch : CronJobPatch}

theorem DueSlot.patched (h : DueSlot deps job slot now) (hstate : LeavesSlotAlone patch.state)
    (henabled : (patchedJob job patch).enabled = job.enabled) :
    DueSlot deps (patchedJob job patch) slot now where
  enabled := henabled.trans h.enabled
  next := by simpa [patchedJob, CronJobState.merge, hstate.next] using h.next
  scheduled := h.scheduled
  arrived := h.arrived
  idle := by simpa [patchedJob, CronJobState.merge, hstate.running] using h.idle
  notRun := by simpa [patchedJob, CronJobState.merge, hstate.lastRun] using h.notRun
  noBackoff := by
    have hbackoff : resolveJobErrorBackoffUntilMs deps (patchedJob job patch) =
        resolveJobErrorBackoffUntilMs deps job := by
      simp [resolveJobErrorBackoffUntilMs, CronJob.lastRunStatus, patchedJob, CronJobState.merge,
        hstate.lastRun, hstate.lastRunStatus, hstate.lastStatus, hstate.lastDuration,
        hstate.consecutiveErrors]
    exact hbackoff ▸ h.noBackoff

@[simp] theorem anchoredJob_id (job nextJob : CronJob) (now : Int) (scheduleChanged : Bool) :
    (anchoredJob job nextJob now scheduleChanged).id = nextJob.id := by
  obtain ⟨_, h, -⟩ := anchoredJob_spec job nextJob now scheduleChanged
  rw [h]

theorem DueSlot.anchored (h : DueSlot deps nextJob slot now) :
    DueSlot deps (anchoredJob job nextJob now scheduleChanged) slot now := by
  obtain ⟨_, hanchored, -⟩ := anchoredJob_spec job nextJob now scheduleChanged
  rw [hanchored]
  exact h.of_state_eq rfl rfl

@[simp] theorem anchoredJob_enabled (job nextJob : CronJob) (now : Int) (scheduleChanged : Bool) :
    (anchoredJob job nextJob now scheduleChanged).enabled = nextJob.enabled := by
  obtain ⟨_, h, -⟩ := anchoredJob_spec job nextJob now scheduleChanged
  rw [h]

theorem DueSlot.updated (h : DueSlot deps job slot now) (htime : TimeDriven job)
    (hinputs : UpdateKeepsInputs job patch now) (hstate : LeavesSlotAlone patch.state) :
    DueSlot deps (anchoredJob job (patchedJob job patch) now patch.schedule.isSome) slot now ∧
      TimeDriven (anchoredJob job (patchedJob job patch) now patch.schedule.isSome) := by
  cases hreq : patch.schedulingInputsRequested with
  | true =>
    obtain ⟨henabled, hdriven⟩ := enabled_of_inputsEqual (hinputs hreq)
    rw [anchoredJob_enabled] at henabled
    exact ⟨(h.patched hstate henabled).anchored, hdriven⟩
  | false =>
    simp only [CronJobPatch.schedulingInputsRequested, Bool.or_eq_false_iff,
      Option.isSome_eq_false_iff, Option.isNone_iff_eq_none] at hreq
    obtain ⟨⟨hschedule, henabled⟩, -⟩ := hreq
    refine ⟨(h.patched hstate (by simp [patchedJob, henabled])).anchored, ?_⟩
    refine timeDriven_anchoredJob ?_
    have hidentity : tryCronScheduleIdentity (patchedJob job patch) =
        tryCronScheduleIdentity job := by
      simp [tryCronScheduleIdentity, patchedJob, hschedule, henabled]
    rwa [TimeDriven, hidentity]

/-! ## The invariant -/

/-- What every step keeps: in memory and on disk the job is the same one, and due. -/
def StaysDue (deps : CronDeps) (id : String) (slot : Int) (s : CronStore) (now : Int) : Prop :=
  ∃ job, job.id = id ∧ Sole s.jobs job ∧ Sole s.persisted job ∧ DueSlot deps job slot now ∧
    TimeDriven job

namespace StaysDue

variable {s t : CronStore} {id : String} {slot now : Int}

variable {job : CronJob}

theorem of_persist (hid : job.id = id) (hsole : Sole s.jobs job)
    (hdue : DueSlot deps job slot now) (htime : TimeDriven job) :
    StaysDue deps id slot s.persist now := ⟨job, hid, hsole, hsole, hdue, htime⟩

theorem maintain_persist (hid : job.id = id) (hsole : Sole s.jobs job)
    (hdue : DueSlot deps job slot now) (htime : TimeDriven job) :
    StaysDue deps id slot (s.maintain deps opts now).1.persist now := by
  have hanchor : (normalizeEveryAnchor job).id = id := by
    obtain ⟨schedule, h, -, -⟩ := normalizeEveryAnchor_eq job
    rw [h]
    exact hid
  exact of_persist hanchor (hsole.maintain hdue) hdue.normalizeEveryAnchor
    (timeDriven_normalizeEveryAnchor htime)

theorem maintainAndPersist (h : StaysDue deps id slot s now) (opts : MaintenanceOpts) :
    StaysDue deps id slot (s.maintainAndPersist deps opts now) now := by
  obtain ⟨job, hid, hsole, hdisk, hdue, htime⟩ := h
  unfold CronStore.maintainAndPersist
  cases hchanged : (s.maintain deps opts now).2 with
  | true =>
    simp only [hchanged, if_true]
    exact maintain_persist hid hsole hdue htime
  | false =>
    simp only [hchanged, Bool.false_eq_true, if_false]
    refine ⟨job, hid, ?_, hdisk, hdue, htime⟩
    rw [CronStore.maintain_unchanged hchanged]
    exact hsole

theorem reload (h : StaysDue deps id slot s now) : StaysDue deps id slot s.reload now := by
  obtain ⟨job, hid, hsole, hdisk, hdue, htime⟩ := h
  refine ⟨job, hid, ?_, hdisk, hdue, htime⟩
  refine hdisk.map (fun entry => ?_) ?_
  · unfold CronStore.invalidateStaleNextRun
    split
    · split <;> rfl
    · rfl
  · have hequal : cronSchedulingInputsEqual job job = true := by
      obtain ⟨identity, hidentity⟩ := Option.isSome_iff_exists.1 htime
      simp [cronSchedulingInputsEqual, hidentity]
    simp only [CronStore.invalidateStaleNextRun, hsole.find_eq, hequal, if_true]

theorem replace {nextJob job' : CronJob} {requested : Bool} (hid : job.id = id)
    (hsole : Sole s.jobs job) (hnext : nextJob.id = job.id) (hdue : DueSlot deps nextJob slot now)
    (htime : TimeDriven nextJob)
    (hequal : requested = true → cronSchedulingInputsEqual job nextJob = true)
    (hto : FinalizesTo deps job nextJob now requested job') :
    StaysDue deps id slot (s.replace job').persist now := by
  cases hto with
  | rescheduled hreq hne =>
    rw [hequal hreq] at hne
    cases hne
  | disabled hreq hne =>
    rw [hequal hreq] at hne
    cases hne
  | filledIn _ _ hunset =>
    rw [hdue.hasScheduledNextRunAtMs] at hunset
    cases hunset
  | kept => exact of_persist (hnext.trans hid) (hsole.replace hnext) hdue htime

variable {id' : String}

section

variable (h : StaysDue deps id slot s now)
include h

theorem update {patch : CronJobPatch}
    (hinputs : id' = id → ∀ job ∈ s.jobs, job.id = id → UpdateKeepsInputs job patch now)
    (hstate : id' = id → LeavesSlotAlone patch.state) (ht : s.update deps id' patch now = .ok t) :
    StaysDue deps id slot t now := by
  obtain ⟨job, hid, hsole, hdisk, hdue, htime⟩ := h
  obtain ⟨target, job', hfind, hto, rfl⟩ := CronStore.update_eq_ok ht
  obtain ⟨htarget, htargetId⟩ := CronStore.mem_of_find hfind
  have hid' : job'.id = target.id := by
    rw [hto.id_eq, anchoredJob_id]
    rfl
  by_cases hsame : id' = id
  · obtain rfl : target = job := hsole.2 target htarget (by rw [htargetId, hsame, hid])
    have hkeeps := hinputs hsame target htarget hid
    obtain ⟨hdue', htime'⟩ := hdue.updated htime hkeeps (hstate hsame)
    refine replace hid hsole ?_ hdue' htime' hkeeps hto
    rw [anchoredJob_id]
    rfl
  · have hother : job'.id ≠ job.id := by
      rw [hid', htargetId, hid]
      exact hsame
    exact of_persist hid (hsole.replace_other hother) hdue htime

theorem add {input : CronJobCreate} {opts : CronAddOptions} {freshId : String}
    (hfresh : freshId ≠ id) (hinputs : ∀ job, s.declared input opts = [job] → job.id = id →
      DeclarationKeepsInputs job input opts now) (ht : s.add deps input opts freshId now = .ok t) :
    StaysDue deps id slot t now := by
  cases CronStore.addsTo_of_eq_ok ht with
  | unchanged => exact h
  | converged hdecl hto =>
    rename_i target job'
    obtain ⟨job, hid, hsole, hdisk, hdue, htime⟩ := h
    have htarget : target ∈ s.jobs :=
      CronStore.mem_of_mem_declared (hdecl ▸ List.mem_singleton_self target)
    have hid' : job'.id = target.id := by
      rw [hto.id_eq, anchoredJob_id]
      rfl
    by_cases hsame : target.id = id
    · obtain rfl : target = job := hsole.2 target htarget (hsame.trans hid.symm)
      have hkeeps := hinputs target hdecl hid
      obtain ⟨henabled, hdriven⟩ := enabled_of_inputsEqual hkeeps
      refine replace hid hsole ?_ (DueSlot.of_state_eq hdue henabled ?_) hdriven
        (fun _ => hkeeps) hto
      · rw [anchoredJob_id]
        rfl
      · obtain ⟨_, hanchored, -⟩ := anchoredJob_spec target
          (declaredJob target input opts.enabledExplicit now) now
          (target.schedule ≠ (declaredJob target input opts.enabledExplicit now).schedule)
        rw [hanchored]
        rfl
    · have hother : job'.id ≠ job.id := by
        rw [hid', hid]
        exact hsame
      exact of_persist hid (hsole.replace_other hother) hdue htime
  | created _ hjob hfree =>
    obtain ⟨job, hid, hsole, hdisk, hdue, htime⟩ := h
    obtain ⟨_, -, rfl⟩ := createJob_eq_ok hjob
    refine maintain_persist hid (hsole.append ?_) hdue htime
    show (normalizeOptionalString input.id).getD freshId ≠ job.id
    cases hreserved : normalizeOptionalString input.id with
    | none =>
      rw [hid]
      exact hfresh
    | some reserved => exact Ne.symm (hfree reserved hreserved job hsole.1)

theorem remove (hid' : id' ≠ id) : StaysDue deps id slot (s.remove deps id' now) now := by
  obtain ⟨job, hid, hsole, -, hdue, htime⟩ := h
  refine maintain_persist hid (hsole.erase_other ?_) hdue htime
  rw [hid]
  exact hid'

theorem applyOutcomeToStoredJob {result : CronRunResult} (hid' : id' ≠ id) :
    StaysDue deps id slot (s.applyOutcomeToStoredJob deps id' result) now := by
  obtain ⟨job, hid, hsole, hdisk, hdue, htime⟩ := h
  unfold CronStore.applyOutcomeToStoredJob CronStore.applyOutcome
  cases hfind : s.find id' with
  | none => exact ⟨job, hid, hsole, hdisk, hdue, htime⟩
  | some target =>
    obtain ⟨-, htarget⟩ := CronStore.mem_of_find hfind
    dsimp only
    split_ifs
    · exact ⟨job, hid, hsole.erase_other (by rwa [hid]), hdisk, hdue, htime⟩
    · refine ⟨job, hid, hsole.replace_other ?_, hdisk, hdue, htime⟩
      rwa [applyOutcomeToJob_id, htarget, hid]

end

variable {outcomes : List (String × CronRunResult)}

theorem applyOutcomes (h : StaysDue deps id slot s now)
    (hids : ∀ outcome ∈ outcomes, outcome.1 ≠ id) : StaysDue deps id slot
      (outcomes.foldl (fun s outcome => s.applyOutcomeToStoredJob deps outcome.1 outcome.2) s)
      now := by
  induction outcomes generalizing s with
  | nil => exact h
  | cons outcome outcomes ih =>
    obtain ⟨hid, hids⟩ := List.forall_mem_cons.1 hids
    exact ih (h.applyOutcomeToStoredJob hid) hids

theorem finalizeCompletedResults (h : StaysDue deps id slot s now)
    (hids : ∀ outcome ∈ outcomes, outcome.1 ≠ id) :
    StaysDue deps id slot (s.finalizeCompletedResults deps outcomes now) now := by
  unfold CronStore.finalizeCompletedResults
  split_ifs
  · exact h.reload
  · obtain ⟨job, hid, hsole, -, hdue, htime⟩ := h.reload.applyOutcomes hids
    exact maintain_persist hid hsole hdue htime

end StaysDue

/-! ## Every run -/

/-- A store as it is read from or written to disk, with a due job. -/
def DueAtStart (deps : CronDeps) (id : String) (slot : Int) (s : JobsState) : Prop :=
  s.store.persisted = s.store.jobs ∧ (s.store.jobs.map (·.id)).Nodup ∧
    ∃ job ∈ s.store.jobs, job.id = id ∧ DueSlot deps job slot s.now ∧ TimeDriven job

variable {id : String} {s : JobsState}

theorem staysDue_start (h : DueAtStart deps id slot s) : StaysDue deps id slot s.store s.now := by
  obtain ⟨hloaded, hnodup, job, hmem, hid, hdue, htime⟩ := h
  have hsole := Sole.of_nodup hnodup hmem
  exact ⟨job, hid, hsole, hloaded ▸ hsole, hdue, htime⟩

theorem staysDue_step {e : StoreEvent} (h : StaysDue deps id slot s.store s.now)
    (hkeep : KeepsDue id s e) :
    StaysDue deps id slot (s.stepStore deps e).store (s.stepStore deps e).now := by
  obtain ⟨hbefore, hrequest⟩ := hkeep
  cases e with
  | read => exact h.maintainAndPersist {}
  | add input opts freshId =>
    cases hadd : s.store.add deps input opts freshId s.now with
    | error => simpa [JobsState.stepStore, hadd, Except.toOption] using h
    | ok t => simpa [JobsState.stepStore, hadd, Except.toOption] using h.add hbefore hrequest hadd
  | update id' patch =>
    cases hupdate : s.store.update deps id' patch s.now with
    | error => simpa [JobsState.stepStore, hupdate, Except.toOption] using h
    | ok t =>
      simpa [JobsState.stepStore, hupdate, Except.toOption] using
        h.update hbefore hrequest hupdate
  | remove id' => exact h.remove hbefore
  | emptyTick => exact h.reload.maintainAndPersist { recomputeExpired := true }
  | finalize outcomes => exact h.finalizeCompletedResults hbefore
  | clock now =>
    obtain ⟨job, hid, hsole, hdisk, hdue, htime⟩ := h
    exact ⟨job, hid, hsole, hdisk, hdue.later hbefore, htime⟩

/-- **Due slots are not skipped.** The maintenance pass keeps every due slot; and in every run that
does not move the slot on request, the job stays due. -/
theorem due_slot_stays_due (deps : CronDeps) :
    (∀ (opts : MaintenanceOpts) (now : Int) (deferralIds : Finset String) (jobs : List CronJob),
      List.Forall₂ (fun job job' => job'.id = job.id ∧ ∀ slot, DueSlot deps job slot now →
          job'.state.nextRunAtMs = some slot ∧ DueSlot deps job' slot now)
        jobs (recomputeNextRunsForMaintenance deps opts now deferralIds jobs).jobs) ∧
    ∀ (id : String) (slot : Int) (s : JobsState),
      Lts.Reachable (DueAtStart deps id slot)
        (Lts.Guarded (fun s e t => s.stepStore deps e = t) (KeepsDue id)) s →
      ∃ job, s.store.find id = some job ∧ job.state.nextRunAtMs = some slot ∧
        DueSlot deps job slot s.now := by
  refine ⟨fun opts now deferralIds jobs => ?_, fun id slot s hs => ?_⟩
  · refine (walk_forall₂ opts now _ jobs).imp fun job job' hto => ⟨hto.id_eq, fun slot hdue => ?_⟩
    have hdue' : DueSlot deps job' slot now := by
      rw [hdue.maintainsTo_eq hto]
      exact hdue.normalizeEveryAnchor
    exact ⟨hdue'.next, hdue'⟩
  · have h : StaysDue deps id slot s.store s.now := by
      refine hs.invariant (I := fun s => StaysDue deps id slot s.store s.now)
        (fun _ => staysDue_start) ?_
      rintro s e _ h ⟨rfl, hkeep⟩
      exact staysDue_step h hkeep
    obtain ⟨job, rfl, hsole, -, hdue, -⟩ := h
    exact ⟨job, hsole.find_eq, hdue.next, hdue⟩

/-- A job that runs every minute and is due at the first. -/
def digestJob : CronJob where
  id := "digest"
  declarationKey := some "digest"
  createdAtMs := 0
  updatedAtMs := 0
  schedule := .every 60000 (some 0)
  sessionTarget := "main"
  wakeMode := .now
  payload := .systemEvent
  state := { nextRunAtMs := some 60000 }

/-- The same declaration, with an interval of its own. -/
def digestDeclaration (everyMs : Int) : CronJobCreate where
  declarationKey := some "digest"
  schedule := .every everyMs none
  sessionTarget := "main"
  wakeMode := .now
  payload := .systemEvent

def digestState : JobsState := ⟨⟨[digestJob], [digestJob], ∅⟩, 61000⟩

theorem dueAtStart_digestState (cfg : CronConfig) :
    DueAtStart (.sample cfg) "digest" 60000 digestState := by
  refine ⟨rfl, by decide, digestJob, List.mem_singleton_self _, rfl, ?_, rfl⟩
  constructor
  · rfl
  · rfl
  · decide
  · decide
  · rfl
  · intro lastRun h
    cases h
  · intro backoffUntilMs h
    cases h

/-- Declaring the job again as it is, listing it and an empty tick leave it due. -/
theorem due_slot_stays_due_digest :
    ∃ job, ((((digestState.stepStore (.sample {}) (.add (digestDeclaration 60000) {} "new")).stepStore
        (.sample {}) .read).stepStore (.sample {}) .emptyTick).store.find "digest") = some job ∧
      job.state.nextRunAtMs = some 60000 ∧ DueSlot (.sample {}) job 60000 61000 := by
  have hstart : Lts.Reachable (DueAtStart (.sample {}) "digest" 60000)
      (Lts.Guarded (fun s e t => s.stepStore (.sample {}) e = t) (KeepsDue "digest"))
      digestState := .start (dueAtStart_digestState {})
  have hkeep : KeepsDue "digest" digestState (.add (digestDeclaration 60000) {} "new") := by
    refine ⟨show "new" ≠ "digest" by decide, fun job hdecl _ => ?_⟩
    have hjob : digestState.store.declared (digestDeclaration 60000) {} = [digestJob] := by decide
    cases hdecl
    unfold DeclarationKeepsInputs
    decide
  have hdeclared := hstart.next (a := .add (digestDeclaration 60000) {} "new") ⟨rfl, hkeep⟩
  have hread := hdeclared.next (a := StoreEvent.read) ⟨rfl, ⟨trivial, trivial⟩⟩
  have htick := hread.next (a := StoreEvent.emptyTick) ⟨rfl, ⟨trivial, trivial⟩⟩
  exact (due_slot_stays_due (.sample {})).2 "digest" 60000 _ htick

/-- Declaring the job with another interval gives up its due slot. -/
theorem declaration_moves_due_slot :
    ¬ ∀ (deps : CronDeps) (id : String) (slot : Int) (s : JobsState),
      Lts.Reachable (DueAtStart deps id slot)
        (Lts.Guarded (fun s e t => s.stepStore deps e = t) (BeforeOutcome id)) s →
      ∃ job, s.store.find id = some job ∧ job.state.nextRunAtMs = some slot := by
  intro h
  have hstart : Lts.Reachable (DueAtStart (.sample {}) "digest" 60000)
      (Lts.Guarded (fun s e t => s.stepStore (.sample {}) e = t) (BeforeOutcome "digest"))
      digestState := .start (dueAtStart_digestState {})
  have hfresh : BeforeOutcome "digest" digestState (.add (digestDeclaration 120000) {} "new") :=
    show "new" ≠ "digest" by decide
  have hdeclared := hstart.next (a := .add (digestDeclaration 120000) {} "new") ⟨rfl, hfresh⟩
  obtain ⟨job, hfind, hnext⟩ := h _ _ _ _ hdeclared
  have hmoved : (digestState.stepStore (.sample {})
      (.add (digestDeclaration 120000) {} "new")).store.find "digest" =
        some job → job.state.nextRunAtMs ≠ some 60000 := by
    intro hjob
    have hother : ((digestState.stepStore (.sample {})
        (.add (digestDeclaration 120000) {} "new")).store.find "digest").all
          (·.state.nextRunAtMs ≠ some 60000) = true := by decide
    rw [hjob] at hother
    simpa using hother
  exact hmoved hfind hnext

end OpenClaw.Cron
