import OpenClaw.Cron.MaintenanceRepeat
import OpenClaw.Cron.RetryGate

/-!
# The maintenance pass is stable

**Theorem (`maintenance_stable`).** Let job ids be distinct, and let every next run be computed
without an error, count as scheduled, and, for a job with a deferral marker and no next run, be in
the future (`Computes`). A second pass at the same time leaves every job that the first one did not
skip because of a stuck marker. If it skipped none, the second pass changes nothing. In any case the
third one does not.

A skipped job is looked at by the second pass for the first time (`stuck_marker_takes_two`).

**Proof.** With distinct ids the pass is `settleJob` on every job (`walk_eq`), and what it makes of a
job's deferral marker depends on this job alone.
-/

namespace OpenClaw.Cron

variable {deps : CronDeps} {opts : MaintenanceOpts} {job : CronJob} {now : Int}
  {jobs : List CronJob} {deferralIds : Finset String}

/-! ## The pass as a map -/

/-- What the pass does to a job of the store. -/
def settleIn (deps : CronDeps) (opts : MaintenanceOpts) (now : Int) (deferralIds : Finset String)
    (job : CronJob) : Settled :=
  settleJob deps opts now (decide (job.id ∈ deferralIds)) job

theorem settleIn_congr {other : Finset String} (h : job.id ∈ deferralIds ↔ job.id ∈ other) :
    settleIn deps opts now deferralIds job = settleIn deps opts now other job := by
  unfold settleIn
  rw [decide_eq_decide.2 h]

/-- The deferral markers that the pass leaves. -/
def markersAfter (deps : CronDeps) (opts : MaintenanceOpts) (now : Int)
    (deferralIds : Finset String) (jobs : List CronJob) : Finset String :=
  deferralIds.filter fun id => ∀ job ∈ jobs, job.id = id →
    (settleIn deps opts now deferralIds job).arrived = false

theorem walk_cons (job : CronJob) (jobs : List CronJob) :
    walkSchedulableJobs deps opts now deferralIds (job :: jobs) =
      let settled := settleIn deps opts now deferralIds job
      let rest := walkSchedulableJobs deps opts now
        (if settled.arrived then deferralIds.erase job.id else deferralIds) jobs
      ⟨settled.job :: rest.jobs, rest.deferralIds, settled.changed || rest.changed⟩ := by
  rw [walkSchedulableJobs]
  unfold settleIn settleJob
  by_cases hskip : (normalizeJobTickState job now).skip = true
  · simp [hskip]
  · simp only [hskip, Bool.false_eq_true, if_false, normalize_id, Bool.and_eq_true,
      decide_eq_true_eq]
    by_cases hmem : job.id ∈ deferralIds
    · by_cases harrived : deferralArrived (normalizeJobTickState job now).job now = true
      · simp [hmem, harrived]
      · simp [hmem, harrived]
    · simp [hmem, Bool.or_assoc]

/-- **With distinct ids the pass treats every job on its own.** -/
theorem walk_eq (hids : (jobs.map (·.id)).Nodup) :
    walkSchedulableJobs deps opts now deferralIds jobs =
      ⟨jobs.map fun job => (settleIn deps opts now deferralIds job).job,
        markersAfter deps opts now deferralIds jobs,
        jobs.any fun job => (settleIn deps opts now deferralIds job).changed⟩ := by
  induction jobs generalizing deferralIds with
  | nil => simp [walkSchedulableJobs, markersAfter]
  | cons job jobs ih =>
    obtain ⟨hhead, htail⟩ := List.nodup_cons.1 hids
    obtain ⟨markers, hmarkers⟩ : ∃ markers, markers =
        if (settleIn deps opts now deferralIds job).arrived = true then
          deferralIds.erase job.id else deferralIds := ⟨_, rfl⟩
    -- the marker of the first job is no other job's
    have hsame : ∀ other ∈ jobs, settleIn deps opts now markers other =
        settleIn deps opts now deferralIds other := by
      intro other hother
      apply settleIn_congr
      have hne : other.id ≠ job.id := fun h => hhead (List.mem_map.2 ⟨other, hother, h⟩)
      rw [hmarkers]
      split_ifs
      · simp [hne]
      · rfl
    rw [walk_cons]
    dsimp only
    rw [← hmarkers, ih htail]
    refine (Maintained.mk.injEq ..).mpr ⟨?_, ?_, ?_⟩
    · rw [List.map_cons, List.map_congr_left fun other hother => by rw [hsame other hother]]
    · ext id
      have hrest : (∀ other ∈ jobs, other.id = id →
            (settleIn deps opts now markers other).arrived = false) ↔
          ∀ other ∈ jobs, other.id = id →
            (settleIn deps opts now deferralIds other).arrived = false := by
        refine forall₂_congr fun other hother => ?_
        rw [hsame other hother]
      simp only [markersAfter, Finset.mem_filter, List.forall_mem_cons, hrest]
      by_cases harrived : (settleIn deps opts now deferralIds job).arrived = true
      · rw [hmarkers, if_pos harrived]
        simp only [Finset.mem_erase, harrived, ne_eq, eq_comm]
        tauto
      · rw [hmarkers, if_neg harrived]
        simp [Bool.eq_false_iff.2 harrived]
    · rw [List.any_cons]
      congr 1
      rw [Bool.eq_iff_iff, List.any_eq_true, List.any_eq_true]
      refine exists_congr fun other => and_congr_right fun hother => ?_
      rw [hsame other hother]

/-! ## What a settled job is -/

variable {deferred : Bool}

variable {deferred' : Bool}

theorem Computes.mono (h : Computes deps now deferred job)
    (hle : deferred' = true → deferred = true) : Computes deps now deferred' job :=
  ⟨h.succeeds, h.positive, fun hdeferred => h.future (hle hdeferred)⟩

variable (deps opts job now) in
theorem settled_cases (deferred : Bool) :
    (settleJob deps opts now deferred job).job = (normalizeJobTickState job now).job ∨
      isJobEnabled job = true ∧ (settleJob deps opts now deferred job).job =
        (recomputeJobNextRunAtMs deps (normalizeJobTickState job now).job now).1 := by
  by_cases hskip : (normalizeJobTickState job now).skip = true
  · left
    unfold settleJob
    simp [hskip]
  · rw [Bool.not_eq_true] at hskip
    have henabled : isJobEnabled job = true := by
      by_contra hdisabled
      rw [(normalize_of_disabled _ (Bool.not_eq_true _ ▸ hdisabled)).2] at hskip
      cases hskip
    rw [settleJob_of_tick rfl hskip]
    rcases maintainJob_inv deps opts ((normalizeJobTickState job now).job) now
      (deferred && !(deferred && deferralArrived (normalizeJobTickState job now).job now)) with
      h | ⟨h, -⟩
    · rw [h]
      exact Or.inl rfl
    · rw [h]
      exact Or.inr ⟨henabled, rfl⟩

/-- What a settled job keeps of the job. -/
structure Kept (deps : CronDeps) (now : Int) (job settled : CronJob) : Prop where
  id : settled.id = job.id
  enabled : isJobEnabled settled = isJobEnabled job
  compute : computeJobNextRunAtMs deps settled now = computeJobNextRunAtMs deps job now
  normal : isJobEnabled job = true → Normal settled now
  /-- The settled job has no next run: the job had none, or none could be computed. -/
  missing : isJobEnabled job = true → hasScheduledNextRunAtMs settled.state.nextRunAtMs = false →
    hasScheduledNextRunAtMs job.state.nextRunAtMs = false ∨
      computeJobNextRunAtMs deps job now = .ok none

variable (opts) in
theorem settled_kept (hc : Computes deps now deferred job) (deferred' : Bool) :
    Kept deps now job (settleJob deps opts now deferred' job).job := by
  have hcompute := normalize_compute deps job now
  rcases settled_cases deps opts job now deferred' with
    h | ⟨henabled, h⟩
  · rw [h]
    refine ⟨normalize_id job now, normalize_enabled job now, hcompute, normalize_normal _, ?_⟩
    intro henabled hmissing
    rw [normalize_scheduled henabled] at hmissing
    exact Or.inl hmissing
  · rw [h]
    obtain ⟨natural, hnatural⟩ := hc.succeeds
    have hok := hcompute.trans hnatural
    have hpositive : ∀ next, natural = some next → 0 < next := fun next hnext =>
      hc.positive next (hnatural.trans (hnext ▸ rfl))
    refine ⟨by simp, (recomputed_enabled hok).trans (normalize_enabled job now), ?_, ?_, ?_⟩
    · rw [recompute_of_ok hok]
      exact hcompute
    · intro henabled
      exact recomputed_normal (normalize_normal _ henabled) hok hpositive
    · intro _ hmissing
      right
      cases natural with
      | none => exact hnatural
      | some next =>
        obtain ⟨later, hlater, hcases⟩ := flooredNext_some deps ((normalizeJobTickState job now).job) next
        have hpos := hpositive next rfl
        rw [recompute_of_ok hok] at hmissing
        rw [hlater] at hmissing
        have hlate : 0 < later := by
          rcases hcases with rfl | ⟨hlt, -⟩ <;> omega
        simp [hasScheduledNextRunAtMs, hlate] at hmissing

variable {settled : CronJob}

theorem Kept.computes (h : Kept deps now job settled) (hc : Computes deps now deferred job)
    (hle : deferred' = true → deferred = true) : Computes deps now deferred' settled := by
  refine ⟨?_, ?_, ?_⟩
  · rw [h.compute]
    exact hc.succeeds
  · rw [h.compute]
    exact hc.positive
  · rw [h.compute]
    intro hdeferred hmissing next hnext
    have henabled : isJobEnabled job = true := by
      by_contra hdisabled
      rw [computeJobNextRunAtMs_disabled (Bool.not_eq_true _ ▸ hdisabled)] at hnext
      cases hnext
    rcases h.missing henabled hmissing with hmissing | hnone
    · exact hc.future (hle hdeferred) hmissing next hnext
    · rw [hnone] at hnext
      cases hnext

theorem Kept.not_stuckSkip (h : Kept deps now job settled) : ¬ StuckSkip settled now := by
  rintro ⟨henabled, hskip⟩
  have henabled' := h.enabled.symm.trans henabled
  rw [(h.normal henabled').tick henabled] at hskip
  cases hskip

/-! ## The pass again -/

/-- The markers of the enabled jobs. -/
def relevantIds (deferralIds : Finset String) (jobs : List CronJob) : Finset String :=
  deferralIds.filter (· ∈ (jobs.filter isJobEnabled).map (·.id))

theorem maintenance_eq (hids : (jobs.map (·.id)).Nodup) :
    recomputeNextRunsForMaintenance deps opts now deferralIds jobs =
      ⟨jobs.map fun job => (settleIn deps opts now (relevantIds deferralIds jobs) job).job,
        markersAfter deps opts now (relevantIds deferralIds jobs) jobs,
        jobs.any fun job => (settleIn deps opts now (relevantIds deferralIds jobs) job).changed⟩ :=
  walk_eq hids

theorem mem_markersAfter (hids : (jobs.map (·.id)).Nodup) (hjob : job ∈ jobs) :
    job.id ∈ markersAfter deps opts now deferralIds jobs ↔
      job.id ∈ deferralIds ∧ (settleIn deps opts now deferralIds job).arrived = false := by
  unfold markersAfter
  rw [Finset.mem_filter]
  refine and_congr_right fun _ => ⟨fun h => h job hjob rfl, fun h other hother heq => ?_⟩
  rw [List.inj_on_of_nodup_map hids hother hjob heq]
  exact h

/-- Every next run of the store can be computed. -/
def StoreComputes (deps : CronDeps) (now : Int) (deferralIds : Finset String)
    (jobs : List CronJob) : Prop :=
  ∀ job ∈ jobs, Computes deps now (decide (job.id ∈ deferralIds)) job

theorem StoreComputes.relevant (hc : StoreComputes deps now deferralIds jobs) (hjob : job ∈ jobs) :
    Computes deps now (decide (job.id ∈ relevantIds deferralIds jobs)) job := by
  refine (hc job hjob).mono fun hmem => ?_
  exact decide_eq_true (Finset.mem_filter.1 (of_decide_eq_true hmem)).1

/-- The jobs after the pass. -/
def settledJobs (deps : CronDeps) (opts : MaintenanceOpts) (now : Int) (deferralIds : Finset String)
    (jobs : List CronJob) : List CronJob :=
  jobs.map fun job => (settleIn deps opts now (relevantIds deferralIds jobs) job).job

def settledIds (deps : CronDeps) (opts : MaintenanceOpts) (now : Int) (deferralIds : Finset String)
    (jobs : List CronJob) : Finset String :=
  markersAfter deps opts now (relevantIds deferralIds jobs) jobs

theorem pass_jobs (hids : (jobs.map (·.id)).Nodup) :
    (recomputeNextRunsForMaintenance deps opts now deferralIds jobs).jobs =
      settledJobs deps opts now deferralIds jobs := by
  rw [maintenance_eq hids]
  rfl

theorem pass_ids (hids : (jobs.map (·.id)).Nodup) :
    (recomputeNextRunsForMaintenance deps opts now deferralIds jobs).deferralIds =
      settledIds deps opts now deferralIds jobs := by
  rw [maintenance_eq hids]
  rfl

theorem settledJobs_kept (hc : StoreComputes deps now deferralIds jobs)
    (hsettled : settled ∈ settledJobs deps opts now deferralIds jobs) :
    ∃ job ∈ jobs, Kept deps now job settled ∧
      settled = (settleIn deps opts now (relevantIds deferralIds jobs) job).job := by
  obtain ⟨job, hjob, rfl⟩ := List.mem_map.1 hsettled
  exact ⟨job, hjob, settled_kept _ (hc job hjob) _, rfl⟩

variable (opts) in
theorem settledJobs_nodup (hc : StoreComputes deps now deferralIds jobs)
    (hids : (jobs.map (·.id)).Nodup) :
    ((settledJobs deps opts now deferralIds jobs).map (·.id)).Nodup := by
  have hsame : (settledJobs deps opts now deferralIds jobs).map (·.id) = jobs.map (·.id) := by
    rw [settledJobs, List.map_map]
    exact List.map_congr_left fun job hjob =>
      (settled_kept opts (hc job hjob) _).id
  rw [hsame]
  exact hids

theorem relevantIds_settled (hc : StoreComputes deps now deferralIds jobs) :
    relevantIds (settledIds deps opts now deferralIds jobs)
        (settledJobs deps opts now deferralIds jobs) =
      settledIds deps opts now deferralIds jobs := by
  refine Finset.filter_true_of_mem fun id hid => ?_
  have hrelevant := (Finset.mem_filter.1 (Finset.mem_filter.1 hid).1).2
  obtain ⟨job, hjob, rfl⟩ := List.mem_map.1 hrelevant
  obtain ⟨hmem, henabled⟩ := List.mem_filter.1 hjob
  have hkept := settled_kept opts (hc job hmem)
    (decide (job.id ∈ relevantIds deferralIds jobs))
  refine List.mem_map.2 ⟨_, List.mem_filter.2 ⟨List.mem_map.2 ⟨job, hmem, rfl⟩, ?_⟩, hkept.id⟩
  exact hkept.enabled.trans henabled

theorem settleIn_again (hids : (jobs.map (·.id)).Nodup)
    (hc : StoreComputes deps now deferralIds jobs) (hjob : job ∈ jobs)
    (hskip : ¬ StuckSkip job now) :
    settleIn deps opts now (settledIds deps opts now deferralIds jobs)
        (settleIn deps opts now (relevantIds deferralIds jobs) job).job =
      ⟨(settleIn deps opts now (relevantIds deferralIds jobs) job).job, false, false⟩ := by
  have hagain := settleJob_again opts (hc.relevant hjob) hskip
  have hid := (settled_kept opts (hc job hjob)
    (decide (job.id ∈ relevantIds deferralIds jobs))).id
  unfold settleIn at hagain ⊢
  rw [hid]
  refine Eq.trans ?_ hagain
  congr 1
  rw [Bool.eq_iff_iff, decide_eq_true_eq, settledIds, mem_markersAfter hids hjob, settleIn]
  simp

theorem pass_again (hids : (jobs.map (·.id)).Nodup)
    (hc : StoreComputes deps now deferralIds jobs) (hskip : ∀ job ∈ jobs, ¬ StuckSkip job now) :
    recomputeNextRunsForMaintenance deps opts now (settledIds deps opts now deferralIds jobs)
        (settledJobs deps opts now deferralIds jobs) =
      ⟨settledJobs deps opts now deferralIds jobs, settledIds deps opts now deferralIds jobs,
        false⟩ := by
  have hagain : ∀ settled ∈ settledJobs deps opts now deferralIds jobs,
      settleIn deps opts now (settledIds deps opts now deferralIds jobs) settled =
        ⟨settled, false, false⟩ := by
    intro settled hsettled
    obtain ⟨job, hjob, -, rfl⟩ := settledJobs_kept hc hsettled
    exact settleIn_again hids hc hjob (hskip job hjob)
  rw [maintenance_eq (settledJobs_nodup _ hc hids), relevantIds_settled hc]
  refine (Maintained.mk.injEq ..).mpr ⟨?_, ?_, ?_⟩
  · refine (List.map_congr_left fun settled hsettled => ?_).trans (List.map_id _)
    rw [hagain settled hsettled]
    rfl
  · refine Finset.filter_true_of_mem fun id _ settled hsettled _ => ?_
    rw [hagain settled hsettled]
  · rw [List.any_eq_false]
    intro settled hsettled
    rw [hagain settled hsettled]
    exact Bool.false_ne_true

variable (opts) in
theorem storeComputes_settled (hids : (jobs.map (·.id)).Nodup)
    (hc : StoreComputes deps now deferralIds jobs) :
    StoreComputes deps now (settledIds deps opts now deferralIds jobs)
        (settledJobs deps opts now deferralIds jobs) ∧
      ∀ settled ∈ settledJobs deps opts now deferralIds jobs, ¬ StuckSkip settled now := by
  constructor
  · intro settled hsettled
    obtain ⟨job, hjob, hkept, -⟩ := settledJobs_kept hc hsettled
    refine hkept.computes (hc job hjob) fun hmem => decide_eq_true ?_
    have hmem := of_decide_eq_true hmem
    rw [hkept.id, settledIds, mem_markersAfter hids hjob] at hmem
    exact (Finset.mem_filter.1 hmem.1).1
  · intro settled hsettled
    obtain ⟨job, -, hkept, -⟩ := settledJobs_kept hc hsettled
    exact hkept.not_stuckSkip

/-- **The maintenance pass is stable.** -/
theorem maintenance_stable (opts : MaintenanceOpts) (hids : (jobs.map (·.id)).Nodup)
    (hc : StoreComputes deps now deferralIds jobs) :
    let first := recomputeNextRunsForMaintenance deps opts now deferralIds jobs
    let second := recomputeNextRunsForMaintenance deps opts now first.deferralIds first.jobs
    let third := recomputeNextRunsForMaintenance deps opts now second.deferralIds second.jobs
    (∀ (i : Nat) (job : CronJob), jobs[i]? = some job → ¬ StuckSkip job now →
        second.jobs[i]? = first.jobs[i]?) ∧
      ((∀ job ∈ jobs, ¬ StuckSkip job now) → second = ⟨first.jobs, first.deferralIds, false⟩) ∧
      third = ⟨second.jobs, second.deferralIds, false⟩ := by
  intro first second third
  obtain ⟨hc', hskip'⟩ := storeComputes_settled opts hids hc
  have hids' := settledJobs_nodup opts hc hids
  have hfirst : first.jobs = settledJobs deps opts now deferralIds jobs := pass_jobs hids
  have hmarkers : first.deferralIds = settledIds deps opts now deferralIds jobs := pass_ids hids
  have hsecond : second = recomputeNextRunsForMaintenance deps opts now
      (settledIds deps opts now deferralIds jobs)
      (settledJobs deps opts now deferralIds jobs) := by
    rw [← hfirst, ← hmarkers]
  refine ⟨fun i job hi hskip => ?_, fun hskip => ?_, ?_⟩
  · rw [hsecond, hfirst, pass_jobs hids', settledJobs, relevantIds_settled hc]
    simp only [settledJobs, List.getElem?_map, hi, Option.map_some, Option.some.injEq]
    rw [settleIn_again hids hc (List.mem_of_getElem? hi) hskip]
  · rw [hsecond, hfirst, hmarkers]
    exact pass_again hids hc hskip
  · have hthird : third = recomputeNextRunsForMaintenance deps opts now second.deferralIds
        second.jobs := rfl
    rw [hthird, hsecond, pass_jobs hids', pass_ids hids']
    exact pass_again hids' hc' hskip'

/-- An hourly job without a next run, marked as running since the epoch. -/
def stuckJob : CronJob := { hourlyJob with state := { runningAtMs := some 0 } }

theorem stuckJob_computes :
    StoreComputes fiveAttempts 10000000 ∅ [stuckJob] := by
  intro job hjob
  rw [List.mem_singleton.1 hjob]
  have hnext : computeJobNextRunAtMs fiveAttempts stuckJob 10000000 = .ok (some 10800000) := rfl
  refine ⟨⟨_, hnext⟩, fun next h => ?_, fun h => absurd h (by decide)⟩
  cases h
  decide

theorem maintenance_stable_hourly :
    let first := recomputeNextRunsForMaintenance fiveAttempts {} 10000000 ∅ [stuckJob]
    let second := recomputeNextRunsForMaintenance fiveAttempts {} 10000000 first.deferralIds
      first.jobs
    recomputeNextRunsForMaintenance fiveAttempts {} 10000000 second.deferralIds second.jobs =
      ⟨second.jobs, second.deferralIds, false⟩ :=
  (maintenance_stable {} (show ([stuckJob].map (·.id)).Nodup by simp) stuckJob_computes).2.2

/-- The first pass clears the marker and skips the job, the second one computes its next run. -/
theorem stuck_marker_takes_two :
    ¬ ∀ (deps : CronDeps) (opts : MaintenanceOpts) (now : Int) (deferralIds : Finset String)
      (jobs : List CronJob), StoreComputes deps now deferralIds jobs →
      let first := recomputeNextRunsForMaintenance deps opts now deferralIds jobs
      (recomputeNextRunsForMaintenance deps opts now first.deferralIds first.jobs).changed =
        false := by
  intro h
  have hstable := h fiveAttempts {} 10000000 ∅ [stuckJob] stuckJob_computes
  revert hstable
  decide +kernel

end OpenClaw.Cron
