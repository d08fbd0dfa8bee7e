import OpenClaw.Cron.Maintenance

/-!
# Running the maintenance pass again

A computed slot lies in the future (`computeJobNextRunAtMs_lt`).

`settleJob` is what the pass does to one job. A second pass leaves what the first one settled
(`settleJob_again`), if no schedule computation throws, no next run is computed that does not count
as scheduled, and the first pass did not skip the job because of a stuck marker.
-/

namespace OpenClaw.Cron

variable {deps : CronDeps} {opts : MaintenanceOpts} {job : CronJob} {now : Int}

/-! ## Next runs of a cron schedule -/

variable {next : Int}

theorem computeCronNextRunAtMs_lt {expr : String} {tz : Option String}
    (h : computeCronNextRunAtMs deps expr tz now = .ok (some next)) : now < next := by
  unfold computeCronNextRunAtMs at h
  by_cases hempty : JsString.trim expr = ""
  · rw [if_pos hempty] at h
    cases h
  · rw [if_neg hempty] at h
    obtain ⟨first, -, h⟩ := Except.bind_eq_ok.1 h
    cases first with
    | none => cases h
    | some nextMs =>
      dsimp only at h
      by_cases hfirst : now < nextMs
      · rw [if_pos hfirst] at h
        cases h
        exact hfirst
      · rw [if_neg hfirst] at h
        obtain ⟨second, -, h⟩ := Except.bind_eq_ok.1 h
        have hretry : ∀ {retryMs : Int},
            (if now < retryMs then some retryMs else none) = some next → now < next := by
          intro retryMs h
          by_cases hlt : now < retryMs
          · rw [if_pos hlt] at h
            cases h
            exact hlt
          · rw [if_neg hlt] at h
            cases h
        cases second with
        | none =>
          -- the third lookup, after a second one that gave nothing
          obtain ⟨third, -, h⟩ := Except.bind_eq_ok.1 h
          cases third with
          | none => cases h
          | some retryMs => exact hretry (Except.ok.inj h)
        | some retryMs =>
          dsimp only at h
          by_cases hlt : now < retryMs
          · rw [if_pos hlt] at h
            cases h
            exact hlt
          · rw [if_neg hlt] at h
            obtain ⟨third, -, h⟩ := Except.bind_eq_ok.1 h
            cases third with
            | none => cases h
            | some retryMs => exact hretry (Except.ok.inj h)

theorem staggeredNext_lt {schedule : CronSchedule} {offsetMs : Int} {attempts : Nat}
    {cursorMs : Int}
    (h : staggeredNext deps schedule offsetMs now attempts cursorMs = .ok (some next)) :
    now < next := by
  induction attempts generalizing cursorMs with
  | zero => cases h
  | succ attempts ih =>
    obtain ⟨base, -, h⟩ := Except.bind_eq_ok.1 h
    cases base with
    | none => cases h
    | some baseNext =>
      dsimp only at h
      by_cases hshifted : now < baseNext + offsetMs
      · rw [if_pos hshifted] at h
        cases h
        exact hshifted
      · rw [if_neg hshifted] at h
        exact ih h

theorem computeStaggeredCronNextRunAtMs_lt (hkind : job.schedule.kind = .cron)
    (h : computeStaggeredCronNextRunAtMs deps job now = .ok (some next)) : now < next := by
  unfold computeStaggeredCronNextRunAtMs at h
  cases hschedule : job.schedule with
  | cron expr tz staggerMs =>
    rw [hschedule] at h
    dsimp only at h
    by_cases hzero : resolveStableCronOffsetMs deps job.id (resolveCronStaggerMs expr staggerMs) ≤ 0
    · rw [if_pos hzero] at h
      exact computeCronNextRunAtMs_lt h
    · rw [if_neg hzero] at h
      exact staggeredNext_lt h
  | «at» | every | onExit => simp [hschedule, CronSchedule.kind] at hkind

theorem lt_nextSecondMs (now : Int) : now < nextSecondMs now := by
  unfold nextSecondMs
  omega

/-- **A computed slot lies in the future**, whatever the library of cron expressions answers. Only the
time of a one-shot job may have passed. -/
theorem computeJobNextRunAtMs_lt (hat : job.schedule.kind ≠ .at)
    (h : computeJobNextRunAtMs deps job now = .ok (some next)) : now < next := by
  unfold computeJobNextRunAtMs at h
  split at h
  · cases h
  · cases hschedule : job.schedule with
    | «at» time => simp [hschedule, CronSchedule.kind] at hat
    | every everyMs anchorMs =>
      rw [hschedule] at h
      dsimp only at h
      split at h
      · rename_i lastRunAtMs hlast
        cases h
        exact of_decide_eq_true (Option.filter_eq_some_iff.1 hlast).2
      · unfold computeNextRunAtMs at h
        dsimp only at h
        split at h
        · rename_i hanchor
          cases h
          exact hanchor
        · cases h
          have hpos : 0 < max 1 (max 1 everyMs) := by omega
          have hlater := Int.lt_ediv_add_one_mul_self
            (now - max 0 (resolveEveryAnchorMs anchorMs job.createdAtMs)) hpos
          simp only [Option.getD_some]
          omega
    | cron expr tz staggerMs =>
      have hkind : job.schedule.kind = .cron := by
        rw [hschedule]
        rfl
      rw [hschedule] at h
      obtain ⟨first, hfirst, h⟩ := Except.bind_eq_ok.1 h
      cases first with
      | none => exact (lt_nextSecondMs now).trans (computeStaggeredCronNextRunAtMs_lt hkind h)
      | some next' =>
        cases h
        exact computeStaggeredCronNextRunAtMs_lt hkind hfirst
    | onExit command => simp [hschedule, computeStaggeredCronNextRunAtMs, computeNextRunAtMs] at h

/-- A library that answers with a past slot before the second second. -/
def rollingBack : CronDeps :=
  { CronDeps.sample {} with
    nextRun := fun _ _ cursorMs => .ok (some (if cursorMs < 2000 then 0 else 5000)) }

def reportJob : CronJob where
  id := "report"
  createdAtMs := 0
  updatedAtMs := 0
  schedule := .cron "30 7 * * *" none none
  sessionTarget := "main"
  wakeMode := .now
  payload := .systemEvent

theorem computeJobNextRunAtMs_lt_rollingBack : ∃ next,
    computeJobNextRunAtMs rollingBack reportJob 1000 = .ok (some next) ∧ 1000 < next := by
  have h : computeJobNextRunAtMs rollingBack reportJob 1000 = .ok (some 5000) := by decide +kernel
  exact ⟨5000, h, computeJobNextRunAtMs_lt (by decide) h⟩

/-! ## Recomputing again -/

/-- The next run that recomputing writes. -/
def flooredNext (deps : CronDeps) (job : CronJob) (natural : Option Int) : Option Int :=
  if job.schedule.kind ≠ .at then
    natural.map fun next => (resolveJobErrorBackoffUntilMs deps job).elim next (max next)
  else natural

variable {natural : Option Int}

theorem recompute_of_ok (hok : computeJobNextRunAtMs deps job now = .ok natural) :
    (recomputeJobNextRunAtMs deps job now).1 =
      { job with state := { job.state with
          nextRunAtMs := flooredNext deps job natural
          scheduleErrorCount := if job.state.scheduleErrorCount.any (· ≠ 0) then none
            else job.state.scheduleErrorCount } } := by
  unfold recomputeJobNextRunAtMs flooredNext
  rw [hok]

theorem recompute_again (hok : computeJobNextRunAtMs deps job now = .ok natural) :
    recomputeJobNextRunAtMs deps (recomputeJobNextRunAtMs deps job now).1 now =
      ((recomputeJobNextRunAtMs deps job now).1, false) := by
  rw [recompute_of_ok hok]
  generalize hcount : (if job.state.scheduleErrorCount.any (· ≠ 0) then none
    else job.state.scheduleErrorCount) = count
  have hclear : count.any (· ≠ 0) = false := by
    by_cases hany : job.state.scheduleErrorCount.any (· ≠ 0) = true
    · rw [if_pos hany] at hcount
      rw [← hcount]
      rfl
    · rw [if_neg hany] at hcount
      rw [← hcount]
      exact Bool.not_eq_true _ ▸ hany
  have hagain : computeJobNextRunAtMs deps { job with state := { job.state with
      nextRunAtMs := flooredNext deps job natural, scheduleErrorCount := count } } now =
      .ok natural := hok
  unfold recomputeJobNextRunAtMs
  rw [hagain]
  rw [hclear]
  refine Prod.ext rfl ?_
  show (decide (flooredNext deps job natural ≠ flooredNext deps job natural) || false) = false
  simp

theorem computeJobNextRunAtMs_cron (hkind : job.schedule.kind = .cron)
    (henabled : isJobEnabled job = true)
    (h : computeStaggeredCronNextRunAtMs deps job now = .ok (some next)) :
    computeJobNextRunAtMs deps job now = .ok (some next) := by
  unfold computeJobNextRunAtMs
  rw [henabled]
  cases hschedule : job.schedule with
  | cron expr tz staggerMs =>
    simp only [Bool.not_true, Bool.false_eq_true, if_false, h]
    rfl
  | «at» | every | onExit => simp [hschedule, CronSchedule.kind] at hkind

theorem computeJobNextRunAtMs_disabled (h : isJobEnabled job = false) :
    computeJobNextRunAtMs deps job now = .ok none := by
  unfold computeJobNextRunAtMs
  simp [h]

theorem flooredNext_none : flooredNext deps job none = none := by
  unfold flooredNext
  split <;> rfl

variable (deps job) in
theorem flooredNext_some (next : Int) : ∃ later, flooredNext deps job (some next) = some later ∧
    (later = next ∨ next < later ∧ job.schedule.kind ≠ .at ∧
      resolveJobErrorBackoffUntilMs deps job = some later) := by
  unfold flooredNext
  by_cases hkind : job.schedule.kind ≠ .at
  · rw [if_pos hkind]
    cases huntil : resolveJobErrorBackoffUntilMs deps job with
    | none => exact ⟨next, rfl, Or.inl rfl⟩
    | some backoffUntilMs =>
      refine ⟨max next backoffUntilMs, rfl, ?_⟩
      by_cases hle : backoffUntilMs ≤ next
      · exact Or.inl (max_eq_left hle)
      · have hlt : next < backoffUntilMs := by omega
        rw [max_eq_right hlt.le]
        exact Or.inr ⟨hlt, hkind, rfl⟩
  · rw [if_neg hkind]
    exact ⟨next, rfl, Or.inl rfl⟩

theorem shouldRepair_recomputed (hok : computeJobNextRunAtMs deps job now = .ok natural) :
    shouldRepairFutureCronNextRunAtMs deps (recomputeJobNextRunAtMs deps job now).1 now = false := by
  rw [recompute_of_ok hok]
  unfold shouldRepairFutureCronNextRunAtMs
  cases hfilter : (flooredNext deps job natural).filter (0 < ·) with
  | none => rfl
  | some nextRun =>
    have hnext := (Option.filter_eq_some_iff.1 hfilter).1
    dsimp only
    by_cases hearly : job.schedule.kind ≠ .cron ∨ nextRun ≤ now ∨
        job.state.runningAtMs.isSome = true
    · rw [if_pos hearly]
    · rw [if_neg hearly]
      have hkind : job.schedule.kind = .cron := by
        by_contra hkind
        exact hearly (Or.inl hkind)
      have henabled : isJobEnabled job = true := by
        by_contra hdisabled
        rw [computeJobNextRunAtMs_disabled (Bool.not_eq_true _ ▸ hdisabled)] at hok
        cases hok
        rw [flooredNext_none] at hnext
        cases hnext
      -- neither lookup sees what recomputing has written
      have hbackoffSlot : ∀ next count, isPendingErrorBackoffSlot deps { job with
          state := { job.state with nextRunAtMs := next, scheduleErrorCount := count } } nextRun now =
          isPendingErrorBackoffSlot deps job nextRun now := fun _ _ => rfl
      have hlookup : ∀ next count, computeStaggeredCronNextRunAtMs deps { job with
          state := { job.state with nextRunAtMs := next, scheduleErrorCount := count } } now =
          computeStaggeredCronNextRunAtMs deps job now := fun _ _ => rfl
      have haligned : ∀ next count, isStaggeredCronRunAtMs deps { job with
          state := { job.state with nextRunAtMs := next, scheduleErrorCount := count } } nextRun =
          isStaggeredCronRunAtMs deps job nextRun := fun _ _ => rfl
      rw [hbackoffSlot, hlookup, haligned]
      by_cases hpending : isPendingErrorBackoffSlot deps job nextRun now = true
      · rw [if_pos hpending]
      · rw [if_neg hpending]
        cases hnatural : computeStaggeredCronNextRunAtMs deps job now with
        | error err => rfl
        | ok naturalNext =>
          cases naturalNext with
          | none => rfl
          | some next =>
            rw [computeJobNextRunAtMs_cron hkind henabled hnatural] at hok
            cases hok
            obtain ⟨later, hlater, hcases⟩ := flooredNext_some deps job next
            rw [hlater] at hnext
            cases hnext
            rcases hcases with rfl | ⟨hbackoff, -, huntil⟩
            · cases hslot : isStaggeredCronRunAtMs deps job nextRun with
              | error err => rfl
              | ok slot => cases slot <;> simp
            · refine absurd ?_ hpending
              unfold isPendingErrorBackoffSlot
              rw [huntil]
              simp only [Option.any_some, Bool.and_eq_true, decide_eq_true_eq]
              omega

/-! ## Normalizing again -/

theorem hasScheduled_iff {next : Option Int} :
    hasScheduledNextRunAtMs next = true ↔ ∃ n, next = some n ∧ 0 < n := by
  cases next with
  | none => simp [hasScheduledNextRunAtMs]
  | some n => simp [hasScheduledNextRunAtMs]

theorem resolveEveryAnchorMs_again (anchorMs : Option Int) (fallback : Int) :
    resolveEveryAnchorMs (some (resolveEveryAnchorMs anchorMs fallback)) fallback =
      resolveEveryAnchorMs anchorMs fallback := by
  simp only [resolveEveryAnchorMs, Option.getD_some]
  omega

/-- The anchor of an interval schedule is what normalizing makes of it. -/
def AnchorNormal (job : CronJob) : Prop :=
  ∀ everyMs anchorMs, job.schedule = .every everyMs anchorMs →
    anchorMs = some (resolveEveryAnchorMs anchorMs job.createdAtMs)

theorem AnchorNormal.eq (h : AnchorNormal job) : normalizeEveryAnchor job = job := by
  unfold normalizeEveryAnchor
  cases hschedule : job.schedule with
  | every everyMs anchorMs =>
    dsimp only
    rw [← h everyMs anchorMs hschedule, ← hschedule]
  | «at» | onExit | cron => rfl

theorem anchorNormal_normalize (job : CronJob) : AnchorNormal (normalizeEveryAnchor job) := by
  intro everyMs anchorMs h
  unfold normalizeEveryAnchor at h ⊢
  cases hschedule : job.schedule with
  | every =>
    rw [hschedule] at h
    cases h
    rw [resolveEveryAnchorMs_again]
  | «at» | onExit | cron =>
    rw [hschedule] at h
    rw [hschedule] at h
    cases h

theorem computeJobNextRunAtMs_anchor : computeJobNextRunAtMs deps (normalizeEveryAnchor job) now =
    computeJobNextRunAtMs deps job now := by
  unfold normalizeEveryAnchor
  cases hschedule : job.schedule with
  | every everyMs anchorMs =>
    unfold computeJobNextRunAtMs
    rw [hschedule]
    dsimp only
    rw [resolveEveryAnchorMs_again]
    rfl
  | «at» | onExit | cron => rfl

theorem setNextRunAtMs_none (h : job.state.nextRunAtMs = none) : job.setNextRunAtMs none = job := by
  rw [← h]
  rfl

theorem setRunningAtMs_none (h : job.state.runningAtMs = none) : job.setRunningAtMs none = job := by
  rw [← h]
  rfl

variable (now) in
theorem normalize_of_disabled (h : isJobEnabled job = false) :
    (normalizeJobTickState job now).job =
      ((normalizeEveryAnchor job).setNextRunAtMs none).setRunningAtMs none ∧
    (normalizeJobTickState job now).skip = true := by
  have henabled : isJobEnabled (normalizeEveryAnchor job) = false := by
    obtain ⟨schedule, hanchor, -⟩ := normalizeEveryAnchor_eq job
    rw [hanchor]
    exact h
  unfold normalizeJobTickState
  simp only [henabled, Bool.not_false, if_true, and_self]

/-- A job that normalizing leaves. -/
structure Normal (job : CronJob) (now : Int) : Prop where
  anchor : AnchorNormal job
  scheduled : hasScheduledNextRunAtMs job.state.nextRunAtMs = true ∨ job.state.nextRunAtMs = none
  running : job.state.runningAtMs.any (stuckRunMs < now - ·) = false

theorem Normal.tick (h : Normal job now) (henabled : isJobEnabled job = true) :
    normalizeJobTickState job now = ⟨job, false, false⟩ := by
  have hnext : (if hasScheduledNextRunAtMs job.state.nextRunAtMs = true then job
      else job.setNextRunAtMs none) = job := by
    rcases h.scheduled with hscheduled | hnone
    · rw [if_pos hscheduled]
    · rw [setNextRunAtMs_none hnone, ite_self]
  unfold normalizeJobTickState
  rw [h.anchor.eq]
  simp only [henabled, Bool.not_true, Bool.false_eq_true, if_false, hnext, h.running, ne_eq,
    not_true_eq_false, decide_false]

variable (job now) in
theorem tick_disabled (hanchor : AnchorNormal job) (hdisabled : isJobEnabled job = false)
    (hnext : job.state.nextRunAtMs = none) (hrunning : job.state.runningAtMs = none) :
    normalizeJobTickState job now = ⟨job, false, true⟩ := by
  unfold normalizeJobTickState
  rw [hanchor.eq]
  dsimp only
  rw [setNextRunAtMs_none hnext, setRunningAtMs_none hrunning]
  simp [hdisabled]

variable (now) in
theorem normalize_normal (henabled : isJobEnabled job = true) :
    Normal (normalizeJobTickState job now).job now := by
  have henabled' : isJobEnabled (normalizeEveryAnchor job) = true := by
    obtain ⟨schedule, hanchor, -⟩ := normalizeEveryAnchor_eq job
    rw [hanchor]
    exact henabled
  have hanchor := anchorNormal_normalize job
  unfold normalizeJobTickState
  simp only [henabled', Bool.not_true, Bool.false_eq_true, if_false]
  by_cases hscheduled :
      hasScheduledNextRunAtMs (normalizeEveryAnchor job).state.nextRunAtMs = true
  · rw [if_pos hscheduled]
    by_cases hstuck :
        (normalizeEveryAnchor job).state.runningAtMs.any (stuckRunMs < now - ·) = true
    · rw [if_pos hstuck]
      exact ⟨hanchor, Or.inl hscheduled, rfl⟩
    · rw [if_neg hstuck]
      exact ⟨hanchor, Or.inl hscheduled, Bool.not_eq_true _ ▸ hstuck⟩
  · rw [if_neg hscheduled]
    by_cases hstuck : ((normalizeEveryAnchor job).setNextRunAtMs none).state.runningAtMs.any
        (stuckRunMs < now - ·) = true
    · rw [if_pos hstuck]
      exact ⟨hanchor, Or.inr rfl, rfl⟩
    · rw [if_neg hstuck]
      exact ⟨hanchor, Or.inr rfl, Bool.not_eq_true _ ▸ hstuck⟩

theorem normalizeEveryAnchor_state (job : CronJob) :
    (normalizeEveryAnchor job).state = job.state := by
  obtain ⟨schedule, hanchor, -⟩ := normalizeEveryAnchor_eq job
  rw [hanchor]

theorem normalize_scheduled (henabled : isJobEnabled job = true) :
    hasScheduledNextRunAtMs (normalizeJobTickState job now).job.state.nextRunAtMs =
      hasScheduledNextRunAtMs job.state.nextRunAtMs := by
  have henabled' : isJobEnabled (normalizeEveryAnchor job) = true := by
    obtain ⟨schedule, hanchor, -⟩ := normalizeEveryAnchor_eq job
    rw [hanchor]
    exact henabled
  unfold normalizeJobTickState
  simp only [henabled', Bool.not_true, Bool.false_eq_true, if_false]
  rw [normalizeEveryAnchor_state]
  have hkept : hasScheduledNextRunAtMs (if hasScheduledNextRunAtMs job.state.nextRunAtMs = true then
      normalizeEveryAnchor job else (normalizeEveryAnchor job).setNextRunAtMs none).state.nextRunAtMs =
      hasScheduledNextRunAtMs job.state.nextRunAtMs := by
    by_cases hscheduled : hasScheduledNextRunAtMs job.state.nextRunAtMs = true
    · rw [if_pos hscheduled, normalizeEveryAnchor_state]
    · rw [if_neg hscheduled, Bool.eq_false_iff.2 hscheduled]
      rfl
  revert hkept
  generalize (if hasScheduledNextRunAtMs job.state.nextRunAtMs = true then
    normalizeEveryAnchor job else (normalizeEveryAnchor job).setNextRunAtMs none) = kept
  intro hkept
  split_ifs
  all_goals simpa using hkept

variable (deps job now) in
theorem normalize_compute : computeJobNextRunAtMs deps (normalizeJobTickState job now).job now =
    computeJobNextRunAtMs deps job now := by
  obtain ⟨next, running, heq, -, -⟩ := normalize_eq job now
  obtain ⟨schedule, hanchor, -⟩ := normalizeEveryAnchor_eq job
  refine Eq.trans ?_ computeJobNextRunAtMs_anchor
  rw [heq, hanchor]
  rfl

/-! ## The pass on one job -/

/-- What the pass does to one job: the job it leaves, whether it changed anything, and whether the
job's deferral marker is dropped. -/
structure Settled where
  job : CronJob
  changed : Bool
  arrived : Bool

def settleJob (deps : CronDeps) (opts : MaintenanceOpts) (now : Int) (deferred : Bool)
    (job : CronJob) : Settled :=
  let tick := normalizeJobTickState job now
  if tick.skip then ⟨tick.job, tick.changed, false⟩
  else
    let arrived := deferred && deferralArrived tick.job now
    let (job, changed) := maintainJob deps opts now (deferred && !arrived) tick.job
    ⟨job, tick.changed || arrived || changed, arrived⟩

/-- The next run can be computed, it counts as scheduled, and that of a job with a deferral marker
and no next run is in the future. -/
structure Computes (deps : CronDeps) (now : Int) (deferred : Bool) (job : CronJob) : Prop where
  succeeds : ∃ natural, computeJobNextRunAtMs deps job now = .ok natural
  positive : ∀ next, computeJobNextRunAtMs deps job now = .ok (some next) → 0 < next
  future : deferred = true → hasScheduledNextRunAtMs job.state.nextRunAtMs = false →
    ∀ next, computeJobNextRunAtMs deps job now = .ok (some next) → now < next

theorem recomputed_normal (h : Normal job now)
    (hok : computeJobNextRunAtMs deps job now = .ok natural)
    (hpositive : ∀ next, natural = some next → 0 < next) :
    Normal (recomputeJobNextRunAtMs deps job now).1 now := by
  rw [recompute_of_ok hok]
  refine ⟨h.anchor, ?_, h.running⟩
  cases natural with
  | none => exact Or.inr flooredNext_none
  | some next =>
    obtain ⟨later, hlater, hcases⟩ := flooredNext_some deps job next
    have hpos := hpositive next rfl
    refine Or.inl (hasScheduled_iff.2 ⟨later, hlater, ?_⟩)
    rcases hcases with rfl | ⟨hlt, -⟩ <;> omega

variable {deferred : Bool}

theorem maintainJob_recomputed (hok : computeJobNextRunAtMs deps job now = .ok natural) :
    maintainJob deps opts now deferred (recomputeJobNextRunAtMs deps job now).1 =
      ((recomputeJobNextRunAtMs deps job now).1, false) := by
  have hagain := recompute_again hok
  have hrepair := shouldRepair_recomputed hok
  unfold maintainJob
  rw [hrepair]
  cases (recomputeJobNextRunAtMs deps job now).1.state.nextRunAtMs.filter (0 < ·) with
  | none => exact hagain
  | some nextRun =>
    dsimp only
    rw [Bool.and_false, if_neg Bool.false_ne_true]
    split_ifs
    · exact hagain
    · rfl

variable (deps opts job now) in
theorem maintainJob_inv (deferred : Bool) :
    maintainJob deps opts now deferred job = (job, false) ∨
      maintainJob deps opts now deferred job = recomputeJobNextRunAtMs deps job now ∧
        (deferred = true → hasScheduledNextRunAtMs job.state.nextRunAtMs = false ∨
          deferralArrived job now = true) := by
  unfold maintainJob
  cases hfilter : job.state.nextRunAtMs.filter (0 < ·) with
  | none =>
    refine Or.inr ⟨rfl, fun _ => Or.inl ?_⟩
    rw [Bool.eq_false_iff]
    intro hscheduled
    obtain ⟨n, hn, hpos⟩ := hasScheduled_iff.1 hscheduled
    rw [hn, Option.filter_some, if_pos (by simpa using hpos)] at hfilter
    cases hfilter
  | some nextRun =>
    dsimp only
    by_cases hrepair : (opts.repairFutureCronNextRunAtMs && !deferred &&
        shouldRepairFutureCronNextRunAtMs deps job now) = true
    · rw [if_pos hrepair]
      refine Or.inr ⟨rfl, fun hdeferred => ?_⟩
      simp [hdeferred] at hrepair
    · rw [if_neg hrepair]
      by_cases hexpired : (opts.recomputeExpired && decide (nextRun ≤ now) &&
          job.state.runningAtMs.isNone &&
          (alreadyExecutedSlot job || isStaleBackoffSlot deps job nextRun now)) = true
      · rw [if_pos hexpired]
        refine Or.inr ⟨rfl, fun _ => Or.inr ?_⟩
        simp only [Bool.and_eq_true, decide_eq_true_eq] at hexpired
        simp [deferralArrived, hfilter, hexpired.1.1.2]
      · rw [if_neg hexpired]
        exact Or.inl rfl

theorem recomputed_future (hok : computeJobNextRunAtMs deps job now = .ok natural)
    (hfuture : ∀ next, natural = some next → now < next) :
    deferralArrived (recomputeJobNextRunAtMs deps job now).1 now = false := by
  rw [recompute_of_ok hok]
  unfold deferralArrived
  cases natural with
  | none => simp [flooredNext_none]
  | some next =>
    obtain ⟨later, hlater, hcases⟩ := flooredNext_some deps job next
    have hlt := hfuture next rfl
    have hlate : now < later := by
      rcases hcases with rfl | ⟨hlt', -⟩ <;> omega
    rw [hlater, Option.filter_some]
    split_ifs
    · simpa using hlate
    · rfl

theorem recomputed_enabled (hok : computeJobNextRunAtMs deps job now = .ok natural) :
    isJobEnabled (recomputeJobNextRunAtMs deps job now).1 = isJobEnabled job := by
  rw [recompute_of_ok hok]
  rfl

theorem settleJob_of_tick {tick : TickState} (htick : normalizeJobTickState job now = tick)
    (hskip : tick.skip = false) : settleJob deps opts now deferred job =
      ⟨(maintainJob deps opts now (deferred && !(deferred && deferralArrived tick.job now))
          tick.job).1,
        tick.changed || (deferred && deferralArrived tick.job now) ||
          (maintainJob deps opts now (deferred && !(deferred && deferralArrived tick.job now))
            tick.job).2,
        deferred && deferralArrived tick.job now⟩ := by
  unfold settleJob
  rw [htick]
  simp [hskip]

/-- The pass skips the job: it clears a stuck marker, and the slot has not been run. -/
def StuckSkip (job : CronJob) (now : Int) : Prop :=
  isJobEnabled job = true ∧ (normalizeJobTickState job now).skip = true

variable (opts) in
/-- **A second pass leaves a job that the first one has settled.** -/
theorem settleJob_again (hc : Computes deps now deferred job) (hskip : ¬ StuckSkip job now) :
    settleJob deps opts now (deferred && !(settleJob deps opts now deferred job).arrived)
        (settleJob deps opts now deferred job).job =
      ⟨(settleJob deps opts now deferred job).job, false, false⟩ := by
  by_cases henabled : isJobEnabled job = true
  · have hnotskip : (normalizeJobTickState job now).skip = false :=
      Bool.eq_false_iff.2 fun h => hskip ⟨henabled, h⟩
    rw [settleJob_of_tick rfl hnotskip]
    have hnormal := normalize_normal now henabled
    have henabled' : isJobEnabled (normalizeJobTickState job now).job = true := by
      unfold isJobEnabled
      rw [normalize_enabled]
      exact henabled
    have hcompute := normalize_compute deps job now
    obtain ⟨natural, hnatural⟩ := hc.succeeds
    have hok := hcompute.trans hnatural
    have hfuture : deferred = true → hasScheduledNextRunAtMs
        (normalizeJobTickState job now).job.state.nextRunAtMs = false →
        ∀ next, natural = some next → now < next := by
      rintro hdeferred hmissing next rfl
      refine hc.future hdeferred ?_ next hnatural
      rwa [normalize_scheduled henabled] at hmissing
    revert hnormal henabled' hok hfuture
    generalize (normalizeJobTickState job now).job = j
    intro hnormal henabled' hok hfuture
    rcases maintainJob_inv deps opts j now
      (deferred && !(deferred && deferralArrived j now)) with hkeep | ⟨hrecompute, harrived⟩
    · rw [hkeep]
      have hflag : ((deferred && !(deferred && deferralArrived j now)) &&
          deferralArrived j now) = false := by
        cases deferred <;> cases deferralArrived j now <;> rfl
      rw [settleJob_of_tick (hnormal.tick henabled') rfl]
      simp only [hflag, Bool.not_false, Bool.and_true, hkeep, Bool.or_false]
    · rw [hrecompute]
      have hnormal' := recomputed_normal hnormal hok fun next hnext =>
        hc.positive next (hnatural.trans (hnext ▸ rfl))
      have henabled'' := (recomputed_enabled hok).trans henabled'
      have hflag : ((deferred && !(deferred && deferralArrived j now)) &&
          deferralArrived (recomputeJobNextRunAtMs deps j now).1 now) = false := by
        by_cases hflag : (deferred && !(deferred && deferralArrived j now)) = true
        · have hdeferred : deferred = true := by
            cases deferred with
            | true => rfl
            | false => cases hflag
          rcases harrived hflag with hmissing | harrived
          · rw [recomputed_future hok (hfuture hdeferred hmissing), Bool.and_false]
          · rw [hdeferred, harrived] at hflag
            cases hflag
        · rw [Bool.eq_false_iff.2 hflag, Bool.false_and]
      rw [settleJob_of_tick (hnormal'.tick henabled'') rfl]
      simp only [hflag, Bool.not_false, Bool.and_true, maintainJob_recomputed hok, Bool.or_false]
  · rw [Bool.not_eq_true] at henabled
    obtain ⟨hjob, hskips⟩ := normalize_of_disabled now henabled
    have hsettled : settleJob deps opts now deferred job =
        ⟨((normalizeEveryAnchor job).setNextRunAtMs none).setRunningAtMs none,
          (normalizeJobTickState job now).changed, false⟩ := by
      unfold settleJob
      simp [hskips, hjob]
    have hdisabled : isJobEnabled
        (((normalizeEveryAnchor job).setNextRunAtMs none).setRunningAtMs none) = false := by
      obtain ⟨schedule, hanchor, -⟩ := normalizeEveryAnchor_eq job
      rw [hanchor]
      exact henabled
    have hagain := tick_disabled (((normalizeEveryAnchor job).setNextRunAtMs
      none).setRunningAtMs none) now (anchorNormal_normalize job) hdisabled rfl rfl
    rw [hsettled]
    unfold settleJob
    simp [hagain]

end OpenClaw.Cron
