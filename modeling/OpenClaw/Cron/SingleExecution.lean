import Mathlib.Data.List.Dedup
import OpenClaw.Cron.Service

/-!
# One execution of a job at a time

A run writes `runningAtMs` to its job's row, in memory and on disk, before it starts, and every run
looks for that marker first. So a job is not run twice at once as long as nobody but the run itself
takes the marker away. Some operations do: the maintenance pass and an update clear the marker of a
disabled job, a manual run of a job with an invalid spec clears it before it looks, and a job that
is added under the id of a removed one starts without it.

**Theorem (`executions_exclusive`).** Where no step takes the marker of a job in flight away, no job
has two executions in flight.

**Theorem (`disabled_job_runs_twice`).** Two forced runs of a disabled job are in flight at once.
-/

namespace OpenClaw.Cron

variable {deps : CronDeps} {config : ServiceConfig}

/-! ## The rows of the jobs in flight -/

/-- The row carries a running marker. -/
def Marked (row : CronJob) : Prop := row.state.runningAtMs.isSome = true

/-- A maintenance pass leaves the row's marker alone: it is enabled and not stuck. -/
def Undisturbed (now : Int) (row : CronJob) : Prop :=
  isJobEnabled row = true ∧ ∀ t, row.state.runningAtMs = some t → now - t ≤ stuckRunMs

theorem normalize_running {job : CronJob} {now : Int} (h : Undisturbed now job) :
    (normalizeJobTickState job now).job.state.runningAtMs = job.state.runningAtMs := by
  obtain ⟨schedule, hanchor, -, -⟩ := normalizeEveryAnchor_eq job
  have henabled : isJobEnabled { job with schedule := schedule } = true := h.1
  have hfresh : (job.state.runningAtMs.any fun t => decide (stuckRunMs < now - t)) = false := by
    rw [Option.any_eq_false]
    intro t ht
    simpa using h.2 t ht
  simp only [normalizeJobTickState, hanchor, henabled, Bool.not_true, Bool.false_eq_true, if_false]
  cases hasScheduledNextRunAtMs job.state.nextRunAtMs with
  | true => simp only [if_true, hfresh, Bool.false_eq_true, if_false]
  | false => simp only [Bool.false_eq_true, if_false, setNextRunAtMs_running, hfresh]

theorem MaintainsTo.marked {opts : MaintenanceOpts} {now : Int} {job job' : CronJob}
    (h : MaintainsTo deps opts now job job') (hkeep : Undisturbed now job) (hmarked : Marked job) :
    Marked job' := by
  have hnorm : Marked (normalizeJobTickState job now).job := by
    rw [Marked, normalize_running hkeep]
    exact hmarked
  cases h with
  | skip => exact hnorm
  | maintain deferred =>
    rcases maintainJob_cases deps opts now deferred (normalizeJobTickState job now).job with h | h
    · rwa [h]
    · rw [h, Marked, recompute_running]
      exact hnorm

instance (now : Int) (row : CronJob) : Decidable (Undisturbed now row) :=
  inferInstanceAs (Decidable (isJobEnabled row = true ∧
    ∀ t ∈ row.state.runningAtMs, now - t ≤ stuckRunMs))

/-- A marked row that the pass leaves alone. -/
def Held (now : Int) (row : CronJob) : Prop := Marked row ∧ Undisturbed now row

/-- No id occurs twice, and the rows with one of the given ids have the property. -/
def Rows (Q : CronJob → Prop) (ids : List String) (jobs : List CronJob) : Prop :=
  (jobs.map (·.id)).Nodup ∧ ∀ row ∈ jobs, row.id ∈ ids → Q row

namespace Rows

variable {Q Q' : CronJob → Prop} {ids ids' : List String} {jobs : List CronJob} {s : CronStore}

theorem imp (h : Rows Q ids jobs) (himp : ∀ row ∈ jobs, row.id ∈ ids → Q row → Q' row) :
    Rows Q' ids jobs := ⟨h.1, fun row hrow hid => himp row hrow hid (h.2 row hrow hid)⟩

theorem subset (h : Rows Q ids jobs) (hids : ids' ⊆ ids) : Rows Q ids' jobs :=
  ⟨h.1, fun row hrow hid => h.2 row hrow (hids hid)⟩

theorem map {f : CronJob → CronJob} (h : Rows Q ids jobs) (hid : ∀ row, (f row).id = row.id)
    (hQ : ∀ row ∈ jobs, row.id ∈ ids → Q row → Q' (f row)) : Rows Q' ids (jobs.map f) := by
  refine ⟨?_, fun row' hrow' hids => ?_⟩
  · rw [List.map_map]
    have hcomp : ((·.id) ∘ f : CronJob → String) = (·.id) := funext hid
    rw [hcomp]
    exact h.1
  · obtain ⟨row, hrow, rfl⟩ := List.mem_map.1 hrow'
    rw [hid] at hids
    exact hQ row hrow hids (h.2 row hrow hids)

theorem replace {job : CronJob} (h : Rows Q ids s.jobs) (hjob : job.id ∈ ids → Q job) :
    Rows Q ids (s.replace job).jobs := by
  refine h.map (fun row => ?_) fun row _ hid hrow => ?_
  · split_ifs with hsame
    · exact hsame.symm
    · rfl
  · split_ifs with hsame
    · exact hjob (hsame ▸ hid)
    · exact hrow

theorem erase (h : Rows Q ids s.jobs) (id : String) : Rows Q ids (s.erase id).jobs :=
  ⟨h.1.sublist (List.filter_sublist.map _), fun row hrow => h.2 row (List.mem_of_mem_filter hrow)⟩

theorem append {job : CronJob} (h : Rows Q ids jobs) (hfresh : ∀ row ∈ jobs, row.id ≠ job.id)
    (hjob : job.id ∉ ids) : Rows Q ids (jobs ++ [job]) := by
  refine ⟨?_, fun row hrow hid => ?_⟩
  · rw [List.map_append, List.nodup_append]
    refine ⟨h.1, List.nodup_singleton _, fun id hid id' hid' => ?_⟩
    obtain ⟨row, hrow, rfl⟩ := List.mem_map.1 hid
    rw [List.mem_singleton.1 hid']
    exact hfresh row hrow
  · rcases List.mem_append.1 hrow with hrow | hrow
    · exact h.2 row hrow hid
    · rw [List.mem_singleton.1 hrow] at hid
      exact absurd hid hjob

theorem reload (h : Rows Q ids s.persisted) (hQ : ∀ row, Q row → Q (row.setNextRunAtMs none)) :
    Rows Q ids s.reload.jobs := by
  refine h.map (fun row => ?_) fun row _ _ hrow => ?_
  · unfold CronStore.invalidateStaleNextRun
    split
    · split <;> rfl
    · rfl
  · unfold CronStore.invalidateStaleNextRun
    split
    · split
      · exact hrow
      · exact hQ row hrow
    · exact hrow

theorem applyOutcome {id : String} {result : CronRunResult} {preserveSchedule : Bool}
    (h : Rows Q ids s.jobs) (hid : id ∉ ids) :
    Rows Q ids (s.applyOutcome deps id result preserveSchedule).jobs := by
  unfold CronStore.applyOutcome
  cases hfind : s.find id with
  | none => exact h
  | some job =>
    obtain ⟨-, rfl⟩ := CronStore.mem_of_find hfind
    dsimp only
    split_ifs
    · exact h.erase job.id
    · exact h.replace fun hmem => absurd (applyOutcomeToJob_id deps job .. ▸ hmem) hid

theorem applyOutcomes {outcomes : List (String × CronRunResult)} (h : Rows Q ids s.jobs)
    (hids : ∀ outcome ∈ outcomes, outcome.1 ∉ ids) :
    Rows Q ids (outcomes.foldl
      (fun s outcome => s.applyOutcomeToStoredJob deps outcome.1 outcome.2) s).jobs := by
  induction outcomes generalizing s with
  | nil => exact h
  | cons outcome outcomes ih =>
    obtain ⟨hid, hids⟩ := List.forall_mem_cons.1 hids
    have hstep : Rows Q ids (s.applyOutcomeToStoredJob deps outcome.1 outcome.2).jobs := by
      unfold CronStore.applyOutcomeToStoredJob
      split
      · exact h
      · exact h.applyOutcome hid
    exact ih hstep hids

theorem reserve {reserved : List String} {mark : CronJob → CronJob} (h : Rows Q ids s.jobs)
    (hid : ∀ job, (mark job).id = job.id) (hdisjoint : ∀ id ∈ reserved, id ∉ ids) :
    Rows Q ids (s.reserve reserved mark).jobs := by
  refine h.map (fun row => ?_) fun row _ hids hrow => ?_
  · split_ifs
    · exact hid row
    · rfl
  · split_ifs with hnew
    · exact absurd hids (hdisjoint _ hnew)
    · exact hrow

theorem release {reserved : List (String × Int)} (h : Rows Q ids s.jobs)
    (hother : ∀ row ∈ s.jobs, row.id ∈ ids → ∀ t, row.state.runningAtMs = some t →
      (row.id, t) ∉ reserved) : Rows Q ids (s.release reserved).jobs := by
  refine h.map (fun row => ?_) fun row hrow hid hQ => ?_
  · split <;> rfl
  · split_ifs with hreserved
    · obtain ⟨t, ht, hmem⟩ := (Option.any_eq_true ..).1 hreserved
      exact absurd (by simpa using hmem) (hother row hrow hid t ht)
    · exact hQ

theorem deferStartupJobs {staggerMs baseNow offset : Int} {deferred : List StartupDeferredJob}
    (h : Rows Q ids s.jobs) (hQ : ∀ row next, Q row → Q (row.setNextRunAtMs next)) :
    Rows Q ids (CronStore.deferStartupJobs staggerMs baseNow offset deferred s).jobs := by
  induction deferred generalizing s offset with
  | nil => exact h
  | cons job rest ih =>
    unfold CronStore.deferStartupJobs
    split
    · exact ih h
    · rename_i row hrow
      refine ih (h.replace fun hid => hQ row _ ?_)
      exact h.2 row (CronStore.mem_of_find (Option.filter_eq_some_iff.1 hrow).1).1 hid

theorem maintain {opts : MaintenanceOpts} {now : Int} (h : Rows (Held now) ids s.jobs) :
    Rows Marked ids (s.maintain deps opts now).1.jobs := by
  refine ⟨by simpa only [CronStore.maintain_ids] using h.1, fun row' hrow' hid => ?_⟩
  obtain ⟨row, hrow, hto⟩ := (s.maintain_forall₂ opts now).exists_left hrow'
  rw [hto.id_eq] at hid
  obtain ⟨hmarked, hkeep⟩ := h.2 row hrow hid
  exact hto.marked hkeep hmarked

end Rows

/-! ## Reserved stores -/

/-- Memory and disk carry the markers of the given jobs. -/
def Reserved (ids : List String) (s : CronStore) : Prop :=
  Rows Marked ids s.jobs ∧ Rows Marked ids s.persisted

/-- A maintenance pass, before or after a reload, leaves the markers of the given jobs alone. -/
def PassKeeps (ids : List String) (now : Int) (s : CronStore) : Prop :=
  ∀ row, row ∈ s.jobs ∨ row ∈ s.persisted → row.id ∈ ids → Undisturbed now row

instance (ids : List String) (now : Int) (s : CronStore) : Decidable (PassKeeps ids now s) :=
  decidable_of_iff (∀ row ∈ s.jobs ++ s.persisted, row.id ∈ ids → Undisturbed now row)
    (by simp only [List.mem_append, PassKeeps])

namespace Reserved

variable {ids ids' : List String} {s : CronStore} {now : Int}

theorem subset (h : Reserved ids s) (hids : ids' ⊆ ids) : Reserved ids' s :=
  ⟨h.1.subset hids, h.2.subset hids⟩

theorem of_persist (h : Rows Marked ids s.jobs) : Reserved ids s.persist := ⟨h, h⟩

theorem held (h : Reserved ids s) (hkeep : PassKeeps ids now s) : Rows (Held now) ids s.jobs :=
  h.1.imp fun row hrow hid hmarked => ⟨hmarked, hkeep row (Or.inl hrow) hid⟩

theorem held_persisted (h : Reserved ids s) (hkeep : PassKeeps ids now s) :
    Rows (Held now) ids s.persisted :=
  h.2.imp fun row hrow hid hmarked => ⟨hmarked, hkeep row (Or.inr hrow) hid⟩

theorem reload (h : Reserved ids s) : Reserved ids s.reload :=
  ⟨h.2.reload fun _ hrow => hrow, h.2⟩

theorem held_reload (h : Reserved ids s) (hkeep : PassKeeps ids now s) :
    Rows (Held now) ids s.reload.jobs :=
  (h.held_persisted hkeep).reload fun _ hrow => hrow

theorem maintain_persist {opts : MaintenanceOpts} (h : Rows (Held now) ids s.jobs) :
    Reserved ids (s.maintain deps opts now).1.persist := of_persist h.maintain

theorem maintainAndPersist {opts : MaintenanceOpts} (h : Reserved ids s)
    (hheld : Rows (Held now) ids s.jobs) :
    Reserved ids (s.maintainAndPersist deps opts now) := by
  unfold CronStore.maintainAndPersist
  dsimp only
  split_ifs
  · exact maintain_persist hheld
  · exact ⟨hheld.maintain, h.2⟩

theorem emptyTick (h : Reserved ids s) (hkeep : PassKeeps ids now s) :
    Reserved ids (s.emptyTick deps now) :=
  h.reload.maintainAndPersist (h.held_reload hkeep)

variable {job : CronJob}

theorem replace {nextJob job' : CronJob} {requested : Bool} (h : Reserved ids s)
    (hjob : job ∈ s.jobs) (hid : nextJob.id = job.id) (hrunning : Marked job → Marked nextJob)
    (hkeep : job.id ∈ ids → isJobEnabled nextJob = true ∨
      (requested = true → cronSchedulingInputsEqual job nextJob = true))
    (hto : FinalizesTo deps job nextJob now requested job') :
    Reserved ids (s.replace job').persist := by
  refine of_persist (h.1.replace fun hmem => ?_)
  rw [hto.id_eq, hid] at hmem
  have hmarked := hrunning (h.1.2 job hjob hmem)
  cases hto with
  | rescheduled => exact hmarked
  | disabled hreq hne hdisabled =>
    rcases hkeep hmem with henabled | hequal
    · rw [hdisabled] at henabled
      cases henabled
    · rw [hequal hreq] at hne
      cases hne
  | filledIn => exact hmarked
  | kept => exact hmarked

variable {t : CronStore} {id : String}

theorem update {patch : CronJobPatch} (h : Reserved ids s)
    (hkeep : id ∈ ids → ∀ job ∈ s.jobs, job.id = id →
      (patchedJob job patch).enabled = true ∨ UpdateKeepsInputs job patch now)
    (ht : s.update deps id patch now = .ok t) : Reserved ids t := by
  obtain ⟨job, job', hfind, hto, rfl⟩ := CronStore.update_eq_ok ht
  obtain ⟨hjob, rfl⟩ := CronStore.mem_of_find hfind
  obtain ⟨_, hanchored, -⟩ :=
    anchoredJob_spec job (patchedJob job patch) now patch.schedule.isSome
  refine h.replace hjob (by rw [hanchored]; rfl) (fun hmarked => ?_) (fun hmem => ?_) hto
  · rw [hanchored]
    show ((patch.state.runningAtMs <|> job.state.runningAtMs).isSome) = true
    cases patch.state.runningAtMs with
    | none => exact hmarked
    | some t => rfl
  · rcases hkeep hmem job hjob rfl with henabled | hequal
    · left
      rw [hanchored]
      exact henabled
    · exact Or.inr hequal

theorem add {input : CronJobCreate} {opts : CronAddOptions} {freshId : String}
    (h : Reserved ids s)
    (hnew : s.declared input opts = [] → PassKeeps ids now s ∧ freshId ∉ s.jobs.map (·.id) ∧
      (newJob input freshId now).id ∉ ids)
    (hkeep : ∀ job, s.declared input opts = [job] → job.id ∈ ids →
      (declaredJob job input opts.enabledExplicit now).enabled = true ∨
        DeclarationKeepsInputs job input opts now)
    (ht : s.add deps input opts freshId now = .ok t) : Reserved ids t := by
  cases CronStore.addsTo_of_eq_ok ht with
  | unchanged => exact h
  | converged hdecl hto =>
    rename_i job job'
    have hjob : job ∈ s.jobs :=
      CronStore.mem_of_mem_declared (hdecl ▸ List.mem_singleton_self job)
    obtain ⟨_, hanchored, -⟩ := anchoredJob_spec job (declaredJob job input opts.enabledExplicit now)
      now (job.schedule ≠ (declaredJob job input opts.enabledExplicit now).schedule)
    refine h.replace hjob (by rw [hanchored]; rfl) (fun hmarked => ?_) (fun hmem => ?_) hto
    · rw [hanchored]
      exact hmarked
    · rcases hkeep job hdecl hmem with henabled | hequal
      · left
        rw [hanchored]
        exact henabled
      · exact Or.inr fun _ => hequal
  | created hdecl hjob hfree =>
    obtain ⟨hpass, hfresh, hidle⟩ := hnew hdecl
    obtain ⟨_, -, rfl⟩ := createJob_eq_ok hjob
    refine maintain_persist ((h.held hpass).append (fun row hrow => ?_) hidle)
    show row.id ≠ (normalizeOptionalString input.id).getD freshId
    cases hreserved : normalizeOptionalString input.id with
    | none =>
      rintro rfl
      exact hfresh (List.mem_map_of_mem hrow)
    | some reserved => exact hfree reserved hreserved row hrow

theorem remove (h : Reserved ids s) (hkeep : PassKeeps ids now s) (id : String) :
    Reserved ids (s.remove deps id now) := maintain_persist ((h.held hkeep).erase id)

theorem reserve {reserved : List String} {mark : CronJob → CronJob} (h : Rows Marked ids s.jobs)
    (hid : ∀ job, (mark job).id = job.id) (hmark : ∀ job, Marked (mark job)) :
    Reserved (ids ++ reserved) (s.reserve reserved mark) := by
  have hrows : Rows (fun row => row.id ∈ ids → Marked row) (ids ++ reserved) s.jobs :=
    ⟨h.1, fun row hrow _ hids => h.2 row hrow hids⟩
  refine of_persist (hrows.map (fun row => ?_) fun row _ hids hold => ?_)
  · split_ifs
    · exact hid row
    · rfl
  · split_ifs with hnew
    · exact hmark row
    · exact hold ((List.mem_append.1 hids).resolve_right hnew)

theorem held_release {reserved : List (String × Int)} (h : Reserved ids s)
    (hkeep : PassKeeps ids now s)
    (hother : ∀ row ∈ s.persisted, row.id ∈ ids → ∀ t, row.state.runningAtMs = some t →
      (row.id, t) ∉ reserved) : Rows (Held now) ids (s.reload.release reserved).jobs := by
  refine (h.held_reload hkeep).release fun row hrow hid t ht => ?_
  obtain ⟨stored, hstored, rfl⟩ := List.mem_map.1 hrow
  have hsame : (s.invalidateStaleNextRun stored).id = stored.id ∧
      (s.invalidateStaleNextRun stored).state.runningAtMs = stored.state.runningAtMs := by
    unfold CronStore.invalidateStaleNextRun
    split
    · split <;> exact ⟨rfl, rfl⟩
    · exact ⟨rfl, rfl⟩
  rw [hsame.1] at hid ⊢
  rw [hsame.2] at ht
  exact hother stored hstored hid t ht

theorem releaseUnclaimed {unclaimed : List (String × Int)} (h : Reserved ids s)
    (hkeep : PassKeeps ids now s)
    (hother : ∀ row ∈ s.persisted, row.id ∈ ids → ∀ t, row.state.runningAtMs = some t →
      (row.id, t) ∉ unclaimed) : Reserved ids (s.releaseUnclaimed deps unclaimed now) :=
  maintain_persist (h.held_release hkeep hother)

theorem finalizeCompletedResults {outcomes : List (String × CronRunResult)} (h : Reserved ids s)
    (hkeep : PassKeeps ids now s) (hids : ∀ outcome ∈ outcomes, outcome.1 ∉ ids) :
    Reserved ids (s.finalizeCompletedResults deps outcomes now) := by
  unfold CronStore.finalizeCompletedResults
  split_ifs
  · exact h.reload
  · exact maintain_persist ((h.held_reload hkeep).applyOutcomes hids)

/-! ### Manual runs -/

variable {force : Bool}

theorem skipInvalidPersistedManualRun {error : String} (h : Rows (Held now) ids s.jobs)
    (hid : job.id ∉ ids) :
    Reserved ids (s.skipInvalidPersistedManualRun deps job force error now) := by
  unfold CronStore.skipInvalidPersistedManualRun
  refine maintain_persist ?_
  split_ifs
  · exact h.erase job.id
  · exact h.replace fun hmem => absurd (applyJobResult_id deps job .. ▸ hmem) hid

theorem inspectManualRunPreflight (h : Reserved ids s) (hkeep : PassKeeps ids now s)
    (hspec : ∀ job, (s.maintain deps {} now).1.find id = some job →
      (∀ ok, assertSupportedJobSpec job ≠ .ok ok) →
      id ∉ ids ∧ PassKeeps ids now (s.maintain deps {} now).1) :
    Reserved ids (s.inspectManualRunPreflight deps id force now).1 := by
  have hpass : Reserved ids (s.maintain deps {} now).1 := ⟨(h.held hkeep).maintain, h.2⟩
  unfold CronStore.inspectManualRunPreflight
  dsimp only
  split
  · exact hpass
  · rename_i job hfind
    obtain ⟨-, hid⟩ := CronStore.mem_of_find hfind
    split
    · rename_i error herror
      obtain ⟨hidle, hkeep'⟩ := hspec job hfind fun ok hok => by
        rw [hok] at herror
        cases herror
      exact skipInvalidPersistedManualRun (hpass.held hkeep') (hid ▸ hidle)
    · exact hpass

theorem reserveManualRun {startedAt : Int} (h : Reserved ids s)
    (ht : s.reserveManualRun id startedAt = some t) : id ∉ ids ∧ Reserved (id :: ids) t := by
  obtain ⟨job, hfind, ht⟩ := Option.bind_eq_some_iff.1 ht
  obtain ⟨hjob, rfl⟩ := CronStore.mem_of_find hfind
  split_ifs at ht with hrunning
  cases ht
  refine ⟨fun hmem => hrunning (h.1.2 job hjob hmem), ?_⟩
  refine Reserved.subset (reserve h.1 (fun _ => rfl) fun _ => Option.isSome_some) fun id hid => ?_
  rcases List.mem_cons.1 hid with rfl | hid
  · exact List.mem_append_right _ (List.mem_singleton_self _)
  · exact List.mem_append_left _ hid

@[simp] theorem applyOutcome_persisted {result : CronRunResult} {preserveSchedule : Bool} :
    (s.applyOutcome deps id result preserveSchedule).persisted = s.persisted := by
  unfold CronStore.applyOutcome
  split
  · rfl
  · split_ifs <;> rfl

theorem finishManualRun {result : CronRunResult} (h : Reserved ids s)
    (hkeep : PassKeeps ids now s) (hid : id ∉ ids) :
    Reserved ids (s.finishManualRun deps id result force now) := by
  unfold CronStore.finishManualRun
  split
  · exact h
  · dsimp only
    refine maintain_persist ?_
    have hreloaded : Rows (Held now) ids (s.applyOutcome deps id result force).reload.jobs := by
      refine Rows.reload ?_ fun _ hrow => hrow
      rw [applyOutcome_persisted]
      exact h.held_persisted hkeep
    unfold CronStore.mergeManualRunSnapshot
    split
    · exact hreloaded.erase id
    · exact hreloaded
    · rename_i row _ hfind
      refine hreloaded.replace fun hmem => ?_
      obtain ⟨-, hrow⟩ := CronStore.mem_of_find hfind
      exact absurd (hrow ▸ hmem) hid

/-! ### Startup -/

variable {opts : RunnableOpts}

theorem not_marked_of_runnable (h : isRunnableJob deps opts now job = true) : ¬ Marked job := by
  intro hmarked
  rw [Marked] at hmarked
  simp [isRunnableJob, hmarked] at h

theorem runnable_disjoint {jobs : List CronJob} (h : Rows Marked ids jobs)
    (hjob : job ∈ collectRunnableJobs deps opts now jobs) : job.id ∉ ids := by
  obtain ⟨hmem, hrun⟩ := List.mem_filter.1 hjob
  exact fun hid => not_marked_of_runnable hrun (h.2 job hmem hid)

theorem runnable_nodup {jobs : List CronJob} (h : Rows Marked ids jobs) :
    ((collectRunnableJobs deps opts now jobs).map (·.id)).Nodup :=
  h.1.sublist (List.filter_sublist.map _)

theorem deferPendingBackoff_rows {skipJobIds : List String} (h : Rows Marked ids s.jobs) :
    Rows Marked ids (s.jobs.map (deferPendingBackoffMissedCronSlot deps skipJobIds now)) := by
  refine h.map (fun row => ?_) fun row _ _ hrow => ?_
  · unfold deferPendingBackoffMissedCronSlot
    repeat' split
    all_goals rfl
  · unfold deferPendingBackoffMissedCronSlot
    repeat' split
    all_goals exact hrow

theorem planStartupCatchup {skipJobIds : List String} (h : Reserved ids s) :
    let planned := s.planStartupCatchup deps config skipJobIds now
    planned.2.candidates.Nodup ∧ (∀ id ∈ planned.2.candidates, id ∉ ids) ∧
      Reserved (ids ++ planned.2.candidates) planned.1 := by
  have hrows : Rows Marked ids
      (s.jobs.map (deferPendingBackoffMissedCronSlot deps skipJobIds now)) :=
    deferPendingBackoff_rows h.1
  unfold CronStore.planStartupCatchup
  dsimp only
  split_ifs with hmissed hchanged
  · refine ⟨List.nodup_nil, fun id hid => absurd hid List.not_mem_nil, ?_⟩
    rw [List.append_nil]
    exact of_persist hrows
  · refine ⟨List.nodup_nil, fun id hid => absurd hid List.not_mem_nil, ?_⟩
    rw [List.append_nil]
    exact ⟨hrows, h.2⟩
  · have hsub : ∀ {opts : RunnableOpts} {jobs : List CronJob} {n : Nat}
        {le : CronJob → CronJob → Bool}, Rows Marked ids jobs →
        let candidates := ((((collectRunnableJobs deps opts now jobs).mergeSort le).filter
          (·.payload ≠ .agentTurn)).take n).map (·.id)
        candidates.Nodup ∧ ∀ id ∈ candidates, id ∉ ids := by
      intro opts jobs n le hjobs
      have hsorted := List.mergeSort_perm (collectRunnableJobs deps opts now jobs) le
      have hnodup := ((hsorted.map (·.id)).nodup_iff).2 (runnable_nodup hjobs)
      refine ⟨hnodup.sublist (((List.take_sublist _ _).trans List.filter_sublist).map _),
        fun id hid => ?_⟩
      obtain ⟨job, hjob, rfl⟩ := List.mem_map.1 hid
      exact runnable_disjoint hjobs
        (hsorted.mem_iff.1 (List.mem_of_mem_filter (List.mem_of_mem_take hjob)))
    obtain ⟨hnodup, hdisjoint⟩ := hsub hrows
    exact ⟨hnodup, hdisjoint, reserve hrows (fun _ => rfl) fun _ => Option.isSome_some⟩

theorem applyStartupCatchupOutcomes {unstarted : List (String × Int)}
    {outcomes : List (String × CronRunResult)} {deferredJobs : List StartupDeferredJob}
    (h : Reserved ids s) (hkeep : PassKeeps ids now s)
    (hunstarted : ∀ reservation ∈ unstarted, reservation.1 ∉ ids)
    (hids : ∀ outcome ∈ outcomes, outcome.1 ∉ ids) :
    Reserved ids
      (s.applyStartupCatchupOutcomes deps config unstarted outcomes deferredJobs now) := by
  have hreleased : Rows (Held now) ids (s.release unstarted).jobs :=
    (h.held hkeep).release fun row _ hid t _ hmem => hunstarted _ hmem hid
  unfold CronStore.applyStartupCatchupOutcomes
  dsimp only
  split_ifs
  · exact maintain_persist hreleased
  · exact ⟨hreleased.imp fun _ _ _ hrow => hrow.1, h.2⟩
  · exact maintain_persist ((hreleased.applyOutcomes hids).deferStartupJobs fun _ _ hrow => hrow)

theorem abandonStartupCatchup {unstarted : List (String × Int)} (h : Reserved ids s)
    (hkeep : PassKeeps ids now s) (hunstarted : ∀ reservation ∈ unstarted, reservation.1 ∉ ids) :
    Reserved ids (s.abandonStartupCatchup deps unstarted now) := by
  have hreleased : Rows (Held now) ids (s.reload.release unstarted).jobs :=
    h.held_release hkeep fun row _ hid t _ hmem => hunstarted _ hmem hid
  unfold CronStore.abandonStartupCatchup
  dsimp only
  split_ifs
  · exact maintain_persist hreleased
  · exact ⟨hreleased.imp fun _ _ _ hrow => hrow.1, h.2⟩

theorem recoverInterrupted (h : Reserved [] s) : Reserved [] (s.recoverInterrupted now).1 := by
  refine of_persist (h.1.map (fun row => ?_) fun _ _ hid => absurd hid (List.not_mem_nil))
  cases row.state.runningAtMs <;> rfl

end Reserved

/-! ## Every event -/

namespace CronService

/-- The jobs that are reserved, running or not yet finalized, one entry for each run. -/
def runIds (s : CronService) : List String := s.runs.map (·.id)

/-- The step does not take the marker of a job in flight away, apart from the runs it finalizes:
a maintenance pass it makes finds the rows of the other jobs in flight enabled and not stuck; it
disables no job in flight and adds none under its id; a manual run with an invalid spec is none of
a job in flight; interrupted runs are marked while nothing is in flight; and a tick that gives its
reservations back once more finds none of them reserved again at the same time. -/
def KeepsMarkers (deps : CronDeps) (s : CronService) : ServiceEvent → Prop
  | .read | .remove _ | .startupMaintenance => PassKeeps s.runIds s.now s.store
  | .add input opts freshId =>
    (s.store.declared input opts = [] → PassKeeps s.runIds s.now s.store ∧
      freshId ∉ s.store.jobs.map (·.id) ∧ (newJob input freshId s.now).id ∉ s.runIds) ∧
    ∀ job, s.store.declared input opts = [job] → job.id ∈ s.runIds →
      (declaredJob job input opts.enabledExplicit s.now).enabled = true ∨
        DeclarationKeepsInputs job input opts s.now
  | .update id patch => id ∈ s.runIds → ∀ job ∈ s.store.jobs, job.id = id →
      (patchedJob job patch).enabled = true ∨ UpdateKeepsInputs job patch s.now
  | .tick stops =>
    collectRunnableJobs deps {} s.now s.store.reload.jobs = [] ∨ stops = true →
      PassKeeps s.runIds s.now s.store
  | .finalizeSetupTimeout run => PassKeeps ((s.runs.erase run).map (·.id)) s.now s.store
  | .releaseUnclaimed =>
    PassKeeps ((s.runs.filter fun run => !(run.owner = .tick && run.isReserved)).map (·.id)) s.now
      s.store ∧
    ∀ tick ∈ s.tick, ∀ row ∈ s.store.persisted, row.id ∈ s.runIds →
      ∀ t, row.state.runningAtMs = some t → (row.id, t) ∉ tick.releasedDue
  | .finishTick => PassKeeps ((s.runs.filter (·.owner ≠ .tick)).map (·.id)) s.now s.store
  | .inspectManualRun id _ =>
    PassKeeps s.runIds s.now s.store ∧
    ∀ job, (s.store.maintain deps {} s.now).1.find id = some job →
      (∀ ok, assertSupportedJobSpec job ≠ .ok ok) →
      id ∉ s.runIds ∧ PassKeeps s.runIds s.now (s.store.maintain deps {} s.now).1
  | .finishManualRun run => PassKeeps ((s.runs.erase run).map (·.id)) s.now s.store
  | .finishStartupCatchup =>
    PassKeeps ((s.runs.filter (·.owner ≠ .startup)).map (·.id)) s.now s.store
  | .recoverInterrupted => s.runs = []
  | .claim _ | .stopAdmitting | .ends .. | .prepareManualRun .. | .planStartupCatchup
  | .claimStartup | .stop | .restartRecovery _ | .clock _ => True

/-- What every step keeps: no job has two runs, and the rows of the jobs in flight are marked. -/
def Exclusive (s : CronService) : Prop := s.runIds.Nodup ∧ Reserved s.runIds s.store

variable {s t : CronService}

theorem Exclusive.of_perm (h : Exclusive s) (hruns : t.runIds.Perm s.runIds)
    (hstore : Reserved s.runIds t.store) : Exclusive t :=
  ⟨hruns.nodup_iff.2 h.1, hstore.subset hruns.subset⟩

theorem Exclusive.of_sublist (h : Exclusive s) (hruns : t.runIds.Sublist s.runIds)
    (hstore : Reserved t.runIds t.store) : Exclusive t := ⟨h.1.sublist hruns, hstore⟩

theorem Exclusive.of_append {ids : List String} (h : Exclusive s) (hnodup : ids.Nodup)
    (hdisjoint : ∀ id ∈ ids, id ∉ s.runIds) (hruns : t.runIds = s.runIds ++ ids)
    (hstore : Reserved (s.runIds ++ ids) t.store) : Exclusive t := by
  refine ⟨?_, hruns ▸ hstore⟩
  rw [hruns, List.nodup_append]
  refine ⟨h.1, hnodup, fun id hid id' hid' heq => ?_⟩
  exact hdisjoint id' hid' (heq ▸ hid)

theorem Exclusive.of_runs_eq (h : Exclusive s) (hruns : t.runs = s.runs)
    (hstore : Reserved s.runIds t.store) : Exclusive t := by
  have hids : t.runIds = s.runIds := congrArg (List.map CronRun.id) hruns
  exact h.of_perm (hids ▸ List.Perm.refl _) hstore

@[simp] theorem clearActive_store (run : CronRun) : (s.clearActive run).store = s.store := by
  unfold clearActive
  split <;> first | rfl | (split_ifs <;> rfl)

@[simp] theorem foldl_clearActive_store (runs : List CronRun) :
    (runs.foldl clearActive s).store = s.store := by
  induction runs generalizing s with
  | nil => rfl
  | cons run runs ih => rw [List.foldl_cons, ih, clearActive_store]

@[simp] theorem finalize_runs (runs : List CronRun) : (s.finalize deps runs).runs = s.runs := by
  unfold finalize
  dsimp only
  split_ifs <;> rfl

theorem exists_run_of_outcome {runs : List CronRun} {outcome : String × CronRunResult}
    (h : outcome ∈ s.currentOutcomes runs) : ∃ run ∈ runs, run.id = outcome.1 := by
  obtain ⟨run, hrun, h⟩ := List.mem_filterMap.1 h
  refine ⟨run, hrun, ?_⟩
  split at h
  · split_ifs at h
    cases h
    rfl
  · split_ifs at h
    cases h
    rfl
  · cases h

theorem exists_run_of_unclaimed {owner : RunOwner} {reservation : String × Int}
    (h : reservation ∈ s.unclaimed owner) :
    ∃ run ∈ s.runs, run.owner = owner ∧ run.isReserved = true ∧ run.id = reservation.1 := by
  obtain ⟨run, hrun, h⟩ := List.mem_filterMap.1 h
  obtain ⟨hrun, howner⟩ := List.mem_filter.1 hrun
  refine ⟨run, hrun, by simpa using howner, ?_⟩
  unfold CronRun.reservation? at h
  split at h
  · rename_i hstage
    cases h
    exact ⟨by simp [CronRun.isReserved, hstage], rfl⟩
  · cases h

variable {run : CronRun}

theorem id_not_mem_filter (h : s.runIds.Nodup) {p : CronRun → Bool} (hrun : run ∈ s.runs)
    (hp : p run = false) : run.id ∉ (s.runs.filter p).map (·.id) := by
  intro hid
  obtain ⟨other, hother, heq⟩ := List.mem_map.1 hid
  obtain ⟨hmem, hkept⟩ := List.mem_filter.1 hother
  rw [List.inj_on_of_nodup_map h hmem hrun heq, hp] at hkept
  cases hkept

theorem id_not_mem_erase (h : s.runIds.Nodup) (hrun : run ∈ s.runs) :
    run.id ∉ (s.runs.erase run).map (·.id) := by
  have hperm : s.runIds.Perm (run.id :: (s.runs.erase run).map (·.id)) :=
    (List.perm_cons_erase hrun).map CronRun.id
  exact (List.nodup_cons.1 (hperm.nodup_iff.1 h)).1

theorem erase_sublist (run : CronRun) : ((s.runs.erase run).map (·.id)).Sublist s.runIds :=
  List.erase_sublist.map _

theorem filter_sublist (p : CronRun → Bool) : ((s.runs.filter p).map (·.id)).Sublist s.runIds :=
  List.filter_sublist.map _

theorem reserved_finalize {ids : List String} {runs : List CronRun} (h : Reserved ids s.store)
    (hkeep : PassKeeps ids s.now s.store) (hids : ∀ run ∈ runs, run.id ∉ ids) :
    Reserved ids (s.finalize deps runs).store := by
  unfold finalize
  dsimp only
  split_ifs
  · exact h
  · refine h.finalizeCompletedResults hkeep fun outcome houtcome => ?_
    obtain ⟨run, hrun, hid⟩ := exists_run_of_outcome houtcome
    exact hid ▸ hids run hrun

theorem advance_perm {stage : RunStage} (hrun : run ∈ s.runs) :
    (s.advance run stage).runIds.Perm s.runIds :=
  ((List.perm_cons_erase hrun).map CronRun.id).symm

theorem exclusive_onTick {stops : Bool} (h : Exclusive s) (hkeep : KeepsMarkers deps s (.tick stops))
    (ht : s.onTick deps stops = some t) : Exclusive t := by
  unfold onTick at ht
  dsimp only at ht
  split_ifs at ht with hrunning hstopped hdue hstops
  · cases ht
    exact h.of_runs_eq rfl h.2.reload
  · cases ht
    have hnone : collectRunnableJobs deps {} s.now s.store.reload.jobs = [] := by simpa using hdue
    exact h.of_runs_eq rfl (h.2.emptyTick (hkeep (Or.inl hnone)))
  · cases ht
    have hdisjoint : ∀ id ∈ (collectRunnableJobs deps {} s.now s.store.reload.jobs).map (·.id),
        id ∉ s.runIds := by
      intro id hid
      obtain ⟨job, hjob, rfl⟩ := List.mem_map.1 hid
      exact Reserved.runnable_disjoint h.2.reload.1 hjob
    have hheld := h.2.held_reload (hkeep (Or.inr hstops))
    refine h.of_runs_eq rfl (Reserved.maintain_persist (Rows.release (hheld.reserve (fun _ => rfl) hdisjoint)
      fun row _ hid t _ hmem => ?_))
    obtain ⟨id, hdue', heq⟩ := List.mem_map.1 hmem
    cases heq
    exact hdisjoint _ hdue' hid
  · cases ht
    refine h.of_append (Reserved.runnable_nodup h.2.reload.1) (fun id hid => ?_) ?_
      (Reserved.reserve h.2.reload.1 (fun _ => rfl) fun _ => Option.isSome_some)
    · obtain ⟨job, hjob, rfl⟩ := List.mem_map.1 hid
      exact Reserved.runnable_disjoint h.2.reload.1 hjob
    · simp [runIds, Function.comp_def]

theorem exclusive_claim {stored : Bool} (h : Exclusive s) (ht : s.claim stored = some t) :
    Exclusive t := by
  unfold claim at ht
  split at ht
  · rename_i tick run htick hfind
    have hrun : run ∈ s.runs := List.mem_of_find?_eq_some hfind
    split_ifs at ht with hbusy hstored
    · cases ht
      refine h.of_perm (advance_perm hrun) ⟨h.2.1.map (fun row => ?_) fun row _ _ hrow => ?_, h.2.2⟩
      · split_ifs <;> rfl
      · split_ifs
        · exact Option.isSome_some
        · exact hrow
    · cases ht
      exact h.of_perm (advance_perm hrun) h.2
  · cases ht

theorem exclusive_finalizeSetupTimeout (h : Exclusive s)
    (hkeep : KeepsMarkers deps s (.finalizeSetupTimeout run))
    (ht : s.finalizeSetupTimeout deps config run = some t) : Exclusive t := by
  unfold finalizeSetupTimeout at ht
  split at ht
  · split_ifs at ht with hrun
    cases ht
    refine h.of_sublist (erase_sublist run) ?_
    show Reserved _ ((s.finalize deps [run]).clearActive run).store
    rw [clearActive_store]
    refine reserved_finalize (h.2.subset (erase_sublist run).subset) hkeep fun other hother => ?_
    rw [List.mem_singleton.1 hother]
    exact id_not_mem_erase h.1 hrun
  · cases ht

theorem exclusive_releaseUnclaimed (h : Exclusive s) (hkeep : KeepsMarkers deps s .releaseUnclaimed)
    (ht : s.releaseUnclaimed deps = some t) : Exclusive t := by
  unfold releaseUnclaimed at ht
  split at ht
  · cases ht
  · rename_i tick htick
    dsimp only at ht
    split_ifs at ht
    cases ht
    obtain ⟨hpass, hagain⟩ := hkeep
    refine h.of_sublist (filter_sublist _) ?_
    refine (h.2.subset (filter_sublist _).subset).releaseUnclaimed hpass
      fun row hrow hid t ht hmem => ?_
    rcases List.mem_append.1 hmem with hmem | hmem
    · exact hagain tick htick row hrow ((filter_sublist _).subset hid) t ht hmem
    · -- A reservation of this tick is none of the runs that stay.
      obtain ⟨run, hrun, howner, hreserved, heq⟩ := exists_run_of_unclaimed hmem
      have hsame : run.id = row.id := heq
      refine id_not_mem_filter h.1 hrun ?_ (hsame ▸ hid)
      simp [howner, hreserved]

theorem exclusive_finishTick (h : Exclusive s) (hkeep : KeepsMarkers deps s .finishTick)
    (ht : s.finishTick deps = some t) : Exclusive t := by
  unfold finishTick at ht
  split_ifs at ht
  cases ht
  have hruns : (s.finalize deps (s.runs.filter (·.owner = .tick))).runs = s.runs := finalize_runs _
  refine ⟨?_, ?_⟩
  · show (((s.finalize deps _).runs.filter (·.owner ≠ .tick)).map CronRun.id).Nodup
    rw [hruns]
    exact h.1.sublist (filter_sublist _)
  · show Reserved (((s.finalize deps _).runs.filter (·.owner ≠ .tick)).map CronRun.id)
      (List.foldl clearActive _ _).store
    rw [hruns, foldl_clearActive_store]
    refine reserved_finalize (h.2.subset (filter_sublist _).subset) hkeep fun run hrun => ?_
    obtain ⟨hrun, howner⟩ := List.mem_filter.1 hrun
    exact id_not_mem_filter h.1 hrun (by simpa using howner)

theorem exclusive_inspectManualRun {id : String} {force : Bool} (h : Exclusive s)
    (hkeep : KeepsMarkers deps s (.inspectManualRun id force))
    (ht : s.inspectManualRun deps id force = some t) : Exclusive t := by
  unfold inspectManualRun at ht
  split_ifs at ht
  cases ht
  obtain ⟨hpass, hspec⟩ := hkeep
  exact h.of_runs_eq rfl (h.2.inspectManualRunPreflight hpass hspec)

theorem exclusive_prepareManualRun {prepared : PreparedRun} {stops : Bool} (h : Exclusive s)
    (ht : s.prepareManualRun prepared stops = some t) : Exclusive t := by
  simp only [prepareManualRun] at ht
  by_cases hprepared : prepared ∈ s.prepared
  case neg => simp [hprepared] at ht
  simp only [hprepared, not_true_eq_false, if_false] at ht
  cases hreserve : s.store.reserveManualRun prepared.id prepared.now with
  | none =>
    simp only [hreserve] at ht
    cases ht
    exact h.of_runs_eq rfl h.2
  | some store =>
    obtain ⟨hidle, hstore⟩ := h.2.reserveManualRun hreserve
    simp only [hreserve] at ht
    split_ifs at ht
    · cases ht
      exact h.of_runs_eq rfl h.2
    · cases ht
      have hreloaded : Rows Marked s.runIds store.reload.jobs :=
        (hstore.reload.subset (List.subset_cons_self ..)).1
      refine h.of_runs_eq rfl (Reserved.of_persist (hreloaded.release fun row _ hid t _ hmem => ?_))
      have hsame : row.id = prepared.id := by simpa using congrArg Prod.fst (List.mem_singleton.1 hmem)
      exact hidle (hsame ▸ hid)
    · cases ht
      refine ⟨?_, ?_⟩
      · exact ((advance_perm (s := { s with runs := _ :: s.runs }) List.mem_cons_self).nodup_iff).2
          (List.nodup_cons.2 ⟨hidle, h.1⟩)
      · exact hstore.subset (advance_perm (s := { s with runs := _ :: s.runs })
          List.mem_cons_self).subset

theorem exclusive_finishManualRun (h : Exclusive s)
    (hkeep : KeepsMarkers deps s (.finishManualRun run))
    (ht : s.finishManualRun deps run = some t) : Exclusive t := by
  unfold finishManualRun at ht
  split at ht
  · have hsub := h.2.subset (erase_sublist run).subset
    split_ifs at ht with hrun
    · cases ht
      exact h.of_sublist (erase_sublist run)
        (hsub.finishManualRun hkeep (id_not_mem_erase h.1 hrun))
    · cases ht
      exact h.of_sublist (erase_sublist run) hsub
  · cases ht

theorem exclusive_recoverInterrupted (h : Exclusive s) (hkeep : s.runs = [])
    (ht : s.recoverInterrupted = some t) : Exclusive t := by
  unfold recoverInterrupted at ht
  split_ifs at ht
  cases ht
  have hids : s.runIds = [] := by rw [runIds, hkeep, List.map_nil]
  refine h.of_runs_eq rfl ?_
  rw [hids]
  exact (hids ▸ h.2).recoverInterrupted

theorem exclusive_planStartupCatchup (h : Exclusive s)
    (ht : s.planStartupCatchup deps config = some t) : Exclusive t := by
  have hplan : let planned :=
        s.store.planStartupCatchup deps config s.interruptedJobIds s.now
      planned.2.candidates.Nodup ∧ (∀ id ∈ planned.2.candidates, id ∉ s.runIds) ∧
        Reserved (s.runIds ++ planned.2.candidates) planned.1 := h.2.planStartupCatchup
  obtain ⟨hnodup, hdisjoint, hstore⟩ := hplan
  unfold planStartupCatchup at ht
  split_ifs at ht
  dsimp only at ht
  split_ifs at ht with hnone
  · cases ht
    exact h.of_runs_eq rfl (hstore.subset (List.subset_append_left ..))
  · cases ht
    exact h.of_append hnodup hdisjoint (by simp [runIds, Function.comp_def]) hstore

theorem exclusive_claimStartup (h : Exclusive s) (ht : s.claimStartup = some t) : Exclusive t := by
  unfold claimStartup at ht
  split_ifs at ht
  obtain ⟨run, hfind, rfl⟩ := Option.map_eq_some_iff.1 ht
  exact h.of_perm (advance_perm (List.mem_of_find?_eq_some hfind)) h.2

theorem exclusive_finishStartupCatchup (h : Exclusive s)
    (hkeep : KeepsMarkers deps s .finishStartupCatchup)
    (ht : s.finishStartupCatchup deps config = some t) : Exclusive t := by
  unfold finishStartupCatchup at ht
  split at ht
  · cases ht
  · rename_i deferredJobs hstartup
    dsimp only at ht
    split_ifs at ht
    all_goals
      cases ht
      have hsub := h.2.subset (filter_sublist (s := s) (·.owner ≠ .startup)).subset
      have hunstarted : ∀ reservation ∈ s.unclaimed .startup,
          reservation.1 ∉ (s.runs.filter (·.owner ≠ .startup)).map CronRun.id := by
        intro reservation hreservation
        obtain ⟨run, hrun, howner, -, hid⟩ := exists_run_of_unclaimed hreservation
        exact hid ▸ id_not_mem_filter h.1 hrun (by simp [howner])
      refine h.of_sublist (filter_sublist _) ?_
    · exact hsub.abandonStartupCatchup hkeep hunstarted
    · refine hsub.applyStartupCatchupOutcomes hkeep hunstarted fun outcome houtcome => ?_
      obtain ⟨run, hrun, hid⟩ := exists_run_of_outcome houtcome
      obtain ⟨hrun, howner⟩ := List.mem_filter.1 hrun
      exact hid ▸ id_not_mem_filter h.1 hrun (by simpa using howner)

theorem exclusive_ends {result : CronRunResult} {setupTimeout : Bool} (h : Exclusive s)
    (ht : s.ends run result setupTimeout = some t) : Exclusive t := by
  unfold ends at ht
  split at ht
  · split_ifs at ht with hrun
    all_goals
      cases ht
      exact h.of_perm (advance_perm hrun) h.2
  · cases ht

/-- **Every event keeps the runs apart.** -/
theorem exclusive_step {e : ServiceEvent} (h : Exclusive s) (hkeep : KeepsMarkers deps s e)
    (ht : s.step deps config e = some t) : Exclusive t := by
  cases e with
  | read =>
    cases ht
    exact h.of_runs_eq rfl (h.2.maintainAndPersist (h.2.held hkeep))
  | add input opts freshId =>
    cases ht
    obtain ⟨hnew, hdeclared⟩ := hkeep
    refine h.of_runs_eq rfl ?_
    cases hadd : s.store.add deps input opts freshId s.now with
    | error => simpa [hadd, Except.toOption] using h.2
    | ok store => simpa [hadd, Except.toOption] using h.2.add hnew hdeclared hadd
  | update id patch =>
    cases ht
    refine h.of_runs_eq rfl ?_
    cases hupdate : s.store.update deps id patch s.now with
    | error => simpa [hupdate, Except.toOption] using h.2
    | ok store => simpa [hupdate, Except.toOption] using h.2.update hkeep hupdate
  | remove id =>
    cases ht
    exact h.of_runs_eq rfl (h.2.remove hkeep id)
  | tick stops => exact exclusive_onTick h hkeep ht
  | claim stored => exact exclusive_claim h ht
  | stopAdmitting =>
    obtain ⟨tick, -, ht⟩ := Option.bind_eq_some_iff.1 ht
    split_ifs at ht
    cases ht
    exact h.of_runs_eq rfl h.2
  | ends run result setupTimeout => exact exclusive_ends h ht
  | finalizeSetupTimeout run => exact exclusive_finalizeSetupTimeout h hkeep ht
  | releaseUnclaimed => exact exclusive_releaseUnclaimed h hkeep ht
  | finishTick => exact exclusive_finishTick h hkeep ht
  | inspectManualRun id force => exact exclusive_inspectManualRun h hkeep ht
  | prepareManualRun prepared stops => exact exclusive_prepareManualRun h ht
  | finishManualRun run => exact exclusive_finishManualRun h hkeep ht
  | recoverInterrupted => exact exclusive_recoverInterrupted h hkeep ht
  | planStartupCatchup => exact exclusive_planStartupCatchup h ht
  | claimStartup => exact exclusive_claimStartup h ht
  | finishStartupCatchup => exact exclusive_finishStartupCatchup h hkeep ht
  | startupMaintenance =>
    cases ht
    exact h.of_runs_eq rfl (h.2.maintainAndPersist (h.2.held hkeep))
  | stop =>
    cases ht
    exact h.of_runs_eq rfl h.2
  | restartRecovery pending =>
    cases ht
    exact h.of_runs_eq rfl h.2
  | clock now =>
    simp only [step] at ht
    split_ifs at ht
    cases ht
    exact h.of_runs_eq rfl h.2

theorem exclusive_of_initial (h : s.Initial) : Exclusive s := by
  obtain ⟨hruns, hjobs, hpersisted⟩ := h
  have hids : s.runIds = [] := by rw [runIds, hruns, List.map_nil]
  unfold Exclusive
  rw [hids]
  exact ⟨List.nodup_nil, ⟨hjobs, fun _ _ hid => absurd hid List.not_mem_nil⟩,
    ⟨hpersisted, fun _ _ hid => absurd hid List.not_mem_nil⟩⟩

/-- **No job has two executions in flight**, in any run that keeps the markers. -/
theorem executions_exclusive (deps : CronDeps) (config : ServiceConfig) (s : CronService)
    (hs : Lts.Reachable Initial
      (Lts.Guarded (fun s e t => s.step deps config e = some t) (KeepsMarkers deps)) s) :
    s.inFlight.Nodup := by
  have h : Exclusive s := by
    refine hs.invariant (fun _ => exclusive_of_initial) ?_
    rintro s e t h ⟨ht, hkeep⟩
    exact exclusive_step h hkeep ht
  exact h.1.sublist (filter_sublist _)

/-- A service with one job, due since `60000`. -/
def reportService (enabled : Bool) : CronService :=
  let job : CronJob :=
    { id := "report", enabled := enabled, createdAtMs := 0, updatedAtMs := 0
      schedule := .every 60000 (some 0), sessionTarget := "isolated", wakeMode := .now
      payload := .agentTurn, state := { nextRunAtMs := some 60000 } }
  { store := ⟨[job], [job], ∅⟩, now := 61000 }

theorem initial_reportService (enabled : Bool) : (reportService enabled).Initial :=
  ⟨rfl, List.nodup_singleton _, List.nodup_singleton _⟩

/-- A tick comes while a forced run of the enabled job is in flight. -/
theorem executions_exclusive_report :
    ∃ s, Lts.run (step (.sample {}) {}) (reportService true)
        [.inspectManualRun "report" true, .prepareManualRun ⟨"report", true, 61000⟩ false,
          .tick false] = some s ∧ s.inFlight.Nodup := by
  have hstart : Lts.Reachable Initial
      (Lts.Guarded (fun s e t => s.step (.sample {}) {} e = some t) (KeepsMarkers (.sample {})))
      (reportService true) := .start (initial_reportService true)
  have hinspected := hstart.next (a := ServiceEvent.inspectManualRun "report" true)
    ⟨rfl, by decide, fun job _ _ => ⟨by decide, by decide⟩⟩
  have hprepared := hinspected.next (a := ServiceEvent.prepareManualRun ⟨"report", true, 61000⟩ false)
    ⟨rfl, trivial⟩
  have hticked := hprepared.next (a := ServiceEvent.tick false) ⟨rfl, fun _ => by decide⟩
  exact ⟨_, rfl, executions_exclusive (.sample {}) {} _ hticked⟩

/-- The maintenance pass of the second run clears the marker of the first, as the job is disabled. -/
theorem disabled_job_runs_twice :
    ¬ ∀ (deps : CronDeps) (config : ServiceConfig) (s : CronService),
      Lts.Reachable Initial (fun s e t => s.step deps config e = some t) s → s.inFlight.Nodup := by
  intro h
  let events : List ServiceEvent :=
    [.inspectManualRun "report" true, .prepareManualRun ⟨"report", true, 61000⟩ false,
      .inspectManualRun "report" true, .prepareManualRun ⟨"report", true, 61000⟩ false]
  have hrun : (Lts.run (step (.sample {}) {}) (reportService false) events).map inFlight =
      some ["report", "report"] := by decide
  obtain ⟨s, hs, htwice⟩ := Option.map_eq_some_iff.1 hrun
  have hstart : Lts.Reachable Initial (fun s e t => step (.sample {}) {} s e = some t)
      (reportService false) := .start (initial_reportService false)
  have hnodup := h (.sample {}) {} s (hstart.run hs)
  rw [htwice] at hnodup
  revert hnodup
  decide

end CronService

end OpenClaw.Cron
