import OpenClaw.Tasks.Inspection
import OpenClaw.Tasks.RowUpdates

/-!
# Inspection agrees with maintenance

**Theorem (`inspection_agrees_iff`).** Where writes succeed, the preview counts what the pass counts,
and what is shown of each row is what the pass leaves of it, exactly when every outcome that the
cron service has for a row ends no earlier than the row started and has a summary without blanks to
be collapsed.

The pass is one round for each row (`maintainTask_spec`), and a round touches its own row alone, so
that the pass leaves of a row what its round makes of it (`pass_spec`, `leftOf`). A row is shown as
it is projected, and written through `updateTask`, which puts its times in order: the two differ
where the end of a projected row comes before its start.
-/

namespace OpenClaw.Tasks

open KeyedList Lts

variable {host : MaintenanceHost} {now : Int} {store : TaskRegistryStore} {registry : TaskRegistry}
  {task : TaskRecord} {taskId : String}

/-! ## One round -/

section Round

variable (hstore : ∀ n, store.throws n = false)
include hstore

theorem updateTask_of_get (hget : registry.getTask taskId = some task) (patch : TaskPatch) :
    ∃ registry', updateTask store registry taskId patch = (some (patch.next task), registry') ∧
      ∀ id, registry'.getTask id =
        if id = taskId then some (patch.next task) else registry.getTask id := by
  cases updateTask_cases store registry taskId patch with
  | inl hfails => simp [hget, hstore] at hfails
  | inr hwrites =>
    obtain ⟨current, hcurrent, -, heq⟩ := hwrites
    obtain rfl : current = task := Option.some.inj (hcurrent.symm.trans hget)
    exact ⟨_, heq, getTask_withRow hget⟩

theorem deleteTaskRecordById_of_get (hget : registry.getTask taskId = some task) :
    ∃ registry', deleteTaskRecordById store registry taskId = (true, registry') ∧
      ∀ id, registry'.getTask id = if id = taskId then none else registry.getTask id := by
  unfold deleteTaskRecordById TaskRegistry.write
  simp only [hget, hstore, Bool.false_eq_true, if_false]
  exact ⟨_, rfl, fun id => get_filter_ne taskId⟩

/-- What a pass leaves of a row. -/
def leftOf (host : MaintenanceHost) (now : Int) (task : TaskRecord) : Option TaskRecord :=
  match resolveDurableCronTaskRecovery host task with
  | some recovery => some (recovery.mark.patch.next task)
  | none =>
    if shouldMarkLost task (backingMissing host now task) then
      some ((lostMark task now (resolveTaskLostError host task)).patch.next task)
    else if shouldPruneTerminalTask now task then none
    else if shouldStampCleanupAfter task then
      some (TaskPatch.next { cleanupAfter := some (resolveTaskCleanupAfter task) } task)
    else some task

omit hstore in
theorem status_ne_of_recovery {recovery : CronTerminalRecovery}
    (h : resolveDurableCronTaskRecovery host task = some recovery) :
    recovery.status.outcome.status ≠ task.status := by
  intro heq
  unfold resolveDurableCronTaskRecovery at h
  split at h
  · rename_i hrecoverable
    cases hstatus : recovery.status <;> rw [hstatus] at heq <;>
      simp [isRecoverableCronTask, isRecoverableLostCronTask, isActiveTaskStatus, ← heq,
        CronRunStatus.outcome, TaskRunOutcome.status] at hrecoverable
  · cases h

theorem maintainTask_spec (hid : JsString.trim task.taskId = task.taskId)
    (hget : registry.getTask task.taskId = some task) (summary : TaskRegistryMaintenanceSummary) :
    ∃ registry', maintainTask host now store (summary, registry) task =
        (previewTask host now summary task, registry') ∧
      ∀ id, registry'.getTask id =
        if id = task.taskId then leftOf host now task else registry.getTask id := by
  have hread : getTaskById registry task.taskId = some task := by rw [getTaskById, hid, hget]
  unfold maintainTask previewTask leftOf
  simp only [hread]
  cases hrecovery : resolveDurableCronTaskRecovery host task with
  | some recovery =>
    obtain ⟨registry', heq, hrows⟩ := updateTask_of_get hstore hget recovery.mark.patch
    refine ⟨registry', ?_, hrows⟩
    have hstatus : (recovery.mark.patch.next task).status ≠ task.status := by
      rw [next_status]
      exact status_ne_of_recovery hrecovery
    simp only [markTaskRecovered, markTaskTerminalById, heq, Option.getD_some, if_pos hstatus,
      Option.isSome_some, if_true]
  | none =>
    simp only [Option.isSome_none, Bool.false_eq_true, if_false]
    by_cases hlost : shouldMarkLost task (backingMissing host now task) = true
    · simp only [hlost, if_true]
      obtain ⟨registry', heq, hrows⟩ := updateTask_of_get hstore hget
        (lostMark task now (resolveTaskLostError host task)).patch
      refine ⟨registry', ?_, hrows⟩
      have hsame : hasTaskLostDecisionInputChanged task task = false := by
        simp [hasTaskLostDecisionInputChanged]
      have hstatus : ((lostMark task now (resolveTaskLostError host task)).patch.next task).status =
          .lost := next_status _ _
      simp only [reconcileTask, hread, hsame, markTaskLost, markTaskLostById, heq,
        Option.getD_some, hstatus, Bool.false_and, Bool.false_eq_true, if_false, if_true]
    · simp only [hlost, if_false, Bool.false_eq_true]
      by_cases hprune : shouldPruneTerminalTask now task = true
      · obtain ⟨registry', heq, hrows⟩ := deleteTaskRecordById_of_get hstore hget
        refine ⟨registry', ?_, by simpa [hprune] using hrows⟩
        simp [hprune, heq]
      · by_cases hstamp : shouldStampCleanupAfter task = true
        · obtain ⟨registry', heq, hrows⟩ := updateTask_of_get hstore hget
            { cleanupAfter := some (resolveTaskCleanupAfter task) }
          refine ⟨registry', ?_, by simpa [hprune, hstamp] using hrows⟩
          simp [hprune, hstamp, setTaskCleanupAfterById, heq]
        · refine ⟨registry, by simp [hprune, hstamp], fun id => ?_⟩
          by_cases hid' : id = task.taskId
          · simp [hid', hprune, hstamp, hget]
          · simp [hid']

/-! ## The pass -/

variable (host now) in
theorem pass_spec {tasks : List TaskRecord}
    (hids : ∀ task ∈ tasks, JsString.trim task.taskId = task.taskId)
    (hnodup : (tasks.map TaskRecord.taskId).Nodup)
    (hget : ∀ task ∈ tasks, registry.getTask task.taskId = some task)
    (summary : TaskRegistryMaintenanceSummary) :
    (tasks.foldl (maintainTask host now store) (summary, registry)).1 =
        tasks.foldl (previewTask host now) summary ∧
      (∀ id, id ∉ tasks.map TaskRecord.taskId →
        (tasks.foldl (maintainTask host now store) (summary, registry)).2.getTask id =
          registry.getTask id) ∧
      ∀ task ∈ tasks,
        (tasks.foldl (maintainTask host now store) (summary, registry)).2.getTask task.taskId =
          leftOf host now task := by
  induction tasks generalizing registry summary with
  | nil => exact ⟨rfl, fun _ _ => rfl, fun _ h => absurd h List.not_mem_nil⟩
  | cons first rest ih =>
    rw [List.map_cons, List.nodup_cons] at hnodup
    rw [List.forall_mem_cons] at hids hget
    obtain ⟨registry', heq, hrows⟩ :
        ∃ registry', maintainTask host now store (summary, registry) first =
          (previewTask host now summary first, registry') ∧ _ :=
      maintainTask_spec hstore hids.1 hget.1 summary
    have hother : ∀ task ∈ rest, task.taskId ≠ first.taskId := fun task htask hsame =>
      hnodup.1 (hsame ▸ List.mem_map_of_mem htask)
    obtain ⟨hsummary, hkept, hleft⟩ := ih hids.2 hnodup.2
      (fun task htask => by rw [hrows, if_neg (hother task htask), hget.2 task htask])
      (previewTask host now summary first)
    simp only [List.foldl_cons, heq]
    refine ⟨hsummary, fun id hid => ?_, fun task htask => ?_⟩
    · rw [List.map_cons, List.mem_cons, not_or] at hid
      rw [hkept id hid.2, hrows, if_neg hid.1]
    · rcases List.mem_cons.1 htask with rfl | htask
      · rw [hkept _ hnodup.1, hrows, if_pos rfl]
      · exact hleft task htask

end Round

/-! ## One row, shown and left -/

/-- The fields of an outcome are the same. -/
structure SameOutcome (shown left : TaskRecord) : Prop where
  status : left.status = shown.status
  startedAt : left.startedAt = shown.startedAt
  endedAt : left.endedAt = shown.endedAt
  error : left.error = shown.error
  terminalSummary : left.terminalSummary = shown.terminalSummary

section Patched

variable {patch : TaskPatch} {current : TaskRecord}

theorem next_terminalSummary (patch : TaskPatch) (current : TaskRecord) :
    (patch.next current).terminalSummary =
      patch.terminalSummary.getD current.terminalSummary := by
  unfold TaskPatch.next withCleanupAfter
  split <;> rfl

theorem next_startedAt (hstarted : patch.startedAt = none) :
    (patch.next current).startedAt = current.startedAt := by
  have hsame : (patch.apply current).startedAt = current.startedAt := by
    simp [TaskPatch.apply, hstarted]
  have hfloor := map_max_eq_self (@lifecycleFloor_le (patch.apply current)).2.1
  unfold TaskPatch.next withCleanupAfter normalizeTaskTimestamps
  split <;> simpa only [hsame] using hfloor

theorem next_endedAt_iff {ended : Int} (hstarted : patch.startedAt = none)
    (hended : patch.endedAt = some ended) :
    (patch.next current).endedAt = some ended ↔ ∀ time ∈ current.startedAt, time ≤ ended := by
  have hsame : (patch.apply current).startedAt = current.startedAt := by
    simp [TaskPatch.apply, hstarted]
  have hnew : (patch.apply current).endedAt = some ended := by simp [TaskPatch.apply, hended]
  have hfloor := @lifecycleFloor_le (patch.apply current)
  have hnext : (patch.next current).endedAt =
      some (max ended (current.startedAt.getD (lifecycleFloor (patch.apply current)))) := by
    have hstart := map_max_eq_self hfloor.2.1
    rw [hsame] at hstart
    unfold TaskPatch.next withCleanupAfter normalizeTaskTimestamps
    split <;> simp [hsame, hnew, hstart]
  rw [hnext, Option.some.injEq, max_eq_left_iff]
  cases hcurrent : current.startedAt with
  | none => simpa using hfloor.2.2.2 ended hnew
  | some time => simp

end Patched

/-- The end of the outcome is not before the start of the row, and its summary is kept as it is. -/
def OutcomeFits (task : TaskRecord) (recovery : CronTerminalRecovery) : Prop :=
  (∀ time ∈ task.startedAt, time ≤ recovery.endedAt) ∧
    ∀ text ∈ recovery.terminalSummary, normalizeTaskSummary (some text) = some text

theorem sameOutcome_recovered_iff (recovery : CronTerminalRecovery) :
    SameOutcome (projectTaskRecovered task recovery) (recovery.mark.patch.next task) ↔
      OutcomeFits task recovery := by
  have hended : (recovery.mark.patch.next task).endedAt = some recovery.endedAt ↔ _ :=
    next_endedAt_iff rfl rfl
  have hsummary : (recovery.mark.patch.next task).terminalSummary =
        recovery.terminalSummary.or task.terminalSummary ↔
      ∀ text ∈ recovery.terminalSummary, normalizeTaskSummary (some text) = some text := by
    rw [next_terminalSummary]
    show ((recovery.terminalSummary.map some).map normalizeTaskSummary).getD _ = _ ↔ _
    cases recovery.terminalSummary <;> simp
  refine ⟨fun h => ⟨hended.1 h.endedAt, hsummary.1 h.terminalSummary⟩, fun h => ?_⟩
  exact ⟨next_status _ _, next_startedAt rfl, hended.2 h.1, next_error _ _, hsummary.2 h.2⟩

theorem sameOutcome_lost (htimes : TimesOrdered task)
    (h : shouldMarkLost task (backingMissing host now task) = true) :
    SameOutcome (projectTaskLost host now task)
      ((lostMark task now (resolveTaskLostError host task)).patch.next task) where
  status := next_status _ _
  startedAt := next_startedAt rfl
  endedAt := by
    refine (next_endedAt_iff rfl rfl).2 fun time htime => ?_
    have hgrace : hasLostGraceExpired now task = true := by
      simp only [shouldMarkLost, backingMissing, Bool.and_eq_true] at h
      exact h.2.1
    rw [Option.mem_def] at htime
    show time ≤ task.endedAt.getD now
    -- the row was last heard of after its start and before the grace
    cases hended : task.endedAt with
    | some ended => simpa [htime] using htimes.2.2 ended hended
    | none =>
      have hreference : time ≤ (task.lastEventAt.or task.startedAt).getD task.createdAt := by
        cases hlast : task.lastEventAt with
        | some last => simpa [htime] using htimes.2.1 last hlast
        | none => simp [htime]
      simp only [hasLostGraceExpired, decide_eq_true_eq] at hgrace
      simp only [Option.getD_none]
      split at hgrace <;>
        simp only [CHILDLESS_NATIVE_SUBAGENT_RECONCILE_GRACE_MS, TASK_RECONCILE_GRACE_MS] at hgrace <;>
        omega
  error := next_error _ _
  terminalSummary := next_terminalSummary _ _

theorem sameOutcome_stamped (htimes : TimesOrdered task) (cleanupAfter : Int) :
    SameOutcome task (TaskPatch.next { cleanupAfter := some cleanupAfter } task) where
  status := next_status _ _
  startedAt := next_startedAt rfl
  endedAt := by
    have heq : normalizeTaskTimestamps (TaskPatch.apply { cleanupAfter := some cleanupAfter } task) =
        { task with cleanupAfter := some cleanupAfter } := by
      have hpatch : TaskPatch.apply { cleanupAfter := some cleanupAfter } task =
          { task with cleanupAfter := some cleanupAfter } := by simp [TaskPatch.apply]
      exact TimesOrdered.normalizeTaskTimestamps_eq ⟨htimes.1, htimes.2.1, htimes.2.2⟩
    unfold TaskPatch.next withCleanupAfter
    rw [heq]
    split <;> rfl
  error := next_error _ _
  terminalSummary := next_terminalSummary _ _

/-- The shown row has the outcome of the one that is left, or it is a terminal row pruned. -/
def ShownAsLeft (now : Int) (shown : TaskRecord) (left : Option TaskRecord) : Prop :=
  (∃ row, left = some row ∧ SameOutcome shown row) ∨
    left = none ∧ shouldPruneTerminalTask now shown = true

theorem shownAsLeft_iff (htimes : TimesOrdered task) :
    ShownAsLeft now (reconcileTaskRecordForOperatorInspection host now task)
        (leftOf host now task) ↔
      ∀ recovery, resolveDurableCronTaskRecovery host task = some recovery →
        OutcomeFits task recovery := by
  unfold ShownAsLeft reconcileTaskRecordForOperatorInspection leftOf
  cases hrecovery : resolveDurableCronTaskRecovery host task with
  | some recovery => simp [sameOutcome_recovered_iff]
  | none =>
    simp only [reduceCtorEq, false_implies, implies_true, iff_true]
    by_cases hlost : shouldMarkLost task (backingMissing host now task) = true
    · exact .inl ⟨_, if_pos hlost, by simpa only [hlost, if_true] using sameOutcome_lost htimes hlost⟩
    · simp only [hlost, if_false, Bool.false_eq_true]
      by_cases hprune : shouldPruneTerminalTask now task = true
      · exact .inr ⟨if_pos hprune, hprune⟩
      · simp only [hprune, if_false, Bool.false_eq_true]
        by_cases hstamp : shouldStampCleanupAfter task = true
        · exact .inl ⟨_, if_pos hstamp, sameOutcome_stamped htimes _⟩
        · exact .inl ⟨_, if_neg hstamp, ⟨rfl, rfl, rfl, rfl, rfl⟩⟩

theorem taskId_reconcile :
    (reconcileTaskRecordForOperatorInspection host now task).taskId = task.taskId := by
  unfold reconcileTaskRecordForOperatorInspection
  split
  · rfl
  · split <;> rfl

/-! ## Inspection and the pass -/

/-- What is shown is what the pass leaves, and the preview counts what the pass counts. -/
structure InspectionAgrees (host : MaintenanceHost) (now : Int) (store : TaskRegistryStore)
    (registry : TaskRegistry) : Prop where
  rows : ∀ shown ∈ reconcileInspectableTasks host now registry,
    ShownAsLeft now shown
      ((runTaskRegistryMaintenance host now store registry).2.getTask shown.taskId)
  counts : previewTaskRegistryMaintenance host now registry =
    (runTaskRegistryMaintenance host now store registry).1

section Table

variable {deps : TaskRegistryDeps}
  (hstore : ∀ n, store.throws n = false)
  (h : Reachable RegistryStart (RegistryStep deps) registry)
  (hids : ∀ task ∈ registry.tasks, JsString.trim task.taskId = task.taskId)
include hstore h hids

theorem inspectionAgrees_iff_rows :
    InspectionAgrees host now store registry ↔ ∀ task ∈ registry.tasks, ShownAsLeft now
      (reconcileTaskRecordForOperatorInspection host now task) (leftOf host now task) := by
  have hindexed := (reachable_consistent h).indexed
  have hperm : (listTaskRecords registry).Perm registry.tasks :=
    (List.mergeSort_perm _ _).trans (List.reverse_perm _)
  obtain ⟨hcounts, -, hleft⟩ :=
    pass_spec host now hstore (fun task htask => hids task (hperm.subset htask))
      ((hperm.map _).nodup_iff.2 hindexed.nodup)
      (fun task htask => get_eq_some_of_mem hindexed.nodup (hperm.subset htask)) {}
  have hrow : ∀ task ∈ registry.tasks,
      (runTaskRegistryMaintenance host now store registry).2.getTask
          (reconcileTaskRecordForOperatorInspection host now task).taskId =
        leftOf host now task := by
    intro task htask
    rw [taskId_reconcile]
    exact hleft task (hperm.mem_iff.2 htask)
  refine ⟨fun hagrees task htask => ?_, fun hrows => ⟨fun shown hshown => ?_, hcounts.symm⟩⟩
  · rw [← hrow task htask]
    exact hagrees.rows _ (List.mem_map_of_mem (hperm.mem_iff.2 htask))
  · obtain ⟨task, htask, rfl⟩ := List.mem_map.1 hshown
    rw [hrow task (hperm.subset htask)]
    exact hrows task (hperm.subset htask)

theorem inspection_agrees_iff :
    InspectionAgrees host now store registry ↔
      ∀ task ∈ registry.tasks, ∀ recovery, resolveDurableCronTaskRecovery host task = some recovery →
        OutcomeFits task recovery := by
  rw [inspectionAgrees_iff_rows hstore h hids]
  refine forall₂_congr fun task htask => shownAsLeft_iff ?_
  rw [(reachable_consistent h).agrees.tasks] at htask
  obtain ⟨stored, -, rfl⟩ := List.mem_map.1 htask
  exact timesOrdered_normalizeTaskTimestamps stored

end Table

/-- A cron run that is still in the table, and a process in which the log has its outcome. -/
def cronRun : TaskRecord where
  taskId := "task"
  runtime := .cron
  requesterSessionKey := ""
  ownerKey := ""
  scopeKind := .system
  runId := some "cron:job:1000"
  task := "run"
  status := .running
  deliveryStatus := .notApplicable
  notifyPolicy := .silent
  createdAt := 1000
  startedAt := some 1000

def cronRunHost (summary : String) : MaintenanceHost where
  toLowerCase := id
  readCronRunLogEntriesSync _ := [{
    ts := 1005
    jobId := "job"
    status := some .ok
    summary := some summary
    runAtMs := some 1000
    durationMs := some 5 }]
  cronJobs := []
  isRuntimeAuthoritative := true
  isCronJobActive _ := false
  getAgentRunContext _ := false
  hasActiveAcpTurn _ := false
  isExecTaskBackingAlive _ := false
  deriveSessionChatTypeFromKey _ := .unknown
  loadSessionStore _ := []

theorem resolveDurableCronTaskRecovery_cronRun (summary : String) :
    resolveDurableCronTaskRecovery (cronRunHost summary) cronRun =
      some ⟨.succeeded, 1005, 1005, none, some summary⟩ := by
  have hparse : parseCronExecutionId cronRun = some ⟨"job", 1000⟩ := by decide +kernel
  simp [resolveDurableCronTaskRecovery, isRecoverableCronTask, cronRun, isActiveTaskStatus] at hparse ⊢
  simp [hparse, resolveCronRunLogRecovery, cronRunHost, mapCronTerminalStatus]

theorem reachable_cronRun :
    Reachable RegistryStart (RegistryStep (plainDeps fun _ => false))
      (restoreTaskRegistry { tasks := [cronRun] }) :=
  .start ⟨{ tasks := [cronRun] }, List.nodup_singleton _, rfl⟩

theorem inspection_agrees_cronRun :
    InspectionAgrees (cronRunHost "done") 2000 ⟨true, true, true, true, fun _ => false⟩
      (restoreTaskRegistry { tasks := [cronRun] }) := by
  refine (inspection_agrees_iff (fun _ => rfl) reachable_cronRun (by decide +kernel)).2 ?_
  intro task htask recovery hrecovery
  obtain rfl := List.mem_singleton.1 htask
  cases (resolveDurableCronTaskRecovery_cronRun "done").symm.trans hrecovery
  exact ⟨by decide, by decide +kernel⟩

/-- The summary of the log is shown with its line break, and written without it. -/
theorem inspection_shows_raw_summary :
    ¬ ∀ (host : MaintenanceHost) (now : Int) (store : TaskRegistryStore) (deps : TaskRegistryDeps)
        (registry : TaskRegistry), (∀ n, store.throws n = false) →
      Reachable RegistryStart (RegistryStep deps) registry →
      (∀ task ∈ registry.tasks, JsString.trim task.taskId = task.taskId) →
      InspectionAgrees host now store registry := by
  intro hall
  have hagrees := hall (cronRunHost "two\nlines") 2000 ⟨true, true, true, true, fun _ => false⟩ _ _
    (fun _ => rfl) reachable_cronRun (by decide +kernel)
  have hrow := (inspectionAgrees_iff_rows (fun _ => rfl) reachable_cronRun (by decide +kernel)).1
    hagrees cronRun (List.mem_singleton_self _)
  have htimes : TimesOrdered cronRun := timesOrdered_normalizeTaskTimestamps cronRun
  have hfits := (shownAsLeft_iff htimes).1 hrow _ (resolveDurableCronTaskRecovery_cronRun _)
  exact absurd (hfits.2 _ rfl) (by decide +kernel)

end OpenClaw.Tasks
