import OpenClaw.Tasks.RowUpdates
import OpenClaw.Tasks.TaskSystem

/-!
# Outcomes of tasks are final

What a writer may do to a row that has an outcome (`OutcomeKept`), proved of each writer: the
updates that name a run ask `shouldApplyRunScopedStatusUpdate`, the listener skips rows that are
over, and maintenance looks at the row again after it has waited. The write of a cancellation is
the one that may come too late: after its await an ACP task is not looked at again.
-/

namespace OpenClaw.Tasks

open Lts

/-! ## What is kept -/

/-- An outcome that a writer reports for a row. -/
structure ReportedOutcome where
  status : TaskRunOutcome
  error : Option String
  endedAt : Int

/-- The marker of a subagent that was killed directly. -/
def ReportedOutcome.IsKill (outcome : ReportedOutcome) : Prop :=
  outcome.status = .cancelled ∧ outcome.error = some SUBAGENT_KILL_TASK_ERROR

def RunFinalization.reported (params : RunFinalization) : ReportedOutcome :=
  { status := params.status, error := params.error, endedAt := params.endedAt }

def AgentEvent.reported (event : AgentEvent) (current : TaskRecord) : Option ReportedOutcome :=
  match event.stream with
  | .lifecycle (.finish terminal) _ | .lifecycle (.error terminal) _ =>
    let status := mapAgentRunTerminalOutcomeToTaskStatus terminal
    some
      { status
        error := resolveTaskLifecycleTerminalError current.runtime status terminal.error
        endedAt := terminal.endedAt.getD event.now }
  | _ => none

/-- A row and what it is after a step, in which a writer reported an outcome for it or none. -/
structure OutcomeKept (reported : Option ReportedOutcome) (current next : TaskRecord) : Prop where
  /-- A task that is over is not started again. -/
  terminal : isTerminalTaskStatus current.status → isTerminalTaskStatus next.status
  /-- Only a task that is not over gets lost. -/
  lost : next.status = .lost → current.status = .lost ∨ isActiveTaskStatus current.status
  /-- The marker of a kill changes a task that is not over, or its own. -/
  kill : ∀ outcome ∈ reported, outcome.IsKill → current.runtime = .subagent → next ≠ current →
    isActiveTaskStatus current.status ∨ isProvisionalSubagentKillTask current
  /-- A cancellation gives way to the outcome of a subagent that had ended before it. -/
  cancelled : current.status = .cancelled → ¬ isProvisionalSubagentKillTask current →
    next.status ≠ .cancelled → current.runtime = .subagent ∧
      ∃ outcome ∈ reported, next.status = outcome.status.status ∧
        definedLt (some outcome.endedAt) current.endedAt

variable {reported : Option ReportedOutcome} {current next : TaskRecord}

theorem OutcomeKept.refl (reported : Option ReportedOutcome) (current : TaskRecord) :
    OutcomeKept reported current current where
  terminal := id
  lost := .inl
  kill _ _ _ _ hne := absurd rfl hne
  cancelled hstatus _ hne := absurd hstatus hne

theorem OutcomeKept.of_active (h : isActiveTaskStatus current.status) :
    OutcomeKept reported current next where
  terminal hterminal := by
    rw [isTerminalTaskStatus_eq_not_active, h] at hterminal
    cases hterminal
  lost _ := .inr h
  kill _ _ _ _ _ := .inl h
  cancelled hstatus _ _ := by
    rw [hstatus] at h
    cases h

theorem OutcomeKept.of_status_eq (h : next.status = current.status) :
    OutcomeKept none current next where
  terminal hterminal := h ▸ hterminal
  lost hlost := .inl (h ▸ hlost)
  kill _ hreported := nomatch hreported
  cancelled hstatus _ hne := absurd (h.trans hstatus) hne

/-! ## Updates of a run -/

theorem shouldApplyRunScopedStatusUpdate_spec {params : RunScopedStatusUpdate}
    (h : shouldApplyRunScopedStatusUpdate params = true) :
    isActiveTaskStatus params.currentStatus ∨
      (isTerminalTaskStatus params.nextStatus ∧
        (params.nextStatus = .lost → params.currentStatus = .lost) ∧
        (params.currentRuntime = .subagent → params.nextStatus = .cancelled →
          params.nextError = some SUBAGENT_KILL_TASK_ERROR →
          params.currentStatus = .cancelled ∧
            params.currentError = some SUBAGENT_KILL_TASK_ERROR) ∧
        (params.currentStatus = .cancelled → params.nextStatus ≠ .cancelled →
          params.currentRuntime = .subagent ∧
            (definedLt params.nextEndedAt params.currentEndedAt ∨
              params.currentError = some SUBAGENT_KILL_TASK_ERROR))) := by
  obtain ⟨currentStatus, currentRuntime, child, currentError, currentEndedAt, nextStatus, nextError,
    nextEndedAt⟩ := params
  unfold shouldApplyRunScopedStatusUpdate at h
  cases currentStatus <;> cases nextStatus <;>
    simp [isActiveTaskStatus, isTerminalTaskStatus] at h ⊢ <;> grind

theorem TaskRunOutcome.status_ne_lost (outcome : TaskRunOutcome) : outcome.status ≠ .lost := by
  cases outcome <;> nofun

theorem skips_eq_false {params : RunStateUpdate} {status : TaskStatus}
    (hstatus : params.status = some status) (h : params.skips current = false) :
    shouldApplyRunScopedStatusUpdate (params.against status current) = true := by
  unfold RunStateUpdate.skips at h
  rw [hstatus, Option.any_some] at h
  simpa using h

theorem finalization_kept {params : RunFinalization}
    (h : params.toRunStateUpdate.skips current = false) :
    OutcomeKept (some params.reported) current
      ((params.toRunStateUpdate.patch current).next current) := by
  have hnext : ((params.toRunStateUpdate.patch current).next current).status =
      params.status.status := next_status _ _
  cases shouldApplyRunScopedStatusUpdate_spec (skips_eq_false rfl h) with
  | inl hactive => exact .of_active hactive
  | inr hspec =>
    obtain ⟨hterminal, _, hkill, hcancelled⟩ := hspec
    refine ⟨fun _ => hnext ▸ hterminal, fun hlost => ?_, fun outcome houtcome hmarker hruntime _ => ?_,
      fun hstatus hnot hne => ?_⟩
    · exact absurd (hnext.symm.trans hlost) (TaskRunOutcome.status_ne_lost _)
    · cases houtcome
      have hmarked := hkill hruntime (congrArg TaskRunOutcome.status hmarker.1) hmarker.2
      simp only [RunStateUpdate.against] at hmarked
      exact .inr (by simp [isProvisionalSubagentKillTask, hruntime, hmarked])
    · obtain ⟨hruntime, hreason⟩ := hcancelled hstatus (hnext ▸ hne)
      refine ⟨hruntime, params.reported, rfl, hnext, hreason.resolve_right fun hmarked => hnot ?_⟩
      simp only [RunStateUpdate.against] at hruntime hmarked
      simp [isProvisionalSubagentKillTask, hruntime, hstatus, hmarked]

theorem running_kept {params : RunStateUpdate} (hstatus : params.status = some .running)
    (h : params.skips current = false) :
    OutcomeKept none current ((params.patch current).next current) := by
  cases shouldApplyRunScopedStatusUpdate_spec (skips_eq_false hstatus h) with
  | inl hactive => exact .of_active hactive
  | inr hspec => cases hspec.1

/-! ## Rows of a registry -/

/-- Every row that is there before and after a change keeps its outcome. -/
def RowsKept (reported : TaskRecord → Option ReportedOutcome) (registry registry' : TaskRegistry) :
    Prop :=
  ∀ taskId current next, registry.getTask taskId = some current →
    registry'.getTask taskId = some next → OutcomeKept (reported current) current next

variable {registry registry' : TaskRegistry} {deps : TaskRegistryDeps}
  {store : TaskRegistryStore}

variable {report : TaskRecord → Option ReportedOutcome}

theorem RowsKept.of_changed
    (h : ∀ id, registry'.getTask id = registry.getTask id ∨ registry'.getTask id = none ∨
      ∃ current next, registry.getTask id = some current ∧ registry'.getTask id = some next ∧
        OutcomeKept (report current) current next) : RowsKept report registry registry' := by
  intro taskId current next hcurrent hnext
  obtain hsame | hgone | ⟨current', next', hcurrent', hnext', hkept⟩ := h taskId
  · rw [hsame, hcurrent] at hnext
    cases hnext
    exact .refl _ _
  · rw [hgone] at hnext
    cases hnext
  · rw [hcurrent] at hcurrent'
    rw [hnext] at hnext'
    cases hcurrent'
    cases hnext'
    exact hkept

variable {runId : String} {runtime : Option TaskRuntime} {sessionKey : Option String}

theorem rowsKept_scope (h : Indexed registry) (keep : TaskRecord → Bool)
    (patch : TaskRecord → TaskPatch)
    (hkept : ∀ current ∈ getTasksByRunScope registry runId runtime sessionKey,
      keep current = true → OutcomeKept (report current) current ((patch current).next current)) :
    RowsKept report registry (updateTasks store registry
      (((getTasksByRunScope registry runId runtime sessionKey).filter keep).map fun task =>
        (task.taskId, patch task))).2 := by
  refine .of_changed fun id => ?_
  cases scopePatches_row store h keep patch id with
  | inl hsame => exact .inl hsame
  | inr hchanged =>
    obtain ⟨current, hmem, _, hkeep, hget, hnext⟩ := hchanged
    exact .inr (.inr ⟨current, _, hget, hnext, hkept current hmem hkeep⟩)

variable {taskId : String}

variable {patch : TaskPatch}

theorem rowsKept_updateTask (hkept : ∀ current, registry.getTask taskId = some current →
      OutcomeKept (report current) current (patch.next current)) :
    RowsKept report registry (updateTask store registry taskId patch).2 := by
  refine .of_changed fun id => ?_
  cases updateTask_row store registry taskId patch id with
  | inl hsame => exact .inl hsame
  | inr hchanged =>
    obtain ⟨rfl, current, hget, hnext, _⟩ := hchanged
    exact .inr (.inr ⟨current, _, hget, hnext, hkept current hget⟩)

theorem rowsKept_of_getTask (h : ∀ id, registry'.getTask id = registry.getTask id) :
    RowsKept report registry registry' :=
  .of_changed fun id => .inl (h id)

/-! ## The writers -/

theorem finalize_kept (h : Indexed registry) (params : RunFinalization) :
    RowsKept (fun _ => some params.reported) registry
      (finalizeTaskRunByRunId store registry params).2 :=
  rowsKept_scope h _ _ fun _ _ hkeep => finalization_kept (by simpa using hkeep)

theorem markRunning_kept (h : Indexed registry) (params : RunStateUpdate)
    (hstatus : params.status = some .running) :
    RowsKept (fun _ => none) registry (updateTaskStateByRunId store registry params).2 :=
  rowsKept_scope h _ _ fun _ _ hkeep => running_kept hstatus (by simpa using hkeep)

theorem agentEvent_kept (h : Indexed registry) (event : AgentEvent) :
    RowsKept event.reported registry (onAgentEvent store registry event) := by
  refine rowsKept_scope h _ _ fun current _ hkeep => .of_active ?_
  rw [isTerminalTaskStatus_eq_not_active] at hkeep
  simpa using hkeep

theorem recoverCron_kept {toLowerCase : String → String}
    (hget : registry.getTask taskId = some current)
    (hrecoverable : isRecoverableCronTask toLowerCase current = true)
    (recovery : CronTerminalRecovery) : RowsKept (fun _ => none) registry
      (markTaskTerminalById store registry current.taskId recovery.mark).2 := by
  refine rowsKept_updateTask fun row hrow => ?_
  rw [getTask_taskId hget, hget] at hrow
  cases hrow
  simp only [isRecoverableCronTask, isRecoverableLostCronTask, Bool.and_eq_true, Bool.or_eq_true,
    decide_eq_true_eq] at hrecoverable
  obtain ⟨_, hactive | ⟨hlost, _⟩⟩ := hrecoverable
  · exact .of_active hactive
  · have hnext : (recovery.mark.patch.next current).status = recovery.status.outcome.status :=
      next_status _ _
    refine ⟨fun _ => ?_, fun _ => .inl hlost, nofun, fun hcancelled => ?_⟩
    · rw [hnext]
      cases recovery.status <;> rfl
    · rw [hlost] at hcancelled
      cases hcancelled

theorem resumeMarkLost_kept {pending : PendingLoss} {recheck : LossRecheck}
    (hactive : isActiveTaskStatus pending.task.status = true) :
    RowsKept (fun _ => none) registry (pending.resume store registry recheck) := by
  unfold PendingLoss.resume
  split
  · exact rowsKept_of_getTask fun _ => rfl
  · rename_i fresh hfresh
    dsimp only
    split
    · exact rowsKept_of_getTask fun _ => rfl
    · rename_i hrecheck
      split
      · exact rowsKept_of_getTask fun _ => rfl
      · refine rowsKept_updateTask fun row hrow => .of_active ?_
        rw [getTask_taskId hfresh, hfresh] at hrow
        cases hrow
        simp only [shouldMarkLost, hasTaskLostDecisionInputChanged] at hrecheck
        grind

/-! ## Operations that do not decide outcomes -/

theorem updateStatusless_kept (h : patch.status = none) :
    RowsKept (fun _ => none) registry (updateTask store registry taskId patch).2 := by
  refine rowsKept_updateTask fun row _ => .of_status_eq ?_
  rw [next_status, h]
  rfl

theorem upsertTaskDeliveryState_getTask
    {normalizeDeliveryContext : DeliveryContext → Option DeliveryContext}
    {state : TaskDeliveryState} (id : String) :
    (upsertTaskDeliveryState store normalizeDeliveryContext registry state).2.getTask id =
      registry.getTask id := by
  cases upsertTaskDeliveryState_cases store registry normalizeDeliveryContext state with
  | inl hfails => exact hfails.2.2.getTask id
  | inr hwrites =>
    rw [hwrites.2.2]
    rfl

variable {getTaskFlowById : String → Option TaskFlowRecord} {params : TaskCreateParams}

theorem mergeRow_kept {existing : TaskRecord} {agentId : Option String} :
    RowsKept (fun _ => none) registry
      (mergeRow deps getTaskFlowById registry existing params agentId).2 := by
  unfold mergeRow
  dsimp only
  split
  · exact rowsKept_of_getTask fun _ => rfl
  · split
    · exact rowsKept_of_getTask fun _ => rfl
    · exact updateStatusless_kept rfl

variable {now : Int}

theorem createNewTask_kept (hfresh : registry.getTask taskId = none) :
    RowsKept (fun _ => none) registry (createNewTask deps now taskId registry params).2 := by
  unfold createNewTask
  dsimp only
  cases write_cases deps.store registry (persistTaskUpsert deps.store registry
      (newTaskRecord deps now taskId params)
      ((params.requesterOrigin.bind deps.normalizeDeliveryContext).map fun origin =>
        { taskId, requesterOrigin := some origin })) with
  | inl hthrows =>
    rw [hthrows.2]
    exact rowsKept_of_getTask fun _ => rfl
  | inr hwrites =>
    rw [hwrites.2]
    intro id current next hcurrent hnext
    replace hnext : KeyedList.get TaskRecord.taskId id (KeyedList.put TaskRecord.taskId
      (newTaskRecord deps now taskId params) registry.tasks) = some next := hnext
    rw [KeyedList.get_put, newTaskRecord_taskId] at hnext
    by_cases hid : taskId = id
    · rw [← hid, hfresh] at hcurrent
      cases hcurrent
    · rw [if_neg hid] at hnext
      replace hnext : registry.getTask id = some next := hnext
      rw [hcurrent] at hnext
      cases hnext
      exact .refl _ _

theorem createTaskRecord_kept (hfresh : registry.getTask taskId = none) :
    RowsKept (fun _ => none) registry
      (createTaskRecord deps getTaskFlowById now taskId registry params).2 := by
  by_cases haccepted : Accepted getTaskFlowById params
  · rw [createTaskRecord_of_accepted haccepted]
    split
    · unfold mergeExistingTaskForCreate
      split
      · exact mergeRow_kept
      · dsimp only
        split
        · exact rowsKept_of_getTask upsertTaskDeliveryState_getTask
        · intro id current next hcurrent hnext
          exact mergeRow_kept id current next
            ((upsertTaskDeliveryState_getTask id).trans hcurrent) hnext
    · exact createNewTask_kept hfresh
  · obtain ⟨error, heq⟩ := createTaskRecord_of_not_accepted deps registry now taskId
      haccepted
    rw [heq]
    exact rowsKept_of_getTask fun _ => rfl

theorem linkTaskToFlowById_kept {flowId : String} : RowsKept (fun _ => none) registry
      (linkTaskToFlowById deps getTaskFlowById registry taskId flowId).2 := by
  unfold linkTaskToFlowById
  split
  · exact rowsKept_of_getTask fun _ => rfl
  · exact rowsKept_of_getTask fun _ => rfl
  · split
    · exact rowsKept_of_getTask fun _ => rfl
    · split
      · exact rowsKept_of_getTask fun _ => rfl
      · exact updateStatusless_kept rfl

theorem deleteTaskRecordById_kept :
    RowsKept (fun _ => none) registry (deleteTaskRecordById store registry taskId).2 := by
  unfold deleteTaskRecordById
  split
  · exact rowsKept_of_getTask fun _ => rfl
  · dsimp only
    cases write_cases store registry (persistTaskDelete store registry taskId) with
    | inl hthrows =>
      rw [hthrows.2]
      exact rowsKept_of_getTask fun _ => rfl
    | inr hwrites =>
      rw [hwrites.2]
      refine .of_changed fun id => ?_
      have hfilter : KeyedList.get TaskRecord.taskId id
          (registry.tasks.filter (·.taskId ≠ taskId)) =
            if id = taskId then none else registry.getTask id := KeyedList.get_filter_ne taskId
      by_cases hid : id = taskId
      · rw [if_pos hid] at hfilter
        exact .inr (.inl hfilter)
      · rw [if_neg hid] at hfilter
        exact .inl hfilter

theorem updateStatuslessRun_kept (h : Indexed registry) {params : RunStateUpdate}
    (hstatus : params.status = none) :
    RowsKept (fun _ => none) registry (updateTaskStateByRunId store registry params).2 := by
  refine rowsKept_scope h _ _ fun current _ _ => .of_status_eq ?_
  rw [next_status]
  show params.status.getD current.status = current.status
  rw [hstatus]
  rfl

theorem updateTaskDeliveryByRunId_kept (h : Indexed registry)
    {deliveryStatus : TaskDeliveryStatus} {error : Option String} :
    RowsKept (fun _ => none) registry (updateTaskDeliveryByRunId store registry runId runtime
      sessionKey deliveryStatus error).2 := by
  unfold updateTaskDeliveryByRunId
  rw [← List.filter_true (getTasksByRunScope registry runId runtime sessionKey)]
  exact rowsKept_scope h (fun _ => true)
    (fun _ => { deliveryStatus := some deliveryStatus, error := error.map some })
    fun current _ _ => .of_status_eq (next_status _ _)

theorem perform_kept {op : TaskRegistryOp} (h : Indexed registry) (hkeeps : op.KeepsOutcomes)
    (hpossible : op.Possible registry) :
    RowsKept (fun _ => none) registry (perform deps registry op).2 := by
  cases op with
  | createTaskRecord getTaskFlowById now taskId params => exact createTaskRecord_kept hpossible
  | linkTaskToFlowById getTaskFlowById taskId flowId => exact linkTaskToFlowById_kept
  | markTaskTerminalById taskId mark => exact hkeeps.elim
  | markTaskLostById taskId mark => exact hkeeps.elim
  | onAgentEvent event => exact hkeeps.elim
  | updateTask taskId patch => exact updateStatusless_kept hkeeps.1
  | updateTaskStateByRunId params => exact updateStatuslessRun_kept h hkeeps.1
  | updateTaskDeliveryByRunId runId runtime sessionKey deliveryStatus error =>
    exact updateTaskDeliveryByRunId_kept h
  | upsertTaskDeliveryState state => exact rowsKept_of_getTask upsertTaskDeliveryState_getTask
  | deleteTaskRecordById taskId => exact deleteTaskRecordById_kept
  | setTaskCleanupAfterById taskId cleanupAfter => exact updateStatusless_kept rfl
  | updateTaskProgressById now taskId progressSummary lastEventAt =>
    exact updateStatusless_kept rfl
  | updateTaskNotifyPolicyById now taskId notifyPolicy => exact updateStatusless_kept rfl

end OpenClaw.Tasks
