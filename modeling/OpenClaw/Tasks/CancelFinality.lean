import OpenClaw.Tasks.OutcomeFinality

/-!
# Cancellations and outcomes

A cancellation writes `cancelled` over a task that is still active or was killed provisionally
(`StillCancellable`), unless an outcome overtook it (`PendingCancel.Overtaken`): that of an ACP
task, which is not looked at again after the await, or of another row of the run.
-/

namespace OpenClaw.Tasks

open Lts

variable {registry registry' : TaskRegistry} {deps : TaskRegistryDeps}
  {store : TaskRegistryStore} {pending : PendingCancel} {row : TaskRecord} {now : Int}

/-- The task is still active or provisionally killed. -/
def StillCancellable (row : TaskRecord) : Prop :=
  isActiveTaskStatus row.status ∨ isProvisionalSubagentKillTask row

/-- The rows that the write of a cancellation goes to. -/
def PendingCancel.Reaches (pending : PendingCancel) (registry : TaskRegistry) (row : TaskRecord) :
    Prop :=
  if pending.isRunScoped then
    row ∈ getTasksByRunScope registry (pending.task.runId.getD "") (some pending.task.runtime)
      (normalizeOptionalString pending.task.childSessionKey)
  else registry.getTask pending.task.taskId = some row

/-- An outcome has come before the write: for ACP while the session was cancelled, for a subagent
in another row of the run, or by another cancellation of a run that was killed before the call. -/
def PendingCancel.Overtaken (pending : PendingCancel) (row : TaskRecord) : Prop :=
  match pending.task.runtime with
  | .acp =>
    if pending.isRunScoped then row.status = .succeeded ∨ row.status = .cancelled
    else isTerminalTaskStatus row.status
  | .subagent =>
    (row.status = .succeeded ∧ row.taskId ≠ pending.task.taskId) ∨
      (row.status = .cancelled ∧ ¬ isProvisionalSubagentKillTask row ∧
        (row.taskId ≠ pending.task.taskId ∨ pending.provisional))
  | _ => False

/-- A row that the write goes to is still cancellable, or keeps the outcome it has. -/
def PendingCancel.Writable (pending : PendingCancel) (row : TaskRecord) : Prop :=
  if pending.isRunScoped then
    row.status = .succeeded ∨ row.status = .cancelled → StillCancellable row
  else StillCancellable row

/-! ## The write -/

theorem shouldApplyRunScopedStatusUpdate_cancelled {params : RunScopedStatusUpdate}
    (hnext : params.nextStatus = .cancelled) (h : shouldApplyRunScopedStatusUpdate params = true) :
    isActiveTaskStatus params.currentStatus ∨ params.currentStatus = .succeeded ∨
      params.currentStatus = .cancelled := by
  obtain ⟨currentStatus, currentRuntime, child, currentError, currentEndedAt, nextStatus, nextError,
    nextEndedAt⟩ := params
  unfold shouldApplyRunScopedStatusUpdate at h
  subst hnext
  cases currentStatus <;> simp [isActiveTaskStatus, isTerminalTaskStatus] at h ⊢

theorem still_of_writable_scope (hscoped : pending.isRunScoped = true) (h : pending.Writable row)
    (hkeep : (pending.runUpdate registry now).skips row = false) : StillCancellable row := by
  unfold PendingCancel.Writable at h
  rw [if_pos hscoped] at h
  cases shouldApplyRunScopedStatusUpdate_cancelled rfl (skips_eq_false rfl hkeep) with
  | inl hactive => exact .inl hactive
  | inr hover => exact h hover

/-- What the write leaves of a row: the row, or a cancelled one in place of one that still could
be cancelled. -/
def CancelWritten (registry registry' : TaskRegistry) : Prop :=
  ∀ id, registry'.getTask id = registry.getTask id ∨
    ∃ current next, registry.getTask id = some current ∧ registry'.getTask id = some next ∧
      StillCancellable current ∧ next.status = .cancelled

variable (store now) in
theorem writeCancelled_written (h : Indexed registry)
    (hwritable : ∀ row, pending.Reaches registry row → pending.Writable row) :
    CancelWritten registry (writeCancelled store registry now pending).2 := by
  intro id
  unfold writeCancelled
  split
  · rename_i hscoped
    cases scopePatches_row store h
        (fun current => !(pending.runUpdate registry now).skips current)
        (pending.runUpdate registry now).patch id with
    | inl hsame => exact .inl hsame
    | inr hchanged =>
      obtain ⟨current, hmem, _, hkeep, hget, hnext⟩ := hchanged
      have hreach : pending.Reaches registry current := by
        unfold PendingCancel.Reaches
        rw [if_pos hscoped]
        exact hmem
      exact .inr ⟨current, _, hget, hnext,
        still_of_writable_scope hscoped (hwritable current hreach) (by simpa using hkeep), next_status _ _⟩
  · rename_i hrow
    cases updateTask_row store registry pending.task.taskId (pending.rowPatch registry now) id with
    | inl hsame => exact .inl hsame
    | inr hchanged =>
      obtain ⟨rfl, current, hget, hnext, _⟩ := hchanged
      have hreach : pending.Reaches registry current := by
        unfold PendingCancel.Reaches
        rw [if_neg hrow]
        exact hget
      have hlive := hwritable current hreach
      unfold PendingCancel.Writable at hlive
      rw [if_neg hrow] at hlive
      exact .inr ⟨current, _, hget, hnext, hlive, next_status _ _⟩

theorem writeCancelled_returned (h : Indexed registry)
    (hwritable : ∀ row, pending.Reaches registry row → pending.Writable row)
    (hreturned : (writeCancelled store registry now pending).1 = some row) :
    ∃ current, registry.getTask pending.task.taskId = some current ∧ StillCancellable current := by
  unfold writeCancelled at hreturned
  split at hreturned
  · rename_i hscoped
    have hid : row.taskId = pending.task.taskId := by simpa using List.find?_some hreturned
    obtain ⟨_, current, hfound, hget, hkeep, _⟩ :=
      updateTaskStateByRunId_returns h (List.mem_of_find?_eq_some hreturned)
    have hreach : pending.Reaches registry current := by
      unfold PendingCancel.Reaches
      rw [if_pos hscoped]
      exact hfound
    exact ⟨current, hid ▸ hget, still_of_writable_scope hscoped (hwritable current hreach) hkeep⟩
  · rename_i hrow
    obtain ⟨_, current, hget, _, _⟩ := updateTask_returns hreturned
    have hreach : pending.Reaches registry current := by
      unfold PendingCancel.Reaches
      rw [if_neg hrow]
      exact hget
    have hlive := hwritable current hreach
    unfold PendingCancel.Writable at hlive
    rw [if_neg hrow] at hlive
    exact ⟨current, hget, hlive⟩

/-! ## The row is read again -/

variable {params : CancelTaskParams} {cronAborted : Bool}

theorem beginCancel_writes (h : beginCancel registry params cronAborted = .writes pending) :
    registry.getTask pending.task.taskId = some pending.task ∧ StillCancellable pending.task ∧
      pending.task.runtime ≠ .acp := by
  unfold beginCancel at h
  split at h
  · cases h
  · rename_i task htask
    dsimp only at h
    split at h
    · cases h
    · rename_i hlive
      have hstill : StillCancellable task := by
        rw [isTerminalTaskStatus_eq_not_active] at hlive
        unfold StillCancellable
        grind
      have hget := (getTask_taskId htask).symm ▸ htask
      split at h
      · rename_i hruntime
        cases h
        exact ⟨hget, hstill, by simp [hruntime]⟩
      · rename_i hruntime
        split at h
        · cases h
        · cases h
          exact ⟨hget, hstill, by simp [hruntime]⟩
      · split at h <;> cases h
      · rename_i hruntime
        split at h
        · cases h
        · split at h
          · cases h
            exact ⟨hget, hstill, by simp [hruntime]⟩
          · cases h
      · split at h <;> cases h

theorem reconciled_kill (params : RunFinalization) (h : Indexed registry)
    (hruntime : params.runtime = some .subagent) (hstatus : params.status = .cancelled)
    (herror : params.error = some SUBAGENT_KILL_TASK_ERROR)
    (hmem : row ∈ (finalizeTaskRunByRunId store registry params).1) :
    (finalizeTaskRunByRunId store registry params).2.getTask row.taskId = some row ∧
      isProvisionalSubagentKillTask row = true := by
  obtain ⟨hafter, current, hfound, _, _, hrow⟩ := updateTaskStateByRunId_returns h hmem
  refine ⟨hafter, ?_⟩
  have hsubagent : current.runtime = .subagent :=
    runtime_of_mem_getTasksByRunScope hruntime hfound
  rw [hrow]
  unfold isProvisionalSubagentKillTask
  simp [RunStateUpdate.patch, RunFinalization.toRunStateUpdate, hstatus, herror, hsubagent,
    TaskRunOutcome.status]

variable {current : Option TaskRecord} {result : KillSubagentRunResult} {pending' : PendingCancel}

theorem afterReconcile_write
    (h : afterReconcile registry pending current result = .write pending' registry') :
    pending' = pending ∧ registry' = registry := by
  unfold afterReconcile at h
  by_cases hfinalizing : result.isFinalizing = true
  · rw [if_pos hfinalizing] at h
    cases h
  · rw [if_neg hfinalizing] at h
    by_cases hnotKilled : ((!result.found || !result.killed) && !pending.provisional) = true
    · rw [if_pos hnotKilled] at h
      cases h
    · rw [if_neg hnotKilled] at h
      cases h
      exact ⟨rfl, rfl⟩

/-- The registry before the write that a decision may ask for. -/
def CancelDecision.before : CancelDecision → TaskRegistry
  | .answer _ registry | .write _ registry => registry

/-- A decision not to write reports that nothing was cancelled. -/
def CancelDecision.Refuses : CancelDecision → Prop
  | .answer result _ => result.cancelled = false
  | .write _ _ => True

theorem afterReconcile_decision (registry : TaskRegistry) (pending : PendingCancel)
    (current : Option TaskRecord) (result : KillSubagentRunResult) :
    (afterReconcile registry pending current result).before = registry ∧
      (afterReconcile registry pending current result).Refuses := by
  unfold afterReconcile
  split
  · exact ⟨rfl, rfl⟩
  · split
    · exact ⟨rfl, rfl⟩
    · exact ⟨rfl, trivial⟩

/-- What the registry is once the outcome of a kill was written, if there was one. -/
def ReconciledFrom (store : TaskRegistryStore) (registry : TaskRegistry) (pending : PendingCancel)
    (result : KillSubagentRunResult) (registry' : TaskRegistry) : Prop :=
  registry' = registry ∨ ∃ outcome, result.targetState = some (.terminal outcome) ∧
    registry' = (finalizeTaskRunByRunId store registry
      (reconciledOutcome pending.task result.runId outcome)).2

theorem reconcileKill_decision : ReconciledFrom store registry pending result
        (reconcileKill store registry pending current result).before ∧
      (reconcileKill store registry pending current result).Refuses := by
  unfold reconcileKill
  split
  · rename_i outcome _ htarget
    dsimp only
    split
    · exact ⟨.inr ⟨outcome, htarget, rfl⟩, rfl⟩
    · split
      · have hafter := afterReconcile_decision (finalizeTaskRunByRunId store registry
          (reconciledOutcome pending.task result.runId outcome)).2
          { pending with provisional := true } current result
        exact ⟨.inr ⟨outcome, htarget, hafter.1⟩, hafter.2⟩
      · exact ⟨.inr ⟨outcome, htarget, rfl⟩, rfl⟩
  · have hafter := afterReconcile_decision registry pending current result
    exact ⟨.inl hafter.1, hafter.2⟩

theorem reconcileKill_write (h : Indexed registry)
    (hwrite : reconcileKill store registry pending current result = .write pending' registry') :
    (pending' = pending ∧ registry' = registry) ∨
      (pending'.task = pending.task ∧ ∃ row, registry'.getTask pending.task.taskId = some row ∧
        isProvisionalSubagentKillTask row = true) := by
  unfold reconcileKill at hwrite
  split at hwrite
  · rename_i outcome _ _
    dsimp only at hwrite
    split at hwrite
    · cases hwrite
    · rename_i record hrecord
      split at hwrite
      · rename_i hkill
        obtain ⟨rfl, rfl⟩ := afterReconcile_write hwrite
        simp only [Bool.and_eq_true, decide_eq_true_eq] at hkill
        have hid : record.taskId = pending.task.taskId := by simpa using List.find?_some hrecord
        have hrow := reconciled_kill (reconciledOutcome pending.task result.runId outcome) h rfl
          hkill.1 hkill.2 (List.mem_of_find?_eq_some hrecord)
        exact .inr ⟨rfl, record, hid ▸ hrow.1, hrow.2⟩
      · cases hwrite
  · exact .inl (afterReconcile_write hwrite)

variable (store registry pending) in
theorem afterKill_decision (result : KillSubagentRunResult) :
    ReconciledFrom store registry pending result (afterKill store registry pending result).before ∧
      (afterKill store registry pending result).Refuses := by
  unfold afterKill
  dsimp only
  split
  · exact reconcileKill_decision
  · split
    · exact ⟨.inl rfl, rfl⟩
    · split
      · exact ⟨.inl rfl, rfl⟩
      · exact reconcileKill_decision

/-- **The second look.** If a kill leads to a write, the row of the task is still cancellable, or it
was cancelled while a call waited that began on a killed row. -/
theorem afterKill_write (h : Indexed registry)
    (hwrite : afterKill store registry pending result = .write pending' registry') :
    pending'.task = pending.task ∧ ∀ row, registry'.getTask pending.task.taskId = some row →
      StillCancellable row ∨ (row.status = .cancelled ∧ pending'.provisional = true) := by
  unfold afterKill at hwrite
  dsimp only at hwrite
  split at hwrite
  · rename_i hnone
    obtain ⟨rfl, rfl⟩ | ⟨htask, killed, hkilled, hprovisional⟩ := reconcileKill_write h hwrite
    · refine ⟨rfl, fun row hrow => ?_⟩
      rw [hnone] at hrow
      cases hrow
    · refine ⟨htask, fun row hrow => .inl (.inr ?_)⟩
      rw [show registry'.getTask pending.task.taskId = some killed from hkilled] at hrow
      cases hrow
      exact hprovisional
  · rename_i current hcurrent
    split at hwrite
    · cases hwrite
    · rename_i hover
      split at hwrite
      · cases hwrite
      · rename_i hcancelled
        obtain ⟨rfl, rfl⟩ | ⟨htask, killed, hkilled, hprovisional⟩ := reconcileKill_write h hwrite
        · refine ⟨rfl, fun row hrow => ?_⟩
          rw [hcurrent] at hrow
          cases hrow
          rw [isTerminalTaskStatus_eq_not_active] at hover
          unfold StillCancellable
          grind
        · refine ⟨htask, fun row hrow => .inl (.inr ?_)⟩
          rw [show registry'.getTask pending.task.taskId = some killed from hkilled] at hrow
          cases hrow
          exact hprovisional

/-! ## Overtaken or not -/

theorem writable_of_not_overtaken (hruntime : pending.task.runtime = .subagent)
    (hnot : ¬ pending.Overtaken row)
    (hself : row.taskId = pending.task.taskId →
      StillCancellable row ∨ (row.status = .cancelled ∧ pending.provisional = true))
    (hscope : pending.isRunScoped = true ∨ row.taskId = pending.task.taskId) :
    pending.Writable row := by
  unfold PendingCancel.Overtaken at hnot
  rw [hruntime] at hnot
  have hstill : row.taskId = pending.task.taskId → StillCancellable row := by
    intro hid
    cases hself hid with
    | inl hlive => exact hlive
    | inr hlate =>
      by_cases hkilled : isProvisionalSubagentKillTask row = true
      · exact .inr hkilled
      · exact absurd (.inr ⟨hlate.1, hkilled, .inr hlate.2⟩) hnot
  unfold PendingCancel.Writable
  split
  · intro hover
    by_cases hid : row.taskId = pending.task.taskId
    · exact hstill hid
    · cases hover with
      | inl hsucceeded => exact absurd (.inl ⟨hsucceeded, hid⟩) hnot
      | inr hcancelled =>
        refine .inr ?_
        by_contra hkilled
        exact hnot (.inr ⟨hcancelled, hkilled, .inl hid⟩)
  · rename_i hscoped
    exact hstill (hscope.resolve_left hscoped)

theorem taskId_of_reaches (hscoped : ¬ pending.isRunScoped = true)
    (h : pending.Reaches registry row) : registry.getTask pending.task.taskId = some row := by
  unfold PendingCancel.Reaches at h
  rw [if_neg hscoped] at h
  exact h

theorem reaches_getTask (h : pending.Reaches registry row) :
    registry.getTask row.taskId = some row := by
  unfold PendingCancel.Reaches at h
  split at h
  · exact getTask_of_mem_getTasksByRunScope h
  · exact (getTask_taskId h).symm ▸ h

theorem reaches_scope (h : pending.Reaches registry row) :
    pending.isRunScoped = true ∨ row.taskId = pending.task.taskId := by
  by_cases hscoped : pending.isRunScoped = true
  · exact .inl hscoped
  · exact .inr (getTask_taskId (taskId_of_reaches hscoped h))

theorem beginCancel_writable (h : beginCancel registry params cronAborted = .writes pending)
    (hnot : ∀ row, pending.Reaches registry row → ¬ pending.Overtaken row) :
    ∀ row, pending.Reaches registry row → pending.Writable row := by
  intro row hrow
  obtain ⟨hget, hstill, hacp⟩ := beginCancel_writes h
  have hself : row.taskId = pending.task.taskId → StillCancellable row := by
    intro hid
    have hsame := reaches_getTask hrow
    rw [hid, hget] at hsame
    cases hsame
    exact hstill
  by_cases hsubagent : pending.task.runtime = .subagent
  · exact writable_of_not_overtaken hsubagent (hnot row hrow) (fun hid => .inl (hself hid))
      (reaches_scope hrow)
  · have hscoped : ¬ pending.isRunScoped = true := by
      simp [PendingCancel.isRunScoped, hacp, hsubagent]
    unfold PendingCancel.Writable
    rw [if_neg hscoped]
    exact hself ((reaches_scope hrow).resolve_left hscoped)

theorem resume_writable (h : Indexed registry) {answer : CancelAnswer}
    (hfits : answer.Fits pending)
    (hwrite : answer.resume store registry pending = .write pending' registry')
    (hnot : ∀ row, pending'.Reaches registry' row → ¬ pending'.Overtaken row) :
    ∀ row, pending'.Reaches registry' row → pending'.Writable row := by
  intro row hrow
  cases answer with
  | threw message => cases hwrite
  | acpCancelled =>
    cases hwrite
    have hover := hnot row hrow
    unfold PendingCancel.Overtaken at hover
    rw [show pending.task.runtime = .acp from hfits] at hover
    unfold PendingCancel.Writable
    split
    · rename_i hscoped
      rw [if_pos hscoped] at hover
      exact fun hlate => absurd hlate hover
    · rename_i hscoped
      rw [if_neg hscoped, isTerminalTaskStatus_eq_not_active] at hover
      exact .inl (by simpa using hover)
  | subagentKilled result =>
    obtain ⟨htask, hrows⟩ := afterKill_write h hwrite
    have hruntime : pending'.task.runtime = .subagent := htask ▸ hfits
    refine writable_of_not_overtaken hruntime (hnot row hrow) (fun hid => ?_) (reaches_scope hrow)
    refine hrows row ?_
    rw [← htask, ← hid]
    exact reaches_getTask hrow

end OpenClaw.Tasks
