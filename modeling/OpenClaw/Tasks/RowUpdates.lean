import OpenClaw.Tasks.StoreAgreement
import OpenClaw.Tasks.TaskUpdates

/-!
# What an update does to a row

An update changes the row it names, if the store takes it, and no other. One that goes to all rows
of a run computes the patch of each row from what the row was, and no row is in the run twice, so
every row is as it was or the patched row (`updateTasks_row`).
-/

namespace OpenClaw.Tasks

open KeyedList Multimap

variable {store : TaskRegistryStore} {registry registry' : TaskRegistry} {taskId id : String}
  {patch : TaskPatch} {current row : TaskRecord}

/-! ## The patched row -/

@[simp] theorem next_status (patch : TaskPatch) (current : TaskRecord) :
    (patch.next current).status = patch.status.getD current.status := by
  unfold TaskPatch.next withCleanupAfter
  split <;> rfl

@[simp] theorem next_error (patch : TaskPatch) (current : TaskRecord) :
    (patch.next current).error = patch.error.getD current.error := by
  unfold TaskPatch.next withCleanupAfter
  split <;> rfl

@[simp] theorem next_runtime (patch : TaskPatch) (current : TaskRecord) :
    (patch.next current).runtime = current.runtime := by
  unfold TaskPatch.next withCleanupAfter
  split <;> rfl

/-! ## One row -/

theorem OnlyWrites.getTask (h : OnlyWrites registry registry') (id : String) :
    registry'.getTask id = registry.getTask id := by
  rw [h]
  rfl

theorem getTask_withRow (hget : registry.getTask taskId = some current) (id : String) :
    (registry.withRow store patch current).getTask id =
      if id = taskId then some (patch.next current) else registry.getTask id := by
  have hid : (patch.next current).taskId = taskId :=
    (next_taskId patch current).trans (getTask_taskId hget)
  show get TaskRecord.taskId id (put TaskRecord.taskId (patch.next current) registry.tasks) = _
  rw [get_put, hid]
  simp only [eq_comm]
  rfl

theorem updateTask_row (store : TaskRegistryStore) (registry : TaskRegistry) (taskId : String)
    (patch : TaskPatch) (id : String) :
    (updateTask store registry taskId patch).2.getTask id = registry.getTask id ∨
      id = taskId ∧ ∃ current, registry.getTask id = some current ∧
        (updateTask store registry taskId patch).2.getTask id = some (patch.next current) ∧
        (updateTask store registry taskId patch).1 = some (patch.next current) := by
  cases updateTask_cases store registry taskId patch with
  | inl hfails => exact .inl (hfails.2.2.getTask id)
  | inr hwrites =>
    obtain ⟨current, hget, _, heq⟩ := hwrites
    rw [heq]
    by_cases hid : id = taskId
    · subst hid
      refine .inr ⟨rfl, current, hget, ?_, rfl⟩
      rw [getTask_withRow hget, if_pos rfl]
    · refine .inl ?_
      rw [getTask_withRow hget, if_neg hid]

theorem updateTask_returns (h : (updateTask store registry taskId patch).1 = some row) :
    row.taskId = taskId ∧ ∃ current, registry.getTask taskId = some current ∧
      row = patch.next current ∧
        (updateTask store registry taskId patch).2.getTask taskId = some row := by
  cases updateTask_cases store registry taskId patch with
  | inl hfails =>
    rw [hfails.2.1] at h
    cases h
  | inr hwrites =>
    obtain ⟨current, hget, _, heq⟩ := hwrites
    rw [heq] at h ⊢
    cases h
    have hid := (next_taskId patch current).trans (getTask_taskId hget)
    refine ⟨hid, current, hget, rfl, ?_⟩
    rw [getTask_withRow hget, if_pos rfl]

/-! ## The rows of a run -/

variable {patches : List (String × TaskPatch)}

theorem updateTasks_row_of_not_mem (h : id ∉ patches.map Prod.fst) :
    (updateTasks store registry patches).2.getTask id = registry.getTask id := by
  induction patches generalizing registry with
  | nil => rfl
  | cons p rest ih =>
    rw [List.map_cons, List.mem_cons, not_or] at h
    have hrest := @ih (updateTask store registry p.1 p.2).2 h.2
    refine hrest.trans ?_
    exact (updateTask_row store registry p.1 p.2 id).resolve_right fun hrow => h.1 hrow.1

variable (store registry) in
/-- **A row after an update of several rows**, none of which is named twice. -/
theorem updateTasks_row (hnodup : (patches.map Prod.fst).Nodup) (id : String) :
    (updateTasks store registry patches).2.getTask id = registry.getTask id ∨
      ∃ patch current, (id, patch) ∈ patches ∧ registry.getTask id = some current ∧
        (updateTasks store registry patches).2.getTask id = some (patch.next current) := by
  induction patches generalizing registry with
  | nil => exact .inl rfl
  | cons p rest ih =>
    obtain ⟨taskId, patch⟩ := p
    rw [List.map_cons, List.nodup_cons] at hnodup
    cases @ih (updateTask store registry taskId patch).2 hnodup.2 with
    | inl hsame =>
      cases updateTask_row store registry taskId patch id with
      | inl hrow => exact .inl (hsame.trans hrow)
      | inr hrow =>
        obtain ⟨rfl, current, hget, hnext, _⟩ := hrow
        exact .inr ⟨patch, current, List.mem_cons_self, hget, hsame.trans hnext⟩
    | inr hlater =>
      obtain ⟨patch', current, hmem, hget, hnext⟩ := hlater
      have hne : id ≠ taskId := fun heq => hnodup.1 (List.mem_map.2 ⟨_, hmem, heq⟩)
      have hrow := (updateTask_row store registry taskId patch id).resolve_right fun hr => hne hr.1
      exact .inr ⟨patch', current, List.mem_cons_of_mem _ hmem, hrow ▸ hget, hnext⟩

theorem updateTasks_returns (hnodup : (patches.map Prod.fst).Nodup)
    (h : row ∈ (updateTasks store registry patches).1) :
    (updateTasks store registry patches).2.getTask row.taskId = some row ∧
      ∃ patch current, (row.taskId, patch) ∈ patches ∧
        registry.getTask row.taskId = some current ∧ row = patch.next current := by
  induction patches generalizing registry with
  | nil => cases h
  | cons p rest ih =>
    obtain ⟨taskId, patch⟩ := p
    rw [List.map_cons, List.nodup_cons] at hnodup
    have hmem : row ∈ (updateTask store registry taskId patch).1.toList ++
        (updateTasks store (updateTask store registry taskId patch).2 rest).1 := h
    rw [List.mem_append] at hmem
    cases hmem with
    | inl hfirst =>
      obtain ⟨hid, current, hget, hnext, hafter⟩ :=
        updateTask_returns (Option.mem_toList.1 hfirst)
      rw [hid]
      refine ⟨(updateTasks_row_of_not_mem hnodup.1).trans hafter, patch, current,
        List.mem_cons_self, hget, hnext⟩
    | inr hrest =>
      obtain ⟨hafter, patch', current, hmem', hget, hnext⟩ := ih hnodup.2 hrest
      have hne : row.taskId ≠ taskId := fun heq => hnodup.1 (List.mem_map.2 ⟨_, hmem', heq⟩)
      have hrow := (updateTask_row store registry taskId patch row.taskId).resolve_right
        fun hr => hne hr.1
      exact ⟨hafter, patch', current, List.mem_cons_of_mem _ hmem', hrow ▸ hget, hnext⟩

/-! ## Scopes -/

theorem nodup_readIndex {index : List (String × String)} (h : index.Nodup) (key : String) :
    ((registry.readIndex index key).map TaskRecord.taskId).Nodup := by
  have hsub : List.Sublist ((registry.readIndex index key).map TaskRecord.taskId)
      (values index key) := by
    unfold TaskRegistry.readIndex
    induction values index key with
    | nil => exact .slnil
    | cons id ids ih =>
      rw [List.filterMap_cons]
      cases hget : registry.getTask id with
      | none => exact ih.cons id
      | some task =>
        rw [List.map_cons, getTask_taskId hget]
        exact ih.cons_cons id
  exact (nodup_values h key).sublist hsub

theorem selectRunScope_sublist (runtime : Option TaskRuntime) (sessionKey : Option String)
    (found : List TaskRecord) : List.Sublist (selectRunScope runtime sessionKey found) found := by
  unfold selectRunScope
  dsimp only
  split
  · split
    · exact List.filter_sublist.trans List.filter_sublist
    · exact List.filter_sublist.trans List.filter_sublist
  · split
    · exact List.filter_sublist
    · exact List.nil_sublist _

section Scope

variable {runId : String} {runtime : Option TaskRuntime} {sessionKey : Option String}

theorem nodup_getTasksByRunScope (h : Indexed registry) :
    ((getTasksByRunScope registry runId runtime sessionKey).map TaskRecord.taskId).Nodup :=
  (nodup_readIndex h.byRunId.1 _).sublist ((selectRunScope_sublist _ _ _).map _)

theorem getTask_of_mem_getTasksByRunScope
    (h : row ∈ getTasksByRunScope registry runId runtime sessionKey) :
    registry.getTask row.taskId = some row := by
  obtain ⟨id, _, hget⟩ := List.mem_filterMap.1 ((selectRunScope_sublist _ _ _).subset h)
  exact (getTask_taskId hget).symm ▸ hget

theorem runtime_of_mem_getTasksByRunScope {asked : TaskRuntime} (hasked : runtime = some asked)
    (h : row ∈ getTasksByRunScope registry runId runtime sessionKey) : row.runtime = asked := by
  subst hasked
  have hfilter : row ∈ (getTasksByRunId registry runId).filter
      fun task => (some asked).all (task.runtime = ·) := by
    unfold getTasksByRunScope selectRunScope at h
    dsimp only at h
    split at h
    · split at h
      · exact (List.mem_filter.1 h).1
      · exact (List.mem_filter.1 h).1
    · split at h
      · exact h
      · cases h
  simpa using (List.mem_filter.1 hfilter).2

variable (store) in
theorem scopePatches_row (h : Indexed registry) (keep : TaskRecord → Bool)
    (patch : TaskRecord → TaskPatch) (id : String) :
    let found := getTasksByRunScope registry runId runtime sessionKey
    let after := (updateTasks store registry ((found.filter keep).map fun task =>
      (task.taskId, patch task))).2
    after.getTask id = registry.getTask id ∨
      ∃ current ∈ found, current.taskId = id ∧ keep current = true ∧
        registry.getTask id = some current ∧
        after.getTask id = some ((patch current).next current) := by
  intro found after
  have hnodup : (((found.filter keep).map fun task => (task.taskId, patch task)).map
      Prod.fst).Nodup := by
    rw [List.map_map]
    exact (nodup_getTasksByRunScope h).sublist (List.filter_sublist.map _)
  cases updateTasks_row store registry hnodup id with
  | inl hsame => exact .inl hsame
  | inr hchanged =>
    obtain ⟨patch', current, hmem, hget, hnext⟩ := hchanged
    obtain ⟨task, htask, heq⟩ := List.mem_map.1 hmem
    obtain ⟨hfound, hkeep⟩ := List.mem_filter.1 htask
    cases heq
    have hsame := getTask_of_mem_getTasksByRunScope hfound
    rw [hget] at hsame
    cases hsame
    exact .inr ⟨current, hfound, rfl, hkeep, hget, hnext⟩

end Scope

theorem updateTaskStateByRunId_returns {params : RunStateUpdate} (h : Indexed registry)
    (hrow : row ∈ (updateTaskStateByRunId store registry params).1) :
    (updateTaskStateByRunId store registry params).2.getTask row.taskId = some row ∧
      ∃ current ∈ getTasksByRunScope registry params.runId params.runtime params.sessionKey,
        registry.getTask row.taskId = some current ∧ params.skips current = false ∧
          row = (params.patch current).next current := by
  have hnodup : ((params.patches registry).map Prod.fst).Nodup := by
    unfold RunStateUpdate.patches
    rw [List.map_map]
    exact (nodup_getTasksByRunScope h).sublist (List.filter_sublist.map _)
  obtain ⟨hafter, patch, current, hpatch, hget, heq⟩ := updateTasks_returns hnodup hrow
  refine ⟨hafter, current, ?_⟩
  obtain ⟨task, htask, hpair⟩ := List.mem_map.1 hpatch
  obtain ⟨hfound, hkeep⟩ := List.mem_filter.1 htask
  have hids : task.taskId = row.taskId := congrArg Prod.fst hpair
  have hpatched : params.patch task = patch := congrArg Prod.snd hpair
  have hsame := getTask_of_mem_getTasksByRunScope hfound
  rw [hids, hget] at hsame
  cases hsame
  exact ⟨hfound, hget, by simpa using hkeep, hpatched ▸ heq⟩

end OpenClaw.Tasks
