import OpenClaw.Tasks.TaskRegistry

/-!
# Memory, store and indexes

What holds between the parts of the registry: memory is the store with the times of its rows put
in order (`Agrees`), and the indexes file every row under its keys (`Indexed`). Every mutator keeps
both, whichever writes throw.

* `write_cases`: a write that throws leaves all but the count of writes.
* `updateTask_cases`, `upsertTaskDeliveryState_cases`: what a mutator can do.
-/

namespace OpenClaw.Tasks

open KeyedList Multimap

variable {store : TaskRegistryStore} {registry : TaskRegistry}

/-- Memory is what a restore would read. -/
structure Agrees (registry : TaskRegistry) : Prop where
  tasks : registry.tasks = registry.stored.tasks.map normalizeTaskTimestamps
  deliveryStates : registry.taskDeliveryStates = registry.stored.deliveryStates

/-- No id has two rows, and every index files the rows under their keys. -/
structure Indexed (registry : TaskRegistry) : Prop where
  nodup : (registry.tasks.map TaskRecord.taskId).Nodup
  byRunId : Indexes runIdKeys TaskRecord.taskId registry.tasks registry.taskIdsByRunId
  byOwnerKey : Indexes ownerKeys TaskRecord.taskId registry.tasks registry.taskIdsByOwnerKey
  byParentFlowId :
    Indexes parentFlowKeys TaskRecord.taskId registry.tasks registry.taskIdsByParentFlowId
  byRelatedSessionKey :
    Indexes getTaskRelatedSessionIndexKeys TaskRecord.taskId registry.tasks
      registry.taskIdsByRelatedSessionKey

structure Consistent (registry : TaskRegistry) : Prop where
  agrees : Agrees registry
  indexed : Indexed registry

theorem Consistent.withWrites (h : Consistent registry) (writes : Nat) :
    Consistent { registry with writes } :=
  ⟨⟨h.agrees.tasks, h.agrees.deliveryStates⟩, ⟨h.indexed.nodup, h.indexed.byRunId,
    h.indexed.byOwnerKey, h.indexed.byParentFlowId, h.indexed.byRelatedSessionKey⟩⟩

theorem write_cases (store : TaskRegistryStore) (registry : TaskRegistry)
    (next : TaskRegistrySnapshot) :
    (store.throws registry.writes = true ∧
        registry.write store next = (false, { registry with writes := registry.writes + 1 })) ∨
      store.throws registry.writes = false ∧
        registry.write store next =
          (true, { registry with writes := registry.writes + 1, stored := next }) := by
  unfold TaskRegistry.write
  split
  · rename_i hthrows
    exact .inl ⟨hthrows, rfl⟩
  · rename_i hthrows
    exact .inr ⟨Bool.eq_false_iff.2 hthrows, rfl⟩

/-! ## What is written -/

section Persist

variable {task : TaskRecord}

@[simp] theorem normalizeTaskTimestamps_taskId (task : TaskRecord) :
    (normalizeTaskTimestamps task).taskId = task.taskId := rfl

theorem Agrees.map_tasks (h : Agrees registry) :
    registry.tasks.map normalizeTaskTimestamps = registry.tasks := by
  rw [h.tasks, List.map_map]
  exact List.map_congr_left fun task _ => normalizeTaskTimestamps_normalizeTaskTimestamps task

theorem put_tasks_map (htask : TimesOrdered task)
    {tasks : List TaskRecord} (htasks : tasks.map normalizeTaskTimestamps = registry.tasks) :
    (put TaskRecord.taskId task tasks).map normalizeTaskTimestamps =
      put TaskRecord.taskId task registry.tasks := by
  rw [map_put normalizeTaskTimestamps_taskId, htask.normalizeTaskTimestamps_eq, htasks]

theorem getDeliveryState_taskId {taskId : String} {state : TaskDeliveryState}
    (h : registry.getDeliveryState taskId = some state) : state.taskId = taskId := key_of_get h

variable (store) in
theorem Agrees.persistTaskUpsert (h : Agrees registry) (htask : TimesOrdered task)
    {pending : Option TaskDeliveryState} (hpending : ∀ state ∈ pending, state.taskId = task.taskId) :
    (persistTaskUpsert store registry task pending).tasks.map normalizeTaskTimestamps =
        put TaskRecord.taskId task registry.tasks ∧
      (persistTaskUpsert store registry task pending).deliveryStates =
        pending.elim registry.taskDeliveryStates fun state =>
          put TaskDeliveryState.taskId state registry.taskDeliveryStates := by
  have hstored := put_tasks_map htask h.tasks.symm
  have hmemory := put_tasks_map htask h.map_tasks
  have hput : ∀ state, registry.getDeliveryState task.taskId = some state →
      put TaskDeliveryState.taskId state registry.taskDeliveryStates =
        registry.taskDeliveryStates := by
    intro state hstate
    refine put_eq_self ?_
    rw [getDeliveryState_taskId hstate]
    exact hstate
  unfold OpenClaw.Tasks.persistTaskUpsert
  cases pending with
  | some state =>
    simp only [Option.some_or, Option.isSome_some, if_true, Option.elim_some,
      Option.isNone_some, Bool.false_and, Bool.false_eq_true, if_false, ← h.deliveryStates]
    split
    · exact ⟨hstored, rfl⟩
    · exact ⟨hmemory, rfl⟩
  | none =>
    simp only [Option.none_or, Option.elim_none]
    cases hcurrent : registry.getDeliveryState task.taskId with
    | some state =>
      simp only [Option.isSome_some, if_true, Option.elim_some, Option.isNone_some, Bool.false_and,
        Bool.false_eq_true, if_false, ← h.deliveryStates, hput state hcurrent]
      split
      · exact ⟨hstored, rfl⟩
      · exact ⟨hmemory, rfl⟩
    | none =>
      simp only [Option.isSome_none, Bool.false_eq_true, if_false, Option.elim_none,
        Option.isNone_none, Bool.true_and, ← h.deliveryStates]
      split
      · exact ⟨hstored, filter_ne_eq_self hcurrent⟩
      · split
        · exact ⟨hstored, rfl⟩
        · exact ⟨hmemory, rfl⟩

variable (store) in
theorem Agrees.persistTaskDelete (h : Agrees registry) (taskId : String) :
    (persistTaskDelete store registry taskId).tasks.map normalizeTaskTimestamps =
        registry.tasks.filter (·.taskId ≠ taskId) ∧
      (persistTaskDelete store registry taskId).deliveryStates =
        registry.taskDeliveryStates.filter (·.taskId ≠ taskId) := by
  unfold OpenClaw.Tasks.persistTaskDelete
  split
  · refine ⟨?_, by rw [h.deliveryStates]⟩
    rw [map_filter_ne normalizeTaskTimestamps_taskId, ← h.tasks]
  · refine ⟨?_, rfl⟩
    rw [map_filter_ne normalizeTaskTimestamps_taskId, h.map_tasks]

variable (store) in
theorem Agrees.persistTaskDeliveryStateUpsert (h : Agrees registry) (state : TaskDeliveryState) :
    (persistTaskDeliveryStateUpsert store registry state).tasks.map normalizeTaskTimestamps =
        registry.tasks ∧
      (persistTaskDeliveryStateUpsert store registry state).deliveryStates =
        put TaskDeliveryState.taskId state registry.taskDeliveryStates := by
  unfold OpenClaw.Tasks.persistTaskDeliveryStateUpsert
  split
  · exact ⟨h.tasks.symm, by rw [h.deliveryStates]⟩
  · exact ⟨h.map_tasks, rfl⟩

end Persist

/-! ## What a mutator can do -/

/-- Nothing changed but the count of writes. -/
def OnlyWrites (registry registry' : TaskRegistry) : Prop :=
  registry' = { registry with writes := registry'.writes }

theorem OnlyWrites.refl : OnlyWrites registry registry := rfl

theorem onlyWrites_withWrites (writes : Nat) : OnlyWrites registry { registry with writes } := rfl

theorem OnlyWrites.consistent {registry' : TaskRegistry} (h : OnlyWrites registry registry')
    (hcons : Consistent registry) : Consistent registry' := by
  rw [h]
  exact hcons.withWrites _

section Mutators

variable {taskId : String} {patch : TaskPatch}

theorem getTask_taskId {task : TaskRecord} (h : registry.getTask taskId = some task) :
    task.taskId = taskId := key_of_get h

theorem next_taskId (patch : TaskPatch) (current : TaskRecord) :
    (patch.next current).taskId = current.taskId := by
  unfold TaskPatch.next withCleanupAfter
  split <;> rfl

theorem timesOrdered_next (patch : TaskPatch) (current : TaskRecord) :
    TimesOrdered (patch.next current) :=
  (timesOrdered_normalizeTaskTimestamps _).withCleanupAfter

/-- The registry after a row was written. -/
def TaskRegistry.withRow (store : TaskRegistryStore) (registry : TaskRegistry) (patch : TaskPatch)
    (current : TaskRecord) : TaskRegistry :=
  { registry with
    writes := registry.writes + 1
    stored := persistTaskUpsert store registry (patch.next current) none }.replaceTask patch current
      (patch.next current)

theorem updateTask_cases (store : TaskRegistryStore) (registry : TaskRegistry) (taskId : String)
    (patch : TaskPatch) :
    ((registry.getTask taskId = none ∨ store.throws registry.writes = true) ∧
        (updateTask store registry taskId patch).1 = none ∧
        OnlyWrites registry (updateTask store registry taskId patch).2) ∨
      ∃ current, registry.getTask taskId = some current ∧ store.throws registry.writes = false ∧
        updateTask store registry taskId patch =
          (some (patch.next current), registry.withRow store patch current) := by
  unfold updateTask
  cases hget : registry.getTask taskId with
  | none => exact .inl ⟨.inl rfl, rfl, .refl⟩
  | some current =>
    dsimp only
    cases write_cases store registry (persistTaskUpsert store registry (patch.next current) none) with
    | inl hthrows =>
      rw [hthrows.2]
      exact .inl ⟨.inr hthrows.1, rfl, onlyWrites_withWrites _⟩
    | inr hwrites =>
      rw [hwrites.2]
      exact .inr ⟨current, rfl, hwrites.1, rfl⟩

theorem normalizeOptionalString_map_trim {left right : Option String}
    (h : left.map JsString.trim = right.map JsString.trim) :
    normalizeOptionalString left = normalizeOptionalString right :=
  congrArg (Option.filter (· ≠ "")) h

variable {current : TaskRecord}

theorem indexes_replace {keys : TaskRecord → List String} {index : List (String × String)}
    {next : TaskRecord} {changed : Bool} (h : Indexes keys TaskRecord.taskId registry.tasks index)
    (hnodup : (registry.tasks.map TaskRecord.taskId).Nodup)
    (hget : registry.getTask current.taskId = some current) (hid : next.taskId = current.taskId)
    (hchanged : changed = false → keys next = keys current) :
    Indexes keys TaskRecord.taskId (put TaskRecord.taskId next registry.tasks)
      (if changed then
        addAll (keys next) current.taskId (removeAll (keys current) current.taskId index)
      else index) := by
  rw [← hid] at hget ⊢
  split
  · exact h.put hnodup hget
  · rename_i hsame
    exact h.put_of_keys_eq hnodup hget (hchanged (Bool.eq_false_iff.2 hsame))

theorem runIdKeys_next (patch : TaskPatch) (current : TaskRecord) :
    runIdKeys (patch.next current) =
      (normalizeOptionalString (patch.runId.or current.runId)).toList := by
  unfold TaskPatch.next withCleanupAfter
  split <;> rfl

/-- Every caller of `updateTask` either leaves the run id or gives one that is not empty. -/
def TaskPatch.KeepsRunId (patch : TaskPatch) : Prop := ∀ runId ∈ patch.runId, runId ≠ ""

theorem Indexed.replaceTask (h : Indexed registry) (hrun : patch.KeepsRunId)
    (hget : registry.getTask current.taskId = some current) :
    Indexed (registry.replaceTask patch current (patch.next current)) := by
  have hid := next_taskId patch current
  have hputid := hid ▸ hget
  constructor
  · exact nodup_put h.nodup
  · show Indexes runIdKeys TaskRecord.taskId _ (if _ then _ else _)
    split
    · exact indexes_rebuild
    · rename_i hsame
      refine h.byRunId.put_of_keys_eq h.nodup hputid ?_
      rw [runIdKeys_next]
      cases hpatch : patch.runId with
      | none => rfl
      | some runId =>
        rw [hpatch, Option.any_some, Bool.and_eq_true, decide_eq_true_eq, decide_eq_true_eq,
          not_and, not_not] at hsame
        rw [Option.some_or, hsame (hrun runId hpatch)]
        rfl
  · refine indexes_replace h.byOwnerKey h.nodup hget hid fun hsame => ?_
    simp only [Bool.or_eq_false_iff, decide_eq_false_iff_not, not_not] at hsame
    exact congrArg Option.toList hsame.1.symm
  · refine indexes_replace h.byParentFlowId h.nodup hget hid fun hsame => ?_
    rw [decide_eq_false_iff_not, not_not] at hsame
    exact congrArg Option.toList (normalizeOptionalString_map_trim hsame).symm
  · refine indexes_replace h.byRelatedSessionKey h.nodup hget hid fun hsame => ?_
    simp only [Bool.or_eq_false_iff, decide_eq_false_iff_not, not_not] at hsame
    unfold getTaskRelatedSessionIndexKeys ownerKeys
    rw [hsame.1, hsame.2]

theorem Consistent.withRow (h : Consistent registry) (hrun : patch.KeepsRunId)
    (hget : registry.getTask current.taskId = some current) :
    Consistent (registry.withRow store patch current) := by
  have hstored := h.agrees.persistTaskUpsert store (timesOrdered_next patch current)
    (show ∀ state ∈ (none : Option TaskDeliveryState), state.taskId = _ from fun _ => nofun)
  have hwritten : Indexed { registry with
      writes := registry.writes + 1
      stored := persistTaskUpsert store registry (patch.next current) none } :=
    ⟨h.indexed.nodup, h.indexed.byRunId, h.indexed.byOwnerKey, h.indexed.byParentFlowId,
      h.indexed.byRelatedSessionKey⟩
  exact ⟨⟨hstored.1.symm, hstored.2.symm⟩, hwritten.replaceTask hrun hget⟩

theorem Consistent.updateTask (h : Consistent registry) (hrun : patch.KeepsRunId) :
    Consistent (updateTask store registry taskId patch).2 := by
  cases updateTask_cases store registry taskId patch with
  | inl hfails => exact hfails.2.2.consistent h
  | inr hwrites =>
    obtain ⟨current, hget, _, heq⟩ := hwrites
    rw [heq]
    exact h.withRow hrun ((getTask_taskId hget).symm ▸ hget)

theorem Consistent.updateTasks {patches : List (String × TaskPatch)} (h : Consistent registry)
    (hrun : ∀ p ∈ patches, p.2.KeepsRunId) : Consistent (updateTasks store registry patches).2 := by
  induction patches generalizing registry with
  | nil => exact h
  | cons p rest ih =>
    exact ih (h.updateTask (hrun p List.mem_cons_self)) fun q hq =>
      hrun q (List.mem_cons_of_mem p hq)

end Mutators

section DeliveryStates

variable {normalizeDeliveryContext : DeliveryContext → Option DeliveryContext}
  {state : TaskDeliveryState}

/-- The delivery state that is written. -/
def normalizedDeliveryState (normalizeDeliveryContext : DeliveryContext → Option DeliveryContext)
    (state : TaskDeliveryState) : TaskDeliveryState :=
  { taskId := state.taskId
    requesterOrigin := state.requesterOrigin.bind normalizeDeliveryContext
    lastNotifiedEventAt := state.lastNotifiedEventAt }

/-- The registry after a delivery state was written. -/
def TaskRegistry.withDeliveryState (store : TaskRegistryStore) (registry : TaskRegistry)
    (next : TaskDeliveryState) : TaskRegistry :=
  { registry with
    writes := registry.writes + 1
    stored := persistTaskDeliveryStateUpsert store registry next
    taskDeliveryStates := put TaskDeliveryState.taskId next registry.taskDeliveryStates }

theorem upsertTaskDeliveryState_cases (store : TaskRegistryStore) (registry : TaskRegistry)
    (normalizeDeliveryContext : DeliveryContext → Option DeliveryContext)
    (state : TaskDeliveryState) :
    ((state.requesterOrigin.bind normalizeDeliveryContext = none ∨
        store.throws registry.writes = true) ∧
      (upsertTaskDeliveryState store normalizeDeliveryContext registry state).1 =
        (registry.getDeliveryState state.taskId).getD { taskId := state.taskId } ∧
      OnlyWrites registry
        (upsertTaskDeliveryState store normalizeDeliveryContext registry state).2) ∨
      ((state.requesterOrigin.bind normalizeDeliveryContext).isSome ∨
        state.lastNotifiedEventAt.isSome ∨ (registry.getDeliveryState state.taskId).isSome) ∧
      store.throws registry.writes = false ∧
      upsertTaskDeliveryState store normalizeDeliveryContext registry state =
        (normalizedDeliveryState normalizeDeliveryContext state,
          registry.withDeliveryState store
            (normalizedDeliveryState normalizeDeliveryContext state)) := by
  unfold upsertTaskDeliveryState
  dsimp only
  split
  · rename_i hblank
    simp only [Bool.and_eq_true, Option.isNone_iff_eq_none] at hblank
    rw [hblank.2]
    exact .inl ⟨.inl hblank.1.1, rfl, .refl⟩
  · rename_i hsome
    cases write_cases store registry (persistTaskDeliveryStateUpsert store registry
        (normalizedDeliveryState normalizeDeliveryContext state)) with
    | inl hthrows =>
      unfold normalizedDeliveryState at hthrows
      rw [hthrows.2]
      exact .inl ⟨.inr hthrows.1, rfl, onlyWrites_withWrites _⟩
    | inr hwrites =>
      unfold normalizedDeliveryState at hwrites
      rw [hwrites.2]
      refine .inr ⟨?_, hwrites.1, rfl⟩
      simp only [Bool.and_eq_true, Option.isNone_iff_eq_none, not_and] at hsome
      simp only [Option.isSome_iff_ne_none]
      tauto

theorem Consistent.withDeliveryState {next : TaskDeliveryState} (h : Consistent registry) :
    Consistent (registry.withDeliveryState store next) := by
  have hstored := h.agrees.persistTaskDeliveryStateUpsert store next
  exact ⟨⟨hstored.1.symm, hstored.2.symm⟩, ⟨h.indexed.nodup, h.indexed.byRunId,
    h.indexed.byOwnerKey, h.indexed.byParentFlowId, h.indexed.byRelatedSessionKey⟩⟩

theorem Consistent.upsertTaskDeliveryState (h : Consistent registry) :
    Consistent (upsertTaskDeliveryState store normalizeDeliveryContext registry state).2 := by
  cases upsertTaskDeliveryState_cases store registry normalizeDeliveryContext state with
  | inl hfails => exact hfails.2.2.consistent h
  | inr hwrites =>
    rw [hwrites.2.2]
    exact h.withDeliveryState

end DeliveryStates

theorem deleteTaskRecordById_consistent {taskId : String} (h : Consistent registry) :
    Consistent (deleteTaskRecordById store registry taskId).2 ∧
      ((deleteTaskRecordById store registry taskId).1 = false →
        OnlyWrites registry (deleteTaskRecordById store registry taskId).2) := by
  unfold deleteTaskRecordById
  cases hget : registry.getTask taskId with
  | none => exact ⟨h, fun _ => .refl⟩
  | some current =>
    cases write_cases store registry (persistTaskDelete store registry taskId) with
    | inl hthrows =>
      rw [hthrows.2]
      exact ⟨h.withWrites _, fun _ => onlyWrites_withWrites _⟩
    | inr hwrites =>
      rw [hwrites.2]
      have hstored := h.agrees.persistTaskDelete store taskId
      have hnodup := h.indexed.nodup
      refine ⟨⟨⟨hstored.1.symm, hstored.2.symm⟩, ⟨?_, indexes_rebuild, ?_, ?_, ?_⟩⟩, nofun⟩
      · exact hnodup.sublist (List.Sublist.map _ List.filter_sublist)
      · exact h.indexed.byOwnerKey.delete hnodup hget
      · exact h.indexed.byParentFlowId.delete hnodup hget
      · exact h.indexed.byRelatedSessionKey.delete hnodup hget

theorem consistent_restoreTaskRegistry {stored : TaskRegistrySnapshot}
    (hnodup : (stored.tasks.map TaskRecord.taskId).Nodup) :
    Consistent (restoreTaskRegistry stored) := by
  refine ⟨⟨rfl, rfl⟩, ⟨?_, indexes_rebuild, indexes_rebuild, indexes_rebuild, indexes_rebuild⟩⟩
  show ((stored.tasks.map normalizeTaskTimestamps).map TaskRecord.taskId).Nodup
  rw [List.map_map]
  exact hnodup

end OpenClaw.Tasks
