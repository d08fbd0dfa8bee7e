import OpenClaw.Tasks.StoreAgreement
import OpenClaw.Tasks.TaskCreate

/-!
# Creating a task keeps memory, store and indexes together

A creation or a link keeps them together whichever writes throw. One that reports that nothing was
written has changed nothing, but for one case (`HalfMerges`): it merged the requester's origin into
a row, the delivery state was written, and the write of the row threw.
-/

namespace OpenClaw.Tasks

open KeyedList Multimap

variable {deps : TaskRegistryDeps} {getTaskFlowById : String → Option TaskFlowRecord}
  {registry : TaskRegistry} {params : TaskCreateParams}

/-- The tasks and delivery states of memory and, up to the order of a row's times, of the store are
the same. -/
structure SameData (registry registry' : TaskRegistry) : Prop where
  tasks : registry'.tasks = registry.tasks
  deliveryStates : registry'.taskDeliveryStates = registry.taskDeliveryStates
  storedTasks : registry'.stored.tasks.map normalizeTaskTimestamps =
    registry.stored.tasks.map normalizeTaskTimestamps
  storedDeliveryStates : registry'.stored.deliveryStates = registry.stored.deliveryStates

theorem OnlyWrites.sameData {registry' : TaskRegistry} (h : OnlyWrites registry registry') :
    SameData registry registry' := by
  rw [h]
  exact ⟨rfl, rfl, rfl, rfl⟩

/-! ## New rows -/

variable (deps) in
theorem newTaskRecord_taskId (now : Int) (taskId : String) (params : TaskCreateParams) :
    (newTaskRecord deps now taskId params).taskId = taskId := by
  unfold newTaskRecord withCleanupAfter
  dsimp only
  split <;> rfl

theorem timesOrdered_newTaskRecord (now : Int) (taskId : String) (params : TaskCreateParams) :
    TimesOrdered (newTaskRecord deps now taskId params) :=
  (timesOrdered_normalizeTaskTimestamps _).withCleanupAfter

theorem Consistent.insertTask {record : TaskRecord} {pending : Option TaskDeliveryState}
    (h : Consistent registry) (hfresh : registry.getTask record.taskId = none)
    (htimes : TimesOrdered record) (hpending : ∀ state ∈ pending, state.taskId = record.taskId) :
    Consistent (TaskRegistry.insertTask
      { registry with
        writes := registry.writes + 1
        stored := persistTaskUpsert deps.store registry record pending } record pending) := by
  have hstored := h.agrees.persistTaskUpsert deps.store htimes hpending
  exact ⟨⟨hstored.1.symm, hstored.2.symm⟩, ⟨nodup_put h.indexed.nodup,
    h.indexed.byRunId.insert hfresh, h.indexed.byOwnerKey.insert hfresh,
    h.indexed.byParentFlowId.insert hfresh, h.indexed.byRelatedSessionKey.insert hfresh⟩⟩

theorem createNewTask_consistent (deps : TaskRegistryDeps) (params : TaskCreateParams) (now : Int)
    {taskId : String} (h : Consistent registry)
    (hfresh : registry.getTask taskId = none) :
    Consistent (createNewTask deps now taskId registry params).2 ∧
      ((createNewTask deps now taskId registry params).1 = none →
        OnlyWrites registry (createNewTask deps now taskId registry params).2) := by
  unfold createNewTask
  dsimp only
  have hid := newTaskRecord_taskId deps now taskId params
  cases write_cases deps.store registry (persistTaskUpsert deps.store registry
      (newTaskRecord deps now taskId params)
      ((params.requesterOrigin.bind deps.normalizeDeliveryContext).map fun origin =>
        { taskId, requesterOrigin := some origin })) with
  | inl hthrows =>
    rw [hthrows.2]
    exact ⟨h.withWrites _, fun _ => onlyWrites_withWrites _⟩
  | inr hwrites =>
    rw [hwrites.2]
    refine ⟨h.insertTask (hid.symm ▸ hfresh) (timesOrdered_newTaskRecord now taskId params) ?_,
      nofun⟩
    intro state hstate
    obtain ⟨origin, _, rfl⟩ := Option.map_eq_some_iff.1 hstate
    exact hid.symm

/-! ## Merges -/

section Merge

variable {existing : TaskRecord} {agentId : Option String}

theorem mergePatch_keepsRunId : (mergePatch existing params agentId).KeepsRunId := nofun

theorem mergeRow_consistent (h : Consistent registry) :
    Consistent (mergeRow deps getTaskFlowById registry existing params agentId).2 ∧
      ((mergeRow deps getTaskFlowById registry existing params agentId).1 = .ok none →
        OnlyWrites registry (mergeRow deps getTaskFlowById registry existing params agentId).2) := by
  unfold mergeRow
  dsimp only
  split
  · exact ⟨h, nofun⟩
  · split
    · exact ⟨h, nofun⟩
    · refine ⟨h.updateTask mergePatch_keepsRunId, fun hnone => ?_⟩
      cases updateTask_cases deps.store registry existing.taskId
          (mergePatch existing params agentId) with
      | inl hfails => exact hfails.2.2
      | inr hwrites =>
        obtain ⟨current, _, _, heq⟩ := hwrites
        rw [heq] at hnone
        cases hnone

theorem sameText_iff {left right : Option String} :
    sameText left right = true ↔ normalizeOptionalString left = normalizeOptionalString right := by
  unfold sameText
  rw [decide_eq_true_eq]
  constructor
  · intro hsame
    cases hl : normalizeOptionalString left with
    | none =>
      cases hr : normalizeOptionalString right with
      | none => rfl
      | some r =>
        rw [hl, hr] at hsame
        exact absurd (congrArg some hsame.symm ▸ hr) (normalizeOptionalString_ne_blank right)
    | some l =>
      cases hr : normalizeOptionalString right with
      | none =>
        rw [hl, hr] at hsame
        exact absurd (congrArg some hsame ▸ hl) (normalizeOptionalString_ne_blank left)
      | some r =>
        rw [hl, hr] at hsame
        exact congrArg some hsame
  · intro hsame
    rw [hsame]

variable {task : TaskRecord}

theorem getTask_of_mem_readIndex {index : List (String × String)} {key : String}
    (h : task ∈ registry.readIndex index key) : registry.getTask task.taskId = some task := by
  obtain ⟨taskId, _, hget⟩ := List.mem_filterMap.1 h
  exact (getTask_taskId hget).symm ▸ hget

theorem mem_of_pickPreferredRunIdTask {found : List TaskRecord}
    (h : pickPreferredRunIdTask found = some task) : task ∈ found := by
  induction found with
  | nil => cases h
  | cons first rest ih =>
    unfold pickPreferredRunIdTask at h
    cases hrest : pickPreferredRunIdTask rest with
    | none =>
      rw [hrest] at h
      cases h
      exact List.mem_cons_self
    | some other =>
      rw [hrest] at h
      dsimp only at h
      split at h
      · cases h
        exact List.mem_cons_of_mem first (ih hrest)
      · cases h
        exact List.mem_cons_self

variable {ownerKey : String}

theorem findExistingTaskForCreate_spec {scopeKind : TaskScopeKind}
    (h : findExistingTaskForCreate registry params ownerKey scopeKind = some existing) :
    registry.getTask existing.taskId = some existing ∧ existing.scopeKind = scopeKind ∧
      normalizeOptionalString (some existing.ownerKey) =
        normalizeOptionalString (some ownerKey) := by
  unfold findExistingTaskForCreate at h
  cases hrun : normalizeOptionalString params.runId with
  | none =>
    rw [hrun] at h
    cases h
  | some runId =>
    rw [hrun] at h
    dsimp only at h
    have hmem : existing ∈
        (getTasksByRunId registry runId).filter (inCreateScope params ownerKey scopeKind) := by
      split at h
      · rename_i exact hexact
        cases h
        exact List.mem_of_find?_eq_some hexact
      · split at h
        · exact mem_of_pickPreferredRunIdTask h
        · cases h
    obtain ⟨hread, hscope⟩ := List.mem_filter.1 hmem
    simp only [inCreateScope, Bool.and_eq_true, decide_eq_true_eq] at hscope
    exact ⟨getTask_of_mem_readIndex hread, hscope.1.1.1.2, sameText_iff.1 hscope.1.1.2⟩

variable (agentId) in
theorem assertParentFlowLinkAllowed_mergePatch
    (howner : normalizeOptionalString (some existing.ownerKey) =
      normalizeOptionalString (some ownerKey))
    (h : assertParentFlowLinkAllowed getTaskFlowById ownerKey existing.scopeKind
      params.parentFlowId = .ok ()) :
    assertParentFlowLinkAllowed getTaskFlowById existing.ownerKey existing.scopeKind
      (mergePatch existing params agentId).parentFlowId = .ok () := by
  unfold assertParentFlowLinkAllowed at h ⊢
  rw [show (mergePatch existing params agentId).parentFlowId =
    fillBlank params.parentFlowId existing.parentFlowId from rfl]
  cases hflow : normalizeOptionalString params.parentFlowId with
  | none =>
    unfold fillBlank
    rw [hflow]
    rfl
  | some flowId =>
    rw [hflow] at h
    unfold fillBlank
    rw [hflow, Option.filter_some]
    by_cases hblank : (normalizeOptionalString existing.parentFlowId).isNone = true
    · rw [if_pos hblank, normalizeOptionalString_idem hflow]
      simp only [howner]
      exact h
    · rw [if_neg hblank]
      rfl

end Merge

/-! ## Creations -/

def TaskCreateParams.resolvedAgentId (deps : TaskRegistryDeps) (params : TaskCreateParams) :
    Option String :=
  resolveTaskAgentId deps params.agentId params.childSessionKey params.ownership.ownerKey
    params.ownership.requesterSessionKey

/-- The creation is accepted: its owner is named, and its flow takes new tasks. -/
def Accepted (getTaskFlowById : String → Option TaskFlowRecord) (params : TaskCreateParams) :
    Prop :=
  assertTaskOwner params.ownership.ownerKey params.ownership.scopeKind = .ok () ∧
    assertParentFlowLinkAllowed getTaskFlowById params.ownership.ownerKey
      params.ownership.scopeKind params.parentFlowId = .ok ()

/-- A creation writes the requester's origin into the delivery state of a row it merges into, and
the write of the row's own changes throws. -/
def HalfMerges (deps : TaskRegistryDeps) (getTaskFlowById : String → Option TaskFlowRecord)
    (registry : TaskRegistry) (params : TaskCreateParams) : Prop :=
  Accepted getTaskFlowById params ∧
    ∃ existing, findExistingTaskForCreate registry params params.ownership.ownerKey
        params.ownership.scopeKind = some existing ∧
      mergePatch existing params (params.resolvedAgentId deps) ≠ {} ∧
      ((newRequesterOrigin deps registry existing params).bind
        deps.normalizeDeliveryContext).isSome ∧
      deps.store.throws registry.writes = false ∧ deps.store.throws (registry.writes + 1) = true

section Merged

variable {existing : TaskRecord} {agentId : Option String}

theorem mergeExistingTaskForCreate_consistent (h : Consistent registry) :
    Consistent
      (mergeExistingTaskForCreate deps getTaskFlowById registry existing params agentId).2 := by
  unfold mergeExistingTaskForCreate
  split
  · exact (mergeRow_consistent h).1
  · dsimp only
    split
    · exact h.upsertTaskDeliveryState
    · exact (mergeRow_consistent h.upsertTaskDeliveryState).1

variable (deps registry) in
theorem mergeRow_eq_none_iff (hget : registry.getTask existing.taskId = some existing)
    (hallowed : assertParentFlowLinkAllowed getTaskFlowById existing.ownerKey existing.scopeKind
      (mergePatch existing params agentId).parentFlowId = .ok ()) :
    (mergeRow deps getTaskFlowById registry existing params agentId).1 = .ok none ↔
      mergePatch existing params agentId ≠ {} ∧ deps.store.throws registry.writes = true := by
  unfold mergeRow
  dsimp only
  rw [hallowed]
  by_cases hpatch : mergePatch existing params agentId = {}
  · rw [if_pos hpatch]
    simp [hpatch]
  · rw [if_neg hpatch]
    cases updateTask_cases deps.store registry existing.taskId
        (mergePatch existing params agentId) with
    | inl hfails =>
      have hthrows := hfails.1.resolve_left (by rw [hget]; exact Option.some_ne_none _)
      simp [hfails.2.1, hpatch, hthrows]
    | inr hwrites =>
      obtain ⟨current, _, hthrows, heq⟩ := hwrites
      simp [heq, hthrows]

variable {origin : DeliveryContext}

theorem newRequesterOrigin_eq_some
    (h : newRequesterOrigin deps registry existing params = some origin) :
    (registry.getDeliveryState existing.taskId).bind (·.requesterOrigin) = none := by
  have hnone := (Option.filter_eq_some_iff.1 h).2
  exact Option.isNone_iff_eq_none.1 hnone

theorem withDeliveryState_sameData (h : Consistent registry)
    (hnone : (registry.getDeliveryState existing.taskId).bind (·.requesterOrigin) = none)
    (horigin : deps.normalizeDeliveryContext origin = none)
    (hthere : (registry.getDeliveryState existing.taskId).isSome) :
    SameData registry (registry.withDeliveryState deps.store
      (normalizedDeliveryState deps.normalizeDeliveryContext
        (mergedDeliveryState registry existing origin))) := by
  obtain ⟨current, hcurrent⟩ := Option.isSome_iff_exists.1 hthere
  have hid := getDeliveryState_taskId hcurrent
  have hsame : normalizedDeliveryState deps.normalizeDeliveryContext
      (mergedDeliveryState registry existing origin) = current := by
    rw [hcurrent, Option.bind_some] at hnone
    cases current with
    | mk taskId requesterOrigin lastNotifiedEventAt =>
      simp only [normalizedDeliveryState, mergedDeliveryState, Option.bind_some, horigin, hcurrent]
      cases hid
      cases hnone
      rfl
  have hput : KeyedList.put TaskDeliveryState.taskId current registry.taskDeliveryStates =
      registry.taskDeliveryStates := put_eq_self (hid.symm ▸ hcurrent)
  have hstored := h.agrees.persistTaskDeliveryStateUpsert deps.store current
  rw [hsame]
  exact ⟨rfl, hput, hstored.1.trans h.agrees.tasks, by
    rw [← h.agrees.deliveryStates]
    exact hstored.2.trans hput⟩

theorem not_sameData_of_origin {registry' : TaskRegistry} {origin' : DeliveryContext}
    (hnone : (registry.getDeliveryState existing.taskId).bind (·.requesterOrigin) = none)
    (horigin : deps.normalizeDeliveryContext origin = some origin')
    (h : OnlyWrites (registry.withDeliveryState deps.store
      (normalizedDeliveryState deps.normalizeDeliveryContext
        (mergedDeliveryState registry existing origin))) registry') :
    ¬ SameData registry registry' := by
  intro hsame
  have hstates := hsame.deliveryStates
  rw [h] at hstates
  generalize hnext : normalizedDeliveryState deps.normalizeDeliveryContext
    (mergedDeliveryState registry existing origin) = next at hstates
  have hid : next.taskId = existing.taskId := by rw [← hnext]; rfl
  have hput : registry.taskDeliveryStates =
      put TaskDeliveryState.taskId next registry.taskDeliveryStates := hstates.symm
  have hget : registry.getDeliveryState existing.taskId = some next := by
    unfold TaskRegistry.getDeliveryState
    rw [hput, ← hid]
    exact get_put_self
  rw [hget, Option.bind_some, ← hnext] at hnone
  simp [normalizedDeliveryState, mergedDeliveryState, horigin] at hnone

/-- **A merge that reports that nothing was written** has changed something exactly when it wrote
an origin that stays one and could not write the row. -/
theorem mergeExistingTaskForCreate_unchanged_iff (h : Consistent registry)
    (hget : registry.getTask existing.taskId = some existing)
    (hallowed : assertParentFlowLinkAllowed getTaskFlowById existing.ownerKey existing.scopeKind
      (mergePatch existing params agentId).parentFlowId = .ok ()) :
    ((mergeExistingTaskForCreate deps getTaskFlowById registry existing params agentId).1 =
        .ok none →
      SameData registry
        (mergeExistingTaskForCreate deps getTaskFlowById registry existing params agentId).2) ↔
    ¬ (mergePatch existing params agentId ≠ {} ∧
      ((newRequesterOrigin deps registry existing params).bind
        deps.normalizeDeliveryContext).isSome ∧
      deps.store.throws registry.writes = false ∧
      deps.store.throws (registry.writes + 1) = true) := by
  unfold mergeExistingTaskForCreate
  cases horigin : newRequesterOrigin deps registry existing params with
  | none =>
    simp only [Option.bind_none, Option.isSome_none, Bool.false_eq_true, false_and, and_false,
      not_false_eq_true, iff_true]
    exact fun hnone => ((mergeRow_consistent h).2 hnone).sameData
  | some origin =>
    have hnone := newRequesterOrigin_eq_some horigin
    dsimp only
    rw [Option.bind_some]
    cases upsertTaskDeliveryState_cases deps.store registry deps.normalizeDeliveryContext
        (mergedDeliveryState registry existing origin) with
    | inl hfails =>
      -- the delivery state is not written, and there is no origin in what is returned
      obtain ⟨hwhy, hreturned, honly⟩ := hfails
      have hblank : (upsertTaskDeliveryState deps.store deps.normalizeDeliveryContext registry
          (mergedDeliveryState registry existing origin)).1.requesterOrigin = none := by
        rw [hreturned]
        show ((registry.getDeliveryState existing.taskId).getD _).requesterOrigin = none
        cases hcurrent : registry.getDeliveryState existing.taskId with
        | none => rfl
        | some current =>
          rw [hcurrent] at hnone
          exact hnone
      rw [if_pos (Option.isNone_iff_eq_none.2 hblank)]
      refine iff_of_true (fun _ => honly.sameData) fun hhalf => ?_
      cases hwhy with
      | inl hnormal =>
        replace hnormal : deps.normalizeDeliveryContext origin = none := hnormal
        rw [hnormal] at hhalf
        exact Bool.false_ne_true hhalf.2.1
      | inr hthrows => exact absurd hthrows (Bool.eq_false_iff.1 hhalf.2.2.1)
    | inr hwrites =>
      obtain ⟨hthere, hthrows, heq⟩ := hwrites
      rw [heq]
      cases hnormal : deps.normalizeDeliveryContext origin with
      | none =>
        rw [if_pos (by simp [normalizedDeliveryState, mergedDeliveryState, hnormal])]
        refine iff_of_true (fun _ => withDeliveryState_sameData h hnone hnormal ?_)
          fun hhalf => Bool.false_ne_true hhalf.2.1
        simp only [mergedDeliveryState, Option.bind_some, hnormal, Option.isSome_none,
          Bool.false_eq_true, false_or] at hthere
        refine hthere.elim (fun hlast => ?_) id
        obtain ⟨_, hlast⟩ := Option.isSome_iff_exists.1 hlast
        obtain ⟨current, hcurrent, _⟩ := Option.bind_eq_some_iff.1 hlast
        exact Option.isSome_iff_exists.2 ⟨current, hcurrent⟩
      | some origin' =>
        rw [if_neg (by simp [normalizedDeliveryState, mergedDeliveryState, hnormal])]
        have hmerged := mergeRow_eq_none_iff deps (registry.withDeliveryState deps.store
          (normalizedDeliveryState deps.normalizeDeliveryContext
            (mergedDeliveryState registry existing origin))) hget hallowed
        constructor
        · intro hsame hhalf
          have hfailed := hmerged.2 ⟨hhalf.1, hhalf.2.2.2⟩
          exact not_sameData_of_origin hnone hnormal
            ((mergeRow_consistent h.withDeliveryState).2 hfailed) (hsame hfailed)
        · intro hwhole hfailed
          have hpatch := hmerged.1 hfailed
          exact absurd ⟨hpatch.1, rfl, hthrows, hpatch.2⟩ hwhole

end Merged

section Create

variable {now : Int} {taskId : String}

variable (deps registry now taskId) in
theorem createTaskRecord_of_not_accepted (h : ¬ Accepted getTaskFlowById params) :
    ∃ error, createTaskRecord deps getTaskFlowById now taskId registry params =
      (.error error, registry) := by
  unfold createTaskRecord
  dsimp only
  cases howner : assertTaskOwner params.ownership.ownerKey params.ownership.scopeKind with
  | error error => exact ⟨error, rfl⟩
  | ok _ =>
    cases hlink : assertParentFlowLinkAllowed getTaskFlowById params.ownership.ownerKey
        params.ownership.scopeKind params.parentFlowId with
    | error error => exact ⟨error, rfl⟩
    | ok _ => exact absurd ⟨howner, hlink⟩ h

theorem createTaskRecord_of_accepted (h : Accepted getTaskFlowById params) :
    createTaskRecord deps getTaskFlowById now taskId registry params =
      match findExistingTaskForCreate registry params params.ownership.ownerKey
          params.ownership.scopeKind with
      | some existing =>
        mergeExistingTaskForCreate deps getTaskFlowById registry existing params
          (params.resolvedAgentId deps)
      | none =>
        (.ok (createNewTask deps now taskId registry params).1,
          (createNewTask deps now taskId registry params).2) := by
  unfold createTaskRecord
  dsimp only
  rw [h.1, h.2]
  rfl

theorem createTaskRecord_consistent (h : Consistent registry)
    (hfresh : registry.getTask taskId = none) :
    Consistent (createTaskRecord deps getTaskFlowById now taskId registry params).2 := by
  by_cases haccepted : Accepted getTaskFlowById params
  · rw [createTaskRecord_of_accepted haccepted]
    split
    · exact mergeExistingTaskForCreate_consistent h
    · exact (createNewTask_consistent deps params now h hfresh).1
  · obtain ⟨error, heq⟩ := createTaskRecord_of_not_accepted deps registry now taskId
      haccepted
    rw [heq]
    exact h

/-- **A creation that reports that nothing was written** has changed something exactly when it
merged halfway. -/
theorem createTaskRecord_unchanged_iff (h : Consistent registry)
    (hfresh : registry.getTask taskId = none) :
    ((createTaskRecord deps getTaskFlowById now taskId registry params).1 = .ok none →
        SameData registry (createTaskRecord deps getTaskFlowById now taskId registry params).2) ↔
      ¬ HalfMerges deps getTaskFlowById registry params := by
  by_cases haccepted : Accepted getTaskFlowById params
  · rw [createTaskRecord_of_accepted haccepted]
    cases hfound : findExistingTaskForCreate registry params params.ownership.ownerKey
        params.ownership.scopeKind with
    | none =>
      have hnew := createNewTask_consistent deps params now h hfresh
      refine iff_of_true (fun hnone => (hnew.2 (Except.ok.inj hnone)).sameData) fun hhalf => ?_
      obtain ⟨existing, hexisting, _⟩ := hhalf.2
      rw [hfound] at hexisting
      cases hexisting
    | some existing =>
      obtain ⟨hget, hscope, howner⟩ := findExistingTaskForCreate_spec hfound
      have hallowed := assertParentFlowLinkAllowed_mergePatch (params.resolvedAgentId deps)
        howner (hscope.symm ▸ haccepted.2)
      rw [mergeExistingTaskForCreate_unchanged_iff h hget hallowed]
      refine not_congr ⟨fun hhalf => ⟨haccepted, existing, hfound, hhalf⟩, fun hhalf => ?_⟩
      obtain ⟨_, other, hother, hhalf⟩ := hhalf
      rw [hfound] at hother
      cases hother
      exact hhalf
  · obtain ⟨error, heq⟩ := createTaskRecord_of_not_accepted deps registry now taskId
      haccepted
    rw [heq]
    exact iff_of_true nofun fun hhalf => haccepted hhalf.1

theorem linkTaskToFlowById_consistent {flowId : String} (h : Consistent registry) :
    Consistent (linkTaskToFlowById deps getTaskFlowById registry taskId flowId).2 ∧
      ((linkTaskToFlowById deps getTaskFlowById registry taskId flowId).1 = .ok none →
        OnlyWrites registry
          (linkTaskToFlowById deps getTaskFlowById registry taskId flowId).2) := by
  unfold linkTaskToFlowById
  split
  · exact ⟨h, fun _ => .refl⟩
  · exact ⟨h, fun _ => .refl⟩
  · rename_i flowId current _ _
    split
    · exact ⟨h, nofun⟩
    · split
      · exact ⟨h, nofun⟩
      · refine ⟨h.updateTask nofun, fun hnone => ?_⟩
        cases updateTask_cases deps.store registry taskId { parentFlowId := some flowId } with
        | inl hfails => exact hfails.2.2
        | inr hwrites =>
          obtain ⟨_, _, _, heq⟩ := hwrites
          rw [heq] at hnone
          cases hnone

end Create

end OpenClaw.Tasks
