import Mathlib.Data.List.Dedup
import OpenClaw.Tasks.StoreAgreement

/-!
# Lookups through the indexes

Where the indexes file every row under its keys, a lookup through an index finds the rows that a
scan of all rows finds (`LookupsExact`), and an index holds the ids of the rows with a key and no
others (`IndexesExact`).
-/

namespace OpenClaw.Tasks

open KeyedList Multimap

variable {registry : TaskRegistry}

/-- A scan of all rows for those with a key. -/
def scanTasks (registry : TaskRegistry) (keys : TaskRecord → List String) (key : String) :
    List TaskRecord :=
  match normalizeOptionalString (some key) with
  | none => []
  | some key => registry.tasks.filter fun task => key ∈ keys task

variable {keys : TaskRecord → List String} {index : List (String × String)}

theorem Indexed.readIndex_perm (h : Indexed registry)
    (hindex : Indexes keys TaskRecord.taskId registry.tasks index) (key : String) :
    List.Perm (registry.readIndex index key)
      (registry.tasks.filter fun task => key ∈ keys task) :=
  hindex.lookup_perm h.nodup key

theorem blank_not_mem_keys {value : Option String} :
    "" ∉ (normalizeOptionalString value).toList := by
  intro hmem
  exact normalizeOptionalString_ne_blank value (Option.mem_toList.1 hmem)

theorem normalizeOptionalString_some_eq (key : String) :
    normalizeOptionalString (some key) =
      if JsString.trim key = "" then none else some (JsString.trim key) := by
  unfold normalizeOptionalString
  by_cases hblank : JsString.trim key = "" <;> simp [hblank]

theorem getTasksByRunId_perm (h : Indexed registry) (runId : String) :
    List.Perm (getTasksByRunId registry runId) (scanTasks registry runIdKeys runId) := by
  have hperm := h.readIndex_perm h.byRunId (JsString.trim runId)
  unfold scanTasks
  rw [normalizeOptionalString_some_eq]
  by_cases hblank : JsString.trim runId = ""
  · rw [if_pos hblank]
    refine hperm.trans ?_
    rw [hblank, List.filter_eq_nil_iff.2]
    intro task _ hmem
    exact blank_not_mem_keys (of_decide_eq_true hmem)
  · rw [if_neg hblank]
    exact hperm

theorem listTasksForKey_perm (h : Indexed registry)
    (hindex : Indexes keys TaskRecord.taskId registry.tasks index) (key : String) :
    List.Perm (listTasksForKey registry index key) (scanTasks registry keys key) := by
  unfold listTasksForKey scanTasks
  cases normalizeOptionalString (some key) with
  | none => exact .rfl
  | some key =>
    exact (List.mergeSort_perm _ _).trans ((List.reverse_perm _).trans (h.readIndex_perm hindex key))

theorem selectRunScope_perm {runtime : Option TaskRuntime} {sessionKey : Option String}
    {left right : List TaskRecord} (h : List.Perm left right) :
    List.Perm (selectRunScope runtime sessionKey left)
      (selectRunScope runtime sessionKey right) := by
  have hfound := h.filter fun task => runtime.all (task.runtime = ·)
  unfold selectRunScope
  dsimp only
  split
  · rename_i key _
    have hchild := hfound.filter fun task =>
      normalizeOptionalString task.childSessionKey = some key
    have hnil : ∀ {xs ys : List TaskRecord}, List.Perm xs ys → (xs ≠ [] ↔ ys ≠ []) :=
      fun hp => not_congr ⟨fun hx => (hx ▸ hp).nil_eq.symm, fun hy => (hy ▸ hp).eq_nil⟩
    by_cases hsome : (right.filter fun task => runtime.all (task.runtime = ·)).filter
        (fun task => normalizeOptionalString task.childSessionKey = some key) ≠ []
    · rw [if_pos ((hnil hchild).2 hsome), if_pos hsome]
      exact hchild
    · rw [if_neg fun hleft => hsome ((hnil hchild).1 hleft), if_neg hsome]
      exact hfound.filter _
  · rw [(hfound.map taskRunScopeKey).dedup.length_eq]
    split
    · exact hfound
    · exact .rfl

/-- Every lookup through an index finds what a scan of all rows finds. -/
structure LookupsExact (registry : TaskRegistry) : Prop where
  byRunId : ∀ runId,
    List.Perm (getTasksByRunId registry runId) (scanTasks registry runIdKeys runId)
  byRunScope : ∀ runId runtime sessionKey,
    List.Perm (getTasksByRunScope registry runId runtime sessionKey)
      (selectRunScope runtime sessionKey (scanTasks registry runIdKeys runId))
  byOwnerKey : ∀ ownerKey,
    List.Perm (listTasksForOwnerKey registry ownerKey) (scanTasks registry ownerKeys ownerKey)
  byFlowId : ∀ flowId,
    List.Perm (listTasksForFlowId registry flowId) (scanTasks registry parentFlowKeys flowId)
  byRelatedSessionKey : ∀ sessionKey,
    List.Perm (listTasksForRelatedSessionKey registry sessionKey)
      (scanTasks registry getTaskRelatedSessionIndexKeys sessionKey)
  active : ∀ sessionKey excludeTaskId,
    hasActiveTaskForChildSessionKey registry sessionKey excludeTaskId =
      registry.tasks.any fun task =>
        some task.taskId ≠ excludeTaskId && isActiveTaskStatus task.status &&
          (normalizeOptionalString (some sessionKey)).isSome &&
          normalizeOptionalString task.childSessionKey = normalizeOptionalString (some sessionKey)

theorem mem_getTaskRelatedSessionIndexKeys {task : TaskRecord} {key : String} :
    key ∈ getTaskRelatedSessionIndexKeys task ↔
      normalizeOptionalString (some task.ownerKey) = some key ∨
        normalizeOptionalString task.childSessionKey = some key := by
  simp [getTaskRelatedSessionIndexKeys, ownerKeys]

theorem hasActiveTaskForChildSessionKey_eq (h : Indexed registry) (sessionKey : String)
    (excludeTaskId : Option String) :
    hasActiveTaskForChildSessionKey registry sessionKey excludeTaskId =
      registry.tasks.any fun task =>
        some task.taskId ≠ excludeTaskId && isActiveTaskStatus task.status &&
          (normalizeOptionalString (some sessionKey)).isSome &&
          normalizeOptionalString task.childSessionKey =
            normalizeOptionalString (some sessionKey) := by
  unfold hasActiveTaskForChildSessionKey
  cases hkey : normalizeOptionalString (some sessionKey) with
  | none => simp
  | some key =>
    have hperm := h.readIndex_perm h.byRelatedSessionKey key
    rw [Bool.eq_iff_iff, List.any_eq_true, List.any_eq_true]
    refine exists_congr fun task => ?_
    rw [hperm.mem_iff, List.mem_filter, decide_eq_true_eq, mem_getTaskRelatedSessionIndexKeys]
    simp only [Option.isSome_some, Bool.and_true, Bool.and_eq_true, decide_eq_true_eq]
    tauto

theorem Indexed.lookupsExact (h : Indexed registry) : LookupsExact registry where
  byRunId := getTasksByRunId_perm h
  byRunScope runId _ _ := selectRunScope_perm (getTasksByRunId_perm h runId)
  byOwnerKey := listTasksForKey_perm h h.byOwnerKey
  byFlowId := listTasksForKey_perm h h.byParentFlowId
  byRelatedSessionKey := listTasksForKey_perm h h.byRelatedSessionKey
  active := hasActiveTaskForChildSessionKey_eq h

/-- Each index holds the ids of the rows whose trimmed field is the key. -/
structure IndexesExact (registry : TaskRegistry) : Prop where
  byRunId : ∀ key taskId, taskId ∈ values registry.taskIdsByRunId key ↔
    ∃ task ∈ registry.tasks, task.taskId = taskId ∧ normalizeOptionalString task.runId = some key
  byOwnerKey : ∀ key taskId, taskId ∈ values registry.taskIdsByOwnerKey key ↔
    ∃ task ∈ registry.tasks, task.taskId = taskId ∧
      normalizeOptionalString (some task.ownerKey) = some key
  byParentFlowId : ∀ key taskId, taskId ∈ values registry.taskIdsByParentFlowId key ↔
    ∃ task ∈ registry.tasks, task.taskId = taskId ∧
      normalizeOptionalString task.parentFlowId = some key
  byRelatedSessionKey : ∀ key taskId, taskId ∈ values registry.taskIdsByRelatedSessionKey key ↔
    ∃ task ∈ registry.tasks, task.taskId = taskId ∧
      (normalizeOptionalString (some task.ownerKey) = some key ∨
        normalizeOptionalString task.childSessionKey = some key)

theorem Indexed.indexesExact (h : Indexed registry) : IndexesExact registry := by
  constructor <;> intro key taskId
  · simp [mem_values, h.byRunId.2, runIdKeys]
  · simp [mem_values, h.byOwnerKey.2, ownerKeys]
  · simp [mem_values, h.byParentFlowId.2, parentFlowKeys]
  · simp [mem_values, h.byRelatedSessionKey.2, mem_getTaskRelatedSessionIndexKeys]

end OpenClaw.Tasks
