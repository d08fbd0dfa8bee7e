import OpenClaw.Lib.Lts
import OpenClaw.Tasks.CreateAgreement
import OpenClaw.Tasks.IndexLookups
import OpenClaw.Tasks.TaskUpdates

/-!
# Runs of the task registry

The registry under any sequence of its operations, with any writes of the store throwing. In every
state it reaches, memory is what the store holds, every indexed lookup finds what a scan of all
rows finds, and an operation that reports that it failed changes nothing, unless it merges halfway.
-/

namespace OpenClaw.Tasks

open Lts

variable {deps : TaskRegistryDeps} {registry registry' : TaskRegistry}

/-! ## Operations -/

/-- The operations of the registry, with what the flows, the clock and the random ids were. -/
inductive TaskRegistryOp
  | createTaskRecord (getTaskFlowById : String → Option TaskFlowRecord) (now : Int)
      (taskId : String) (params : TaskCreateParams)
  | linkTaskToFlowById (getTaskFlowById : String → Option TaskFlowRecord) (taskId flowId : String)
  | setTaskCleanupAfterById (taskId : String) (cleanupAfter : Int)
  | markTaskTerminalById (taskId : String) (mark : TaskTerminalMark)
  | markTaskLostById (taskId : String) (mark : TaskLostMark)
  | updateTaskProgressById (now : Int) (taskId progressSummary : String)
      (lastEventAt : Option Int)
  | updateTaskNotifyPolicyById (now : Int) (taskId : String) (notifyPolicy : TaskNotifyPolicy)
  /-- The writes of cancellations and notifications, which name a row. -/
  | updateTask (taskId : String) (patch : TaskPatch)
  | updateTaskStateByRunId (params : RunStateUpdate)
  | updateTaskDeliveryByRunId (runId : String) (runtime : Option TaskRuntime)
      (sessionKey : Option String) (deliveryStatus : TaskDeliveryStatus) (error : Option String)
  | onAgentEvent (event : AgentEvent)
  | upsertTaskDeliveryState (state : TaskDeliveryState)
  | deleteTaskRecordById (taskId : String)

inductive TaskRegistryReply
  | threw (error : TaskRegistryError)
  | task (record : Option TaskRecord)
  | tasks (records : List TaskRecord)
  | deliveryState (state : TaskDeliveryState)
  | deleted (done : Bool)
  | nothing

/-- The operation reports that it failed: `null` or `false`. -/
def TaskRegistryReply.Failed : TaskRegistryReply → Prop
  | .task record => record = none
  | .deleted done => done = false
  | _ => False

instance : DecidablePred TaskRegistryReply.Failed
  | .task record => inferInstanceAs (Decidable (record = none))
  | .deleted done => inferInstanceAs (Decidable (done = false))
  | .threw _ | .tasks _ | .deliveryState _ | .nothing => inferInstanceAs (Decidable False)

def TaskRegistryReply.ofCreate :
    Except TaskRegistryError (Option TaskRecord) → TaskRegistryReply
  | .error error => .threw error
  | .ok record => .task record

def replyTask (result : Option TaskRecord × TaskRegistry) :
    TaskRegistryReply × TaskRegistry := (.task result.1, result.2)

def replyTasks (result : List TaskRecord × TaskRegistry) :
    TaskRegistryReply × TaskRegistry := (.tasks result.1, result.2)

def perform (deps : TaskRegistryDeps) (registry : TaskRegistry) :
    TaskRegistryOp → TaskRegistryReply × TaskRegistry
  | .createTaskRecord getTaskFlowById now taskId params =>
    let result := createTaskRecord deps getTaskFlowById now taskId registry params
    (.ofCreate result.1, result.2)
  | .linkTaskToFlowById getTaskFlowById taskId flowId =>
    let result := linkTaskToFlowById deps getTaskFlowById registry taskId flowId
    (.ofCreate result.1, result.2)
  | .setTaskCleanupAfterById taskId cleanupAfter =>
    replyTask (setTaskCleanupAfterById deps.store registry taskId cleanupAfter)
  | .markTaskTerminalById taskId mark =>
    replyTask (markTaskTerminalById deps.store registry taskId mark)
  | .markTaskLostById taskId mark => replyTask (markTaskLostById deps.store registry taskId mark)
  | .updateTaskProgressById now taskId progressSummary lastEventAt =>
    replyTask (updateTaskProgressById deps.store registry now taskId progressSummary lastEventAt)
  | .updateTaskNotifyPolicyById now taskId notifyPolicy =>
    replyTask (updateTaskNotifyPolicyById deps.store registry now taskId notifyPolicy)
  | .updateTask taskId patch => replyTask (updateTask deps.store registry taskId patch)
  | .updateTaskStateByRunId params =>
    replyTasks (updateTaskStateByRunId deps.store registry params)
  | .updateTaskDeliveryByRunId runId runtime sessionKey deliveryStatus error =>
    replyTasks (updateTaskDeliveryByRunId deps.store registry runId runtime sessionKey
      deliveryStatus error)
  | .onAgentEvent event => (.nothing, onAgentEvent deps.store registry event)
  | .upsertTaskDeliveryState state =>
    let result :=
      upsertTaskDeliveryState deps.store deps.normalizeDeliveryContext registry state
    (.deliveryState result.1, result.2)
  | .deleteTaskRecordById taskId =>
    let result := deleteTaskRecordById deps.store registry taskId
    (.deleted result.1, result.2)

/-- What can happen: a new task has an id that no row has, and no caller changes a run id. -/
def TaskRegistryOp.Possible (registry : TaskRegistry) : TaskRegistryOp → Prop
  | .createTaskRecord _ _ taskId _ => registry.getTask taskId = none
  | .updateTask _ patch => patch.runId = none
  | _ => True

def RegistryStep (deps : TaskRegistryDeps) (registry : TaskRegistry) (op : TaskRegistryOp)
    (registry' : TaskRegistry) : Prop :=
  op.Possible registry ∧ (perform deps registry op).2 = registry'

/-- The registry after it was restored from a store, which has one row an id. -/
def RegistryStart (registry : TaskRegistry) : Prop :=
  ∃ stored : TaskRegistrySnapshot, (stored.tasks.map TaskRecord.taskId).Nodup ∧
    registry = restoreTaskRegistry stored

/-! ## Steps -/

variable {patch : TaskPatch}

theorem keepsRunId_of_none (h : patch.runId = none) : patch.KeepsRunId := by
  intro runId hrun
  rw [h] at hrun
  cases hrun

theorem runStatePatches_keepsRunId {params : RunStateUpdate} :
    ∀ p ∈ params.patches registry, p.2.KeepsRunId := by
  intro p hp
  obtain ⟨current, _, rfl⟩ := List.mem_map.1 hp
  exact keepsRunId_of_none rfl

theorem agentEventPatch_runId (event : AgentEvent) (current : TaskRecord) :
    (event.patch current).runId = none := by
  unfold AgentEvent.patch
  split
  · split <;> rfl
  · rfl
  · rfl

theorem agentEventPatches_keepsRunId {event : AgentEvent} :
    ∀ p ∈ event.patches registry, p.2.KeepsRunId := by
  intro p hp
  obtain ⟨current, _, rfl⟩ := List.mem_map.1 hp
  exact keepsRunId_of_none (agentEventPatch_runId event current)

variable {op : TaskRegistryOp}

/-- **Every operation keeps memory, store and indexes together.** -/
theorem Consistent.step (h : Consistent registry)
    (hstep : RegistryStep deps registry op registry') : Consistent registry' := by
  obtain ⟨hpossible, rfl⟩ := hstep
  cases op with
  | createTaskRecord getTaskFlowById now taskId params =>
    exact createTaskRecord_consistent h hpossible
  | linkTaskToFlowById getTaskFlowById taskId flowId => exact (linkTaskToFlowById_consistent h).1
  | updateTask taskId patch => exact h.updateTask (keepsRunId_of_none hpossible)
  | updateTaskStateByRunId params => exact h.updateTasks runStatePatches_keepsRunId
  | updateTaskDeliveryByRunId runId runtime sessionKey deliveryStatus error =>
    refine h.updateTasks fun p hp => ?_
    obtain ⟨current, _, rfl⟩ := List.mem_map.1 hp
    exact keepsRunId_of_none rfl
  | onAgentEvent event => exact h.updateTasks agentEventPatches_keepsRunId
  | upsertTaskDeliveryState state => exact h.upsertTaskDeliveryState
  | deleteTaskRecordById taskId => exact (deleteTaskRecordById_consistent h).1
  | _ =>
    refine h.updateTask ?_
    exact keepsRunId_of_none rfl

theorem reachable_consistent (h : Reachable RegistryStart (RegistryStep deps) registry) :
    Consistent registry := by
  refine h.invariant (fun registry hstart => ?_) fun _ _ _ hcons hstep => hcons.step hstep
  obtain ⟨stored, hnodup, rfl⟩ := hstart
  exact consistent_restoreTaskRegistry hnodup

/-! ## Failures -/

/-- The operation merges into a row halfway. -/
def TaskRegistryOp.HalfMerges (deps : TaskRegistryDeps) (registry : TaskRegistry) :
    TaskRegistryOp → Prop
  | .createTaskRecord getTaskFlowById _ _ params =>
    OpenClaw.Tasks.HalfMerges deps getTaskFlowById registry params
  | _ => False

theorem updateTask_failed {store : TaskRegistryStore} {taskId : String}
    (h : (updateTask store registry taskId patch).1 = none) :
    SameData registry (updateTask store registry taskId patch).2 := by
  cases updateTask_cases store registry taskId patch with
  | inl hfails => exact hfails.2.2.sameData
  | inr hwrites =>
    obtain ⟨_, _, _, heq⟩ := hwrites
    rw [heq] at h
    cases h

theorem ofCreate_failed {result : Except TaskRegistryError (Option TaskRecord)} :
    (TaskRegistryReply.ofCreate result).Failed ↔ result = .ok none := by
  cases result with
  | error error => exact iff_of_false id nofun
  | ok record => exact ⟨fun h => congrArg Except.ok h, fun h => Except.ok.inj h⟩

/-- **A failure changes nothing**, unless it is that of a merge that got halfway. -/
theorem failed_unchanged_iff (h : Consistent registry) (hpossible : op.Possible registry) :
    ((perform deps registry op).1.Failed → SameData registry (perform deps registry op).2) ↔
      ¬ op.HalfMerges deps registry := by
  cases op with
  | createTaskRecord getTaskFlowById now taskId params =>
    show ((TaskRegistryReply.ofCreate
        (createTaskRecord deps getTaskFlowById now taskId registry params).1).Failed →
      SameData registry (createTaskRecord deps getTaskFlowById now taskId registry params).2) ↔ _
    rw [ofCreate_failed]
    exact createTaskRecord_unchanged_iff h hpossible
  | linkTaskToFlowById getTaskFlowById taskId flowId =>
    show ((TaskRegistryReply.ofCreate
        (linkTaskToFlowById deps getTaskFlowById registry taskId flowId).1).Failed →
      SameData registry (linkTaskToFlowById deps getTaskFlowById registry taskId flowId).2) ↔ _
    rw [ofCreate_failed]
    exact iff_of_true (fun hfailed => ((linkTaskToFlowById_consistent h).2 hfailed).sameData) id
  | deleteTaskRecordById taskId =>
    show ((deleteTaskRecordById deps.store registry taskId).1 = false →
      SameData registry (deleteTaskRecordById deps.store registry taskId).2) ↔ _
    exact iff_of_true (fun hfailed => ((deleteTaskRecordById_consistent h).2 hfailed).sameData) id
  | updateTaskStateByRunId params => exact iff_of_true False.elim id
  | updateTaskDeliveryByRunId runId runtime sessionKey deliveryStatus error =>
    exact iff_of_true False.elim id
  | onAgentEvent event => exact iff_of_true False.elim id
  | upsertTaskDeliveryState state => exact iff_of_true False.elim id
  | _ => exact iff_of_true updateTask_failed id

/-- **The registry agrees with its store.** In every state that is reached, memory holds what the
store does, the indexes hold what a scan finds, and an operation that reports a failure has changed
nothing exactly when it is not a creation that merges halfway. -/
theorem reachable_registry_agrees
    (h : Reachable RegistryStart (RegistryStep deps) registry) :
    Agrees registry ∧ IndexesExact registry ∧ LookupsExact registry ∧
      ∀ op : TaskRegistryOp, op.Possible registry →
        (((perform deps registry op).1.Failed →
            SameData registry (perform deps registry op).2) ↔
          ¬ op.HalfMerges deps registry) := by
  have hcons := reachable_consistent h
  exact ⟨hcons.agrees, hcons.indexed.indexesExact, hcons.indexed.lookupsExact,
    fun _ hpossible => failed_unchanged_iff hcons hpossible⟩

/-- A store that has all methods, and contexts and keys that are normal already. -/
def plainDeps (throws : Nat → Bool) : TaskRegistryDeps where
  store := ⟨true, true, true, true, throws⟩
  normalizeDeliveryContext := some
  agentIdOfSessionKey _ := none
  normalizeAgentId := id

/-- An ACP run of the session `main`, as a task. -/
def acpRun : TaskCreateParams :=
  { runtime := .acp, ownerKey := some "main", runId := some "run", task := "build" }

/-- The registry after the run was created. -/
def afterAcpRun (throws : Nat → Bool) : TaskRegistry :=
  (perform (plainDeps throws) (restoreTaskRegistry {})
    (.createTaskRecord (fun _ => none) 0 "task" acpRun)).2

theorem reachable_afterAcpRun (throws : Nat → Bool) :
    Reachable RegistryStart (RegistryStep (plainDeps throws)) (afterAcpRun throws) :=
  .next (a := .createTaskRecord (fun _ => none) 0 "task" acpRun)
    (.start ⟨{}, List.nodup_nil, rfl⟩) ⟨rfl, rfl⟩

theorem reachable_registry_agrees_acp_run :
    Agrees (afterAcpRun fun _ => false) ∧ IndexesExact (afterAcpRun fun _ => false) ∧
      LookupsExact (afterAcpRun fun _ => false) ∧
      ∀ op : TaskRegistryOp, op.Possible (afterAcpRun fun _ => false) →
        (((perform (plainDeps fun _ => false) (afterAcpRun fun _ => false) op).1.Failed →
            SameData (afterAcpRun fun _ => false)
              (perform (plainDeps fun _ => false) (afterAcpRun fun _ => false) op).2) ↔
          ¬ op.HalfMerges (plainDeps fun _ => false) (afterAcpRun fun _ => false)) :=
  reachable_registry_agrees (reachable_afterAcpRun fun _ => false)

/-- The run is created again with the requester's origin and a label, and the third write of the
process throws: the creation reports that nothing was written, and the origin is in the delivery
state. -/
theorem failed_create_changes_delivery_state :
    ¬ ∀ (deps : TaskRegistryDeps) (registry : TaskRegistry),
      Reachable RegistryStart (RegistryStep deps) registry →
      ∀ op : TaskRegistryOp, op.Possible registry →
        (perform deps registry op).1.Failed →
        SameData registry (perform deps registry op).2 := by
  intro hall
  have hsame := hall _ _ (reachable_afterAcpRun fun write => write == 2)
    (.createTaskRecord (fun _ => none) 1 "other"
      { acpRun with
        label := some "nightly"
        requesterOrigin := some { channel := some "telegram", target := some "42" } })
    (by show TaskRegistry.getTask _ _ = none; decide +kernel)
    (by decide +kernel)
  exact absurd hsame.deliveryStates (by decide +kernel)

end OpenClaw.Tasks
