import OpenClaw.Tasks.CancelFinality

/-!
# Runs of tasks under all their writers

In every run in which no outcome overtakes a cancellation, outcomes are final: each step keeps the
outcome of every row, and a call that reports a cancellation, or writes one, found the task active
or provisionally killed.
-/

namespace OpenClaw.Tasks

open Lts

variable {toLowerCase : String → String} {deps : TaskRegistryDeps} {store : TaskRegistryStore}
  {registry registry' : TaskRegistry} {pending : PendingCancel} {s t : TaskSystem}
  {event : TaskEvent} {now : Int}

/-! ## What is asked of a step -/

/-- The outcome that a kill found, where there is one. -/
def KillSubagentRunResult.reported (result : KillSubagentRunResult) : Option ReportedOutcome :=
  match result.targetState with
  | some (.terminal outcome) => some outcome.reported
  | _ => none

/-- The outcome that an event reports for a row. -/
def TaskEvent.reported (current : TaskRecord) : TaskEvent → Option ReportedOutcome
  | .agentEvent event => event.reported current
  | .finalize params => some params.reported
  | .resumeCancel _ (.subagentKilled result) _ => result.reported
  | _ => none

/-- A cancellation is reported, and written, only while the task is active or provisionally
killed. -/
def CancelDecision.OnlyLive (store : TaskRegistryStore) (now : Int) : CancelDecision → Prop
  | .answer result _ => result.cancelled = false
  | .write pending registry =>
    ((finishCancel store registry now pending).1.cancelled = true →
      ∃ row, registry.getTask pending.task.taskId = some row ∧ StillCancellable row) ∧
    ∀ id current next, registry.getTask id = some current →
      (finishCancel store registry now pending).2.getTask id = some next → next ≠ current →
        StillCancellable current

/-- What a step does to outcomes. -/
structure OutcomesFinal (deps : TaskRegistryDeps) (s : TaskSystem) (event : TaskEvent)
    (t : TaskSystem) : Prop where
  rows : RowsKept (fun current => event.reported current) s.registry t.registry
  cancels : ∀ decision now, s.cancelDecision deps event = some (decision, now) →
    decision.OnlyLive deps.store now

/-- At the write of a cancellation, no outcome has overtaken it in a row that the write reaches. -/
def NotOvertaken (deps : TaskRegistryDeps) (s : TaskSystem) (event : TaskEvent) : Prop :=
  ∀ pending registry now, s.cancelDecision deps event = some (.write pending registry, now) →
    ∀ row, pending.Reaches registry row → ¬ pending.Overtaken row

/-! ## Cancellations -/

theorem OutcomeKept.cancel {reported : Option ReportedOutcome} {current row next : TaskRecord}
    (h : OutcomeKept reported current row) (hlive : StillCancellable row)
    (hcancelled : next.status = .cancelled) : OutcomeKept reported current next where
  terminal _ := by
    rw [hcancelled]
    rfl
  lost hlost := by
    rw [hcancelled] at hlost
    cases hlost
  kill outcome houtcome hmarker hruntime _ := by
    by_cases hsame : row = current
    · exact hsame ▸ hlive
    · exact h.kill outcome houtcome hmarker hruntime hsame
  cancelled _ _ hne := absurd hcancelled hne

variable {report : TaskRecord → Option ReportedOutcome}

theorem RowsKept.written {between : TaskRegistry} (h : RowsKept report registry between)
    (hwritten : CancelWritten between registry') : RowsKept report registry registry' := by
  intro id current next hcurrent hnext
  cases hwritten id with
  | inl hsame =>
    rw [hsame] at hnext
    exact h id current next hcurrent hnext
  | inr hchanged =>
    obtain ⟨row, next', hrow, hnext', hlive, hcancelled⟩ := hchanged
    rw [hnext] at hnext'
    cases hnext'
    exact (h id current row hcurrent hrow).cancel hlive hcancelled

theorem finishCancel_registry (registry : TaskRegistry) :
    (finishCancel store registry now pending).2 =
      (writeCancelled store registry now pending).2 := by
  unfold finishCancel
  dsimp only
  split <;> rfl

theorem finishCancel_cancelled
    (h : (finishCancel store registry now pending).1.cancelled = true) :
    ∃ row, (writeCancelled store registry now pending).1 = some row := by
  unfold finishCancel at h
  dsimp only at h
  split at h
  · cases h
  · rename_i row hrow
    exact ⟨row, hrow⟩

theorem finishCancel_onlyLive (h : Indexed registry)
    (hwritable : ∀ row, pending.Reaches registry row → pending.Writable row) :
    (CancelDecision.write pending registry).OnlyLive store now := by
  constructor
  · intro hcancelled
    obtain ⟨row, hrow⟩ := finishCancel_cancelled hcancelled
    exact writeCancelled_returned h hwritable hrow
  · intro id current next hcurrent hnext hne
    rw [finishCancel_registry] at hnext
    cases writeCancelled_written store now h hwritable id with
    | inl hsame =>
      rw [hsame, hcurrent] at hnext
      cases hnext
      exact absurd rfl hne
    | inr hchanged =>
      obtain ⟨row, _, hrow, _, hlive, _⟩ := hchanged
      rw [hcurrent] at hrow
      cases hrow
      exact hlive

theorem Consistent.writeCancelled (h : Consistent registry) :
    Consistent (writeCancelled store registry now pending).2 := by
  unfold OpenClaw.Tasks.writeCancelled
  split
  · exact h.updateTasks runStatePatches_keepsRunId
  · exact h.updateTask (keepsRunId_of_none rfl)

variable {decision : CancelDecision}

theorem finish_kept (hbefore : Consistent decision.before)
    (hkept : RowsKept report registry decision.before)
    (hwritable : ∀ pending registry', decision = .write pending registry' →
      ∀ row, pending.Reaches registry' row → pending.Writable row) :
    RowsKept report registry (decision.finish store now).2 := by
  cases decision with
  | answer result registry' => exact hkept
  | write pending registry' =>
    show RowsKept report registry (finishCancel store registry' now pending).2
    rw [finishCancel_registry]
    exact hkept.written (writeCancelled_written store now hbefore.indexed (hwritable _ _ rfl))

theorem finish_onlyLive (hbefore : Consistent decision.before) (hrefuses : decision.Refuses)
    (hwritable : ∀ pending registry', decision = .write pending registry' →
      ∀ row, pending.Reaches registry' row → pending.Writable row) :
    decision.OnlyLive store now := by
  cases decision with
  | answer result registry' => exact hrefuses
  | write pending registry' =>
    exact finishCancel_onlyLive hbefore.indexed (hwritable _ _ rfl)

theorem Consistent.finish (h : Consistent decision.before) :
    Consistent (decision.finish store now).2 := by
  cases decision with
  | answer result registry' => exact h
  | write pending registry' =>
    show Consistent (finishCancel store registry' now pending).2
    rw [finishCancel_registry]
    exact h.writeCancelled

/-! ## Decisions -/

variable {params : CancelTaskParams} {cronAborted : Bool}

theorem beginCancel_answers {result : CancelResult}
    (h : beginCancel registry params cronAborted = .answers result) : result.cancelled = false := by
  unfold beginCancel at h
  grind [refusal]

variable {result : KillSubagentRunResult}

theorem ReconciledFrom.consistent (h : Consistent registry)
    (hfrom : ReconciledFrom store registry pending result registry') : Consistent registry' := by
  cases hfrom with
  | inl hsame => exact hsame ▸ h
  | inr hwritten =>
    obtain ⟨outcome, _, rfl⟩ := hwritten
    exact h.updateTasks runStatePatches_keepsRunId

theorem ReconciledFrom.kept (h : Consistent registry)
    (hfrom : ReconciledFrom store registry pending result registry') :
    RowsKept (fun _ => result.reported) registry registry' := by
  cases hfrom with
  | inl hsame =>
    rw [hsame]
    exact rowsKept_of_getTask fun _ => rfl
  | inr hwritten =>
    obtain ⟨outcome, htarget, rfl⟩ := hwritten
    unfold KillSubagentRunResult.reported
    rw [htarget]
    exact finalize_kept h.indexed _

theorem resume_decision (store : TaskRegistryStore) (pending : PendingCancel) (now : Int)
    (h : Consistent registry) (answer : CancelAnswer) (call : Nat) :
    let decision := answer.resume store registry pending
    Consistent decision.before ∧ decision.Refuses ∧
      RowsKept (fun current => (TaskEvent.resumeCancel call answer now).reported current) registry
        decision.before := by
  cases answer with
  | threw message => exact ⟨h, rfl, rowsKept_of_getTask fun _ => rfl⟩
  | acpCancelled => exact ⟨h, trivial, rowsKept_of_getTask fun _ => rfl⟩
  | subagentKilled result =>
    obtain ⟨hfrom, hrefuses⟩ := afterKill_decision registry store pending result
    exact ⟨hfrom.consistent h, hrefuses, hfrom.kept h⟩

/-! ## Runs -/

/-- What holds in every state: the registry is consistent, and a task whose loss is being looked
into was active when the look began. -/
structure TaskSystem.Sound (s : TaskSystem) : Prop where
  consistent : Consistent s.registry
  losses : ∀ pending ∈ s.losses, isActiveTaskStatus pending.task.status = true

theorem sound_start (h : TaskSystemStart s) : s.Sound := by
  obtain ⟨⟨stored, hnodup, hregistry⟩, _, hlosses⟩ := h
  refine ⟨hregistry ▸ consistent_restoreTaskRegistry hnodup, ?_⟩
  intro pending hpending
  rw [hlosses] at hpending
  cases hpending

theorem other_possible {op : TaskRegistryOp} (h : (TaskEvent.other op).Possible s) :
    op.Possible s.registry ∧ op.KeepsOutcomes := by
  cases op with
  | createTaskRecord getTaskFlowById now taskId params =>
    refine ⟨?_, trivial⟩
    show s.registry.getTask taskId = none
    by_contra hsome
    exact h (.inl (Option.isSome_iff_ne_none.2 hsome))
  | updateTask taskId patch => exact ⟨h.2.2.2, h⟩
  | _ => exact ⟨trivial, h⟩

theorem resumeMarkLost_consistent {loss : PendingLoss} {recheck : LossRecheck}
    (h : Consistent registry) : Consistent (loss.resume store registry recheck) := by
  unfold PendingLoss.resume
  split
  · exact h
  · dsimp only
    split
    · exact h
    · split
      · exact h
      · exact h.updateTask (keepsRunId_of_none rfl)

theorem cancelDecision_start
    (h : s.cancelDecision deps (.startCancel params cronAborted now) = some (decision, now)) :
    decision.before = s.registry ∧ decision.Refuses ∧
      ∀ pending registry', decision = .write pending registry' →
        beginCancel s.registry params cronAborted = .writes pending ∧ registry' = s.registry := by
  unfold TaskSystem.cancelDecision at h
  dsimp only at h
  split at h
  · rename_i result hresult
    cases h
    refine ⟨rfl, beginCancel_answers hresult, ?_⟩
    intro pending registry' hwrite
    cases hwrite
  · rename_i pending hpending
    cases h
    refine ⟨rfl, trivial, ?_⟩
    intro pending' registry' hwrite
    cases hwrite
    exact ⟨hpending, rfl⟩
  · cases h
  · cases h

theorem TaskSystem.Sound.step (h : s.Sound) (hstep : TaskSystemStep toLowerCase deps s event t) :
    t.Sound := by
  obtain ⟨hstep, hpossible⟩ := hstep
  cases hstep with
  | agentEvent event =>
    exact ⟨h.consistent.updateTasks agentEventPatches_keepsRunId, h.losses⟩
  | finalize params => exact ⟨h.consistent.updateTasks runStatePatches_keepsRunId, h.losses⟩
  | markRunning runId runtime sessionKey startedAt lastEventAt progressSummary =>
    exact ⟨h.consistent.updateTasks runStatePatches_keepsRunId, h.losses⟩
  | startCancel hdecision =>
    refine ⟨Consistent.finish ?_, h.losses⟩
    rw [(cancelDecision_start hdecision).1]
    exact h.consistent
  | awaitCancel _ => exact ⟨h.consistent, h.losses⟩
  | @resumeCancel call answer now pending hcall hfits =>
    exact ⟨(resume_decision deps.store pending now h.consistent answer call).1.finish, h.losses⟩
  | recoverCron hget hrecoverable =>
    exact ⟨h.consistent.updateTask (keepsRunId_of_none rfl), h.losses⟩
  | startMarkLost hget hlost =>
    refine ⟨h.consistent, ?_⟩
    intro loss hloss
    cases List.mem_append.1 hloss with
    | inl hold => exact h.losses loss hold
    | inr hnew =>
      rw [List.mem_singleton.1 hnew]
      simp only [shouldMarkLost, Bool.and_eq_true] at hlost
      exact hlost.1
  | resumeMarkLost hpass =>
    refine ⟨resumeMarkLost_consistent h.consistent, ?_⟩
    intro loss hloss
    exact h.losses loss (List.mem_of_mem_eraseIdx hloss)
  | other op =>
    exact ⟨h.consistent.step ⟨(other_possible hpossible).1, rfl⟩, h.losses⟩

theorem reachable_sound (h : Reachable TaskSystemStart (TaskSystemStep toLowerCase deps) s) :
    s.Sound :=
  h.invariant (fun _ => sound_start) fun _ _ _ hsound hstep => hsound.step hstep

theorem cancels_of_none (h : s.cancelDecision deps event = none) :
    ∀ decision now, s.cancelDecision deps event = some (decision, now) →
      decision.OnlyLive deps.store now := by
  intro decision now hdecision
  rw [h] at hdecision
  cases hdecision

theorem awaits_cancelDecision
    (h : beginCancel s.registry params cronAborted = .awaitsAcp pending ∨
      beginCancel s.registry params cronAborted = .awaitsSubagent pending) :
    s.cancelDecision deps (.startCancel params cronAborted now) = none := by
  unfold TaskSystem.cancelDecision
  dsimp only
  cases h with
  | inl hacp => rw [hacp]
  | inr hsubagent => rw [hsubagent]

/-- **One step keeps outcomes**, case by case. -/
theorem outcomesFinal_step (h : s.Sound) (hstep : TaskSystemStep toLowerCase deps s event t)
    (hnot : NotOvertaken deps s event) : OutcomesFinal deps s event t := by
  obtain ⟨hstep, hpossible⟩ := hstep
  cases hstep with
  | agentEvent event => exact ⟨agentEvent_kept h.consistent.indexed event, cancels_of_none rfl⟩
  | finalize params => exact ⟨finalize_kept h.consistent.indexed params, cancels_of_none rfl⟩
  | markRunning runId runtime sessionKey startedAt lastEventAt progressSummary =>
    exact ⟨markRunning_kept h.consistent.indexed _ rfl, cancels_of_none rfl⟩
  | @startCancel params cronAborted now decision hdecision =>
    obtain ⟨hbefore, hrefuses, hwrites⟩ := cancelDecision_start hdecision
    have hcons : Consistent decision.before := hbefore.symm ▸ h.consistent
    have hwritable : ∀ pending registry', decision = .write pending registry' →
        ∀ row, pending.Reaches registry' row → pending.Writable row := by
      intro pending registry' hwrite
      obtain ⟨hbegin, rfl⟩ := hwrites pending registry' hwrite
      exact beginCancel_writable hbegin (hnot pending _ now (hwrite ▸ hdecision))
    refine ⟨finish_kept hcons (rowsKept_of_getTask fun id => by rw [hbefore]) hwritable, ?_⟩
    intro decision' now' hdecision'
    rw [hdecision] at hdecision'
    cases hdecision'
    exact finish_onlyLive hcons hrefuses hwritable
  | awaitCancel hawaits =>
    exact ⟨rowsKept_of_getTask fun _ => rfl, cancels_of_none (awaits_cancelDecision hawaits)⟩
  | @resumeCancel call answer now pending hcall hfits =>
    obtain ⟨hcons, hrefuses, hkept⟩ :=
      resume_decision deps.store pending now h.consistent answer call
    have hdecision : s.cancelDecision deps (.resumeCancel call answer now) =
        some (answer.resume deps.store s.registry pending, now) := by
      unfold TaskSystem.cancelDecision
      dsimp only
      rw [hcall]
      rfl
    have hwritable : ∀ pending' registry',
        answer.resume deps.store s.registry pending = .write pending' registry' →
        ∀ row, pending'.Reaches registry' row → pending'.Writable row := by
      intro pending' registry' hwrite
      exact resume_writable h.consistent.indexed hfits hwrite
        (hnot pending' registry' now (hwrite ▸ hdecision))
    refine ⟨finish_kept hcons hkept hwritable, ?_⟩
    intro decision' now' hdecision'
    rw [hdecision] at hdecision'
    cases hdecision'
    exact finish_onlyLive hcons hrefuses hwritable
  | recoverCron hget hrecoverable =>
    exact ⟨recoverCron_kept hget hrecoverable _, cancels_of_none rfl⟩
  | startMarkLost hget hlost => exact ⟨rowsKept_of_getTask fun _ => rfl, cancels_of_none rfl⟩
  | resumeMarkLost hpass =>
    exact ⟨resumeMarkLost_kept (h.losses _ (List.mem_of_getElem? hpass)), cancels_of_none rfl⟩
  | other op =>
    obtain ⟨hregistry, hkeeps⟩ := other_possible hpossible
    exact ⟨perform_kept h.consistent.indexed hkeeps hregistry, cancels_of_none rfl⟩

/-- **Outcomes of tasks are final.** In a run in which no outcome overtakes a cancellation, every
step keeps the outcomes there are, and no cancellation is reported of a task that was over. -/
theorem reachable_outcomes_final
    (h : Reachable TaskSystemStart (Guarded (TaskSystemStep toLowerCase deps) (NotOvertaken deps)) s)
    (hstep : Guarded (TaskSystemStep toLowerCase deps) (NotOvertaken deps) s event t) :
    OutcomesFinal deps s event t :=
  outcomesFinal_step (reachable_sound h.restrict) hstep.1 hstep.2

/-! ## A cancellation that is overtaken -/

/-- A running ACP task with a session that can be cancelled. -/
def acpTask : TaskRecord :=
  { taskId := "task", runtime := .acp, requesterSessionKey := "main", ownerKey := "main"
    scopeKind := .session, childSessionKey := some "child", runId := some "run", task := "build"
    status := .running, deliveryStatus := .pending, notifyPolicy := .doneOnly, createdAt := 0 }

def acpCancel : PendingCancel :=
  { task := acpTask, provisional := false, error := "Cancelled by operator." }

def acpSuccess : RunFinalization :=
  { runId := "run", runtime := some .acp, status := .succeeded, endedAt := 1 }

/-- The task was restored from the store, and a call to cancel it waits for its session. -/
def cancelling : TaskSystem :=
  { registry := restoreTaskRegistry { tasks := [acpTask] }, cancels := [acpCancel] }

/-- The run has succeeded meanwhile. -/
def overtaken : TaskSystem :=
  { cancelling with
    registry := (finalizeTaskRunByRunId (plainDeps fun _ => false).store cancelling.registry
      acpSuccess).2 }

theorem beginCancel_acpTask :
    beginCancel (restoreTaskRegistry { tasks := [acpTask] }) { taskId := "task" } false =
      .awaitsAcp acpCancel := by
  have hget : (restoreTaskRegistry { tasks := [acpTask] }).getTask (JsString.trim "task") =
      some acpTask := by decide +kernel
  unfold beginCancel
  rw [hget]
  have hchild : (normalizeOptionalString acpTask.childSessionKey).isSome = true := by
    decide +kernel
  have herror : cancellationError none = "Cancelled by operator." := by decide +kernel
  dsimp only
  rfl

theorem reachable_cancelling :
    Reachable TaskSystemStart (Guarded (TaskSystemStep id (plainDeps fun _ => false))
      (NotOvertaken (plainDeps fun _ => false))) cancelling := by
  refine .next (a := .startCancel { taskId := "task" } false 0)
    (.start (s := { registry := restoreTaskRegistry { tasks := [acpTask] } })
      ⟨⟨{ tasks := [acpTask] }, List.nodup_singleton _, rfl⟩, rfl, rfl⟩)
    ⟨⟨.awaitCancel (.inl beginCancel_acpTask), trivial⟩, ?_⟩
  intro pending registry now hdecision
  cases hdecision

theorem reachable_outcomes_final_cancelling :
    OutcomesFinal (plainDeps fun _ => false) cancelling (.finalize acpSuccess) overtaken :=
  reachable_outcomes_final reachable_cancelling ⟨⟨.finalize _ _, trivial⟩, fun _ _ _ => nofun⟩

/-- The session of the task is found cancelled after the run has succeeded: the call reports that
it has cancelled the task. -/
theorem cancelled_after_success :
    ¬ ∀ (toLowerCase : String → String) (deps : TaskRegistryDeps) (s t : TaskSystem)
      (event : TaskEvent), Reachable TaskSystemStart (TaskSystemStep toLowerCase deps) s →
      TaskSystemStep toLowerCase deps s event t → OutcomesFinal deps s event t := by
  intro hall
  have hreach : Reachable TaskSystemStart (TaskSystemStep id (plainDeps fun _ => false))
      overtaken :=
    reachable_cancelling.restrict.next ⟨.finalize _ acpSuccess, trivial⟩
  have hfinal := hall _ _ _ _ (.resumeCancel 0 .acpCancelled 2) hreach
    ⟨@TaskStep.resumeCancel _ _ _ _ _ _ acpCancel rfl rfl, trivial⟩
  obtain ⟨row, hrow, hlive⟩ := (hfinal.cancels _ _ rfl).1 (by decide +kernel)
  have hover : (overtaken.registry.getTask "task").all (·.status = .succeeded) = true := by
    decide +kernel
  rw [show overtaken.registry.getTask "task" = some row from hrow] at hover
  have hstatus : row.status = .succeeded := by simpa using hover
  simp [StillCancellable, isProvisionalSubagentKillTask, isActiveTaskStatus, hstatus] at hlive

end OpenClaw.Tasks
