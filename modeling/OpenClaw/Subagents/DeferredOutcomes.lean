import OpenClaw.Lib.Lts
import OpenClaw.Lib.Trace
import OpenClaw.Subagents.Registry

/-!
# Deferred outcomes are submitted only for runs that did not recover

**The invariant** (`Consistent`). A run has at most one pending timer, and a pending timer was armed
after the last event that clears the timers of the run.

**Main result.** `deferred_law_iff`: in every run of the registry each deferred outcome is submitted
for a run that has not recovered since its timer was armed, whose outcome is not ok and which is not
paused, if and only if no error timer fires while its run is paused by a yield. The callback of the
timeout timer looks at the pause; the callback of the error timer does not.
-/

namespace OpenClaw.Subagents

variable {deps : RegistryDeps} {s t : Registry} {runId : String} {trace : List Happening}
  {deferred : Deferred} {timer : Nat}

/-! ## The law -/

/-- An event after which an earlier error or aborted end of the run is not to be reported. -/
def Happening.Recovers (runId : String) : Happening → Prop
  | .handled r kind => r = runId ∧ kind ≠ .error ∧ kind ≠ .aborted
  | _ => False

def ArmedSince (trace : List Happening) (runId : String) (deferred : Deferred) (timer : Nat) :
    Prop :=
  ∃ since before, trace = since ++ .armed runId deferred timer :: before ∧
    ∀ happening ∈ since, ¬ happening.Recovers runId

/-- The outcome a source defers. -/
def CompletionSource.defers : CompletionSource → Option Deferred
  | .errorGrace => some .error
  | .timeoutGrace => some .timeout
  | _ => none

/-- What may happen after `earlier`. A retry repeats a submission. -/
def Allowed (earlier : List Happening) : Happening → Prop
  | .submitted source params timer entry => ∀ deferred, source.defers = some deferred →
      (∃ n, timer = some n ∧ ArmedSince earlier params.runId deferred n) ∧
        entry.outcome ≠ some .ok ∧ entry.pausedByYield = false
  | .retried source params => ∃ timer entry, .submitted source params timer entry ∈ earlier
  | _ => True

/-- At most one timer of a run is pending, and everything that happened was allowed. -/
structure DeferredLaw (s : Registry) : Prop where
  onePending : ∀ runId, s.pendingLifecycleErrorByRunId runId = none ∨
    s.pendingLifecycleTimeoutByRunId runId = none
  lawful : Trace.Lawful Allowed s.trace

/-- The error timer of a run fires while it is paused by a yield, and nothing else stops the
callback. -/
def FiresWhilePaused (s : Registry) : Action → Prop
  | .errorTimer runId timer => ∃ pending entry,
      s.pendingLifecycleErrorByRunId runId = some pending ∧ pending.timer = timer ∧
        s.subagentRuns runId = some entry ∧ entry.pausedByYield = true ∧
        entry.endedReason ≠ some .complete ∧ entry.outcome ≠ some .ok
  | _ => False

/-! ## The invariant -/

theorem ArmedSince.cons {happening : Happening} (h : ArmedSince trace runId deferred timer)
    (hnot : ¬ happening.Recovers runId) :
    ArmedSince (happening :: trace) runId deferred timer := by
  obtain ⟨since, before, rfl, hsince⟩ := h
  refine ⟨happening :: since, before, rfl, fun other hother => ?_⟩
  rcases List.mem_cons.1 hother with rfl | hother
  · exact hnot
  · exact hsince other hother

theorem armedSince_self : ArmedSince (.armed runId deferred timer :: trace) runId deferred timer :=
  ⟨[], trace, rfl, fun _ hmem => absurd hmem List.not_mem_nil⟩

structure Consistent (s : Registry) : Prop where
  onePending : ∀ runId, s.pendingLifecycleErrorByRunId runId = none ∨
    s.pendingLifecycleTimeoutByRunId runId = none
  error : ∀ runId pending, s.pendingLifecycleErrorByRunId runId = some pending →
    ArmedSince s.trace runId .error pending.timer
  timeout : ∀ runId pending, s.pendingLifecycleTimeoutByRunId runId = some pending →
    ArmedSince s.trace runId .timeout pending.timer
  completions : ∀ completion ∈ s.completions,
    ∃ timer entry, .submitted completion.source completion.params timer entry ∈ s.trace

theorem Consistent.initial : Consistent {} := by
  refine ⟨fun _ => .inl rfl, ?_, ?_, fun _ hmem => absurd hmem List.not_mem_nil⟩
  · intro runId pending hp
    cases hp
  · intro runId pending hp
    cases hp

section

variable (h : Consistent s)
include h

theorem Consistent.note (happening : Happening)
    (hnot : ∀ runId, happening.Recovers runId → s.pendingLifecycleErrorByRunId runId = none ∧
      s.pendingLifecycleTimeoutByRunId runId = none) : Consistent (s.note happening) := by
  refine ⟨h.onePending, ?_, ?_, ?_⟩
  · intro runId pending hp
    refine (h.error runId pending hp).cons fun hrec => ?_
    have hnone := (hnot runId hrec).1
    exact Option.some_ne_none _ (hp.symm.trans hnone)
  · intro runId pending hp
    refine (h.timeout runId pending hp).cons fun hrec => ?_
    have hnone := (hnot runId hrec).2
    exact Option.some_ne_none _ (hp.symm.trans hnone)
  · intro completion hmem
    obtain ⟨timer, entry, hmem⟩ := h.completions completion hmem
    exact ⟨timer, entry, List.mem_cons_of_mem _ hmem⟩

theorem Consistent.clearError (runId : String) :
    Consistent (s.clearPendingLifecycleError runId) := by
  refine ⟨fun r => ?_, fun r pending hp => ?_, h.timeout, h.completions⟩
  · rw [Registry.clearPendingLifecycleError_error]
    by_cases hr : r = runId
    · exact .inl (if_pos hr)
    · rw [if_neg hr]
      exact h.onePending r
  · rw [Registry.clearPendingLifecycleError_error] at hp
    by_cases hr : r = runId
    · rw [if_pos hr] at hp
      cases hp
    · rw [if_neg hr] at hp
      exact h.error r pending hp

theorem Consistent.clearTimeout (runId : String) :
    Consistent (s.clearPendingLifecycleTimeout runId) := by
  refine ⟨fun r => ?_, h.error, fun r pending hp => ?_, h.completions⟩
  · rw [Registry.clearPendingLifecycleTimeout_timeout]
    by_cases hr : r = runId
    · exact .inr (if_pos hr)
    · rw [if_neg hr]
      exact h.onePending r
  · rw [Registry.clearPendingLifecycleTimeout_timeout] at hp
    by_cases hr : r = runId
    · rw [if_pos hr] at hp
      cases hp
    · rw [if_neg hr] at hp
      exact h.timeout r pending hp

theorem Consistent.setRun (runId : String) (entry : Option SubagentRunRecord) :
    Consistent (s.setRun runId entry) :=
  ⟨h.onePending, h.error, h.timeout, h.completions⟩

theorem Consistent.submit (source : CompletionSource) (params : CompleteSubagentRunParams)
    (timer : Option Nat) (entry : SubagentRunRecord) :
    Consistent (s.submit source params timer entry) := by
  have hnoted := h.note (.submitted source params timer entry) fun _ hrec => hrec.elim
  refine ⟨h.onePending, hnoted.error, hnoted.timeout, fun completion hmem => ?_⟩
  rcases List.mem_append.1 hmem with hmem | hmem
  · exact hnoted.completions completion hmem
  · rw [List.mem_singleton.1 hmem]
    exact ⟨timer, entry, List.mem_cons_self⟩

theorem Consistent.recover (runId : String) (kind : LifecycleKind) :
    Consistent ((s.note (.handled runId kind)).clearPending runId) := by
  have hcleared := (h.clearError runId).clearTimeout runId
  refine hcleared.note (.handled runId kind) fun r hrec => ?_
  obtain ⟨rfl, -⟩ := hrec
  exact ⟨Function.update_self .., Function.update_self ..⟩

theorem Consistent.armError (runId : String) (endedAt : Int) (startedAt : Option Int)
    (error : Option String) :
    Consistent (s.schedulePendingLifecycleError runId endedAt startedAt error) := by
  have hnoted := ((h.clearTimeout runId).clearError runId).note
    (.armed runId .error s.nextTimer) fun _ hrec => hrec.elim
  refine ⟨fun r => ?_, fun r pending hp => ?_, hnoted.timeout, hnoted.completions⟩
  · rw [Registry.schedulePendingLifecycleError_pending.1,
      Registry.schedulePendingLifecycleError_pending.2]
    by_cases hr : r = runId
    · exact .inr (if_pos hr)
    · rw [if_neg hr, if_neg hr]
      exact h.onePending r
  · rw [Registry.schedulePendingLifecycleError_pending.1] at hp
    by_cases hr : r = runId
    · rw [if_pos hr] at hp
      cases hp
      rw [hr]
      exact armedSince_self
    · rw [if_neg hr] at hp
      exact (h.error r pending hp).cons not_false

theorem Consistent.armTimeout (runId : String) (endedAt : Int) (startedAt : Option Int) :
    Consistent (s.schedulePendingLifecycleTimeout runId endedAt startedAt) := by
  have hnoted := ((h.clearError runId).clearTimeout runId).note
    (.armed runId .timeout s.nextTimer) fun _ hrec => hrec.elim
  refine ⟨fun r => ?_, hnoted.error, fun r pending hp => ?_, hnoted.completions⟩
  · rw [Registry.schedulePendingLifecycleTimeout_pending.1,
      Registry.schedulePendingLifecycleTimeout_pending.2]
    by_cases hr : r = runId
    · exact .inl (if_pos hr)
    · rw [if_neg hr, if_neg hr]
      exact h.onePending r
  · rw [Registry.schedulePendingLifecycleTimeout_pending.1] at hp
    by_cases hr : r = runId
    · rw [if_pos hr] at hp
      cases hp
      rw [hr]
      exact armedSince_self
    · rw [if_neg hr] at hp
      exact (h.timeout r pending hp).cons not_false

end

/-! ## Steps -/

/-- The state after a step is consistent, and it is lawful if the state before is and no error
timer fired while its run was paused. -/
structure StepLaw (s : Registry) (fires : Prop) (t : Registry) : Prop where
  consistent : Consistent t
  lawful : Trace.Lawful Allowed t.trace ↔ Trace.Lawful Allowed s.trace ∧ ¬ fires

theorem StepLaw.quiet {fires : Prop} (h : Consistent t) (htrace : t.trace = s.trace)
    (hnot : ¬ fires) : StepLaw s fires t :=
  ⟨h, by rw [htrace]; exact ⟨fun hl => ⟨hl, hnot⟩, fun hl => hl.1⟩⟩

theorem lawful_handled {kind : LifecycleKind} :
    Trace.Lawful Allowed (.handled runId kind :: trace) ↔ Trace.Lawful Allowed trace :=
  and_iff_right trivial

theorem lawful_armed : Trace.Lawful Allowed (.armed runId deferred timer :: trace) ↔
    Trace.Lawful Allowed trace := and_iff_right trivial

theorem lawful_submitted {source : CompletionSource} {params : CompleteSubagentRunParams}
    {n : Option Nat} {entry : SubagentRunRecord} (h : source.defers = none) :
    Trace.Lawful Allowed (.submitted source params n entry :: trace) ↔
      Trace.Lawful Allowed trace := by
  refine and_iff_right fun deferred hdeferred => ?_
  rw [h] at hdeferred
  cases hdeferred

section

variable (h : Consistent s)
include h

theorem event_law (evt : LifecycleEvent) (now : Int) :
    StepLaw s False (handleLifecycleEvent deps s evt now) := by
  unfold handleLifecycleEvent
  cases hentry : s.subagentRuns evt.runId with
  | none => exact .quiet h rfl not_false
  | some entry =>
    cases hkind : evt.kind deps with
    | none => exact .quiet h rfl not_false
    | some kind =>
      have hrecover := h.recover evt.runId kind
      have hsubmitted : ∀ source outcome reason, source.defers = none →
          StepLaw s False (((s.note (.handled evt.runId kind)).clearPending evt.runId).complete evt
            (evt.endedAt.getD now) entry source outcome reason) := by
        intro source outcome reason hsource
        refine ⟨hrecover.submit .., ?_⟩
        rw [and_iff_left not_false]
        exact (lawful_submitted hsource).trans lawful_handled
      have hset : ∀ record, StepLaw s False
          (((s.note (.handled evt.runId kind)).clearPending evt.runId).setRun evt.runId record) := by
        intro record
        refine ⟨hrecover.setRun .., ?_⟩
        rw [and_iff_left not_false]
        exact lawful_handled
      cases kind with
      | start | yielded => exact hset _
      | killed | blocked | abandoned | ok => exact hsubmitted _ _ _ rfl
      | error =>
        have hnoted := h.note (.handled evt.runId .error) fun r hrec => absurd rfl hrec.2.1
        refine ⟨hnoted.armError .., ?_⟩
        rw [and_iff_left not_false]
        exact lawful_armed.trans lawful_handled
      | aborted =>
        have hnoted := h.note (.handled evt.runId .aborted) fun r hrec => absurd rfl hrec.2.2
        refine ⟨hnoted.armTimeout .., ?_⟩
        rw [and_iff_left not_false]
        exact lawful_armed.trans lawful_handled

theorem errorTimer_law (runId : String) (timer : Nat) :
    StepLaw s (FiresWhilePaused s (.errorTimer runId timer)) (s.errorTimerFires runId timer) := by
  unfold Registry.errorTimerFires
  cases hpending : s.pendingLifecycleErrorByRunId runId with
  | none =>
    refine .quiet h rfl ?_
    rintro ⟨pending, entry, hother, -⟩
    rw [hpending] at hother
    cases hother
  | some pending =>
    have hcleared := h.clearError runId
    by_cases htimer : pending.timer = timer
    · dsimp only
      rw [if_neg (not_not_intro htimer)]
      cases hentry : s.subagentRuns runId with
      | none =>
        refine .quiet hcleared rfl ?_
        rintro ⟨-, entry, -, -, hother, -⟩
        rw [hentry] at hother
        cases hother
      | some entry =>
        dsimp only
        by_cases hended : entry.endedReason = some .complete ∨ entry.outcome = some .ok
        · rw [if_pos hended]
          refine .quiet hcleared rfl ?_
          rintro ⟨-, other, -, -, hother, -, hreason, houtcome⟩
          cases hentry.symm.trans hother
          exact hended.elim hreason houtcome
        · rw [if_neg hended]
          rw [not_or] at hended
          refine ⟨hcleared.submit .., ?_⟩
          have harmed : ArmedSince s.trace runId .error timer :=
            htimer ▸ h.error runId pending hpending
          constructor
          · rintro ⟨hallowed, hlawful⟩
            refine ⟨hlawful, ?_⟩
            rintro ⟨-, other, -, -, hother, hpaused, -⟩
            cases hentry.symm.trans hother
            have hnot := (hallowed .error rfl).2.2
            rw [hpaused] at hnot
            cases hnot
          · rintro ⟨hlawful, hfires⟩
            refine ⟨?_, hlawful⟩
            rintro deferred hdeferred
            cases hdeferred
            refine ⟨⟨timer, rfl, harmed⟩, hended.2, ?_⟩
            by_contra hpaused
            exact hfires ⟨pending, entry, hpending, htimer, hentry, by simpa using hpaused,
              hended.1, hended.2⟩
    · dsimp only
      rw [if_pos htimer]
      refine .quiet h rfl ?_
      rintro ⟨other, -, hother, heq, -⟩
      cases hpending.symm.trans hother
      exact htimer heq

theorem timeoutTimer_law (runId : String) (timer : Nat) :
    StepLaw s False (s.timeoutTimerFires runId timer) := by
  unfold Registry.timeoutTimerFires
  cases hpending : s.pendingLifecycleTimeoutByRunId runId with
  | none => exact .quiet h rfl not_false
  | some pending =>
    have hcleared := h.clearTimeout runId
    dsimp only
    by_cases htimer : pending.timer = timer
    · rw [if_neg (not_not_intro htimer)]
      cases hentry : s.subagentRuns runId with
      | none => exact .quiet hcleared rfl not_false
      | some entry =>
        dsimp only
        by_cases hended : entry.outcome = some .ok ∨ entry.pausedByYield = true
        · rw [if_pos hended]
          exact .quiet hcleared rfl not_false
        · rw [if_neg hended]
          rw [not_or] at hended
          refine ⟨hcleared.submit .., ?_⟩
          rw [and_iff_left not_false]
          refine and_iff_right fun deferred hdeferred => ?_
          cases hdeferred
          have harmed : ArmedSince s.trace runId .timeout timer :=
            htimer ▸ h.timeout runId pending hpending
          exact ⟨⟨timer, rfl, harmed⟩, hended.1, by simpa using hended.2⟩
    · rw [if_pos htimer]
      exact .quiet h rfl not_false

theorem completionThrows_law (i : Nat) {completion : Completion}
    (hmem : completion ∈ s.completions) : StepLaw s False (s.completionThrows i completion) := by
  have hrest : Consistent { s with completions := s.completions.eraseIdx i } :=
    ⟨h.onePending, h.error, h.timeout, fun c hc => h.completions c (List.mem_of_mem_eraseIdx hc)⟩
  unfold Registry.completionThrows
  by_cases hretried : completion.retried = true
  · dsimp only
    rw [if_pos hretried]
    unfold Registry.giveUp
    cases s.subagentRuns completion.params.runId with
    | none => exact .quiet hrest rfl not_false
    | some latest =>
      dsimp only
      by_cases hended : latest.endedAt.isNone = true
      · rw [if_pos hended]
        refine ⟨hrest.note .orphanRecovery fun _ hrec => hrec.elim, ?_⟩
        rw [and_iff_left not_false]
        exact and_iff_right trivial
      · rw [if_neg hended]
        by_cases hdone : latest.cleanupCompletedAt.isSome = true ∨ latest.pausedByYield = true
        · rw [if_pos hdone]
          exact .quiet hrest rfl not_false
        · rw [if_neg hdone]
          refine ⟨(hrest.setRun ..).note (.resumed _) fun _ hrec => hrec.elim, ?_⟩
          rw [and_iff_left not_false]
          exact and_iff_right trivial
  · dsimp only
    rw [if_neg hretried]
    cases s.subagentRuns completion.params.runId with
    | none => exact .quiet hrest rfl not_false
    | some entry =>
      have hnoted := h.note (.retried completion.source completion.params)
        fun _ hrec => hrec.elim
      refine ⟨⟨h.onePending, hnoted.error, hnoted.timeout, fun c hc => ?_⟩, ?_⟩
      · rcases List.mem_or_eq_of_mem_set hc with hc | rfl
        · exact hnoted.completions c hc
        · exact hnoted.completions completion hmem
      · rw [and_iff_left not_false]
        exact and_iff_right (h.completions completion hmem)

/-- **One step.** -/
theorem step_law {a : Action} (hstep : step deps s a = some t) :
    StepLaw s (FiresWhilePaused s a) t := by
  cases a with
  | event evt now =>
    cases hstep
    exact event_law h evt now
  | errorTimer runId timer =>
    cases hstep
    exact errorTimer_law h runId timer
  | timeoutTimer runId timer =>
    cases hstep
    exact timeoutTimer_law h runId timer
  | completionResolves i =>
    cases hstep
    exact .quiet ⟨h.onePending, h.error, h.timeout,
      fun c hc => h.completions c (List.mem_of_mem_eraseIdx hc)⟩ rfl not_false
  | completionThrows i =>
    obtain ⟨completion, hget, rfl⟩ := Option.map_eq_some_iff.1 hstep
    exact completionThrows_law h i (List.mem_of_getElem? hget)
  | others runId entry clearsError clearsTimeout =>
    cases hstep
    have hset := h.setRun runId entry
    cases clearsError with
    | false =>
      cases clearsTimeout with
      | false => exact .quiet hset rfl not_false
      | true => exact .quiet (hset.clearTimeout runId) rfl not_false
    | true =>
      have hcleared := hset.clearError runId
      cases clearsTimeout with
      | false => exact .quiet hcleared rfl not_false
      | true => exact .quiet (hcleared.clearTimeout runId) rfl not_false

end

/-! ## Runs -/

variable (deps) in
/-- No error timer fires in the run while its run is paused by a yield. -/
def NoPausedFire (as : List Action) : Prop :=
  ∀ before a after u, as = before ++ a :: after → Lts.run (step deps) {} before = some u →
    ¬ FiresWhilePaused u a

theorem run_law {as : List Action} (h : Lts.run (step deps) {} as = some s) :
    Consistent s ∧ (Trace.Lawful Allowed s.trace ↔ NoPausedFire deps as) := by
  induction as using List.reverseRecOn generalizing s with
  | nil =>
    cases h
    refine ⟨.initial, fun _ before a after u has => ?_, fun _ => trivial⟩
    exact absurd has.symm (by simp)
  | append_singleton as a ih =>
    rw [Lts.run_concat] at h
    obtain ⟨u, hu, hstep⟩ := Option.bind_eq_some_iff.1 h
    obtain ⟨hconsistent, hlawful⟩ := ih hu
    have hlaw := step_law hconsistent hstep
    refine ⟨hlaw.consistent, hlaw.lawful.trans ?_⟩
    rw [hlawful]
    constructor
    · rintro ⟨hbefore, hlast⟩ before b after w has hw
      rcases List.eq_nil_or_concat after with rfl | ⟨rest, c, rfl⟩
      · obtain ⟨rfl, hab⟩ := List.append_inj' has rfl
        cases hab
        cases hu.symm.trans hw
        exact hlast
      · have hinit : as = before ++ b :: rest := by
          have hcons : before ++ b :: rest.concat c = (before ++ b :: rest) ++ [c] := by simp
          rw [hcons] at has
          exact (List.append_inj' has rfl).1
        exact hbefore before b rest w hinit hw
    · intro hall
      refine ⟨fun before b after w has hw => ?_, hall as a [] u rfl hu⟩
      refine hall before b (after ++ [a]) w ?_ hw
      rw [has]
      simp

/-- **Deferred outcomes are submitted lawfully exactly when no error timer fires while its run is
paused.** -/
theorem deferred_law_iff (deps : RegistryDeps) {as : List Action}
    (h : Lts.run (step deps) {} as = some s) : DeferredLaw s ↔ NoPausedFire deps as := by
  obtain ⟨hconsistent, hlawful⟩ := run_law h
  rw [← hlawful]
  exact ⟨DeferredLaw.lawful, fun hl => ⟨hconsistent.onePending, hl⟩⟩

/-- JavaScript's lower case, on ASCII. -/
def asciiDeps : RegistryDeps where
  toLowerCase := String.toLower

/-- An aborted end, its retry, and the timer of the end: nothing is submitted. -/
def recoveredRun : List Action :=
  [.others "run" (some {}) false false, .event { runId := "run", phase := .end, aborted := true } 0,
    .event { runId := "run", phase := .start } 0, .timeoutTimer "run" 0]

theorem deferred_law_iff_recovered :
    ∃ s, Lts.run (step asciiDeps) {} recoveredRun = some s ∧
      (DeferredLaw s ↔ NoPausedFire asciiDeps recoveredRun) := by
  have hrun : Lts.run (step asciiDeps) {} recoveredRun = some _ := rfl
  exact ⟨_, hrun, deferred_law_iff asciiDeps hrun⟩

/-- A run yields, an error event follows, and its timer reports the paused run as failed. -/
def pausedRun : List Action :=
  [.others "run" (some {}) false false,
    .event { runId := "run", phase := .end, endedAt := some 1, yielded := true } 1,
    .event { runId := "run", phase := .error, endedAt := some 2 } 2, .errorTimer "run" 0]

theorem paused_run_reported :
    ¬ ∀ (deps : RegistryDeps) (as : List Action) (s : Registry),
      Lts.run (step deps) {} as = some s → DeferredLaw s := by
  intro h
  have hrun : Lts.run (step asciiDeps) {} pausedRun = some _ := rfl
  have hallowed := (h asciiDeps pausedRun _ hrun).lawful.1
  have hpaused := (hallowed .error rfl).2.2
  exact absurd hpaused (by decide)

end OpenClaw.Subagents
