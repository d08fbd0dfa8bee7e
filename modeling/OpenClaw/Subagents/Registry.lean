import Mathlib.Logic.Function.Basic
import OpenClaw.Lib.JsString

/-!
# `src/agents/subagent-registry.ts`: lifecycle events and deferred outcomes

An error or an aborted end of a subagent run may be followed by a retry of the same run, so it is
not reported at once: a grace timer is armed, and the next events of the run may clear it. When it
fires it submits the outcome to `completeSubagentRun`.

The listener runs without a break up to its completion, and so does a timer callback; between them
anything may happen (`Action`). A timer is known by the number of the `setTimeout` call that made
it. Any timer may fire at any time and any number of times: the callback checks that it is still the
pending one.

`completeSubagentRun` and every other owner of the registry (kills, the sweeper, `agent.wait`,
registering and releasing runs) are one action, `others`: it puts any record in the place of a run's
record and may clear its timers. Logs, persistence and the record's delivery and display fields are
left out. `trace` lists what happened, the latest first.
-/

namespace OpenClaw.Subagents

/-- What the registry calls that is not part of it. -/
structure RegistryDeps where
  toLowerCase : String → String

/-! ## Records -/

/-- `SubagentLifecycleEndedReason`. -/
inductive EndedReason
  | complete | error | killed
  deriving DecidableEq

/-- `SubagentRunOutcome`, without its times. -/
inductive SubagentRunOutcome
  | ok
  | error (error : Option String)
  | timeout
  | unknown
  deriving DecidableEq

inductive Cleanup
  | delete | keep
  deriving DecidableEq

inductive SuppressAnnounceReason
  | steerRestart | killed
  deriving DecidableEq

/-- The fields of `SubagentRunRecord` the listener and the timers use. `pausedByYield` says that
`pauseReason` is `"sessions_yield"`. -/
structure SubagentRunRecord where
  accountId : Option String := none
  cleanup : Cleanup := .keep
  startedAt : Option Int := none
  sessionStartedAt : Option Int := none
  endedAt : Option Int := none
  outcome : Option SubagentRunOutcome := none
  endedReason : Option EndedReason := none
  pausedByYield : Bool := false
  suppressAnnounceReason : Option SuppressAnnounceReason := none
  cleanupHandled : Bool := false
  cleanupCompletedAt : Option Int := none
  deleteCleanupDispatchedAt : Option Int := none
  deriving DecidableEq

structure CompleteSubagentRunParams where
  runId : String
  endedAt : Int
  outcome : SubagentRunOutcome
  reason : EndedReason
  sendFarewell : Bool := true
  accountId : Option String
  triggerCleanup : Bool := true
  startedAt : Option Int
  deriving DecidableEq

/-! ## Lifecycle events -/

inductive Phase
  | start | «end» | error | other
  deriving DecidableEq

/-- A lifecycle event of a run, with the fields of its data that have the type they should. -/
structure LifecycleEvent where
  runId : String
  phase : Phase
  startedAt : Option Int := none
  endedAt : Option Int := none
  error : Option String := none
  livenessState : Option String := none
  stopReason : Option String := none
  yielded : Bool := false
  aborted : Bool := false

def isAbortedAgentStopReason (value : Option String) : Bool :=
  value = some "aborted" || value = some "restart"

variable (deps : RegistryDeps)

def isBlockedLivenessState (livenessState : Option String) : Bool :=
  livenessState.any fun state => deps.toLowerCase (JsString.trim state) = "blocked"

def isAbandonedLivenessState (livenessState : Option String) : Bool :=
  livenessState.any fun state => deps.toLowerCase (JsString.trim state) = "abandoned"

def formatBlockedLivenessError (error : Option String) : String :=
  let message := JsString.trim (error.getD "")
  if message = "" then "Agent run blocked before producing a usable result." else message

def formatAbandonedLivenessError (error : Option String) : String :=
  let message := JsString.trim (error.getD "")
  if message = "" then "Agent run ended before producing a complete result." else message

/-- The branches of the listener. `aborted` is an end that is not final. -/
inductive LifecycleKind
  | start | yielded | killed | error | blocked | abandoned | aborted | ok
  deriving DecidableEq

/-- The branch an event of a known run takes. -/
def LifecycleEvent.kind (evt : LifecycleEvent) : Option LifecycleKind :=
  if evt.phase = .start then some .start
  else if evt.phase ≠ .end ∧ evt.phase ≠ .error then none
  -- a yielded end may look aborted too
  else if evt.yielded then some .yielded
  else if isAbortedAgentStopReason evt.stopReason then some .killed
  else if evt.phase = .error then some .error
  else if isBlockedLivenessState deps evt.livenessState then some .blocked
  else if isAbandonedLivenessState deps evt.livenessState then some .abandoned
  else if evt.aborted then some .aborted
  else some .ok

/-! ## The registry -/

/-- An entry of `pendingLifecycleErrorByRunId`. -/
structure PendingLifecycleError where
  timer : Nat
  endedAt : Int
  startedAt : Option Int
  error : Option String

/-- An entry of `pendingLifecycleTimeoutByRunId`. -/
structure PendingLifecycleTimeout where
  timer : Nat
  endedAt : Int
  startedAt : Option Int

/-- Where a completion comes from. -/
inductive CompletionSource
  | errorGrace | timeoutGrace | killedEvent | blockedEvent | abandonedEvent | okEvent
  deriving DecidableEq

/-- A call of `completeSubagentRunWithRecovery` whose `completeSubagentRun` has not settled. -/
structure Completion where
  source : CompletionSource
  params : CompleteSubagentRunParams
  retried : Bool := false

/-- The two outcomes that are deferred. -/
inductive Deferred
  | error | timeout
  deriving DecidableEq

inductive Happening
  /-- The listener took a branch on an event of a known run. -/
  | handled (runId : String) (kind : LifecycleKind)
  | armed (runId : String) (deferred : Deferred) (timer : Nat)
  /-- A completion, the timer that submitted it, and the record of the run at that point. -/
  | submitted (source : CompletionSource) (params : CompleteSubagentRunParams)
      (timer : Option Nat) (entry : SubagentRunRecord)
  | retried (source : CompletionSource) (params : CompleteSubagentRunParams)
  | resumed (runId : String)
  | orphanRecovery

structure Registry where
  subagentRuns : String → Option SubagentRunRecord := fun _ => none
  pendingLifecycleErrorByRunId : String → Option PendingLifecycleError := fun _ => none
  pendingLifecycleTimeoutByRunId : String → Option PendingLifecycleTimeout := fun _ => none
  /-- The number of the next timer. -/
  nextTimer : Nat := 0
  completions : List Completion := []
  trace : List Happening := []

namespace Registry

variable (s : Registry) (runId : String)

def note (happening : Happening) : Registry := { s with trace := happening :: s.trace }

def setRun (entry : Option SubagentRunRecord) : Registry :=
  { s with subagentRuns := Function.update s.subagentRuns runId entry }

def clearPendingLifecycleError : Registry :=
  { s with
    pendingLifecycleErrorByRunId := Function.update s.pendingLifecycleErrorByRunId runId none }

def clearPendingLifecycleTimeout : Registry :=
  { s with
    pendingLifecycleTimeoutByRunId := Function.update s.pendingLifecycleTimeoutByRunId runId none }

/-- Both timers of a run are cleared. -/
def clearPending : Registry :=
  (s.clearPendingLifecycleError runId).clearPendingLifecycleTimeout runId

/-- `completeSubagentRunWithRecovery`, up to its first wait. -/
def submit (source : CompletionSource) (params : CompleteSubagentRunParams) (timer : Option Nat)
    (entry : SubagentRunRecord) : Registry :=
  { s with
    completions := s.completions ++ [{ source, params }]
    trace := .submitted source params timer entry :: s.trace }

def schedulePendingLifecycleError (endedAt : Int) (startedAt : Option Int)
    (error : Option String) : Registry :=
  let s := (s.clearPendingLifecycleTimeout runId).clearPendingLifecycleError runId
  { s with
    pendingLifecycleErrorByRunId := Function.update s.pendingLifecycleErrorByRunId runId
      (some ⟨s.nextTimer, endedAt, startedAt, error⟩)
    nextTimer := s.nextTimer + 1
    trace := .armed runId .error s.nextTimer :: s.trace }

def schedulePendingLifecycleTimeout (endedAt : Int) (startedAt : Option Int) : Registry :=
  let s := (s.clearPendingLifecycleError runId).clearPendingLifecycleTimeout runId
  { s with
    pendingLifecycleTimeoutByRunId := Function.update s.pendingLifecycleTimeoutByRunId runId
      (some ⟨s.nextTimer, endedAt, startedAt⟩)
    nextTimer := s.nextTimer + 1
    trace := .armed runId .timeout s.nextTimer :: s.trace }

/-- The callback of the timer of `schedulePendingLifecycleError`. -/
def errorTimerFires (timer : Nat) : Registry :=
  match s.pendingLifecycleErrorByRunId runId with
  | none => s
  | some pending =>
    if pending.timer ≠ timer then s
    else
      let cleared := s.clearPendingLifecycleError runId
      match s.subagentRuns runId with
      | none => cleared
      | some entry =>
        if entry.endedReason = some .complete ∨ entry.outcome = some .ok then cleared
        else
          cleared.submit .errorGrace
            { runId
              endedAt := pending.endedAt
              outcome := .error pending.error
              reason := .error
              accountId := entry.accountId
              startedAt := pending.startedAt } (some timer) entry

/-- The callback of the timer of `schedulePendingLifecycleTimeout`. -/
def timeoutTimerFires (timer : Nat) : Registry :=
  match s.pendingLifecycleTimeoutByRunId runId with
  | none => s
  | some pending =>
    if pending.timer ≠ timer then s
    else
      let cleared := s.clearPendingLifecycleTimeout runId
      match s.subagentRuns runId with
      | none => cleared
      | some entry =>
        if entry.outcome = some .ok ∨ entry.pausedByYield then cleared
        else
          cleared.submit .timeoutGrace
            { runId
              endedAt := pending.endedAt
              outcome := .timeout
              reason := .complete
              accountId := entry.accountId
              startedAt := pending.startedAt } (some timer) entry

variable {s runId} {r : String}

theorem clearPendingLifecycleError_error :
    (s.clearPendingLifecycleError runId).pendingLifecycleErrorByRunId r =
      if r = runId then none else s.pendingLifecycleErrorByRunId r :=
  Function.update_apply ..

theorem clearPendingLifecycleTimeout_timeout :
    (s.clearPendingLifecycleTimeout runId).pendingLifecycleTimeoutByRunId r =
      if r = runId then none else s.pendingLifecycleTimeoutByRunId r :=
  Function.update_apply ..

section Schedule

variable {endedAt : Int} {startedAt : Option Int} {error : Option String}

theorem schedulePendingLifecycleError_pending :
    (s.schedulePendingLifecycleError runId endedAt startedAt error).pendingLifecycleErrorByRunId r =
        (if r = runId then some ⟨s.nextTimer, endedAt, startedAt, error⟩
          else s.pendingLifecycleErrorByRunId r) ∧
      (s.schedulePendingLifecycleError runId endedAt startedAt error).pendingLifecycleTimeoutByRunId r =
        if r = runId then none else s.pendingLifecycleTimeoutByRunId r := by
  refine ⟨?_, Function.update_apply ..⟩
  refine (Function.update_apply ..).trans ?_
  by_cases hr : r = runId
  · rw [if_pos hr, if_pos hr]
    rfl
  · rw [if_neg hr, if_neg hr]
    exact Function.update_of_ne hr ..

theorem schedulePendingLifecycleTimeout_pending :
    (s.schedulePendingLifecycleTimeout runId endedAt startedAt).pendingLifecycleTimeoutByRunId r =
        (if r = runId then some ⟨s.nextTimer, endedAt, startedAt⟩
          else s.pendingLifecycleTimeoutByRunId r) ∧
      (s.schedulePendingLifecycleTimeout runId endedAt startedAt).pendingLifecycleErrorByRunId r =
        if r = runId then none else s.pendingLifecycleErrorByRunId r := by
  refine ⟨?_, Function.update_apply ..⟩
  refine (Function.update_apply ..).trans ?_
  by_cases hr : r = runId
  · rw [if_pos hr, if_pos hr]
    rfl
  · rw [if_neg hr, if_neg hr]
    exact Function.update_of_ne hr ..

end Schedule

end Registry

/-! ## The listener -/

/-- `markSubagentRunPausedAfterYield`. A killed run stays killed. -/
def markSubagentRunPausedAfterYield (entry : SubagentRunRecord) (startedAt : Option Int)
    (endedAt : Int) : SubagentRunRecord :=
  if entry.endedReason = some .killed ∨ entry.suppressAnnounceReason = some .killed ∨
      entry.cleanup = .delete ∧ entry.deleteCleanupDispatchedAt.isSome then entry
  else
    { entry with
      startedAt := startedAt <|> entry.startedAt
      sessionStartedAt := entry.sessionStartedAt <|>
        if startedAt = entry.startedAt then none else startedAt
      endedAt := some endedAt
      pausedByYield := true
      outcome := none
      endedReason := none
      cleanupHandled := false
      cleanupCompletedAt := none }

/-- The start branch writes the start time, unless it is missing or zero. -/
def markStarted (entry : SubagentRunRecord) (startedAt : Option Int) : SubagentRunRecord :=
  match startedAt.filter (· ≠ 0) with
  | none => entry
  | some startedAt =>
    { entry with
      startedAt := some startedAt
      sessionStartedAt := entry.sessionStartedAt <|> some startedAt }

/-- A completion the listener submits itself. -/
def Registry.complete (s : Registry) (evt : LifecycleEvent) (endedAt : Int)
    (entry : SubagentRunRecord) (source : CompletionSource) (outcome : SubagentRunOutcome)
    (reason : EndedReason) : Registry :=
  s.submit source
    { runId := evt.runId
      endedAt
      outcome
      reason
      accountId := entry.accountId
      startedAt := evt.startedAt } none entry

/-- The listener of `ensureListener`, up to its first wait. An event of an unknown run at most
refreshes a frozen result. -/
def handleLifecycleEvent (s : Registry) (evt : LifecycleEvent) (now : Int) : Registry :=
  match s.subagentRuns evt.runId, evt.kind deps with
  | some entry, some kind =>
    let s := s.note (.handled evt.runId kind)
    let endedAt := evt.endedAt.getD now
    match kind with
    | .start =>
      (s.clearPending evt.runId).setRun evt.runId (some (markStarted entry evt.startedAt))
    | .yielded =>
      (s.clearPending evt.runId).setRun evt.runId
        (some (markSubagentRunPausedAfterYield entry (evt.startedAt <|> entry.startedAt) endedAt))
    | .killed =>
      (s.clearPending evt.runId).complete evt endedAt entry .killedEvent
        (.error (some "subagent run terminated")) .killed
    | .error => s.schedulePendingLifecycleError evt.runId endedAt evt.startedAt evt.error
    | .blocked =>
      (s.clearPending evt.runId).complete evt endedAt entry .blockedEvent
        (.error (some (formatBlockedLivenessError evt.error))) .error
    | .abandoned =>
      (s.clearPending evt.runId).complete evt endedAt entry .abandonedEvent
        (.error (some (formatAbandonedLivenessError evt.error))) .error
    | .aborted => s.schedulePendingLifecycleTimeout evt.runId endedAt evt.startedAt
    | .ok => (s.clearPending evt.runId).complete evt endedAt entry .okEvent .ok .complete
  | _, _ => s

/-! ## Completions -/

/-- The end of `completeSubagentRunWithRecovery`, after both calls have thrown. -/
def Registry.giveUp (s : Registry) (runId : String) : Registry :=
  match s.subagentRuns runId with
  | none => s
  | some latest =>
    if latest.endedAt.isNone then s.note .orphanRecovery
    else if latest.cleanupCompletedAt.isSome ∨ latest.pausedByYield then s
    else (s.setRun runId (some { latest with cleanupHandled := false })).note (.resumed runId)

/-- The `i`-th call of `completeSubagentRun` throws: the first one is made again if the run is
still known. -/
def Registry.completionThrows (s : Registry) (i : Nat) (completion : Completion) : Registry :=
  let rest := { s with completions := s.completions.eraseIdx i }
  if completion.retried then rest.giveUp completion.params.runId
  else
    match s.subagentRuns completion.params.runId with
    | none => rest
    | some _ =>
      { s with
        completions := s.completions.set i { completion with retried := true }
        trace := .retried completion.source completion.params :: s.trace }

/-! ## Runs -/

inductive Action
  | event (evt : LifecycleEvent) (now : Int)
  | errorTimer (runId : String) (timer : Nat)
  | timeoutTimer (runId : String) (timer : Nat)
  | completionResolves (i : Nat)
  | completionThrows (i : Nat)
  /-- Another owner puts a record in the place of a run's record, and may clear its timers. -/
  | others (runId : String) (entry : Option SubagentRunRecord) (clearsError clearsTimeout : Bool)

def step (s : Registry) : Action → Option Registry
  | .event evt now => some (handleLifecycleEvent deps s evt now)
  | .errorTimer runId timer => some (s.errorTimerFires runId timer)
  | .timeoutTimer runId timer => some (s.timeoutTimerFires runId timer)
  | .completionResolves i => some { s with completions := s.completions.eraseIdx i }
  | .completionThrows i => s.completions[i]?.map (s.completionThrows i)
  | .others runId entry clearsError clearsTimeout =>
    let s := s.setRun runId entry
    let s := if clearsError then s.clearPendingLifecycleError runId else s
    some (if clearsTimeout then s.clearPendingLifecycleTimeout runId else s)

end OpenClaw.Subagents
