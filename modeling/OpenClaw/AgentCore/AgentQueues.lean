import OpenClaw.AgentCore.LoopAwaits
import OpenClaw.Lib.Lts
import Mathlib.Algebra.Order.Group.Multiset
import Mathlib.Tactic.Abel

/-!
# `agent.ts`: the queues of an `Agent`

The steering and follow-up queues of an `Agent` and its one active run, cut at the `await`s of
`runAgentLoop` as in `LoopAwaits`. The transcript is not kept: anyone may assign `state.messages`, so
the event of `continue` says what its last message is.

A message that `steer` or `followUp` accepted is in its queue, taken by the run, injected, or removed
by a clear (`Conserved`), in runs that meet `keepsMessages`: nothing ends a run that holds messages,
and `stopIfAborted` does not find the signal aborted with messages just drained.
-/

namespace OpenClaw.AgentCore

variable {μ : Type}

structure PendingMessageQueue (μ : Type) where
  messages : List μ
  mode : QueueMode
  deriving DecidableEq

namespace PendingMessageQueue

def enqueue (q : PendingMessageQueue μ) (message : μ) : PendingMessageQueue μ :=
  { q with messages := q.messages ++ [message] }

/-- What is drained, and the queue without it. -/
def drain (q : PendingMessageQueue μ) : List μ × PendingMessageQueue μ :=
  match q.mode with
  | .all => (q.messages, { q with messages := [] })
  | .oneAtATime =>
    match q.messages with
    | [] => ([], q)
    | first :: rest => ([first], { q with messages := rest })

def clear (q : PendingMessageQueue μ) : PendingMessageQueue μ := { q with messages := [] }

theorem drain_append (q : PendingMessageQueue μ) :
    q.drain.1 ++ q.drain.2.messages = q.messages := by
  rw [drain]
  split
  · exact List.append_nil q.messages
  · split
    · simp [*]
    · simp [*]

end PendingMessageQueue

/-- The events of `handleRunFailure`. -/
inductive FailureEvent
  | messageStart
  | messageEnd
  | turnEnd
  | agentEnd
  deriving DecidableEq

/-- Where the active run waits. -/
inductive AgentStage (μ : Type)
  /-- `drained`: what `getSteeringMessages` or `getFollowUpMessages` is about to return. -/
  | loop (l : Loop (TurnMessage μ)) (drained : List μ)
  | failing (event : FailureEvent)
  deriving DecidableEq

structure ActiveRun (μ : Type) where
  aborted : Bool
  skipInitialSteeringPoll : Bool
  stage : AgentStage μ
  deriving DecidableEq

/-- `accepted`, `injected` and `removed` say what became of the messages of the queues. -/
structure Agent (μ : Type) where
  steeringQueue : PendingMessageQueue μ
  followUpQueue : PendingMessageQueue μ
  activeRun : Option (ActiveRun μ)
  accepted : List μ
  injected : List μ
  removed : List μ
  deriving DecidableEq

inductive AgentCall (μ : Type)
  | steer (message : μ)
  | followUp (message : μ)
  | setSteeringMode (mode : QueueMode)
  | setFollowUpMode (mode : QueueMode)
  | clearSteeringQueue
  | clearFollowUpQueue
  | clearAllQueues
  | reset
  | abort
  | prompt (messages : List μ)
  /-- `continue`, and whether the last message of the transcript is an assistant message. -/
  | continueRun (lastIsAssistant : Bool)
  | resume (outcome : AwaitOutcome μ)
  deriving DecidableEq

def LoopAwait.isReturned : LoopAwait μ → Bool
  | returned => true
  | _ => false

/-- The `await` may be rejected. -/
def LoopAwait.mayThrow : LoopAwait μ → Bool
  | unaborted _ | returned => false
  | await => !await.isDrain

namespace Agent

def create (steeringMode followUpMode : QueueMode) : Agent μ where
  steeringQueue := ⟨[], steeringMode⟩
  followUpQueue := ⟨[], followUpMode⟩
  activeRun := none
  accepted := []
  injected := []
  removed := []

def setRun (a : Agent μ) (run : ActiveRun μ) (stage : AgentStage μ) : Agent μ :=
  { a with activeRun := some { run with stage } }

def clearSteeringQueue (a : Agent μ) : Agent μ :=
  { a with
    steeringQueue := a.steeringQueue.clear
    removed := a.removed ++ a.steeringQueue.messages }

def clearFollowUpQueue (a : Agent μ) : Agent μ :=
  { a with
    followUpQueue := a.followUpQueue.clear
    removed := a.removed ++ a.followUpQueue.messages }

def drainSteering (a : Agent μ) : List μ × Agent μ :=
  (a.steeringQueue.drain.1, { a with steeringQueue := a.steeringQueue.drain.2 })

def drainFollowUp (a : Agent μ) : List μ × Agent μ :=
  (a.followUpQueue.drain.1, { a with followUpQueue := a.followUpQueue.drain.2 })

/-- The loop has come to its next `await`. -/
def serve (a : Agent μ) (run : ActiveRun μ) (l : Loop (TurnMessage μ)) : Agent μ :=
  match l.await with
  | .promptEnd message | .pendingEnd message =>
    { a with injected := a.injected ++ message.queued?.toList }.setRun run (.loop l [])
  | .initialSteering | .steering =>
    if run.skipInitialSteeringPoll then
      a.setRun { run with skipInitialSteeringPoll := false } (.loop l [])
    else a.drainSteering.2.setRun run (.loop l a.drainSteering.1)
  | .followUp => a.drainFollowUp.2.setRun run (.loop l a.drainFollowUp.1)
  | _ => a.setRun run (.loop l [])

/-- `runWithLifecycle` around `runAgentLoop` or `runAgentLoopContinue`. -/
def startRun (a : Agent μ) (prompts : List (TurnMessage μ)) (skipInitialSteeringPoll : Bool) :
    Agent μ :=
  a.serve ⟨false, skipInitialSteeringPoll, .failing .messageStart⟩ (.start prompts)

def finishRun (a : Agent μ) : Agent μ := { a with activeRun := none }

def resumeLoop (a : Agent μ) (run : ActiveRun μ) (l : Loop (TurnMessage μ))
    (answer : LoopAnswer (TurnMessage μ)) : Option (Agent μ) :=
  (l.resume run.aborted answer).map (a.serve run)

/-- An `await` of the run ends. -/
def resumeRun (a : Agent μ) (run : ActiveRun μ) (outcome : AwaitOutcome μ) : Option (Agent μ) :=
  match run.stage, outcome with
  | .loop l drained, .returns answer =>
    if l.await.isReturned then some a.finishRun
    else if l.await.isDrain then
      match answer with
      | .done => a.resumeLoop run l (.messages (drained.map TurnMessage.queued))
      | _ => none
    else
      match answer with
      | .done => a.resumeLoop run l .done
      | .response failed toolUse => a.resumeLoop run l (.response failed toolUse)
      | .tools terminate => a.resumeLoop run l (.tools terminate)
      -- the agent gives no `shouldStopAfterTurn`
      | .flag false => a.resumeLoop run l (.flag false)
      | .flag true | .messages _ => none
  | .loop l _, .throws =>
    if l.await.mayThrow then some (a.setRun run (.failing .messageStart)) else none
  | .failing .messageStart, .returns .done => some (a.setRun run (.failing .messageEnd))
  | .failing .messageEnd, .returns .done => some (a.setRun run (.failing .turnEnd))
  | .failing .turnEnd, .returns .done => some (a.setRun run (.failing .agentEnd))
  | .failing .agentEnd, .returns .done => some a.finishRun
  | .failing _, .throws => some a.finishRun
  | .failing _, .returns _ => none

/-- `continue`, when the last message is an assistant message. -/
def continueQueued (a : Agent μ) : Option (Agent μ) :=
  match a.drainSteering.1 with
  | _ :: _ => some (a.drainSteering.2.startRun (a.drainSteering.1.map TurnMessage.queued) true)
  | [] =>
    match a.drainFollowUp.1 with
    | _ :: _ => some (a.drainFollowUp.2.startRun (a.drainFollowUp.1.map TurnMessage.queued) false)
    | [] => none

def step (a : Agent μ) : AgentCall μ → Option (Agent μ)
  | .steer message =>
    some { a with
      steeringQueue := a.steeringQueue.enqueue message
      accepted := a.accepted ++ [message] }
  | .followUp message =>
    some { a with
      followUpQueue := a.followUpQueue.enqueue message
      accepted := a.accepted ++ [message] }
  | .setSteeringMode mode => some { a with steeringQueue := { a.steeringQueue with mode } }
  | .setFollowUpMode mode => some { a with followUpQueue := { a.followUpQueue with mode } }
  | .clearSteeringQueue => some a.clearSteeringQueue
  | .clearFollowUpQueue => some a.clearFollowUpQueue
  | .clearAllQueues => some a.clearSteeringQueue.clearFollowUpQueue
  | .reset => some a.clearFollowUpQueue.clearSteeringQueue
  | .abort => some { a with activeRun := a.activeRun.map fun run => { run with aborted := true } }
  | .prompt messages =>
    match a.activeRun with
    | some _ => none
    | none => some (a.startRun (messages.map TurnMessage.given) false)
  | .continueRun lastIsAssistant =>
    match a.activeRun with
    | some _ => none
    | none => if lastIsAssistant then a.continueQueued else some (a.startRun [] false)
  | .resume outcome => a.activeRun.bind fun run => a.resumeRun run outcome

def Step (a : Agent μ) (call : AgentCall μ) (b : Agent μ) : Prop := a.step call = some b

def Created (a : Agent μ) : Prop := ∃ steeringMode followUpMode, a = create steeringMode followUpMode

/-! ## Conservation -/

end Agent

/-- The messages that the active run has taken out of a queue and not emitted. -/
def AgentStage.held : AgentStage μ → List μ
  | .loop l drained => queuedOf l.pendingMessages ++ drained
  | .failing _ => []

/-- No message waits where none is injected, and none is drained elsewhere than at a drain. -/
def AgentStage.Quiet : AgentStage μ → Prop
  | .loop l drained => l.Quiet ∧ (l.await.isDrain = false → drained = [])
  | .failing _ => True

namespace Agent

def held (a : Agent μ) : List μ :=
  match a.activeRun with
  | some run => run.stage.held
  | none => []

def queued (a : Agent μ) : Multiset μ := a.steeringQueue.messages + a.followUpQueue.messages

/-- What a step must not do to a message. -/
def keepsMessages (a : Agent μ) : AgentCall μ → Bool
  | .resume outcome =>
    match a.activeRun with
    | some run =>
      match run.stage, outcome with
      | .loop l _, .throws => (queuedOf l.pendingMessages).isEmpty
      | .loop l drained, .returns _ =>
        !run.aborted || !l.await.checksPending || l.pendingMessages.isEmpty && drained.isEmpty
      | .failing _, _ => true
    | none => true
  | _ => true

/-- Every accepted message is queued, held by the run, injected or removed. -/
structure Conserved (a : Agent μ) : Prop where
  messages : (a.accepted : Multiset μ) = a.queued + a.held + a.injected + a.removed
  quiet : ∀ run, a.activeRun = some run → run.stage.Quiet

section Conserved

variable {a b : Agent μ} {run : ActiveRun μ} {l : Loop (TurnMessage μ)}

/-- The messages of `b` are those of `a`, where `a` holds `held`. -/
structure Passes (a : Agent μ) (held : List μ) (b : Agent μ) : Prop where
  messages : b.queued + (b.held : Multiset μ) + (b.injected : Multiset μ) =
    a.queued + (held : Multiset μ) + (a.injected : Multiset μ)
  accepted : b.accepted = a.accepted
  removed : b.removed = a.removed
  quiet : ∀ run, b.activeRun = some run → run.stage.Quiet

theorem queued_drainSteering (a : Agent μ) :
    a.drainSteering.2.queued + (a.drainSteering.1 : Multiset μ) = a.queued := by
  show ((a.steeringQueue.drain.2.messages : Multiset μ) + a.followUpQueue.messages) +
    a.steeringQueue.drain.1 = a.queued
  rw [queued, ← PendingMessageQueue.drain_append a.steeringQueue, ← Multiset.coe_add]
  abel

theorem queued_drainFollowUp (a : Agent μ) :
    a.drainFollowUp.2.queued + (a.drainFollowUp.1 : Multiset μ) = a.queued := by
  show ((a.steeringQueue.messages : Multiset μ) + a.followUpQueue.drain.2.messages) +
    a.followUpQueue.drain.1 = a.queued
  rw [queued, ← PendingMessageQueue.drain_append a.followUpQueue, ← Multiset.coe_add]
  abel

variable {held : List μ}

theorem serve_passes (a : Agent μ) (run : ActiveRun μ) (hquiet : l.Quiet)
    (hheld : queuedOf (l.await.emitted ++ l.pendingMessages) = held) :
    a.Passes held (a.serve run l) := by
  have hemit : ∀ message, l.await.emitted = [message] → l.await.isDrain = false →
      a.Passes held ({ a with injected := a.injected ++ message.queued?.toList }.setRun run
        (.loop l [])) := by
    intro message hmessage _
    refine ⟨?_, rfl, rfl, ?_⟩
    · rw [hmessage, List.singleton_append, queuedOf_cons] at hheld
      rw [← hheld]
      show a.queued + ((queuedOf l.pendingMessages ++ [] : List μ) : Multiset μ) +
        ((a.injected ++ message.queued?.toList : List μ) : Multiset μ) = _
      rw [List.append_nil, ← Multiset.coe_add, ← Multiset.coe_add]
      abel
    · rintro run ⟨⟩
      exact ⟨hquiet, fun _ => rfl⟩
  have hsame : ∀ run : ActiveRun μ, l.await.emitted = [] →
      a.Passes held (a.setRun run (.loop l [])) := by
    intro run hnone
    refine ⟨?_, rfl, rfl, ?_⟩
    · rw [hnone, List.nil_append] at hheld
      rw [← hheld]
      show a.queued + ((queuedOf l.pendingMessages ++ [] : List μ) : Multiset μ) + a.injected = _
      rw [List.append_nil]
    · rintro run ⟨⟩
      exact ⟨hquiet, fun _ => rfl⟩
  have hdrain : ∀ (drained : List μ) (b : Agent μ), l.await.emitted = [] →
      l.await.isDrain = true → b.queued + (drained : Multiset μ) = a.queued →
      b.injected = a.injected → b.accepted = a.accepted → b.removed = a.removed →
      a.Passes held (b.setRun run (.loop l drained)) := by
    intro drained b hnone hawait hqueued hinjected haccepted hremoved
    refine ⟨?_, haccepted, hremoved, ?_⟩
    · rw [hnone, List.nil_append] at hheld
      rw [← hheld, ← hqueued, ← hinjected]
      show b.queued + ((queuedOf l.pendingMessages ++ drained : List μ) : Multiset μ) +
        b.injected = _
      rw [← Multiset.coe_add]
      abel
    · rintro run ⟨⟩
      exact ⟨hquiet, fun h => by rw [hawait] at h; cases h⟩
  rw [serve]
  split
  case h_1 | h_2 =>
    rename_i message hawait
    rw [hawait] at hemit
    exact hemit message rfl rfl
  case h_3 | h_4 =>
    rename_i hawait
    rw [hawait] at hsame hdrain
    split
    · exact hsame _ rfl
    · exact hdrain _ _ rfl rfl (queued_drainSteering a) rfl rfl rfl
  case h_5 hawait =>
    rw [hawait] at hdrain
    exact hdrain _ _ rfl rfl (queued_drainFollowUp a) rfl rfl rfl
  case h_6 =>
    cases hawait : l.await <;> simp_all [LoopAwait.emitted]

theorem resumeLoop_passes {answer : LoopAnswer (TurnMessage μ)}
    (h : a.resumeLoop run l answer = some b) (hquiet : l.Quiet)
    (ha : run.aborted = true → l.await.checksPending = true →
      l.pendingMessages ++ answer.queued = [])
    (hheld : queuedOf (l.pendingMessages ++ answer.queued) = held) : a.Passes held b := by
  obtain ⟨l', hl', rfl⟩ := Option.map_eq_some_iff.1 h
  obtain ⟨hmessages, hquiet'⟩ := Loop.resume_messages hl' hquiet ha
  exact serve_passes a run hquiet' (hmessages ▸ hheld)

theorem failing_passes (event : FailureEvent) (hheld : held = []) :
    a.Passes held (a.setRun run (.failing event)) := by
  refine ⟨?_, rfl, rfl, ?_⟩
  · rw [hheld]
    rfl
  · rintro run ⟨⟩
    trivial

theorem finishRun_passes (hheld : held = []) : a.Passes held a.finishRun := by
  refine ⟨?_, rfl, rfl, fun _ h => absurd h (by simp [finishRun])⟩
  rw [hheld]
  rfl

/-- **What an `await` of the run does to the messages.** -/
theorem resumeRun_passes {outcome : AwaitOutcome μ} (h : a.resumeRun run outcome = some b)
    (hquiet : run.stage.Quiet) (hrun : a.activeRun = some run)
    (hk : a.keepsMessages (.resume outcome) = true) : a.Passes run.stage.held b := by
  rw [keepsMessages, hrun] at hk
  obtain ⟨aborted, skipInitialSteeringPoll, stage⟩ := run
  unfold resumeRun at h
  dsimp only at h hk hquiet
  split at h
  case h_1 l drained answer =>
    have hnone : aborted = true → l.await.checksPending = true →
        l.pendingMessages = [] ∧ drained = [] := fun ha hchecks => by
      simp only [ha, hchecks, Bool.not_true, Bool.false_or, Bool.and_eq_true,
        List.isEmpty_iff] at hk
      exact hk
    split at h
    · rename_i hreturned
      cases h
      -- a loop that has returned holds nothing
      have hawait : l.await = .returned := by
        cases hawait : l.await <;> rw [hawait] at hreturned <;> first | rfl | cases hreturned
      apply finishRun_passes
      show queuedOf l.pendingMessages ++ drained = []
      rw [hquiet.1 (by rw [hawait]; rfl), hquiet.2 (by rw [hawait]; rfl)]
      rfl
    · split at h
      · split at h
        · refine resumeLoop_passes h hquiet.1 (fun ha hchecks => ?_) ?_
          · rw [(hnone ha hchecks).1, (hnone ha hchecks).2]
            rfl
          · show queuedOf (l.pendingMessages ++ drained.map TurnMessage.queued) =
              queuedOf l.pendingMessages ++ drained
            rw [queuedOf_append, queuedOf_queued]
        · cases h
      · rename_i hdrain
        have hdrained : drained = [] := hquiet.2 (Bool.not_eq_true _ ▸ hdrain)
        have hresume : ∀ {given : LoopAnswer (TurnMessage μ)}, given.queued = [] →
            a.resumeLoop ⟨aborted, skipInitialSteeringPoll, .loop l drained⟩ l given = some b →
            a.Passes (AgentStage.loop l drained).held b := by
          intro given hgiven h
          refine resumeLoop_passes h hquiet.1 (fun ha hchecks => ?_) ?_
          · rw [(hnone ha hchecks).1, hgiven]
            rfl
          · show queuedOf (l.pendingMessages ++ given.queued) = queuedOf l.pendingMessages ++ drained
            rw [hgiven, hdrained, List.append_nil, List.append_nil]
        split at h <;> first | exact hresume rfl h | cases h
  case h_2 l drained =>
    split at h <;> cases h
    rename_i hmay
    apply failing_passes
    have hdrain : l.await.isDrain = false := by
      cases hawait : l.await <;> rw [hawait] at hmay <;> first | rfl | cases hmay
    show queuedOf l.pendingMessages ++ drained = []
    rw [List.isEmpty_iff.1 hk, hquiet.2 hdrain]
    rfl
  case h_8 => cases h
  all_goals
    cases h
    first | exact failing_passes _ rfl | exact finishRun_passes rfl

theorem Conserved.passes (ha : a.Conserved) (h : a.Passes a.held b) : b.Conserved := by
  refine ⟨?_, h.quiet⟩
  rw [h.accepted, h.removed, ha.messages, h.messages]

theorem start_passes (a : Agent μ) (prompts : List (TurnMessage μ)) (skip : Bool) :
    a.Passes (queuedOf prompts) (a.startRun prompts skip) :=
  serve_passes a _ (Loop.start_carries prompts) rfl

section

variable (ha : a.Conserved)
include ha

theorem Conserved.queues (hrun : b.activeRun = a.activeRun)
    (h : (b.accepted : Multiset μ) + (a.queued + a.injected + a.removed) =
      a.accepted + (b.queued + b.injected + b.removed)) : b.Conserved := by
  have hheld : b.held = a.held := by rw [held, held, hrun]
  refine ⟨?_, fun run hb => ha.quiet run (hrun ▸ hb)⟩
  rw [ha.messages] at h
  rw [hheld]
  apply add_right_cancel (b := a.queued + (a.injected : Multiset μ) + a.removed)
  rw [h]
  abel

theorem Conserved.clearSteeringQueue : a.clearSteeringQueue.Conserved := by
  refine ha.queues rfl ?_
  show (a.accepted : Multiset μ) + (a.queued + a.injected + a.removed) = a.accepted +
    ((([] : List μ) : Multiset μ) + a.followUpQueue.messages + a.injected +
      ((a.removed ++ a.steeringQueue.messages : List μ) : Multiset μ))
  rw [← Multiset.coe_add, Multiset.coe_nil, queued]
  abel

theorem Conserved.clearFollowUpQueue : a.clearFollowUpQueue.Conserved := by
  refine ha.queues rfl ?_
  show (a.accepted : Multiset μ) + (a.queued + a.injected + a.removed) = a.accepted +
    ((a.steeringQueue.messages : Multiset μ) + ([] : List μ) + a.injected +
      ((a.removed ++ a.followUpQueue.messages : List μ) : Multiset μ))
  rw [← Multiset.coe_add, Multiset.coe_nil, queued]
  abel

theorem Conserved.continueQueued (hrun : a.activeRun = none) (h : a.continueQueued = some b) :
    b.Conserved := by
  have hheld : a.held = [] := by rw [held, hrun]
  have hstart : ∀ (drained : List μ) (c : Agent μ) (skip : Bool),
      c.queued + (drained : Multiset μ) = a.queued → c.injected = a.injected →
      c.accepted = a.accepted → c.removed = a.removed →
      (c.startRun (drained.map TurnMessage.queued) skip).Conserved := by
    intro drained c skip hqueued hinjected haccepted hremoved
    have hpasses := start_passes c (drained.map TurnMessage.queued) skip
    rw [queuedOf_queued] at hpasses
    refine ⟨?_, hpasses.quiet⟩
    rw [hpasses.accepted, hpasses.removed, haccepted, hremoved, hpasses.messages, hqueued,
      hinjected, ha.messages, hheld, Multiset.coe_nil, add_zero]
  rw [Agent.continueQueued] at h
  split at h
  · cases h
    exact hstart _ _ true (queued_drainSteering a) rfl rfl rfl
  · split at h
    · cases h
      exact hstart _ _ false (queued_drainFollowUp a) rfl rfl rfl
    · cases h

theorem Conserved.step {call : AgentCall μ} (h : a.step call = some b)
    (hk : a.keepsMessages call = true) : b.Conserved := by
  cases call with
  | steer message =>
    cases h
    refine ha.queues rfl ?_
    show ((a.accepted ++ [message] : List μ) : Multiset μ) + _ = a.accepted +
      (((a.steeringQueue.messages ++ [message] : List μ) : Multiset μ) + a.followUpQueue.messages +
        a.injected + a.removed)
    rw [← Multiset.coe_add, ← Multiset.coe_add, queued]
    abel
  | followUp message =>
    cases h
    refine ha.queues rfl ?_
    show ((a.accepted ++ [message] : List μ) : Multiset μ) + _ = a.accepted +
      ((a.steeringQueue.messages : Multiset μ) +
        ((a.followUpQueue.messages ++ [message] : List μ) : Multiset μ) + a.injected + a.removed)
    rw [← Multiset.coe_add, ← Multiset.coe_add, queued]
    abel
  | setSteeringMode mode | setFollowUpMode mode =>
    cases h
    exact ha.queues rfl rfl
  | clearSteeringQueue =>
    cases h
    exact ha.clearSteeringQueue
  | clearFollowUpQueue =>
    cases h
    exact ha.clearFollowUpQueue
  | clearAllQueues =>
    cases h
    exact ha.clearSteeringQueue.clearFollowUpQueue
  | reset =>
    cases h
    exact ha.clearFollowUpQueue.clearSteeringQueue
  | abort =>
    cases h
    obtain ⟨hmessages, hquiet⟩ := ha
    cases hrun : a.activeRun with
    | none => exact ⟨by simpa [held, hrun, queued] using hmessages, fun _ h => absurd h (by simp)⟩
    | some current =>
      refine ⟨by simpa [held, hrun, queued] using hmessages, ?_⟩
      rintro run ⟨⟩
      exact hquiet current hrun
  | prompt messages =>
    rw [Agent.step] at h
    split at h <;> cases h
    rename_i hrun
    have hpasses := start_passes a (messages.map TurnMessage.given) false
    rw [queuedOf_given] at hpasses
    exact ha.passes (by rwa [held, hrun])
  | continueRun lastIsAssistant =>
    rw [Agent.step] at h
    split at h
    · cases h
    · rename_i hrun
      cases lastIsAssistant with
      | true => exact ha.continueQueued hrun h
      | false =>
        cases h
        exact ha.passes (by rw [held, hrun]; exact start_passes a [] false)
  | resume outcome =>
    obtain ⟨run, hrun, h⟩ := Option.bind_eq_some_iff.1 h
    have hpasses := resumeRun_passes h (ha.quiet run hrun) hrun hk
    exact ha.passes (by rwa [held, hrun])

end

theorem conserved_of_reachable
    (ha : Lts.Reachable Created (Lts.Guarded Step fun a call => a.keepsMessages call = true) a) :
    a.Conserved := by
  apply ha.invariant
  · rintro a ⟨steeringMode, followUpMode, rfl⟩
    exact ⟨rfl, fun _ h => absurd h (Option.some_ne_none _).symm⟩
  · rintro a call b ha ⟨hstep, hk⟩
    exact ha.step hstep hk

theorem Conserved.idle (ha : a.Conserved) (hidle : a.activeRun = none) :
    (a.accepted : Multiset μ) = a.queued + a.injected + a.removed := by
  rw [ha.messages, held, hidle, Multiset.coe_nil, add_zero]

end Conserved

end Agent

end OpenClaw.AgentCore
