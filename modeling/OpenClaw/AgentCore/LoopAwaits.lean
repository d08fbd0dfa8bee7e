import Mathlib.Data.Multiset.AddSub
import Mathlib.Logic.Basic

/-!
# `agent-loop.ts`: where the loop waits

`runAgentLoop`, `runAgentLoopContinue` and `runLoop` cut at their `await`s, for the properties that
speak of what happens between them. `LoopAwait` lists what the code awaits, and `Loop.resume` is the
code from one `await` to the next: it takes the answer, reads the abort signal where
`stopIfAborted` does, and stops at the next `await`. A rejected `await` ends the loop and is left to
its caller.

The messages are of any type `μ`. `pendingMessages` holds the prompts and then the pending messages
that have not been emitted yet.
-/

namespace OpenClaw.AgentCore

/-- The calls of `stopIfAborted`, in the order of the text. -/
inductive AbortCheck
  | turnHead
  | injected
  | turnEnded
  | prepared
  | steered
  deriving DecidableEq

inductive LoopAwait (μ : Type)
  | agentStart
  | firstTurnStart
  | promptStart
  /-- `message_end` of a prompt. -/
  | promptEnd (message : μ)
  /-- The `getSteeringMessages` before the first turn. -/
  | initialSteering
  | turnStart
  | pendingStart
  /-- `message_end` of a pending message. -/
  | pendingEnd (message : μ)
  /-- `streamAssistantResponse`. -/
  | response
  | failedTurnEnd
  | failedAgentEnd
  /-- `executeToolCalls`. -/
  | tools
  | turnEnd
  | prepareNextTurn
  | shouldStopAfterTurn
  | stoppedAgentEnd
  | steering
  | followUp
  | agentEnd
  /-- `stopIfAborted`, which has found the signal not aborted. -/
  | unaborted (check : AbortCheck)
  -- the events of `stopIfAborted`
  | abortedTurnStart
  | abortedStart
  | abortedEnd
  | abortedTurnEnd
  | abortedAgentEnd
  /-- The loop has returned. -/
  | returned
  deriving DecidableEq

/-- What an `await` of the loop gives. -/
inductive LoopAnswer (μ : Type)
  | done
  | messages (messages : List μ)
  /-- An assistant message: whether its stop reason is `error` or `aborted`, and whether it has tool
  calls to run. -/
  | response (failed toolUse : Bool)
  | tools (terminate : Bool)
  | flag (value : Bool)
  deriving DecidableEq

/-- How an `await` ends. -/
inductive AwaitOutcome (μ : Type)
  | returns (answer : LoopAnswer μ)
  | throws
  deriving DecidableEq

/-- The local variables of the loop. -/
structure Loop (μ : Type) where
  await : LoopAwait μ
  pendingMessages : List μ
  firstTurn : Bool
  turnOpen : Bool
  hasMoreToolCalls : Bool
  deriving DecidableEq

/-! ## Queues -/

inductive QueueMode
  | all
  | oneAtATime
  deriving DecidableEq

/-- `queue.splice(0)` or `queue.splice(0, 1)`: what is taken and what stays. -/
def QueueMode.splice {μ : Type} (mode : QueueMode) (queue : List μ) : List μ × List μ :=
  match mode with
  | .all => (queue, [])
  | .oneAtATime => (queue.take 1, queue.drop 1)

/-- A message of a turn: out of a queue, or given with the prompt or by a hook. -/
inductive TurnMessage (μ : Type)
  | queued (message : μ)
  | given (message : μ)
  deriving DecidableEq

def TurnMessage.queued? {μ : Type} : TurnMessage μ → Option μ
  | .queued message => some message
  | .given _ => none

/-- The messages that come out of a queue. -/
def queuedOf {μ : Type} (messages : List (TurnMessage μ)) : List μ :=
  messages.filterMap TurnMessage.queued?

variable {μ : Type}

theorem queuedOf_append (xs ys : List (TurnMessage μ)) :
    queuedOf (xs ++ ys) = queuedOf xs ++ queuedOf ys := List.filterMap_append

@[simp]
theorem queuedOf_queued (messages : List μ) :
    queuedOf (messages.map TurnMessage.queued) = messages := by
  induction messages with
  | nil => rfl
  | cons message messages ih => exact congrArg (message :: ·) ih

@[simp]
theorem queuedOf_given (messages : List μ) : queuedOf (messages.map TurnMessage.given) = [] := by
  induction messages with
  | nil => rfl
  | cons message messages ih => exact ih

theorem queuedOf_cons (message : TurnMessage μ) (rest : List (TurnMessage μ)) :
    queuedOf (message :: rest) = message.queued?.toList ++ queuedOf rest := by
  cases message <;> rfl

/-! ## Awaits -/

namespace LoopAwait

variable {μ : Type}

/-- The event is `turn_end`. -/
def isTurnEnd : LoopAwait μ → Bool
  | failedTurnEnd | turnEnd | abortedTurnEnd => true
  | _ => false

/-- The event is `agent_end`. -/
def isAgentEnd : LoopAwait μ → Bool
  | failedAgentEnd | stoppedAgentEnd | agentEnd | abortedAgentEnd => true
  | _ => false

/-- Messages wait to be emitted. -/
def isInjecting : LoopAwait μ → Bool
  | agentStart | firstTurnStart | promptStart | promptEnd _ | turnStart | pendingStart
  | pendingEnd _ | unaborted .turnHead | unaborted .steered => true
  | _ => false

/-- The message whose `message_end` is emitted. -/
def emitted : LoopAwait μ → List μ
  | promptEnd message | pendingEnd message => [message]
  | _ => []

/-- The answer comes from `getSteeringMessages` or `getFollowUpMessages`. -/
def isDrain : LoopAwait μ → Bool
  | initialSteering | steering | followUp => true
  | _ => false

/-- `stopIfAborted` is called next, with the messages that the answer brought. -/
def checksPending : LoopAwait μ → Bool
  | unaborted .steered => true
  | await => await.isDrain

end LoopAwait

/-- The messages an answer brings. -/
def LoopAnswer.queued {μ : Type} : LoopAnswer μ → List μ
  | .messages queued => queued
  | _ => []

namespace Loop

variable {μ : Type}

/-- `runAgentLoop`; with no prompts, `runAgentLoopContinue`. -/
def start (prompts : List μ) : Loop μ where
  await := .agentStart
  pendingMessages := prompts
  firstTurn := true
  turnOpen := true
  hasMoreToolCalls := true

def goTo (l : Loop μ) (await : LoopAwait μ) : Loop μ := { l with await }

/-- The loop over the prompts. -/
def nextPrompt (l : Loop μ) : Loop μ :=
  match l.pendingMessages with
  | [] => l.goTo .initialSteering
  | _ :: _ => l.goTo .promptStart

def stopIfAborted (aborted : Bool) (l : Loop μ) (check : AbortCheck) : Loop μ :=
  if aborted then
    if l.turnOpen then l.goTo .abortedStart else l.goTo .abortedTurnStart
  else l.goTo (.unaborted check)

/-- The loop over the pending messages. -/
def inject (aborted : Bool) (l : Loop μ) : Loop μ :=
  match l.pendingMessages with
  | _ :: _ => l.goTo .pendingStart
  | [] => l.stopIfAborted aborted .injected

/-- The condition of the inner loop. -/
def nextTurn (aborted : Bool) (l : Loop μ) : Loop μ :=
  if l.hasMoreToolCalls || !l.pendingMessages.isEmpty then l.stopIfAborted aborted .turnHead
  else l.goTo .followUp

/-- What follows a call of `stopIfAborted` that returned `false`. -/
def afterCheck (aborted : Bool) (l : Loop μ) : AbortCheck → Loop μ
  | .turnHead =>
    if l.firstTurn then { l with firstTurn := false }.inject aborted else l.goTo .turnStart
  | .injected => l.goTo .response
  | .turnEnded => l.goTo .prepareNextTurn
  | .prepared => l.goTo .shouldStopAfterTurn
  | .steered => l.nextTurn aborted

/-- The message at the head is emitted. -/
def emit (l : Loop μ) (await : μ → LoopAwait μ) : Option (Loop μ) :=
  match l.pendingMessages with
  | [] => none
  | message :: rest => some { l with await := await message, pendingMessages := rest }

/-- From one `await` to the next. -/
def resume (aborted : Bool) (l : Loop μ) (answer : LoopAnswer μ) : Option (Loop μ) :=
  match l.await, answer with
  | .agentStart, .done => some (l.goTo .firstTurnStart)
  | .firstTurnStart, .done | .promptEnd _, .done => some l.nextPrompt
  | .promptStart, .done => l.emit .promptEnd
  | .initialSteering, .messages pendingMessages =>
    -- the outer loop sets `hasMoreToolCalls`
    some ({ l with pendingMessages, hasMoreToolCalls := true }.nextTurn aborted)
  | .turnStart, .done => some ({ l with turnOpen := true }.inject aborted)
  | .pendingStart, .done => l.emit .pendingEnd
  | .pendingEnd _, .done => some (l.inject aborted)
  | .response, .response failed toolUse =>
    if failed then some (l.goTo .failedTurnEnd)
    else if toolUse then some (l.goTo .tools)
    else some { l with await := .turnEnd, hasMoreToolCalls := false }
  | .failedTurnEnd, .done => some (l.goTo .failedAgentEnd)
  | .tools, .tools terminate => some { l with await := .turnEnd, hasMoreToolCalls := !terminate }
  | .turnEnd, .done => some ({ l with turnOpen := false }.stopIfAborted aborted .turnEnded)
  | .prepareNextTurn, .done => some (l.stopIfAborted aborted .prepared)
  | .shouldStopAfterTurn, .flag stop =>
    some (l.goTo (if stop then .stoppedAgentEnd else .steering))
  | .steering, .messages pendingMessages =>
    some ({ l with pendingMessages }.stopIfAborted aborted .steered)
  | .followUp, .messages followUpMessages =>
    match followUpMessages with
    | [] => some (l.goTo .agentEnd)
    | _ :: _ =>
      some ({ l with pendingMessages := followUpMessages, hasMoreToolCalls := true }.nextTurn
        aborted)
  | .unaborted check, .done => some (l.afterCheck aborted check)
  | .abortedTurnStart, .done => some { l with await := .abortedStart, turnOpen := true }
  | .abortedStart, .done => some (l.goTo .abortedEnd)
  | .abortedEnd, .done => some (l.goTo .abortedTurnEnd)
  | .abortedTurnEnd, .done => some { l with await := .abortedAgentEnd, turnOpen := false }
  | .failedAgentEnd, .done | .stoppedAgentEnd, .done | .agentEnd, .done
  | .abortedAgentEnd, .done => some (l.goTo .returned)
  | _, _ => none

/-! ## What comes next -/

section Next

variable {l l' : Loop μ} {aborted : Bool} {answer : LoopAnswer μ}

@[simp]
theorem goTo_await (l : Loop μ) (await : LoopAwait μ) : (l.goTo await).await = await := rfl

theorem nextPrompt_await (l : Loop μ) :
    l.nextPrompt.await = .initialSteering ∨ l.nextPrompt.await = .promptStart := by
  rw [nextPrompt]
  split
  · exact .inl rfl
  · exact .inr rfl

section

variable (aborted : Bool)

theorem stopIfAborted_await (l : Loop μ) (check : AbortCheck) :
    (l.stopIfAborted aborted check).await = .unaborted check ∨
      (l.stopIfAborted aborted check).await = .abortedStart ∨
      (l.stopIfAborted aborted check).await = .abortedTurnStart := by
  rw [stopIfAborted]
  split
  · split
    · exact .inr (.inl rfl)
    · exact .inr (.inr rfl)
  · exact .inl rfl

theorem stopIfAborted_ne_returned (l : Loop μ) (check : AbortCheck) :
    (l.stopIfAborted aborted check).await ≠ .returned := by
  rcases stopIfAborted_await aborted l check with h | h | h <;> rw [h] <;> exact nofun

theorem inject_ne_returned (l : Loop μ) : (l.inject aborted).await ≠ .returned := by
  rw [inject]
  split
  · exact nofun
  · exact stopIfAborted_ne_returned _ _ _

theorem nextTurn_ne_returned (l : Loop μ) : (l.nextTurn aborted).await ≠ .returned := by
  rw [nextTurn]
  split
  · exact stopIfAborted_ne_returned _ _ _
  · exact nofun

theorem afterCheck_ne_returned (l : Loop μ) (check : AbortCheck) :
    (l.afterCheck aborted check).await ≠ .returned := by
  cases check with
  | turnHead =>
    rw [afterCheck]
    split
    · exact inject_ne_returned _ _
    · exact nofun
  | steered => exact nextTurn_ne_returned _ _
  | _ => exact nofun

end

theorem emit_await {await : μ → LoopAwait μ} (h : l.emit await = some l') :
    ∃ message, l'.await = await message ∧ l.pendingMessages = message :: l'.pendingMessages := by
  rw [emit] at h
  split at h
  · cases h
  · cases h
    exact ⟨_, rfl, ‹_›⟩

theorem nextPrompt_ne_returned (l : Loop μ) : l.nextPrompt.await ≠ .returned := by
  rcases nextPrompt_await l with h | h <;> rw [h] <;> exact nofun

theorem resume_returned (h : l.resume aborted answer = some l') (hreturned : l'.await = .returned) :
    l.await.isAgentEnd = true := by
  unfold resume at h
  split at h <;> try cases h
  case h_2 | h_3 => exact absurd hreturned (nextPrompt_ne_returned _)
  case h_4 | h_7 =>
    obtain ⟨message, hmessage, -⟩ := emit_await h
    cases hmessage.symm.trans hreturned
  case h_5 => exact absurd hreturned (nextTurn_ne_returned _ _)
  case h_6 | h_8 => exact absurd hreturned (inject_ne_returned _ _)
  case h_9 => split_ifs at h <;> cases h <;> cases hreturned
  case h_12 | h_13 | h_15 => exact absurd hreturned (stopIfAborted_ne_returned _ _ _)
  case h_14 =>
    rw [goTo_await] at hreturned
    split_ifs at hreturned
  case h_16 =>
    split at h <;> cases h
    · cases hreturned
    · exact absurd hreturned (nextTurn_ne_returned _ _)
  case h_17 => exact absurd hreturned (afterCheck_ne_returned _ _ _)
  case h_22 | h_23 | h_24 | h_25 => simp [LoopAwait.isAgentEnd, *]
  all_goals cases hreturned

theorem resume_agentEnd (h : l.resume aborted answer = some l')
    (hend : l.await.isAgentEnd = true) : l'.await = .returned := by
  cases hawait : l.await with
  | failedAgentEnd | stoppedAgentEnd | agentEnd | abortedAgentEnd =>
    cases answer <;> simp only [resume, hawait, Option.some.injEq, reduceCtorEq] at h
    subst h
    rfl
  | _ =>
    rw [hawait] at hend
    cases hend

end Next

/-! ## The messages -/

section Messages

variable {l l' : Loop μ} {aborted : Bool} {answer : LoopAnswer μ}

/-- No message waits where none is injected. -/
def Quiet (l : Loop μ) : Prop := l.await.isInjecting = false → l.pendingMessages = []

/-- The messages of `l` are those of `l'` and the one it emits. -/
structure Carries (l l' : Loop μ) : Prop where
  messages : l'.await.emitted ++ l'.pendingMessages = l.pendingMessages
  quiet : l'.Quiet

theorem goTo_carries {await : LoopAwait μ} (he : await.emitted = [])
    (hq : await.isInjecting = false → l.pendingMessages = []) : l.Carries (l.goTo await) where
  messages := by
    rw [goTo_await, he]
    rfl
  quiet := hq

theorem start_carries (prompts : List μ) : (start prompts).Quiet := fun h => (nomatch h)

theorem nextPrompt_carries (l : Loop μ) : l.Carries l.nextPrompt := by
  rw [nextPrompt]
  split
  · exact goTo_carries rfl fun _ => ‹_›
  · exact goTo_carries rfl nofun

variable {check : AbortCheck}

theorem stopIfAborted_carries (ha : aborted = true → l.pendingMessages = [])
    (hq : (LoopAwait.unaborted check : LoopAwait μ).isInjecting = false → l.pendingMessages = []) :
    l.Carries (l.stopIfAborted aborted check) := by
  rw [stopIfAborted]
  split
  · split
    · exact goTo_carries rfl fun _ => ha ‹_›
    · exact goTo_carries rfl fun _ => ha ‹_›
  · exact goTo_carries rfl hq

theorem inject_carries (aborted : Bool) (l : Loop μ) : l.Carries (l.inject aborted) := by
  rw [inject]
  split
  · exact goTo_carries rfl nofun
  · exact stopIfAborted_carries (fun _ => ‹_›) fun _ => ‹_›

theorem nextTurn_carries (ha : aborted = true → l.pendingMessages = []) :
    l.Carries (l.nextTurn aborted) := by
  by_cases hmore : (l.hasMoreToolCalls || !l.pendingMessages.isEmpty) = true
  · rw [nextTurn, if_pos hmore]
    exact stopIfAborted_carries ha nofun
  · rw [nextTurn, if_neg hmore]
    refine goTo_carries rfl fun _ => ?_
    simp only [Bool.or_eq_true, Bool.not_eq_true', not_or, Bool.not_eq_false] at hmore
    exact List.isEmpty_iff.1 hmore.2

theorem afterCheck_carries
    (hq : (LoopAwait.unaborted check : LoopAwait μ).isInjecting = false → l.pendingMessages = [])
    (ha : aborted = true → check = .steered → l.pendingMessages = []) :
    l.Carries (l.afterCheck aborted check) := by
  cases check with
  | turnHead =>
    rw [afterCheck]
    split
    · obtain ⟨hmessages, hquiet⟩ := inject_carries aborted { l with firstTurn := false }
      exact ⟨hmessages, hquiet⟩
    · exact goTo_carries rfl nofun
  | steered => exact nextTurn_carries fun h => ha h rfl
  | _ => exact goTo_carries rfl fun _ => hq rfl

theorem emit_carries {await : μ → LoopAwait μ} (hawait : ∀ m, (await m).emitted = [m])
    (hinjecting : ∀ m, (await m).isInjecting = true) (h : l.emit await = some l') :
    l.Carries l' := by
  obtain ⟨message, hmessage, hpending⟩ := emit_await h
  refine ⟨?_, fun hq => ?_⟩
  · rw [hmessage, hawait, hpending]
    rfl
  · rw [hmessage, hinjecting] at hq
    cases hq

/-- **No message is lost between two `await`s**, unless the signal is aborted when `stopIfAborted`
is called with messages just drained. -/
theorem resume_messages (h : l.resume aborted answer = some l') (hq : l.Quiet)
    (ha : aborted = true → l.await.checksPending = true →
      l.pendingMessages ++ answer.queued = []) :
    l'.await.emitted ++ l'.pendingMessages = l.pendingMessages ++ answer.queued ∧ l'.Quiet := by
  have hcarry : ∀ {k : Loop μ}, k.Carries l' → k.pendingMessages = l.pendingMessages →
      answer.queued = [] →
      l'.await.emitted ++ l'.pendingMessages = l.pendingMessages ++ answer.queued ∧ l'.Quiet := by
    intro k hk hsame hanswer
    rw [hanswer, List.append_nil, hk.messages, hsame]
    exact ⟨rfl, hk.quiet⟩
  -- a drain comes when no message waits
  have hdrain : ∀ {k : Loop μ}, k.Carries l' → l.await.isInjecting = false →
      k.pendingMessages = answer.queued →
      l'.await.emitted ++ l'.pendingMessages = l.pendingMessages ++ answer.queued ∧ l'.Quiet := by
    intro k hk hawait hsame
    rw [hk.messages, hsame, hq hawait]
    exact ⟨rfl, hk.quiet⟩
  have hnone : l.await.isInjecting = false → ∀ k : Loop μ, k.await.emitted = [] →
      k.pendingMessages = l.pendingMessages → l.Carries k := fun hawait k he hsame =>
    ⟨by rw [he, hsame]; rfl, fun _ => hsame.trans (hq hawait)⟩
  unfold resume at h
  split at h
  case h_26 => cases h
  all_goals
    rename_i hawait
    rw [hawait] at hnone hdrain ha
  case h_1 =>
    cases h
    exact hcarry (goTo_carries rfl nofun) rfl rfl
  case h_2 | h_3 =>
    cases h
    exact hcarry (nextPrompt_carries l) rfl rfl
  case h_4 | h_7 => exact hcarry (emit_carries (fun _ => rfl) (fun _ => rfl) h) rfl rfl
  case h_5 =>
    cases h
    exact hdrain (nextTurn_carries fun h => (List.append_eq_nil_iff.1 (ha h rfl)).2) rfl rfl
  case h_6 | h_8 =>
    cases h
    exact hcarry (inject_carries _ _) rfl rfl
  case h_9 =>
    split_ifs at h <;> cases h <;> exact hcarry (hnone rfl _ rfl rfl) rfl rfl
  case h_12 | h_13 =>
    cases h
    exact hcarry (stopIfAborted_carries (fun _ => hq (by rw [hawait]; rfl))
      fun _ => hq (by rw [hawait]; rfl)) rfl rfl
  case h_14 stop =>
    cases h
    refine hcarry (hnone rfl _ ?_ rfl) rfl rfl
    cases stop <;> rfl
  case h_15 =>
    cases h
    exact hdrain (stopIfAborted_carries (fun h => (List.append_eq_nil_iff.1 (ha h rfl)).2) nofun)
      rfl rfl
  case h_16 =>
    split at h <;> cases h
    · exact hcarry (hnone rfl _ rfl rfl) rfl rfl
    · exact hdrain (nextTurn_carries fun h => (List.append_eq_nil_iff.1 (ha h rfl)).2) rfl rfl
  case h_17 check =>
    cases h
    refine hcarry (afterCheck_carries (fun h => hq ?_) fun h hcheck => ?_) rfl rfl
    · rw [hawait]
      exact h
    · subst hcheck
      exact (List.append_eq_nil_iff.1 (ha h rfl)).1
  all_goals
    cases h
    exact hcarry (hnone rfl _ rfl rfl) rfl rfl

end Messages

end Loop

end OpenClaw.AgentCore
