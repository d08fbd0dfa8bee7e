import OpenClaw.AgentCore.AgentQueues
import OpenClaw.Harness.RunExclusion
import OpenClaw.Lib.ListSum
import Mathlib.Algebra.Order.Group.Multiset

/-!
# Queued messages of a harness

Where a message that `steer`, `followUp` or `nextTurn` accepted can be: in its queue, held by a run
that has taken it out, injected into the transcript, or reported by `abort`. `Conserved` says that it
is at one of these. It is kept by runs that meet `keepsMessages`:

* no `before_agent_start` hook throws while the prompt holds next-turn messages, and nothing else
  ends a run that holds messages it has not emitted;
* `queue_update` does not fail after `abort` has replaced the array that was drained;
* `stopIfAborted` does not find the signal aborted with messages just drained.
-/

namespace OpenClaw.Harness

open AgentCore (Agent AgentCall Loop LoopAwait LoopAnswer QueueMode TurnMessage AwaitOutcome queuedOf
  queuedOf_append queuedOf_cons queuedOf_queued queuedOf_given)

variable {μ : Type}

/-! ## What a run holds -/

/-- The messages drained for the loop's call. -/
def LoopHandler.taken : LoopHandler μ → List μ
  | .queueUpdate _ _ messages => messages
  | .outside | .afterFlush => []

/-- The messages that a run has taken out of a queue and not emitted. -/
def RunStage.held : RunStage μ → List μ
  | .nextTurnTaken queuedMessages | .beforeStart queuedMessages => queuedMessages
  | .loop l handler => queuedOf l.pendingMessages ++ handler.taken
  | .flush _ _ (.loop l) => queuedOf l.pendingMessages
  | _ => []

/-- No message waits where none is injected. -/
def RunStage.Quiet : RunStage μ → Prop
  | .loop l (.queueUpdate ..) | .flush _ _ (.loop l) => l.pendingMessages = []
  | .loop l _ => l.Quiet
  | _ => True

/-- A run that takes no more messages. -/
def RunStage.late : RunStage μ → Bool
  | .turnState | .nextTurnTaken _ | .beforeStart _ | .loop _ (.queueUpdate ..) => false
  | .loop l _ | .flush _ _ (.loop l) => l.await.isAgentEnd
  | _ => true

def Op.held : Op μ → Multiset μ
  | .run call => call.stage.held
  | .exclusive _ => 0

namespace AgentHarness

/-- The messages in the queues. -/
def queued (s : AgentHarness μ) : Multiset μ :=
  s.steerQueue.messages + s.followUpQueue.messages + s.nextTurnQueue

/-- The messages that runs hold. -/
def held (s : AgentHarness μ) : Multiset μ := (s.ops.map Op.held).sum

/-- What a step must not do to a message. -/
def keepsMessages (s : AgentHarness μ) : HarnessEvent μ → Bool
  | .resume id outcome =>
    match s.ops[id]? with
    | some (.run call) =>
      match call.stage, outcome with
      | .beforeStart queuedMessages, .throws => queuedMessages.isEmpty
      | .loop _ (.queueUpdate name generation _), .throws =>
        decide ((s.queue name).generation = generation)
      | .loop l _, .throws => (queuedOf l.pendingMessages).isEmpty
      | .loop l handler, .returns _ =>
        !s.aborted.contains id || !l.await.checksPending ||
          l.pendingMessages.isEmpty && handler.taken.isEmpty
      | _, _ => true
    | _ => true
  | _ => true

/-! ## What one `await` of a run does -/

/-- A run moves: the messages in the queues, those it holds and those injected stay the same
together. -/
structure MovesTo (s : AgentHarness μ) (id : Nat) (run : Run μ) (t : AgentHarness μ)
    (run' : Run μ) : Prop where
  ops : t.ops = s.ops.set id (.run run')
  quiet : run'.stage.Quiet
  late : run.stage.late = true → run'.stage.late = true
  handedBack : run'.handedBack = true → run.handedBack = true ∨ run'.stage.late = true
  accepted : t.acceptedMessages = s.acceptedMessages
  reported : t.reported = s.reported
  messages : t.queued + (run'.stage.held : Multiset μ) + (t.injected : Multiset μ) =
    s.queued + (run.stage.held : Multiset μ) + (s.injected : Multiset μ)

def MessagesMove (s : AgentHarness μ) (id : Nat) (run : Run μ) (t : AgentHarness μ) : Prop :=
  ∃ run', MovesTo s id run t run'

section MessagesMove

variable {s t : AgentHarness μ} {id : Nat} {run : Run μ}

variable {stage : RunStage μ}

theorem MessagesMove.of_ops (hops : t.ops = s.ops.set id (.run { run with stage }))
    (hquiet : stage.Quiet) (hlate : run.stage.late = true → stage.late = true)
    (haccepted : t.acceptedMessages = s.acceptedMessages) (hreported : t.reported = s.reported)
    (hmessages : t.queued + (stage.held : Multiset μ) + (t.injected : Multiset μ) =
      s.queued + (run.stage.held : Multiset μ) + (s.injected : Multiset μ)) :
    MessagesMove s id run t :=
  ⟨{ run with stage }, hops, hquiet, hlate, .inl, haccepted, hreported, hmessages⟩

theorem setStage_messages (hquiet : stage.Quiet)
    (hlate : run.stage.late = true → stage.late = true) (hheld : stage.held = run.stage.held) :
    MessagesMove s id run (s.setStage id run stage) :=
  .of_ops rfl hquiet hlate rfl rfl (by rw [hheld]; rfl)

theorem queued_setMessages (s : AgentHarness μ) (name : QueueName) (messages : List μ) :
    (s.setMessages name messages).queued + ((s.queue name).messages : Multiset μ) =
      s.queued + (messages : Multiset μ) := by
  cases name with
  | steer =>
    show (messages : Multiset μ) + s.followUpQueue.messages + s.nextTurnQueue +
      s.steerQueue.messages =
      (s.steerQueue.messages : Multiset μ) + s.followUpQueue.messages + s.nextTurnQueue + messages
    abel
  | followUp =>
    show (s.steerQueue.messages : Multiset μ) + messages + s.nextTurnQueue +
      s.followUpQueue.messages =
      (s.steerQueue.messages : Multiset μ) + s.followUpQueue.messages + s.nextTurnQueue + messages
    abel

theorem setMessages_fields (s : AgentHarness μ) (name : QueueName) (messages : List μ) :
    (s.setMessages name messages).ops = s.ops ∧
      (s.setMessages name messages).acceptedMessages = s.acceptedMessages ∧
      (s.setMessages name messages).reported = s.reported ∧
      (s.setMessages name messages).injected = s.injected := by
  cases name <;> exact ⟨rfl, rfl, rfl, rfl⟩

theorem splice_append (mode : QueueMode) (queue : List μ) :
    (mode.splice queue).1 ++ (mode.splice queue).2 = queue := by
  cases mode with
  | all => exact List.append_nil queue
  | oneAtATime => exact List.take_append_drop 1 queue

theorem queued_drain (s : AgentHarness μ) (name : QueueName) :
    (s.drainQueuedMessages name).2.queued + ((s.drainQueuedMessages name).1 : Multiset μ) =
      s.queued := by
  have hset := queued_setMessages s name
    ((s.queueMode name).splice (s.queue name).messages).2
  have hsplice : ((s.queue name).messages : Multiset μ) =
      ((s.queueMode name).splice (s.queue name).messages).1 +
        ((s.queueMode name).splice (s.queue name).messages).2 := by
    rw [Multiset.coe_add, splice_append]
  rw [hsplice] at hset
  apply add_right_cancel (b := (((s.queueMode name).splice (s.queue name).messages).2 : Multiset μ))
  rw [← hset]
  show _ + _ + _ = _ + (_ + _)
  rw [add_assoc]
  rfl

variable {l : Loop (TurnMessage μ)}

theorem serve_messages (hquiet : l.Quiet) (hlate : run.stage.late = true → l.await = .returned)
    (hheld : queuedOf (l.await.emitted ++ l.pendingMessages) = run.stage.held) :
    MessagesMove s id run (s.serve id run l) := by
  have hemit : ∀ message, l.await.emitted = [message] → l.await ≠ .returned →
      MessagesMove s id run ({ s with
        injected := s.injected ++ message.queued?.toList }.setStage id run (.loop l .outside)) := by
    intro message hmessage hawait
    refine .of_ops rfl hquiet (fun h => absurd (hlate h) hawait) rfl rfl ?_
    rw [hmessage, List.singleton_append, queuedOf_cons] at hheld
    rw [← hheld]
    show s.queued + ((queuedOf l.pendingMessages ++ [] : List μ) : Multiset μ) +
      ((s.injected ++ message.queued?.toList : List μ) : Multiset μ) = _
    rw [List.append_nil, ← Multiset.coe_add, ← Multiset.coe_add]
    abel
  have hsame : ∀ stage : RunStage μ, stage.Quiet → l.await.emitted = [] →
      stage.held = queuedOf l.pendingMessages →
      (run.stage.late = true → stage.late = true) →
      MessagesMove s id run (s.setStage id run stage) := by
    intro stage hstage hnone hsame hlate'
    refine setStage_messages hstage hlate' ?_
    rw [hsame, ← hheld, hnone]
    rfl
  have hdrain : ∀ name : QueueName, l.await.emitted = [] → l.await.isInjecting = false →
      l.await ≠ .returned → MessagesMove s id run ((s.drainQueuedMessages name).2.setStage id run
        (.loop l (.queueUpdate name (s.queue name).generation (s.drainQueuedMessages name).1))) := by
    intro name hnone hinjecting hawait
    obtain ⟨hops, haccepted, hreported, hinjected⟩ :=
      setMessages_fields s name ((s.queueMode name).splice (s.queue name).messages).2
    refine .of_ops (congrArg (List.set · id _) hops) (hquiet hinjecting)
      (fun h => absurd (hlate h) hawait) haccepted hreported ?_
    rw [hnone, List.nil_append] at hheld
    rw [← hheld, ← queued_drain s name]
    show (s.drainQueuedMessages name).2.queued +
      ((queuedOf l.pendingMessages ++ (s.drainQueuedMessages name).1 : List μ) : Multiset μ) +
      ((s.drainQueuedMessages name).2.injected : Multiset μ) = _
    rw [show (s.drainQueuedMessages name).2.injected = s.injected from hinjected,
      ← Multiset.coe_add]
    abel
  rw [serve]
  split
  case h_1 | h_2 =>
    rename_i message hawait
    rw [hawait] at hemit
    exact hemit message rfl (by simp)
  case h_3 | h_4 | h_5 =>
    rename_i hawait
    rw [hawait] at hdrain
    exact hdrain _ rfl rfl (by simp)
  case h_11 hawait =>
    refine setStage_messages trivial (fun _ => rfl) ?_
    rw [← hheld, hawait, hquiet (by rw [hawait]; rfl)]
    rfl
  case h_12 =>
    refine hsame _ hquiet ?_ (List.append_nil _) fun h => absurd (hlate h) ‹_›
    cases hawait : l.await <;> simp_all [LoopAwait.emitted]
  all_goals
    rename_i hawait
    refine hsame (.flush _ _ (.loop l)) (hquiet (by rw [hawait]; rfl)) (by rw [hawait]; rfl) rfl
      fun h => ?_
    cases hawait.symm.trans (hlate h)

theorem resumeLoop_messages {answer : LoopAnswer (TurnMessage μ)}
    (h : s.resumeLoop id run l answer = some t) (hquiet : l.Quiet)
    (hlate : run.stage.late = true → l.await.isAgentEnd = true)
    (ha : s.aborted.contains id = true → l.await.checksPending = true →
      l.pendingMessages ++ answer.queued = [])
    (hheld : queuedOf (l.pendingMessages ++ answer.queued) = run.stage.held) :
    MessagesMove s id run t := by
  obtain ⟨l', hl', rfl⟩ := Option.map_eq_some_iff.1 h
  obtain ⟨hmessages, hquiet'⟩ := Loop.resume_messages hl' hquiet ha
  exact serve_messages hquiet' (fun h => Loop.resume_agentEnd hl' (hlate h)) (hmessages ▸ hheld)

theorem setStage_none (hquiet : stage.Quiet) (hlate : run.stage.late = true → stage.late = true)
    (hheld : stage.held = []) (hnone : run.stage.held = []) :
    MessagesMove s id run (s.setStage id run stage) :=
  setStage_messages hquiet hlate (hheld.trans hnone.symm)

theorem handBack_messages (hquiet : stage.Quiet) (hlate : stage.late = true)
    (hheld : stage.held = run.stage.held) : MessagesMove s id run (s.handBack id run stage) :=
  ⟨⟨stage, true⟩, rfl, hquiet, fun _ => hlate, fun _ => .inr hlate, rfl, rfl, by
    rw [hheld]
    rfl⟩

variable {f : FlushAt μ} {failed : Bool} {caller : FlushCaller μ}

theorem held_flush (hquiet : (RunStage.flush f failed caller).Quiet) :
    (RunStage.flush f failed caller).held = [] := by
  cases caller with
  | loop l => exact congrArg queuedOf hquiet
  | _ => rfl

theorem afterFlush_messages {wanted : Bool} (hstage : run.stage = .flush f wanted caller)
    (hquiet : run.stage.Quiet) : MessagesMove s id run (s.afterFlush id run failed caller) := by
  have hnone : run.stage.held = [] := by
    rw [hstage] at hquiet ⊢
    exact held_flush hquiet
  cases caller with
  | «finally» =>
    exact .of_ops rfl trivial (fun _ => rfl) rfl rfl (by rw [hnone]; rfl)
  | loop l =>
    rw [hstage] at hquiet
    have hpending : l.pendingMessages = [] := hquiet
    have hheld : (RunStage.loop l .afterFlush : RunStage μ).held = run.stage.held := by
      rw [hstage]
      exact List.append_nil _
    cases failed with
    | true => exact setStage_none trivial (fun _ => rfl) rfl hnone
    | false =>
      by_cases hend : l.await.isAgentEnd = true
      · rw [afterFlush, if_neg (by simp), if_pos hend]
        exact handBack_messages (fun _ => hpending) hend hheld
      · rw [afterFlush, if_neg (by simp), if_neg hend]
        refine setStage_messages (fun _ => hpending) (fun h => ?_) hheld
        rw [hstage] at h
        exact h
  | report event =>
    cases failed with
    | true => exact setStage_none trivial (fun _ => rfl) rfl hnone
    | false =>
      by_cases hend : event = .agentEnd
      · rw [afterFlush, if_neg (by simp), if_pos hend]
        exact handBack_messages trivial rfl hnone.symm
      · rw [afterFlush, if_neg (by simp), if_neg hend]
        exact setStage_none trivial (fun _ => rfl) rfl hnone

theorem queued_unshift {name : QueueName} {generation : Nat} {messages : List μ}
    (h : (s.queue name).generation = generation) :
    (s.unshift name generation messages).queued = s.queued + (messages : Multiset μ) := by
  rw [unshift, if_pos h]
  have hset := queued_setMessages s name (messages ++ (s.queue name).messages)
  rw [← Multiset.coe_add, ← add_assoc] at hset
  exact add_right_cancel hset

theorem unshift_fields (s : AgentHarness μ) (name : QueueName) (generation : Nat)
    (messages : List μ) :
    (s.unshift name generation messages).ops = s.ops ∧
      (s.unshift name generation messages).acceptedMessages = s.acceptedMessages ∧
      (s.unshift name generation messages).reported = s.reported ∧
      (s.unshift name generation messages).injected = s.injected := by
  rw [unshift]
  split
  · exact setMessages_fields s name _
  · exact ⟨rfl, rfl, rfl, rfl⟩

/-- The conditions on a run that moves. -/
structure KeepsHeld (s : AgentHarness μ) (id : Nat) (stage : RunStage μ)
    (outcome : AwaitOutcome μ) : Prop where
  hook : ∀ queuedMessages, stage = .beforeStart queuedMessages → outcome = .throws →
    queuedMessages = []
  rollback : ∀ l name generation messages,
    stage = .loop l (.queueUpdate name generation messages) → outcome = .throws →
    (s.queue name).generation = generation
  failure : ∀ l, (stage = .loop l .outside ∨ stage = .loop l .afterFlush) → outcome = .throws →
    queuedOf l.pendingMessages = []
  aborted : ∀ l handler answer, stage = .loop l handler → outcome = .returns answer →
    s.aborted.contains id = true → l.await.checksPending = true →
    l.pendingMessages = [] ∧ handler.taken = []

variable {outcome : AwaitOutcome μ}

theorem keepsHeld_of_keepsMessages (hop : s.ops[id]? = some (.run run))
    (h : s.keepsMessages (.resume id outcome) = true) : KeepsHeld s id run.stage outcome := by
  rw [keepsMessages, hop] at h
  dsimp only at h
  constructor
  · rintro queuedMessages hstage rfl
    rw [hstage] at h
    exact List.isEmpty_iff.1 h
  · rintro l name generation messages hstage rfl
    rw [hstage] at h
    exact of_decide_eq_true h
  · rintro l (hstage | hstage) rfl
    all_goals
      rw [hstage] at h
      exact List.isEmpty_iff.1 h
  · rintro l handler answer hstage rfl ha hchecks
    rw [hstage] at h
    simp only [ha, hchecks, Bool.not_true, Bool.false_or, Bool.and_eq_true,
      List.isEmpty_iff] at h
    exact h

theorem isInjecting_of_isTurnEnd {await : LoopAwait (TurnMessage μ)}
    (h : await.isTurnEnd = true) : await.isInjecting = false := by
  cases await <;> first | rfl | cases h

/-- **What an `await` of a run does to the messages.** -/
theorem resumeRun_messages (h : s.resumeRun id run outcome = some t) (hquiet : run.stage.Quiet)
    (hk : KeepsHeld s id run.stage outcome) : MessagesMove s id run t := by
  obtain ⟨stage, handedBack⟩ := run
  unfold resumeRun at h
  dsimp only at h hquiet hk
  split at h <;> try cases h
  case h_1 =>
    rw [executeTurn]
    split
    · exact setStage_none trivial (fun h => by cases h) rfl rfl
    · rename_i hqueue
      refine .of_ops rfl trivial (fun h => by cases h) rfl rfl ?_
      show (s.steerQueue.messages : Multiset μ) + s.followUpQueue.messages + ([] : List μ) +
        s.nextTurnQueue + s.injected = s.queued + ([] : List μ) + s.injected
      show _ = (s.steerQueue.messages : Multiset μ) + s.followUpQueue.messages + s.nextTurnQueue +
        ([] : List μ) + s.injected
      abel
  case h_3 queuedMessages => exact setStage_messages trivial (fun h => by cases h) rfl
  case h_4 queuedMessages =>
    refine .of_ops rfl trivial (fun _ => rfl) rfl rfl ?_
    show (s.steerQueue.messages : Multiset μ) + s.followUpQueue.messages +
      ((queuedMessages ++ s.nextTurnQueue : List μ) : Multiset μ) + ([] : List μ) + s.injected =
      (s.steerQueue.messages : Multiset μ) + s.followUpQueue.messages + s.nextTurnQueue +
        queuedMessages + s.injected
    rw [← Multiset.coe_add, Multiset.coe_nil]
    abel
  case h_5 queuedMessages given =>
    have hserve : MessagesMove { s with runAbortController := some id } id
        ⟨.beforeStart queuedMessages, handedBack⟩
        (s.startLoop id ⟨.beforeStart queuedMessages, handedBack⟩ queuedMessages given) := by
      refine serve_messages (Loop.start_carries _) (fun h => by cases h) ?_
      show queuedOf (queuedMessages.map TurnMessage.queued ++ given.map TurnMessage.given) =
        queuedMessages
      rw [queuedOf_append, queuedOf_queued, queuedOf_given, List.append_nil]
    obtain ⟨run', hops, hquiet', hlate, hback, haccepted, hreported, hmessages⟩ := hserve
    exact ⟨run', hops, hquiet', hlate, hback, haccepted, hreported, hmessages⟩
  case h_6 queuedMessages =>
    exact setStage_none trivial (fun _ => rfl) rfl (hk.hook queuedMessages rfl rfl)
  case h_7 l answer =>
    have hresume : ∀ {given : LoopAnswer (TurnMessage μ)}, given.queued = [] →
        s.resumeLoop id ⟨.loop l .outside, handedBack⟩ l given = some t →
        MessagesMove s id ⟨.loop l .outside, handedBack⟩ t := by
      intro given hgiven h
      refine resumeLoop_messages h hquiet (fun h => h) (fun ha hchecks => ?_) ?_
      · rw [hgiven, (hk.aborted l .outside answer rfl rfl ha hchecks).1]
        rfl
      · rw [hgiven, List.append_nil]
        exact (List.append_nil _).symm
    split at h
    · split at h
      · rename_i hend
        cases h
        have hpending := hquiet (isInjecting_of_isTurnEnd hend)
        exact setStage_messages hpending (fun h => h) (List.append_nil _).symm
      · exact hresume rfl h
    all_goals first | exact hresume rfl h | cases h
  case h_8 l =>
    have hnone : (RunStage.loop l .outside : RunStage μ).held = [] := by
      show queuedOf l.pendingMessages ++ [] = []
      rw [hk.failure l (.inl rfl) rfl]
      rfl
    split at h
    · cases h
    · split at h
      · rename_i hend
        cases h
        have hpending := hquiet (isInjecting_of_isTurnEnd hend)
        exact setStage_messages hpending (fun h => h) (List.append_nil _).symm
      · cases h
        exact setStage_none trivial (fun _ => rfl) rfl hnone
  case h_9 l =>
    refine resumeLoop_messages h hquiet (fun h => h) (fun ha hchecks => ?_) ?_
    · rw [(hk.aborted l .afterFlush _ rfl rfl ha hchecks).1]
      rfl
    · exact congrArg queuedOf (List.append_nil _) |>.trans (List.append_nil _).symm
  case h_10 l =>
    refine setStage_none trivial (fun _ => rfl) rfl ?_
    show queuedOf l.pendingMessages ++ [] = []
    rw [hk.failure l (.inr rfl) rfl]
    rfl
  case h_11 l name generation messages =>
    have hpending : l.pendingMessages = [] := hquiet
    refine resumeLoop_messages h (fun _ => hpending) (fun h => by cases h) (fun ha hchecks => ?_) ?_
    · have htaken : messages = [] := (hk.aborted l _ _ rfl rfl ha hchecks).2
      rw [hpending, htaken]
      rfl
    · show queuedOf (l.pendingMessages ++ messages.map TurnMessage.queued) =
        queuedOf l.pendingMessages ++ messages
      rw [queuedOf_append, queuedOf_queued]
  case h_13 l name generation messages _ =>
    have hpending : l.pendingMessages = [] := hquiet
    obtain ⟨hops, haccepted, hreported, hinjected⟩ := unshift_fields s name generation messages
    refine .of_ops (congrArg (List.set · id _) hops) trivial (fun _ => rfl) haccepted hreported ?_
    show (s.unshift name generation messages).queued + ([] : List μ) +
      (s.unshift name generation messages).injected =
      s.queued + ((queuedOf l.pendingMessages ++ messages : List μ) : Multiset μ) + s.injected
    rw [hinjected, queued_unshift (hk.rollback l name generation messages rfl rfl), hpending]
    show s.queued + (messages : Multiset μ) + (0 : Multiset μ) + s.injected =
      s.queued + (messages : Multiset μ) + s.injected
    rw [add_zero]
  case h_21 | h_23 => exact afterFlush_messages rfl hquiet
  case h_22 caller =>
    refine .of_ops rfl ?_ (fun h => ?_) rfl rfl ?_
    · cases caller <;> exact hquiet
    · cases caller <;> exact h
    · cases caller <;> rfl
  case h_25 failed => exact ⟨_, rfl, trivial, fun _ => rfl, .inl, rfl, rfl, rfl⟩
  all_goals exact setStage_none trivial (fun _ => rfl) rfl rfl

end MessagesMove

/-! ## Conservation -/

/-- Every accepted message is in its queue, held by a run, injected or reported. -/
structure Conserved (s : AgentHarness μ) : Prop where
  messages : (s.acceptedMessages : Multiset μ) = s.queued + s.held + s.injected + s.reported
  quiet : ∀ (id : Nat) (run : Run μ), s.ops[id]? = some (.run run) → run.stage.Quiet
  late : ∀ (id : Nat) (run : Run μ), s.ops[id]? = some (.run run) → run.handedBack = true →
    run.stage.late = true

section Conserved

variable {s t : AgentHarness μ} {e : HarnessEvent μ} {id : Nat} {run : Run μ}

theorem held_of_late {stage : RunStage μ} (hquiet : stage.Quiet) (hlate : stage.late = true) :
    stage.held = [] := by
  have hinjecting : ∀ {await : LoopAwait (TurnMessage μ)}, await.isAgentEnd = true →
      await.isInjecting = false := fun {await} h => by
    cases await <;> first | rfl | cases h
  cases stage with
  | loop l handler =>
    cases handler with
    | queueUpdate => cases hlate
    | outside | afterFlush =>
      show queuedOf l.pendingMessages ++ [] = []
      rw [hquiet (hinjecting hlate)]
      rfl
  | flush f failed caller => exact held_flush hquiet
  | turnState | nextTurnTaken | beforeStart => cases hlate
  | _ => rfl

section

variable (hs : s.Conserved)
include hs

theorem Conserved.move (hop : s.ops[id]? = some (.run run)) (h : MessagesMove s id run t) :
    t.Conserved := by
  obtain ⟨run', hops, hquiet, hlate, hback, haccepted, hreported, hmessages⟩ := h
  refine ⟨?_, fun i r hi => ?_, fun i r hi hr => ?_⟩
  · have hheld : t.held + (run.stage.held : Multiset μ) = s.held + (run'.stage.held : Multiset μ) := by
      rw [held, held, hops]
      exact List.sum_map_set Op.held hop (.run run')
    have hsum : t.queued + t.held + (t.injected : Multiset μ) + (run.stage.held : Multiset μ) =
        s.queued + s.held + (s.injected : Multiset μ) + (run.stage.held : Multiset μ) := by
      calc t.queued + t.held + (t.injected : Multiset μ) + (run.stage.held : Multiset μ)
          = (t.held + (run.stage.held : Multiset μ)) + (t.queued + t.injected) := by abel
        _ = s.held + (t.queued + (run'.stage.held : Multiset μ) + t.injected) := by
            rw [hheld]
            abel
        _ = s.queued + s.held + (s.injected : Multiset μ) + (run.stage.held : Multiset μ) := by
            rw [hmessages]
            abel
    rw [haccepted, hreported, hs.messages, add_right_cancel hsum]
  · rw [hops, PhaseControl.getElem?_set_iff hop] at hi
    rcases hi with ⟨-, hr⟩ | ⟨-, hi⟩
    · cases hr
      exact hquiet
    · exact hs.quiet i r hi
  · rw [hops, PhaseControl.getElem?_set_iff hop] at hi
    rcases hi with ⟨-, hr'⟩ | ⟨-, hi⟩
    · cases hr'
      rcases hback hr with h | h
      · exact hlate (hs.late id run hop h)
      · exact h
    · exact hs.late i r hi hr

theorem Conserved.same (hops : t.ops = s.ops)
    (h : (t.acceptedMessages : Multiset μ) + (s.queued + s.injected + s.reported) =
      s.acceptedMessages + (t.queued + t.injected + t.reported)) : t.Conserved := by
  refine ⟨?_, fun i r hi => hs.quiet i r (hops ▸ hi), fun i r hi => hs.late i r (hops ▸ hi)⟩
  have hheld : t.held = s.held := by rw [held, held, hops]
  rw [hs.messages] at h
  rw [hheld]
  apply add_right_cancel (b := s.queued + (s.injected : Multiset μ) + s.reported)
  rw [h]
  abel

theorem Conserved.append {op : Op μ} (hops : t.ops = s.ops ++ [op]) (hheld : op.held = 0)
    (hquiet : ∀ run : Run μ, op = .run run → run.stage.Quiet ∧ run.handedBack = false)
    (haccepted : t.acceptedMessages = s.acceptedMessages) (hqueued : t.queued = s.queued)
    (hinjected : t.injected = s.injected) (hreported : t.reported = s.reported) : t.Conserved := by
  refine ⟨?_, fun i r hi => ?_, fun i r hi hr => ?_⟩
  · have hsum : t.held = s.held := by
      rw [held, held, hops, List.map_append, List.sum_append]
      show _ + (op.held + 0) = _
      rw [hheld, add_zero, add_zero]
    rw [haccepted, hqueued, hinjected, hreported, hsum]
    exact hs.messages
  · rw [hops, PhaseControl.getElem?_append_new] at hi
    rcases hi with hi | ⟨-, hi⟩
    · exact hs.quiet i r hi
    · exact (hquiet r hi.symm).1
  · rw [hops, PhaseControl.getElem?_append_new] at hi
    rcases hi with hi | ⟨-, hi⟩
    · exact hs.late i r hi hr
    · rw [(hquiet r hi.symm).2] at hr
      cases hr

theorem Conserved.enqueue {name : QueueName} {message : μ} (h : s.enqueue name message = some t) :
    t.Conserved := by
  rw [AgentHarness.enqueue] at h
  split at h <;> cases h
  obtain ⟨hops, haccepted, hreported, hinjected⟩ :=
    setMessages_fields s name ((s.queue name).messages ++ [message])
  refine hs.same hops ?_
  have hset := queued_setMessages s name ((s.queue name).messages ++ [message])
  rw [← Multiset.coe_add] at hset
  have hqueued : (s.setMessages name ((s.queue name).messages ++ [message])).queued =
      s.queued + ([message] : List μ) := by
    apply add_right_cancel (b := ((s.queue name).messages : Multiset μ))
    rw [hset]
    abel
  show (((s.setMessages name _).acceptedMessages ++ [message] : List μ) : Multiset μ) + _ =
    _ + ((s.setMessages name _).queued + ((s.setMessages name _).injected : Multiset μ) +
      (s.setMessages name _).reported)
  rw [haccepted, hqueued, hinjected, hreported, ← Multiset.coe_add]
  abel

theorem Conserved.step (h : s.step e = some t) (hk : s.keepsMessages e = true) : t.Conserved := by
  have hexclusive : ∀ phase : AgentHarnessPhase, s.beginExclusive phase = some t →
      t.Conserved := by
    intro phase h
    rw [beginExclusive] at h
    split at h <;> cases h
    exact hs.append rfl rfl (fun _ h => absurd h exclusive_ne_run) rfl rfl rfl rfl
  have hwrite : ∀ write : PendingSessionWrite μ, (s.acceptWrite write).Conserved := by
    intro write
    rw [acceptWrite]
    split
    · exact hs.same rfl rfl
    · exact hs.same rfl rfl
  cases e with
  | prompt =>
    rw [AgentHarness.step, beginRun] at h
    split at h <;> cases h
    refine hs.append rfl rfl ?_ rfl rfl rfl rfl
    rintro r ⟨⟩
    exact ⟨trivial, rfl⟩
  | compact => exact hexclusive _ h
  | navigateTree => exact hexclusive _ h
  | leave id =>
    rw [AgentHarness.step] at h
    split at h
    · rename_i hop
      cases h
      refine ⟨?_, fun i r hi => ?_, fun i r hi => ?_⟩
      · have hsum := List.sum_map_set Op.held hop (.exclusive true)
        have hheld : ((s.ops.set id (.exclusive true)).map Op.held).sum = s.held :=
          (add_zero _).symm.trans (hsum.trans (add_zero _))
        show (s.acceptedMessages : Multiset μ) =
          s.queued + ((s.ops.set id (.exclusive true)).map Op.held).sum + s.injected + s.reported
        rw [hheld]
        exact hs.messages
      · rw [PhaseControl.getElem?_set_iff hop] at hi
        exact hs.quiet i r (hi.resolve_left fun h => exclusive_ne_run h.2.symm).2
      · rw [PhaseControl.getElem?_set_iff hop] at hi
        exact hs.late i r (hi.resolve_left fun h => exclusive_ne_run h.2.symm).2
    · cases h
  | resume id outcome =>
    rw [AgentHarness.step] at h
    split at h
    · rename_i run hop
      exact hs.move hop
        (resumeRun_messages h (hs.quiet id run hop) (keepsHeld_of_keepsMessages hop hk))
    · cases h
  | recordPending id =>
    rw [AgentHarness.step] at h
    split at h
    · rename_i run hop
      split at h
      · rename_i write failed caller hstage
        cases h
        have hquiet := hs.quiet id run hop
        refine hs.move hop ?_
        rw [hstage] at hquiet
        refine .of_ops rfl ?_ (fun hlate => ?_) rfl rfl ?_
        · cases caller <;> exact hquiet
        · rw [hstage] at hlate
          cases caller <;> exact hlate
        · rw [hstage]
          cases caller <;> rfl
      · cases h
    · cases h
  | appendMessage message | setModel provider modelId | setThinkingLevel level =>
    cases h
    exact hwrite _
  | recordDirect index | failDirect index =>
    obtain ⟨write, -, rfl⟩ := Option.map_eq_some_iff.1 h
    exact hs.same rfl rfl
  | steer message => exact hs.enqueue h
  | followUp message => exact hs.enqueue h
  | nextTurn message =>
    cases h
    refine hs.same rfl ?_
    show ((s.acceptedMessages ++ [message] : List μ) : Multiset μ) + _ = s.acceptedMessages +
      ((s.steerQueue.messages : Multiset μ) + s.followUpQueue.messages +
        ((s.nextTurnQueue ++ [message] : List μ) : Multiset μ) + s.injected + s.reported)
    rw [← Multiset.coe_add, ← Multiset.coe_add, queued]
    abel
  | setSteeringMode mode | setFollowUpMode mode =>
    cases h
    exact hs.same rfl rfl
  | abort =>
    cases h
    refine hs.same rfl ?_
    show (s.acceptedMessages : Multiset μ) + (s.queued + s.injected + s.reported) =
      s.acceptedMessages + ((([] : List μ) : Multiset μ) + ([] : List μ) + s.nextTurnQueue +
        s.injected + ((s.reported ++ s.steerQueue.messages ++ s.followUpQueue.messages : List μ) :
          Multiset μ))
    rw [← Multiset.coe_add, ← Multiset.coe_add, Multiset.coe_nil, queued]
    abel

theorem Conserved.held_eq_zero (hidle : ∀ i, ¬ s.HoldsPhase i) : s.held = 0 := by
  apply List.sum_eq_zero
  intro held hmem
  obtain ⟨op, hop, rfl⟩ := List.mem_map.1 hmem
  obtain ⟨i, hi⟩ := List.mem_iff_getElem?.1 hop
  cases op with
  | exclusive => rfl
  | run run =>
    have hnone : run.stage.held = [] := by
      by_cases hsettled : run.stage.control = .settled
      · cases hstage : run.stage <;> rw [hstage] at hsettled <;> first | rfl | cases hsettled
      · refine held_of_late (hs.quiet i run hi) (hs.late i run hi ?_)
        by_contra hback
        refine hidle i ⟨_, (control_ops s i).trans (congrArg _ hi), ?_⟩
        cases hstage : run.stage <;>
          simp_all [Op.control, RunStage.control, PhaseControl.OpControl.holdsPhase]
    show (run.stage.held : Multiset μ) = 0
    rw [hnone]
    rfl

end

theorem conserved_of_reachable
    (hs : Lts.Reachable Created (Lts.Guarded Step fun s e => s.keepsMessages e = true) s) :
    s.Conserved := by
  apply hs.invariant
  · rintro s ⟨steeringMode, followUpMode, rfl⟩
    exact ⟨rfl, fun id run hop => (nomatch hop), fun id run hop => (nomatch hop)⟩
  · rintro s e t hs ⟨hstep, hk⟩
    exact hs.step hstep hk

end Conserved

/-- **Queued messages are conserved**, by an `Agent` and by a harness, in runs that keep them: every
accepted message is in its queue, held by a run, injected once, or removed or reported. Between runs
none is held. -/
theorem queued_messages_conserved (μ : Type) :
    (∀ a : Agent μ,
      Lts.Reachable Agent.Created (Lts.Guarded Agent.Step fun a call =>
        a.keepsMessages call = true) a →
        (a.accepted : Multiset μ) = a.queued + a.held + a.injected + a.removed ∧
        (a.activeRun = none → (a.accepted : Multiset μ) = a.queued + a.injected + a.removed)) ∧
    ∀ s : AgentHarness μ,
      Lts.Reachable Created (Lts.Guarded Step fun s e => s.keepsMessages e = true) s →
        (s.acceptedMessages : Multiset μ) = s.queued + s.held + s.injected + s.reported ∧
        ((∀ i, ¬ s.HoldsPhase i) →
          (s.acceptedMessages : Multiset μ) = s.queued + s.injected + s.reported) := by
  constructor
  · intro a ha
    have hconserved := Agent.conserved_of_reachable ha
    exact ⟨hconserved.messages, hconserved.idle⟩
  · intro s hs
    have hconserved := conserved_of_reachable hs
    refine ⟨hconserved.messages, fun hidle => ?_⟩
    rw [hconserved.messages, hconserved.held_eq_zero hidle, add_zero]

/-- A next-turn message that a run injects before it fails. -/
def nextTurnInjected : List (HarnessEvent Nat) :=
  [.nextTurn 5, .prompt, .resume 0 (.returns .done), .resume 0 (.returns .done),
    .resume 0 (.returns (.messages [7])), .resume 0 (.returns .done), .resume 0 (.returns .done),
    .resume 0 (.returns .done), .resume 0 (.returns .done), .resume 0 (.returns .done),
    .resume 0 .throws, .resume 0 (.returns .done), .resume 0 (.returns .done),
    .resume 0 (.returns .done), .resume 0 (.returns .done), .resume 0 (.returns .done),
    .resume 0 (.returns .done)]

def afterNextTurnInjected : AgentHarness Nat :=
  { create .all .all with
    runPromise := some 0
    runAbortController := some 0
    ops := [.run ⟨.report .agentEnd true, true⟩]
    acceptedMessages := [5]
    injected := [5] }

/-- A steering message that `Agent` injects as a prompt of `continue`. -/
def steerContinued : List (AgentCall Nat) :=
  [.steer 5, .continueRun true, .resume (.returns .done), .resume (.returns .done),
    .resume (.returns .done), .resume .throws, .resume (.returns .done), .resume (.returns .done),
    .resume (.returns .done), .resume (.returns .done)]

def afterSteerContinued : Agent Nat := { Agent.create .all .all with accepted := [5], injected := [5] }

theorem queued_messages_conserved_injected :
    ((afterSteerContinued.accepted : Multiset Nat) =
      afterSteerContinued.queued + afterSteerContinued.injected + afterSteerContinued.removed) ∧
    ((afterNextTurnInjected.acceptedMessages : Multiset Nat) =
      afterNextTurnInjected.queued + afterNextTurnInjected.injected +
        afterNextTurnInjected.reported) := by
  have hagent : Lts.Reachable Agent.Created (Lts.Guarded Agent.Step fun a call =>
      a.keepsMessages call = true) afterSteerContinued :=
    (Lts.Reachable.start ⟨.all, .all, rfl⟩).run_guarded
      (by decide : Lts.run _ (Agent.create .all .all) steerContinued = some afterSteerContinued)
  have hharness : Lts.Reachable Created (Lts.Guarded Step fun s e => s.keepsMessages e = true)
      afterNextTurnInjected :=
    (Lts.Reachable.start (created_create .all .all)).run_guarded
      (by decide : Lts.run _ _ nextTurnInjected = some afterNextTurnInjected)
  have hidle : ∀ i, ¬ afterNextTurnInjected.HoldsPhase i := by
    rintro (_ | i) ⟨op, hop, hholds⟩
    · cases hop
      cases hholds
    · cases hop
  exact ⟨((queued_messages_conserved Nat).1 _ hagent).2 rfl,
    ((queued_messages_conserved Nat).2 _ hharness).2 hidle⟩

/-- The hook throws with a next-turn message taken. -/
def hookThrows : List (HarnessEvent Nat) :=
  [.nextTurn 5, .prompt, .resume 0 (.returns .done), .resume 0 (.returns .done),
    .resume 0 .throws, .resume 0 (.returns .done)]

def afterHookThrows : AgentHarness Nat :=
  { create .all .all with
    ops := [.run ⟨.settled, false⟩]
    resolved := [0]
    acceptedMessages := [5] }

/-- The signal is aborted after the steering message was drained. -/
def abortAfterDrain : List (AgentCall Nat) :=
  [.steer 5, .prompt [1], .resume (.returns .done), .resume (.returns .done),
    .resume (.returns .done), .resume (.returns .done), .abort, .resume (.returns .done),
    .resume (.returns .done), .resume (.returns .done), .resume (.returns .done),
    .resume (.returns .done), .resume (.returns .done)]

def afterAbortAfterDrain : Agent Nat := { Agent.create .all .all with accepted := [5] }

/-- The next-turn message of the harness and the steering message of the agent are lost. -/
theorem queued_messages_lost :
    ¬ (∀ a : Agent Nat, Lts.Reachable Agent.Created Agent.Step a → a.activeRun = none →
        (a.accepted : Multiset Nat) = a.queued + a.injected + a.removed) ∧
    ¬ ∀ s : AgentHarness Nat, Lts.Reachable Created Step s → (∀ i, ¬ s.HoldsPhase i) →
        (s.acceptedMessages : Multiset Nat) = s.queued + s.injected + s.reported := by
  constructor
  · intro h
    have hreach : Lts.Reachable Agent.Created Agent.Step afterAbortAfterDrain :=
      (Lts.Reachable.start ⟨.all, .all, rfl⟩).run
        (by decide : Lts.run _ (Agent.create .all .all) abortAfterDrain =
          some afterAbortAfterDrain)
    exact absurd (h _ hreach rfl) (by decide)
  · intro h
    have hreach : Lts.Reachable Created Step afterHookThrows :=
      (Lts.Reachable.start (created_create .all .all)).run
        (by decide : Lts.run _ _ hookThrows = some afterHookThrows)
    refine absurd (h _ hreach ?_) (by decide)
    rintro (_ | i) ⟨op, hop, hholds⟩
    · cases hop
      cases hholds
    · cases hop

end AgentHarness

end OpenClaw.Harness
