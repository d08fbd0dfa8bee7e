import OpenClaw.AgentCore.ToolResults

/-!
# The transcript of a run

A run's new messages are its prompts, then turns. A turn is the messages injected before the
response, the response, and the results of its tool calls.

**Theorem (`transcript_law`).** For every run that resolves, whatever the outside does:

* the finished messages are the returned messages, and those of `agent_end`;
* turn starts and turn ends alternate, and the last turn is closed before `agent_end`;
* every tool call that has started has ended once;
* the results of a turn are one for each call of a `toolUse` response, in call order. If the signal
  is aborted, the last response that called tools may have results for a prefix of its calls; the
  turn after it is the aborted one, which ends the run.

The invariant of the loop is `Ready`: between two passes every turn is answered, and a turn is open
only before the first pass. `stopIfAborted` cannot miss an abort that is known, which is why a turn
whose calls are not all answered is followed by the aborted turn at once.
-/

namespace OpenClaw.AgentCore

/-! ## Turns -/

/-- The calls that a response asks to be executed. -/
def AssistantMessage.requestedCalls (message : AssistantMessage) : List CallRef :=
  if message.stopReason = .toolUse then message.toolCalls.map (·.ref) else []

structure Turn where
  pending : List AgentMessage
  response : AssistantMessage
  results : List ToolResultMessage

def Turn.messages (turn : Turn) : List AgentMessage :=
  turn.pending ++ .assistant turn.response :: turn.results.map .toolResult

def Turn.marks (turn : Turn) : List LoopMark := [.turnStart, .turnEnd turn.response turn.results]

/-- There is one result for each call, in call order. -/
def Turn.Answered (turn : Turn) : Prop := turn.results.map (·.ref) = turn.response.requestedCalls

/-- All turns are answered, unless the signal is aborted. Then the last turn that called tools may
have stopped after some of them, and an aborted turn follows it. -/
def AllAnswered (turns : List Turn) (aborted : Bool) : Prop :=
  (∀ turn ∈ turns, turn.Answered) ∨
    aborted = true ∧ ∃ before cut last, turns = before ++ [cut, last] ∧
      (∀ turn ∈ before, turn.Answered) ∧ cut.results.map (·.ref) <+: cut.response.requestedCalls ∧
      last.pending = [] ∧ last.response.stopReason = .aborted ∧ last.results = []

/-- The law of the transcript of a run that has returned. -/
structure TranscriptLaw (prompts messages : List AgentMessage) (s : RunState) : Prop where
  messageEnds : s.log.filterMap Entry.messageEnd = messages
  toolCalls : OpenCalls (s.log.filterMap Entry.toolMark) 0
  turns : ∃ turns : List Turn, messages = prompts ++ turns.flatMap Turn.messages ∧
    s.log.filterMap Entry.loopMark = turns.flatMap Turn.marks ++ [.agentEnd messages] ∧
    AllAnswered turns s.aborted

/-! ## The loop's invariant -/

/-- What a run has shown when `turns` are over and `marks` follow. -/
def shown (messages : List AgentMessage) (turns : List Turn) (marks : List LoopMark)
    (aborted : Bool) : Summary where
  messages := messages
  marks := turns.flatMap Turn.marks ++ marks
  openCalls := 0
  aborted := aborted

/-- The turn start of a turn that is open. -/
def LoopState.marks (l : LoopState) : List LoopMark := if l.turnOpen then [.turnStart] else []

/-- Between two passes. -/
def Ready (prompts : List AgentMessage) (l : LoopState) (s : RunState) : Prop :=
  ∃ turns aborted, l.newMessages = prompts ++ turns.flatMap Turn.messages ∧
    l.turnOpen = l.firstTurn ∧ (∀ turn ∈ turns, turn.Answered) ∧
    Shows (shown l.newMessages turns l.marks aborted) s

variable {prompts : List AgentMessage} {l : LoopState} {turns : List Turn}

theorem flatMap_concat {α : Type} (f : Turn → List α) (turns : List Turn) (turn : Turn) :
    (turns ++ [turn]).flatMap f = turns.flatMap f ++ f turn := by
  simp

variable {s : RunState}

theorem Shows.transcriptLaw {messages : List AgentMessage} {aborted : Bool}
    (hs : Shows (shown messages turns [.agentEnd messages] aborted) s)
    (hmessages : messages = prompts ++ turns.flatMap Turn.messages)
    (hanswered : AllAnswered turns s.aborted) : TranscriptLaw prompts messages s where
  messageEnds := hs.messages
  toolCalls := hs.openCalls
  turns := ⟨turns, hmessages, hs.marks, hanswered⟩

/-! ## The parts of a pass -/

variable (env : Env) (config : AgentLoopConfig)

theorem skipWhen_spec {P Q : RunState → Prop} {m : AgentProg Unit} {flag : Bool}
    (htrue : flag = true → ∀ s, P s → Q s) (hfalse : flag = false → Spec P m fun _ => Q) :
    Spec P (Prog.skipWhen flag m) fun _ => Q := by
  cases flag with
  | true => exact .pure (htrue rfl)
  | false => exact hfalse rfl

variable {messages : List AgentMessage} {aborted : Bool}

theorem emit_mark_spec (marks : List LoopMark) {e : AgentEvent} {mark : LoopMark}
    (hmessage : Entry.messageEnd (.event e) = none)
    (htool : Entry.toolMark (.event e) = none) (hmark : Entry.loopMark (.event e) = some mark) :
    Spec (Shows (shown messages turns marks aborted)) (emit env e)
      fun _ => Shows (shown messages turns (marks ++ [mark]) aborted) := by
  refine (emit_spec env htool _).post fun _ s hs => ⟨?_, ?_, hs.openCalls, hs.aborted⟩
  · rw [hs.messages, Summary.add, hmessage]
    exact List.append_nil _
  · rw [hs.marks, Summary.add, hmark]
    exact List.append_assoc _ _ _

theorem emitMessage_spec (marks : List LoopMark) (message : AgentMessage) :
    Spec (Shows (shown messages turns marks aborted)) (emitMessage env message)
      fun _ => Shows (shown (messages ++ [message]) turns marks aborted) := by
  refine .bind ((shows_frame env).emit ⟨rfl, rfl, rfl⟩ _) fun _ => ?_
  refine (emit_spec env rfl _).post fun _ s hs => ⟨hs.messages, ?_, hs.openCalls, hs.aborted⟩
  exact hs.marks.trans (List.append_nil _)

theorem stopIfAborted_spec :
    Spec (Shows (shown l.newMessages turns l.marks aborted)) (stopIfAborted env l) fun r s =>
      match r with
      | none => aborted = false ∧ Shows (shown l.newMessages turns l.marks aborted) s
      | some returned => s.aborted = true ∧ ∃ response : AssistantMessage,
        response.stopReason = .aborted ∧ returned = l.newMessages ++ [.assistant response] ∧
        Shows (shown returned turns [.turnStart, .turnEnd response [], .agentEnd returned] true) s := by
  refine .bind (signalAborted_spec _) fun now => .fact fun hmono => ?_
  refine .ite (fun hnow => ?_) fun hnow => ?_
  · subst hnow
    generalize hresponse : createLoopFailureMessage (env.abortReason.getD "Agent run aborted") true =
      response
    have haborted : response.stopReason = .aborted := by
      subst hresponse
      rfl
    -- the turn is open now
    have hopen : Spec (Shows (shown l.newMessages turns l.marks true))
        (Prog.skipWhen l.turnOpen (emit env .turnStart))
        fun _ => Shows (shown l.newMessages turns [.turnStart] true) := by
      refine skipWhen_spec (fun h s hs => ?_) fun h => ?_
      · rwa [LoopState.marks, if_pos h] at hs
      · refine (emit_mark_spec env [] rfl rfl rfl).pre fun s hs => ?_
        rwa [LoopState.marks, if_neg (by simp [h])] at hs
    refine .bind hopen fun _ => ?_
    refine .bind ((shows_frame env).emit ⟨rfl, rfl, rfl⟩ _) fun _ => ?_
    have hend : Spec (Shows (shown l.newMessages turns [.turnStart] true))
        (emit env (.messageEnd (.assistant response)))
        fun _ => Shows (shown (l.newMessages ++ [.assistant response]) turns [.turnStart] true) := by
      refine (emit_spec env rfl _).post fun _ s hs => ⟨hs.messages, ?_, hs.openCalls, hs.aborted⟩
      exact hs.marks.trans (List.append_nil _)
    refine .bind hend fun _ => ?_
    refine .bind (emit_mark_spec env _ rfl rfl rfl) fun _ => ?_
    refine .bind (emit_mark_spec env _ rfl rfl rfl) fun _ => .pure fun s hs => ?_
    exact ⟨hs.aborted rfl, response, haborted, rfl, hs⟩
  · have hfalse : aborted = false := by
      rw [Bool.eq_false_iff]
      exact fun h => hnow (hmono h)
    rw [Bool.not_eq_true] at hnow
    subst hnow hfalse
    exact .bind ((shows_frame env).suspend _) fun _ => .pure fun s hs => ⟨rfl, hs⟩

variable {pending : List AgentMessage}

variable {response : AssistantMessage} {returned : List AgentMessage}

theorem transcriptLaw_of_aborted
    (hmessages : messages = prompts ++ turns.flatMap Turn.messages ++ pending)
    (hanswered : ∀ turn ∈ turns, turn.Answered) (haborted : response.stopReason = .aborted)
    (hreturned : returned = messages ++ [.assistant response])
    (hs : Shows (shown returned turns [.turnStart, .turnEnd response [], .agentEnd returned] true) s) :
    TranscriptLaw prompts returned s := by
  have hmarks : Shows (shown returned (turns ++ [⟨pending, response, []⟩]) [.agentEnd returned] true)
      s := by
    refine ⟨hs.messages, ?_, hs.openCalls, hs.aborted⟩
    rw [hs.marks]
    simp [shown, Turn.marks]
  refine hmarks.transcriptLaw ?_ ?_
  · rw [hreturned, hmessages, flatMap_concat]
    simp [Turn.messages]
  · refine .inl fun turn hturn => ?_
    rcases List.mem_append.1 hturn with hturn | hturn
    · exact hanswered turn hturn
    · obtain rfl := List.mem_singleton.1 hturn
      simp [Turn.Answered, AssistantMessage.requestedCalls, haborted]

theorem transcriptLaw_of_cut {cut : Turn}
    (hmessages : messages = prompts ++ (turns ++ [cut]).flatMap Turn.messages)
    (hanswered : ∀ turn ∈ turns, turn.Answered)
    (hcut : cut.results.map (·.ref) <+: cut.response.requestedCalls) (hs : s.aborted = true)
    (haborted : response.stopReason = .aborted)
    (hreturned : returned = messages ++ [.assistant response])
    (hshows : Shows (shown returned (turns ++ [cut])
      [.turnStart, .turnEnd response [], .agentEnd returned] true) s) :
    TranscriptLaw prompts returned s := by
  have hmarks : Shows (shown returned (turns ++ [cut, ⟨[], response, []⟩]) [.agentEnd returned] true)
      s := by
    refine ⟨hshows.messages, ?_, hshows.openCalls, hshows.aborted⟩
    rw [hshows.marks]
    simp [shown, Turn.marks]
  refine hmarks.transcriptLaw ?_ ?_
  · rw [hreturned, hmessages]
    simp [Turn.messages]
  · exact .inr ⟨hs, turns, cut, _, rfl, hanswered, hcut, rfl, haborted, rfl⟩

theorem openTurn_spec (h : l.turnOpen = l.firstTurn) :
    Spec (Shows (shown l.newMessages turns l.marks aborted)) (openTurn env l) fun l' s =>
      l' = { l with firstTurn := false, turnOpen := true } ∧
        Shows (shown l.newMessages turns [.turnStart] aborted) s := by
  refine .ite (fun hfirst => ?_) fun hfirst => ?_
  · have hopen : l.turnOpen = true := h.trans hfirst
    refine .pure fun s hs => ⟨by rw [hopen], ?_⟩
    rwa [LoopState.marks, if_pos hopen] at hs
  · rw [Bool.not_eq_true] at hfirst
    have hclosed : l.turnOpen = false := h.trans hfirst
    have hmarks : l.marks = [] := by simp [LoopState.marks, hclosed]
    rw [hmarks]
    exact .bind (emit_mark_spec env [] rfl rfl rfl) fun _ => .pure fun s hs => ⟨by rw [hfirst], hs⟩

theorem silent_pushContext (message : AgentMessage) : Silent (pushContext message) :=
  (shows_frame {}).context fun context => { context with messages := context.messages ++ [message] }

theorem injectPending_spec (l : LoopState) (marks : List LoopMark) :
    Spec (Shows (shown l.newMessages turns marks aborted)) (injectPending env l) fun l' s =>
      l' = { l with newMessages := l.newMessages ++ l.pendingMessages } ∧
        Shows (shown (l.newMessages ++ l.pendingMessages) turns marks aborted) s := by
  have hloop := Prog.Triple.forEach (E := fun _ => True)
    (f := fun message => do
      emitMessage env message
      pushContext message)
    (I := fun xs _ => Shows (shown (l.newMessages ++ xs) turns marks aborted))
    (fun xs x rest => by
      rw [← List.append_assoc]
      exact .bind (emitMessage_spec env marks x) fun _ => silent_pushContext x _)
    [] l.pendingMessages
  rw [List.append_nil] at hloop
  exact .bind hloop fun _ => .pure fun s hs => ⟨rfl, hs⟩

/-! ### The response -/

section

variable (marks : List LoopMark)

theorem finishResponse_spec (response : StreamResponse) (addedPartial : Bool) :
    Spec (Shows (shown messages turns marks aborted)) (finishResponse env response addedPartial)
      fun message => Shows (shown (messages ++ [.assistant message]) turns marks aborted) := by
  refine .bind ((shows_frame env).call _ _) fun result => ?_
  refine .bind (silent_pushContext _ _) fun _ => ?_
  refine .bind (((shows_frame env).emit ⟨rfl, rfl, rfl⟩).skipWhen _ _) fun _ => ?_
  refine .bind (emit_spec env rfl _) fun _ => .pure fun s hs => ?_
  exact ⟨hs.messages, hs.marks.trans (List.append_nil _), hs.openCalls, hs.aborted⟩

theorem readResponse_spec (response : StreamResponse) (addedPartial : Bool)
    (events : List AssistantMessageEvent) : Spec (Shows (shown messages turns marks aborted))
      (readResponse env response addedPartial events)
      fun message => Shows (shown (messages ++ [.assistant message]) turns marks aborted) := by
  have hfinish : ∀ addedPartial, Spec (Shows (shown messages turns marks aborted))
      (finishResponse env response addedPartial)
      fun message => Shows (shown (messages ++ [.assistant message]) turns marks aborted) :=
    fun addedPartial => finishResponse_spec env marks response addedPartial
  induction events generalizing addedPartial with
  | nil =>
    unfold readResponse
    cases response.failure with
    | some message => exact .throw fun _ _ => trivial
    | none => exact .bind ((shows_frame env).suspend _) fun _ => hfinish addedPartial
  | cons event rest ih =>
    refine .bind ((shows_frame env).suspend _) fun _ => ?_
    cases event with
    | start opening => exact .bind ((shows_frame env).emit ⟨rfl, rfl, rfl⟩ _) fun _ => ih true
    | update type =>
      exact .bind (((shows_frame env).emit ⟨rfl, rfl, rfl⟩).skipWhen _ _) fun _ => ih addedPartial
    | done | error => exact hfinish addedPartial

theorem streamAssistantResponse_spec :
    Spec (Shows (shown messages turns marks aborted)) (streamAssistantResponse env config)
      fun message => Shows (shown (messages ++ [.assistant message]) turns marks aborted) := by
  refine .bind ((shows_frame env).callIfSet _ _) fun _ => ?_
  refine .bind ((shows_frame env).call _ _) fun _ => ?_
  refine .bind ((shows_frame env).callIfSet _ _) fun _ => ?_
  refine .bind ((shows_frame env).call _ _) fun response => ?_
  exact readResponse_spec env marks response false response.events

theorem runToolCalls_spec (message : AssistantMessage) :
    Spec (Shows (shown messages turns marks aborted)) (runToolCalls env config message)
      fun batch s => ∃ aborted', (aborted = true → aborted' = true) ∧
        batch.messages.map (·.ref) <+: message.requestedCalls ∧
        (aborted' = false → batch.messages.map (·.ref) = message.requestedCalls) ∧
        Shows (shown (messages ++ batch.messages.map .toolResult) turns marks aborted') s := by
  refine .ite (fun h => ?_) fun h => ?_
  · have hcalls : message.requestedCalls = message.toolCalls.map (·.ref) := if_pos h.1
    rw [hcalls]
    refine .bind (executeToolCalls_spec env config message _) fun batch => ?_
    have hpush : Silent (Prog.forEach batch.messages fun result => pushContext (.toolResult result)) :=
      .forEach (fun result => silent_pushContext _) _
    refine .exists fun aborted' => .fact fun hmono => .fact fun hsome => .fact fun hall => ?_
    exact .bind (hpush _) fun _ => .pure fun s hs => ⟨aborted', hmono, hsome, hall, hs⟩
  · have hcalls : message.requestedCalls = [] := by
      unfold AssistantMessage.requestedCalls
      split_ifs with hstop
      · simpa using not_and.1 h hstop
      · rfl
    rw [hcalls]
    refine .pure fun s hs => ⟨aborted, id, List.prefix_rfl, fun _ => rfl, ?_⟩
    simpa using hs

end

/-! ## A pass -/

/-- What a pass leaves: a run that has returned obeys the law, one that goes on is ready. -/
def Passed (prompts : List AgentMessage) (pass : LoopPass) (s : RunState) : Prop :=
  match pass with
  | .returned returned => TranscriptLaw prompts returned s
  | .goesOn l _ => l.firstTurn = false ∧ Ready prompts l s

theorem stopIfAborted_answered
    (hmessages : l.newMessages = prompts ++ turns.flatMap Turn.messages ++ pending)
    (hanswered : ∀ turn ∈ turns, turn.Answered) {m : AgentProg LoopPass}
    (hm : Spec (Shows (shown l.newMessages turns l.marks false)) m (Passed prompts)) :
    Spec (Shows (shown l.newMessages turns l.marks aborted))
      (do
        match ← stopIfAborted env l with
        | some newMessages => return .returned newMessages
        | none => m)
      (Passed prompts) := by
  refine .bind (stopIfAborted_spec env) fun stopped => ?_
  cases stopped with
  | none =>
    refine .fact fun hfalse => ?_
    rwa [hfalse]
  | some returned =>
    refine .pure fun s hs => ?_
    obtain ⟨-, response, haborted, hreturned, hshows⟩ := hs
    exact transcriptLaw_of_aborted hmessages hanswered haborted hreturned hshows

theorem finishTurn_spec (turn : Turn) (hasMoreToolCalls : Bool)
    (hmessages : l.newMessages = prompts ++ (turns ++ [turn]).flatMap Turn.messages)
    (hfirst : l.firstTurn = false) (hanswered : ∀ turn ∈ turns, turn.Answered)
    (hsome : turn.results.map (·.ref) <+: turn.response.requestedCalls)
    (hall : aborted = false → turn.Answered) :
    Spec (Shows (shown l.newMessages turns [.turnStart] aborted))
      (finishTurn env config l turn.response turn.results hasMoreToolCalls) (Passed prompts) := by
  -- the state of the loop and of the turns once the turn is closed
  have hclosed : ∀ s, Shows (shown l.newMessages turns
        ([.turnStart] ++ [.turnEnd turn.response turn.results]) aborted) s →
      Shows (shown l.newMessages (turns ++ [turn]) [] aborted) s := by
    intro s hs
    refine ⟨hs.messages, ?_, hs.openCalls, hs.aborted⟩
    rw [hs.marks]
    simp [shown, Turn.marks]
  refine .bind ((emit_mark_spec env _ rfl rfl rfl).post fun _ => hclosed) fun _ => ?_
  refine .bind (stopIfAborted_spec (l := { l with turnOpen := false }) env) fun stopped => ?_
  have hlast : ∀ turn' ∈ turns ++ [turn], turn.Answered → turn'.Answered := by
    intro turn' hmem hturn
    rcases List.mem_append.1 hmem with hmem | hmem
    · exact hanswered turn' hmem
    · exact List.mem_singleton.1 hmem ▸ hturn
  cases stopped with
  | some returned =>
    refine .pure fun s hs => ?_
    obtain ⟨hs, response, haborted, hreturned, hshows⟩ := hs
    exact transcriptLaw_of_cut hmessages hanswered hsome hs haborted hreturned hshows
  | none =>
    refine .fact fun hfalse => ?_
    subst hfalse
    have hturns : ∀ turn' ∈ turns ++ [turn], turn'.Answered := fun turn' hmem =>
      hlast turn' hmem (hall rfl)
    have hpending : l.newMessages = prompts ++ (turns ++ [turn]).flatMap Turn.messages ++ [] := by
      rw [List.append_nil]
      exact hmessages
    refine .bind ((shows_frame env).callHook _ _ _) fun snapshot => ?_
    refine .bind ((shows_frame env).context
      (fun context => (snapshot.bind AgentLoopTurnUpdate.context).getD context) _) fun _ => ?_
    refine stopIfAborted_answered (l := { l with turnOpen := false }) env hpending hturns ?_
    refine .bind ((shows_frame env).callHook _ _ _) fun stop => .ite (fun _ => ?_) fun _ => ?_
    · refine .bind (emit_mark_spec env _ rfl rfl rfl) fun _ => .pure fun s hs => ?_
      exact hs.transcriptLaw hmessages (.inl hturns)
    · refine .bind ((shows_frame env).callHook _ _ _) fun pendingMessages => ?_
      refine stopIfAborted_answered
        (l := { l with turnOpen := false, pendingMessages := pendingMessages }) env hpending hturns ?_
      refine .pure fun s hs => ⟨hfirst, turns ++ [turn], false, hmessages, hfirst.symm, hturns, hs⟩

theorem answerTurn_spec
    (hmessages : l.newMessages = prompts ++ turns.flatMap Turn.messages ++ pending)
    (hfirst : l.firstTurn = false) (hanswered : ∀ turn ∈ turns, turn.Answered) :
    Spec (Shows (shown l.newMessages turns [.turnStart] aborted)) (answerTurn env config l)
      (Passed prompts) := by
  refine .bind (streamAssistantResponse_spec env config _) fun message => ?_
  refine .ite (fun hstop => ?_) fun hstop => ?_
  · -- the response ends the run, and its calls are not executed
    refine .bind (emit_mark_spec env _ rfl rfl rfl) fun _ => ?_
    refine .bind (emit_mark_spec env _ rfl rfl rfl) fun _ => .pure fun s hs => ?_
    have hmarks : Shows (shown (l.newMessages ++ [.assistant message])
        (turns ++ [⟨pending, message, []⟩]) [.agentEnd (l.newMessages ++ [.assistant message])]
        aborted) s := by
      refine ⟨hs.messages, ?_, hs.openCalls, hs.aborted⟩
      rw [hs.marks]
      simp [shown, Turn.marks]
    refine hmarks.transcriptLaw ?_ (.inl fun turn hturn => ?_)
    · rw [hmessages]
      simp [Turn.messages]
    · rcases List.mem_append.1 hturn with hturn | hturn
      · exact hanswered turn hturn
      · obtain rfl := List.mem_singleton.1 hturn
        rcases hstop with hstop | hstop <;>
          simp [Turn.Answered, AssistantMessage.requestedCalls, hstop]
  · refine .bind (runToolCalls_spec env config _ message) fun batch => .exists fun aborted' => ?_
    refine .fact fun _ => .fact fun hsome => .fact fun hall => ?_
    refine finishTurn_spec env config ⟨pending, message, batch.messages⟩
      (l := { l with newMessages := l.newMessages ++ [.assistant message] ++
        batch.messages.map AgentMessage.toolResult }) _ ?_ hfirst hanswered hsome hall
    simp [hmessages, Turn.messages]

theorem runTurn_spec : Spec (Ready prompts l) (runTurn env config l) (Passed prompts) := by
  refine .exists fun turns => .exists fun aborted => .fact fun hmessages => ?_
  refine .fact fun hopen => .fact fun hanswered => ?_
  have hpending : l.newMessages = prompts ++ turns.flatMap Turn.messages ++ [] := by
    rw [List.append_nil]
    exact hmessages
  refine stopIfAborted_answered env hpending hanswered ?_
  refine .bind (openTurn_spec env hopen) fun opened => .fact fun hopened => ?_
  subst hopened
  refine .bind (injectPending_spec env { l with firstTurn := false, turnOpen := true } _) fun injected => .fact fun hinjected => ?_
  subst hinjected
  have hinjected : l.newMessages ++ l.pendingMessages =
      prompts ++ turns.flatMap Turn.messages ++ l.pendingMessages := by
    rw [hmessages]
  exact stopIfAborted_answered env (l := { l with
      newMessages := l.newMessages ++ l.pendingMessages, firstTurn := false, turnOpen := true })
    hinjected hanswered (answerTurn_spec env config hinjected rfl hanswered)

/-! ## The run -/

/-- **The loop.** A turn is open only before the first pass, and then there is a first pass. -/
theorem runLoop_spec (fuel : Nat) (hasMoreToolCalls : Bool)
    (h : hasMoreToolCalls = false → l.firstTurn = false) :
    Spec (Ready prompts l) (runLoop env config fuel hasMoreToolCalls l) (TranscriptLaw prompts) := by
  induction fuel generalizing hasMoreToolCalls l with
  | zero => exact .throw fun _ _ => trivial
  | succ fuel ih =>
    refine .ite (fun _ => ?_) fun hdone => ?_
    · refine .bind (runTurn_spec env config) fun pass => ?_
      cases pass with
      | returned returned => exact .pure fun s hs => hs
      | goesOn next hasMoreToolCalls => exact .fact fun hfirst => ih _ fun _ => hfirst
    · have hfirst : l.firstTurn = false := h (by simpa using (not_or.1 hdone).1)
      refine .exists fun turns => .exists fun aborted => .fact fun hmessages => ?_
      refine .fact fun hopen => .fact fun hanswered => ?_
      have hclosed : l.turnOpen = false := hopen.trans hfirst
      have hmarks : l.marks = [] := by simp [LoopState.marks, hclosed]
      refine .bind ((shows_frame env).callHook _ _ _) fun followUpMessages => ?_
      cases followUpMessages with
      | nil =>
        rw [hmarks]
        refine .bind (emit_mark_spec env _ rfl rfl rfl) fun _ => .pure fun s hs => ?_
        exact hs.transcriptLaw hmessages (.inl hanswered)
      | cons message rest =>
        refine (ih (l := { l with pendingMessages := message :: rest }) true nofun).pre fun s hs => ?_
        exact ⟨turns, aborted, hmessages, hopen, hanswered, hs⟩

theorem startLoop_spec (fuel : Nat) (prompts : List AgentMessage) (aborted : Bool) :
    Spec (Shows (shown [] [] [] aborted)) (startLoop env config fuel prompts)
      (TranscriptLaw prompts) := by
  refine .bind ((shows_frame env).emit ⟨rfl, rfl, rfl⟩ _) fun _ => ?_
  refine .bind (emit_mark_spec env [] rfl rfl rfl) fun _ => ?_
  have hloop := Prog.Triple.forEach (E := fun _ => True) (f := emitMessage env)
    (I := fun xs _ => Shows (shown xs [] [.turnStart] aborted))
    (fun xs x rest => emitMessage_spec env [.turnStart] x) [] prompts
  refine .bind hloop fun _ => ?_
  refine .bind ((shows_frame env).callHook _ _ _) fun pendingMessages => ?_
  refine (runLoop_spec env config fuel true nofun).pre fun s hs => ?_
  exact ⟨[], aborted, (List.append_nil _).symm, rfl, fun _ h => (nomatch h), hs⟩

/-- **The transcript law.** -/
theorem transcript_law (fuel : Nat) (prompts messages : List AgentMessage) (context : AgentContext)
    (aborted : Bool) (s : RunState)
    (h : runAgentLoop env config fuel prompts (.initial context aborted) = (.ok messages, s) ∨
      prompts = [] ∧
        runAgentLoopContinue env config fuel (.initial context aborted) = (.ok messages, s)) :
    TranscriptLaw prompts messages s := by
  have hinitial : Shows (shown [] [] [] aborted) (.initial context aborted) := ⟨rfl, rfl, .nil, id⟩
  rcases h with h | ⟨rfl, h⟩
  · have hpush : Silent (Prog.forEach prompts pushContext) := .forEach silent_pushContext _
    have hrun : Spec (Shows (shown [] [] [] aborted)) (runAgentLoop env config fuel prompts)
        (TranscriptLaw prompts) :=
      .bind (hpush _) fun _ => startLoop_spec env config fuel prompts aborted
    exact hrun.ok hinitial h
  · have hrun : Spec (Shows (shown [] [] [] aborted)) (runAgentLoopContinue env config fuel)
        (TranscriptLaw []) := by
      refine .bind .get fun t => ?_
      have hstart := startLoop_spec env config fuel [] aborted
      cases t.context.messages.getLast? with
      | none => exact .throw fun _ _ => trivial
      | some message =>
        cases message with
        | assistant message => exact .throw fun _ _ => trivial
        | toolResult | other => exact hstart.pre fun s hs => hs.2
    exact hrun.ok hinitial h

/-- A provider that asks for two calls first, and then answers. -/
def answeringConfig : AgentLoopConfig where
  convertToLlm _ := .ok (.arr [])
  streamFunction n := .ok
    { events := [.start twoCalls, .done]
      result := .ok (if n ≤ 10 then twoCalls else ⟨[.text "done"], .stop, none⟩) }

/-- A prompt, a response with two calls, their results, and the answer. -/
theorem transcript_law_two_calls : ∃ messages s,
    runAgentLoop {} answeringConfig 3 [.other "user" (.str "hello")] twoTools = (.ok messages, s) ∧
      messages.length = 5 ∧ TranscriptLaw [.other "user" (.str "hello")] messages s := by
  have hrun : (match runAgentLoop {} answeringConfig 3 [.other "user" (.str "hello")] twoTools with
      | (.ok messages, _) => decide (messages.length = 5)
      | (.error _, _) => false) = true := by
    decide +kernel
  generalize hresult : runAgentLoop {} answeringConfig 3 [.other "user" (.str "hello")] twoTools = r
    at hrun
  obtain ⟨messages | messages, s⟩ := r
  · cases hrun
  · exact ⟨messages, s, rfl, of_decide_eq_true hrun,
      transcript_law {} answeringConfig 3 _ messages _ false s (.inl hresult)⟩

end OpenClaw.AgentCore
