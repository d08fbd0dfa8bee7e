import Mathlib.Algebra.Order.Group.Multiset
import OpenClaw.AgentCore.Frame

/-!
# The results of a batch of tool calls

`Summary` is what the transcript law reads of a run's log: the finished messages, the turn events,
the tool calls that have started and not ended, and whether the signal is known to be aborted. Each
function of the loop has one triple over it.

**Theorem (`executeToolCalls_spec`).** A batch that returns has ended every tool call it started,
and has finished one result message for each call, in call order; if the signal is aborted it may
have stopped after some of them.

It does not matter which of the running calls goes on: `advanceAt` keeps the order of the calls, and
takes the calls that end out of those that are open.
-/

namespace OpenClaw.AgentCore

/-! ## What is read of a log -/

/-- `turn_start`, `turn_end` and `agent_end`. -/
inductive LoopMark
  | turnStart
  | turnEnd (message : AssistantMessage) (toolResults : List ToolResultMessage)
  | agentEnd (messages : List AgentMessage)

/-- `tool_execution_start` and `tool_execution_end`. -/
inductive ToolMark
  | started (ref : CallRef)
  | ended (ref : CallRef)

def Entry.messageEnd : Entry → Option AgentMessage
  | .event (.messageEnd message) => some message
  | _ => none

def Entry.loopMark : Entry → Option LoopMark
  | .event .turnStart => some .turnStart
  | .event (.turnEnd message toolResults) => some (.turnEnd message toolResults)
  | .event (.agentEnd messages) => some (.agentEnd messages)
  | _ => none

def Entry.toolMark : Entry → Option ToolMark
  | .event (.toolExecutionStart ref ..) => some (.started ref)
  | .event (.toolExecutionEnd ref ..) => some (.ended ref)
  | _ => none

/-- Every end is that of a call that was open, and the calls in the multiset still are. -/
inductive OpenCalls : List ToolMark → Multiset CallRef → Prop
  | nil : OpenCalls [] 0
  | start {marks : List ToolMark} {calls : Multiset CallRef} (ref : CallRef) :
    OpenCalls marks calls → OpenCalls (marks ++ [.started ref]) (ref ::ₘ calls)
  | finish {marks : List ToolMark} {calls : Multiset CallRef} (ref : CallRef) :
    OpenCalls marks (ref ::ₘ calls) → OpenCalls (marks ++ [.ended ref]) calls

/-- What is known of a run. -/
structure Summary where
  messages : List AgentMessage
  marks : List LoopMark
  openCalls : Multiset CallRef
  aborted : Bool

/-- The log of a state is summarized. -/
structure Shows (S : Summary) (s : RunState) : Prop where
  messages : s.log.filterMap Entry.messageEnd = S.messages
  marks : s.log.filterMap Entry.loopMark = S.marks
  openCalls : OpenCalls (s.log.filterMap Entry.toolMark) S.openCalls
  aborted : S.aborted = true → s.aborted = true

/-- The entries a summary does not look at. -/
def Entry.Unread (entry : Entry) : Prop :=
  entry.messageEnd = none ∧ entry.loopMark = none ∧ entry.toolMark = none

variable {α β : Type} {S : Summary} {s : RunState}

/-- Triples over a summary that do not say how a run stops without a value. -/
abbrev Spec (P : RunState → Prop) (m : AgentProg α) (Q : α → RunState → Prop) : Prop :=
  Prog.Triple P m Q fun _ => True

/-- Programs that change nothing a summary reads. -/
abbrev Silent (m : AgentProg α) : Prop := Prog.Keeps Shows (fun _ _ => True) m

theorem Shows.append_log (hs : Shows S s) (entry : Entry) (h : entry.Unread) :
    Shows S { s with log := s.log ++ [entry] } where
  messages := by
    rw [List.filterMap_append, hs.messages, List.filterMap_cons_none h.1, List.filterMap_nil,
      List.append_nil]
  marks := by
    rw [List.filterMap_append, hs.marks, List.filterMap_cons_none h.2.1, List.filterMap_nil,
      List.append_nil]
  openCalls := by
    rw [List.filterMap_append, List.filterMap_cons_none h.2.2, List.filterMap_nil, List.append_nil]
    exact hs.openCalls
  aborted := hs.aborted

theorem shows_frame (env : Env) : Frame env Shows (fun _ _ => True) Entry.Unread where
  suspend S := by
    refine .modify fun s hs => ?_
    split_ifs with h
    · have hlogged := hs.append_log .aborted ⟨rfl, rfl, rfl⟩
      exact ⟨hlogged.messages, hlogged.marks, hlogged.openCalls, fun _ => rfl⟩
    · exact ⟨hs.messages, hs.marks, hs.openCalls, hs.aborted⟩
  record entry h S := .modify fun s hs => hs.append_log entry h
  context f S := .modify fun s hs => ⟨hs.messages, hs.marks, hs.openCalls, hs.aborted⟩
  stop _ _ _ := trivial

/-! ## The events -/

variable (env : Env) (config : AgentLoopConfig)

def Summary.add (S : Summary) (e : AgentEvent) : Summary :=
  { S with
    messages := S.messages ++ (Entry.messageEnd (.event e)).toList
    marks := S.marks ++ (Entry.loopMark (.event e)).toList }

theorem filterMap_concat {γ : Type} (f : Entry → Option γ) (log : List Entry) (entry : Entry) :
    (log ++ [entry]).filterMap f = log.filterMap f ++ (f entry).toList := by
  cases h : f entry <;> simp [h]

theorem emit_spec {e : AgentEvent} (htool : Entry.toolMark (.event e) = none) (S : Summary) :
    Spec (Shows S) (emit env e) fun _ => Shows (S.add e) := by
  refine .bind (R := fun _ => Shows (S.add e)) ?_ fun _ => (shows_frame env).call _ _
  refine .modify fun s hs => ⟨?_, ?_, ?_, hs.aborted⟩
  · rw [filterMap_concat, hs.messages]
    rfl
  · rw [filterMap_concat, hs.marks]
    rfl
  · rw [filterMap_concat, htool, Option.toList_none, List.append_nil]
    exact hs.openCalls

theorem emit_start_spec (ref : CallRef) (args : Json) (hide : Bool) (S : Summary) :
    Spec (Shows S) (emit env (.toolExecutionStart ref args hide))
      fun _ => Shows { S with openCalls := ref ::ₘ S.openCalls } := by
  refine .bind (R := fun _ => Shows { S with openCalls := ref ::ₘ S.openCalls }) ?_
    fun _ => (shows_frame env).call _ _
  refine .modify fun s hs => ⟨?_, ?_, ?_, hs.aborted⟩
  · rw [filterMap_concat, hs.messages]
    exact List.append_nil _
  · rw [filterMap_concat, hs.marks]
    exact List.append_nil _
  · rw [filterMap_concat]
    exact hs.openCalls.start ref

theorem emitToolExecutionEnd_spec (outcome : FinalizedToolCallOutcome) (S : Summary)
    (calls : Multiset CallRef) :
    Spec (Shows { S with openCalls := outcome.toolCall.ref ::ₘ calls })
      (emitToolExecutionEnd env outcome) fun _ => Shows { S with openCalls := calls } := by
  refine .bind (R := fun _ => Shows { S with openCalls := calls }) ?_
    fun _ => (shows_frame env).call _ _
  refine .modify fun s hs => ⟨?_, ?_, ?_, hs.aborted⟩
  · rw [filterMap_concat, hs.messages]
    exact List.append_nil _
  · rw [filterMap_concat, hs.marks]
    exact List.append_nil _
  · rw [filterMap_concat]
    exact hs.openCalls.finish outcome.toolCall.ref

theorem emitToolResultMessage_spec (message : ToolResultMessage) (S : Summary) :
    Spec (Shows S) (emitToolResultMessage env message)
      fun _ => Shows { S with messages := S.messages ++ [.toolResult message] } := by
  refine .bind ((shows_frame env).emit ⟨rfl, rfl, rfl⟩ S) fun _ => ?_
  refine (emit_spec env rfl S).post fun _ s hs => ?_
  exact ⟨hs.messages, hs.marks.trans (List.append_nil _), hs.openCalls, hs.aborted⟩

theorem signalAborted_spec (S : Summary) :
    Spec (Shows S) signalAborted fun aborted s =>
      (S.aborted = true → aborted = true) ∧ Shows { S with aborted := aborted } s := by
  refine .bind .get fun s => .pure fun t ht => ?_
  obtain ⟨rfl, hs⟩ := ht
  exact ⟨hs.aborted, hs.messages, hs.marks, hs.openCalls, id⟩

/-! ## Preparing -/

def Prepared (toolCall : AgentToolCall) (preparation : PreparedToolCall ⊕ α) : Prop :=
  ∀ prepared, preparation = .inl prepared → prepared.toolCall = toolCall

theorem prepared_immediateError (toolCall : AgentToolCall) (message : String)
    (errorKind : Option String) : Prepared toolCall (immediateError message errorKind) :=
  fun _ h => nomatch h

theorem passChecks_spec (prepared : PreparedToolCall) :
    Silent (passChecks prepared) ∧
      Prog.Returns (passChecks prepared) (Prepared prepared.toolCall) := by
  constructor
  · refine keeps_signalAborted.bind fun aborted => .ite (.pure _) ?_
    exact ((shows_frame {}).record _ ⟨rfl, rfl, rfl⟩).bind fun _ => .pure _
  · refine .after fun aborted => .ite (.pure (prepared_immediateError _ _ _)) (.after fun _ => ?_)
    refine .pure fun prepared' h => ?_
    cases h
    rfl

theorem runBeforeToolCall_spec (prepared : PreparedToolCall) :
    Silent (runBeforeToolCall env config prepared) ∧
      Prog.Returns (runBeforeToolCall env config prepared) (Prepared prepared.toolCall) := by
  have hchecks := passChecks_spec prepared
  unfold runBeforeToolCall
  cases config.beforeToolCall with
  | none => exact hchecks
  | some beforeToolCall =>
    constructor
    · refine ((shows_frame env).attempt beforeToolCall).bind fun result => ?_
      cases result with
      | error error => exact .pure _
      | ok beforeResult =>
        refine keeps_signalAborted.bind fun aborted => .ite (.pure _) ?_
        rcases beforeResult with _ | ⟨_ | _, reason⟩
        · exact hchecks.1
        · exact hchecks.1
        · exact .pure _
    · refine .after fun result => ?_
      cases result with
      | error error => exact .pure (prepared_immediateError _ _ _)
      | ok beforeResult =>
        refine .after fun aborted => .ite (.pure (prepared_immediateError _ _ _)) ?_
        rcases beforeResult with _ | ⟨_ | _, reason⟩
        · exact hchecks.2
        · exact hchecks.2
        · exact .pure (prepared_immediateError _ _ _)

theorem prepareResolved_spec (toolCall : AgentToolCall) (resolution : ResolvedToolCallOutcome) :
    Silent (prepareResolved env config toolCall resolution) ∧
      Prog.Returns (prepareResolved env config toolCall resolution) (Prepared toolCall) := by
  have himmediate := prepared_immediateError toolCall
  cases resolution with
  | error error =>
    exact ⟨keeps_signalAborted.bind fun _ => .pure _, .after fun _ => .pure (himmediate _ _)⟩
  | ok tool =>
    cases tool with
    | none => exact ⟨.pure _, .pure (himmediate _ _)⟩
    | some tool =>
      unfold prepareResolved
      dsimp only
      cases (tool.prepareArguments.getD .ok) toolCall.arguments with
      | error error => exact ⟨.pure _, .pure (himmediate _ _)⟩
      | ok arguments =>
        dsimp only
        cases tool.validateArguments arguments with
        | error error => exact ⟨.pure _, .pure (himmediate _ _)⟩
        | ok args => exact runBeforeToolCall_spec env config ⟨toolCall, tool, args⟩

theorem prepareToolCall_spec (resolvedToolCalls : ResolvedToolCalls) (index : Nat)
    (toolCall : AgentToolCall) :
    Silent (prepareToolCall env config resolvedToolCalls index toolCall) ∧
      Prog.Returns (prepareToolCall env config resolvedToolCalls index toolCall)
        fun r => Prepared toolCall r.1 := by
  constructor
  · refine ((shows_frame env).resolveToolCallTool config _ _ _).bind fun ⟨resolution, resolved⟩ => ?_
    refine (shows_frame env).suspend.bind fun _ => ?_
    refine (prepareResolved_spec env config toolCall resolution).1.bind fun preparation => ?_
    exact (shows_frame env).suspend.bind fun _ => .pure _
  · refine .after fun ⟨resolution, resolved⟩ => .after fun _ => ?_
    refine (prepareResolved_spec env config toolCall resolution).2.bind fun preparation h => ?_
    exact .after fun _ => .pure h

def entryRef : FinalizedToolCallEntry → CallRef
  | .inl prepared => prepared.toolCall.ref
  | .inr finalized => finalized.toolCall.ref

theorem startToolCall_spec (resolvedToolCalls : ResolvedToolCalls) (index : Nat)
    (toolCall : AgentToolCall) (S : Summary) :
    Spec (Shows S) (startToolCall env config resolvedToolCalls index toolCall)
      fun r s => entryRef r.1 = toolCall.ref ∧
        Shows { S with openCalls := toolCall.ref ::ₘ S.openCalls } s := by
  have hprepare := prepareToolCall_spec env config resolvedToolCalls index toolCall
  have hhide : Silent (hidesToolCallFromChannelProgress resolvedToolCalls index toolCall) :=
    keeps_hidesToolCallFromChannelProgress _ _ _
  refine .bind (hhide S) fun hide => ?_
  refine .bind (emit_start_spec env toolCall.ref toolCall.arguments hide S) fun _ => ?_
  refine .bind ((hprepare.1 _).returns hprepare.2) fun ⟨preparation, resolved⟩ => ?_
  refine .fact fun hprepared => .pure fun s hs => ⟨?_, hs⟩
  cases preparation with
  | inl prepared => exact congrArg AgentToolCall.ref (hprepared prepared rfl)
  | inr outcome => rfl

/-! ## Executing -/

def RunningCall.ref : RunningCall → CallRef
  | .executing prepared .. | .executed prepared .. => prepared.toolCall.ref
  | .finalized outcome | .settled outcome => outcome.toolCall.ref

/-- The call is open until it is settled. -/
def RunningCall.openCalls : RunningCall → Multiset CallRef
  | .settled _ => 0
  | running => {running.ref}

theorem executePreparedToolCall_spec (prepared : PreparedToolCall) (S : Summary) :
    Spec (Shows S) (executePreparedToolCall env prepared) fun running s =>
      (running.ref = prepared.toolCall.ref ∧ running.openCalls = {prepared.toolCall.ref}) ∧
        Shows S s := by
  have hsilent : Silent (executePreparedToolCall env prepared) := by
    refine Prog.Keeps.get.bind fun s => ?_
    refine ((shows_frame env).record _ ⟨rfl, rfl, rfl⟩).bind fun _ => ?_
    refine (shows_frame env).suspend.bind fun _ => ?_
    exact ((shows_frame env).emitUpdates (fun _ _ _ _ => ⟨rfl, rfl, rfl⟩) _ _ _).bind fun _ => .pure _
  refine (hsilent S).returns (.after fun s => .after fun _ => .after fun _ => .after fun _ => ?_)
  exact .pure ⟨rfl, rfl⟩

theorem finalizeExecutedToolCall_spec (prepared : PreparedToolCall) (result : AgentToolResult)
    (isError : Bool) (S : Summary) :
    Spec (Shows S) (finalizeExecutedToolCall env config prepared result isError) fun outcome s =>
      outcome.toolCall.ref = prepared.toolCall.ref ∧ Shows S s := by
  refine ((shows_frame env).finalizeExecutedToolCall config prepared result isError S).returns ?_
  unfold finalizeExecutedToolCall
  cases config.afterToolCall with
  | none => exact .pure rfl
  | some afterToolCall =>
    refine .after fun result => ?_
    cases result with
    | error error => exact .pure rfl
    | ok after => cases after <;> exact .pure rfl

theorem advance_spec (running : RunningCall) (S : Summary) (others : Multiset CallRef) :
    Spec (Shows { S with openCalls := running.openCalls + others }) (running.advance env config)
      fun next s => next.ref = running.ref ∧
        Shows { S with openCalls := next.openCalls + others } s := by
  cases running with
  | executing prepared updates failed result =>
    cases updates with
    | nil =>
      refine .bind ((shows_frame env).suspend _) fun _ => ?_
      cases failed with
      | some message => exact .throw fun _ _ => trivial
      | none => cases result <;> exact .pure fun s hs => ⟨rfl, hs⟩
    | cons update rest =>
      exact .bind ((shows_frame env).emitUpdate (fun _ _ _ _ => ⟨rfl, rfl, rfl⟩) prepared update _)
        fun _ => .pure fun s hs => ⟨rfl, hs⟩
  | executed prepared result isError =>
    refine .bind (finalizeExecutedToolCall_spec env config prepared result isError _)
      fun outcome => .fact fun href => .pure fun s hs => ⟨href, ?_⟩
    have hopen : (RunningCall.finalized outcome).openCalls =
        (RunningCall.executed prepared result isError).openCalls :=
      congrArg (fun ref => ({ref} : Multiset CallRef)) href
    rwa [hopen]
  | finalized outcome =>
    refine .bind (emitToolExecutionEnd_spec env outcome S others) fun _ => .pure fun s hs => ⟨rfl, ?_⟩
    exact (zero_add others).symm ▸ hs
  | settled outcome => exact .pure fun s hs => ⟨rfl, hs⟩

theorem finish_spec (n : Nat) (running : RunningCall) (S : Summary) (others : Multiset CallRef) :
    Spec (Shows { S with openCalls := running.openCalls + others }) (running.finish env config n)
      fun outcome s => outcome.toolCall.ref = running.ref ∧ Shows { S with openCalls := others } s := by
  have hsettled : ∀ outcome : FinalizedToolCallOutcome, ∀ s,
      Shows { S with openCalls := (RunningCall.settled outcome).openCalls + others } s →
      Shows { S with openCalls := others } s := fun _ s hs => by
    rwa [RunningCall.openCalls, zero_add] at hs
  induction n generalizing running with
  | zero =>
    cases running with
    | settled outcome => exact .pure fun s hs => ⟨rfl, hsettled outcome s hs⟩
    | executing | executed | finalized => exact .throw fun _ _ => trivial
  | succ n ih =>
    have hnext : Spec (Shows { S with openCalls := running.openCalls + others })
        (do
          let running ← running.advance env config
          running.finish env config n)
        fun outcome s => outcome.toolCall.ref = running.ref ∧
          Shows { S with openCalls := others } s := by
      refine .bind (advance_spec env config running S others) fun next => .fact fun href => ?_
      exact (ih next).post fun outcome s hs => ⟨hs.1.trans href, hs.2⟩
    cases running with
    | settled outcome => exact .pure fun s hs => ⟨rfl, hsettled outcome s hs⟩
    | executing | executed | finalized => exact hnext

/-! ## Batches -/

/-- The batch has finished a message for each of its results. They answer the calls in order, all of
them unless the signal is aborted. -/
def Answers (S : Summary) (calls : List CallRef) (results : List ToolResultMessage) (s : RunState) :
    Prop :=
  ∃ aborted, (S.aborted = true → aborted = true) ∧ results.map (·.ref) <+: calls ∧
    (aborted = false → results.map (·.ref) = calls) ∧
    Shows { S with messages := S.messages ++ results.map .toolResult, aborted := aborted } s

theorem finishToolCall_spec (entry : FinalizedToolCallEntry) (S : Summary)
    (others : Multiset CallRef) :
    Spec (Shows { S with openCalls := entryRef entry ::ₘ others }) (finishToolCall env config entry)
      fun outcome s => outcome.toolCall.ref = entryRef entry ∧
        Shows { S with openCalls := others } s := by
  cases entry with
  | inr outcome =>
    exact .bind (emitToolExecutionEnd_spec env outcome S others) fun _ => .pure fun s hs => ⟨rfl, hs⟩
  | inl prepared =>
    refine .bind (executePreparedToolCall_spec env prepared _) fun running => .fact fun hrunning => ?_
    obtain ⟨href, hopen⟩ := hrunning
    have hfinish := finish_spec env config running.remaining running S others
    rw [hopen, Multiset.singleton_add, href] at hfinish
    exact hfinish

theorem executeSequentially_spec (resolvedToolCalls : ResolvedToolCalls) (index : Nat)
    (toolCalls : List AgentToolCall) (finalizedCalls : List FinalizedToolCallOutcome) (S : Summary) :
    Spec (Shows { S with messages := S.messages ++
        (finalizedCalls.map createToolResultMessage).map .toolResult })
      (executeSequentially env config resolvedToolCalls index toolCalls finalizedCalls)
      fun outcomes => Answers S (finalizedCalls.map (·.toolCall.ref) ++ toolCalls.map (·.ref))
        (outcomes.map createToolResultMessage) := by
  induction toolCalls generalizing resolvedToolCalls index finalizedCalls S with
  | nil =>
    refine .pure fun s hs => ⟨S.aborted, id, ?_, fun _ => ?_, hs⟩
    · simp [Function.comp_def, createToolResultMessage]
    · simp [Function.comp_def, createToolResultMessage]
  | cons toolCall rest ih =>
    refine .bind (startToolCall_spec env config _ _ _ _) fun ⟨entry, resolved⟩ => .fact fun href => ?_
    rw [← href]
    refine .bind (finishToolCall_spec env config entry _ _) fun outcome => .fact fun houtcome => ?_
    refine .bind (emitToolResultMessage_spec env _ _) fun _ => ?_
    refine .bind (signalAborted_spec _) fun aborted => .fact fun hmono => ?_
    have hcalls : (finalizedCalls ++ [outcome]).map (·.toolCall.ref) ++ rest.map (·.ref) =
        finalizedCalls.map (·.toolCall.ref) ++ (toolCall :: rest).map (·.ref) := by
      simp [houtcome, href]
    have hmessages : ∀ base : List AgentMessage,
        base ++ (finalizedCalls.map createToolResultMessage).map .toolResult ++
            [.toolResult (createToolResultMessage outcome)] =
          base ++ ((finalizedCalls ++ [outcome]).map createToolResultMessage).map .toolResult := by
      simp
    rw [hmessages]
    refine .ite (fun haborted => ?_) fun haborted => ?_
    · -- the batch stops: the calls so far are a prefix
      refine .pure fun s hs => ⟨aborted, hmono, ?_, fun h => absurd haborted (by simp [h]), hs⟩
      rw [← hcalls]
      simp [Function.comp_def, createToolResultMessage]
    · have hfalse : S.aborted = false := by
        rw [Bool.eq_false_iff]
        exact fun h => haborted (hmono h)
      have h := ih resolved (index + 1) (finalizedCalls ++ [outcome]) S
      rw [hcalls] at h
      refine h.pre fun s hs => ?_
      rw [Bool.not_eq_true] at haborted
      rw [haborted, ← hfalse] at hs
      exact hs

/-! ### The parallel batch -/

/-- The calls that are still to be executed. -/
def entryOpenCalls : FinalizedToolCallEntry → Multiset CallRef
  | .inl prepared => {prepared.toolCall.ref}
  | .inr _ => 0

def openEntries (entries : List FinalizedToolCallEntry) : Multiset CallRef :=
  (entries.map entryOpenCalls).sum

theorem endImmediate_spec (entry : FinalizedToolCallEntry) (S : Summary)
    (others : Multiset CallRef) :
    Spec (Shows { S with openCalls := entryRef entry ::ₘ others }) (endImmediate env entry)
      fun _ => Shows { S with openCalls := entryOpenCalls entry + others } := by
  cases entry with
  | inl prepared =>
    refine .pure fun s hs => ?_
    exact hs
  | inr outcome =>
    rw [entryOpenCalls, zero_add]
    exact emitToolExecutionEnd_spec env outcome S others

/-- The calls have entries, in order, all of them unless the signal is aborted. -/
def Enters (S : Summary) (others : Multiset CallRef) (calls : List CallRef)
    (entries : List FinalizedToolCallEntry) (s : RunState) : Prop :=
  ∃ aborted, (S.aborted = true → aborted = true) ∧ entries.map entryRef <+: calls ∧
    (aborted = false → entries.map entryRef = calls) ∧
    Shows { S with openCalls := openEntries entries + others, aborted := aborted } s

theorem prepareInParallel_spec (resolvedToolCalls : ResolvedToolCalls) (index : Nat)
    (toolCalls : List AgentToolCall) (entries : List FinalizedToolCallEntry) (S : Summary)
    (others : Multiset CallRef) :
    Spec (Shows { S with openCalls := openEntries entries + others })
      (prepareInParallel env config resolvedToolCalls index toolCalls entries)
      (Enters S others (entries.map entryRef ++ toolCalls.map (·.ref))) := by
  induction toolCalls generalizing resolvedToolCalls index entries S with
  | nil =>
    refine .pure fun s hs => ⟨S.aborted, id, ?_, fun _ => ?_, hs⟩
    · simp
    · simp
  | cons toolCall rest ih =>
    refine .bind (startToolCall_spec env config _ _ _ _) fun ⟨entry, resolved⟩ => .fact fun href => ?_
    rw [← href]
    refine .bind (endImmediate_spec env entry _ _) fun _ => ?_
    refine .bind (signalAborted_spec _) fun aborted => .fact fun hmono => ?_
    have hcalls : (entries ++ [entry]).map entryRef ++ rest.map (·.ref) =
        entries.map entryRef ++ (toolCall :: rest).map (·.ref) := by
      simp [href]
    have hopen : entryOpenCalls entry + (openEntries entries + others) =
        openEntries (entries ++ [entry]) + others := by
      simp only [openEntries, List.map_append, List.map_cons, List.map_nil, List.sum_append,
        List.sum_cons, List.sum_nil]
      rw [add_zero, ← add_assoc, add_comm (entryOpenCalls entry)]
    rw [hopen]
    refine .ite (fun haborted => ?_) fun haborted => ?_
    · refine .pure fun s hs => ⟨aborted, hmono, ?_, fun h => absurd haborted (by simp [h]), hs⟩
      rw [← hcalls]
      exact List.prefix_append _ _
    · have hfalse : S.aborted = false := by
        rw [Bool.eq_false_iff]
        exact fun h => haborted (hmono h)
      have h := ih resolved (index + 1) (entries ++ [entry]) S
      rw [hcalls] at h
      refine h.pre fun s hs => ?_
      rw [Bool.not_eq_true] at haborted
      rw [haborted, ← hfalse] at hs
      exact hs

def openRunning (calls : List RunningCall) : Multiset CallRef :=
  (calls.map RunningCall.openCalls).sum

theorem startEntries_spec (entries : List FinalizedToolCallEntry) (S : Summary)
    (others : Multiset CallRef) :
    Spec (Shows { S with openCalls := openEntries entries + others }) (startEntries env entries)
      fun calls s => calls.map RunningCall.ref = entries.map entryRef ∧
        Shows { S with openCalls := openRunning calls + others } s := by
  induction entries generalizing others with
  | nil => exact .pure fun s hs => ⟨rfl, hs⟩
  | cons entry rest ih =>
    cases entry with
    | inr outcome =>
      have hopen : openEntries (.inr outcome :: rest) = openEntries rest := by
        simp [openEntries, entryOpenCalls]
      rw [hopen]
      refine .bind (ih others) fun calls => .fact fun href => .pure fun s hs => ⟨?_, ?_⟩
      · rw [List.map_cons, List.map_cons, href]
        rfl
      · have hcalls : openRunning (.settled outcome :: calls) = openRunning calls := by
          simp [openRunning, RunningCall.openCalls]
        rwa [hcalls]
    | inl prepared =>
      have hopen : openEntries (.inl prepared :: rest) + others =
          openEntries rest + ({prepared.toolCall.ref} + others) := by
        simp only [openEntries, List.map_cons, List.sum_cons, entryOpenCalls]
        rw [add_assoc, add_left_comm]
      rw [hopen]
      refine .bind (executePreparedToolCall_spec env prepared _) fun running => ?_
      refine .fact fun hrunning => .bind (ih _) fun calls => .fact fun href => ?_
      refine .pure fun s hs => ⟨?_, ?_⟩
      · rw [List.map_cons, List.map_cons, href, hrunning.1]
        rfl
      · have hcalls : openRunning (running :: calls) + others =
            openRunning calls + ({prepared.toolCall.ref} + others) := by
          simp only [openRunning, List.map_cons, List.sum_cons, hrunning.2]
          rw [add_assoc, add_left_comm]
        rwa [hcalls]

/-- **Whichever call goes on, the calls keep their order.** -/
theorem advanceAt_spec (n : Nat) (calls : List RunningCall) (S : Summary)
    (others : Multiset CallRef) :
    Spec (Shows { S with openCalls := openRunning calls + others }) (advanceAt env config n calls)
      fun next s => next.map RunningCall.ref = calls.map RunningCall.ref ∧
        Shows { S with openCalls := openRunning next + others } s := by
  induction calls generalizing n others with
  | nil => cases n <;> exact .pure fun s hs => ⟨rfl, hs⟩
  | cons running rest ih =>
    have hsplit : ∀ (running : RunningCall) (rest : List RunningCall),
        openRunning (running :: rest) + others =
          openRunning rest + (running.openCalls + others) := by
      intro running rest
      simp only [openRunning, List.map_cons, List.sum_cons]
      rw [add_assoc, add_left_comm]
    -- another call goes on
    have hlater : ∀ k, Spec (Shows { S with openCalls := openRunning (running :: rest) + others })
        (do
          let rest ← advanceAt env config k rest
          return running :: rest)
        fun next s => next.map RunningCall.ref = (running :: rest).map RunningCall.ref ∧
          Shows { S with openCalls := openRunning next + others } s := by
      intro k
      rw [hsplit]
      refine .bind (ih k _) fun next => .fact fun href => .pure fun s hs => ⟨?_, ?_⟩
      · rw [List.map_cons, List.map_cons, href]
      · rwa [hsplit]
    have hgo : Spec (Shows { S with openCalls := openRunning (running :: rest) + others })
        (if n = 0 ∨ (settledOutcomes rest).isSome then do
          let running ← running.advance env config
          return running :: rest
        else do
          let rest ← advanceAt env config (n - 1) rest
          return running :: rest)
        fun next s => next.map RunningCall.ref = (running :: rest).map RunningCall.ref ∧
          Shows { S with openCalls := openRunning next + others } s := by
      refine .ite (fun _ => ?_) fun _ => hlater (n - 1)
      have hassoc : ∀ running : RunningCall, openRunning (running :: rest) + others =
          running.openCalls + (openRunning rest + others) := by
        intro running
        simp only [openRunning, List.map_cons, List.sum_cons]
        rw [add_assoc]
      rw [hassoc]
      refine .bind (advance_spec env config running S _) fun next => .fact fun href => ?_
      refine .pure fun s hs => ⟨?_, ?_⟩
      · rw [List.map_cons, List.map_cons, href]
      · rwa [hassoc]
    cases running with
    | settled outcome => exact hlater n
    | executing | executed | finalized => exact hgo

theorem settledOutcomes_eq_some {calls : List RunningCall} {outcomes : List FinalizedToolCallOutcome}
    (h : settledOutcomes calls = some outcomes) :
    openRunning calls = 0 ∧ outcomes.map (·.toolCall.ref) = calls.map RunningCall.ref := by
  induction calls generalizing outcomes with
  | nil =>
    cases h
    exact ⟨rfl, rfl⟩
  | cons running rest ih =>
    cases running with
    | settled outcome =>
      obtain ⟨others, hothers, rfl⟩ := Option.map_eq_some_iff.1 h
      obtain ⟨hopen, href⟩ := ih hothers
      refine ⟨?_, ?_⟩
      · have hcalls : openRunning (.settled outcome :: rest) = openRunning rest := by
          simp [openRunning, RunningCall.openCalls]
        rw [hcalls, hopen]
      · rw [List.map_cons, List.map_cons, href]
        rfl
    | executing | executed | finalized => cases h

theorem promiseAll_spec (fuel : Nat) (calls : List RunningCall) (S : Summary)
    (others : Multiset CallRef) :
    Spec (Shows { S with openCalls := openRunning calls + others })
      (promiseAll env config fuel calls)
      fun outcomes s => outcomes.map (·.toolCall.ref) = calls.map RunningCall.ref ∧
        Shows { S with openCalls := others } s := by
  have hdone : ∀ (calls : List RunningCall) (outcomes : List FinalizedToolCallOutcome),
      settledOutcomes calls = some outcomes →
      Spec (Shows { S with openCalls := openRunning calls + others })
        (pure outcomes) fun outcomes s =>
          outcomes.map (·.toolCall.ref) = calls.map RunningCall.ref ∧
            Shows { S with openCalls := others } s := by
    intro calls outcomes h
    obtain ⟨hopen, href⟩ := settledOutcomes_eq_some h
    rw [hopen, zero_add]
    exact .pure fun s hs => ⟨href, hs⟩
  induction fuel generalizing calls with
  | zero =>
    unfold promiseAll
    cases h : settledOutcomes calls with
    | some outcomes => exact hdone calls outcomes h
    | none => exact .throw fun _ _ => trivial
  | succ fuel ih =>
    unfold promiseAll
    cases h : settledOutcomes calls with
    | some outcomes => exact hdone calls outcomes h
    | none =>
      refine .bind .get fun s => ?_
      refine .bind ((advanceAt_spec env config _ calls S others).pre fun t ht => ht.2) fun next => ?_
      refine .fact fun href => (ih next).post fun outcomes t ht => ?_
      exact ⟨ht.1.trans href, ht.2⟩

theorem executeToolCallsParallel_spec (toolCalls : List AgentToolCall)
    (resolvedToolCalls : ResolvedToolCalls) (S : Summary) :
    Spec (Shows S) (executeToolCallsParallel env config toolCalls resolvedToolCalls)
      fun batch => Answers S (toolCalls.map (·.ref)) batch.messages := by
  have hprepare := prepareInParallel_spec env config resolvedToolCalls 0 toolCalls [] S S.openCalls
  have hempty : openEntries [] + S.openCalls = S.openCalls := zero_add _
  rw [hempty, List.map_nil, List.nil_append] at hprepare
  refine .bind hprepare fun entries => .exists fun aborted => ?_
  refine .fact fun hmono => .fact fun hsome => .fact fun hall => ?_
  have hstart := startEntries_spec env entries { S with aborted := aborted } S.openCalls
  refine .bind hstart fun running => .fact fun hrunning => ?_
  have hpromise := promiseAll_spec env config (running.map RunningCall.remaining).sum running
    { S with aborted := aborted } S.openCalls
  refine .bind hpromise fun outcomes => .fact fun houtcomes => ?_
  refine .bind ((shows_frame env).suspend _) fun _ => ?_
  have hrefs : (outcomes.map createToolResultMessage).map (·.ref) = entries.map entryRef := by
    rw [← hrunning, ← houtcomes]
    simp [Function.comp_def, createToolResultMessage]
  -- the loop over the results
  have hloop := Prog.Triple.forEach (E := fun _ => True) (f := emitToolResultMessage env)
    (I := fun xs _ => Shows { S with messages := S.messages ++ xs.map .toolResult
                                     aborted := aborted })
    (fun xs x rest => (emitToolResultMessage_spec env x _).post fun _ s hs => by
      simpa using hs) [] (outcomes.map createToolResultMessage)
  refine .bind (hloop.pre fun s hs => by simpa using hs) fun _ => .pure fun s hs => ?_
  refine ⟨aborted, hmono, ?_, fun h => ?_, hs⟩
  · rwa [hrefs]
  · rw [hrefs]
    exact hall h

theorem executeToolCallsSequential_spec (toolCalls : List AgentToolCall)
    (resolvedToolCalls : ResolvedToolCalls) (S : Summary) :
    Spec (Shows S) (executeToolCallsSequential env config toolCalls resolvedToolCalls)
      fun batch => Answers S (toolCalls.map (·.ref)) batch.messages := by
  have h := executeSequentially_spec env config resolvedToolCalls 0 toolCalls [] S
  refine .bind (h.pre fun s hs => by simpa using hs) fun outcomes => .pure fun s hs => ?_
  simpa using hs

/-- **The results of a batch answer its calls.** -/
theorem executeToolCalls_spec (message : AssistantMessage) (S : Summary) :
    Spec (Shows S) (executeToolCalls env config message)
      fun batch => Answers S (message.toolCalls.map (·.ref)) batch.messages := by
  refine .ite (fun _ => executeToolCallsSequential_spec env config _ _ S) fun _ => ?_
  refine .bind ((shows_frame env).hasSequentialToolCall config _ _ _ S) fun ⟨sequential, resolved⟩ => ?_
  exact .ite (fun _ => executeToolCallsSequential_spec env config _ _ S)
    fun _ => executeToolCallsParallel_spec env config _ _ S

end OpenClaw.AgentCore
