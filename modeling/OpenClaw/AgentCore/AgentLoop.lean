import OpenClaw.AgentCore.Types

/-!
# `packages/agent-core/src/agent-loop.ts`

The loop under the source's function names. A `while` loop takes fuel, and runs out of it only where
the source would go on for ever. The variables that `runLoop` closes over are `LoopState`.

An `executePreparedToolCall` that has been started is a `RunningCall`, which goes on from one
suspension to the next (`RunningCall.advance`). A sequential batch runs one of them to its end
(`RunningCall.finish`); `Promise.all` lets the outside choose which goes on (`promiseAll`).

The partial message of a response that is being streamed is left out: the final message takes its
place in the context before any hook can read it.
-/

namespace OpenClaw.AgentCore

variable (env : Env) (config : AgentLoopConfig)

/-- `{ content: [{ type: "text", text: message }], details: {} }`. -/
def createErrorToolResult (message : String) : AgentToolResult where
  content := .arr [.obj [("type", .str "text"), ("text", .str message)]]
  details := .obj []

/-! ## Assistant messages -/

def removeNonExecutableToolCalls (message : AssistantMessage) : AssistantMessage :=
  if message.stopReason = .toolUse then message
  else if message.toolCalls.isEmpty then message
  else
    let hasCompleteToolCalls := message.toolCalls.all fun call =>
      decide (JsString.trim call.id ≠ "") && decide (JsString.trim call.name ≠ "")
    if hasCompleteToolCalls ∧ message.stopReason = .stop then { message with stopReason := .toolUse }
    else
      { message with content := message.content.filter fun
          | .toolCall _ => false
          | .text _ | .thinking _ => true }

def createLoopFailureMessage (error : String) (aborted : Bool) : AssistantMessage where
  content := [.text ""]
  stopReason := if aborted then .aborted else .error
  errorMessage := some error

def pushContext (message : AgentMessage) : AgentProg Unit :=
  Prog.modify fun s =>
    { s with context := { s.context with messages := s.context.messages ++ [message] } }

/-- The end of `streamAssistantResponse`. -/
def finishResponse (response : StreamResponse) (addedPartial : Bool) : AgentProg AssistantMessage := do
  let result ← call env fun _ => response.result
  let finalMessage := removeNonExecutableToolCalls result
  pushContext (.assistant finalMessage)
  Prog.skipWhen addedPartial (emit env (.messageStart (.assistant finalMessage)))
  emit env (.messageEnd (.assistant finalMessage))
  return finalMessage

/-- The loop over the stream's events. -/
def readResponse (response : StreamResponse) : Bool → List AssistantMessageEvent →
    AgentProg AssistantMessage
  | addedPartial, [] => do
    match response.failure with
    | some message => Prog.throw (.rejected message)
    | none =>
      suspend env
      finishResponse env response addedPartial
  | addedPartial, event :: rest => do
    suspend env
    match event with
    | .start opening =>
      emit env (.messageStart (.assistant opening))
      readResponse response true rest
    | .update type =>
      Prog.skipWhen (!addedPartial) (emit env (.messageUpdate type))
      readResponse response addedPartial rest
    | .done | .error => finishResponse env response addedPartial

def streamAssistantResponse : AgentProg AssistantMessage := do
  callIfSet env config.transformContext
  let _ ← call env config.convertToLlm
  callIfSet env config.getApiKey
  let response ← call env config.streamFunction
  readResponse env response false response.events

/-! ## Preparing a tool call -/

abbrev ResolvedToolCallOutcome : Type := Except String (Option AgentTool)

/-- `resolvedToolCalls`, by the position of the call in the message. -/
abbrev ResolvedToolCalls : Type := Nat → Option ResolvedToolCallOutcome

def findTool (tools : List AgentTool) (name : String) : Option AgentTool :=
  tools.find? fun tool => tool.name = name

def hidesToolCallFromChannelProgress (resolvedToolCalls : ResolvedToolCalls) (index : Nat)
    (toolCall : AgentToolCall) : AgentProg Bool := do
  let s ← Prog.get
  let tool := match resolvedToolCalls index with
    | some (.ok tool) => tool
    | _ => findTool s.context.tools toolCall.name
  return tool.any AgentTool.hideFromChannelProgress

/-- `resolveToolCallTool`, with the entry it adds to `resolvedToolCalls`. -/
def resolveToolCallTool (resolvedToolCalls : ResolvedToolCalls) (index : Nat)
    (toolCall : AgentToolCall) : AgentProg (ResolvedToolCallOutcome × ResolvedToolCalls) := do
  match resolvedToolCalls index with
  | some cached => return (cached, resolvedToolCalls)
  | none =>
    let remember (resolution : ResolvedToolCallOutcome) :=
      (resolution, Function.update resolvedToolCalls index (some resolution))
    let s ← Prog.get
    match findTool s.context.tools toolCall.name with
    | some tool => return remember (.ok (some tool))
    | none =>
      match ← attempt env (config.resolveDeferredTool.getD fun _ => .ok none) with
      | .error error => return remember (.error error)
      | .ok none => return remember (.ok none)
      | .ok (some tool) =>
        if tool.name ≠ toolCall.name then
          return remember (.error
            ("Deferred tool resolver returned \"" ++ tool.name ++ "\" for requested \"" ++
              toolCall.name ++ "\""))
        else
          Prog.modify fun s => { s with context := { s.context with tools := s.context.tools ++ [tool] } }
          return remember (.ok (some tool))

structure PreparedToolCall where
  toolCall : AgentToolCall
  tool : AgentTool
  args : Json

structure ImmediateToolCallOutcome where
  result : AgentToolResult
  isError : Bool
  errorKind : Option String := none

def immediateError (message : String) (errorKind : Option String := none) :
    PreparedToolCall ⊕ ImmediateToolCallOutcome :=
  .inr { result := createErrorToolResult message, isError := true, errorKind := errorKind }

/-- The end of `prepareToolCall`: the last look at the signal. -/
def passChecks (prepared : PreparedToolCall) :
    AgentProg (PreparedToolCall ⊕ ImmediateToolCallOutcome) := do
  if ← signalAborted then return immediateError "Operation aborted"
  else
    record (.prepared prepared.toolCall.ref)
    return .inl prepared

/-- `prepareToolCall` once the tool is known and its arguments are valid: the hook. -/
def runBeforeToolCall (prepared : PreparedToolCall) :
    AgentProg (PreparedToolCall ⊕ ImmediateToolCallOutcome) := do
  match config.beforeToolCall with
  | none => passChecks prepared
  | some beforeToolCall =>
    match ← attempt env beforeToolCall with
    | .error error => return immediateError error
    | .ok beforeResult =>
      if ← signalAborted then return immediateError "Operation aborted"
      else
        match beforeResult with
        | some ⟨true, reason⟩ =>
          return immediateError (match reason with
            | none | some "" => "Tool execution was blocked"
            | some reason => reason)
        | _ => passChecks prepared

/-- `prepareToolCall` once the tool has been looked up. -/
def prepareResolved (toolCall : AgentToolCall) : ResolvedToolCallOutcome →
    AgentProg (PreparedToolCall ⊕ ImmediateToolCallOutcome)
  | .error error => do
    let aborted ← signalAborted
    return immediateError (if aborted then "Operation aborted" else error)
  | .ok none => return immediateError ("Tool " ++ toolCall.name ++ " not found")
  | .ok (some tool) =>
    match (tool.prepareArguments.getD .ok) toolCall.arguments with
    | .error error => return immediateError error
    | .ok arguments =>
      match tool.validateArguments arguments with
      | .error error => return immediateError error (some "argument-validation")
      | .ok args => runBeforeToolCall env config ⟨toolCall, tool, args⟩

def prepareToolCall (resolvedToolCalls : ResolvedToolCalls) (index : Nat)
    (toolCall : AgentToolCall) :
    AgentProg ((PreparedToolCall ⊕ ImmediateToolCallOutcome) × ResolvedToolCalls) := do
  let (resolution, resolvedToolCalls) ←
    resolveToolCallTool env config resolvedToolCalls index toolCall
  suspend env
  let preparation ← prepareResolved env config toolCall resolution
  suspend env
  return (preparation, resolvedToolCalls)

/-! ## Executing a tool call -/

structure FinalizedToolCallOutcome where
  toolCall : AgentToolCall
  result : AgentToolResult
  isError : Bool
  executionStarted : Bool
  errorKind : Option String := none
  hideFromChannelProgress : Bool

/-- A tool call between the call of `execute` and the end of its lifecycle. -/
inductive RunningCall
  /-- `execute` has been called. `failed` is a sink's failure on an update, if there was one. -/
  | executing (prepared : PreparedToolCall) (updates : List Json) (failed : Option String)
    (result : Except String AgentToolResult)
  /-- `executePreparedToolCall` has returned. -/
  | executed (prepared : PreparedToolCall) (result : AgentToolResult) (isError : Bool)
  /-- `finalizeExecutedToolCall` has returned. -/
  | finalized (outcome : FinalizedToolCallOutcome)
  | settled (outcome : FinalizedToolCallOutcome)

/-- `onUpdate`: the event is emitted and not awaited. -/
def emitUpdate (prepared : PreparedToolCall) (partialResult : Json) : AgentProg (Option String) := do
  record (.event (.toolExecutionUpdate prepared.toolCall.ref prepared.toolCall.arguments
    partialResult prepared.tool.hideFromChannelProgress))
  let s ← Prog.get
  suspend env
  return env.sinkFails s.clock

def emitUpdates (prepared : PreparedToolCall) (failed : Option String) : List Json →
    AgentProg (Option String)
  | [] => return failed
  | update :: rest => do
    let failure ← emitUpdate env prepared update
    emitUpdates prepared (failed.or failure) rest

/-- `executePreparedToolCall` up to its first suspension. -/
def executePreparedToolCall (prepared : PreparedToolCall) : AgentProg RunningCall := do
  let s ← Prog.get
  let run := prepared.tool.execute s.clock
  record (.execute prepared.toolCall.ref s.aborted)
  suspend env
  let failed ← emitUpdates env prepared none run.syncUpdates
  return .executing prepared run.updates failed run.result

def finalizeExecutedToolCall (prepared : PreparedToolCall) (result : AgentToolResult)
    (isError : Bool) : AgentProg FinalizedToolCallOutcome := do
  let finalized (result : AgentToolResult) (isError : Bool) : FinalizedToolCallOutcome :=
    { toolCall := prepared.toolCall
      result := result
      isError := isError
      executionStarted := true
      hideFromChannelProgress := prepared.tool.hideFromChannelProgress }
  match config.afterToolCall with
  | none => return finalized result isError
  | some afterToolCall =>
    match ← attempt env afterToolCall with
    | .error error => return finalized (createErrorToolResult error) true
    | .ok none => return finalized result isError
    | .ok (some after) =>
      return finalized
        { content := after.content.getD result.content
          details := after.details.getD result.details
          terminate := after.terminate.or result.terminate }
        (after.isError.getD isError)

def emitToolExecutionEnd (outcome : FinalizedToolCallOutcome) : AgentProg Unit :=
  emit env (.toolExecutionEnd outcome.toolCall.ref outcome.result outcome.isError
    outcome.executionStarted outcome.errorKind outcome.hideFromChannelProgress)

/-- From one suspension to the next. -/
def RunningCall.advance : RunningCall → AgentProg RunningCall
  | .executing prepared (update :: rest) failed result => do
    let failure ← emitUpdate env prepared update
    return .executing prepared rest (failed.or failure) result
  | .executing prepared [] failed result => do
    suspend env
    match failed with
    | some message => Prog.throw (.rejected message)
    | none =>
      match result with
      | .ok result => return .executed prepared result false
      | .error error => return .executed prepared (createErrorToolResult error) true
  | .executed prepared result isError => do
    let outcome ← finalizeExecutedToolCall env config prepared result isError
    return .finalized outcome
  | .finalized outcome => do
    emitToolExecutionEnd env outcome
    return .settled outcome
  | .settled outcome => return .settled outcome

/-- How often a call goes on before it is settled. -/
def RunningCall.remaining : RunningCall → Nat
  | .executing _ updates _ _ => updates.length + 3
  | .executed .. => 2
  | .finalized _ => 1
  | .settled _ => 0

/-- A call that runs on its own. -/
def RunningCall.finish : Nat → RunningCall → AgentProg FinalizedToolCallOutcome
  | _, .settled outcome => return outcome
  | 0, _ => Prog.throw .outOfFuel
  | n + 1, running => do
    let running ← running.advance env config
    finish n running

def createToolResultMessage (finalized : FinalizedToolCallOutcome) : ToolResultMessage where
  ref := finalized.toolCall.ref
  content := finalized.result.content
  details := finalized.result.details
  isError := finalized.isError

def emitToolResultMessage (message : ToolResultMessage) : AgentProg Unit := do
  emit env (.messageStart (.toolResult message))
  emit env (.messageEnd (.toolResult message))

/-! ## Batches -/

structure ExecutedToolCallBatch where
  messages : List ToolResultMessage
  terminate : Bool

def shouldTerminateToolBatch (finalizedCalls : List FinalizedToolCallOutcome) : Bool :=
  !finalizedCalls.isEmpty && finalizedCalls.all fun finalized => finalized.result.terminate = some true

/-- The outcome of a call that is not executed. -/
def ImmediateToolCallOutcome.finalized (outcome : ImmediateToolCallOutcome)
    (toolCall : AgentToolCall) (hideFromChannelProgress : Bool) : FinalizedToolCallOutcome where
  toolCall := toolCall
  result := outcome.result
  isError := outcome.isError
  executionStarted := false
  errorKind := outcome.errorKind
  hideFromChannelProgress := hideFromChannelProgress

/-- Both batches start with this: the start event of a call, and its preparation. -/
def startToolCall (resolvedToolCalls : ResolvedToolCalls) (index : Nat) (toolCall : AgentToolCall) :
    AgentProg ((PreparedToolCall ⊕ FinalizedToolCallOutcome) × ResolvedToolCalls) := do
  let hideFromChannelProgress ← hidesToolCallFromChannelProgress resolvedToolCalls index toolCall
  emit env (.toolExecutionStart toolCall.ref toolCall.arguments hideFromChannelProgress)
  let (preparation, resolvedToolCalls) ←
    prepareToolCall env config resolvedToolCalls index toolCall
  return (preparation.map id (·.finalized toolCall hideFromChannelProgress), resolvedToolCalls)

/-- A call of a sequential batch runs to its end. -/
def finishToolCall : PreparedToolCall ⊕ FinalizedToolCallOutcome → AgentProg FinalizedToolCallOutcome
  | .inr finalized => do
    emitToolExecutionEnd env finalized
    return finalized
  | .inl prepared => do
    let running ← executePreparedToolCall env prepared
    running.finish env config running.remaining

/-- The loop of `executeToolCallsSequential`. -/
def executeSequentially (resolvedToolCalls : ResolvedToolCalls) (index : Nat) :
    List AgentToolCall → List FinalizedToolCallOutcome → AgentProg (List FinalizedToolCallOutcome)
  | [], finalizedCalls => return finalizedCalls
  | toolCall :: rest, finalizedCalls => do
    let (preparation, resolvedToolCalls) ← startToolCall env config resolvedToolCalls index toolCall
    let finalized ← finishToolCall env config preparation
    emitToolResultMessage env (createToolResultMessage finalized)
    if ← signalAborted then return finalizedCalls ++ [finalized]
    else
      executeSequentially resolvedToolCalls (index + 1) rest (finalizedCalls ++ [finalized])

def executeToolCallsSequential (toolCalls : List AgentToolCall)
    (resolvedToolCalls : ResolvedToolCalls) : AgentProg ExecutedToolCallBatch := do
  let finalizedCalls ← executeSequentially env config resolvedToolCalls 0 toolCalls []
  return {
    messages := finalizedCalls.map createToolResultMessage
    terminate := shouldTerminateToolBatch finalizedCalls }

/-- `FinalizedToolCallEntry`: a call to be executed, or an outcome. -/
abbrev FinalizedToolCallEntry : Type := PreparedToolCall ⊕ FinalizedToolCallOutcome

/-- A call of a parallel batch that is not executed ends at once. -/
def endImmediate : FinalizedToolCallEntry → AgentProg Unit
  | .inr finalized => emitToolExecutionEnd env finalized
  | .inl _ => pure ()

/-- The loop of `executeToolCallsParallel`, which prepares the calls. -/
def prepareInParallel (resolvedToolCalls : ResolvedToolCalls) (index : Nat) :
    List AgentToolCall → List FinalizedToolCallEntry → AgentProg (List FinalizedToolCallEntry)
  | [], finalizedCalls => return finalizedCalls
  | toolCall :: rest, finalizedCalls => do
    let (preparation, resolvedToolCalls) ← startToolCall env config resolvedToolCalls index toolCall
    endImmediate env preparation
    if ← signalAborted then return finalizedCalls ++ [preparation]
    else
      prepareInParallel resolvedToolCalls (index + 1) rest (finalizedCalls ++ [preparation])

/-- `finalizedCalls.map((entry) => ...)`: every call is started. -/
def startEntries : List FinalizedToolCallEntry → AgentProg (List RunningCall)
  | [] => return []
  | .inr outcome :: rest => do
    let running ← startEntries rest
    return .settled outcome :: running
  | .inl prepared :: rest => do
    let running ← executePreparedToolCall env prepared
    let others ← startEntries rest
    return running :: others

/-- The outcomes, once every call is settled. -/
def settledOutcomes : List RunningCall → Option (List FinalizedToolCallOutcome)
  | [] => some []
  | .settled outcome :: rest => (settledOutcomes rest).map (outcome :: ·)
  | _ :: _ => none

/-- The `n`-th call that is not settled goes on, or the last one. -/
def advanceAt : Nat → List RunningCall → AgentProg (List RunningCall)
  | _, [] => return []
  | n, .settled outcome :: rest => do
    let rest ← advanceAt n rest
    return .settled outcome :: rest
  | n, running :: rest =>
    if n = 0 ∨ (settledOutcomes rest).isSome then do
      let running ← running.advance env config
      return running :: rest
    else do
      let rest ← advanceAt (n - 1) rest
      return running :: rest

def promiseAll : Nat → List RunningCall → AgentProg (List FinalizedToolCallOutcome)
  | fuel, calls =>
    match settledOutcomes calls, fuel with
    | some outcomes, _ => return outcomes
    | none, 0 => Prog.throw .outOfFuel
    | none, fuel + 1 => do
      let s ← Prog.get
      let calls ← advanceAt env config (env.next s.clock) calls
      promiseAll fuel calls

def executeToolCallsParallel (toolCalls : List AgentToolCall)
    (resolvedToolCalls : ResolvedToolCalls) : AgentProg ExecutedToolCallBatch := do
  let finalizedCalls ← prepareInParallel env config resolvedToolCalls 0 toolCalls []
  let running ← startEntries env finalizedCalls
  let orderedFinalizedCalls ← promiseAll env config (running.map RunningCall.remaining).sum running
  suspend env
  let messages := orderedFinalizedCalls.map createToolResultMessage
  Prog.forEach messages (emitToolResultMessage env)
  return { messages := messages, terminate := shouldTerminateToolBatch orderedFinalizedCalls }

/-- `resolution.kind === "resolved" && resolution.tool?.executionMode === "sequential"`. -/
def isSequential (resolution : ResolvedToolCallOutcome) : Bool :=
  match resolution with
  | .ok (some tool) => tool.executionMode = some .sequential
  | .ok none | .error _ => false

/-- The loop of `executeToolCalls` that looks for a tool that asks to run on its own. -/
def hasSequentialToolCall (resolvedToolCalls : ResolvedToolCalls) (index : Nat) :
    List AgentToolCall → AgentProg (Bool × ResolvedToolCalls)
  | [] => return (false, resolvedToolCalls)
  | toolCall :: rest => do
    let (resolution, resolvedToolCalls) ←
      resolveToolCallTool env config resolvedToolCalls index toolCall
    suspend env
    if isSequential resolution then return (true, resolvedToolCalls)
    else
      if ← signalAborted then return (false, resolvedToolCalls)
      else hasSequentialToolCall resolvedToolCalls (index + 1) rest

def executeToolCalls (assistantMessage : AssistantMessage) : AgentProg ExecutedToolCallBatch := do
  let toolCalls := assistantMessage.toolCalls
  if config.toolExecution = some .sequential then
    executeToolCallsSequential env config toolCalls fun _ => none
  else
    let (sequential, resolvedToolCalls) ←
      hasSequentialToolCall env config (fun _ => none) 0 toolCalls
    if sequential then executeToolCallsSequential env config toolCalls resolvedToolCalls
    else executeToolCallsParallel env config toolCalls resolvedToolCalls

/-! ## The loop -/

/-- The variables of `runLoop`. -/
structure LoopState where
  newMessages : List AgentMessage
  firstTurn : Bool
  turnOpen : Bool
  pendingMessages : List AgentMessage

/-- What a pass of the inner loop does: the run returns, or the next pass is decided on. -/
inductive LoopPass
  | returned (newMessages : List AgentMessage)
  | goesOn (l : LoopState) (hasMoreToolCalls : Bool)

/-- `stopIfAborted`: the messages that are returned, if the run stops. -/
def stopIfAborted (l : LoopState) : AgentProg (Option (List AgentMessage)) := do
  if ← signalAborted then
    let abortedMessage := createLoopFailureMessage (env.abortReason.getD "Agent run aborted") true
    let newMessages := l.newMessages ++ [.assistant abortedMessage]
    Prog.skipWhen l.turnOpen (emit env .turnStart)
    emit env (.messageStart (.assistant abortedMessage))
    emit env (.messageEnd (.assistant abortedMessage))
    emit env (.turnEnd abortedMessage [])
    emit env (.agentEnd newMessages)
    return some newMessages
  else
    suspend env
    return none

/-- The start of a pass: the turn opens, unless it is the first. -/
def openTurn (l : LoopState) : AgentProg LoopState := do
  if l.firstTurn then return { l with firstTurn := false }
  else
    emit env .turnStart
    return { l with turnOpen := true }

def emitMessage (message : AgentMessage) : AgentProg Unit := do
  emit env (.messageStart message)
  emit env (.messageEnd message)

/-- The loop over `pendingMessages`. -/
def injectPending (l : LoopState) : AgentProg LoopState := do
  Prog.forEach l.pendingMessages fun message => do
    emitMessage env message
    pushContext message
  return { l with newMessages := l.newMessages ++ l.pendingMessages }

/-- The tool calls of a response, if it stopped for them. -/
def runToolCalls (message : AssistantMessage) : AgentProg ExecutedToolCallBatch := do
  if message.stopReason = .toolUse ∧ message.toolCalls ≠ [] then
    let batch ← executeToolCalls env config message
    Prog.forEach batch.messages fun result => pushContext (.toolResult result)
    return batch
  else return { messages := [], terminate := true }

/-- `currentContext = nextTurnSnapshot.context ?? currentContext`. -/
def applySnapshot (nextTurnSnapshot : Option AgentLoopTurnUpdate) : AgentProg Unit :=
  Prog.modify fun s =>
    { s with context := (nextTurnSnapshot.bind AgentLoopTurnUpdate.context).getD s.context }

/-- The rest of a pass, once the turn has its tool results. -/
def finishTurn (l : LoopState) (message : AssistantMessage) (toolResults : List ToolResultMessage)
    (hasMoreToolCalls : Bool) : AgentProg LoopPass := do
  emit env (.turnEnd message toolResults)
  let l := { l with turnOpen := false }
  match ← stopIfAborted env l with
  | some newMessages => return .returned newMessages
  | none =>
    let nextTurnSnapshot ← callHook env config.prepareNextTurn none
    applySnapshot nextTurnSnapshot
    match ← stopIfAborted env l with
    | some newMessages => return .returned newMessages
    | none =>
      if ← callHook env config.shouldStopAfterTurn false then
        emit env (.agentEnd l.newMessages)
        return .returned l.newMessages
      else
        let pendingMessages ← callHook env config.getSteeringMessages []
        let l := { l with pendingMessages := pendingMessages }
        match ← stopIfAborted env l with
        | some newMessages => return .returned newMessages
        | none => return .goesOn l hasMoreToolCalls

/-- A pass from the provider's response on. -/
def answerTurn (l : LoopState) : AgentProg LoopPass := do
  let message ← streamAssistantResponse env config
  let l := { l with newMessages := l.newMessages ++ [AgentMessage.assistant message] }
  if message.stopReason = .error ∨ message.stopReason = .aborted then
    emit env (.turnEnd message [])
    emit env (.agentEnd l.newMessages)
    return .returned l.newMessages
  else
    let batch ← runToolCalls env config message
    let l := { l with newMessages := l.newMessages ++ batch.messages.map AgentMessage.toolResult }
    finishTurn env config l message batch.messages (!batch.terminate)

/-- A pass of the inner loop. -/
def runTurn (l : LoopState) : AgentProg LoopPass := do
  match ← stopIfAborted env l with
  | some newMessages => return .returned newMessages
  | none =>
    let l ← openTurn env l
    let l ← injectPending env l
    match ← stopIfAborted env l with
    | some newMessages => return .returned newMessages
    | none => answerTurn env config l

/-- `runLoop`: both loops, and the messages it leaves in `newMessages`. -/
def runLoop : Nat → Bool → LoopState → AgentProg (List AgentMessage)
  | 0, _, _ => Prog.throw .outOfFuel
  | fuel + 1, hasMoreToolCalls, l => do
    if hasMoreToolCalls ∨ l.pendingMessages ≠ [] then
      match ← runTurn env config l with
      | .returned newMessages => return newMessages
      | .goesOn l hasMoreToolCalls => runLoop fuel hasMoreToolCalls l
    else
      match ← callHook env config.getFollowUpMessages [] with
      | [] =>
        emit env (.agentEnd l.newMessages)
        return l.newMessages
      | followUpMessages => runLoop fuel true { l with pendingMessages := followUpMessages }

/-- The start that both kinds of run share, up to the loop. -/
def startLoop (fuel : Nat) (prompts : List AgentMessage) : AgentProg (List AgentMessage) := do
  emit env .agentStart
  emit env .turnStart
  Prog.forEach prompts (emitMessage env)
  let pendingMessages ← callHook env config.getSteeringMessages []
  runLoop env config fuel true
    { newMessages := prompts, firstTurn := true, turnOpen := true, pendingMessages := pendingMessages }

def runAgentLoop (fuel : Nat) (prompts : List AgentMessage) : AgentProg (List AgentMessage) := do
  Prog.forEach prompts pushContext
  startLoop env config fuel prompts

def runAgentLoopContinue (fuel : Nat) : AgentProg (List AgentMessage) := do
  let s ← Prog.get
  match s.context.messages.getLast? with
  | none => Prog.throw (.rejected "Cannot continue: no messages in context")
  | some (.assistant _) =>
    Prog.throw (.rejected "Cannot continue from message role: assistant")
  | some _ => startLoop env config fuel []

/-- The state a run starts in. The signal may be aborted already. -/
def RunState.initial (context : AgentContext) (aborted : Bool) : RunState where
  clock := 0
  aborted := aborted
  context := context
  log := []

/-! ## A small run -/

/-- A tool that accepts everything and returns nothing. -/
def silentTool (name : String) : AgentTool where
  name := name
  validateArguments := .ok
  execute _ := { result := .ok { content := .arr [], details := .obj [] } }

/-- A response with two calls, of the tools `read` and `write`. -/
def twoCalls : AssistantMessage where
  content := [.toolCall ⟨"1", "read", .obj []⟩, .toolCall ⟨"2", "write", .obj []⟩]
  stopReason := .toolUse

def twoTools : RunState := .initial ⟨[], [silentTool "read", silentTool "write"]⟩ false

end OpenClaw.AgentCore
