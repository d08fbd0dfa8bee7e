import OpenClaw.Lib.JsString
import OpenClaw.Lib.Json
import OpenClaw.Lib.Prog

/-!
# `packages/agent-core/src/types.ts`: the agent loop's messages, tools and events

Messages keep what the loop reads: of an assistant message its content, stop reason and error text,
of a tool result what it answers. Provider, model, usage and timestamps go to the provider and the
sink only.

Everything the loop awaits is outside: the hooks of the configuration, the tools, the provider's
stream and the event sink. What the outside does may be different every time it is asked, so each
answer is a function of the number of times the loop has been suspended before. A hook that throws
is an `Except.error` with the error's message.
-/

namespace OpenClaw.AgentCore

/-! ## Messages -/

/-- `ToolCall`. -/
structure AgentToolCall where
  id : String
  name : String
  arguments : Json

/-- What identifies a call in events and results: `toolCallId` and `toolName`. -/
structure CallRef where
  toolCallId : String
  toolName : String
  deriving DecidableEq, Repr

def AgentToolCall.ref (call : AgentToolCall) : CallRef := ⟨call.id, call.name⟩

/-- A block of an assistant message's content. -/
inductive ContentBlock
  | text (text : String)
  | thinking (thinking : String)
  | toolCall (call : AgentToolCall)

inductive StopReason
  | stop
  | length
  | toolUse
  | error
  | aborted
  deriving DecidableEq, Repr

structure AssistantMessage where
  content : List ContentBlock
  stopReason : StopReason
  errorMessage : Option String := none

/-- `content.filter((c) => c.type === "toolCall")`. -/
def AssistantMessage.toolCalls (message : AssistantMessage) : List AgentToolCall :=
  message.content.filterMap fun
    | .toolCall call => some call
    | .text _ | .thinking _ => none

structure ToolResultMessage where
  ref : CallRef
  content : Json
  details : Json
  isError : Bool

/-- `AgentMessage`. User and custom messages are their role and the rest. -/
inductive AgentMessage
  | assistant (message : AssistantMessage)
  | toolResult (message : ToolResultMessage)
  | other (role : String) (body : Json)

/-! ## Tools -/

inductive ToolExecutionMode
  | sequential
  | parallel
  deriving DecidableEq, Repr

structure AgentToolResult where
  content : Json
  details : Json
  terminate : Option Bool := none

/-- What one call of `execute` does: the partial results it reports before it first suspends, those
it reports later, and how its promise settles. -/
structure ToolRun where
  syncUpdates : List Json := []
  updates : List Json := []
  result : Except String AgentToolResult

/-- `AgentTool`. `validateArguments` is `validateToolArguments` at the tool's schema. -/
structure AgentTool where
  name : String
  executionMode : Option ToolExecutionMode := none
  hideFromChannelProgress : Bool := false
  prepareArguments : Option (Json → Except String Json) := none
  validateArguments : Json → Except String Json
  execute : Nat → ToolRun

/-- `AgentContext`, as far as the loop uses it. -/
structure AgentContext where
  messages : List AgentMessage
  tools : List AgentTool

/-! ## Events -/

/-- The events of a provider's stream, by what the loop does on them. -/
inductive AssistantMessageEvent
  | start (opening : AssistantMessage)
  /-- `text_*`, `thinking_*` and `toolcall_*`. -/
  | update (type : String)
  | done
  | error

/-- A provider's response: the events of the stream, whether reading on then throws, and what
`result()` gives. -/
structure StreamResponse where
  events : List AssistantMessageEvent
  failure : Option String := none
  result : Except String AssistantMessage

inductive AgentEvent
  | agentStart
  | agentEnd (messages : List AgentMessage)
  | turnStart
  | turnEnd (message : AssistantMessage) (toolResults : List ToolResultMessage)
  | messageStart (message : AgentMessage)
  | messageUpdate (type : String)
  | messageEnd (message : AgentMessage)
  | toolExecutionStart (ref : CallRef) (args : Json) (hideFromChannelProgress : Bool)
  | toolExecutionUpdate (ref : CallRef) (args : Json) (partialResult : Json)
    (hideFromChannelProgress : Bool)
  | toolExecutionEnd (ref : CallRef) (result : AgentToolResult) (isError executionStarted : Bool)
    (errorKind : Option String) (hideFromChannelProgress : Bool)

/-! ## The outside -/

structure BeforeToolCallResult where
  block : Bool
  reason : Option String

structure AfterToolCallResult where
  content : Option Json
  details : Option Json
  isError : Option Bool
  terminate : Option Bool

/-- `AgentLoopTurnUpdate`, as far as the loop uses it. -/
structure AgentLoopTurnUpdate where
  context : Option AgentContext

/-- `AgentLoopConfig`: the hooks, and the provider the loop calls. An absent hook is `none`. -/
structure AgentLoopConfig where
  toolExecution : Option ToolExecutionMode := none
  transformContext : Option (Nat → Except String (List AgentMessage)) := none
  convertToLlm : Nat → Except String Json
  getApiKey : Option (Nat → Except String (Option String)) := none
  streamFunction : Nat → Except String StreamResponse
  getSteeringMessages : Option (Nat → Except String (List AgentMessage)) := none
  getFollowUpMessages : Option (Nat → Except String (List AgentMessage)) := none
  prepareNextTurn : Option (Nat → Except String (Option AgentLoopTurnUpdate)) := none
  shouldStopAfterTurn : Option (Nat → Except String Bool) := none
  resolveDeferredTool : Option (Nat → Except String (Option AgentTool)) := none
  beforeToolCall : Option (Nat → Except String (Option BeforeToolCallResult)) := none
  afterToolCall : Option (Nat → Except String (Option AfterToolCallResult)) := none

/-- The rest of the outside. `aborts n` says that the signal is aborted while the loop is suspended
for the `n`-th time, `sinkFails n` that the sink throws on the event it is given then, and `next n`
which of the running tools goes on. -/
structure Env where
  aborts : Nat → Bool := fun _ => false
  abortReason : Option String := none
  sinkFails : Nat → Option String := fun _ => none
  next : Nat → Nat := fun _ => 0

/-! ## The state of a run -/

/-- What has happened. Besides the events there are the moment a call has passed its checks, the
moment its tool is called, with the state of the signal, and the abort. -/
inductive Entry
  | event (e : AgentEvent)
  | prepared (ref : CallRef)
  | execute (ref : CallRef) (aborted : Bool)
  | aborted

/-- The signal, the loop's context, the number of suspensions so far, and what has happened. -/
structure RunState where
  clock : Nat
  aborted : Bool
  context : AgentContext
  log : List Entry

abbrev AgentProg (α : Type) : Type := Prog RunState α

/-- Outside code runs, and may abort the signal. -/
def suspend (env : Env) : AgentProg Unit :=
  Prog.modify fun s =>
    if env.aborts s.clock && !s.aborted then
      { s with clock := s.clock + 1, aborted := true, log := s.log ++ [.aborted] }
    else { s with clock := s.clock + 1 }

def record (entry : Entry) : AgentProg Unit := Prog.modify fun s => { s with log := s.log ++ [entry] }

/-- `signal?.aborted`. -/
def signalAborted : AgentProg Bool := do
  return (← Prog.get).aborted

/-- Await outside code that may throw, under a `try`. -/
def attempt {α : Type} (env : Env) (f : Nat → Except String α) : AgentProg (Except String α) := do
  let s ← Prog.get
  suspend env
  return f s.clock

/-- Await outside code; what it throws rejects the run. -/
def call {α : Type} (env : Env) (f : Nat → Except String α) : AgentProg α := do
  match ← attempt env f with
  | .ok a => return a
  | .error message => Prog.throw (.rejected message)

/-- A hook that may be absent. -/
def callHook {α : Type} (env : Env) (hook : Option (Nat → Except String α)) (absent : α) :
    AgentProg α :=
  call env (hook.getD fun _ => .ok absent)

/-- `if (hook) await hook(...)`, where what the hook gives goes to the provider. -/
def callIfSet {α : Type} (env : Env) : Option (Nat → Except String α) → AgentProg Unit
  | none => pure ()
  | some hook => do
    let _ ← call env hook

/-- `await emit(event)`. -/
def emit (env : Env) (e : AgentEvent) : AgentProg Unit := do
  record (.event e)
  call env fun n =>
    match env.sinkFails n with
    | some message => .error message
    | none => .ok ()

end OpenClaw.AgentCore
