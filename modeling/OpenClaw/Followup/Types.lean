import OpenClaw.Lib.Json
import OpenClaw.Normalization

/-!
# Followup runs

The data of the followup queue: a queued message (`FollowupRun`), the execution record it shares
(`Run`), and the settings an enqueue applies.

A JavaScript object that the queue compares by reference has a number here. A `FollowupRun` is
the object number `copy` of the message number `origin`: the message as it was enqueued is copy
0, and each compact copy made of it (`createOverflowSummaryRetrySource`) is the next. The
execution record is behind the reference `run`, since a session refresh rewrites it in place.
-/

namespace OpenClaw.Followup

inductive QueueMode
  | steer | followup | collect | interrupt
  deriving DecidableEq

inductive QueueDropPolicy
  | old | new | summarize
  deriving DecidableEq

structure QueueSettings where
  mode : QueueMode
  cap : Option Rat := none
  dropPolicy : Option QueueDropPolicy := none

inductive QueueDedupeMode
  | messageId | prompt | none
  deriving DecidableEq

/-! ## Unions of string literals, with the text they are written as -/

inductive ReplyToMode
  | off | first | all | batched
  deriving DecidableEq

def ReplyToMode.text : ReplyToMode → String
  | .off => "off" | .first => "first" | .all => "all" | .batched => "batched"

inductive ChatType
  | direct | group | channel
  deriving DecidableEq

def ChatType.text : ChatType → String
  | .direct => "direct" | .group => "group" | .channel => "channel"

inductive ExecTarget
  | auto | sandbox | gateway | node

def ExecTarget.text : ExecTarget → String
  | .auto => "auto" | .sandbox => "sandbox" | .gateway => "gateway" | .node => "node"

inductive ExecSecurity
  | deny | allowlist | full

def ExecSecurity.text : ExecSecurity → String
  | .deny => "deny" | .allowlist => "allowlist" | .full => "full"

inductive ExecAsk
  | off | onMiss | always

def ExecAsk.text : ExecAsk → String
  | .off => "off" | .onMiss => "on-miss" | .always => "always"

inductive ElevatedLevel
  | off | on | ask | full

def ElevatedLevel.text : ElevatedLevel → String
  | .off => "off" | .on => "on" | .ask => "ask" | .full => "full"

inductive InputProvenanceKind
  | externalUser | interSession | internalSystem

def InputProvenanceKind.text : InputProvenanceKind → String
  | .externalUser => "external_user"
  | .interSession => "inter_session"
  | .internalSystem => "internal_system"

inductive SourceReplyDeliveryMode
  | automatic | messageToolOnly

def SourceReplyDeliveryMode.text : SourceReplyDeliveryMode → String
  | .automatic => "automatic" | .messageToolOnly => "message_tool_only"

inductive SilentReplyPromptMode
  | generic | none

def SilentReplyPromptMode.text : SilentReplyPromptMode → String
  | .generic => "generic" | .none => "none"

inductive BlockReplyBreak
  | textEnd | messageEnd

def BlockReplyBreak.text : BlockReplyBreak → String
  | .textEnd => "text_end" | .messageEnd => "message_end"

inductive ThinkLevel
  | off | minimal | low | medium | high | xhigh | adaptive | max | ultra

inductive OverrideSource
  | auto | user

/-! ## The execution record -/

structure ExecOverrides where
  host : Option ExecTarget := none
  security : Option ExecSecurity := none
  ask : Option ExecAsk := none
  node : Option String := none

structure BashElevated where
  enabled : Bool
  allowed : Bool
  defaultLevel : ElevatedLevel

structure InputProvenance where
  kind : InputProvenanceKind
  originSessionId : Option String := none
  sourceSessionKey : Option String := none
  sourceChannel : Option String := none
  sourceTool : Option String := none

/-- The fields of `FollowupRun["run"]` that a delivery key reads or a session refresh writes. -/
structure Run where
  sessionId : String
  sessionFile : String
  provider : String
  model : String
  blockReplyBreak : BlockReplyBreak
  sessionKey : Option String := none
  runtimePolicySessionKey : Option String := none
  messageProvider : Option String := none
  chatType : Option ChatType := none
  agentAccountId : Option String := none
  groupId : Option String := none
  groupChannel : Option String := none
  groupSpace : Option String := none
  senderId : Option String := none
  channelContext : Option Json := none
  senderE164 : Option String := none
  senderIsOwner : Bool := false
  traceAuthorized : Bool := false
  approvalReviewerDeviceId : Option String := none
  hasSessionModelOverride : Bool := false
  modelOverrideSource : Option OverrideSource := none
  hasAutoFallbackProvenance : Bool := false
  authProfileId : Option String := none
  authProfileIdSource : Option OverrideSource := none
  thinkLevel : Option ThinkLevel := none
  elevatedLevel : Option ElevatedLevel := none
  execOverrides : Option ExecOverrides := none
  bashElevated : Option BashElevated := none
  inputProvenance : Option InputProvenance := none
  extraSystemPrompt : Option String := none
  extraSystemPromptStatic : Option String := none
  sourceReplyDeliveryMode : Option SourceReplyDeliveryMode := none
  silentReplyPromptMode : Option SilentReplyPromptMode := none
  enforceFinalTag : Bool := false
  skipProviderRuntimeHints : Bool := false
  silentExpected : Bool := false
  allowEmptyAssistantReplyAsSilent : Bool := false
  suppressNextUserMessagePersistence : Bool := false
  suppressTranscriptOnlyAssistantPersistence : Bool := false

/-- Where an execution record is stored. -/
abbrev RunRef := Nat

/-- The identity of an `AbortSignal`. -/
abbrev SignalId := Nat

/-! ## The queued message -/

/-- The identity and the fields of a `QueuedReplyLifecycle` that the queue reads; `onAdmitted`
says whether the callback is there. -/
structure QueuedReplyLifecycle where
  id : Nat
  ownerKey : Option String := none
  onAdmitted : Bool := false
  deriving DecidableEq

inductive ThreadId
  | text (id : String)
  | number (id : Int)
  deriving DecidableEq

inductive InboundEventKind
  | userRequest | roomEvent
  deriving DecidableEq

structure FollowupRun where
  origin : Nat := 0
  copy : Nat := 0
  run : RunRef
  prompt : String
  summaryLine : Option String := none
  messageId : Option String := none
  currentInboundEventKind : Option InboundEventKind := none
  currentInboundAudio : Bool := false
  abortSignal : Option SignalId := none
  queueAbortSignal : Option SignalId := none
  queuedLifecycle : Option QueuedReplyLifecycle := none
  originatingChannel : Option String := none
  originatingTo : Option String := none
  originatingAccountId : Option String := none
  originatingThreadId : Option ThreadId := none
  originatingChatId : Option String := none
  originatingReplyToId : Option String := none
  originatingReplyToMode : Option ReplyToMode := none
  originatingChatType : Option String := none
  deriving DecidableEq

/-- `isFollowupRunAborted`, given the signals that have fired. -/
def isFollowupRunAborted (abortedSignals : List SignalId) (run : FollowupRun) : Bool :=
  run.abortSignal.any (abortedSignals.contains ·) ||
    run.queueAbortSignal.any (abortedSignals.contains ·)

/-- The compact copy of a summarized message: a new object with the fields the summary and its
delivery still read. -/
def createOverflowSummaryRetrySource (source : FollowupRun) : FollowupRun where
  origin := source.origin
  copy := source.copy + 1
  run := source.run
  prompt := source.prompt
  queueAbortSignal := source.queueAbortSignal
  messageId := source.messageId
  summaryLine := source.summaryLine
  originatingChannel := source.originatingChannel
  originatingTo := source.originatingTo
  originatingAccountId := source.originatingAccountId
  originatingThreadId := source.originatingThreadId
  originatingChatId := source.originatingChatId
  originatingReplyToId := source.originatingReplyToId
  originatingReplyToMode := source.originatingReplyToMode
  originatingChatType := source.originatingChatType
  abortSignal := source.abortSignal
  queuedLifecycle := source.queuedLifecycle
  currentInboundEventKind :=
    if source.currentInboundEventKind = some .roomEvent then some .roomEvent else none

/-! ## The line of a summary -/

/-- `elideQueueText`: at most `limit` UTF-16 code units, the last one an ellipsis if cut. -/
def elideQueueText (text : String) (limit : Nat) : String :=
  if JsString.length text ≤ limit then text
  else JsString.trimEnd (JsString.slice text (limit - 1)) ++ "…"

/-- `buildQueueSummaryLine`: white space collapsed, trimmed, at most 160 code units. -/
def buildQueueSummaryLine (text : String) : String :=
  elideQueueText (JsString.trim (JsString.collapseWhitespace text)) 160

/-- The line an overflow summary has for a message. -/
def summaryLineOf (item : FollowupRun) : String :=
  buildQueueSummaryLine ((normalizeOptionalString item.summaryLine).getD (JsString.trim item.prompt))

@[simp] theorem summaryLineOf_retrySource (source : FollowupRun) :
    summaryLineOf (createOverflowSummaryRetrySource source) = summaryLineOf source := rfl

end OpenClaw.Followup
