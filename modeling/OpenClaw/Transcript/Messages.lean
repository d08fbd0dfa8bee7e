import OpenClaw.Lib.JsonObject
import OpenClaw.Normalization

/-!
# Messages of a transcript

The readers of `agents/tool-call-id.ts` and the helpers of `agents/session-transcript-repair.ts` that
look at one message. A message is a JSON value.
-/

namespace OpenClaw.Transcript

def role (message : Json) : Option String := message.strField "role"

def isAssistant (message : Json) : Bool := role message = some "assistant"

def isToolResult (message : Json) : Bool := role message = some "toolResult"

/-! ## Tool calls -/

/-- `ToolCallLike`. -/
structure ToolCall where
  id : String
  name : Option String
  deriving DecidableEq

def toolCallTypes : List String := ["toolCall", "toolUse", "functionCall"]

/-- The tool call that a block is, for `extractToolCallsFromAssistant`. -/
def toolCallOf (block : Json) : Option ToolCall :=
  match block.strField "id", block.strField "type" with
  | some id, some type =>
    if id ≠ "" ∧ type ∈ toolCallTypes then some ⟨id, block.strField "name"⟩ else none
  | _, _ => none

/-- The blocks of the content, if it is an array. -/
def contentBlocks (message : Json) : List Json :=
  match message.field "content" with
  | some (.arr blocks) => blocks
  | _ => []

def extractToolCallsFromAssistant (message : Json) : List ToolCall :=
  (contentBlocks message).filterMap toolCallOf

def assistantHasToolCalls (message : Json) : Bool :=
  isAssistant message && !(extractToolCallsFromAssistant message).isEmpty

def isErrored (message : Json) : Bool :=
  message.strField "stopReason" = some "error" || message.strField "stopReason" = some "aborted"

/-! ## Tool results -/

def toolResultIdKeys : List String :=
  ["toolCallId", "toolUseId", "tool_call_id", "tool_use_id", "callId", "call_id"]

def extractToolResultIds (message : Json) : List String :=
  (toolResultIdKeys.filterMap fun key => normalizeOptionalString (message.strField key)).foldl
    (fun ids id => if id ∈ ids then ids else ids ++ [id]) []

def extractToolResultId (message : Json) : Option String := (extractToolResultIds message).head?

def defaultMissingToolResultText : String :=
  "[openclaw] missing tool result in session history; inserted synthetic error result for " ++
    "transcript repair."

def syntheticMissingToolResultDetailKey : String := "openclawSyntheticMissingToolResult"

def makeMissingToolResult (toolCallId : String) (toolName text : Option String) (now : Int) :
    Json :=
  .obj [("role", .str "toolResult"), ("toolCallId", .str toolCallId),
    ("toolName", .str (toolName.getD "unknown")),
    ("content", .arr [.obj [("type", .str "text"),
      ("text", .str (text.getD defaultMissingToolResultText))]]),
    ("details", .obj [(syntheticMissingToolResultDetailKey, .bool true)]),
    ("isError", .bool true), ("timestamp", .num now)]

/-- `details[SYNTHETIC_MISSING_TOOL_RESULT_DETAIL_KEY] === true`. -/
def hasSyntheticDetail (message : Json) : Bool :=
  match (message.field "details").bind (Json.field syntheticMissingToolResultDetailKey) with
  | some (.bool true) => true
  | _ => false

def isSyntheticMissingToolResult (message : Json) : Bool :=
  ((message.field "isError").any Json.truthy) &&
    (hasSyntheticDetail message ||
      (contentBlocks message).any fun block =>
        block.strField "type" = some "text" &&
          block.strField "text" = some defaultMissingToolResultText)

/-- `normalizeToolResultName`, and whether it made a new object. -/
def normalizeToolResultName (message : Json) (fallbackName : Option String) : Json × Bool :=
  match normalizeOptionalString (message.strField "toolName") with
  | some name =>
    if message.strField "toolName" = some name then (message, false)
    else (message.setField "toolName" (.str name), true)
  | none =>
    match normalizeOptionalString fallbackName with
    | some name => (message.setField "toolName" (.str name), true)
    | none =>
      if (message.strField "toolName").isSome then
        (message.setField "toolName" (.str "unknown"), true)
      else (message, false)

/-- Both names are there, and differ. -/
def namesDiffer (message : Json) (call : ToolCall) : Bool :=
  match normalizeOptionalString (message.strField "toolName"), normalizeOptionalString call.name with
  | some resultName, some callName => resultName ≠ callName
  | _, _ => false

/-- `normalizeLegacyToolResultId`, and whether it made a new object. -/
def normalizeLegacyToolResultId (message : Json) (toolCalls : List ToolCall) : Json × Bool :=
  if (extractToolResultId message).isSome then (message, false)
  else
    match toolCalls with
    | [call] =>
      if namesDiffer message call then (message, false)
      else ((message.setField "toolCallId" (.str call.id)).setField "isError" (.bool true), true)
    | _ => (message, false)

end OpenClaw.Transcript
