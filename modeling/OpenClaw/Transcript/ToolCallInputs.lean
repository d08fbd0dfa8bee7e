import OpenClaw.Transcript.Messages

/-!
# `sanitizeToolCallInputs` of `agents/session-transcript-repair.ts`

The pass over the tool calls of a transcript, before their results are paired. It drops blocks that
are incomplete or not allowed, and with thinking replay it keeps or drops an assistant message with
thinking blocks as a whole.
-/

namespace OpenClaw.Transcript

/-- What the language gives: `String.prototype.toLowerCase`, and `JSON.parse` with `none` where it
throws. -/
structure JsEnv where
  toLowerCase : String → String
  parseJson : String → Option Json

/-! ## `agents/tool-call-shared.ts` -/

def normalizeLowercaseStringOrEmpty (env : JsEnv) (value : Option String) : String :=
  ((normalizeOptionalString value).map env.toLowerCase).getD ""

def normalizeAllowedToolNames (env : JsEnv) (allowedToolNames : Option (List String)) :
    Option (List String) :=
  match allowedToolNames with
  | none => none
  | some names =>
    let normalized := (names.map JsString.trim).filter (· ≠ "")
      |>.map fun name => normalizeLowercaseStringOrEmpty env (some name)
    if normalized = [] then none else some normalized

def toolCallNameMaxChars : Nat := 64

/-- `TOOL_CALL_NAME_RE`. -/
def isToolCallName (name : String) : Bool :=
  name ≠ "" && name.toList.all fun c => c.isAlphanum || c ∈ ['_', ':', '.', '-']

def isAllowedToolCallName (env : JsEnv) (name : Option String)
    (allowedToolNames : Option (List String)) : Bool :=
  match name with
  | none => false
  | some name =>
    let trimmed := JsString.trim name
    if trimmed = "" then false
    else if JsString.length trimmed > toolCallNameMaxChars || !isToolCallName trimmed then false
    else
      match allowedToolNames with
      | none => true
      | some names => normalizeLowercaseStringOrEmpty env (some trimmed) ∈ names

/-! ## Raw tool-call blocks -/

def rawToolCallBlockTypes : List String :=
  ["toolCall", "toolUse", "functionCall", "tool_call", "tool_use", "function_call"]

def isRawToolCallBlock (block : Json) : Bool :=
  (block.strField "type").any (· ∈ rawToolCallBlockTypes)

/-- The field is there, and not null. -/
def hasValue (key : String) (block : Json) : Bool :=
  match block.field key with
  | none | some .null => false
  | some _ => true

def hasToolCallInput (block : Json) : Bool := hasValue "input" block || hasValue "arguments" block

def rawToolCallIdKeys : List String :=
  ["id", "call_id", "toolCallId", "toolUseId", "tool_call_id", "tool_use_id"]

def hasToolCallId (block : Json) : Bool :=
  rawToolCallIdKeys.any fun key => (normalizeOptionalString (block.strField key)).isSome

def hasPartialJson (block : Json) : Bool := (block.strField "partialJson").isSome

def isCompleteJsonObject (env : JsEnv) (value : String) : Bool :=
  match env.parseJson value with
  | some (.obj _) => true
  | _ => false

/-- The first `|` of the id is neither its first character nor its last one. -/
def hasInnerSeparator (id : String) : Bool :=
  match id.toList.idxOf? '|' with
  | some separator => decide (0 < separator) && decide (separator + 1 < id.toList.length)
  | none => false

def isFinalizedOpenAIResponsesToolCall (env : JsEnv) (message block : Json) : Bool :=
  isAssistant message && decide (message.strField "stopReason" = some "toolUse") &&
    match block.strField "partialJson", block.strField "id", block.field "input",
      block.field "arguments" with
    | some partialJson, some id, none, some (.obj arguments) =>
      (isCompleteJsonObject env partialJson ||
        (decide (JsString.trim partialJson = "") && arguments.isEmpty)) && hasInnerSeparator id
    | _, _, _, _ => false

/-- `sanitizeToolCallBlock`, and whether it made a new object. -/
def sanitizeToolCallBlock (block : Json) : Json × Bool :=
  match block.strField "name" with
  | some rawName =>
    if JsString.trim rawName ≠ "" ∧ rawName ≠ JsString.trim rawName then
      (block.setField "name" (.str (JsString.trim rawName)), true)
    else (block, false)
  | none => (block, false)

/-! ## Thinking turns -/

def isThinkingLikeBlock (block : Json) : Bool :=
  block.strField "type" = some "thinking" || block.strField "type" = some "redacted_thinking"

/-- The loop of `isReplaySafeThinkingAssistantTurn` over the tool calls. -/
def replaySafeFrom (env : JsEnv) (allowedToolNames : Option (List String)) :
    List String → List Json → Bool
  | _, [] => true
  | seenToolCallIds, block :: blocks =>
    if !isRawToolCallBlock block then replaySafeFrom env allowedToolNames seenToolCallIds blocks
    else
      let toolCallId := ((block.strField "id").map JsString.trim).getD ""
      if !hasToolCallInput block || hasPartialJson block || decide (toolCallId = "") ||
          decide (toolCallId ∈ seenToolCallIds) ||
          !isAllowedToolCallName env (block.strField "name") allowedToolNames then false
      else if (sanitizeToolCallBlock block).2 then false
      else replaySafeFrom env allowedToolNames (toolCallId :: seenToolCallIds) blocks

def isReplaySafeThinkingAssistantTurn (env : JsEnv) (content : List Json)
    (allowedToolNames : Option (List String)) : Bool :=
  replaySafeFrom env allowedToolNames [] content && content.any isRawToolCallBlock

def hasSessionsSpawnAttachmentToolCall (content : List Json) : Bool :=
  content.any fun block =>
    isRawToolCallBlock block && decide (block.strField "name" = some "sessions_spawn") &&
      match (block.field "input").bind (Json.field "attachments") with
      | some (.arr attachments) => !attachments.isEmpty
      | _ => false

structure FollowingToolResults where
  ids : List String
  displaced : Bool

/-- `collectFollowingToolResults`, on the messages after the assistant message. -/
def collectFollowingToolResults (currentToolCalls : List ToolCall) :
    Bool → List Json → FollowingToolResults
  | _, [] => ⟨[], false⟩
  | sawNonToolResult, message :: messages =>
    if assistantHasToolCalls message then ⟨[], false⟩
    else if isToolResult message then
      let resultIds := extractToolResultIds (normalizeLegacyToolResultId message currentToolCalls).1
      let following := collectFollowingToolResults currentToolCalls sawNonToolResult messages
      ⟨resultIds ++ following.ids, (!resultIds.isEmpty && sawNonToolResult) || following.displaced⟩
    else collectFollowingToolResults currentToolCalls true messages

/-! ## The pass -/

structure ToolCallInputRepairOptions where
  allowedToolNames : Option (List String) := none
  allowProviderOwnedThinkingReplay : Bool := false

/-- A block that is kept is renamed, and whether it is a new object. -/
def renameBlock (env : JsEnv) (workBlock : Json) : Json × Bool :=
  if normalizeLowercaseStringOrEmpty env ((workBlock.strField "name").map JsString.trim) =
      "sessions_spawn" then
    sanitizeToolCallBlock workBlock
  else
    match workBlock.strField "name" with
    | some rawName =>
      if rawName ≠ JsString.trim rawName ∧ JsString.trim rawName ≠ "" then
        (workBlock.setField "name" (.str (JsString.trim rawName)), true)
      else (workBlock, false)
    | none => (workBlock, false)

/-- `delete stripped.partialJson`, if it is there. -/
def stripPartialJson (block : Json) : Json :=
  if hasPartialJson block then block.eraseField "partialJson" else block

/-- The block that is kept, and whether it is a new object. -/
def keepBlock (env : JsEnv) (allowedToolNames : Option (List String)) (message block : Json) :
    Option (Json × Bool) :=
  if !isRawToolCallBlock block then some (block, false)
  else if !hasToolCallInput block || !hasToolCallId block ||
      !isAllowedToolCallName env (block.strField "name") allowedToolNames then none
  else if hasPartialJson block && !isFinalizedOpenAIResponsesToolCall env message block then none
  else
    let renamed := renameBlock env (stripPartialJson block)
    some (renamed.1, hasPartialJson block || renamed.2)

structure InputRepairState where
  out : List Json := []
  droppedToolCalls : Nat := 0
  droppedAssistantMessages : Nat := 0
  changed : Bool := false
  preservedThinkingToolCallIds : List String := []
  priorToolCallIds : List String := []

namespace InputRepairState

def push (s : InputRepairState) (message : Json) : InputRepairState :=
  { s with out := s.out ++ [message] }

/-- An assistant message that is kept counts its tool calls as prior ones. -/
def pushAssistant (s : InputRepairState) (message : Json) : InputRepairState :=
  { s with
    out := s.out ++ [message]
    priorToolCallIds :=
      (extractToolCallsFromAssistant message).map ToolCall.id ++ s.priorToolCallIds }

/-- The thinking turn is replayed as it is. -/
def keepsThinkingTurn (env : JsEnv) (allowedToolNames : Option (List String))
    (s : InputRepairState) (message : Json) (content rest : List Json) : Bool :=
  let toolCalls := extractToolCallsFromAssistant message
  let following := collectFollowingToolResults toolCalls false rest
  isReplaySafeThinkingAssistantTurn env content allowedToolNames &&
    toolCalls.all fun toolCall =>
      decide (toolCall.id ∉ s.preservedThinkingToolCallIds) &&
        (!hasSessionsSpawnAttachmentToolCall content || decide (toolCall.id ∈ following.ids)) &&
        (!following.displaced || decide (toolCall.id ∉ s.priorToolCallIds))

def repairThinkingTurn (env : JsEnv) (allowedToolNames : Option (List String))
    (s : InputRepairState) (message : Json) (content rest : List Json) : InputRepairState :=
  if s.keepsThinkingTurn env allowedToolNames message content rest then
    let toolCalls := extractToolCallsFromAssistant message
    { s.pushAssistant message with
      preservedThinkingToolCallIds :=
        toolCalls.map ToolCall.id ++ s.preservedThinkingToolCallIds
      changed := s.changed || (collectFollowingToolResults toolCalls false rest).displaced }
  else
    { s with
      droppedToolCalls := s.droppedToolCalls + content.countP isRawToolCallBlock
      droppedAssistantMessages := s.droppedAssistantMessages + 1
      changed := true }

def repairToolTurn (env : JsEnv) (allowedToolNames : Option (List String))
    (s : InputRepairState) (message : Json) (content : List Json) : InputRepairState :=
  let kept := content.filterMap (keepBlock env allowedToolNames message)
  let droppedInMessage := content.length - kept.length
  let messageChanged := decide (droppedInMessage > 0) || kept.any Prod.snd
  let nextContent := kept.map Prod.fst
  let noted := { s with
    droppedToolCalls := s.droppedToolCalls + droppedInMessage
    changed := s.changed || messageChanged }
  if droppedInMessage > 0 then
    if nextContent = [] then
      { noted with droppedAssistantMessages := noted.droppedAssistantMessages + 1, changed := true }
    else noted.pushAssistant (message.setField "content" (.arr nextContent))
  else if messageChanged then noted.pushAssistant (message.setField "content" (.arr nextContent))
  else noted.pushAssistant message

/-- One turn of the loop over the messages; `rest` are the messages after this one. -/
def repairMessage (env : JsEnv) (options : ToolCallInputRepairOptions) (s : InputRepairState)
    (message : Json) (rest : List Json) : InputRepairState :=
  let allowedToolNames := normalizeAllowedToolNames env options.allowedToolNames
  match isAssistant message, message.field "content" with
  | true, some (.arr content) =>
    if options.allowProviderOwnedThinkingReplay && content.any isThinkingLikeBlock &&
        decide (content.countP isRawToolCallBlock > 0) then
      s.repairThinkingTurn env allowedToolNames message content rest
    else s.repairToolTurn env allowedToolNames message content
  | _, _ => s.push message

def repairFrom (env : JsEnv) (options : ToolCallInputRepairOptions) (s : InputRepairState) :
    List Json → InputRepairState
  | [] => s
  | message :: rest => repairFrom env options (s.repairMessage env options message rest) rest

end InputRepairState

structure ToolCallInputRepairReport where
  messages : List Json
  droppedToolCalls : Nat
  droppedAssistantMessages : Nat

def repairToolCallInputs (env : JsEnv) (options : ToolCallInputRepairOptions)
    (messages : List Json) : ToolCallInputRepairReport :=
  let s := InputRepairState.repairFrom env options {} messages
  { messages := if s.changed then s.out else messages
    droppedToolCalls := s.droppedToolCalls
    droppedAssistantMessages := s.droppedAssistantMessages }

def sanitizeToolCallInputs (env : JsEnv) (options : ToolCallInputRepairOptions)
    (messages : List Json) : List Json :=
  (repairToolCallInputs env options messages).messages

end OpenClaw.Transcript
