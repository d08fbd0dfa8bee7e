import OpenClaw.Harness.CompactionUtils
import OpenClaw.Harness.SessionContext
import OpenClaw.Lib.Prog

/-!
# `packages/agent-core/src/harness/compaction/compaction.ts`

Compaction of a session path: where the retained tail starts, which messages are summarized, and
the requests that summarize them.

A loop `for (let i = stop - 1; i >= start; i--)` runs over `backward start stop`. The summarizer is
outside: `complete n` is its answer to the `n`-th request of a run, or the error it throws. The texts
of the constant prompts are not reproduced, and neither are the model, its options and credentials,
which only travel with the request.
-/

namespace OpenClaw.Harness

open AgentCore

/-! ## Token estimates -/

def calculateContextTokens (usage : Usage) : Nat :=
  match usage.contextUsage with
  | some (.available totalTokens) => totalTokens
  | _ =>
    if usage.totalTokens ≠ 0 then usage.totalTokens
    else usage.input + usage.output + usage.cacheRead + usage.cacheWrite

def getAssistantUsage : HarnessMessage → Option Usage
  | .assistant message _ usage =>
    if message.stopReason ≠ .aborted ∧ message.stopReason ≠ .error then usage else none
  | _ => none

def imageBlockChars : Nat := 4800

def countContentBlockChars (content : List UserBlock) : Nat :=
  (content.map fun block =>
    if block.type = "image" then imageBlockChars
    else JsString.length (getCompactionContentBlockText block)).sum

def MessageContent.chars : MessageContent → Nat
  | .text string => JsString.length string
  | .blocks content => countContentBlockChars content

def assistantBlockChars : ContentBlock → Nat
  | .text text => JsString.length text
  | .thinking thinking => JsString.length thinking
  | .toolCall call =>
    JsString.length call.name + JsString.length (safeJsonStringify call.arguments)

def HarnessMessage.chars : HarnessMessage → Nat
  | .user content => content.chars
  | .assistant message .. => (message.content.map assistantBlockChars).sum
  | .custom _ content .. => content.chars
  | .toolResult content => countContentBlockChars content
  | .bashExecution message => JsString.length message.command + JsString.length message.output
  | .branchSummary summary .. | .compactionSummary summary .. => JsString.length summary

/-- `estimateTokens`: `Math.ceil(chars / 4)`. -/
def estimateTokens (message : HarnessMessage) : Nat := (message.chars + 3) / 4

/-- The indices from `stop - 1` down to `start`. -/
def backward (start stop : Nat) : List Nat := (List.range' start (stop - start)).reverse

def getLastAssistantUsageInfo (messages : List HarnessMessage) : Option (Usage × Nat) :=
  (backward 0 messages.length).findSome? fun i => do
    let usage ← messages[i]?.bind getAssistantUsage
    if usage.contextUsage = some .unavailable then none else some (usage, i)

structure ContextUsageEstimate where
  tokens : Nat
  usageTokens : Nat
  trailingTokens : Nat
  lastUsageIndex : Option Nat

def estimateContextTokens (messages : List HarnessMessage) : ContextUsageEstimate :=
  match getLastAssistantUsageInfo messages with
  | none =>
    let estimated := (messages.map estimateTokens).sum
    ⟨estimated, 0, estimated, none⟩
  | some (usage, index) =>
    let usageTokens := calculateContextTokens usage
    let trailingTokens := ((messages.drop (index + 1)).map estimateTokens).sum
    ⟨usageTokens + trailingTokens, usageTokens, trailingTokens, some index⟩

/-! ## The cut point -/

/-- The row may be the first one retained: any message but a tool result. -/
def SessionTreeEntry.isCutPoint (entry : SessionTreeEntry) : Bool :=
  match entry.body with
  | .message (.toolResult _) => false
  | .message _ | .branchSummary .. | .customMessage .. => true
  | _ => false

def findValidCutPoints (entries : List SessionTreeEntry) (startIndex endIndex : Nat) : List Nat :=
  (List.range' startIndex (endIndex - startIndex)).filter fun i =>
    entries[i]?.any SessionTreeEntry.isCutPoint

/-- The row is a user-visible message that starts a turn. -/
def SessionTreeEntry.startsTurn (entry : SessionTreeEntry) : Bool :=
  match entry.body with
  | .branchSummary .. | .customMessage .. => true
  | .message (.user _) | .message (.bashExecution _) => true
  | _ => false

/-- `findTurnStartIndex`, with `none` for -1. -/
def findTurnStartIndex (entries : List SessionTreeEntry) (entryIndex startIndex : Nat) :
    Option Nat :=
  (backward startIndex (entryIndex + 1)).find? fun i =>
    entries[i]?.any SessionTreeEntry.startsTurn

structure CutPointResult where
  firstKeptEntryIndex : Nat
  turnStartIndex : Option Nat
  isSplitTurn : Bool
  deriving DecidableEq, Repr

/-- The token budget of `findCutPoint`: the index at which the accumulated tokens reach it. -/
def reachesBudget (entries : List SessionTreeEntry) (keepRecentTokens : JsNumber)
    (accumulatedTokens : Nat) : List Nat → Option Nat
  | [] => none
  | i :: rest =>
    match entries[i]?.map SessionTreeEntry.body with
    | some (.message message) =>
      let accumulatedTokens := accumulatedTokens + estimateTokens message
      if keepRecentTokens.reachedBy accumulatedTokens then some i
      else reachesBudget entries keepRecentTokens accumulatedTokens rest
    | _ => reachesBudget entries keepRecentTokens accumulatedTokens rest

/-- The row ends the walk of `findCutPoint` back over metadata. -/
def SessionTreeEntry.stopsWalk (entry : SessionTreeEntry) : Bool :=
  match entry.body with
  | .compaction _ | .message _ => true
  | _ => false

/-- `while (cutIndex > startIndex)`. -/
def walkBack (entries : List SessionTreeEntry) (startIndex : Nat) : Nat → Nat
  | 0 => 0
  | prev + 1 =>
    if startIndex < prev + 1 then
      if entries[prev]?.any SessionTreeEntry.stopsWalk then prev + 1
      else walkBack entries startIndex prev
    else prev + 1

/-- `message.role === "user"`. -/
def SessionTreeEntry.isUserMessage (entry : SessionTreeEntry) : Bool :=
  match entry.body with
  | .message (.user _) => true
  | _ => false

def findCutPoint (entries : List SessionTreeEntry) (startIndex endIndex : Nat)
    (keepRecentTokens : JsNumber) : CutPointResult :=
  match findValidCutPoints entries startIndex endIndex with
  | [] => ⟨startIndex, none, false⟩
  | first :: more =>
    let cutIndex :=
      match reachesBudget entries keepRecentTokens 0 (backward startIndex endIndex) with
      | none => first
      | some i => ((first :: more).find? fun cutPoint => i ≤ cutPoint).getD
          ((first :: more).getLast (List.cons_ne_nil _ _))
    let cutIndex := walkBack entries startIndex cutIndex
    let isUserMessage := entries[cutIndex]?.any SessionTreeEntry.isUserMessage
    let turnStartIndex :=
      if isUserMessage then none else findTurnStartIndex entries cutIndex startIndex
    ⟨cutIndex, turnStartIndex, !isUserMessage && turnStartIndex.isSome⟩

/-! ## Preparation -/

structure CompactionSettings where
  enabled : Bool
  reserveTokens : JsNumber
  keepRecentTokens : JsNumber

structure CompactionError where
  code : String
  message : String
  deriving DecidableEq, Repr

def missingFirstKept : CompactionError :=
  ⟨"invalid_session", "First kept entry has no UUID - session may need migration"⟩

structure CompactionPreparation where
  firstKeptEntryId : String
  messagesToSummarize : List HarnessMessage
  turnPrefixMessages : List HarnessMessage
  isSplitTurn : Bool
  tokensBefore : Nat
  previousSummary : Option String
  fileOps : FileOperations
  settings : CompactionSettings

def getMessageFromEntry (entry : SessionTreeEntry) : Except String (Option HarnessMessage) :=
  match entry.body with
  | .message message => pure (some message)
  | .customMessage customType content display details => do
    let message ← createCustomMessage customType content display details entry.timestamp
    pure (some message)
  | .branchSummary fromId summary => do
    let message ← createBranchSummaryMessage summary fromId entry.timestamp
    pure (some message)
  | .compaction fields => do
    let message ← createCompactionSummaryMessage fields.summary fields.tokensBefore entry.timestamp
    pure (some message)
  | _ => pure none

def getMessageFromEntryForCompaction (entry : SessionTreeEntry) :
    Except String (Option HarnessMessage) :=
  if entry.compaction?.isSome then pure none else getMessageFromEntry entry

/-- The last compaction row and its index, as the first loop of `prepareCompaction` finds them. -/
def prevCompaction (pathEntries : List SessionTreeEntry) : Option (Nat × CompactionEntry) :=
  (backward 0 pathEntries.length).findSome? fun i => do
    let row ← pathEntries[i]?
    let compaction ← row.compaction?
    some (i, compaction)

/-- `previousSummary` of `prepareCompaction`. -/
def previousSummary (pathEntries : List SessionTreeEntry) : Option String :=
  (prevCompaction pathEntries).map fun prev => prev.2.fields.summary

/-- `boundaryStart` of `prepareCompaction`: the previous first kept row, wherever it is, or else the
row after the previous compaction. -/
def boundaryStart (pathEntries : List SessionTreeEntry) : Nat :=
  match prevCompaction pathEntries with
  | none => 0
  | some (prevCompactionIndex, compaction) =>
    (pathEntries.findIdx? fun entry => entry.id == compaction.fields.firstKeptEntryId).getD
      (prevCompactionIndex + 1)

def extractFileOperations (messages : List HarnessMessage) (entries : List SessionTreeEntry) :
    FileOperations :=
  let fileOps :=
    match prevCompaction entries with
    | some (_, compaction) =>
      match compaction.fields.fromHook, compaction.fields.details with
      | false, some details =>
        { createFileOps with
          read := (details.readFiles.getD []).foldl addTo []
          edited := (details.modifiedFiles.getD []).foldl addTo [] }
      | _, _ => createFileOps
    | none => createFileOps
  messages.foldl extractFileOpsFromMessage fileOps

/-- The rows of `for (let i = start; i < stop; i++)`. -/
def rowsBetween (entries : List SessionTreeEntry) (start stop : Nat) : List SessionTreeEntry :=
  (entries.take stop).drop start

/-- `prepareCompaction`. The outer error is a thrown one. -/
def prepareCompaction (pathEntries : List SessionTreeEntry) (settings : CompactionSettings) :
    Except String (Except CompactionError (Option CompactionPreparation)) :=
  if pathEntries = [] ∨ (pathEntries.getLast?.bind SessionTreeEntry.compaction?).isSome then
    pure (.ok none)
  else do
    let context ← buildSessionContext pathEntries
    let tokensBefore := (estimateContextTokens context.messages).tokens
    let cutPoint := findCutPoint pathEntries (boundaryStart pathEntries) pathEntries.length
      settings.keepRecentTokens
    let firstKeptEntryId :=
      (pathEntries[cutPoint.firstKeptEntryIndex]?.map SessionTreeEntry.id).getD ""
    if firstKeptEntryId = "" then pure (.error missingFirstKept)
    else do
      let turnStart := cutPoint.turnStartIndex.getD 0
      let historyEnd := if cutPoint.isSplitTurn then turnStart else cutPoint.firstKeptEntryIndex
      let messagesToSummarize ← collect getMessageFromEntryForCompaction
        (rowsBetween pathEntries (boundaryStart pathEntries) historyEnd)
      let turnPrefixMessages ← collect getMessageFromEntryForCompaction
        (if cutPoint.isSplitTurn then
          rowsBetween pathEntries turnStart cutPoint.firstKeptEntryIndex
        else [])
      let fileOps := extractFileOperations messagesToSummarize pathEntries
      pure (.ok (some {
        firstKeptEntryId, messagesToSummarize, turnPrefixMessages
        isSplitTurn := cutPoint.isSplitTurn
        tokensBefore
        previousSummary := previousSummary pathEntries
        fileOps := if cutPoint.isSplitTurn then
          turnPrefixMessages.foldl extractFileOpsFromMessage fileOps else fileOps
        settings }))

/-! ## Summarization -/

/-- The constant prompts of `compaction.ts`. -/
inductive BasePrompt
  | summarization
  | updateSummarization
  | turnPrefix
  deriving DecidableEq, Repr

/-- What one summarization request is built from. -/
structure SummaryRequest where
  messages : List HarnessMessage
  previousSummary : Option String
  basePrompt : BasePrompt
  customInstructions : Option String

/-- A string option that JavaScript takes for true. -/
def truthy (value : Option String) : Option String :=
  match value with
  | some text => if text = "" then none else some text
  | none => none

/-- What a compaction run asks of the summarizer, in order. -/
abbrev Summarizing := Prog (List SummaryRequest)

variable (complete : Nat → Except String AssistantMessage)

def runSummarizationCompletion (request : SummaryRequest) (errorLabel : String) :
    Summarizing (Except CompactionError String) := do
  let asked ← Prog.get
  Prog.modify fun asked => asked ++ [request]
  match complete asked.length with
  | .error message => Prog.throw (.rejected message)
  | .ok response =>
    match response.stopReason with
    | .aborted =>
      pure (.error ⟨"aborted", (truthy response.errorMessage).getD s!"{errorLabel} aborted"⟩)
    | .error =>
      let cause := (truthy response.errorMessage).getD "Unknown error"
      pure (.error ⟨"summarization_failed", s!"{errorLabel} failed: {cause}"⟩)
    | _ =>
      pure (.ok ("\n".intercalate (response.content.filterMap fun
        | .text text => some text
        | _ => none)))

def generateSummary (currentMessages : List HarnessMessage) (customInstructions : Option String)
    (previousSummary : Option String) : Summarizing (Except CompactionError String) :=
  let previousSummary := truthy previousSummary
  let basePrompt := if previousSummary.isSome then .updateSummarization else .summarization
  runSummarizationCompletion complete
    ⟨currentMessages, previousSummary, basePrompt, truthy customInstructions⟩ "Summarization"

def generateTurnPrefixSummary (messages : List HarnessMessage) :
    Summarizing (Except CompactionError String) :=
  runSummarizationCompletion complete ⟨messages, none, .turnPrefix, none⟩
    "Turn prefix summarization"

structure CompactionResult where
  summary : String
  firstKeptEntryId : String
  tokensBefore : Nat
  details : FileLists

/-- The history part of a split turn's summary. -/
def summarizeHistory (preparation : CompactionPreparation) (customInstructions : Option String) :
    Summarizing (Except CompactionError String) :=
  if preparation.messagesToSummarize.length > 0 then
    generateSummary complete preparation.messagesToSummarize customInstructions
      preparation.previousSummary
  else pure (.ok "No prior history.")

/-- The text between the two parts of a split turn's summary. -/
def turnContextSeparator : String := "\n\n---\n\n**Turn Context (split turn):**\n\n"

/-- The summary of `compact`, before the file lists. -/
def summarize (preparation : CompactionPreparation) (customInstructions : Option String) :
    Summarizing (Except CompactionError String) :=
  if preparation.isSplitTurn ∧ preparation.turnPrefixMessages.length > 0 then do
    match ← summarizeHistory complete preparation customInstructions with
    | .error error => pure (.error error)
    | .ok history =>
      match ← generateTurnPrefixSummary complete preparation.turnPrefixMessages with
      | .error error => pure (.error error)
      | .ok turnPrefix => pure (.ok (history ++ turnContextSeparator ++ turnPrefix))
  else
    generateSummary complete preparation.messagesToSummarize customInstructions
      preparation.previousSummary

def compact (preparation : CompactionPreparation) (customInstructions : Option String) :
    Summarizing (Except CompactionError CompactionResult) :=
  if preparation.firstKeptEntryId = "" then pure (.error missingFirstKept)
  else do
    match ← summarize complete preparation customInstructions with
    | .error error => pure (.error error)
    | .ok summary =>
      let lists := computeFileLists preparation.fileOps
      pure (.ok ⟨summary ++ formatFileOperations lists, preparation.firstKeptEntryId,
        preparation.tokensBefore, lists⟩)

end OpenClaw.Harness
