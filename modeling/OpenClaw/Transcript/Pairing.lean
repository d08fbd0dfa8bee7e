import Mathlib.Logic.Function.Basic
import OpenClaw.Transcript.Messages

/-!
# `repairToolUseResultPairing` of `agents/session-transcript-repair.ts`

A *turn* is an assistant message with tool calls and the messages up to the next one, its *span*.
The loop over the messages is a loop over the messages before the first turn and then over the
turns. Where the source looks results up in an index of all of them, from a start index on, the
messages after the span are searched.

A slot is a message with the index it has in the input; `none` is for results made here.
-/

namespace OpenClaw.Transcript

structure ToolUseResultPairingOptions where
  /-- `erroredAssistantResultPolicy === "drop"`. -/
  dropErroredAssistantResults : Bool := false
  missingToolResultText : Option String := none

structure Slot where
  message : Json
  origin : Option Nat

/-! ## Turns -/

structure Turn where
  assistant : Slot
  span : List Slot

def Turn.slots (turn : Turn) : List Slot := turn.assistant :: turn.span

def Turn.toolCalls (turn : Turn) : List ToolCall :=
  extractToolCallsFromAssistant turn.assistant.message

/-- The messages before the first turn, and the turns. -/
def splitTurns : List Slot → List Slot × List Turn
  | [] => ([], [])
  | slot :: slots =>
    if assistantHasToolCalls slot.message then
      ([], ⟨slot, (splitTurns slots).1⟩ :: (splitTurns slots).2)
    else (slot :: (splitTurns slots).1, (splitTurns slots).2)

/-! ## The state of the repair -/

structure RepairState where
  out : List Slot := []
  added : List Json := []
  seenToolResultIds : List String := []
  toolResultPositions : String → Option Nat := fun _ => none
  droppedDuplicateCount : Nat := 0
  droppedOrphanCount : Nat := 0
  moved : Bool := false
  changed : Bool := false
  /-- How many results have been made, to read the clock by. -/
  made : Nat := 0

namespace RepairState

def push (s : RepairState) (slot : Slot) : RepairState := { s with out := s.out ++ [slot] }

def dropDuplicate (s : RepairState) : RepairState :=
  { s with droppedDuplicateCount := s.droppedDuplicateCount + 1, changed := true }

def dropOrphan (s : RepairState) : RepairState :=
  { s with droppedOrphanCount := s.droppedOrphanCount + 1, changed := true }

/-- A result with an id that was seen: it is dropped, and if it is real it takes the place of a
synthetic one. -/
def pushSeen (s : RepairState) (id : String) (slot : Slot) : RepairState :=
  match s.toolResultPositions id with
  | none => s.dropDuplicate
  | some position =>
    match s.out[position]? with
    | none => s.dropDuplicate
    | some existing =>
      if isSyntheticMissingToolResult existing.message &&
          !isSyntheticMissingToolResult slot.message then
        { s.dropDuplicate with
          out := s.out.set position slot
          added := s.added.eraseP fun a => extractToolResultId a = some id }
      else s.dropDuplicate

def pushToolResult (s : RepairState) (slot : Slot) : RepairState :=
  match extractToolResultId slot.message with
  | none => s.push slot
  | some id =>
    if id ∈ s.seenToolResultIds then s.pushSeen id slot
    else
      { s with
        out := s.out ++ [slot]
        seenToolResultIds := id :: s.seenToolResultIds
        toolResultPositions := Function.update s.toolResultPositions id (some s.out.length) }

end RepairState

/-! ## One turn -/

/-- `toolCallNamesById.get(id)`: the last name given for the id. -/
def toolCallName (toolCalls : List ToolCall) (id : String) : Option String :=
  (toolCalls.reverse.find? fun call => call.id = id && call.name.isSome).bind ToolCall.name

def normalizeName (toolCalls : List ToolCall) (id : String) (slot : Slot) : Slot :=
  { slot with message := (normalizeToolResultName slot.message (toolCallName toolCalls id)).1 }

def normalizeLegacy (toolCalls : List ToolCall) (slot : Slot) : Slot :=
  { slot with message := (normalizeLegacyToolResultId slot.message toolCalls).1 }

/-- `Map` from ids to results, in the order of insertion. -/
abbrev ResultsById := List (String × Slot)

def ResultsById.get (results : ResultsById) (id : String) : Option Slot :=
  (results.find? fun entry => entry.1 = id).map Prod.snd

def ResultsById.replace (results : ResultsById) (id : String) (slot : Slot) : ResultsById :=
  results.map fun entry => if entry.1 = id then (id, slot) else entry

/-- What the scan of a span has found. -/
structure SpanScan where
  state : RepairState
  spanResultsById : ResultsById := []
  remainder : List Slot := []

/-- The change flag of a result of the span. -/
def RepairState.noteRewritten (s : RepairState) (rewritten : Bool) : RepairState :=
  { s with changed := s.changed || rewritten }

/-- A result of the span, after `normalizeLegacyToolResultId`. -/
def scanToolResult (toolCalls : List ToolCall) (scan : SpanScan) (rewritten : Bool)
    (toolResult : Slot) : SpanScan :=
  match extractToolResultId toolResult.message with
  | none => { scan with state := scan.state.dropOrphan }
  | some id =>
    let normalized := normalizeName toolCalls id toolResult
    if id ∈ scan.state.seenToolResultIds then
      { scan with state := scan.state.pushToolResult normalized }
    else if toolCalls.any fun call => call.id = id then
      let renamed := (normalizeToolResultName toolResult.message (toolCallName toolCalls id)).2
      let state := scan.state.noteRewritten (rewritten || renamed)
      match scan.spanResultsById.get id with
      | none =>
        { scan with state, spanResultsById := scan.spanResultsById ++ [(id, normalized)] }
      | some existingSpan =>
        if isSyntheticMissingToolResult existingSpan.message &&
            !isSyntheticMissingToolResult normalized.message then
          { scan with
            state := state.dropDuplicate
            spanResultsById := scan.spanResultsById.replace id normalized }
        else { scan with state := state.dropDuplicate }
    else { scan with state := scan.state.dropOrphan }

/-- One turn of the loop over the span. -/
def scanSlot (toolCalls : List ToolCall) (scan : SpanScan) (next : Slot) : SpanScan :=
  if isToolResult next.message then
    scanToolResult toolCalls scan (normalizeLegacyToolResultId next.message toolCalls).2
      (normalizeLegacy toolCalls next)
  else { scan with remainder := scan.remainder ++ [next] }

/-- The result that `collectLaterMatchingToolResults` finds for a call, in the slots after the
span. -/
def laterResult (toolCalls : List ToolCall) (seen : List String) (rest : List Slot)
    (call : ToolCall) : Option Slot :=
  let explicit := rest.find? fun slot =>
    isToolResult slot.message && extractToolResultId slot.message = some call.id
  match explicit with
  | some slot => some (normalizeName toolCalls call.id slot)
  | none =>
    if toolCalls.length = 1 then
      let legacy := rest.find? fun slot =>
        isToolResult slot.message && (extractToolResultId slot.message).isNone &&
          (extractToolResultId (normalizeLegacy toolCalls slot).message).any
            fun id => id ∉ seen
      match legacy with
      | none => none
      | some slot =>
        if extractToolResultId (normalizeLegacy toolCalls slot).message = some call.id then
          some (normalizeName toolCalls call.id (normalizeLegacy toolCalls slot))
        else none
    else none

def collectLaterMatchingToolResults (toolCalls : List ToolCall) (seen : List String)
    (rest : List Slot) : ResultsById :=
  toolCalls.foldl
    (fun results call =>
      if call.id ∈ seen || (results.get call.id).isSome then results
      else
        match laterResult toolCalls seen rest call with
        | some slot => results ++ [(call.id, slot)]
        | none => results)
    []

/-- `makeMissingToolResult` for a call, and its entry in `added`. -/
def RepairState.pushMissing (s : RepairState) (options : ToolUseResultPairingOptions)
    (clock : Nat → Int) (call : ToolCall) : RepairState :=
  let missing := makeMissingToolResult call.id call.name options.missingToolResultText (clock s.made)
  { s with added := s.added ++ [missing], changed := true, made := s.made + 1 }.pushToolResult
    ⟨missing, none⟩

/-- One turn of the loop that answers the calls. -/
def answerCall (options : ToolUseResultPairingOptions) (clock : Nat → Int) (span : ResultsById)
    (acc : RepairState × ResultsById) (call : ToolCall) : RepairState × ResultsById :=
  match span.get call.id with
  | some existing => (acc.1.pushToolResult existing, acc.2)
  | none =>
    match acc.2.get call.id with
    | some later =>
      ({ acc.1 with moved := true, changed := true }.pushToolResult later,
        acc.2.filter fun entry => entry.1 ≠ call.id)
    | none => (acc.1.pushMissing options clock call, acc.2)

/-- The results that an errored turn keeps. -/
def keepResult (span : ResultsById) (s : RepairState) (call : ToolCall) : RepairState :=
  match span.get call.id with
  | none => s
  | some result => s.pushToolResult result

def repairTurn (options : ToolUseResultPairingOptions) (clock : Nat → Int) (s : RepairState)
    (turn : Turn) (rest : List Slot) : RepairState :=
  let toolCalls := turn.toolCalls
  let scan := turn.span.foldl (scanSlot toolCalls) { state := s }
  if isErrored turn.assistant.message then
    let kept :=
      if !options.dropErroredAssistantResults then
        toolCalls.foldl (keepResult scan.spanResultsById) (scan.state.push turn.assistant)
      else { scan.state with changed := true }
    scan.remainder.foldl RepairState.push kept
  else
    let pushed := scan.state.push turn.assistant
    let reordered := !scan.spanResultsById.isEmpty && !scan.remainder.isEmpty
    let noted := { pushed with
      moved := pushed.moved || reordered
      changed := pushed.changed || reordered }
    let later := collectLaterMatchingToolResults toolCalls noted.seenToolResultIds rest
    let answered := (toolCalls.foldl (answerCall options clock scan.spanResultsById)
      (noted, later)).1
    scan.remainder.foldl RepairState.push answered

/-! ## The whole transcript -/

/-- A message before the first turn. -/
def repairLeading (s : RepairState) (slot : Slot) : RepairState :=
  if isToolResult slot.message then s.dropOrphan else s.push slot

def repairTurns (options : ToolUseResultPairingOptions) (clock : Nat → Int) (s : RepairState) :
    List Turn → RepairState
  | [] => s
  | turn :: turns =>
    repairTurns options clock (repairTurn options clock s turn (turns.flatMap Turn.slots)) turns

def toSlots (messages : List Json) : List Slot :=
  messages.zipIdx.map fun (message, index) => ⟨message, some index⟩

def repairState (options : ToolUseResultPairingOptions) (clock : Nat → Int)
    (messages : List Json) : RepairState :=
  repairTurns options clock ((splitTurns (toSlots messages)).1.foldl repairLeading {})
    (splitTurns (toSlots messages)).2

structure ToolUseRepairReport where
  slots : List Slot
  added : List Json
  droppedDuplicateCount : Nat
  droppedOrphanCount : Nat
  moved : Bool

def ToolUseRepairReport.messages (report : ToolUseRepairReport) : List Json :=
  report.slots.map Slot.message

def repairToolUseResultPairing (options : ToolUseResultPairingOptions) (clock : Nat → Int)
    (messages : List Json) : ToolUseRepairReport :=
  let s := repairState options clock messages
  let changedOrMoved := s.changed || s.moved
  { slots := if changedOrMoved then s.out else toSlots messages
    added := s.added
    droppedDuplicateCount := s.droppedDuplicateCount
    droppedOrphanCount := s.droppedOrphanCount
    moved := changedOrMoved }

end OpenClaw.Transcript
