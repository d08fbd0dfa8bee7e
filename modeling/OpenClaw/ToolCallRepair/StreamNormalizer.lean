import OpenClaw.ToolCallRepair.Scrub

/-!
# `normalizePlainTextToolCallStreamEvents` of `tool-call-repair/src/stream-normalizer.ts`

The generator takes the events of a provider stream one by one. Text that may be a serialized call
is held back, with what comes between, until it is known not to be one or the message is done.
-/

namespace OpenClaw.ToolCallRepair

open Js

/-! ## Options -/

/-- `PlainTextToolCallMessageNormalization`, less `undefined`. -/
inductive MessageNormalization
  | promoted (message : Value)
  | scrubbed (message : Value)

structure PlainTextToolCallStreamNormalizerOptions where
  createPromotedToolCallEvents : Value → List Value
  matcher : PlainTextToolCallNameMatcher
  /-- Given the message and the reason of a done event. -/
  normalizeDoneMessage : Value → Value → Option MessageNormalization
  stopAfterDone : Bool

/-! ## State -/

/-- The variables of the generator. An index that is not there is `none`. -/
structure NormalizerState where
  bufferedEvents : List Value
  bufferedText : Str
  suppressingOverCapTextToolCall : Bool
  suppressedTextContentIndex : Option Value
  reclassifiedMixedTextContentIndex : Option Value
  scrubReclassifiedMixedTextFromDone : Bool
  reclassifiedMixedVisibleText : Option Str

namespace NormalizerState

def initial : NormalizerState := ⟨[], [], false, none, none, false, none⟩

def suppressedIndex (st : NormalizerState) : Value := st.suppressedTextContentIndex.getD .undefined

def reclassifiedIndex (st : NormalizerState) : Value :=
  st.reclassifiedMixedTextContentIndex.getD .undefined

/-- Nothing is held back, suppressed or reclassified. -/
def reset (st : NormalizerState) : NormalizerState :=
  { st with
    bufferedEvents := []
    bufferedText := []
    suppressingOverCapTextToolCall := false
    suppressedTextContentIndex := none
    reclassifiedMixedTextContentIndex := none
    scrubReclassifiedMixedTextFromDone := false
    reclassifiedMixedVisibleText := none }

end NormalizerState

/-- What the generator does with an event: its new state, what it yields, and whether it returns. -/
structure Normalized where
  state : NormalizerState
  yields : List Value
  returns : Bool

/-! ## Flushing -/

def flushBufferedEvents (st : NormalizerState) : NormalizerState × List Value :=
  ({ st with bufferedEvents := [], bufferedText := [] }, st.bufferedEvents)

def eventType (event : Value) : Str := ((event.field "type").asStr).getD []

local instance lawfulBEq_str : LawfulBEq Str := inferInstance

def isBufferedTextEvent (event : Value) : Bool :=
  eventType event ∈ [units "text_start", units "text_delta", units "text_end"]

variable (lower : Str → Str) (options : PlainTextToolCallStreamNormalizerOptions)

def flushScrubbedBufferedNonTextEvents (st : NormalizerState) (resetBufferedText : Bool) :
    NormalizerState × List Value :=
  let yields := (st.bufferedEvents.filter fun event => !isBufferedTextEvent event).map fun event =>
    if event.isRecord then
      scrubBufferedTextFromPartial lower options.matcher event st.bufferedText st.suppressedIndex
        st.suppressingOverCapTextToolCall
    else event
  ({ st with
      bufferedEvents := []
      bufferedText := if resetBufferedText then [] else st.bufferedText }, yields)

def suppressBufferedTextEvents (st : NormalizerState) : NormalizerState × List Value :=
  flushScrubbedBufferedNonTextEvents lower options
    { st with suppressingOverCapTextToolCall := true } false

/-- The text after complete calls goes out as a delta, and later snapshots show only it. -/
def reclassify (st : NormalizerState) (event : Value) (visibleText : Str) :
    NormalizerState × List Value :=
  let (st, yields) := flushScrubbedBufferedNonTextEvents lower options st true
  ({ st with
      reclassifiedMixedTextContentIndex := some (event.field "contentIndex")
      scrubReclassifiedMixedTextFromDone := true
      reclassifiedMixedVisibleText := some visibleText },
    yields ++
      if trim visibleText ≠ [] then [createScrubbedTextDeltaEvent event visibleText] else [])

/-! ## Text events -/

/-- A text event while the text of a call over the cap is suppressed. -/
def suppressTextEvent (st : NormalizerState) (event : Value) : NormalizerState × List Value :=
  if st.suppressedTextContentIndex.any fun index => !(event.field "contentIndex").same index then
    if isAllowedTextToolCallLikeEvent lower options.matcher event then (st, [])
    else
      (st, [scrubBufferedTextFromPartial lower options.matcher event st.bufferedText
        st.suppressedIndex true])
  else
    let appended := appendSuppressedTextToolCallBuffer st.bufferedText event
    let shouldRescan := appended.changed &&
      shouldRescanSuppressedTextToolCallBuffer lower st.bufferedText event
    let bufferState :=
      if shouldRescan then getPlainTextToolCallBufferState lower options.matcher appended.scanText
      else .overCap
    let st := { st with bufferedText := appended.text }
    if bufferState = .impossible then
      let visibleText :=
        (stripSerializedToolCallPrefixes lower options.matcher appended.scanText).getD []
      let (st, yields) := reclassify lower options st event visibleText
      ({ st with
          suppressingOverCapTextToolCall := false
          suppressedTextContentIndex := none }, yields)
    else (st, [])

/-- A text event while nothing is suppressed: it is held back, until its text is no call. -/
def bufferTextEvent (st : NormalizerState) (event : Value) : NormalizerState × List Value :=
  let bufferedText := appendTextToolCallBuffer st.bufferedText event
  let st := { st with bufferedEvents := st.bufferedEvents ++ [event], bufferedText }
  let scanBufferedText := truncateSuppressedTextToolCallBuffer bufferedText
  let scanWasTruncated := scanBufferedText.length ≠ bufferedText.length
  let suppressed := { st with
    bufferedText := scanBufferedText
    suppressedTextContentIndex := some (event.field "contentIndex") }
  match getPlainTextToolCallBufferState lower options.matcher scanBufferedText with
  | .possible => (st, [])
  | .overCap => suppressBufferedTextEvents lower options suppressed
  | .impossible =>
    let visibleText :=
      if !scanWasTruncated && textToolCallBufferMaxChars < bufferedText.length then
        stripSerializedToolCallPrefixes lower options.matcher (trimStart bufferedText)
      else none
    match visibleText.filter fun text => trim text ≠ [] with
    | some visibleText => reclassify lower options st event visibleText
    | none =>
      if scanWasTruncated &&
          (stripSerializedToolCallPrefixes lower options.matcher
            (trimStart scanBufferedText)).isSome then
        suppressBufferedTextEvents lower options suppressed
      else flushBufferedEvents st

/-- Does a text event continue the block that was reclassified? -/
def continuesReclassified (st : NormalizerState) (event : Value) : Bool :=
  st.reclassifiedMixedTextContentIndex.any (event.field "contentIndex").same

def normalizeTextEvent (st : NormalizerState) (event : Value) : NormalizerState × List Value :=
  if eventType event = units "text_end" && continuesReclassified st event then (st, [])
  else
    match st.reclassifiedMixedVisibleText with
    | some visibleText =>
      if st.scrubReclassifiedMixedTextFromDone && continuesReclassified st event then
        let visibleText := appendReclassifiedVisibleDelta visibleText event
        ({ st with reclassifiedMixedVisibleText := some visibleText },
          [scrubReclassifiedMixedText options.matcher "partial" event visibleText
            st.reclassifiedIndex])
      else if st.suppressingOverCapTextToolCall then suppressTextEvent lower options st event
      else bufferTextEvent lower options st event
    | none =>
      if st.suppressingOverCapTextToolCall then suppressTextEvent lower options st event
      else bufferTextEvent lower options st event

/-! ## Done, errors and other events -/

/-- The message of a done event with the reclassified text only, if it is scrubbed that way. -/
def strippedMixedMessage (st : NormalizerState) (message : Value) : Option Value :=
  if st.scrubReclassifiedMixedTextFromDone && message.isRecord then
    st.reclassifiedMixedVisibleText.map fun visibleText =>
      replaceTextContentWithVisibleSuffix message visibleText st.reclassifiedIndex
        (some options.matcher)
  else none

def normalizeDoneEvent (st : NormalizerState) (event : Value) : NormalizerState × List Value :=
  let message := event.field "message"
  let (flushed, yields) := flushScrubbedBufferedNonTextEvents lower options st true
  match options.normalizeDoneMessage message (event.field "reason") with
  | some (.promoted message) =>
    (flushed.reset, yields ++ options.createPromotedToolCallEvents message ++
      [(event.setField "reason" (.str (units "toolUse"))).setField "message" message])
  | some (.scrubbed message) => (flushed.reset, yields ++ [event.setField "message" message])
  | none =>
    match strippedMixedMessage options st message with
    | some message =>
      ({ flushed with
          scrubReclassifiedMixedTextFromDone := false
          reclassifiedMixedTextContentIndex := none
          reclassifiedMixedVisibleText := none },
        yields ++ [event.setField "message" message])
    | none =>
      if st.suppressingOverCapTextToolCall then
        (flushed.reset, yields ++
          [scrubBufferedTextFromMessage lower options.matcher event st.bufferedText
            st.suppressedIndex])
      else
        let (st, yields) := flushBufferedEvents st
        (st, yields ++ [event])

def normalizeErrorEvent (st : NormalizerState) (event : Value) : NormalizerState × List Value :=
  if st.suppressingOverCapTextToolCall then
    (st, [scrubBufferedTextFromError lower options.matcher
      (scrubBufferedTextFromPartial lower options.matcher event st.bufferedText st.suppressedIndex
        true)
      st.bufferedText st.suppressedIndex])
  else
    let (st, yields) := flushBufferedEvents st
    match st.scrubReclassifiedMixedTextFromDone, st.reclassifiedMixedVisibleText with
    | true, some visibleText =>
      (st, yields ++ [scrubReclassifiedMixedText options.matcher "error"
        (scrubReclassifiedMixedText options.matcher "partial" event visibleText
          st.reclassifiedIndex)
        visibleText st.reclassifiedIndex])
    | _, _ => (st, yields ++ [event])

def normalizeOtherEvent (st : NormalizerState) (event : Value) : NormalizerState × List Value :=
  match st.scrubReclassifiedMixedTextFromDone, st.reclassifiedMixedVisibleText with
  | true, some visibleText =>
    (st, [scrubReclassifiedMixedText options.matcher "partial" event visibleText
      st.reclassifiedIndex])
  | _, _ =>
    if st.suppressingOverCapTextToolCall then
      (st, [scrubBufferedTextFromPartial lower options.matcher event st.bufferedText
        st.suppressedIndex true])
    else if st.bufferedEvents ≠ [] then
      ({ st with bufferedEvents := st.bufferedEvents ++ [event] }, [])
    else (st, [event])

/-! ## The generator -/

/-- The body of the loop, for one event. -/
def normalizeEvent (st : NormalizerState) (event : Value) : Normalized :=
  if !event.isRecord then ⟨st, [event], false⟩
  else if isBufferedTextEvent event then
    let (st, yields) := normalizeTextEvent lower options st event
    ⟨st, yields, false⟩
  else if eventType event = units "done" then
    let (st, yields) := normalizeDoneEvent lower options st event
    ⟨st, yields, options.stopAfterDone⟩
  else if eventType event = units "error" then
    let (st, yields) := normalizeErrorEvent lower options st event
    ⟨st, yields, true⟩
  else
    let (st, yields) := normalizeOtherEvent lower options st event
    ⟨st, yields, false⟩

/-- How a source that is not left early comes to its end. -/
inductive SourceEnd
  | closed
  /-- The source throws, and so does the generator. -/
  | throws
  deriving DecidableEq

/-- What follows the loop. -/
def finish (st : NormalizerState) : SourceEnd → List Value
  | .closed => if st.suppressingOverCapTextToolCall then [] else st.bufferedEvents
  | .throws => []

/-- What the generator yields for a source, from a state on. -/
def normalizeFrom (ending : SourceEnd) (st : NormalizerState) : List Value → List Value
  | [] => finish st ending
  | event :: events =>
    let result := normalizeEvent lower options st event
    if result.returns then result.yields
    else result.yields ++ normalizeFrom ending result.state events

def normalizePlainTextToolCallStreamEvents (events : List Value) (ending : SourceEnd) :
    List Value :=
  normalizeFrom lower options ending .initial events

end OpenClaw.ToolCallRepair
