import OpenClaw.ToolCallRepair.StreamNormalizer

/-!
# When the normalizer changes nothing

**Theorem (`normalizer_transparent_iff`).** Let no text that is held back exceed the cap, and let no
done event be repaired. Then the normalizer yields the events of its source up to the end, as they
are and in their order, exactly if nothing gets past text that is held back:

* no event that is not an object comes while text is held back, because it is not held back itself;
* the source does not throw while text is held back, because that text is then dropped.

One step keeps `Quiet`: what was yielded and what is held back are together the events so far.
-/

namespace OpenClaw.ToolCallRepair

open Js

/-! ## What is held back -/

def isDone (event : Value) : Bool :=
  event.isRecord && !isBufferedTextEvent event && eventType event = units "done"

def isError (event : Value) : Bool :=
  event.isRecord && !isBufferedTextEvent event && eventType event = units "error"

/-- The generator returns after such an event. -/
def endsStream (options : PlainTextToolCallStreamNormalizerOptions) (event : Value) : Bool :=
  isError event || (isDone event && options.stopAfterDone)

/-- The events up to and including the one the generator returns after. -/
def upToEnd (options : PlainTextToolCallStreamNormalizerOptions) : List Value → List Value
  | [] => []
  | event :: events =>
    if endsStream options event then [event] else event :: upToEnd options events

theorem upToEnd_cons (options : PlainTextToolCallStreamNormalizerOptions) (event : Value)
    (events : List Value) :
    upToEnd options (event :: events) =
      event :: if endsStream options event then [] else upToEnd options events := by
  rw [upToEnd]
  split <;> rfl

variable (lower : Str → Str)

/-- The text that is held back after an event, `none` when there is none. -/
def heldAfter (matcher : PlainTextToolCallNameMatcher) (held : Option Str) (event : Value) :
    Option Str :=
  if event.isRecord && isBufferedTextEvent event then
    let text := appendTextToolCallBuffer (held.getD []) event
    if getPlainTextToolCallBufferState lower matcher text = .impossible then none else some text
  else if isDone event || isError event then none
  else held

/-- No text that is held back exceeds the cap. -/
def withinCap (matcher : PlainTextToolCallNameMatcher) : Option Str → List Value → Bool
  | _, [] => true
  | held, event :: events =>
    (!(event.isRecord && isBufferedTextEvent event) ||
      (appendTextToolCallBuffer (held.getD []) event).length ≤ textToolCallBufferMaxChars) &&
    withinCap matcher (heldAfter lower matcher held event) events

theorem withinCap_cons (matcher : PlainTextToolCallNameMatcher) (held : Option Str)
    (event : Value) (events : List Value) :
    withinCap lower matcher held (event :: events) = true ↔
      (event.isRecord = true → isBufferedTextEvent event = true →
        (appendTextToolCallBuffer (held.getD []) event).length ≤ textToolCallBufferMaxChars) ∧
      withinCap lower matcher (heldAfter lower matcher held event) events = true := by
  rw [withinCap]
  cases event.isRecord <;> cases isBufferedTextEvent event <;> simp

/-- Nothing gets past text that is held back. -/
def heldBackInOrder (options : PlainTextToolCallStreamNormalizerOptions) (ending : SourceEnd) :
    Option Str → List Value → Bool
  | held, [] => ending = .closed || held.isNone
  | held, event :: events =>
    (event.isRecord || held.isNone) &&
      (endsStream options event ||
        heldBackInOrder options ending (heldAfter lower options.matcher held event) events)

/-! ## The invariant -/

/-- Nothing is suppressed or reclassified, and the buffer is that of the text held back. -/
structure Quiet (st : NormalizerState) (held : Option Str) : Prop where
  notSuppressing : st.suppressingOverCapTextToolCall = false
  notScrubbing : st.scrubReclassifiedMixedTextFromDone = false
  notReclassified : st.reclassifiedMixedTextContentIndex = none
  notVisible : st.reclassifiedMixedVisibleText = none
  text : st.bufferedText = held.getD []
  events : st.bufferedEvents = [] ↔ held = none
  records : ∀ event ∈ st.bufferedEvents, event.isRecord = true

theorem quiet_initial : Quiet .initial none :=
  ⟨rfl, rfl, rfl, rfl, rfl, by simp [NormalizerState.initial], by simp [NormalizerState.initial]⟩

theorem Quiet.flush {st : NormalizerState} {held : Option Str} (h : Quiet st held) :
    Quiet (flushBufferedEvents st).1 none :=
  ⟨h.notSuppressing, h.notScrubbing, h.notReclassified, h.notVisible, rfl, by
    simp [flushBufferedEvents], by simp [flushBufferedEvents]⟩

theorem Quiet.push {st : NormalizerState} {held : Option Str} (h : Quiet st held) {event : Value}
    (hrecord : event.isRecord = true) (text : Str) :
    Quiet { st with bufferedEvents := st.bufferedEvents ++ [event], bufferedText := text }
      (some text) := by
  refine ⟨h.notSuppressing, h.notScrubbing, h.notReclassified, h.notVisible, rfl, by simp, ?_⟩
  intro other hmem
  rcases List.mem_append.mp hmem with hmem | hmem
  · exact h.records other hmem
  · rw [List.mem_singleton.mp hmem]
    exact hrecord

/-! ## One step -/

/-- What one step yields and holds back is what was held back, and the event. -/
structure StepSpec (options : PlainTextToolCallStreamNormalizerOptions) (st : NormalizerState)
    (held : Option Str) (event : Value) (result : Normalized) : Prop where
  quiet : Quiet result.state (heldAfter lower options.matcher held event)
  events : result.yields ++ result.state.bufferedEvents = st.bufferedEvents ++ [event]
  returns : result.returns = endsStream options event
  flushed : endsStream options event = true → result.state.bufferedEvents = []

variable {text : Str}

theorem getPlainTextToolCallBufferState_ne_overCap (matcher : PlainTextToolCallNameMatcher)
    (h : text.length ≤ textToolCallBufferMaxChars) :
    getPlainTextToolCallBufferState lower matcher text ≠ .overCap := by
  rw [getPlainTextToolCallBufferState]
  split_ifs <;> simp

theorem truncate_eq_self (h : text.length ≤ textToolCallBufferMaxChars) :
    truncateSuppressedTextToolCallBuffer text = text := by
  have hmax : textToolCallBufferMaxChars ≤ textToolCallSuppressedScanMaxChars := by decide
  exact if_pos (h.trans hmax)

variable {options : PlainTextToolCallStreamNormalizerOptions} {st : NormalizerState}
  {held : Option Str} {event : Value}

section

variable (h : Quiet st held)
include h

theorem normalizeTextEvent_quiet
    (hcap : (appendTextToolCallBuffer (held.getD []) event).length ≤ textToolCallBufferMaxChars) :
    normalizeTextEvent lower options st event =
      if getPlainTextToolCallBufferState lower options.matcher
          (appendTextToolCallBuffer (held.getD []) event) = .impossible then
        flushBufferedEvents { st with
          bufferedEvents := st.bufferedEvents ++ [event]
          bufferedText := appendTextToolCallBuffer (held.getD []) event }
      else
        ({ st with
          bufferedEvents := st.bufferedEvents ++ [event]
          bufferedText := appendTextToolCallBuffer (held.getD []) event }, []) := by
  have hstate := getPlainTextToolCallBufferState_ne_overCap lower options.matcher hcap
  have hbuffer : normalizeTextEvent lower options st event =
      bufferTextEvent lower options st event := by
    simp [normalizeTextEvent, continuesReclassified, h.notReclassified, h.notVisible,
      h.notSuppressing]
  rw [hbuffer, bufferTextEvent, h.text]
  generalize appendTextToolCallBuffer (held.getD []) event = text at hcap hstate ⊢
  rw [truncate_eq_self hcap]
  have hshort : ¬ textToolCallBufferMaxChars < text.length := Nat.not_lt.mpr hcap
  cases hcase : getPlainTextToolCallBufferState lower options.matcher text with
  | overCap => exact absurd hcase hstate
  | possible => simp
  | impossible => simp [hshort]

theorem normalizeEvent_text (hrecord : event.isRecord = true)
    (htext : isBufferedTextEvent event = true)
    (hcap : (appendTextToolCallBuffer (held.getD []) event).length ≤ textToolCallBufferMaxChars) :
    StepSpec lower options st held event (normalizeEvent lower options st event) := by
  have hends : endsStream options event = false := by simp [endsStream, isError, isDone, htext]
  have hpushed := h.push hrecord (appendTextToolCallBuffer (held.getD []) event)
  have hnormalize : normalizeEvent lower options st event =
      ⟨(normalizeTextEvent lower options st event).1,
        (normalizeTextEvent lower options st event).2, false⟩ := by
    simp [normalizeEvent, hrecord, htext]
  rw [hnormalize, normalizeTextEvent_quiet lower h hcap]
  by_cases himpossible : getPlainTextToolCallBufferState lower options.matcher
      (appendTextToolCallBuffer (held.getD []) event) = .impossible
  · rw [if_pos himpossible]
    refine ⟨?_, by simp [flushBufferedEvents], hends.symm, by simp [flushBufferedEvents]⟩
    simpa [heldAfter, hrecord, htext, himpossible] using hpushed.flush
  · rw [if_neg himpossible]
    refine ⟨?_, by simp, hends.symm, by simp [hends]⟩
    simpa [heldAfter, hrecord, htext, himpossible] using hpushed

theorem normalizeEvent_done (hdone : isDone event = true)
    (hundefined : options.normalizeDoneMessage (event.field "message") (event.field "reason") =
      none) : StepSpec lower options st held event (normalizeEvent lower options st event) := by
  obtain ⟨⟨hrecord, htext⟩, htype⟩ : (event.isRecord = true ∧ isBufferedTextEvent event = false) ∧
      eventType event = units "done" := by simpa [isDone] using hdone
  have hnotError : isError event = false := by
    simp only [isError, htype]
    simp [show units "done" ≠ units "error" by decide]
  have hnormalize : normalizeEvent lower options st event =
      ⟨(flushBufferedEvents st).1, (flushBufferedEvents st).2 ++ [event],
        options.stopAfterDone⟩ := by
    simp [normalizeEvent, hrecord, htext, htype, normalizeDoneEvent, hundefined,
      strippedMixedMessage, h.notScrubbing, h.notSuppressing]
  rw [hnormalize]
  refine ⟨?_, by simp [flushBufferedEvents], ?_, by simp [flushBufferedEvents]⟩
  · simpa [heldAfter, hrecord, htext, hdone] using h.flush
  · simp [endsStream, hnotError, hdone]

theorem normalizeEvent_error (herror : isError event = true) :
    StepSpec lower options st held event (normalizeEvent lower options st event) := by
  obtain ⟨⟨hrecord, htext⟩, htype⟩ : (event.isRecord = true ∧ isBufferedTextEvent event = false) ∧
      eventType event = units "error" := by simpa [isError] using herror
  have hne : units "error" ≠ units "done" := by decide
  have hnormalize : normalizeEvent lower options st event =
      ⟨(flushBufferedEvents st).1, (flushBufferedEvents st).2 ++ [event], true⟩ := by
    simp [normalizeEvent, hrecord, htext, htype, hne, normalizeErrorEvent, h.notSuppressing,
      h.notScrubbing, flushBufferedEvents]
  rw [hnormalize]
  refine ⟨?_, by simp [flushBufferedEvents], ?_, by simp [flushBufferedEvents]⟩
  · simpa [heldAfter, hrecord, htext, herror] using h.flush
  · simp [endsStream, herror]

theorem normalizeEvent_other (hrecord : event.isRecord = true)
    (htext : isBufferedTextEvent event = false) (hdone : isDone event = false)
    (herror : isError event = false) :
    StepSpec lower options st held event (normalizeEvent lower options st event) := by
  have hends : endsStream options event = false := by simp [endsStream, hdone, herror]
  have hheld : heldAfter lower options.matcher held event = held := by
    simp [heldAfter, htext, hdone, herror]
  have htypes : eventType event ≠ units "done" ∧ eventType event ≠ units "error" := by
    constructor
    · intro htype
      simp [isDone, hrecord, htext, htype] at hdone
    · intro htype
      simp [isError, hrecord, htext, htype] at herror
  have hnormalize : normalizeEvent lower options st event =
      ⟨(normalizeOtherEvent lower options st event).1,
        (normalizeOtherEvent lower options st event).2, false⟩ := by
    simp [normalizeEvent, hrecord, htext, htypes]
  by_cases hempty : st.bufferedEvents = []
  · have hyield : normalizeOtherEvent lower options st event = (st, [event]) := by
      simp [normalizeOtherEvent, h.notScrubbing, h.notSuppressing, hempty]
    rw [hnormalize, hyield]
    exact ⟨hheld.symm ▸ h, by simp [hempty], hends.symm, fun _ => hempty⟩
  · have hpush : normalizeOtherEvent lower options st event =
        ({ st with bufferedEvents := st.bufferedEvents ++ [event] }, []) := by
      simp [normalizeOtherEvent, h.notScrubbing, h.notSuppressing, hempty]
    obtain ⟨text, rfl⟩ := Option.ne_none_iff_exists'.mp fun hnone => hempty (h.events.mpr hnone)
    rw [hnormalize, hpush]
    have hquiet := h.push hrecord st.bufferedText
    rw [h.text] at hquiet
    refine ⟨?_, by simp, hends.symm, by simp [hends]⟩
    rw [hheld]
    simpa [h.text] using hquiet

end

theorem normalizeEvent_primitive (hrecord : event.isRecord = false) :
    normalizeEvent lower options st event = ⟨st, [event], false⟩ := by
  simp [normalizeEvent, hrecord]

/-- **One step**, unless an event that is no object gets past text that is held back. -/
theorem normalizeEvent_spec (h : Quiet st held)
    (hcap : event.isRecord = true → isBufferedTextEvent event = true →
      (appendTextToolCallBuffer (held.getD []) event).length ≤ textToolCallBufferMaxChars)
    (hdone : isDone event = true →
      options.normalizeDoneMessage (event.field "message") (event.field "reason") = none)
    (hpass : event.isRecord = true ∨ held = none) :
    StepSpec lower options st held event (normalizeEvent lower options st event) := by
  by_cases hrecord : event.isRecord = true
  · by_cases htext : isBufferedTextEvent event = true
    · exact normalizeEvent_text lower h hrecord htext (hcap hrecord htext)
    · rw [Bool.not_eq_true] at htext
      by_cases hisDone : isDone event = true
      · exact normalizeEvent_done lower h hisDone (hdone hisDone)
      · by_cases hisError : isError event = true
        · exact normalizeEvent_error lower h hisError
        · exact normalizeEvent_other lower h hrecord htext (Bool.not_eq_true _ ▸ hisDone)
            (Bool.not_eq_true _ ▸ hisError)
  · have hnone := hpass.resolve_left hrecord
    rw [Bool.not_eq_true] at hrecord
    have hempty := h.events.mpr hnone
    rw [normalizeEvent_primitive lower hrecord]
    refine ⟨?_, by simp [hempty], ?_, fun _ => hempty⟩
    · simpa [heldAfter, isDone, isError, hrecord] using h
    · simp [endsStream, isDone, isError, hrecord]

/-! ## A whole run -/

theorem normalizeFrom_eq_iff (ending : SourceEnd) (events : List Value) (h : Quiet st held)
    (hcap : withinCap lower options.matcher held (upToEnd options events) = true)
    (hdone : ∀ event ∈ upToEnd options events, isDone event = true →
      options.normalizeDoneMessage (event.field "message") (event.field "reason") = none) :
    normalizeFrom lower options ending st events = st.bufferedEvents ++ upToEnd options events ↔
      heldBackInOrder lower options ending held events = true := by
  induction events generalizing st held with
  | nil =>
    rw [normalizeFrom, upToEnd, List.append_nil, heldBackInOrder]
    cases ending with
    | closed => simp [finish, h.notSuppressing]
    | throws =>
      have hheld := h.events
      simp only [finish]
      rw [eq_comm, hheld]
      simp
  | cons event events ih =>
    rw [upToEnd_cons] at hcap hdone ⊢
    rw [withinCap_cons] at hcap
    rw [heldBackInOrder, Bool.and_eq_true]
    by_cases hpass : event.isRecord = true ∨ held = none
    · have hstep := normalizeEvent_spec lower h hcap.1 (hdone event List.mem_cons_self) hpass
      have horder : (event.isRecord || held.isNone) = true := by simpa using hpass
      rw [normalizeFrom, hstep.returns]
      cases hends : endsStream options event with
      | true =>
        have hyields := hstep.events
        rw [hstep.flushed hends, List.append_nil] at hyields
        simp [hyields, horder]
      | false =>
        rw [hends] at hcap hdone
        have hrest := ih hstep.quiet hcap.2 fun other hother =>
          hdone other (List.mem_cons_of_mem _ hother)
        have hsplit : st.bufferedEvents ++ event :: upToEnd options events =
            (normalizeEvent lower options st event).yields ++
              ((normalizeEvent lower options st event).state.bufferedEvents ++
                upToEnd options events) := by
          rw [← List.append_assoc, hstep.events, List.append_assoc, List.singleton_append]
        simp [hsplit, hrest, horder]
    · -- The first element of what is held back is an object, and the first that is yielded is not.
      have hrecord : event.isRecord = false := by
        rw [← Bool.not_eq_true]
        exact fun hrecord => hpass (.inl hrecord)
      have hheld : st.bufferedEvents ≠ [] := fun hempty => hpass (.inr (h.events.mp hempty))
      obtain ⟨first, rest, hfirst⟩ := List.exists_cons_of_ne_nil hheld
      constructor
      · intro heq
        rw [normalizeFrom, normalizeEvent_primitive lower hrecord, hfirst] at heq
        have hhead : event = first := (List.cons.inj heq).1
        have hobject := h.records first (by rw [hfirst]; exact List.mem_cons_self)
        rw [← hhead, hrecord] at hobject
        cases hobject
      · intro horder
        exact absurd (by simpa using horder.1) hpass

/-- **The normalizer changes nothing, exactly if nothing gets past text that is held back.** -/
theorem normalizer_transparent_iff (lower : Str → Str)
    (options : PlainTextToolCallStreamNormalizerOptions) (ending : SourceEnd)
    (events : List Value)
    (hcap : withinCap lower options.matcher none (upToEnd options events) = true)
    (hdone : ∀ event ∈ upToEnd options events, isDone event = true →
      options.normalizeDoneMessage (event.field "message") (event.field "reason") = none) :
    normalizePlainTextToolCallStreamEvents lower options events ending =
        upToEnd options events ↔
      heldBackInOrder lower options ending none events = true :=
  normalizeFrom_eq_iff lower ending events quiet_initial hcap hdone

local instance lawfulBEq_options : LawfulBEq Str := inferInstance

/-- Options for the tools of a request that repair no done event. -/
def observingOptions (toolNames : List Str) : PlainTextToolCallStreamNormalizerOptions where
  createPromotedToolCallEvents _ := []
  matcher := ⟨fun name => name ∈ toolNames, fun part => toolNames.any part.isPrefixOf⟩
  normalizeDoneMessage _ _ := none
  stopAfterDone := true

def textDelta (delta : String) : Value :=
  .obj [("type", .str (units "text_delta")), ("contentIndex", .num 0), ("delta", .str (units delta))]

def doneEvent : Value := .obj [("type", .str (units "done")), ("reason", .str (units "stop"))]

/-- Two deltas that look like the beginning of a call, and one that shows that they are not. -/
theorem normalizer_transparent_read :
    normalizePlainTextToolCallStreamEvents (List.map lowerUnit) (observingOptions [units "read"])
        [textDelta "[re", textDelta "ad", textDelta "y] yes", doneEvent] .closed =
      upToEnd (observingOptions [units "read"])
        [textDelta "[re", textDelta "ad", textDelta "y] yes", doneEvent] :=
  (normalizer_transparent_iff (List.map lowerUnit) (observingOptions [units "read"]) .closed
    [textDelta "[re", textDelta "ad", textDelta "y] yes", doneEvent] (by decide +kernel)
    fun _ _ _ => rfl).mpr (by decide +kernel)

/-- `null` comes while `[` is held back, and goes out before it. -/
theorem null_overtakes_text :
    withinCap (List.map lowerUnit) (observingOptions [units "read"]).matcher none
        (upToEnd (observingOptions [units "read"]) [textDelta "[", .null, doneEvent]) = true ∧
      normalizePlainTextToolCallStreamEvents (List.map lowerUnit)
          (observingOptions [units "read"]) [textDelta "[", .null, doneEvent] .closed ≠
        upToEnd (observingOptions [units "read"]) [textDelta "[", .null, doneEvent] := by
  refine ⟨by decide +kernel, ?_⟩
  intro heq
  have hrecords := congrArg (List.map Value.isRecord) heq
  revert hrecords
  decide +kernel

end OpenClaw.ToolCallRepair
