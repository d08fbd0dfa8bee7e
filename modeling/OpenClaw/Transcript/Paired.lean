import OpenClaw.Transcript.RepairRun

/-!
# Pairing of tool calls and tool results

**Theorem (`repairToolUseResultPairing_paired_iff`).** The output is paired and `added` lists what
was made, if and only if

* no turn that did not fail calls an id that was answered before or that it calls twice (`Fresh`),
  and
* the repair has something to do, or the results stand in place as they are (`AllSettled`,
  `Turn.InPlace`).

Ids are compared as results are read: trimmed.
-/

namespace OpenClaw.Transcript

open RepairState

/-! ## The property -/

/-- What pairing sees of a message: a result with its id, or an assistant message with the ids of
its tool calls. -/
inductive Shape
  | result (id : Option String)
  | turn (errored : Bool) (ids : List (Option String))
  | other
  deriving DecidableEq

def shape (message : Json) : Shape :=
  if isToolResult message then .result (extractToolResultId message)
  else if assistantHasToolCalls message then
    .turn (isErrored message) ((extractToolCallsFromAssistant message).map callId)
  else .other

variable {message : Json}

theorem shape_of_result (h : isToolResult message = true) :
    shape message = .result (extractToolResultId message) := if_pos h

/-- Every turn that did not fail is followed by one result for each of its calls, in order; no
result is anywhere else but after a turn that failed. -/
inductive Paired : List Shape → Prop
  | nil : Paired []
  | other {shapes : List Shape} : Paired shapes → Paired (.other :: shapes)
  | answered (ids : List (Option String)) {shapes : List Shape} : Paired shapes →
    Paired (.turn false ids :: (ids.map .result ++ shapes))
  | errored (ids results : List (Option String)) {shapes : List Shape} : Paired shapes →
    Paired (.turn true ids :: (results.map .result ++ shapes))

def NoResultFirst : List Shape → Prop
  | .result _ :: _ => False
  | _ => True

variable {shapes : List Shape}

theorem Paired.noResultFirst (h : Paired shapes) : NoResultFirst shapes := by
  cases h <;> trivial

variable {ids : List (Option String)}

theorem results_append_inj {ids' : List (Option String)} {shapes' : List Shape}
    (h : ids.map Shape.result ++ shapes = ids'.map Shape.result ++ shapes')
    (hshapes : NoResultFirst shapes) (hshapes' : NoResultFirst shapes') :
    ids = ids' ∧ shapes = shapes' := by
  induction ids generalizing ids' with
  | nil =>
    cases ids' with
    | nil => exact ⟨rfl, h⟩
    | cons id' ids' =>
      rw [List.map_nil, List.nil_append] at h
      rw [h] at hshapes
      exact hshapes.elim
  | cons id ids ih =>
    cases ids' with
    | nil =>
      rw [List.map_nil, List.nil_append] at h
      rw [← h] at hshapes'
      exact hshapes'.elim
    | cons id' ids' =>
      injection h with hid hrest
      injection hid with hid
      obtain ⟨hids, hshapes⟩ := ih hrest
      exact ⟨by rw [hid, hids], hshapes⟩

variable {results : List (Option String)}

theorem paired_answered_iff (hshapes : NoResultFirst shapes) :
    Paired (.turn false ids :: (results.map .result ++ shapes)) ↔
      results = ids ∧ Paired shapes := by
  constructor
  · intro h
    generalize hlist : Shape.turn false ids :: (results.map Shape.result ++ shapes) = list at h
    cases h with
    | nil => cases hlist
    | other => cases hlist
    | errored => cases hlist
    | answered ids' h =>
      injection hlist with hturn hrest
      injection hturn with _ hids
      obtain ⟨hresults, heq⟩ := results_append_inj hrest hshapes h.noResultFirst
      exact ⟨hresults.trans hids.symm, heq ▸ h⟩
  · rintro ⟨rfl, h⟩
    exact .answered results h

theorem paired_errored_iff (hshapes : NoResultFirst shapes) :
    Paired (.turn true ids :: (results.map .result ++ shapes)) ↔ Paired shapes := by
  constructor
  · intro h
    generalize hlist : Shape.turn true ids :: (results.map Shape.result ++ shapes) = list at h
    cases h with
    | nil => cases hlist
    | other => cases hlist
    | answered => cases hlist
    | errored ids' results' h =>
      injection hlist with hturn hrest
      obtain ⟨-, heq⟩ := results_append_inj hrest hshapes h.noResultFirst
      exact heq ▸ h
  · exact .errored ids results

theorem paired_other_iff : Paired (.other :: shapes) ↔ Paired shapes :=
  ⟨fun h => by cases h; assumption, .other⟩

theorem not_paired_result {id : Option String} :
    ¬ Paired (.result id :: shapes) := fun h => h.noResultFirst

variable {slots : List Slot}

theorem paired_others_iff (hslots : ∀ slot ∈ slots, shape slot.message = .other) :
    Paired (slots.map (fun slot => shape slot.message) ++ shapes) ↔ Paired shapes := by
  induction slots with
  | nil => exact Iff.rfl
  | cons slot slots ih =>
    rw [List.map_cons, hslots slot List.mem_cons_self, List.cons_append, paired_other_iff]
    exact ih fun other hmem => hslots other (List.mem_cons_of_mem _ hmem)

theorem noResultFirst_others (hslots : ∀ slot ∈ slots, shape slot.message = .other)
    (hshapes : NoResultFirst shapes) :
    NoResultFirst (slots.map (fun slot => shape slot.message) ++ shapes) := by
  cases slots with
  | nil => exact hshapes
  | cons slot slots =>
    rw [List.map_cons, hslots slot List.mem_cons_self]
    trivial

theorem shape_other (hresult : isToolResult message = false)
    (hcalls : assistantHasToolCalls message = false) : shape message = .other := by
  rw [shape, if_neg (by rw [hresult]; decide), if_neg (by rw [hcalls]; decide)]

variable {turn : Turn}

theorem Turn.FromInput.others (h : turn.FromInput) :
    ∀ slot ∈ others turn.span, shape slot.message = .other := by
  intro slot hmem
  obtain ⟨hmem, hresult⟩ := List.mem_filter.mp hmem
  rw [Bool.not_eq_true'] at hresult
  exact shape_other hresult (h.span slot hmem).1

theorem Turn.FromInput.shape (h : turn.FromInput) : shape turn.assistant.message =
    .turn (isErrored turn.assistant.message) (turn.toolCalls.map callId) := by
  rw [Transcript.shape, if_neg (by rw [not_isToolResult_of_hasToolCalls h.hasToolCalls]; decide),
    if_pos h.hasToolCalls]
  rfl

/-! ## The output -/

/-- The shapes that the turns add to the output. -/
def outShapes (options : ToolUseResultPairingOptions) : List String → List Turn → List Shape
  | _, [] => []
  | seen, turn :: turns =>
    (turn.header options).map (fun slot => shape slot.message) ++
      (emit seen (turn.answeredIds options seen)).1.map .result ++
      (others turn.span).map (fun slot => shape slot.message) ++
      outShapes options (emit seen (turn.answeredIds options seen)).2 turns

def Kind.shape : Kind → Shape
  | .result id => .result id
  | .other slot => Transcript.shape slot.message

theorem kind_shape (slot : Slot) : (kind slot).shape = shape slot.message := by
  cases hresult : isToolResult slot.message with
  | true => rw [kind_of_result hresult, shape_of_result hresult, Kind.shape]
  | false => rw [kind_of_other hresult, Kind.shape]

theorem map_kind_shape (slots : List Slot) :
    (slots.map kind).map Kind.shape = slots.map fun slot => shape slot.message := by
  rw [List.map_map]
  exact List.map_congr_left fun slot _ => kind_shape slot

theorem map_outKinds_shape (options : ToolUseResultPairingOptions) (seen : List String)
    (turns : List Turn) :
    (outKinds options seen turns).map Kind.shape = outShapes options seen turns := by
  induction turns generalizing seen with
  | nil => rfl
  | cons turn turns ih =>
    rw [outKinds, outShapes, List.map_append, List.map_append, List.map_append, map_kind_shape,
      map_kind_shape, ih, List.map_map]
    rfl

variable {turns : List Turn}

theorem noResultFirst_outShapes (options : ToolUseResultPairingOptions) (hturns : FromInput turns)
    (seen : List String) : NoResultFirst (outShapes options seen turns) := by
  induction turns generalizing seen with
  | nil => trivial
  | cons turn turns ih =>
    obtain ⟨hturn, hturns⟩ := List.forall_mem_cons.mp hturns
    rw [outShapes, Turn.header]
    by_cases hdropped : turn.Dropped options
    · rw [Turn.answeredIds, if_pos hdropped, if_pos hdropped, List.append_assoc]
      exact noResultFirst_others hturn.others (ih hturns _)
    · rw [if_neg hdropped, List.map_singleton, hturn.shape]
      trivial

variable {options : ToolUseResultPairingOptions} {seen : List String}

theorem paired_outShapes_iff (hturns : FromInput turns) :
    Paired (outShapes options seen turns) ↔ Fresh options seen turns := by
  induction turns generalizing seen with
  | nil => exact iff_of_true .nil trivial
  | cons turn turns ih =>
    obtain ⟨hturn, hturns⟩ := List.forall_mem_cons.mp hturns
    have hrest := noResultFirst_others hturn.others (noResultFirst_outShapes options hturns
      (emit seen (turn.answeredIds options seen)).2)
    have hseen : Fresh options (emit seen (turn.answeredIds options seen)).2 turns ↔
        Fresh options (turn.seenAfter options seen) turns := fresh_congr fun _ => mem_emit
    rw [outShapes, Fresh, ← hseen, ← ih hturns, Turn.header, List.append_assoc,
      List.append_assoc]
    by_cases hdropped : turn.Dropped options
    · rw [Turn.answeredIds, if_pos hdropped, if_pos hdropped, hdropped.1]
      change Paired (_ ++ outShapes options seen turns) ↔ _
      rw [paired_others_iff hturn.others]
      exact (and_iff_right fun h => by cases h).symm
    · rw [if_neg hdropped, List.map_singleton, hturn.shape, List.singleton_append]
      cases herrored : isErrored turn.assistant.message with
      | true =>
        rw [paired_errored_iff hrest, paired_others_iff hturn.others]
        exact (and_iff_right fun h => by cases h).symm
      | false =>
        have hids : turn.answeredIds options seen = turn.toolCalls.map callId := by
          rw [Turn.answeredIds, if_neg hdropped, if_neg (by rw [herrored]; decide)]
        rw [paired_answered_iff hrest, paired_others_iff hturn.others, hids, emit_eq_iff,
          imp_iff_right rfl]

/-! ## Results that stand in place -/

/-- The results of the turn stand where they belong: in the order of the calls, or before all other
messages if the turn failed. -/
def Turn.InPlace (turn : Turn) : Prop :=
  if isErrored turn.assistant.message then
    ∀ slot ∈ turn.span.dropWhile (fun slot => isToolResult slot.message),
      isToolResult slot.message = false
  else resultIds turn.span = (callIds turn.toolCalls).map some

theorem map_shape_results (h : ∀ slot ∈ slots, isToolResult slot.message = true) :
    slots.map (fun slot => shape slot.message) = (resultIds slots).map .result := by
  rw [resultIds, List.filter_eq_self.mpr h, List.map_map]
  exact List.map_congr_left fun slot hmem => shape_of_result (h slot hmem)

theorem paired_span_iff (hslots : ∀ slot ∈ slots, assistantHasToolCalls slot.message = false) :
    Paired (slots.map (fun slot => shape slot.message) ++ shapes) ↔
      (∀ slot ∈ slots, isToolResult slot.message = false) ∧ Paired shapes := by
  induction slots with
  | nil => exact (and_iff_right fun _ h => absurd h List.not_mem_nil).symm
  | cons slot slots ih =>
    obtain ⟨hslot, hslots⟩ := List.forall_mem_cons.mp hslots
    rw [List.forall_mem_cons, List.map_cons, List.cons_append]
    cases hresult : isToolResult slot.message with
    | true =>
      rw [shape_of_result hresult]
      exact ⟨fun h => absurd h not_paired_result, fun h => by cases h.1.1⟩
    | false =>
      rw [shape_other hresult hslot, paired_other_iff, ih hslots, and_assoc]
      exact (and_iff_right rfl).symm

theorem noResultFirst_turns (hturns : FromInput turns) :
    NoResultFirst ((turns.flatMap Turn.slots).map fun slot => shape slot.message) := by
  cases turns with
  | nil => trivial
  | cons turn turns =>
    rw [List.flatMap_cons, Turn.slots, List.cons_append, List.map_cons,
      (hturns turn List.mem_cons_self).shape]
    trivial

theorem noResultFirst_dropWhile
    (hslots : ∀ slot ∈ slots, assistantHasToolCalls slot.message = false)
    (hshapes : NoResultFirst shapes) :
    NoResultFirst ((slots.dropWhile fun slot => isToolResult slot.message).map
      (fun slot => shape slot.message) ++ shapes) := by
  induction slots with
  | nil => exact hshapes
  | cons slot slots ih =>
    obtain ⟨hslot, hslots⟩ := List.forall_mem_cons.mp hslots
    rw [List.dropWhile_cons]
    split
    · exact ih hslots
    · rename_i hresult
      rw [List.map_cons, shape_other (Bool.not_eq_true _ ▸ hresult) hslot]
      trivial

theorem map_shape_span (span : List Slot) : span.map (fun slot => shape slot.message) =
    (resultIds (span.takeWhile fun slot => isToolResult slot.message)).map .result ++
      (span.dropWhile fun slot => isToolResult slot.message).map fun slot =>
        shape slot.message := by
  have hresults : ∀ slot ∈ span.takeWhile (fun slot => isToolResult slot.message),
      isToolResult slot.message = true :=
    fun slot hmem => List.mem_takeWhile_imp (p := fun slot : Slot => isToolResult slot.message) hmem
  rw [← map_shape_results hresults, ← List.map_append, List.takeWhile_append_dropWhile]

theorem callId_of_mem_resultIds {span : List Slot} {call : ToolCall}
    (h : some call.id ∈ resultIds span) : callId call = some call.id := by
  obtain ⟨slot, -, hid⟩ := List.mem_map.mp h
  exact callId_of_extract hid

theorem paired_slots_iff (hturns : FromInput turns) (hsettled : AllSettled options seen turns) :
    Paired ((turns.flatMap Turn.slots).map fun slot => shape slot.message) ↔
      ∀ turn ∈ turns, turn.InPlace := by
  induction turns generalizing seen with
  | nil => exact iff_of_true .nil fun _ h => absurd h List.not_mem_nil
  | cons turn turns ih =>
    obtain ⟨hturn, hturns⟩ := List.forall_mem_cons.mp hturns
    obtain ⟨hfirst, hsettled⟩ := hsettled
    have hcalls := fun slot hmem => (hturn.span slot hmem).1
    rw [List.forall_mem_cons, ← ih hturns hsettled, List.flatMap_cons, Turn.slots,
      List.cons_append, List.map_cons, List.map_append, hturn.shape, Turn.InPlace]
    cases herrored : isErrored turn.assistant.message with
    | true =>
      rw [if_pos rfl, map_shape_span, List.append_assoc,
        paired_errored_iff (noResultFirst_dropWhile hcalls (noResultFirst_turns hturns)),
        paired_span_iff fun slot hmem =>
          hcalls slot ((List.dropWhile_sublist _).subset hmem)]
    | false =>
      obtain ⟨hanswered, hothers⟩ := hfirst.answered herrored
      have hresults : ∀ slot ∈ turn.span, isToolResult slot.message = true := by
        intro slot hmem
        have hnot := List.filter_eq_nil_iff.mp hothers slot hmem
        simpa using hnot
      have hids : turn.toolCalls.map callId = (callIds turn.toolCalls).map some := by
        rw [callIds, List.map_map]
        exact List.map_congr_left fun call hmem =>
          callId_of_mem_resultIds (hanswered _ (List.mem_map_of_mem hmem))
      rw [if_neg Bool.false_ne_true, map_shape_results hresults,
        paired_answered_iff (noResultFirst_turns hturns), hids]

/-! ## The result -/

/-- What the input has to be for the output to be paired. -/
structure PairsUp (options : ToolUseResultPairingOptions) (messages : List Json) : Prop where
  fresh : Fresh options [] (splitTurns (toSlots messages)).2
  inPlace : (∀ slot ∈ (splitTurns (toSlots messages)).1, isToolResult slot.message = false) →
    AllSettled options [] (splitTurns (toSlots messages)).2 →
      ∀ turn ∈ (splitTurns (toSlots messages)).2, turn.InPlace

/-- The messages of the report are paired, and `added` lists the results that were made. -/
def ToolUseRepairReport.IsPaired (report : ToolUseRepairReport) : Prop :=
  Paired (report.messages.map shape) ∧ report.added = madeResults report.slots

theorem fresh_of_allSettled (h : AllSettled options seen turns) : Fresh options seen turns := by
  induction turns generalizing seen with
  | nil => trivial
  | cons turn turns ih =>
    refine ⟨fun herrored => ?_, ih h.2⟩
    have hnew := h.1.new
    rwa [Turn.answeredIds, if_neg h.1.stays, if_neg (by rw [herrored]; decide)] at hnew

theorem madeResults_toSlots (messages : List Json) : madeResults (toSlots messages) = [] := by
  rw [madeResults, List.map_eq_nil_iff, List.filter_eq_nil_iff]
  intro slot hmem horigin
  exact toSlots_origin messages slot hmem (of_decide_eq_true horigin)

theorem repairToolUseResultPairing_paired_iff (options : ToolUseResultPairingOptions)
    (clock : Nat → Int) (messages : List Json) :
    (repairToolUseResultPairing options clock messages).IsPaired ↔ PairsUp options messages := by
  obtain ⟨hleading, hturns⟩ := splitTurns_fromInput (toSlots_origin messages)
  have hslots := splitTurns_slots (toSlots messages)
  have hrepaired := repaired options clock messages
  have hothers : ∀ slot ∈ others (splitTurns (toSlots messages)).1,
      shape slot.message = .other := by
    intro slot hmem
    obtain ⟨hmem, hresult⟩ := List.mem_filter.mp hmem
    rw [Bool.not_eq_true'] at hresult
    exact shape_other hresult (hleading slot hmem).1
  unfold repairToolUseResultPairing
  dsimp only
  generalize repairState options clock messages = s at hrepaired
  have hpaired : Paired (s.out.map fun slot => shape slot.message) ↔
      Fresh options [] (splitTurns (toSlots messages)).2 := by
    rw [← map_kind_shape, show s.out.map kind = s.kinds from rfl, hrepaired.kinds,
      List.map_append, map_kind_shape, map_outKinds_shape, paired_others_iff hothers,
      paired_outShapes_iff hturns]
  cases hup : s.changed with
  | true =>
    -- the output is what was built
    have hnot : ¬ ((∀ slot ∈ (splitTurns (toSlots messages)).1,
        isToolResult slot.message = false) ∧
          AllSettled options [] (splitTurns (toSlots messages)).2) := by
      rw [← hrepaired.changed, hup]
      decide
    constructor
    · rintro ⟨h, -⟩
      exact ⟨hpaired.mp (by rwa [Bool.true_or, if_pos rfl, ToolUseRepairReport.messages,
        List.map_map] at h), fun h₁ h₂ => absurd ⟨h₁, h₂⟩ hnot⟩
    · rintro ⟨hfresh, -⟩
      refine ⟨?_, ?_⟩
      · rw [Bool.true_or, if_pos rfl, ToolUseRepairReport.messages, List.map_map]
        exact hpaired.mpr hfresh
      · rw [Bool.true_or, if_pos rfl]
        exact (hrepaired.exact hfresh).added
  | false =>
    -- the output is the input
    obtain ⟨hnone, hsettled⟩ := hrepaired.changed.mp hup
    have hinput : Paired ((toSlots messages).map fun slot => shape slot.message) ↔
        ∀ turn ∈ (splitTurns (toSlots messages)).2, turn.InPlace := by
      rw [← hslots, List.map_append, paired_others_iff fun slot hmem =>
        shape_other (hnone slot hmem) (hleading slot hmem).1, hslots]
      exact paired_slots_iff hturns hsettled
    rw [hrepaired.moved hup, Bool.false_or, if_neg Bool.false_ne_true, hrepaired.added hup]
    constructor
    · rintro ⟨h, -⟩
      rw [ToolUseRepairReport.messages, List.map_map] at h
      exact ⟨fresh_of_allSettled hsettled, fun _ _ => hinput.mp h⟩
    · rintro ⟨-, hinPlace⟩
      refine ⟨?_, (madeResults_toSlots messages).symm⟩
      rw [ToolUseRepairReport.messages, List.map_map]
      exact hinput.mpr (hinPlace hnone hsettled)

/-- An assistant message that calls `read` with the id. -/
def callingRead (id : String) : Json :=
  .obj [("role", .str "assistant"), ("content", .arr [.obj [("type", .str "toolCall"),
    ("id", .str id), ("name", .str "read")]]), ("stopReason", .str "toolUse")]

def resultOfRead (id : String) : Json :=
  .obj [("role", .str "toolResult"), ("toolCallId", .str id), ("toolName", .str "read"),
    ("content", .arr [])]

/-- The second turn calls the id of the first: its call stays without a result, and the one that
`added` lists for it was not put in. -/
theorem reused_id_not_paired : ¬ (repairToolUseResultPairing {} (fun _ => 0)
    [callingRead "a", resultOfRead "a", callingRead "a"]).IsPaired := by
  rintro ⟨-, hadded⟩
  have hone : (repairToolUseResultPairing {} (fun _ => 0)
      [callingRead "a", resultOfRead "a", callingRead "a"]).added.length = 1 := by
    decide +kernel
  have hnone : (madeResults (repairToolUseResultPairing {} (fun _ => 0)
      [callingRead "a", resultOfRead "a", callingRead "a"]).slots).length = 0 := by
    decide +kernel
  rw [hadded, hnone] at hone
  cases hone

end OpenClaw.Transcript
