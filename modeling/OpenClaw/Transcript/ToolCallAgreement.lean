import OpenClaw.Transcript.RepairRun
import OpenClaw.Transcript.ReplayStable

/-!
# Do the two passes agree on what a tool call is?

`sanitizeToolCallInputs` keeps blocks of six types with an id under any of six names. Pairing sees
blocks of three of these types, with an id under `id`.

**Theorem (`inputs_and_pairing_agree_iff`).** Every raw block that survives has its result directly
after its turn, and the first pass gives the same again, if and only if

* pairing sees every surviving raw block, and no result with its id went to an earlier turn
  (`AllVisible`); or there is nothing to repair, and the results are there already, and
* the surviving transcript is `ReplayStable`.

No surviving raw block lacks input, id or an allowed name: `survivors_complete`.
-/

namespace OpenClaw.Transcript

/-! ## Blocks that survive -/

def rawBlocks (message : Json) : List Json := (contentBlocks message).filter isRawToolCallBlock

/-- The id of a raw block, under the first name that has one. -/
def rawToolCallId (block : Json) : Option String := (rawIds block).head?

/-- A raw block that lacks nothing. -/
structure CompleteBlock (env : JsEnv) (allowedToolNames : Option (List String)) (block : Json) :
    Prop where
  input : hasToolCallInput block = true
  id : hasToolCallId block = true
  allowed : isAllowedToolCallName env (block.strField "name") allowedToolNames = true

variable {env : JsEnv}

variable {allowedToolNames : Option (List String)} {content : List Json}

theorem complete_of_settledContent (h : SettledContent env allowedToolNames content) :
    ∀ block ∈ content, isRawToolCallBlock block = true →
      CompleteBlock env allowedToolNames block := by
  intro block hmem hraw
  obtain ⟨hinput, hid, hallowed, -⟩ := keepBlock_raw hraw (h block hmem .null)
  exact ⟨hinput, hid, hallowed⟩

variable {seen : List String}

theorem complete_of_replaySafeFrom (h : replaySafeFrom env allowedToolNames seen content = true) :
    ∀ block ∈ content, isRawToolCallBlock block = true →
      CompleteBlock env allowedToolNames block := by
  induction content generalizing seen with
  | nil => exact fun _ hmem => absurd hmem List.not_mem_nil
  | cons first content ih =>
    rw [List.forall_mem_cons]
    unfold replaySafeFrom at h
    split at h
    · rename_i hraw
      rw [Bool.not_eq_true'] at hraw
      exact ⟨fun h' => absurd (hraw.symm.trans h') Bool.false_ne_true, ih h⟩
    · dsimp only at h
      split at h
      · cases h
      · rename_i hcomplete
        simp only [Bool.or_eq_true, Bool.not_eq_true', decide_eq_true_eq, not_or,
          Bool.not_eq_false] at hcomplete
        obtain ⟨⟨⟨⟨hinput, -⟩, hid⟩, -⟩, hallowed⟩ := hcomplete
        split at h
        · cases h
        · refine ⟨fun _ => ⟨hinput, ?_, hallowed⟩, ih h⟩
          rw [hasToolCallId, rawToolCallIdKeys, List.any_cons, Bool.or_eq_true]
          left
          cases hfield : first.strField "id" with
          | none =>
            rw [hfield] at hid
            exact absurd rfl hid
          | some id =>
            have hne : JsString.trim id ≠ "" := by
              rwa [hfield] at hid
            rw [normalizeOptionalString, Option.map_some, Option.filter_some,
              if_pos (decide_eq_true hne)]
            rfl

variable {options : ToolCallInputRepairOptions} {s : InputRepairState} {kept : List Json}

theorem MessageStep.complete {t : InputRepairState} {message : Json} {rest : List Json}
    (h : MessageStep env options s message rest t kept) :
    ∀ other ∈ kept, isAssistant other = true → ∀ block ∈ rawBlocks other,
      CompleteBlock env (normalizeAllowedToolNames env options.allowedToolNames) block := by
  intro other hmem hrole block hblock
  obtain ⟨hblock, hraw⟩ := List.mem_filter.mp hblock
  cases h with
  | dropped => exact absurd hmem List.not_mem_nil
  | other hother =>
    cases List.mem_singleton.mp hmem
    unfold contentBlocks at hblock
    split at hblock
    · rename_i content hcontent
      rcases hother with h | h
      · exact absurd (h.symm.trans hrole) Bool.false_ne_true
      · exact absurd hcontent (h content)
    · cases hblock
  | tool t kept content hmessage hrole hcontent hsettled =>
    cases List.mem_singleton.mp hmem
    rw [contentBlocks_of_field hcontent] at hblock
    exact complete_of_settledContent hsettled block hblock hraw
  | thinking content hrole hcontent hthinking hkeeps =>
    cases List.mem_singleton.mp hmem
    rw [contentBlocks_of_field hcontent] at hblock
    have hsafe := (keepsThinkingTurn_iff.mp hkeeps).1
    rw [isReplaySafeThinkingAssistantTurn, Bool.and_eq_true] at hsafe
    exact complete_of_replaySafeFrom hsafe.1 block hblock hraw

variable {messages : List Json}

theorem InputRun.complete {u : InputRepairState} (h : InputRun env options s messages u kept) :
    ∀ other ∈ kept, isAssistant other = true → ∀ block ∈ rawBlocks other,
      CompleteBlock env (normalizeAllowedToolNames env options.allowedToolNames) block := by
  induction h with
  | nil => exact fun _ hmem => absurd hmem List.not_mem_nil
  | cons step run ih =>
    intro other hmem
    rcases List.mem_append.mp hmem with hmem | hmem
    · exact step.complete other hmem
    · exact ih other hmem

theorem survivors_complete (env : JsEnv) (options : ToolCallInputRepairOptions)
    (messages : List Json) : ∀ message ∈ sanitizeToolCallInputs env options messages,
      isAssistant message = true → ∀ block ∈ rawBlocks message,
        CompleteBlock env (normalizeAllowedToolNames env options.allowedToolNames) block := by
  obtain ⟨kept, hrun⟩ := inputRun_repairFrom env options {} messages
  rw [hrun.sanitize]
  exact hrun.complete

/-! ## Answers -/

/-- The messages whose raw blocks are to be answered. -/
structure Calls (message : Json) : Prop where
  assistant : isAssistant message = true
  stopReason : isErrored message = false
  distinct : ((rawBlocks message).map rawToolCallId).Nodup

/-- The message is in the list, and every raw block has its result directly after it. -/
def AnsweredAt (slots : List Slot) (slot : Slot) : Prop :=
  ∃ pre post, slots = pre ++ slot :: post ∧ ∀ block ∈ rawBlocks slot.message,
    ∃ result ∈ post.takeWhile (fun other => isToolResult other.message),
      extractToolResultId result.message = rawToolCallId block

/-- All raw blocks of the messages have their results in the list. -/
def AllAnswered (messages : List Json) (slots : List Slot) : Prop :=
  ∀ slot ∈ toSlots messages, Calls slot.message → AnsweredAt slots slot

/-- Pairing sees the raw blocks of the message, and their ids are new. -/
def VisibleBlocks (seen : List String) (message : Json) : Prop :=
  Calls message → ∀ block ∈ rawBlocks message, ∃ id, rawToolCallId block = some id ∧
    some id ∈ (extractToolCallsFromAssistant message).map callId ∧ id ∉ seen

def TurnsVisible (options : ToolUseResultPairingOptions) : List String → List Turn → Prop
  | _, [] => True
  | seen, turn :: turns =>
    VisibleBlocks seen turn.assistant.message ∧
      (∀ slot ∈ turn.span, VisibleBlocks [] slot.message) ∧
      TurnsVisible options (turn.seenAfter options seen) turns

/-- Pairing sees all raw blocks, and their ids are new. -/
def AllVisible (options : ToolUseResultPairingOptions) (messages : List Json) : Prop :=
  (∀ slot ∈ (splitTurns (toSlots messages)).1, VisibleBlocks [] slot.message) ∧
    TurnsVisible options [] (splitTurns (toSlots messages)).2

/-! ## Where a message stands in the output -/

/-- The ids of the results at the front. -/
def leadingIds : List Kind → List (Option String)
  | .result id :: kinds => id :: leadingIds kinds
  | _ => []

theorem leadingIds_results (ids : List (Option String)) (kinds : List Kind) :
    leadingIds (ids.map .result ++ kinds) = ids ++ leadingIds kinds := by
  induction ids with
  | nil => rfl
  | cons id ids ih =>
    rw [List.map_cons, List.cons_append, leadingIds, ih]
    rfl

theorem leadingIds_other (slot : Slot) (kinds : List Kind) :
    leadingIds (.other slot :: kinds) = [] := rfl

variable {slots : List Slot}

theorem mem_leadingIds {id : Option String} : id ∈ leadingIds (slots.map kind) ↔
      ∃ result ∈ slots.takeWhile (fun slot => isToolResult slot.message),
        extractToolResultId result.message = id := by
  induction slots with
  | nil => exact ⟨fun h => absurd h List.not_mem_nil, fun ⟨_, h, _⟩ => absurd h List.not_mem_nil⟩
  | cons slot slots ih =>
    rw [List.map_cons, List.takeWhile_cons]
    cases hresult : isToolResult slot.message with
    | true =>
      rw [kind_of_result hresult, leadingIds, if_pos rfl, List.mem_cons, ih]
      simp only [List.mem_cons, exists_eq_or_imp]
      exact or_congr_left eq_comm
    | false =>
      rw [kind_of_other hresult, leadingIds_other, if_neg Bool.false_ne_true]
      exact ⟨fun h => absurd h List.not_mem_nil, fun ⟨_, h, _⟩ => absurd h List.not_mem_nil⟩

def Kind.slot? : Kind → Option Slot
  | .result _ => none
  | .other slot => some slot

theorem slot?_other (slot : Slot) : (Kind.other slot).slot? = some slot := rfl

/-- A slot stands in the kinds, and the results directly after it have these ids. -/
def StandsBefore (kinds : List Kind) (slot : Slot) (ids : List (Option String)) : Prop :=
  ∃ pre post, kinds = pre ++ .other slot :: post ∧ leadingIds post = ids

/-- No slot stands twice. -/
def Once (kinds : List Kind) : Prop := (kinds.filterMap Kind.slot?).Nodup

variable {slot : Slot}

theorem eq_of_once {pre post pre' post' : List Kind} (hone : Once (pre ++ .other slot :: post))
    (h : pre ++ .other slot :: post = pre' ++ .other slot :: post') : post = post' := by
  have hnot : ∀ {first : Kind} {kinds rest : List Kind}, first = .other slot →
      Once (first :: (kinds ++ .other slot :: rest)) → False := by
    rintro first kinds rest rfl hone
    rw [Once, List.filterMap_cons_some (slot?_other slot), List.nodup_cons, List.filterMap_append,
      List.filterMap_cons_some (slot?_other slot)] at hone
    exact hone.1 (List.mem_append_right _ List.mem_cons_self)
  induction pre generalizing pre' with
  | nil =>
    cases pre' with
    | nil => exact (List.cons.inj h).2
    | cons first pre' =>
      rw [h] at hone
      exact (hnot (List.cons.inj h).1.symm hone).elim
  | cons first pre ih =>
    cases pre' with
    | nil => exact (hnot (List.cons.inj h).1 hone).elim
    | cons first' pre' =>
      refine ih ?_ (List.cons.inj h).2
      rw [Once, List.cons_append, List.filterMap_cons] at hone
      split at hone
      · exact hone
      · exact (List.nodup_cons.mp hone).2

variable {ids : List (Option String)}

theorem answeredAt_iff (hslot : isToolResult slot.message = false) (honce : Once (slots.map kind))
    (h : StandsBefore (slots.map kind) slot ids) :
    AnsweredAt slots slot ↔ ∀ block ∈ rawBlocks slot.message, rawToolCallId block ∈ ids := by
  obtain ⟨pre, post, hkinds, rfl⟩ := h
  constructor
  · rintro ⟨pre', post', rfl, hblocks⟩ block hblock
    rw [List.map_append, List.map_cons, kind_of_other hslot] at hkinds honce
    rw [← eq_of_once honce hkinds]
    obtain ⟨result, hresult, hid⟩ := hblocks block hblock
    exact mem_leadingIds.mpr ⟨result, hresult, hid⟩
  · intro hblocks
    obtain ⟨pre', rest, rfl, -, hrest⟩ := List.map_eq_append_iff.mp hkinds
    obtain ⟨slot', post', rfl, hslot', hpost⟩ := List.map_eq_cons_iff.mp hrest
    have heq : slot' = slot := by
      unfold kind at hslot'
      split at hslot'
      · cases hslot'
      · exact Kind.other.inj hslot'
    rw [heq]
    refine ⟨pre', post', rfl, fun block hblock => ?_⟩
    have hmem := hblocks block hblock
    rw [← hpost] at hmem
    exact mem_leadingIds.mp hmem

/-! ### No slot stands twice in the output -/

theorem filterMap_slot_kind (slots : List Slot) :
    (slots.map kind).filterMap Kind.slot? = others slots := by
  induction slots with
  | nil => rfl
  | cons slot slots ih =>
    rw [List.map_cons, others]
    cases hresult : isToolResult slot.message with
    | true =>
      rw [kind_of_result hresult, List.filterMap_cons_none rfl, ih,
        List.filter_cons_of_neg (by rw [hresult]; decide)]
      rfl
    | false =>
      rw [kind_of_other hresult, List.filterMap_cons_some (slot?_other slot), ih,
        List.filter_cons_of_pos (by rw [hresult]; decide)]
      rfl

theorem filterMap_slot_results (ids : List (Option String)) :
    (ids.map Kind.result).filterMap Kind.slot? = [] := by
  rw [List.filterMap_eq_nil_iff]
  intro kind hmem
  obtain ⟨id, -, rfl⟩ := List.mem_map.mp hmem
  rfl

theorem others_sublist (slots : List Slot) : (others slots).Sublist slots :=
  List.filter_sublist

theorem filterMap_slot_outKinds (options : ToolUseResultPairingOptions) (seen : List String)
    (turns : List Turn) :
    ((outKinds options seen turns).filterMap Kind.slot?).Sublist (turns.flatMap Turn.slots) := by
  induction turns generalizing seen with
  | nil => exact .slnil
  | cons turn turns ih =>
    rw [outKinds, List.filterMap_append, List.filterMap_append, List.filterMap_append,
      filterMap_slot_results, List.append_nil, filterMap_slot_kind, filterMap_slot_kind,
      List.flatMap_cons, Turn.slots]
    refine .append ?_ (ih _)
    change List.Sublist _ ([turn.assistant] ++ turn.span)
    refine .append ((others_sublist _).trans ?_) ((others_sublist _).trans (others_sublist _))
    rw [Turn.header]
    split
    · exact List.nil_sublist _
    · exact .refl _

theorem toSlots_nodup (messages : List Json) : (toSlots messages).Nodup := by
  apply List.Nodup.of_map Slot.origin
  have horigin : (toSlots messages).map Slot.origin =
      (messages.zipIdx.map Prod.snd).map some := by
    rw [toSlots, List.map_map, List.map_map]
    rfl
  rw [horigin, List.zipIdx_map_snd]
  exact (List.nodup_range' _).map (Option.some_injective _)

theorem once_output (options : ToolUseResultPairingOptions) (messages : List Json) :
    Once ((others (splitTurns (toSlots messages)).1).map kind ++
      outKinds options [] (splitTurns (toSlots messages)).2) := by
  rw [Once, List.filterMap_append, filterMap_slot_kind]
  refine List.Nodup.sublist ?_ (toSlots_nodup messages)
  refine .trans (.append ((others_sublist _).trans (others_sublist _))
    (filterMap_slot_outKinds options _ _)) ?_
  rw [splitTurns_slots]

/-! ### Answered and visible -/

theorem leadingIds_others (slots : List Slot) {kinds : List Kind} (h : leadingIds kinds = []) :
    leadingIds ((others slots).map kind ++ kinds) = [] := by
  cases hothers : others slots with
  | nil => exact h
  | cons slot rest =>
    have hmem : slot ∈ others slots := by
      rw [hothers]
      exact List.mem_cons_self
    have hresult := (List.mem_filter.mp hmem).2
    rw [Bool.not_eq_true'] at hresult
    rw [List.map_cons, kind_of_other hresult]
    rfl

variable {turns : List Turn}

theorem leadingIds_outKinds (options : ToolUseResultPairingOptions) (hturns : FromInput turns)
    (seen : List String) : leadingIds (outKinds options seen turns) = [] := by
  induction turns generalizing seen with
  | nil => rfl
  | cons turn turns ih =>
    obtain ⟨hturn, hturns⟩ := List.forall_mem_cons.mp hturns
    rw [outKinds, Turn.header]
    by_cases hdropped : turn.Dropped options
    · rw [Turn.answeredIds, if_pos hdropped, if_pos hdropped]
      exact leadingIds_others turn.span (ih hturns _)
    · rw [if_neg hdropped, List.map_singleton,
        kind_of_other (not_isToolResult_of_hasToolCalls hturn.hasToolCalls)]
      rfl

variable {before : List Kind}

theorem standsBefore_others {after : List Kind} (hmem : slot ∈ slots)
    (hresult : isToolResult slot.message = false) (hafter : leadingIds after = []) :
    StandsBefore (before ++ ((others slots).map kind ++ after)) slot [] := by
  have hothers : slot ∈ others slots := List.mem_filter.mpr ⟨hmem, by rw [hresult]; rfl⟩
  obtain ⟨pre, post, hsplit⟩ := List.append_of_mem hothers
  refine ⟨before ++ pre.map kind, post.map kind ++ after, ?_, ?_⟩
  · rw [hsplit, List.map_append, List.map_cons, kind_of_other hresult]
    simp only [List.append_assoc, List.cons_append]
  · have hpost : others post = post := by
      rw [others, List.filter_eq_self]
      intro other hother
      have hin : other ∈ others slots := by
        rw [hsplit]
        exact List.mem_append_right _ (List.mem_cons_of_mem _ hother)
      exact (List.mem_filter.mp hin).2
    rw [← hpost]
    exact leadingIds_others post hafter

theorem mem_emit_fst {id : String} : some id ∈ (emit seen ids).1 ↔ some id ∈ ids ∧ id ∉ seen := by
  induction ids generalizing seen with
  | nil => exact ⟨fun h => absurd h List.not_mem_nil, fun h => absurd h.1 List.not_mem_nil⟩
  | cons first ids ih =>
    cases first with
    | none => simp only [emit, List.mem_cons, reduceCtorEq, false_or, ih]
    | some first =>
      rw [emit]
      split
      · rename_i hseen
        rw [ih, List.mem_cons, Option.some.injEq]
        constructor
        · exact fun h => ⟨.inr h.1, h.2⟩
        · rintro ⟨rfl | hmem, hnew⟩
          · exact absurd hseen hnew
          · exact ⟨hmem, hnew⟩
      · rename_i hseen
        rw [List.mem_cons, List.mem_cons, ih, Option.some.injEq, List.mem_cons, not_or]
        constructor
        · rintro (rfl | ⟨hmem, -, hnew⟩)
          · exact ⟨.inl rfl, hseen⟩
          · exact ⟨.inr hmem, hnew⟩
        · rintro ⟨rfl | hmem, hnew⟩
          · exact .inl rfl
          · by_cases heq : id = first
            · exact .inl heq
            · exact .inr ⟨hmem, heq, hnew⟩

/-- Every raw block of the assistant messages has an id. -/
def HaveIds (slots : List Slot) : Prop :=
  ∀ slot ∈ slots, isAssistant slot.message = true → ∀ block ∈ rawBlocks slot.message,
    rawToolCallId block ≠ none

theorem answeredAt_noCalls_iff (hcalls : assistantHasToolCalls slot.message = false)
    (honce : Once (slots.map kind))
    (h : Calls slot.message → StandsBefore (slots.map kind) slot []) :
    (Calls slot.message → AnsweredAt slots slot) ↔ VisibleBlocks seen slot.message := by
  refine forall_congr' fun hslot => ?_
  have hnone : extractToolCallsFromAssistant slot.message = [] := by
    rw [assistantHasToolCalls, hslot.assistant, Bool.true_and, Bool.not_eq_false',
      List.isEmpty_iff] at hcalls
    exact hcalls
  rw [answeredAt_iff (isToolResult_of_isAssistant hslot.assistant) honce (h hslot), hnone]
  refine forall₂_congr fun block _ => ?_
  refine ⟨fun h => absurd h List.not_mem_nil, ?_⟩
  rintro ⟨_, _, h, _⟩
  exact absurd h List.not_mem_nil

theorem turnsAnswered_iff {options : ToolUseResultPairingOptions} (honce : Once (slots.map kind))
    (hturns : FromInput turns) (hids : HaveIds (turns.flatMap Turn.slots)) {seen' : List String}
    (hseen : ∀ id, id ∈ seen ↔ id ∈ seen')
    (hkinds : slots.map kind = before ++ outKinds options seen turns) :
    (∀ slot ∈ turns.flatMap Turn.slots, Calls slot.message → AnsweredAt slots slot) ↔
      TurnsVisible options seen' turns := by
  induction turns generalizing before seen seen' with
  | nil => exact iff_of_true (fun _ h => absurd h List.not_mem_nil) trivial
  | cons turn turns ih =>
    obtain ⟨hturn, hturns⟩ := List.forall_mem_cons.mp hturns
    rw [List.flatMap_cons] at hids ⊢
    obtain ⟨hidsTurn, hidsRest⟩ := List.forall_mem_append.mp hids
    have hidsAssistant := hidsTurn turn.assistant List.mem_cons_self
    have hrest := leadingIds_outKinds options hturns (emit seen (turn.answeredIds options seen)).2
    rw [outKinds] at hkinds
    rw [List.forall_mem_append, TurnsVisible, Turn.slots, List.forall_mem_cons, and_assoc]
    refine and_congr ?_ (and_congr ?_ ?_)
    · refine forall_congr' fun hcalls => ?_
      have hstays : ¬ turn.Dropped options := fun h =>
        Bool.false_ne_true (hcalls.stopReason.symm.trans h.1)
      have hresult := not_isToolResult_of_hasToolCalls hturn.hasToolCalls
      have hanswered : turn.answeredIds options seen = turn.toolCalls.map callId := by
        rw [Turn.answeredIds, if_neg hstays, if_neg (by rw [hcalls.stopReason]; decide)]
      have hstands : StandsBefore (slots.map kind) turn.assistant
          (emit seen (turn.toolCalls.map callId)).1 := by
        refine ⟨before, (emit seen (turn.toolCalls.map callId)).1.map .result ++
          ((others turn.span).map kind ++
            outKinds options (emit seen (turn.toolCalls.map callId)).2 turns), ?_, ?_⟩
        · rw [hkinds, hanswered, Turn.header, if_neg hstays, List.map_singleton,
            kind_of_other hresult]
          simp only [List.append_assoc, List.cons_append, List.nil_append]
        · rw [leadingIds_results, leadingIds_others turn.span
            (leadingIds_outKinds options hturns _), List.append_nil]
      rw [answeredAt_iff hresult honce hstands]
      refine forall₂_congr fun block hblock => ?_
      obtain ⟨id, hid⟩ := Option.ne_none_iff_exists'.mp
        (hidsAssistant hcalls.assistant block hblock)
      rw [hid, mem_emit_fst, hseen id]
      constructor
      · exact fun h => ⟨id, rfl, h⟩
      · rintro ⟨_, heq, h⟩
        cases heq
        exact h
    · refine forall₂_congr fun slot hmem => ?_
      refine answeredAt_noCalls_iff (hturn.span slot hmem).1 honce fun hcalls => ?_
      rw [hkinds, List.append_assoc, ← List.append_assoc before]
      exact standsBefore_others hmem (isToolResult_of_isAssistant hcalls.assistant) hrest
    · refine ih hturns hidsRest (fun id => ?_) (hkinds.trans (List.append_assoc _ _ _).symm)
      rw [mem_emit]
      exact turn.seenAfter_congr hseen id

/-! ## The result -/

def NothingToRepair (options : ToolUseResultPairingOptions) (messages : List Json) : Prop :=
  (∀ slot ∈ (splitTurns (toSlots messages)).1, isToolResult slot.message = false) ∧
    AllSettled options [] (splitTurns (toSlots messages)).2

/-- What the surviving messages have to be for pairing to answer all of their raw blocks. -/
def Answerable (options : ToolUseResultPairingOptions) (messages : List Json) : Prop :=
  (NothingToRepair options messages → AllAnswered messages (toSlots messages)) ∧
    (¬ NothingToRepair options messages → AllVisible options messages)

theorem allAnswered_iff (options : ToolUseResultPairingOptions) (clock : Nat → Int)
    (hids : HaveIds (toSlots messages)) :
    AllAnswered messages (repairToolUseResultPairing options clock messages).slots ↔
      Answerable options messages := by
  obtain ⟨hleading, hturns⟩ := splitTurns_fromInput (toSlots_origin messages)
  have hrepaired := repaired options clock messages
  have honce := once_output options messages
  unfold repairToolUseResultPairing
  dsimp only
  generalize repairState options clock messages = s at hrepaired
  cases hup : s.changed with
  | false =>
    have hnothing : NothingToRepair options messages := hrepaired.changed.mp hup
    rw [hrepaired.moved hup, Bool.or_false, if_neg Bool.false_ne_true]
    exact ⟨fun h => ⟨fun _ => h, fun hnot => absurd hnothing hnot⟩, fun h => h.1 hnothing⟩
  | true =>
    have hnot : ¬ NothingToRepair options messages := by
      intro h
      rw [hrepaired.changed.mpr h] at hup
      cases hup
    have hkinds : s.out.map kind = _ := hrepaired.kinds
    rw [← hkinds] at honce
    rw [Bool.true_or, if_pos rfl]
    refine Iff.trans ?_ ⟨fun h => ⟨fun h' => absurd h' hnot, fun _ => h⟩, fun h => h.2 hnot⟩
    have hslots := splitTurns_slots (toSlots messages)
    rw [HaveIds, ← hslots, List.forall_mem_append] at hids
    rw [AllAnswered, AllVisible, ← turnsAnswered_iff honce hturns hids.2 (fun _ => Iff.rfl) hkinds,
      ← hslots, List.forall_mem_append, hslots]
    refine and_congr_left' (forall₂_congr fun slot hmem => ?_)
    refine answeredAt_noCalls_iff (hleading slot hmem).1 honce fun hcalls => ?_
    rw [hkinds, ← List.nil_append (List.map kind _ ++ _)]
    exact standsBefore_others hmem (isToolResult_of_isAssistant hcalls.assistant)
      (leadingIds_outKinds options hturns [])

/-- What is asked of the two passes. -/
structure InputsAndPairingAgree (env : JsEnv) (inputOptions : ToolCallInputRepairOptions)
    (options : ToolUseResultPairingOptions) (clock : Nat → Int) (messages : List Json) :
    Prop where
  answered : AllAnswered (sanitizeToolCallInputs env inputOptions messages)
    (repairToolUseResultPairing options clock
      (sanitizeToolCallInputs env inputOptions messages)).slots
  idempotent : sanitizeToolCallInputs env inputOptions
    (sanitizeToolCallInputs env inputOptions messages) =
      sanitizeToolCallInputs env inputOptions messages
  complete : ∀ message ∈ sanitizeToolCallInputs env inputOptions messages,
    isAssistant message = true → ∀ block ∈ rawBlocks message,
      CompleteBlock env (normalizeAllowedToolNames env inputOptions.allowedToolNames) block

theorem toSlots_message (h : slot ∈ toSlots messages) : slot.message ∈ messages := by
  obtain ⟨⟨message, index⟩, hmem, rfl⟩ := List.mem_map.mp h
  exact List.mem_of_getElem? (List.mem_zipIdx_iff_getElem?.mp hmem)

theorem survivors_haveIds (env : JsEnv) (inputOptions : ToolCallInputRepairOptions)
    (messages : List Json) :
    HaveIds (toSlots (sanitizeToolCallInputs env inputOptions messages)) := by
  intro slot hmem hrole block hblock
  have hid := (survivors_complete env inputOptions messages _ (toSlots_message hmem) hrole block
    hblock).id
  rw [hasToolCallId_iff] at hid
  rw [rawToolCallId, ne_eq, List.head?_eq_none_iff]
  exact hid

theorem inputs_and_pairing_agree_iff (env : JsEnv) (inputOptions : ToolCallInputRepairOptions)
    (options : ToolUseResultPairingOptions) (clock : Nat → Int) (messages : List Json) :
    InputsAndPairingAgree env inputOptions options clock messages ↔
      Answerable options (sanitizeToolCallInputs env inputOptions messages) ∧
        ReplayStable inputOptions [] (sanitizeToolCallInputs env inputOptions messages) := by
  rw [← allAnswered_iff options clock (survivors_haveIds env inputOptions messages),
    ← sanitizeToolCallInputs_idem_iff]
  exact ⟨fun h => ⟨h.answered, h.idempotent⟩,
    fun h => ⟨h.1, h.2, survivors_complete env inputOptions messages⟩⟩

/-- A call of `read` as a `tool_use` block, with its id under `call_id`. -/
def toolUseBlock : Json :=
  .obj [("type", .str "tool_use"), ("call_id", .str "a"), ("name", .str "read"), ("input", .obj [])]

def toolUseTurn : Json :=
  .obj [("role", .str "assistant"), ("stopReason", .str "toolUse"), ("content", .arr [toolUseBlock])]

/-- The block survives, and pairing does not see it: no result follows its turn. -/
theorem tool_use_not_answered : ¬ InputsAndPairingAgree ⟨id, fun _ => none⟩ {} {} (fun _ => 0)
    [toolUseTurn] := by
  intro h
  have hsame : sanitizeToolCallInputs ⟨id, fun _ => none⟩ {} [toolUseTurn] = [toolUseTurn] := by
    have hchanged : (InputRepairState.repairFrom ⟨id, fun _ => none⟩ {} {} [toolUseTurn]).changed =
        false := by decide +kernel
    rfl
  have hanswered := h.answered
  rw [hsame] at hanswered
  obtain ⟨pre, post, hslots, hresults⟩ := hanswered ⟨toolUseTurn, some 0⟩ List.mem_cons_self
    ⟨by decide +kernel, by decide +kernel, by decide +kernel⟩
  have hlength : (repairToolUseResultPairing {} (fun _ => 0) [toolUseTurn]).slots.length = 1 := by
    decide +kernel
  rw [hslots, List.length_append, List.length_cons] at hlength
  obtain rfl : post = [] := List.length_eq_zero_iff.mp (by omega)
  obtain ⟨result, hmem, -⟩ := hresults toolUseBlock (by
    rw [rawBlocks, List.mem_filter]
    exact ⟨List.mem_cons_self, by decide +kernel⟩)
  exact absurd hmem List.not_mem_nil

end OpenClaw.Transcript
