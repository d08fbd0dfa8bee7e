import OpenClaw.Lib.JsonObject
import OpenClaw.Transcript.ToolCallInputs

/-!
# What the pass over tool-call inputs keeps

* `KeptBlock` — a raw block that is kept is complete and allowed, and keeps all fields but the
  scratch buffer and the blanks around its name.
* `keepBlock_keptBlock` — a kept block is kept again, as it is.
* `MessageStep`, `InputRun` — what one turn of the loop and the whole loop keep.
* `InputRun.ids_subset` — no result that follows a turn is lost.
-/

namespace OpenClaw.Transcript

/-! ## Blocks -/

/-- What a kept raw block is. -/
structure KeptBlock (env : JsEnv) (allowedToolNames : Option (List String)) (block kept : Json) :
    Prop where
  raw : isRawToolCallBlock block = true
  input : hasToolCallInput block = true
  id : hasToolCallId block = true
  allowed : isAllowedToolCallName env (block.strField "name") allowedToolNames = true
  field : ∀ key, key ≠ "partialJson" → key ≠ "name" → kept.field key = block.field key
  name : kept.strField "name" = (block.strField "name").map JsString.trim
  partialJson : hasPartialJson kept = false

variable {env : JsEnv} {allowedToolNames : Option (List String)}

theorem isAllowedToolCallName_cases {name : Option String}
    (h : isAllowedToolCallName env name allowedToolNames = true) :
    ∃ rawName, name = some rawName ∧ JsString.trim rawName ≠ "" := by
  cases name with
  | none => cases h
  | some rawName =>
    refine ⟨rawName, rfl, fun hempty => ?_⟩
    unfold isAllowedToolCallName at h
    dsimp only at h
    rw [if_pos hempty] at h
    cases h

theorem isAllowedToolCallName_trim (env : JsEnv) (allowedToolNames : Option (List String))
    (name : Option String) : isAllowedToolCallName env (name.map JsString.trim) allowedToolNames =
      isAllowedToolCallName env name allowedToolNames := by
  cases name with
  | none => rfl
  | some name => simp only [Option.map_some, isAllowedToolCallName, JsString.trim_trim]

/-- The block with its name trimmed, whichever branch renames it. -/
def trimmedBlock (block : Json) (rawName : String) : Json × Bool :=
  if rawName = JsString.trim rawName then (block, false)
  else (block.setField "name" (.str (JsString.trim rawName)), true)

variable {block : Json} {rawName : String}

theorem sanitizeToolCallBlock_eq (hname : block.strField "name" = some rawName)
    (hne : JsString.trim rawName ≠ "") :
    sanitizeToolCallBlock block = trimmedBlock block rawName := by
  unfold sanitizeToolCallBlock trimmedBlock
  rw [hname]
  dsimp only
  by_cases h : rawName = JsString.trim rawName
  · rw [if_neg fun hand => hand.2 h, if_pos h]
  · rw [if_pos ⟨hne, h⟩, if_neg h]

theorem renameBlock_eq (env : JsEnv) (hname : block.strField "name" = some rawName)
    (hne : JsString.trim rawName ≠ "") : renameBlock env block = trimmedBlock block rawName := by
  unfold renameBlock
  split
  · exact sanitizeToolCallBlock_eq hname hne
  · rw [hname, trimmedBlock]
    dsimp only
    by_cases heq : rawName = JsString.trim rawName
    · rw [if_neg fun hand => hand.1 heq, if_pos heq]
    · rw [if_pos ⟨heq, hne⟩, if_neg heq]

variable {key : String}

theorem trimmedBlock_field (block : Json) (rawName : String) (hkey : key ≠ "name") :
    (trimmedBlock block rawName).1.field key = block.field key := by
  unfold trimmedBlock
  split
  · rfl
  · exact Json.field_setField_of_ne hkey _ _

theorem trimmedBlock_name (hname : block.strField "name" = some rawName) :
    (trimmedBlock block rawName).1.strField "name" = some (JsString.trim rawName) := by
  unfold trimmedBlock
  split
  · rename_i h
    rw [hname, ← h]
  · exact Json.strField_setField_self (Json.isObj_of_strField hname) _ _

theorem strField_congr {a b : Json} (h : a.field key = b.field key) :
    a.strField key = b.strField key := by
  rw [Json.strField, Json.strField, h]

theorem stripPartialJson_field (block : Json) (hkey : key ≠ "partialJson") :
    (stripPartialJson block).field key = block.field key := by
  unfold stripPartialJson
  split
  · exact Json.field_eraseField_of_ne hkey _
  · rfl

theorem hasPartialJson_stripPartialJson (block : Json) :
    hasPartialJson (stripPartialJson block) = false := by
  unfold stripPartialJson
  split
  · rw [hasPartialJson, Json.strField, Json.field_eraseField_self]
    rfl
  · rename_i h
    exact Bool.not_eq_true _ ▸ h

variable {message : Json}

theorem keepBlock_raw {kept : Json × Bool} (hraw : isRawToolCallBlock block = true)
    (h : keepBlock env allowedToolNames message block = some kept) :
    hasToolCallInput block = true ∧ hasToolCallId block = true ∧
      isAllowedToolCallName env (block.strField "name") allowedToolNames = true ∧
      kept.1 = (renameBlock env (stripPartialJson block)).1 := by
  unfold keepBlock at h
  rw [if_neg (by rw [hraw]; decide)] at h
  split at h
  · cases h
  · rename_i hcomplete
    rw [Bool.or_eq_true, Bool.or_eq_true, not_or, not_or, Bool.not_eq_true', Bool.not_eq_true',
      Bool.not_eq_true', Bool.not_eq_false, Bool.not_eq_false, Bool.not_eq_false] at hcomplete
    obtain ⟨⟨hinput, hid⟩, hallowed⟩ := hcomplete
    refine ⟨hinput, hid, hallowed, ?_⟩
    split at h
    · cases h
    · rw [← Option.some.inj h]

theorem keptBlock_of_keepBlock {kept : Json × Bool} (hraw : isRawToolCallBlock block = true)
    (h : keepBlock env allowedToolNames message block = some kept) :
    KeptBlock env allowedToolNames block kept.1 := by
  obtain ⟨hinput, hid, hallowed, hkept⟩ := keepBlock_raw hraw h
  obtain ⟨rawName, hname, hne⟩ := isAllowedToolCallName_cases hallowed
  have hstripped : (stripPartialJson block).strField "name" = some rawName :=
    (strField_congr (stripPartialJson_field block (by decide))).trans hname
  rw [renameBlock_eq env hstripped hne] at hkept
  refine ⟨hraw, hinput, hid, hallowed, fun key hscratch hkey => ?_, ?_, ?_⟩
  · rw [hkept, trimmedBlock_field _ _ hkey, stripPartialJson_field block hscratch]
  · rw [hkept, hname]
    exact trimmedBlock_name hstripped
  · rw [hkept, hasPartialJson, strField_congr (trimmedBlock_field _ _ (by decide))]
    exact hasPartialJson_stripPartialJson block

variable {kept : Json}

theorem KeptBlock.strField (h : KeptBlock env allowedToolNames block kept)
    (hscratch : key ≠ "partialJson") (hkey : key ≠ "name") :
    kept.strField key = block.strField key := strField_congr (h.field key hscratch hkey)

/-- The raw ids of a block, whichever fields it has. -/
def rawIds (block : Json) : List String :=
  rawToolCallIdKeys.filterMap fun key => normalizeOptionalString (block.strField key)

section

variable (h : KeptBlock env allowedToolNames block kept)
include h

theorem KeptBlock.rawIds : rawIds kept = rawIds block := by
  refine List.filterMap_congr fun key hkey => ?_
  rw [h.strField (ne_of_mem_of_not_mem hkey (by decide)) (ne_of_mem_of_not_mem hkey (by decide))]

theorem KeptBlock.isRaw : isRawToolCallBlock kept = true := by
  rw [isRawToolCallBlock, h.strField (by decide) (by decide)]
  exact h.raw

theorem KeptBlock.hasInput : hasToolCallInput kept = true := by
  have hinput := h.input
  rw [hasToolCallInput, hasValue, hasValue] at hinput ⊢
  rw [h.field _ (by decide) (by decide), h.field _ (by decide) (by decide)]
  exact hinput

end

theorem hasToolCallId_iff : hasToolCallId block = true ↔ rawIds block ≠ [] := by
  rw [hasToolCallId, List.any_eq_true, rawIds, ne_eq, List.filterMap_eq_nil_iff]
  simp only [Option.isSome_iff_ne_none, not_forall, exists_prop, ne_eq]

section

variable (h : KeptBlock env allowedToolNames block kept)
include h

theorem KeptBlock.hasId : hasToolCallId kept = true := by
  rw [hasToolCallId_iff, h.rawIds, ← hasToolCallId_iff]
  exact h.id

theorem KeptBlock.isAllowed :
    isAllowedToolCallName env (kept.strField "name") allowedToolNames = true := by
  rw [h.name, isAllowedToolCallName_trim]
  exact h.allowed

theorem keepBlock_keptBlock (message : Json) :
    keepBlock env allowedToolNames message kept = some (kept, false) := by
  obtain ⟨rawName, hname, hne⟩ := isAllowedToolCallName_cases h.allowed
  have hkept : kept.strField "name" = some (JsString.trim rawName) := by
    rw [h.name, hname]
    rfl
  have hstrip : stripPartialJson kept = kept := by
    rw [stripPartialJson, if_neg (by rw [h.partialJson]; decide)]
  unfold keepBlock
  rw [if_neg (by rw [h.isRaw]; decide),
    if_neg (by rw [h.hasInput, h.hasId, h.isAllowed]; decide),
    if_neg (by rw [h.partialJson, Bool.false_and]; decide), hstrip,
    renameBlock_eq env hkept (by rwa [JsString.trim_trim]), trimmedBlock,
    if_pos (JsString.trim_trim rawName).symm, h.partialJson]
  rfl

end

theorem eq_of_keepBlock_false
    (h : keepBlock env allowedToolNames message block = some (kept, false)) : kept = block := by
  cases hraw : isRawToolCallBlock block with
  | false =>
    unfold keepBlock at h
    rw [hraw] at h
    cases h
    rfl
  | true =>
    obtain ⟨-, -, hallowed, hkept⟩ := keepBlock_raw hraw h
    obtain ⟨rawName, hname, hne⟩ := isAllowedToolCallName_cases hallowed
    unfold keepBlock at h
    rw [if_neg (by rw [hraw]; decide)] at h
    split at h
    · cases h
    · split at h
      · cases h
      · have hflags := congrArg Prod.snd (Option.some.inj h)
        rw [Bool.or_eq_false_iff] at hflags
        have hstrip : stripPartialJson block = block := by
          rw [stripPartialJson, if_neg (by rw [hflags.1]; decide)]
        rw [hstrip, renameBlock_eq env hname hne] at hkept hflags
        unfold trimmedBlock at hkept hflags
        split at hkept
        · exact hkept
        · rename_i hchanged
          rw [if_neg hchanged] at hflags
          cases hflags.2

theorem toolCallOf_of_keepBlock {kept : Json × Bool}
    (h : keepBlock env allowedToolNames message block = some kept) :
    (toolCallOf kept.1).isSome = (toolCallOf block).isSome := by
  cases hraw : isRawToolCallBlock block with
  | false =>
    unfold keepBlock at h
    rw [hraw] at h
    cases h
    rfl
  | true =>
    have hkept := keptBlock_of_keepBlock hraw h
    unfold toolCallOf
    rw [hkept.strField (by decide) (by decide), hkept.strField (by decide) (by decide)]
    split
    · split <;> rfl
    · rfl

/-! ## Messages -/

/-- Every block is kept, as it is. -/
def SettledContent (env : JsEnv) (allowedToolNames : Option (List String))
    (content : List Json) : Prop :=
  ∀ block ∈ content, ∀ message, keepBlock env allowedToolNames message block = some (block, false)

theorem settledContent_filterMap (env : JsEnv) (allowedToolNames : Option (List String))
    (message : Json) (content : List Json) : SettledContent env allowedToolNames
      ((content.filterMap (keepBlock env allowedToolNames message)).map Prod.fst) := by
  intro kept hmem other
  obtain ⟨pair, hpair, rfl⟩ := List.mem_map.mp hmem
  obtain ⟨block, -, hblock⟩ := List.mem_filterMap.mp hpair
  cases hraw : isRawToolCallBlock block with
  | true => exact keepBlock_keptBlock (keptBlock_of_keepBlock hraw hblock) other
  | false =>
    unfold keepBlock at hblock
    rw [hraw] at hblock
    cases hblock
    unfold keepBlock
    rw [hraw]
    rfl

variable {content : List Json}

theorem contentBlocks_of_field (h : message.field "content" = some (.arr content)) :
    contentBlocks message = content := by
  rw [contentBlocks, h]

theorem isObj_of_isAssistant (h : isAssistant message = true) :
    message.isObj = true := Json.isObj_of_strField (of_decide_eq_true h)

theorem isAssistant_setContent (message value : Json) :
    isAssistant (message.setField "content" value) = isAssistant message := by
  rw [isAssistant, isAssistant, role, role, Json.strField_setField_of_ne (by decide)]

/-- A turn with thinking blocks and tool calls, which is kept or dropped as a whole. -/
def isThinkingTurn (options : ToolCallInputRepairOptions) (content : List Json) : Bool :=
  options.allowProviderOwnedThinkingReplay && content.any isThinkingLikeBlock &&
    decide (content.countP isRawToolCallBlock > 0)

def toolCallIds (message : Json) : List String :=
  (extractToolCallsFromAssistant message).map ToolCall.id

/-- What one turn of the loop does: the state it leaves, and the messages it keeps. -/
inductive MessageStep (env : JsEnv) (options : ToolCallInputRepairOptions) (s : InputRepairState)
    (message : Json) (rest : List Json) : InputRepairState → List Json → Prop
  | other (h : isAssistant message = false ∨
      ∀ content, message.field "content" ≠ some (.arr content)) :
    MessageStep env options s message rest (s.push message) [message]
  | dropped (t : InputRepairState) (hrole : isAssistant message = true) (hout : t.out = s.out)
      (hprior : t.priorToolCallIds = s.priorToolCallIds)
      (hpreserved : t.preservedThinkingToolCallIds = s.preservedThinkingToolCallIds)
      (hchanged : t.changed = true) :
    MessageStep env options s message rest t []
  | tool (t : InputRepairState) (kept : Json) (content : List Json)
      (hmessage : isAssistant message = true) (hrole : isAssistant kept = true)
      (hcontent : kept.field "content" = some (.arr content))
      (hsettled : SettledContent env
        (normalizeAllowedToolNames env options.allowedToolNames) content)
      (hthinking : isThinkingTurn options content = false)
      (hcalls : (extractToolCallsFromAssistant kept).length ≤
        (extractToolCallsFromAssistant message).length)
      (hout : t.out = s.out ++ [kept])
      (hprior : t.priorToolCallIds = toolCallIds kept ++ s.priorToolCallIds)
      (hpreserved : t.preservedThinkingToolCallIds = s.preservedThinkingToolCallIds)
      (hchanged : t.changed = false → s.changed = false ∧ kept = message) :
    MessageStep env options s message rest t [kept]
  | thinking (content : List Json) (hrole : isAssistant message = true)
      (hcontent : message.field "content" = some (.arr content))
      (hthinking : isThinkingTurn options content = true)
      (hkeeps : s.keepsThinkingTurn env
        (normalizeAllowedToolNames env options.allowedToolNames) message content rest = true) :
    MessageStep env options s message rest
      { s.pushAssistant message with
        preservedThinkingToolCallIds := toolCallIds message ++ s.preservedThinkingToolCallIds
        changed := s.changed || (collectFollowingToolResults
          (extractToolCallsFromAssistant message) false rest).displaced } [message]

theorem length_toolCalls_filterMap (env : JsEnv) (allowedToolNames : Option (List String))
    (message : Json) (content : List Json) :
    (((content.filterMap (keepBlock env allowedToolNames message)).map Prod.fst).filterMap
      toolCallOf).length ≤ (content.filterMap toolCallOf).length := by
  induction content with
  | nil => exact Nat.le_refl 0
  | cons block content ih =>
    cases hblock : keepBlock env allowedToolNames message block with
    | none =>
      rw [List.filterMap_cons_none hblock]
      refine ih.trans ?_
      cases hcall : toolCallOf block with
      | none => rw [List.filterMap_cons_none hcall]
      | some call =>
        rw [List.filterMap_cons_some hcall]
        exact Nat.le_succ _
    | some kept =>
      have hsame := toolCallOf_of_keepBlock hblock
      rw [List.filterMap_cons_some hblock, List.map_cons]
      cases hcall : toolCallOf block with
      | none =>
        rw [hcall, Option.isSome_none, Option.isSome_eq_false_iff, Option.isNone_iff_eq_none]
          at hsame
        rw [List.filterMap_cons_none hsame, List.filterMap_cons_none hcall]
        exact ih
      | some call =>
        rw [hcall, Option.isSome_some, Option.isSome_iff_exists] at hsame
        obtain ⟨call', hcall'⟩ := hsame
        rw [List.filterMap_cons_some hcall', List.filterMap_cons_some hcall]
        exact Nat.succ_le_succ ih

theorem type_of_keepBlock {kept : Json × Bool}
    (h : keepBlock env allowedToolNames message block = some kept) :
    kept.1.strField "type" = block.strField "type" := by
  cases hraw : isRawToolCallBlock block with
  | true => exact (keptBlock_of_keepBlock hraw h).strField (by decide) (by decide)
  | false =>
    unfold keepBlock at h
    rw [hraw] at h
    cases h
    rfl

theorem any_type_filterMap {p : Json → Bool}
    (hp : ∀ a b : Json, a.strField "type" = b.strField "type" → p a = p b)
    (h : ((content.filterMap (keepBlock env allowedToolNames message)).map Prod.fst).any p = true) :
    content.any p = true := by
  rw [List.any_eq_true] at h ⊢
  obtain ⟨kept, hmem, hpkept⟩ := h
  obtain ⟨pair, hpair, rfl⟩ := List.mem_map.mp hmem
  obtain ⟨block, hblock, hkeep⟩ := List.mem_filterMap.mp hpair
  exact ⟨block, hblock, (hp _ _ (type_of_keepBlock hkeep)) ▸ hpkept⟩

variable {options : ToolCallInputRepairOptions}

theorem isThinkingTurn_iff :
    isThinkingTurn options content = true ↔ options.allowProviderOwnedThinkingReplay = true ∧
      content.any isThinkingLikeBlock = true ∧ content.any isRawToolCallBlock = true := by
  rw [isThinkingTurn, Bool.and_eq_true, Bool.and_eq_true, decide_eq_true_iff, gt_iff_lt,
    List.countP_pos_iff, List.any_eq_true (p := isRawToolCallBlock), and_assoc]

theorem isThinkingTurn_filterMap (h : isThinkingTurn options content = false) :
    isThinkingTurn options ((content.filterMap
      (keepBlock env allowedToolNames message)).map Prod.fst) = false := by
  rw [Bool.eq_false_iff] at h ⊢
  intro hkept
  rw [isThinkingTurn_iff] at hkept
  refine h (isThinkingTurn_iff.mpr ⟨hkept.1, any_type_filterMap ?_ hkept.2.1,
    any_type_filterMap ?_ hkept.2.2⟩)
  · intro a b hab
    rw [isThinkingLikeBlock, isThinkingLikeBlock, hab]
  · intro a b hab
    rw [isRawToolCallBlock, isRawToolCallBlock, hab]

theorem filterMap_keepBlock_eq
    (hlength : content.length ≤ (content.filterMap (keepBlock env allowedToolNames message)).length)
    (hnew : (content.filterMap (keepBlock env allowedToolNames message)).any Prod.snd = false) :
    (content.filterMap (keepBlock env allowedToolNames message)).map Prod.fst = content := by
  induction content with
  | nil => rfl
  | cons block content ih =>
    cases hblock : keepBlock env allowedToolNames message block with
    | none =>
      rw [List.filterMap_cons_none hblock, List.length_cons] at hlength
      have hle := List.length_filterMap_le (keepBlock env allowedToolNames message) content
      omega
    | some kept =>
      rw [List.filterMap_cons_some hblock] at hlength hnew ⊢
      rw [List.any_cons, Bool.or_eq_false_iff] at hnew
      obtain ⟨kept, flag⟩ := kept
      obtain ⟨hflag, hnew⟩ := hnew
      change flag = false at hflag
      rw [hflag] at hblock
      rw [List.map_cons, eq_of_keepBlock_false hblock, ih (Nat.le_of_succ_le_succ hlength) hnew]

theorem toolCalls_setContent_le (env : JsEnv) (allowedToolNames : Option (List String))
    (hobj : message.isObj = true) (hcontent : message.field "content" = some (.arr content)) :
    (extractToolCallsFromAssistant (message.setField "content" (.arr ((content.filterMap
      (keepBlock env allowedToolNames message)).map Prod.fst)))).length ≤
        (extractToolCallsFromAssistant message).length := by
  rw [extractToolCallsFromAssistant, extractToolCallsFromAssistant,
    contentBlocks_of_field (Json.field_setField_self hobj _ _), contentBlocks_of_field hcontent]
  exact length_toolCalls_filterMap env allowedToolNames message content

theorem repairToolTurn_step (s : InputRepairState) (rest : List Json)
    (hrole : isAssistant message = true)
    (hcontent : message.field "content" = some (.arr content))
    (hthinking : isThinkingTurn options content = false) :
    ∃ kept, MessageStep env options s message rest (s.repairToolTurn env
      (normalizeAllowedToolNames env options.allowedToolNames) message content) kept := by
  have hobj := isObj_of_isAssistant hrole
  have hrewritten : ∀ (t : InputRepairState) (nextContent : List Json),
      nextContent = (content.filterMap (keepBlock env
        (normalizeAllowedToolNames env options.allowedToolNames) message)).map Prod.fst →
      t.changed = true → t.out = s.out ++ [message.setField "content" (.arr nextContent)] →
      t.priorToolCallIds = toolCallIds (message.setField "content" (.arr nextContent)) ++
        s.priorToolCallIds →
      t.preservedThinkingToolCallIds = s.preservedThinkingToolCallIds →
      MessageStep env options s message rest t [message.setField "content" (.arr nextContent)] := by
    rintro t nextContent rfl hchanged hout hprior hpreserved
    exact .tool t _ _ hrole ((isAssistant_setContent _ _).trans hrole)
      (Json.field_setField_self hobj _ _) (settledContent_filterMap _ _ _ _)
      (isThinkingTurn_filterMap hthinking) (toolCalls_setContent_le _ _ hobj hcontent) hout hprior
      hpreserved fun h => absurd (h.symm.trans hchanged) Bool.false_ne_true
  unfold InputRepairState.repairToolTurn
  dsimp only
  split
  · rename_i hdropped
    split
    · exact ⟨[], .dropped _ hrole rfl rfl rfl rfl⟩
    · refine ⟨_, hrewritten _ _ rfl ?_ rfl rfl rfl⟩
      change (s.changed || (decide (_ > 0) || _)) = true
      rw [decide_eq_true hdropped, Bool.true_or, Bool.or_true]
  · rename_i hdropped
    split
    · rename_i hchanged
      refine ⟨_, hrewritten _ _ rfl ?_ rfl rfl rfl⟩
      change (s.changed || _) = true
      rw [hchanged, Bool.or_true]
    · rename_i hchanged
      rw [Bool.not_eq_true, Bool.or_eq_false_iff] at hchanged
      have hsame := filterMap_keepBlock_eq (by omega) hchanged.2
      refine ⟨[message], .tool _ message content hrole hrole hcontent ?_ hthinking le_rfl rfl rfl
        rfl fun h => ⟨?_, rfl⟩⟩
      · rw [← hsame]
        exact settledContent_filterMap _ _ _ _
      · change (s.changed || _) = false at h
        rw [Bool.or_eq_false_iff] at h
        exact h.1

theorem repairMessage_step (env : JsEnv) (options : ToolCallInputRepairOptions)
    (s : InputRepairState) (message : Json) (rest : List Json) :
    ∃ kept, MessageStep env options s message rest (s.repairMessage env options message rest)
      kept := by
  unfold InputRepairState.repairMessage
  dsimp only
  split
  · rename_i content hrole hcontent
    split
    · rename_i hthinking
      unfold InputRepairState.repairThinkingTurn
      split
      · rename_i hkeeps
        exact ⟨_, .thinking content hrole hcontent hthinking hkeeps⟩
      · exact ⟨[], .dropped _ hrole rfl rfl rfl rfl⟩
    · rename_i hthinking
      exact repairToolTurn_step s rest hrole hcontent (Bool.not_eq_true _ ▸ hthinking)
  · rename_i hnot
    refine ⟨_, .other ?_⟩
    cases hrole : isAssistant message with
    | false => exact .inl rfl
    | true => exact .inr fun content hcontent => hnot content hrole hcontent

/-! ## Runs -/

/-- The loop over the messages, with the messages that it keeps. -/
inductive InputRun (env : JsEnv) (options : ToolCallInputRepairOptions) :
    InputRepairState → List Json → InputRepairState → List Json → Prop
  | nil (s : InputRepairState) : InputRun env options s [] s []
  | cons {s t u : InputRepairState} {message : Json} {rest kept kepts : List Json}
      (step : MessageStep env options s message rest t kept)
      (run : InputRun env options t rest u kepts) :
    InputRun env options s (message :: rest) u (kept ++ kepts)

section Run

variable {env : JsEnv} {options : ToolCallInputRepairOptions} {s t u : InputRepairState}
  {message : Json} {rest kept messages : List Json}

theorem inputRun_repairFrom (env : JsEnv) (options : ToolCallInputRepairOptions)
    (s : InputRepairState) (messages : List Json) :
    ∃ kept, InputRun env options s messages (s.repairFrom env options messages) kept := by
  induction messages generalizing s with
  | nil => exact ⟨[], .nil s⟩
  | cons message rest ih =>
    obtain ⟨kept, hstep⟩ := repairMessage_step env options s message rest
    obtain ⟨kepts, hrun⟩ := ih (s.repairMessage env options message rest)
    exact ⟨kept ++ kepts, .cons hstep hrun⟩

theorem MessageStep.out (h : MessageStep env options s message rest t kept) :
    t.out = s.out ++ kept := by
  cases h with
  | other => rfl
  | dropped t hrole hout => rw [hout, List.append_nil]
  | tool t kept content hmessage hrole hcontent hsettled hthinking hcalls hout => exact hout
  | thinking => rfl

theorem MessageStep.changed (h : MessageStep env options s message rest t kept)
    (ht : t.changed = false) : s.changed = false ∧ kept = [message] := by
  cases h with
  | other => exact ⟨ht, rfl⟩
  | dropped t hrole hout hprior hpreserved hchanged =>
    exact absurd (ht.symm.trans hchanged) Bool.false_ne_true
  | tool t kept content hmessage hrole hcontent hsettled hthinking hcalls hout hprior hpreserved
      hchanged =>
    obtain ⟨hs, heq⟩ := hchanged ht
    exact ⟨hs, by rw [heq]⟩
  | thinking => exact ⟨(Bool.or_eq_false_iff.mp ht).1, rfl⟩

theorem InputRun.out (h : InputRun env options s messages u kept) : u.out = s.out ++ kept := by
  induction h with
  | nil s => exact (List.append_nil _).symm
  | cons step run ih => rw [ih, step.out, List.append_assoc]

theorem InputRun.changed (h : InputRun env options s messages u kept)
    (hu : u.changed = false) : s.changed = false ∧ kept = messages := by
  induction h with
  | nil s => exact ⟨hu, rfl⟩
  | cons step run ih =>
    obtain ⟨ht, hkepts⟩ := ih hu
    obtain ⟨hs, hkept⟩ := step.changed ht
    exact ⟨hs, by rw [hkept, hkepts]; rfl⟩

theorem InputRun.sanitize
    (h : InputRun env options {} messages (InputRepairState.repairFrom env options {} messages)
      kept) : sanitizeToolCallInputs env options messages = kept := by
  unfold sanitizeToolCallInputs repairToolCallInputs
  dsimp only
  split
  · exact h.out
  · rename_i hchanged
    exact (h.changed (Bool.not_eq_true _ ▸ hchanged)).2.symm

theorem MessageStep.length_le (h : MessageStep env options s message rest t kept) :
    kept.length ≤ 1 := by
  cases h <;> simp

theorem InputRun.length_le (h : InputRun env options s messages u kept) :
    kept.length ≤ messages.length := by
  induction h with
  | nil => exact Nat.le_refl 0
  | cons step run ih =>
    rw [List.length_append, List.length_cons]
    have hle := step.length_le
    omega

/-! ### The results that follow -/

theorem isToolResult_of_isAssistant (h : isAssistant message = true) :
    isToolResult message = false := by
  rw [isToolResult, of_decide_eq_true h]
  decide

variable {calls : List ToolCall} {saw : Bool}

theorem collect_cons_calls (h : assistantHasToolCalls message = true) :
    collectFollowingToolResults calls saw (message :: rest) = ⟨[], false⟩ := by
  rw [collectFollowingToolResults, if_pos h]

theorem collect_cons_other (hcalls : assistantHasToolCalls message = false)
    (hresult : isToolResult message = false) :
    collectFollowingToolResults calls saw (message :: rest) =
      collectFollowingToolResults calls true rest := by
  rw [collectFollowingToolResults, if_neg (by rw [hcalls]; decide), if_neg (by rw [hresult]; decide)]

theorem MessageStep.kept_other (h : MessageStep env options s message rest t kept)
    (hrole : isAssistant message = true) (hcalls : assistantHasToolCalls message = false) :
    ∀ other ∈ kept, isAssistant other = true ∧ assistantHasToolCalls other = false := by
  intro other hmem
  cases h with
  | other => exact List.mem_singleton.mp hmem ▸ ⟨hrole, hcalls⟩
  | dropped => exact absurd hmem List.not_mem_nil
  | thinking => exact List.mem_singleton.mp hmem ▸ ⟨hrole, hcalls⟩
  | tool t kept content hmessage hkept hcontent hsettled hthinking hle =>
    rw [List.mem_singleton.mp hmem]
    refine ⟨hkept, ?_⟩
    rw [assistantHasToolCalls, hrole, Bool.true_and, Bool.not_eq_false', List.isEmpty_iff] at hcalls
    rw [hcalls, List.length_nil, Nat.le_zero, List.length_eq_zero_iff] at hle
    rw [assistantHasToolCalls, hle, Bool.and_comm]
    rfl

theorem MessageStep.kept_of_not_assistant (h : MessageStep env options s message rest t kept)
    (hrole : isAssistant message = false) : kept = [message] := by
  cases h with
  | other => rfl
  | thinking => rfl
  | dropped t hassistant => exact absurd (hrole.symm.trans hassistant) Bool.false_ne_true
  | tool t kept content hmessage => exact absurd (hrole.symm.trans hmessage) Bool.false_ne_true

theorem InputRun.ids_subset (h : InputRun env options s messages u kept) (calls : List ToolCall)
    (saw saw' : Bool) : (collectFollowingToolResults calls saw messages).ids ⊆
      (collectFollowingToolResults calls saw' kept).ids := by
  induction h generalizing saw saw' with
  | nil => exact List.nil_subset _
  | @cons s t u message rest kept kepts step run ih =>
    cases hcalls : assistantHasToolCalls message with
    | true =>
      rw [collect_cons_calls hcalls]
      exact List.nil_subset _
    | false =>
      cases hrole : isAssistant message with
      | true =>
        rw [collect_cons_other hcalls (isToolResult_of_isAssistant hrole)]
        have hkept := step.kept_other hrole hcalls
        have hlength := step.length_le
        cases kept with
        | nil => exact ih true saw'
        | cons other kept =>
          obtain rfl : kept = [] := List.length_eq_zero_iff.mp (by
            rw [List.length_cons] at hlength
            omega)
          obtain ⟨hassistant, hnone⟩ := hkept other List.mem_cons_self
          rw [List.singleton_append,
            collect_cons_other hnone (isToolResult_of_isAssistant hassistant)]
          exact ih true true
      | false =>
        rw [step.kept_of_not_assistant hrole, List.singleton_append]
        cases hresult : isToolResult message with
        | false =>
          rw [collect_cons_other hcalls hresult, collect_cons_other hcalls hresult]
          exact ih true true
        | true =>
          rw [collectFollowingToolResults, if_neg (by rw [hcalls]; decide), if_pos hresult,
            collectFollowingToolResults, if_neg (by rw [hcalls]; decide), if_pos hresult]
          exact List.append_subset.mpr ⟨List.subset_append_left _ _,
            List.Subset.trans (ih saw saw') (List.subset_append_right _ _)⟩

end Run

end OpenClaw.Transcript
