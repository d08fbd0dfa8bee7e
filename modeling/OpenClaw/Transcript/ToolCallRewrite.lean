import OpenClaw.Transcript.Messages
import OpenClaw.Transcript.ToolCallSecondPass

/-!
# `sanitizeToolCallIdsForCloudCodeAssist`

The ids of a whole transcript. Without the options that preserve ids, a message asks the resolver
for the id of each of its tool calls, or for that of the call it answers, and is made of the answers
(`rewriteMessage_asks`). So the ids of a transcript are those of its calls and results in order
(`toolEvents`).
-/

namespace OpenClaw.Transcript

section

variable (resolveId : Id → Resolver → Id × Resolver)

/-! ## Rewriting -/

/-- One block of `rewriteAssistantToolCallIds`, and whether it is a new object. -/
def rewriteBlock (block : Json) (r : Resolver) : (Json × Bool) × Resolver :=
  match toolCallOf block with
  | none => ((block, false), r)
  | some call =>
    let next := resolveId call.id.toList r
    if next.1 = call.id.toList then ((block, false), next.2)
    else ((block.setField "id" (.str (.ofList next.1)), true), next.2)

def rewriteAssistantToolCallIds (message : Json) (r : Resolver) : (Json × Bool) × Resolver :=
  match message.field "content" with
  | some (.arr blocks) =>
    let next := mapState (rewriteBlock resolveId) blocks r
    if next.1.any Prod.snd then
      ((message.setField "content" (.arr (next.1.map Prod.fst)), true), next.2)
    else ((message, false), next.2)
  | _ => ((message, false), r)

/-- The id in a field, if it is not empty. -/
def rawId (message : Json) (key : String) : Option String :=
  (message.strField key).filter (· ≠ "")

def primaryRawId (message : Json) : Option String :=
  ["call_id", "callId", "tool_call_id", "tool_use_id", "toolCallId", "toolUseId"].findSome?
    (rawId message)

/-- The keys of `updates`. -/
def updatedKeys (message : Json) (resolvedId : String) : List String :=
  (toolResultIdKeys.filter fun key => (rawId message key).any (· ≠ resolvedId)) ++
    if message.strField "toolCallId" = none ∧ resolvedId ≠ "" then ["toolCallId"] else []

def setIds (message : Json) (keys : List String) (id : String) : Json :=
  keys.foldl (fun message key => message.setField key (.str id)) message

def rewriteToolResultIds (message : Json) (r : Resolver) : (Json × Bool) × Resolver :=
  match primaryRawId message with
  | none => ((message, false), r)
  | some raw =>
    let next := resolveId raw.toList r
    let keys := updatedKeys message (.ofList next.1)
    if keys = [] then ((message, false), next.2)
    else ((setIds message keys (.ofList next.1), true), next.2)

end

section

variable (shortHash : Id → Nat → Id) (now : Nat → Nat) (mode : ToolCallIdMode)

def rewriteMessage (message : Json) (r : Resolver) : (Json × Bool) × Resolver :=
  if isAssistant message then
    rewriteAssistantToolCallIds (resolveAssistantId shortHash now mode) message r
  else if isToolResult message then
    rewriteToolResultIds (resolveToolResultId shortHash now mode) message r
  else ((message, false), r)

/-- The messages, with the resolver at the end. -/
def rewriteMessages (messages : List Json) : List (Json × Bool) × Resolver :=
  mapState (rewriteMessage shortHash now mode) messages createOccurrenceAwareResolver

def sanitizeToolCallIdsForCloudCodeAssist (messages : List Json) : List Json :=
  let out := (rewriteMessages shortHash now mode messages).1
  if out.any Prod.snd then out.map Prod.fst else messages

end

/-! ## What a message asks, and what it is made of -/

def blockEvents (block : Json) : List ToolEvent :=
  (toolCallOf block).toList.map fun call => .call call.id.toList

def messageEvents (message : Json) : List ToolEvent :=
  if isAssistant message then (contentBlocks message).flatMap blockEvents
  else if isToolResult message then (primaryRawId message).toList.map fun raw => .result raw.toList
  else []

/-- The tool calls and the tool results of a transcript, with their raw ids. -/
def toolEvents (messages : List Json) : List ToolEvent := messages.flatMap messageEvents

def fillBlock (block : Json) (ids : List Id) : Json :=
  match toolCallOf block, ids with
  | some _, [id] => block.setField "id" (.str (.ofList id))
  | _, _ => block

def fillAssistant (message : Json) (ids : List Id) : Json :=
  match message.field "content" with
  | some (.arr blocks) =>
    message.setField "content" (.arr (fillAll blockEvents fillBlock blocks ids))
  | _ => message

def fillToolResult (message : Json) (ids : List Id) : Json :=
  match primaryRawId message, ids with
  | some _, [id] => setIds message (updatedKeys message (.ofList id)) (.ofList id)
  | _, _ => message

def fillMessage (message : Json) (ids : List Id) : Json :=
  if isAssistant message then fillAssistant message ids
  else if isToolResult message then fillToolResult message ids
  else message

/-! ## The run asks for the ids of the events -/

variable {shortHash : Id → Nat → Id} {now : Nat → Nat} {mode : ToolCallIdMode}
variable {block message : Json} {call : ToolCall}

theorem toolCallOf_fields (h : toolCallOf block = some call) :
    block.field "id" = some (.str call.id) ∧ call.id ≠ "" ∧
      ∃ type ∈ toolCallTypes, block.strField "type" = some type ∧
        call.name = block.strField "name" := by
  unfold toolCallOf at h
  split at h
  · rename_i id type hid htype
    by_cases hcall : id ≠ "" ∧ type ∈ toolCallTypes
    · rw [if_pos hcall] at h
      cases h
      refine ⟨?_, hcall.1, type, hcall.2, htype, rfl⟩
      unfold Json.strField at hid
      split at hid
      · rename_i s hfield
        rw [hfield, Option.some_inj.1 hid]
      · cases hid
    · rw [if_neg hcall] at h
      cases h
  · cases h

variable {id : String}

theorem toolCallOf_setField_id (h : toolCallOf block = some call) (hid : id ≠ "") :
    toolCallOf (block.setField "id" (.str id)) = some ⟨id, call.name⟩ := by
  obtain ⟨-, -, type, hmem, htype, hname⟩ := toolCallOf_fields h
  have hobj := Json.isObj_of_strField htype
  unfold toolCallOf
  rw [Json.strField_setField_self hobj,
    Json.strField_setField_of_ne (show "type" ≠ "id" by decide), htype,
    Json.strField_setField_of_ne (show "name" ≠ "id" by decide), hname]
  exact if_pos ⟨hid, hmem⟩

theorem rewriteBlock_kept {resolveId : Id → Resolver → Id × Resolver} (block : Json) (r : Resolver)
    (h : (rewriteBlock resolveId block r).1.2 = false) :
    (rewriteBlock resolveId block r).1.1 = block := by
  unfold rewriteBlock at h ⊢
  cases hcall : toolCallOf block with
  | none => rfl
  | some call =>
    rw [hcall] at h
    dsimp only at h ⊢
    by_cases hsame : (resolveId call.id.toList r).1 = call.id.toList
    · rw [if_pos hsame]
    · rw [if_neg hsame] at h
      cases h

theorem rewriteBlock_asks (shortHash : Id → Nat → Id) (now : Nat → Nat) (mode : ToolCallIdMode) :
    Asks (outcomeOf (rewriteBlock (resolveAssistantId shortHash now mode)))
      (resolveEvent shortHash now mode) blockEvents fillBlock := by
  intro block r
  unfold outcomeOf rewriteBlock fillBlock blockEvents
  cases hcall : toolCallOf block with
  | none => rfl
  | some call =>
    simp only [Option.toList_some, List.map_cons, List.map_nil, mapState, resolveEvent]
    by_cases hsame : (resolveAssistantId shortHash now mode call.id.toList r).1 = call.id.toList
    · have hid := (toolCallOf_fields hcall).1
      rw [if_pos hsame, hsame, String.ofList_toList, Json.setField_of_field hid]
    · rw [if_neg hsame]

theorem rewriteAssistantToolCallIds_outcome (message : Json) (r : Resolver) :
    outcomeOf (rewriteAssistantToolCallIds (resolveAssistantId shortHash now mode)) message r =
      (fillAssistant message
          (mapState (resolveEvent shortHash now mode)
            ((contentBlocks message).flatMap blockEvents) r).1,
        (mapState (resolveEvent shortHash now mode)
          ((contentBlocks message).flatMap blockEvents) r).2) := by
  cases hcontent : message.field "content" with
  | none =>
    simp only [outcomeOf, rewriteAssistantToolCallIds, fillAssistant, contentBlocks, hcontent]
    rfl
  | some content =>
    cases content with
    | arr blocks =>
      simp only [outcomeOf, rewriteAssistantToolCallIds, fillAssistant, contentBlocks, hcontent]
      have hblocks := mapState_of_asks (rewriteBlock_asks shortHash now mode) blocks r
      rw [mapState_outcomeOf, Prod.mk.injEq] at hblocks
      rw [← hblocks.1, ← hblocks.2]
      cases hany : (mapState (rewriteBlock (resolveAssistantId shortHash now mode)) blocks r).1.any
          Prod.snd with
      | true => rfl
      | false =>
        rw [map_fst_of_unchanged rewriteBlock_kept hany, Json.setField_of_field hcontent]
        rfl
    | _ =>
      simp only [outcomeOf, rewriteAssistantToolCallIds, fillAssistant, contentBlocks, hcontent]
      rfl

theorem rewriteToolResultIds_outcome (message : Json) (r : Resolver) :
    outcomeOf (rewriteToolResultIds (resolveToolResultId shortHash now mode)) message r =
      (fillToolResult message
          (mapState (resolveEvent shortHash now mode)
            ((primaryRawId message).toList.map fun raw => .result raw.toList) r).1,
        (mapState (resolveEvent shortHash now mode)
          ((primaryRawId message).toList.map fun raw => .result raw.toList) r).2) := by
  unfold outcomeOf rewriteToolResultIds fillToolResult
  cases hraw : primaryRawId message with
  | none => rfl
  | some raw =>
    simp only [Option.toList_some, List.map_cons, List.map_nil, mapState, resolveEvent]
    split
    · rename_i hkeys
      rw [hkeys]
      rfl
    · rfl

theorem rewriteMessage_asks (shortHash : Id → Nat → Id) (now : Nat → Nat) (mode : ToolCallIdMode) :
    Asks (outcomeOf (rewriteMessage shortHash now mode)) (resolveEvent shortHash now mode)
      messageEvents fillMessage := by
  intro message r
  have houtcome : outcomeOf (rewriteMessage shortHash now mode) message r =
      if isAssistant message then
        outcomeOf (rewriteAssistantToolCallIds (resolveAssistantId shortHash now mode)) message r
      else if isToolResult message then
        outcomeOf (rewriteToolResultIds (resolveToolResultId shortHash now mode)) message r
      else (message, r) := by
    unfold outcomeOf rewriteMessage
    split_ifs <;> rfl
  rw [houtcome, messageEvents, fillMessage]
  split_ifs
  · exact rewriteAssistantToolCallIds_outcome message r
  · exact rewriteToolResultIds_outcome message r
  · rfl

theorem rewriteMessage_kept (message : Json) (r : Resolver)
    (h : (rewriteMessage shortHash now mode message r).1.2 = false) :
    (rewriteMessage shortHash now mode message r).1.1 = message := by
  unfold rewriteMessage at h ⊢
  by_cases hassistant : isAssistant message = true
  · rw [if_pos hassistant] at h ⊢
    unfold rewriteAssistantToolCallIds at h ⊢
    split at h
    · dsimp only at h ⊢
      split at h
      · cases h
      · rename_i hany
        rw [if_neg hany]
    · rfl
  · rw [if_neg hassistant] at h ⊢
    by_cases hresult : isToolResult message = true
    · rw [if_pos hresult] at h ⊢
      unfold rewriteToolResultIds at h ⊢
      cases hraw : primaryRawId message with
      | none => rfl
      | some raw =>
        rw [hraw] at h
        dsimp only at h ⊢
        split at h
        · rename_i hkeys
          rw [if_pos hkeys]
        · cases h
    · rw [if_neg hresult]

theorem rewriteMessages_resolver (messages : List Json) :
    (rewriteMessages shortHash now mode messages).2 =
      (resolveEvents shortHash now mode (toolEvents messages)).2 := by
  have hrun := congrArg Prod.snd
    (mapState_of_asks (rewriteMessage_asks shortHash now mode) messages
      createOccurrenceAwareResolver)
  rwa [mapState_outcomeOf] at hrun

theorem sanitizeToolCallIds_eq_fillAll (messages : List Json) :
    sanitizeToolCallIdsForCloudCodeAssist shortHash now mode messages =
      fillAll messageEvents fillMessage messages
        (resolveEvents shortHash now mode (toolEvents messages)).1 := by
  have hrun := congrArg Prod.fst
    (mapState_of_asks (rewriteMessage_asks shortHash now mode) messages
      createOccurrenceAwareResolver)
  rw [mapState_outcomeOf] at hrun
  unfold sanitizeToolCallIdsForCloudCodeAssist rewriteMessages
  dsimp only
  cases hany : (mapState (rewriteMessage shortHash now mode) messages
      createOccurrenceAwareResolver).1.any Prod.snd with
  | true => exact hrun
  | false =>
    exact (map_fst_of_unchanged rewriteMessage_kept hany).symm.trans hrun

/-! ## Filled blocks -/

/-- The block without the id of the tool call that it is. -/
def eraseBlockId (block : Json) : Json :=
  if (toolCallOf block).isSome then block.eraseFields ["id"] else block

theorem ofList_ne_empty {id : Id} (h : id ≠ []) : String.ofList id ≠ "" := by
  intro heq
  apply h
  simpa using congrArg String.toList heq

variable {ids : List Id}

theorem fillBlock_cases (h : IsAnswer blockEvents (· ≠ []) block ids) :
    (blockEvents block = [] ∧ ids = [] ∧ toolCallOf block = none ∧ fillBlock block ids = block) ∨
      ∃ call id, toolCallOf block = some call ∧ ids = [id] ∧ id ≠ [] ∧
        fillBlock block ids = block.setField "id" (.str (.ofList id)) := by
  unfold fillBlock blockEvents
  obtain ⟨hlength, hgood⟩ := h
  unfold blockEvents at hlength
  cases hcall : toolCallOf block with
  | none =>
    rw [hcall] at hlength
    exact Or.inl ⟨rfl, List.eq_nil_of_length_eq_zero hlength, rfl, rfl⟩
  | some call =>
    rw [hcall] at hlength
    obtain ⟨id, rfl⟩ := List.length_eq_one_iff.1 hlength
    exact Or.inr ⟨call, id, rfl, rfl, hgood id (List.mem_singleton_self id), rfl⟩

theorem blockEvents_fillBlock (block : Json) (ids : List Id)
    (h : IsAnswer blockEvents (· ≠ []) block ids) :
    blockEvents (fillBlock block ids) = List.zipWith ToolEvent.withId (blockEvents block) ids := by
  rcases fillBlock_cases h with ⟨hevents, rfl, -, hfill⟩ | ⟨call, id, hcall, rfl, hid, hfill⟩
  · rw [hfill, hevents, List.zipWith_nil_left]
  · rw [hfill, blockEvents, toolCallOf_setField_id hcall (ofList_ne_empty hid), blockEvents, hcall]
    simp [ToolEvent.withId]

theorem eraseBlockId_fillBlock (block : Json) (ids : List Id)
    (h : IsAnswer blockEvents (· ≠ []) block ids) :
    eraseBlockId (fillBlock block ids) = eraseBlockId block := by
  rcases fillBlock_cases h with ⟨-, -, -, hfill⟩ | ⟨call, id, hcall, rfl, hid, hfill⟩
  · rw [hfill]
  · rw [hfill, eraseBlockId, eraseBlockId, hcall,
      toolCallOf_setField_id hcall (ofList_ne_empty hid)]
    exact Json.eraseFields_setField (List.mem_singleton_self _) _ _

theorem fillBlock_again (block : Json) (ids : List Id)
    (h : IsAnswer blockEvents (· ≠ []) block ids) :
    (blockEvents (fillBlock block ids)).length = (blockEvents block).length ∧
      fillBlock (fillBlock block ids) ids = fillBlock block ids := by
  refine ⟨?_, ?_⟩
  · rw [blockEvents_fillBlock block ids h, List.length_zipWith, h.1, Nat.min_self]
  · rcases fillBlock_cases h with ⟨-, -, -, hfill⟩ | ⟨call, id, hcall, rfl, hid, hfill⟩
    · rw [hfill, hfill]
    · rw [hfill]
      unfold fillBlock
      rw [toolCallOf_setField_id hcall (ofList_ne_empty hid)]
      exact Json.setField_setField _ _ _ _

/-! ## Filled assistant messages -/

theorem isAnswer_assistant (hassistant : isAssistant message = true)
    (h : IsAnswer messageEvents (· ≠ []) message ids) :
    IsAnswer (List.flatMap blockEvents) (· ≠ []) (contentBlocks message) ids := by
  unfold IsAnswer messageEvents at h
  rwa [if_pos hassistant] at h

theorem fillAssistant_cases (message : Json) (ids : List Id) :
    (contentBlocks message = [] ∧ fillAssistant message ids = message ∧
        ∀ blocks, message.field "content" ≠ some (.arr blocks)) ∨
      (message.field "content" = some (.arr (contentBlocks message)) ∧
        fillAssistant message ids = message.setField "content"
          (.arr (fillAll blockEvents fillBlock (contentBlocks message) ids))) := by
  by_cases harr : ∃ blocks, message.field "content" = some (.arr blocks)
  · obtain ⟨blocks, hcontent⟩ := harr
    have hblocks : contentBlocks message = blocks := by simp [contentBlocks, hcontent]
    rw [hblocks]
    exact Or.inr ⟨hcontent, by simp [fillAssistant, hcontent]⟩
  · have hnone (blocks : List Json) : message.field "content" ≠ some (.arr blocks) :=
      fun hcontent => harr ⟨blocks, hcontent⟩
    refine Or.inl ⟨?_, ?_, hnone⟩
    · unfold contentBlocks
      split
      · rename_i blocks hcontent
        exact absurd hcontent (hnone blocks)
      · rfl
    · unfold fillAssistant
      split
      · rename_i blocks hcontent
        exact absurd hcontent (hnone blocks)
      · rfl

theorem isAssistant_fillAssistant (hassistant : isAssistant message = true) (ids : List Id) :
    isAssistant (fillAssistant message ids) = true := by
  rcases fillAssistant_cases message ids with ⟨-, hfill, -⟩ | ⟨-, hfill⟩
  · rwa [hfill]
  · rw [hfill, isAssistant, role, Json.strField_setField_of_ne (by decide)]
    exact hassistant

theorem contentBlocks_fillAssistant (hassistant : isAssistant message = true) (ids : List Id) :
    contentBlocks (fillAssistant message ids) =
      fillAll blockEvents fillBlock (contentBlocks message) ids := by
  rcases fillAssistant_cases message ids with ⟨hblocks, hfill, -⟩ | ⟨-, hfill⟩
  · rw [hfill, hblocks]
    rfl
  · have hobj : message.isObj = true := Json.isObj_of_strField (of_decide_eq_true hassistant)
    rw [hfill, contentBlocks, Json.field_setField_self hobj]

/-! ## Filled tool results -/

theorem strField_setIds (hobj : message.isObj = true) (keys : List String) (id key : String) :
    (setIds message keys id).strField key =
      if key ∈ keys then some id else message.strField key := by
  induction keys generalizing message with
  | nil => rfl
  | cons head keys ih =>
    rw [setIds, List.foldl_cons, ← setIds, ih (by rwa [Json.isObj_setField])]
    by_cases hkey : key = head
    · subst hkey
      simp [Json.strField_setField_self hobj]
    · rw [Json.strField_setField_of_ne hkey]
      simp [hkey]

theorem eraseFields_setIds {keys erased : List String} (h : ∀ key ∈ keys, key ∈ erased)
    (id : String) (message : Json) :
    (setIds message keys id).eraseFields erased = message.eraseFields erased := by
  induction keys generalizing message with
  | nil => rfl
  | cons key keys ih =>
    have hkeys : ∀ other ∈ keys, other ∈ erased := fun other hmem =>
      h other (List.mem_cons_of_mem _ hmem)
    rw [setIds, List.foldl_cons, ← setIds, ih hkeys,
      Json.eraseFields_setField (h key List.mem_cons_self)]

variable {key : String}

theorem mem_toolResultIdKeys_of_updated (h : key ∈ updatedKeys message id) :
    key ∈ toolResultIdKeys := by
  rcases List.mem_append.1 h with h | h
  · exact List.mem_of_mem_filter h
  · split at h
    · rw [List.mem_singleton.1 h]
      decide
    · cases h

theorem rawId_setIds (hobj : message.isObj = true) (hid : id ≠ "") (hkey : key ∈ toolResultIdKeys) :
    rawId (setIds message (updatedKeys message id) id) key = some id ∨
      rawId (setIds message (updatedKeys message id) id) key = none ∧ rawId message key = none := by
  unfold rawId
  rw [strField_setIds hobj]
  by_cases hmem : key ∈ updatedKeys message id
  · rw [if_pos hmem]
    simp [hid]
  · rw [if_neg hmem]
    have hnot : ¬ (rawId message key).any (· ≠ id) = true := by
      intro hany
      exact hmem (List.mem_append_left _ (List.mem_filter.2 ⟨hkey, hany⟩))
    unfold rawId at hnot
    cases hraw : (message.strField key).filter (· ≠ "") with
    | none => exact Or.inr ⟨rfl, rfl⟩
    | some raw =>
      rw [hraw] at hnot
      simpa using hnot

theorem isToolResult_not_isAssistant (h : isToolResult message = true) :
    isAssistant message = false := by
  unfold isAssistant
  rw [of_decide_eq_true h]
  rfl

theorem fillToolResult_cases (hresult : isToolResult message = true)
    (h : IsAnswer messageEvents (· ≠ []) message ids) :
    (primaryRawId message = none ∧ ids = [] ∧ fillToolResult message ids = message) ∨
      ∃ raw id, primaryRawId message = some raw ∧ ids = [id] ∧ id ≠ [] ∧
        fillToolResult message ids =
          setIds message (updatedKeys message (.ofList id)) (.ofList id) := by
  obtain ⟨hlength, hgood⟩ := h
  unfold messageEvents at hlength
  rw [isToolResult_not_isAssistant hresult, if_neg Bool.false_ne_true, if_pos hresult] at hlength
  unfold fillToolResult
  cases hraw : primaryRawId message with
  | none =>
    rw [hraw] at hlength
    exact Or.inl ⟨rfl, List.eq_nil_of_length_eq_zero hlength, rfl⟩
  | some raw =>
    rw [hraw] at hlength
    obtain ⟨id, rfl⟩ := List.length_eq_one_iff.1 hlength
    exact Or.inr ⟨raw, id, rfl, rfl, hgood id (List.mem_singleton_self id), rfl⟩

theorem findSome?_eq_some_of_forall {κ α : Type} {f : κ → Option α} {keys : List κ} {a : α}
    (hmem : ∃ key ∈ keys, f key = some a) (hall : ∀ key ∈ keys, ∀ b, f key = some b → b = a) :
    keys.findSome? f = some a := by
  cases hfind : keys.findSome? f with
  | none =>
    obtain ⟨key, hkey, hsome⟩ := hmem
    rw [List.findSome?_eq_none_iff] at hfind
    rw [hfind key hkey] at hsome
    cases hsome
  | some b =>
    obtain ⟨key, hkey, hsome⟩ := List.exists_of_findSome?_eq_some hfind
    rw [hall key hkey b hsome]

theorem mem_toolResultIdKeys_iff :
    key ∈ ["call_id", "callId", "tool_call_id", "tool_use_id", "toolCallId", "toolUseId"] ↔
      key ∈ toolResultIdKeys := by
  simp only [toolResultIdKeys, List.mem_cons, List.not_mem_nil, or_false]
  tauto

theorem primaryRawId_setIds (hobj : message.isObj = true) {raw : String} (hid : id ≠ "")
    (hraw : primaryRawId message = some raw) :
    primaryRawId (setIds message (updatedKeys message id) id) = some id := by
  obtain ⟨key, hkey, hfield⟩ := List.exists_of_findSome?_eq_some hraw
  refine findSome?_eq_some_of_forall ⟨key, hkey, ?_⟩ ?_
  · rcases rawId_setIds hobj hid (mem_toolResultIdKeys_iff.1 hkey) with hself | ⟨-, hnone⟩
    · exact hself
    · rw [hnone] at hfield
      cases hfield
  · intro other hother resolved hresolved
    rcases rawId_setIds hobj hid (mem_toolResultIdKeys_iff.1 hother) with hself | ⟨hnone, -⟩
    · rw [hself] at hresolved
      exact (Option.some_inj.1 hresolved).symm
    · rw [hnone] at hresolved
      cases hresolved

theorem updatedKeys_eq_nil
    (hkeys : ∀ key ∈ toolResultIdKeys, ∀ raw, rawId message key = some raw → raw = id)
    (htoolCallId : message.strField "toolCallId" ≠ none) : updatedKeys message id = [] := by
  unfold updatedKeys
  rw [if_neg fun h => htoolCallId h.1, List.append_nil, List.filter_eq_nil_iff]
  intro key hkey
  cases hraw : rawId message key with
  | none => simp
  | some raw => simp [hkeys key hkey raw hraw]

theorem updatedKeys_setIds (hobj : message.isObj = true) (hid : id ≠ "") :
    updatedKeys (setIds message (updatedKeys message id) id) id = [] := by
  apply updatedKeys_eq_nil
  · intro key hkey raw hraw
    rcases rawId_setIds hobj hid hkey with hself | ⟨hnone, -⟩
    · rw [hself] at hraw
      exact (Option.some_inj.1 hraw).symm
    · rw [hnone] at hraw
      cases hraw
  · rw [strField_setIds hobj]
    by_cases hmem : "toolCallId" ∈ updatedKeys message id
    · simp [hmem]
    · rw [if_neg hmem]
      intro hnone
      apply hmem
      unfold updatedKeys
      rw [if_pos ⟨hnone, hid⟩]
      exact List.mem_append_right _ (List.mem_singleton_self _)

theorem role_setIds (hobj : message.isObj = true) (id : String) :
    role (setIds message (updatedKeys message id) id) = role message := by
  unfold role
  rw [strField_setIds hobj, if_neg]
  intro hmem
  have hkey := mem_toolResultIdKeys_of_updated hmem
  revert hkey
  decide

end OpenClaw.Transcript
