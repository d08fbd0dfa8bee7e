import OpenClaw.Transcript.ToolCallRewrite

/-!
# The ids of a sanitized transcript

**Theorem (`sanitizeToolCallIds_spec`).** If the run always finds an unused id, the calls of the
transcript get different ids, each result gets the id of the oldest call with its raw id that waits,
the other results get ids of no call, and only ids change. If the Kimi seeds stay, the ids of the
calls are valid, and a second pass changes nothing exactly when the results that answer no call keep
theirs.
-/

namespace OpenClaw.Transcript

/-- The message without its ids. -/
def eraseIds (message : Json) : Json :=
  if isAssistant message then
    match message.field "content" with
    | some (.arr blocks) => message.setField "content" (.arr (blocks.map eraseBlockId))
    | _ => message
  else if isToolResult message then message.eraseFields toolResultIdKeys
  else message

/-- The ids that a message has are one id. -/
def OneRawId (message : Json) : Prop :=
  ∀ key ∈ toolResultIdKeys, ∀ id, rawId message key = some id → primaryRawId message = some id

/-- What the ids of a run are to its events. -/
structure Answers (events : List ToolEvent) (ids : List Id) : Prop where
  length : ids.length = events.length
  distinct : ∀ (i j : Nat) (raw raw' : Id), events[i]? = some (.call raw) →
    events[j]? = some (.call raw') → ids[i]? = ids[j]? → i = j
  answered : ∀ (i j : Nat) (raw : Id), events[j]? = some (.result raw) →
    (unanswered raw (events.take j)).head? = some i → ids[j]? = ids[i]?
  orphan : ∀ (i j : Nat) (raw raw' : Id), events[j]? = some (.result raw) →
    unanswered raw (events.take j) = [] → events[i]? = some (.call raw') → ids[j]? ≠ ids[i]?

variable {events : List ToolEvent}

theorem source_of_result {j : Nat} {raw : Id} (h : events[j]? = some (.result raw)) :
    source events j = (unanswered raw (events.take j)).headD j := by
  have hlt : j < events.length := (List.getElem?_eq_some_iff.1 h).1
  unfold source
  rw [h]
  dsimp only
  rw [sourceOf, List.length_take_of_le (le_of_lt hlt)]

theorem Resolved.answers {ids : List Id} {r : Resolver} (h : Resolved events ids r) :
    Answers events ids where
  length := h.length
  distinct i j raw raw' hi hj hid := by
    have hsource := (h.source i (List.getElem?_eq_some_iff.1 hi).1 j
      (List.getElem?_eq_some_iff.1 hj).1).1 hid
    rwa [source_of_call hi, source_of_call hj] at hsource
  answered i j raw hj hhead := by
    have hlt : j < events.length := (List.getElem?_eq_some_iff.1 hj).1
    have hmem := getElem_of_mem_unanswered (List.mem_of_mem_head? hhead)
    have hi : i < j := by
      have hlt := lt_of_mem_unanswered (List.mem_of_mem_head? hhead)
      rw [List.length_take] at hlt
      omega
    rw [List.getElem?_take_of_lt hi] at hmem
    rw [h.source j hlt i (lt_trans hi hlt), source_of_result hj, source_of_call hmem,
      List.headD_eq_head?_getD, hhead]
    rfl
  orphan i j raw raw' hj hnone hi := by
    have hlt : j < events.length := (List.getElem?_eq_some_iff.1 hj).1
    intro heq
    have hsource := (h.source j hlt i (List.getElem?_eq_some_iff.1 hi).1).1 heq
    rw [source_of_result hj, hnone, source_of_call hi, List.headD_nil] at hsource
    rw [hsource, hi] at hj
    cases hj

/-! ## A filled message -/

section

variable {message : Json} {ids : List Id}

section

variable (h : IsAnswer messageEvents (· ≠ []) message ids)
include h

theorem fillMessage_kind : isAssistant (fillMessage message ids) = isAssistant message ∧
      isToolResult (fillMessage message ids) = isToolResult message := by
  have hrole : role (fillMessage message ids) = role message := by
    unfold fillMessage
    by_cases hassistant : isAssistant message = true
    · rw [if_pos hassistant, of_decide_eq_true hassistant]
      exact of_decide_eq_true (isAssistant_fillAssistant hassistant ids)
    · rw [if_neg hassistant]
      by_cases hresult : isToolResult message = true
      · rw [if_pos hresult]
        have hobj : message.isObj = true := Json.isObj_of_strField (of_decide_eq_true hresult)
        rcases fillToolResult_cases hresult h with ⟨-, -, hfill⟩ | ⟨raw, id, -, -, -, hfill⟩
        · rw [hfill]
        · rw [hfill, role_setIds hobj]
      · rw [if_neg hresult]
  exact ⟨by rw [isAssistant, hrole, isAssistant], by rw [isToolResult, hrole, isToolResult]⟩

theorem messageEvents_fillMessage :
    messageEvents (fillMessage message ids) = renamed (messageEvents message) ids := by
  rw [messageEvents, (fillMessage_kind h).1, (fillMessage_kind h).2, fillMessage, messageEvents]
  by_cases hassistant : isAssistant message = true
  · rw [if_pos hassistant, if_pos hassistant, if_pos hassistant,
      contentBlocks_fillAssistant hassistant]
    exact flatMap_fillAll blockEvents_fillBlock (isAnswer_assistant hassistant h)
  · rw [if_neg hassistant, if_neg hassistant, if_neg hassistant]
    by_cases hresult : isToolResult message = true
    · rw [if_pos hresult, if_pos hresult, if_pos hresult]
      have hobj : message.isObj = true := Json.isObj_of_strField (of_decide_eq_true hresult)
      rcases fillToolResult_cases hresult h with
        ⟨hraw, rfl, hfill⟩ | ⟨raw, id, hraw, rfl, hid, hfill⟩
      · rw [hfill, hraw]
        rfl
      · rw [hfill, primaryRawId_setIds hobj (ofList_ne_empty hid) hraw, hraw]
        simp [renamed, ToolEvent.withId]
    · rw [if_neg hresult, if_neg hresult]
      rfl

theorem eraseIds_fillMessage : eraseIds (fillMessage message ids) = eraseIds message := by
  rw [eraseIds, (fillMessage_kind h).1, (fillMessage_kind h).2, fillMessage, eraseIds]
  by_cases hassistant : isAssistant message = true
  · rw [if_pos hassistant, if_pos hassistant, if_pos hassistant]
    have hobj : message.isObj = true := Json.isObj_of_strField (of_decide_eq_true hassistant)
    rcases fillAssistant_cases message ids with ⟨-, hfill, -⟩ | ⟨hcontent, hfill⟩
    · rw [hfill]
    · rw [hfill, Json.field_setField_self hobj, hcontent]
      dsimp only
      rw [Json.setField_setField,
        map_fillAll eraseBlockId_fillBlock (isAnswer_assistant hassistant h)]
  · rw [if_neg hassistant, if_neg hassistant, if_neg hassistant]
    by_cases hresult : isToolResult message = true
    · rw [if_pos hresult, if_pos hresult, if_pos hresult]
      rcases fillToolResult_cases hresult h with ⟨-, -, hfill⟩ | ⟨raw, id, -, -, -, hfill⟩
      · rw [hfill]
      · rw [hfill]
        exact eraseFields_setIds (fun _ => mem_toolResultIdKeys_of_updated) _ _
    · rw [if_neg hresult, if_neg hresult, if_neg hresult]

theorem fillMessage_again :
    fillMessage (fillMessage message ids) ids = fillMessage message ids := by
  rw [fillMessage, (fillMessage_kind h).1, (fillMessage_kind h).2, fillMessage]
  by_cases hassistant : isAssistant message = true
  · rw [if_pos hassistant, if_pos hassistant]
    have hobj : message.isObj = true := Json.isObj_of_strField (of_decide_eq_true hassistant)
    rcases fillAssistant_cases message ids with ⟨-, hfill, -⟩ | ⟨hcontent, hfill⟩
    · rw [hfill, hfill]
    · have hagain := fillAll_again fillBlock_again (isAnswer_assistant hassistant h)
      rw [hfill, fillAssistant, Json.field_setField_self hobj]
      dsimp only
      rw [Json.setField_setField, hagain]
  · rw [if_neg hassistant, if_neg hassistant]
    by_cases hresult : isToolResult message = true
    · rw [if_pos hresult, if_pos hresult]
      have hobj : message.isObj = true := Json.isObj_of_strField (of_decide_eq_true hresult)
      rcases fillToolResult_cases hresult h with
        ⟨hraw, rfl, hfill⟩ | ⟨raw, id, hraw, rfl, hid, hfill⟩
      · rw [hfill, hfill]
      · rw [hfill]
        unfold fillToolResult
        rw [primaryRawId_setIds hobj (ofList_ne_empty hid) hraw]
        dsimp only
        rw [updatedKeys_setIds hobj (ofList_ne_empty hid)]
        rfl
    · rw [if_neg hresult, if_neg hresult]

theorem oneRawId_fillMessage (hresult : isToolResult (fillMessage message ids) = true) :
    OneRawId (fillMessage message ids) := by
  rw [(fillMessage_kind h).2] at hresult
  rw [fillMessage, isToolResult_not_isAssistant hresult, if_neg Bool.false_ne_true,
    if_pos hresult]
  have hobj : message.isObj = true := Json.isObj_of_strField (of_decide_eq_true hresult)
  rcases fillToolResult_cases hresult h with ⟨hraw, -, hfill⟩ | ⟨raw, id, hraw, -, hid, hfill⟩
  · rw [hfill]
    intro key hkey id hid
    rw [primaryRawId, List.findSome?_eq_none_iff] at hraw
    rw [hraw key (mem_toolResultIdKeys_iff.2 hkey)] at hid
    cases hid
  · rw [hfill]
    intro key hkey other hother
    rw [primaryRawId_setIds hobj (ofList_ne_empty hid) hraw]
    rcases rawId_setIds hobj (ofList_ne_empty hid) hkey with hself | ⟨hnone, -⟩
    · rw [← hself, hother]
    · rw [hnone] at hother
      cases hother

end

end

/-! ## The transcript -/

section

variable {shortHash : Id → Nat → Id} (hhash : HashPrefix shortHash)
include hhash

theorem resolveEvents_ne_nil (now : Nat → Nat) (mode : ToolCallIdMode) (events : List ToolEvent) :
    ∀ id ∈ (resolveEvents shortHash now mode events).1, id ≠ [] := by
  have hstep (ids : List Id) (r : Resolver) (event : ToolEvent)
      (h : (∀ id ∈ ids, id ≠ []) ∧ ∀ raw, ∀ id ∈ r.pendingByRawId raw, id ≠ []) :
      (∀ id ∈ ids ++ [(resolveEvent shortHash now mode event r).1], id ≠ []) ∧
        ∀ raw, ∀ id ∈ (resolveEvent shortHash now mode event r).2.pendingByRawId raw,
          id ≠ [] := by
    obtain ⟨hids, hpending⟩ := h
    have hconcat {next : Id} (hnext : next ≠ []) : ∀ id ∈ ids ++ [next], id ≠ [] := by
      intro id hmem
      rcases List.mem_append.1 hmem with hmem | hmem
      · exact hids id hmem
      · rwa [List.mem_singleton.1 hmem]
    cases event with
    | call id =>
      have hnext := makeUniqueToolId_ne_nil hhash (now r.used.length)
        (callSeed id (r.assistantOccurrences id + 1)) r.used mode
      refine ⟨hconcat hnext, ?_⟩
      intro raw other hmem
      rcases mem_update_pending.1 hmem with hmem | ⟨-, rfl⟩
      · exact hpending raw other hmem
      · exact hnext
    | result id =>
      cases hraw : r.pendingByRawId id with
      | nil =>
        simp only [resolveEvent, resolveToolResultId, hraw]
        exact ⟨hconcat (makeUniqueToolId_ne_nil hhash _ _ _ _), hpending⟩
      | cons next pending =>
        have hcons (other : Id) (hmem : other ∈ next :: pending) : other ≠ [] :=
          hpending id other (hraw ▸ hmem)
        simp only [resolveEvent, resolveToolResultId, hraw]
        refine ⟨hconcat (hcons next List.mem_cons_self), ?_⟩
        intro raw other hmem
        by_cases heq : raw = id
        · subst heq
          rw [Function.update_self] at hmem
          exact hcons other (List.mem_cons_of_mem _ hmem)
        · rw [Function.update_of_ne heq] at hmem
          exact hpending raw other hmem
  have hrun := mapState_induction (f := resolveEvent shortHash now mode)
    (P := fun _ ids r => (∀ id ∈ ids, id ≠ []) ∧ ∀ raw, ∀ id ∈ r.pendingByRawId raw, id ≠ [])
    (s := createOccurrenceAwareResolver)
    ⟨fun _ hmem => absurd hmem List.not_mem_nil, fun _ _ hmem => absurd hmem List.not_mem_nil⟩
    (fun _ ids r event => hstep ids r event) events
  exact hrun.1

section

variable (now : Nat → Nat)

omit hhash in
theorem length_resolveEvents (mode : ToolCallIdMode) (events : List ToolEvent) :
    (resolveEvents shortHash now mode events).1.length = events.length := length_mapState _ _

theorem isAnswer_resolveEvents (mode : ToolCallIdMode) (messages : List Json) :
    IsAnswer (List.flatMap messageEvents) (· ≠ []) messages
      (resolveEvents shortHash now mode (toolEvents messages)).1 :=
  ⟨length_resolveEvents now mode _, resolveEvents_ne_nil hhash now mode _⟩

theorem toolEvents_sanitize (mode : ToolCallIdMode) (messages : List Json) :
    toolEvents (sanitizeToolCallIdsForCloudCodeAssist shortHash now mode messages) =
      renamed (toolEvents messages)
        (resolveEvents shortHash now mode (toolEvents messages)).1 := by
  rw [sanitizeToolCallIds_eq_fillAll]
  exact flatMap_fillAll (fun _ _ => messageEvents_fillMessage)
    (isAnswer_resolveEvents hhash now mode messages)

theorem eraseIds_sanitize (mode : ToolCallIdMode) (messages : List Json) :
    (sanitizeToolCallIdsForCloudCodeAssist shortHash now mode messages).map eraseIds =
      messages.map eraseIds := by
  rw [sanitizeToolCallIds_eq_fillAll]
  exact map_fillAll (fun _ _ => eraseIds_fillMessage)
    (isAnswer_resolveEvents hhash now mode messages)

theorem oneRawId_sanitize (mode : ToolCallIdMode) (messages : List Json) :
    ∀ message ∈ sanitizeToolCallIdsForCloudCodeAssist shortHash now mode messages,
      isToolResult message = true → OneRawId message := by
  rw [sanitizeToolCallIds_eq_fillAll]
  exact forall_mem_fillAll (fun _ _ => oneRawId_fillMessage)
    (isAnswer_resolveEvents hhash now mode messages)

end

def ToolEvent.id : ToolEvent → Id
  | .call id => id
  | .result id => id

omit hhash in
theorem map_id_renamed {events : List ToolEvent} {ids : List Id}
    (h : ids.length = events.length) : (renamed events ids).map ToolEvent.id = ids := by
  induction events generalizing ids with
  | nil => simp [renamed, List.eq_nil_of_length_eq_zero h]
  | cons event events ih =>
    cases ids with
    | nil => cases h
    | cons id ids =>
      have htail := ih (Nat.succ.inj h)
      unfold renamed at htail ⊢
      rw [List.zipWith_cons_cons, List.map_cons, htail]
      cases event <;> rfl

theorem sanitize_again_iff (now now₂ : Nat → Nat) (mode : ToolCallIdMode) (messages : List Json) :
    sanitizeToolCallIdsForCloudCodeAssist shortHash now₂ mode
        (sanitizeToolCallIdsForCloudCodeAssist shortHash now mode messages) =
      sanitizeToolCallIdsForCloudCodeAssist shortHash now mode messages ↔
    (resolveEvents shortHash now₂ mode (renamed (toolEvents messages)
        (resolveEvents shortHash now mode (toolEvents messages)).1)).1 =
      (resolveEvents shortHash now mode (toolEvents messages)).1 := by
  have hevents := toolEvents_sanitize hhash now mode messages
  have hanswer := isAnswer_resolveEvents hhash now mode messages
  constructor
  · intro hself
    have hagain := toolEvents_sanitize hhash now₂ mode
      (sanitizeToolCallIdsForCloudCodeAssist shortHash now mode messages)
    rw [hself] at hagain
    have hids := congrArg (List.map ToolEvent.id) hagain
    rw [map_id_renamed (length_resolveEvents now₂ mode _), hevents,
      map_id_renamed (length_resolveEvents now mode _)] at hids
    exact hids.symm
  · intro hids
    refine (sanitizeToolCallIds_eq_fillAll _).trans ?_
    rw [hevents, hids, sanitizeToolCallIds_eq_fillAll]
    refine fillAll_again ?_ hanswer
    intro message ids h
    refine ⟨?_, fillMessage_again h⟩
    rw [messageEvents_fillMessage h, renamed, List.length_zipWith, h.1, Nat.min_self]

end

/-- If the run always finds an unused id: the calls get different ids, a result gets the id of the
oldest call with its raw id that waits, or else one that no call has, and nothing but ids changes.
If besides, in `strict` mode, the seeds of calls that are native Kimi ids are different and not too
long, the ids are valid, and a second pass changes nothing unless it is in `strict` mode and some
result that answers no call has an id shorter than 40 characters. -/
theorem sanitizeToolCallIds_spec {shortHash : Id → Nat → Id} (hhash : HashPrefix shortHash)
    (now now₂ : Nat → Nat) (mode : ToolCallIdMode) (messages : List Json)
    (hfound : (rewriteMessages shortHash now mode messages).2.exhausted = false) :
    let out := sanitizeToolCallIdsForCloudCodeAssist shortHash now mode messages
    ∃ ids, toolEvents out = renamed (toolEvents messages) ids ∧
      Answers (toolEvents messages) ids ∧
      (∀ message ∈ out, isToolResult message = true → OneRawId message) ∧
      out.map eraseIds = messages.map eraseIds ∧
      ((mode = .strict → KimiSeedsStay (toolEvents messages)) →
        (∀ id ∈ ids, isValidCloudCodeAssistToolId id mode = true) ∧
          (sanitizeToolCallIdsForCloudCodeAssist shortHash now₂ mode out = out ↔
            OrphansStay mode (toolEvents messages) ids)) := by
  rw [rewriteMessages_resolver] at hfound
  refine ⟨(resolveEvents shortHash now mode (toolEvents messages)).1,
    toolEvents_sanitize hhash now mode messages, (resolved_of_found _ hfound).answers,
    oneRawId_sanitize hhash now mode messages, eraseIds_sanitize hhash now mode messages, ?_⟩
  intro hkimi
  have hsecond := secondPass_of_found now₂ hhash (toolEvents messages) hfound hkimi
  constructor
  · intro id hid
    exact (hsecond.settled.valid id ((hsecond.resolved.used id).2 hid)).1
  · rw [sanitize_again_iff hhash]
    exact hsecond.same

/-! ## Runs on fixed transcripts -/

/-- Digits for hexadecimal digits. -/
def zeros (_ : Id) (n : Nat) : Id := List.replicate n '0'

theorem hashPrefix_zeros : HashPrefix zeros where
  length _ n _ := List.length_replicate
  alphanum _ n c hc := by
    rw [List.eq_of_mem_replicate hc]
    rfl

/-- Two calls with one raw id, and their results. -/
def repeatedCall : List Json :=
  [.obj [("role", .str "assistant"), ("content", .arr
      [.obj [("type", .str "toolCall"), ("id", .str "call_1")],
        .obj [("type", .str "toolCall"), ("id", .str "call_1")]])],
    .obj [("role", .str "toolResult"), ("toolCallId", .str "call_1")],
    .obj [("role", .str "toolResult"), ("call_id", .str "call_1")]]

theorem repeatedCall_ids :
    let out := sanitizeToolCallIdsForCloudCodeAssist zeros (fun _ => 0) .strict repeatedCall
    ∃ ids, toolEvents out = renamed (toolEvents repeatedCall) ids ∧
      Answers (toolEvents repeatedCall) ids ∧
      ∀ id ∈ ids, isValidCloudCodeAssistToolId id .strict = true := by
  have hfound : (rewriteMessages zeros (fun _ => 0) .strict repeatedCall).2.exhausted = false := by
    decide +kernel
  obtain ⟨ids, hevents, hanswers, -, -, hids⟩ :=
    sanitizeToolCallIds_spec hashPrefix_zeros (fun _ => 0) (fun _ => 0) .strict repeatedCall hfound
  have hkimi : KimiSeedsStay (toolEvents repeatedCall) := by
    unfold KimiSeedsStay
    decide +kernel
  exact ⟨ids, hevents, hanswers, (hids fun _ => hkimi).1⟩

def lateResult : List Json :=
  [.obj [("role", .str "toolResult"), ("toolCallId", .str "a"), ("content", .arr [])]]

theorem lateResult_found :
    (rewriteMessages zeros (fun _ => 0) .strict lateResult).2.exhausted = false := by
  decide +kernel

/-- On each pass its id grows: a second pass changes it. -/
theorem lateResult_changes :
    HashPrefix zeros ∧
      (rewriteMessages zeros (fun _ => 0) .strict lateResult).2.exhausted = false ∧
      sanitizeToolCallIdsForCloudCodeAssist zeros (fun _ => 0) .strict
          (sanitizeToolCallIdsForCloudCodeAssist zeros (fun _ => 0) .strict lateResult) ≠
        sanitizeToolCallIdsForCloudCodeAssist zeros (fun _ => 0) .strict lateResult := by
  refine ⟨hashPrefix_zeros, lateResult_found, ?_⟩
  rw [Ne, sanitize_again_iff hashPrefix_zeros]
  decide +kernel

end OpenClaw.Transcript
