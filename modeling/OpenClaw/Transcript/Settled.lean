import Mathlib.Data.List.ReduceOption
import OpenClaw.Transcript.TurnRepair

/-!
# When the repair changes nothing

The repair returns its input unless one of its branches notes a change. A turn is `Settled` if no
branch notes one for it; `repairTurn_changed` says that this is exactly when the flag stays down.
-/

namespace OpenClaw.Transcript

namespace RepairState

/-- From one state to a later one `changed` stays up, and `moved` and `added` come with it. -/
structure FlagsUp (s t : RepairState) : Prop where
  changed : s.changed = true → t.changed = true
  moved : t.moved = true → s.moved = true ∨ t.changed = true
  added : t.added ≠ [] → s.added ≠ [] ∨ t.changed = true

theorem FlagsUp.refl (s : RepairState) : FlagsUp s s := ⟨id, .inl, .inl⟩

variable {s t : RepairState}

theorem FlagsUp.trans {u : RepairState} (hst : FlagsUp s t) (htu : FlagsUp t u) : FlagsUp s u where
  changed h := htu.changed (hst.changed h)
  moved h := by
    rcases htu.moved h with ht | hu
    · exact (hst.moved ht).imp_right htu.changed
    · exact .inr hu
  added h := by
    rcases htu.added h with ht | hu
    · exact (hst.added ht).imp_right htu.changed
    · exact .inr hu

theorem FlagsUp.of_changed (h : t.changed = true) : FlagsUp s t :=
  ⟨fun _ => h, fun _ => .inr h, fun _ => .inr h⟩

theorem FlagsUp.of_eq (hchanged : t.changed = s.changed) (hmoved : t.moved = s.moved)
    (hadded : t.added = s.added) : FlagsUp s t :=
  ⟨fun h => hchanged.trans h, fun h => .inl (hmoved.symm.trans h), fun h => .inl (hadded ▸ h)⟩

theorem FlagsUp.foldl {α : Type} {f : RepairState → α → RepairState}
    (hf : ∀ s a, FlagsUp s (f s a)) (l : List α) (s : RepairState) : FlagsUp s (l.foldl f s) := by
  induction l generalizing s with
  | nil => exact .refl s
  | cons a l ih => exact (hf s a).trans (ih _)

theorem pushSeen_changed (s : RepairState) (id : String) (slot : Slot) :
    (s.pushSeen id slot).changed = true := by
  unfold pushSeen
  split
  · rfl
  · split
    · rfl
    · split <;> rfl

theorem pushToolResult_changed (s : RepairState) (slot : Slot) :
    (s.pushToolResult slot).changed = true ↔ s.changed = true ∨
      (emit s.seenToolResultIds [extractToolResultId slot.message]).1 ≠
        [extractToolResultId slot.message] := by
  cases hid : extractToolResultId slot.message with
  | none =>
    rw [pushToolResult_of_none s hid]
    exact ⟨.inl, fun h => h.resolve_right fun hne => hne rfl⟩
  | some id =>
    by_cases hseen : id ∈ s.seenToolResultIds
    · rw [pushToolResult_of_seen hid hseen, emit, if_pos hseen]
      exact ⟨fun _ => .inr (List.cons_ne_nil _ _).symm, fun _ => pushSeen_changed s id slot⟩
    · rw [pushToolResult_of_new hid hseen, emit, if_neg hseen]
      exact ⟨.inl, fun h => h.resolve_right fun hne => hne rfl⟩

theorem flagsUp_pushToolResult (s : RepairState) (slot : Slot) :
    FlagsUp s (s.pushToolResult slot) := by
  unfold pushToolResult
  split
  · exact .of_eq rfl rfl rfl
  · split
    · exact .of_changed (pushSeen_changed s _ slot)
    · exact .of_eq rfl rfl rfl

end RepairState

open RepairState

/-! ## The scan -/

def resultIds (span : List Slot) : List (Option String) :=
  (span.filter fun slot => isToolResult slot.message).map fun slot =>
    extractToolResultId slot.message

/-- The result is one of a call of the turn, under its name. -/
def IsOwnResult (toolCalls : List ToolCall) (seen : List String) (slot : Slot) : Prop :=
  ∃ id ∈ callIds toolCalls, extractToolResultId slot.message = some id ∧ id ∉ seen ∧
    (normalizeToolResultName slot.message (toolCallName toolCalls id)).2 = false

/-- The results of the span are results of calls of the turn, one for each. -/
structure SettledSpan (toolCalls : List ToolCall) (seen : List String) (span : List Slot) :
    Prop where
  own : ∀ slot ∈ span, isToolResult slot.message = true → IsOwnResult toolCalls seen slot
  distinct : (resultIds span).Nodup

variable {span : List Slot} {slot : Slot}

theorem resultIds_concat_of_result (h : isToolResult slot.message = true) :
    resultIds (span ++ [slot]) = resultIds span ++ [extractToolResultId slot.message] := by
  rw [resultIds, List.filter_append, List.filter_cons_of_pos (by exact h), List.map_append]
  rfl

theorem resultIds_concat_of_other (h : isToolResult slot.message = false) :
    resultIds (span ++ [slot]) = resultIds span := by
  rw [resultIds, List.filter_append, List.filter_cons_of_neg (by rw [h]; decide),
    List.filter_nil, List.append_nil]
  rfl

variable {toolCalls : List ToolCall} {seen : List String}

theorem settledSpan_concat_of_other (h : isToolResult slot.message = false) :
    SettledSpan toolCalls seen (span ++ [slot]) ↔ SettledSpan toolCalls seen span := by
  constructor
  · intro hspan
    refine ⟨fun other hmem => hspan.own other (List.mem_append_left _ hmem), ?_⟩
    rw [← resultIds_concat_of_other h]
    exact hspan.distinct
  · intro hspan
    refine ⟨fun other hmem hresult => ?_, ?_⟩
    · rcases List.mem_append.mp hmem with hmem | hmem
      · exact hspan.own other hmem hresult
      · rw [List.mem_singleton.mp hmem, h] at hresult
        cases hresult
    · rw [resultIds_concat_of_other h]
      exact hspan.distinct

theorem settledSpan_concat_of_result (h : isToolResult slot.message = true) :
    SettledSpan toolCalls seen (span ++ [slot]) ↔ SettledSpan toolCalls seen span ∧
      IsOwnResult toolCalls seen slot ∧
        extractToolResultId slot.message ∉ resultIds span := by
  constructor
  · intro hspan
    have hdistinct := hspan.distinct
    rw [resultIds_concat_of_result h, List.nodup_append] at hdistinct
    refine ⟨⟨fun other hmem => hspan.own other (List.mem_append_left _ hmem), hdistinct.1⟩,
      hspan.own slot (List.mem_append_right _ List.mem_cons_self) h, fun hmem => ?_⟩
    exact hdistinct.2.2 _ hmem _ List.mem_cons_self rfl
  · rintro ⟨hspan, hown, hnew⟩
    refine ⟨fun other hmem hresult => ?_, ?_⟩
    · rcases List.mem_append.mp hmem with hmem | hmem
      · exact hspan.own other hmem hresult
      · rw [List.mem_singleton.mp hmem]
        exact hown
    · rw [resultIds_concat_of_result h, List.nodup_append]
      refine ⟨hspan.distinct, List.nodup_singleton _, fun a ha b hb heq => ?_⟩
      rw [List.mem_singleton.mp hb] at heq
      exact hnew (heq ▸ ha)

/-- What the scan of a settled span leaves: the state as it was, and the results. -/
structure ScannedSettled (s : RepairState) (span : List Slot) (scan : SpanScan) : Prop where
  state : scan.state = s
  keys : scan.spanResultsById.map (fun entry => some entry.1) = resultIds span

variable {s : RepairState} {scan : SpanScan} {id : String}

theorem ScannedSettled.get_eq_none (h : ScannedSettled s span scan) :
    scan.spanResultsById.get id = none ↔ some id ∉ resultIds span := by
  rw [ResultsById.get_eq_none, ← h.keys, not_iff_not, List.mem_map, List.mem_map]
  simp only [Option.some.injEq]

theorem scanToolResult_own (h : ScannedSettled s span scan)
    (hown : IsOwnResult toolCalls s.seenToolResultIds slot)
    (hnew : extractToolResultId slot.message ∉ resultIds span) :
    (scanToolResult toolCalls scan false slot).state = s ∧
      (scanToolResult toolCalls scan false slot).spanResultsById.map (fun entry => some entry.1) =
        resultIds span ++ [extractToolResultId slot.message] := by
  obtain ⟨id, hcall, hid, hseen, hname⟩ := hown
  rw [hid] at hnew
  have hget := h.get_eq_none.mpr hnew
  rw [← h.state] at hseen
  rw [scanToolResult, hid]
  dsimp only
  rw [if_neg hseen, if_pos (any_call_iff.mpr hcall), hget]
  constructor
  · rw [hname, ← h.state, noteRewritten, Bool.or_false, Bool.or_false]
  · rw [List.map_append, h.keys]
    rfl

theorem normalizeLegacy_own (hid : extractToolResultId slot.message = some id) :
    normalizeLegacy toolCalls slot = slot := by
  rw [normalizeLegacy, normalizeLegacyToolResultId_of_some hid]

theorem normalizeLegacy_of_not_rewritten
    (h : (normalizeLegacyToolResultId slot.message toolCalls).2 = false) :
    normalizeLegacy toolCalls slot = slot := by
  rcases normalizeLegacyToolResultId_cases slot.message toolCalls with heq | ⟨_, -, -, -, heq⟩
  · rw [normalizeLegacy, heq]
  · rw [heq] at h
    cases h

theorem flagsUp_scanSlot (toolCalls : List ToolCall) (scan : SpanScan) (slot : Slot) :
    FlagsUp scan.state (scanSlot toolCalls scan slot).state := by
  unfold scanSlot
  split
  · have hstep := scanToolResult_step toolCalls scan
      (normalizeLegacyToolResultId slot.message toolCalls).2 (normalizeLegacy toolCalls slot)
    generalize scanToolResult toolCalls scan _ _ = next at hstep
    cases hstep with
    | orphan => exact .of_changed rfl
    | seen => exact flagsUp_pushToolResult _ _
    | first => exact ⟨fun h => by rw [noteRewritten, h]; rfl, .inl, .inl⟩
    | better => exact .of_changed rfl
    | duplicate => exact .of_changed rfl
  · exact .refl _

theorem own_of_scanSlot (h : ScannedSettled s span scan)
    (hresult : isToolResult slot.message = true)
    (hchanged : (scanSlot toolCalls scan slot).state.changed = false) :
    IsOwnResult toolCalls s.seenToolResultIds slot ∧
      extractToolResultId slot.message ∉ resultIds span := by
  rw [scanSlot, if_pos hresult] at hchanged
  have hstep := scanToolResult_step toolCalls scan
    (normalizeLegacyToolResultId slot.message toolCalls).2 (normalizeLegacy toolCalls slot)
  generalize scanToolResult toolCalls scan _ _ = next at hstep hchanged
  cases hstep with
  | orphan => cases hchanged
  | seen id hid hseen =>
    have hname : extractToolResultId (normalizeName toolCalls id
        (normalizeLegacy toolCalls slot)).message = some id :=
      (extract_normalizeToolResultName _ _).trans hid
    rw [pushToolResult_of_seen hname hseen, pushSeen_changed] at hchanged
    cases hchanged
  | better => cases hchanged
  | duplicate => cases hchanged
  | first id hid hseen hcall hget =>
    change (scan.state.changed || (_ || _)) = false at hchanged
    rw [Bool.or_eq_false_iff, Bool.or_eq_false_iff] at hchanged
    obtain ⟨-, hrewritten, hname⟩ := hchanged
    rw [normalizeLegacy_of_not_rewritten hrewritten] at hid hname
    refine ⟨⟨id, hcall, hid, h.state ▸ hseen, hname⟩, ?_⟩
    rw [hid]
    exact h.get_eq_none.mp hget

theorem scan_changed (toolCalls : List ToolCall) (s : RepairState) (span : List Slot) :
    ((span.foldl (scanSlot toolCalls) { state := s }).state.changed = false ↔
      s.changed = false ∧ SettledSpan toolCalls s.seenToolResultIds span) ∧
    (SettledSpan toolCalls s.seenToolResultIds span →
      ScannedSettled s span (span.foldl (scanSlot toolCalls) { state := s })) := by
  induction span using List.reverseRecOn with
  | nil =>
    have hnil : SettledSpan toolCalls s.seenToolResultIds [] :=
      ⟨fun _ h => absurd h List.not_mem_nil, List.nodup_nil⟩
    exact ⟨(and_iff_left hnil).symm, fun _ => ⟨rfl, rfl⟩⟩
  | append_singleton span slot ih =>
    obtain ⟨ihchanged, ihscanned⟩ := ih
    rw [List.foldl_append, List.foldl_cons, List.foldl_nil]
    generalize span.foldl (scanSlot toolCalls) { state := s } = scan at ihchanged ihscanned
    by_cases hresult : isToolResult slot.message = true
    · rw [settledSpan_concat_of_result hresult]
      have hkept : SettledSpan toolCalls s.seenToolResultIds span →
          IsOwnResult toolCalls s.seenToolResultIds slot →
          extractToolResultId slot.message ∉ resultIds span →
            ScannedSettled s (span ++ [slot]) (scanSlot toolCalls scan slot) := by
        intro hspan hown hnew
        have hsame := scanToolResult_own (ihscanned hspan) hown hnew
        obtain ⟨id, -, hid, -⟩ := hown
        rw [scanSlot, if_pos hresult, normalizeLegacy_own hid,
          normalizeLegacyToolResultId_of_some hid]
        exact ⟨hsame.1, hsame.2.trans (resultIds_concat_of_result hresult).symm⟩
      refine ⟨⟨fun hchanged => ?_, ?_⟩, fun ⟨hspan, hown, hnew⟩ => hkept hspan hown hnew⟩
      · have hbefore : scan.state.changed = false := by
          rw [Bool.eq_false_iff]
          intro hup
          rw [(flagsUp_scanSlot toolCalls scan slot).changed hup] at hchanged
          cases hchanged
        obtain ⟨hs, hspan⟩ := ihchanged.mp hbefore
        exact ⟨hs, hspan, own_of_scanSlot (ihscanned hspan) hresult hchanged⟩
      · rintro ⟨hs, hspan, hown, hnew⟩
        rw [(hkept hspan hown hnew).state, hs]
    · rw [Bool.not_eq_true] at hresult
      have hsame : scanSlot toolCalls scan slot =
          { scan with remainder := scan.remainder ++ [slot] } := by
        rw [scanSlot, hresult]
        rfl
      rw [settledSpan_concat_of_other hresult, hsame]
      refine ⟨ihchanged, fun hspan => ⟨(ihscanned hspan).state, ?_⟩⟩
      rw [resultIds_concat_of_other hresult]
      exact (ihscanned hspan).keys

/-! ## New ids -/

/-- No id is one of the seen ones, or there twice. Ids without text do not count. -/
structure NewIds (seen : List String) (ids : List (Option String)) : Prop where
  distinct : ids.reduceOption.Nodup
  unseen : ∀ id, some id ∈ ids → id ∉ seen

variable {ids : List (Option String)}

theorem mem_reduceOption : id ∈ ids.reduceOption ↔ some id ∈ ids := List.reduceOption_mem_iff

theorem newIds_none_cons : NewIds seen (none :: ids) ↔ NewIds seen ids := by
  constructor
  · exact fun h => ⟨h.distinct, fun id hmem => h.unseen id (List.mem_cons_of_mem _ hmem)⟩
  · refine fun h => ⟨h.distinct, fun id hmem => ?_⟩
    rcases List.mem_cons.mp hmem with heq | hmem
    · cases heq
    · exact h.unseen id hmem

theorem newIds_some_cons : NewIds seen (some id :: ids) ↔ id ∉ seen ∧ NewIds (id :: seen) ids := by
  constructor
  · intro h
    have hdistinct := h.distinct
    rw [List.reduceOption_cons_of_some, List.nodup_cons, mem_reduceOption] at hdistinct
    refine ⟨h.unseen id List.mem_cons_self, hdistinct.2, fun other hmem hseen => ?_⟩
    rcases List.mem_cons.mp hseen with rfl | hseen
    · exact hdistinct.1 hmem
    · exact h.unseen other (List.mem_cons_of_mem _ hmem) hseen
  · rintro ⟨hid, h⟩
    refine ⟨?_, fun other hmem => ?_⟩
    · rw [List.reduceOption_cons_of_some, List.nodup_cons, mem_reduceOption]
      exact ⟨fun hmem => h.unseen id hmem List.mem_cons_self, h.distinct⟩
    · rcases List.mem_cons.mp hmem with heq | hmem
      · cases heq
        exact hid
      · exact fun hseen => h.unseen other hmem (List.mem_cons_of_mem _ hseen)

theorem emit_eq_iff : (emit seen ids).1 = ids ↔ NewIds seen ids := by
  induction ids generalizing seen with
  | nil => exact ⟨fun _ => ⟨List.nodup_nil, fun _ h => absurd h List.not_mem_nil⟩, fun _ => rfl⟩
  | cons id ids ih =>
    rw [emit_cons_eq_iff]
    cases id with
    | none =>
      rw [newIds_none_cons, ← ih]
      exact and_iff_right rfl
    | some id =>
      rw [newIds_some_cons, emit]
      by_cases hseen : id ∈ seen
      · rw [if_pos hseen]
        exact ⟨fun h => absurd h.1 (List.cons_ne_nil _ _).symm, fun h => absurd hseen h.1⟩
      · rw [if_neg hseen, ← ih]
        exact and_congr_left' (iff_of_true rfl hseen)

/-! ## The answers -/

theorem flagsUp_answerCall (options : ToolUseResultPairingOptions) (clock : Nat → Int)
    (span : ResultsById) (acc : RepairState × ResultsById) (call : ToolCall) :
    FlagsUp acc.1 (answerCall options clock span acc call).1 := by
  unfold answerCall
  split
  · exact flagsUp_pushToolResult _ _
  · split
    · exact .of_changed ((flagsUp_pushToolResult _ _).changed rfl)
    · exact .of_changed ((flagsUp_pushToolResult _ _).changed rfl)

theorem flagsUp_answers (options : ToolUseResultPairingOptions) (clock : Nat → Int)
    (span : ResultsById) (calls : List ToolCall) (acc : RepairState × ResultsById) :
    FlagsUp acc.1 (calls.foldl (answerCall options clock span) acc).1 := by
  induction calls generalizing acc with
  | nil => exact .refl _
  | cons call calls ih => exact (flagsUp_answerCall _ _ _ _ _).trans (ih _)

theorem not_changed_of_flagsUp {t : RepairState} (h : FlagsUp s t) (ht : t.changed = false) :
    s.changed = false := by
  rw [Bool.eq_false_iff]
  intro hs
  rw [h.changed hs] at ht
  cases ht

theorem IsResultFor.push_changed {entry : String × Slot} (h : IsResultFor entry)
    (s : RepairState) : (s.pushToolResult entry.2).changed = false ↔ s.changed = false ∧
      (emit s.seenToolResultIds [some entry.1]).1 = [some entry.1] := by
  rw [← not_iff_not, Bool.not_eq_false, pushToolResult_changed, h.id, not_and_or,
    Bool.not_eq_false]

variable {options : ToolUseResultPairingOptions} {clock : Nat → Int}

theorem answers_changed {span : ResultsById} (hspan : ∀ entry ∈ span, IsResultFor entry)
    (calls : List ToolCall) (hs : s.Placed) (later : ResultsById) :
    (calls.foldl (answerCall options clock span) (s, later)).1.changed = false ↔
      s.changed = false ∧ (∀ call ∈ calls, span.get call.id ≠ none) ∧
        (emit s.seenToolResultIds (calls.map callId)).1 = calls.map callId := by
  induction calls generalizing s later with
  | nil => exact ⟨fun h => ⟨h, fun _ hmem => absurd hmem List.not_mem_nil, rfl⟩, fun h => h.1⟩
  | cons call calls ih =>
    rw [List.foldl_cons, List.map_cons, emit_cons_eq_iff, List.forall_mem_cons]
    cases hget : span.get call.id with
    | some existing =>
      have hfor := hspan _ (ResultsById.mem_of_get hget)
      have hadds := hfor.adds hs
      have hcall : callId call = some call.id := callId_of_extract hfor.id
      rw [answerCall, hget]
      rw [ih hadds.placed, hfor.push_changed, hadds.seen, hcall]
      constructor
      · rintro ⟨⟨hchanged, hfirst⟩, hcalls, hrest⟩
        exact ⟨hchanged, ⟨Option.some_ne_none _, hcalls⟩, hfirst, hrest⟩
      · rintro ⟨hchanged, ⟨-, hcalls⟩, hfirst, hrest⟩
        exact ⟨⟨hchanged, hfirst⟩, hcalls, hrest⟩
    | none =>
      refine ⟨fun h => ?_, fun h => absurd rfl h.2.1.1⟩
      have hstep : (answerCall options clock span (s, later) call).1.changed = false :=
        not_changed_of_flagsUp (flagsUp_answers options clock span calls _) h
      rw [answerCall, hget] at hstep
      dsimp only at hstep
      split at hstep
      · rw [(flagsUp_pushToolResult _ _).changed rfl] at hstep
        cases hstep
      · rw [RepairState.pushMissing, (flagsUp_pushToolResult _ _).changed rfl] at hstep
        cases hstep

theorem kept_changed {span : ResultsById} (hspan : ∀ entry ∈ span, IsResultFor entry)
    (calls : List ToolCall) (hs : s.Placed) :
    (calls.foldl (keepResult span) s).changed = false ↔ s.changed = false ∧
      (emit s.seenToolResultIds ((calls.filter fun call => (span.get call.id).isSome).map
        fun call => some call.id)).1 =
      (calls.filter fun call => (span.get call.id).isSome).map fun call => some call.id := by
  induction calls generalizing s with
  | nil => exact ⟨fun h => ⟨h, rfl⟩, fun h => h.1⟩
  | cons call calls ih =>
    rw [List.foldl_cons, keepResult]
    cases hget : span.get call.id with
    | none =>
      rw [List.filter_cons_of_neg (by rw [hget]; exact Bool.false_ne_true)]
      exact ih hs
    | some result =>
      have hfor := hspan _ (ResultsById.mem_of_get hget)
      have hadds := hfor.adds hs
      rw [List.filter_cons_of_pos (by rw [hget]; rfl), List.map_cons, emit_cons_eq_iff]
      rw [ih hadds.placed, hfor.push_changed, hadds.seen, and_assoc]

/-! ## The turn -/

/-- The repair has nothing to do for the turn. -/
structure Turn.Settled (options : ToolUseResultPairingOptions) (seen : List String)
    (turn : Turn) : Prop where
  span : SettledSpan turn.toolCalls seen turn.span
  stays : ¬ turn.Dropped options
  new : NewIds seen (turn.answeredIds options seen)
  /-- Of a turn that did not fail, every call has a result, and nothing else follows. -/
  answered : isErrored turn.assistant.message = false →
    (∀ id ∈ callIds turn.toolCalls, some id ∈ resultIds turn.span) ∧ others turn.span = []

variable {turn : Turn}

theorem toolCalls_ne_nil (h : turn.FromInput) : turn.toolCalls ≠ [] := by
  have hcalls := h.hasToolCalls
  rw [assistantHasToolCalls, Bool.and_eq_true, Bool.not_eq_true', List.isEmpty_eq_false_iff]
    at hcalls
  exact hcalls.2

theorem foldl_push_changed (slots : List Slot) (s : RepairState) :
    (slots.foldl RepairState.push s).changed = s.changed := by
  rw [foldl_push]

theorem repairTurn_changed (hs : s.Placed) (hturn : turn.FromInput) (rest : List Slot) :
    (repairTurn options clock s turn rest).changed = false ↔
      s.changed = false ∧ turn.Settled options s.seenToolResultIds := by
  have hscan := scanned turn.toolCalls hs fun slot hmem => (hturn.span slot hmem).2
  obtain ⟨hchanged, hsettled⟩ := scan_changed turn.toolCalls s turn.span
  have hassistant := appends_push hscan.quiet.placed
    (not_isToolResult_of_hasToolCalls hturn.hasToolCalls) hturn.origin
  have hseen := hscan.quiet.seen
  have hkept := filter_get_eq_keptIds hscan
  unfold repairTurn
  dsimp only
  rw [hscan.remainder]
  generalize turn.span.foldl (scanSlot turn.toolCalls) { state := s } = scan at *
  by_cases herrored : isErrored turn.assistant.message = true
  · rw [if_pos herrored, foldl_push_changed]
    by_cases hdrop : options.dropErroredAssistantResults = true
    · rw [if_neg (by rw [hdrop]; decide)]
      constructor
      · intro h
        cases h
      · exact fun h => absurd ⟨herrored, hdrop⟩ h.2.stays
    · have hstays : ¬ turn.Dropped options := fun h => hdrop h.2
      have hids : turn.answeredIds options s.seenToolResultIds =
          (keptIds turn.toolCalls s.seenToolResultIds turn.span).map some := by
        rw [Turn.answeredIds, if_neg hstays, if_pos herrored]
      rw [if_pos (by simpa using hdrop), kept_changed hscan.results _ hassistant.placed, hkept,
        show (scan.state.push turn.assistant).seenToolResultIds = s.seenToolResultIds from hseen,
        emit_eq_iff, ← hids]
      change scan.state.changed = false ∧ _ ↔ _
      rw [hchanged, and_assoc]
      refine and_congr_right fun _ => ⟨fun hkept => ⟨hkept.1, hstays, hkept.2, fun h => ?_⟩,
        fun h => ⟨h.span, h.new⟩⟩
      rw [herrored] at h
      cases h
  · have hstays : ¬ turn.Dropped options := fun h => herrored h.1
    have hids : turn.answeredIds options s.seenToolResultIds = turn.toolCalls.map callId := by
      rw [Turn.answeredIds, if_neg hstays, if_neg herrored]
    rw [if_neg herrored, foldl_push_changed, answers_changed hscan.results]
    swap
    · exact (SameKinds.of_placed hassistant.placed rfl rfl rfl).placed
    change (scan.state.changed || _) = false ∧ _ ∧
      (emit scan.state.seenToolResultIds (turn.toolCalls.map callId)).1 = _ ↔ _
    rw [hseen, emit_eq_iff, ← hids, Bool.or_eq_false_iff, hchanged]
    constructor
    · rintro ⟨⟨⟨hfirst, hspan⟩, hreordered⟩, hanswered, hnew⟩
      refine ⟨hfirst, hspan, hstays, hnew, fun _ => ⟨fun id hid => ?_, ?_⟩⟩
      · obtain ⟨call, hcall, rfl⟩ := List.mem_map.mp hid
        by_contra hnot
        exact hanswered call hcall ((hsettled hspan).get_eq_none.mpr hnot)
      · obtain ⟨call, hcall⟩ := List.exists_mem_of_ne_nil _ (toolCalls_ne_nil hturn)
        have hresults : scan.spanResultsById ≠ [] := by
          intro hnil
          apply hanswered call hcall
          rw [hnil]
          rfl
        rw [Bool.and_eq_false_iff, Bool.not_eq_false', Bool.not_eq_false'] at hreordered
        rcases hreordered with hempty | hempty
        · exact absurd (List.isEmpty_iff.mp hempty) hresults
        · exact List.isEmpty_iff.mp hempty
    · rintro ⟨hfirst, h⟩
      obtain ⟨hanswered, hothers⟩ := h.answered (Bool.not_eq_true _ ▸ herrored)
      refine ⟨⟨⟨hfirst, h.span⟩, ?_⟩, fun call hcall hnone => ?_, h.new⟩
      · rw [hothers]
        exact Bool.and_false _
      · exact (hsettled h.span).get_eq_none.mp hnone (hanswered _ (List.mem_map_of_mem hcall))

theorem flagsUp_repairTurn (options : ToolUseResultPairingOptions) (clock : Nat → Int)
    (s : RepairState) (turn : Turn) (rest : List Slot) :
    FlagsUp s (repairTurn options clock s turn rest) := by
  have hscan : FlagsUp s (turn.span.foldl (scanSlot turn.toolCalls) { state := s }).state := by
    generalize hstart : ({ state := s } : SpanScan) = start
    have hstate : s = start.state := by rw [← hstart]
    rw [hstate]
    clear hstart hstate
    generalize turn.span = span
    induction span generalizing start with
    | nil => exact .refl _
    | cons slot span ih => exact (flagsUp_scanSlot _ start slot).trans (ih _)
  have hpush : ∀ (slots : List Slot) (t : RepairState),
      FlagsUp t (slots.foldl RepairState.push t) := by
    intro slots t
    rw [foldl_push]
    exact .of_eq rfl rfl rfl
  refine hscan.trans ?_
  unfold repairTurn
  dsimp only
  generalize turn.span.foldl (scanSlot turn.toolCalls) { state := s } = scan
  split
  · refine .trans ?_ (hpush _ _)
    split
    · refine .trans (t := scan.state.push turn.assistant) (.of_eq rfl rfl rfl) (.foldl ?_ _ _)
      intro t call
      unfold keepResult
      split
      · exact .refl t
      · exact flagsUp_pushToolResult _ _
    · exact .of_changed rfl
  · refine .trans ?_ (hpush _ _)
    refine .trans ?_ (flagsUp_answers options clock _ _ _)
    refine ⟨fun h => ?_, fun h => ?_, .inl⟩
    · change (scan.state.changed || _) = true
      rw [h, Bool.true_or]
    · change (scan.state.moved || _) = true at h
      rw [Bool.or_eq_true] at h ⊢
      exact h.imp_right .inr

end OpenClaw.Transcript
