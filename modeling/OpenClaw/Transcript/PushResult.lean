import Mathlib.Data.List.Basic
import Mathlib.Tactic.FinCases
import OpenClaw.Transcript.Pairing

/-!
# What the repair pushes

A result that takes the place of another one has its id, so the *kinds* of the slots of the output,
where a result counts by its id only, grow at the end and change nowhere else.

* `emit` — the ids that are pushed when each id is pushed once only.
* `Placed` — the recorded positions are those of the results of the output. Every operation of the
  repair keeps it.
-/

namespace OpenClaw.Transcript

/-! ## Ids -/

theorem head_foldl_ids (ids acc : List String) :
    (ids.foldl (fun ids id => if id ∈ ids then ids else ids ++ [id]) acc).head? =
      acc.head?.or ids.head? := by
  induction ids generalizing acc with
  | nil => rw [List.foldl_nil, List.head?_nil, Option.or_none]
  | cons id ids ih =>
    rw [List.foldl_cons, ih]
    cases acc with
    | nil => rfl
    | cons first acc =>
      split
      · rfl
      · rfl

theorem extractToolResultId_eq (message : Json) : extractToolResultId message =
    (toolResultIdKeys.filterMap fun key =>
      normalizeOptionalString (message.strField key)).head? := by
  rw [extractToolResultId, extractToolResultIds, head_foldl_ids]
  rfl

variable {message : Json}

variable {id : String}

theorem extractToolResultId_trimmed (h : extractToolResultId message = some id) :
    normalizeOptionalString (some id) = some id := by
  rw [extractToolResultId_eq] at h
  obtain ⟨key, -, hkey⟩ := List.mem_filterMap.mp (List.mem_of_mem_head? h)
  exact normalizeOptionalString_idem hkey

/-- The id that the results of a call are known by. -/
def callId (call : ToolCall) : Option String := normalizeOptionalString (some call.id)

theorem callId_of_extract {call : ToolCall} (h : extractToolResultId message = some call.id) :
    callId call = some call.id :=
  extractToolResultId_trimmed h

theorem extractToolResultId_missing (call : ToolCall) (text : Option String) (now : Int) :
    extractToolResultId (makeMissingToolResult call.id call.name text now) = callId call := by
  have hfirst : (makeMissingToolResult call.id call.name text now).strField "toolCallId" =
      some call.id := rfl
  have hnone : ∀ key ∈ ["toolUseId", "tool_call_id", "tool_use_id", "callId", "call_id"],
      normalizeOptionalString
        ((makeMissingToolResult call.id call.name text now).strField key) = none := by
    intro key hkey
    fin_cases hkey <;> rfl
  rw [extractToolResultId_eq, toolResultIdKeys, List.filterMap_cons, hfirst,
    List.filterMap_eq_nil_iff.mpr hnone, callId]
  cases normalizeOptionalString (some call.id) with
  | none => rfl
  | some id => rfl

/-! ## Rewritten results -/

variable {key : String}

theorem extract_setField (hkey : key ∉ toolResultIdKeys) (message value : Json) :
    extractToolResultId (message.setField key value) = extractToolResultId message := by
  rw [extractToolResultId_eq, extractToolResultId_eq]
  congr 1
  refine List.filterMap_congr fun other hother => ?_
  rw [Json.strField_setField_of_ne (ne_of_mem_of_not_mem hother hkey)]

theorem isToolResult_setField (hkey : key ≠ "role") (message value : Json) :
    isToolResult (message.setField key value) = isToolResult message := by
  rw [isToolResult, isToolResult, role, role, Json.strField_setField_of_ne hkey.symm]

section

variable (message : Json)

theorem normalizeToolResultName_cases (fallbackName : Option String) :
    (normalizeToolResultName message fallbackName).1 = message ∨
      ∃ name, (normalizeToolResultName message fallbackName).1 =
        message.setField "toolName" (.str name) := by
  rw [normalizeToolResultName]
  split
  · split
    · exact .inl rfl
    · exact .inr ⟨_, rfl⟩
  · split
    · exact .inr ⟨_, rfl⟩
    · split
      · exact .inr ⟨_, rfl⟩
      · exact .inl rfl

theorem extract_normalizeToolResultName (fallbackName : Option String) :
    extractToolResultId (normalizeToolResultName message fallbackName).1 =
      extractToolResultId message := by
  rcases normalizeToolResultName_cases message fallbackName with h | ⟨name, h⟩
  · rw [h]
  · rw [h, extract_setField (by decide)]

theorem isToolResult_normalizeToolResultName (fallbackName : Option String) :
    isToolResult (normalizeToolResultName message fallbackName).1 = isToolResult message := by
  rcases normalizeToolResultName_cases message fallbackName with h | ⟨name, h⟩
  · rw [h]
  · rw [h, isToolResult_setField (by decide)]

theorem normalizeLegacyToolResultId_cases (toolCalls : List ToolCall) :
    normalizeLegacyToolResultId message toolCalls = (message, false) ∨
      ∃ call, toolCalls = [call] ∧ extractToolResultId message = none ∧
        namesDiffer message call = false ∧
        normalizeLegacyToolResultId message toolCalls =
          ((message.setField "toolCallId" (.str call.id)).setField "isError" (.bool true),
            true) := by
  unfold normalizeLegacyToolResultId
  split
  · exact .inl rfl
  · rename_i hnone
    rw [Option.not_isSome_iff_eq_none] at hnone
    split
    · rename_i call
      split
      · exact .inl rfl
      · rename_i hnames
        exact .inr ⟨call, rfl, hnone, Bool.eq_false_iff.mpr hnames, rfl⟩
    · exact .inl rfl

theorem isToolResult_normalizeLegacyToolResultId (toolCalls : List ToolCall) :
    isToolResult (normalizeLegacyToolResultId message toolCalls).1 = isToolResult message := by
  rcases normalizeLegacyToolResultId_cases message toolCalls with h | ⟨call, -, -, -, h⟩
  · rw [h]
  · rw [h, isToolResult_setField (by decide), isToolResult_setField (by decide)]

end

theorem normalizeLegacyToolResultId_of_some (h : extractToolResultId message = some id)
    (toolCalls : List ToolCall) :
    normalizeLegacyToolResultId message toolCalls = (message, false) := by
  exact if_pos (by rw [h]; rfl)

/-! ## Kinds of slots -/

/-- A slot of the output, where of a result the id counts only. -/
inductive Kind
  | result (id : Option String)
  | other (slot : Slot)

def kind (slot : Slot) : Kind :=
  if isToolResult slot.message then .result (extractToolResultId slot.message) else .other slot

variable {slot : Slot}

theorem kind_of_result (h : isToolResult slot.message = true) :
    kind slot = .result (extractToolResultId slot.message) := if_pos h

theorem kind_of_other (h : isToolResult slot.message = false) :
    kind slot = .other slot := if_neg (by rw [h]; decide)

def RepairState.kinds (s : RepairState) : List Kind := s.out.map kind

/-! ## Ids that are pushed once -/

/-- The ids that are pushed, and the ids seen after. -/
def emit (seen : List String) : List (Option String) → List (Option String) × List String
  | [] => ([], seen)
  | none :: ids => (none :: (emit seen ids).1, (emit seen ids).2)
  | some id :: ids =>
    if id ∈ seen then emit seen ids
    else (some id :: (emit (id :: seen) ids).1, (emit (id :: seen) ids).2)

theorem emit_cons (seen : List String) (id : Option String) (ids : List (Option String)) :
    emit seen (id :: ids) = ((emit seen [id]).1 ++ (emit (emit seen [id]).2 ids).1,
      (emit (emit seen [id]).2 ids).2) := by
  cases id with
  | none => rfl
  | some id =>
    rw [emit, emit]
    split
    · rfl
    · rfl

/-! ## The output and the positions -/

/-- The positions are those of the results of the output. -/
structure Positions (out : List Slot) (positions : String → Option Nat) (seen : List String) :
    Prop where
  placed : ∀ id position, positions id = some position → ∃ slot, out[position]? = some slot ∧
    isToolResult slot.message = true ∧ extractToolResultId slot.message = some id
  found : ∀ (position : Nat) slot id, out[position]? = some slot →
    isToolResult slot.message = true → extractToolResultId slot.message = some id →
      positions id = some position
  seen : ∀ id, id ∈ seen ↔ (positions id).isSome = true

namespace RepairState

def Placed (s : RepairState) : Prop :=
  Positions s.out s.toolResultPositions s.seenToolResultIds

theorem placed_start : Placed {} where
  placed _ _ h := by cases h
  found _ _ _ h := by cases h
  seen id := ⟨fun h => absurd h List.not_mem_nil, fun h => by cases h⟩

variable {s : RepairState} {slot : Slot}

theorem Placed.push (hs : s.Placed)
    (hslot : isToolResult slot.message = true → extractToolResultId slot.message = none) :
    (s.push slot).Placed where
  placed id position h := by
    obtain ⟨old, hold, hresult, hid⟩ := hs.placed id position h
    exact ⟨old, List.getElem?_append_left (List.getElem?_eq_some_iff.mp hold).1 ▸ hold,
      hresult, hid⟩
  found position old id h hresult hid := by
    have hget : (s.out ++ [slot])[position]? = some old := h
    rw [List.getElem?_append] at hget
    split at hget
    · exact hs.found position old id hget hresult hid
    · rw [List.getElem?_singleton] at hget
      split at hget
      · cases hget
        rw [hslot hresult] at hid
        cases hid
      · cases hget
  seen := hs.seen

theorem kinds_push (s : RepairState) (slot : Slot) :
    (s.push slot).kinds = s.kinds ++ [kind slot] := by
  rw [kinds, RepairState.push, List.map_append]
  rfl

/-! ### A result whose id was not seen -/

/-- `out.push(msg)`, with the id recorded. -/
def append (s : RepairState) (id : String) (slot : Slot) : RepairState :=
  { s with
    out := s.out ++ [slot]
    seenToolResultIds := id :: s.seenToolResultIds
    toolResultPositions := Function.update s.toolResultPositions id (some s.out.length) }

variable {id : String}

theorem Placed.append (hs : s.Placed) (hresult : isToolResult slot.message = true)
    (hid : extractToolResultId slot.message = some id) (hnew : id ∉ s.seenToolResultIds) :
    (s.append id slot).Placed where
  placed other position h := by
    change Function.update s.toolResultPositions id _ other = some position at h
    by_cases heq : other = id
    · rw [heq, Function.update_self] at h
      cases h
      exact ⟨slot, List.getElem?_concat_length, hresult, heq ▸ hid⟩
    · rw [Function.update_of_ne heq] at h
      obtain ⟨old, hold, hrole, hother⟩ := hs.placed other position h
      exact ⟨old, List.getElem?_append_left (List.getElem?_eq_some_iff.mp hold).1 ▸ hold,
        hrole, hother⟩
  found position old other h hrole hother := by
    change (s.out ++ [slot])[position]? = some old at h
    change Function.update s.toolResultPositions id _ other = some position
    rw [List.getElem?_append] at h
    split at h
    · have hpos := hs.found position old other h hrole hother
      rw [Function.update_of_ne, hpos]
      intro heq
      exact hnew ((hs.seen id).mpr (by rw [← heq, hpos]; rfl))
    · rename_i hlt
      rw [List.getElem?_singleton] at h
      split at h
      · cases h
        rw [hid] at hother
        cases hother
        rw [Function.update_self]
        congr 1
        omega
      · cases h
  seen other := by
    change other ∈ id :: s.seenToolResultIds ↔
      (Function.update s.toolResultPositions id _ other).isSome = true
    by_cases heq : other = id
    · rw [heq, Function.update_self]
      exact ⟨fun _ => rfl, fun _ => List.mem_cons_self⟩
    · rw [Function.update_of_ne heq, List.mem_cons, or_iff_right heq, hs.seen]

/-! ### A result whose id was seen -/

/-- The output holds the same kinds, and the same ids have been seen. -/
structure SameKinds (s t : RepairState) : Prop where
  kinds : t.kinds = s.kinds
  seen : t.seenToolResultIds = s.seenToolResultIds
  placed : t.Placed

variable {t : RepairState}

theorem SameKinds.of_placed (hs : s.Placed) (hout : t.out = s.out)
    (hseen : t.seenToolResultIds = s.seenToolResultIds)
    (hpositions : t.toolResultPositions = s.toolResultPositions) : SameKinds s t where
  kinds := by rw [RepairState.kinds, RepairState.kinds, hout]
  seen := hseen
  placed := by rw [Placed, hout, hseen, hpositions]; exact hs

theorem sameKinds_replace (hs : s.Placed) {position : Nat}
    (hposition : s.toolResultPositions id = some position)
    (hresult : isToolResult slot.message = true)
    (hid : extractToolResultId slot.message = some id) (added : List Json) :
    SameKinds s { s.dropDuplicate with out := s.out.set position slot, added } := by
  obtain ⟨old, hold, holdresult, holdid⟩ := hs.placed id position hposition
  have hlt := (List.getElem?_eq_some_iff.mp hold).1
  refine ⟨?_, rfl, ?_, ?_, hs.seen⟩
  · change (s.out.set position slot).map _ = s.out.map _
    rw [List.map_set]
    have hlt' : position < (s.out.map kind).length := by
      rwa [List.length_map]
    have hkind : kind slot = (s.out.map kind)[position] := by
      rw [List.getElem_map, (List.getElem?_eq_some_iff.mp hold).2, kind_of_result holdresult,
        kind_of_result hresult, hid, holdid]
    rw [hkind, List.set_getElem_self]
  · intro other index h
    by_cases heq : position = index
    · cases heq
      obtain ⟨old', hold', -, hother⟩ := hs.placed other position h
      rw [hold] at hold'
      cases hold'
      rw [holdid] at hother
      cases hother
      exact ⟨slot, List.getElem?_set_self hlt, hresult, hid⟩
    · rw [List.getElem?_set_ne heq]
      exact hs.placed other index h
  · intro index slot' other h hrole hother
    by_cases heq : position = index
    · cases heq
      rw [List.getElem?_set_self hlt] at h
      cases h
      rw [hid] at hother
      cases hother
      exact hposition
    · rw [List.getElem?_set_ne heq] at h
      exact hs.found index slot' other h hrole hother

theorem sameKinds_dropDuplicate (hs : s.Placed) : SameKinds s s.dropDuplicate :=
  .of_placed hs rfl rfl rfl

theorem sameKinds_pushSeen (hs : s.Placed) (hresult : isToolResult slot.message = true)
    (hid : extractToolResultId slot.message = some id) : SameKinds s (s.pushSeen id slot) := by
  unfold pushSeen
  split
  · exact sameKinds_dropDuplicate hs
  · rename_i position hposition
    split
    · exact sameKinds_dropDuplicate hs
    · split
      · exact sameKinds_replace hs hposition hresult hid _
      · exact sameKinds_dropDuplicate hs

/-! ### `pushToolResult` -/

theorem pushToolResult_of_none (s : RepairState) (hid : extractToolResultId slot.message = none) :
    s.pushToolResult slot = s.push slot := by
  rw [pushToolResult, hid]

theorem pushToolResult_of_seen (hid : extractToolResultId slot.message = some id)
    (hseen : id ∈ s.seenToolResultIds) : s.pushToolResult slot = s.pushSeen id slot := by
  rw [pushToolResult, hid]
  exact if_pos hseen

theorem pushToolResult_of_new (hid : extractToolResultId slot.message = some id)
    (hnew : id ∉ s.seenToolResultIds) : s.pushToolResult slot = s.append id slot := by
  rw [pushToolResult, hid]
  exact if_neg hnew

/-- What results with these ids add to the output. -/
structure Pushes (s : RepairState) (ids : List (Option String)) (t : RepairState) : Prop where
  kinds : t.kinds = s.kinds ++ (emit s.seenToolResultIds ids).1.map .result
  seen : t.seenToolResultIds = (emit s.seenToolResultIds ids).2
  placed : t.Placed

theorem Pushes.nil (hs : s.Placed) : Pushes s [] s :=
  ⟨(List.append_nil _).symm, rfl, hs⟩

variable {u : RepairState} {ids : List (Option String)}

theorem Pushes.cons {id : Option String} (hst : Pushes s [id] t) (htu : Pushes t ids u) :
    Pushes s (id :: ids) u where
  kinds := by
    rw [htu.kinds, hst.kinds, hst.seen, emit_cons _ id ids, List.map_append, List.append_assoc]
  seen := by rw [htu.seen, hst.seen, emit_cons _ id ids]
  placed := htu.placed

theorem SameKinds.pushes (hst : SameKinds s t) (htu : Pushes t ids u) : Pushes s ids u where
  kinds := by rw [htu.kinds, hst.kinds, hst.seen]
  seen := by rw [htu.seen, hst.seen]
  placed := htu.placed

theorem pushes_pushToolResult (hs : s.Placed) (hresult : isToolResult slot.message = true) :
    Pushes s [extractToolResultId slot.message] (s.pushToolResult slot) := by
  cases hid : extractToolResultId slot.message with
  | none =>
    rw [pushToolResult_of_none s hid]
    refine ⟨?_, rfl, hs.push fun _ => hid⟩
    rw [kinds_push, kind_of_result hresult, hid]
    rfl
  | some id =>
    by_cases hseen : id ∈ s.seenToolResultIds
    · rw [pushToolResult_of_seen hid hseen]
      have hsame := sameKinds_pushSeen hs hresult hid
      refine ⟨?_, ?_, hsame.placed⟩
      · rw [hsame.kinds, emit, if_pos hseen]
        exact (List.append_nil _).symm
      · rw [hsame.seen, emit, if_pos hseen]
        rfl
    · rw [pushToolResult_of_new hid hseen]
      refine ⟨?_, ?_, hs.append hresult hid hseen⟩
      · rw [emit, if_neg hseen]
        change (s.out ++ [slot]).map _ = _
        rw [List.map_append, List.map_singleton, kind_of_result hresult, hid]
        rfl
      · rw [emit, if_neg hseen]
        rfl

end RepairState

end OpenClaw.Transcript
