import OpenClaw.Transcript.PushResult

/-!
# What a turn adds to the output

* `Quiet` — the scan of a span leaves the kinds of the output and the seen ids as they are.
* `Adds` — the answers to the calls of a turn are results with the ids of the calls, each id once.
* `ScanStep` — what one step of the scan can do.
* `Scanned` — what the scan has found in a part of the span.
* `keptIds`, `repairTurn_adds` — what a whole turn adds.

The relations carry that `added` is exactly the results that the repair made: it is so as long as no
id is to be answered twice.
-/

namespace OpenClaw.Transcript

/-- The results that the repair made. -/
def madeResults (slots : List Slot) : List Json :=
  (slots.filter fun slot => slot.origin = none).map Slot.message

theorem madeResults_append (slots more : List Slot) :
    madeResults (slots ++ more) = madeResults slots ++ madeResults more := by
  rw [madeResults, List.filter_append, List.map_append]
  rfl

variable {slot : Slot}

theorem madeResults_of_origin (h : slot.origin ≠ none) : madeResults [slot] = [] := by
  rw [madeResults, List.filter_cons_of_neg (by simpa using h)]
  rfl

theorem madeResults_of_none (h : slot.origin = none) : madeResults [slot] = [slot.message] := by
  rw [madeResults, List.filter_cons_of_pos (by simpa using h)]
  rfl

theorem madeResults_cons (slot : Slot) (slots : List Slot) :
    madeResults (slot :: slots) = madeResults [slot] ++ madeResults slots :=
  madeResults_append [slot] slots

variable {slots : List Slot}

variable {message : Json}

theorem mem_madeResults :
    message ∈ madeResults slots ↔ ∃ slot ∈ slots, slot.origin = none ∧ slot.message = message := by
  rw [madeResults, List.mem_map]
  constructor
  · rintro ⟨slot, hmem, heq⟩
    rw [List.mem_filter, decide_eq_true_iff] at hmem
    exact ⟨slot, hmem.1, hmem.2, heq⟩
  · rintro ⟨slot, hmem, horigin, heq⟩
    exact ⟨slot, List.mem_filter.mpr ⟨hmem, decide_eq_true horigin⟩, heq⟩

theorem madeResults_set {position : Nat} {old : Slot} {p : Json → Bool}
    (hold : slots[position]? = some old) (hp : p old.message = true) (hslot : slot.origin ≠ none)
    (honly : ∀ index other, slots[index]? = some other → other.origin = none →
      p other.message = true → index = position) :
    madeResults (slots.set position slot) = (madeResults slots).eraseP p := by
  induction slots generalizing position with
  | nil => cases hold
  | cons first slots ih =>
    cases position with
    | zero =>
      cases hold
      have hrest : ∀ message ∈ madeResults slots, ¬ p message = true := by
        intro message hmem hpm
        obtain ⟨other, hother, horigin, rfl⟩ := mem_madeResults.mp hmem
        obtain ⟨index, hindex⟩ := List.mem_iff_getElem?.mp hother
        cases honly (index + 1) other (by rwa [List.getElem?_cons_succ]) horigin hpm
      rw [List.set_cons_zero, madeResults_cons, madeResults_of_origin hslot, List.nil_append,
        madeResults_cons]
      by_cases horigin : old.origin = none
      · rw [madeResults_of_none horigin, List.singleton_append, List.eraseP_cons_of_pos hp]
      · rw [madeResults_of_origin horigin, List.nil_append, List.eraseP_of_forall_not hrest]
    | succ position =>
      have ih' := ih hold fun index other hindex horigin hpm =>
        Nat.succ.inj (honly (index + 1) other (by rwa [List.getElem?_cons_succ]) horigin hpm)
      rw [List.set_cons_succ, madeResults_cons, ih', madeResults_cons first slots,
        List.eraseP_append_right]
      intro message hmem hpm
      obtain ⟨other, hother, horigin, rfl⟩ := mem_madeResults.mp hmem
      cases List.mem_singleton.mp hother
      cases honly 0 first rfl horigin hpm

namespace RepairState

/-- `added` is the results that were made, and they are results. -/
structure Exact (s : RepairState) : Prop where
  added : s.added = madeResults s.out
  results : ∀ slot ∈ s.out, slot.origin = none → isToolResult slot.message = true

theorem exact_start : Exact {} where
  added := rfl
  results _ h := absurd h List.not_mem_nil

variable {s t : RepairState}

theorem Exact.of_eq (hs : s.Exact) (hout : t.out = s.out) (hadded : t.added = s.added) :
    t.Exact where
  added := by rw [hadded, hout, hs.added]
  results := by rw [hout]; exact hs.results

variable {slot : Slot}

theorem Exact.concat (hs : s.Exact) (hslot : slot.origin ≠ none) (hout : t.out = s.out ++ [slot])
    (hadded : t.added = s.added) : t.Exact where
  added := by rw [hadded, hout, madeResults_append, madeResults_of_origin hslot, List.append_nil,
    hs.added]
  results old hmem horigin := by
    rw [hout, List.mem_append, List.mem_singleton] at hmem
    rcases hmem with hmem | rfl
    · exact hs.results old hmem horigin
    · exact absurd horigin hslot

variable {id : String}

theorem Exact.pushSeen (hs : s.Exact) (hplaced : s.Placed) (hslot : slot.origin ≠ none) :
    (s.pushSeen id slot).Exact := by
  unfold RepairState.pushSeen
  split
  · exact hs.of_eq rfl rfl
  · rename_i position hposition
    obtain ⟨old, hold, hresult, hid⟩ := hplaced.placed id position hposition
    rw [hold]
    dsimp only
    split
    · refine ⟨?_, ?_⟩
      · change s.added.eraseP _ = madeResults (s.out.set position slot)
        rw [hs.added]
        refine (madeResults_set hold (decide_eq_true hid) hslot ?_).symm
        intro index other hother horigin hpm
        have hrole := hs.results other (List.mem_of_getElem? hother) horigin
        have hfound := hplaced.found index other id hother hrole (of_decide_eq_true hpm)
        rw [hposition] at hfound
        exact (Option.some.inj hfound).symm
      · intro other hmem horigin
        rcases List.mem_or_eq_of_mem_set hmem with hmem | rfl
        · exact hs.results other hmem horigin
        · exact absurd horigin hslot
    · exact hs.of_eq rfl rfl

theorem Exact.pushToolResult (hs : s.Exact) (hplaced : s.Placed) (hslot : slot.origin ≠ none) :
    (s.pushToolResult slot).Exact := by
  cases hid : extractToolResultId slot.message with
  | none =>
    rw [pushToolResult_of_none s hid]
    exact hs.concat hslot rfl rfl
  | some id =>
    by_cases hseen : id ∈ s.seenToolResultIds
    · rw [pushToolResult_of_seen hid hseen]
      exact hs.pushSeen hplaced hslot
    · rw [pushToolResult_of_new hid hseen]
      exact hs.concat hslot rfl rfl

/-! ## The two relations -/

/-- The output has the same kinds, and what was made stays exact. -/
structure Quiet (s t : RepairState) : Prop extends SameKinds s t where
  exact : s.Exact → t.Exact

/-- Results with these ids are added. What was made stays exact if all of them were new. -/
structure Adds (s : RepairState) (ids : List (Option String)) (t : RepairState) : Prop
    extends Pushes s ids t where
  exact : (emit s.seenToolResultIds ids).1 = ids → s.Exact → t.Exact

theorem Quiet.of_placed (hs : s.Placed) (hout : t.out = s.out) (hadded : t.added = s.added)
    (hseen : t.seenToolResultIds = s.seenToolResultIds)
    (hpositions : t.toolResultPositions = s.toolResultPositions) : Quiet s t where
  toSameKinds := .of_placed hs hout hseen hpositions
  exact h := h.of_eq hout hadded

variable {u : RepairState}

theorem Quiet.trans (hst : Quiet s t) (htu : Quiet t u) : Quiet s u where
  kinds := htu.kinds.trans hst.kinds
  seen := htu.seen.trans hst.seen
  placed := htu.placed
  exact h := htu.exact (hst.exact h)

theorem Quiet.adds (hst : Quiet s t) {ids : List (Option String)} (htu : Adds t ids u) :
    Adds s ids u where
  toPushes := hst.toSameKinds.pushes htu.toPushes
  exact hids h := htu.exact (by rw [hst.seen]; exact hids) (hst.exact h)

theorem quiet_pushToolResult (hs : s.Placed) (hresult : isToolResult slot.message = true)
    (hslot : slot.origin ≠ none) (hid : extractToolResultId slot.message = some id)
    (hseen : id ∈ s.seenToolResultIds) : Quiet s (s.pushToolResult slot) where
  toSameKinds := by
    rw [pushToolResult_of_seen hid hseen]
    exact sameKinds_pushSeen hs hresult hid
  exact h := h.pushToolResult hs hslot

theorem Adds.nil (hs : s.Placed) : Adds s [] s where
  toPushes := .nil hs
  exact _ h := h

end RepairState

theorem length_emit_le (seen : List String) (ids : List (Option String)) :
    (emit seen ids).1.length ≤ ids.length := by
  induction ids generalizing seen with
  | nil => exact Nat.le_refl 0
  | cons id ids ih =>
    cases id with
    | none => exact Nat.succ_le_succ (ih seen)
    | some id =>
      rw [emit]
      split
      · exact (ih seen).trans (Nat.le_succ _)
      · exact Nat.succ_le_succ (ih _)

theorem emit_cons_eq_iff (seen : List String) (id : Option String) (ids : List (Option String)) :
    (emit seen (id :: ids)).1 = id :: ids ↔
      (emit seen [id]).1 = [id] ∧ (emit (emit seen [id]).2 ids).1 = ids := by
  cases id with
  | none => exact ⟨fun h => ⟨rfl, List.tail_eq_of_cons_eq h⟩, fun h => congrArg (none :: ·) h.2⟩
  | some id =>
    by_cases hseen : id ∈ seen
    · rw [emit, emit, if_pos hseen, if_pos hseen]
      refine ⟨fun h => ?_, fun h => by cases h.1⟩
      have hlength := length_emit_le seen ids
      rw [h, List.length_cons] at hlength
      omega
    · rw [emit, emit, if_neg hseen, if_neg hseen]
      exact ⟨fun h => ⟨rfl, List.tail_eq_of_cons_eq h⟩, fun h => congrArg (some id :: ·) h.2⟩

namespace RepairState

variable {s : RepairState}

variable {id : Option String}

theorem Adds.cons {t u : RepairState} {ids : List (Option String)} (hst : Adds s [id] t)
    (htu : Adds t ids u) : Adds s (id :: ids) u where
  toPushes := hst.toPushes.cons htu.toPushes
  exact hids h := by
    rw [emit_cons_eq_iff] at hids
    exact htu.exact (by rw [hst.seen]; exact hids.2) (hst.exact hids.1 h)

theorem adds_pushToolResult (hs : s.Placed) {slot : Slot}
    (hresult : isToolResult slot.message = true) (hslot : slot.origin ≠ none) :
    Adds s [extractToolResultId slot.message] (s.pushToolResult slot) where
  toPushes := pushes_pushToolResult hs hresult
  exact _ h := h.pushToolResult hs hslot

/-- `added.push(missing)`, and the change flag. -/
def noteMissing (s : RepairState) (missing : Json) : RepairState :=
  { s with added := s.added ++ [missing], changed := true, made := s.made + 1 }

theorem adds_noteMissing (hs : s.Placed) {missing : Json} (hresult : isToolResult missing = true)
    (hid : extractToolResultId missing = id) :
    Adds s [id] ((s.noteMissing missing).pushToolResult ⟨missing, none⟩) where
  toPushes := by
    have hslot : isToolResult (⟨missing, none⟩ : Slot).message = true := hresult
    have hpushes : Pushes (s.noteMissing missing) [id] _ :=
      hid ▸ pushes_pushToolResult (s := s.noteMissing missing) hs hslot
    exact ⟨hpushes.kinds, hpushes.seen, hpushes.placed⟩
  exact hids h := by
    have hpushed : ((s.noteMissing missing).pushToolResult ⟨missing, none⟩).out =
        s.out ++ [⟨missing, none⟩] ∧
        ((s.noteMissing missing).pushToolResult ⟨missing, none⟩).added = s.added ++ [missing] := by
      cases id with
      | none =>
        rw [pushToolResult_of_none _ hid]
        exact ⟨rfl, rfl⟩
      | some id =>
        have hnew : id ∉ s.seenToolResultIds := by
          intro hseen
          rw [emit, if_pos hseen] at hids
          cases hids
        rw [pushToolResult_of_new (s := s.noteMissing missing) hid hnew]
        exact ⟨rfl, rfl⟩
    refine ⟨?_, ?_⟩
    · rw [hpushed.1, hpushed.2, madeResults_append, madeResults_of_none rfl, h.added]
    · intro slot hmem horigin
      rw [hpushed.1, List.mem_append, List.mem_singleton] at hmem
      rcases hmem with hmem | rfl
      · exact h.results slot hmem horigin
      · exact hresult

theorem isToolResult_missing (call : ToolCall) (text : Option String) (now : Int) :
    isToolResult (makeMissingToolResult call.id call.name text now) = true := rfl

theorem adds_pushMissing (hs : s.Placed) (options : ToolUseResultPairingOptions)
    (clock : Nat → Int) (call : ToolCall) :
    Adds s [callId call] (s.pushMissing options clock call) :=
  adds_noteMissing hs (isToolResult_missing call _ _) (extractToolResultId_missing call _ _)

end RepairState

/-! ## The index of results -/

namespace ResultsById

variable {results : ResultsById} {id : String}

theorem mem_of_get {slot : Slot} (h : results.get id = some slot) : (id, slot) ∈ results := by
  obtain ⟨entry, hfind, rfl⟩ := Option.map_eq_some_iff.mp h
  have hid : entry.1 = id := by simpa using List.find?_some hfind
  exact hid ▸ List.mem_of_find?_eq_some hfind

theorem get_eq_none : results.get id = none ↔ id ∉ results.map Prod.fst := by
  rw [ResultsById.get, Option.map_eq_none_iff, List.find?_eq_none]
  simp only [decide_eq_true_eq, List.mem_map, not_exists, not_and]

theorem map_fst_replace (results : ResultsById) (id : String) (slot : Slot) :
    (results.replace id slot).map Prod.fst = results.map Prod.fst := by
  rw [ResultsById.replace, List.map_map]
  refine List.map_congr_left fun entry _ => ?_
  change (if entry.1 = id then (id, slot) else entry).1 = entry.1
  by_cases h : entry.1 = id
  · rw [if_pos h, h]
  · rw [if_neg h]

theorem mem_replace {slot : Slot} {entry : String × Slot} (h : entry ∈ results.replace id slot) :
    entry = (id, slot) ∨ entry ∈ results := by
  obtain ⟨old, hold, rfl⟩ := List.mem_map.mp h
  split
  · exact .inl rfl
  · exact .inr hold

end ResultsById

/-! ## One step of the scan -/

def callIds (toolCalls : List ToolCall) : List String := toolCalls.map ToolCall.id

variable {toolCalls : List ToolCall}

variable {id : String}

theorem any_call_iff :
    (toolCalls.any fun call => call.id = id) = true ↔ id ∈ callIds toolCalls := by
  rw [List.any_eq_true, callIds, List.mem_map]
  simp only [decide_eq_true_eq]

/-- What the scan does with a result, after `normalizeLegacyToolResultId`. -/
inductive ScanStep (toolCalls : List ToolCall) (scan : SpanScan) (rewritten : Bool)
    (toolResult : Slot) : SpanScan → Prop
  | orphan (hid : ∀ id, extractToolResultId toolResult.message = some id →
      id ∉ scan.state.seenToolResultIds ∧ id ∉ callIds toolCalls) :
    ScanStep toolCalls scan rewritten toolResult { scan with state := scan.state.dropOrphan }
  | seen (id : String) (hid : extractToolResultId toolResult.message = some id)
      (hseen : id ∈ scan.state.seenToolResultIds) :
    ScanStep toolCalls scan rewritten toolResult
      { scan with state := scan.state.pushToolResult (normalizeName toolCalls id toolResult) }
  | first (id : String) (hid : extractToolResultId toolResult.message = some id)
      (hseen : id ∉ scan.state.seenToolResultIds) (hcall : id ∈ callIds toolCalls)
      (hget : scan.spanResultsById.get id = none) :
    ScanStep toolCalls scan rewritten toolResult
      { scan with
        state := scan.state.noteRewritten (rewritten ||
          (normalizeToolResultName toolResult.message (toolCallName toolCalls id)).2)
        spanResultsById := scan.spanResultsById ++ [(id, normalizeName toolCalls id toolResult)] }
  | better (id : String) (existing : Slot)
      (hid : extractToolResultId toolResult.message = some id)
      (hseen : id ∉ scan.state.seenToolResultIds) (hcall : id ∈ callIds toolCalls)
      (hget : scan.spanResultsById.get id = some existing)
      (hsynthetic : isSyntheticMissingToolResult existing.message = true)
      (hreal : isSyntheticMissingToolResult
        (normalizeName toolCalls id toolResult).message = false) :
    ScanStep toolCalls scan rewritten toolResult
      { scan with
        state := (scan.state.noteRewritten (rewritten ||
          (normalizeToolResultName toolResult.message
            (toolCallName toolCalls id)).2)).dropDuplicate
        spanResultsById := scan.spanResultsById.replace id
          (normalizeName toolCalls id toolResult) }
  | duplicate (id : String) (existing : Slot)
      (hid : extractToolResultId toolResult.message = some id)
      (hseen : id ∉ scan.state.seenToolResultIds) (hcall : id ∈ callIds toolCalls)
      (hget : scan.spanResultsById.get id = some existing)
      (hkeep : isSyntheticMissingToolResult existing.message = false ∨
        isSyntheticMissingToolResult (normalizeName toolCalls id toolResult).message = true) :
    ScanStep toolCalls scan rewritten toolResult
      { scan with
        state := (scan.state.noteRewritten (rewritten ||
          (normalizeToolResultName toolResult.message
            (toolCallName toolCalls id)).2)).dropDuplicate }

theorem scanToolResult_step (toolCalls : List ToolCall) (scan : SpanScan) (rewritten : Bool)
    (toolResult : Slot) : ScanStep toolCalls scan rewritten toolResult
      (scanToolResult toolCalls scan rewritten toolResult) := by
  unfold scanToolResult
  split
  · rename_i hid
    exact .orphan fun id h => by rw [hid] at h; cases h
  · rename_i id hid
    dsimp only
    split
    · rename_i hseen
      exact .seen id hid hseen
    · rename_i hseen
      split
      · rename_i hcall
        split
        · rename_i hget
          exact .first id hid hseen (any_call_iff.mp hcall) hget
        · rename_i existing hget
          split
          · rename_i hboth
            rw [Bool.and_eq_true, Bool.not_eq_true'] at hboth
            exact .better id existing hid hseen (any_call_iff.mp hcall) hget hboth.1 hboth.2
          · rename_i hboth
            rw [Bool.and_eq_true, Bool.not_eq_true', not_and_or, Bool.not_eq_true,
              Bool.not_eq_false] at hboth
            exact .duplicate id existing hid hseen (any_call_iff.mp hcall) hget hboth
      · rename_i hcall
        refine .orphan fun other h => ?_
        rw [hid] at h
        cases h
        exact ⟨hseen, fun hmem => hcall (any_call_iff.mpr hmem)⟩

/-! ## The scan of a span -/

/-- The id that a result of the span has for the scan. -/
def scannedId (toolCalls : List ToolCall) (slot : Slot) : Option String :=
  extractToolResultId (normalizeLegacy toolCalls slot).message

/-- The messages of a span that are no results. -/
def others (span : List Slot) : List Slot := span.filter fun slot => !isToolResult slot.message

/-- A result of the input under an id. -/
structure IsResultFor (entry : String × Slot) : Prop where
  result : isToolResult entry.2.message = true
  id : extractToolResultId entry.2.message = some entry.1
  origin : entry.2.origin ≠ none

/-- What the scan has found in a part of the span. -/
structure Scanned (toolCalls : List ToolCall) (s : RepairState) (span : List Slot)
    (scan : SpanScan) : Prop where
  quiet : s.Quiet scan.state
  results : ∀ entry ∈ scan.spanResultsById, IsResultFor entry
  remainder : scan.remainder = others span
  keys : ∀ id, id ∈ scan.spanResultsById.map Prod.fst ↔ id ∈ callIds toolCalls ∧
    id ∉ s.seenToolResultIds ∧
      ∃ slot ∈ span, isToolResult slot.message = true ∧ scannedId toolCalls slot = some id

theorem normalizeName_isResultFor (toolCalls : List ToolCall)
    (hresult : isToolResult slot.message = true) (horigin : slot.origin ≠ none)
    (hid : extractToolResultId slot.message = some id) :
    IsResultFor (id, normalizeName toolCalls id slot) where
  result := (isToolResult_normalizeToolResultName _ _).trans hresult
  id := (extract_normalizeToolResultName _ _).trans hid
  origin := horigin

variable {s : RepairState}

theorem Scanned.start (hs : s.Placed) : Scanned toolCalls s [] { state := s } where
  quiet := .of_placed hs rfl rfl rfl rfl
  results _ h := absurd h List.not_mem_nil
  remainder := rfl
  keys _ := ⟨fun h => absurd h List.not_mem_nil,
    fun ⟨_, _, _, hmem, _⟩ => absurd hmem List.not_mem_nil⟩

variable {span : List Slot}

theorem exists_mem_concat {p : Slot → Prop} :
    (∃ other ∈ span ++ [slot], p other) ↔ (∃ other ∈ span, p other) ∨ p slot := by
  simp only [List.mem_append, List.mem_singleton, or_and_right, exists_or, exists_eq_left]

variable {scan : SpanScan}

theorem Scanned.keys_concat_of_not (h : Scanned toolCalls s span scan)
    (hnot : ∀ id, isToolResult slot.message = true → scannedId toolCalls slot = some id →
      id ∈ callIds toolCalls → id ∉ s.seenToolResultIds →
        id ∈ scan.spanResultsById.map Prod.fst) (id : String) :
    id ∈ scan.spanResultsById.map Prod.fst ↔ id ∈ callIds toolCalls ∧
      id ∉ s.seenToolResultIds ∧ ∃ other ∈ span ++ [slot], isToolResult other.message = true ∧
        scannedId toolCalls other = some id := by
  constructor
  · intro hmem
    obtain ⟨hcall, hseen, hspan⟩ := (h.keys id).mp hmem
    exact ⟨hcall, hseen, exists_mem_concat.mpr (.inl hspan)⟩
  · rintro ⟨hcall, hseen, hspan⟩
    rcases exists_mem_concat.mp hspan with hspan | ⟨hresult, hid⟩
    · exact (h.keys id).mpr ⟨hcall, hseen, hspan⟩
    · exact hnot id hresult hid hcall hseen

theorem others_concat_of_result (h : isToolResult slot.message = true) :
    others (span ++ [slot]) = others span := by
  rw [others, List.filter_append, List.filter_cons_of_neg (by simp [h]), List.filter_nil,
    List.append_nil]
  rfl

theorem others_concat_of_other (h : isToolResult slot.message = false) :
    others (span ++ [slot]) = others span ++ [slot] := by
  rw [others, List.filter_append, List.filter_cons_of_pos (by simp [h])]
  rfl

theorem Scanned.step (h : Scanned toolCalls s span scan) (horigin : slot.origin ≠ none) :
    Scanned toolCalls s (span ++ [slot]) (scanSlot toolCalls scan slot) := by
  unfold scanSlot
  by_cases hresult : isToolResult slot.message = true
  · rw [if_pos hresult]
    have hrole : isToolResult (normalizeLegacy toolCalls slot).message = true :=
      (isToolResult_normalizeLegacyToolResultId _ _).trans hresult
    have hseen_iff : ∀ id, id ∈ scan.state.seenToolResultIds ↔ id ∈ s.seenToolResultIds := by
      intro id
      rw [h.quiet.seen]
    have hremainder : scan.remainder = others (span ++ [slot]) := by
      rw [others_concat_of_result hresult, h.remainder]
    have hstep := scanToolResult_step toolCalls scan
      (normalizeLegacyToolResultId slot.message toolCalls).2 (normalizeLegacy toolCalls slot)
    generalize scanToolResult toolCalls scan _ _ = next at hstep
    cases hstep with
    | orphan hid =>
      exact ⟨h.quiet.trans (.of_placed h.quiet.placed rfl rfl rfl rfl), h.results, hremainder,
        h.keys_concat_of_not fun id _ hscanned hcall _ => absurd hcall (hid id hscanned).2⟩
    | seen id hid hseen =>
      refine ⟨h.quiet.trans ?_, h.results, hremainder, h.keys_concat_of_not ?_⟩
      · have hfor := normalizeName_isResultFor toolCalls hrole horigin hid
        exact RepairState.quiet_pushToolResult h.quiet.placed hfor.result hfor.origin hfor.id hseen
      · intro other _ hscanned _ hnew
        rw [scannedId, hid] at hscanned
        cases hscanned
        exact absurd ((hseen_iff id).mp hseen) hnew
    | first id hid hseen hcall hget =>
      refine ⟨h.quiet.trans (.of_placed h.quiet.placed rfl rfl rfl rfl), ?_, hremainder, ?_⟩
      · intro entry hmem
        rcases List.mem_append.mp hmem with hmem | hmem
        · exact h.results entry hmem
        · cases List.mem_singleton.mp hmem
          exact normalizeName_isResultFor toolCalls hrole horigin hid
      · intro other
        rw [exists_mem_concat, List.map_append, List.mem_append, h.keys other]
        simp only [List.map_cons, List.map_nil, List.mem_singleton]
        constructor
        · rintro (⟨hcall', hseen', hspan⟩ | rfl)
          · exact ⟨hcall', hseen', .inl hspan⟩
          · exact ⟨hcall, fun hmem => hseen ((hseen_iff _).mpr hmem), .inr ⟨hresult, hid⟩⟩
        · rintro ⟨hcall', hseen', hspan | ⟨-, hid'⟩⟩
          · exact .inl ⟨hcall', hseen', hspan⟩
          · rw [scannedId, hid] at hid'
            exact .inr (Option.some.inj hid').symm
    | better id existing hid hseen hcall hget hsynthetic hreal =>
      refine ⟨h.quiet.trans (.of_placed h.quiet.placed rfl rfl rfl rfl), ?_, hremainder, ?_⟩
      · intro entry hmem
        rcases ResultsById.mem_replace hmem with rfl | hmem
        · exact normalizeName_isResultFor toolCalls hrole horigin hid
        · exact h.results entry hmem
      · intro other
        rw [ResultsById.map_fst_replace]
        refine h.keys_concat_of_not (fun other _ hscanned _ _ => ?_) other
        rw [scannedId, hid] at hscanned
        cases hscanned
        exact List.mem_map_of_mem (ResultsById.mem_of_get hget)
    | duplicate id existing hid hseen hcall hget hkeep =>
      refine ⟨h.quiet.trans (.of_placed h.quiet.placed rfl rfl rfl rfl), h.results, hremainder,
        h.keys_concat_of_not fun other _ hscanned _ _ => ?_⟩
      rw [scannedId, hid] at hscanned
      cases hscanned
      exact List.mem_map_of_mem (ResultsById.mem_of_get hget)
  · rw [if_neg hresult]
    rw [Bool.not_eq_true] at hresult
    refine ⟨h.quiet, h.results, ?_, h.keys_concat_of_not fun _ hrole => ?_⟩
    · rw [others_concat_of_other hresult, h.remainder]
    · rw [hresult] at hrole
      cases hrole

theorem scanned (toolCalls : List ToolCall) (hs : s.Placed)
    (hspan : ∀ slot ∈ span, slot.origin ≠ none) :
    Scanned toolCalls s span (span.foldl (scanSlot toolCalls) { state := s }) := by
  induction span using List.reverseRecOn with
  | nil => exact .start hs
  | append_singleton span slot ih =>
    rw [List.foldl_append]
    have ih' := ih fun other hmem => hspan other (List.mem_append_left _ hmem)
    exact ih'.step (hspan slot (List.mem_append_right _ List.mem_cons_self))

/-! ## Later results -/

variable {rest : List Slot}

theorem laterResult_isResultFor {seen : List String} (hrest : ∀ slot ∈ rest, slot.origin ≠ none)
    {call : ToolCall} (h : laterResult toolCalls seen rest call = some slot) :
    IsResultFor (call.id, slot) := by
  unfold laterResult at h
  dsimp only at h
  split at h
  · rename_i found hfind
    cases h
    have hp := List.find?_some hfind
    rw [Bool.and_eq_true, decide_eq_true_iff] at hp
    exact normalizeName_isResultFor toolCalls hp.1 (hrest found (List.mem_of_find?_eq_some hfind)) hp.2
  · split at h
    · split at h
      · cases h
      · rename_i found hfind
        split at h
        · rename_i hid
          cases h
          have hp := List.find?_some hfind
          rw [Bool.and_eq_true, Bool.and_eq_true] at hp
          exact normalizeName_isResultFor toolCalls
            ((isToolResult_normalizeLegacyToolResultId _ _).trans hp.1.1)
            (hrest found (List.mem_of_find?_eq_some hfind)) hid
        · cases h
    · cases h

theorem later_isResultFor (toolCalls : List ToolCall) (seen : List String)
    (hrest : ∀ slot ∈ rest, slot.origin ≠ none) :
    ∀ entry ∈ collectLaterMatchingToolResults toolCalls seen rest, IsResultFor entry := by
  apply List.foldlRecOn (motive := fun results : ResultsById => ∀ entry ∈ results,
    IsResultFor entry)
  · exact fun entry h => absurd h List.not_mem_nil
  intro results hresults call _
  split
  · exact hresults
  · split
    · rename_i slot hslot
      intro entry hmem
      rcases List.mem_append.mp hmem with hmem | hmem
      · exact hresults entry hmem
      · cases List.mem_singleton.mp hmem
        exact laterResult_isResultFor hrest hslot
    · exact hresults

/-! ## Answers -/

theorem IsResultFor.adds {entry : String × Slot} (h : IsResultFor entry) (hs : s.Placed) :
    s.Adds [some entry.1] (s.pushToolResult entry.2) :=
  h.id ▸ RepairState.adds_pushToolResult hs h.result h.origin

theorem answers_add (options : ToolUseResultPairingOptions) (clock : Nat → Int)
    {span : ResultsById} (hspan : ∀ entry ∈ span, IsResultFor entry) (calls : List ToolCall)
    (hs : s.Placed) {later : ResultsById} (hlater : ∀ entry ∈ later, IsResultFor entry) :
    s.Adds (calls.map callId) (calls.foldl (answerCall options clock span) (s, later)).1 := by
  induction calls generalizing s later with
  | nil => exact .nil hs
  | cons call calls ih =>
    rw [List.foldl_cons, List.map_cons]
    cases hget : span.get call.id with
    | some existing =>
      have hfor := hspan _ (ResultsById.mem_of_get hget)
      have hadds : s.Adds [callId call] (s.pushToolResult existing) := by
        rw [callId_of_extract hfor.id]
        exact hfor.adds hs
      rw [answerCall, hget]
      exact hadds.cons (ih hadds.placed hlater)
    | none =>
      cases hgetLater : later.get call.id with
      | some found =>
        have hfor := hlater _ (ResultsById.mem_of_get hgetLater)
        have hmoved : s.Quiet { s with moved := true, changed := true } :=
          .of_placed hs rfl rfl rfl rfl
        have hadds : s.Adds [callId call]
            ({ s with moved := true, changed := true }.pushToolResult found) := by
          rw [callId_of_extract hfor.id]
          exact hmoved.adds (hfor.adds hmoved.placed)
        rw [answerCall, hget]
        simp only [hgetLater]
        exact hadds.cons (ih hadds.placed fun entry hmem =>
          hlater entry (List.mem_of_mem_filter hmem))
      | none =>
        have hadds := RepairState.adds_pushMissing hs options clock call
        rw [answerCall, hget]
        simp only [hgetLater]
        exact hadds.cons (ih hadds.placed hlater)

theorem kept_add {span : ResultsById} (hspan : ∀ entry ∈ span, IsResultFor entry)
    (calls : List ToolCall) (hs : s.Placed) :
    s.Pushes ((calls.filter fun call => (span.get call.id).isSome).map fun call => some call.id)
      (calls.foldl (keepResult span) s) ∧
        (s.Exact → (calls.foldl (keepResult span) s).Exact) := by
  induction calls generalizing s with
  | nil => exact ⟨.nil hs, id⟩
  | cons call calls ih =>
    rw [List.foldl_cons, keepResult]
    cases hget : span.get call.id with
    | none =>
      rw [List.filter_cons_of_neg (by rw [hget]; exact Bool.false_ne_true)]
      exact ih hs
    | some result =>
      have hfor := hspan _ (ResultsById.mem_of_get hget)
      have hadds := hfor.adds hs
      obtain ⟨hpushes, hexact⟩ := ih hadds.placed
      rw [List.filter_cons_of_pos (by rw [hget]; rfl), List.map_cons]
      exact ⟨hadds.toPushes.cons hpushes,
        fun h => hexact (h.pushToolResult hs hfor.origin)⟩

/-! ## Other messages -/

theorem foldl_push (slots : List Slot) (s : RepairState) :
    slots.foldl RepairState.push s = { s with out := s.out ++ slots } := by
  induction slots generalizing s with
  | nil => rw [List.foldl_nil, List.append_nil]
  | cons slot slots ih =>
    rw [List.foldl_cons, ih, RepairState.push, List.append_assoc]
    rfl

/-- Messages of the input that are no results are added. -/
structure Appends (s : RepairState) (slots : List Slot) (t : RepairState) : Prop where
  kinds : t.kinds = s.kinds ++ slots.map kind
  seen : t.seenToolResultIds = s.seenToolResultIds
  placed : t.Placed
  exact : s.Exact → t.Exact

theorem appends_push (hs : s.Placed) (hresult : isToolResult slot.message = false)
    (horigin : slot.origin ≠ none) : Appends s [slot] (s.push slot) where
  kinds := s.kinds_push slot
  seen := rfl
  placed := hs.push fun h => by rw [hresult] at h; cases h
  exact h := h.concat horigin rfl rfl

theorem appends_foldl_push
    (hslots : ∀ slot ∈ slots, isToolResult slot.message = false ∧ slot.origin ≠ none)
    (hs : s.Placed) : Appends s slots (slots.foldl RepairState.push s) := by
  induction slots generalizing s with
  | nil => exact ⟨(List.append_nil _).symm, rfl, hs, id⟩
  | cons slot slots ih =>
    obtain ⟨hresult, horigin⟩ := hslots slot List.mem_cons_self
    have hfirst := appends_push hs hresult horigin
    have hrest := ih (fun other hmem => hslots other (List.mem_cons_of_mem _ hmem)) hfirst.placed
    rw [List.foldl_cons]
    refine ⟨?_, hrest.seen.trans hfirst.seen, hrest.placed, fun h => hrest.exact (hfirst.exact h)⟩
    rw [hrest.kinds, hfirst.kinds, List.append_assoc]
    rfl

/-! ## The turn -/

structure Turn.FromInput (turn : Turn) : Prop where
  hasToolCalls : assistantHasToolCalls turn.assistant.message = true
  origin : turn.assistant.origin ≠ none
  span : ∀ slot ∈ turn.span, assistantHasToolCalls slot.message = false ∧ slot.origin ≠ none

theorem not_isToolResult_of_hasToolCalls (h : assistantHasToolCalls message = true) :
    isToolResult message = false := by
  rw [assistantHasToolCalls, Bool.and_eq_true] at h
  have hrole : role message = some "assistant" := of_decide_eq_true h.1
  rw [isToolResult, hrole]
  decide

/-- The ids of the calls of an errored turn that have a result in its span. -/
def keptIds (toolCalls : List ToolCall) (seen : List String) (span : List Slot) : List String :=
  (callIds toolCalls).filter fun id => decide (id ∉ seen) && span.any fun slot =>
    isToolResult slot.message && decide (scannedId toolCalls slot = some id)

/-- The policy drops the turn. -/
def Turn.Dropped (options : ToolUseResultPairingOptions) (turn : Turn) : Prop :=
  isErrored turn.assistant.message = true ∧ options.dropErroredAssistantResults = true

instance (options : ToolUseResultPairingOptions) (turn : Turn) : Decidable (turn.Dropped options) :=
  inferInstanceAs (Decidable (_ ∧ _))

/-- The ids that the repair puts results for after the turn. -/
def Turn.answeredIds (options : ToolUseResultPairingOptions) (seen : List String) (turn : Turn) :
    List (Option String) :=
  if turn.Dropped options then []
  else if isErrored turn.assistant.message then (keptIds turn.toolCalls seen turn.span).map some
  else turn.toolCalls.map callId

/-- The turn, if it stays. -/
def Turn.header (options : ToolUseResultPairingOptions) (turn : Turn) : List Slot :=
  if turn.Dropped options then [] else [turn.assistant]

/-- What a turn adds to the output. -/
structure TurnAdds (options : ToolUseResultPairingOptions) (s : RepairState) (turn : Turn)
    (t : RepairState) : Prop where
  kinds : t.kinds = s.kinds ++ ((turn.header options).map kind ++
    (emit s.seenToolResultIds (turn.answeredIds options s.seenToolResultIds)).1.map .result ++
      (others turn.span).map kind)
  seen : t.seenToolResultIds =
    (emit s.seenToolResultIds (turn.answeredIds options s.seenToolResultIds)).2
  placed : t.Placed
  exact : (isErrored turn.assistant.message = false →
    (emit s.seenToolResultIds (turn.toolCalls.map callId)).1 = turn.toolCalls.map callId) →
      s.Exact → t.Exact

variable {turn : Turn}

theorem TurnAdds.of_parts {options : ToolUseResultPairingOptions}
    {scanned pushed answered : RepairState} (hturn : turn.FromInput) (hscan : s.Quiet scanned)
    (hpush : Appends scanned (turn.header options) pushed)
    (hanswer : pushed.Pushes (turn.answeredIds options s.seenToolResultIds) answered)
    (hexact : (isErrored turn.assistant.message = false →
      (emit s.seenToolResultIds (turn.toolCalls.map callId)).1 = turn.toolCalls.map callId) →
        pushed.Exact → answered.Exact) :
    TurnAdds options s turn ((others turn.span).foldl RepairState.push answered) := by
  have hseen : pushed.seenToolResultIds = s.seenToolResultIds := hpush.seen.trans hscan.seen
  have hothers : ∀ slot ∈ others turn.span,
      isToolResult slot.message = false ∧ slot.origin ≠ none := by
    intro slot hmem
    obtain ⟨hmem, hresult⟩ := List.mem_filter.mp hmem
    rw [Bool.not_eq_true'] at hresult
    exact ⟨hresult, (hturn.span slot hmem).2⟩
  have hrest := appends_foldl_push hothers hanswer.placed
  refine ⟨?_, ?_, hrest.placed, ?_⟩
  · rw [hrest.kinds, hanswer.kinds, hpush.kinds, hscan.kinds, hseen]
    simp only [List.append_assoc]
  · rw [hrest.seen, hanswer.seen, hseen]
  · intro hids h
    exact hrest.exact (hexact hids (hpush.exact (hscan.exact h)))

theorem filter_get_eq_keptIds (h : Scanned toolCalls s span scan) :
    (toolCalls.filter fun call => (scan.spanResultsById.get call.id).isSome).map
      (fun call => some call.id) =
    (keptIds toolCalls s.seenToolResultIds span).map some := by
  rw [keptIds, callIds, List.filter_map, List.map_map]
  congr 1
  refine List.filter_congr fun call hmem => ?_
  have hkeys := h.keys call.id
  rw [Bool.eq_iff_iff, Option.isSome_iff_ne_none, ne_eq, ResultsById.get_eq_none, not_not, hkeys]
  simp only [Function.comp_apply, Bool.and_eq_true, decide_eq_true_eq, List.any_eq_true]
  exact and_iff_right (List.mem_map_of_mem hmem)

theorem repairTurn_adds (options : ToolUseResultPairingOptions) (clock : Nat → Int)
    (hs : s.Placed) (hturn : turn.FromInput) (hrest : ∀ slot ∈ rest, slot.origin ≠ none) :
    TurnAdds options s turn (repairTurn options clock s turn rest) := by
  have hscan := scanned turn.toolCalls hs fun slot hmem => (hturn.span slot hmem).2
  have hassistant := appends_push hscan.quiet.placed
    (not_isToolResult_of_hasToolCalls hturn.hasToolCalls) hturn.origin
  unfold repairTurn
  dsimp only
  rw [hscan.remainder]
  by_cases herrored : isErrored turn.assistant.message = true
  · rw [if_pos herrored]
    by_cases hdrop : options.dropErroredAssistantResults = true
    · have hdropped : turn.Dropped options := ⟨herrored, hdrop⟩
      have hchanged : s.Quiet { (turn.span.foldl (scanSlot turn.toolCalls) { state := s }).state with
          changed := true } := hscan.quiet.trans (.of_placed hscan.quiet.placed rfl rfl rfl rfl)
      rw [if_neg (by rw [hdrop]; decide)]
      generalize { (turn.span.foldl (scanSlot turn.toolCalls) { state := s }).state with
        changed := true } = dropped at hchanged
      have hpush : Appends dropped (turn.header options) dropped := by
        rw [Turn.header, if_pos hdropped]
        exact ⟨(List.append_nil _).symm, rfl, hchanged.placed, id⟩
      have hanswer : dropped.Pushes (turn.answeredIds options s.seenToolResultIds) dropped := by
        rw [Turn.answeredIds, if_pos hdropped]
        exact .nil hchanged.placed
      exact .of_parts hturn hchanged hpush hanswer fun _ h => h
    · have hstays : ¬ turn.Dropped options := fun h => hdrop h.2
      rw [if_pos (by simpa using hdrop)]
      obtain ⟨hpushes, hexact⟩ := kept_add hscan.results turn.toolCalls hassistant.placed
      refine .of_parts hturn hscan.quiet (by rw [Turn.header, if_neg hstays]; exact hassistant) ?_
        fun _ => hexact
      rw [Turn.answeredIds, if_neg hstays, if_pos herrored, ← filter_get_eq_keptIds hscan]
      exact hpushes
  · have hstays : ¬ turn.Dropped options := fun h => herrored h.1
    rw [if_neg herrored]
    have hnoted : ∀ moved changed, (RepairState.push _ turn.assistant).Quiet
        { (turn.span.foldl (scanSlot turn.toolCalls) { state := s }).state.push turn.assistant with
          moved, changed } := fun _ _ => .of_placed hassistant.placed rfl rfl rfl rfl
    have hanswer := fun moved changed => (hnoted moved changed).adds (answers_add options clock
      hscan.results turn.toolCalls (hnoted moved changed).placed
        (later_isResultFor turn.toolCalls ((turn.span.foldl (scanSlot turn.toolCalls)
          { state := s }).state.push turn.assistant).seenToolResultIds hrest))
    have hseen := hassistant.seen.trans hscan.quiet.seen
    refine .of_parts hturn hscan.quiet (by rw [Turn.header, if_neg hstays]; exact hassistant) ?_
      fun hids => ?_
    · rw [Turn.answeredIds, if_neg hstays, if_neg herrored]
      exact (hanswer _ _).toPushes
    · refine (hanswer _ _).exact ?_
      rw [hseen]
      exact hids (Bool.not_eq_true _ ▸ herrored)

end OpenClaw.Transcript
