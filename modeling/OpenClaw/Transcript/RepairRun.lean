import OpenClaw.Transcript.Settled

/-!
# The run of the repair over the turns

* `Fresh` — the turns that did not fail call new ids only.
* `AllSettled` — the repair has nothing to do for the turns.
* `repairTurns_adds`, `repairTurns_changed` — what the run adds to the output, and when it notes no
  change.
-/

namespace OpenClaw.Transcript

open RepairState

/-! ## The turns of the input -/

theorem splitTurns_slots (slots : List Slot) :
    (splitTurns slots).1 ++ (splitTurns slots).2.flatMap Turn.slots = slots := by
  induction slots with
  | nil => rfl
  | cons slot slots ih =>
    rw [splitTurns]
    split
    · rw [List.nil_append, List.flatMap_cons, Turn.slots, List.cons_append, ih]
    · rw [List.cons_append, ih]

theorem splitTurns_fromInput {slots : List Slot} (hslots : ∀ slot ∈ slots, slot.origin ≠ none) :
    (∀ slot ∈ (splitTurns slots).1, assistantHasToolCalls slot.message = false ∧
      slot.origin ≠ none) ∧ ∀ turn ∈ (splitTurns slots).2, turn.FromInput := by
  induction slots with
  | nil => exact ⟨fun _ h => absurd h List.not_mem_nil, fun _ h => absurd h List.not_mem_nil⟩
  | cons slot slots ih =>
    rw [List.forall_mem_cons] at hslots
    obtain ⟨ihleading, ihturns⟩ := ih hslots.2
    rw [splitTurns]
    split
    · rename_i hcalls
      refine ⟨fun _ h => absurd h List.not_mem_nil, ?_⟩
      rw [List.forall_mem_cons]
      exact ⟨⟨hcalls, hslots.1, ihleading⟩, ihturns⟩
    · rename_i hcalls
      rw [List.forall_mem_cons]
      exact ⟨⟨⟨Bool.not_eq_true _ ▸ hcalls, hslots.1⟩, ihleading⟩, ihturns⟩

theorem toSlots_origin (messages : List Json) : ∀ slot ∈ toSlots messages, slot.origin ≠ none := by
  intro slot hmem
  obtain ⟨⟨message, index⟩, -, rfl⟩ := List.mem_map.mp hmem
  exact Option.some_ne_none index

def FromInput (turns : List Turn) : Prop := ∀ turn ∈ turns, turn.FromInput

variable {turns : List Turn}

theorem FromInput.origin (h : FromInput turns) :
    ∀ slot ∈ turns.flatMap Turn.slots, slot.origin ≠ none := by
  intro slot hmem
  obtain ⟨turn, hturn, hslot⟩ := List.mem_flatMap.mp hmem
  rcases List.mem_cons.mp hslot with rfl | hslot
  · exact (h turn hturn).origin
  · exact ((h turn hturn).span slot hslot).2

/-! ## The output -/

/-- The ids that are seen after a turn. -/
def Turn.seenAfter (options : ToolUseResultPairingOptions) (seen : List String) (turn : Turn) :
    List String :=
  (turn.answeredIds options seen).reduceOption ++ seen

/-- The turns that did not fail call new ids only. -/
def Fresh (options : ToolUseResultPairingOptions) : List String → List Turn → Prop
  | _, [] => True
  | seen, turn :: turns =>
    (isErrored turn.assistant.message = false → NewIds seen (turn.toolCalls.map callId)) ∧
      Fresh options (turn.seenAfter options seen) turns

/-- The repair has nothing to do for the turns. -/
def AllSettled (options : ToolUseResultPairingOptions) : List String → List Turn → Prop
  | _, [] => True
  | seen, turn :: turns =>
    turn.Settled options seen ∧ AllSettled options (turn.seenAfter options seen) turns

/-- The kinds of the slots that the turns add to the output. -/
def outKinds (options : ToolUseResultPairingOptions) : List String → List Turn → List Kind
  | _, [] => []
  | seen, turn :: turns =>
    (turn.header options).map kind ++
      (emit seen (turn.answeredIds options seen)).1.map .result ++
      (others turn.span).map kind ++
      outKinds options (emit seen (turn.answeredIds options seen)).2 turns

variable {seen : List String}

theorem mem_emit {ids : List (Option String)} {id : String} :
    id ∈ (emit seen ids).2 ↔ id ∈ ids.reduceOption ++ seen := by
  induction ids generalizing seen with
  | nil => exact Iff.rfl
  | cons first ids ih =>
    cases first with
    | none => exact ih
    | some first =>
      rw [List.reduceOption_cons_of_some, List.cons_append, List.mem_cons, emit]
      split
      · rename_i hseen
        rw [ih]
        refine ⟨.inr, fun h => h.elim (fun heq => ?_) fun hmem => hmem⟩
        exact heq ▸ List.mem_append_right _ hseen
      · dsimp only
        rw [ih, List.mem_append, List.mem_append, List.mem_cons]
        exact or_left_comm

section Congr

variable {options : ToolUseResultPairingOptions} {seen seen' : List String}

section

variable (h : ∀ id, id ∈ seen ↔ id ∈ seen')
include h

theorem Turn.answeredIds_congr (turn : Turn) :
    turn.answeredIds options seen = turn.answeredIds options seen' := by
  unfold Turn.answeredIds keptIds
  simp only [h]

theorem newIds_congr {ids : List (Option String)} : NewIds seen ids ↔ NewIds seen' ids :=
  ⟨fun hids => ⟨hids.distinct, fun id hmem => mt (h id).mpr (hids.unseen id hmem)⟩,
    fun hids => ⟨hids.distinct, fun id hmem => mt (h id).mp (hids.unseen id hmem)⟩⟩

theorem Turn.seenAfter_congr (turn : Turn) (id : String) :
    id ∈ turn.seenAfter options seen ↔ id ∈ turn.seenAfter options seen' := by
  rw [Turn.seenAfter, Turn.seenAfter, turn.answeredIds_congr h, List.mem_append, List.mem_append,
    h id]

theorem fresh_congr : Fresh options seen turns ↔ Fresh options seen' turns := by
  induction turns generalizing seen seen' with
  | nil => exact Iff.rfl
  | cons turn turns ih =>
    rw [Fresh, Fresh, newIds_congr h, ih (turn.seenAfter_congr h)]

theorem Turn.settled_congr {turn : Turn} :
    turn.Settled options seen ↔ turn.Settled options seen' := by
  have hown : ∀ {slot}, IsOwnResult turn.toolCalls seen slot ↔
      IsOwnResult turn.toolCalls seen' slot := by
    intro slot
    unfold IsOwnResult
    simp only [h]
  constructor
  · intro hturn
    exact ⟨⟨fun slot hmem hresult => hown.mp (hturn.span.own slot hmem hresult),
      hturn.span.distinct⟩, hturn.stays,
      turn.answeredIds_congr h ▸ (newIds_congr h).mp hturn.new, hturn.answered⟩
  · intro hturn
    exact ⟨⟨fun slot hmem hresult => hown.mpr (hturn.span.own slot hmem hresult),
      hturn.span.distinct⟩, hturn.stays,
      turn.answeredIds_congr h ▸ (newIds_congr h).mpr hturn.new, hturn.answered⟩

theorem allSettled_congr : AllSettled options seen turns ↔ AllSettled options seen' turns := by
  induction turns generalizing seen seen' with
  | nil => exact Iff.rfl
  | cons turn turns ih =>
    rw [AllSettled, AllSettled, Turn.settled_congr h, ih (turn.seenAfter_congr h)]

end

end Congr

theorem exact_emit_of_fresh {turn : Turn}
    (h : isErrored turn.assistant.message = false → NewIds seen (turn.toolCalls.map callId)) :
    isErrored turn.assistant.message = false →
      (emit seen (turn.toolCalls.map callId)).1 = turn.toolCalls.map callId :=
  fun herrored => emit_eq_iff.mpr (h herrored)

variable {s : RepairState}

section

variable (options : ToolUseResultPairingOptions)

theorem repairTurns_adds (clock : Nat → Int) (hturns : FromInput turns) (hs : s.Placed) :
    (repairTurns options clock s turns).kinds =
        s.kinds ++ outKinds options s.seenToolResultIds turns ∧
      (Fresh options s.seenToolResultIds turns → s.Exact →
        (repairTurns options clock s turns).Exact) := by
  induction turns generalizing s with
  | nil => exact ⟨(List.append_nil _).symm, fun _ h => h⟩
  | cons turn turns ih =>
    obtain ⟨hturn, hturns⟩ := List.forall_mem_cons.mp hturns
    have hadds := repairTurn_adds options clock hs hturn (FromInput.origin hturns)
    obtain ⟨ihkinds, ihexact⟩ := ih hturns hadds.placed
    rw [repairTurns]
    constructor
    · rw [ihkinds, hadds.kinds, hadds.seen, outKinds, List.append_assoc]
    · rintro ⟨hfresh, hrest⟩ hexact
      refine ihexact ?_ (hadds.exact (exact_emit_of_fresh hfresh) hexact)
      rw [hadds.seen]
      exact (fresh_congr fun _ => mem_emit).mpr hrest

theorem repairTurns_changed (clock : Nat → Int) (hturns : FromInput turns) (hs : s.Placed) :
    (repairTurns options clock s turns).changed = false ↔
      s.changed = false ∧ AllSettled options s.seenToolResultIds turns := by
  induction turns generalizing s with
  | nil => exact (and_iff_left trivial).symm
  | cons turn turns ih =>
    obtain ⟨hturn, hturns⟩ := List.forall_mem_cons.mp hturns
    have hadds := repairTurn_adds options clock hs hturn (FromInput.origin hturns)
    rw [repairTurns, ih hturns hadds.placed, repairTurn_changed hs hturn, AllSettled, hadds.seen,
      allSettled_congr (fun _ => mem_emit), and_assoc]
    rfl

theorem flagsUp_repairTurns (clock : Nat → Int) (turns : List Turn) (s : RepairState) :
    FlagsUp s (repairTurns options clock s turns) := by
  induction turns generalizing s with
  | nil => exact .refl s
  | cons turn turns ih => exact (flagsUp_repairTurn options clock s turn _).trans (ih _)

end

/-! ### The messages before the first turn -/

/-- What the messages before the first turn leave. -/
structure Led (leading : List Slot) (s : RepairState) : Prop where
  kinds : s.kinds = (others leading).map kind
  seen : s.seenToolResultIds = []
  placed : s.Placed
  exact : s.Exact
  moved : s.moved = false
  added : s.added = []
  changed : s.changed = false ↔ ∀ slot ∈ leading, isToolResult slot.message = false

theorem led {leading : List Slot} (hleading : ∀ slot ∈ leading, slot.origin ≠ none) :
    Led leading (leading.foldl repairLeading {}) := by
  induction leading using List.reverseRecOn with
  | nil => exact ⟨rfl, rfl, placed_start, exact_start, rfl, rfl,
      iff_of_true rfl fun _ h => absurd h List.not_mem_nil⟩
  | append_singleton leading slot ih =>
    obtain ⟨hkinds, hseen, hplaced, hexact, hmoved, hadded, hchanged⟩ :=
      ih fun other hmem => hleading other (List.mem_append_left _ hmem)
    have horigin := hleading slot (List.mem_append_right _ List.mem_cons_self)
    rw [List.foldl_append, List.foldl_cons, List.foldl_nil, repairLeading]
    by_cases hresult : isToolResult slot.message = true
    · rw [if_pos hresult]
      refine ⟨?_, hseen, (SameKinds.of_placed hplaced rfl rfl rfl).placed,
        hexact.of_eq rfl rfl, hmoved, hadded, ?_⟩
      · rw [others_concat_of_result hresult]
        exact hkinds
      · refine ⟨fun h => (by cases h), fun h => ?_⟩
        rw [h slot (List.mem_append_right _ List.mem_cons_self)] at hresult
        cases hresult
    · rw [if_neg hresult]
      rw [Bool.not_eq_true] at hresult
      have hpush := appends_push hplaced hresult horigin
      refine ⟨?_, hseen, hpush.placed, hpush.exact hexact, hmoved, hadded, ?_⟩
      · rw [hpush.kinds, hkinds, others_concat_of_other hresult, List.map_append]
      · refine hchanged.trans ⟨fun h other hmem => ?_, fun h other hmem =>
          h other (List.mem_append_left _ hmem)⟩
        rcases List.mem_append.mp hmem with hmem | hmem
        · exact h other hmem
        · rw [List.mem_singleton.mp hmem, hresult]

/-! ### The whole run -/

/-- What the run leaves for an input. -/
structure Repaired (options : ToolUseResultPairingOptions) (messages : List Json)
    (s : RepairState) : Prop where
  kinds : s.kinds = (others (splitTurns (toSlots messages)).1).map kind ++
    outKinds options [] (splitTurns (toSlots messages)).2
  exact : Fresh options [] (splitTurns (toSlots messages)).2 → s.Exact
  changed : s.changed = false ↔
    (∀ slot ∈ (splitTurns (toSlots messages)).1, isToolResult slot.message = false) ∧
      AllSettled options [] (splitTurns (toSlots messages)).2
  moved : s.changed = false → s.moved = false
  added : s.changed = false → s.added = []

theorem repaired (options : ToolUseResultPairingOptions) (clock : Nat → Int)
    (messages : List Json) : Repaired options messages (repairState options clock messages) := by
  obtain ⟨hleading, hturns⟩ := splitTurns_fromInput (toSlots_origin messages)
  have hled := led fun slot hmem => (hleading slot hmem).2
  obtain ⟨hkinds, hexact⟩ := repairTurns_adds options clock hturns hled.placed
  have hchanged := repairTurns_changed options clock hturns hled.placed
  have hflags := flagsUp_repairTurns options clock (splitTurns (toSlots messages)).2
    ((splitTurns (toSlots messages)).1.foldl repairLeading {})
  rw [hled.seen] at hkinds hexact hchanged
  rw [hled.kinds] at hkinds
  rw [hled.changed] at hchanged
  refine ⟨hkinds, fun hfresh => hexact hfresh hled.exact, hchanged, fun hup => ?_, fun hup => ?_⟩
  · rw [Bool.eq_false_iff]
    intro h
    rcases hflags.moved h with h | h
    · rw [hled.moved] at h
      cases h
    · exact Bool.false_ne_true (hup.symm.trans h)
  · by_contra h
    rcases hflags.added h with h | h
    · exact h hled.added
    · exact Bool.false_ne_true (hup.symm.trans h)

end OpenClaw.Transcript
