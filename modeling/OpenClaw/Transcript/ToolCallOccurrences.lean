import Mathlib.Data.List.GetD
import OpenClaw.Lib.MapState
import OpenClaw.Transcript.ToolCallIds

/-!
# `createOccurrenceAwareResolver`

The ids that a run of tool calls and tool results gets, without the options that preserve ids. A
call always gets a new id. A result gets the id of the oldest call with its raw id that has no
result yet, or else a new one.

**Main results.** Two places of a run get the same id exactly when they have the same source
(`Resolved`, `resolved_of_found`).
-/

namespace OpenClaw.Transcript

/-- What asks for an id, with its raw id. -/
inductive ToolEvent
  | call (id : Id)
  | result (id : Id)
  deriving DecidableEq

/-! ## The resolver -/

/-- What the resolver has. `exhausted` says that some id was made of the time, for lack of an unused
one. -/
structure Resolver where
  used : List Id
  assistantOccurrences : Id → Nat
  orphanToolResultOccurrences : Id → Nat
  pendingByRawId : Id → List Id
  exhausted : Bool

def createOccurrenceAwareResolver : Resolver := ⟨[], fun _ => 0, fun _ => 0, fun _ => [], false⟩

def callSeed (id : Id) (occurrence : Nat) : Id :=
  if occurrence = 1 then id else id ++ ':' :: digits occurrence

section

variable (shortHash : Id → Nat → Id) (now : Nat → Nat) (mode : ToolCallIdMode)

/-- `now n` is `Date.now()` when `n` ids are in use. -/
def allocate (seed : Id) (r : Resolver) : Id × Resolver :=
  let next := makeUniqueToolId shortHash (now r.used.length) seed r.used mode
  (next.id, { r with used := next.id :: r.used, exhausted := r.exhausted || next.exhausted })

def resolveAssistantId (id : Id) (r : Resolver) : Id × Resolver :=
  let occurrence := r.assistantOccurrences id + 1
  let next := allocate shortHash now mode (callSeed id occurrence)
    { r with assistantOccurrences := Function.update r.assistantOccurrences id occurrence }
  (next.1,
    { next.2 with
      pendingByRawId := Function.update r.pendingByRawId id (r.pendingByRawId id ++ [next.1]) })

def resolveToolResultId (id : Id) (r : Resolver) : Id × Resolver :=
  match r.pendingByRawId id with
  | next :: pending =>
    (next, { r with pendingByRawId := Function.update r.pendingByRawId id pending })
  | [] =>
    let occurrence := r.orphanToolResultOccurrences id + 1
    allocate shortHash now mode (orphanSeed id occurrence)
      { r with
        orphanToolResultOccurrences :=
          Function.update r.orphanToolResultOccurrences id occurrence }

def resolveEvent : ToolEvent → Resolver → Id × Resolver
  | .call id => resolveAssistantId shortHash now mode id
  | .result id => resolveToolResultId shortHash now mode id

/-- The ids that the events get, one after the other. -/
def resolveEvents (events : List ToolEvent) : List Id × Resolver :=
  mapState (resolveEvent shortHash now mode) events createOccurrenceAwareResolver

end

/-! ## The source of an id -/

/-- What an event does to the calls with the raw id `id` that wait for a result: `position` is its
place. -/
def answerNext (id : Id) (position : Nat) (waiting : List Nat) : ToolEvent → List Nat
  | .call other => if other = id then waiting ++ [position] else waiting
  | .result other => if other = id then waiting.tail else waiting

/-- The calls with the raw id that have no result yet, the oldest first. -/
def unanswered (id : Id) (events : List ToolEvent) : List Nat :=
  (events.zipIdx).foldl (fun waiting event => answerNext id event.2 waiting event.1) []

/-- The place whose id an event gets after these events: for a result, that of the oldest call with
its raw id that has no result, if there is one; else its own. -/
def sourceOf (before : List ToolEvent) : ToolEvent → Nat
  | .call _ => before.length
  | .result id => (unanswered id before).headD before.length

/-- The place whose id the place gets. -/
def source (events : List ToolEvent) (position : Nat) : Nat :=
  match events[position]? with
  | some event => sourceOf (events.take position) event
  | none => position

theorem unanswered_concat (id : Id) (events : List ToolEvent) (event : ToolEvent) :
    unanswered id (events ++ [event]) =
      answerNext id events.length (unanswered id events) event := by
  simp [unanswered, List.zipIdx_append]

variable {position : Nat}

theorem source_append {events : List ToolEvent} (h : position < events.length)
    (more : List ToolEvent) : source (events ++ more) position = source events position := by
  unfold source
  rw [List.getElem?_append_left h, List.take_append_of_le_length (le_of_lt h)]

theorem source_concat (events : List ToolEvent) (event : ToolEvent) :
    source (events ++ [event]) events.length = sourceOf events event := by
  simp [source]

variable {id : Id}

theorem getElem_of_mem_unanswered {events : List ToolEvent} (h : position ∈ unanswered id events) :
    events[position]? = some (.call id) := by
  induction events using List.reverseRecOn with
  | nil => cases h
  | append_singleton events event ih =>
    have hkept (hmem : position ∈ unanswered id events) :
        (events ++ [event])[position]? = some (.call id) := by
      have hlt : position < events.length := (List.getElem?_eq_some_iff.1 (ih hmem)).1
      rw [List.getElem?_append_left hlt, ih hmem]
    rw [unanswered_concat] at h
    cases event with
    | call other =>
      by_cases hother : other = id
      · rw [answerNext, if_pos hother, List.mem_append, List.mem_singleton] at h
        rcases h with h | rfl
        · exact hkept h
        · rw [hother]
          exact List.getElem?_concat_length
      · rw [answerNext, if_neg hother] at h
        exact hkept h
    | result other =>
      by_cases hother : other = id
      · rw [answerNext, if_pos hother] at h
        exact hkept (List.mem_of_mem_tail h)
      · rw [answerNext, if_neg hother] at h
        exact hkept h

theorem lt_of_mem_unanswered {events : List ToolEvent} (h : position ∈ unanswered id events) :
    position < events.length :=
  (List.getElem?_eq_some_iff.1 (getElem_of_mem_unanswered h)).1

theorem source_of_call {events : List ToolEvent} (h : events[position]? = some (.call id)) :
    source events position = position := by
  have hlt : position < events.length := (List.getElem?_eq_some_iff.1 h).1
  unfold source
  rw [h]
  exact List.length_take_of_le (le_of_lt hlt)

theorem source_le (events : List ToolEvent) (position : Nat) :
    source events position ≤ position := by
  unfold source
  split
  · rename_i event hevent
    have hlt : position < events.length := (List.getElem?_eq_some_iff.1 hevent).1
    have htake : (events.take position).length = position :=
      List.length_take_of_le (le_of_lt hlt)
    cases event with
    | call id => exact le_of_eq htake
    | result id =>
      rw [sourceOf, List.headD_eq_head?_getD, htake]
      cases hhead : (unanswered id (events.take position)).head? with
      | none => exact le_refl _
      | some oldest =>
        have hmem := lt_of_mem_unanswered (List.mem_of_mem_head? hhead)
        rw [htake] at hmem
        exact le_of_lt hmem
  · exact le_refl _

/-! ## Ids and sources -/

/-- What holds between a run, its ids and the resolver: two places have the same id exactly when
they have the same source, and the ids that are pending are those of the calls that wait. -/
structure Resolved (events : List ToolEvent) (ids : List Id) (r : Resolver) : Prop where
  length : ids.length = events.length
  pending : ∀ id, (r.pendingByRawId id).map some = (unanswered id events).map (ids[·]?)
  used : ∀ id, id ∈ r.used ↔ id ∈ ids
  source : ∀ i < events.length, ∀ j < events.length,
    ids[i]? = ids[j]? ↔ source events i = source events j

theorem resolved_nil : Resolved [] [] createOccurrenceAwareResolver where
  length := rfl
  pending _ := rfl
  used _ := Iff.rfl
  source _ hi := absurd hi (Nat.not_lt_zero _)

variable {events : List ToolEvent} {ids : List Id} {r : Resolver}

variable {event : ToolEvent}

theorem source_iff_concat (hlength : ids.length = events.length)
    (hsource : ∀ i < events.length, ∀ j < events.length,
      ids[i]? = ids[j]? ↔ source events i = source events j)
    (hnew : ∀ i < events.length, ids[i]? = some id ↔ source events i = sourceOf events event) :
    ∀ i < (events ++ [event]).length, ∀ j < (events ++ [event]).length,
      (ids ++ [id])[i]? = (ids ++ [id])[j]? ↔
        source (events ++ [event]) i = source (events ++ [event]) j := by
  have hold {i : Nat} (hi : i < events.length) :
      (ids ++ [id])[i]? = ids[i]? ∧ source (events ++ [event]) i = source events i :=
    ⟨List.getElem?_append_left (hlength ▸ hi), source_append hi _⟩
  have hlast : (ids ++ [id])[events.length]? = some id := by
    rw [← hlength]
    exact List.getElem?_concat_length
  intro i hi j hj
  rw [List.length_append, List.length_singleton, Nat.lt_succ_iff_lt_or_eq] at hi hj
  rcases hi with hi | rfl
  · rcases hj with hj | rfl
    · rw [(hold hi).1, (hold hi).2, (hold hj).1, (hold hj).2]
      exact hsource i hi j hj
    · rw [(hold hi).1, (hold hi).2, hlast, source_concat]
      exact hnew i hi
  · rcases hj with hj | rfl
    · rw [(hold hj).1, (hold hj).2, hlast, source_concat, eq_comm, hnew j hj, eq_comm]
    · exact iff_of_true rfl rfl

theorem map_unanswered_concat (hlength : ids.length = events.length) (id next : Id) :
    (unanswered id events).map ((ids ++ [next])[·]?) =
      (unanswered id events).map (ids[·]?) := by
  refine List.map_congr_left fun position hposition => ?_
  have hlt : position < ids.length := hlength ▸ lt_of_mem_unanswered hposition
  exact List.getElem?_append_left hlt

theorem Resolved.unanswered_eq_nil (h : Resolved events ids r)
    (hpending : r.pendingByRawId id = []) : unanswered id events = [] := by
  have hmap := h.pending id
  rw [hpending] at hmap
  exact List.map_eq_nil_iff.1 hmap.symm

variable {next : Id}

variable {pending : List Id}

theorem Resolved.unanswered_eq_cons (h : Resolved events ids r)
    (hpending : r.pendingByRawId id = next :: pending) :
    ∃ oldest waiting, unanswered id events = oldest :: waiting ∧ ids[oldest]? = some next ∧
      pending.map some = waiting.map (ids[·]?) := by
  have hmap := h.pending id
  rw [hpending] at hmap
  cases hwaiting : unanswered id events with
  | nil =>
    rw [hwaiting] at hmap
    cases hmap
  | cons oldest waiting =>
    rw [hwaiting, List.map_cons, List.map_cons, List.cons.injEq] at hmap
    exact ⟨oldest, waiting, rfl, hmap.1.symm, hmap.2⟩

theorem Resolved.concat_new (h : Resolved events ids r) {r' : Resolver} (hnew : next ∉ r.used)
    (hsource : sourceOf events event = events.length) (hused : r'.used = next :: r.used)
    (hpending : ∀ id, (r'.pendingByRawId id).map some =
      (unanswered id (events ++ [event])).map ((ids ++ [next])[·]?)) :
    Resolved (events ++ [event]) (ids ++ [next]) r' where
  length := by simp [h.length]
  pending := hpending
  used id := by
    rw [hused, List.mem_cons, List.mem_append, List.mem_singleton, h.used, or_comm]
  source := by
    apply source_iff_concat h.length h.source
    intro i hi
    rw [hsource]
    have hlt := lt_of_le_of_lt (source_le events i) hi
    refine iff_of_false ?_ (Nat.ne_of_lt hlt)
    intro hnext
    exact hnew ((h.used next).2 (List.mem_of_getElem? hnext))

theorem Resolved.concat_answered (h : Resolved events ids r)
    (hpending : r.pendingByRawId id = next :: pending) :
    Resolved (events ++ [.result id]) (ids ++ [next])
      { r with pendingByRawId := Function.update r.pendingByRawId id pending } := by
  obtain ⟨oldest, waiting, hwaiting, holdest, hrest⟩ := h.unanswered_eq_cons hpending
  have hmem : oldest ∈ unanswered id events := by simp [hwaiting]
  refine ⟨by simp [h.length], ?_, ?_, source_iff_concat h.length h.source ?_⟩
  · intro other
    dsimp only
    rw [unanswered_concat]
    by_cases hother : id = other
    · subst hother
      rw [answerNext, if_pos rfl, Function.update_self, hwaiting, List.tail_cons, hrest]
      have hkept := map_unanswered_concat h.length id next
      rw [hwaiting, List.map_cons, List.map_cons, List.cons.injEq] at hkept
      exact hkept.2.symm
    · rw [answerNext, if_neg hother, Function.update_of_ne (Ne.symm hother),
        map_unanswered_concat h.length, h.pending]
  · intro other
    rw [h.used, List.mem_append, List.mem_singleton]
    refine ⟨Or.inl, ?_⟩
    rintro (hother | rfl)
    · exact hother
    · exact List.mem_of_getElem? holdest
  · intro i hi
    rw [sourceOf, hwaiting, List.headD_cons, ← holdest,
      h.source i hi oldest (lt_of_mem_unanswered hmem),
      source_of_call (getElem_of_mem_unanswered hmem)]

section

variable {shortHash : Id → Nat → Id} {now : Nat → Nat} {mode : ToolCallIdMode}

theorem allocate_unused {seed : Id} (h : (allocate shortHash now mode seed r).2.exhausted = false) :
    (allocate shortHash now mode seed r).1 ∉ r.used :=
  makeUniqueToolId_unused (Bool.or_eq_false_iff.1 h).2

theorem exhausted_of_step {event : ToolEvent}
    (h : (resolveEvent shortHash now mode event r).2.exhausted = false) : r.exhausted = false := by
  cases event with
  | call id => exact (Bool.or_eq_false_iff.1 h).1
  | result id =>
    simp only [resolveEvent, resolveToolResultId] at h
    cases hpending : r.pendingByRawId id with
    | nil =>
      rw [hpending] at h
      exact (Bool.or_eq_false_iff.1 h).1
    | cons next pending =>
      rw [hpending] at h
      exact h

theorem Resolved.step (h : Resolved events ids r) (event : ToolEvent)
    (hfound : (resolveEvent shortHash now mode event r).2.exhausted = false) :
    Resolved (events ++ [event]) (ids ++ [(resolveEvent shortHash now mode event r).1])
      (resolveEvent shortHash now mode event r).2 := by
  cases event with
  | call id =>
    refine h.concat_new (allocate_unused hfound) rfl rfl ?_
    intro other
    simp only [resolveEvent, resolveAssistantId, allocate]
    rw [unanswered_concat]
    by_cases hother : id = other
    · subst hother
      rw [answerNext, if_pos rfl, Function.update_self, List.map_append, List.map_append,
        map_unanswered_concat h.length, h.pending, ← h.length]
      simp
    · rw [answerNext, if_neg hother, Function.update_of_ne (Ne.symm hother),
        map_unanswered_concat h.length, h.pending]
  | result id =>
    cases hpending : r.pendingByRawId id with
    | nil =>
      have hnone := h.unanswered_eq_nil hpending
      simp only [resolveEvent, resolveToolResultId, hpending] at hfound ⊢
      refine h.concat_new (allocate_unused hfound) (by simp [sourceOf, hnone]) rfl ?_
      intro other
      have hsame : unanswered other (events ++ [.result id]) = unanswered other events := by
        rw [unanswered_concat, answerNext]
        split
        · rename_i hother
          rw [← hother, hnone]
          rfl
        · rfl
      rw [hsame, map_unanswered_concat h.length, ← h.pending]
      rfl
    | cons next pending =>
      simp only [resolveEvent, resolveToolResultId, hpending]
      exact h.concat_answered hpending

/-- In a run that always finds an unused id, two places get the same id exactly when they have the
same source. -/
theorem resolved_of_found (events : List ToolEvent)
    (h : (resolveEvents shortHash now mode events).2.exhausted = false) :
    Resolved events (resolveEvents shortHash now mode events).1
      (resolveEvents shortHash now mode events).2 := by
  have hrun := mapState_induction (f := resolveEvent shortHash now mode)
    (P := fun events ids r => r.exhausted = false → Resolved events ids r)
    (fun _ => resolved_nil) (fun events ids r event hprev hfound =>
      (hprev (exhausted_of_step hfound)).step event hfound) events
  exact hrun h

end

end OpenClaw.Transcript
