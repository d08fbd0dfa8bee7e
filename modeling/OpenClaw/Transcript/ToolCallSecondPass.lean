import OpenClaw.Transcript.ToolCallOccurrences

/-!
# The ids of tool calls on a second pass

The ids of a run are settled, unless a call has a seed that is a native Kimi id and is too long, or
the seed of an earlier call too. A second run then gives every call its id again and every result
the id of its call (`secondPass_of_found`). A result that answers no call keeps its id in `strict9`
mode; in `strict` mode it keeps an id of the greatest length, and no other.
-/

namespace OpenClaw.Transcript

/-! ## Seeds -/

def callSeedsAfter (before : List ToolEvent) : List ToolEvent → List Id
  | [] => []
  | .call id :: events =>
    callSeed id (before.count (.call id) + 1) :: callSeedsAfter (before ++ [.call id]) events
  | .result id :: events => callSeedsAfter (before ++ [.result id]) events

def callSeeds (events : List ToolEvent) : List Id := callSeedsAfter [] events

/-- The seeds that are native Kimi ids are different, and not too long. -/
def KimiSeedsStay (events : List ToolEvent) : Prop :=
  ((callSeeds events).filter isNativeKimiToolCallId).Nodup ∧
    ∀ seed ∈ callSeeds events, isNativeKimiToolCallId seed = true → seed.length ≤ maxLen

theorem callSeedsAfter_append (before events more : List ToolEvent) :
    callSeedsAfter before (events ++ more) =
      callSeedsAfter before events ++ callSeedsAfter (before ++ events) more := by
  induction events generalizing before with
  | nil => simp [callSeedsAfter]
  | cons event events ih => cases event <;> simp [callSeedsAfter, ih]

theorem callSeeds_concat_call (events : List ToolEvent) (id : Id) :
    callSeeds (events ++ [.call id]) =
      callSeeds events ++ [callSeed id (events.count (.call id) + 1)] :=
  callSeedsAfter_append [] events [.call id]

theorem callSeeds_concat_result (events : List ToolEvent) (id : Id) :
    callSeeds (events ++ [.result id]) = callSeeds events := by
  rw [callSeeds, callSeedsAfter_append]
  exact List.append_nil _

theorem KimiSeedsStay.of_append {events more : List ToolEvent}
    (h : KimiSeedsStay (events ++ more)) : KimiSeedsStay events := by
  unfold KimiSeedsStay callSeeds at h
  rw [callSeedsAfter_append, List.filter_append, List.nodup_append] at h
  exact ⟨h.1.1, fun seed hseed => h.2 seed (List.mem_append_left _ hseed)⟩

/-! ## Settled ids -/

section

variable {shortHash : Id → Nat → Id} {now : Nat → Nat} {mode : ToolCallIdMode}
variable {events : List ToolEvent} {r : Resolver}

/-- Every id in use is settled, and is a Kimi id only if some call had it as its seed. -/
structure Settled (mode : ToolCallIdMode) (events : List ToolEvent) (r : Resolver) : Prop where
  occurrences : ∀ id, r.assistantOccurrences id = events.count (.call id)
  kimi : mode = .strict → ∀ id ∈ r.used, isNativeKimiToolCallId id = true → id ∈ callSeeds events
  valid : ∀ id ∈ r.used, IsSettled mode id

theorem settled_nil (mode : ToolCallIdMode) : Settled mode [] createOccurrenceAwareResolver where
  occurrences _ := rfl
  kimi _ _ hmem := nomatch hmem
  valid _ hmem := nomatch hmem

variable {id : Id}

theorem isNativeKimi_eq_false_of_isPlain (h : IsPlain id) : isNativeKimiToolCallId id = false := by
  by_contra hkimi
  have hcount := count_colon_of_kimi (eq_true_of_ne_false hkimi)
  rw [count_eq_zero_of_forall h.2 rfl] at hcount
  cases hcount

variable {used : List Id}

theorem makeUniqueToolId_of_stays (hhash : HashPrefix shortHash) {time : Nat} {seed : Id}
    (hseed : KimiStays mode used seed)
    (hfound : (makeUniqueToolId shortHash time seed used mode).exhausted = false) :
    IsSettled mode (makeUniqueToolId shortHash time seed used mode).id ∧
      (mode = .strict →
        isNativeKimiToolCallId (makeUniqueToolId shortHash time seed used mode).id = true →
          (makeUniqueToolId shortHash time seed used mode).id = seed ∧
            isNativeKimiToolCallId seed = true) := by
  refine ⟨makeUniqueToolId_settled hhash hseed hfound, ?_⟩
  rintro rfl hnative
  by_cases hkimi : isNativeKimiToolCallId seed = true
  · obtain ⟨hlength, hused⟩ := hseed rfl hkimi
    rw [makeUniqueToolId_kimi hkimi hlength hused]
    exact ⟨rfl, hkimi⟩
  · have hplain := makeUniqueToolId_plain hhash (eq_false_of_ne_true hkimi) hfound
    rw [isNativeKimi_eq_false_of_isPlain hplain.1] at hnative
    cases hnative

theorem Settled.kimiStays (h : Settled mode events r)
    (hkimi : mode = .strict → KimiSeedsStay (events ++ [.call id])) :
    KimiStays mode r.used (callSeed id (r.assistantOccurrences id + 1)) := by
  intro hmode hnative
  obtain ⟨hnodup, hlength⟩ := hkimi hmode
  rw [callSeeds_concat_call, ← h.occurrences] at hnodup hlength
  refine ⟨hlength _ (List.mem_append_right _ (List.mem_singleton_self _)) hnative, ?_⟩
  intro hused
  rw [List.filter_append, List.nodup_append] at hnodup
  have hold : callSeed id (r.assistantOccurrences id + 1) ∈
      (callSeeds events).filter isNativeKimiToolCallId :=
    List.mem_filter.2 ⟨h.kimi hmode _ hused hnative, hnative⟩
  have hnew : callSeed id (r.assistantOccurrences id + 1) ∈
      [callSeed id (r.assistantOccurrences id + 1)].filter isNativeKimiToolCallId :=
    List.mem_filter.2 ⟨List.mem_singleton_self _, hnative⟩
  exact hnodup.2.2 _ hold _ hnew rfl

theorem Settled.step (hhash : HashPrefix shortHash) (h : Settled mode events r)
    (event : ToolEvent) (hkimi : mode = .strict → KimiSeedsStay (events ++ [event]))
    (hfound : (resolveEvent shortHash now mode event r).2.exhausted = false) :
    Settled mode (events ++ [event]) (resolveEvent shortHash now mode event r).2 := by
  cases event with
  | call id =>
    have hmade := makeUniqueToolId_of_stays hhash (h.kimiStays hkimi)
      (Bool.or_eq_false_iff.1 hfound).2
    constructor
    · intro other
      simp only [resolveEvent, resolveAssistantId, allocate]
      by_cases hother : other = id
      · subst hother
        simp [h.occurrences]
      · have hne : ToolEvent.call id ≠ .call other := by
          intro heq
          cases heq
          exact hother rfl
        rw [Function.update_of_ne hother, h.occurrences, List.count_append,
          List.count_singleton, if_neg (by simpa using hne), Nat.add_zero]
    · intro hmode other hmem hnative
      rw [callSeeds_concat_call, List.mem_append, List.mem_singleton, ← h.occurrences]
      rcases List.mem_cons.1 hmem with rfl | hmem
      · exact Or.inr (hmade.2 hmode hnative).1
      · exact Or.inl (h.kimi hmode other hmem hnative)
    · intro other hmem
      rcases List.mem_cons.1 hmem with rfl | hmem
      · exact hmade.1
      · exact h.valid other hmem
  | result id =>
    have hcount (other : Id) :
        (events ++ [ToolEvent.result id]).count (.call other) = events.count (.call other) := by
      simp [List.count_append]
    cases hpending : r.pendingByRawId id with
    | nil =>
      simp only [resolveEvent, resolveToolResultId, hpending] at hfound ⊢
      have hseed : KimiStays mode r.used
          (orphanSeed id (r.orphanToolResultOccurrences id + 1)) := by
        intro hmode hnative
        rw [orphanSeed_not_kimi] at hnative
        cases hnative
      have hmade := makeUniqueToolId_of_stays hhash hseed (Bool.or_eq_false_iff.1 hfound).2
      refine ⟨fun other => (h.occurrences other).trans (hcount other).symm, ?_, ?_⟩
      · intro hmode other hmem hnative
        rw [callSeeds_concat_result]
        rcases List.mem_cons.1 hmem with rfl | hmem
        · have horphan := (hmade.2 hmode hnative).2
          rw [orphanSeed_not_kimi] at horphan
          cases horphan
        · exact h.kimi hmode other hmem hnative
      · intro other hmem
        rcases List.mem_cons.1 hmem with rfl | hmem
        · exact hmade.1
        · exact h.valid other hmem
    | cons next pending =>
      simp only [resolveEvent, resolveToolResultId, hpending]
      refine ⟨fun other => (h.occurrences other).trans (hcount other).symm, ?_, h.valid⟩
      intro hmode other hmem hnative
      rw [callSeeds_concat_result]
      exact h.kimi hmode other hmem hnative

/-! ## Pending ids -/

/-- An id is pending for one raw id at most, and once. -/
structure PendingApart (r : Resolver) : Prop where
  used : ∀ raw, ∀ id ∈ r.pendingByRawId raw, id ∈ r.used
  nodup : ∀ raw, (r.pendingByRawId raw).Nodup
  apart : ∀ raw raw' id, id ∈ r.pendingByRawId raw → id ∈ r.pendingByRawId raw' → raw = raw'

theorem pendingApart_empty : PendingApart createOccurrenceAwareResolver where
  used _ _ hmem := nomatch hmem
  nodup _ := List.nodup_nil
  apart _ _ _ hmem := nomatch hmem

variable {next : Id}

theorem mem_update_pending {pending : Id → List Id} {raw other : Id} :
    id ∈ Function.update pending raw (pending raw ++ [next]) other ↔
      id ∈ pending other ∨ (other = raw ∧ id = next) := by
  by_cases hother : other = raw
  · subst hother
    simp
  · simp [hother]

theorem PendingApart.step (h : PendingApart r) (event : ToolEvent)
    (hfound : (resolveEvent shortHash now mode event r).2.exhausted = false) :
    PendingApart (resolveEvent shortHash now mode event r).2 := by
  cases event with
  | call id =>
    have hnew := allocate_unused hfound
    have hold {raw : Id} : _ ∉ r.pendingByRawId raw := fun hmem => hnew (h.used raw _ hmem)
    constructor
    · intro raw other hmem
      rcases mem_update_pending.1 hmem with hmem | ⟨-, rfl⟩
      · exact List.mem_cons_of_mem _ (h.used raw other hmem)
      · exact List.mem_cons_self
    · intro raw
      simp only [resolveEvent, resolveAssistantId]
      by_cases hraw : raw = id
      · subst hraw
        rw [Function.update_self, List.nodup_append]
        refine ⟨h.nodup raw, List.pairwise_singleton _ _, ?_⟩
        intro other hother next hnext heq
        rw [List.mem_singleton] at hnext
        rw [heq, hnext] at hother
        exact hold hother
      · rw [Function.update_of_ne hraw]
        exact h.nodup raw
    · intro raw raw' other hmem hmem'
      rcases mem_update_pending.1 hmem with hraw | ⟨hraw, hother⟩
      · rcases mem_update_pending.1 hmem' with hraw' | ⟨-, hother⟩
        · exact h.apart raw raw' other hraw hraw'
        · rw [hother] at hraw
          exact absurd hraw hold
      · rcases mem_update_pending.1 hmem' with hraw' | ⟨hraw', -⟩
        · rw [hother] at hraw'
          exact absurd hraw' hold
        · rw [hraw, hraw']
  | result id =>
    cases hpending : r.pendingByRawId id with
    | nil =>
      simp only [resolveEvent, resolveToolResultId, hpending]
      exact ⟨fun raw other hmem => List.mem_cons_of_mem _ (h.used raw other hmem), h.nodup,
        h.apart⟩
    | cons next pending =>
      simp only [resolveEvent, resolveToolResultId, hpending]
      have hsub (raw : Id) :
          (Function.update r.pendingByRawId id pending raw).Sublist (r.pendingByRawId raw) := by
        by_cases hraw : raw = id
        · subst hraw
          rw [Function.update_self, hpending]
          exact List.sublist_cons_self _ _
        · rw [Function.update_of_ne hraw]
      exact ⟨fun raw other hmem => h.used raw other ((hsub raw).subset hmem),
        fun raw => (h.nodup raw).sublist (hsub raw),
        fun raw raw' other hmem hmem' =>
          h.apart raw raw' other ((hsub raw).subset hmem) ((hsub raw').subset hmem')⟩

/-! ## The second pass -/

/-- The resolver of the second pass against that of the first: what is pending is pending for
itself. -/
structure Again (r r₂ : Resolver) : Prop where
  used : ∀ id, id ∈ r₂.used ↔ id ∈ r.used
  waits : ∀ raw, ∀ id ∈ r.pendingByRawId raw, r₂.pendingByRawId id = [id]
  idle : ∀ id, (∀ raw, id ∉ r.pendingByRawId raw) → r₂.pendingByRawId id = []
  occurrences : ∀ id, id ∉ r.used → r₂.assistantOccurrences id = 0
  exhausted : r₂.exhausted = false

theorem again_empty : Again createOccurrenceAwareResolver createOccurrenceAwareResolver where
  used _ := Iff.rfl
  waits _ _ hmem := nomatch hmem
  idle _ _ := rfl
  occurrences _ _ := rfl
  exhausted := rfl

variable {r₂ : Resolver} (now₂ : Nat → Nat)

theorem Again.call (h : Again r r₂) (hapart : PendingApart r) (id : Id)
    (hfound : (resolveAssistantId shortHash now mode id r).2.exhausted = false)
    (hsettled : IsSettled mode (resolveAssistantId shortHash now mode id r).1) :
    (resolveAssistantId shortHash now₂ mode (resolveAssistantId shortHash now mode id r).1 r₂).1 =
        (resolveAssistantId shortHash now mode id r).1 ∧
      Again (resolveAssistantId shortHash now mode id r).2
        (resolveAssistantId shortHash now₂ mode
          (resolveAssistantId shortHash now mode id r).1 r₂).2 := by
  have hnew := allocate_unused hfound
  have hused : (resolveAssistantId shortHash now mode id r).2.used =
      (resolveAssistantId shortHash now mode id r).1 :: r.used := rfl
  have hpending : (resolveAssistantId shortHash now mode id r).2.pendingByRawId =
      Function.update r.pendingByRawId id
        (r.pendingByRawId id ++ [(resolveAssistantId shortHash now mode id r).1]) := rfl
  change (resolveAssistantId shortHash now mode id r).1 ∉ r.used at hnew
  generalize (resolveAssistantId shortHash now mode id r).2 = r' at hused hpending ⊢
  generalize (resolveAssistantId shortHash now mode id r).1 = next at *
  have hmade : makeUniqueToolId shortHash (now₂ r₂.used.length)
      (callSeed next (r₂.assistantOccurrences next + 1)) r₂.used mode = ⟨next, false⟩ := by
    rw [h.occurrences next hnew]
    exact makeUniqueToolId_self hsettled fun hmem => hnew ((h.used next).1 hmem)
  have hidle : r₂.pendingByRawId next = [] :=
    h.idle next fun raw hmem => hnew (hapart.used raw next hmem)
  simp only [resolveAssistantId, allocate, hmade, true_and]
  constructor
  · intro other
    rw [hused, List.mem_cons, List.mem_cons, h.used]
  · intro raw other hmem
    rw [hpending, mem_update_pending] at hmem
    dsimp only
    by_cases hother : other = next
    · subst hother
      rw [Function.update_self, hidle, List.nil_append]
    · rw [Function.update_of_ne hother]
      exact h.waits raw other (hmem.resolve_right fun hnext => hother hnext.2)
  · intro other hmem
    dsimp only
    have hother : other ≠ next := by
      intro hnext
      apply hmem id
      rw [hpending, mem_update_pending]
      exact Or.inr ⟨rfl, hnext⟩
    rw [Function.update_of_ne hother]
    apply h.idle
    intro raw hraw
    apply hmem raw
    rw [hpending, mem_update_pending]
    exact Or.inl hraw
  · intro other hmem
    rw [hused, List.mem_cons, not_or] at hmem
    dsimp only
    rw [Function.update_of_ne hmem.1]
    exact h.occurrences other hmem.2
  · simp [h.exhausted]

theorem Again.answered (shortHash : Id → Nat → Id) (mode : ToolCallIdMode) (h : Again r r₂)
    (hapart : PendingApart r) {pending : List Id}
    (hpending : r.pendingByRawId id = next :: pending) :
    (resolveToolResultId shortHash now₂ mode next r₂).1 = next ∧
      Again { r with pendingByRawId := Function.update r.pendingByRawId id pending }
        (resolveToolResultId shortHash now₂ mode next r₂).2 := by
  have hmem : next ∈ r.pendingByRawId id := by simp [hpending]
  have hnext := h.waits id next hmem
  have hnodup := hapart.nodup id
  rw [hpending, List.nodup_cons] at hnodup
  -- `next` is pending nowhere else
  have hgone (raw other : Id) :
      other ∈ Function.update r.pendingByRawId id pending raw ↔
        other ∈ r.pendingByRawId raw ∧ other ≠ next := by
    by_cases hraw : raw = id
    · subst hraw
      rw [Function.update_self, hpending, List.mem_cons]
      constructor
      · intro hother
        exact ⟨Or.inr hother, fun heq => hnodup.1 (heq ▸ hother)⟩
      · rintro ⟨hother | hother, hne⟩
        · exact absurd hother hne
        · exact hother
    · rw [Function.update_of_ne hraw]
      refine ⟨fun hother => ⟨hother, ?_⟩, And.left⟩
      intro heq
      exact hraw (hapart.apart raw id next (heq ▸ hother) hmem)
  simp only [resolveToolResultId, hnext, true_and]
  constructor
  · exact h.used
  · intro raw other hother
    have hkept := (hgone raw other).1 hother
    dsimp only
    rw [Function.update_of_ne hkept.2]
    exact h.waits raw other hkept.1
  · intro other hother
    dsimp only
    by_cases heq : other = next
    · rw [heq, Function.update_self]
    · rw [Function.update_of_ne heq]
      exact h.idle other fun raw hraw => hother raw ((hgone raw other).2 ⟨hraw, heq⟩)
  · exact h.occurrences
  · exact h.exhausted

/-- In `strict` mode, only an id of the greatest length stays with a result that answers no call. -/
def OrphanStays (mode : ToolCallIdMode) (id : Id) : Prop := mode = .strict → id.length = maxLen

theorem makeUniqueToolId_orphanSeed (hhash : HashPrefix shortHash) (time : Nat)
    (hsettled : IsSettled mode id) (hplain : mode = .strict → IsPlain id) (hused : id ∉ used)
    (occurrence : Nat) :
    ((makeUniqueToolId shortHash time (orphanSeed id occurrence) used mode).id = id ↔
        OrphanStays mode id) ∧
      (OrphanStays mode id →
        makeUniqueToolId shortHash time (orphanSeed id occurrence) used mode = ⟨id, false⟩) := by
  cases mode with
  | strict9 =>
    have hmade : makeUniqueToolId shortHash time (orphanSeed id occurrence) used .strict9 =
        ⟨id, false⟩ := makeUniqueToolId_orphanSeed_strict9 hsettled.1 hused occurrence
    exact ⟨iff_of_true (by rw [hmade]) nofun, fun _ => hmade⟩
  | strict =>
    have hiff := makeUniqueToolId_orphanSeed_strict hhash time (hplain rfl)
      (hsettled.2 rfl) hused occurrence
    refine ⟨hiff.trans ⟨fun hmax _ => hmax, fun hmax => hmax rfl⟩, ?_⟩
    intro hmax
    exact makeUniqueToolId_orphanSeed_of_max (hplain rfl) (hmax rfl) hused occurrence

theorem Again.orphan (hhash : HashPrefix shortHash) (h : Again r r₂) (hapart : PendingApart r)
    (hnew : next ∉ r.used) (hsettled : IsSettled mode next)
    (hplain : mode = .strict → IsPlain next) :
    ((resolveToolResultId shortHash now₂ mode next r₂).1 = next ↔ OrphanStays mode next) ∧
      (OrphanStays mode next → ∀ r' : Resolver, r'.used = next :: r.used →
        r'.pendingByRawId = r.pendingByRawId →
          Again r' (resolveToolResultId shortHash now₂ mode next r₂).2) := by
  have hidle : r₂.pendingByRawId next = [] :=
    h.idle next fun raw hmem => hnew (hapart.used raw next hmem)
  have hnew₂ : next ∉ r₂.used := fun hmem => hnew ((h.used next).1 hmem)
  have hmade := makeUniqueToolId_orphanSeed hhash (now₂ r₂.used.length) hsettled
    hplain hnew₂ (r₂.orphanToolResultOccurrences next + 1)
  simp only [resolveToolResultId, hidle, allocate]
  refine ⟨hmade.1, ?_⟩
  intro hstays r' hused hpending
  rw [hmade.2 hstays]
  constructor
  · intro other
    rw [hused, List.mem_cons, List.mem_cons, h.used]
  · intro raw other hmem
    rw [hpending] at hmem
    exact h.waits raw other hmem
  · intro other hmem
    rw [hpending] at hmem
    exact h.idle other hmem
  · intro other hmem
    rw [hused, List.mem_cons, not_or] at hmem
    exact h.occurrences other hmem.2
  · simp [h.exhausted]

def ToolEvent.withId : ToolEvent → Id → ToolEvent
  | .call _, id => .call id
  | .result _, id => .result id

/-- The events with their ids. -/
def renamed (events : List ToolEvent) (ids : List Id) : List ToolEvent :=
  List.zipWith ToolEvent.withId events ids

variable {ids : List Id}

theorem Again.step (hhash : HashPrefix shortHash) (h : Again r r₂) (hapart : PendingApart r)
    (hresolved : Resolved events ids r) (hevents : Settled mode events r) (event : ToolEvent)
    (hkimi : mode = .strict → KimiSeedsStay (events ++ [event]))
    (hfound : (resolveEvent shortHash now mode event r).2.exhausted = false) :
    ((resolveEvent shortHash now₂ mode
          (event.withId (resolveEvent shortHash now mode event r).1) r₂).1 =
        (resolveEvent shortHash now mode event r).1 ↔
      ∀ raw, event = .result raw → sourceOf events event = events.length →
        OrphanStays mode (resolveEvent shortHash now mode event r).1) ∧
    ((resolveEvent shortHash now₂ mode
          (event.withId (resolveEvent shortHash now mode event r).1) r₂).1 =
        (resolveEvent shortHash now mode event r).1 →
      Again (resolveEvent shortHash now mode event r).2
        (resolveEvent shortHash now₂ mode
          (event.withId (resolveEvent shortHash now mode event r).1) r₂).2) := by
  have hsettled := (hevents.step hhash event hkimi hfound).valid
  cases event with
  | call id =>
    have hagain := h.call now₂ hapart id hfound (hsettled _ List.mem_cons_self)
    exact ⟨iff_of_true hagain.1 (fun _ hraw => nomatch hraw), fun _ => hagain.2⟩
  | result id =>
    cases hpending : r.pendingByRawId id with
    | nil =>
      simp only [resolveEvent, resolveToolResultId, hpending] at hfound hsettled ⊢
      have hsource : sourceOf events (.result id) = events.length := by
        simp [sourceOf, hresolved.unanswered_eq_nil hpending]
      have hmade := (Bool.or_eq_false_iff.1 hfound).2
      have horphan := h.orphan now₂ hhash hapart (allocate_unused hfound)
        (hsettled _ List.mem_cons_self) (by
          rintro rfl
          exact (makeUniqueToolId_plain hhash (orphanSeed_not_kimi _ _) hmade).1)
      refine ⟨?_, fun hself => horphan.2 (horphan.1.1 hself) _ rfl rfl⟩
      exact horphan.1.trans ⟨fun hstays _ _ _ => hstays, fun hstays => hstays id rfl hsource⟩
    | cons next pending =>
      obtain ⟨oldest, waiting, hwaiting, -⟩ := hresolved.unanswered_eq_cons hpending
      have hlt : oldest < events.length :=
        lt_of_mem_unanswered (by rw [hwaiting]; exact List.mem_cons_self)
      have hagain := h.answered now₂ shortHash mode hapart hpending
      simp only [resolveEvent, resolveToolResultId, hpending]
      refine ⟨iff_of_true hagain.1 ?_, fun _ => hagain.2⟩
      intro raw hraw hsource
      rw [sourceOf, hwaiting, List.headD_cons] at hsource
      omega

/-! ## Runs -/

/-- The ids of the results that answer no call stay. -/
def OrphansStay (mode : ToolCallIdMode) (events : List ToolEvent) (ids : List Id) : Prop :=
  ∀ i raw id, events[i]? = some (.result raw) → source events i = i → ids[i]? = some id →
    OrphanStays mode id

theorem orphansStay_concat (hlength : ids.length = events.length) (event : ToolEvent) (id : Id) :
    OrphansStay mode (events ++ [event]) (ids ++ [id]) ↔
      OrphansStay mode events ids ∧
        ∀ raw, event = .result raw → sourceOf events event = events.length →
          OrphanStays mode id := by
  have hlast : (ids ++ [id])[events.length]? = some id := by
    rw [← hlength]
    exact List.getElem?_concat_length
  constructor
  · intro h
    constructor
    · intro i raw other hevent hsource hid
      have hi : i < events.length := (List.getElem?_eq_some_iff.1 hevent).1
      apply h i raw other
      · rwa [List.getElem?_append_left hi]
      · rwa [source_append hi]
      · rwa [List.getElem?_append_left (hlength ▸ hi)]
    · rintro raw rfl hsource
      refine h events.length raw id List.getElem?_concat_length ?_ hlast
      rw [source_concat, hsource]
  · rintro ⟨hold, hnew⟩ i raw other hevent hsource hid
    have hlt : i < (events ++ [event]).length := (List.getElem?_eq_some_iff.1 hevent).1
    rw [List.length_append, List.length_singleton, Nat.lt_succ_iff_lt_or_eq] at hlt
    rcases hlt with hi | rfl
    · rw [List.getElem?_append_left hi] at hevent
      rw [source_append hi] at hsource
      rw [List.getElem?_append_left (hlength ▸ hi)] at hid
      exact hold i raw other hevent hsource hid
    · rw [List.getElem?_concat_length] at hevent
      rw [source_concat] at hsource
      rw [hlast] at hid
      cases hid
      exact hnew raw (Option.some_inj.1 hevent) hsource

/-- What holds of a run whose Kimi seeds stay, and of a second run over its ids. -/
structure SecondPass (shortHash : Id → Nat → Id) (now₂ : Nat → Nat) (mode : ToolCallIdMode)
    (events : List ToolEvent) (ids : List Id) (r : Resolver) : Prop where
  resolved : Resolved events ids r
  settled : Settled mode events r
  apart : PendingApart r
  same : (resolveEvents shortHash now₂ mode (renamed events ids)).1 = ids ↔
    OrphansStay mode events ids
  again : (resolveEvents shortHash now₂ mode (renamed events ids)).1 = ids →
    Again r (resolveEvents shortHash now₂ mode (renamed events ids)).2

theorem secondPass_nil (mode : ToolCallIdMode) :
    SecondPass shortHash now₂ mode [] [] createOccurrenceAwareResolver where
  resolved := resolved_nil
  settled := settled_nil mode
  apart := pendingApart_empty
  same := iff_of_true rfl (fun _ _ _ hevent => nomatch hevent)
  again _ := again_empty

theorem SecondPass.step (hhash : HashPrefix shortHash)
    (h : SecondPass shortHash now₂ mode events ids r) (event : ToolEvent)
    (hkimi : mode = .strict → KimiSeedsStay (events ++ [event]))
    (hfound : (resolveEvent shortHash now mode event r).2.exhausted = false) :
    SecondPass shortHash now₂ mode (events ++ [event])
      (ids ++ [(resolveEvent shortHash now mode event r).1])
      (resolveEvent shortHash now mode event r).2 := by
  have hlength := h.resolved.length
  have hrenamed (next : Id) :
      renamed (events ++ [event]) (ids ++ [next]) =
        renamed events ids ++ [event.withId next] :=
    List.zipWith_append hlength.symm
  have hstep (hself : (resolveEvents shortHash now₂ mode (renamed events ids)).1 = ids) :=
    (h.again hself).step now₂ hhash h.apart h.resolved h.settled event hkimi hfound
  have hsplit (xs : List Id) (x y : Id) : xs ++ [x] = ids ++ [y] ↔ xs = ids ∧ x = y := by
    constructor
    · intro heq
      simpa using List.append_inj' heq rfl
    · rintro ⟨rfl, rfl⟩
      rfl
  refine ⟨h.resolved.step event hfound, h.settled.step hhash event hkimi hfound,
    h.apart.step event hfound, ?_, ?_⟩
  · rw [hrenamed, resolveEvents, mapState_append, orphansStay_concat hlength, ← h.same]
    refine (hsplit _ _ _).trans (and_congr_right ?_)
    intro hself
    exact (hstep hself).1
  · rw [hrenamed, resolveEvents, mapState_append]
    intro hself
    obtain ⟨hself, hlast⟩ := (hsplit _ _ _).1 hself
    exact (hstep hself).2 hlast

theorem secondPass_of_found (hhash : HashPrefix shortHash) (events : List ToolEvent)
    (hfound : (resolveEvents shortHash now mode events).2.exhausted = false)
    (hkimi : mode = .strict → KimiSeedsStay events) :
    SecondPass shortHash now₂ mode events (resolveEvents shortHash now mode events).1
      (resolveEvents shortHash now mode events).2 := by
  have hrun := mapState_induction (f := resolveEvent shortHash now mode)
    (P := fun events ids r => r.exhausted = false → (mode = .strict → KimiSeedsStay events) →
      SecondPass shortHash now₂ mode events ids r)
    (fun _ _ => secondPass_nil now₂ mode) (fun events ids r event hprev hfound hkimi =>
      (hprev (exhausted_of_step hfound) fun hmode => (hkimi hmode).of_append).step now₂ hhash
        event hkimi hfound) events
  exact hrun hfound hkimi

end

end OpenClaw.Transcript
