import Mathlib.Data.List.TakeWhile
import OpenClaw.Followup.Types

/-!
# Overflow summaries

What a full queue remembers of the messages it dropped: the recent ones in `summarySources` with
their lines, the older ones in `summaryElisions` as compact copies grouped by delivery context, and
a counter for those beyond the cap. The operations are the bodies of the queue's functions between
two awaits; the delivery context key and the abort test are their arguments.

Three fields are history that the code does not keep: `evictedSources` (whom
`evictedSummaryCount` counts), `nextElisionId` (the identities of the entries) and `clamped` (whether a
`Math.max(0, …)` has ever changed a value).
-/

namespace OpenClaw.Followup

/-- An entry of `summaryElisions`; `sourceRefs` maps an original to its compact copy. -/
structure SummaryElision where
  id : Nat
  contextKey : List Char
  count : Nat
  sources : List FollowupRun
  sourceRefs : List (FollowupRun × FollowupRun)

structure FollowupQueueSummaryState where
  cap : Nat
  dropPolicy : QueueDropPolicy
  droppedCount : Nat := 0
  summaryLines : List String := []
  summarySources : List FollowupRun := []
  activeSummarySources : List FollowupRun := []
  summaryElisions : List SummaryElision := []
  evictedSummaryCount : Nat := 0
  evictedSources : List FollowupRun := []
  nextElisionId : Nat := 0
  clamped : Bool := false

structure QueueSummaryDelivery where
  prompt : String
  droppedCount : Nat
  sources : List FollowupRun

/-- A summary delivery in flight: what `runQueueSummaryDelivery` was called with, the sources that
were active before it, and for an elided summary the entry and how many of its sources it has. -/
structure SummaryRun where
  delivery : QueueSummaryDelivery
  protectedSources : List FollowupRun
  inheritedActiveSources : List FollowupRun
  elided : Option (Nat × Nat) := none

/-- An entry goes when its last source does. -/
def SummaryElision.keepUnlessEmpty (entry : SummaryElision) (entries : List SummaryElision) :
    List SummaryElision :=
  if entry.sources = [] then entries else entry :: entries

/-- The entry with other sources. -/
def SummaryElision.setSources (entry : SummaryElision) (sources : List FollowupRun) :
    SummaryElision :=
  { entry with sources := sources, count := sources.length }

variable (contextKey : FollowupRun → List Char) (aborted : FollowupRun → Bool)

namespace FollowupQueueSummaryState

variable (q : FollowupQueueSummaryState)

/-- `droppedCount = Math.max(0, droppedCount - n)`. -/
def lowerDroppedCount (n : Nat) : FollowupQueueSummaryState :=
  { q with
    droppedCount := q.droppedCount - n
    clamped := q.clamped || q.droppedCount < n }

/-! ## Trimming the elisions -/

/-- The first source that no delivery holds, and the entries without it. -/
def evictFirst (active : List FollowupRun) :
    List SummaryElision → Option (FollowupRun × List SummaryElision)
  | [] => none
  | entry :: entries =>
    match entry.sources.find? (· ∉ active) with
    | some source =>
      some (source,
        (entry.setSources (entry.sources.eraseP (· ∉ active))).keepUnlessEmpty entries)
    | none => (evictFirst active entries).map fun (source, entries) => (source, entry :: entries)

/-- `n` turns of the loop of `trimSummaryElisionsToCap`. -/
def evictSources : Nat → FollowupQueueSummaryState → FollowupQueueSummaryState
  | 0, q => q
  | n + 1, q =>
    match evictFirst q.activeSummarySources q.summaryElisions with
    | none => q
    | some (source, entries) =>
      evictSources n { q with
        summaryElisions := entries
        evictedSummaryCount := q.evictedSummaryCount + 1
        evictedSources := q.evictedSources ++ [source] }

def inactiveCount : Nat :=
  (q.summaryElisions.map fun entry => entry.sources.countP (· ∉ q.activeSummarySources)).sum

/-- `trimSummaryElisionsToCap`: each turn lowers the count of inactive sources by one. -/
def trimSummaryElisionsToCap : FollowupQueueSummaryState :=
  evictSources (q.inactiveCount - q.cap) q

/-! ## Overflow -/

/-- The summarizing part of `applyQueueDropPolicy` and its `onDrop`: every dropped message is a
source with a line, and the lines are cut to the last `cap`. -/
def summarizeDropped (dropped : List FollowupRun) : FollowupQueueSummaryState :=
  let lines := q.summaryLines ++ dropped.map summaryLineOf
  { q with
    summarySources := q.summarySources ++ dropped
    droppedCount := q.droppedCount + dropped.length
    summaryLines := lines.drop (lines.length - q.cap) }

/-- The entries with the compact copy of `item` in the last one, if that has its key, or in a
new one. -/
def pushElision (item : FollowupRun) : List SummaryElision :=
  let compactSource := createOverflowSummaryRetrySource item
  let created : SummaryElision :=
    { id := q.nextElisionId
      contextKey := contextKey item
      count := 1
      sources := [compactSource]
      sourceRefs := [(item, compactSource)] }
  match q.summaryElisions.getLast? with
  | some last =>
    if last.contextKey = contextKey item then
      q.summaryElisions.dropLast ++ [{ last with
        count := last.count + 1
        sources := last.sources ++ [compactSource]
        sourceRefs := (item, compactSource) :: last.sourceRefs }]
    else q.summaryElisions ++ [created]
  | none => [created]

/-- One turn of the loop of `enqueueFollowupRun` over the sources without a line. -/
def elideSource (item : FollowupRun) : FollowupQueueSummaryState :=
  trimSummaryElisionsToCap { q with
    summaryElisions := q.pushElision contextKey item
    nextElisionId := q.nextElisionId + 1
    activeSummarySources :=
      if item ∈ q.activeSummarySources then
        createOverflowSummaryRetrySource item :: q.activeSummarySources
      else q.activeSummarySources }

/-- The sources beyond the lines become elisions. -/
def elideOverflow : FollowupQueueSummaryState :=
  let overflow := q.summarySources.length - q.summaryLines.length
  (q.summarySources.take overflow).foldl (fun q item => q.elideSource contextKey item)
    { q with summarySources := q.summarySources.drop overflow }

/-! ## Aborted and evicted sources -/

/-- The lines of the sources that stay. -/
def dropAbortedLines : List FollowupRun → List String → List String
  | source :: sources, line :: lines =>
    if aborted source then dropAbortedLines sources lines
    else line :: dropAbortedLines sources lines
  | _, lines => lines

/-- `dropAbortedQueueSummarySources`, with how many were dropped. -/
def dropAbortedQueueSummarySources : Nat × FollowupQueueSummaryState :=
  let dropped := q.summarySources.countP aborted
  (dropped,
    { q with
      summarySources := q.summarySources.filter (!aborted ·)
      summaryLines := dropAbortedLines aborted q.summarySources q.summaryLines
      : FollowupQueueSummaryState }.lowerDroppedCount dropped)

/-- The evicted sources are reported and forgotten. -/
def reportEvicted : FollowupQueueSummaryState :=
  { q with evictedSummaryCount := 0, evictedSources := []
    : FollowupQueueSummaryState }.lowerDroppedCount q.evictedSummaryCount

/-- The aborted sources of the first entry are dropped, and the entry if nothing is left. -/
def dropAbortedElided : FollowupQueueSummaryState :=
  match q.summaryElisions with
  | [] => q
  | entry :: entries =>
    let dropped := entry.sources.countP aborted
    let rest := { entry with
      sources := entry.sources.filter (!aborted ·)
      count := entry.count - dropped }
    { q with
      clamped := q.clamped || entry.count < dropped
      summaryElisions := rest.keepUnlessEmpty entries
      : FollowupQueueSummaryState }.lowerDroppedCount dropped

/-! ## Consuming a delivery -/

end FollowupQueueSummaryState

namespace SummaryElision

variable (entry : SummaryElision)

/-- The source is in the entry, or was moved into it. -/
def holds (source : FollowupRun) : Bool :=
  source ∈ entry.sources || (entry.sourceRefs.lookup source).isSome

/-- The entry without the source or its compact copy. With neither in the list the index is -1,
which `splice` takes from the end. -/
def consume (source : FollowupRun) : SummaryElision :=
  let target := (entry.sourceRefs.lookup source).getD source
  entry.setSources
    (if target ∈ entry.sources then entry.sources.erase target else entry.sources.dropLast)

end SummaryElision

namespace FollowupQueueSummaryState

variable (q : FollowupQueueSummaryState)

/-- The entries without a source, if one of them holds it. -/
def consumeElided (source : FollowupRun) : List SummaryElision → Option (List SummaryElision)
  | [] => none
  | entry :: entries =>
    if entry.holds source then some ((entry.consume source).keepUnlessEmpty entries)
    else (consumeElided source entries).map (entry :: ·)

/-- One turn of the loop of `consumeQueueSummaryDelivery`, with what it adds to `consumedCount`. -/
def consumeSource (source : FollowupRun) : Nat × FollowupQueueSummaryState :=
  if source ∈ q.summarySources then
    (1, { q with
      summarySources := q.summarySources.erase source
      summaryLines := q.summaryLines.eraseIdx (q.summarySources.idxOf source) })
  else
    match consumeElided source q.summaryElisions with
    | some entries => (1, { q with summaryElisions := entries })
    | none => (0, q)

/-- The sources in turn, with the number that was consumed. -/
def consumeSources : List FollowupRun → FollowupQueueSummaryState → Nat × FollowupQueueSummaryState
  | [], q => (0, q)
  | source :: sources, q =>
    let (first, q) := q.consumeSource source
    let (rest, q) := consumeSources sources q
    (first + rest, q)

/-- `consumeQueueSummaryDelivery` for `sources`. -/
def consumeQueueSummaryDelivery (delivery : QueueSummaryDelivery) : FollowupQueueSummaryState :=
  let base := if delivery.sources = [] then delivery.droppedCount else 0
  let (consumed, q) := consumeSources delivery.sources q
  q.lowerDroppedCount (base + consumed)

/-- `releaseQueueSummaryDeliveryForRetry`: the sources still listed are replaced by fresh copies. -/
def releaseForRetry (sources : List FollowupRun) : FollowupQueueSummaryState :=
  { q with
    summarySources := sources.foldl
      (fun listed source => listed.replace source (createOverflowSummaryRetrySource source))
      q.summarySources }

/-- Sources and their compact copies that are active no longer. -/
def releaseActive (released : List FollowupRun) : FollowupQueueSummaryState :=
  let copies := q.summaryElisions.flatMap fun entry =>
    released.filterMap fun source => entry.sourceRefs.lookup source
  { q with
    activeSummarySources :=
      q.activeSummarySources.filter fun source => source ∉ released ∧ source ∉ copies }

/-- The `finally` of `runQueueSummaryDelivery`: one deferred generation stays active. -/
def endDelivery (d : SummaryRun) (deferredBeforeAdmission : Bool) : FollowupQueueSummaryState :=
  let carryover :=
    if deferredBeforeAdmission ∧ d.inheritedActiveSources = [] then d.protectedSources
    else d.inheritedActiveSources
  let released := d.protectedSources.filter fun source =>
    !(deferredBeforeAdmission && source ∈ carryover)
  (q.releaseActive released).trimSummaryElisionsToCap

/-- The entries without the first `elidedCount` sources of one of them, if it is still there, and
how many that were. -/
def consumePrefixOf (entryId elidedCount : Nat) :
    List SummaryElision → Option (Nat × List SummaryElision)
  | [] => none
  | entry :: entries =>
    if entry.id = entryId then
      let consumedCount := min elidedCount entry.sources.length
      some (consumedCount,
        (entry.setSources (entry.sources.drop consumedCount)).keepUnlessEmpty entries)
    else
      (consumePrefixOf entryId elidedCount entries).map fun (consumed, entries) =>
        (consumed, entry :: entries)

/-- What `drainElidedOverflowSummary` does once its delivery has returned true. -/
def consumeElidedPrefix (entryId elidedCount : Nat) : FollowupQueueSummaryState :=
  match consumePrefixOf entryId elidedCount q.summaryElisions with
  | none => q
  | some (consumedCount, entries) =>
    { q with summaryElisions := entries : FollowupQueueSummaryState }.lowerDroppedCount
      consumedCount

/-! ## Deliveries -/

def buildQueueSummaryPrompt (dropPolicy : QueueDropPolicy) (droppedCount : Nat)
    (summaryLines : List String) : Option String :=
  if dropPolicy ≠ .summarize ∨ droppedCount = 0 then none
  else
    let title := "[Queue overflow] Dropped " ++ toString droppedCount ++ " message" ++
      (if droppedCount = 1 then "" else "s") ++ " due to cap."
    let lines := if summaryLines = [] then [] else "Summary:" :: summaryLines.map ("- " ++ ·)
    some ("\n".intercalate (title :: lines))

/-- `resolveOverflowSummarySourceGroup`: the sources at the front that share the first one's key. -/
def resolveOverflowSummarySourceGroup : List FollowupRun :=
  match q.summarySources with
  | [] => []
  | source :: _ => q.summarySources.takeWhile fun other => contextKey other = contextKey source

/-- `createQueueSummaryDelivery` for a given list of sources. -/
def createQueueSummaryDelivery (sources : List FollowupRun) : Option QueueSummaryDelivery :=
  if sources.isPrefixOf q.summarySources then
    (buildQueueSummaryPrompt q.dropPolicy sources.length
      (q.summaryLines.take sources.length)).map fun prompt =>
        { prompt := prompt, droppedCount := sources.length, sources := sources }
  else none

/-- What a turn of the overflow drain came to: it returned, or it started a delivery. -/
inductive Turn
  | returned (drained : Bool)
  | started (d : SummaryRun)

/-- `drainElidedOverflowSummary` up to its delivery. -/
def drainElidedOverflowSummary : FollowupQueueSummaryState × Turn :=
  match q.summaryElisions with
  | [] => (q, .returned false)
  | entry :: entries =>
    let retainedSources :=
      if entries = [] then
        (q.resolveOverflowSummarySourceGroup contextKey).filter (contextKey · = entry.contextKey)
      else []
    let elidedSources := entry.sources.filter (!aborted ·)
    let q := q.dropAbortedElided aborted
    if elidedSources = [] then (q, .returned true)
    else
      let droppedCount := elidedSources.length + retainedSources.length
      match buildQueueSummaryPrompt q.dropPolicy droppedCount
          (q.summaryLines.take retainedSources.length) with
      | none => (q, .returned false)
      | some prompt =>
        let protectedSources := elidedSources ++ retainedSources
        (q, .started
          { delivery :=
              { prompt := prompt
                droppedCount := retainedSources.length
                sources := retainedSources }
            protectedSources := protectedSources
            inheritedActiveSources := protectedSources.filter (· ∈ q.activeSummarySources)
            elided := some (entry.id, elidedSources.length) })

/-- The part of `drainOverflowSummaryGroup` after the elided summaries, up to its delivery. -/
def drainRetainedSummary : Turn :=
  match createQueueSummaryDelivery q (q.resolveOverflowSummarySourceGroup contextKey) with
  | none => .returned false
  | some delivery =>
    .started
      { delivery := delivery
        protectedSources := delivery.sources
        inheritedActiveSources := delivery.sources.filter (· ∈ q.activeSummarySources) }

/-- The protected sources become active when a delivery starts. -/
def protectSources (sources : List FollowupRun) : FollowupQueueSummaryState :=
  { q with activeSummarySources := sources ++ q.activeSummarySources }

end FollowupQueueSummaryState

/-- Whether `runQueueSummaryDelivery` passes an `onAdmitted` on. -/
def SummaryRun.needsAdmission (d : SummaryRun) : Bool :=
  1 < d.protectedSources.length || d.protectedSources.any fun source =>
    source.queuedLifecycle.any (·.onAdmitted)

/-! ## What the operations do to the entries -/

/-- The sources of the entries, in order. -/
def elidedSources (entries : List SummaryElision) : List FollowupRun := entries.flatMap (·.sources)

@[simp] theorem elidedSources_nil : elidedSources [] = [] := rfl

@[simp] theorem elidedSources_cons (entry : SummaryElision) (entries : List SummaryElision) :
    elidedSources (entry :: entries) = entry.sources ++ elidedSources entries := rfl

@[simp] theorem elidedSources_append (l l' : List SummaryElision) :
    elidedSources (l ++ l') = elidedSources l ++ elidedSources l' := List.flatMap_append

namespace SummaryElision

@[simp] theorem setSources_sources (entry : SummaryElision) (sources : List FollowupRun) :
    (entry.setSources sources).sources = sources := rfl

@[simp] theorem elidedSources_keepUnlessEmpty (entry : SummaryElision)
    (entries : List SummaryElision) :
    elidedSources (entry.keepUnlessEmpty entries) = entry.sources ++ elidedSources entries := by
  unfold keepUnlessEmpty
  split_ifs with h <;> simp [h]

variable {entry : SummaryElision}

theorem mem_keepUnlessEmpty {e : SummaryElision} {entries : List SummaryElision} :
    e ∈ entry.keepUnlessEmpty entries ↔ (e = entry ∧ entry.sources ≠ []) ∨ e ∈ entries := by
  unfold keepUnlessEmpty
  split_ifs with h <;> simp [h]

theorem consume_sources_sublist (entry : SummaryElision) (source : FollowupRun) :
    (entry.consume source).sources.Sublist entry.sources := by
  unfold consume
  rw [setSources_sources]
  split_ifs
  · exact List.erase_sublist
  · exact List.dropLast_sublist _

theorem length_consume_sources (hne : entry.sources ≠ []) (source : FollowupRun) :
    (entry.consume source).sources.length + 1 = entry.sources.length := by
  have hpos := List.length_pos_iff.2 hne
  unfold consume
  rw [setSources_sources]
  split_ifs with h
  · rw [List.length_erase_of_mem h]
    omega
  · rw [List.length_dropLast]
    omega

end SummaryElision

namespace FollowupQueueSummaryState

open SummaryElision

variable {entries entries' : List SummaryElision}

variable {source : FollowupRun}

theorem evictFirst_eq_some {active : List FollowupRun}
    (h : evictFirst active entries = some (source, entries')) :
    ∃ before entry after, entries = before ++ entry :: after ∧ source ∈ entry.sources ∧
      source ∉ active ∧
      ∃ l l', entry.sources = l ++ source :: l' ∧
        entries' = before ++ (entry.setSources (l ++ l')).keepUnlessEmpty after := by
  induction entries generalizing entries' with
  | nil => cases h
  | cons entry entries ih =>
    unfold evictFirst at h
    split at h
    case h_1 found hfound =>
      obtain ⟨rfl, rfl⟩ := Prod.mk.inj (Option.some.inj h)
      obtain ⟨hactive, l, l', hl, hbefore⟩ := List.find?_eq_some_iff_append.1 hfound
      have herase : entry.sources.eraseP (· ∉ active) = l ++ l' := by
        rw [hl, List.eraseP_append_right _ (by simpa using hbefore),
          List.eraseP_cons_of_pos (p := (decide <| · ∉ active)) hactive]
      refine ⟨[], entry, entries, rfl, by simp [hl], by simpa using hactive, l, l', hl, ?_⟩
      rw [herase]
      rfl
    case h_2 hnone =>
      obtain ⟨⟨source', rest⟩, hrest, heq⟩ := Option.map_eq_some_iff.1 h
      obtain ⟨rfl, rfl⟩ := Prod.mk.inj heq
      obtain ⟨before, e, after, rfl, hmem, hactive, l, l', hl, rfl⟩ := ih hrest
      exact ⟨entry :: before, e, after, rfl, hmem, hactive, l, l', hl, rfl⟩

def evicted (q : FollowupQueueSummaryState) (source : FollowupRun)
    (entries : List SummaryElision) : FollowupQueueSummaryState :=
  { q with
    summaryElisions := entries
    evictedSummaryCount := q.evictedSummaryCount + 1
    evictedSources := q.evictedSources ++ [source] }

variable {q : FollowupQueueSummaryState}

theorem trim_rule {P : FollowupQueueSummaryState → Prop}
    (hP : ∀ q source entries, P q → evictFirst q.activeSummarySources q.summaryElisions =
      some (source, entries) → P (q.evicted source entries)) (hq : P q) :
    P q.trimSummaryElisionsToCap := by
  unfold trimSummaryElisionsToCap
  generalize q.inactiveCount - q.cap = n
  induction n generalizing q with
  | zero => exact hq
  | succ n ih =>
    unfold evictSources
    split
    case h_1 => exact hq
    case h_2 source entries h => exact ih (hP q source entries hq h)

theorem trim_frame (q : FollowupQueueSummaryState) :
    q.trimSummaryElisionsToCap = { q with
      summaryElisions := q.trimSummaryElisionsToCap.summaryElisions
      evictedSummaryCount := q.trimSummaryElisionsToCap.evictedSummaryCount
      evictedSources := q.trimSummaryElisionsToCap.evictedSources } := by
  apply trim_rule (P := fun q' => q' = { q with
    summaryElisions := q'.summaryElisions
    evictedSummaryCount := q'.evictedSummaryCount
    evictedSources := q'.evictedSources })
  · intro q' source entries hq' _
    unfold evicted
    rw [hq']
  · rfl

section Frame

variable (q : FollowupQueueSummaryState)

@[simp] theorem trim_summaryLines : q.trimSummaryElisionsToCap.summaryLines = q.summaryLines := by
  rw [trim_frame]

@[simp] theorem trim_summarySources :
    q.trimSummaryElisionsToCap.summarySources = q.summarySources := by
  rw [trim_frame]

end Frame

/-- An elision before its trim: the compact copy of `item` is listed, and active if `item` is. -/
def elided (q : FollowupQueueSummaryState) (item : FollowupRun) : FollowupQueueSummaryState :=
  { q with
    summaryElisions := q.pushElision contextKey item
    nextElisionId := q.nextElisionId + 1
    activeSummarySources :=
      if item ∈ q.activeSummarySources then
        createOverflowSummaryRetrySource item :: q.activeSummarySources
      else q.activeSummarySources }

theorem pushElision_cases (q : FollowupQueueSummaryState) (item : FollowupRun) :
    (∃ before last, q.summaryElisions = before ++ [last] ∧ last.contextKey = contextKey item ∧
      q.pushElision contextKey item = before ++ [{ last with
        count := last.count + 1
        sources := last.sources ++ [createOverflowSummaryRetrySource item]
        sourceRefs := (item, createOverflowSummaryRetrySource item) :: last.sourceRefs }]) ∨
    q.pushElision contextKey item = q.summaryElisions ++
      [{ id := q.nextElisionId
         contextKey := contextKey item
         count := 1
         sources := [createOverflowSummaryRetrySource item]
         sourceRefs := [(item, createOverflowSummaryRetrySource item)] }] := by
  unfold pushElision
  split
  case h_1 last hlast =>
    have hsplit := List.dropLast_append_getLast? last hlast
    split_ifs with hkey
    · exact .inl ⟨q.summaryElisions.dropLast, last, hsplit.symm, hkey, rfl⟩
    · exact .inr rfl
  case h_2 hlast => exact .inr (by rw [List.getLast?_eq_none_iff.1 hlast]; rfl)

theorem elidedSources_pushElision (q : FollowupQueueSummaryState) (item : FollowupRun) :
    elidedSources (q.pushElision contextKey item) =
      elidedSources q.summaryElisions ++ [createOverflowSummaryRetrySource item] := by
  obtain ⟨before, last, hq, -, hpush⟩ | hpush := pushElision_cases contextKey q item
  · rw [hpush, hq]
    simp
  · rw [hpush]
    simp

theorem elide_rule {P : List FollowupRun → FollowupQueueSummaryState → Prop}
    (helided : ∀ item items q, P (item :: items) q → P items (q.elided contextKey item))
    (htrim : ∀ items q, P items q → P items q.trimSummaryElisionsToCap) {items : List FollowupRun}
    (hq : P items q) : P [] (items.foldl (fun q item => q.elideSource contextKey item) q) := by
  induction items generalizing q with
  | nil => exact hq
  | cons item items ih => exact ih (htrim items _ (helided item items q hq))

theorem buildQueueSummaryPrompt_eq_some {dropPolicy : QueueDropPolicy} {droppedCount : Nat}
    {lines : List String} {prompt : String}
    (h : buildQueueSummaryPrompt dropPolicy droppedCount lines = some prompt) :
    dropPolicy = .summarize ∧ droppedCount ≠ 0 := by
  by_cases hnone : dropPolicy ≠ .summarize ∨ droppedCount = 0
  · rw [buildQueueSummaryPrompt, if_pos hnone] at h
    cases h
  · exact ⟨not_not.1 fun hne => hnone (.inl hne), fun hzero => hnone (.inr hzero)⟩

/-- A delivery of the first entry: its live sources and, if it is the only entry, the retained ones
of the same context. -/
structure ElidedDelivery (q : FollowupQueueSummaryState) (d : SummaryRun) (entry : SummaryElision)
    (retained : List FollowupRun) : Prop where
  dropPolicy_eq : q.dropPolicy = .summarize
  retained_sublist : retained.Sublist q.summarySources
  retained_key : ∀ source ∈ retained, contextKey source = entry.contextKey
  live_ne_nil : entry.sources.filter (!aborted ·) ≠ []
  protected_eq : d.protectedSources = entry.sources.filter (!aborted ·) ++ retained
  sources_eq : d.delivery.sources = retained
  droppedCount_eq : d.delivery.droppedCount = retained.length
  inherited_eq :
    d.inheritedActiveSources = d.protectedSources.filter (· ∈ q.activeSummarySources)
  elided_eq : d.elided = some (entry.id, (entry.sources.filter (!aborted ·)).length)

theorem takeWhile_group_sublist (q : FollowupQueueSummaryState) :
    (q.resolveOverflowSummarySourceGroup contextKey).Sublist q.summarySources := by
  unfold resolveOverflowSummarySourceGroup
  split
  · exact List.nil_sublist _
  · exact List.takeWhile_sublist _

theorem dropAbortedElided_frame (q : FollowupQueueSummaryState) :
    (q.dropAbortedElided aborted).activeSummarySources = q.activeSummarySources ∧
      (q.dropAbortedElided aborted).dropPolicy = q.dropPolicy := by
  unfold dropAbortedElided
  split <;> exact ⟨rfl, rfl⟩

variable {q' : FollowupQueueSummaryState} {d : SummaryRun}

theorem drainElided_started
    (h : q.drainElidedOverflowSummary contextKey aborted = (q', .started d)) :
    q' = q.dropAbortedElided aborted ∧ ∃ entry entries retained,
      q.summaryElisions = entry :: entries ∧
        ElidedDelivery contextKey aborted q d entry retained := by
  obtain ⟨hactive, hpolicy⟩ := dropAbortedElided_frame aborted q
  unfold drainElidedOverflowSummary at h
  split at h
  case h_1 => cases h
  case h_2 entry entries hq =>
    dsimp only at h
    split at h
    case isTrue => cases h
    case isFalse hlive =>
      split at h
      case h_1 => cases h
      case h_2 prompt hprompt =>
        obtain ⟨rfl, hd⟩ := Prod.mk.inj h
        cases hd
        refine ⟨rfl, entry, entries, _, hq, ?_, ?_, ?_, hlive, rfl, rfl, rfl, ?_, rfl⟩
        · exact hpolicy ▸ (buildQueueSummaryPrompt_eq_some hprompt).1
        · split_ifs
          · exact List.filter_sublist.trans (takeWhile_group_sublist contextKey q)
          · exact List.nil_sublist _
        · intro source hsource
          split_ifs at hsource
          · simpa using (List.mem_filter.1 hsource).2
          · cases hsource
        · rw [hactive]

theorem drainElided_returned {drained : Bool}
    (h : q.drainElidedOverflowSummary contextKey aborted = (q', .returned drained)) :
    q' = q.dropAbortedElided aborted := by
  unfold drainElidedOverflowSummary at h
  split at h
  case h_1 hq =>
    unfold dropAbortedElided
    rw [hq]
    exact (Prod.mk.inj h).1.symm
  case h_2 entry entries hq =>
    dsimp only at h
    split at h
    case isTrue => exact (Prod.mk.inj h).1.symm
    case isFalse =>
      split at h
      case h_1 => exact (Prod.mk.inj h).1.symm
      case h_2 => cases (Prod.mk.inj h).2

/-- A delivery of the retained sources at the front. -/
structure RetainedDelivery (q : FollowupQueueSummaryState) (d : SummaryRun) : Prop where
  dropPolicy_eq : q.dropPolicy = .summarize
  sources_ne_nil : d.delivery.sources ≠ []
  sources_eq : d.delivery.sources = q.resolveOverflowSummarySourceGroup contextKey
  protected_eq : d.protectedSources = d.delivery.sources
  droppedCount_eq : d.delivery.droppedCount = d.delivery.sources.length
  inherited_eq :
    d.inheritedActiveSources = d.protectedSources.filter (· ∈ q.activeSummarySources)
  elided_eq : d.elided = none

theorem drainRetained_started (h : q.drainRetainedSummary contextKey = .started d) :
    RetainedDelivery contextKey q d := by
  unfold drainRetainedSummary at h
  split at h
  case h_1 => cases h
  case h_2 delivery hdelivery =>
    cases h
    unfold createQueueSummaryDelivery at hdelivery
    split_ifs at hdelivery
    obtain ⟨prompt, hprompt, rfl⟩ := Option.map_eq_some_iff.1 hdelivery
    obtain ⟨hpolicy, hcount⟩ := buildQueueSummaryPrompt_eq_some hprompt
    refine ⟨hpolicy, ?_, rfl, rfl, rfl, rfl, rfl⟩
    intro hnil
    exact hcount (congrArg List.length hnil)

theorem consumeElided_eq_some (h : consumeElided source entries = some entries') :
    ∃ before entry after, entries = before ++ entry :: after ∧ entry.holds source ∧
      entries' = before ++ (entry.consume source).keepUnlessEmpty after := by
  induction entries generalizing entries' with
  | nil => cases h
  | cons entry entries ih =>
    unfold consumeElided at h
    split_ifs at h with hholds
    · exact ⟨[], entry, entries, rfl, hholds, (Option.some.inj h).symm⟩
    · obtain ⟨rest, hrest, rfl⟩ := Option.map_eq_some_iff.1 h
      obtain ⟨before, e, after, rfl, hholds', rfl⟩ := ih hrest
      exact ⟨entry :: before, e, after, rfl, hholds', rfl⟩

theorem consume_rule {P : Nat → FollowupQueueSummaryState → Prop}
    (hP : ∀ n source q, P n q → P (n + (q.consumeSource source).1) (q.consumeSource source).2)
    {sources : List FollowupRun} {n : Nat} (hq : P n q) :
    P (n + (consumeSources sources q).1) (consumeSources sources q).2 := by
  induction sources generalizing n q with
  | nil => exact hq
  | cons source sources ih =>
    have h := ih (hP n source q hq)
    rw [Nat.add_assoc] at h
    exact h

theorem consumePrefixOf_eq_some {entryId elidedCount consumed : Nat}
    (h : consumePrefixOf entryId elidedCount entries = some (consumed, entries')) :
    ∃ before entry after, entries = before ++ entry :: after ∧ entry.id = entryId ∧
      consumed = min elidedCount entry.sources.length ∧
      entries' = before ++ (entry.setSources (entry.sources.drop consumed)).keepUnlessEmpty after := by
  induction entries generalizing entries' with
  | nil => cases h
  | cons entry entries ih =>
    unfold consumePrefixOf at h
    split_ifs at h with hid
    · obtain ⟨rfl, rfl⟩ := Prod.mk.inj (Option.some.inj h)
      exact ⟨[], entry, entries, rfl, hid, rfl, rfl⟩
    · obtain ⟨⟨n, rest⟩, hrest, heq⟩ := Option.map_eq_some_iff.1 h
      obtain ⟨rfl, rfl⟩ := Prod.mk.inj heq
      obtain ⟨before, e, after, rfl, hid', hn, rfl⟩ := ih hrest
      exact ⟨entry :: before, e, after, rfl, hid', hn, rfl⟩

end FollowupQueueSummaryState

end OpenClaw.Followup
