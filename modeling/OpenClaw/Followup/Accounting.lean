import Mathlib.Data.List.InsertIdx
import OpenClaw.Followup.SummaryStep

/-!
# Overflow accounting

`droppedCount` is kept apart from the sources it counts: ten operations change the counter, the two
parallel arrays and the entries separately, by reference, by index or by number.

**Theorem (`overflow_accounted`).** In every reachable state the counter is the number of retained
sources, elided sources and evicted ones; every line is that of the source at its index; every
entry counts its sources and has one; and no `Math.max(0, …)` has ever changed a value.

`Counts n` is the invariant inside an operation, when `n` sources are gone from the lists that the
counter still has. Taking one source away raises `n`, and `lowerDroppedCount n` settles it.
-/

namespace OpenClaw.Followup

namespace FollowupQueueSummaryState

open SummaryElision

/-- The counter is right but for `n` sources that are no longer listed. -/
structure Counts (n : Nat) (q : FollowupQueueSummaryState) : Prop where
  dropped : q.droppedCount =
    q.summarySources.length + (elidedSources q.summaryElisions).length + q.evictedSummaryCount + n
  entries : ∀ entry ∈ q.summaryElisions,
    entry.count = entry.sources.length ∧ entry.sources ≠ []
  evictedCount : q.evictedSummaryCount = q.evictedSources.length
  clamped : q.clamped = false

/-- Every line is the line of the source at its index. -/
def LinesMatch (q : FollowupQueueSummaryState) : Prop :=
  q.summaryLines = q.summarySources.map summaryLineOf

/-- The accounting invariant. -/
structure Accounted (q : FollowupQueueSummaryState) : Prop where
  counts : Counts 0 q
  lines : LinesMatch q

variable {q : FollowupQueueSummaryState} {n : Nat}

/-! ## Counters and entries -/

variable {k : Nat}

theorem Counts.lower (h : Counts (n + k) q) : Counts n (q.lowerDroppedCount k) := by
  have hdropped := h.dropped
  refine ⟨?_, h.entries, h.evictedCount, ?_⟩
  · show q.droppedCount - k = _
    simp only [lowerDroppedCount]
    omega
  · show (q.clamped || decide (q.droppedCount < k)) = false
    rw [h.clamped, Bool.false_or, decide_eq_false_iff_not]
    omega

variable {entry : SummaryElision} {entries : List SummaryElision}

theorem counted_keepUnlessEmpty (hentry : entry.count = entry.sources.length)
    (h : ∀ e ∈ entries, e.count = e.sources.length ∧ e.sources ≠ []) :
    ∀ e ∈ entry.keepUnlessEmpty entries, e.count = e.sources.length ∧ e.sources ≠ [] := by
  intro e he
  rcases mem_keepUnlessEmpty.1 he with ⟨rfl, hne⟩ | he
  · exact ⟨hentry, hne⟩
  · exact h e he

theorem counted_splice {before after : List SummaryElision} {rest : SummaryElision}
    (h : ∀ e ∈ before ++ entry :: after, e.count = e.sources.length ∧ e.sources ≠ [])
    (hrest : rest.count = rest.sources.length) :
    ∀ e ∈ before ++ rest.keepUnlessEmpty after, e.count = e.sources.length ∧ e.sources ≠ [] := by
  intro e he
  rcases List.mem_append.1 he with he | he
  · exact h e (by simp [he])
  · exact counted_keepUnlessEmpty hrest (fun e he => h e (by simp [he])) e he

theorem Counts.evicted {source : FollowupRun} (h : Counts n q)
    (he : evictFirst q.activeSummarySources q.summaryElisions = some (source, entries)) :
    Counts n (q.evicted source entries) := by
  obtain ⟨before, entry, after, hq, -, -, l, l', hl, rfl⟩ := evictFirst_eq_some he
  have hdropped := h.dropped
  have hcounted := h.entries
  rw [hq] at hdropped hcounted
  refine ⟨?_, counted_splice hcounted rfl, ?_, h.clamped⟩
  · simp only [elidedSources_append, elidedSources_cons, hl, List.length_append,
      List.length_cons] at hdropped
    simp only [FollowupQueueSummaryState.evicted, elidedSources_append,
      elidedSources_keepUnlessEmpty, setSources_sources, List.length_append]
    omega
  · simp only [FollowupQueueSummaryState.evicted, List.length_append, List.length_singleton,
      h.evictedCount]

theorem Counts.trim (h : Counts n q) : Counts n q.trimSummaryElisionsToCap :=
  trim_rule (fun _ _ _ h he => h.evicted he) h

variable {contextKey : FollowupRun → List Char}

theorem Counts.elided (item : FollowupRun) (h : Counts (n + 1) q) :
    Counts n (q.elided contextKey item) := by
  have hdropped := h.dropped
  refine ⟨?_, ?_, h.evictedCount, h.clamped⟩
  · simp only [FollowupQueueSummaryState.elided, elidedSources_pushElision, List.length_append,
      List.length_singleton]
    omega
  · simp only [FollowupQueueSummaryState.elided]
    obtain ⟨before, last, hq, -, hpush⟩ | hpush := pushElision_cases contextKey q item
    · have hentries := h.entries
      rw [hq] at hentries
      rw [hpush]
      intro e he
      rcases List.mem_append.1 he with he | he
      · exact hentries e (by simp [he])
      · rw [List.mem_singleton.1 he]
        have hlast := hentries last (by simp)
        exact ⟨by simp [hlast.1], by simp⟩
    · rw [hpush]
      intro e he
      rcases List.mem_append.1 he with he | he
      · exact h.entries e he
      · rw [List.mem_singleton.1 he]
        exact ⟨rfl, by simp⟩

theorem Counts.consumeSource (source : FollowupRun) (h : Counts n q) :
    Counts (n + (q.consumeSource source).1) (q.consumeSource source).2 := by
  have hdropped := h.dropped
  unfold FollowupQueueSummaryState.consumeSource
  split_ifs with hmem
  · have hpos := List.length_pos_of_mem hmem
    refine ⟨?_, h.entries, h.evictedCount, h.clamped⟩
    simp only [List.length_erase_of_mem hmem]
    omega
  · split
    case h_2 => exact h
    case h_1 entries he =>
      obtain ⟨before, entry, after, hq, -, rfl⟩ := consumeElided_eq_some he
      have hcounted := h.entries
      rw [hq] at hcounted hdropped
      refine ⟨?_, counted_splice hcounted rfl, h.evictedCount, h.clamped⟩
      have hlen := length_consume_sources (hcounted entry (by simp)).2 source
      simp only [elidedSources_append, elidedSources_cons, elidedSources_keepUnlessEmpty,
        List.length_append] at hdropped ⊢
      omega

theorem Counts.consumeQueueSummaryDelivery {delivery : QueueSummaryDelivery}
    (hd : delivery.sources = [] → delivery.droppedCount = 0) (h : Counts 0 q) :
    Counts 0 (q.consumeQueueSummaryDelivery delivery) := by
  have hbase : (if delivery.sources = [] then delivery.droppedCount else 0) = 0 := by
    split_ifs with hnil
    · exact hd hnil
    · rfl
  unfold FollowupQueueSummaryState.consumeQueueSummaryDelivery
  dsimp only
  rw [hbase, Nat.zero_add]
  exact Counts.lower (n := 0)
    (consume_rule (P := Counts) (n := 0) (fun _ source _ h => h.consumeSource source) h)

theorem Counts.consumeElidedPrefix (entryId elidedCount : Nat) (h : Counts 0 q) :
    Counts 0 (q.consumeElidedPrefix entryId elidedCount) := by
  unfold FollowupQueueSummaryState.consumeElidedPrefix
  split
  case h_1 => exact h
  case h_2 consumed entries he =>
    obtain ⟨before, entry, after, hq, -, hconsumed, rfl⟩ := consumePrefixOf_eq_some he
    have hdropped := h.dropped
    have hcounted := h.entries
    rw [hq] at hdropped hcounted
    refine Counts.lower ⟨?_, counted_splice hcounted rfl, h.evictedCount, h.clamped⟩
    simp only [elidedSources_append, elidedSources_cons, elidedSources_keepUnlessEmpty,
      setSources_sources, List.length_append, List.length_drop] at hdropped ⊢
    omega

theorem Counts.dropAbortedElided (aborted : FollowupRun → Bool) (h : Counts 0 q) :
    Counts 0 (q.dropAbortedElided aborted) := by
  unfold FollowupQueueSummaryState.dropAbortedElided
  split
  case h_1 => exact h
  case h_2 entry entries hq =>
    have hdropped := h.dropped
    have hcounted := h.entries
    rw [hq] at hdropped hcounted
    have hentry := (hcounted entry List.mem_cons_self).1
    have hsplit := List.length_eq_countP_add_countP aborted (l := entry.sources)
    have hfilter : (entry.sources.filter (!aborted ·)).length =
        entry.sources.countP fun source => ¬ aborted source := by
      rw [List.countP_eq_length_filter]
      simp
    refine Counts.lower ⟨?_, ?_, h.evictedCount, ?_⟩
    · simp only [elidedSources_cons, elidedSources_keepUnlessEmpty,
        List.length_append] at hdropped ⊢
      omega
    · refine counted_keepUnlessEmpty ?_ fun e he => hcounted e (by simp [he])
      simp only
      omega
    · rw [h.clamped, Bool.false_or, decide_eq_false_iff_not]
      omega

theorem Counts.reportEvicted (h : Counts 0 q) : Counts 0 q.reportEvicted := by
  have hdropped := h.dropped
  refine Counts.lower ⟨?_, h.entries, rfl, h.clamped⟩
  simp only
  omega

theorem Counts.dropAborted (aborted : FollowupRun → Bool) (h : Counts 0 q) :
    Counts 0 (q.dropAbortedQueueSummarySources aborted).2 := by
  have hdropped := h.dropped
  have hsplit := List.length_eq_countP_add_countP aborted (l := q.summarySources)
  have hfilter : (q.summarySources.filter (!aborted ·)).length =
      q.summarySources.countP fun source => ¬ aborted source := by
    rw [List.countP_eq_length_filter]
    simp
  refine Counts.lower ⟨?_, h.entries, h.evictedCount, h.clamped⟩
  simp only
  omega

theorem length_foldl_replace (sources : List FollowupRun) (listed : List FollowupRun) :
    (sources.foldl (fun listed source =>
      listed.replace source (createOverflowSummaryRetrySource source)) listed).length =
      listed.length := by
  induction sources generalizing listed with
  | nil => rfl
  | cons source sources ih => rw [List.foldl_cons, ih, List.length_replace]

theorem Counts.releaseForRetry (sources : List FollowupRun) (h : Counts n q) :
    Counts n (q.releaseForRetry sources) := by
  refine ⟨?_, h.entries, h.evictedCount, h.clamped⟩
  simp only [FollowupQueueSummaryState.releaseForRetry, length_foldl_replace]
  exact h.dropped

theorem Counts.endDelivery (d : SummaryRun) (deferred : Bool) (h : Counts n q) :
    Counts n (q.endDelivery d deferred) :=
  Counts.trim ⟨h.dropped, h.entries, h.evictedCount, h.clamped⟩

/-! ## Lines -/

theorem dropAbortedLines_map (aborted : FollowupRun → Bool) (sources : List FollowupRun) :
    dropAbortedLines aborted sources (sources.map summaryLineOf) =
      (sources.filter (!aborted ·)).map summaryLineOf := by
  induction sources with
  | nil => rfl
  | cons source sources ih =>
    rw [List.map_cons, dropAbortedLines, ih]
    cases h : aborted source <;> simp [h]

theorem LinesMatch.consumeSource (source : FollowupRun) (h : LinesMatch q) :
    LinesMatch (q.consumeSource source).2 := by
  unfold LinesMatch at h ⊢
  unfold FollowupQueueSummaryState.consumeSource
  split_ifs with hmem
  · simp only [h]
    rw [List.erase_eq_eraseIdx_of_idxOf rfl, ← List.eraseIdx_map]
  · split <;> exact h

theorem LinesMatch.consumeQueueSummaryDelivery (delivery : QueueSummaryDelivery)
    (h : LinesMatch q) : LinesMatch (q.consumeQueueSummaryDelivery delivery) :=
  consume_rule (P := fun _ => LinesMatch) (n := 0) (fun _ source _ h => h.consumeSource source) h

theorem map_replace_retrySource (source : FollowupRun) (listed : List FollowupRun) :
    (listed.replace source (createOverflowSummaryRetrySource source)).map summaryLineOf =
      listed.map summaryLineOf := by
  induction listed with
  | nil => rfl
  | cons item listed ih =>
    rw [List.replace_cons]
    split
    case h_1 h => rw [List.map_cons, List.map_cons, summaryLineOf_retrySource, beq_iff_eq.1 h]
    case h_2 => rw [List.map_cons, List.map_cons, ih]

theorem LinesMatch.releaseForRetry (sources : List FollowupRun) (h : LinesMatch q) :
    LinesMatch (q.releaseForRetry sources) := by
  unfold LinesMatch at h ⊢
  simp only [FollowupQueueSummaryState.releaseForRetry, h]
  generalize q.summarySources = listed
  induction sources generalizing listed with
  | nil => rfl
  | cons source sources ih => rw [List.foldl_cons, ← ih, map_replace_retrySource]

/-! ## The operations -/

theorem Accounted.trim (h : Accounted q) : Accounted q.trimSummaryElisionsToCap := by
  refine ⟨h.counts.trim, ?_⟩
  unfold LinesMatch
  rw [trim_summaryLines, trim_summarySources]
  exact h.lines

theorem accounted_elideOverflow (hcounts : Counts 0 q) (hk : k ≤ q.summarySources.length)
    (hlines : q.summaryLines = (q.summarySources.map summaryLineOf).drop k) :
    Accounted (q.elideOverflow contextKey) := by
  have hoverflow : q.summarySources.length - q.summaryLines.length = k := by
    rw [hlines, List.length_drop, List.length_map]
    omega
  unfold elideOverflow
  rw [hoverflow]
  have hstart : Counts (q.summarySources.take k).length
        { q with summarySources := q.summarySources.drop k } ∧
      LinesMatch { q with summarySources := q.summarySources.drop k } := by
    refine ⟨⟨?_, hcounts.entries, hcounts.evictedCount, hcounts.clamped⟩, ?_⟩
    · have hdropped := hcounts.dropped
      simp only [List.length_take, List.length_drop]
      omega
    · unfold LinesMatch
      rw [List.map_drop]
      exact hlines
  have hrule := elide_rule (P := fun items q => Counts items.length q ∧ LinesMatch q) contextKey
    (fun item items q h => ⟨h.1.elided item, h.2⟩)
    (fun items q h => ⟨h.1.trim, by
      unfold LinesMatch
      rw [trim_summaryLines, trim_summarySources]
      exact h.2⟩)
    hstart
  exact ⟨hrule.1, hrule.2⟩

theorem accounted_elideOverflow_self (h : Accounted q) : Accounted (q.elideOverflow contextKey) :=
  accounted_elideOverflow h.counts (Nat.zero_le _) h.lines

theorem accounted_elideOverflow_summarized (dropped : List FollowupRun) (h : Accounted q) :
    Accounted ((q.summarizeDropped dropped).elideOverflow contextKey) := by
  have hdropped := h.counts.dropped
  have hlines : (q.summarizeDropped dropped).summaryLines =
      ((q.summarizeDropped dropped).summarySources.map summaryLineOf).drop
        ((q.summaryLines ++ dropped.map summaryLineOf).length - q.cap) := by
    simp only [summarizeDropped, List.map_append]
    rw [← h.lines]
  refine accounted_elideOverflow ⟨?_, h.counts.entries, h.counts.evictedCount, h.counts.clamped⟩
    ?_ hlines
  · simp only [summarizeDropped, List.length_append]
    omega
  · have hlength := congrArg List.length h.lines
    simp only [summarizeDropped, List.length_append, List.length_map] at hlength ⊢
    omega

theorem Accounted.prunedSummary {s : FollowupSystem} (h : Accounted s.queue.summary) :
    Accounted s.prunedSummary := by
  refine ⟨h.counts.dropAborted _, ?_⟩
  show dropAbortedLines s.aborted s.queue.summary.summarySources s.queue.summary.summaryLines = _
  rw [h.lines]
  exact dropAbortedLines_map _ _

theorem Accounted.dropAbortedElided (aborted : FollowupRun → Bool) (h : Accounted q) :
    Accounted (q.dropAbortedElided aborted) := by
  refine ⟨h.counts.dropAbortedElided aborted, ?_⟩
  have hlines := h.lines
  unfold FollowupQueueSummaryState.dropAbortedElided
  split <;> exact hlines

theorem Accounted.endDelivery (d : SummaryRun) (deferred : Bool) (h : Accounted q) :
    Accounted (q.endDelivery d deferred) := by
  refine ⟨h.counts.endDelivery d deferred, ?_⟩
  unfold LinesMatch FollowupQueueSummaryState.endDelivery
  rw [trim_summaryLines, trim_summarySources]
  exact h.lines

end FollowupQueueSummaryState

namespace FollowupSystem

open FollowupQueueSummaryState

/-! ## Every run -/

/-- A delivery in flight has sources, and without retained ones it has none to subtract. -/
def DeliveryAccounted : Drain → Prop
  | .delivering d _ =>
    (d.delivery.sources = [] → d.delivery.droppedCount = 0) ∧ d.protectedSources ≠ []
  | _ => True

theorem deliveryAccounted_of_not_isDelivery {drain : Drain} (h : drain.isDelivery = false) :
    DeliveryAccounted drain := by
  cases drain <;> simp_all [DeliveryAccounted, Drain.isDelivery]

/-- The invariant of the accounting, over the queue and the delivery in flight. -/
def AccountingInv (s : FollowupSystem) : Prop :=
  Accounted s.queue.summary ∧ DeliveryAccounted s.drain

variable {env : FollowupEnv} {s t : FollowupSystem} {e : FollowupEvent}

theorem accounted_settings {q : FollowupQueueState} (settings : QueueSettings)
    (h : Accounted q.summary) : Accounted (q.applySettings settings).summary := by
  apply Accounted.trim
  exact ⟨⟨h.counts.dropped, h.counts.entries, h.counts.evictedCount, h.counts.clamped⟩, h.lines⟩

theorem accounted_enqueued (settings : QueueSettings) (h : Accounted s.queue.summary) :
    Accounted (s.enqueuedSummary env settings) := by
  have hq := accounted_settings settings h
  rcases s.enqueuedSummary_cases settings with (heq | heq) | ⟨-, -, heq⟩ <;> rw [heq]
  · exact hq
  · exact accounted_elideOverflow_self hq
  · exact accounted_elideOverflow_summarized _ hq

variable {d : SummaryRun} {admitted : Bool}

theorem accounted_resolveDelivery (h : Accounted s.queue.summary)
    (hd : d.delivery.sources = [] → d.delivery.droppedCount = 0) :
    Accounted (s.resolveDelivery d admitted).queue.summary := by
  apply Accounted.endDelivery
  split_ifs with hadmitted hcanceled
  · exact h
  · exact ⟨h.counts.consumeQueueSummaryDelivery hd, h.lines.consumeQueueSummaryDelivery _⟩
  · exact ⟨h.counts.consumeQueueSummaryDelivery fun hnil => absurd hnil hcanceled,
      h.lines.consumeQueueSummaryDelivery _⟩

theorem accounted_rejectDelivery {deferred : Bool} (h : Accounted s.queue.summary) :
    Accounted (s.rejectDelivery d admitted deferred).queue.summary := by
  apply Accounted.endDelivery
  split_ifs
  · exact h
  · exact ⟨h.counts.releaseForRetry _, h.lines.releaseForRetry _⟩

/-- **One step keeps the accounting.** -/
theorem accountingInv_step (hs : AccountingInv s) (h : s.next env e = some t) :
    AccountingInv t := by
  obtain ⟨hq, hd⟩ := hs
  cases SummaryStep.of_next h with
  | kept hkeep _ => exact ⟨hkeep.summary ▸ hq, deliveryAccounted_of_not_isDelivery hkeep.isDelivery⟩
  | again ht => exact ht ▸ ⟨hq, hd⟩
  | settings request hsummary hdrain _ _ =>
    refine ⟨?_, hdrain ▸ hd⟩
    rcases hsummary with hsummary | hsummary
    · exact hsummary ▸ hq
    · exact hsummary ▸ accounted_settings _ hq
  | enqueued request hsummary hdrain _ _ => exact ⟨hsummary ▸ accounted_enqueued _ hq, hdrain ▸ hd⟩
  | cleared ht =>
    subst ht
    exact ⟨⟨⟨rfl, by simp [clearFollowupQueue], rfl, hq.counts.clamped⟩, rfl⟩, hd⟩
  | refreshed params ht =>
    subst ht
    unfold refreshQueuedFollowupSession
    split_ifs <;> exact ⟨hq, hd⟩
  | aborted signal ht => exact ht ▸ ⟨hq, hd⟩
  | pruned hsummary _ ht _ _ =>
    refine ⟨?_, deliveryAccounted_of_not_isDelivery ht⟩
    have hpruned := hq.prunedSummary
    rcases hsummary with hsummary | hsummary | hsummary
    · exact hsummary ▸ hpruned
    · exact hsummary ▸ ⟨hpruned.counts.reportEvicted, hpruned.lines⟩
    · exact hsummary ▸ hpruned.dropAbortedElided _
  | startedElided d entry entries retained _ hdelivery hsummary _ ht _ _ =>
    refine ⟨?_, ?_⟩
    · obtain ⟨⟨h₁, h₂, h₃, h₄⟩, hlines⟩ := hq.prunedSummary.dropAbortedElided s.aborted
      exact hsummary ▸ ⟨⟨h₁, h₂, h₃, h₄⟩, hlines⟩
    · rw [ht]
      refine ⟨fun hnil => ?_, fun hnil => ?_⟩
      · rw [hdelivery.droppedCount_eq, ← hdelivery.sources_eq, hnil]
        rfl
      · rw [hdelivery.protected_eq] at hnil
        exact hdelivery.live_ne_nil (List.append_eq_nil_iff.1 hnil).1
  | startedRetained d hdelivery hsummary _ ht _ _ =>
    refine ⟨?_, ?_⟩
    · obtain ⟨⟨h₁, h₂, h₃, h₄⟩, hlines⟩ := hq
      exact hsummary ▸ ⟨⟨h₁, h₂, h₃, h₄⟩, hlines⟩
    · rw [ht]
      exact ⟨fun hnil => absurd hnil hdelivery.sources_ne_nil,
        hdelivery.protected_eq ▸ hdelivery.sources_ne_nil⟩
  | admitted d hdrain ht =>
    subst ht
    rw [hdrain] at hd
    exact ⟨⟨hq.counts.consumeQueueSummaryDelivery fun hnil => absurd hnil hd.2,
      hq.lines.consumeQueueSummaryDelivery _⟩, hd⟩
  | resolved d admitted hdrain ht =>
    subst ht
    rw [hdrain] at hd
    refine ⟨accounted_resolveDelivery hq hd.1, ?_⟩
    unfold resolveDelivery
    dsimp only
    split_ifs <;> trivial
  | rejected d admitted deferred hdrain ht =>
    subst ht
    exact ⟨accounted_rejectDelivery hq, trivial⟩
  | finishedElided d hdrain ht =>
    subst ht
    unfold finishElided
    split
    · refine ⟨⟨hq.counts.consumeElidedPrefix _ _, ?_⟩, trivial⟩
      have hlines := hq.lines
      simp only [setSummary, goto, consumeElidedPrefix]
      split <;> exact hlines
    · exact ⟨hq, trivial⟩

theorem accountingInv_reached (hs : Reached env s) : AccountingInv s := by
  refine hs.invariant ?_ fun s e t hs h => accountingInv_step hs h
  rintro s ⟨settings, controller, signals, runs, -, rfl⟩
  exact ⟨⟨⟨rfl, by simp [created], rfl, rfl⟩, rfl⟩, trivial⟩

/-- **Every dropped message is counted once, under its own line.** -/
theorem overflow_accounted (hs : Reached env s) :
    let q := s.queue.summary
    q.droppedCount =
        q.summarySources.length + (q.summaryElisions.map (·.sources.length)).sum +
          q.evictedSummaryCount ∧
      q.summaryLines.length = q.summarySources.length ∧
      (∀ (index : Nat) (source : FollowupRun), q.summarySources[index]? = some source →
        q.summaryLines[index]? = some (summaryLineOf source)) ∧
      (∀ entry ∈ q.summaryElisions, entry.count = entry.sources.length ∧ 0 < entry.count) ∧
      q.clamped = false := by
  intro q
  obtain ⟨⟨hcounts, hlines⟩, -⟩ := accountingInv_reached hs
  refine ⟨?_, ?_, ?_, ?_, hcounts.clamped⟩
  · have hdropped := hcounts.dropped
    rw [elidedSources, List.length_flatMap] at hdropped
    exact hdropped
  · show s.queue.summary.summaryLines.length = _
    rw [hlines, List.length_map]
  · intro index source hsource
    have hline := congrArg (·[index]?) hlines
    simp only [List.getElem?_map] at hline
    exact hline.trans (congrArg (Option.map summaryLineOf) hsource)
  · intro entry hentry
    obtain ⟨hcount, hne⟩ := hcounts.entries entry hentry
    exact ⟨hcount, hcount ▸ List.length_pos_iff.2 hne⟩

/-- Six messages in a queue with room for one, three of them while the first summary is delivered:
one line is kept and the other sources are elided. -/
theorem overflow_accounted_six : ∃ s,
    Lts.run (next plainEnv) smallQueue
        [.message "a", .message "b", .message "c", .schedule, .resume, .resume, .resume,
          .message "d", .message "e", .message "f"] = some s ∧
      s.queue.summary.droppedCount = 5 ∧
      s.queue.summary.summarySources.length + (s.queue.summary.summaryElisions.map
        (·.sources.length)).sum + s.queue.summary.evictedSummaryCount = 5 := by
  have hrun : ((Lts.run (next plainEnv) smallQueue
      [.message "a", .message "b", .message "c", .schedule, .resume, .resume, .resume,
        .message "d", .message "e", .message "f"]).any
      fun s => s.queue.summary.droppedCount = 5) = true := by
    decide +kernel
  obtain ⟨s, hs, hdropped⟩ := (Option.any_eq_true _ _).1 hrun
  have hdropped := of_decide_eq_true hdropped
  exact ⟨s, hs, hdropped, (overflow_accounted (smallQueue_reached hs)).1 ▸ hdropped⟩

end FollowupSystem

end OpenClaw.Followup
