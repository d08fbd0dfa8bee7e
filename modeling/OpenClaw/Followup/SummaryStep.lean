import OpenClaw.Followup.Queue

/-!
# What a step does to the overflow summary

`FollowupSystem.next` has many ways to go on, but only a few of them touch the summary state or a
delivery of it. `SummaryStep` lists those once, and `SummaryStep.of_next` reads every step as one of
them, so an invariant of the summary state is proved by the cases of `SummaryStep`.
-/

namespace OpenClaw.Followup

/-- The loop is inside a summary delivery. -/
def Drain.isDelivery : Drain → Bool
  | .delivering _ _ | .elidedDelivered _ => true
  | _ => false

namespace FollowupSystem

/-- `t` differs from `s` in the items and in where the loop is, outside a delivery. -/
structure KeepsSummary (s t : FollowupSystem) : Prop where
  summary : t.queue.summary = s.queue.summary
  isDelivery : t.drain.isDelivery = false
  abortedSignals : t.abortedSignals = s.abortedSignals
  runs : t.runs = s.runs
  arrivals : t.arrivals = s.arrivals
  abortController : t.queue.abortController = s.queue.abortController

/-- The same, before the loop has moved. -/
structure SameContext (s t : FollowupSystem) : Prop where
  summary : t.queue.summary = s.queue.summary
  abortedSignals : t.abortedSignals = s.abortedSignals
  runs : t.runs = s.runs
  arrivals : t.arrivals = s.arrivals
  abortController : t.queue.abortController = s.queue.abortController

theorem SameContext.refl (s : FollowupSystem) : SameContext s s := ⟨rfl, rfl, rfl, rfl, rfl⟩

theorem SameContext.setItems (s : FollowupSystem) (items : List FollowupRun) :
    SameContext s (s.setItems items) := ⟨rfl, rfl, rfl, rfl, rfl⟩

variable {t : FollowupSystem}

theorem SameContext.trans {s u : FollowupSystem} (h : SameContext s t) (h' : SameContext t u) :
    SameContext s u :=
  ⟨h'.summary.trans h.summary, h'.abortedSignals.trans h.abortedSignals, h'.runs.trans h.runs,
    h'.arrivals.trans h.arrivals, h'.abortController.trans h.abortController⟩

theorem SameContext.keeps {s u : FollowupSystem} (h : SameContext s t) (h' : KeepsSummary t u) :
    KeepsSummary s u :=
  ⟨h'.summary.trans h.summary, h'.isDelivery, h'.abortedSignals.trans h.abortedSignals,
    h'.runs.trans h.runs, h'.arrivals.trans h.arrivals, h'.abortController.trans h.abortController⟩

theorem SameContext.goto {s : FollowupSystem} (h : SameContext s t) {drain : Drain}
    (hd : drain.isDelivery = false) : KeepsSummary s (t.goto drain) :=
  h.keeps ⟨rfl, hd, rfl, rfl, rfl, rfl⟩

variable {env : FollowupEnv} (s : FollowupSystem)

/-! ## The control functions -/

theorem keepsSummary_sweep (second : Bool) (n : Nat) : KeepsSummary s (s.sweep second n) := by
  induction n with
  | zero => exact ⟨rfl, rfl, rfl, rfl, rfl, rfl⟩
  | succ n ih =>
    unfold sweep
    split
    · exact ⟨rfl, rfl, rfl, rfl, rfl, rfl⟩
    · split_ifs
      · exact ⟨rfl, rfl, rfl, rfl, rfl, rfl⟩
      · exact ih

theorem keepsSummary_finish : KeepsSummary s s.finish := by
  unfold finish
  split_ifs
  · have hsame : SameContext s { s with forceIndividualCollect := false } :=
      ⟨rfl, rfl, rfl, rfl, rfl⟩
    exact hsame.keeps (keepsSummary_sweep _ _ _)
  · exact ⟨rfl, rfl, rfl, rfl, rfl, rfl⟩
  · exact ⟨rfl, rfl, rfl, rfl, rfl, rfl⟩

theorem keepsSummary_loopHead : KeepsSummary s s.loopHead := by
  unfold loopHead
  split_ifs
  · exact keepsSummary_sweep s _ _
  · exact keepsSummary_finish s

theorem keepsSummary_scheduleFollowupDrain : KeepsSummary s s.scheduleFollowupDrain := by
  have hsame : SameContext s { s with forceIndividualCollect := false } := ⟨rfl, rfl, rfl, rfl, rfl⟩
  exact hsame.keeps (keepsSummary_loopHead _)

theorem keepsSummary_drainNextQueueItem : KeepsSummary s s.drainNextQueueItem := by
  unfold drainNextQueueItem
  split <;> exact ⟨rfl, rfl, rfl, rfl, rfl, rfl⟩

theorem keepsSummary_drainItems : KeepsSummary s (s.drainItems env) := by
  unfold drainItems
  dsimp only
  split_ifs
  · exact ⟨rfl, rfl, rfl, rfl, rfl, rfl⟩
  · have hsame : ∀ forced, SameContext s { s with forceIndividualCollect := forced } :=
      fun _ => ⟨rfl, rfl, rfl, rfl, rfl⟩
    exact (hsame _).keeps (keepsSummary_drainNextQueueItem _)
  · exact keepsSummary_drainNextQueueItem s

theorem keepsSummary_drainGroups (groups : List (List FollowupRun)) :
    KeepsSummary s (s.drainGroups groups) := by
  induction groups generalizing s with
  | nil => exact keepsSummary_loopHead s
  | cons group rest ih =>
    unfold drainGroups
    dsimp only
    split_ifs
    · exact (SameContext.setItems s _).keeps (ih _)
    · exact ((SameContext.setItems s _).trans (SameContext.setItems _ _)).goto rfl
    · exact (SameContext.setItems s _).goto rfl

theorem keepsSummary_drainCollectGroups : KeepsSummary s (s.drainCollectGroups env) := by
  unfold drainCollectGroups
  split
  · exact keepsSummary_finish s
  · exact keepsSummary_drainGroups s _

theorem keepsSummary_resolveGroup (group : List FollowupRun) (rest : List (List FollowupRun))
    (admitted : Bool) : KeepsSummary s (s.resolveGroup group rest admitted) := by
  unfold resolveGroup
  dsimp only
  split_ifs
  · exact (SameContext.setItems s _).keeps (keepsSummary_loopHead _)
  · exact keepsSummary_drainGroups s _
  · exact (SameContext.setItems s _).keeps (keepsSummary_drainGroups _ _)

theorem sameContext_rejectGroup (group : List FollowupRun) (admitted : Bool) :
    SameContext s (s.rejectGroup group admitted) := by
  unfold rejectGroup
  split_ifs
  · exact SameContext.setItems s _
  · exact SameContext.setItems s _
  · exact SameContext.refl s

/-! ## The steps -/

/-- The summary state after the aborted retained sources are gone. -/
def prunedSummary : FollowupQueueSummaryState :=
  (s.queue.summary.dropAbortedQueueSummarySources s.aborted).2

/-- The summary state when a message has been enqueued with these settings: the policy applied to
the items and the overflow elided. -/
def enqueuedSummary (env : FollowupEnv) (settings : QueueSettings) : FollowupQueueSummaryState :=
  (s.makeRoom env (s.queue.applySettings settings)).2.summary

/-- What a step does to the summary state and its deliveries. -/
inductive SummaryStep (env : FollowupEnv) (s t : FollowupSystem) : FollowupEvent → Prop
  /-- The loop has gone on without them. -/
  | kept {e : FollowupEvent} (h : KeepsSummary s t) (hd : s.drain.isDelivery = false) :
    SummaryStep env s t e
  /-- The delivery in flight called `onAdmitted` once more. -/
  | again (h : t = s) : SummaryStep env s t .onAdmitted
  | settings (request : EnqueueRequest)
    (summary : t.queue.summary = s.queue.summary ∨
      t.queue.summary = (s.queue.applySettings request.settings).summary)
    (drain : t.drain = s.drain) (signals : t.abortedSignals = s.abortedSignals)
    (runs : t.runs = s.runs) : SummaryStep env s t (.enqueue request)
  | enqueued (request : EnqueueRequest) (summary : t.queue.summary = s.enqueuedSummary env request.settings)
    (drain : t.drain = s.drain) (signals : t.abortedSignals = s.abortedSignals)
    (runs : t.runs = s.runs) : SummaryStep env s t (.enqueue request)
  | cleared (h : t = s.clearFollowupQueue) : SummaryStep env s t .clear
  | refreshed (params : RefreshParams) (h : t = s.refreshQueuedFollowupSession params) :
    SummaryStep env s t (.refresh params)
  | aborted (signal : SignalId) (h : t = { s with abortedSignals := signal :: s.abortedSignals }) :
    SummaryStep env s t (.abort signal)
  /-- An overflow turn that started no delivery. -/
  | pruned
    (summary : t.queue.summary = s.prunedSummary ∨
      t.queue.summary = s.prunedSummary.reportEvicted ∨
      t.queue.summary = s.prunedSummary.dropAbortedElided s.aborted)
    (hs : s.drain.isDelivery = false) (ht : t.drain.isDelivery = false)
    (signals : t.abortedSignals = s.abortedSignals) (runs : t.runs = s.runs) :
    SummaryStep env s t .resume
  | startedElided (d : SummaryRun) (entry : SummaryElision) (entries : List SummaryElision)
    (retained : List FollowupRun)
    (elisions : s.prunedSummary.summaryElisions = entry :: entries)
    (delivery : FollowupQueueSummaryState.ElidedDelivery (s.contextKey env) s.aborted
      s.prunedSummary d entry retained)
    (summary : t.queue.summary =
      (s.prunedSummary.dropAbortedElided s.aborted).protectSources d.protectedSources)
    (hs : s.drain.isDelivery = false) (ht : t.drain = .delivering d false)
    (signals : t.abortedSignals = s.abortedSignals) (runs : t.runs = s.runs) :
    SummaryStep env s t .resume
  | startedRetained (d : SummaryRun)
    (delivery : FollowupQueueSummaryState.RetainedDelivery (s.contextKey env) s.queue.summary d)
    (summary : t.queue.summary = s.queue.summary.protectSources d.protectedSources)
    (hs : s.drain.isDelivery = false) (ht : t.drain = .delivering d false)
    (signals : t.abortedSignals = s.abortedSignals) (runs : t.runs = s.runs) :
    SummaryStep env s t .resume
  | admitted (d : SummaryRun) (hs : s.drain = .delivering d false) (h : t = s.admitDelivery d) :
    SummaryStep env s t .onAdmitted
  | resolved (d : SummaryRun) (admitted : Bool) (hs : s.drain = .delivering d admitted)
    (h : t = s.resolveDelivery d admitted) : SummaryStep env s t .resolve
  | rejected (d : SummaryRun) (admitted deferred : Bool) (hs : s.drain = .delivering d admitted)
    (h : t = s.rejectDelivery d admitted deferred) : SummaryStep env s t (.reject deferred)
  | finishedElided (d : SummaryRun) (hs : s.drain = .elidedDelivered d) (h : t = s.finishElided d) :
    SummaryStep env s t .resume

theorem makeRoom_lastRun (q : FollowupQueueState) (lastRun : Option RunRef) :
    (s.makeRoom env { q with lastRun := lastRun }).2.summary = (s.makeRoom env q).2.summary := by
  have hpolicy : ({ q with lastRun := lastRun } : FollowupQueueState).applyDropPolicy.2.summary =
      q.applyDropPolicy.2.summary := by
    unfold FollowupQueueState.applyDropPolicy
    split_ifs <;> rfl
  unfold makeRoom
  dsimp only
  rw [hpolicy]
  split_ifs <;> simp [hpolicy]

theorem enqueuedSummary_cases (settings : QueueSettings) :
    let q := s.queue.applySettings settings
    (s.enqueuedSummary env settings = q.summary ∨
      s.enqueuedSummary env settings = q.summary.elideOverflow (s.contextKey env)) ∨
    (q.summary.dropPolicy = .summarize ∧ q.summary.cap ≤ q.items.length ∧
      s.enqueuedSummary env settings =
        (q.summary.summarizeDropped q.overflowItems).elideOverflow (s.contextKey env)) := by
  intro q
  unfold enqueuedSummary makeRoom FollowupQueueState.applyDropPolicy
  by_cases hroom : q.summary.cap = 0 ∨ q.items.length < q.summary.cap
  · rw [if_pos hroom]
    dsimp only
    split_ifs
    · exact .inl (.inr rfl)
    · exact .inl (.inl rfl)
  · rw [if_neg hroom]
    by_cases hnew : q.summary.dropPolicy = .new
    · rw [if_pos hnew]
      dsimp only
      rw [hnew]
      exact .inl (.inl rfl)
    · rw [if_neg hnew]
      by_cases hsummarize : q.summary.dropPolicy = .summarize
      · rw [if_pos hsummarize]
        have hpolicy : (q.summary.summarizeDropped q.overflowItems).dropPolicy = .summarize :=
          hsummarize
        refine .inr ⟨hsummarize, by omega, ?_⟩
        exact congrArg FollowupQueueState.summary (if_pos hpolicy)
      · rw [if_neg hsummarize]
        refine .inl (.inl ?_)
        exact (congrArg FollowupQueueState.summary (if_neg hsummarize)).trans rfl

theorem SummaryStep.of_enqueue (request : EnqueueRequest) :
    SummaryStep env s (s.enqueueFollowupRun env request) (.enqueue request) := by
  unfold enqueueFollowupRun
  dsimp only
  split_ifs
  · exact .settings request (.inl rfl) rfl rfl rfl
  · exact .settings request (.inr rfl) rfl rfl rfl
  · exact .enqueued request (s.makeRoom_lastRun _ _) rfl rfl rfl
  · exact .enqueued request (s.makeRoom_lastRun _ _) rfl rfl rfl

theorem SummaryStep.of_drainOverflow (hs : s.drain.isDelivery = false) :
    SummaryStep env s (s.drainOverflowSummaryGroup env) .resume := by
  unfold drainOverflowSummaryGroup
  dsimp only
  split_ifs
  · exact .pruned (.inl rfl) hs rfl rfl rfl
  · exact .pruned (.inr (.inl rfl)) hs rfl rfl rfl
  · split
    case h_1 summary h =>
      have heq := FollowupQueueSummaryState.drainElided_returned _ _ h
      exact .pruned (.inr (.inr heq)) hs rfl rfl rfl
    case h_2 summary h =>
      have heq := FollowupQueueSummaryState.drainElided_returned _ _ h
      exact .pruned (.inr (.inr heq)) hs rfl rfl rfl
    case h_3 summary d h =>
      obtain ⟨heq, entry, entries, retained, hq, hd⟩ :=
        FollowupQueueSummaryState.drainElided_started _ _ h
      unfold runQueueSummaryDelivery
      split_ifs
      · refine .startedElided d entry entries retained hq hd ?_ hs rfl rfl rfl
        rw [heq]
        rfl
      · exact .pruned (.inr (.inr heq)) hs rfl rfl rfl

theorem SummaryStep.of_drainRetained (hs : s.drain.isDelivery = false) :
    SummaryStep env s (s.drainRetainedSummary env) .resume := by
  unfold drainRetainedSummary
  split
  · exact .kept ⟨rfl, rfl, rfl, rfl, rfl, rfl⟩ hs
  case h_2 d h =>
    have hd := FollowupQueueSummaryState.drainRetained_started _ h
    unfold runQueueSummaryDelivery
    split_ifs
    · exact .startedRetained d hd rfl hs rfl rfl rfl
    · exact .kept ⟨rfl, rfl, rfl, rfl, rfl, rfl⟩ hs

theorem SummaryStep.of_onAdmitted (h : s.onAdmitted = some t) :
    SummaryStep env s t .onAdmitted := by
  unfold onAdmitted at h
  cases hd : s.drain with
  | delivering d admitted =>
    simp only [hd] at h
    split_ifs at h with _ hadmitted
    · exact .again (Option.some.inj h).symm
    · have hfalse : admitted = false := by simpa using hadmitted
      exact .admitted d (hfalse ▸ hd) (Option.some.inj h).symm
  | running item _ =>
    simp only [hd, Option.some.injEq] at h
    subst h
    exact .kept ⟨rfl, rfl, rfl, rfl, rfl, rfl⟩ (by rw [hd]; rfl)
  | runningGroup group rest _ =>
    simp only [hd] at h
    split_ifs at h
    cases h
    exact .kept ⟨rfl, rfl, rfl, rfl, rfl, rfl⟩ (by rw [hd]; rfl)
  | idle | dropping _ _ _ | dropped _ | debouncing | elidedDelivered _ | elidedSkipped
  | summaryDone _ | collectSkipped | breaking | failed _ => simp [hd] at h

theorem SummaryStep.of_resolve (h : s.resolve = some t) : SummaryStep env s t .resolve := by
  unfold resolve at h
  cases hd : s.drain with
  | delivering d admitted =>
    simp only [hd, Option.some.injEq] at h
    exact .resolved d admitted hd h.symm
  | dropping second index _ =>
    simp only [hd, Option.some.injEq] at h
    subst h
    exact .kept ((SameContext.setItems s _).keeps (keepsSummary_sweep _ _ _)) (by rw [hd]; rfl)
  | running _ _ =>
    simp only [hd, Option.some.injEq] at h
    subst h
    exact .kept (keepsSummary_loopHead s) (by rw [hd]; rfl)
  | runningGroup group rest admitted =>
    simp only [hd, Option.some.injEq] at h
    subst h
    exact .kept (keepsSummary_resolveGroup s _ _ _) (by rw [hd]; rfl)
  | idle | dropped _ | debouncing | elidedDelivered _ | elidedSkipped | summaryDone _
  | collectSkipped | breaking | failed _ => simp [hd] at h

theorem SummaryStep.of_reject {deferred : Bool} (h : s.reject deferred = some t) :
    SummaryStep env s t (.reject deferred) := by
  unfold reject at h
  cases hd : s.drain with
  | delivering d admitted =>
    simp only [hd, Option.some.injEq] at h
    exact .rejected d admitted deferred hd h.symm
  | dropping _ _ _ =>
    simp only [hd, Option.some.injEq] at h
    subst h
    exact .kept ⟨rfl, rfl, rfl, rfl, rfl, rfl⟩ (by rw [hd]; rfl)
  | running item _ =>
    simp only [hd, Option.some.injEq] at h
    subst h
    have hsame : SameContext s (if s.canRestore then s.setItems (item :: s.queue.items) else s) := by
      split_ifs
      · exact SameContext.setItems s _
      · exact SameContext.refl s
    exact .kept (hsame.goto rfl) (by rw [hd]; rfl)
  | runningGroup group _ admitted =>
    simp only [hd, Option.some.injEq] at h
    subst h
    exact .kept ((sameContext_rejectGroup s group admitted).goto rfl) (by rw [hd]; rfl)
  | idle | dropped _ | debouncing | elidedDelivered _ | elidedSkipped | summaryDone _
  | collectSkipped | breaking | failed _ => simp [hd] at h

theorem SummaryStep.of_resume (h : s.resume env = some t) : SummaryStep env s t .resume := by
  unfold resume at h
  cases hd : s.drain with
  | dropped second =>
    have hs : s.drain.isDelivery = false := by rw [hd]; rfl
    cases second with
    | false =>
      simp only [hd, Option.some.injEq] at h
      subst h
      split_ifs
      · exact .kept ⟨rfl, rfl, rfl, rfl, rfl, rfl⟩ hs
      · exact .kept (keepsSummary_finish s) hs
    | true =>
      simp only [hd, Option.some.injEq] at h
      subst h
      split_ifs
      · exact .of_drainOverflow s hs
      · exact .kept (keepsSummary_drainItems s) hs
      · exact .kept (keepsSummary_finish s) hs
  | debouncing =>
    simp only [hd, Option.some.injEq] at h
    subst h
    exact .kept (keepsSummary_sweep s _ _) (by rw [hd]; rfl)
  | elidedDelivered d =>
    simp only [hd, Option.some.injEq] at h
    exact .finishedElided d hd h.symm
  | elidedSkipped =>
    simp only [hd, Option.some.injEq] at h
    subst h
    exact .of_drainRetained s (by rw [hd]; rfl)
  | summaryDone drained =>
    have hs : s.drain.isDelivery = false := by rw [hd]; rfl
    cases drained with
    | true =>
      simp only [hd, Option.some.injEq] at h
      subst h
      exact .kept (keepsSummary_loopHead s) hs
    | false =>
      simp only [hd, Option.some.injEq] at h
      subst h
      exact .kept (keepsSummary_drainItems s) hs
  | collectSkipped =>
    simp only [hd, Option.some.injEq] at h
    subst h
    exact .kept (keepsSummary_drainCollectGroups s) (by rw [hd]; rfl)
  | breaking | failed _ =>
    simp only [hd, Option.some.injEq] at h
    subst h
    exact .kept (keepsSummary_finish s) (by rw [hd]; rfl)
  | idle | dropping _ _ _ | delivering _ _ | running _ _ | runningGroup _ _ _ => simp [hd] at h

/-- **Every step is one of them.** -/
theorem SummaryStep.of_next {s : FollowupSystem} {e : FollowupEvent} (h : s.next env e = some t) :
    SummaryStep env s t e := by
  cases e with
  | enqueue request =>
    simp only [next] at h
    split_ifs at h
    exact Option.some.inj h ▸ .of_enqueue s request
  | schedule =>
    simp only [next] at h
    split at h
    case h_1 hd =>
      split_ifs at h
      exact Option.some.inj h ▸ .kept (keepsSummary_scheduleFollowupDrain s) (by rw [hd]; rfl)
    case h_2 => cases h
  | clear =>
    simp only [next] at h
    split_ifs at h
    exact .cleared (Option.some.inj h).symm
  | refresh params =>
    simp only [next] at h
    split_ifs at h
    exact .refreshed params (Option.some.inj h).symm
  | abort signal =>
    simp only [next] at h
    split_ifs at h
    exact .aborted signal (Option.some.inj h).symm
  | onAdmitted => exact .of_onAdmitted s h
  | resolve => exact .of_resolve s h
  | reject deferred => exact .of_reject s h
  | resume => exact .of_resume s h

end FollowupSystem

end OpenClaw.Followup
