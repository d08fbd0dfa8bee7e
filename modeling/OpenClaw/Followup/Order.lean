import OpenClaw.Followup.Queue

/-!
# Order and single delivery of queued messages

A message waits in `items` until the loop takes it out for a run, alone or in a collect group, and it
comes back to the front when the run fails before it was admitted. `live` are the messages that wait
or would come back.

**Theorem (`followups_in_order`).** The live messages are in arrival order and pairwise different. A
message leaves them only because its run resolved unaborted, its group was admitted, it was aborted,
the overflow policy dropped it, or the queue was cleared; and once its run is over it never runs
again.

One step is left out: `dropAbortedFollowups` removes by an index it computed before its await, and a
recorded run is one where that index still finds an aborted item or none (`DropsAborted`).
-/

namespace OpenClaw.Followup

/-- The messages that the run in flight would give back. -/
def Drain.inFlight : Drain → List FollowupRun
  | .running item _ => [item]
  | .runningGroup group _ false => group
  | _ => []

/-- The messages that the run in flight was handed. -/
def Drain.handed : Drain → List FollowupRun
  | .dropping _ _ item => [item]
  | .running item _ => [item]
  | .runningGroup group _ _ => group
  | _ => []

def InOrder (items : List FollowupRun) : Prop := items.Pairwise (·.origin < ·.origin)

variable {items : List FollowupRun}

theorem InOrder.nodup (h : InOrder items) : items.Nodup :=
  h.imp fun hlt heq => absurd (heq ▸ hlt) (lt_irrefl _)

variable {y : FollowupRun}

variable {x : FollowupRun}

/-- The messages of a batch come before everything else that waits. -/
structure Ahead (batch items : List FollowupRun) (arrivals : Nat) : Prop where
  inOrder : InOrder batch
  old : ∀ x ∈ batch, x.origin < arrivals
  first : ∀ y ∈ items, ∀ x ∈ batch, y.origin ≤ x.origin → y ∈ batch

variable {group : List FollowupRun}

theorem mem_diff_group (hnodup : items.Nodup) (aborted : FollowupRun → Bool) :
    y ∈ (items.diff ((group.filter (· ∈ items)).filter aborted)).diff
        ((group.filter (· ∈ items)).filter (!aborted ·)) ↔ y ∈ items ∧ y ∉ group := by
  rw [hnodup.diff.mem_sdiff_iff, hnodup.mem_sdiff_iff]
  cases haborted : aborted y <;> simp [haborted] <;> tauto

variable {arrivals : Nat}

variable {items' : List FollowupRun}

theorem Ahead.mono {batch : List FollowupRun} {arrivals' : Nat} (h : Ahead batch items arrivals)
    (hitems : ∀ y ∈ items', y ∈ items ∨ arrivals ≤ y.origin) (harrivals : arrivals ≤ arrivals') :
    Ahead batch items' arrivals' := by
  refine ⟨h.inOrder, fun x hx => lt_of_lt_of_le (h.old x hx) harrivals, ?_⟩
  intro y hy x hx hle
  rcases hitems y hy with hy | hfresh
  · exact h.first y hy x hx hle
  · exact absurd (h.old x hx) (by omega)

variable {rest : List (List FollowupRun)}

theorem Ahead.tail (h : Ahead (group :: rest).flatten items arrivals)
    (hsub : ∀ y ∈ items', y ∈ items ∧ y ∉ group) : Ahead rest.flatten items' arrivals := by
  refine ⟨(List.pairwise_append.1 h.inOrder).2.1, fun x hx => h.old x (List.mem_append_right _ hx), ?_⟩
  intro y hy x hx hle
  obtain ⟨hy, hgroup⟩ := hsub y hy
  exact (List.mem_append.1 (h.first y hy x (List.mem_append_right _ hx) hle)).resolve_left hgroup

theorem Ahead.group_lt (h : Ahead (group :: rest).flatten items arrivals) (hx : x ∈ group)
    (hy : y ∈ items) (hgroup : y ∉ group) : x.origin < y.origin := by
  by_contra hle
  have hbatch := h.first y hy x (List.mem_append_left _ hx) (by omega)
  have hrest := (List.mem_append.1 hbatch).resolve_left hgroup
  exact hle ((List.pairwise_append.1 h.inOrder).2.2 x hx y hrest)

namespace FollowupSystem

/-- The messages that wait for a run or would come back from one. -/
def live (s : FollowupSystem) : List FollowupRun := s.drain.inFlight ++ s.queue.items

/-- What an order invariant says about where the loop is. -/
def DrainInOrder (s : FollowupSystem) : Drain → Prop
  | .dropping _ _ item => s.aborted item
  | .runningGroup group rest _ =>
    Ahead rest.flatten s.queue.items s.arrivals ∧ InOrder group ∧
      ∀ x ∈ group, x ∉ s.queue.items ∧ x.origin < s.arrivals
  | _ => True

structure OrderInv (s : FollowupSystem) : Prop where
  inOrder : InOrder s.live
  old : ∀ x ∈ s.live, x.origin < s.arrivals
  signal : ∀ x ∈ s.live, x.queueAbortSignal = some s.queue.abortController
  orphan : s.queue.registered = false →
    s.queue.abortController ∈ s.abortedSignals ∨ s.drain = .idle
  drain : DrainInOrder s s.drain

/-- The same of the items alone, while the loop moves on with nothing in flight. -/
structure ItemsInv (s : FollowupSystem) : Prop where
  inOrder : InOrder s.queue.items
  old : ∀ x ∈ s.queue.items, x.origin < s.arrivals
  signal : ∀ x ∈ s.queue.items, x.queueAbortSignal = some s.queue.abortController
  orphan : s.queue.registered = false → s.queue.abortController ∈ s.abortedSignals

/-- Where the loop has got to from `items`: nothing is lost but aborted items, nothing is added, and
what is handed to a run was there. -/
structure Moved (items : List FollowupRun) (aborted : FollowupRun → Bool) (arrivals : Nat)
    (t : FollowupSystem) : Prop where
  inv : OrderInv t
  back : ∀ x ∈ t.live, x ∈ items
  kept : ∀ x ∈ items, x ∈ t.live ∨ aborted x
  handed : ∀ x ∈ t.drain.handed, x ∈ items
  arrivals_eq : t.arrivals = arrivals

variable {env : FollowupEnv} {s t : FollowupSystem}

theorem ItemsInv.of_sublist (hs : ItemsInv s) (h : items.Sublist s.queue.items) :
    ItemsInv (s.setItems items) :=
  ⟨hs.inOrder.sublist h, fun x hx => hs.old x (h.subset hx), fun x hx => hs.signal x (h.subset hx),
    hs.orphan⟩

theorem OrderInv.itemsInv (hs : OrderInv s) (hdrain : s.drain ≠ .idle) : ItemsInv s where
  inOrder := hs.inOrder.sublist (List.sublist_append_right _ _)
  old x hx := hs.old x (List.mem_append_right _ hx)
  signal x hx := hs.signal x (List.mem_append_right _ hx)
  orphan h := (hs.orphan h).resolve_right hdrain

/-! ## The control functions -/

section

variable (hs : ItemsInv s)
include hs

theorem moved_goto {d : Drain} (hflight : d.inFlight = []) (hdrain : DrainInOrder s d)
    (hhanded : ∀ x ∈ d.handed, x ∈ s.queue.items) :
    Moved s.queue.items s.aborted s.arrivals (s.goto d) := by
  have hlive : (s.goto d).live = s.queue.items := by
    show d.inFlight ++ s.queue.items = _
    rw [hflight, List.nil_append]
  refine ⟨⟨?_, ?_, ?_, fun h => .inl (hs.orphan h), hdrain⟩, ?_, ?_, hhanded, rfl⟩
  · exact hlive ▸ hs.inOrder
  · exact hlive ▸ hs.old
  · exact hlive ▸ hs.signal
  · exact fun x hx => hlive ▸ hx
  · exact fun x hx => .inl (hlive ▸ hx)

theorem moved_sweep (second : Bool) (n : Nat) :
    Moved s.queue.items s.aborted s.arrivals (s.sweep second n) := by
  induction n with
  | zero => exact moved_goto hs rfl trivial (fun x hx => nomatch hx)
  | succ n ih =>
    unfold sweep
    split
    case h_1 => exact moved_goto hs rfl trivial (fun x hx => nomatch hx)
    case h_2 item hitem =>
      split_ifs with haborted
      · refine moved_goto hs rfl haborted fun x hx => ?_
        rw [List.mem_singleton.1 hx]
        exact List.mem_of_getElem? hitem
      · exact ih

theorem moved_finish : Moved s.queue.items s.aborted s.arrivals s.finish := by
  unfold finish
  split_ifs
  · exact moved_sweep (s := { s with forceIndividualCollect := false })
      ⟨hs.inOrder, hs.old, hs.signal, hs.orphan⟩ _ _
  · exact moved_goto hs rfl trivial (fun x hx => nomatch hx)
  · exact ⟨⟨hs.inOrder, hs.old, hs.signal, fun _ => .inr rfl, trivial⟩, fun x hx => hx,
      fun x hx => .inl hx, (fun x hx => nomatch hx), rfl⟩

theorem moved_loopHead : Moved s.queue.items s.aborted s.arrivals s.loopHead := by
  unfold loopHead
  split_ifs
  · exact moved_sweep hs _ _
  · exact moved_finish hs

theorem moved_drainNextQueueItem :
    Moved s.queue.items s.aborted s.arrivals s.drainNextQueueItem := by
  unfold drainNextQueueItem
  split
  case h_1 => exact moved_goto hs rfl trivial (fun x hx => nomatch hx)
  case h_2 item items hitems =>
    have hlive : ((s.setItems items).goto (.running item false)).live = s.queue.items := hitems.symm
    refine ⟨⟨?_, ?_, ?_, fun h => .inl (hs.orphan h), trivial⟩, ?_, ?_, ?_, rfl⟩
    · exact hlive ▸ hs.inOrder
    · exact hlive ▸ hs.old
    · exact hlive ▸ hs.signal
    · exact fun x hx => hlive ▸ hx
    · exact fun x hx => .inl (hlive ▸ hx)
    · intro x hx
      rw [List.mem_singleton.1 hx, hitems]
      exact List.mem_cons_self

theorem moved_drainItems : Moved s.queue.items s.aborted s.arrivals (s.drainItems env) := by
  have hforce : ∀ forced, ItemsInv { s with forceIndividualCollect := forced } :=
    fun _ => ⟨hs.inOrder, hs.old, hs.signal, hs.orphan⟩
  have hnext : ∀ forced, Moved s.queue.items s.aborted s.arrivals
      { s with forceIndividualCollect := forced }.drainNextQueueItem :=
    fun forced => moved_drainNextQueueItem (hforce forced)
  unfold drainItems
  dsimp only
  split_ifs
  · exact moved_goto (hforce false) rfl trivial (fun x hx => nomatch hx)
  · exact hnext _
  · exact moved_drainNextQueueItem hs

end

/-! ## Collect groups -/

theorem moved_drainGroups {groups : List (List FollowupRun)} (hs : ItemsInv s)
    (hahead : Ahead groups.flatten s.queue.items s.arrivals) :
    Moved s.queue.items s.aborted s.arrivals (s.drainGroups groups) := by
  induction groups generalizing s with
  | nil => exact moved_loopHead hs
  | cons group rest ih =>
    have hnodup := hs.inOrder.nodup
    have hdropped := List.diff_sublist s.queue.items
      ((group.filter (· ∈ s.queue.items)).filter s.aborted)
    have hpruned := hs.of_sublist hdropped
    have hmem : ∀ y, y ∈ (s.queue.items.diff ((group.filter (· ∈ s.queue.items)).filter s.aborted)).diff
        ((group.filter (· ∈ s.queue.items)).filter (!s.aborted ·)) ↔ y ∈ s.queue.items ∧ y ∉ group :=
      fun _ => mem_diff_group hnodup s.aborted
    have hkept : ∀ x ∈ s.queue.items, x ∈ s.queue.items.diff
        ((group.filter (· ∈ s.queue.items)).filter s.aborted) ∨ s.aborted x := by
      intro x hx
      cases haborted : s.aborted x with
      | true => exact .inr rfl
      | false => exact .inl (hnodup.mem_sdiff_iff.2 ⟨hx, by simp [haborted]⟩)
    unfold drainGroups
    dsimp only
    split_ifs with hactive hassert
    · -- every message of the group has gone or is aborted
      rw [hactive, List.diff_nil] at hmem
      have hmoved := ih hpruned (hahead.tail fun y hy => (hmem y).1 hy)
      refine ⟨hmoved.inv, fun x hx => hdropped.subset (hmoved.back x hx), ?_,
        fun x hx => hdropped.subset (hmoved.handed x hx), hmoved.arrivals_eq⟩
      intro x hx
      exact (hkept x hx).elim (hmoved.kept x) .inr
    · set active := (group.filter (· ∈ s.queue.items)).filter (!s.aborted ·) with hactive_eq
      set items := (s.queue.items.diff
        ((group.filter (· ∈ s.queue.items)).filter s.aborted)).diff active with hitems_eq
      have hgroup : ∀ x ∈ active, x ∈ group ∧ x ∈ s.queue.items := by
        intro x hx
        obtain ⟨hx, -⟩ := List.mem_filter.1 hx
        simpa using List.mem_filter.1 hx
      have hlive : ∀ x ∈ active ++ items, x ∈ s.queue.items := by
        intro x hx
        rcases List.mem_append.1 hx with hx | hx
        · exact (hgroup x hx).2
        · exact ((hmem x).1 hx).1
      have hbatch : InOrder (group ++ rest.flatten) := hahead.inOrder
      have hactive_inOrder : InOrder active := (List.pairwise_append.1 hbatch).1.sublist
        (List.filter_sublist.trans List.filter_sublist)
      refine ⟨⟨?_, fun x hx => hs.old x (hlive x hx), fun x hx => hs.signal x (hlive x hx),
        fun h => .inl (hs.orphan h), ?_⟩, hlive, ?_, fun x hx => (hgroup x hx).2, rfl⟩
      · refine List.pairwise_append.2 ⟨hactive_inOrder, ?_, ?_⟩
        · exact hs.inOrder.sublist ((List.diff_sublist _ _).trans hdropped)
        · intro x hx y hy
          exact hahead.group_lt (hgroup x hx).1 ((hmem y).1 hy).1 ((hmem y).1 hy).2
      · refine ⟨hahead.tail fun y hy => (hmem y).1 hy, hactive_inOrder, fun x hx =>
          ⟨?_, hs.old x (hgroup x hx).2⟩⟩
        exact fun hitem => ((hmem x).1 hitem).2 (hgroup x hx).1
      · intro x hx
        by_cases hxgroup : x ∈ group
        · cases haborted : s.aborted x with
          | true => exact .inr rfl
          | false =>
            have hmem_active : x ∈ active := by simp [hactive_eq, hxgroup, hx, haborted]
            exact .inl (List.mem_append_left _ hmem_active)
        · exact .inl (List.mem_append_right _ ((hmem x).2 ⟨hx, hxgroup⟩))
    · have hmoved := moved_goto hpruned (d := .failed .admissionOwners) rfl trivial
        (fun x hx => nomatch hx)
      refine ⟨hmoved.inv, fun x hx => hdropped.subset (hmoved.back x hx), ?_,
        (fun x hx => nomatch hx), hmoved.arrivals_eq⟩
      intro x hx
      exact (hkept x hx).elim (hmoved.kept x) .inr

theorem moved_drainCollectGroups (hs : ItemsInv s) :
    Moved s.queue.items s.aborted s.arrivals (s.drainCollectGroups env) := by
  have hflatten := (splitCollectItemsByDeliveryContext_spec (s.contextKey env) s.queue.items).flatten_eq
  unfold drainCollectGroups
  split
  · exact moved_finish hs
  · refine moved_drainGroups hs ?_
    rw [hflatten]
    exact ⟨hs.inOrder, hs.old, fun y hy _ _ _ => hy⟩

/-! ## The steps -/

/-- The message's run is over after the event: its group is admitted, or its run resolves and no
source of it was aborted. -/
inductive RunOver (s : FollowupSystem) : FollowupEvent → FollowupRun → Prop
  | admitted {group : List FollowupRun} {rest : List (List FollowupRun)} {x : FollowupRun}
    (hdrain : s.drain = .runningGroup group rest false) (hx : x ∈ group) : RunOver s .onAdmitted x
  | resolved {item : FollowupRun} {admitted : Bool} (hdrain : s.drain = .running item admitted) :
    RunOver s .resolve item
  | resolvedGroup {group : List FollowupRun} {rest : List (List FollowupRun)} {x : FollowupRun}
    (hdrain : s.drain = .runningGroup group rest false) (hx : x ∈ group)
    (hunaborted : ∀ y ∈ group, s.aborted y = false) : RunOver s .resolve x

/-- Why a message is no longer live after the event. -/
inductive LeftBecause (s : FollowupSystem) : FollowupEvent → FollowupRun → Prop
  | ran {e : FollowupEvent} {x : FollowupRun} (h : RunOver s e x) : LeftBecause s e x
  | aborted {e : FollowupEvent} {x : FollowupRun} (h : s.aborted x) : LeftBecause s e x
  | dropped {request : EnqueueRequest} {x : FollowupRun}
    (hpolicy : (s.queue.applySettings request.settings).summary.dropPolicy ≠ .new)
    (hfull : 0 < (s.queue.applySettings request.settings).summary.cap ∧
      (s.queue.applySettings request.settings).summary.cap ≤ s.queue.items.length)
    (hx : x ∈ (s.queue.applySettings request.settings).overflowItems) :
    LeftBecause s (.enqueue request) x
  | cleared {x : FollowupRun} : LeftBecause s .clear x

/-- The event hands the message to a run. -/
def Hands (e : FollowupEvent) (t : FollowupSystem) (x : FollowupRun) : Prop :=
  x ∈ t.drain.handed ∧ (e = .schedule ∨ e = .resolve ∨ e = .resume)

/-- When the hand-over of an aborted item ends, its index finds an aborted item or none. -/
def DropsAborted (s : FollowupSystem) (e : FollowupEvent) : Prop :=
  e = .resolve → ∀ second index item, s.drain = .dropping second index item →
    ∀ y, s.queue.items[index]? = some y → s.aborted y

/-- What one step does to the live messages. -/
structure OrderStep (s : FollowupSystem) (e : FollowupEvent) (t : FollowupSystem) : Prop where
  inv : OrderInv t
  back : ∀ x ∈ t.live, x ∈ s.live ∨ s.arrivals ≤ x.origin
  arrivals_le : s.arrivals ≤ t.arrivals
  arrived : ∀ n, s.arrivals ≤ n → n < t.arrivals → ∃ x ∈ t.queue.items, x.origin = n
  handed : ∀ x, Hands e t x → x ∈ s.live
  kept : DropsAborted s e → ∀ x ∈ s.live, x ∈ t.live ∨ LeftBecause s e x

variable {e : FollowupEvent}

theorem OrderStep.of_moved (hmoved : Moved items s.aborted s.arrivals t) (hitems : items ⊆ s.live)
    (hkept : DropsAborted s e → ∀ x ∈ s.live, x ∈ items ∨ LeftBecause s e x) : OrderStep s e t where
  inv := hmoved.inv
  back x hx := .inl (hitems (hmoved.back x hx))
  arrivals_le := hmoved.arrivals_eq.ge
  arrived n hle hlt := absurd (hmoved.arrivals_eq ▸ hlt) (by omega)
  handed x hx := hitems (hmoved.handed x hx.1)
  kept hguard x hx := by
    rcases hkept hguard x hx with hx | hx
    · exact (hmoved.kept x hx).imp id .aborted
    · exact .inr hx

theorem OrderStep.of_moved_items (hmoved : Moved s.queue.items s.aborted s.arrivals t)
    (hflight : s.drain.inFlight = []) : OrderStep s e t := by
  have hlive : s.live = s.queue.items := by
    unfold live
    rw [hflight, List.nil_append]
  exact .of_moved hmoved (hlive ▸ List.Subset.refl _) fun _ x hx => .inl (hlive ▸ hx)

variable {x : FollowupRun}

theorem aborted_mono (hsignals : s.abortedSignals ⊆ t.abortedSignals) (h : s.aborted x) :
    t.aborted x := by
  unfold aborted isFollowupRunAborted at h ⊢
  simp only [Bool.or_eq_true, Option.any_eq_true, List.contains_iff_mem] at h ⊢
  exact h.imp (fun ⟨signal, hx, h⟩ => ⟨signal, hx, hsignals h⟩)
    fun ⟨signal, hx, h⟩ => ⟨signal, hx, hsignals h⟩

variable {drain : Drain}

theorem DrainInOrder.mono (h : DrainInOrder s drain)
    (hsignals : s.abortedSignals ⊆ t.abortedSignals)
    (hitems : ∀ y ∈ t.queue.items, y ∈ s.queue.items ∨ s.arrivals ≤ y.origin)
    (harrivals : s.arrivals ≤ t.arrivals) : DrainInOrder t drain := by
  cases drain with
  | dropping second index item => exact aborted_mono hsignals h
  | runningGroup group rest admitted =>
    obtain ⟨hahead, hinOrder, hgroup⟩ := h
    refine ⟨hahead.mono hitems harrivals, hinOrder, fun x hx => ?_⟩
    obtain ⟨hitem, hold⟩ := hgroup x hx
    refine ⟨fun hx => ?_, by omega⟩
    rcases hitems x hx with hx | hfresh
    · exact hitem hx
    · omega
  | idle | dropped _ | debouncing | delivering _ _ | elidedDelivered _ | elidedSkipped
  | summaryDone _ | collectSkipped | running _ _ | breaking | failed _ => trivial

theorem OrderStep.of_flight (hs : OrderInv s) (hitems : t.queue.items = s.queue.items)
    (hflight : t.drain.inFlight = s.drain.inFlight) (hidle : s.drain = .idle → t.drain = .idle)
    (hdrain : DrainInOrder t t.drain) (harrivals : t.arrivals = s.arrivals)
    (hcontroller : t.queue.abortController = s.queue.abortController)
    (hregistered : t.queue.registered = s.queue.registered)
    (hsignals : s.abortedSignals ⊆ t.abortedSignals)
    (hevent : ¬(e = .schedule ∨ e = .resolve ∨ e = .resume)) : OrderStep s e t := by
  have hlive : t.live = s.live := by
    unfold live
    rw [hitems, hflight]
  refine ⟨⟨?_, ?_, ?_, ?_, hdrain⟩, ?_, harrivals.ge, fun n hle hlt => absurd hlt (by omega),
    fun x hx => absurd hx.2 hevent, ?_⟩
  · exact hlive ▸ hs.inOrder
  · exact hlive ▸ harrivals ▸ hs.old
  · exact hlive ▸ hcontroller ▸ hs.signal
  · rw [hregistered, hcontroller]
    exact fun h => (hs.orphan h).imp (fun h => hsignals h) hidle
  · exact fun x hx => .inl (hlive ▸ hx)
  · exact fun _ x hx => .inl (hlive ▸ hx)

theorem OrderStep.of_same (hs : OrderInv s) (hitems : t.queue.items = s.queue.items)
    (hdrain : t.drain = s.drain) (harrivals : t.arrivals = s.arrivals)
    (hcontroller : t.queue.abortController = s.queue.abortController)
    (hregistered : t.queue.registered = s.queue.registered)
    (hsignals : s.abortedSignals ⊆ t.abortedSignals)
    (hevent : ¬(e = .schedule ∨ e = .resolve ∨ e = .resume)) : OrderStep s e t := by
  refine .of_flight hs hitems (hdrain ▸ rfl) (fun h => hdrain.trans h) ?_ harrivals hcontroller
    hregistered hsignals hevent
  rw [hdrain]
  exact hs.drain.mono hsignals (fun y hy => .inl (hitems ▸ hy)) harrivals.ge

/-- The items that stay when room is made for a new one: all of them, or those after the overflow of
a full queue. -/
def RoomMade (q q' : FollowupQueueState) : Prop :=
  q'.items = q.items ∨
    q.summary.dropPolicy ≠ .new ∧ (0 < q.summary.cap ∧ q.summary.cap ≤ q.items.length) ∧
      q.items = q.overflowItems ++ q'.items

theorem makeRoom_items (s : FollowupSystem) (env : FollowupEnv) (q : FollowupQueueState) :
    (s.makeRoom env q).2.abortController = q.abortController ∧
      (s.makeRoom env q).2.registered = q.registered ∧ RoomMade q (s.makeRoom env q).2 ∧
      ((s.makeRoom env q).1 = false → (s.makeRoom env q).2.items = q.items) := by
  have hpolicy : q.applyDropPolicy.2.abortController = q.abortController ∧
      q.applyDropPolicy.2.registered = q.registered ∧ RoomMade q q.applyDropPolicy.2 ∧
      (q.applyDropPolicy.1 = false → q.applyDropPolicy.2.items = q.items) := by
    have hsplit := (List.take_append_drop (q.items.length - q.summary.cap + 1) q.items).symm
    unfold FollowupQueueState.applyDropPolicy
    split_ifs with hroom hnew
    · exact ⟨rfl, rfl, .inl rfl, fun _ => rfl⟩
    · exact ⟨rfl, rfl, .inl rfl, fun _ => rfl⟩
    · exact ⟨rfl, rfl, .inr ⟨hnew, by omega, hsplit⟩, fun h => nomatch h⟩
    · exact ⟨rfl, rfl, .inr ⟨hnew, by omega, hsplit⟩, fun h => nomatch h⟩
  unfold makeRoom
  dsimp only
  split_ifs <;> exact hpolicy

theorem enqueueFollowupRun_items (s : FollowupSystem) (env : FollowupEnv) (request : EnqueueRequest) :
    let t := s.enqueueFollowupRun env request
    (t.drain = s.drain ∧ t.abortedSignals = s.abortedSignals ∧
      t.queue.abortController = s.queue.abortController ∧
      t.queue.registered = s.queue.registered) ∧
      ((t.queue.items = s.queue.items ∧ t.arrivals = s.arrivals) ∨
        ∃ room run, RoomMade (s.queue.applySettings request.settings) room ∧
          t.queue.items = room.items ++ [run] ∧ t.arrivals = s.arrivals + 1 ∧
          run.origin = s.arrivals ∧ run.queueAbortSignal = some s.queue.abortController) := by
  obtain ⟨hcontroller, hregistered, hroom, hrejectedItems⟩ := makeRoom_items s env
    { s.queue.applySettings request.settings with lastRun := some request.run.run }
  intro t
  have ht : t = s.enqueueFollowupRun env request := rfl
  unfold enqueueFollowupRun at ht
  dsimp only at ht
  split_ifs at ht with haborted hrejected hshould
  · rw [ht]
    exact ⟨⟨rfl, rfl, rfl, rfl⟩, .inl ⟨rfl, rfl⟩⟩
  · rw [ht]
    exact ⟨⟨rfl, rfl, rfl, rfl⟩, .inl ⟨rfl, rfl⟩⟩
  · rw [ht]
    exact ⟨⟨rfl, rfl, hcontroller, hregistered⟩,
      .inr ⟨_, _, hroom, rfl, rfl, rfl, congrArg some hcontroller⟩⟩
  · rw [ht]
    exact ⟨⟨rfl, rfl, hcontroller, hregistered⟩,
      .inl ⟨hrejectedItems (by simpa using hshould), rfl⟩⟩

theorem orderStep_enqueue (hs : OrderInv s) (request : EnqueueRequest) :
    OrderStep s (.enqueue request) (s.enqueueFollowupRun env request) := by
  have hevent : ¬(FollowupEvent.enqueue request = .schedule ∨
      FollowupEvent.enqueue request = .resolve ∨ FollowupEvent.enqueue request = .resume) := by simp
  obtain ⟨⟨hdrain, hsignals, hcontroller, hregistered⟩, ⟨hitems, harrivals⟩ | hroom⟩ :=
    enqueueFollowupRun_items s env request
  · exact .of_same hs hitems hdrain harrivals hcontroller hregistered
      (hsignals ▸ List.Subset.refl _) hevent
  · obtain ⟨room, run, hroom, hitems, harrivals, horigin, hsignal⟩ := hroom
    generalize s.enqueueFollowupRun env request = t at *
    have hsub : room.items.Sublist s.queue.items := by
      rcases hroom with heq | ⟨-, -, heq⟩
      · exact heq ▸ List.Sublist.refl _
      · exact (heq : s.queue.items = _ ++ _) ▸ List.sublist_append_right _ _
    have hlive : t.live = s.drain.inFlight ++ room.items ++ [run] := by
      unfold live
      rw [hdrain, hitems, List.append_assoc]
    have holder : (s.drain.inFlight ++ room.items).Sublist s.live :=
      List.Sublist.append_left hsub _
    refine ⟨⟨?_, ?_, ?_, ?_, ?_⟩, ?_, by omega, ?_, fun x hx => absurd hx.2 hevent, ?_⟩
    · rw [hlive]
      refine List.pairwise_append.2 ⟨hs.inOrder.sublist holder, List.pairwise_singleton _ _, ?_⟩
      intro x hx y hy
      rw [List.mem_singleton.1 hy, horigin]
      exact hs.old x (holder.subset hx)
    · intro x hx
      rw [hlive] at hx
      rcases List.mem_append.1 hx with hx | hx
      · have := hs.old x (holder.subset hx)
        omega
      · rw [List.mem_singleton.1 hx]
        omega
    · intro x hx
      rw [hlive] at hx
      rcases List.mem_append.1 hx with hx | hx
      · rw [hcontroller]
        exact hs.signal x (holder.subset hx)
      · rw [List.mem_singleton.1 hx, hcontroller, hsignal]
    · rw [hregistered, hcontroller, hdrain, hsignals]
      exact hs.orphan
    · rw [hdrain]
      refine hs.drain.mono (hsignals ▸ List.Subset.refl _) ?_ (by omega)
      intro y hy
      rw [hitems] at hy
      rcases List.mem_append.1 hy with hy | hy
      · exact .inl (hsub.subset hy)
      · rw [List.mem_singleton.1 hy]
        exact .inr horigin.ge
    · intro x hx
      rw [hlive] at hx
      rcases List.mem_append.1 hx with hx | hx
      · exact .inl (holder.subset hx)
      · rw [List.mem_singleton.1 hx]
        exact .inr horigin.ge
    · intro n hle hlt
      exact ⟨run, by simp [hitems], by omega⟩
    · intro _ x hx
      rw [hlive]
      rcases List.mem_append.1 hx with hx | hx
      · exact .inl (by simp [hx])
      · rcases hroom with heq | ⟨hpolicy, hfull, heq⟩
        · have hx' : x ∈ room.items := heq ▸ hx
          exact .inl (by simp [hx'])
        · have hx' : x ∈ (s.queue.applySettings request.settings).overflowItems ++ room.items :=
            heq ▸ hx
          rcases List.mem_append.1 hx' with hx' | hx'
          · exact .inr (.dropped hpolicy hfull hx')
          · exact .inl (by simp [hx'])

theorem orderStep_clear (hs : OrderInv s) : OrderStep s .clear s.clearFollowupQueue := by
  have hlive : s.clearFollowupQueue.live = s.drain.inFlight := List.append_nil _
  have hsub : s.drain.inFlight.Sublist s.live := List.sublist_append_left _ _
  refine ⟨⟨?_, ?_, ?_, fun _ => .inl List.mem_cons_self, ?_⟩, ?_, le_refl _,
    fun n hle hlt => absurd hle (not_le_of_gt hlt), ?_, fun _ _ _ => .inr .cleared⟩
  · exact hlive ▸ hs.inOrder.sublist hsub
  · exact fun x hx => hs.old x (hsub.subset (hlive ▸ hx))
  · exact fun x hx => hs.signal x (hsub.subset (hlive ▸ hx))
  · exact hs.drain.mono (List.subset_cons_self _ _) (fun y hy => nomatch hy) (le_refl _)
  · exact fun x hx => .inl (hsub.subset (hlive ▸ hx))
  · exact fun x hx => absurd hx.2 (by simp)

theorem aborted_of_not_canRestore (hs : OrderInv s) (hdrain : s.drain ≠ .idle)
    (h : s.canRestore = false) (hx : x ∈ s.live) : s.aborted x := by
  have hsignal : s.queue.abortController ∈ s.abortedSignals := by
    cases hregistered : s.queue.registered with
    | false => exact (hs.orphan hregistered).resolve_right hdrain
    | true => simpa [canRestore, hregistered] using h
  unfold aborted isFollowupRunAborted
  rw [hs.signal x hx]
  simp [hsignal]

theorem restored_items (hs : OrderInv s) {given : List FollowupRun}
    (hgiven : given.Sublist s.drain.inFlight) :
    given.filter (· ∉ s.queue.items) ++ s.queue.items = given ++ s.queue.items ∧
      (given ++ s.queue.items).Sublist s.live := by
  have hsub : (given ++ s.queue.items).Sublist s.live := List.Sublist.append_right hgiven _
  have hnodup := (hs.inOrder.sublist hsub).nodup
  have hfilter : given.filter (· ∉ s.queue.items) = given := by
    rw [List.filter_eq_self]
    intro x hx
    exact decide_eq_true fun hitem => (List.nodup_append'.1 hnodup).2.2 hx hitem
  exact ⟨by rw [hfilter], hsub⟩

theorem moved_setSummary (hs : ItemsInv s) (summary : FollowupQueueSummaryState)
    (hflight : drain.inFlight = []) (hdrain : DrainInOrder s drain) (hhanded : drain.handed = []) :
    Moved s.queue.items s.aborted s.arrivals ((s.setSummary summary).goto drain) :=
  moved_goto (s := s.setSummary summary) ⟨hs.inOrder, hs.old, hs.signal, hs.orphan⟩ hflight
    (by cases drain <;> exact hdrain) (fun x hx => by rw [hhanded] at hx; exact nomatch hx)

theorem orderStep_onAdmitted (hs : OrderInv s) (h : s.onAdmitted = some t) : OrderStep s .onAdmitted t := by
  have hevent : ¬(FollowupEvent.onAdmitted = .schedule ∨ FollowupEvent.onAdmitted = .resolve ∨
      FollowupEvent.onAdmitted = .resume) := by simp
  unfold onAdmitted at h
  split at h
  case h_1 d admitted hdrain =>
    split_ifs at h
    · cases h
      exact .of_same hs rfl rfl rfl rfl rfl (List.Subset.refl _) hevent
    · cases h
      exact .of_flight hs rfl (by rw [hdrain]; rfl) (by rw [hdrain]; exact fun h => nomatch h)
        trivial rfl rfl rfl (List.Subset.refl _) hevent
  case h_2 item _ hdrain =>
    cases h
    exact .of_flight hs rfl (by rw [hdrain]; rfl) (by rw [hdrain]; exact fun h => nomatch h)
      trivial rfl rfl rfl (List.Subset.refl _) hevent
  case h_3 group rest admitted hdrain =>
    split_ifs at h
    cases h
    have hd := hs.drain
    rw [hdrain] at hd
    obtain ⟨hahead, hinOrder, hgroup⟩ := hd
    have hnodup := (hs.inOrder.sublist (List.sublist_append_right _ _)).nodup
    have hdiff := List.diff_sublist s.queue.items group
    have hlive : ((s.setItems (s.queue.items.diff group)).goto
        (.runningGroup group rest true)).live = s.queue.items.diff group := rfl
    have hsub := hdiff.trans (List.sublist_append_right s.drain.inFlight s.queue.items)
    refine ⟨⟨?_, ?_, ?_, ?_, ?_⟩, ?_, le_refl _, fun n hle hlt => absurd hle (not_le_of_gt hlt),
      fun x hx => absurd hx.2 hevent, ?_⟩
    · exact hlive ▸ hs.inOrder.sublist hsub
    · exact fun x hx => hs.old x (hsub.subset (hlive ▸ hx))
    · exact fun x hx => hs.signal x (hsub.subset (hlive ▸ hx))
    · exact fun h => .inl ((hs.orphan h).resolve_right (by rw [hdrain]; exact fun h => nomatch h))
    · exact ⟨hahead.mono (fun y hy => .inl (hdiff.subset hy)) (le_refl _), hinOrder, fun x hx =>
        ⟨fun hitem => (hgroup x hx).1 (hdiff.subset hitem), (hgroup x hx).2⟩⟩
    · exact fun x hx => .inl (hsub.subset (hlive ▸ hx))
    · intro _ x hx
      by_cases hxgroup : x ∈ group
      · cases admitted with
        | false => exact .inr (.ran (.admitted hdrain hxgroup))
        | true =>
          have hitem : x ∈ s.queue.items := by simpa [live, hdrain, Drain.inFlight] using hx
          exact absurd hitem (hgroup x hxgroup).1
      · have hitem : x ∈ s.queue.items := by
          rcases List.mem_append.1 hx with hx | hx
          · cases admitted <;> simp [hdrain, Drain.inFlight, hxgroup] at hx
          · exact hx
        exact .inl (hlive ▸ hnodup.mem_sdiff_iff.2 ⟨hitem, hxgroup⟩)
  case h_4 => cases h

variable {rest : List (List FollowupRun)} {admitted : Bool}

theorem mem_live_runningGroup (hdrain : s.drain = .runningGroup group rest admitted) :
    x ∈ s.live ↔ (admitted = false ∧ x ∈ group) ∨ x ∈ s.queue.items := by
  unfold live
  rw [hdrain]
  cases admitted <;> simp [Drain.inFlight]

theorem orderStep_resolveGroup (hs : OrderInv s)
    (hdrain : s.drain = .runningGroup group rest admitted) :
    OrderStep s .resolve (s.resolveGroup group rest admitted) := by
  have hidle : s.drain ≠ .idle := by
    rw [hdrain]
    exact fun h => nomatch h
  have hitems := hs.itemsInv hidle
  have hmem := fun x => mem_live_runningGroup hdrain (x := x)
  have hd := hs.drain
  rw [hdrain] at hd
  obtain ⟨hahead, -, hgroup⟩ := hd
  have hlive : s.queue.items ⊆ s.live := fun x hx => List.mem_append_right _ hx
  unfold resolveGroup
  dsimp only
  split_ifs with hcanceled hrestore
  · -- the unaborted messages go back to the front
    have hadmitted : admitted = false := by
      cases admitted with
      | false => rfl
      | true => simp at hcanceled
    subst hadmitted
    have hflight : s.drain.inFlight = group := by
      rw [hdrain]
      rfl
    have hgiven : (group.filter (!s.aborted ·)).Sublist s.drain.inFlight :=
      hflight ▸ List.filter_sublist
    obtain ⟨heq, hsub⟩ := restored_items hs hgiven
    unfold restoreGroupItems
    rw [heq]
    have hmoved := moved_loopHead (s := s.setItems (group.filter (!s.aborted ·) ++ s.queue.items))
      ⟨hs.inOrder.sublist hsub, fun x hx => hs.old x (hsub.subset hx),
        fun x hx => hs.signal x (hsub.subset hx), hitems.orphan⟩
    refine .of_moved hmoved hsub.subset fun _ x hx => ?_
    rcases (hmem x).1 hx with ⟨-, hx⟩ | hx
    · cases haborted : s.aborted x with
      | true => exact .inr (.aborted haborted)
      | false => exact .inl (List.mem_append_left _ (by simp [hx, haborted]))
    · exact .inl (List.mem_append_right _ hx)
  · refine .of_moved (moved_drainGroups hitems hahead) hlive fun _ x hx => ?_
    rcases (hmem x).1 hx with ⟨-, hxgroup⟩ | hx
    · refine .inr (.aborted ?_)
      cases haborted : s.aborted x with
      | true => rfl
      | false =>
        have hsurvivors : group.filter (!s.aborted ·) ≠ [] :=
          List.ne_nil_of_mem (List.mem_filter.2 ⟨hxgroup, by simp [haborted]⟩)
        have hlost : s.canRestore = false := by simpa [hsurvivors] using hrestore
        exact haborted ▸ aborted_of_not_canRestore hs hidle hlost hx
    · exact .inl hx
  · have hdiff := List.diff_sublist s.queue.items group
    refine .of_moved (moved_drainGroups (hitems.of_sublist hdiff)
      (hahead.mono (fun y hy => .inl (hdiff.subset hy)) (le_refl _)))
      (fun x hx => hlive (hdiff.subset hx)) fun _ x hx => ?_
    rcases (hmem x).1 hx with ⟨hadmitted, hxgroup⟩ | hx
    · subst hadmitted
      have hnone : group.filter s.aborted = [] := by simpa using hcanceled
      refine .inr (.ran (.resolvedGroup hdrain hxgroup fun y hy => ?_))
      simpa using List.filter_eq_nil_iff.1 hnone y hy
    · exact .inl (hitems.inOrder.nodup.mem_sdiff_iff.2 ⟨hx, fun hxgroup => (hgroup x hxgroup).1 hx⟩)

theorem orderStep_resolve (hs : OrderInv s) (h : s.resolve = some t) : OrderStep s .resolve t := by
  unfold resolve at h
  split at h
  case h_1 second index item hdrain =>
    cases h
    have hitems := hs.itemsInv (by rw [hdrain]; exact fun h => nomatch h)
    have herase := List.eraseIdx_sublist s.queue.items index
    refine .of_moved (moved_sweep (hitems.of_sublist herase) second index)
      (fun x hx => List.mem_append_right _ (herase.subset hx)) fun hguard x hx => ?_
    have hx : x ∈ s.queue.items := by simpa [live, hdrain, Drain.inFlight] using hx
    obtain ⟨k, hk⟩ := List.mem_iff_getElem?.1 hx
    by_cases hindex : k = index
    · exact .inr (.aborted (hguard rfl second index item hdrain x (hindex ▸ hk)))
    · exact .inl (List.mem_eraseIdx_iff_getElem?.2 ⟨k, hindex, hk⟩)
  case h_2 d admitted hdrain =>
    cases h
    have hitems := hs.itemsInv (by rw [hdrain]; exact fun h => nomatch h)
    refine .of_moved_items (moved_setSummary hitems _ ?_ ?_ ?_) (by rw [hdrain]; rfl)
    all_goals split_ifs <;> trivial
  case h_3 item admitted hdrain =>
    cases h
    have hitems := hs.itemsInv (by rw [hdrain]; exact fun h => nomatch h)
    refine .of_moved (moved_loopHead hitems) (fun x hx => List.mem_append_right _ hx)
      fun _ x hx => ?_
    unfold live at hx
    rw [hdrain] at hx
    rcases List.mem_cons.1 hx with rfl | hx
    · exact .inr (.ran (.resolved hdrain))
    · exact .inl hx
  case h_4 group rest admitted hdrain =>
    cases h
    exact orderStep_resolveGroup hs hdrain
  case h_5 => cases h

variable {deferred : Bool}

theorem orderStep_giveBack {cause : FailureCause} (hs : OrderInv s) (hidle : s.drain ≠ .idle)
    {s' : FollowupSystem}
    (hs' : s' = if s.canRestore then s.setItems (s.drain.inFlight ++ s.queue.items) else s) :
    OrderStep s (.reject deferred) (s'.goto (.failed cause)) := by
  have hitems := hs.itemsInv hidle
  split_ifs at hs' with hrestore
  · subst hs'
    have hmoved := moved_goto
      (s := s.setItems (s.drain.inFlight ++ s.queue.items)) (d := .failed cause)
      ⟨hs.inOrder, hs.old, hs.signal, hitems.orphan⟩ rfl trivial (fun x hx => nomatch hx)
    exact .of_moved hmoved (List.Subset.refl _) fun _ x hx => .inl hx
  · subst hs'
    refine .of_moved (moved_goto hitems rfl trivial (fun x hx => nomatch hx))
      (fun x hx => List.mem_append_right _ hx) fun _ x hx => ?_
    exact .inr (.aborted (aborted_of_not_canRestore hs hidle (by simpa using hrestore) hx))

theorem orderStep_reject (hs : OrderInv s) (h : s.reject deferred = some t) :
    OrderStep s (.reject deferred) t := by
  unfold reject at h
  cases hdrain : s.drain with
  | dropping second index item =>
    simp only [hdrain, Option.some.injEq] at h
    subst h
    have hitems := hs.itemsInv (by rw [hdrain]; exact fun h => nomatch h)
    refine .of_moved_items (moved_goto hitems ?_ ?_ ?_) (by rw [hdrain]; rfl)
    · rfl
    · trivial
    · exact fun x hx => nomatch hx
  | delivering d admitted =>
    simp only [hdrain, Option.some.injEq] at h
    subst h
    have hitems := hs.itemsInv (by rw [hdrain]; exact fun h => nomatch h)
    exact .of_moved_items (moved_setSummary hitems _ rfl trivial rfl) (by rw [hdrain]; rfl)
  | running item admitted =>
    simp only [hdrain, Option.some.injEq] at h
    subst h
    exact orderStep_giveBack hs (by rw [hdrain]; exact fun h => nomatch h) (by rw [hdrain]; rfl)
  | runningGroup group rest admitted =>
    simp only [hdrain, Option.some.injEq] at h
    subst h
    have hidle : s.drain ≠ .idle := by
      rw [hdrain]
      exact fun h => nomatch h
    generalize (if deferred = true then FailureCause.deferred else .runFailed) = cause
    unfold rejectGroup
    split_ifs with hadmitted hrestore
    · -- an admitted group is over
      have hitems := hs.itemsInv hidle
      have hd := hs.drain
      rw [hdrain] at hd
      have hdiff := List.diff_sublist s.queue.items group
      refine .of_moved (moved_goto (hitems.of_sublist hdiff) rfl trivial (fun x hx => nomatch hx))
        (fun x hx => List.mem_append_right _ (hdiff.subset hx)) fun _ x hx => ?_
      rcases (mem_live_runningGroup hdrain).1 hx with ⟨hfalse, -⟩ | hx
      · rw [hfalse] at hadmitted
        cases hadmitted
      · exact .inl (hitems.inOrder.nodup.mem_sdiff_iff.2 ⟨hx, fun hgroup => (hd.2.2 x hgroup).1 hx⟩)
    · have hflight : s.drain.inFlight = group := by
        rw [hdrain]
        cases admitted with
        | true => exact absurd rfl hadmitted
        | false => rfl
      refine orderStep_giveBack hs hidle ?_
      rw [if_pos hrestore, restoreGroupItems, hflight,
        (restored_items hs (hflight ▸ List.Sublist.refl _)).1]
    · exact orderStep_giveBack hs hidle (by rw [if_neg hrestore])
  | idle | dropped _ | debouncing | elidedDelivered _ | elidedSkipped | summaryDone _
  | collectSkipped | breaking | failed _ => simp [hdrain] at h

/-! ### After an await that was not a run -/

theorem moved_runQueueSummaryDelivery (hs : ItemsInv s) (d : SummaryRun) :
    Moved s.queue.items s.aborted s.arrivals (s.runQueueSummaryDelivery d) := by
  unfold runQueueSummaryDelivery
  split_ifs
  · exact moved_setSummary hs _ rfl trivial rfl
  · exact moved_goto hs rfl trivial (fun x hx => nomatch hx)

theorem moved_drainOverflow (hs : ItemsInv s) :
    Moved s.queue.items s.aborted s.arrivals (s.drainOverflowSummaryGroup env) := by
  unfold drainOverflowSummaryGroup
  dsimp only
  split_ifs
  · exact moved_setSummary hs _ rfl trivial rfl
  · exact moved_setSummary hs _ rfl trivial rfl
  · split
    case h_1 => exact moved_setSummary hs _ rfl trivial rfl
    case h_2 => exact moved_setSummary hs _ rfl trivial rfl
    case h_3 summary d _ =>
      exact moved_runQueueSummaryDelivery (s := s.setSummary summary)
        ⟨hs.inOrder, hs.old, hs.signal, hs.orphan⟩ d

theorem moved_drainRetained (hs : ItemsInv s) :
    Moved s.queue.items s.aborted s.arrivals (s.drainRetainedSummary env) := by
  unfold drainRetainedSummary
  split
  · exact moved_goto hs rfl trivial (fun x hx => nomatch hx)
  · exact moved_runQueueSummaryDelivery hs _

theorem moved_resume (hs : OrderInv s) (h : s.resume env = some t) :
    Moved s.queue.items s.aborted s.arrivals t ∧ s.drain.inFlight = [] := by
  have hitems : s.drain ≠ .idle → ItemsInv s := hs.itemsInv
  unfold resume at h
  cases hdrain : s.drain with
  | dropped second =>
    specialize hitems (by rw [hdrain]; exact fun h => nomatch h)
    cases second with
    | false =>
      simp only [hdrain, Option.some.injEq] at h
      subst h
      refine ⟨?_, rfl⟩
      split_ifs
      · exact moved_goto hitems rfl trivial (fun x hx => nomatch hx)
      · exact moved_finish hitems
    | true =>
      simp only [hdrain, Option.some.injEq] at h
      subst h
      refine ⟨?_, rfl⟩
      split_ifs
      · exact moved_drainOverflow hitems
      · exact moved_drainItems hitems
      · exact moved_finish hitems
  | debouncing =>
    simp only [hdrain, Option.some.injEq] at h
    exact ⟨h ▸ moved_sweep (hitems (by rw [hdrain]; exact fun h => nomatch h)) true _, rfl⟩
  | elidedDelivered d =>
    specialize hitems (by rw [hdrain]; exact fun h => nomatch h)
    simp only [hdrain, Option.some.injEq] at h
    subst h
    refine ⟨?_, rfl⟩
    unfold finishElided
    split
    · exact moved_setSummary hitems _ rfl trivial rfl
    · exact moved_goto hitems rfl trivial (fun x hx => nomatch hx)
  | elidedSkipped =>
    simp only [hdrain, Option.some.injEq] at h
    exact ⟨h ▸ moved_drainRetained (hitems (by rw [hdrain]; exact fun h => nomatch h)), rfl⟩
  | summaryDone drained =>
    specialize hitems (by rw [hdrain]; exact fun h => nomatch h)
    cases drained <;> simp only [hdrain, Option.some.injEq] at h
    · exact ⟨h ▸ moved_drainItems hitems, rfl⟩
    · exact ⟨h ▸ moved_loopHead hitems, rfl⟩
  | collectSkipped =>
    simp only [hdrain, Option.some.injEq] at h
    exact ⟨h ▸ moved_drainCollectGroups (hitems (by rw [hdrain]; exact fun h => nomatch h)), rfl⟩
  | breaking | failed _ =>
    simp only [hdrain, Option.some.injEq] at h
    exact ⟨h ▸ moved_finish (hitems (by rw [hdrain]; exact fun h => nomatch h)), rfl⟩
  | idle | dropping _ _ _ | delivering _ _ | running _ _ | runningGroup _ _ _ =>
    simp [hdrain] at h

/-- **What one step does to the live messages.** -/
theorem orderStep_of_next (hs : OrderInv s) (h : s.next env e = some t) : OrderStep s e t := by
  cases e with
  | enqueue request =>
    simp only [next] at h
    split_ifs at h
    exact Option.some.inj h ▸ orderStep_enqueue hs request
  | schedule =>
    simp only [next] at h
    split at h
    case h_1 hdrain =>
      split_ifs at h with hregistered
      cases h
      have hitems : ItemsInv s := ⟨hs.inOrder.sublist (List.sublist_append_right _ _),
        fun x hx => hs.old x (List.mem_append_right _ hx),
        fun x hx => hs.signal x (List.mem_append_right _ hx), fun hfalse => by
          rw [hfalse] at hregistered
          cases hregistered⟩
      have hmoved := moved_loopHead (s := { s with forceIndividualCollect := false })
        ⟨hitems.inOrder, hitems.old, hitems.signal, hitems.orphan⟩
      exact .of_moved_items hmoved (by rw [hdrain]; rfl)
    case h_2 => cases h
  | clear =>
    simp only [next] at h
    split_ifs at h
    exact Option.some.inj h ▸ orderStep_clear hs
  | refresh params =>
    simp only [next] at h
    split_ifs at h
    cases h
    unfold refreshQueuedFollowupSession
    split_ifs <;> exact .of_same hs rfl rfl rfl rfl rfl (List.Subset.refl _) (by simp)
  | abort signal =>
    simp only [next] at h
    split_ifs at h
    cases h
    exact .of_same hs rfl rfl rfl rfl rfl (List.subset_cons_self _ _) (by simp)
  | onAdmitted => exact orderStep_onAdmitted hs h
  | resolve => exact orderStep_resolve hs h
  | reject deferred => exact orderStep_reject hs h
  | resume =>
    obtain ⟨hmoved, hflight⟩ := moved_resume hs h
    exact .of_moved_items hmoved hflight

/-! ## Runs -/

/-- Nothing that is live, or that a later step hands over, has the number. -/
def Gone (s : FollowupSystem) (n : Nat) : Prop :=
  n < s.arrivals ∧ ∀ x ∈ s.live, x.origin ≠ n

variable {n : Nat}

theorem Gone.step (h : Gone s n) (ht : OrderStep s e t) : Gone t n := by
  refine ⟨lt_of_lt_of_le h.1 ht.arrivals_le, fun x hx hn => ?_⟩
  rcases ht.back x hx with hx | hfresh
  · exact h.2 x hx hn
  · have := h.1
    omega

theorem Gone.run (hinv : OrderInv s) (hs : Gone s n) (ht : Lts.Reachable (· = s) (Step env) t) :
    OrderInv t ∧ Gone t n := by
  induction ht with
  | start h => exact h ▸ ⟨hinv, hs⟩
  | next _ h ih =>
    have hstep := orderStep_of_next ih.1 h
    exact ⟨hstep.inv, ih.2.step hstep⟩

/-- A step of a run that also keeps the numbers of the messages that left, each for a reason. -/
def Recorded (env : FollowupEnv) (r : FollowupSystem × Set Nat) (e : FollowupEvent)
    (r' : FollowupSystem × Set Nat) : Prop :=
  Lts.Guarded (Step env) DropsAborted r.1 e r'.1 ∧
    r'.2 = r.2 ∪ {n | ∃ x ∈ r.1.live, x.origin = n ∧ LeftBecause r.1 e x}

variable {r : FollowupSystem × Set Nat}

end FollowupSystem

end OpenClaw.Followup
