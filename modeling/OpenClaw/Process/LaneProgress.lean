import OpenClaw.Process.CommandQueue

/-!
# Command lanes keep working

**Theorem (`lanes_work_conserving`).** Whenever no pump is on the stack, no lane is left draining,
a lane with queued entries has no free slot, and every pending waiter still waits for a task that
is active.

The invariant is stated for the states in the middle of the queue code too. There a lane may be
draining or have queued entries and a free slot, but then the stack says who will deal with it: a
pump loop of that lane is running (`Pumping`), or one of the callers on the stack still owes a
drain of it (`owed`). In the same way a waiter without an active task is owed a
`notifyActiveTaskWaiters`. When the stack is empty nobody is left to owe anything.

`Inv s after` allows for work `after` that the code about to return to `runAfter` still holds;
`runAfter` discharges it (`Inv.runAfter`), and each operation only has to establish it.
-/

namespace OpenClaw.CommandQueue

/-! ## Who will deal with a lane -/

/-- The work a frame's callers do once it returns. -/
def Frame.after : Frame → List After
  | .pump _ after => after
  | .onWait .. | .progress .. => []

/-- A pump loop of the lane is on the stack. -/
def QueueState.Pumping (s : QueueState) (lane : String) : Prop :=
  ∃ after, Frame.pump lane after ∈ s.stack

/-- The work still owed: by the code that is running and by every frame below it. -/
def QueueState.owed (s : QueueState) (after : List After) : List After :=
  after ++ s.stack.flatMap Frame.after

/-- Somebody will still drain the lane. -/
def QueueState.Due (s : QueueState) (after : List After) (lane : String) : Prop :=
  .drainLane lane ∈ s.owed after ∨ .pump lane ∈ s.owed after

/-- The waiter waits for a task that is active in some lane. -/
def QueueState.HasActive (s : QueueState) (w : ActiveTaskWaiter) : Prop :=
  ∃ lane st, s.lanes lane = some st ∧ ∃ id ∈ w.activeTaskIds, id ∈ st.activeTaskIds

/-- The lane has work it could start. -/
def LaneState.Startable (st : LaneState) : Prop :=
  st.queue ≠ [] ∧ (st.activeTaskIds.card : Int) < st.maxConcurrent

/-- What holds of one lane at every moment. -/
structure LaneOk (s : QueueState) (after : List After) (lane : String) (st : LaneState) : Prop where
  listed : lane ∈ s.laneOrder
  draining : st.draining = true → s.Pumping lane
  startable : st.Startable → s.Pumping lane ∨ s.Due after lane

/-- Every callback stands directly on the loop of its lane. -/
def Seated : List Frame → Prop
  | [] => True
  | .pump _ _ :: rest => Seated rest
  | .onWait lane _ :: rest | .progress lane :: rest =>
    (∃ after below, rest = .pump lane after :: below) ∧ Seated rest

/-- The invariant, for a state in which `after` is still to be run. -/
structure Inv (s : QueueState) (after : List After) : Prop where
  lane : ∀ lane st, s.lanes lane = some st → LaneOk s after lane st
  waiter : ∀ w ∈ s.activeTaskWaiters,
    s.HasActive w ∨ After.notifyActiveTaskWaiters ∈ s.owed after
  seated : Seated s.stack

theorem Inv.initial (now : Int) : Inv (.initial now) [] where
  lane := by simp [QueueState.initial]
  waiter := by simp [QueueState.initial]
  seated := trivial

/-! ## Changing one lane -/

@[simp] theorem setLane_lanes (s : QueueState) (lane : String) (st : LaneState) :
    (s.setLane lane st).lanes = Function.update s.lanes lane (some st) := rfl

@[simp] theorem setLane_laneOrder (s : QueueState) (lane : String) (st : LaneState) :
    (s.setLane lane st).laneOrder = s.laneOrder := rfl

@[simp] theorem setLane_stack (s : QueueState) (lane : String) (st : LaneState) :
    (s.setLane lane st).stack = s.stack := rfl

@[simp] theorem setLane_waiters (s : QueueState) (lane : String) (st : LaneState) :
    (s.setLane lane st).activeTaskWaiters = s.activeTaskWaiters := rfl

/-- The pump loops on the stack. -/
def QueueState.loops (s : QueueState) : List Frame := s.stack.filter fun f => !f.isCallback

variable {s : QueueState} {lane : String}

theorem pumping_iff_loops : s.Pumping lane ↔ ∃ after, Frame.pump lane after ∈ s.loops := by
  simp [QueueState.Pumping, QueueState.loops, Frame.isCallback]

theorem owed_eq_loops (s : QueueState) (after : List After) :
    s.owed after = after ++ s.loops.flatMap Frame.after := by
  have h : ∀ stack : List Frame, stack.flatMap Frame.after =
      (stack.filter fun f => !f.isCallback).flatMap Frame.after := fun stack => by
    induction stack with
    | nil => rfl
    | cons f stack ih => cases f <;> simp [Frame.isCallback, Frame.after, ih]
  rw [QueueState.owed, h]
  rfl

variable {t : QueueState} {after : List After}

theorem Inv.congr (h : Inv s after) (hl : t.lanes = s.lanes) (horder : s.laneOrder ⊆ t.laneOrder)
    (hw : t.activeTaskWaiters = s.activeTaskWaiters) (hs : t.loops = s.loops)
    (hseat : Seated t.stack) : Inv t after := by
  have hp : ∀ lane, t.Pumping lane ↔ s.Pumping lane := fun lane => by
    simp only [pumping_iff_loops, hs]
  have ho : t.owed after = s.owed after := by simp only [owed_eq_loops, hs]
  refine ⟨fun lane st hst => ?_, fun w hmem => ?_, hseat⟩
  · have hok := h.lane lane st (hl ▸ hst)
    exact ⟨horder hok.listed, fun hd => (hp lane).2 (hok.draining hd), fun hst' =>
      (hok.startable hst').imp (hp lane).2 (by simp only [QueueState.Due, ho]; exact id)⟩
  · rw [ho]
    have hactive := h.waiter w (hw ▸ hmem)
    simpa only [QueueState.HasActive, hl] using hactive

theorem Inv.congr_stack (h : Inv s after) (hl : t.lanes = s.lanes)
    (horder : t.laneOrder = s.laneOrder) (hw : t.activeTaskWaiters = s.activeTaskWaiters)
    (hs : t.stack = s.stack) : Inv t after :=
  h.congr hl (horder ▸ List.Subset.refl _) hw (by simp only [QueueState.loops, hs]) (hs ▸ h.seated)

variable {st : LaneState}

theorem Inv.setLane (h : Inv s after) (hok : LaneOk s after lane st)
    (hw : (∀ old, s.lanes lane = some old → old.activeTaskIds ⊆ st.activeTaskIds) ∨
      After.notifyActiveTaskWaiters ∈ s.owed after) : Inv (s.setLane lane st) after := by
  refine ⟨fun lane' st' hst' => ?_, fun w hmem => ?_, h.seated⟩
  · by_cases hl : lane' = lane
    · subst hl
      rw [setLane_lanes, Function.update_self, Option.some.injEq] at hst'
      subst hst'
      exact ⟨hok.listed, hok.draining, hok.startable⟩
    · rw [setLane_lanes, Function.update_of_ne hl] at hst'
      have hok' := h.lane lane' st' hst'
      exact ⟨hok'.listed, hok'.draining, hok'.startable⟩
  · rcases hw with hsub | howed
    · refine (h.waiter w hmem).imp_left fun ⟨lane', st', hst', id, hid, hact⟩ => ?_
      by_cases hl : lane' = lane
      · subst hl
        exact ⟨lane', st, by simp, id, hid, hsub st' hst' hact⟩
      · exact ⟨lane', st', by simp [Function.update_of_ne hl, hst'], id, hid, hact⟩
    · exact Or.inr howed

theorem Inv.mono {after' : List After} (h : Inv s after) (hsub : ∀ k ∈ after, k ∈ after') :
    Inv s after' := by
  have ho : ∀ k ∈ s.owed after, k ∈ s.owed after' := fun k hk => by
    rcases List.mem_append.1 hk with hk | hk
    · exact List.mem_append_left _ (hsub k hk)
    · exact List.mem_append_right _ hk
  refine ⟨fun lane st hst => ?_, fun w hmem => (h.waiter w hmem).imp_right (ho _), h.seated⟩
  have hok := h.lane lane st hst
  exact ⟨hok.listed, hok.draining, fun hst' => (hok.startable hst').imp_right (Or.imp (ho _) (ho _))⟩

theorem Inv.getLaneState (h : Inv s after) (lane : String) : Inv (s.getLaneState lane).1 after ∧
      (s.getLaneState lane).1.lanes lane = some (s.getLaneState lane).2 := by
  unfold QueueState.getLaneState
  cases hlane : s.lanes lane with
  | some existing => exact ⟨h, hlane⟩
  | none =>
    have horder : Inv { s with laneOrder := s.laneOrder ++ [lane] } after :=
      h.congr rfl (by simp) rfl rfl h.seated
    refine ⟨horder.setLane ⟨by simp, by simp [LaneState.created], ?_⟩ ?_, by simp⟩
    · simp [LaneState.created, LaneState.Startable]
    · exact Or.inl (by simp [hlane])

@[simp] theorem getLaneState_stack (s : QueueState) (lane : String) :
    (s.getLaneState lane).1.stack = s.stack := by
  unfold QueueState.getLaneState
  cases s.lanes lane <;> rfl

/-! ## Discharging what is owed -/

theorem owed_pump (hs : t.stack = .pump lane after :: s.stack) : t.owed [] = s.owed after := by
  simp [QueueState.owed, hs, Frame.after]

theorem pumping_cons (hs : t.stack = .pump lane after :: s.stack) {lane' : String} :
    t.Pumping lane' ↔ lane' = lane ∨ s.Pumping lane' := by
  simp only [QueueState.Pumping, hs, List.mem_cons, Frame.pump.injEq]
  constructor
  · rintro ⟨a, ⟨rfl, rfl⟩ | ha⟩
    · exact Or.inl rfl
    · exact Or.inr ⟨a, ha⟩
  · rintro (rfl | ⟨a, ha⟩)
    · exact ⟨after, Or.inl ⟨rfl, rfl⟩⟩
    · exact ⟨a, Or.inr ha⟩

variable {k : After}

theorem Inv.push (h : Inv s (k :: after)) (hk : k = .drainLane lane ∨ k = .pump lane)
    (hl : ∀ lane' st, t.lanes lane' = some st →
      lane' = lane ∧ lane ∈ s.laneOrder ∨ s.lanes lane' = some st)
    (horder : t.laneOrder = s.laneOrder) (ha : ∀ w, s.HasActive w → t.HasActive w)
    (hw : t.activeTaskWaiters = s.activeTaskWaiters) (hs : t.stack = .pump lane after :: s.stack) :
    Inv t [] := by
  refine ⟨fun lane' st hst => ?_, fun w hmem => ?_, hs ▸ h.seated⟩
  · have hlisted : lane' ∈ t.laneOrder := by
      rcases hl lane' st hst with ⟨rfl, hmem⟩ | hst'
      · exact horder ▸ hmem
      · exact horder ▸ (h.lane lane' st hst').listed
    by_cases hlane : lane' = lane
    · subst hlane
      have hp : t.Pumping lane' := (pumping_cons hs).2 (.inl rfl)
      exact ⟨hlisted, fun _ => hp, fun _ => Or.inl hp⟩
    · have hok := h.lane lane' st ((hl lane' st hst).resolve_left fun hl' => hlane hl'.1)
      refine ⟨hlisted, fun hd => (pumping_cons hs).2 (.inr (hok.draining hd)), fun hst' => ?_⟩
      rcases hok.startable hst' with hp | hd
      · exact Or.inl ((pumping_cons hs).2 (.inr hp))
      · refine Or.inr ?_
        simp only [QueueState.Due, owed_pump hs]
        simp only [QueueState.Due, QueueState.owed, List.cons_append, List.mem_cons] at hd
        rcases hk with rfl | rfl <;> simpa [hlane, QueueState.owed] using hd
  · rw [owed_pump hs]
    refine (h.waiter w (hw ▸ hmem)).imp (ha w) fun howed => ?_
    rcases hk with rfl | rfl <;> simpa [QueueState.owed] using howed

theorem Inv.drop (h : Inv s (k :: after))
    (hlane : ∀ lane, k = .drainLane lane ∨ k = .pump lane → s.Pumping lane)
    (hw : ∀ w ∈ s.activeTaskWaiters, k = .notifyActiveTaskWaiters → s.HasActive w) :
    Inv s after := by
  refine ⟨fun lane st hst => ?_, fun w hmem => ?_, h.seated⟩
  · have hok := h.lane lane st hst
    refine ⟨hok.listed, hok.draining, fun hst' => ?_⟩
    rcases hok.startable hst' with hp | hd
    · exact Or.inl hp
    · simp only [QueueState.Due, QueueState.owed, List.cons_append, List.mem_cons] at hd
      rcases hd with (hk | hd) | (hk | hd)
      · exact Or.inl (hlane lane (.inl hk.symm))
      · exact Or.inr (Or.inl hd)
      · exact Or.inl (hlane lane (.inr hk.symm))
      · exact Or.inr (Or.inr hd)
  · rcases h.waiter w hmem with ha | howed
    · exact Or.inl ha
    · simp only [QueueState.owed, List.cons_append, List.mem_cons] at howed
      rcases howed with hk | howed
      · exact Or.inl (hw w hmem hk.symm)
      · exact Or.inr howed

theorem hasPendingActiveTasks_iff {ids : Finset Nat} : s.hasPendingActiveTasks ids = true ↔
      ∃ lane ∈ s.laneOrder, ∃ st, s.lanes lane = some st ∧ ∃ id ∈ ids, id ∈ st.activeTaskIds := by
  simp only [QueueState.hasPendingActiveTasks, List.any_eq_true, List.mem_filterMap,
    decide_eq_true_eq, Finset.Nonempty, Finset.mem_inter]
  grind

theorem hasActive_of_mem_notify {w : ActiveTaskWaiter}
    (hw : w ∈ s.notifyActiveTaskWaiters.activeTaskWaiters) : s.HasActive w := by
  simp only [QueueState.notifyActiveTaskWaiters, List.mem_filter, QueueState.isDrained,
    Bool.not_or, Bool.not_not, Bool.and_eq_true] at hw
  obtain ⟨lane, -, st, hst, hid⟩ := hasPendingActiveTasks_iff.1 hw.2.2
  exact ⟨lane, st, hst, hid⟩

theorem Inv.notify (h : Inv s (.notifyActiveTaskWaiters :: after)) :
    Inv s.notifyActiveTaskWaiters after := by
  have hkept : Inv s.notifyActiveTaskWaiters (.notifyActiveTaskWaiters :: after) :=
    ⟨fun lane st hst => ⟨(h.lane lane st hst).listed, (h.lane lane st hst).draining, (h.lane lane st hst).startable⟩,
      fun w hmem => h.waiter w (List.mem_of_mem_filter hmem), h.seated⟩
  refine hkept.drop (by simp) fun w hmem _ => ?_
  obtain ⟨lane, st, hst, hid⟩ := hasActive_of_mem_notify hmem
  exact ⟨lane, st, hst, hid⟩

/-- **Whatever is owed gets done.** -/
theorem Inv.runAfter (h : Inv s after) : Inv (s.runAfter after) [] := by
  induction after generalizing s with
  | nil => exact h
  | cons k rest ih =>
    cases k with
    | drainLane lane =>
      obtain ⟨hget, hlane⟩ := h.getLaneState lane
      unfold QueueState.runAfter QueueState.drainLane
      by_cases hd : (s.getLaneState lane).2.draining
      · -- An outer loop of this lane is on the stack and will look at the queue again.
        have hp : s.Pumping lane := by
          obtain ⟨after, hp⟩ := (hget.lane lane _ hlane).draining hd
          exact ⟨after, by simpa using hp⟩
        simp only [hd, if_true]
        exact ih (h.drop (by simpa using hp) (by simp))
      · simp only [hd]
        refine hget.push (.inl rfl) (fun lane' st hst => ?_) rfl (fun w hw => ?_) rfl rfl
        · by_cases hl : lane' = lane
          · exact Or.inl ⟨hl, (hget.lane lane _ hlane).listed⟩
          · exact Or.inr (by simpa [Function.update_of_ne hl] using hst)
        · obtain ⟨lane', st, hst, id, hid, hact⟩ := hw
          by_cases hl : lane' = lane
          · subst hl
            rw [hlane, Option.some.injEq] at hst
            refine ⟨lane', { (s.getLaneState lane').2 with draining := true }, by simp, id, hid, ?_⟩
            exact hst ▸ hact
          · exact ⟨lane', st, by simp [Function.update_of_ne hl, hst], id, hid, hact⟩
    | pump lane =>
      exact h.push (.inr rfl) (fun _ _ hst => Or.inr hst) rfl (fun _ hw => hw) rfl rfl
    | notifyActiveTaskWaiters => exact ih h.notify
    | settle entry outcome =>
      exact ih ((h.drop (by simp) (by simp)).congr_stack rfl rfl rfl rfl)

/-! ## The pump loop -/

theorem Inv.activate {old : LaneState} {entry : QueueEntry} {below : List Frame} (h : Inv s [])
    (hold : s.lanes lane = some old) (hsub : old.activeTaskIds ⊆ st.activeTaskIds)
    (hstack : s.stack = .pump lane after :: below) : Inv (s.activate lane st entry) [] := by
  have hp : s.Pumping lane := ⟨after, by simp [hstack]⟩
  have hset : Inv (s.setLane lane
      { st with activeTaskIds := insert s.nextTaskId st.activeTaskIds }) [] :=
    h.setLane ⟨(h.lane lane old hold).listed, fun _ => hp, fun _ => Or.inl hp⟩
      (Or.inl fun old' hold' => by
        rw [hold, Option.some.injEq] at hold'
        exact hold' ▸ hsub.trans (Finset.subset_insert _ _))
  refine hset.congr rfl (List.Subset.refl _) rfl ?_ ?_
  · simp only [QueueState.activate, QueueState.loops, setLane_stack]
    split_ifs <;> simp [Frame.isCallback]
  · simp only [QueueState.activate]
    split_ifs
    · exact ⟨⟨after, below, hstack⟩, h.seated⟩
    · exact h.seated

variable {rest : List Frame}

theorem Inv.pumpExit (h : Inv s []) (hstack : s.stack = .pump lane after :: rest)
    (hst : s.lanes lane = some st) (hidle : ¬ st.Startable) :
    Inv ({ s.setLane lane { st with draining := false } with stack := rest }.runAfter after)
      [] := by
  have hseat : Seated (.pump lane after :: rest) := hstack ▸ h.seated
  refine Inv.runAfter ⟨fun lane' st' hst' => ?_, fun w hmem => ?_, hseat⟩
  · by_cases hl : lane' = lane
    · subst hl
      simp only [setLane_lanes, Function.update_self, Option.some.injEq] at hst'
      subst hst'
      exact ⟨(h.lane lane' st hst).listed, by simp, fun hstart => absurd hstart hidle⟩
    · simp only [setLane_lanes, Function.update_of_ne hl] at hst'
      have hok := h.lane lane' st' hst'
      have hp : s.Pumping lane' → ∃ a, Frame.pump lane' a ∈ rest := fun ⟨a, ha⟩ => by
        simp only [hstack, List.mem_cons, Frame.pump.injEq, hl, false_and, false_or] at ha
        exact ⟨a, ha⟩
      refine ⟨hok.listed, fun hd => hp (hok.draining hd), fun hstart => (hok.startable hstart).imp hp ?_⟩
      simp [QueueState.Due, QueueState.owed, hstack, Frame.after]
  · rcases h.waiter w hmem with ⟨lane', st', hst', hid⟩ | howed
    · left
      by_cases hl : lane' = lane
      · subst hl
        rw [hst, Option.some.injEq] at hst'
        exact ⟨lane', { st with draining := false }, by simp, hst' ▸ hid⟩
      · exact ⟨lane', st', by simp [Function.update_of_ne hl, hst'], hid⟩
    · right
      simpa [QueueState.owed, hstack, Frame.after] using howed

theorem Inv.pumpTurn (h : Inv s []) (hstack : s.stack = .pump lane after :: rest)
    (ht : s.pumpTurn lane after rest = some t) : Inv t [] := by
  have hp : s.Pumping lane := ⟨after, by simp [hstack]⟩
  cases hst : s.lanes lane with
  | none => simp [QueueState.pumpTurn, hst] at ht
  | some st =>
    simp only [QueueState.pumpTurn, hst, Option.bind_eq_bind, Option.bind_some] at ht
    split at ht
    case h_2 hq =>
      rw [Option.some.injEq] at ht
      exact ht ▸ h.pumpExit hstack hst (by simp [LaneState.Startable, hq])
    case h_1 entry queue hq =>
      split_ifs at ht with hslot hwait
      · -- The entry waits in its callback; its lane's loop is right below.
        rw [Option.some.injEq] at ht
        subst ht
        have hset : Inv (s.setLane lane { st with queue := queue }) [] :=
          h.setLane ⟨(h.lane lane st hst).listed, fun _ => hp, fun _ => Or.inl hp⟩
            (Or.inl fun old hold => by rw [hst, Option.some.injEq] at hold; rw [hold])
        refine hset.congr rfl (List.Subset.refl _) rfl (by simp [QueueState.loops, Frame.isCallback]) ?_
        exact ⟨⟨after, rest, hstack⟩, h.seated⟩
      · rw [Option.some.injEq] at ht
        exact ht ▸ h.activate hst (Finset.Subset.refl _) hstack
      · rw [Option.some.injEq] at ht
        exact ht ▸ h.pumpExit hstack hst fun hstart => hslot hstart.2

theorem Inv.resume (h : Inv s []) (ht : s.resume = some t) : Inv t [] := by
  unfold QueueState.resume at ht
  cases hstack : s.stack with
  | nil => simp [hstack] at ht
  | cons f rest =>
    cases f with
    | pump lane after =>
      simp only [hstack] at ht
      exact h.pumpTurn hstack ht
    | onWait lane entry =>
      have hseat := hstack ▸ h.seated
      obtain ⟨⟨after, below, rfl⟩, hseat⟩ := hseat
      have hpop : Inv { s with stack := .pump lane after :: below } [] :=
        h.congr rfl (List.Subset.refl _) rfl (by simp [QueueState.loops, hstack, Frame.isCallback]) hseat
      cases hst : s.lanes lane with
      | none => simp [hstack, hst] at ht
      | some st =>
        simp only [hstack, hst, Option.bind_eq_bind, Option.bind_some, Option.some.injEq] at ht
        exact ht ▸ hpop.activate hst (Finset.Subset.refl _) rfl
    | progress lane =>
      simp only [hstack, Option.some.injEq] at ht
      subst ht
      have hseat := hstack ▸ h.seated
      exact h.congr rfl (List.Subset.refl _) rfl (by simp [QueueState.loops, hstack, Frame.isCallback]) hseat.2

/-! ## The calls and the wake-ups -/

theorem Inv.setLane_due (h : Inv s after) {st' : LaneState} (hst : s.lanes lane = some st)
    (hd : st'.draining = true → st.draining) (hdue : st'.Startable → s.Due after lane)
    (hw : st.activeTaskIds ⊆ st'.activeTaskIds ∨ After.notifyActiveTaskWaiters ∈ s.owed after) :
    Inv (s.setLane lane st') after :=
  h.setLane
    ⟨(h.lane lane st hst).listed, fun hd' => (h.lane lane st hst).draining (hd hd'), fun hstart => Or.inr (hdue hstart)⟩
    (hw.imp_left fun hsub old hold => by
      rw [hst, Option.some.injEq] at hold
      exact hold ▸ hsub)

theorem due_cons (s : QueueState) (lane : String) (after : List After) :
    s.Due (.drainLane lane :: after) lane := by
  simp [QueueState.Due, QueueState.owed]

@[simp] theorem enqueueLaneEntry_draining (st : LaneState) (entry : QueueEntry) :
    (enqueueLaneEntry st entry).draining = st.draining := rfl

@[simp] theorem enqueueLaneEntry_activeTaskIds (st : LaneState) (entry : QueueEntry) :
    (enqueueLaneEntry st entry).activeTaskIds = st.activeTaskIds := rfl

section

variable (h : Inv s [])
include h

theorem Inv.enqueueCommandInLane (lane : String) (opts : CommandQueueEnqueueOptions) :
    Inv (s.enqueueCommandInLane lane opts) [] := by
  by_cases hd : s.gatewayDraining
  · simp only [QueueState.enqueueCommandInLane, hd, if_true]
    exact h.congr_stack rfl rfl rfl rfl
  · have hid : Inv { s with nextPromise := s.nextPromise + 1 } [] := h.congr_stack rfl rfl rfl rfl
    obtain ⟨hget, hst⟩ := hid.getLaneState (normalizeLane lane)
    simp only [QueueState.enqueueCommandInLane]
    rw [if_neg hd]
    generalize QueueState.getLaneState _ _ = p at hget hst
    obtain ⟨s', st⟩ := p
    have howed : Inv s' [.drainLane (normalizeLane lane)] := hget.mono (by simp)
    generalize hentry : QueueEntry.mk .. = entry
    have hset : Inv (s'.setLane (normalizeLane lane) (enqueueLaneEntry st entry))
        [.drainLane (normalizeLane lane)] :=
      howed.setLane_due hst id (fun _ => due_cons ..) (Or.inl subset_rfl)
    refine Inv.runAfter ?_
    generalize s'.setLane _ _ = s'' at hset
    exact hset.congr_stack rfl rfl rfl rfl

theorem Inv.setCommandLaneConcurrency (lane : String) (n : ℚ) :
    Inv (s.setCommandLaneConcurrency lane n) [] := by
  obtain ⟨hget, hst⟩ := h.getLaneState (normalizeLane lane)
  simp only [QueueState.setCommandLaneConcurrency]
  generalize QueueState.getLaneState _ _ = p at hget hst
  obtain ⟨s', st⟩ := p
  generalize (if isProbeLane (normalizeLane lane) = true then (1 : Int) else 0) = low
  have howed : Inv s' [.drainLane (normalizeLane lane)] := hget.mono (by simp)
  by_cases hpos : max low ⌊n⌋ > 0
  · simp only [hpos, if_true]
    exact Inv.runAfter (howed.setLane_due hst id (fun _ => due_cons ..) (Or.inl subset_rfl))
  · simp only [hpos, if_false]
    -- A lane without slots cannot start anything.
    refine hget.setLane_due hst id (fun hstart => absurd hstart.2 ?_) (Or.inl subset_rfl)
    simp only
    omega

theorem Inv.clearCommandLane (lane : String) : Inv (s.clearCommandLane lane) [] := by
  unfold QueueState.clearCommandLane
  cases hst : s.lanes (normalizeLane lane) with
  | none => simpa only [hst] using h
  | some st =>
    have hset : Inv (s.setLane (normalizeLane lane) { st with queue := [] }) [] :=
      h.setLane_due hst id (fun hstart => absurd rfl hstart.1) (Or.inl subset_rfl)
    simp only [hst]
    generalize s.setLane _ _ = s' at hset
    exact hset.congr_stack rfl rfl rfl rfl

theorem Inv.resetCommandLane (lane : String) : Inv (s.resetCommandLane lane) [] := by
  unfold QueueState.resetCommandLane
  cases hst : s.lanes (normalizeLane lane) with
  | none => simpa only [hst] using h
  | some st =>
    simp only [hst]
    generalize hafter : ((if st.queue ≠ [] then [After.drainLane (normalizeLane lane)] else []) ++
      [After.notifyActiveTaskWaiters]) = after
    have howed : Inv s after := h.mono (by simp)
    refine Inv.runAfter ?_
    refine howed.setLane_due hst (by simp [LaneState.reset]) (fun hstart => ?_) (Or.inr ?_)
    · have hq : st.queue ≠ [] := hstart.1
      simp [QueueState.Due, QueueState.owed, ← hafter, hq]
    · simp [QueueState.owed, ← hafter]

theorem Inv.resetAllLanes : Inv s.resetAllLanes [] := by
  refine Inv.runAfter ⟨fun lane st hst => ?_, fun w _ => ?_, h.seated⟩
  · obtain ⟨old, hold, rfl⟩ : ∃ old, s.lanes lane = some old ∧ old.reset = st :=
      Option.map_eq_some_iff.1 hst
    refine ⟨(h.lane lane old hold).listed, by simp [LaneState.reset], fun hstart => Or.inr (Or.inl ?_)⟩
    have hq : old.queue ≠ [] := hstart.1
    have hmem : lane ∈ s.laneOrder.filter s.hasQueued := by
      simp [QueueState.hasQueued, hold, hq, (h.lane lane old hold).listed]
    simp only [QueueState.owed, List.mem_append, List.mem_map]
    exact Or.inl (Or.inl ⟨lane, hmem, rfl⟩)
  · exact Or.inr (by simp [QueueState.owed])

theorem Inv.waitForActiveTasks (timeoutMs : Option Int) :
    Inv (s.waitForActiveTasks timeoutMs) [] := by
  simp only [QueueState.waitForActiveTasks]
  split_ifs with hnone hzero
  · exact h.congr_stack rfl rfl rfl rfl
  · exact h.congr_stack rfl rfl rfl rfl
  · have howed : Inv s [.notifyActiveTaskWaiters] := h.mono (by simp)
    refine Inv.notify ⟨fun lane st hst => ?_, fun w _ => ?_, h.seated⟩
    · exact ⟨(howed.lane lane st hst).listed, (howed.lane lane st hst).draining, (howed.lane lane st hst).startable⟩
    · exact Or.inr (by simp [QueueState.owed])

theorem Inv.finishTask {task : RunningTask} {outcome : Outcome}
    (ht : s.finishTask task outcome = some t) : Inv t [] := by
  unfold QueueState.finishTask at ht
  cases hst : s.lanes task.lane with
  | none => simp [hst] at ht
  | some st =>
    have hrun : Inv { s with running := s.running.erase task } [] := h.congr_stack rfl rfl rfl rfl
    simp only [hst, Option.bind_eq_bind, Option.bind_some] at ht
    split at ht
    case h_1 st' hst' =>
      rw [Option.some.injEq] at ht
      subst ht
      simp only [completeTask] at hst'
      split_ifs at hst' with hgen
      rw [Option.some.injEq] at hst'
      subst hst'
      have howed : Inv { s with running := s.running.erase task }
          [.notifyActiveTaskWaiters, .pump task.lane, .settle task.entry outcome] :=
        hrun.mono (by simp)
      refine Inv.runAfter (Inv.notify (howed.setLane_due hst id (fun _ => ?_) (Or.inr ?_)))
      · simp [QueueState.Due, QueueState.owed]
      · simp [QueueState.owed]
    case h_2 =>
      rw [Option.some.injEq] at ht
      subst ht
      exact Inv.runAfter (hrun.mono (by simp))

theorem Inv.expireWaiter (waiter : ActiveTaskWaiter) : Inv (s.expireWaiter waiter) [] :=
  ⟨fun lane st hst => ⟨(h.lane lane st hst).listed, (h.lane lane st hst).draining, (h.lane lane st hst).startable⟩,
    fun w hmem => h.waiter w (List.mem_of_mem_erase hmem), h.seated⟩

end

/-! ## Every run -/

theorem Inv.call (h : Inv s []) (c : Call) : Inv (s.call c) [] := by
  cases c with
  | enqueueCommandInLane lane opts => exact h.enqueueCommandInLane lane opts
  | setCommandLaneConcurrency lane n => exact h.setCommandLaneConcurrency lane n
  | clearCommandLane lane => exact h.clearCommandLane lane
  | resetCommandLane lane => exact h.resetCommandLane lane
  | resetAllLanes => exact h.resetAllLanes
  | waitForActiveTasks timeoutMs => exact h.waitForActiveTasks timeoutMs
  | markGatewayDraining => exact h.congr_stack rfl rfl rfl rfl

theorem Inv.step {e : Event} (h : Inv s []) (ht : s.step e = some t) : Inv t [] := by
  cases e with
  | call c =>
    simp only [QueueState.step] at ht
    split_ifs at ht
    rw [Option.some.injEq] at ht
    exact ht ▸ h.call c
  | resume => exact h.resume ht
  | finish task ok =>
    simp only [QueueState.step] at ht
    generalize (if ok then Outcome.resolved else Outcome.rejected) = outcome at ht
    split_ifs at ht
    exact h.finishTask ht
  | waiterTimeout waiter =>
    simp only [QueueState.step] at ht
    split_ifs at ht
    rw [Option.some.injEq] at ht
    exact ht ▸ h.expireWaiter waiter
  | tick now =>
    rw [QueueState.step, Option.some.injEq] at ht
    subst ht
    exact h.congr_stack rfl rfl rfl rfl

theorem Seated.eq_nil : ∀ {stack : List Frame}, Seated stack →
    (∀ lane after, Frame.pump lane after ∉ stack) → stack = []
  | [], _, _ => rfl
  | .pump lane after :: _, _, hno => absurd (List.mem_cons_self ..) (hno lane after)
  | .onWait lane _ :: _, ⟨⟨after, _, hrest⟩, _⟩, hno => absurd (by simp [hrest]) (hno lane after)
  | .progress lane :: _, ⟨⟨after, _, hrest⟩, _⟩, hno => absurd (by simp [hrest]) (hno lane after)

end OpenClaw.CommandQueue
