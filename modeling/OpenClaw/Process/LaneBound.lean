import OpenClaw.Process.LaneEntries

/-!
# The bound of a lane, with callbacks that call back

The pump checks for a free slot, takes an entry off the queue, runs the entry's `onWait`, and only then
starts it. What the callback does to the same lane decides whether the check still holds.

**Theorem (`starts_within_bound`).** In every run in which the calls made from inside a callback are
`Undisturbed`, an entry starts only while fewer tasks of the lane's current generation run than
`maxConcurrent`, and no entry that was queued behind another starts before it.

**Theorem (`activeTasks_exact`).** In every reachable state the active set of a lane is that of the
running tasks of its generation.

The `draining` flag is what keeps a second pump out, but a pump that a task's completion started runs
without it (`nested_pump_exceeds_bound`).
-/

namespace OpenClaw.CommandQueue

/-! ## What a callback may do -/

/-- An entry of the lane is in its callback. -/
def Waiting (lane : String) (stack : List Frame) : Prop := ∃ entry, Frame.onWait lane entry ∈ stack

/-- The value `setCommandLaneConcurrency` gives a lane. -/
def concurrencyOf (lane : String) (maxConcurrent : ℚ) : Int :=
  max (if isProbeLane lane then 1 else 0) ⌊maxConcurrent⌋

/-- The call starts a second pump in the lane with something to start, or takes the slot away that
the first pump found free. -/
def Disturbs (s : QueueState) (lane : String) (st : LaneState) : Call → Prop
  | .enqueueCommandInLane named _ =>
    normalizeLane named = lane ∧ s.gatewayDraining = false ∧ st.draining = false
  | .setCommandLaneConcurrency named n =>
    normalizeLane named = lane ∧ (concurrencyOf lane n ≤ st.activeTaskIds.card ∨
      st.draining = false ∧ st.queue ≠ [])
  | .resetCommandLane named => normalizeLane named = lane ∧ st.queue ≠ []
  | .resetAllLanes => st.queue ≠ []
  | .clearCommandLane _ | .waitForActiveTasks _ | .markGatewayDraining => False

/-- No call disturbs a lane that has an entry in its callback. -/
def Undisturbed (s : QueueState) (e : Event) : Prop :=
  ∀ c, e = .call c → ∀ lane, Waiting lane s.stack → ∀ st, s.lanes lane = some st →
    ¬ Disturbs s lane st c

abbrev UndisturbedStep (s : QueueState) (e : Event) (t : QueueState) : Prop :=
  Lts.Guarded (fun s e t => s.step e = some t) Undisturbed s e t

abbrev UndisturbedRun : QueueState → Prop :=
  Lts.Reachable (fun s => ∃ now, s = .initial now) UndisturbedStep

theorem mem_callbacks {s : QueueState} {lane : String} {entry : QueueEntry} :
    (lane, entry) ∈ s.callbacks ↔ Frame.onWait lane entry ∈ s.stack := by
  unfold QueueState.callbacks
  rw [List.mem_filterMap]
  constructor
  · rintro ⟨f, hf, hfe⟩
    cases f with
    | onWait lane' entry' =>
      cases hfe
      exact hf
    | pump | progress => cases hfe
  · exact fun h => ⟨_, h, rfl⟩

instance (s : QueueState) (lane : String) (st : LaneState) (c : Call) :
    Decidable (Disturbs s lane st c) := by
  cases c <;> unfold Disturbs <;> infer_instance

variable {c : Call}

theorem undisturbed_call {s : QueueState} : Undisturbed s (.call c) ↔
    ∀ p ∈ s.callbacks, ∀ st ∈ s.lanes p.1, ¬ Disturbs s p.1 st c := by
  constructor
  · intro h p hp st hst
    exact h c rfl p.1 ⟨p.2, mem_callbacks.1 hp⟩ st hst
  · rintro h _ ⟨⟩ lane ⟨entry, hentry⟩ st hst
    exact h (lane, entry) (mem_callbacks.2 hentry) st hst

instance (s : QueueState) (e : Event) : Decidable (Undisturbed s e) :=
  match e with
  | .call _ => decidable_of_iff _ undisturbed_call.symm
  | .resume | .finish .. | .waiterTimeout _ | .tick _ => .isTrue fun _ h => nomatch h

/-! ## The stack -/

variable {s t : QueueState} {after : List After} {lane : String} {stack rest : List Frame}

@[simp] theorem waiting_cons {f : Frame} :
    Waiting lane (f :: stack) ↔ (∃ entry, f = .onWait lane entry) ∨ Waiting lane stack := by
  simp only [Waiting, List.mem_cons, exists_or]
  constructor <;> rintro (⟨entry, h⟩ | h) <;> first | exact .inl ⟨entry, h.symm⟩ | exact .inr h

/-- The work does not touch a lane that has an entry in its callback. -/
def AfterInTurn (after : List After) (stack : List Frame) : Prop :=
  ∀ lane, .drainLane lane ∈ after ∨ .pump lane ∈ after → ¬ Waiting lane stack

/-- No pump or callback of a lane stands above a callback of the lane. -/
def InTurn : List Frame → Prop
  | [] => True
  | .pump lane after :: rest => ¬ Waiting lane rest ∧ AfterInTurn after rest ∧ InTurn rest
  | .onWait lane _ :: rest => ¬ Waiting lane rest ∧ InTurn rest
  | .progress _ :: rest => InTurn rest

/-- The invariant. A second pump may be on top if it finds nothing to start. -/
structure Bounded (s : QueueState) : Prop where
  slot : ∀ lane, Waiting lane s.stack →
    ∃ st, s.lanes lane = some st ∧ (st.activeTaskIds.card : Int) < st.maxConcurrent
  turn : InTurn s.stack ∨ ∃ lane after rest st, s.stack = .pump lane after :: rest ∧
    AfterInTurn after rest ∧ InTurn rest ∧ s.lanes lane = some st ∧ st.queue = []

/-- What the invariant reads of a lane is unchanged. -/
def LaneState.SameSlots (st st' : LaneState) : Prop :=
  st'.activeTaskIds = st.activeTaskIds ∧ st'.maxConcurrent = st.maxConcurrent ∧
    st'.generation = st.generation ∧ st'.queue = st.queue

theorem runAfter_spec (s : QueueState) (after : List After) :
    (∀ lane st, s.lanes lane = some st →
      ∃ st', (s.runAfter after).lanes lane = some st' ∧ st.SameSlots st') ∧
    ((s.runAfter after).stack = s.stack ∨ ∃ lane rest,
      (s.runAfter after).stack = .pump lane rest :: s.stack ∧
        (.drainLane lane ∈ after ∨ .pump lane ∈ after) ∧ rest ⊆ after) := by
  induction after generalizing s with
  | nil => exact ⟨fun _ st hst => ⟨st, hst, rfl, rfl, rfl, rfl⟩, .inl rfl⟩
  | cons k rest ih =>
    -- the induction hypothesis for a state with the same lanes and stack
    have hlater : ∀ s' : QueueState, s'.lanes = s.lanes → s'.stack = s.stack →
        (∀ lane st, s.lanes lane = some st →
          ∃ st', (s'.runAfter rest).lanes lane = some st' ∧ st.SameSlots st') ∧
        ((s'.runAfter rest).stack = s.stack ∨ ∃ lane rest',
          (s'.runAfter rest).stack = .pump lane rest' :: s.stack ∧
            (.drainLane lane ∈ k :: rest ∨ .pump lane ∈ k :: rest) ∧ rest' ⊆ k :: rest) := by
      intro s' hlanes hstack
      obtain ⟨hl, hs⟩ := ih s'
      rw [hlanes] at hl
      rw [hstack] at hs
      refine ⟨hl, hs.imp_right fun ⟨lane, rest', hstack', hmem, hsub⟩ => ⟨lane, rest', hstack', ?_, ?_⟩⟩
      · exact hmem.imp (List.mem_cons_of_mem _) (List.mem_cons_of_mem _)
      · exact fun x hx => List.mem_cons_of_mem _ (hsub hx)
    cases k with
    | drainLane lane =>
      unfold QueueState.runAfter QueueState.drainLane
      dsimp only
      by_cases hdraining : (s.getLaneState lane).2.draining
      · rw [if_pos hdraining]
        exact hlater s rfl rfl
      · rw [if_neg hdraining]
        refine ⟨fun lane' st hst => ?_, .inr ⟨lane, rest, ?_, .inl List.mem_cons_self,
          List.subset_cons_self _ _⟩⟩
        · unfold QueueState.getLaneState
          by_cases hl : lane' = lane
          · subst hl
            rw [hst]
            exact ⟨{ st with draining := true }, by simp, rfl, rfl, rfl, rfl⟩
          · refine ⟨st, ?_, rfl, rfl, rfl, rfl⟩
            cases s.lanes lane <;> simp [Function.update_of_ne hl, hst]
        · simp
    | pump lane =>
      exact ⟨fun _ st hst => ⟨st, hst, rfl, rfl, rfl, rfl⟩,
        .inr ⟨lane, rest, rfl, .inr List.mem_cons_self, List.subset_cons_self _ _⟩⟩
    | notifyActiveTaskWaiters => exact hlater s.notifyActiveTaskWaiters rfl rfl
    | settle entry outcome =>
      exact hlater { s with settled := s.settled ++ [(entry, outcome)] } rfl rfl

/-! ## The invariant along a run -/

/-- Every callback's lane has a free slot. -/
def FreeSlots (s : QueueState) : Prop :=
  ∀ lane, Waiting lane s.stack →
    ∃ st, s.lanes lane = some st ∧ (st.activeTaskIds.card : Int) < st.maxConcurrent

variable {st : LaneState}

theorem FreeSlots.of_lane (hs : FreeSlots s) (hst : s.lanes lane = some st)
    (hw : Waiting lane s.stack) : (st.activeTaskIds.card : Int) < st.maxConcurrent := by
  obtain ⟨st', hst', hslot⟩ := hs lane hw
  rw [hst, Option.some.injEq] at hst'
  exact hst' ▸ hslot

theorem bounded_runAfter (hslots : FreeSlots s) (hturn : InTurn s.stack)
    (hafter : AfterInTurn after s.stack) : Bounded (s.runAfter after) := by
  obtain ⟨hlanes, hstack⟩ := runAfter_spec s after
  have hslots' : ∀ lane, Waiting lane s.stack → ∃ st, (s.runAfter after).lanes lane = some st ∧
      (st.activeTaskIds.card : Int) < st.maxConcurrent := by
    intro lane hwaiting
    obtain ⟨st, hst, hslot⟩ := hslots lane hwaiting
    obtain ⟨st', hst', hactive, hmax, -⟩ := hlanes lane st hst
    exact ⟨st', hst', by rwa [hactive, hmax]⟩
  rcases hstack with hstack | ⟨lane, rest, hstack, hmem, hsub⟩
  · exact ⟨by rwa [hstack], .inl (hstack ▸ hturn)⟩
  · refine ⟨fun lane' hwaiting => hslots' lane' ?_, .inl ?_⟩
    · rw [hstack, waiting_cons] at hwaiting
      exact hwaiting.resolve_left fun ⟨_, h⟩ => nomatch h
    · rw [hstack]
      exact ⟨hafter lane hmem, fun l hl => hafter l (hl.imp (fun h => hsub h) fun h => hsub h), hturn⟩

theorem FreeSlots.setLane (hs : FreeSlots s)
    (hst : Waiting lane s.stack → (st.activeTaskIds.card : Int) < st.maxConcurrent) :
    FreeSlots (s.setLane lane st) := by
  intro lane' hwaiting
  by_cases hl : lane' = lane
  · subst hl
    exact ⟨st, by simp, hst hwaiting⟩
  · obtain ⟨st', hst', hslot⟩ := hs lane' hwaiting
    exact ⟨st', by simp [Function.update_of_ne hl, hst'], hslot⟩

theorem FreeSlots.activate (hs : FreeSlots s) (hnot : ¬ Waiting lane s.stack) (st : LaneState)
    (entry : QueueEntry) : FreeSlots (s.activate lane st entry) := by
  have hset : FreeSlots (s.setLane lane
      { st with activeTaskIds := insert s.nextTaskId st.activeTaskIds }) :=
    hs.setLane fun h => absurd h hnot
  intro lane' hwaiting
  refine hset lane' ?_
  unfold QueueState.activate at hwaiting
  split_ifs at hwaiting
  · rw [waiting_cons] at hwaiting
    exact hwaiting.resolve_left fun ⟨_, h⟩ => nomatch h
  · exact hwaiting

theorem inTurn_activate (hs : InTurn s.stack) (st : LaneState) (entry : QueueEntry) :
    InTurn (s.activate lane st entry).stack := by
  unfold QueueState.activate
  split_ifs <;> exact hs

theorem Bounded.resume (hs : Bounded s) (h : s.resume = some t) : Bounded t := by
  have hslots : FreeSlots s := hs.slot
  have hbelow : ∀ {f : Frame} {rest : List Frame}, s.stack = f :: rest → ∀ lane,
      Waiting lane rest → Waiting lane s.stack := by
    intro f rest hstack lane hwaiting
    rw [hstack, waiting_cons]
    exact .inr hwaiting
  cases ResumeStep.of_resume h with
  | @exits lane after rest st hstack hst ht =>
    subst ht
    obtain ⟨hafter, hturn⟩ : AfterInTurn after rest ∧ InTurn rest := by
      rcases hs.turn with hturn | ⟨lane', after', rest', st', hstack', hafter, hturn, -⟩
      · rw [hstack] at hturn
        exact hturn.2
      · rw [hstack] at hstack'
        cases hstack'
        exact ⟨hafter, hturn⟩
    have hslot := hslots.of_lane hst
    have hset : FreeSlots (s.setLane lane { st with draining := false }) := hslots.setLane hslot
    have hpopped : FreeSlots { s.setLane lane { st with draining := false } with stack := rest } :=
      fun l hl => hset l (hbelow hstack l hl)
    exact bounded_runAfter hpopped hturn hafter
  | @waits lane after rest st entry queue hstack hst hq hslot ht =>
    subst ht
    have hturn : InTurn (.pump lane after :: rest) := by
      rcases hs.turn with hturn | ⟨lane', after', rest', st', hstack', -, -, hst', hempty⟩
      · exact hstack ▸ hturn
      · rw [hstack] at hstack'
        cases hstack'
        rw [hst, Option.some.injEq] at hst'
        rw [hst', hempty] at hq
        cases hq
    have hset : FreeSlots (s.setLane lane { st with queue := queue }) :=
      hslots.setLane fun _ => hslot
    refine ⟨fun l hl => ?_, .inl ?_⟩
    · rcases waiting_cons.1 hl with ⟨_, heq⟩ | hl
      · cases heq
        exact ⟨{ st with queue := queue }, by simp, hslot⟩
      · exact hset l hl
    · refine ⟨fun hwaiting => ?_, hstack ▸ hturn⟩
      rw [hstack, waiting_cons] at hwaiting
      exact hturn.1 (hwaiting.resolve_left fun ⟨_, h⟩ => nomatch h)
  | @starts lane after rest st entry queue hstack hst hq hslot ht =>
    subst ht
    have hturn : InTurn (.pump lane after :: rest) := by
      rcases hs.turn with hturn | ⟨lane', after', rest', st', hstack', -, -, hst', hempty⟩
      · exact hstack ▸ hturn
      · rw [hstack] at hstack'
        cases hstack'
        rw [hst, Option.some.injEq] at hst'
        rw [hst', hempty] at hq
        cases hq
    have hnot : ¬ Waiting lane s.stack := by
      rw [hstack, waiting_cons]
      exact fun h => h.elim (fun ⟨_, h⟩ => nomatch h) hturn.1
    have hturn' : InTurn s.stack := hstack ▸ hturn
    exact ⟨hslots.activate hnot _ _, .inl (inTurn_activate hturn' _ _)⟩
  | @startsWaiting lane entry rest st hstack hst ht =>
    subst ht
    have hturn : InTurn (.onWait lane entry :: rest) := by
      rcases hs.turn with hturn | ⟨lane', after', rest', st', hstack', -⟩
      · exact hstack ▸ hturn
      · rw [hstack] at hstack'
        cases hstack'
    have hpopped : FreeSlots { s with stack := rest } := fun l hl => hslots l (hbelow hstack l hl)
    exact ⟨hpopped.activate hturn.1 _ _, .inl (inTurn_activate hturn.2 _ _)⟩
  | @returns lane rest hstack ht =>
    subst ht
    have hturn : InTurn (.progress lane :: rest) := by
      rcases hs.turn with hturn | ⟨lane', after', rest', st', hstack', -⟩
      · exact hstack ▸ hturn
      · rw [hstack] at hstack'
        cases hstack'
    exact ⟨fun l hl => hslots l (hbelow hstack l hl), .inl hturn⟩

/-! ### The calls -/

theorem FreeSlots.getLaneState (hs : FreeSlots s) (lane : String) :
    FreeSlots (s.getLaneState lane).1 ∧ (s.getLaneState lane).1.stack = s.stack ∧
      (s.getLaneState lane).1.lanes lane = some (s.getLaneState lane).2 ∧
      (Waiting lane s.stack → s.lanes lane = some (s.getLaneState lane).2) := by
  unfold QueueState.getLaneState
  cases hlane : s.lanes lane with
  | some existing => exact ⟨hs, rfl, hlane, fun _ => rfl⟩
  | none =>
    have hnot : ¬ Waiting lane s.stack := by
      intro hwaiting
      obtain ⟨st, hst, -⟩ := hs lane hwaiting
      rw [hlane] at hst
      cases hst
    have hset : FreeSlots (s.setLane lane (.created lane)) := hs.setLane fun h => absurd h hnot
    exact ⟨hset, rfl, by simp, fun h => absurd h hnot⟩

theorem runAfter_draining (hst : s.lanes lane = some st) (hdraining : st.draining = true) :
    s.runAfter [.drainLane lane] = s := by
  simp [QueueState.runAfter, QueueState.drainLane, QueueState.getLaneState, hst, hdraining]

theorem afterInTurn_drainLane (hnot : ¬ Waiting lane stack) :
    AfterInTurn [.drainLane lane] stack := by
  intro l hl
  have hl : l = lane := by simpa using hl
  exact hl ▸ hnot

theorem bounded_drainLane (hslots : FreeSlots s) (hturn : InTurn s.stack)
    (hst : s.lanes lane = some st)
    (hwaiting : Waiting lane s.stack → st.draining = true ∨ st.queue = []) :
    Bounded (s.runAfter [.drainLane lane]) := by
  by_cases hw : Waiting lane s.stack
  · cases hdraining : st.draining with
    | true =>
      rw [runAfter_draining hst hdraining]
      exact ⟨hslots, .inl hturn⟩
    | false =>
      -- a second pump, which finds the queue empty
      have hempty := (hwaiting hw).resolve_left (by simp [hdraining])
      have hpushed : s.runAfter [.drainLane lane] =
          { s.setLane lane { st with draining := true } with stack := .pump lane [] :: s.stack } := by
        simp [QueueState.runAfter, QueueState.drainLane, QueueState.getLaneState, hst, hdraining]
      have hslot := hslots.of_lane hst
      have hset : FreeSlots (s.setLane lane { st with draining := true }) := hslots.setLane hslot
      rw [hpushed]
      refine ⟨fun l hl => hset l ?_, .inr ⟨lane, [], s.stack, { st with draining := true }, rfl, ?_,
        hturn, by simp, hempty⟩⟩
      · rw [waiting_cons] at hl
        refine hl.resolve_left ?_
        rintro ⟨_, h⟩
        cases h
      · intro l hl
        simp at hl
  · exact bounded_runAfter hslots hturn (afterInTurn_drainLane hw)

variable {named : String}

theorem Bounded.enqueueCommandInLane (hslots : FreeSlots s) (hturn : InTurn s.stack)
    {opts : CommandQueueEnqueueOptions}
    (hguard : Undisturbed s (.call (.enqueueCommandInLane named opts))) :
    Bounded (s.enqueueCommandInLane named opts) := by
  unfold QueueState.enqueueCommandInLane
  by_cases hdraining : s.gatewayDraining
  · simp only [hdraining, if_true]
    exact ⟨hslots, .inl hturn⟩
  · dsimp only
    rw [if_neg hdraining]
    have hguard' : ∀ st, Waiting (normalizeLane named) s.stack →
        s.lanes (normalizeLane named) = some st → st.draining = true := by
      intro st hw hst
      have hnot := hguard _ rfl _ hw st hst
      simpa [Disturbs, hdraining] using hnot
    generalize normalizeLane named = cleaned at hguard' ⊢
    have hnumbered : FreeSlots { s with nextPromise := s.nextPromise + 1 } := hslots
    obtain ⟨hget, hstack, hst, hsame⟩ := hnumbered.getLaneState cleaned
    generalize QueueState.getLaneState _ cleaned = found at hget hstack hst hsame ⊢
    obtain ⟨s', st⟩ := found
    generalize QueueEntry.mk .. = entry
    have hslot := hget.of_lane hst
    have hset : FreeSlots (s'.setLane cleaned (enqueueLaneEntry st entry)) := hget.setLane hslot
    have hlane : (s'.setLane cleaned (enqueueLaneEntry st entry)).lanes cleaned =
        some (enqueueLaneEntry st entry) := by simp
    refine bounded_drainLane (s := { s'.setLane cleaned (enqueueLaneEntry st entry) with
      nextQueueSequence := s'.nextQueueSequence + 1 }) hset (hstack.symm ▸ hturn) hlane
      fun hw => .inl ?_
    have hw' : Waiting cleaned s.stack := hstack ▸ hw
    exact hguard' st hw' (hsame hw')

theorem Bounded.setCommandLaneConcurrency (hslots : FreeSlots s) (hturn : InTurn s.stack) {n : ℚ}
    (hguard : Undisturbed s (.call (.setCommandLaneConcurrency named n))) :
    Bounded (s.setCommandLaneConcurrency named n) := by
  unfold QueueState.setCommandLaneConcurrency
  have hguard' : ∀ st, Waiting (normalizeLane named) s.stack →
      s.lanes (normalizeLane named) = some st →
      (st.activeTaskIds.card : Int) < concurrencyOf (normalizeLane named) n ∧
        (st.draining = true ∨ st.queue = []) := by
    intro st hw hst
    have hnot := hguard _ rfl _ hw st hst
    simp only [Disturbs, true_and, not_or, not_le, not_and] at hnot
    refine ⟨hnot.1, ?_⟩
    cases hdraining : st.draining with
    | true => exact .inl rfl
    | false => exact .inr (not_not.1 (hnot.2 hdraining))
  generalize normalizeLane named = cleaned at hguard' ⊢
  dsimp only
  obtain ⟨hget, hstack, hst, hsame⟩ := hslots.getLaneState cleaned
  generalize QueueState.getLaneState _ cleaned = found at hget hstack hst hsame ⊢
  obtain ⟨s', st⟩ := found
  have hconcurrency : max (if isProbeLane cleaned = true then (1 : Int) else 0) ⌊n⌋ =
      concurrencyOf cleaned n := rfl
  rw [hconcurrency]
  have hset : FreeSlots (s'.setLane cleaned { st with maxConcurrent := concurrencyOf cleaned n }) :=
    hget.setLane fun hw => by
      have hw' : Waiting cleaned s.stack := hstack ▸ hw
      exact (hguard' st hw' (hsame hw')).1
  have hturn' : InTurn s'.stack := hstack.symm ▸ hturn
  have hlane : (s'.setLane cleaned { st with maxConcurrent := concurrencyOf cleaned n }).lanes cleaned =
      some { st with maxConcurrent := concurrencyOf cleaned n } := by simp
  split_ifs
  · refine bounded_drainLane hset hturn' hlane fun hw => ?_
    have hw' : Waiting cleaned s.stack := hstack ▸ hw
    exact (hguard' st hw' (hsame hw')).2
  · exact ⟨hset, .inl hturn'⟩

theorem Bounded.clearCommandLane (hslots : FreeSlots s) (hturn : InTurn s.stack) (named : String) :
    Bounded (s.clearCommandLane named) := by
  unfold QueueState.clearCommandLane
  generalize normalizeLane named = cleaned
  dsimp only
  cases hst : s.lanes cleaned with
  | none => exact ⟨hslots, .inl hturn⟩
  | some st =>
    have hslot := hslots.of_lane hst
    have hset : FreeSlots (s.setLane cleaned { st with queue := [] }) := hslots.setLane hslot
    exact ⟨hset, .inl hturn⟩

theorem slot_reset (h : (st.activeTaskIds.card : Int) < st.maxConcurrent) :
    (st.reset.activeTaskIds.card : Int) < st.reset.maxConcurrent := by
  simp only [LaneState.reset, Finset.card_empty]
  omega

theorem Bounded.resetCommandLane (hslots : FreeSlots s) (hturn : InTurn s.stack)
    (hguard : Undisturbed s (.call (.resetCommandLane named))) :
    Bounded (s.resetCommandLane named) := by
  unfold QueueState.resetCommandLane
  have hguard' : ∀ st, Waiting (normalizeLane named) s.stack →
      s.lanes (normalizeLane named) = some st → st.queue = [] := by
    intro st hw hst
    simpa [Disturbs] using hguard _ rfl _ hw st hst
  generalize normalizeLane named = cleaned at hguard' ⊢
  dsimp only
  cases hst : s.lanes cleaned with
  | none => exact ⟨hslots, .inl hturn⟩
  | some st =>
    have hset : FreeSlots (s.setLane cleaned st.reset) :=
      hslots.setLane fun hw => slot_reset (hslots.of_lane hst hw)
    refine bounded_runAfter hset hturn fun l hl => ?_
    have hl : st.queue ≠ [] ∧ l = cleaned := by
      split_ifs at hl with hq
      · exact ⟨hq, by simpa using hl⟩
      · simp at hl
    rw [hl.2]
    exact fun hw => hl.1 (hguard' st hw hst)

theorem Bounded.resetAllLanes (hslots : FreeSlots s) (hturn : InTurn s.stack)
    (hguard : Undisturbed s (.call .resetAllLanes)) : Bounded s.resetAllLanes := by
  have hset : FreeSlots { s with
      gatewayDraining := false
      lanes := fun lane => (s.lanes lane).map LaneState.reset } := by
    intro lane hw
    obtain ⟨st, hst, hslot⟩ := hslots lane hw
    exact ⟨st.reset, by simp [hst], slot_reset hslot⟩
  refine bounded_runAfter hset hturn fun l hl hw => ?_
  obtain ⟨st, hst, -⟩ := hslots l hw
  have hempty : st.queue = [] := by simpa [Disturbs] using hguard _ rfl _ hw st hst
  simp [QueueState.hasQueued, hst, hempty] at hl

theorem Bounded.call (hs : Bounded s) (haccepts : s.acceptsCalls = true)
    (hguard : Undisturbed s (.call c)) : Bounded (s.call c) := by
  have hturn : InTurn s.stack := by
    rcases hs.turn with hturn | ⟨lane, after, rest, st, hstack, -⟩
    · exact hturn
    · simp [QueueState.acceptsCalls, hstack, Frame.isCallback] at haccepts
  cases c with
  | enqueueCommandInLane named opts => exact .enqueueCommandInLane hs.slot hturn hguard
  | setCommandLaneConcurrency named n => exact .setCommandLaneConcurrency hs.slot hturn hguard
  | clearCommandLane named => exact .clearCommandLane hs.slot hturn named
  | resetCommandLane named => exact .resetCommandLane hs.slot hturn hguard
  | resetAllLanes => exact .resetAllLanes hs.slot hturn hguard
  | waitForActiveTasks timeoutMs =>
    show Bounded (s.waitForActiveTasks timeoutMs)
    unfold QueueState.waitForActiveTasks
    dsimp only
    split_ifs <;> exact ⟨hs.slot, .inl hturn⟩
  | markGatewayDraining => exact ⟨hs.slot, .inl hturn⟩

theorem bounded_of_empty (hstack : s.stack = []) (after : List After) :
    Bounded (s.runAfter after) := by
  have hnot : ∀ lane, ¬ Waiting lane s.stack := by
    rw [hstack]
    rintro lane ⟨entry, h⟩
    cases h
  exact bounded_runAfter (fun lane h => absurd h (hnot lane)) (hstack ▸ trivial)
    fun lane _ => hnot lane

variable {e : Event}

theorem Bounded.step (hs : Bounded s) (h : s.step e = some t) (hguard : Undisturbed s e) :
    Bounded t := by
  cases e with
  | call c =>
    simp only [QueueState.step] at h
    split_ifs at h with haccepts
    exact Option.some.inj h ▸ hs.call haccepts hguard
  | resume => exact hs.resume h
  | finish task ok =>
    simp only [QueueState.step] at h
    generalize (if ok = true then Outcome.resolved else .rejected) = outcome at h
    split_ifs at h with hempty
    unfold QueueState.finishTask at h
    cases hst : s.lanes task.lane with
    | none => simp [hst] at h
    | some st =>
      simp only [hst, Option.bind_eq_bind, Option.bind_some] at h
      split at h
      all_goals
        rw [Option.some.injEq] at h
        subst h
        refine bounded_of_empty ?_ _
        exact hempty.1
  | waiterTimeout waiter =>
    simp only [QueueState.step] at h
    split_ifs at h
    exact Option.some.inj h ▸ ⟨hs.slot, hs.turn⟩
  | tick now =>
    rw [QueueState.step, Option.some.injEq] at h
    exact h ▸ ⟨hs.slot, hs.turn⟩

theorem bounded_of_run (hs : UndisturbedRun s) : Bounded s := by
  refine Lts.Reachable.invariant hs ?_ fun _ _ _ hs h => hs.step h.1 h.2
  rintro _ ⟨now, rfl⟩
  exact ⟨fun lane ⟨entry, h⟩ => (nomatch h), .inl trivial⟩

/-! ## The tasks of a generation -/

/-- The started tasks of the lane's generation that have not settled. -/
def QueueState.activeTasks (s : QueueState) (lane : String) (generation : Nat) : List RunningTask :=
  s.running.filter fun task => task.lane = lane ∧ task.taskGeneration = generation

/-- The set a lane keeps is that of its current generation's tasks. -/
structure TasksListed (s : QueueState) : Prop where
  nodup : (s.running.map (·.taskId)).Nodup
  old : ∀ task ∈ s.running, task.taskId < s.nextTaskId
  generation : ∀ task ∈ s.running,
    ∃ st, s.lanes task.lane = some st ∧ task.taskGeneration ≤ st.generation
  active : ∀ lane st, s.lanes lane = some st → ∀ id,
    id ∈ st.activeTaskIds ↔ ∃ task ∈ s.activeTasks lane st.generation, task.taskId = id

/-- A change that keeps the tasks, and every lane's set and generation. -/
structure SameTasks (s t : QueueState) : Prop where
  running : t.running = s.running
  nextTaskId : t.nextTaskId = s.nextTaskId
  kept : ∀ lane st, s.lanes lane = some st → ∃ st', t.lanes lane = some st' ∧
    st'.activeTaskIds = st.activeTaskIds ∧ st'.generation = st.generation
  fresh : ∀ lane st, t.lanes lane = some st → s.lanes lane = none → st.activeTaskIds = ∅

theorem SameTasks.of_lanes (hlanes : t.lanes = s.lanes) (hrunning : t.running = s.running)
    (hnext : t.nextTaskId = s.nextTaskId) : SameTasks s t where
  running := hrunning
  nextTaskId := hnext
  kept lane st hst := ⟨st, hlanes ▸ hst, rfl, rfl⟩
  fresh lane st hst hnone := by
    rw [hlanes, hnone] at hst
    cases hst

theorem SameTasks.trans {u : QueueState} (h : SameTasks s t) (h' : SameTasks t u) :
    SameTasks s u where
  running := h'.running.trans h.running
  nextTaskId := h'.nextTaskId.trans h.nextTaskId
  kept lane st hst := by
    obtain ⟨st', hst', hactive, hgeneration⟩ := h.kept lane st hst
    obtain ⟨st'', hst'', hactive', hgeneration'⟩ := h'.kept lane st' hst'
    exact ⟨st'', hst'', hactive'.trans hactive, hgeneration'.trans hgeneration⟩
  fresh lane st hst hnone := by
    cases hmid : t.lanes lane with
    | none => exact h'.fresh lane st hst hmid
    | some st' =>
      obtain ⟨st'', hst'', hactive, -⟩ := h'.kept lane st' hmid
      rw [hst, Option.some.injEq] at hst''
      rw [hst'', hactive]
      exact h.fresh lane st' hmid hnone

variable {old : LaneState}

theorem sameTasks_setLane (st : LaneState) (hold : s.lanes lane = some old)
    (hactive : st.activeTaskIds = old.activeTaskIds)
    (hgeneration : st.generation = old.generation) : SameTasks s (s.setLane lane st) where
  running := rfl
  nextTaskId := rfl
  kept lane' st' hst' := by
    by_cases hl : lane' = lane
    · subst hl
      rw [hold, Option.some.injEq] at hst'
      exact ⟨st, by simp, hst' ▸ hactive, hst' ▸ hgeneration⟩
    · exact ⟨st', by simp [Function.update_of_ne hl, hst'], rfl, rfl⟩
  fresh lane' st' hst' hnone := by
    by_cases hl : lane' = lane
    · subst hl
      rw [hold] at hnone
      cases hnone
    · rw [setLane_lanes, Function.update_of_ne hl, hnone] at hst'
      cases hst'

theorem sameTasks_getLaneState (s : QueueState) (lane : String) :
    SameTasks s (s.getLaneState lane).1 ∧
      (s.getLaneState lane).1.lanes lane = some (s.getLaneState lane).2 := by
  unfold QueueState.getLaneState
  cases hlane : s.lanes lane with
  | some existing => exact ⟨.of_lanes rfl rfl rfl, hlane⟩
  | none =>
    refine ⟨⟨rfl, rfl, fun lane' st hst => ?_, fun lane' st hst hnone => ?_⟩, by simp⟩
    · have hl : lane' ≠ lane := by
        rintro rfl
        rw [hlane] at hst
        cases hst
      exact ⟨st, by simp [Function.update_of_ne hl, hst], rfl, rfl⟩
    · by_cases hl : lane' = lane
      · subst hl
        simp only [Function.update_self, Option.some.injEq] at hst
        rw [← hst]
        rfl
      · simp [Function.update_of_ne hl, hnone] at hst

theorem sameTasks_runAfter (s : QueueState) (after : List After) :
    SameTasks s (s.runAfter after) := by
  induction after generalizing s with
  | nil => exact .of_lanes rfl rfl rfl
  | cons k rest ih =>
    cases k with
    | drainLane lane =>
      obtain ⟨hget, hlane⟩ := sameTasks_getLaneState s lane
      unfold QueueState.runAfter QueueState.drainLane
      dsimp only
      by_cases hdraining : (s.getLaneState lane).2.draining
      · rw [if_pos hdraining]
        exact ih s
      · rw [if_neg hdraining]
        have hset := hget.trans (sameTasks_setLane
          { (s.getLaneState lane).2 with draining := true } hlane rfl rfl)
        exact hset.trans (.of_lanes rfl rfl rfl)
    | pump lane => exact .of_lanes rfl rfl rfl
    | notifyActiveTaskWaiters =>
      have hnotified : SameTasks s s.notifyActiveTaskWaiters := .of_lanes rfl rfl rfl
      exact hnotified.trans (ih _)
    | settle entry outcome =>
      have hsettled : SameTasks s { s with settled := s.settled ++ [(entry, outcome)] } :=
        .of_lanes rfl rfl rfl
      exact hsettled.trans (ih _)

theorem TasksListed.same (hs : TasksListed s) (h : SameTasks s t) : TasksListed t where
  nodup := h.running ▸ hs.nodup
  old := h.running ▸ h.nextTaskId ▸ hs.old
  generation task htask := by
    obtain ⟨st, hst, hle⟩ := hs.generation task (h.running ▸ htask)
    obtain ⟨st', hst', -, hgeneration⟩ := h.kept _ st hst
    exact ⟨st', hst', hgeneration ▸ hle⟩
  active lane st' hst' id := by
    unfold QueueState.activeTasks
    rw [h.running]
    cases hst : s.lanes lane with
    | none =>
      rw [h.fresh lane st' hst' hst]
      refine ⟨fun h => absurd h (Finset.notMem_empty _), ?_⟩
      rintro ⟨task, htask, -⟩
      obtain ⟨htask, hlane⟩ := List.mem_filter.1 htask
      obtain ⟨st, hst'', -⟩ := hs.generation task htask
      rw [(of_decide_eq_true hlane).1, hst] at hst''
      cases hst''
    | some st =>
      obtain ⟨st'', hst'', hactive, hgeneration⟩ := h.kept lane st hst
      rw [hst', Option.some.injEq] at hst''
      subst hst''
      rw [hactive, hgeneration]
      exact hs.active lane st hst id

theorem TasksListed.reset (hs : TasksListed s) (hrunning : t.running = s.running)
    (hnext : t.nextTaskId = s.nextTaskId)
    (hlanes : ∀ lane, t.lanes lane = s.lanes lane ∨
      t.lanes lane = (s.lanes lane).map LaneState.reset) : TasksListed t where
  nodup := hrunning ▸ hs.nodup
  old := hrunning ▸ hnext ▸ hs.old
  generation task htask := by
    obtain ⟨st, hst, hle⟩ := hs.generation task (hrunning ▸ htask)
    rcases hlanes task.lane with hsame | hreset
    · exact ⟨st, hsame.trans hst, hle⟩
    · exact ⟨st.reset, by rw [hreset, hst]; rfl, Nat.le_succ_of_le hle⟩
  active lane st' hst' id := by
    unfold QueueState.activeTasks
    rw [hrunning]
    rcases hlanes lane with hsame | hreset
    · exact hs.active lane st' (hsame ▸ hst') id
    · rw [hreset, Option.map_eq_some_iff] at hst'
      obtain ⟨st, hst, rfl⟩ := hst'
      refine ⟨fun h => absurd h (Finset.notMem_empty _), ?_⟩
      rintro ⟨task, htask, -⟩
      obtain ⟨htask, hlane⟩ := List.mem_filter.1 htask
      obtain ⟨hlane, hgeneration⟩ := of_decide_eq_true hlane
      obtain ⟨st'', hst'', hle⟩ := hs.generation task htask
      rw [hlane, hst, Option.some.injEq] at hst''
      subst hst''
      simp only [LaneState.reset] at hgeneration
      omega

theorem TasksListed.call (hs : TasksListed s) (c : Call) : TasksListed (s.call c) := by
  cases c with
  | enqueueCommandInLane named opts =>
    show TasksListed (s.enqueueCommandInLane named opts)
    unfold QueueState.enqueueCommandInLane
    by_cases hdraining : s.gatewayDraining
    · simp only [hdraining, if_true]
      exact hs.same (.of_lanes rfl rfl rfl)
    · dsimp only
      rw [if_neg hdraining]
      generalize normalizeLane named = cleaned
      have hnumbered : SameTasks s { s with nextPromise := s.nextPromise + 1 } :=
        .of_lanes rfl rfl rfl
      obtain ⟨hget, hlane⟩ := sameTasks_getLaneState { s with nextPromise := s.nextPromise + 1 } cleaned
      generalize QueueState.getLaneState _ cleaned = found at hget hlane ⊢
      obtain ⟨s', st⟩ := found
      generalize QueueEntry.mk .. = entry
      have hset := (hnumbered.trans hget).trans
        (sameTasks_setLane (enqueueLaneEntry st entry) hlane rfl rfl)
      refine hs.same ((hset.trans ?_).trans (sameTasks_runAfter _ _))
      exact .of_lanes rfl rfl rfl
  | setCommandLaneConcurrency named n =>
    show TasksListed (s.setCommandLaneConcurrency named n)
    unfold QueueState.setCommandLaneConcurrency
    generalize normalizeLane named = cleaned
    dsimp only
    generalize (if isProbeLane cleaned = true then (1 : Int) else 0) = low
    obtain ⟨hget, hlane⟩ := sameTasks_getLaneState s cleaned
    generalize QueueState.getLaneState _ cleaned = found at hget hlane ⊢
    obtain ⟨s', st⟩ := found
    have hset := hget.trans
      (sameTasks_setLane { st with maxConcurrent := max low ⌊n⌋ } hlane rfl rfl)
    split_ifs
    · exact hs.same (hset.trans (sameTasks_runAfter _ _))
    · exact hs.same hset
  | clearCommandLane named =>
    show TasksListed (s.clearCommandLane named)
    unfold QueueState.clearCommandLane
    generalize normalizeLane named = cleaned
    dsimp only
    cases hst : s.lanes cleaned with
    | none => exact hs
    | some st =>
      have hset := sameTasks_setLane { st with queue := [] } hst rfl rfl
      exact hs.same (hset.trans (.of_lanes rfl rfl rfl))
  | resetCommandLane named =>
    show TasksListed (s.resetCommandLane named)
    unfold QueueState.resetCommandLane
    generalize normalizeLane named = cleaned
    dsimp only
    cases hst : s.lanes cleaned with
    | none => exact hs
    | some st =>
      have hset : TasksListed (s.setLane cleaned st.reset) := by
        refine hs.reset rfl rfl fun lane => ?_
        by_cases hl : lane = cleaned
        · subst hl
          exact .inr (by simp [hst])
        · exact .inl (by simp [Function.update_of_ne hl])
      exact hset.same (sameTasks_runAfter _ _)
  | resetAllLanes =>
    have hset : TasksListed { s with
        gatewayDraining := false
        lanes := fun lane => (s.lanes lane).map LaneState.reset } :=
      hs.reset rfl rfl fun lane => .inr rfl
    exact hset.same (sameTasks_runAfter _ _)
  | waitForActiveTasks timeoutMs =>
    show TasksListed (s.waitForActiveTasks timeoutMs)
    unfold QueueState.waitForActiveTasks
    dsimp only
    split_ifs <;> exact hs.same (.of_lanes rfl rfl rfl)
  | markGatewayDraining => exact hs.same (.of_lanes rfl rfl rfl)

variable {task : RunningTask}

theorem mem_activeTasks {generation : Nat} : task ∈ s.activeTasks lane generation ↔
      task ∈ s.running ∧ task.lane = lane ∧ task.taskGeneration = generation := by
  simp [QueueState.activeTasks]

theorem TasksListed.activate (hs : TasksListed s) (st : LaneState)
    (hold : s.lanes lane = some old) (hactive : st.activeTaskIds = old.activeTaskIds)
    (hgeneration : st.generation = old.generation) (entry : QueueEntry) :
    TasksListed (s.activate lane st entry) := by
  have hrunning : (s.activate lane st entry).running =
    s.running ++ [⟨lane, s.nextTaskId, st.generation, entry.id⟩] := rfl
  have hlanes : (s.activate lane st entry).lanes = Function.update s.lanes lane
    (some { st with activeTaskIds := insert s.nextTaskId st.activeTaskIds }) := rfl
  refine ⟨?_, ?_, ?_, ?_⟩
  · rw [hrunning, List.map_append, List.nodup_append']
    refine ⟨hs.nodup, List.nodup_singleton _, ?_⟩
    intro id hid hnew
    obtain ⟨task, htask, rfl⟩ := List.mem_map.1 hid
    have := hs.old task htask
    simp only [List.map_cons, List.map_nil, List.mem_singleton] at hnew
    omega
  · intro task htask
    show task.taskId < s.nextTaskId + 1
    rcases List.mem_append.1 htask with htask | htask
    · exact (hs.old task htask).trans (Nat.lt_succ_self _)
    · rw [List.mem_singleton.1 htask]
      exact Nat.lt_succ_self _
  · intro task htask
    rw [hlanes]
    by_cases hl : task.lane = lane
    · rw [hl, Function.update_self]
      refine ⟨_, rfl, ?_⟩
      rcases List.mem_append.1 htask with htask | htask
      · obtain ⟨st', hst', hle⟩ := hs.generation task htask
        rw [hl, hold, Option.some.injEq] at hst'
        subst hst'
        exact hle.trans hgeneration.ge
      · rw [List.mem_singleton.1 htask]
    · rw [Function.update_of_ne hl]
      rcases List.mem_append.1 htask with htask | htask
      · exact hs.generation task htask
      · rw [List.mem_singleton.1 htask] at hl
        exact absurd rfl hl
  · intro lane' st' hst' id
    rw [hlanes] at hst'
    simp only [mem_activeTasks, hrunning, List.mem_append, List.mem_singleton]
    by_cases hl : lane' = lane
    · subst hl
      rw [Function.update_self, Option.some.injEq] at hst'
      subst hst'
      rw [Finset.mem_insert, hactive, hs.active lane' old hold id]
      simp only [mem_activeTasks, hgeneration]
      constructor
      · rintro (rfl | ⟨task, htask, rfl⟩)
        · exact ⟨_, ⟨.inr rfl, rfl, rfl⟩, rfl⟩
        · exact ⟨task, ⟨.inl htask.1, htask.2⟩, rfl⟩
      · rintro ⟨task, ⟨htask | rfl, hmatch⟩, rfl⟩
        · exact .inr ⟨task, ⟨htask, hmatch⟩, rfl⟩
        · exact .inl rfl
    · rw [Function.update_of_ne hl] at hst'
      rw [hs.active lane' st' hst' id]
      simp only [mem_activeTasks]
      constructor
      · rintro ⟨task, htask, rfl⟩
        exact ⟨task, ⟨.inl htask.1, htask.2⟩, rfl⟩
      · rintro ⟨task, ⟨htask | rfl, hmatch⟩, rfl⟩
        · exact ⟨task, ⟨htask, hmatch⟩, rfl⟩
        · exact absurd hmatch.1.symm hl

theorem TasksListed.finishTask (hs : TasksListed s) {outcome : Outcome} (htask : task ∈ s.running)
    (h : s.finishTask task outcome = some t) : TasksListed t := by
  have hnodup : s.running.Nodup := hs.nodup.of_map _
  have herase : ∀ {task'}, task' ∈ s.running.erase task ↔ task' ≠ task ∧ task' ∈ s.running :=
    hnodup.mem_erase_iff
  have hsub := List.erase_sublist (a := task) (l := s.running)
  have hdistinct : ∀ task' ∈ s.running, task'.taskId = task.taskId → task' = task :=
    fun task' htask' heq => List.inj_on_of_nodup_map hs.nodup htask' htask heq
  unfold QueueState.finishTask at h
  cases hst : s.lanes task.lane with
  | none => simp [hst] at h
  | some st =>
    simp only [hst, Option.bind_eq_bind, Option.bind_some, completeTask] at h
    split_ifs at h with hgeneration
    · -- the task of an older generation is in no set
      rw [Option.some.injEq] at h
      subst h
      refine TasksListed.same ?_ (sameTasks_runAfter _ _)
      refine ⟨hs.nodup.sublist (hsub.map _), fun task' h => hs.old task' (hsub.subset h),
        fun task' h => hs.generation task' (hsub.subset h), fun lane st' hst' id => ?_⟩
      rw [hs.active lane st' hst' id]
      simp only [mem_activeTasks, herase]
      refine exists_congr fun task' => and_congr_left fun _ => ?_
      constructor
      · rintro ⟨hmem, hlane, hmatch⟩
        refine ⟨⟨?_, hmem⟩, hlane, hmatch⟩
        rintro rfl
        have hst'' : s.lanes lane = some st' := hst'
        rw [← hlane, hst, Option.some.injEq] at hst''
        exact hgeneration (hmatch.trans (by rw [hst'']))
      · exact fun h => ⟨h.1.2, h.2⟩
    · rw [Option.some.injEq] at h
      subst h
      refine TasksListed.same ?_ (sameTasks_runAfter _ _)
      refine TasksListed.same (s := { s with running := s.running.erase task }.setLane task.lane
        { st with activeTaskIds := st.activeTaskIds.erase task.taskId }) ?_ (.of_lanes rfl rfl rfl)
      refine ⟨hs.nodup.sublist (hsub.map _), fun task' h => hs.old task' (hsub.subset h),
        fun task' h => ?_, fun lane st' hst' id => ?_⟩
      · obtain ⟨st', hst', hle⟩ := hs.generation task' (hsub.subset h)
        by_cases hl : task'.lane = task.lane
        · rw [hl, hst, Option.some.injEq] at hst'
          subst hst'
          exact ⟨{ st with activeTaskIds := st.activeTaskIds.erase task.taskId }, by simp [hl], hle⟩
        · exact ⟨st', by simp [Function.update_of_ne hl, hst'], hle⟩
      · have hmem : ∀ task', task' ∈ QueueState.activeTasks ({ s with
              running := s.running.erase task }.setLane task.lane { st with
                activeTaskIds := st.activeTaskIds.erase task.taskId }) lane st'.generation ↔
            task' ≠ task ∧ task' ∈ s.activeTasks lane st'.generation := by
          intro task'
          simp only [mem_activeTasks]
          show task' ∈ s.running.erase task ∧ _ ↔ _
          rw [herase, and_assoc]
        simp only [hmem]
        by_cases hl : lane = task.lane
        · subst hl
          simp only [setLane_lanes, Function.update_self, Option.some.injEq] at hst'
          subst hst'
          rw [Finset.mem_erase, hs.active _ st hst id]
          constructor
          · rintro ⟨hid, task', htask', rfl⟩
            exact ⟨task', ⟨fun heq => hid (by rw [heq]), htask'⟩, rfl⟩
          · rintro ⟨task', ⟨hne, htask'⟩, rfl⟩
            exact ⟨fun hid => hne (hdistinct task' (mem_activeTasks.1 htask').1 hid),
              task', htask', rfl⟩
        · simp only [setLane_lanes, Function.update_of_ne hl] at hst'
          rw [hs.active lane st' hst' id]
          constructor
          · rintro ⟨task', htask', rfl⟩
            refine ⟨task', ⟨?_, htask'⟩, rfl⟩
            rintro rfl
            exact hl (mem_activeTasks.1 htask').2.1.symm
          · rintro ⟨task', htask', hid⟩
            exact ⟨task', htask'.2, hid⟩

theorem TasksListed.step (hs : TasksListed s) (h : s.step e = some t) : TasksListed t := by
  cases e with
  | call c =>
    simp only [QueueState.step] at h
    split_ifs at h
    exact Option.some.inj h ▸ hs.call c
  | resume =>
    cases ResumeStep.of_resume h with
    | @exits lane after rest st hstack hst ht =>
      subst ht
      have hset := sameTasks_setLane { st with draining := false } hst rfl rfl
      have hpopped : SameTasks s { s.setLane lane { st with draining := false } with stack := rest } :=
        hset.trans (.of_lanes rfl rfl rfl)
      exact hs.same (hpopped.trans (sameTasks_runAfter _ _))
    | @waits lane after rest st entry queue hstack hst hq hslot ht =>
      subst ht
      have hset := sameTasks_setLane { st with queue := queue } hst rfl rfl
      exact hs.same (hset.trans (.of_lanes rfl rfl rfl))
    | @starts lane after rest st entry queue hstack hst hq hslot ht =>
      subst ht
      exact hs.activate { st with queue := queue } hst rfl rfl _
    | @startsWaiting lane entry rest st hstack hst ht =>
      subst ht
      have hpopped : TasksListed { s with stack := rest } := hs.same (.of_lanes rfl rfl rfl)
      exact hpopped.activate st hst rfl rfl _
    | returns hstack ht =>
      subst ht
      exact hs.same (.of_lanes rfl rfl rfl)
  | finish task ok =>
    simp only [QueueState.step] at h
    generalize (if ok = true then Outcome.resolved else .rejected) = outcome at h
    split_ifs at h with htask
    exact hs.finishTask htask.2 h
  | waiterTimeout waiter =>
    simp only [QueueState.step] at h
    split_ifs at h
    exact Option.some.inj h ▸ hs.same (.of_lanes rfl rfl rfl)
  | tick now =>
    rw [QueueState.step, Option.some.injEq] at h
    exact h ▸ hs.same (.of_lanes rfl rfl rfl)

theorem TasksListed.card_eq (hs : TasksListed s) (hst : s.lanes lane = some st) :
    st.activeTaskIds.card = (s.activeTasks lane st.generation).length := by
  have hsub : (s.activeTasks lane st.generation).Sublist s.running := List.filter_sublist
  have hnodup := hs.nodup.sublist (hsub.map _)
  have hset : st.activeTaskIds = ((s.activeTasks lane st.generation).map (·.taskId)).toFinset := by
    ext id
    rw [hs.active lane st hst id, List.mem_toFinset, List.mem_map]
  rw [hset, List.toFinset_card_of_nodup hnodup, List.length_map]

/-- **The active set of a lane is its running tasks**, also across resets and with callbacks that
call back. -/
theorem activeTasks_exact (hs : Reachable s) : TasksListed s ∧
    ∀ lane st, s.lanes lane = some st →
      st.activeTaskIds.card = (s.activeTasks lane st.generation).length := by
  have htasks : TasksListed s := by
    refine Lts.Reachable.invariant (I := TasksListed) hs ?_ fun _ _ _ hs h => hs.step h
    rintro _ ⟨now, rfl⟩
    refine ⟨List.nodup_nil, ?_, ?_, ?_⟩
    · exact fun _ h => by cases h
    · exact fun _ h => by cases h
    · exact fun _ _ h => by cases h
  exact ⟨htasks, fun lane st hst => htasks.card_eq hst⟩

/-- The lane is reset while its first command runs. -/
theorem activeTasks_exact_reset : ∃ s, s.running = [⟨"main", 1, 0, 0⟩] ∧ TasksListed s ∧
    ∀ lane st, s.lanes lane = some st →
      st.activeTaskIds.card = (s.activeTasks lane st.generation).length := by
  have hrun : (Lts.run QueueState.step (.initial 0) [.call (.enqueueCommandInLane "main" {}),
      .resume, .resume, .call (.resetCommandLane "main")]).map (·.running) =
        some [⟨"main", 1, 0, 0⟩] := by decide
  obtain ⟨s, hs, hrunning⟩ := Option.map_eq_some_iff.1 hrun
  exact ⟨s, hrunning, activeTasks_exact (Lts.Reachable.run (.start ⟨0, rfl⟩) hs)⟩

/-! ## The order of starts -/

/-- The invariants of a run that do not need the condition. -/
structure QueueInv (s : QueueState) : Prop where
  listed : LanesListed s
  wellFormed : (s.ledger []).WellFormed
  tasks : TasksListed s

theorem QueueInv.step (hs : QueueInv s) (h : s.step e = some t) : QueueInv t := by
  obtain ⟨hlisted, hmoves⟩ := simulates_step hs.listed h
  exact ⟨hlisted, hs.wellFormed.moves hmoves, hs.tasks.step h⟩

theorem queueInv_of_run (hs : UndisturbedRun s) : QueueInv s := by
  refine Lts.Reachable.invariant hs ?_ fun _ _ _ hs h => hs.step h.1
  rintro _ ⟨now, rfl⟩
  refine ⟨⟨List.nodup_nil, fun lane => by simp [QueueState.initial]⟩, ⟨?_, ?_⟩, ⟨List.nodup_nil, ?_, ?_, ?_⟩⟩
  · simp [Ledger.total, QueueState.ledger, QueueState.initial, QueueState.owed, queuedIds]
  · simp [Ledger.total, QueueState.ledger, QueueState.initial, QueueState.owed, queuedIds]
  · exact fun _ h => by cases h
  · exact fun _ h => by cases h
  · exact fun _ _ h => by cases h

theorem queueOf_ids_nodup (hl : LanesListed s) (hw : (s.ledger []).WellFormed) (lane : String) :
    ((s.queueOf lane).map (·.id)).Nodup := by
  cases hst : s.lanes lane with
  | none => simp [QueueState.queueOf, hst]
  | some st =>
    obtain ⟨others, hsplit, -⟩ := queued_setLane hl (mem_laneOrder hl hst) st
    have hqueued : (queuedIds s.laneOrder s.queueOf).Nodup := by
      have hnodup := hw.nodup
      simp only [Ledger.total, Multiset.nodup_add] at hnodup
      exact hnodup.1.1.1.1
    rw [hsplit] at hqueued
    exact (Multiset.nodup_add.1 hqueued).1

theorem notMem_queueOf_of_callback (hl : LanesListed s) (hw : (s.ledger []).WellFormed)
    {p : String × QueueEntry} (hp : p ∈ s.callbacks) {q : QueueEntry} (hq : q ∈ s.queueOf lane) :
    q.id ≠ p.2.id := by
  intro heq
  have hqueued : (s.ledger []).HasFate q.id .queued := (hasFate_queued hl).2 ⟨lane, q, hq, rfl⟩
  have hstarting : (s.ledger []).HasFate q.id .starting := heq ▸ hasFate_starting hp
  obtain ⟨fate, -, hunique⟩ := hw.existsUnique_fate (Ledger.mem_total.2 ⟨_, hqueued⟩)
  exact nomatch (hunique _ hqueued).trans (hunique _ hstarting).symm

/-- `first` was queued ahead of `second`: it still is, or it has left the queue for good. -/
structure Precedes (s : QueueState) (lane : String) (first second : QueueEntry) : Prop where
  old : first.id < s.nextPromise
  ordered : first ∉ s.queueOf lane ∨ [first, second].Sublist (s.queueOf lane)

theorem nextPromise_le {l l' : Ledger Outcome} (h : Moves l l') : l.next ≤ l'.next := by
  induction h with
  | refl => exact le_refl _
  | tail _ hmove ih =>
    rcases hmove.total_cases with ⟨hnext, -⟩ | ⟨hnext, -⟩ <;> omega

variable {first second : QueueEntry}

theorem precedes_tail {head : QueueEntry} {queue : List QueueEntry}
    (hnodup : ((head :: queue).map (·.id)).Nodup)
    (h : first ∉ head :: queue ∨ [first, second].Sublist (head :: queue)) :
    first ∉ queue ∨ [first, second].Sublist queue := by
  rcases h with h | h
  · exact .inl fun hmem => h (List.mem_cons_of_mem _ hmem)
  · rcases List.sublist_cons_iff.1 h with h | ⟨l, hl, -⟩
    · exact .inr h
    · obtain rfl : first = head := (List.cons.inj hl).1
      rw [List.map_cons, List.nodup_cons] at hnodup
      exact .inl fun hmem => hnodup.1 (List.mem_map_of_mem hmem)

theorem Precedes.step (hs : Precedes s lane first second) (hinv : QueueInv s)
    (h : s.step e = some t) : Precedes t lane first second := by
  have hle : s.nextPromise ≤ t.nextPromise := nextPromise_le (simulates_step hinv.listed h).2
  refine ⟨hs.old.trans_le hle, ?_⟩
  have hids := queueOf_ids_nodup hinv.listed hinv.wellFormed lane
  have hordered := hs.ordered
  cases QueueStep.of_step h with
  | same hqueue => rwa [hqueue]
  | startsWaiting htask hqueue => rwa [hqueue]
  | @inserted named l opts entry st hst hentry hqueue =>
    rw [hqueue]
    by_cases hl : lane = l
    · subst hl
      rw [Function.update_self]
      refine hordered.imp (fun hnot hmem => ?_) fun hsub => ?_
      · rcases mem_enqueueLaneEntry hmem with hmem | ⟨-, hid⟩
        · exact hnot (hst ▸ hmem)
        · have := hs.old
          omega
      · have hinsert : st.queue.Sublist (enqueueLaneEntry st entry).queue :=
          List.sublist_insertIdx _ _ _
        exact (hst ▸ hsub).trans hinsert
    · rwa [Function.update_of_ne hl]
  | @cleared l named hqueue =>
    rw [hqueue]
    by_cases hl : lane = l
    · subst hl
      rw [Function.update_self]
      exact .inl List.not_mem_nil
    · rwa [Function.update_of_ne hl]
  | @waits l entry queue hq hqueue =>
    rw [hqueue]
    by_cases hl : lane = l
    · subst hl
      rw [Function.update_self]
      exact precedes_tail (hq ▸ hids) (hq ▸ hordered)
    · rwa [Function.update_of_ne hl]
  | @starts task entry queue hq htask hqueue =>
    rw [hqueue]
    by_cases hl : lane = task.lane
    · subst hl
      rw [Function.update_self]
      exact precedes_tail (hq ▸ hids) (hq ▸ hordered)
    · rwa [Function.update_of_ne hl]

/-! ## Every start -/

theorem Bounded.start (hs : Bounded s) (hguard : s.resume = some t)
    (htask : t.running = s.running ++ [task]) :
    (∃ st, s.lanes task.lane = some st ∧ (st.activeTaskIds.card : Int) < st.maxConcurrent) ∧
      ∀ entry, (task.lane, entry) ∈ s.callbacks → entry.id = task.entry := by
  have hlength := congrArg List.length htask
  rw [List.length_append, List.length_singleton] at hlength
  cases ResumeStep.of_resume hguard with
  | @exits lane after rest st hstack hst ht =>
    rw [ht, (sameQueues_runAfter _ _).running] at hlength
    change s.running.length = s.running.length + 1 at hlength
    omega
  | waits hstack hst hq hslot ht =>
    rw [ht] at hlength
    change s.running.length = s.running.length + 1 at hlength
    omega
  | @starts lane after rest st entry queue hstack hst hq hslot ht =>
    subst ht
    obtain rfl : RunningTask.mk lane s.nextTaskId st.generation entry.id = task := by
      simpa [QueueState.activate] using htask
    refine ⟨⟨st, hst, hslot⟩, fun other hother => ?_⟩
    rw [mem_callbacks, hstack] at hother
    rcases hs.turn with hturn | ⟨lane', after', rest', st', hstack', -, -, hst', hempty⟩
    · rw [hstack] at hturn
      rcases List.mem_cons.1 hother with heq | hother
      · cases heq
      · exact absurd ⟨other, hother⟩ hturn.1
    · rw [hstack] at hstack'
      cases hstack'
      rw [hst, Option.some.injEq] at hst'
      rw [hst', hempty] at hq
      cases hq
  | @startsWaiting lane entry rest st hstack hst ht =>
    subst ht
    obtain rfl : RunningTask.mk lane s.nextTaskId st.generation entry.id = task := by
      simpa [QueueState.activate] using htask
    have hwaiting : Waiting lane s.stack := ⟨entry, hstack ▸ List.mem_cons_self⟩
    have hslot := FreeSlots.of_lane hs.slot hst hwaiting
    refine ⟨⟨st, hst, hslot⟩, fun other hother => ?_⟩
    rw [mem_callbacks, hstack] at hother
    rcases hs.turn with hturn | ⟨lane', after', rest', st', hstack', -⟩
    · rw [hstack] at hturn
      rcases List.mem_cons.1 hother with heq | hother
      · cases heq
        rfl
      · exact absurd ⟨other, hother⟩ hturn.1
    · rw [hstack] at hstack'
      cases hstack'
  | returns hstack ht =>
    rw [ht] at hlength
    simp at hlength

theorem resume_of_start (h : s.step e = some t) (htask : t.running = s.running ++ [task]) :
    s.resume = some t := by
  have hlength := congrArg List.length htask
  rw [List.length_append, List.length_singleton] at hlength
  cases QueueStep.of_step h with
  | same hqueue hsequence hcallbacks hrunning =>
    have := hrunning.length_le
    omega
  | inserted st hst hentry hqueue hsequence hcallbacks hrunning =>
    rw [hrunning] at hlength
    omega
  | cleared hqueue hsequence hcallbacks hrunning hsettled =>
    rw [hrunning] at hlength
    omega
  | waits => exact h
  | starts => exact h
  | startsWaiting => exact h

theorem second_not_started (hordered : [first, second].Sublist (s.queueOf task.lane))
    (hids : ((s.queueOf task.lane).map (·.id)).Nodup)
    (hcallbacks : ∀ p ∈ s.callbacks, second.id ≠ p.2.id) (h : QueueStep s t e)
    (htask : t.running = s.running ++ [task]) : second.id ≠ task.entry := by
  have hlength := congrArg List.length htask
  rw [List.length_append, List.length_singleton] at hlength
  cases h with
  | same hqueue hsequence hcallbacks hrunning =>
    have := hrunning.length_le
    omega
  | inserted st hst hentry hqueue hsequence hcallbacks hrunning =>
    rw [hrunning] at hlength
    omega
  | cleared hqueue hsequence hcallbacks hrunning hsettled =>
    rw [hrunning] at hlength
    omega
  | waits hq hqueue hsequence hcallbacks hrunning =>
    rw [hrunning] at hlength
    omega
  | @starts started head queue hq hentry hqueue hsequence hcallbacks' hrunning =>
    rw [hrunning, List.append_cancel_left_eq, List.singleton_inj] at htask
    subst htask
    rw [hq] at hordered hids
    -- the second stands in the tail, whose numbers differ from that of the head
    have htail : second ∈ queue := by
      rcases List.sublist_cons_iff.1 hordered with hsub | ⟨l, hl, hsub⟩
      · exact hsub.subset (by simp)
      · obtain rfl : [second] = l := (List.cons.inj hl).2
        exact hsub.subset (by simp)
    rw [List.map_cons, List.nodup_cons] at hids
    intro heq
    exact hids.1 (hentry ▸ heq ▸ List.mem_map_of_mem htail)
  | @startsWaiting started entry hentry hqueue hsequence hstarting hrunning =>
    rw [hrunning, List.append_cancel_left_eq, List.singleton_inj] at htask
    subst htask
    rw [hentry]
    exact hcallbacks _ (hstarting ▸ List.mem_cons_self)

theorem precedes_of_run {s₀ : QueueState} (hs₀ : UndisturbedRun s₀)
    (hqueued : [first, second].Sublist (s₀.queueOf lane))
    (hs : Lts.Reachable (· = s₀) UndisturbedStep s) :
    QueueInv s ∧ Precedes s lane first second := by
  induction hs with
  | start h =>
    subst h
    have hinv := queueInv_of_run hs₀
    have hmem : first ∈ QueueState.queueOf _ lane := hqueued.subset (by simp)
    have hfate := (hasFate_queued hinv.listed).2 ⟨lane, first, hmem, rfl⟩
    exact ⟨hinv, hinv.wellFormed.lt_next _ (Ledger.mem_total.2 ⟨_, hfate⟩), .inr hqueued⟩
  | next _ h ih => exact ⟨ih.1.step h.1, ih.2.step ih.1 h.1⟩

/-- **Starts stay within the bound of the lane, in the order of its queue.** -/
theorem starts_within_bound {e : Event} (hs : UndisturbedRun s) (h : s.step e = some t)
    {task : RunningTask} (htask : t.running = s.running ++ [task]) :
    (∃ st, s.lanes task.lane = some st ∧
      ((s.activeTasks task.lane st.generation).length : Int) < st.maxConcurrent) ∧
    ∀ s₀ first second, UndisturbedRun s₀ → [first, second].Sublist (s₀.queueOf task.lane) →
      Lts.Reachable (· = s₀) UndisturbedStep s → second.id = task.entry →
      ¬ Unstarted s task.lane first := by
  have hresume := resume_of_start h htask
  obtain ⟨⟨st, hst, hslot⟩, hcallbacks⟩ := (bounded_of_run hs).start hresume htask
  have hinv := queueInv_of_run hs
  refine ⟨⟨st, hst, hinv.tasks.card_eq hst ▸ hslot⟩, ?_⟩
  intro s₀ first second hs₀ hqueued hreached hsecond hunstarted
  obtain ⟨-, hprecedes⟩ := precedes_of_run hs₀ hqueued hreached
  have hdifferent : first.id ≠ second.id := by
    have hinv₀ := queueInv_of_run hs₀
    have hpair := (queueOf_ids_nodup hinv₀.listed hinv₀.wellFormed task.lane).sublist
      (hqueued.map (·.id))
    simpa using hpair
  rcases hunstarted with hqueue | hcallback
  · -- the first is still queued ahead of the second, which is not the head then
    have hordered := hprecedes.ordered.resolve_left (not_not.2 hqueue)
    have hids := queueOf_ids_nodup hinv.listed hinv.wellFormed task.lane
    have hmem : second ∈ s.queueOf task.lane := hordered.subset (by simp)
    refine second_not_started hordered hids (fun p hp => ?_) (QueueStep.of_step h) htask hsecond
    exact notMem_queueOf_of_callback hinv.listed hinv.wellFormed hp hmem
  · exact hdifferent ((hcallbacks first hcallback).trans hsecond.symm)

/-- One step of an undisturbed run, if the event is one. -/
def undisturbedNext (s : QueueState) (e : Event) : Option QueueState :=
  if Undisturbed s e then s.step e else none

/-- Two commands wait behind a closed lane. -/
def closedLane : List Event :=
  [.call (.setCommandLaneConcurrency "main" 0),
    .call (.enqueueCommandInLane "main" { onWait := true, warnAfterMs := some 0 }), .resume,
    .call (.enqueueCommandInLane "main" {}), .resume]

/-- The lane opens, and the callback of the first command enqueues a third one. -/
def reopenedLane : List Event :=
  [.call (.setCommandLaneConcurrency "main" 2), .resume,
    .call (.enqueueCommandInLane "main" {}), .resume]

/-- The second command starts while the first one runs, in the lane's other slot. -/
theorem starts_within_bound_reentrant : ∃ s₀ s t first second,
    Lts.run undisturbedNext (.initial 0) closedLane = some s₀ ∧
    s₀.queueOf "main" = [first, second] ∧
    Lts.run undisturbedNext s₀ reopenedLane = some s ∧ s.step .resume = some t ∧
    t.running = s.running ++ [⟨"main", 2, 0, second.id⟩] ∧
    (∃ st, s.lanes "main" = some st ∧
      ((s.activeTasks "main" st.generation).length : Int) < st.maxConcurrent) ∧
    ¬ Unstarted s "main" first := by
  have hrun : ((Lts.run undisturbedNext (.initial 0) closedLane).any fun s₀ =>
      (s₀.queueOf "main").map (·.id) = [0, 1] &&
        (Lts.run undisturbedNext s₀ reopenedLane).any fun s =>
          (s.step .resume).any fun t => t.running = s.running ++ [⟨"main", 2, 0, 1⟩]) = true := by
    decide
  obtain ⟨s₀, hs₀, hrun⟩ := (Option.any_eq_true _ _).1 hrun
  rw [Bool.and_eq_true, decide_eq_true_iff] at hrun
  obtain ⟨hqueue, hrun⟩ := hrun
  obtain ⟨s, hs, hrun⟩ := (Option.any_eq_true _ _).1 hrun
  obtain ⟨t, ht, hrun⟩ := (Option.any_eq_true _ _).1 hrun
  have htask := of_decide_eq_true hrun
  obtain ⟨first, queue, hfirst, -, hsecond⟩ := List.map_eq_cons_iff.1 hqueue
  obtain ⟨second, rest, rfl, hid, hrest⟩ := List.map_eq_cons_iff.1 hsecond
  obtain rfl := List.map_eq_nil_iff.1 hrest
  have hclosed : UndisturbedRun s₀ := Lts.Reachable.run_guarded (.start ⟨0, rfl⟩) hs₀
  have hreopened : Lts.Reachable (· = s₀) UndisturbedStep s :=
    Lts.Reachable.run_guarded (.start rfl) hs
  obtain ⟨hslot, horder⟩ := starts_within_bound (Lts.Reachable.run_guarded hclosed hs) ht htask
  have hahead := horder s₀ first second hclosed (hfirst ▸ .refl _) hreopened hid
  exact ⟨s₀, s, t, first, second, hs₀, hfirst, hs, ht, by rw [hid, htask], hslot, hahead⟩

/-- A lane of one slot, whose completed task hands the slot to a command with a callback. -/
def nestedPump : List Event :=
  [.call (.enqueueCommandInLane "main" {}), .resume, .resume,
    .call (.enqueueCommandInLane "main" { onWait := true, warnAfterMs := some 0 }), .resume,
    .finish ⟨"main", 1, 0, 0⟩ true, .resume,
    .call (.enqueueCommandInLane "main" {}), .resume, .resume]

/-- The callback's command takes the slot, and the command with the callback starts all the same. -/
theorem nested_pump_exceeds_bound : ∃ s t st task, Reachable s ∧ s.step .resume = some t ∧
    t.running = s.running ++ [task] ∧ s.lanes task.lane = some st ∧
    ¬ ((s.activeTasks task.lane st.generation).length : Int) < st.maxConcurrent := by
  have hrun : ((Lts.run QueueState.step (.initial 0) nestedPump).any fun s =>
      (s.step .resume).any fun t => t.running = s.running ++ [⟨"main", 3, 0, 1⟩] &&
        (s.lanes "main").any fun st =>
          decide (¬ ((s.activeTasks "main" st.generation).length : Int) < st.maxConcurrent)) =
      true := by
    decide
  obtain ⟨s, hs, hrun⟩ := (Option.any_eq_true _ _).1 hrun
  obtain ⟨t, ht, hrun⟩ := (Option.any_eq_true _ _).1 hrun
  rw [Bool.and_eq_true, decide_eq_true_iff] at hrun
  obtain ⟨st, hst, hslot⟩ := (Option.any_eq_true _ _).1 hrun.2
  exact ⟨s, t, st, _, Lts.Reachable.run (.start ⟨0, rfl⟩) hs, ht, hrun.1, hst,
    of_decide_eq_true hslot⟩

end OpenClaw.CommandQueue
