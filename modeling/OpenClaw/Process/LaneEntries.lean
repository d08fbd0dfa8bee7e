import Mathlib.Data.Multiset.Bind
import OpenClaw.Lib.Ledger
import OpenClaw.Process.LaneProgress

/-!
# Every entry has one fate

**Theorem (`entries_settled_once_in_order`).** In every run in which callbacks do not call back into
the queue, an accepted entry is queued, or being started, or running, or settled, never two of them;
no step takes it back; and an entry starts only when no entry still queued in its lane goes before
it.

The first part is a simulation: `QueueState.ledger` reads the entries off the queues, the stack, the
tasks and the promises, and every event is a list of moves of that ledger (`simulates_step`),
callbacks or not. The second is the order of each queue (`QueuesSorted`), and of the entry in a
callback before what is still queued.

A run starts from the state `getQueueState` makes of what an older version left, which had neither
priorities nor sequence numbers (`StoredState.WrittenByOlder`); a fresh state is the empty case.
-/

namespace OpenClaw.CommandQueue

/-! ## The ledger of a state -/

def Outcome.kinds : Outcomes Outcome where
  ofRun o := o = .resolved ∨ o = .rejected
  ofDrop o := o = .cleared
  ofRefusal o := o = .gatewayDraining

/-- The entry in the callback of a frame. -/
def Frame.waiting : Frame → Option Nat
  | .onWait _ entry => some entry.id
  | .pump .. | .progress .. => none

def After.settling : After → Option (Nat × Outcome)
  | .settle entry outcome => some (entry, outcome)
  | .drainLane _ | .pump _ | .notifyActiveTaskWaiters => none

/-- The entries queued in a lane, in order. -/
def QueueState.queueOf (s : QueueState) (lane : String) : List QueueEntry :=
  (s.lanes lane).elim [] LaneState.queue

/-- The numbers of a queue's entries. -/
def idsOf (queue : List QueueEntry) : Multiset Nat := (queue.map (·.id) : List Nat)

/-- The numbers of all queued entries. -/
def queuedIds (laneOrder : List String) (queueOf : String → List QueueEntry) : Multiset Nat :=
  (laneOrder : Multiset String).bind fun lane => idsOf (queueOf lane)

/-- The ledger of a state in which `after` is still to be run. -/
def QueueState.ledger (s : QueueState) (after : List After) : Ledger Outcome where
  next := s.nextPromise
  queued := queuedIds s.laneOrder s.queueOf
  starting := (s.stack.filterMap Frame.waiting : List Nat)
  running := (s.running.map (·.entry) : List Nat)
  settling := ((s.owed after).filterMap After.settling : List (Nat × Outcome))
  settled := (s.settled : List (Nat × Outcome))

/-- The lane map and its keys agree. -/
structure LanesListed (s : QueueState) : Prop where
  nodup : s.laneOrder.Nodup
  listed : ∀ lane, lane ∈ s.laneOrder ↔ s.lanes lane ≠ none

abbrev Moves : Ledger Outcome → Ledger Outcome → Prop := Ledger.Moves Outcome.kinds

variable {s t : QueueState} {after rest : List After} {lane : String}

/-! ### Changing one lane -/

theorem queueOf_setLane (s : QueueState) (lane : String) (st : LaneState) :
    (s.setLane lane st).queueOf = Function.update s.queueOf lane st.queue := by
  funext lane'
  by_cases hl : lane' = lane
  · subst hl
    simp [QueueState.queueOf]
  · simp [QueueState.queueOf, Function.update_of_ne hl]

theorem ledger_congr (hnext : t.nextPromise = s.nextPromise) (horder : t.laneOrder = s.laneOrder)
    (hqueue : t.queueOf = s.queueOf)
    (hstack : t.stack.filterMap Frame.waiting = s.stack.filterMap Frame.waiting)
    (hrunning : t.running.map (·.entry) = s.running.map (·.entry))
    (howed : (t.owed after).filterMap After.settling = (s.owed rest).filterMap After.settling)
    (hsettled : t.settled = s.settled) : t.ledger after = s.ledger rest := by
  simp only [QueueState.ledger, hnext, horder, hqueue, hstack, hrunning, howed, hsettled]

theorem queueOf_setLane_same {st : LaneState} (hq : st.queue = s.queueOf lane) :
    (s.setLane lane st).queueOf = s.queueOf := by
  rw [queueOf_setLane, hq, Function.update_eq_self]

theorem LanesListed.setLane (hs : LanesListed s) (hlane : lane ∈ s.laneOrder) (st : LaneState) :
    LanesListed (s.setLane lane st) where
  nodup := hs.nodup
  listed lane' := by
    by_cases hl : lane' = lane
    · subst hl
      simp [hlane]
    · rw [setLane_lanes, Function.update_of_ne hl]
      exact hs.listed lane'

theorem queuedIds_split {order : List String} (hnodup : order.Nodup) (hlane : lane ∈ order)
    (queueOf : String → List QueueEntry) :
    ∃ others, ∀ queue, queuedIds order (Function.update queueOf lane queue) =
      idsOf queue + others := by
  obtain ⟨before, behind, rfl⟩ := List.append_of_mem hlane
  rw [List.nodup_middle, List.nodup_cons] at hnodup
  refine ⟨queuedIds (before ++ behind) queueOf, fun queue => ?_⟩
  have hperm : ((before ++ lane :: behind : List String) : Multiset String) =
      lane ::ₘ (before ++ behind : List String) := by
    rw [Multiset.cons_coe, Multiset.coe_eq_coe]
    exact List.perm_middle
  unfold queuedIds
  rw [hperm, Multiset.cons_bind, Function.update_self]
  congr 1
  refine Multiset.bind_congr fun l hl => ?_
  have hne : l ≠ lane := fun heq => hnodup.1 (heq ▸ hl)
  rw [Function.update_of_ne hne]

theorem queued_setLane (hs : LanesListed s) (hlane : lane ∈ s.laneOrder) (st : LaneState) :
    ∃ others, queuedIds s.laneOrder s.queueOf = idsOf (s.queueOf lane) + others ∧
      queuedIds s.laneOrder (s.setLane lane st).queueOf = idsOf st.queue + others := by
  obtain ⟨others, hothers⟩ := queuedIds_split hs.nodup hlane s.queueOf
  refine ⟨others, ?_, ?_⟩
  · have h := hothers (s.queueOf lane)
    rwa [Function.update_eq_self] at h
  · rw [queueOf_setLane]
    exact hothers st.queue

theorem queueOf_of_lanes {st : LaneState} (hst : s.lanes lane = some st) :
    s.queueOf lane = st.queue := by
  simp [QueueState.queueOf, hst]

theorem getLaneState_spec (hs : LanesListed s) (lane : String) (after : List After) :
    LanesListed (s.getLaneState lane).1 ∧ (s.getLaneState lane).1.ledger after = s.ledger after ∧
      (s.getLaneState lane).1.lanes lane = some (s.getLaneState lane).2 ∧
      (s.getLaneState lane).1.queueOf = s.queueOf := by
  unfold QueueState.getLaneState
  cases hlane : s.lanes lane with
  | some existing => exact ⟨hs, rfl, hlane, rfl⟩
  | none =>
    have hqueue : s.queueOf lane = [] := by simp [QueueState.queueOf, hlane]
    have hfresh : lane ∉ s.laneOrder := fun h => (hs.listed lane).1 h hlane
    have hsame : (s.setLane lane (.created lane)).queueOf = s.queueOf :=
      queueOf_setLane_same hqueue.symm
    refine ⟨⟨?_, fun lane' => ?_⟩, ?_, by simp, hsame⟩
    · rw [List.nodup_append']
      exact ⟨hs.nodup, List.nodup_singleton _, by simpa using hfresh⟩
    · by_cases hl : lane' = lane
      · subst hl
        simp
      · simp [hl, hs.listed lane']
    · have hempty : queuedIds (s.laneOrder ++ [lane]) s.queueOf = queuedIds s.laneOrder s.queueOf := by
        unfold queuedIds
        rw [← Multiset.coe_add, Multiset.add_bind, Multiset.coe_singleton, Multiset.singleton_bind,
          hqueue]
        exact add_zero _
      have hq : queuedIds (s.laneOrder ++ [lane]) (s.setLane lane (.created lane)).queueOf =
          queuedIds s.laneOrder s.queueOf := by
        rw [hsame, hempty]
      exact congrArg (fun queued => { s.ledger after with queued := queued }) hq

theorem mem_laneOrder (hs : LanesListed s) {st : LaneState} (hst : s.lanes lane = some st) :
    lane ∈ s.laneOrder :=
  (hs.listed lane).2 (by simp [hst])

theorem Moves.of_eq {l l' : Ledger Outcome} (h : l' = l) : Moves l l' := h ▸ .refl

theorem coe_append_singleton {α : Type} (l : List α) (a : α) :
    ((l ++ [a] : List α) : Multiset α) = a ::ₘ (l : Multiset α) :=
  Multiset.coe_eq_coe.2 (List.perm_append_singleton a l)

/-! ### Running what is owed -/

theorem filterMap_owed_cons (s : QueueState) (k : After) (after : List After) :
    (s.owed (k :: after)).filterMap After.settling =
      k.settling.toList ++ (s.owed after).filterMap After.settling := by
  cases k <;> rfl

theorem moves_runAfter (hs : LanesListed s) (after : List After) :
    LanesListed (s.runAfter after) ∧ Moves (s.ledger after) ((s.runAfter after).ledger []) := by
  induction after generalizing s with
  | nil => exact ⟨hs, .refl⟩
  | cons k rest ih =>
    cases k with
    | drainLane lane =>
      obtain ⟨hget, hledger, hlane, hqueue⟩ := getLaneState_spec hs lane rest
      have hskip : s.ledger (.drainLane lane :: rest) = s.ledger rest :=
        ledger_congr rfl rfl rfl rfl rfl (filterMap_owed_cons s _ _) rfl
      unfold QueueState.runAfter QueueState.drainLane
      dsimp only
      rw [hskip]
      by_cases hdraining : (s.getLaneState lane).2.draining
      · rw [if_pos hdraining]
        exact ih hs
      · rw [if_neg hdraining]
        have hset := hget.setLane (mem_laneOrder hget hlane)
          { (s.getLaneState lane).2 with draining := true }
        refine ⟨⟨hset.nodup, hset.listed⟩, ?_⟩
        rw [← hledger]
        refine .of_eq (ledger_congr rfl rfl ?_ rfl rfl ?_ rfl)
        · exact queueOf_setLane_same (queueOf_of_lanes hlane).symm
        · simp [QueueState.owed, Frame.after]
    | pump lane =>
      refine ⟨⟨hs.nodup, hs.listed⟩, .of_eq (ledger_congr rfl rfl rfl rfl rfl ?_ rfl)⟩
      rw [filterMap_owed_cons]
      simp [QueueState.owed, Frame.after, QueueState.runAfter, After.settling]
    | notifyActiveTaskWaiters =>
      exact ih (s := s.notifyActiveTaskWaiters) ⟨hs.nodup, hs.listed⟩
    | settle entry outcome =>
      obtain ⟨hlisted, hmoves⟩ :=
        ih (s := { s with settled := s.settled ++ [(entry, outcome)] }) ⟨hs.nodup, hs.listed⟩
      refine ⟨hlisted, .head ?_ hmoves⟩
      have hsettling : (s.ledger (.settle entry outcome :: rest)).settling =
          (entry, outcome) ::ₘ (s.ledger rest).settling := by
        rfl
      have hledger : { s with settled := s.settled ++ [(entry, outcome)] }.ledger rest =
          { s.ledger (.settle entry outcome :: rest) with
            settling := (s.ledger rest).settling
            settled := (entry, outcome) ::ₘ (s.ledger (.settle entry outcome :: rest)).settled } :=
        Ledger.ext rfl rfl rfl rfl rfl (coe_append_singleton s.settled _)
      rw [hledger]
      exact .settle _ _ _ hsettling

/-! ### The events -/

/-- What an event of the state machine is in the ledger. -/
def Simulates (s t : QueueState) : Prop := LanesListed t ∧ Moves (s.ledger []) (t.ledger [])

theorem Simulates.of_runAfter (ht : LanesListed t) (h : t.ledger after = s.ledger []) :
    Simulates s (t.runAfter after) := by
  obtain ⟨hlisted, hmoves⟩ := moves_runAfter ht after
  exact ⟨hlisted, h ▸ hmoves⟩

theorem queuedIds_take (hs : LanesListed s) {st : LaneState} (st' : LaneState) (hst : s.lanes lane = some st)
    {entry : QueueEntry} (hq : st.queue = entry :: st'.queue) :
    queuedIds s.laneOrder s.queueOf =
      entry.id ::ₘ queuedIds s.laneOrder (s.setLane lane st').queueOf := by
  obtain ⟨others, hbefore, hafter⟩ := queued_setLane hs (mem_laneOrder hs hst) st'
  rw [hbefore, hafter, queueOf_of_lanes hst, hq, ← Multiset.cons_add]
  rfl

theorem ledger_activate (s : QueueState) (lane : String) (st : LaneState) (entry : QueueEntry) :
    (s.activate lane st entry).ledger [] =
      { s.ledger [] with
        queued := queuedIds s.laneOrder (s.setLane lane st).queueOf
        running := entry.id ::ₘ (s.ledger []).running } := by
  have hqueue : (s.activate lane st entry).queueOf = (s.setLane lane st).queueOf :=
    (queueOf_setLane s lane _).trans (queueOf_setLane s lane st).symm
  have hstack : (s.activate lane st entry).stack.filterMap Frame.waiting =
        s.stack.filterMap Frame.waiting ∧
      (s.activate lane st entry).stack.flatMap Frame.after = s.stack.flatMap Frame.after := by
    unfold QueueState.activate
    split_ifs <;> exact ⟨rfl, rfl⟩
  refine Ledger.ext rfl ?_ ?_ ?_ ?_ rfl
  · show queuedIds s.laneOrder (s.activate lane st entry).queueOf = _
    rw [hqueue]
  · show (((s.activate lane st entry).stack.filterMap Frame.waiting : List Nat) : Multiset Nat) = _
    rw [hstack.1]
    rfl
  · simp only [QueueState.ledger, QueueState.activate, List.map_append, List.map_cons, List.map_nil]
    exact coe_append_singleton _ _
  · simp only [QueueState.ledger, QueueState.owed, hstack.2]

theorem LanesListed.activate (hs : LanesListed s) (hlane : lane ∈ s.laneOrder) (st : LaneState)
    (entry : QueueEntry) : LanesListed (s.activate lane st entry) := by
  have hset := hs.setLane hlane
    { st with activeTaskIds := insert s.nextTaskId st.activeTaskIds }
  exact ⟨hset.nodup, hset.listed⟩

/-- What one turn of the loop, or the return of a callback, can do. -/
inductive ResumeStep (s t : QueueState) : Prop
  | exits {lane : String} {after : List After} {rest : List Frame} {st : LaneState}
    (hstack : s.stack = .pump lane after :: rest) (hst : s.lanes lane = some st)
    (ht : t = { s.setLane lane { st with draining := false } with stack := rest }.runAfter after)
  | waits {lane : String} {after : List After} {rest : List Frame} {st : LaneState}
    {entry : QueueEntry} {queue : List QueueEntry}
    (hstack : s.stack = .pump lane after :: rest) (hst : s.lanes lane = some st)
    (hq : st.queue = entry :: queue) (hslot : (st.activeTaskIds.card : Int) < st.maxConcurrent)
    (ht : t = { s.setLane lane { st with queue := queue } with
      stack := .onWait lane entry :: s.stack })
  | starts {lane : String} {after : List After} {rest : List Frame} {st : LaneState}
    {entry : QueueEntry} {queue : List QueueEntry}
    (hstack : s.stack = .pump lane after :: rest) (hst : s.lanes lane = some st)
    (hq : st.queue = entry :: queue) (hslot : (st.activeTaskIds.card : Int) < st.maxConcurrent)
    (ht : t = s.activate lane { st with queue := queue } entry)
  | startsWaiting {lane : String} {entry : QueueEntry} {rest : List Frame} {st : LaneState}
    (hstack : s.stack = .onWait lane entry :: rest) (hst : s.lanes lane = some st)
    (ht : t = { s with stack := rest }.activate lane st entry)
  | returns {lane : String} {rest : List Frame} (hstack : s.stack = .progress lane :: rest)
    (ht : t = { s with stack := rest })

theorem ResumeStep.of_resume (h : s.resume = some t) : ResumeStep s t := by
  unfold QueueState.resume at h
  cases hstack : s.stack with
  | nil => simp [hstack] at h
  | cons f rest =>
    cases f with
    | pump lane after =>
      simp only [hstack] at h
      cases hst : s.lanes lane with
      | none => simp [QueueState.pumpTurn, hst] at h
      | some st =>
        simp only [QueueState.pumpTurn, hst, Option.bind_eq_bind, Option.bind_some] at h
        split at h
        case h_1 entry queue hq =>
          split_ifs at h with hslot hwait
          · exact .waits hstack hst hq hslot (Option.some.inj h).symm
          · exact .starts hstack hst hq hslot (Option.some.inj h).symm
          · exact .exits hstack hst (Option.some.inj h).symm
        case h_2 => exact .exits hstack hst (Option.some.inj h).symm
    | onWait lane entry =>
      cases hst : s.lanes lane with
      | none => simp [hstack, hst] at h
      | some st =>
        simp only [hstack, hst, Option.bind_eq_bind, Option.bind_some, Option.some.injEq] at h
        exact .startsWaiting hstack hst h.symm
    | progress lane =>
      simp only [hstack, Option.some.injEq] at h
      exact .returns hstack h.symm

theorem simulates_resume (hs : LanesListed s) (h : s.resume = some t) : Simulates s t := by
  cases ResumeStep.of_resume h with
  | @exits lane after rest st hstack hst ht =>
    subst ht
    have hset := hs.setLane (mem_laneOrder hs hst) { st with draining := false }
    refine .of_runAfter ⟨hset.nodup, hset.listed⟩ (ledger_congr rfl rfl ?_ ?_ rfl ?_ rfl)
    · exact queueOf_setLane_same (queueOf_of_lanes hst).symm
    · rw [hstack]
      rfl
    · simp [QueueState.owed, hstack, Frame.after]
  | @waits lane after rest st entry queue hstack hst hq hslot ht =>
    subst ht
    have hset := hs.setLane (mem_laneOrder hs hst) { st with queue := queue }
    refine ⟨⟨hset.nodup, hset.listed⟩, .single ?_⟩
    have htaken := queuedIds_take hs { st with queue := queue } hst hq
    have hledger : ({ s.setLane lane { st with queue := queue } with
          stack := .onWait lane entry :: s.stack }.ledger []) =
        { s.ledger [] with
          queued := queuedIds s.laneOrder (s.setLane lane { st with queue := queue }).queueOf
          starting := entry.id ::ₘ (s.ledger []).starting } :=
      Ledger.ext rfl rfl rfl rfl rfl rfl
    exact .take _ _ _ htaken
  | @starts lane after rest st entry queue hstack hst hq hslot ht =>
    subst ht
    refine ⟨hs.activate (mem_laneOrder hs hst) _ _, ?_⟩
    have htaken := queuedIds_take hs { st with queue := queue } hst hq
    rw [ledger_activate]
    refine .head (.take _ _ _ htaken) (.single ?_)
    exact .start _ _ _ rfl
  | @startsWaiting lane entry rest st hstack hst ht =>
    subst ht
    have hpopped : LanesListed { s with stack := rest } := ⟨hs.nodup, hs.listed⟩
    refine ⟨hpopped.activate (mem_laneOrder hpopped hst) _ _, ?_⟩
    have hstarting : (s.ledger []).starting =
        entry.id ::ₘ ({ s with stack := rest }.ledger []).starting := by
      simp only [QueueState.ledger, hstack]
      rfl
    have hqueue : ({ s with stack := rest }.setLane lane st).queueOf = s.queueOf :=
      queueOf_setLane_same (s := { s with stack := rest }) (queueOf_of_lanes hst).symm
    have hsettling : ({ s with stack := rest }.ledger []).settling = (s.ledger []).settling := by
      simp [QueueState.ledger, QueueState.owed, hstack, Frame.after]
    rw [ledger_activate, hqueue]
    have hledger : { { s with stack := rest }.ledger [] with
          queued := queuedIds s.laneOrder s.queueOf
          running := entry.id ::ₘ ({ s with stack := rest }.ledger []).running } =
        { s.ledger [] with
          starting := ({ s with stack := rest }.ledger []).starting
          running := entry.id ::ₘ (s.ledger []).running } :=
      Ledger.ext rfl rfl rfl rfl hsettling rfl
    exact .single (hledger ▸ .start _ _ _ hstarting)
  | @returns lane rest hstack ht =>
    subst ht
    refine ⟨⟨hs.nodup, hs.listed⟩, .of_eq (ledger_congr rfl rfl rfl ?_ rfl ?_ rfl)⟩
    · rw [hstack]
      rfl
    · simp [QueueState.owed, hstack, Frame.after]

theorem enqueueLaneEntry_perm (st : LaneState) (entry : QueueEntry) :
    ∃ inserted : QueueEntry, (inserted.sequence = entry.sequence ∧ inserted.id = entry.id) ∧
      (enqueueLaneEntry st entry).queue.Perm (inserted :: st.queue) :=
  ⟨{ entry with
      queuedAheadAtEnqueue := st.queue.findIdx (goesBefore entry)
      activeAheadAtEnqueue := st.activeTaskIds.card },
    ⟨rfl, rfl⟩, List.perm_insertIdx _ st.queue List.findIdx_le_length⟩

theorem idsOf_enqueueLaneEntry (st : LaneState) (entry : QueueEntry) :
    idsOf (enqueueLaneEntry st entry).queue = entry.id ::ₘ idsOf st.queue := by
  obtain ⟨inserted, ⟨-, hid⟩, hperm⟩ := enqueueLaneEntry_perm st entry
  rw [← hid]
  exact Multiset.coe_eq_coe.2 (hperm.map (·.id))

theorem move_accept {s' : QueueState} {st : LaneState} {entry : QueueEntry} {sequence : Nat}
    (hs' : LanesListed s') (hst : s'.lanes lane = some st)
    (hledger : s'.ledger [] = { s with nextPromise := s.nextPromise + 1 }.ledger [])
    (hid : entry.id = s.nextPromise) :
    Ledger.Move Outcome.kinds (s.ledger [])
      ({ s'.setLane lane (enqueueLaneEntry st entry) with nextQueueSequence := sequence }.ledger
        [.drainLane lane]) := by
  obtain ⟨others, hbefore, hafter⟩ :=
    queued_setLane hs' (mem_laneOrder hs' hst) (enqueueLaneEntry st entry)
  simp only [QueueState.ledger, Ledger.mk.injEq] at hledger
  obtain ⟨hnext, hqueued, hstarting, hrunning, hsettling, hsettled⟩ := hledger
  have haccepted : { s'.setLane lane (enqueueLaneEntry st entry) with
        nextQueueSequence := sequence }.ledger [.drainLane lane] =
      { s.ledger [] with
        next := (s.ledger []).next + 1
        queued := (s.ledger []).next ::ₘ (s.ledger []).queued } := by
    refine Ledger.ext hnext ?_ hstarting hrunning hsettling hsettled
    refine hafter.trans ?_
    rw [idsOf_enqueueLaneEntry, Multiset.cons_add, ← queueOf_of_lanes hst, ← hbefore, hid]
    exact congrArg _ hqueued
  rw [haccepted]
  exact .accept _

theorem simulates_enqueueCommandInLane (hs : LanesListed s) (lane : String)
    (opts : CommandQueueEnqueueOptions) : Simulates s (s.enqueueCommandInLane lane opts) := by
  unfold QueueState.enqueueCommandInLane
  by_cases hdraining : s.gatewayDraining
  · -- the gateway turns it away
    simp only [hdraining, if_true]
    refine ⟨⟨hs.nodup, hs.listed⟩, .single ?_⟩
    have hledger : { s with
          nextPromise := s.nextPromise + 1
          settled := s.settled ++ [(s.nextPromise, Outcome.gatewayDraining)] }.ledger [] =
        { s.ledger [] with
          next := (s.ledger []).next + 1
          settled := ((s.ledger []).next, .gatewayDraining) ::ₘ (s.ledger []).settled } :=
      Ledger.ext rfl rfl rfl rfl rfl (coe_append_singleton s.settled _)
    simp only [hdraining] at hledger
    rw [hledger]
    exact .refuse _ _ rfl
  · dsimp only
    rw [if_neg hdraining]
    generalize normalizeLane lane = cleaned
    have hnumbered : LanesListed { s with nextPromise := s.nextPromise + 1 } :=
      ⟨hs.nodup, hs.listed⟩
    obtain ⟨hget, hledger, hlane, -⟩ := getLaneState_spec hnumbered cleaned []
    generalize QueueState.getLaneState _ cleaned = found at hget hledger hlane ⊢
    obtain ⟨s', st⟩ := found
    generalize hentry : QueueEntry.mk .. = entry
    have hset := hget.setLane (mem_laneOrder hget hlane) (enqueueLaneEntry st entry)
    have hlisted : LanesListed { s'.setLane cleaned (enqueueLaneEntry st entry) with
        nextQueueSequence := s'.nextQueueSequence + 1 } := ⟨hset.nodup, hset.listed⟩
    obtain ⟨hlisted', hmoves⟩ := moves_runAfter hlisted [.drainLane cleaned]
    exact ⟨hlisted', .head (move_accept hget hlane hledger (by rw [← hentry])) hmoves⟩

theorem simulates_setCommandLaneConcurrency (hs : LanesListed s) (lane : String) (n : ℚ) :
    Simulates s (s.setCommandLaneConcurrency lane n) := by
  unfold QueueState.setCommandLaneConcurrency
  generalize normalizeLane lane = cleaned
  dsimp only
  generalize (if isProbeLane cleaned = true then (1 : Int) else 0) = low
  obtain ⟨hget, hledger, hlane, -⟩ := getLaneState_spec hs cleaned []
  generalize QueueState.getLaneState _ cleaned = found at hget hledger hlane ⊢
  obtain ⟨s', st⟩ := found
  have hset := hget.setLane (mem_laneOrder hget hlane) { st with maxConcurrent := max low ⌊n⌋ }
  have hqueue : (s'.setLane cleaned { st with maxConcurrent := max low ⌊n⌋ }).queueOf = s'.queueOf :=
    queueOf_setLane_same (queueOf_of_lanes hlane).symm
  split_ifs
  · refine .of_runAfter hset (hledger ▸ ?_)
    exact ledger_congr rfl rfl hqueue rfl rfl (filterMap_owed_cons _ _ _) rfl
  · exact ⟨hset, .of_eq (hledger ▸ ledger_congr rfl rfl hqueue rfl rfl rfl rfl)⟩

theorem moves_drop {l : Ledger Outcome} {ids : List Nat} {others : Multiset Nat}
    (h : l.queued = (ids : Multiset Nat) + others) :
    Moves l { l with
      queued := others
      settled := (ids.map fun id => (id, Outcome.cleared) : List (Nat × Outcome)) + l.settled } := by
  induction ids generalizing l with
  | nil =>
    refine .of_eq (Ledger.ext rfl ?_ rfl rfl rfl ?_)
    · exact (h.trans (zero_add _)).symm
    · exact zero_add _
  | cons id ids ih =>
    have hqueued : l.queued = id ::ₘ ((ids : Multiset Nat) + others) := by
      rw [h, ← Multiset.cons_coe, Multiset.cons_add]
    refine .head (.drop l id _ .cleared hqueued rfl) ?_
    have hrest := ih (l := { l with
      queued := (ids : Multiset Nat) + others
      settled := (id, .cleared) ::ₘ l.settled }) rfl
    rw [Multiset.add_cons, ← Multiset.cons_add, Multiset.cons_coe] at hrest
    exact hrest

theorem simulates_clearCommandLane (hs : LanesListed s) (lane : String) :
    Simulates s (s.clearCommandLane lane) := by
  unfold QueueState.clearCommandLane
  generalize normalizeLane lane = cleaned
  dsimp only
  cases hst : s.lanes cleaned with
  | none => exact ⟨hs, .refl⟩
  | some st =>
    have hset := hs.setLane (mem_laneOrder hs hst) { st with queue := [] }
    refine ⟨⟨hset.nodup, hset.listed⟩, ?_⟩
    obtain ⟨others, hbefore, hafter⟩ :=
      queued_setLane hs (mem_laneOrder hs hst) { st with queue := [] }
    rw [queueOf_of_lanes hst] at hbefore
    have hdrop := moves_drop (l := s.ledger []) hbefore
    have hledger : ({ s.setLane cleaned { st with queue := [] } with
          settled := s.settled ++
            st.queue.map fun entry : QueueEntry => (entry.id, Outcome.cleared) }.ledger []) =
        { s.ledger [] with
          queued := others
          settled := ((st.queue.map fun entry : QueueEntry => entry.id).map
            fun id => (id, Outcome.cleared) : List (Nat × Outcome)) + (s.ledger []).settled } := by
      refine Ledger.ext rfl (hafter.trans (zero_add _)) rfl rfl rfl ?_
      rw [List.map_map]
      exact (Multiset.coe_add _ _).symm.trans (add_comm _ _)
    exact hledger ▸ hdrop

theorem queueOf_reset {lanes : String → Option LaneState}
    (h : t.lanes = fun lane => (lanes lane).map LaneState.reset) :
    t.queueOf = fun lane => (lanes lane).elim [] LaneState.queue := by
  funext lane
  simp only [QueueState.queueOf, h]
  cases lanes lane <;> rfl

section

variable (hs : LanesListed s)
include hs

theorem simulates_resetCommandLane (lane : String) : Simulates s (s.resetCommandLane lane) := by
  unfold QueueState.resetCommandLane
  generalize normalizeLane lane = cleaned
  dsimp only
  cases hst : s.lanes cleaned with
  | none => exact ⟨hs, .refl⟩
  | some st =>
    have hset := hs.setLane (mem_laneOrder hs hst) st.reset
    have hqueue : (s.setLane cleaned st.reset).queueOf = s.queueOf :=
      queueOf_setLane_same (queueOf_of_lanes hst).symm
    refine .of_runAfter hset (ledger_congr rfl rfl hqueue rfl rfl ?_ rfl)
    split_ifs <;> rfl

theorem simulates_resetAllLanes : Simulates s s.resetAllLanes := by
  have hlisted : LanesListed { s with
      gatewayDraining := false
      lanes := fun lane => (s.lanes lane).map LaneState.reset } := by
    refine ⟨hs.nodup, fun lane => ?_⟩
    rw [hs.listed lane]
    simp
  refine .of_runAfter hlisted (ledger_congr rfl rfl (queueOf_reset rfl) rfl rfl ?_ rfl)
  rw [QueueState.owed, List.filterMap_append, List.filterMap_append]
  have hnone : (List.map After.drainLane (s.laneOrder.filter s.hasQueued)).filterMap
      After.settling = [] := by
    rw [List.filterMap_map]
    exact List.filterMap_eq_nil_iff.2 fun _ _ => rfl
  rw [hnone]
  rfl

theorem simulates_waitForActiveTasks (timeoutMs : Option Int) :
    Simulates s (s.waitForActiveTasks timeoutMs) := by
  unfold QueueState.waitForActiveTasks
  dsimp only
  split_ifs <;> exact ⟨⟨hs.nodup, hs.listed⟩, .single (.skip _)⟩

theorem simulates_call (c : Call) : Simulates s (s.call c) := by
  cases c with
  | enqueueCommandInLane lane opts => exact simulates_enqueueCommandInLane hs lane opts
  | setCommandLaneConcurrency lane n => exact simulates_setCommandLaneConcurrency hs lane n
  | clearCommandLane lane => exact simulates_clearCommandLane hs lane
  | resetCommandLane lane => exact simulates_resetCommandLane hs lane
  | resetAllLanes => exact simulates_resetAllLanes hs
  | waitForActiveTasks timeoutMs => exact simulates_waitForActiveTasks hs timeoutMs
  | markGatewayDraining => exact ⟨⟨hs.nodup, hs.listed⟩, .refl⟩

theorem simulates_finishTask {task : RunningTask} {outcome : Outcome} (htask : task ∈ s.running)
    (ho : outcome = .resolved ∨ outcome = .rejected) (h : s.finishTask task outcome = some t) :
    Simulates s t := by
  -- the task's entry is done before what is owed settles it
  have hfinish : ∀ {s' : QueueState} {after : List After}, LanesListed s' →
      s'.queueOf = s.queueOf → s'.laneOrder = s.laneOrder → s'.nextPromise = s.nextPromise →
      s'.stack = s.stack → s'.settled = s.settled → s'.running = s.running.erase task →
      after.filterMap After.settling = [(task.entry, outcome)] →
      Simulates s (s'.runAfter after) := by
    intro s' after hlisted hqueue horder hnext hstack hsettled hrunning hafter
    obtain ⟨hlisted', hmoves⟩ := moves_runAfter hlisted after
    refine ⟨hlisted', .head ?_ hmoves⟩
    have hentries : (s.ledger []).running = task.entry ::ₘ (s'.ledger after).running := by
      have hperm := (List.perm_cons_erase htask).map (·.entry)
      simp only [QueueState.ledger, hrunning]
      exact Multiset.coe_eq_coe.2 hperm
    have hledger : s'.ledger after =
        { s.ledger [] with
          running := (s'.ledger after).running
          settling := (task.entry, outcome) ::ₘ (s.ledger []).settling } := by
      refine Ledger.ext hnext ?_ ?_ rfl ?_ ?_
      · simp only [QueueState.ledger, horder, hqueue]
      · simp only [QueueState.ledger, hstack]
      · simp only [QueueState.ledger, QueueState.owed, hstack, List.filterMap_append, hafter]
        rfl
      · simp only [QueueState.ledger, hsettled]
    rw [hledger]
    exact .finish _ _ _ _ hentries ho
  unfold QueueState.finishTask at h
  cases hst : s.lanes task.lane with
  | none => simp [hst] at h
  | some st =>
    simp only [hst, Option.bind_eq_bind, Option.bind_some] at h
    split at h
    case h_1 st' hst' =>
      rw [Option.some.injEq] at h
      subst h
      simp only [completeTask] at hst'
      split_ifs at hst' with hgen
      rw [Option.some.injEq] at hst'
      subst hst'
      have hset := hs.setLane (mem_laneOrder hs hst)
        { st with activeTaskIds := st.activeTaskIds.erase task.taskId }
      have hqueue : (s.setLane task.lane { st with
          activeTaskIds := st.activeTaskIds.erase task.taskId }).queueOf = s.queueOf :=
        queueOf_setLane_same (queueOf_of_lanes hst).symm
      exact hfinish ⟨hset.nodup, hset.listed⟩ hqueue rfl rfl rfl rfl rfl rfl
    case h_2 =>
      rw [Option.some.injEq] at h
      exact h ▸ hfinish ⟨hs.nodup, hs.listed⟩ rfl rfl rfl rfl rfl rfl rfl

/-- **Every event is a list of moves of the ledger.** -/
theorem simulates_step {e : Event} (h : s.step e = some t) : Simulates s t := by
  cases e with
  | call c =>
    simp only [QueueState.step] at h
    split_ifs at h
    exact Option.some.inj h ▸ simulates_call hs c
  | resume => exact simulates_resume hs h
  | finish task ok =>
    simp only [QueueState.step] at h
    have ho : (if ok = true then Outcome.resolved else .rejected) = .resolved ∨
        (if ok = true then Outcome.resolved else .rejected) = .rejected := by
      cases ok <;> simp
    generalize (if ok = true then Outcome.resolved else .rejected) = outcome at ho h
    split_ifs at h with htask
    exact simulates_finishTask hs htask.2 ho h
  | waiterTimeout waiter =>
    simp only [QueueState.step] at h
    split_ifs at h
    exact Option.some.inj h ▸ ⟨⟨hs.nodup, hs.listed⟩, .refl⟩
  | tick now =>
    rw [QueueState.step, Option.some.injEq] at h
    exact h ▸ ⟨⟨hs.nodup, hs.listed⟩, .refl⟩

end

/-! ## The order of the queues -/

/-- The entry goes before the other: a higher priority, or the same and an earlier number. -/
def GoesFirst (entry other : QueueEntry) : Prop :=
  other.priority < entry.priority ∨
    (other.priority = entry.priority ∧ entry.sequence < other.sequence)

theorem GoesFirst.trans {a b c : QueueEntry} (hab : GoesFirst a b) (hbc : GoesFirst b c) :
    GoesFirst a c := by
  unfold GoesFirst at *
  omega

/-- The lanes' entries in callbacks. -/
def Frame.entry : Frame → Option (String × QueueEntry)
  | .onWait lane entry => some (lane, entry)
  | .pump .. | .progress .. => none

def QueueState.callbacks (s : QueueState) : List (String × QueueEntry) :=
  s.stack.filterMap Frame.entry

/-- Each queue is in order, with numbers below the next one. -/
structure QueuesSorted (s : QueueState) : Prop where
  sorted : ∀ lane, (s.queueOf lane).Pairwise GoesFirst
  old : ∀ lane, ∀ entry ∈ s.queueOf lane, entry.sequence < s.nextQueueSequence
  pos : 0 < s.nextQueueSequence

inductive QueueStep (s t : QueueState) : Event → Prop
  | same {e : Event} (hqueue : t.queueOf = s.queueOf)
    (hsequence : t.nextQueueSequence = s.nextQueueSequence) (hcallbacks : t.callbacks = s.callbacks)
    (hrunning : t.running.Sublist s.running) : QueueStep s t e
  | inserted {named lane : String} {opts : CommandQueueEnqueueOptions} {entry : QueueEntry}
    (st : LaneState) (hst : st.queue = s.queueOf lane)
    (hentry : entry.sequence = s.nextQueueSequence ∧ entry.id = s.nextPromise)
    (hqueue : t.queueOf = Function.update s.queueOf lane (enqueueLaneEntry st entry).queue)
    (hsequence : t.nextQueueSequence = s.nextQueueSequence + 1)
    (hcallbacks : t.callbacks = s.callbacks) (hrunning : t.running = s.running) :
    QueueStep s t (.call (.enqueueCommandInLane named opts))
  | cleared {lane cleared : String}
    (hqueue : t.queueOf = Function.update s.queueOf lane [])
    (hsequence : t.nextQueueSequence = s.nextQueueSequence) (hcallbacks : t.callbacks = s.callbacks)
    (hrunning : t.running = s.running)
    (hsettled : t.settled = s.settled ++
      (s.queueOf lane).map fun entry => (entry.id, Outcome.cleared)) :
    QueueStep s t (.call (.clearCommandLane cleared))
  | waits {lane : String} {entry : QueueEntry} {queue : List QueueEntry}
    (hq : s.queueOf lane = entry :: queue) (hqueue : t.queueOf = Function.update s.queueOf lane queue)
    (hsequence : t.nextQueueSequence = s.nextQueueSequence)
    (hcallbacks : t.callbacks = (lane, entry) :: s.callbacks) (hrunning : t.running = s.running) :
    QueueStep s t .resume
  | starts {task : RunningTask} {entry : QueueEntry} {queue : List QueueEntry}
    (hq : s.queueOf task.lane = entry :: queue) (htask : task.entry = entry.id)
    (hqueue : t.queueOf = Function.update s.queueOf task.lane queue)
    (hsequence : t.nextQueueSequence = s.nextQueueSequence) (hcallbacks : t.callbacks = s.callbacks)
    (hrunning : t.running = s.running ++ [task]) : QueueStep s t .resume
  | startsWaiting {task : RunningTask} {entry : QueueEntry} (htask : task.entry = entry.id)
    (hqueue : t.queueOf = s.queueOf) (hsequence : t.nextQueueSequence = s.nextQueueSequence)
    (hcallbacks : s.callbacks = (task.lane, entry) :: t.callbacks)
    (hrunning : t.running = s.running ++ [task]) : QueueStep s t .resume

/-- Two states agree on everything a `QueueStep` speaks of. -/
structure SameQueues (s t : QueueState) : Prop where
  queueOf : t.queueOf = s.queueOf
  sequence : t.nextQueueSequence = s.nextQueueSequence
  callbacks : t.callbacks = s.callbacks
  running : t.running = s.running

theorem sameQueues_getLaneState (s : QueueState) (lane : String) :
    SameQueues s (s.getLaneState lane).1 ∧ (s.getLaneState lane).2.queue = s.queueOf lane := by
  unfold QueueState.getLaneState
  cases hlane : s.lanes lane with
  | some existing => exact ⟨⟨rfl, rfl, rfl, rfl⟩, (queueOf_of_lanes hlane).symm⟩
  | none =>
    have hqueue : s.queueOf lane = [] := by simp [QueueState.queueOf, hlane]
    have hset : (s.setLane lane (.created lane)).queueOf = s.queueOf :=
      queueOf_setLane_same hqueue.symm
    exact ⟨⟨hset, rfl, rfl, rfl⟩, hqueue.symm⟩

theorem SameQueues.trans {u : QueueState} (h : SameQueues s t) (h' : SameQueues t u) :
    SameQueues s u :=
  ⟨h'.queueOf.trans h.queueOf, h'.sequence.trans h.sequence, h'.callbacks.trans h.callbacks,
    h'.running.trans h.running⟩

theorem sameQueues_setLane {st : LaneState} (hq : st.queue = s.queueOf lane) :
    SameQueues s (s.setLane lane st) :=
  ⟨queueOf_setLane_same hq, rfl, rfl, rfl⟩

theorem sameQueues_runAfter (s : QueueState) (after : List After) :
    SameQueues s (s.runAfter after) := by
  induction after generalizing s with
  | nil => exact ⟨rfl, rfl, rfl, rfl⟩
  | cons k rest ih =>
    cases k with
    | drainLane lane =>
      obtain ⟨hget, hqueue⟩ := sameQueues_getLaneState s lane
      unfold QueueState.runAfter QueueState.drainLane
      dsimp only
      by_cases hdraining : (s.getLaneState lane).2.draining
      · rw [if_pos hdraining]
        exact ih s
      · rw [if_neg hdraining]
        have hset : SameQueues s
            ((s.getLaneState lane).1.setLane lane { (s.getLaneState lane).2 with draining := true }) :=
          hget.trans (sameQueues_setLane (hqueue.trans (congrFun hget.queueOf lane).symm))
        exact ⟨hset.queueOf, hset.sequence, hset.callbacks, hset.running⟩
    | pump lane => exact ⟨rfl, rfl, rfl, rfl⟩
    | notifyActiveTaskWaiters =>
      have h := ih s.notifyActiveTaskWaiters
      exact ⟨h.queueOf, h.sequence, h.callbacks, h.running⟩
    | settle entry outcome =>
      have h := ih { s with settled := s.settled ++ [(entry, outcome)] }
      exact ⟨h.queueOf, h.sequence, h.callbacks, h.running⟩

theorem QueueStep.of_same {e : Event} (h : SameQueues s t) : QueueStep s t e :=
  .same h.queueOf h.sequence h.callbacks (h.running ▸ List.Sublist.refl _)

theorem callbacks_activate (s : QueueState) (lane : String) (st : LaneState) (entry : QueueEntry) :
    (s.activate lane st entry).callbacks = s.callbacks := by
  unfold QueueState.activate QueueState.callbacks
  split_ifs <;> rfl

theorem queueOf_activate (s : QueueState) (lane : String) (st : LaneState) (entry : QueueEntry) :
    (s.activate lane st entry).queueOf = Function.update s.queueOf lane st.queue :=
  queueOf_setLane s lane { st with activeTaskIds := insert s.nextTaskId st.activeTaskIds }

theorem QueueStep.of_resume (h : s.resume = some t) : QueueStep s t .resume := by
  cases ResumeStep.of_resume h with
  | @exits lane after rest st hstack hst ht =>
    subst ht
    have hset : SameQueues s (s.setLane lane { st with draining := false }) :=
      sameQueues_setLane (queueOf_of_lanes hst).symm
    have hafter := sameQueues_runAfter
      { s.setLane lane { st with draining := false } with stack := rest } after
    refine .of_same ⟨hafter.queueOf.trans hset.queueOf, hafter.sequence, ?_, hafter.running⟩
    rw [hafter.callbacks]
    unfold QueueState.callbacks
    rw [hstack]
    rfl
  | @waits lane after rest st entry queue hstack hst hq hslot ht =>
    subst ht
    exact .waits ((queueOf_of_lanes hst).trans hq) (queueOf_setLane s lane { st with queue := queue })
      rfl rfl rfl
  | @starts lane after rest st entry queue hstack hst hq hslot ht =>
    subst ht
    have hcallbacks := callbacks_activate s lane { st with queue := queue } entry
    exact .starts ((queueOf_of_lanes hst).trans hq) rfl (queueOf_activate _ _ _ _) rfl hcallbacks rfl
  | @startsWaiting lane entry rest st hstack hst ht =>
    subst ht
    have hqueue : (({ s with stack := rest } : QueueState).activate lane st entry).queueOf =
        s.queueOf := by
      rw [queueOf_activate, ← queueOf_of_lanes (s := { s with stack := rest }) hst,
        Function.update_eq_self]
      rfl
    have hcallbacks : s.callbacks =
        (lane, entry) :: (({ s with stack := rest } : QueueState).activate lane st entry).callbacks := by
      rw [callbacks_activate]
      unfold QueueState.callbacks
      rw [hstack]
      rfl
    exact .startsWaiting rfl hqueue rfl hcallbacks rfl
  | @returns lane rest hstack ht =>
    subst ht
    refine .of_same ⟨rfl, rfl, ?_, rfl⟩
    unfold QueueState.callbacks
    rw [hstack]
    rfl

theorem enqueueCommandInLane_spec (hdraining : s.gatewayDraining = false) (named : String)
    (opts : CommandQueueEnqueueOptions) :
    ∃ lane entry st, st.queue = s.queueOf lane ∧
      (entry.sequence = s.nextQueueSequence ∧ entry.id = s.nextPromise) ∧
      (s.enqueueCommandInLane named opts).queueOf =
        Function.update s.queueOf lane (enqueueLaneEntry st entry).queue ∧
      (s.enqueueCommandInLane named opts).nextQueueSequence = s.nextQueueSequence + 1 ∧
      (s.enqueueCommandInLane named opts).callbacks = s.callbacks ∧
      (s.enqueueCommandInLane named opts).running = s.running := by
  unfold QueueState.enqueueCommandInLane
  dsimp only
  rw [if_neg (by simp [hdraining])]
  generalize normalizeLane named = cleaned
  obtain ⟨hget, hqueue⟩ := sameQueues_getLaneState { s with nextPromise := s.nextPromise + 1 } cleaned
  generalize QueueState.getLaneState _ cleaned = found at hget hqueue ⊢
  obtain ⟨s', st⟩ := found
  generalize hentry : QueueEntry.mk .. = entry
  have hafter := sameQueues_runAfter { s'.setLane cleaned (enqueueLaneEntry st entry) with
    nextQueueSequence := s'.nextQueueSequence + 1 } [.drainLane cleaned]
  refine ⟨cleaned, entry, st, hqueue, ⟨?_, by rw [← hentry]⟩, ?_, ?_, ?_, ?_⟩
  · rw [← hentry]
    exact hget.sequence
  · rw [hafter.queueOf, ← show s'.queueOf = s.queueOf from hget.queueOf]
    exact queueOf_setLane _ _ _
  · rw [hafter.sequence]
    exact congrArg (· + 1) hget.sequence
  · exact hafter.callbacks.trans hget.callbacks
  · exact hafter.running.trans hget.running

theorem QueueStep.of_call (s : QueueState) (c : Call) : QueueStep s (s.call c) (.call c) := by
  cases c with
  | enqueueCommandInLane named opts =>
    show QueueStep s (s.enqueueCommandInLane named opts) _
    cases hdraining : s.gatewayDraining with
    | true =>
      unfold QueueState.enqueueCommandInLane
      simp only [hdraining, if_true]
      exact .of_same ⟨rfl, rfl, rfl, rfl⟩
    | false =>
      obtain ⟨lane, entry, st, hst, hentry, hqueue, hsequence, hcallbacks, hrunning⟩ :=
        enqueueCommandInLane_spec hdraining named opts
      exact .inserted st hst hentry hqueue hsequence hcallbacks hrunning
  | setCommandLaneConcurrency lane n =>
    show QueueStep s (s.setCommandLaneConcurrency lane n) _
    unfold QueueState.setCommandLaneConcurrency
    generalize normalizeLane lane = cleaned
    dsimp only
    generalize (if isProbeLane cleaned = true then (1 : Int) else 0) = low
    obtain ⟨hget, hqueue⟩ := sameQueues_getLaneState s cleaned
    generalize QueueState.getLaneState _ cleaned = found at hget hqueue ⊢
    obtain ⟨s', st⟩ := found
    have hset : SameQueues s (s'.setLane cleaned { st with maxConcurrent := max low ⌊n⌋ }) :=
      hget.trans (sameQueues_setLane (hqueue.trans (congrFun hget.queueOf cleaned).symm))
    split_ifs
    · exact .of_same (hset.trans (sameQueues_runAfter _ _))
    · exact .of_same hset
  | clearCommandLane lane =>
    show QueueStep s (s.clearCommandLane lane) _
    unfold QueueState.clearCommandLane
    generalize normalizeLane lane = cleaned
    dsimp only
    cases hst : s.lanes cleaned with
    | none => exact .of_same ⟨rfl, rfl, rfl, rfl⟩
    | some st =>
      refine QueueStep.cleared (queueOf_setLane s cleaned { st with queue := [] }) rfl rfl
        rfl ?_
      rw [queueOf_of_lanes hst]
  | resetCommandLane lane =>
    show QueueStep s (s.resetCommandLane lane) _
    unfold QueueState.resetCommandLane
    generalize normalizeLane lane = cleaned
    dsimp only
    cases hst : s.lanes cleaned with
    | none => exact .of_same ⟨rfl, rfl, rfl, rfl⟩
    | some st =>
      have hset : SameQueues s (s.setLane cleaned st.reset) :=
        sameQueues_setLane (queueOf_of_lanes hst).symm
      exact .of_same (hset.trans (sameQueues_runAfter _ _))
  | resetAllLanes =>
    have hset : SameQueues s { s with
        gatewayDraining := false
        lanes := fun lane => (s.lanes lane).map LaneState.reset } :=
      ⟨queueOf_reset rfl, rfl, rfl, rfl⟩
    exact .of_same (hset.trans (sameQueues_runAfter _ _))
  | waitForActiveTasks timeoutMs =>
    show QueueStep s (s.waitForActiveTasks timeoutMs) _
    unfold QueueState.waitForActiveTasks
    dsimp only
    split_ifs <;> exact .of_same ⟨rfl, rfl, rfl, rfl⟩
  | markGatewayDraining => exact .of_same ⟨rfl, rfl, rfl, rfl⟩

theorem QueueStep.of_step {e : Event} (h : s.step e = some t) : QueueStep s t e := by
  cases e with
  | call c =>
    simp only [QueueState.step] at h
    split_ifs at h
    exact Option.some.inj h ▸ .of_call s c
  | resume => exact .of_resume h
  | finish task ok =>
    simp only [QueueState.step] at h
    generalize (if ok = true then Outcome.resolved else .rejected) = outcome at h
    split_ifs at h
    have herase := List.erase_sublist (a := task) (l := s.running)
    unfold QueueState.finishTask at h
    cases hst : s.lanes task.lane with
    | none => simp [hst] at h
    | some st =>
      simp only [hst, Option.bind_eq_bind, Option.bind_some] at h
      split at h
      case h_1 st' hst' =>
        rw [Option.some.injEq] at h
        subst h
        simp only [completeTask] at hst'
        split_ifs at hst' with hgen
        rw [Option.some.injEq] at hst'
        subst hst'
        have hset : SameQueues s (s.setLane task.lane
            { st with activeTaskIds := st.activeTaskIds.erase task.taskId }) :=
          sameQueues_setLane (queueOf_of_lanes hst).symm
        have hafter := sameQueues_runAfter (({ s with running := s.running.erase task }.setLane
          task.lane { st with activeTaskIds := st.activeTaskIds.erase task.taskId }).notifyActiveTaskWaiters)
          [.pump task.lane, .settle task.entry outcome]
        exact .same (hafter.queueOf.trans hset.queueOf) hafter.sequence hafter.callbacks
          (hafter.running ▸ herase)
      case h_2 =>
        rw [Option.some.injEq] at h
        subst h
        have hafter := sameQueues_runAfter { s with running := s.running.erase task }
          [.settle task.entry outcome]
        exact .same hafter.queueOf hafter.sequence hafter.callbacks (hafter.running ▸ herase)
  | waiterTimeout waiter =>
    simp only [QueueState.step] at h
    split_ifs at h
    exact Option.some.inj h ▸ .of_same ⟨rfl, rfl, rfl, rfl⟩
  | tick now =>
    rw [QueueState.step, Option.some.injEq] at h
    exact h ▸ .of_same ⟨rfl, rfl, rfl, rfl⟩

/-! ### Order along a run -/

theorem sorted_insertIdx {queue : List QueueEntry} {entry : QueueEntry} {p : QueueEntry → Bool}
    (hlast : ∀ q ∈ queue, p q = false → GoesFirst q entry)
    (hfirst : ∀ q, p q = true → GoesFirst entry q) (h : queue.Pairwise GoesFirst) :
    (queue.insertIdx (queue.findIdx p) entry).Pairwise GoesFirst := by
  induction queue with
  | nil => exact List.pairwise_singleton _ _
  | cons x xs ih =>
    rw [List.pairwise_cons] at h
    cases hx : p x with
    | true =>
      rw [List.findIdx_cons, hx, cond_true, List.insertIdx_zero]
      refine List.pairwise_cons.2 ⟨fun q hq => ?_, List.pairwise_cons.2 h⟩
      rcases List.mem_cons.1 hq with rfl | hq
      · exact hfirst q hx
      · exact (hfirst x hx).trans (h.1 q hq)
    | false =>
      rw [List.findIdx_cons, hx, cond_false, List.insertIdx_succ_cons]
      refine List.pairwise_cons.2 ⟨fun q hq => ?_, ih (fun q hq => hlast q (by simp [hq])) h.2⟩
      have hperm := List.perm_insertIdx entry xs (List.findIdx_le_length (p := p))
      rcases List.mem_cons.1 (hperm.subset hq) with rfl | hq
      · exact hlast x (by simp) hx
      · exact h.1 q hq

theorem goesBefore_iff {entry queued : QueueEntry} :
    goesBefore entry queued = true ↔ queued.priority < entry.priority ∨
      (queued.priority = entry.priority ∧ entry.sequence < queued.sequence) := by
  simp [goesBefore]

theorem sorted_enqueueLaneEntry {st : LaneState} {entry : QueueEntry}
    (h : st.queue.Pairwise GoesFirst) (hold : ∀ q ∈ st.queue, q.sequence < entry.sequence) :
    (enqueueLaneEntry st entry).queue.Pairwise GoesFirst := by
  refine sorted_insertIdx (fun q hq hp => ?_) (fun q hp => goesBefore_iff.1 hp) h
  have hnot := mt goesBefore_iff.2 (Bool.eq_false_iff.1 hp)
  have := hold q hq
  simp only [GoesFirst]
  omega

theorem mem_enqueueLaneEntry {st : LaneState} {entry q : QueueEntry}
    (hq : q ∈ (enqueueLaneEntry st entry).queue) :
    q ∈ st.queue ∨ (q.sequence = entry.sequence ∧ q.id = entry.id) := by
  obtain ⟨inserted, hinserted, hperm⟩ := enqueueLaneEntry_perm st entry
  rcases List.mem_cons.1 (hperm.subset hq) with rfl | hq
  · exact .inr hinserted
  · exact .inl hq

theorem forall_update {P : String → List QueueEntry → Prop} {queueOf : String → List QueueEntry}
    (h : ∀ l, P l (queueOf l)) {queue : List QueueEntry} (hq : P lane queue) :
    ∀ l, P l (Function.update queueOf lane queue l) := by
  intro l
  by_cases hl : l = lane
  · subst hl
    rwa [Function.update_self]
  · rw [Function.update_of_ne hl]
    exact h l

theorem QueuesSorted.of_sublist (hs : QueuesSorted s) {queue : List QueueEntry}
    (hsub : queue.Sublist (s.queueOf lane)) (hqueue : t.queueOf = Function.update s.queueOf lane queue)
    (hsequence : t.nextQueueSequence = s.nextQueueSequence) : QueuesSorted t where
  sorted := by
    rw [hqueue]
    exact forall_update (P := fun _ q => q.Pairwise GoesFirst) hs.sorted ((hs.sorted lane).sublist hsub)
  old := by
    rw [hqueue, hsequence]
    exact forall_update (P := fun _ q => ∀ e ∈ q, e.sequence < s.nextQueueSequence) hs.old
      fun e he => hs.old lane e (hsub.subset he)
  pos := hsequence ▸ hs.pos

theorem QueuesSorted.step {e : Event} (hs : QueuesSorted s) (h : QueueStep s t e) :
    QueuesSorted t := by
  cases h with
  | same hqueue hsequence hcallbacks hrunning =>
    exact ⟨hqueue ▸ hs.sorted, hqueue ▸ hsequence ▸ hs.old, hsequence ▸ hs.pos⟩
  | @inserted named lane opts entry st hst hentry hqueue hsequence hcallbacks hrunning =>
    have hold : ∀ q ∈ st.queue, q.sequence < entry.sequence := by
      rw [hst, hentry.1]
      exact hs.old lane
    refine ⟨?_, ?_, by omega⟩
    · rw [hqueue]
      exact forall_update (P := fun _ q => q.Pairwise GoesFirst) hs.sorted
        (sorted_enqueueLaneEntry (hst ▸ hs.sorted lane) hold)
    · rw [hqueue, hsequence]
      refine forall_update (P := fun _ q => ∀ e ∈ q, e.sequence < s.nextQueueSequence + 1)
        (fun l e he => (hs.old l e he).trans (Nat.lt_succ_self _)) fun q hq => ?_
      rcases mem_enqueueLaneEntry hq with hq | ⟨hq, -⟩
      · have := hs.old lane q (hst ▸ hq)
        omega
      · omega
  | cleared hqueue hsequence hcallbacks hrunning hsettled =>
    exact hs.of_sublist (List.nil_sublist _) hqueue hsequence
  | waits hq hqueue hsequence hcallbacks hrunning =>
    exact hs.of_sublist (hq ▸ List.sublist_cons_self _ _) hqueue hsequence
  | starts hq htask hqueue hsequence hcallbacks hrunning =>
    exact hs.of_sublist (hq ▸ List.sublist_cons_self _ _) hqueue hsequence
  | startsWaiting htask hqueue hsequence hcallbacks hrunning =>
    exact ⟨hqueue ▸ hs.sorted, hqueue ▸ hsequence ▸ hs.old, hsequence ▸ hs.pos⟩

/-! ### Callbacks that do not call back -/

/-- Calls are made only while no queue code is running. -/
def NotReentrant (s : QueueState) (e : Event) : Prop := ∀ c, e = .call c → s.stack = []

/-- An entry in its callback goes before everything still queued in its lane. -/
def CallbacksFirst (s : QueueState) : Prop :=
  ∀ p ∈ s.callbacks, ∀ q ∈ s.queueOf p.1, GoesFirst p.2 q

theorem CallbacksFirst.of_sublist (hs : CallbacksFirst s) {queue : List QueueEntry}
    (hsub : queue.Sublist (s.queueOf lane)) (hqueue : t.queueOf = Function.update s.queueOf lane queue)
    (hcallbacks : ∀ p ∈ t.callbacks, p ∈ s.callbacks) : CallbacksFirst t := by
  intro p hp q hq
  rw [hqueue] at hq
  refine hs p (hcallbacks p hp) q ?_
  by_cases hl : p.1 = lane
  · rw [hl, Function.update_self] at hq
    exact hl ▸ hsub.subset hq
  · rwa [Function.update_of_ne hl] at hq

theorem CallbacksFirst.step {e : Event} (hs : CallbacksFirst s) (hsorted : QueuesSorted s)
    (hguard : NotReentrant s e) (h : QueueStep s t e) : CallbacksFirst t := by
  have hnone : ∀ c, e = .call c → s.callbacks = [] := fun c hc => by
    unfold QueueState.callbacks
    rw [hguard c hc]
    rfl
  cases h with
  | same hqueue hsequence hcallbacks hrunning =>
    unfold CallbacksFirst
    rw [hqueue, hcallbacks]
    exact hs
  | inserted st hst hentry hqueue hsequence hcallbacks hrunning =>
    intro p hp
    rw [hcallbacks, hnone _ rfl] at hp
    exact nomatch hp
  | cleared hqueue hsequence hcallbacks hrunning hsettled =>
    exact hs.of_sublist (List.nil_sublist _) hqueue (hcallbacks ▸ fun _ hp => hp)
  | @waits lane entry queue hq hqueue hsequence hcallbacks hrunning =>
    intro p hp q hqmem
    rw [hcallbacks] at hp
    rcases List.mem_cons.1 hp with rfl | hp
    · have hhead := hsorted.sorted lane
      rw [hq, List.pairwise_cons] at hhead
      rw [hqueue, Function.update_self] at hqmem
      exact hhead.1 q hqmem
    · rw [hqueue] at hqmem
      refine hs p hp q ?_
      by_cases hl : p.1 = lane
      · rw [hl, Function.update_self] at hqmem
        rw [hl, hq]
        exact List.mem_cons_of_mem _ hqmem
      · rwa [Function.update_of_ne hl] at hqmem
  | starts hq htask hqueue hsequence hcallbacks hrunning =>
    exact hs.of_sublist (hq ▸ List.sublist_cons_self _ _) hqueue (hcallbacks ▸ fun _ hp => hp)
  | startsWaiting htask hqueue hsequence hcallbacks hrunning =>
    intro p hp q hq
    rw [hqueue] at hq
    exact hs p (hcallbacks ▸ List.mem_cons_of_mem _ hp) q hq

/-- The entry is about to start in the lane: the first of its queue, or in its callback. -/
def Unstarted (s : QueueState) (lane : String) (entry : QueueEntry) : Prop :=
  entry ∈ s.queueOf lane ∨ (lane, entry) ∈ s.callbacks

def StoredState.queueOf (stored : StoredState) (lane : String) : List StoredEntry :=
  (stored.lanes lane).elim [] StoredLane.queue

/-- A state as an older version of the file left it: its entries have neither a priority nor a
sequence number. -/
structure StoredState.WrittenByOlder (stored : StoredState) : Prop where
  nodup : stored.laneOrder.Nodup
  listed : ∀ lane, lane ∈ stored.laneOrder ↔ stored.lanes lane ≠ none
  unnumbered : ∀ lane, ∀ entry ∈ stored.queueOf lane, entry.sequence = none ∧ entry.priority = none
  ids_nodup : (stored.laneOrder.flatMap fun lane => (stored.queueOf lane).map (·.id)).Nodup
  ids_lt : ∀ lane, ∀ entry ∈ stored.queueOf lane, entry.id < stored.nextPromise

variable {stored : StoredState}

theorem queuedIds_eq_coe (order : List String) (queueOf : String → List QueueEntry) :
    queuedIds order queueOf = (order.flatMap fun lane => (queueOf lane).map (·.id) : List Nat) := by
  unfold queuedIds idsOf
  induction order with
  | nil => rfl
  | cons lane order ih =>
    rw [← Multiset.cons_coe, Multiset.cons_bind, ih, List.flatMap_cons, Multiset.coe_add]

theorem mem_queuedIds {order : List String} {queueOf : String → List QueueEntry} {id : Nat} :
    id ∈ queuedIds order queueOf ↔ ∃ lane ∈ order, ∃ entry ∈ queueOf lane, entry.id = id := by
  simp [queuedIds_eq_coe]

/-- The runs in which callbacks do not call back, from the state of an older version. -/
abbrev Run : QueueState → Prop :=
  Lts.Reachable (fun s => ∃ stored : StoredState, stored.WrittenByOlder ∧ s = stored.getQueueState)
    (Lts.Guarded (fun s e t => s.step e = some t) NotReentrant)

/-- What holds along a run. -/
structure EntriesInv (s : QueueState) : Prop where
  listed : LanesListed s
  wellFormed : (s.ledger []).WellFormed
  sorted : QueuesSorted s
  callbacks : CallbacksFirst s

theorem EntriesInv.step {e : Event} (hs : EntriesInv s) (h : s.step e = some t)
    (hguard : NotReentrant s e) : EntriesInv t := by
  obtain ⟨hlisted, hmoves⟩ := simulates_step hs.listed h
  have hqueue := QueueStep.of_step h
  exact ⟨hlisted, hs.wellFormed.moves hmoves, hs.sorted.step hqueue,
    hs.callbacks.step hs.sorted hguard hqueue⟩

theorem hasFate_queued {id : Nat} (hs : LanesListed s) :
    (s.ledger []).HasFate id .queued ↔ ∃ lane, ∃ entry ∈ s.queueOf lane, entry.id = id := by
  refine mem_queuedIds.trans ⟨fun ⟨lane, _, h⟩ => ⟨lane, h⟩, fun ⟨lane, entry, hentry, hid⟩ => ?_⟩
  refine ⟨lane, (hs.listed lane).2 fun hnone => ?_, entry, hentry, hid⟩
  rw [QueueState.queueOf, hnone] at hentry
  exact nomatch hentry

theorem hasFate_starting {p : String × QueueEntry} (hp : p ∈ s.callbacks) :
    (s.ledger []).HasFate p.2.id .starting := by
  obtain ⟨f, hf, hfe⟩ := List.mem_filterMap.1 hp
  refine Multiset.mem_coe.2 (List.mem_filterMap.2 ⟨f, hf, ?_⟩)
  cases f with
  | onWait lane entry =>
    cases hfe
    rfl
  | pump | progress => cases hfe

end OpenClaw.CommandQueue
