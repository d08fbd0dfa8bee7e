import OpenClaw.Harness.RunExclusion

/-!
# Deferred session writes keep their order

`appendMessage`, `setModel` and `setThinkingLevel` write to the session when the phase is idle and
to `pendingSessionWrites` otherwise. What is accepted is at any time what is recorded, then what is
on its way to the session, then what is pending (`Journal.conserved`), and nothing is pending when
the phase is idle, in runs that keep to `keepsOrder`:

* the phase is set to idle only with nothing pending (`compact` and `navigateTree` do not flush when
  they leave, nor does a prompt that fails before its loop);
* a write is accepted only with no append on its way;
* no operation begins beside one in progress, for two flushes write the same head twice.
-/

namespace OpenClaw.Harness

open AgentCore (Loop LoopAwait LoopAnswer QueueMode TurnMessage AwaitOutcome)

variable {μ : Type}

/-- The write that a flush is at, and whether the session has recorded it. -/
def RunStage.head : RunStage μ → Option (Bool × PendingSessionWrite μ)
  | .flush (.writing write) _ _ => some (false, write)
  | .flush (.written write) _ _ => some (true, write)
  | _ => none

/-- The head of the pending writes is recorded. -/
def RunStage.isWritten : RunStage μ → Bool
  | .flush (.written _) _ _ => true
  | _ => false

def Op.isWritten : Op μ → Bool
  | .run call => call.stage.isWritten
  | .exclusive _ => false

theorem RunStage.isWritten_iff {stage : RunStage μ} :
    stage.isWritten = true ↔ ∃ write, stage.head = some (true, write) := by
  cases stage with
  | flush f => cases f <;> simp [isWritten, head]
  | _ => simp [isWritten, head]

namespace AgentHarness

/-- The pending writes that are not recorded yet. -/
def unrecorded (s : AgentHarness μ) : List (PendingSessionWrite μ) :=
  if s.ops.any Op.isWritten then s.pendingSessionWrites.tail else s.pendingSessionWrites

/-- The storage takes every append that is made for a caller. -/
def storageHolds : HarnessEvent μ → Bool
  | .failDirect _ => false
  | _ => true

/-- The phase is set to idle only with nothing pending, a write is accepted only with no append on
its way, and no operation begins beside one in progress. -/
def keepsOrder (s : AgentHarness μ) : HarnessEvent μ → Bool
  | .prompt | .compact | .navigateTree => s.ops.all fun op => !op.control.inProgress
  | .leave _ => s.pendingSessionWrites.isEmpty
  | .resume id _ =>
    match s.ops[id]? with
    | some (.run call) => !call.stage.setsIdle || s.pendingSessionWrites.isEmpty
    | _ => true
  | .appendMessage _ | .setModel _ _ | .setThinkingLevel _ => s.direct.isEmpty
  | _ => true

variable {s : AgentHarness μ}

/-- The writes of `t` are those of `s`, up to the pending ones. -/
structure SameWrites (s t : AgentHarness μ) : Prop where
  direct : t.direct = s.direct
  recorded : t.recorded = s.recorded
  accepted : t.acceptedWrites = s.acceptedWrites

/-- A run moves: a written head is taken off, and the run is at the new head or at none. -/
structure WritesMove (s : AgentHarness μ) (id : Nat) (run : Run μ) (t : AgentHarness μ) :
    Prop where
  same : SameWrites s t
  pending : t.pendingSessionWrites =
    if run.stage.isWritten then s.pendingSessionWrites.tail else s.pendingSessionWrites
  phase : t.phase = s.phase ∨ t.phase = .idle ∧ run.stage.setsIdle = true
  run : ∃ run' : Run μ, t.ops = s.ops.set id (.run run') ∧ ∀ b write,
    run'.stage.head = some (b, write) → b = false ∧ t.pendingSessionWrites.head? = some write

section WritesMove

variable {s t u : AgentHarness μ} {id : Nat} {run : Run μ}

variable {stage : RunStage μ}

theorem WritesMove.of_ops {handedBack : Bool}
    (hops : t.ops = s.ops.set id (.run ⟨stage, handedBack⟩)) (hhead : stage.head = none)
    (hw : run.stage.isWritten = false) (hsame : SameWrites s t)
    (hpending : t.pendingSessionWrites = s.pendingSessionWrites)
    (hphase : t.phase = s.phase ∨ t.phase = .idle ∧ run.stage.setsIdle = true) :
    WritesMove s id run t where
  same := hsame
  pending := by
    rw [hw]
    exact hpending
  phase := hphase
  run := by
    refine ⟨_, hops, fun b write h => ?_⟩
    rw [hhead] at h
    cases h

theorem setStage_writes (hhead : stage.head = none) (hw : run.stage.isWritten = false) :
    WritesMove s id run (s.setStage id run stage) :=
  .of_ops rfl hhead hw ⟨rfl, rfl, rfl⟩ rfl (.inl rfl)

variable {failed : Bool} {caller : FlushCaller μ}

theorem nextFlush_head (s : AgentHarness μ) {b : Bool} {write : PendingSessionWrite μ}
    (h : (RunStage.flush s.nextFlush failed caller).head = some (b, write)) :
    b = false ∧ s.pendingSessionWrites.head? = some write := by
  rw [nextFlush] at h
  split at h
  · cases h
  · cases h
    exact ⟨rfl, by simp [*]⟩

theorem flush_writes (hw : run.stage.isWritten = false) :
    WritesMove s id run (s.flush id run failed caller) where
  same := ⟨rfl, rfl, rfl⟩
  pending := by
    rw [hw]
    rfl
  phase := .inl rfl
  run := ⟨_, rfl, fun _ _ h => nextFlush_head s h⟩

theorem setMessages_same (s : AgentHarness μ) (name : QueueName) (messages : List μ) :
    SameWrites s (s.setMessages name messages) ∧
      (s.setMessages name messages).pendingSessionWrites = s.pendingSessionWrites ∧
      (s.setMessages name messages).ops = s.ops ∧
      (s.setMessages name messages).phase = s.phase := by
  cases name <;> exact ⟨⟨rfl, rfl, rfl⟩, rfl, rfl, rfl⟩

theorem unshift_same (s : AgentHarness μ) (name : QueueName) (generation : Nat)
    (messages : List μ) :
    SameWrites s (s.unshift name generation messages) ∧
      (s.unshift name generation messages).pendingSessionWrites = s.pendingSessionWrites ∧
      (s.unshift name generation messages).ops = s.ops ∧
      (s.unshift name generation messages).phase = s.phase := by
  rw [unshift]
  split
  · exact setMessages_same ..
  · exact ⟨⟨rfl, rfl, rfl⟩, rfl, rfl, rfl⟩

theorem serve_writes (s : AgentHarness μ) (id : Nat) (run : Run μ) (l : Loop (TurnMessage μ))
    (hw : run.stage.isWritten = false) :
    WritesMove s id run (s.serve id run l) := by
  have hdrain : ∀ (name : QueueName) (handler : LoopHandler μ), WritesMove s id run
      ((s.drainQueuedMessages name).2.setStage id run (.loop l handler)) := fun name handler => by
    obtain ⟨hsame, hpending, hops, hphase⟩ :=
      setMessages_same s name ((s.queueMode name).splice (s.queue name).messages).2
    exact .of_ops (congrArg (List.set · id _) hops) rfl hw ⟨hsame.direct, hsame.recorded, hsame.accepted⟩
      hpending (.inl hphase)
  rw [serve]
  split
  · exact .of_ops rfl rfl hw ⟨rfl, rfl, rfl⟩ rfl (.inl rfl)
  · exact .of_ops rfl rfl hw ⟨rfl, rfl, rfl⟩ rfl (.inl rfl)
  · exact hdrain _ _
  · exact hdrain _ _
  · exact hdrain _ _
  · exact flush_writes hw
  · exact flush_writes hw
  · exact flush_writes hw
  · exact flush_writes hw
  · exact flush_writes hw
  · exact setStage_writes rfl hw
  · exact setStage_writes rfl hw

theorem resumeLoop_writes {l : Loop (TurnMessage μ)} {answer : LoopAnswer (TurnMessage μ)}
    (hw : run.stage.isWritten = false) (h : s.resumeLoop id run l answer = some t) :
    WritesMove s id run t := by
  obtain ⟨l', -, rfl⟩ := Option.map_eq_some_iff.1 h
  exact serve_writes s id run l' hw

theorem afterFlush_writes {f : FlushAt μ} {wanted : Bool}
    (hstage : run.stage = .flush f wanted caller) (hw : run.stage.isWritten = false)
    (hf : failed = true ∨ f = .settled ∧ failed = wanted) :
    WritesMove s id run (s.afterFlush id run failed caller) := by
  cases caller with
  | «finally» => exact .of_ops rfl rfl hw ⟨rfl, rfl, rfl⟩ rfl (.inl rfl)
  | loop l =>
    cases failed with
    | true => exact setStage_writes rfl hw
    | false =>
      obtain ⟨rfl, rfl⟩ := hf.resolve_left (by simp)
      by_cases hend : l.await.isAgentEnd = true
      · rw [afterFlush, if_neg (by simp), if_pos hend]
        refine .of_ops rfl rfl hw ⟨rfl, rfl, rfl⟩ rfl (.inr ⟨rfl, ?_⟩)
        rw [hstage]
        exact hend
      · rw [afterFlush, if_neg (by simp), if_neg hend]
        exact setStage_writes rfl hw
  | report event =>
    cases failed with
    | true => exact setStage_writes rfl hw
    | false =>
      obtain ⟨rfl, rfl⟩ := hf.resolve_left (by simp)
      by_cases hend : event = .agentEnd
      · subst hend
        refine .of_ops rfl rfl hw ⟨rfl, rfl, rfl⟩ rfl (.inr ⟨rfl, ?_⟩)
        rw [hstage]
        rfl
      · rw [afterFlush, if_neg (by simp), if_neg hend]
        exact setStage_writes rfl hw

/-- **What an `await` of a run does to the writes.** -/
theorem resumeRun_writes {outcome : AwaitOutcome μ} (h : s.resumeRun id run outcome = some t) :
    WritesMove s id run t := by
  obtain ⟨stage, handedBack⟩ := run
  unfold resumeRun at h
  dsimp only at h
  split at h <;> try cases h
  case h_1 =>
    rw [executeTurn]
    split
    · exact setStage_writes rfl rfl
    · exact .of_ops rfl rfl rfl ⟨rfl, rfl, rfl⟩ rfl (.inl rfl)
  case h_4 => exact .of_ops rfl rfl rfl ⟨rfl, rfl, rfl⟩ rfl (.inl rfl)
  case h_5 queuedMessages given =>
    obtain ⟨hsame, hpending, hphase, hrun⟩ := serve_writes { s with runAbortController := some id }
      id ⟨.beforeStart queuedMessages, handedBack⟩
      (.start (queuedMessages.map TurnMessage.queued ++ given.map TurnMessage.given)) rfl
    exact ⟨⟨hsame.direct, hsame.recorded, hsame.accepted⟩, hpending, hphase, hrun⟩
  case h_7 =>
    split at h
    · split at h
      · cases h
        exact flush_writes rfl
      · exact resumeLoop_writes rfl h
    all_goals first | exact resumeLoop_writes rfl h | cases h
  case h_8 =>
    split at h
    · cases h
    · split at h <;> cases h
      · exact flush_writes rfl
      · exact setStage_writes rfl rfl
  case h_9 | h_11 => exact resumeLoop_writes rfl h
  case h_13 =>
    obtain ⟨hsame, hpending, hops, hphase⟩ := unshift_same s _ _ _
    exact .of_ops (congrArg (List.set · id _) hops) rfl rfl
      ⟨hsame.direct, hsame.recorded, hsame.accepted⟩ hpending (.inl hphase)
  case h_16 | h_17 | h_18 | h_24 => exact flush_writes rfl
  case h_21 => exact afterFlush_writes rfl rfl (.inl rfl)
  case h_22 =>
    exact ⟨⟨rfl, rfl, rfl⟩, rfl, .inl rfl, _, rfl, fun _ _ h => nextFlush_head _ h⟩
  case h_23 => exact afterFlush_writes rfl rfl (.inr ⟨rfl, rfl⟩)
  case h_25 failed =>
    refine .of_ops rfl rfl rfl ⟨rfl, rfl, rfl⟩ rfl ?_
    cases failed with
    | false => exact .inl rfl
    | true => exact .inr ⟨rfl, rfl⟩
  all_goals exact setStage_writes rfl rfl

end WritesMove

/-! ## The journal -/

/-- Recorded, on their way and pending, in the order in which they were accepted. -/
structure Journal (s : AgentHarness μ) : Prop where
  conserved : s.acceptedWrites = s.recorded ++ s.direct ++ s.unrecorded
  idle : s.phase = .idle → s.pendingSessionWrites = []
  direct : s.direct ≠ [] → s.pendingSessionWrites = []
  direct_le : s.direct.length ≤ 1
  head : ∀ (id : Nat) (run : Run μ) (b : Bool) (write : PendingSessionWrite μ),
    s.ops[id]? = some (.run run) → run.stage.head = some (b, write) →
    s.pendingSessionWrites.head? = some write

section Journal

variable {s t : AgentHarness μ} {e : HarnessEvent μ} {id : Nat} {run : Run μ}

variable {write : PendingSessionWrite μ}

theorem inProgress_of_head (hop : s.ops[id]? = some (.run run)) {b : Bool}
    (h : run.stage.head = some (b, write)) : s.InProgress id := by
  refine ⟨_, (control_ops s id).trans (congrArg _ hop), ?_⟩
  cases hstage : run.stage with
  | flush => simp [Op.control, hstage, RunStage.control, PhaseControl.OpControl.inProgress]
  | _ =>
    rw [hstage] at h
    cases h

theorem inProgress_of_resume (hop : s.ops[id]? = some (.run run)) {outcome : AwaitOutcome μ}
    (h : s.resumeRun id run outcome = some t) : s.InProgress id := by
  refine ⟨_, (control_ops s id).trans (congrArg _ hop), ?_⟩
  cases hstage : run.stage with
  | settled => simp [resumeRun, hstage] at h
  | _ => simp [Op.control, hstage, RunStage.control, PhaseControl.OpControl.inProgress]

theorem head_eq_none (hs : s.control.Exclusive) (hprog : s.InProgress id) {i : Nat} (hi : i ≠ id)
    (hop : s.ops[i]? = some (.run run)) : run.stage.head = none := by
  cases hhead : run.stage.head with
  | none => rfl
  | some head => exact absurd (hs.unique i id (inProgress_of_head hop hhead) hprog) hi

theorem any_isWritten_iff (s : AgentHarness μ) :
    s.ops.any Op.isWritten = true ↔
      ∃ (i : Nat) (run : Run μ), s.ops[i]? = some (.run run) ∧ run.stage.isWritten = true := by
  rw [List.any_eq_true]
  constructor
  · rintro ⟨op, hop, hwritten⟩
    obtain ⟨i, hi⟩ := List.mem_iff_getElem?.1 hop
    cases op with
    | run call => exact ⟨i, call, hi, hwritten⟩
    | exclusive => cases hwritten
  · rintro ⟨i, run, hi, hwritten⟩
    exact ⟨_, List.mem_of_getElem? hi, hwritten⟩

variable {run' : Run μ}

theorem any_isWritten_set (hs : s.control.Exclusive) (hprog : s.InProgress id)
    (hop : s.ops[id]? = some (.run run)) (hops : t.ops = s.ops.set id (.run run')) :
    t.ops.any Op.isWritten = run'.stage.isWritten := by
  apply Bool.eq_iff_iff.2
  rw [any_isWritten_iff]
  constructor
  · rintro ⟨i, r, hi, hwritten⟩
    rw [hops, PhaseControl.getElem?_set_iff hop] at hi
    rcases hi with ⟨-, hr⟩ | ⟨hne, hi⟩
    · cases hr
      exact hwritten
    · obtain ⟨write, hhead⟩ := RunStage.isWritten_iff.1 hwritten
      rw [head_eq_none hs hprog hne hi] at hhead
      cases hhead
  · intro hwritten
    exact ⟨id, run', hops ▸ (PhaseControl.getElem?_set_iff hop).2 (.inl ⟨rfl, rfl⟩), hwritten⟩

theorem any_isWritten (hs : s.control.Exclusive) (hprog : s.InProgress id)
    (hop : s.ops[id]? = some (.run run)) : s.ops.any Op.isWritten = run.stage.isWritten := by
  apply any_isWritten_set hs hprog hop
  rw [← (List.getElem?_eq_some_iff.1 hop).2, List.set_getElem_self]

theorem not_any_isWritten (h : s.pendingSessionWrites = []) : s.unrecorded = [] := by
  rw [unrecorded, h]
  split <;> rfl

theorem head_set (hs : s.control.Exclusive) (hprog : s.InProgress id)
    (hop : s.ops[id]? = some (.run run)) (hops : t.ops = s.ops.set id (.run run'))
    (hhead : ∀ b write, run'.stage.head = some (b, write) →
      t.pendingSessionWrites.head? = some write) :
    ∀ (i : Nat) (r : Run μ) (b : Bool) (write : PendingSessionWrite μ),
      t.ops[i]? = some (.run r) → r.stage.head = some (b, write) →
      t.pendingSessionWrites.head? = some write := by
  intro i r b write hi hr
  rw [hops, PhaseControl.getElem?_set_iff hop] at hi
  rcases hi with ⟨-, hr'⟩ | ⟨hne, hi⟩
  · cases hr'
    exact hhead b write hr
  · rw [head_eq_none hs hprog hne hi] at hr
    cases hr

section

variable (hj : s.Journal)
include hj

theorem Journal.resume (hs : s.control.Exclusive) (hop : s.ops[id]? = some (.run run))
    (hprog : s.InProgress id) (h : WritesMove s id run t)
    (hidle : run.stage.setsIdle = true → s.pendingSessionWrites = []) : t.Journal := by
  obtain ⟨run', hops, hhead⟩ := h.run
  have hwritten' : run'.stage.isWritten = false := by
    cases hw : run'.stage.isWritten with
    | false => rfl
    | true =>
      obtain ⟨write, hwrite⟩ := RunStage.isWritten_iff.1 hw
      cases (hhead _ _ hwrite).1
  have hunrecorded : t.unrecorded = s.unrecorded := by
    rw [unrecorded, unrecorded, any_isWritten hs hprog hop, any_isWritten_set hs hprog hop hops,
      hwritten', h.pending]
    rfl
  have hnil : s.pendingSessionWrites = [] → t.pendingSessionWrites = [] := fun hnil => by
    rw [h.pending, hnil]
    split <;> rfl
  refine ⟨?_, fun hphase => hnil ?_, fun hdirect => hnil (hj.direct ?_), ?_,
    head_set hs hprog hop hops fun b write hr => (hhead b write hr).2⟩
  · rw [h.same.accepted, h.same.recorded, h.same.direct, hunrecorded]
    exact hj.conserved
  · rcases h.phase with hsame | ⟨-, hset⟩
    · exact hj.idle (hsame ▸ hphase)
    · exact hidle hset
  · rwa [← h.same.direct]
  · rw [h.same.direct]
    exact hj.direct_le

theorem Journal.recordPending (hs : s.control.Exclusive) (hop : s.ops[id]? = some (.run run))
    {failed : Bool} {caller : FlushCaller μ}
    (hstage : run.stage = .flush (.writing write) failed caller) :
    ({ s with recorded := s.recorded ++ [write] }.setStage id run
      (.flush (.written write) failed caller)).Journal := by
  have hhead : run.stage.head = some (false, write) := by
    rw [hstage]
    rfl
  have hprog := inProgress_of_head hop hhead
  obtain ⟨rest, hpending⟩ := List.head?_eq_some_iff.1 (hj.head id run _ write hop hhead)
  have hne : s.pendingSessionWrites ≠ [] := by
    rw [hpending]
    exact List.cons_ne_nil _ _
  have hdirect : s.direct = [] := by
    by_contra h
    exact hne (hj.direct h)
  refine ⟨?_, fun hphase => absurd (hj.idle hphase) hne, fun h => absurd hdirect h, ?_,
    head_set hs hprog hop rfl fun b w hw => ?_⟩
  · have hbefore : s.unrecorded = write :: rest := by
      rw [unrecorded, any_isWritten hs hprog hop, hstage]
      exact hpending
    have hafter : ({ s with recorded := s.recorded ++ [write] }.setStage id run
        (.flush (.written write) failed caller)).unrecorded = rest := by
      rw [unrecorded, any_isWritten_set hs hprog hop rfl]
      show s.pendingSessionWrites.tail = rest
      rw [hpending, List.tail_cons]
    rw [hafter]
    show s.acceptedWrites = s.recorded ++ [write] ++ s.direct ++ rest
    rw [hj.conserved, hbefore, hdirect]
    simp
  · exact hj.direct_le
  · cases hw
    exact hj.head id run _ write hop hhead

theorem Journal.acceptWrite (hdirect : s.direct = []) (write : PendingSessionWrite μ) :
    (s.acceptWrite write).Journal := by
  by_cases hphase : s.phase = .idle
  · have hpending := hj.idle hphase
    rw [AgentHarness.acceptWrite, if_pos hphase]
    refine ⟨?_, fun _ => hpending, fun _ => hpending, ?_, hj.head⟩
    · refine Eq.trans ?_ (congrArg (s.recorded ++ (s.direct ++ [write]) ++ ·)
        (not_any_isWritten hpending).symm)
      show s.acceptedWrites ++ [write] = s.recorded ++ (s.direct ++ [write]) ++ []
      rw [hj.conserved, not_any_isWritten hpending, hdirect]
      simp
    · show (s.direct ++ [write]).length ≤ 1
      rw [hdirect]
      exact le_refl 1
  · rw [AgentHarness.acceptWrite, if_neg hphase]
    refine ⟨?_, fun h => absurd h hphase, fun h => absurd hdirect h, hj.direct_le,
      fun i r b w hi hr => ?_⟩
    · show s.acceptedWrites ++ [write] = s.recorded ++ s.direct ++
        (if s.ops.any Op.isWritten then (s.pendingSessionWrites ++ [write]).tail
          else s.pendingSessionWrites ++ [write])
      rw [hj.conserved, unrecorded]
      by_cases hany : s.ops.any Op.isWritten = true
      · -- the recorded head is in front
        obtain ⟨i, r, hi, hwritten⟩ := (any_isWritten_iff s).1 hany
        obtain ⟨w, hw⟩ := RunStage.isWritten_iff.1 hwritten
        obtain ⟨rest, hpending⟩ := List.head?_eq_some_iff.1 (hj.head i r _ w hi hw)
        rw [if_pos hany, if_pos hany, hpending]
        simp
      · rw [if_neg hany, if_neg hany]
        simp
    · show (s.pendingSessionWrites ++ [write]).head? = some w
      rw [List.head?_append, hj.head i r b w hi hr]
      rfl

theorem Journal.of_ops (hsame : SameWrites s t)
    (hpending : t.pendingSessionWrites = s.pendingSessionWrites)
    (hops : ∀ (i : Nat) (r : Run μ), r.stage.head ≠ none →
      (t.ops[i]? = some (.run r) ↔ s.ops[i]? = some (.run r)))
    (hidle : t.phase = .idle → s.pendingSessionWrites = []) : t.Journal := by
  have hany : t.ops.any Op.isWritten = s.ops.any Op.isWritten := by
    apply Bool.eq_iff_iff.2
    rw [any_isWritten_iff, any_isWritten_iff]
    have hwritten : ∀ r : Run μ, r.stage.isWritten = true → r.stage.head ≠ none := by
      intro r hr hnone
      obtain ⟨w, hw⟩ := RunStage.isWritten_iff.1 hr
      rw [hnone] at hw
      cases hw
    constructor
    · rintro ⟨i, r, hi, hr⟩
      exact ⟨i, r, (hops i r (hwritten r hr)).1 hi, hr⟩
    · rintro ⟨i, r, hi, hr⟩
      exact ⟨i, r, (hops i r (hwritten r hr)).2 hi, hr⟩
  refine ⟨?_, fun hphase => hpending.trans (hidle hphase), fun h => ?_, ?_,
    fun i r b w hi hr => ?_⟩
  · rw [hsame.accepted, hsame.recorded, hsame.direct, unrecorded, hany, hpending]
    exact hj.conserved
  · rw [hpending]
    exact hj.direct (hsame.direct ▸ h)
  · rw [hsame.direct]
    exact hj.direct_le
  · rw [hpending]
    refine hj.head i r b w ((hops i r ?_).1 hi) hr
    rw [hr]
    exact nofun

theorem Journal.same (hsame : SameWrites s t)
    (hpending : t.pendingSessionWrites = s.pendingSessionWrites) (hops : t.ops = s.ops)
    (hphase : t.phase = s.phase) : t.Journal :=
  hj.of_ops hsame hpending (fun _ _ _ => by rw [hops]) fun h => hj.idle (hphase ▸ h)

end

theorem getElem?_append_run {op : Op μ} (hop : ∀ r : Run μ, op = .run r → r.stage.head = none)
    (i : Nat) (r : Run μ) (hr : r.stage.head ≠ none) :
    (s.ops ++ [op])[i]? = some (.run r) ↔ s.ops[i]? = some (.run r) := by
  rw [PhaseControl.getElem?_append_new]
  constructor
  · rintro (h | ⟨-, h⟩)
    · exact h
    · exact absurd (hop r h.symm) hr
  · exact .inl

theorem Journal.step (hj : s.Journal) (hs : s.control.Exclusive) (h : s.step e = some t)
    (hstorage : storageHolds e = true) (hk : s.keepsOrder e = true) : t.Journal := by
  have hexclusive : ∀ phase : AgentHarnessPhase, phase ≠ .idle →
      s.beginExclusive phase = some t → t.Journal := by
    intro phase hphase h
    rw [beginExclusive] at h
    split at h <;> cases h
    exact hj.of_ops ⟨rfl, rfl, rfl⟩ rfl (getElem?_append_run fun _ h => absurd h exclusive_ne_run)
      fun hidle => absurd hidle hphase
  have henqueue : ∀ (name : QueueName) (message : μ), s.enqueue name message = some t →
      t.Journal := by
    intro name message h
    rw [enqueue] at h
    split at h <;> cases h
    obtain ⟨hsame, hpending, hops, hphase⟩ :=
      setMessages_same s name ((s.queue name).messages ++ [message])
    exact hj.same ⟨hsame.direct, hsame.recorded, hsame.accepted⟩ hpending hops hphase
  cases e with
  | prompt =>
    rw [AgentHarness.step, beginRun] at h
    split at h <;> cases h
    refine hj.of_ops ⟨rfl, rfl, rfl⟩ rfl (getElem?_append_run ?_) fun h => by cases h
    rintro r ⟨⟩
    rfl
  | compact => exact hexclusive .compaction (by simp) h
  | navigateTree => exact hexclusive .branchSummary (by simp) h
  | leave id =>
    rw [AgentHarness.step] at h
    split at h
    · rename_i hop
      cases h
      refine hj.of_ops ⟨rfl, rfl, rfl⟩ rfl (fun i r _ => ?_) fun _ => List.isEmpty_iff.1 hk
      rw [PhaseControl.getElem?_set_iff hop]
      by_cases hi : i = id
      · subst hi
        simp [hop]
      · simp [hi]
    · cases h
  | resume id outcome =>
    rw [AgentHarness.step] at h
    split at h
    · rename_i run hop
      refine hj.resume hs hop (inProgress_of_resume hop h) (resumeRun_writes h) fun hset => ?_
      rw [keepsOrder, hop] at hk
      simpa [hset] using hk
    · cases h
  | recordPending id =>
    rw [AgentHarness.step] at h
    split at h
    · rename_i run hop
      split at h
      · rename_i hstage
        cases h
        exact hj.recordPending hs hop hstage
      · cases h
    · cases h
  | appendMessage message | setModel provider modelId | setThinkingLevel level =>
    cases h
    exact hj.acceptWrite (List.isEmpty_iff.1 hk) _
  | recordDirect index =>
    obtain ⟨write, hwrite, rfl⟩ := Option.map_eq_some_iff.1 h
    have hne : s.direct ≠ [] := by
      rintro hnil
      rw [hnil] at hwrite
      cases hwrite
    -- there is only one append on its way
    obtain ⟨w, hdirect⟩ := List.length_eq_one_iff.1
      (le_antisymm hj.direct_le (List.length_pos_iff.2 hne))
    have hpending := hj.direct hne
    rw [hdirect] at hwrite
    cases index with
    | succ index => cases hwrite
    | zero =>
      cases hwrite
      refine ⟨?_, hj.idle, fun _ => hpending, ?_, hj.head⟩
      · refine Eq.trans ?_ (congrArg (s.recorded ++ [write] ++ s.direct.eraseIdx 0 ++ ·)
          (not_any_isWritten hpending).symm)
        show s.acceptedWrites = s.recorded ++ [write] ++ s.direct.eraseIdx 0 ++ []
        rw [hj.conserved, not_any_isWritten hpending, hdirect]
        simp
      · show (s.direct.eraseIdx 0).length ≤ 1
        rw [hdirect]
        exact Nat.zero_le 1
  | failDirect index => cases hstorage
  | steer message => exact henqueue .steer message h
  | followUp message => exact henqueue .followUp message h
  | nextTurn message | setSteeringMode mode | setFollowUpMode mode | abort =>
    cases h
    exact hj.same ⟨rfl, rfl, rfl⟩ rfl rfl rfl

end Journal

/-! ## Runs of the harness -/

end AgentHarness

end OpenClaw.Harness
