import OpenClaw.Harness.AgentHarness
import OpenClaw.Harness.PhaseControl

/-!
# Runs exclude each other

`RunMove` says once what an `await` of a run that ends does to the phase, the promise and the
controller. From it the harness is a `PhaseControl` (`AgentHarness.step_control`), and what that
keeps, the harness keeps.
-/

namespace OpenClaw.Harness

open AgentCore (Loop LoopAwait LoopAnswer QueueMode TurnMessage AwaitOutcome)

variable {μ : Type}

/-! ## A harness as a `PhaseControl` -/

def RunStage.control : RunStage μ → PhaseControl.RunAt
  | .turnState | .nextTurnTaken _ | .beforeStart _ => .starting
  | .loop .. | .report .. | .flush .. | .ended _ => .live
  | .unwound failed => .unwound failed
  | .settled => .settled

def Op.control : Op μ → PhaseControl.OpControl
  | .run call => .run call.stage.control call.handedBack
  | .exclusive settled => .exclusive settled

/-- The next `await` that ends sets the phase to idle. -/
def RunStage.setsIdle : RunStage μ → Bool
  | .flush .settled false (.loop l) => l.await.isAgentEnd
  | .flush .settled false (.report .agentEnd) => true
  | .unwound true => true
  | _ => false

/-- Only a run that has handed back the phase comes here. -/
def RunStage.endsWell : RunStage μ → Bool
  | .loop l _ => l.await.isAgentEnd
  | .report .agentEnd true | .ended false | .flush _ false .finally | .unwound false => true
  | _ => false

namespace AgentHarness

def control (s : AgentHarness μ) : PhaseControl where
  idle := decide (s.phase = .idle)
  runPromise := s.runPromise
  runAbortController := s.runAbortController
  resolved := s.resolved
  ops := s.ops.map Op.control

/-- The operation is between its phase change and its last cleanup. -/
def InProgress (s : AgentHarness μ) (id : Nat) : Prop := s.control.InProgress id

/-- The operation is in progress and has not delivered `agent_end`. -/
def HoldsPhase (s : AgentHarness μ) (id : Nat) : Prop := s.control.HoldsPhase id

/-- The run is between the creation of its controller and its last cleanup of it. -/
def HasController (s : AgentHarness μ) (id : Nat) : Prop :=
  ∃ run : Run μ, s.ops[id]? = some (.run run) ∧ run.stage.control = .live

/-- The operation is `prompt`, `skill` or `promptFromTemplate`. -/
def IsRun (s : AgentHarness μ) (id : Nat) : Prop := ∃ run : Run μ, s.ops[id]? = some (.run run)

/-- No operation begins beside one in progress. -/
def startsAlone (s : AgentHarness μ) : HarnessEvent μ → Bool
  | .prompt | .compact | .navigateTree => s.ops.all fun op => !op.control.inProgress
  | _ => true

/-- No run that has handed back the phase sets it to idle under another operation. -/
def keepsPhase (s : AgentHarness μ) : HarnessEvent μ → Bool
  | .resume id _ =>
    match s.ops[id]? with
    | some (.run call) =>
      !(call.handedBack && call.stage.setsIdle) || decide (s.phase = .idle)
    | _ => true
  | _ => true

/-! ## What one `await` of a run does -/

/-- The fields that runs share stay, and the run is at a new place. -/
structure Puts (s t : AgentHarness μ) (id : Nat) (run : Run μ) : Prop where
  ops : t.ops = s.ops.set id (.run run)
  phase : t.phase = s.phase
  promise : t.runPromise = s.runPromise
  controller : t.runAbortController = s.runAbortController
  resolved : t.resolved = s.resolved

inductive RunMove (s : AgentHarness μ) (id : Nat) (run : Run μ) (t : AgentHarness μ) : Prop
  | stay (stage : RunStage μ) (h : Puts s t id { run with stage })
    (hc : stage.control = run.stage.control) (hw : stage.endsWell = true → run.handedBack = true)
  | takeController (stage : RunStage μ)
    (h : Puts { s with runAbortController := some id } t id { run with stage })
    (hc : run.stage.control = .starting) (hl : stage.control = .live)
    (hw : stage.endsWell = false)
  | reject (h : Puts s t id { run with stage := .unwound true })
    (hc : run.stage.control = .starting)
  | handBack (stage : RunStage μ)
    (h : Puts { s with phase := .idle } t id ⟨stage, true⟩)
    (hc : run.stage.control = .live) (hl : stage.control = .live)
    (hset : run.stage.setsIdle = true)
  | letGo (failed : Bool)
    (h : Puts { s with runAbortController := none } t id { run with stage := .unwound failed })
    (hc : run.stage.control = .live) (hw : failed = false → run.handedBack = true)
  | finish (failed : Bool) (h : t = s.finish id run failed) (hc : run.stage = .unwound failed)

section Puts

variable {s t u : AgentHarness μ} {id : Nat} {run : Run μ}

theorem setStage_puts (s : AgentHarness μ) (id : Nat) (run : Run μ) (stage : RunStage μ) :
    Puts s (s.setStage id run stage) id { run with stage } := ⟨rfl, rfl, rfl, rfl, rfl⟩

/-- What leaves the shared fields and the operations alone may come first. -/
theorem Puts.after (h : Puts u t id run) (hops : u.ops = s.ops) (hphase : u.phase = s.phase)
    (hpromise : u.runPromise = s.runPromise)
    (hcontroller : u.runAbortController = s.runAbortController)
    (hresolved : u.resolved = s.resolved) : Puts s t id run :=
  ⟨h.ops.trans (hops ▸ rfl), h.phase.trans hphase, h.promise.trans hpromise,
    h.controller.trans hcontroller, h.resolved.trans hresolved⟩

variable {name : QueueName} {messages : List μ}

theorem setMessages_puts (h : Puts (s.setMessages name messages) t id run) : Puts s t id run := by
  cases name <;> exact h.after rfl rfl rfl rfl rfl

theorem unshift_puts {generation : Nat} (h : Puts (s.unshift name generation messages) t id run) :
    Puts s t id run := by
  rw [unshift] at h
  split at h
  · exact setMessages_puts h
  · exact h

theorem flush_puts (s : AgentHarness μ) (id : Nat) (run : Run μ) (failed : Bool)
    (caller : FlushCaller μ) :
    Puts s (s.flush id run failed caller) id
      { run with stage := .flush s.nextFlush failed caller } :=
  setStage_puts s id run _

theorem serve_puts (s : AgentHarness μ) (id : Nat) (run : Run μ) (l : Loop (TurnMessage μ)) :
    ∃ stage, Puts s (s.serve id run l) id { run with stage } ∧ stage.control = .live ∧
      (stage.endsWell = true → l.await = .returned) := by
  rw [serve]
  split
  · exact ⟨_, (setStage_puts _ id run _).after rfl rfl rfl rfl rfl, rfl,
      fun h => by simp_all [RunStage.endsWell, LoopAwait.isAgentEnd]⟩
  · exact ⟨_, (setStage_puts _ id run _).after rfl rfl rfl rfl rfl, rfl,
      fun h => by simp_all [RunStage.endsWell, LoopAwait.isAgentEnd]⟩
  · exact ⟨_, setMessages_puts (setStage_puts _ id run _), rfl,
      fun h => by simp_all [RunStage.endsWell, LoopAwait.isAgentEnd]⟩
  · exact ⟨_, setMessages_puts (setStage_puts _ id run _), rfl,
      fun h => by simp_all [RunStage.endsWell, LoopAwait.isAgentEnd]⟩
  · exact ⟨_, setMessages_puts (setStage_puts _ id run _), rfl,
      fun h => by simp_all [RunStage.endsWell, LoopAwait.isAgentEnd]⟩
  · exact ⟨_, flush_puts .., rfl, fun h => by cases h⟩
  · exact ⟨_, flush_puts .., rfl, fun h => by cases h⟩
  · exact ⟨_, flush_puts .., rfl, fun h => by cases h⟩
  · exact ⟨_, flush_puts .., rfl, fun h => by cases h⟩
  · exact ⟨_, flush_puts .., rfl, fun h => by cases h⟩
  · exact ⟨_, setStage_puts .., rfl, fun _ => ‹_›⟩
  · refine ⟨_, setStage_puts .., rfl, fun h => ?_⟩
    rw [RunStage.endsWell] at h
    cases hawait : l.await <;> simp_all [LoopAwait.isAgentEnd]

theorem resumeLoop_puts {l : Loop (TurnMessage μ)} {answer : LoopAnswer (TurnMessage μ)}
    (h : s.resumeLoop id run l answer = some t) :
    ∃ stage, Puts s t id { run with stage } ∧ stage.control = .live ∧
      (stage.endsWell = true → l.await.isAgentEnd = true) := by
  obtain ⟨l', hl', rfl⟩ := Option.map_eq_some_iff.1 h
  obtain ⟨stage, hputs, hlive, hends⟩ := serve_puts s id run l'
  exact ⟨stage, hputs, hlive, fun hw => AgentCore.Loop.resume_returned hl' (hends hw)⟩

end Puts

/-! ## One `await` of a run -/

section RunMove

variable {s t : AgentHarness μ} {id : Nat} {run : Run μ}

theorem RunMove.ofLoop {l : Loop (TurnMessage μ)} {answer : LoopAnswer (TurnMessage μ)}
    (hlive : run.stage.control = .live)
    (hends : l.await.isAgentEnd = true → run.handedBack = true)
    (h : s.resumeLoop id run l answer = some t) : RunMove s id run t := by
  obtain ⟨stage, hputs, hc, hw⟩ := resumeLoop_puts h
  exact .stay stage hputs (hc.trans hlive.symm) fun h => hends (hw h)

theorem RunMove.move (stage : RunStage μ) (h : Puts s t id { run with stage })
    (hc : stage.control = run.stage.control) (hw : stage.endsWell = false) :
    RunMove s id run t :=
  .stay stage h hc fun hends => by
    rw [hw] at hends
    cases hends

theorem afterFlush_move {f : FlushAt μ} {wanted failed : Bool} {caller : FlushCaller μ}
    (hstage : run.stage = .flush f wanted caller)
    (hf : failed = true ∨ f = .settled ∧ failed = wanted)
    (hends : run.stage.endsWell = true → run.handedBack = true) :
    RunMove s id run (s.afterFlush id run failed caller) := by
  have hlive : run.stage.control = .live := by rw [hstage]; rfl
  cases caller with
  | «finally» =>
    refine .letGo failed (setStage_puts _ id run _) hlive fun hfailed => hends ?_
    obtain ⟨rfl, hwanted⟩ := hf.resolve_left (by simp [hfailed])
    rw [hstage, ← hwanted, hfailed]
    rfl
  | loop l =>
    cases failed with
    | true => exact .move _ (setStage_puts _ id run _) hlive.symm rfl
    | false =>
      obtain ⟨rfl, rfl⟩ := hf.resolve_left (by simp)
      by_cases hend : l.await.isAgentEnd = true
      · rw [afterFlush, if_neg (by simp), if_pos hend]
        refine .handBack _ (setStage_puts _ id _ _) hlive rfl ?_
        rw [hstage]
        exact hend
      · rw [afterFlush, if_neg (by simp), if_neg hend]
        exact .move _ (setStage_puts _ id run _) hlive.symm (by simpa [RunStage.endsWell] using hend)
  | report event =>
    cases failed with
    | true => exact .move _ (setStage_puts _ id run _) hlive.symm rfl
    | false =>
      obtain ⟨rfl, rfl⟩ := hf.resolve_left (by simp)
      by_cases hend : event = .agentEnd
      · subst hend
        refine .handBack (.report .agentEnd true) (setStage_puts _ id _ _) hlive rfl ?_
        rw [hstage]
        rfl
      · rw [afterFlush, if_neg (by simp), if_neg hend]
        refine .move _ (setStage_puts _ id run _) hlive.symm ?_
        cases event <;> first | rfl | exact absurd rfl hend

/-- **What an `await` of a run does.** -/
theorem resumeRun_move {outcome : AwaitOutcome μ}
    (hends : run.stage.endsWell = true → run.handedBack = true)
    (h : s.resumeRun id run outcome = some t) : RunMove s id run t := by
  obtain ⟨stage, handedBack⟩ := run
  unfold resumeRun at h
  dsimp only at h hends
  split at h <;> try cases h
  case h_1 =>
    rw [executeTurn]
    split
    · exact .move _ (setStage_puts _ _ _ _) rfl rfl
    · exact .move _ ((setStage_puts _ _ _ _).after rfl rfl rfl rfl rfl) rfl rfl
  case h_2 | h_6 => exact .reject (setStage_puts _ _ _ _) rfl
  case h_4 => exact .reject ((setStage_puts _ _ _ _).after rfl rfl rfl rfl rfl) rfl
  case h_5 =>
    obtain ⟨stage, hputs, hlive, hw⟩ := serve_puts { s with runAbortController := some id } id
      ⟨.beforeStart _, handedBack⟩ (.start _)
    refine .takeController stage hputs rfl hlive ?_
    cases hends' : stage.endsWell with
    | false => rfl
    | true => cases hw hends'
  case h_7 l _ =>
    have hresume : ∀ {answer}, s.resumeLoop id ⟨.loop l .outside, handedBack⟩ l answer = some t →
        RunMove s id ⟨.loop l .outside, handedBack⟩ t := RunMove.ofLoop rfl hends
    split at h
    · split at h
      · cases h
        exact .move _ (flush_puts _ _ _ _ _) rfl rfl
      · exact hresume h
    all_goals first | exact hresume h | cases h
  case h_8 =>
    split at h
    · cases h
    · split at h <;> cases h
      · exact .move _ (flush_puts _ _ _ _ _) rfl rfl
      · exact .move _ (setStage_puts _ _ _ _) rfl rfl
  case h_9 | h_11 => exact .ofLoop rfl hends h
  case h_13 => exact .move _ (unshift_puts (setStage_puts _ _ _ _)) rfl rfl
  case h_16 | h_17 | h_18 => exact .move _ (flush_puts _ _ _ _ _) rfl rfl
  case h_19 => exact .stay _ (setStage_puts _ _ _ _) rfl fun _ => hends rfl
  case h_21 => exact afterFlush_move rfl (.inl rfl) hends
  case h_22 failed caller =>
    refine .stay _ ((flush_puts _ _ _ _ _).after rfl rfl rfl rfl rfl) rfl fun h => hends ?_
    cases failed <;> cases caller <;> first | rfl | cases h
  case h_23 => exact afterFlush_move rfl (.inr ⟨rfl, rfl⟩) hends
  case h_24 failed =>
    refine .stay _ (flush_puts _ _ _ _ _) rfl fun h => hends ?_
    cases failed <;> first | rfl | cases h
  case h_25 failed => exact .finish failed rfl rfl
  all_goals exact .move _ (setStage_puts _ _ _ _) rfl rfl

end RunMove

/-! ## The harness takes the steps of a `PhaseControl` -/

section Refinement

variable {s t : AgentHarness μ} {e : HarnessEvent μ} {id : Nat} {run : Run μ}

/-- Every run that ends well has handed back the phase. -/
def WellEnded (s : AgentHarness μ) : Prop :=
  ∀ (id : Nat) (run : Run μ), s.ops[id]? = some (.run run) → run.stage.endsWell = true →
    run.handedBack = true

theorem control_ops (s : AgentHarness μ) (id : Nat) :
    s.control.ops[id]? = (s.ops[id]?).map Op.control := List.getElem?_map

theorem Puts.control (h : Puts s t id run) :
    t.control = { s.control with
      ops := s.control.ops.set id (.run run.stage.control run.handedBack) } := by
  show PhaseControl.mk _ _ _ _ _ = PhaseControl.mk _ _ _ _ _
  rw [h.ops, h.phase, h.promise, h.controller, h.resolved, List.map_set]
  rfl

/-- What an action of a run asks of it. -/
def Fits (s : AgentHarness μ) (id : Nat) (run : Run μ) (a : PhaseControl.Action) : Prop :=
  a ≠ .beginRun ∧ a ≠ .beginExclusive ∧
    ∀ i, a = .handBack i ∨ a = .finish i true → i = id ∧ run.stage.setsIdle = true

variable {a : PhaseControl.Action}

theorem Fits.of_ne (hrun : a ≠ .beginRun) (hexclusive : a ≠ .beginExclusive)
    (hback : ∀ i, a ≠ .handBack i) (hfinish : ∀ i, a ≠ .finish i true) : Fits s id run a :=
  ⟨hrun, hexclusive, fun i h => (h.elim (hback i) (hfinish i)).elim⟩

theorem RunMove.control (hop : s.ops[id]? = some (.run run))
    (hends : run.stage.endsWell = true → run.handedBack = true) (h : RunMove s id run t) :
    ∃ a, PhaseControl.Step s.control a t.control ∧ Fits s id run a := by
  have hcop : s.control.ops[id]? = some (.run run.stage.control run.handedBack) := by
    rw [control_ops, hop]
    rfl
  cases h with
  | stay stage hputs hc =>
    have hsame : t.control = s.control := by
      rw [hputs.control, hc, ← (List.getElem?_eq_some_iff.1 hcop).2, List.set_getElem_self]
    rw [hsame]
    exact ⟨.nothing, .nothing _, .of_ne nofun nofun nofun nofun⟩
  | takeController stage hputs hc hl =>
    refine ⟨.takeController id, ?_, .of_ne nofun nofun nofun nofun⟩
    rw [hputs.control, hl]
    rw [hc] at hcop
    exact .move _ _ id _ _ rfl hcop (.takeController id _)
  | reject hputs hc =>
    refine ⟨.reject id, ?_, .of_ne nofun nofun nofun nofun⟩
    rw [hputs.control]
    rw [hc] at hcop
    exact .move _ _ id _ _ rfl hcop (.reject id _)
  | handBack stage hputs hc hl hset =>
    refine ⟨.handBack id, ?_, nofun, nofun, ?_⟩
    · rw [hputs.control, hl]
      rw [hc] at hcop
      exact .move _ _ id _ _ rfl hcop (.handBack id _)
    · rintro i (h | h) <;> cases h
      exact ⟨rfl, hset⟩
  | letGo failed hputs hc hw =>
    refine ⟨.letGo id failed, ?_, .of_ne nofun nofun nofun nofun⟩
    rw [hputs.control]
    rw [hc] at hcop
    exact .move _ _ id _ _ rfl hcop (.letGo id failed _ hw)
  | finish failed ht hc =>
    subst ht
    refine ⟨.finish id failed, ?_, nofun, nofun, ?_⟩
    · have hcontrol : (s.finish id run failed).control =
          { s.control.fields (.finish id failed) with
            ops := s.control.ops.set id (.run .settled run.handedBack) } := by
        show PhaseControl.mk _ _ _ _ _ = PhaseControl.mk _ _ _ _ _
        rw [AgentHarness.finish, setStage, List.map_set]
        cases failed <;> rfl
      rw [hcontrol]
      rw [hc] at hcop hends
      exact .move _ _ id _ _ rfl hcop (.finish id failed _ fun h => hends (h ▸ rfl))
    · rintro i (h | h) <;> cases h
      exact ⟨rfl, hc ▸ rfl⟩

theorem RunMove.wellEnded (hends : run.stage.endsWell = true → run.handedBack = true)
    (h : RunMove s id run t) :
    ∃ run' : Run μ, t.ops = s.ops.set id (.run run') ∧
      (run'.stage.endsWell = true → run'.handedBack = true) := by
  cases h with
  | stay stage hputs _ hw => exact ⟨_, hputs.ops, hw⟩
  | takeController stage hputs _ _ hw =>
    refine ⟨_, hputs.ops, fun h => ?_⟩
    rw [hw] at h
    cases h
  | reject hputs => exact ⟨_, hputs.ops, nofun⟩
  | handBack stage hputs => exact ⟨_, hputs.ops, fun _ => rfl⟩
  | letGo failed hputs _ hw =>
    refine ⟨_, hputs.ops, fun h => hw ?_⟩
    cases failed with
    | false => rfl
    | true => cases h
  | finish failed ht hc =>
    subst ht
    exact ⟨_, rfl, nofun⟩

/-! ### The other events -/

theorem setMessages_control (s : AgentHarness μ) (name : QueueName) (messages : List μ) :
    (s.setMessages name messages).control = s.control ∧
      (s.setMessages name messages).ops = s.ops := by
  cases name <;> exact ⟨rfl, rfl⟩

theorem acceptWrite_control (s : AgentHarness μ) (write : PendingSessionWrite μ) :
    (s.acceptWrite write).control = s.control ∧ (s.acceptWrite write).ops = s.ops := by
  by_cases hidle : s.phase = .idle
  · rw [acceptWrite, if_pos hidle]
    exact ⟨rfl, rfl⟩
  · rw [acceptWrite, if_neg hidle]
    exact ⟨rfl, rfl⟩

theorem enqueue_control {name : QueueName} {message : μ} (h : s.enqueue name message = some t) :
    t.control = s.control ∧ t.ops = s.ops := by
  rw [enqueue] at h
  split at h <;> cases h
  exact setMessages_control s name _

theorem Fits.alone (h : Fits s id run a) : s.control.Alone a :=
  fun hbegin => (hbegin.elim h.1 h.2.1).elim

theorem Fits.keeps (h : Fits s id run a) (hop : s.ops[id]? = some (.run run))
    (hidle : run.handedBack = true → run.stage.setsIdle = true → s.phase = .idle) :
    s.control.Keeps a := by
  intro i stage ha hi
  obtain ⟨rfl, hset⟩ := h.2.2 i ha
  rw [control_ops, hop] at hi
  have hhanded : run.handedBack = true := by
    simp only [Option.map_some, Op.control, Option.some.injEq,
      PhaseControl.OpControl.run.injEq] at hi
    exact hi.2
  exact decide_eq_true (hidle hhanded hset)

theorem WellEnded.set {run' : Run μ} (hs : s.WellEnded) (hop : s.ops[id]? = some (.run run))
    (hops : t.ops = s.ops.set id (.run run'))
    (hends : run'.stage.endsWell = true → run'.handedBack = true) : t.WellEnded := by
  intro i r hi
  rw [hops, PhaseControl.getElem?_set_iff hop] at hi
  rcases hi with ⟨-, hr⟩ | ⟨-, hi⟩
  · cases hr
    exact hends
  · exact hs i r hi

theorem exclusive_ne_run {settled : Bool} {run : Run μ} : Op.exclusive settled ≠ .run run := by
  intro h
  cases h

theorem WellEnded.append {op : Op μ} (hs : s.WellEnded) (hops : t.ops = s.ops ++ [op])
    (hop : ∀ run : Run μ, op = .run run → run.stage.endsWell = false) : t.WellEnded := by
  intro i r hi hends
  rw [hops, PhaseControl.getElem?_append_new] at hi
  rcases hi with hi | ⟨-, hr⟩
  · exact hs i r hi hends
  · rw [hop r hr.symm] at hends
    cases hends

/-- A step as a step of the `PhaseControl`, with its conditions. -/
structure Simulated (s : AgentHarness μ) (e : HarnessEvent μ) (t : AgentHarness μ)
    (a : PhaseControl.Action) : Prop where
  step : PhaseControl.Step s.control a t.control
  alone : s.startsAlone e = true → s.control.Alone a
  keeps : s.keepsPhase e = true → s.control.Keeps a

theorem Simulated.nothing (h : t.control = s.control) : Simulated s e t .nothing where
  step := h ▸ .nothing _
  alone _ hbegin := by rcases hbegin with h | h <;> cases h
  keeps _ _ _ ha := by rcases ha with h | h <;> cases h

theorem RunMove.simulated (hs : s.WellEnded) (hop : s.ops[id]? = some (.run run))
    (h : RunMove s id run t) (hidle : s.keepsPhase e = true → run.handedBack = true →
      run.stage.setsIdle = true → s.phase = .idle) :
    t.WellEnded ∧ ∃ a, Simulated s e t a := by
  obtain ⟨run', hops, hends⟩ := h.wellEnded (hs id run hop)
  obtain ⟨a, hstep, hfits⟩ := h.control hop (hs id run hop)
  exact ⟨hs.set hop hops hends, a, hstep, fun _ => hfits.alone,
    fun hkeeps => hfits.keeps hop (hidle hkeeps)⟩

theorem simulated_of_same (hs : s.WellEnded) (h : t.control = s.control ∧ t.ops = s.ops) :
    t.WellEnded ∧ ∃ a, Simulated s e t a := by
  refine ⟨fun i r hi => hs i r ?_, .nothing, .nothing h.1⟩
  rw [← h.2]
  exact hi

theorem alone_of_all (h : (s.ops.all fun op => !op.control.inProgress) = true) (i : Nat) :
    ¬ s.control.InProgress i := by
  rintro ⟨op, hop, hprog⟩
  rw [control_ops, Option.map_eq_some_iff] at hop
  obtain ⟨op, hop, rfl⟩ := hop
  have := List.all_eq_true.1 h op (List.mem_of_getElem? hop)
  rw [hprog] at this
  cases this

/-- **The harness takes the steps of a `PhaseControl`.** -/
theorem step_control (hs : s.WellEnded) (h : s.step e = some t) :
    t.WellEnded ∧ ∃ a, Simulated s e t a := by
  have hexclusive : ∀ phase : AgentHarnessPhase, phase ≠ .idle →
      e = .compact ∨ e = .navigateTree → s.beginExclusive phase = some t →
      t.WellEnded ∧ ∃ a, Simulated s e t a := by
    intro phase hphase he h
    rw [beginExclusive] at h
    split at h <;> cases h
    refine ⟨hs.append rfl fun _ h => absurd h exclusive_ne_run, .beginExclusive, ?_, fun hall _ => ?_, fun _ => ?_⟩
    · have hcontrol := PhaseControl.Step.beginExclusive s.control (decide_eq_true ‹s.phase = .idle›)
      simpa [control, Op.control, hphase] using hcontrol
    · apply alone_of_all
      rcases he with rfl | rfl <;> exact hall
    · rintro _ _ (h | h) <;> cases h
  cases e with
  | prompt =>
    rw [step, beginRun] at h
    split at h <;> cases h
    refine ⟨hs.append rfl ?_, .beginRun, ?_, fun hall _ => alone_of_all hall, fun _ => ?_⟩
    · rintro run ⟨⟩
      rfl
    · simpa [control, Op.control, RunStage.control] using
        PhaseControl.Step.beginRun s.control (decide_eq_true ‹s.phase = .idle›)
    · rintro _ _ (h | h) <;> cases h
  | compact => exact hexclusive .compaction nofun (.inl rfl) h
  | navigateTree => exact hexclusive .branchSummary nofun (.inr rfl) h
  | leave id =>
    rw [step] at h
    split at h
    · rename_i hop
      cases h
      refine ⟨fun i r hi => ?_, .leave id, ?_, fun _ => ?_, fun _ => ?_⟩
      · rw [PhaseControl.getElem?_set_iff hop] at hi
        exact hs i r (hi.resolve_left fun h => exclusive_ne_run h.2.symm).2
      · have hcop : s.control.ops[id]? = some (.exclusive false) := by
          rw [control_ops, hop]
          rfl
        have := PhaseControl.Step.move s.control (.leave id) id _ _ rfl hcop (.leave id)
        simpa [control, Op.control, PhaseControl.fields, List.map_set] using this
      · rintro (h | h) <;> cases h
      · rintro _ _ (h | h) <;> cases h
    · cases h
  | resume id outcome =>
    rw [step] at h
    split at h
    · rename_i run hop
      refine (resumeRun_move (hs id run hop) h).simulated hs hop fun hkeeps hhanded hset => ?_
      rw [keepsPhase, hop] at hkeeps
      simpa [hhanded, hset] using hkeeps
    · cases h
  | recordPending id =>
    rw [step] at h
    split at h
    · rename_i run hop
      split at h
      · rename_i write failed caller hstage
        cases h
        have hputs : Puts s _ id { run with stage := .flush (.written write) failed caller } :=
          (setStage_puts { s with recorded := s.recorded ++ [write] } id run _).after
            rfl rfl rfl rfl rfl
        have hmove : RunMove s id run _ := .stay _ hputs (by rw [hstage]; rfl) fun hends => by
          apply hs id run hop
          rw [hstage]
          cases failed <;> cases caller <;> first | rfl | cases hends
        refine hmove.simulated hs hop fun _ _ hset => ?_
        rw [hstage] at hset
        cases hset
      · cases h
    · cases h
  | appendMessage message =>
    cases h
    exact simulated_of_same hs (acceptWrite_control s _)
  | setModel provider modelId =>
    cases h
    exact simulated_of_same hs (acceptWrite_control s _)
  | setThinkingLevel level =>
    cases h
    exact simulated_of_same hs (acceptWrite_control s _)
  | recordDirect index | failDirect index =>
    obtain ⟨write, -, rfl⟩ := Option.map_eq_some_iff.1 h
    exact simulated_of_same hs ⟨rfl, rfl⟩
  | steer message => exact simulated_of_same hs (enqueue_control h)
  | followUp message => exact simulated_of_same hs (enqueue_control h)
  | nextTurn message | setSteeringMode mode | setFollowUpMode mode | abort =>
    cases h
    exact simulated_of_same hs ⟨rfl, rfl⟩

end Refinement

/-! ## Runs of the harness -/

section Runs

variable {s : AgentHarness μ}

theorem created_control (h : s.Created) : s.WellEnded ∧ s.control.Fresh := by
  obtain ⟨steeringMode, followUpMode, rfl⟩ := h
  exact ⟨fun id run hop => (nomatch hop), rfl, rfl, rfl⟩

theorem orderly_of_reachable
    (hs : Lts.Reachable Created (Lts.Guarded Step fun s e => s.keepsPhase e = true) s) :
    s.WellEnded ∧ s.control.Orderly := by
  apply hs.invariant
  · intro s h
    exact ⟨(created_control h).1, (created_control h).2.orderly⟩
  · rintro s e t ⟨hwell, horderly⟩ ⟨hstep, hkeeps⟩
    obtain ⟨hwell', a, hsim⟩ := step_control hwell hstep
    exact ⟨hwell', horderly.step hsim.step (hsim.keeps hkeeps)⟩

theorem exclusive_of_reachable
    (hs : Lts.Reachable Created (Lts.Guarded Step fun s e => s.startsAlone e = true) s) :
    s.WellEnded ∧ s.control.Exclusive := by
  apply hs.invariant
  · intro s h
    exact ⟨(created_control h).1, (created_control h).2.exclusive⟩
  · rintro s e t ⟨hwell, hexclusive⟩ ⟨hstep, halone⟩
    obtain ⟨hwell', a, hsim⟩ := step_control hwell hstep
    exact ⟨hwell', hexclusive.step hsim.step (hsim.alone halone)⟩

theorem idle_iff (hs : s.control.Orderly) : s.phase = .idle ↔ ∀ i, ¬ s.HoldsPhase i :=
  decide_eq_true_iff.symm.trans hs.idle_iff

theorem run_fields (hs : s.control.Exclusive) {i : Nat} (hrun : s.IsRun i)
    (hprog : s.InProgress i) :
    s.waitForIdle = some i ∧ i ∉ s.resolved ∧ (s.HasController i → i ∈ s.abort.aborted) := by
  obtain ⟨run, hop⟩ := hrun
  have hcop : s.control.ops[i]? = some (.run run.stage.control run.handedBack) := by
    rw [control_ops, hop]
    rfl
  have hunsettled : run.stage.control ≠ .settled := by
    intro hsettled
    obtain ⟨op, hop', hin⟩ := hprog
    rw [hcop] at hop'
    cases hop'
    rw [hsettled] at hin
    cases hin
  have hfields := hs.run i _ _ hcop hunsettled
  refine ⟨hfields.promise, hfields.pending, ?_⟩
  rintro ⟨run', hop', hlive⟩
  cases hop.symm.trans hop'
  have hcontroller : s.runAbortController = some i := hfields.controller hlive
  show i ∈ s.aborted ++ s.runAbortController.toList
  rw [hcontroller]
  exact List.mem_append_right _ List.mem_cons_self

end Runs

/-- **Runs are exclusive.** As long as no run that has delivered `agent_end` resets the phase under
another operation, at most one operation holds the phase, which is idle exactly when none does. As
long as no operation begins beside one that is still cleaning up, at most one is in progress;
`waitForIdle` waits for the run that is, and `abort` signals its controller. -/
theorem runs_exclude_each_other (μ : Type) :
    (∀ s : AgentHarness μ,
      Lts.Reachable Created (Lts.Guarded Step fun s e => s.keepsPhase e = true) s →
        (∀ i j, s.HoldsPhase i → s.HoldsPhase j → i = j) ∧
        (s.phase = .idle ↔ ∀ i, ¬ s.HoldsPhase i)) ∧
    ∀ s : AgentHarness μ,
      Lts.Reachable Created (Lts.Guarded Step fun s e => s.startsAlone e = true) s →
        (∀ i j, s.InProgress i → s.InProgress j → i = j) ∧
        (s.phase = .idle ↔ ∀ i, ¬ s.HoldsPhase i) ∧
        ∀ i, s.IsRun i → s.InProgress i →
          s.waitForIdle = some i ∧ i ∉ s.resolved ∧
          (s.HasController i → i ∈ s.abort.aborted) := by
  constructor
  · intro s hs
    have horderly := (orderly_of_reachable hs).2
    exact ⟨horderly.unique, idle_iff horderly⟩
  · intro s hs
    have hexclusive := (exclusive_of_reachable hs).2
    exact ⟨hexclusive.unique, idle_iff hexclusive.orderly, fun i => run_fields hexclusive⟩

/-- A prompt whose run fails at its first event, up to the listeners of `agent_end`. -/
def promptToAgentEnd : List (HarnessEvent Nat) :=
  [.prompt, .resume 0 (.returns .done), .resume 0 (.returns (.messages [7])), .resume 0 .throws,
    .resume 0 (.returns .done), .resume 0 (.returns .done), .resume 0 (.returns .done),
    .resume 0 (.returns .done), .resume 0 (.returns .done), .resume 0 (.returns .done)]

/-- The harness after `promptToAgentEnd`. -/
def atAgentEnd : AgentHarness Nat :=
  { create .all .all with
    runPromise := some 0
    runAbortController := some 0
    ops := [.run ⟨.report .agentEnd true, true⟩] }

theorem created_create (steeringMode followUpMode : QueueMode) :
    (create steeringMode followUpMode : AgentHarness μ).Created := ⟨_, _, rfl⟩

theorem reachable_atAgentEnd :
    Lts.Reachable Created (Lts.Guarded Step fun s e => s.startsAlone e = true) atAgentEnd :=
  (Lts.Reachable.start (created_create .all .all)).run_guarded
    (by decide : Lts.run _ _ promptToAgentEnd = some atAgentEnd)

theorem reachable_atAgentEnd_keepsPhase :
    Lts.Reachable Created (Lts.Guarded Step fun s e => s.keepsPhase e = true) atAgentEnd :=
  (Lts.Reachable.start (created_create .all .all)).run_guarded
    (by decide : Lts.run _ _ promptToAgentEnd = some atAgentEnd)

theorem inProgress_atAgentEnd : atAgentEnd.InProgress 0 := ⟨_, rfl, rfl⟩

/-- Its promise and its controller are those of the run that delivers `agent_end`. -/
theorem runs_exclude_each_other_atAgentEnd :
    (atAgentEnd.phase = .idle ↔ ∀ i, ¬ atAgentEnd.HoldsPhase i) ∧
      atAgentEnd.waitForIdle = some 0 ∧ 0 ∈ atAgentEnd.abort.aborted := by
  have hrun := ((runs_exclude_each_other Nat).2 atAgentEnd reachable_atAgentEnd).2.2 0 ⟨_, rfl⟩
    inProgress_atAgentEnd
  exact ⟨((runs_exclude_each_other Nat).1 atAgentEnd reachable_atAgentEnd_keepsPhase).2, hrun.1,
    hrun.2.2 ⟨_, rfl, rfl⟩⟩

/-- The phase is idle while the listeners of `agent_end` are called. -/
theorem idle_while_in_progress :
    ¬ ∀ s : AgentHarness Nat, Lts.Reachable Created Step s →
      (∀ i j, s.InProgress i → s.InProgress j → i = j) ∧
      (s.phase = .idle ↔ ∀ i, ¬ s.InProgress i) ∧
      ∀ i, s.IsRun i → s.InProgress i →
        s.waitForIdle = some i ∧ i ∉ s.resolved ∧ i ∈ s.abort.aborted := by
  intro h
  have hidle := (h atAgentEnd reachable_atAgentEnd.restrict).2.1
  exact hidle.1 rfl 0 inProgress_atAgentEnd

end AgentHarness

end OpenClaw.Harness
