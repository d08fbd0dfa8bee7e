import Mathlib.Algebra.BigOperators.Group.List.Basic
import Mathlib.Data.List.Induction
import OpenClaw.AgentCore.Frame
import OpenClaw.Lib.Lts

/-!
# No tool starts after an abort

A call is checked when it is prepared and executed later. `Watch` reads the log of a batch: it knows
the signal, and how many calls have passed their checks and wait to be executed. Every log a batch
writes, also one that does not return, is one `Watch` accepts (`quiet_executeToolCalls`): a call
passes only while the signal is not aborted, and only a call that has passed is executed.

**Theorem (`starts_unaborted_iff`).** If the signal is aborted only while no call waits, no tool is
called when the signal is aborted; and in a batch that returns, only then.

A sequential batch executes a call right after its checks, so nothing can abort the signal in between
but the suspension at the return of `prepareToolCall`. A parallel batch prepares all calls first.
-/

namespace OpenClaw.AgentCore

/-! ## Reading a log -/

/-- The signal, and the number of calls that have passed their checks and are not executed. -/
structure Watch where
  aborted : Bool
  waiting : Nat

/-- What an entry does to them; `none` for an entry a batch does not write. -/
def Watch.next (w : Watch) : Entry → Option Watch
  | .event _ => some w
  | .prepared _ => if w.aborted then none else some { w with waiting := w.waiting + 1 }
  | .execute _ aborted =>
    if aborted = w.aborted ∧ 0 < w.waiting then some { w with waiting := w.waiting - 1 } else none
  | .aborted => some { w with aborted := true }

variable {u : Watch}

variable {ref : CallRef}

theorem Watch.next_prepared {w : Watch} (h : w.next (.prepared ref) = some u) :
    w.aborted = false ∧ u = { w with waiting := w.waiting + 1 } := by
  simp only [Watch.next] at h
  by_cases haborted : w.aborted = true
  · rw [if_pos haborted] at h
    cases h
  · rw [if_neg haborted, Option.some.injEq] at h
    exact ⟨by simpa using haborted, h.symm⟩

theorem Watch.next_execute {w : Watch} {aborted : Bool}
    (h : w.next (.execute ref aborted) = some u) :
    aborted = w.aborted ∧ 0 < w.waiting ∧ u = { w with waiting := w.waiting - 1 } := by
  simp only [Watch.next] at h
  by_cases hguard : aborted = w.aborted ∧ 0 < w.waiting
  · rw [if_pos hguard, Option.some.injEq] at h
    exact ⟨hguard.1, hguard.2, h.symm⟩
  · rw [if_neg hguard] at h
    cases h

/-- The log says that `n` calls wait. -/
def Watched (w : Watch) (n : Nat) (s : RunState) : Prop :=
  Lts.run Watch.next w s.log = some ⟨s.aborted, n⟩

/-- Programs that leave no call waiting that was not. -/
def Quiet {α : Type} (m : AgentProg α) : Prop :=
  Prog.Keeps (fun i : Watch × Nat => Watched i.1 i.2) (fun i s => ∃ k, Watched i.1 k s) m

variable {w : Watch} {n : Nat} {s : RunState} {α β : Type}

variable {entry : Entry}

theorem Watched.record (hs : Watched w n s) (hentry : Watch.next ⟨s.aborted, n⟩ entry = some u) :
    Lts.run Watch.next w (s.log ++ [entry]) = some u := by
  rw [Lts.run_concat, hs]
  exact hentry

def Entry.isEvent : Entry → Prop
  | .event _ => True
  | .prepared _ | .execute .. | .aborted => False

theorem watched_frame (env : Env) : Frame env (fun i : Watch × Nat => Watched i.1 i.2)
    (fun i s => ∃ k, Watched i.1 k s) Entry.isEvent where
  suspend i := by
    refine .modify fun s hs => ?_
    split_ifs with h
    · exact hs.record rfl
    · exact hs
  record entry hentry i := by
    cases entry with
    | event e => exact .modify fun _ hs => hs.record rfl
    | prepared | execute | aborted => cases hentry
  context f i := .modify fun _ hs => hs
  stop i _ hs := ⟨i.2, hs⟩

/-! ## Preparing -/

variable (env : Env) (config : AgentLoopConfig)

theorem quiet_emit (e : AgentEvent) : Quiet (emit env e) := (watched_frame env).emit trivial

theorem quiet_suspend : Quiet (suspend env) := (watched_frame env).suspend

theorem quiet_signalAborted : Quiet signalAborted := keeps_signalAborted

variable {m : AgentProg α}

theorem Quiet.at (hm : Quiet m) (w : Watch) (n : Nat) :
    Prog.Triple (Watched w n) m (fun _ => Watched w n) fun s => ∃ k, Watched w k s := hm (w, n)

/-- The number of calls that a preparation leaves waiting. -/
def waits : PreparedToolCall ⊕ α → Nat
  | .inl _ => 1
  | .inr _ => 0

/-- Programs that leave a call waiting if they have prepared it. -/
def Prepares (m : AgentProg β) (preparation : β → PreparedToolCall ⊕ α) : Prop :=
  ∀ w n, Prog.Triple (Watched w n) m (fun b => Watched w (n + waits (preparation b)))
    fun s => ∃ k, Watched w k s

variable {γ : Type}

variable {preparation : β → PreparedToolCall ⊕ γ}

theorem Quiet.prepares {f : α → AgentProg β} (hm : Quiet m) (hf : ∀ a, Prepares (f a) preparation) :
    Prepares (m >>= f) preparation :=
  fun w n => (hm.at w n).bind fun a => hf a w n

theorem Prepares.immediate {b : β} {c : γ} (h : preparation b = .inr c) :
    Prepares (pure b) preparation := by
  intro w n
  refine .pure fun s hs => ?_
  rw [h]
  exact hs

theorem prepares_passChecks (prepared : PreparedToolCall) : Prepares (passChecks prepared) id := by
  intro w n
  have hread : Prog.Triple (Watched w n) signalAborted
      (fun aborted s => aborted = s.aborted ∧ Watched w n s) fun s => ∃ k, Watched w k s :=
    .bind .get fun s => .pure fun t ht => ⟨by rw [ht.1], ht.2⟩
  refine .bind hread fun aborted => ?_
  cases aborted with
  | true => exact .pure fun s hs => hs.2
  | false =>
    refine .bind (R := fun _ => Watched w (n + 1)) ?_ fun _ => .pure fun s hs => hs
    refine .modify fun s hs => hs.2.record ?_
    rw [Watch.next, ← hs.1]
    rfl

theorem prepares_runBeforeToolCall (prepared : PreparedToolCall) :
    Prepares (runBeforeToolCall env config prepared) id := by
  unfold runBeforeToolCall
  cases config.beforeToolCall with
  | none => exact prepares_passChecks prepared
  | some beforeToolCall =>
    refine Quiet.prepares ((watched_frame env).attempt beforeToolCall) fun result => ?_
    cases result with
    | error error => exact .immediate rfl
    | ok beforeResult =>
      refine quiet_signalAborted.prepares fun aborted => ?_
      cases aborted with
      | true => exact .immediate rfl
      | false =>
        match beforeResult with
        | some ⟨true, reason⟩ => exact .immediate rfl
        | some ⟨false, reason⟩ | none => exact prepares_passChecks prepared

theorem Prepares.bind {δ : Type} {m : AgentProg β} {f : β → AgentProg α}
    {preparation' : α → PreparedToolCall ⊕ δ} (hm : Prepares m preparation)
    (hf : ∀ b w n, Prog.Triple (Watched w (n + waits (preparation b))) (f b)
      (fun a => Watched w (n + waits (preparation' a))) fun s => ∃ k, Watched w k s) :
    Prepares (m >>= f) preparation' :=
  fun w n => (hm w n).bind fun b => hf b w n

theorem prepares_prepareResolved (toolCall : AgentToolCall)
    (resolution : ResolvedToolCallOutcome) :
    Prepares (prepareResolved env config toolCall resolution) id := by
  cases resolution with
  | error error => exact quiet_signalAborted.prepares fun _ => .immediate rfl
  | ok tool =>
    cases tool with
    | none => exact .immediate rfl
    | some tool =>
      unfold prepareResolved
      dsimp only
      cases (tool.prepareArguments.getD .ok) toolCall.arguments with
      | error error => exact .immediate rfl
      | ok arguments =>
        dsimp only
        cases tool.validateArguments arguments with
        | error error => exact .immediate rfl
        | ok args => exact prepares_runBeforeToolCall env config _

theorem prepares_prepareToolCall (resolvedToolCalls : ResolvedToolCalls) (index : Nat)
    (toolCall : AgentToolCall) :
    Prepares (prepareToolCall env config resolvedToolCalls index toolCall) Prod.fst := by
  refine Quiet.prepares ((watched_frame env).resolveToolCallTool config _ _ _) fun ⟨resolution, resolved⟩ => ?_
  refine (quiet_suspend env).prepares fun _ => ?_
  refine (prepares_prepareResolved env config toolCall resolution).bind fun preparation w n => ?_
  exact .bind ((quiet_suspend env).at w _) fun _ => .pure fun s hs => hs

theorem prepares_startToolCall (resolvedToolCalls : ResolvedToolCalls) (index : Nat)
    (toolCall : AgentToolCall) :
    Prepares (startToolCall env config resolvedToolCalls index toolCall) Prod.fst := by
  refine Quiet.prepares (keeps_hidesToolCallFromChannelProgress _ _ _) fun hide => ?_
  refine (quiet_emit env _).prepares fun _ => ?_
  refine (prepares_prepareToolCall env config _ _ _).bind fun ⟨preparation, resolved⟩ w n => ?_
  refine .pure fun s hs => ?_
  cases preparation <;> exact hs

/-! ## Executing -/

theorem executes_executePreparedToolCall (prepared : PreparedToolCall) (w : Watch) (n : Nat) :
    Prog.Triple (Watched w (n + 1)) (executePreparedToolCall env prepared) (fun _ => Watched w n)
      fun s => ∃ k, Watched w k s := by
  refine .bind .get fun s => ?_
  refine .bind (R := fun _ => Watched w n) ?_ fun _ => ?_
  · refine .modify fun t ht => ht.2.record ?_
    rw [Watch.next, if_pos ⟨by rw [ht.1], Nat.succ_pos n⟩]
    rfl
  · refine .bind ((quiet_suspend env).at w n) fun _ => ?_
    exact .bind (Quiet.at ((watched_frame env).emitUpdates (fun _ _ _ _ => trivial) _ _ _) w n)
      fun failed => .pure fun t ht => ht

theorem quiet_advance (running : RunningCall) : Quiet (running.advance env config) := by
  cases running with
  | executing prepared updates failed result =>
    cases updates with
    | nil =>
      refine (quiet_suspend env).bind fun _ => ?_
      cases failed with
      | some message => exact .throw (watched_frame env).stop _
      | none => cases result <;> exact .pure _
    | cons update rest =>
      exact ((watched_frame env).emitUpdate (fun _ _ _ _ => trivial) prepared update).bind fun _ =>
        .pure _
  | executed prepared result isError =>
    exact ((watched_frame env).finalizeExecutedToolCall config _ _ _).bind fun _ => .pure _
  | finalized outcome => exact (quiet_emit env _).bind fun _ => .pure _
  | settled outcome => exact .pure _

theorem quiet_finish (n : Nat) (running : RunningCall) : Quiet (running.finish env config n) := by
  induction n generalizing running with
  | zero =>
    cases running with
    | settled outcome => exact .pure _
    | executing | executed | finalized => exact .throw (watched_frame env).stop _
  | succ n ih =>
    have hnext := (quiet_advance env config running).bind fun running => ih running
    cases running with
    | settled outcome => exact .pure _
    | executing | executed | finalized => exact hnext

theorem quiet_emitToolResultMessage (message : ToolResultMessage) :
    Quiet (emitToolResultMessage env message) :=
  (quiet_emit env _).bind fun _ => quiet_emit env _

/-! ## Batches -/

theorem executes_finishToolCall (preparation : PreparedToolCall ⊕ FinalizedToolCallOutcome)
    (w : Watch) (n : Nat) :
    Prog.Triple (Watched w (n + waits preparation)) (finishToolCall env config preparation)
      (fun _ => Watched w n) fun s => ∃ k, Watched w k s := by
  cases preparation with
  | inr finalized => exact .bind ((quiet_emit env _).at w n) fun _ => .pure fun _ hs => hs
  | inl prepared =>
    exact .bind (executes_executePreparedToolCall env prepared w n) fun running =>
      (quiet_finish env config _ running).at w n

theorem quiet_executeSequentially (resolvedToolCalls : ResolvedToolCalls) (index : Nat)
    (toolCalls : List AgentToolCall) (finalizedCalls : List FinalizedToolCallOutcome) :
    Quiet (executeSequentially env config resolvedToolCalls index toolCalls finalizedCalls) := by
  induction toolCalls generalizing resolvedToolCalls index finalizedCalls with
  | nil => exact .pure _
  | cons toolCall rest ih =>
    rintro ⟨w, n⟩
    refine .bind (prepares_startToolCall env config _ _ _ w n) fun ⟨preparation, resolved⟩ => ?_
    refine .bind (executes_finishToolCall env config preparation w n) fun finalized => ?_
    refine .bind ((quiet_emitToolResultMessage env _).at w n) fun _ => ?_
    exact Prog.Keeps.bind quiet_signalAborted (fun _ => .ite (.pure _) (ih _ _ _)) (w, n)

theorem quiet_executeToolCallsSequential (toolCalls : List AgentToolCall)
    (resolvedToolCalls : ResolvedToolCalls) :
    Quiet (executeToolCallsSequential env config toolCalls resolvedToolCalls) :=
  (quiet_executeSequentially env config _ _ _ _).bind fun _ => .pure _

def waiting (entries : List FinalizedToolCallEntry) : Nat := (entries.map waits).sum

theorem quiet_endImmediate (entry : FinalizedToolCallEntry) : Quiet (endImmediate env entry) := by
  cases entry with
  | inl prepared => exact .pure _
  | inr finalized => exact quiet_emit env _

theorem prepareInParallel_waiting (resolvedToolCalls : ResolvedToolCalls) (index : Nat)
    (toolCalls : List AgentToolCall) (entries : List FinalizedToolCallEntry) (w : Watch) (n : Nat) :
    Prog.Triple (Watched w (waiting entries + n))
      (prepareInParallel env config resolvedToolCalls index toolCalls entries)
      (fun entries => Watched w (waiting entries + n)) fun s => ∃ k, Watched w k s := by
  induction toolCalls generalizing resolvedToolCalls index entries with
  | nil => exact .pure fun _ hs => hs
  | cons toolCall rest ih =>
    refine .bind (prepares_startToolCall env config _ _ _ w _) fun ⟨preparation, resolved⟩ => ?_
    have hadded : waiting entries + n + waits preparation = waiting (entries ++ [preparation]) + n := by
      simp [waiting]
      omega
    rw [hadded]
    refine .bind ((quiet_endImmediate env preparation).at w _) fun _ => ?_
    refine .bind (quiet_signalAborted.at w _) fun aborted => ?_
    exact .ite (fun _ => .pure fun _ hs => hs) fun _ => ih _ _ _

theorem startEntries_waiting (entries : List FinalizedToolCallEntry) (w : Watch) (n : Nat) :
    Prog.Triple (Watched w (waiting entries + n)) (startEntries env entries) (fun _ => Watched w n)
      fun s => ∃ k, Watched w k s := by
  induction entries with
  | nil => exact .pure fun s hs => by simpa [waiting] using hs
  | cons entry rest ih =>
    cases entry with
    | inr outcome =>
      refine .bind (ih.pre fun s hs => ?_) fun _ => .pure fun _ hs => hs
      simpa [waiting, waits] using hs
    | inl prepared =>
      have hfirst := executes_executePreparedToolCall env prepared w (waiting rest + n)
      refine .bind (hfirst.pre fun s hs => ?_) fun _ => .bind ih fun _ => .pure fun _ hs => hs
      have hcount : waiting (.inl prepared :: rest) + n = waiting rest + n + 1 := by
        simp [waiting, waits]
        omega
      exact hcount ▸ hs

theorem quiet_advanceAt (k : Nat) (calls : List RunningCall) :
    Quiet (advanceAt env config k calls) := by
  induction calls generalizing k with
  | nil => cases k <;> exact .pure _
  | cons running rest ih =>
    have hgo : Quiet (if k = 0 ∨ (settledOutcomes rest).isSome then do
          let running ← running.advance env config
          return running :: rest
        else do
          let rest ← advanceAt env config (k - 1) rest
          return running :: rest) :=
      .ite ((quiet_advance env config running).bind fun _ => .pure _)
        ((ih _).bind fun _ => .pure _)
    cases running with
    | settled outcome => exact (ih k).bind fun _ => .pure _
    | executing | executed | finalized => exact hgo

theorem quiet_promiseAll (fuel : Nat) (calls : List RunningCall) :
    Quiet (promiseAll env config fuel calls) := by
  induction fuel generalizing calls with
  | zero =>
    unfold promiseAll
    cases settledOutcomes calls with
    | some outcomes => exact .pure _
    | none => exact .throw (watched_frame env).stop _
  | succ fuel ih =>
    unfold promiseAll
    cases settledOutcomes calls with
    | some outcomes => exact .pure _
    | none =>
      exact Prog.Keeps.get.bind fun s => (quiet_advanceAt env config _ _).bind fun calls => ih calls

theorem quiet_executeToolCallsParallel (toolCalls : List AgentToolCall)
    (resolvedToolCalls : ResolvedToolCalls) :
    Quiet (executeToolCallsParallel env config toolCalls resolvedToolCalls) := by
  rintro ⟨w, n⟩
  have hprepare := prepareInParallel_waiting env config resolvedToolCalls 0 toolCalls [] w n
  refine .bind (hprepare.pre fun s hs => by simpa [waiting] using hs) fun entries => ?_
  refine .bind (startEntries_waiting env entries w n) fun running => ?_
  refine .bind ((quiet_promiseAll env config _ running).at w n) fun outcomes => ?_
  refine .bind ((quiet_suspend env).at w n) fun _ => ?_
  exact .bind (Prog.Keeps.forEach (quiet_emitToolResultMessage env) _ (w, n)) fun _ => .pure fun _ hs => hs

/-- **A batch that returns leaves no call waiting.** -/
theorem quiet_executeToolCalls (message : AssistantMessage) :
    Quiet (executeToolCalls env config message) := by
  refine .ite (quiet_executeToolCallsSequential env config _ _) ?_
  refine ((watched_frame env).hasSequentialToolCall config _ _ _).bind fun ⟨sequential, resolved⟩ => ?_
  exact .ite (quiet_executeToolCallsSequential env config _ _)
    (quiet_executeToolCallsParallel env config _ _)

/-! ## What the log says -/

/-- No tool is called when the signal is aborted. -/
def StartsUnaborted (log : List Entry) : Prop := ∀ ref aborted, .execute ref aborted ∈ log →
  aborted = false

def Entry.isPrepared : Entry → Bool
  | .prepared _ => true
  | .event _ | .execute .. | .aborted => false

def Entry.isExecute : Entry → Bool
  | .execute .. => true
  | .event _ | .prepared _ | .aborted => false

/-- When the signal is aborted, every call that has passed its checks has been executed. -/
def AbortsIdle (log : List Entry) : Prop :=
  ∀ before after, log = before ++ .aborted :: after →
    before.countP Entry.isPrepared = before.countP Entry.isExecute

variable {log : List Entry} {v : Watch}

theorem Watch.waiting_of_run (h : Lts.run Watch.next w log = some v) :
    v.waiting + log.countP Entry.isExecute = w.waiting + log.countP Entry.isPrepared := by
  induction log generalizing w with
  | nil =>
    cases h
    rfl
  | cons entry log ih =>
    obtain ⟨u, hu, hrest⟩ := Option.bind_eq_some_iff.1 h
    have hlater := ih hrest
    simp only [List.countP_cons]
    cases entry with
    | event e =>
      cases hu
      simpa [Entry.isExecute, Entry.isPrepared] using hlater
    | aborted =>
      cases hu
      simpa [Entry.isExecute, Entry.isPrepared] using hlater
    | prepared ref =>
      obtain ⟨-, rfl⟩ := Watch.next_prepared hu
      simp only [Entry.isExecute, Entry.isPrepared, if_true, Bool.false_eq_true, if_false] at hlater ⊢
      omega
    | execute ref aborted =>
      obtain ⟨-, hpos, rfl⟩ := Watch.next_execute hu
      simp only [Entry.isExecute, Entry.isPrepared, if_true, Bool.false_eq_true, if_false] at hlater ⊢
      omega

theorem Watch.run_of_split {before after : List Entry}
    (h : Lts.run Watch.next w (before ++ entry :: after) = some v) :
    ∃ u u', Lts.run Watch.next w before = some u ∧ u.next entry = some u' ∧
      Lts.run Watch.next u' after = some v := by
  rw [Lts.run_append] at h
  obtain ⟨u, hu, h⟩ := Option.bind_eq_some_iff.1 h
  obtain ⟨u', hu', h⟩ := Option.bind_eq_some_iff.1 h
  exact ⟨u, u', hu, hu', h⟩

theorem startsUnaborted_of_idle (hlog : Lts.run Watch.next w log = some v)
    (hw : w.aborted = true → w.waiting = 0)
    (h : ∀ before after u, log = before ++ .aborted :: after →
      Lts.run Watch.next w before = some u → u.waiting = 0) :
    (v.aborted = true → v.waiting = 0) ∧ StartsUnaborted log := by
  induction log using List.reverseRecOn generalizing v with
  | nil =>
    cases hlog
    exact ⟨hw, fun _ _ hmem => nomatch hmem⟩
  | append_singleton log entry ih =>
    rw [Lts.run_concat] at hlog
    obtain ⟨u, hu, hentry⟩ := Option.bind_eq_some_iff.1 hlog
    obtain ⟨hidle, hstarts⟩ := ih hu fun before after u' heq =>
      h before (after ++ [entry]) u' (by rw [heq, List.append_assoc, List.cons_append])
    -- what is to be shown of the last entry
    have hstep : (v.aborted = true → v.waiting = 0) ∧
        ∀ ref aborted, entry = .execute ref aborted → aborted = false := by
      cases entry with
      | event e =>
        cases hentry
        exact ⟨hidle, fun _ _ heq => nomatch heq⟩
      | prepared ref =>
        obtain ⟨hnot, rfl⟩ := Watch.next_prepared hentry
        exact ⟨fun hv => (nomatch hnot.symm.trans hv), fun _ _ heq => nomatch heq⟩
      | execute ref aborted =>
        obtain ⟨hflag, hpos, rfl⟩ := Watch.next_execute hentry
        have hnot : u.aborted = false := by
          rw [Bool.eq_false_iff]
          intro habsurd
          have := hidle habsurd
          omega
        refine ⟨fun hv => (nomatch hnot.symm.trans hv), ?_⟩
        rintro _ _ ⟨⟩
        exact hflag.trans hnot
      | aborted =>
        cases hentry
        exact ⟨fun _ => h log [] u rfl hu, fun _ _ heq => nomatch heq⟩
    refine ⟨hstep.1, fun ref aborted hmem => ?_⟩
    rcases List.mem_append.1 hmem with hmem | hmem
    · exact hstarts ref aborted hmem
    · exact hstep.2 ref aborted (List.mem_singleton.1 hmem).symm

theorem waiting_eq_of_aborted (hlog : Lts.run Watch.next w log = some v) (hw : w.aborted = true)
    (h : StartsUnaborted log) : v.waiting = w.waiting := by
  induction log generalizing w with
  | nil =>
    cases hlog
    rfl
  | cons entry log ih =>
    obtain ⟨u, hu, hrest⟩ := Option.bind_eq_some_iff.1 hlog
    have hlater : StartsUnaborted log := fun ref aborted hmem =>
      h ref aborted (List.mem_cons_of_mem _ hmem)
    cases entry with
    | event e =>
      cases hu
      exact ih hrest hw hlater
    | aborted =>
      cases hu
      exact ih (w := ⟨true, w.waiting⟩) hrest rfl hlater
    | prepared ref =>
      obtain ⟨hnot, -⟩ := Watch.next_prepared hu
      exact nomatch hnot.symm.trans hw
    | execute ref aborted =>
      obtain ⟨hflag, -⟩ := Watch.next_execute hu
      have hnot := h ref aborted List.mem_cons_self
      exact nomatch (hflag.symm.trans hnot).symm.trans hw

/-- **A tool is called only while the signal is not aborted, if and only if the signal is aborted
only while no call waits.** -/
theorem starts_unaborted_iff (message : AssistantMessage) (s : RunState) {t : RunState}
    {result : Except Stop ExecutedToolCallBatch}
    (h : executeToolCalls env config message { s with log := [] } = (result, t)) :
    (AbortsIdle t.log → StartsUnaborted t.log) ∧
      (result.isOk = true → StartsUnaborted t.log → AbortsIdle t.log) := by
  have hquiet := (quiet_executeToolCalls env config message).at ⟨s.aborted, 0⟩ 0
  have hstart : Watched ⟨s.aborted, 0⟩ 0 { s with log := [] } := rfl
  have hlog : ∃ k, Watched ⟨s.aborted, 0⟩ k t ∧ (result.isOk = true → k = 0) := by
    cases result with
    | ok batch => exact ⟨0, hquiet.ok hstart h, fun _ => rfl⟩
    | error e =>
      obtain ⟨k, hk⟩ := hquiet.error hstart h
      exact ⟨k, hk, fun hok => nomatch hok⟩
  obtain ⟨k, hrun, hreturned⟩ := hlog
  constructor
  · intro hidle
    refine (startsUnaborted_of_idle hrun (fun _ => rfl) fun before after u hsplit hu => ?_).2
    have hcount := Watch.waiting_of_run hu
    have := hidle before after hsplit
    dsimp only at hcount
    omega
  · intro hok hstarts before after hsplit
    have hfinal : k = 0 := hreturned hok
    unfold Watched at hrun
    rw [hsplit] at hrun hstarts
    obtain ⟨u, u', hu, hu', hrest⟩ := Watch.run_of_split hrun
    cases hu'
    have hcount := Watch.waiting_of_run hu
    dsimp only at hcount
    have hlater : StartsUnaborted after := fun ref aborted hmem =>
      hstarts ref aborted (List.mem_append_right _ (List.mem_cons_of_mem _ hmem))
    have hwaiting : k = u.waiting := waiting_eq_of_aborted hrest rfl hlater
    omega

/-- A configuration with a hook before each call, which does not block it. -/
def hookedConfig : AgentLoopConfig where
  convertToLlm _ := .ok (.arr [])
  streamFunction _ := .ok { events := [.done], result := .ok twoCalls }
  beforeToolCall := some fun _ => .ok none

/-- The signal is aborted while the tools run: both had started. -/
theorem starts_unaborted_iff_running : ∃ batch t,
    executeToolCalls { aborts := fun n => n = 11 } hookedConfig twoCalls twoTools = (.ok batch, t) ∧
    t.aborted = true ∧ AbortsIdle t.log := by
  have hrun : (match executeToolCalls { aborts := fun n => n = 11 } hookedConfig twoCalls twoTools with
      | (.ok _, t) => t.aborted && t.log.all fun
        | .execute _ aborted => !aborted
        | _ => true
      | (.error _, _) => false) = true := by
    decide +kernel
  generalize hresult : executeToolCalls _ hookedConfig twoCalls twoTools = r at hrun
  obtain ⟨batch | batch, t⟩ := r
  · cases hrun
  · rw [Bool.and_eq_true, List.all_eq_true] at hrun
    have hstarts : StartsUnaborted t.log := fun ref aborted hmem => by
      simpa using hrun.2 _ hmem
    have h := starts_unaborted_iff { aborts := fun n => n = 11 } hookedConfig twoCalls twoTools hresult
    exact ⟨batch, t, rfl, hrun.1, h.2 rfl hstarts⟩

/-- A call that is executed while the signal is aborted. -/
def Entry.executesAborted : Entry → Bool
  | .execute _ whileAborted => whileAborted
  | .event _ | .prepared _ | .aborted => false

/-- The hook of the second call aborts the signal: the first call is executed all the same. -/
theorem prepared_tool_starts_aborted : ∃ ref, .execute ref true ∈
    (executeToolCalls { aborts := fun n => n = 8 } hookedConfig twoCalls twoTools).2.log := by
  have hrun : (executeToolCalls { aborts := fun n => n = 8 } hookedConfig twoCalls twoTools).2.log.any
      Entry.executesAborted = true := by
    decide +kernel
  obtain ⟨entry, hmem, hentry⟩ := List.any_eq_true.1 hrun
  cases entry with
  | execute ref whileAborted =>
    have haborted : whileAborted = true := hentry
    rw [haborted] at hmem
    exact ⟨ref, hmem⟩
  | event e | prepared ref | aborted => cases hentry

end OpenClaw.AgentCore
