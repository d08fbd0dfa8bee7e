import OpenClaw.ModelFallback.Fallback
import Mathlib.Data.List.Basic

/-!
# One visit of the fallback loop

`visit_spec` says everything a visit can do that the results of a run rest on: what it adds to the
trace and to the attempts, and what it found when it goes on after a run.
-/

namespace OpenClaw.ModelFallback

variable {ε ρ : Type} {p : Params ε ρ} {world : Nat → CandidateWorld ε ρ} {i : Nat}
  {candidate : ModelCandidate} {st st' : LoopState ε ρ}

/-! ## The outcome of a run -/

/-- The error of a candidate's run as the loop sees it: the one thrown, coerced where it is a
provider failure, or that of the classification. -/
def runError (p : Params ε ρ) (candidate : ModelCandidate) (w : CandidateWorld ε ρ) : Option ε :=
  match w.run with
  | .error raw => some ((p.errors.coerceToFailoverError candidate raw).getD raw)
  | .ok result =>
    match w.classifyResult result with
    | .ok classification => resolveResultClassificationError p candidate classification
    | .error _ => none

/-- A runtime-coordination, transcript, context-overflow or missing-harness error. -/
def stopsFallback (errors : ErrorClasses ε) (err : ε) : Bool :=
  errors.isNonProviderRuntimeCoordinationError err || errors.isTranscriptNotContinuableError err ||
    errors.isLikelyContextOverflowError err || errors.isMissingAgentHarnessError err

/-- The run of a candidate ended with an error that is not for another model. -/
def Stops (p : Params ε ρ) (candidate : ModelCandidate) (w : CandidateWorld ε ρ) : Prop :=
  (∃ raw, w.run = .error raw ∧ p.errors.isNonProviderRuntimeCoordinationError raw = true) ∨
    ∃ err, runError p candidate w = some err ∧ stopsFallback p.errors err = true

/-- The run threw when the caller had aborted, or its result was classified as a failure when the
caller had. -/
def FailsAborted (p : Params ε ρ) (i : Nat) (candidate : ModelCandidate)
    (w : CandidateWorld ε ρ) : Prop :=
  (∃ raw, w.run = .error raw ∧ p.aborted i .run = true) ∨
    ∃ result classification err, w.run = .ok result ∧
      w.classifyResult result = .ok classification ∧
      resolveResultClassificationError p candidate classification = some err ∧
      p.aborted i .classification = true

/-- The run succeeded with the result, which was not classified as a failure. -/
def Succeeds (p : Params ε ρ) (candidate : ModelCandidate) (w : CandidateWorld ε ρ) (result : ρ) :
    Prop :=
  w.run = .ok result ∧ ∃ classification, w.classifyResult result = .ok classification ∧
    resolveResultClassificationError p candidate classification = none

variable {err : ε} {w : CandidateWorld ε ρ}

variable {raw : ε}

theorem runFallbackCandidate_error (hrun : w.run = .error raw)
    (h : runFallbackCandidate p i candidate w = .ok (.error err)) :
    err = (p.errors.coerceToFailoverError candidate raw).getD raw ∧
      p.errors.isNonProviderRuntimeCoordinationError raw = false ∧ p.aborted i .run = false := by
  unfold runFallbackCandidate at h
  rw [hrun] at h
  dsimp only at h
  split at h
  · cases h
  split at h
  · cases h
  rename_i hcoordination
  split at h
  · cases h
  rename_i haborted
  split at h
  · cases h
  split at h
  · cases h
  cases h
  exact ⟨rfl, by simpa using hcoordination, by simpa using haborted⟩

variable {result : ρ}

theorem runFallbackCandidate_ne_ok (hrun : w.run = .error raw) :
    runFallbackCandidate p i candidate w ≠ .ok (.ok result) := by
  intro h
  unfold runFallbackCandidate at h
  rw [hrun] at h
  dsimp only at h
  repeat' split at h
  all_goals cases h

theorem runFallbackCandidate_ok (hrun : w.run = .ok result) :
    runFallbackCandidate p i candidate w = .ok (.ok result) := by
  unfold runFallbackCandidate
  rw [hrun]

theorem succeeds_of_runFallbackAttempt
    (h : runFallbackAttempt p i candidate w = .ok (.success result)) :
    Succeeds p candidate w result := by
  unfold runFallbackAttempt at h
  cases hrun : w.run with
  | error raw =>
    cases hcandidate : runFallbackCandidate p i candidate w with
    | error err =>
      rw [hcandidate] at h
      cases h
    | ok run =>
      rw [hcandidate] at h
      cases run with
      | error err => cases h
      | ok result => exact absurd hcandidate (runFallbackCandidate_ne_ok hrun)
  | ok returned =>
    rw [runFallbackCandidate_ok hrun] at h
    cases hclassify : w.classifyResult returned with
    | error err =>
      simp only [bind, Except.bind, hclassify] at h
      cases h
    | ok classification =>
      simp only [bind, Except.bind, hclassify] at h
      split at h
      · rename_i hnone
        cases h
        exact ⟨hrun, classification, hclassify, hnone⟩
      · split at h <;> cases h

theorem runFallbackAttempt_failed {classified : Option (ClassifiedResult ρ)}
    {exhaustion : Option (ExhaustionResult ρ)}
    (h : runFallbackAttempt p i candidate w = .ok (.failed err classified exhaustion)) :
    runError p candidate w = some err ∧ ¬ FailsAborted p i candidate w ∧
      ∀ raw, w.run = .error raw → p.errors.isNonProviderRuntimeCoordinationError raw = false := by
  unfold runFallbackAttempt at h
  cases hrun : w.run with
  | error raw =>
    cases hcandidate : runFallbackCandidate p i candidate w with
    | error err =>
      rw [hcandidate] at h
      cases h
    | ok run =>
      rw [hcandidate] at h
      cases run with
      | ok result => exact absurd hcandidate (runFallbackCandidate_ne_ok hrun)
      | error seen =>
        cases h
        obtain ⟨hseen, hcoordination, haborted⟩ := runFallbackCandidate_error hrun hcandidate
        refine ⟨?_, fun hfails => ?_, fun raw' hraw => ?_⟩
        · unfold runError
          rw [hrun, hseen]
        · obtain ⟨_, -, h⟩ | ⟨result, _, _, h, -⟩ := hfails
          · rw [haborted] at h
            cases h
          · rw [hrun] at h
            cases h
        · cases hraw
          exact hcoordination
  | ok returned =>
    rw [runFallbackCandidate_ok hrun] at h
    cases hclassify : w.classifyResult returned with
    | error err =>
      simp only [bind, Except.bind, hclassify] at h
      cases h
    | ok classification =>
      simp only [bind, Except.bind, hclassify] at h
      split at h
      · cases h
      · rename_i classifiedError hsome
        split at h
        · cases h
        · rename_i haborted
          cases h
          refine ⟨?_, fun hfails => ?_, fun raw hraw => ?_⟩
          · unfold runError
            rw [hrun]
            dsimp only
            rw [hclassify]
            exact hsome
          · obtain ⟨_, h, -⟩ | ⟨_, _, _, -, -, -, h⟩ := hfails
            · rw [hrun] at h
              cases h
            · exact haborted h
          · cases hraw

/-! ## Visits -/

def FallbackAttempt.pair (attempt : FallbackAttempt) : ModelCandidate :=
  ⟨attempt.provider, attempt.model⟩

/-- The probe of a candidate failed with a reason that uses up the slot of its provider. -/
def UsesUpSlot (p : Params ε ρ) (candidate : ModelCandidate) (w : CandidateWorld ε ρ) : Prop :=
  ∃ err, runError p candidate w = some err ∧
    shouldPreserveTransientCooldownProbeSlot (p.errors.describeReason err) = false

/-- What is known of a run after which the loop goes on. -/
structure Continues (p : Params ε ρ) (i : Nat) (candidate : ModelCandidate)
    (w : CandidateWorld ε ρ) (tp : Option String) (st st' : LoopState ε ρ) : Prop where
  notStops : ¬ Stops p candidate w
  notAborted : ¬ FailsAborted p i candidate w
  used : ∀ provider ∈ st.cooldownProbeUsedProviders, provider ∈ st'.cooldownProbeUsedProviders
  usesUp : ∀ provider, tp = some provider → UsesUpSlot p candidate w →
    provider ∈ st'.cooldownProbeUsedProviders

/-- The probe slot that an attempt is for is that of its provider, and free. -/
def Free (candidate : ModelCandidate) (tp : Option String) (st : LoopState ε ρ) : Prop :=
  ∀ provider, tp = some provider →
    provider = candidate.provider ∧ provider ∉ st.cooldownProbeUsedProviders

/-- How the loop goes on from a candidate. -/
inductive GoesOn (p : Params ε ρ) (i : Nat) (candidate : ModelCandidate)
    (w : CandidateWorld ε ρ) (st : LoopState ε ρ) : Nat → LoopState ε ρ → Prop
  | skipped {st' : LoopState ε ρ} (attempt : FallbackAttempt)
      (attempted : attempt.pair = candidate) (attempts : st'.attempts = st.attempts ++ [attempt])
      (trace : st'.trace = st.trace ++ [.recorded i])
      (used : st'.cooldownProbeUsedProviders = st.cooldownProbeUsedProviders) :
    GoesOn p i candidate w st (i + 1) st'
  | failed {st' : LoopState ε ρ} (tp : Option String) (attempt : FallbackAttempt)
      (attempted : attempt.pair = candidate) (attempts : st'.attempts = st.attempts ++ [attempt])
      (trace : st'.trace = st.trace ++ [.started i tp, .recorded i]) (free : Free candidate tp st)
      (continues : Continues p i candidate w tp st st') : GoesOn p i candidate w st (i + 1) st'
  | redirected {st' : LoopState ε ρ} (tp : Option String) (target : Nat) (later : i < target)
      (position : target < p.candidates.length) (attempts : st'.attempts = st.attempts)
      (trace : st'.trace = st.trace ++ [.started i tp, .redirected i target])
      (free : Free candidate tp st) (continues : Continues p i candidate w tp st st') :
    GoesOn p i candidate w st target st'

/-- How the loop ends at a candidate. -/
inductive Leaves (p : Params ε ρ) (i : Nat) (candidate : ModelCandidate)
    (w : CandidateWorld ε ρ) (st : LoopState ε ρ) : Outcome ε ρ → LoopState ε ρ → Prop
  | notStarted {st' : LoopState ε ρ} (err : ε) (added : List TraceEvent)
      (trace : st'.trace = st.trace ++ added) (only : ∀ e ∈ added, e = .recorded i) :
    Leaves p i candidate w st (.threw err) st'
  | threw {st' : LoopState ε ρ} (err : ε) (tp : Option String) (added : List TraceEvent)
      (trace : st'.trace = st.trace ++ .started i tp :: added) (only : ∀ e ∈ added, e = .recorded i)
      (free : Free candidate tp st) : Leaves p i candidate w st (.threw err) st'
  | completed {st' : LoopState ε ρ} (result : ρ) (tp : Option String)
      (trace : st'.trace = st.trace ++ [.started i tp]) (free : Free candidate tp st)
      (succeeds : Succeeds p candidate w result) :
    Leaves p i candidate w st
      (.completed result candidate.provider candidate.model st.attempts) st'

/-- The two at once, for a visit. -/
def VisitSpec (p : Params ε ρ) (i : Nat) (candidate : ModelCandidate) (w : CandidateWorld ε ρ)
    (st : LoopState ε ρ) : Visit ε ρ → Prop
  | .leave outcome st' => Leaves p i candidate w st outcome st'
  | .goOn next st' => GoesOn p i candidate w st next st'

theorem findLiveSessionModelSwitchRedirectIndex_lt {selection : LiveSessionModelSelection}
    {target : Nat} (h : findLiveSessionModelSwitchRedirectIndex p selection i = some target) :
    i < target ∧ target < p.candidates.length := by
  have hmem := List.mem_of_find?_eq_some h
  obtain ⟨k, hk, hget⟩ := List.mem_drop_iff_getElem.1 hmem
  rw [List.getElem_range] at hget
  rw [List.length_range] at hk
  omega

theorem useProbeSlot_used (st : LoopState ε ρ) (provider : Option String)
    (reason : Option FailoverReason) :
    (∀ used ∈ st.cooldownProbeUsedProviders,
        used ∈ (st.useProbeSlot provider reason).cooldownProbeUsedProviders) ∧
      ∀ name, provider = some name → shouldPreserveTransientCooldownProbeSlot reason = false →
        name ∈ (st.useProbeSlot provider reason).cooldownProbeUsedProviders := by
  unfold LoopState.useProbeSlot
  cases provider with
  | none =>
    refine ⟨fun used h => h, fun name h => ?_⟩
    cases h
  | some name =>
    dsimp only
    split
    · rename_i hpreserve
      refine ⟨fun used h => h, fun other _ h => ?_⟩
      rw [hpreserve] at h
      cases h
    · refine ⟨fun used h => List.mem_cons_of_mem _ h, fun other h _ => ?_⟩
      cases h
      exact List.mem_cons_self

theorem useProbeSlot_same (st : LoopState ε ρ) (provider : Option String)
    (reason : Option FailoverReason) :
    (st.useProbeSlot provider reason).attempts = st.attempts ∧
      (st.useProbeSlot provider reason).trace = st.trace := by
  unfold LoopState.useProbeSlot
  split
  · split <;> exact ⟨rfl, rfl⟩
  · exact ⟨rfl, rfl⟩

variable {tp : Option String}

variable {precheck : HarnessAuthPrecheck}

theorem free_of_gate {duringCooldown : Bool}
    (h : gate p i candidate w precheck st.cooldownProbeUsedProviders = .attempt duringCooldown tp) :
    Free candidate tp st := by
  intro provider htp
  unfold gate at h
  split at h
  · cases h
  · unfold cooldownGate at h
    dsimp only at h
    split at h
    · cases h
      cases htp
    · split at h
      · cases h
      · cases h
      · split at h
        · cases h
        · rename_i hfree
          obtain ⟨-, htransient⟩ := Gate.attempt.inj h
          rw [htp] at htransient
          split at htransient
          · rename_i hslot
            cases htransient
            refine ⟨rfl, fun hmem => hfree ?_⟩
            rw [hslot, Bool.true_and, List.contains_iff_mem]
            exact hmem
          · cases htransient

/-- What `afterFailure` is given: a started candidate whose run failed. -/
structure Failed (p : Params ε ρ) (i : Nat) (candidate : ModelCandidate) (w : CandidateWorld ε ρ)
    (tp : Option String) (err : ε) (st₀ st : LoopState ε ρ) : Prop where
  attempts : st.attempts = st₀.attempts
  trace : st.trace = st₀.trace ++ [.started i tp]
  used : st.cooldownProbeUsedProviders = st₀.cooldownProbeUsedProviders
  free : Free candidate tp st₀
  error : runError p candidate w = some err
  notAborted : ¬ FailsAborted p i candidate w
  raw : ∀ raw, w.run = .error raw → p.errors.isNonProviderRuntimeCoordinationError raw = false

variable {st₀ : LoopState ε ρ}

theorem Failed.continues (h : Failed p i candidate w tp err st₀ st)
    (hstops : stopsFallback p.errors err = false) (hused : st'.cooldownProbeUsedProviders =
      (st.useProbeSlot tp (p.errors.describeReason err)).cooldownProbeUsedProviders) :
    Continues p i candidate w tp st₀ st' := by
  obtain ⟨hkeeps, hadds⟩ := useProbeSlot_used st tp (p.errors.describeReason err)
  refine ⟨fun hs => ?_, h.notAborted, fun provider hmem => ?_, fun provider htp huses => ?_⟩
  · obtain ⟨raw, hrun, hraw⟩ | ⟨err', herr, hs⟩ := hs
    · rw [h.raw raw hrun] at hraw
      cases hraw
    · cases h.error.symm.trans herr
      rw [hstops] at hs
      cases hs
  · rw [hused]
    exact hkeeps provider (h.used ▸ hmem)
  · rw [hused]
    obtain ⟨err', herr, hreason⟩ := huses
    cases h.error.symm.trans herr
    exact hadds provider htp hreason

variable {st₁ : LoopState ε ρ}

section

variable (h : Failed p i candidate w tp err st₀ st)
include h

theorem recordFailure_spec {error lastError : ε} {onError : Option ε}
    (hstops : stopsFallback p.errors err = false)
    (hst₁ : st₁ = st.useProbeSlot tp (p.errors.describeReason err)) : VisitSpec p i candidate w st₀
      (recordFailure p i candidate w error lastError onError st₁) := by
  obtain ⟨hattempts, htrace⟩ := useProbeSlot_same st tp (p.errors.describeReason err)
  rw [← hst₁] at hattempts htrace
  unfold recordFailure
  split
  · refine .threw _ tp [.recorded i] ?_ ?_ h.free
    · simp [LoopState.record, htrace, h.trace]
    · simp
  · refine .failed tp ⟨candidate.provider, candidate.model,
      p.errors.candidateAttemptError candidate error,
      some ((p.errors.describeReason error).getD .unknown)⟩ rfl ?_ ?_ h.free
      (h.continues hstops ?_)
    · simp [LoopState.record, hattempts, h.attempts]
    · simp [LoopState.record, htrace, h.trace]
    · simp [LoopState.record, hst₁]

theorem Failed.threw {thrown : ε} (htrace : st₁.trace = st.trace) :
    VisitSpec p i candidate w st₀ (.leave (.threw thrown) st₁) :=
  .threw thrown tp [] (htrace.trans h.trace) (fun _ h => by cases h) h.free

theorem afterFailure_spec :
    VisitSpec p i candidate w st₀ (afterFailure p i candidate w precheck tp err st) := by
  have htrace := (useProbeSlot_same st tp (p.errors.describeReason err)).2
  have hattempts := (useProbeSlot_same st tp (p.errors.describeReason err)).1
  unfold afterFailure
  split
  · exact h.threw rfl
  rename_i hcoordination
  split
  · exact h.threw rfl
  rename_i htranscript
  dsimp only
  split
  · exact h.threw htrace
  rename_i hoverflow
  split
  · exact h.threw htrace
  rename_i hmissing
  have hstops : stopsFallback p.errors err = false := by
    simp [stopsFallback, hcoordination, htranscript, hoverflow, hmissing]
  split
  · -- A live switch.
    split
    · exact h.threw htrace
    · split
      · rename_i target htarget
        obtain ⟨hlater, hposition⟩ := findLiveSessionModelSwitchRedirectIndex_lt htarget
        refine .redirected tp target hlater hposition (hattempts.trans h.attempts) ?_ h.free
          (h.continues hstops rfl)
        simp [htrace, h.trace]
      · exact recordFailure_spec h hstops rfl
  · split
    · exact h.threw htrace
    · exact recordFailure_spec h hstops rfl

end

/-- **What a visit does.** -/
theorem visit_spec (p : Params ε ρ) (world : Nat → CandidateWorld ε ρ) (i : Nat)
    (candidate : ModelCandidate) (st : LoopState ε ρ) :
    VisitSpec p i candidate (world i) st (visit p world i candidate st) := by
  unfold visit
  dsimp only
  split
  · exact .notStarted _ [] (by simp) (fun _ h => by cases h)
  · rename_i precheck hprecheck
    split
    · -- The candidate is skipped.
      split
      · exact .notStarted _ [.recorded i] rfl (by simp)
      · exact .skipped _ rfl rfl rfl rfl
    · rename_i duringCooldown tp hgate
      have hfree := free_of_gate hgate
      split
      · exact .notStarted _ [] (by simp) (fun _ h => by cases h)
      · split
        · exact .threw _ tp [] rfl (fun _ h => by cases h) hfree
        · rename_i result hattempt
          split
          · exact .threw _ tp [] rfl (fun _ h => by cases h) hfree
          · exact .completed result tp rfl hfree (succeeds_of_runFallbackAttempt hattempt)
        · rename_i err classified exhaustion hattempt
          obtain ⟨herror, haborted, hraw⟩ := runFallbackAttempt_failed hattempt
          exact afterFailure_spec ⟨rfl, rfl, rfl, hfree, herror, haborted, hraw⟩

end OpenClaw.ModelFallback
