import OpenClaw.ModelFallback.FallbackVisits

/-!
# Runs of the fallback loop

`Before` is what holds when the loop comes to a position, and `GoesOn.before` carries it from visit
to visit. `model_fallback` reads the results of a whole run off it: the loop ends, it starts the
candidates in order, it stops where it has to, and when it runs out of candidates each one that no
live switch jumped over has its entry in the attempts.
-/

namespace OpenClaw.ModelFallback

variable {ε ρ : Type} {p : Params ε ρ} {world : Nat → CandidateWorld ε ρ} {i : Nat}
  {candidate : ModelCandidate} {st st' : LoopState ε ρ}

/-! ## Traces -/

def TraceEvent.start? : TraceEvent → Option Nat
  | started i _ => some i
  | _ => none

def TraceEvent.probe? : TraceEvent → Option (Nat × String)
  | started i (some provider) => some (i, provider)
  | _ => none

def TraceEvent.record? : TraceEvent → Option Nat
  | recorded i => some i
  | _ => none

/-- The event is a jump from this position or over it. -/
def TraceEvent.jumps (k : Nat) : TraceEvent → Bool
  | redirected i target => decide (i ≤ k) && decide (k < target)
  | _ => false

def startedIndices (trace : List TraceEvent) : List Nat := trace.filterMap TraceEvent.start?

def recordedIndices (trace : List TraceEvent) : List Nat := trace.filterMap TraceEvent.record?

/-- The attempts that use the transient probe slot of a provider. -/
def probes (trace : List TraceEvent) : List (Nat × String) := trace.filterMap TraceEvent.probe?

/-- A live switch left this position or passed over it. -/
def jumped (trace : List TraceEvent) (k : Nat) : Bool := trace.any (TraceEvent.jumps k)

section

variable (xs ys : List TraceEvent)

@[simp] theorem startedIndices_append :
    startedIndices (xs ++ ys) = startedIndices xs ++ startedIndices ys :=
  List.filterMap_append

@[simp] theorem recordedIndices_append :
    recordedIndices (xs ++ ys) = recordedIndices xs ++ recordedIndices ys :=
  List.filterMap_append

@[simp] theorem probes_append : probes (xs ++ ys) = probes xs ++ probes ys :=
  List.filterMap_append

@[simp] theorem jumped_append (k : Nat) : jumped (xs ++ ys) k = (jumped xs k || jumped ys k) :=
  List.any_append

end

variable {added : List TraceEvent}

theorem only_recorded (h : ∀ e ∈ added, e = .recorded i) :
    startedIndices added = [] ∧ probes added = [] := by
  constructor
  · refine List.filterMap_eq_nil_iff.2 fun e he => ?_
    rw [h e he]
    rfl
  · refine List.filterMap_eq_nil_iff.2 fun e he => ?_
    rw [h e he]
    rfl

/-! ## The invariant -/

/-- The candidate of a position, as an attempt names it. -/
def candidatesAt (p : Params ε ρ) (positions : List Nat) : List ModelCandidate :=
  positions.filterMap (p.candidates[·]?)

/-- The probe at a position failed with a reason that uses up the slot. -/
def UsesUpSlotAt (p : Params ε ρ) (world : Nat → CandidateWorld ε ρ) (k : Nat) : Prop :=
  ∃ candidate, p.candidates[k]? = some candidate ∧ UsesUpSlot p candidate (world k)

/-- The candidates of the positions that no jump left or passed over. -/
def unjumped (trace : List TraceEvent) (i : Nat) : List Nat :=
  (List.range i).filter fun k => !jumped trace k

structure Before (p : Params ε ρ) (world : Nat → CandidateWorld ε ρ) (i : Nat)
    (st : LoopState ε ρ) : Prop where
  position : i ≤ p.candidates.length
  increasing : (startedIndices st.trace).Pairwise (· < ·)
  earlier : ∀ k ∈ startedIndices st.trace, k < i
  goneOn : ∀ k ∈ startedIndices st.trace, ∀ candidate, p.candidates[k]? = some candidate →
    ¬ Stops p candidate (world k) ∧ ¬ FailsAborted p k candidate (world k)
  jumps : ∀ a b, .redirected a b ∈ st.trace → b ≤ i
  recorded : recordedIndices st.trace = unjumped st.trace i
  attempts : st.attempts.map FallbackAttempt.pair = candidatesAt p (recordedIndices st.trace)
  probed : ∀ probe ∈ probes st.trace, UsesUpSlotAt p world probe.1 →
    probe.2 ∈ st.cooldownProbeUsedProviders
  probedOnce : (probes st.trace).Pairwise fun a b => a.2 = b.2 → ¬ UsesUpSlotAt p world a.1

theorem before_initial : Before p world 0 .initial where
  position := Nat.zero_le _
  increasing := .nil
  earlier := fun _ h => by cases h
  goneOn := fun _ h => by cases h
  jumps := fun _ _ h => by cases h
  recorded := rfl
  attempts := rfl
  probed := fun _ h => by cases h
  probedOnce := .nil

variable {trace : List TraceEvent}

theorem not_jumped_of_le (h : ∀ a b, .redirected a b ∈ trace → b ≤ i) {k : Nat} (hk : i ≤ k) :
    jumped trace k = false := by
  refine List.any_eq_false.2 fun e he => ?_
  cases e with
  | redirected a b =>
    have := h a b he
    simp only [TraceEvent.jumps, Bool.and_eq_true, decide_eq_true_eq]
    omega
  | started | recorded => simp [TraceEvent.jumps]

theorem unjumped_succ (h : ∀ a b, .redirected a b ∈ trace → b ≤ i)
    (hadded : ∀ k, jumped added k = false) :
    unjumped (trace ++ added) (i + 1) = unjumped trace i ++ [i] := by
  unfold unjumped
  rw [List.range_succ, List.filter_append]
  simp [hadded, not_jumped_of_le h le_rfl]

variable {tp : Option String}

theorem unjumped_redirected {target : Nat} (hlater : i < target) :
    unjumped (trace ++ [.started i tp, .redirected i target]) target = unjumped trace i := by
  obtain ⟨d, rfl⟩ := Nat.exists_eq_add_of_le hlater.le
  unfold unjumped
  rw [List.range_add, List.filter_append]
  have hbefore : (List.range i).filter (fun k =>
      !jumped (trace ++ [.started i tp, .redirected i (i + d)]) k) =
        (List.range i).filter fun k => !jumped trace k := by
    refine List.filter_congr fun k hk => ?_
    have hk := List.mem_range.1 hk
    simp [jumped, TraceEvent.jumps, hk]
  have hover : ((List.range d).map fun x => i + x).filter (fun k =>
      !jumped (trace ++ [.started i tp, .redirected i (i + d)]) k) = [] := by
    refine List.filter_eq_nil_iff.2 fun k hk => ?_
    obtain ⟨x, hx, rfl⟩ := List.mem_map.1 hk
    have hx := List.mem_range.1 hx
    simp [jumped, TraceEvent.jumps, hx]
  rw [hbefore, hover, List.append_nil]

variable {rest : List TraceEvent}

theorem Before.start (h : Before p world i st) (hfree : Free candidate tp st)
    (hrest : startedIndices rest = [] ∧ probes rest = []) :
    (startedIndices (st.trace ++ .started i tp :: rest)).Pairwise (· < ·) ∧
      (∀ k ∈ startedIndices (st.trace ++ .started i tp :: rest), k ∈ startedIndices st.trace ∨ k = i) ∧
      (probes (st.trace ++ .started i tp :: rest)).Pairwise
        (fun a b => a.2 = b.2 → ¬ UsesUpSlotAt p world a.1) ∧
      ∀ probe ∈ probes (st.trace ++ .started i tp :: rest),
        probe ∈ probes st.trace ∨ probe.1 = i ∧ tp = some probe.2 := by
  have hstarted : startedIndices (st.trace ++ .started i tp :: rest) =
      startedIndices st.trace ++ [i] := by
    rw [startedIndices_append]
    show _ ++ i :: startedIndices rest = _
    rw [hrest.1]
  have hprobes : probes (st.trace ++ .started i tp :: rest) =
      probes st.trace ++ (tp.map fun provider => (i, provider)).toList := by
    rw [probes_append]
    cases tp with
    | none => exact congrArg (probes st.trace ++ ·) hrest.2
    | some provider =>
      show _ ++ (i, provider) :: probes rest = _
      rw [hrest.2]
      rfl
  rw [hstarted, hprobes]
  refine ⟨?_, fun k hk => ?_, ?_, fun probe hprobe => ?_⟩
  · refine List.pairwise_append.2 ⟨h.increasing, List.pairwise_singleton _ _, fun k hk j hj => ?_⟩
    rw [List.mem_singleton.1 hj]
    exact h.earlier k hk
  · obtain hk | hk := List.mem_append.1 hk
    · exact .inl hk
    · exact .inr (List.mem_singleton.1 hk)
  · refine List.pairwise_append.2 ⟨h.probedOnce, ?_, fun a ha b hb hab huses => ?_⟩
    · cases tp with
      | none => exact .nil
      | some provider => exact List.pairwise_singleton _ _
    · obtain ⟨provider, htp, rfl⟩ : ∃ provider, tp = some provider ∧ (i, provider) = b := by
        simpa using hb
      have hab : a.2 = provider := hab
      refine (hfree provider htp).2 ?_
      rw [← hab]
      exact h.probed a ha huses
  · obtain hprobe | hprobe := List.mem_append.1 hprobe
    · exact .inl hprobe
    · obtain ⟨provider, htp, rfl⟩ : ∃ provider, tp = some provider ∧ (i, provider) = probe := by
        simpa using hprobe
      exact .inr ⟨rfl, htp⟩

variable {next : Nat}

theorem Before.goOn (h : Before p world i st) (hcandidate : p.candidates[i]? = some candidate)
    (hfree : Free candidate tp st) (hrest : startedIndices rest = [] ∧ probes rest = [])
    (hcontinues : Continues p i candidate (world i) tp st st')
    (htrace : st'.trace = st.trace ++ .started i tp :: rest) (hnext : i < next)
    (hposition : next ≤ p.candidates.length) (hjumps : ∀ a b, .redirected a b ∈ rest → b ≤ next)
    (hrecorded : recordedIndices st'.trace = unjumped st'.trace next)
    (hattempts : st'.attempts.map FallbackAttempt.pair =
      candidatesAt p (recordedIndices st'.trace)) : Before p world next st' := by
  obtain ⟨hincreasing, hmem, hprobed, hprobes⟩ := h.start hfree hrest
  rw [← htrace] at hincreasing hmem hprobed hprobes
  refine ⟨hposition, hincreasing, fun k hk => ?_, fun k hk => ?_, fun a b hab => ?_, hrecorded,
    hattempts, fun probe hprobe huses => ?_, hprobed⟩
  · obtain hk | rfl := hmem k hk
    · exact (h.earlier k hk).trans hnext
    · exact hnext
  · obtain hk | rfl := hmem k hk
    · exact h.goneOn k hk
    · intro other hother
      cases hcandidate.symm.trans hother
      exact ⟨hcontinues.notStops, hcontinues.notAborted⟩
  · rw [htrace] at hab
    obtain hab | hab := List.mem_append.1 hab
    · exact (h.jumps a b hab).trans hnext.le
    · obtain hab | hab := List.mem_cons.1 hab
      · cases hab
      · exact hjumps a b hab
  · obtain hprobe | ⟨hi, htp⟩ := hprobes probe hprobe
    · exact hcontinues.used _ (h.probed probe hprobe huses)
    · rw [hi] at huses
      obtain ⟨other, hother, huses⟩ := huses
      cases hcandidate.symm.trans hother
      exact hcontinues.usesUp _ htp huses

theorem candidatesAt_concat (hcandidate : p.candidates[i]? = some candidate) (ks : List Nat) :
    candidatesAt p (ks ++ [i]) = candidatesAt p ks ++ [candidate] := by
  simp [candidatesAt, hcandidate]

/-- **From visit to visit.** -/
theorem GoesOn.before (hgoesOn : GoesOn p i candidate (world i) st next st')
    (h : Before p world i st) (hcandidate : p.candidates[i]? = some candidate) :
    Before p world next st' := by
  have hlt : i < p.candidates.length := (List.getElem?_eq_some_iff.1 hcandidate).1
  cases hgoesOn with
  | skipped attempt hattempted hattempts htrace hused =>
    have hrecorded : recordedIndices st'.trace = recordedIndices st.trace ++ [i] := by
      rw [htrace, recordedIndices_append]
      rfl
    have hnothing : startedIndices st'.trace = startedIndices st.trace ∧
        probes st'.trace = probes st.trace := by
      rw [htrace, startedIndices_append, probes_append]
      exact ⟨List.append_nil _, List.append_nil _⟩
    refine ⟨hlt, hnothing.1 ▸ h.increasing, fun k hk => ?_, hnothing.1 ▸ h.goneOn,
      fun a b hab => ?_, ?_, ?_, ?_, hnothing.2 ▸ h.probedOnce⟩
    · exact Nat.lt_succ_of_lt (h.earlier k (hnothing.1 ▸ hk))
    · rw [htrace] at hab
      obtain hab | hab := List.mem_append.1 hab
      · exact Nat.le_succ_of_le (h.jumps a b hab)
      · cases List.mem_singleton.1 hab
    · rw [hrecorded, htrace, unjumped_succ h.jumps (fun _ => rfl), h.recorded]
    · rw [hrecorded, candidatesAt_concat hcandidate, hattempts, List.map_append, h.attempts]
      simp [hattempted]
    · rw [hnothing.2, hused]
      exact h.probed
  | failed tp attempt hattempted hattempts htrace hfree hcontinues =>
    have hrecorded : recordedIndices st'.trace = recordedIndices st.trace ++ [i] := by
      rw [htrace, recordedIndices_append]
      rfl
    refine h.goOn hcandidate hfree ⟨rfl, rfl⟩ hcontinues htrace i.lt_succ_self hlt
      (fun a b hab => by cases List.mem_singleton.1 hab) ?_ ?_
    · rw [hrecorded, htrace, unjumped_succ h.jumps (fun _ => rfl), h.recorded]
    · rw [hrecorded, candidatesAt_concat hcandidate, hattempts, List.map_append, h.attempts]
      simp [hattempted]
  | redirected tp target hlater hposition hattempts htrace hfree hcontinues =>
    have hrecorded : recordedIndices st'.trace = recordedIndices st.trace := by
      rw [htrace, recordedIndices_append]
      exact List.append_nil _
    refine h.goOn hcandidate hfree ⟨rfl, rfl⟩ hcontinues htrace hlater hposition.le
      (fun a b hab => ?_) ?_ ?_
    · cases List.mem_singleton.1 hab
      exact le_rfl
    · rw [hrecorded, htrace, unjumped_redirected hlater, h.recorded]
    · rw [hrecorded, hattempts, h.attempts]

/-! ## Termination -/

variable {fuel : Nat}

theorem loop_ends (world : Nat → CandidateWorld ε ρ) (st : LoopState ε ρ)
    (h : p.candidates.length - i < fuel) : ∃ ending, loop p world fuel i st = some ending := by
  induction fuel generalizing i st with
  | zero => omega
  | succ fuel ih =>
    unfold loop
    split
    · exact ⟨_, rfl⟩
    · rename_i candidate hcandidate
      have hlt : i < p.candidates.length := (List.getElem?_eq_some_iff.1 hcandidate).1
      have hspec := visit_spec p world i candidate st
      cases hvisit : visit p world i candidate st with
      | leave outcome st' => exact ⟨_, rfl⟩
      | goOn next st' =>
        rw [hvisit] at hspec
        have hnext : i < next := by
          cases hspec with
          | skipped => exact i.lt_succ_self
          | failed => exact i.lt_succ_self
          | redirected _ _ hlater => exact hlater
        exact ih st' (by omega)

variable {ending : Ending ε ρ}

theorem loop_succ (h : loop p world fuel i st = some ending) :
    loop p world (fuel + 1) i st = some ending := by
  induction fuel generalizing i st with
  | zero => cases h
  | succ fuel ih =>
    unfold loop at h ⊢
    split at h
    · exact h
    · rename_i candidate hcandidate
      cases hvisit : visit p world i candidate st with
      | leave outcome st' =>
        rw [hvisit] at h
        exact h
      | goOn next st' =>
        rw [hvisit] at h
        exact ih h

theorem loop_mono {more : Nat} (hle : fuel ≤ more) (h : loop p world fuel i st = some ending) :
    loop p world more i st = some ending := by
  induction hle with
  | refl => exact h
  | step _ ih => exact loop_succ ih

/-! ## Results -/

/-- What a run of the loop guarantees when it has ended. -/
structure Correct (p : Params ε ρ) (world : Nat → CandidateWorld ε ρ) (ending : Ending ε ρ) :
    Prop where
  /-- Candidates are started in order, each at most once. -/
  increasing : (startedIndices ending.state.trace).Pairwise (· < ·)
  positions : ∀ k ∈ startedIndices ending.state.trace, k < p.candidates.length
  /-- Nothing is started after a run that stops the fallback, nor after one that failed when the
  caller had aborted. -/
  stops : ∀ k ∈ startedIndices ending.state.trace, ∀ candidate,
    p.candidates[k]? = some candidate →
      Stops p candidate (world k) ∨ FailsAborted p k candidate (world k) →
        (startedIndices ending.state.trace).getLast? = some k
  /-- A completed result is that of the candidate started last, and no failure. -/
  completed : ∀ result provider model attempts,
    ending.outcome p = .completed result provider model attempts →
      ∃ k candidate, (startedIndices ending.state.trace).getLast? = some k ∧
        p.candidates[k]? = some candidate ∧ provider = candidate.provider ∧
        model = candidate.model ∧ Succeeds p candidate (world k) result
  /-- On exhaustion the attempts are the candidates in order, without those jumped over. -/
  exhausted : ∀ st, ending = .ranOut st → st.attempts.map FallbackAttempt.pair =
    candidatesAt p (unjumped st.trace p.candidates.length)
  /-- A provider whose probe used up the slot is not probed again. -/
  probedOnce : (probes ending.state.trace).Pairwise
    fun a b => a.2 = b.2 → ¬ UsesUpSlotAt p world a.1

theorem Before.ranOut (h : Before p world i st) (hnone : p.candidates[i]? = none) :
    Correct p world (.ranOut st) := by
  have hlength : i = p.candidates.length :=
    le_antisymm h.position (List.getElem?_eq_none_iff.1 hnone)
  refine ⟨h.increasing, fun k hk => ?_, fun k hk candidate hcandidate hstops => ?_, ?_, ?_,
    h.probedOnce⟩
  · exact (h.earlier k hk).trans_le h.position
  · obtain ⟨hstop, habort⟩ := h.goneOn k hk candidate hcandidate
    exact (hstops.elim hstop habort).elim
  · intro result provider model attempts houtcome
    simp only [Ending.outcome, exhaust] at houtcome
    repeat' split at houtcome
    all_goals cases houtcome
  · intro st' hst'
    cases hst'
    rw [h.attempts, h.recorded, hlength]

variable {outcome : Outcome ε ρ}

theorem Before.left_of_start (h : Before p world i st)
    (hcandidate : p.candidates[i]? = some candidate) (hfree : Free candidate tp st)
    (hrest : startedIndices rest = [] ∧ probes rest = [])
    (htrace : st'.trace = st.trace ++ .started i tp :: rest)
    (hcompleted : ∀ result provider model attempts,
      outcome = .completed result provider model attempts → provider = candidate.provider ∧
        model = candidate.model ∧ Succeeds p candidate (world i) result) :
    Correct p world (.left outcome st') := by
  obtain ⟨hincreasing, hmem, hprobed, -⟩ := h.start hfree hrest
  have hlast : (startedIndices st'.trace).getLast? = some i := by
    rw [htrace, startedIndices_append]
    show (_ ++ i :: startedIndices rest).getLast? = _
    rw [hrest.1, List.getLast?_append]
    rfl
  rw [← htrace] at hincreasing hmem hprobed
  refine ⟨hincreasing, fun k hk => ?_, fun k hk other hother hstops => ?_, ?_, ?_, hprobed⟩
  · obtain hk | rfl := hmem k hk
    · exact (h.earlier k hk).trans_le h.position
    · exact (List.getElem?_eq_some_iff.1 hcandidate).1
  · obtain hk | rfl := hmem k hk
    · obtain ⟨hstop, habort⟩ := h.goneOn k hk other hother
      exact (hstops.elim hstop habort).elim
    · exact hlast
  · intro result provider model attempts houtcome
    obtain ⟨hprovider, hmodel, hsucceeds⟩ := hcompleted result provider model attempts houtcome
    exact ⟨i, candidate, hlast, hcandidate, hprovider, hmodel, hsucceeds⟩
  · intro st' hst'
    cases hst'

theorem Leaves.correct (hleaves : Leaves p i candidate (world i) st outcome st')
    (h : Before p world i st) (hcandidate : p.candidates[i]? = some candidate) :
    Correct p world (.left outcome st') := by
  cases hleaves with
  | notStarted err added htrace honly =>
    obtain ⟨hstarted, hprobes⟩ := only_recorded honly
    have hsame : startedIndices st'.trace = startedIndices st.trace ∧
        probes st'.trace = probes st.trace := by
      rw [htrace, startedIndices_append, probes_append, hstarted, hprobes]
      exact ⟨List.append_nil _, List.append_nil _⟩
    refine ⟨hsame.1 ▸ h.increasing, fun k hk => ?_, fun k hk other hother hstops => ?_, ?_, ?_,
      hsame.2 ▸ h.probedOnce⟩
    · exact (h.earlier k (hsame.1 ▸ hk)).trans_le h.position
    · obtain ⟨hstop, habort⟩ := h.goneOn k (hsame.1 ▸ hk) other hother
      exact (hstops.elim hstop habort).elim
    · intro result provider model attempts houtcome
      cases houtcome
    · intro st' hst'
      cases hst'
  | threw err tp added htrace honly hfree =>
    refine h.left_of_start hcandidate hfree (only_recorded honly) htrace ?_
    intro result provider model attempts houtcome
    cases houtcome
  | completed result tp htrace hfree hsucceeds =>
    refine h.left_of_start hcandidate hfree ⟨rfl, rfl⟩ htrace ?_
    intro result provider model attempts houtcome
    cases houtcome
    exact ⟨rfl, rfl, hsucceeds⟩

theorem loop_correct (h : Before p world i st) (hloop : loop p world fuel i st = some ending) :
    Correct p world ending := by
  induction fuel generalizing i st with
  | zero => cases hloop
  | succ fuel ih =>
    unfold loop at hloop
    split at hloop
    · rename_i hnone
      cases hloop
      exact h.ranOut hnone
    · rename_i candidate hcandidate
      have hspec := visit_spec p world i candidate st
      cases hvisit : visit p world i candidate st with
      | leave outcome st' =>
        rw [hvisit] at hloop hspec
        cases hloop
        exact Leaves.correct hspec h hcandidate
      | goOn next st' =>
        rw [hvisit] at hloop hspec
        exact ih (GoesOn.before hspec h hcandidate) hloop

/-- **Model fallback.** -/
theorem model_fallback (p : Params ε ρ) (world : Nat → CandidateWorld ε ρ) :
    ∃ ending, (∀ fuel, p.candidates.length + 1 ≤ fuel →
        runWithModelFallbackInternal p world fuel = some ending) ∧ Correct p world ending := by
  obtain ⟨ending, hending⟩ : ∃ ending,
      runWithModelFallbackInternal p world (p.candidates.length + 1) = some ending :=
    loop_ends world _ (by omega)
  exact ⟨ending, fun fuel hfuel => loop_mono hfuel hending, loop_correct before_initial hending⟩

/-! ## Two runs -/

/-- The event is a jump over this position. -/
def TraceEvent.passesOver (k : Nat) : TraceEvent → Bool
  | redirected i target => decide (i < k) && decide (k < target)
  | _ => false

inductive SampleError
  | overloaded
  | switched
  deriving DecidableEq

/-- An overloaded provider, and a switch of the session to the second candidate. -/
def sampleErrors : ErrorClasses SampleError where
  isCommandLaneTaskTimeoutError := fun _ => false
  isNonProviderRuntimeCoordinationError := fun _ => false
  isAgentRunDirectAbortReason := fun _ => false
  isAgentRunRestartAbortReason := fun _ => false
  isTerminalAbortFromError := fun _ => false
  isTranscriptNotContinuableError := fun _ => false
  isLikelyContextOverflowError := fun _ => false
  isMissingAgentHarnessError := fun _ => false
  isFailoverError := fun err => err == .overloaded
  liveSessionModelSwitch := fun err => if err = .switched then some ⟨"b", "m", none⟩ else none
  coerceToFailoverError := fun _ err => if err = .overloaded then some err else none
  failoverError := fun _ _ _ => .overloaded
  describeReason := fun err => if err = .overloaded then some .overloaded else none
  candidateAttemptError := fun _ _ => "overloaded"
  message := fun _ => "Live session model switch requested: b/m"

def sampleParams (abortedAt : Option (Nat × AbortPhase)) : Params SampleError Unit where
  candidates := [⟨"a", "m"⟩, ⟨"b", "m"⟩, ⟨"c", "m"⟩]
  sessionId := none
  hasAuthRuntime := false
  errors := sampleErrors
  buildProviderReauthCommand := fun _ => none
  toLowerCase := id
  normalizeAgentRuntimeId := id
  mergeExhaustedResult := none
  abortedAt := abortedAt

/-- The first run throws this error, the others find their provider overloaded. -/
def sampleWorld (first : SampleError) (i : Nat) : CandidateWorld SampleError Unit where
  precheck := .ok ⟨false, none⟩
  skipReason := none
  profiles := ⟨[], fun _ => false, none, 0, false, none, false⟩
  run := .error (if i = 0 then first else .overloaded)
  classifyResult := fun _ => .ok none
  onFallbackStep := fun _ => none
  onError := none

/-- The candidate that asks for a live switch has no entry in the attempts, and an abort between two
runs does not keep the second from starting. -/
theorem fallback_jump_and_abort :
    (¬ ∀ (ε ρ : Type) (p : Params ε ρ) (world : Nat → CandidateWorld ε ρ) (fuel : Nat)
        (st : LoopState ε ρ), p.candidates.Nodup →
        runWithModelFallbackInternal p world fuel = some (.ranOut st) →
          st.attempts.map FallbackAttempt.pair = candidatesAt p
            ((List.range p.candidates.length).filter fun k =>
              !st.trace.any (TraceEvent.passesOver k))) ∧
      ¬ ∀ (ε ρ : Type) (p : Params ε ρ) (world : Nat → CandidateWorld ε ρ) (fuel : Nat)
        (ending : Ending ε ρ), p.candidates.Nodup →
        runWithModelFallbackInternal p world fuel = some ending →
          ∀ j phase, p.abortedAt = some (j, phase) →
            ∀ k ∈ startedIndices ending.state.trace, k ≤ j := by
  constructor
  · intro h
    have hrun := h SampleError Unit (sampleParams none) (sampleWorld .switched) 4
      ⟨[⟨"b", "m", "overloaded", some .overloaded⟩, ⟨"c", "m", "overloaded", some .overloaded⟩],
        some .overloaded, none, none, [],
        [.started 0 none, .redirected 0 1, .started 1 none, .recorded 1, .started 2 none,
          .recorded 2]⟩ (by decide) (by rfl)
    revert hrun
    decide
  · intro h
    have hrun := h SampleError Unit (sampleParams (some (0, .afterRun))) (sampleWorld .overloaded) 4
      (.left (.threw .overloaded) ⟨[⟨"a", "m", "overloaded", some .overloaded⟩],
        some .overloaded, none, none, [], [.started 0 none, .recorded 0, .started 1 none]⟩)
      (by decide) (by rfl) 0 .afterRun rfl 1 (by decide)
    omega

end OpenClaw.ModelFallback
