import OpenClaw.Lib.JsString

/-!
# `model-fallback.ts`

The loop of `runWithModelFallbackInternal`, one candidate a visit. What a visit reads and waits for
(the precheck, the skip cache, the auth profiles, the run, its classification, the callbacks) is a
`CandidateWorld`, one for each position, since the loop comes by a position once at most. The errors
are of an abstract type with the tests that the loop makes on them; the caller aborts at one moment
of the timeline or never.
-/

namespace OpenClaw.ModelFallback

inductive FailoverReason
  | auth
  | authPermanent
  | format
  | rateLimit
  | overloaded
  | billing
  | serverError
  | timeout
  | contextOverflow
  | modelNotFound
  | sessionExpired
  | emptyResponse
  | noErrorDetails
  | unclassified
  | unknown
  deriving DecidableEq

def FailoverReason.text : FailoverReason → String
  | auth => "auth"
  | authPermanent => "auth_permanent"
  | format => "format"
  | rateLimit => "rate_limit"
  | overloaded => "overloaded"
  | billing => "billing"
  | serverError => "server_error"
  | timeout => "timeout"
  | contextOverflow => "context_overflow"
  | modelNotFound => "model_not_found"
  | sessionExpired => "session_expired"
  | emptyResponse => "empty_response"
  | noErrorDetails => "no_error_details"
  | unclassified => "unclassified"
  | unknown => "unknown"

structure ModelCandidate where
  provider : String
  model : String
  deriving DecidableEq

structure FallbackAttempt where
  provider : String
  model : String
  error : String
  reason : Option FailoverReason
  deriving DecidableEq

/-! ## `failover-policy.ts` -/

def shouldUseTransientCooldownProbeSlot : Option FailoverReason → Bool
  | some .rateLimit | some .overloaded | some .unknown | some .emptyResponse
  | some .noErrorDetails | some .unclassified | some .timeout => true
  | _ => false

def shouldPreserveTransientCooldownProbeSlot : Option FailoverReason → Bool
  | some .modelNotFound | some .format | some .auth | some .authPermanent
  | some .sessionExpired => true
  | _ => false

/-! ## Errors -/

structure LiveSessionModelSelection where
  provider : String
  model : String
  agentRuntimeOverride : Option String

/-- The tests that the loop makes on an error, and what it makes of one. -/
structure ErrorClasses (ε : Type) where
  isCommandLaneTaskTimeoutError : ε → Bool
  isNonProviderRuntimeCoordinationError : ε → Bool
  isAgentRunDirectAbortReason : ε → Bool
  isAgentRunRestartAbortReason : ε → Bool
  isTerminalAbortFromError : ε → Bool
  isTranscriptNotContinuableError : ε → Bool
  isLikelyContextOverflowError : ε → Bool
  isMissingAgentHarnessError : ε → Bool
  isFailoverError : ε → Bool
  liveSessionModelSwitch : ε → Option LiveSessionModelSelection
  coerceToFailoverError : ModelCandidate → ε → Option ε
  /-- The constructor, with the message, the reason and the candidate. -/
  failoverError : String → FailoverReason → ModelCandidate → ε
  describeReason : ε → Option FailoverReason
  /-- The text of an attempt that failed with the error. -/
  candidateAttemptError : ModelCandidate → ε → String
  message : ε → String

/-! ## What a visit finds -/

/-- The moments of a candidate between which the caller may abort. -/
inductive AbortPhase
  | beforeRun
  | run
  | classification
  | afterRun
  deriving DecidableEq

def AbortPhase.rank : AbortPhase → Nat
  | beforeRun => 0
  | run => 1
  | classification => 2
  | afterRun => 3

inductive ObservedDecision
  | skipCandidate
  | probeCooldownCandidate
  | candidateSucceeded
  | candidateFailed
  deriving DecidableEq

inductive ResultClassification (ε : Type)
  | message (text : String) (reason : Option FailoverReason) (preserveResultOnExhaustion : Bool)
      (preserveResultPriority : Option Int)
  | error (error : Option ε)

structure HarnessAuthPrecheck where
  skipsProviderAuthCooldown : Bool
  agentHarnessRuntimeOverride : Option String

/-- The auth profiles of a provider, as its visit finds them. -/
structure ProviderProfiles where
  profileIds : List String
  isProfileInCooldown : String → Bool
  unavailableReason : Option FailoverReason
  now : Int
  isProbeThrottleOpen : Bool
  soonestCooldownExpiry : Option Int
  hasActiveProviderRateLimitResetWindow : Bool

structure CandidateWorld (ε ρ : Type) where
  precheck : Except ε HarnessAuthPrecheck
  /-- The reason in the skip cache, if the candidate is in it. -/
  skipReason : Option FailoverReason
  profiles : ProviderProfiles
  run : Except ε ρ
  classifyResult : ρ → Except ε (Option (ResultClassification ε))
  /-- What the step handler throws. -/
  onFallbackStep : ObservedDecision → Option ε
  /-- What the error handler throws. -/
  onError : Option ε

structure Params (ε ρ : Type) where
  candidates : List ModelCandidate
  sessionId : Option String
  hasAuthRuntime : Bool
  errors : ErrorClasses ε
  buildProviderReauthCommand : String → Option String
  toLowerCase : String → String
  normalizeAgentRuntimeId : String → String
  mergeExhaustedResult : Option (ρ → ρ → ρ)
  /-- The position and the moment of the caller's abort. -/
  abortedAt : Option (Nat × AbortPhase)

variable {ε ρ : Type}

/-- The signal is aborted when this moment of this position is over. -/
def Params.aborted (p : Params ε ρ) (i : Nat) (phase : AbortPhase) : Bool :=
  match p.abortedAt with
  | none => false
  | some (j, at?) => decide (j < i) || (decide (j = i) && decide (at?.rank ≤ phase.rank))

/-! ## One attempt -/

structure ClassifiedResult (ρ : Type) where
  result : ρ
  provider : String
  model : String

structure ExhaustionResult (ρ : Type) extends ClassifiedResult ρ where
  priority : Int

/-- A run that returned or an error that the loop goes on with; anything else is thrown. -/
def runFallbackCandidate (p : Params ε ρ) (i : Nat) (candidate : ModelCandidate)
    (w : CandidateWorld ε ρ) : Except ε (Except ε ρ) :=
  match w.run with
  | .ok result => .ok (.ok result)
  | .error err =>
    if p.errors.isCommandLaneTaskTimeoutError err then .error err
    else if p.errors.isNonProviderRuntimeCoordinationError err then .error err
    else if p.aborted i .run then .error err
    else if p.errors.isAgentRunDirectAbortReason err || p.errors.isAgentRunRestartAbortReason err
    then .error err
    else if p.errors.isTerminalAbortFromError err then .error err
    else .ok (.error ((p.errors.coerceToFailoverError candidate err).getD err))

def resolveResultClassificationError (p : Params ε ρ) (candidate : ModelCandidate) :
    Option (ResultClassification ε) → Option ε
  | none => none
  | some (.error err) => err
  | some (.message text reason _ _) =>
    let message := JsString.trim text
    if message = "" then none
    else some (p.errors.failoverError message (reason.getD .unknown) candidate)

inductive AttemptRun (ε ρ : Type)
  | success (result : ρ)
  | failed (error : ε) (classifiedResult : Option (ClassifiedResult ρ))
      (exhaustionResult : Option (ExhaustionResult ρ))

/-- The result that is kept for the case that every candidate fails. -/
def preservedResult (candidate : ModelCandidate) (result : ρ) :
    Option (ResultClassification ε) → Option (ExhaustionResult ρ)
  | some (.message _ _ true priority) =>
    some ⟨⟨result, candidate.provider, candidate.model⟩, priority.getD 0⟩
  | _ => none

def runFallbackAttempt (p : Params ε ρ) (i : Nat) (candidate : ModelCandidate)
    (w : CandidateWorld ε ρ) : Except ε (AttemptRun ε ρ) := do
  match ← runFallbackCandidate p i candidate w with
  | .error err => return .failed err none none
  | .ok result =>
    let classification ← w.classifyResult result
    match resolveResultClassificationError p candidate classification with
    | none => return .success result
    | some classifiedError =>
      if p.aborted i .classification then throw classifiedError
      return .failed classifiedError (some ⟨result, candidate.provider, candidate.model⟩)
        (preservedResult candidate result classification)

/-! ## Cooldowns -/

def PROBE_MARGIN_MS : Int := 2 * 60 * 1000

def shouldProbePrimaryDuringCooldown (isPrimary hasFallbackCandidates : Bool)
    (reason : FailoverReason) (profiles : ProviderProfiles) : Bool :=
  if !isPrimary then false
  else if !profiles.isProbeThrottleOpen then false
  else if !hasFallbackCandidates then true
  else if reason = .rateLimit ∧ !profiles.hasActiveProviderRateLimitResetWindow then true
  else
    match profiles.soonestCooldownExpiry with
    | none => true
    | some soonest => decide (soonest - PROBE_MARGIN_MS ≤ profiles.now)

inductive CooldownDecision
  | skip (reason : FailoverReason) (error : String)
  | attempt (reason : FailoverReason) (markProbe : Bool)
  | suspendLanes (reason : FailoverReason)

def resolveCooldownDecision (candidate : ModelCandidate)
    (isPrimary requestedModel hasFallbackCandidates : Bool) (profiles : ProviderProfiles) :
    CooldownDecision :=
  let inferredReason := profiles.unavailableReason.getD .unknown
  let shouldProbe :=
    shouldProbePrimaryDuringCooldown isPrimary hasFallbackCandidates inferredReason profiles
  if inferredReason = .auth ∨ inferredReason = .authPermanent then
    .skip inferredReason ("Provider " ++ candidate.provider ++ " has " ++ inferredReason.text ++
      " issue (skipping all models)")
  else if inferredReason = .billing then
    if isPrimary && shouldProbe then .attempt inferredReason true
    else .suspendLanes inferredReason
  else if (isPrimary && (!requestedModel || shouldProbe)) ||
      (!isPrimary && shouldUseTransientCooldownProbeSlot (some inferredReason)) then
    .attempt inferredReason (isPrimary && shouldProbe)
  else .suspendLanes inferredReason

/-! ## The loop -/

/-- What the loop did, in order: it started a candidate (with the provider whose transient probe
slot the attempt is for), recorded one in the attempts, or jumped to a later one. -/
inductive TraceEvent
  | started (i : Nat) (transientProbeProvider : Option String)
  | recorded (i : Nat)
  | redirected (i target : Nat)
  deriving DecidableEq

structure LoopState (ε ρ : Type) where
  attempts : List FallbackAttempt
  lastError : Option ε
  latestClassifiedResult : Option (ClassifiedResult ρ)
  exhaustionResult : Option (ExhaustionResult ρ)
  cooldownProbeUsedProviders : List String
  trace : List TraceEvent

def LoopState.initial : LoopState ε ρ := ⟨[], none, none, none, [], []⟩

inductive Outcome (ε ρ : Type)
  | completed (result : ρ) (provider model : String) (attempts : List FallbackAttempt)
  | exhausted (result : ρ) (provider model : String) (attempts : List FallbackAttempt)
  | summary (attempts : List FallbackAttempt) (lastError : Option ε)
  | threw (error : ε)

/-- The loop returns or throws at this candidate, or goes on with another. -/
inductive Visit (ε ρ : Type)
  | leave (outcome : Outcome ε ρ) (state : LoopState ε ρ)
  | goOn (next : Nat) (state : LoopState ε ρ)

/-- Before its run a candidate is skipped, or attempted. -/
inductive Gate
  | skip (error : String) (reason : FailoverReason)
  | attempt (duringCooldown : Bool) (transientProbeProvider : Option String)
  deriving DecidableEq

def sessionSkipError (p : Params ε ρ) (candidate : ModelCandidate) (reason : FailoverReason) :
    String :=
  let reauthHint :=
    match p.buildProviderReauthCommand candidate.provider with
    | some command => "run " ++ Char.toString (Char.ofNat 96) ++ command ++
        Char.toString (Char.ofNat 96) ++ " to re-authenticate"
    | none => "re-authenticate that provider"
  "Skipping " ++ candidate.provider ++ "/" ++ candidate.model ++ ": recent " ++ reason.text ++
    " failure in this session (" ++ reauthHint ++ ")"

def cooldownGate (p : Params ε ρ) (i : Nat) (candidate : ModelCandidate)
    (precheck : HarnessAuthPrecheck) (profiles : ProviderProfiles) (used : List String) : Gate :=
  let isAnyProfileAvailable := profiles.profileIds.any fun id => !profiles.isProfileInCooldown id
  if !p.hasAuthRuntime || precheck.skipsProviderAuthCooldown || profiles.profileIds.isEmpty ||
      isAnyProfileAvailable then .attempt false none
  else
    let requestedModel := p.candidates.head? == some candidate
    match resolveCooldownDecision candidate (i == 0) requestedModel
        (decide (1 < p.candidates.length)) profiles with
    | .suspendLanes reason =>
      .skip ("Provider " ++ candidate.provider ++ " is in cooldown (suspending lanes)") reason
    | .skip reason error => .skip error reason
    | .attempt reason _ =>
      if shouldUseTransientCooldownProbeSlot (some reason) && used.contains candidate.provider then
        .skip ("Provider " ++ candidate.provider ++
          " is in cooldown (probe already attempted this run)") reason
      else
        .attempt true
          (if shouldUseTransientCooldownProbeSlot (some reason) then some candidate.provider
          else none)

def gate (p : Params ε ρ) (i : Nat) (candidate : ModelCandidate) (w : CandidateWorld ε ρ)
    (precheck : HarnessAuthPrecheck) (used : List String) : Gate :=
  match (if i ≠ 0 ∧ p.sessionId.any (· != "") then w.skipReason else none) with
  | some skipReason => .skip (sessionSkipError p candidate skipReason) skipReason
  | none => cooldownGate p i candidate precheck w.profiles used

def modelKey (toLowerCase : String → String) (provider model : String) : String :=
  let providerId := JsString.trim provider
  let modelId := JsString.trim model
  if providerId = "" then modelId
  else if modelId = "" then providerId
  else if (toLowerCase (JsString.trim modelId)).startsWith
      (toLowerCase (JsString.trim providerId) ++ "/") then modelId
  else providerId ++ "/" ++ modelId

def findLiveSessionModelSwitchRedirectIndex (p : Params ε ρ)
    (selection : LiveSessionModelSelection) (currentIndex : Nat) : Option Nat :=
  let targetKey := modelKey p.toLowerCase selection.provider selection.model
  ((List.range p.candidates.length).drop (currentIndex + 1)).find? fun i =>
    match p.candidates[i]? with
    | some candidate => modelKey p.toLowerCase candidate.provider candidate.model == targetKey
    | none => false

/-- The runtime that was asked for, if it is not the default one. -/
def normalizeRuntime (p : Params ε ρ) (runtime : Option String) : Option String :=
  match runtime.map fun raw => p.toLowerCase (JsString.trim raw) with
  | none => none
  | some value =>
    if value = "" then none
    else
      let normalized := p.normalizeAgentRuntimeId value
      if normalized = "auto" ∨ normalized = "default" ∨ normalized = "" then none
      else some normalized

def hasDifferentLiveSessionRuntimeSelection (p : Params ε ρ)
    (selection : LiveSessionModelSelection) (current : Option String) : Bool :=
  normalizeRuntime p current != normalizeRuntime p selection.agentRuntimeOverride

def LoopState.record (st : LoopState ε ρ) (i : Nat) (attempt : FallbackAttempt) :
    LoopState ε ρ :=
  { st with attempts := st.attempts ++ [attempt], trace := st.trace ++ [.recorded i] }

/-- The state after a failure, before its error is looked at. -/
def LoopState.noteResult (st : LoopState ε ρ) (classified : Option (ClassifiedResult ρ))
    (exhaustion : Option (ExhaustionResult ρ)) : LoopState ε ρ :=
  { st with
    latestClassifiedResult := classified.orElse fun _ => st.latestClassifiedResult
    exhaustionResult :=
      match exhaustion, st.exhaustionResult with
      | some new, some old => if old.priority ≤ new.priority then some new else some old
      | some new, none => some new
      | none, old => old }

def LoopState.useProbeSlot (st : LoopState ε ρ) (provider : Option String)
    (reason : Option FailoverReason) : LoopState ε ρ :=
  match provider with
  | some provider =>
    if shouldPreserveTransientCooldownProbeSlot reason then st
    else { st with cooldownProbeUsedProviders := provider :: st.cooldownProbeUsedProviders }
  | none => st

/-- A failure is recorded, its handlers are called, and the loop goes on. -/
def recordFailure (p : Params ε ρ) (i : Nat) (candidate : ModelCandidate) (w : CandidateWorld ε ρ)
    (error lastError : ε) (onError : Option ε) (st : LoopState ε ρ) : Visit ε ρ :=
  let attempt : FallbackAttempt :=
    ⟨candidate.provider, candidate.model, p.errors.candidateAttemptError candidate error,
      some ((p.errors.describeReason error).getD .unknown)⟩
  let st := { st with lastError := some lastError }.record i attempt
  match (w.onFallbackStep .candidateFailed).orElse fun _ => onError with
  | some thrown => .leave (.threw thrown) st
  | none => .goOn (i + 1) st

/-- The exits and the bookkeeping after a run that failed. -/
def afterFailure (p : Params ε ρ) (i : Nat) (candidate : ModelCandidate) (w : CandidateWorld ε ρ)
    (precheck : HarnessAuthPrecheck) (transientProbeProvider : Option String) (err : ε)
    (st : LoopState ε ρ) : Visit ε ρ :=
  if p.errors.isNonProviderRuntimeCoordinationError err then .leave (.threw err) st
  else if p.errors.isTranscriptNotContinuableError err then .leave (.threw err) st
  else
    let st := st.useProbeSlot transientProbeProvider (p.errors.describeReason err)
    if p.errors.isLikelyContextOverflowError err then .leave (.threw err) st
    else if p.errors.isMissingAgentHarnessError err then .leave (.threw err) st
    else
      let normalized := (p.errors.coerceToFailoverError candidate err).getD err
      match p.errors.liveSessionModelSwitch err with
      | some selection =>
        if hasDifferentLiveSessionRuntimeSelection p selection
            precheck.agentHarnessRuntimeOverride then .leave (.threw err) st
        else
          match findLiveSessionModelSwitchRedirectIndex p selection i with
          | some target => .goOn target { st with trace := st.trace ++ [.redirected i target] }
          | none =>
            let switchNormalized :=
              p.errors.failoverError (p.errors.message err) .unknown candidate
            recordFailure p i candidate w switchNormalized switchNormalized none st
      | none =>
        let isKnownFailover := p.errors.isFailoverError normalized
        if !isKnownFailover && i + 1 == p.candidates.length then .leave (.threw err) st
        else
          recordFailure p i candidate w normalized (if isKnownFailover then normalized else err)
            w.onError st

def visit (p : Params ε ρ) (world : Nat → CandidateWorld ε ρ) (i : Nat)
    (candidate : ModelCandidate) (st : LoopState ε ρ) : Visit ε ρ :=
  let w := world i
  match w.precheck with
  | .error err => .leave (.threw err) st
  | .ok precheck =>
    match gate p i candidate w precheck st.cooldownProbeUsedProviders with
    | .skip error reason =>
      let st := st.record i ⟨candidate.provider, candidate.model, error, some reason⟩
      match w.onFallbackStep .skipCandidate with
      | some thrown => .leave (.threw thrown) st
      | none => .goOn (i + 1) st
    | .attempt duringCooldown transientProbeProvider =>
      match (if duringCooldown then w.onFallbackStep .probeCooldownCandidate else none) with
      | some thrown => .leave (.threw thrown) st
      | none =>
        let st := { st with trace := st.trace ++ [.started i transientProbeProvider] }
        match runFallbackAttempt p i candidate w with
        | .error err => .leave (.threw err) st
        | .ok (.success result) =>
          let observed := i ≠ 0 ∨ st.attempts ≠ [] ∨ duringCooldown = true
          match (if observed then w.onFallbackStep .candidateSucceeded else none) with
          | some thrown => .leave (.threw thrown) st
          | none =>
            .leave (.completed result candidate.provider candidate.model st.attempts) st
        | .ok (.failed err classified exhaustion) =>
          afterFailure p i candidate w precheck transientProbeProvider err
            (st.noteResult classified exhaustion)

/-- After the last candidate. -/
def exhaust (p : Params ε ρ) (st : LoopState ε ρ) : Outcome ε ρ :=
  match st.exhaustionResult with
  | some preferred =>
    match st.latestClassifiedResult, p.mergeExhaustedResult with
    | some latest, some merge =>
      .exhausted (merge latest.result preferred.result) latest.provider latest.model st.attempts
    | _, _ => .exhausted preferred.result preferred.provider preferred.model st.attempts
  | none =>
    match st.lastError with
    | some err => if st.attempts.length ≤ 1 then .threw err else .summary st.attempts st.lastError
    | none => .summary st.attempts none

/-- How a run of the loop ends: at a candidate, or after the last one. -/
inductive Ending (ε ρ : Type)
  | left (outcome : Outcome ε ρ) (state : LoopState ε ρ)
  | ranOut (state : LoopState ε ρ)

def Ending.state : Ending ε ρ → LoopState ε ρ
  | left _ st => st
  | ranOut st => st

/-- The loop from a position, for as many visits as there is fuel. -/
def loop (p : Params ε ρ) (world : Nat → CandidateWorld ε ρ) :
    Nat → Nat → LoopState ε ρ → Option (Ending ε ρ)
  | 0, _, _ => none
  | fuel + 1, i, st =>
    match p.candidates[i]? with
    | none => some (.ranOut st)
    | some candidate =>
      match visit p world i candidate st with
      | .leave outcome st => some (.left outcome st)
      | .goOn next st => loop p world fuel next st

def runWithModelFallbackInternal (p : Params ε ρ) (world : Nat → CandidateWorld ε ρ)
    (fuel : Nat) : Option (Ending ε ρ) :=
  loop p world fuel 0 .initial

/-- What the caller gets. -/
def Ending.outcome (p : Params ε ρ) : Ending ε ρ → Outcome ε ρ
  | left outcome _ => outcome
  | ranOut st => exhaust p st

end OpenClaw.ModelFallback
