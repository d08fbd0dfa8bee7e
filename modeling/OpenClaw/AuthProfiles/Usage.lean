import OpenClaw.Lib.JsString
import OpenClaw.Lib.KeyedList
import Mathlib.Data.Rat.Floor

/-!
# `auth-profiles/usage.ts` and `auth-profiles/usage-state.ts`

The usage record of one profile and its writers. A writer under the store lock and its fallback
without the lock compute the same update of the record they read, so the model has one record.
Timestamps are milliseconds; the durations of the configuration may have a fraction.
-/

namespace OpenClaw.AuthProfiles

inductive AuthProfileFailureReason
  | auth
  | authPermanent
  | format
  | overloaded
  | rateLimit
  | billing
  | timeout
  | modelNotFound
  | sessionExpired
  | emptyResponse
  | noErrorDetails
  | unclassified
  | unknown
  deriving DecidableEq

inductive AuthProfileBlockedReason
  | subscriptionLimit
  deriving DecidableEq

inductive AuthProfileBlockedSource
  | codexRateLimits
  | wham
  deriving DecidableEq

/-- Counts of failures by reason, as an object with a property for each reason that failed. -/
abbrev FailureCounts := List (AuthProfileFailureReason × Nat)

def FailureCounts.get (counts : FailureCounts) (reason : AuthProfileFailureReason) : Option Nat :=
  (KeyedList.get Prod.fst reason counts).map Prod.snd

structure ProfileUsageStats where
  blockedUntil : Option Int := none
  blockedReason : Option AuthProfileBlockedReason := none
  blockedSource : Option AuthProfileBlockedSource := none
  blockedModel : Option String := none
  cooldownUntil : Option Int := none
  cooldownReason : Option AuthProfileFailureReason := none
  cooldownModel : Option String := none
  disabledUntil : Option Int := none
  disabledReason : Option AuthProfileFailureReason := none
  errorCount : Option Nat := none
  failureCounts : Option FailureCounts := none
  lastFailureAt : Option Int := none
  deriving DecidableEq

inductive CredentialType
  | apiKey
  | token
  | oauth
  deriving DecidableEq

structure AuthProfileCredential where
  type : CredentialType
  provider : String
  access : String

/-! ## Timestamps -/

def MAX_DATE_TIMESTAMP_MS : Int := 8640000000000000

def MAX_SAFE_INTEGER : Int := 9007199254740991

def asDateTimestampMs (value : Option Int) : Option Int :=
  value.filter fun ms => decide (-MAX_DATE_TIMESTAMP_MS ≤ ms ∧ ms ≤ MAX_DATE_TIMESTAMP_MS)

def isFutureDateTimestampMs (value nowMs : Int) : Bool :=
  match asDateTimestampMs (some value), asDateTimestampMs (some nowMs) with
  | some timestampMs, some nowMs => decide (nowMs < timestampMs)
  | _, _ => false

def resolveExpiresAtMsFromDurationMs (durationMs nowMs : Int) : Option Int :=
  if ¬ (0 < durationMs ∧ durationMs ≤ MAX_SAFE_INTEGER) then none
  else
    match asDateTimestampMs (some nowMs) with
    | none => none
    | some nowMs =>
      let expiresAt := nowMs + durationMs
      if -MAX_SAFE_INTEGER ≤ expiresAt ∧ expiresAt ≤ MAX_SAFE_INTEGER then
        asDateTimestampMs (some expiresAt)
      else none

def resolveUsageWindowUntil (now : Int) (durationMs : ℚ) : Int :=
  if durationMs ≤ 0 then now
  else (resolveExpiresAtMsFromDurationMs (max 1 ⌊durationMs⌋) now).getD now

def resolveActiveWindowUntil (value : Option Int) (now : Int) : Int :=
  match asDateTimestampMs value with
  | some timestampMs => if now < timestampMs then timestampMs else 0
  | none => 0

/-! ## The state of a profile -/

variable (toLowerCase : String → String)

def normalizeProviderId (provider : String) : String := toLowerCase (JsString.trim provider)

def isAuthCooldownBypassedForProvider (provider : String) : Bool :=
  normalizeProviderId toLowerCase provider == "openrouter" ||
    normalizeProviderId toLowerCase provider == "kilocode"

def isModelScopedCooldownReason (reason : Option AuthProfileFailureReason) : Bool :=
  reason == some .rateLimit || reason == some .timeout

def ProfileUsageStats.windows (stats : ProfileUsageStats) : List (Option Int) :=
  [stats.blockedUntil, stats.cooldownUntil, stats.disabledUntil]

def resolveProfileUnusableUntil (stats : ProfileUsageStats) : Option Int :=
  let values := (stats.windows.filterMap asDateTimestampMs).filter fun value => decide (0 < value)
  values.max?

def isActiveUnusableWindow (until? : Option Int) (now : Int) : Bool :=
  match asDateTimestampMs until? with
  | some timestamp => decide (0 < timestamp) && decide (now < timestamp)
  | none => false

/-- A string that JavaScript takes for true. -/
def truthy : Option String → Bool
  | some s => s != ""
  | none => false

def shouldBypassModelScopedCooldown (stats : ProfileUsageStats) (now : Int)
    (forModel : Option String) : Bool :=
  truthy forModel && isModelScopedCooldownReason stats.cooldownReason &&
    truthy stats.cooldownModel && stats.cooldownModel != forModel &&
    !isActiveUnusableWindow stats.blockedUntil now &&
    !isActiveUnusableWindow stats.disabledUntil now

def isProfileInCooldown (profile : AuthProfileCredential) (stats : Option ProfileUsageStats)
    (now : Int) (forModel : Option String) : Bool :=
  if isAuthCooldownBypassedForProvider toLowerCase profile.provider then false
  else
    match stats with
    | none => false
    | some stats =>
      if shouldBypassModelScopedCooldown stats now forModel then false
      else
        match resolveProfileUnusableUntil stats with
        | none => false
        | some unusableUntil => decide (now < unusableUntil)

/-- A window that has a value in the past or present. -/
def windowExpired (until? : Option Int) (now : Int) : Bool :=
  match until? with
  | some ms => decide (0 < ms) && decide (ms ≤ now)
  | none => false

/-- The body of the loop, for one profile. -/
def clearExpiredCooldowns (stats : ProfileUsageStats) (now : Int) : ProfileUsageStats :=
  let cooldownExpired := windowExpired stats.cooldownUntil now
  let blockedExpired := windowExpired stats.blockedUntil now
  let disabledExpired := windowExpired stats.disabledUntil now
  let stats := if cooldownExpired then
      { stats with cooldownUntil := none, cooldownReason := none, cooldownModel := none }
    else stats
  let stats := if blockedExpired then
      { stats with
        blockedUntil := none, blockedReason := none, blockedSource := none, blockedModel := none }
    else stats
  let stats := if disabledExpired then { stats with disabledUntil := none, disabledReason := none }
    else stats
  if (cooldownExpired || blockedExpired || disabledExpired) &&
      (resolveProfileUnusableUntil stats).isNone then
    { stats with errorCount := some 0, failureCounts := none }
  else stats

/-! ## Failures -/

structure ResolvedAuthCooldownConfig where
  billingBackoffMs : ℚ
  billingMaxMs : ℚ
  authPermanentBackoffMs : ℚ
  authPermanentMaxMs : ℚ
  failureWindowMs : ℚ

def calculateAuthProfileCooldownMs (errorCount : Nat) : ℚ :=
  let normalized := max 1 errorCount
  if normalized ≤ 1 then 30000
  else if normalized ≤ 2 then 60000
  else 5 * 60000

def calculateDisabledLaneBackoffMs (errorCount : Nat) (baseMs maxMs : ℚ) : ℚ :=
  let normalized := max 1 errorCount
  let baseMs := max 60000 baseMs
  let maxMs := max baseMs maxMs
  let exponent := min (normalized - 1) 10
  let raw := baseMs * 2 ^ exponent
  min maxMs raw

/-- The two reasons with a lane of their own have a policy, the base and the bound. -/
def disabledFailureBackoffPolicy (cfg : ResolvedAuthCooldownConfig) :
    AuthProfileFailureReason → Option (ℚ × ℚ)
  | .billing => some (cfg.billingBackoffMs, cfg.billingMaxMs)
  | .authPermanent => some (cfg.authPermanentBackoffMs, cfg.authPermanentMaxMs)
  | _ => none

def keepActiveWindowOrRecompute (existingUntil : Option Int) (now recomputedUntil : Int) : Int :=
  match existingUntil with
  | some existing => if now < existing then existing else recomputedUntil
  | none => recomputedUntil

/-- The model of a cooldown that is still active, after one more failure. -/
def widenCooldownModel (existing modelId : Option String) (reason : AuthProfileFailureReason) :
    Option String :=
  if truthy existing && truthy modelId && existing != modelId then none
  else if isModelScopedCooldownReason (some reason) && !truthy modelId && truthy existing then none
  else if !isModelScopedCooldownReason (some reason) then none
  else existing

def computeNextProfileUsageStats (existing : ProfileUsageStats) (now : Int)
    (reason : AuthProfileFailureReason) (cfg : ResolvedAuthCooldownConfig)
    (modelId : Option String) : ProfileUsageStats :=
  let failureWindowExpired :=
    match existing.lastFailureAt with
    | some last => decide (0 < last) && decide (cfg.failureWindowMs < ((now - last : Int) : ℚ))
    | none => false
  let previousCooldownExpired :=
    match resolveProfileUnusableUntil existing with
    | some unusableUntil => decide (unusableUntil ≤ now)
    | none => false
  let shouldResetCounters := failureWindowExpired || previousCooldownExpired
  let baseErrorCount := if shouldResetCounters then 0 else existing.errorCount.getD 0
  let nextErrorCount := baseErrorCount + 1
  let failureCounts := if shouldResetCounters then [] else existing.failureCounts.getD []
  let failureCounts :=
    KeyedList.put Prod.fst (reason, (FailureCounts.get failureCounts reason).getD 0 + 1)
      failureCounts
  let updatedStats : ProfileUsageStats :=
    { existing with
      errorCount := some nextErrorCount
      failureCounts := some failureCounts
      lastFailureAt := some now }
  match disabledFailureBackoffPolicy cfg reason with
  | some (baseMs, maxMs) =>
    let disableCount := (FailureCounts.get failureCounts reason).getD 1
    let backoffMs := calculateDisabledLaneBackoffMs disableCount baseMs maxMs
    { updatedStats with
      disabledUntil := some (keepActiveWindowOrRecompute existing.disabledUntil now
        (resolveUsageWindowUntil now backoffMs))
      disabledReason := some reason }
  | none =>
    let backoffMs := calculateAuthProfileCooldownMs nextErrorCount
    let existingCooldownActive :=
      match existing.cooldownUntil with
      | some ms => decide (now < ms)
      | none => false
    { updatedStats with
      cooldownUntil := some (keepActiveWindowOrRecompute existing.cooldownUntil now
        (resolveUsageWindowUntil now backoffMs))
      cooldownReason := some reason
      cooldownModel :=
        if existingCooldownActive then widenCooldownModel existing.cooldownModel modelId reason
        else if isModelScopedCooldownReason (some reason) then modelId
        else none }

/-! ## The usage probe -/

def shouldProbeWhamForFailure (profile : AuthProfileCredential)
    (reason : AuthProfileFailureReason) : Bool :=
  profile.type == .oauth && profile.access != "" &&
    normalizeProviderId toLowerCase profile.provider == "openai" &&
    (reason == .rateLimit || reason == .emptyResponse || reason == .noErrorDetails ||
      reason == .unclassified || reason == .unknown)

/-- What the probe found. It computes a block with `resolveUsageWindowUntil`, so the end of one is a
date. -/
structure WhamCooldownProbeResult where
  cooldownMs : ℚ
  blockedUntil : Option Int
  blockedSource : Option AuthProfileBlockedSource
  blockedUntil_le : ∀ ms, blockedUntil = some ms → ms ≤ MAX_DATE_TIMESTAMP_MS

/-- The end of a window that is still open, or zero. -/
def existingActiveUntil (existingUntil : Option Int) (now : Int) : Int :=
  match existingUntil with
  | some ms => if now < ms then ms else 0
  | none => 0

def applyWhamCooldownResult (existing computed : ProfileUsageStats) (now : Int)
    (whamResult : WhamCooldownProbeResult) : ProfileUsageStats :=
  match whamResult.blockedUntil.filter (· != 0) with
  | some blockedUntil =>
    { computed with
      blockedUntil := some (max (existingActiveUntil existing.blockedUntil now) blockedUntil)
      blockedReason := some .subscriptionLimit
      blockedSource := some (whamResult.blockedSource.getD .wham)
      blockedModel := none
      cooldownUntil := none
      cooldownReason := none
      cooldownModel := none }
  | none =>
    { computed with
      cooldownUntil := some (max (existingActiveUntil existing.cooldownUntil now)
        (resolveUsageWindowUntil now whamResult.cooldownMs)) }

/-- The probe's answer is `none` where the credential it was made with has been replaced since. -/
def currentWhamResult (profile : AuthProfileCredential) (reason : AuthProfileFailureReason)
    (probe : Option WhamCooldownProbeResult) : Option WhamCooldownProbeResult :=
  if shouldProbeWhamForFailure toLowerCase profile reason then probe else none

/-- A failure without details is recorded only with the answer of a probe. -/
def isRecorded (profile : AuthProfileCredential) (reason : AuthProfileFailureReason)
    (probe : Option WhamCooldownProbeResult) : Bool :=
  !isAuthCooldownBypassedForProvider toLowerCase profile.provider &&
    !(reason == .noErrorDetails && (currentWhamResult toLowerCase profile reason probe).isNone)

def markAuthProfileFailure (profile : AuthProfileCredential) (stats : Option ProfileUsageStats)
    (reason : AuthProfileFailureReason) (cfg : ResolvedAuthCooldownConfig)
    (modelId : Option String) (probe : Option WhamCooldownProbeResult) (now : Int) :
    Option ProfileUsageStats :=
  if !isRecorded toLowerCase profile reason probe then stats
  else
    let existing := stats.getD {}
    let computed := computeNextProfileUsageStats existing now reason cfg modelId
    match currentWhamResult toLowerCase profile reason probe with
    | some whamResult => some (applyWhamCooldownResult existing computed now whamResult)
    | none => some computed

/-! ## Blocks -/

def buildBlockedProfileUsageStats (previousStats : Option ProfileUsageStats) (blockedUntil : Int)
    (source : AuthProfileBlockedSource) (modelId : Option String) (now : Int) :
    ProfileUsageStats :=
  let previous := previousStats.getD {}
  let activeBlockedUntil := resolveActiveWindowUntil previous.blockedUntil now
  let failureCounts := previous.failureCounts.getD []
  { previous with
    blockedUntil := some (max activeBlockedUntil blockedUntil)
    blockedReason := some .subscriptionLimit
    blockedSource := some source
    blockedModel := modelId
    cooldownUntil := none
    cooldownReason := none
    cooldownModel := none
    lastFailureAt := some now
    failureCounts := some (KeyedList.put Prod.fst
      (.rateLimit, (FailureCounts.get failureCounts .rateLimit).getD 0 + 1) failureCounts) }

/-- The block is in the future of the call; the record is updated at `now`. -/
def markAuthProfileBlockedUntil (profile : AuthProfileCredential)
    (stats : Option ProfileUsageStats) (blockedUntil : Int) (source : AuthProfileBlockedSource)
    (modelId : Option String) (calledAt now : Int) : Option ProfileUsageStats :=
  if isAuthCooldownBypassedForProvider toLowerCase profile.provider ||
      !isFutureDateTimestampMs blockedUntil calledAt then stats
  else some (buildBlockedProfileUsageStats stats blockedUntil source modelId now)

end OpenClaw.AuthProfiles
