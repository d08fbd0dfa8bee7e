import OpenClaw.Exec.AuthorizationPlan
import OpenClaw.Exec.SafeBins

/-!
# `infra/exec-approvals-allowlist.ts`: evaluation

The allowlist is satisfied when every segment, or every candidate of a plan, has a reason to run:
an entry matches it, it is a safe bin or a builtin, or it is a trusted skill.

The match of a segment against the entries is a field of `AllowlistHost`, as are the directories
and profiles of safe bins. Nothing is assumed of them.
-/

namespace OpenClaw.Exec

/-! ## Contexts -/

structure SkillBinTrustEntry where
  name : String
  resolvedPath : String

structure ExecAllowlistContext (Entry : Type) where
  allowlist : List Entry
  safeBins : List String
  safeBinProfiles : Option (String → Option SafeBinProfile)
  cwd : Option String
  env : Option (List (String × String))
  platform : Option String
  trustedSafeBinDirs : Option (List String)
  skillBins : Option (List SkillBinTrustEntry)
  autoAllowSkills : Option Bool
  allowShellBuiltins : Option Bool

def ExecAllowlistContext.planning {Entry : Type} (context : ExecAllowlistContext Entry) :
    PlanningContext where
  cwd := context.cwd
  env := context.env
  platform := context.platform

/-- `ExecSegmentSatisfiedBy`, less `null`. -/
inductive SatisfiedBy
  | allowlist | safeBins | inlineChain | safeBuiltins | skills
  deriving DecidableEq

structure SegmentMatchEvaluation (Entry : Type) where
  effectiveArgv : List String
  inlineCommand : Option String
  entry : Option Entry

structure AllowlistHost (Entry : Type) extends Host where
  resolveSegmentAllowlistMatch :
    ExecCommandSegment → ExecAllowlistContext Entry → SegmentMatchEvaluation Entry
  isTrustedSafeBinPath : String → Option (List String) → Bool
  /-- `SAFE_BIN_PROFILES`. -/
  safeBinProfiles : String → Option SafeBinProfile

variable {Entry : Type} (host : AllowlistHost Entry)

/-! ## Reasons -/

def isSafeBinUsage (argv : List String) (resolution : Option ExecutableResolution)
    (context : ExecAllowlistContext Entry) : Bool :=
  if isWindowsPlatform host.toHost (some (context.platform.getD host.processPlatform)) then false
  else if context.safeBins.isEmpty then false
  else
    let execName := host.lower (resolution.map (·.executableName))
    if execName = "" then false
    else if execName ∉ context.safeBins then false
    else
      match truthy (resolution.bind host.resolveExecutableTrustPath) with
      | none => false
      | some trustPath =>
        if !host.isTrustedSafeBinPath trustPath context.trustedSafeBinDirs then false
        else
          match (context.safeBinProfiles.getD host.safeBinProfiles) execName with
          | none => false
          | some profile => validateSafeBinArgv host.toLowerCase (argv.drop 1) profile (some execName)

def defaultSafeBuiltins : List String := [":", "cd", "false", "pwd", "test", "true"]

def isSafeBuiltinSegment (segment : ExecCommandSegment) (platform : Option String) : Bool :=
  if isWindowsPlatform host.toHost (some (platform.getD host.processPlatform)) then false
  else
    let head := host.lower segment.argv.head?
    if head = "" then false
    else if head = "[" then
      segment.argv.getLast? == some "]" || endsWith (JsString.trim segment.raw) "]"
    else head ∈ defaultSafeBuiltins

def normalizeSkillBinName (value : String) : Option String := truthy (host.lower (some value))

def normalizeSkillBinResolvedPath (value : String) : Option String :=
  (normalizeOptionalString (some value)).map host.resolvePath

/-- `buildSkillBinTrustIndex`: the pairs of a name and a path that it has. -/
def buildSkillBinTrustIndex (entries : List SkillBinTrustEntry) : List (String × String) :=
  entries.filterMap fun entry =>
    match normalizeSkillBinName host entry.name,
      truthy (normalizeSkillBinResolvedPath host entry.resolvedPath) with
    | some name, some resolvedPath => some (name, resolvedPath)
    | _, _ => none

def isSkillAutoAllowedSegment (segment : ExecCommandSegment) (allowSkills : Bool)
    (skillBinTrust : List (String × String)) : Bool :=
  if !allowSkills then false
  else
    match segment.resolution.map (·.execution) with
    | none => false
    | some execution =>
      match truthy execution.resolvedPath, truthy (host.resolveExecutableTrustPath execution) with
      | some _, some trustPath =>
        let rawExecutable := JsString.trim execution.rawExecutable
        if rawExecutable = "" || isPathScopedExecutableToken rawExecutable then false
        else
          match normalizeSkillBinName host execution.executableName,
            truthy (normalizeSkillBinResolvedPath host trustPath) with
          | some executableName, some resolvedPath =>
            (executableName, resolvedPath) ∈ skillBinTrust
          | _, _ => false
      | _, _ => false

def resolveSegmentSatisfaction (entry : Option Entry) (segment : ExecCommandSegment)
    (effectiveArgv : List String) (context : ExecAllowlistContext Entry) (allowSkills : Bool)
    (skillBinTrust : List (String × String)) : Option SatisfiedBy :=
  if entry.isSome then some .allowlist
  else if isSafeBinUsage host effectiveArgv (segment.resolution.map (·.execution)) context then
    some .safeBins
  else if context.allowShellBuiltins = some true &&
      isSafeBuiltinSegment host segment context.platform then
    some .safeBuiltins
  else if isSkillAutoAllowedSegment host segment allowSkills skillBinTrust then some .skills
  else none

/-! ## Segments -/

def maxShellWrapperInlineEvalDepth : Nat := 3

/-- `/\\(?:\r\n|\n|\r)/`. -/
def hasLineContinuation : List Char → Bool
  | '\\' :: c :: cs => c = '\n' || c = '\r' || hasLineContinuation (c :: cs)
  | _ :: cs => hasLineContinuation cs
  | [] => false

structure InlineChainEvaluation (Entry : Type) where
  matches' : List Entry
  satisfiedBy : SatisfiedBy

/-- What one segment adds to the lists of an evaluation. -/
structure SegmentEvaluation (Entry : Type) where
  matches' : List Entry
  entry : Option Entry
  satisfiedBy : Option SatisfiedBy

structure SegmentsEvaluation (Entry : Type) where
  satisfied : Bool
  matches' : List Entry
  segmentAllowlistEntries : List (Option Entry)
  segmentSatisfiedBy : List (Option SatisfiedBy)

/-- The callback of `evaluateSegments`. `inline` evaluates the command of a wrapper. -/
def evaluateSegmentWith (inline : String → Option (InlineChainEvaluation Entry))
    (context : ExecAllowlistContext Entry) (segment : ExecCommandSegment) :
    SegmentEvaluation Entry :=
  let skillBinTrust := buildSkillBinTrustIndex host (context.skillBins.getD [])
  let allowSkills := context.autoAllowSkills = some true && !skillBinTrust.isEmpty
  if segment.policyBlocked then ⟨[], none, none⟩
  else
    let found := host.resolveSegmentAllowlistMatch segment context
    match resolveSegmentSatisfaction host found.entry segment found.effectiveArgv context
      allowSkills skillBinTrust with
    | some satisfiedBy => ⟨found.entry.toList, found.entry, some satisfiedBy⟩
    | none =>
      -- `resolveInlineCommandFallback`
      match (truthy found.inlineCommand).bind fun inlineCommand =>
        if isWindowsPlatform host.toHost context.platform then inline inlineCommand else none with
      | some result =>
        ⟨found.entry.toList ++ result.matches', found.entry, some result.satisfiedBy⟩
      | none => ⟨found.entry.toList, found.entry, none⟩

/-- `segments.every`, with the lists that its callback fills. It stops at the first segment that
has no reason. -/
def evaluateSegmentsWith (evaluate : ExecCommandSegment → SegmentEvaluation Entry) :
    List ExecCommandSegment → SegmentsEvaluation Entry
  | [] => ⟨true, [], [], []⟩
  | segment :: segments =>
    let result := evaluate segment
    if result.satisfiedBy.isSome then
      let rest := evaluateSegmentsWith evaluate segments
      ⟨rest.satisfied, result.matches' ++ rest.matches',
        result.entry :: rest.segmentAllowlistEntries,
        result.satisfiedBy :: rest.segmentSatisfiedBy⟩
    else ⟨false, result.matches', [result.entry], [result.satisfiedBy]⟩

def resolveAnalysisSegmentGroups (analysis : ExecCommandAnalysis) :
    List (List ExecCommandSegment) :=
  analysis.chains.getD [analysis.segments]

/-- `evaluateShellWrapperInlineCommand`, with the number of wrappers it may still enter. -/
def evaluateShellWrapperInlineCommand (context : ExecAllowlistContext Entry) :
    Nat → String → Option (InlineChainEvaluation Entry)
  | 0, _ => none
  | left + 1, inlineCommand =>
    if hasLineContinuation inlineCommand.toList then none
    else
      let analysis := host.analyzeWindowsShellCommand inlineCommand context.planning
      if !analysis.ok || analysis.segments.isEmpty then none
      else
        let evaluate := evaluateSegmentWith host
          (evaluateShellWrapperInlineCommand context left) context
        let results := (resolveAnalysisSegmentGroups analysis).map (evaluateSegmentsWith evaluate)
        if results.all (·.satisfied) then
          some ⟨results.flatMap (·.matches'), .allowlist⟩
        else none

/-- A segment that no wrapper encloses. -/
def evaluateSegment (context : ExecAllowlistContext Entry) :
    ExecCommandSegment → SegmentEvaluation Entry :=
  evaluateSegmentWith host
    (evaluateShellWrapperInlineCommand host context (maxShellWrapperInlineEvalDepth - 1)) context

def evaluateSegments (context : ExecAllowlistContext Entry) :
    List ExecCommandSegment → SegmentsEvaluation Entry :=
  evaluateSegmentsWith (evaluateSegment host context)

/-! ## Analyses -/

/-- `ExecAllowlistEvaluation`, with the segments and the plan that
`evaluateExecAllowlistWithAuthorization` adds. -/
structure ExecAllowlistEvaluation (Entry : Type) where
  allowlistSatisfied : Bool
  allowlistMatches : List Entry
  segmentAllowlistEntries : List (Option Entry)
  segmentSatisfiedBy : List (Option SatisfiedBy)
  segments : Option (List ExecCommandSegment)
  authorizationPlan : Option ExecAuthorizationPlan

/-- The loop of `evaluateExecAllowlist` over the groups. -/
def evaluateGroups (context : ExecAllowlistContext Entry) (hasChains : Bool) :
    List (List ExecCommandSegment) → ExecAllowlistEvaluation Entry
  | [] => ⟨true, [], [], [], none, none⟩
  | group :: groups =>
    let result := evaluateSegments host context group
    if !result.satisfied then
      if !hasChains then
        ⟨false, result.matches', result.segmentAllowlistEntries, result.segmentSatisfiedBy,
          none, none⟩
      else ⟨false, [], [], [], none, none⟩
    else
      let rest := evaluateGroups context hasChains groups
      if !rest.allowlistSatisfied then rest
      else
        { rest with
          allowlistMatches := result.matches' ++ rest.allowlistMatches
          segmentAllowlistEntries :=
            result.segmentAllowlistEntries ++ rest.segmentAllowlistEntries
          segmentSatisfiedBy := result.segmentSatisfiedBy ++ rest.segmentSatisfiedBy }

def evaluateExecAllowlist (analysis : ExecCommandAnalysis)
    (context : ExecAllowlistContext Entry) : ExecAllowlistEvaluation Entry :=
  if !analysis.ok || analysis.segments.isEmpty then ⟨false, [], [], [], none, none⟩
  else evaluateGroups host context analysis.chains.isSome (resolveAnalysisSegmentGroups analysis)

/-! ## Plans -/

structure CandidateEvaluation (Entry : Type) where
  entry : Option Entry
  satisfiedBy : Option SatisfiedBy

def evaluateAuthorizationCandidate (context : ExecAllowlistContext Entry)
    (candidate : ExecAuthorizationCandidate) : CandidateEvaluation Entry :=
  let skillBins := context.skillBins.getD []
  let allowSkills := context.autoAllowSkills = some true && !skillBins.isEmpty
  if candidate.trustMode = .promptOnly then ⟨none, none⟩
  else
    let found := host.resolveSegmentAllowlistMatch candidate.sourceSegment context
    if found.entry.isSome then ⟨found.entry, some .allowlist⟩
    else
      ⟨found.entry, resolveSegmentSatisfaction host found.entry candidate.sourceSegment
        found.effectiveArgv context allowSkills (buildSkillBinTrustIndex host skillBins)⟩

/-- `evaluateAuthorizationPlanGroup`, with the segments as a field. -/
def evaluateAuthorizationPlanGroup (context : ExecAllowlistContext Entry)
    (group : ExecAuthorizationGroup) : ExecAllowlistEvaluation Entry :=
  let results := group.candidates.map (evaluateAuthorizationCandidate host context)
  { allowlistSatisfied := results.all (·.satisfiedBy.isSome)
    allowlistMatches := results.filterMap (·.entry)
    segmentAllowlistEntries := results.map (·.entry)
    segmentSatisfiedBy := results.map (·.satisfiedBy)
    segments := some (group.candidates.map (·.sourceSegment))
    authorizationPlan := none }

def finalizeShellAllowlistEvaluations (evaluations : List (ExecAllowlistEvaluation Entry))
    (authorizationPlan : ExecAuthorizationPlan) : ExecAllowlistEvaluation Entry where
  allowlistSatisfied := evaluations.all (·.allowlistSatisfied)
  allowlistMatches := evaluations.flatMap (·.allowlistMatches)
  segmentAllowlistEntries := evaluations.flatMap (·.segmentAllowlistEntries)
  segmentSatisfiedBy := evaluations.flatMap (·.segmentSatisfiedBy)
  segments := some (evaluations.flatMap fun evaluation => evaluation.segments.getD [])
  authorizationPlan := some authorizationPlan

def evaluateAuthorizationPlan (plan : ExecAuthorizationPlan)
    (context : ExecAllowlistContext Entry) : ExecAllowlistEvaluation Entry :=
  match plan with
  | .unanalyzable .. => ⟨false, [], [], [], some [], some plan⟩
  | .ok _ _ groups _ =>
    finalizeShellAllowlistEvaluations (groups.map (evaluateAuthorizationPlanGroup host context)) plan

def evaluateExecAllowlistWithAuthorization (analysis : ExecCommandAnalysis)
    (command : Option String) (context : ExecAllowlistContext Entry) :
    ExecAllowlistEvaluation Entry :=
  if isWindowsPlatform host.toHost context.platform then
    evaluateExecAllowlist host analysis context
  else
    match planExecAuthorization host.toHost analysis command context.planning with
    | plan@(.unanalyzable ..) => ⟨false, [], [], [], some analysis.segments, some plan⟩
    | plan@(.ok ..) => evaluateAuthorizationPlan host plan context

end OpenClaw.Exec
