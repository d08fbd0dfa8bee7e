import OpenClaw.Exec.CommandAnalysis

/-!
# `infra/exec-authorization-plan.ts`

A plan groups the commands that an exec request would run. Each is a candidate: a segment to
match, with how far the match may be trusted.
-/

namespace OpenClaw.Exec

/-! ## Plans -/

inductive ExecAuthorizationDialect
  | argv | posixShell | windowsCmd | powershell
  deriving DecidableEq

inductive ExecAuthorizationRelationship
  | simple | pipeline
  deriving DecidableEq

inductive ExecAuthorizationTransport
  | direct
  | shellWrapper (wrapperSegment : ExecCommandSegment) (wrapperArgv : List String)
      (wrapperPrefix : String) (inlineCommand : String)
  deriving DecidableEq

inductive ExecAuthorizationTrustMode
  | executable | exactCommand | promptOnly
  deriving DecidableEq

inductive ShellChainOperator
  | and | or | sequence | background
  deriving DecidableEq

structure ExecAuthorizationCandidate where
  sourceSegment : ExecCommandSegment
  sourceStep : CommandStep
  sourceStepId : Option String
  transport : ExecAuthorizationTransport
  trustMode : ExecAuthorizationTrustMode
  allowAlways : Bool
  reasons : List String

structure ExecAuthorizationGroup where
  opToNext : Option ShellChainOperator
  candidates : List ExecAuthorizationCandidate

inductive ExecAuthorizationPlan
  | ok (dialect : ExecAuthorizationDialect) (originalCommand : String)
      (groups : List ExecAuthorizationGroup) (operators : List CommandOperator)
  | unanalyzable (dialect : ExecAuthorizationDialect) (originalCommand : String) (reason : String)

structure CommandStepWithSegment where
  step : CommandStep
  segment : ExecCommandSegment

/-! ## Risks -/

def promptOnlyRisks : List RiskKind :=
  [.eval, .source, .alias, .shellWrapperThroughCarrier, .commandCarrier]

def nonReusableRisks : List RiskKind := [.inlineEval]

def unanalyzableRisks : List RiskKind :=
  [.commandSubstitution, .dynamicExecutable, .lineContinuation, .heredoc, .hereString,
    .processSubstitution, .redirect, .syntaxError, .functionDefinition]

def powershellNames : List String := ["powershell", "pwsh"]

def windowsCmdNames : List String := ["cmd", "cmd.exe"]

def posixShellNames : List String := ["ash", "bash", "dash", "fish", "ksh", "sh", "zsh"]

def positionalCarrierBlockedExecutables : List String := ["find", "xargs"]

def unsupportedDirectShellTopologyShapes : List CommandShape :=
  [.background, .if, .for, .while, .case, .subshell, .group]

def riskInsideStep (risk : CommandRisk) (step : CommandStep) : Bool :=
  decide (step.span.startIndex ≤ risk.span.startIndex) &&
    decide (risk.span.endIndex ≤ step.span.endIndex)

def riskBeforeStepExecutable (risk : CommandRisk) (step : CommandStep) : Bool :=
  riskInsideStep risk step && decide (risk.span.endIndex ≤ step.executableSpan.startIndex)

/-- The kinds, without repetition, of the risks that meet a condition. -/
def riskReasons (p : CommandRisk → Bool) (risks : List CommandRisk) : List String :=
  ((risks.filter p).map (·.kind.name)).eraseDups

def stepReasons (step : CommandStep) (risks : List CommandRisk) : List String :=
  riskReasons (fun risk => risk.kind ∈ promptOnlyRisks && riskInsideStep risk step) risks

def nonReusableStepReasons (step : CommandStep) (risks : List CommandRisk) : List String :=
  riskReasons (fun risk => risk.kind ∈ nonReusableRisks && riskInsideStep risk step) risks

def shellWrapperPreludeReasons (step : CommandStep) (risks : List CommandRisk) : List String :=
  riskReasons (fun risk => risk.kind ∈ unanalyzableRisks && riskBeforeStepExecutable risk step)
    risks

/-- The characters that make a `$` an expansion, and `${`, a back quote, `$(`, `<(` and `>(`. -/
def hasShellExpansion : List Char → Bool
  | '\x60' :: _ => true
  | '$' :: c :: cs =>
    (c.isAlphanum || c ∈ ['_', '@', '*', '?', '#', '$', '!', '-', '\x7b', '(']) ||
      hasShellExpansion (c :: cs)
  | '<' :: c :: cs | '>' :: c :: cs => c = '(' || hasShellExpansion (c :: cs)
  | _ :: cs => hasShellExpansion cs
  | [] => false

def isShellExpansionDynamicArgument (risk : CommandRisk) : Bool :=
  risk.kind = .dynamicArgument && hasShellExpansion risk.text.toList

def riskInsidePromptOnlyStep (risk : CommandRisk) (explanation : CommandExplanation) : Bool :=
  (explanation.topLevelCommands ++ explanation.nestedCommands).any fun step =>
    riskInsideStep risk step && stepReasons step explanation.risks ≠ []

def findUnanalyzableRisk (explanation : CommandExplanation) : Option CommandRisk :=
  explanation.risks.find? (·.kind ∈ unanalyzableRisks)

/-- The risk kind or the shape, by its name. -/
def hasBlockingRisk (explanation : CommandExplanation) : Option String :=
  match findUnanalyzableRisk explanation with
  | some risk => some risk.kind.name
  | none =>
    match explanation.shapes.find? (· ∈ unsupportedDirectShellTopologyShapes) with
    | some shape => some shape.name
    | none =>
      (explanation.risks.find? fun entry =>
        isShellExpansionDynamicArgument entry &&
          !riskInsidePromptOnlyStep entry explanation).map (·.kind.name)

/-! ## Segments -/

def normalizePlanningPlatform (platform : Option String) : Option String :=
  platform.filter (· ∈ ["aix", "android", "cygwin", "darwin", "freebsd", "haiku", "linux",
    "netbsd", "openbsd", "sunos", "win32"])

variable (host : Host)

def commandSegmentFromStep (step : CommandStep) (context : PlanningContext) :
    ExecCommandSegment where
  raw := step.text
  argv := step.argv
  sourceArgv := none
  resolution := host.resolveCommandResolutionFromArgv step.argv context

def commandSegmentFromArgv (argv : List String) (context : PlanningContext)
    (sourceArgv : Option (List String)) : ExecCommandSegment where
  raw := " ".intercalate argv
  argv := argv
  sourceArgv := sourceArgv
  resolution := host.resolveCommandResolutionFromArgv argv context

def isPathScopedExecutableToken (token : String) : Bool :=
  token.toList.any fun c => c = '/' || c = '\\'

def hasResolvedExecutionPath (segment : ExecCommandSegment) : Bool :=
  let execution := segment.resolution.map (·.execution)
  (normalizeOptionalString (execution.bind (·.resolvedPath))).isSome ||
    (normalizeOptionalString (execution.bind (·.resolvedRealPath))).isSome

def isUnresolvedPathScopedExecutable (segment : ExecCommandSegment) : Bool :=
  isPathScopedExecutableToken (JsString.trim (firstWord segment.argv)) &&
    !hasResolvedExecutionPath segment

def canUseReusableWrapperPayloadCandidates (segments : List ExecCommandSegment) : Bool :=
  JsString.trim ((segments.head?.map fun segment => firstWord segment.argv).getD "") ≠ "" &&
    !segments.any (fun segment =>
      isPathScopedExecutableToken (JsString.trim (firstWord segment.argv))) &&
    !segments.any fun segment =>
      endsWith (normalizeExecutableToken host (firstWord segment.argv)) "-wrapper"

def isShellExecutable (argv : List String) : Bool :=
  normalizeExecutableToken host (firstWord argv) ∈ posixShellNames

def canUseWrapperShellInvocation (segment : ExecCommandSegment) : Bool :=
  !isPathScopedExecutableToken (JsString.trim (firstWord segment.argv)) &&
    isShellExecutable host segment.argv &&
    !hasPosixInteractiveStartupBeforeInlineCommand segment.argv posixInlineCommandFlags &&
    !hasPosixLoginStartupBeforeInlineCommand segment.argv posixInlineCommandFlags

def wrapperPrefixForStep (step : CommandStep) : String :=
  JsString.slice step.text (step.executableSpan.startIndex - step.span.startIndex)

/-- `/^[A-Za-z_][A-Za-z0-9_]*=/`. -/
def startsWithAssignment : List Char → Bool
  | c :: cs => (c.isAlpha || c = '_') &&
    (cs.dropWhile fun c => c.isAlphanum || c = '_').head? == some '='
  | [] => false

def hasCommandPrelude (step : CommandStep) : Bool :=
  startsWithAssignment ((wrapperPrefixForStep step).toList.dropWhile JsString.isWhitespace)

/-! ## Candidates -/

def shouldPersistCandidate (segment : ExecCommandSegment)
    (relationship : ExecAuthorizationRelationship) (trustMode : ExecAuthorizationTrustMode) :
    Bool :=
  trustMode = .executable &&
    !(relationship = .pipeline && isShellExecutable host segment.argv) && !segment.policyBlocked

/-- What stands before the executable of a step, as reasons not to trust it. -/
def preludeReasons (step : CommandStep) (risks : List CommandRisk) : List String :=
  if hasCommandPrelude step then
    if shellWrapperPreludeReasons step risks = [] then ["shell-env-assignment"]
    else shellWrapperPreludeReasons step risks
  else []

def candidateTrustMode (step : CommandStep) (segment : ExecCommandSegment)
    (transport : ExecAuthorizationTransport) (risks : List CommandRisk) :
    ExecAuthorizationTrustMode :=
  if segment.policyBlocked then .promptOnly
  else if preludeReasons step risks ≠ [] then .promptOnly
  else if transport = .direct &&
      (truthy (host.extractBindableShellWrapperInlineCommand segment.argv)).isSome then
    .exactCommand
  else if stepReasons step risks ≠ [] then .promptOnly
  else .executable

def createCandidate (step : CommandStep) (segment : ExecCommandSegment)
    (relationship : ExecAuthorizationRelationship) (transport : ExecAuthorizationTransport)
    (risks : List CommandRisk) : ExecAuthorizationCandidate where
  sourceSegment := segment
  sourceStep := step
  sourceStepId := truthy step.id
  transport := transport
  trustMode := candidateTrustMode host step segment transport risks
  allowAlways := nonReusableStepReasons step risks = [] &&
    shouldPersistCandidate host segment relationship
      (candidateTrustMode host step segment transport risks)
  reasons := (stepReasons step risks ++ nonReusableStepReasons step risks ++
    preludeReasons step risks).eraseDups

/-! ## Groups -/

/-- `AuthorizationOperator`: a chain operator, or `none` for a pipe. -/
def authorizationOperatorForTopology (operator : CommandOperator) : Option ShellChainOperator :=
  match operator.kind with
  | .and => some .and
  | .or => some .or
  | .pipe | .stderrPipe => none
  | .sequence | .newlineSequence => some .sequence
  | .background => some .background

def finalizeGroup (transport : ExecAuthorizationTransport) (risks : List CommandRisk)
    (steps : List CommandStepWithSegment) (relationship : ExecAuthorizationRelationship)
    (opToNext : Option ShellChainOperator) : ExecAuthorizationGroup where
  opToNext := opToNext
  candidates := steps.map fun entry =>
    createCandidate host entry.step entry.segment
      (if 1 < steps.length then .pipeline else relationship) transport risks

/-- The operator after a command: the last that `operators` has for its id. -/
def operatorAfter (operators : List CommandOperator) (step : CommandStep) :
    Option CommandOperator :=
  (truthy step.id).bind fun id => operators.reverse.find? (·.fromCommandId = id)

/-- The loop of `groupsFromSteps`: `current` is the group that is being built. -/
def collectGroups (finalize : List CommandStepWithSegment → Option ShellChainOperator →
      ExecAuthorizationGroup) (operators : List CommandOperator) :
    List CommandStepWithSegment → List CommandStepWithSegment → List ExecAuthorizationGroup
  | current, [] => if current.isEmpty then [] else [finalize current none]
  | current, entry :: rest =>
    match current.getLast? with
    | none => collectGroups finalize operators [entry] rest
    | some previous =>
      match (operatorAfter operators previous.step).map authorizationOperatorForTopology with
      | some none => collectGroups finalize operators (current ++ [entry]) rest
      | some (some opToNext) =>
        finalize current (some opToNext) :: collectGroups finalize operators [entry] rest
      | none => finalize current (some .sequence) :: collectGroups finalize operators [entry] rest

def groupsFromSteps (steps : List CommandStepWithSegment) (operators : List CommandOperator)
    (transport : ExecAuthorizationTransport) (risks : List CommandRisk) :
    List ExecAuthorizationGroup :=
  let sorted := steps.mergeSort fun left right =>
    decide (left.step.span.startIndex ≤ right.step.span.startIndex)
  if 1 < sorted.length && operators.isEmpty then
    [finalizeGroup host transport risks sorted .pipeline none]
  else
    collectGroups (fun steps => finalizeGroup host transport risks steps .simple) operators []
      sorted

/-! ## Wrapper payloads -/

def shellWrapperRiskForStep (step : CommandStep) (risks : List CommandRisk) :
    Option CommandRisk :=
  risks.find? fun entry => entry.kind = .shellWrapper && riskInsideStep entry step

def positionalCarrierSteps (wrapper : CommandStepWithSegment) (context : PlanningContext) :
    Option (List CommandStepWithSegment) :=
  let inlineMatch := resolveInlineCommandMatch wrapper.segment.argv posixInlineCommandFlags
  match inlineMatch.valueTokenIndex, inlineMatch.command with
  | some valueTokenIndex, some command =>
    if !canUseWrapperShellInvocation host wrapper.segment then none
    else if !isDirectShellPositionalCarrierCommand command then none
    else
      let carriedArgv := (wrapper.segment.argv.drop (valueTokenIndex + 1)).filter
        fun token => JsString.trim token ≠ ""
      let carriedName := normalizeExecutableToken host (firstWord carriedArgv)
      if carriedArgv = [] then none
      else if host.isDispatchWrapperExecutable carriedName ||
          carriedName ∈ positionalCarrierBlockedExecutables || carriedName ∈ posixShellNames ||
          endsWith carriedName "-wrapper" then none
      else
        let carriedSpan : SourceSpan := ⟨wrapper.step.span.endIndex, wrapper.step.span.endIndex⟩
        some [{
          step := {
            id := none
            parentCommandId := none
            context := .wrapperPayload
            executable := firstWord carriedArgv
            argv := carriedArgv
            text := " ".intercalate carriedArgv
            span := carriedSpan
            executableSpan := carriedSpan }
          segment :=
            commandSegmentFromArgv host carriedArgv context wrapper.segment.sourceArgv }]
  | _, _ => none

/-- The nested commands of the wrapper; all of them when it has no id. -/
def nestedStepsOf (wrapperCommandId : Option String) (nestedSteps : List CommandStepWithSegment) :
    List CommandStepWithSegment :=
  match truthy wrapperCommandId with
  | some id => nestedSteps.filter fun entry => entry.step.parentCommandId = some id
  | none => nestedSteps

def shouldUseWrapperPayload (wrapper : CommandStepWithSegment)
    (topLevelSteps nestedSteps : List CommandStepWithSegment) (risks : List CommandRisk) : Bool :=
  topLevelSteps.length = 1 && !nestedSteps.isEmpty &&
    (shellWrapperRiskForStep wrapper.step risks).isSome &&
    canUseReusableWrapperPayloadCandidates host
      ((nestedStepsOf wrapper.step.id nestedSteps).map (·.segment))

def applyWrapperPayloadPersistenceBoundary (wrapper : CommandStepWithSegment)
    (groups : List ExecAuthorizationGroup) : List ExecAuthorizationGroup :=
  if !isUnresolvedPathScopedExecutable wrapper.segment then groups
  else groups.map fun group =>
    { group with candidates := group.candidates.map fun candidate =>
        { candidate with allowAlways := false } }

def wrapperPayloadPlan (context : PlanningContext) (allowNestedPayload : Bool)
    (topLevelSteps nestedSteps : List CommandStepWithSegment) (operators : List CommandOperator)
    (risks : List CommandRisk) : Option (List ExecAuthorizationGroup) :=
  match topLevelSteps with
  | [] => none
  | wrapper :: _ =>
    match shellWrapperRiskForStep wrapper.step risks with
    | none => none
    | some wrapperRisk =>
      if hasCommandPrelude wrapper.step then none
      else if !canUseWrapperShellInvocation host wrapper.segment then none
      else if !allowNestedPayload then none
      else
        let transport := .shellWrapper wrapper.segment wrapper.segment.argv
          (wrapperPrefixForStep wrapper.step) wrapperRisk.payload
        let bounded (groups : List ExecAuthorizationGroup) :=
          if groups = [] then none
          else some (applyWrapperPayloadPersistenceBoundary wrapper groups)
        match positionalCarrierSteps host wrapper context with
        | some carriedSteps => bounded (groupsFromSteps host carriedSteps [] transport risks)
        | none =>
          if !shouldUseWrapperPayload host wrapper topLevelSteps nestedSteps risks then none
          else
            let operatorsForWrapper := match truthy wrapper.step.id with
              | some id => operators.filter fun operator => operator.parentCommandId = some id
              | none => operators
            bounded (groupsFromSteps host (nestedStepsOf wrapper.step.id nestedSteps)
              operatorsForWrapper transport risks)

/-! ## Plans of commands -/

def dialectForArgv (argv : List String) : ExecAuthorizationDialect :=
  let executable := normalizeExecutableToken host (firstWord argv)
  if executable ∈ powershellNames then .powershell
  else if executable ∈ windowsCmdNames then .windowsCmd
  else .argv

def planFromExplanation (command : String) (explanation : CommandExplanation)
    (context : PlanningContext) : ExecAuthorizationPlan :=
  let withSegment (step : CommandStep) : CommandStepWithSegment :=
    ⟨step, commandSegmentFromStep host step context⟩
  let topLevelSteps := explanation.topLevelCommands.map withSegment
  let nestedSteps :=
    (explanation.nestedCommands.filter (·.context = .wrapperPayload)).map withSegment
  let operators := explanation.operators.getD []
  let blockingRisk := hasBlockingRisk explanation
  let canFallBackToExactWrapper := match explanation.topLevelCommands with
    | [topLevelStep] =>
      (shellWrapperRiskForStep topLevelStep explanation.risks).isSome &&
        match findUnanalyzableRisk explanation with
        | some unanalyzableRisk => riskInsideStep unanalyzableRisk topLevelStep
        | none => true
    | _ => false
  if !explanation.ok || (blockingRisk.isSome && !canFallBackToExactWrapper) then
    .unanalyzable .posixShell command (blockingRisk.getD "unable to parse command")
  else
    let payloadPlan := wrapperPayloadPlan host context
      (blockingRisk.isNone &&
        !explanation.shapes.any (· ∈ unsupportedDirectShellTopologyShapes))
      topLevelSteps nestedSteps operators explanation.risks
    let groups := payloadPlan.getD (groupsFromSteps host topLevelSteps
      (operators.filter (·.parentCommandId = none)) .direct explanation.risks)
    if groups.isEmpty then .unanalyzable .posixShell command "no commands to authorize"
    else .ok .posixShell command groups operators

def planShellAuthorization (command : String) (context : PlanningContext) :
    ExecAuthorizationPlan :=
  if context.platform = some "win32" then
    .unanalyzable .windowsCmd command "non-POSIX shell command"
  else
    match host.explainShellCommand command with
    | .ok explanation =>
      planFromExplanation host command explanation
        { context with platform := normalizePlanningPlatform context.platform }
    | .error message => .unanalyzable .posixShell command message

/-- The plan of the command that a single wrapper segment runs, when each of its commands may
stand for itself. -/
def planInlineCommand (command inlineCommand : String) (wrapperSegment : ExecCommandSegment)
    (context : PlanningContext) : Option ExecAuthorizationPlan :=
  match planShellAuthorization host inlineCommand context with
  | .ok _ _ shellGroups operators =>
    let nestedSegments := shellGroups.flatMap fun group => group.candidates.map (·.sourceSegment)
    if canUseReusableWrapperPayloadCandidates host nestedSegments then
      some (.ok .argv command
        (shellGroups.map fun group =>
          { group with candidates := group.candidates.map fun candidate =>
              { candidate with
                transport := .shellWrapper wrapperSegment wrapperSegment.argv "" inlineCommand
                allowAlways := !isUnresolvedPathScopedExecutable wrapperSegment &&
                  candidate.allowAlways } })
        operators)
    else none
  | .unanalyzable .. => none

def planWrapperSegment (command : String) (context : PlanningContext) :
    List ExecCommandSegment → Option ExecAuthorizationPlan
  | [wrapperSegment] =>
    match truthy (host.extractBindableShellWrapperInlineCommand wrapperSegment.argv) with
    | some inlineCommand =>
      if canUseWrapperShellInvocation host wrapperSegment then
        planInlineCommand host command inlineCommand wrapperSegment context
      else none
    | none => none
  | _ => none

/-- A segment of an analysis as a step at its position. -/
def stepOfSegment (context : PlanningContext) (segment : ExecCommandSegment) (index : Nat) :
    CommandStepWithSegment where
  step := {
    id := none
    parentCommandId := none
    context := .topLevel
    executable := firstWord segment.argv
    argv := segment.argv
    text := segment.raw
    span := ⟨index, index + JsString.length segment.raw⟩
    executableSpan := ⟨index, index + JsString.length (firstWord segment.argv)⟩ }
  segment :=
    if segment.resolution = none then
      commandSegmentFromArgv host segment.argv
        { context with platform := normalizePlanningPlatform context.platform } segment.sourceArgv
    else segment

def planExecAuthorization (analysis : ExecCommandAnalysis) (command : Option String)
    (context : PlanningContext) : ExecAuthorizationPlan :=
  let command := command.getD
    ((if analysis.chains.isSome then " && " else " | ").intercalate
      (analysis.segments.map (·.raw)))
  if !analysis.ok then
    .unanalyzable .argv command (analysis.reason.getD "unable to parse command")
  else
    let argv := (analysis.segments.head?.map (·.argv)).getD []
    if dialectForArgv host argv ≠ .argv then
      .unanalyzable (dialectForArgv host argv) command "non-POSIX command wrapper"
    else
      (planWrapperSegment host command context analysis.segments).getD
        (.ok .argv command
          (groupsFromSteps host (analysis.segments.mapIdx fun index segment =>
            stepOfSegment host context segment index) [] .direct [])
          [])

end OpenClaw.Exec
