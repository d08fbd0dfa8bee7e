import OpenClaw.Exec.Allowlist

/-!
# The allowlist fails closed

**Theorem (`allowlist_fails_closed_iff`).** Whichever way an analysis is evaluated, a satisfied
allowlist rests on at least one command, with a reason for each, and lists the same commands in
each of its lists. Two kinds of analysis are exceptions.

* An analysis with no segment, which `evaluateExecAllowlist` turns down: its plan has no group, and
  each of no groups is satisfied.
* An analysis whose chains are not its segments, and whose chained segments have a reason each.

A plan is fail-closed by two invariants of its groups (`Guarded`): each has a candidate, and a
candidate whose wrappers are blocked is left to the prompt.
-/

namespace OpenClaw.Exec

variable {Entry : Type}

/-! ## What it means -/

/-- What an evaluation finds for one candidate. -/
structure Finding (Entry : Type) where
  segment : ExecCommandSegment
  promptOnly : Bool
  entry : Option Entry
  satisfiedBy : Option SatisfiedBy

def segmentFinding (host : AllowlistHost Entry) (context : ExecAllowlistContext Entry)
    (segment : ExecCommandSegment) : Finding Entry where
  segment := segment
  promptOnly := false
  entry := (evaluateSegment host context segment).entry
  satisfiedBy := (evaluateSegment host context segment).satisfiedBy

def candidateFinding (host : AllowlistHost Entry) (context : ExecAllowlistContext Entry)
    (candidate : ExecAuthorizationCandidate) : Finding Entry where
  segment := candidate.sourceSegment
  promptOnly := candidate.trustMode = .promptOnly
  entry := (evaluateAuthorizationCandidate host context candidate).entry
  satisfiedBy := (evaluateAuthorizationCandidate host context candidate).satisfiedBy

/-- The findings of an evaluation by groups: of the candidates of its plan, or without a plan of
the segments of the analysis. -/
def findings (host : AllowlistHost Entry) (analysis : ExecCommandAnalysis)
    (context : ExecAllowlistContext Entry) :
    Option ExecAuthorizationPlan → List (List (Finding Entry))
  | some (.ok _ _ groups _) =>
    groups.map fun group => group.candidates.map (candidateFinding host context)
  | some (.unanalyzable ..) => []
  | none =>
    (resolveAnalysisSegmentGroups analysis).map fun group =>
      group.map (segmentFinding host context)

/-- What a satisfied allowlist must rest on. -/
structure FailClosed (analysis : ExecCommandAnalysis) (groups : List (List (Finding Entry)))
    (evaluation : ExecAllowlistEvaluation Entry) : Prop where
  analysis_ok : analysis.ok = true
  some_candidate : groups.flatten ≠ []
  satisfied : ∀ group ∈ groups, ∀ finding ∈ group, finding.satisfiedBy ≠ none
  blocked : ∀ group ∈ groups, ∀ finding ∈ group,
    finding.promptOnly = true ∨ finding.segment.policyBlocked = true → finding.satisfiedBy = none
  segments : evaluation.segments.getD analysis.segments = groups.flatten.map (·.segment)
  entries : evaluation.segmentAllowlistEntries = groups.flatten.map (·.entry)
  reasons : evaluation.segmentSatisfiedBy = groups.flatten.map (·.satisfiedBy)

/-- Each evaluation of an analysis fails closed, and they agree where there is no segment. -/
structure FailsClosed (host : AllowlistHost Entry) (analysis : ExecCommandAnalysis)
    (command : Option String) (context : ExecAllowlistContext Entry) : Prop where
  sync : (evaluateExecAllowlist host analysis context).allowlistSatisfied = true →
    FailClosed analysis
      (findings host analysis context
        (evaluateExecAllowlist host analysis context).authorizationPlan)
      (evaluateExecAllowlist host analysis context)
  planned :
    (evaluateExecAllowlistWithAuthorization host analysis command context).allowlistSatisfied =
        true →
      FailClosed analysis
        (findings host analysis context
          (evaluateExecAllowlistWithAuthorization host analysis command
            context).authorizationPlan)
        (evaluateExecAllowlistWithAuthorization host analysis command context)
  agree : analysis.segments = [] →
    (evaluateExecAllowlistWithAuthorization host analysis command context).allowlistSatisfied =
      (evaluateExecAllowlist host analysis context).allowlistSatisfied

/-- The plan of the analysis has nothing to authorize. -/
def PlansNothing (host : AllowlistHost Entry) (analysis : ExecCommandAnalysis)
    (context : ExecAllowlistContext Entry) : Prop :=
  analysis.ok = true ∧ analysis.segments = [] ∧
    isWindowsPlatform host.toHost context.platform = false

/-- There is a reason for each chained segment, and these are not the segments. -/
def AllowsOtherChains (host : AllowlistHost Entry) (analysis : ExecCommandAnalysis)
    (context : ExecAllowlistContext Entry) : Prop :=
  analysis.ok = true ∧ analysis.segments ≠ [] ∧
    ∃ chains, analysis.chains = some chains ∧ chains.flatten ≠ analysis.segments ∧
      ∀ group ∈ chains, ∀ segment ∈ group,
        (evaluateSegment host context segment).satisfiedBy ≠ none

/-! ## Groups of a plan -/

/-- A group with a candidate, none of them both blocked and trusted. -/
def ExecAuthorizationGroup.Guarded (group : ExecAuthorizationGroup) : Prop :=
  group.candidates ≠ [] ∧
    ∀ candidate ∈ group.candidates,
      candidate.sourceSegment.policyBlocked = true → candidate.trustMode = .promptOnly

def Guarded (groups : List ExecAuthorizationGroup) : Prop := ∀ group ∈ groups, group.Guarded

theorem finalizeGroup_guarded (host : Host) (transport : ExecAuthorizationTransport)
    (risks : List CommandRisk) {steps : List CommandStepWithSegment} (h : steps ≠ [])
    (relationship : ExecAuthorizationRelationship) (opToNext : Option ShellChainOperator) :
    (finalizeGroup host transport risks steps relationship opToNext).Guarded := by
  constructor
  · simpa [finalizeGroup] using h
  · intro candidate hmem hblocked
    simp only [finalizeGroup, List.mem_map] at hmem
    obtain ⟨entry, -, rfl⟩ := hmem
    show candidateTrustMode host _ _ _ _ = _
    exact if_pos hblocked

theorem collectGroups_guarded {finalize : List CommandStepWithSegment →
      Option ShellChainOperator → ExecAuthorizationGroup}
    (hfinalize : ∀ {steps} (op), steps ≠ [] → (finalize steps op).Guarded)
    (operators : List CommandOperator) (steps current : List CommandStepWithSegment) :
    Guarded (collectGroups finalize operators current steps) ∧
      (current ++ steps ≠ [] → collectGroups finalize operators current steps ≠ []) := by
  induction steps generalizing current with
  | nil =>
    cases current with
    | nil => simp [collectGroups, Guarded]
    | cons entry current =>
      simpa [collectGroups, Guarded] using hfinalize none (List.cons_ne_nil entry current)
  | cons entry steps ih =>
    rw [collectGroups]
    cases hlast : current.getLast? with
    | none =>
      obtain rfl := List.getLast?_eq_none_iff.mp hlast
      exact ⟨(ih [entry]).1, fun _ => (ih [entry]).2 (by simp)⟩
    | some previous =>
      have hcurrent : current ≠ [] := by
        intro hnil
        rw [hnil] at hlast
        cases hlast
      dsimp only
      split
      · exact ⟨(ih _).1, fun _ => (ih _).2 (by simp)⟩
      · exact ⟨List.forall_mem_cons.mpr ⟨hfinalize _ hcurrent, (ih [entry]).1⟩, by simp⟩
      · exact ⟨List.forall_mem_cons.mpr ⟨hfinalize _ hcurrent, (ih [entry]).1⟩, by simp⟩

theorem groupsFromSteps_guarded (host : Host) (steps : List CommandStepWithSegment)
    (operators : List CommandOperator) (transport : ExecAuthorizationTransport)
    (risks : List CommandRisk) :
    Guarded (groupsFromSteps host steps operators transport risks) ∧
      (steps ≠ [] → groupsFromSteps host steps operators transport risks ≠ []) := by
  rw [groupsFromSteps]
  have hlen : (steps.mergeSort fun left right =>
      decide (left.step.span.startIndex ≤ right.step.span.startIndex)).length = steps.length :=
    List.length_mergeSort steps
  generalize steps.mergeSort _ = sorted at hlen ⊢
  have hsorted : steps ≠ [] → sorted ≠ [] := by
    intro hsteps hnil
    rw [hnil] at hlen
    exact hsteps (List.length_eq_zero_iff.mp hlen.symm)
  have hfinalize := fun {steps} (op) (hsteps : steps ≠ []) =>
    finalizeGroup_guarded host transport risks hsteps .simple op
  by_cases hpipe : (decide (1 < sorted.length) && operators.isEmpty) = true
  · rw [if_pos hpipe]
    have hne : sorted ≠ [] := by
      intro hnil
      simp [hnil] at hpipe
    constructor
    · intro group hmem
      rw [List.mem_singleton.mp hmem]
      exact finalizeGroup_guarded host transport risks hne _ _
    · intro _
      exact List.cons_ne_nil _ _
  · rw [if_neg hpipe]
    have hgroups := collectGroups_guarded hfinalize operators sorted []
    exact ⟨hgroups.1, fun hsteps => hgroups.2 (by simpa using hsorted hsteps)⟩

theorem groupsFromSteps_nil (host : Host) (operators : List CommandOperator)
    (transport : ExecAuthorizationTransport) (risks : List CommandRisk) :
    groupsFromSteps host [] operators transport risks = [] := by
  simp [groupsFromSteps, collectGroups]

variable {groups : List ExecAuthorizationGroup}

theorem Guarded.map (h : Guarded groups)
    {f : ExecAuthorizationCandidate → ExecAuthorizationCandidate}
    (hsegment : ∀ candidate, (f candidate).sourceSegment = candidate.sourceSegment)
    (htrust : ∀ candidate, (f candidate).trustMode = candidate.trustMode) :
    Guarded (groups.map fun group => { group with candidates := group.candidates.map f }) := by
  intro group hmem
  obtain ⟨source, hsource, rfl⟩ := List.mem_map.mp hmem
  refine ⟨by simpa using (h source hsource).1, ?_⟩
  intro candidate hcandidate hblocked
  obtain ⟨original, horiginal, rfl⟩ := List.mem_map.mp hcandidate
  rw [hsegment] at hblocked
  rw [htrust]
  exact (h source hsource).2 original horiginal hblocked

theorem applyWrapperPayloadPersistenceBoundary_guarded (wrapper : CommandStepWithSegment)
    (h : Guarded groups) : Guarded (applyWrapperPayloadPersistenceBoundary wrapper groups) := by
  rw [applyWrapperPayloadPersistenceBoundary]
  split
  · exact h
  · exact h.map (fun _ => rfl) fun _ => rfl

/-! ## Plans -/

variable {host : Host} {context : PlanningContext}

theorem wrapperPayloadPlan_guarded {allowNested : Bool}
    {topLevelSteps nestedSteps : List CommandStepWithSegment} {operators : List CommandOperator}
    {risks : List CommandRisk}
    (h : wrapperPayloadPlan host context allowNested topLevelSteps nestedSteps operators risks =
      some groups) : Guarded groups := by
  have hbounded : ∀ wrapper built, Guarded built →
      (if built = [] then none
        else some (applyWrapperPayloadPersistenceBoundary wrapper built)) = some groups →
      Guarded groups := by
    intro wrapper built hbuilt hsome
    split at hsome
    · cases hsome
    · cases hsome
      exact applyWrapperPayloadPersistenceBoundary_guarded wrapper hbuilt
  cases topLevelSteps with
  | nil => cases h
  | cons wrapper rest =>
    simp only [wrapperPayloadPlan] at h
    split at h
    · cases h
    · -- The three conditions on the wrapper, each of which leaves no plan.
      iterate 3
        split at h
        · cases h
      split at h
      · exact hbounded wrapper _ (groupsFromSteps_guarded _ _ _ _ _).1 h
      · split at h
        · cases h
        · exact hbounded wrapper _ (groupsFromSteps_guarded _ _ _ _ _).1 h

/-- A plan that is worth following: some groups, each guarded. -/
def ExecAuthorizationPlan.Sound : ExecAuthorizationPlan → Prop
  | .ok _ _ groups _ => groups ≠ [] ∧ Guarded groups
  | .unanalyzable .. => True

theorem planFromExplanation_sound (host : Host) (command : String)
    (explanation : CommandExplanation) (context : PlanningContext) :
    (planFromExplanation host command explanation context).Sound := by
  rw [planFromExplanation]
  dsimp only
  split_ifs with hblocked hempty
  · trivial
  · trivial
  · refine ⟨by simpa using hempty, ?_⟩
    cases hplan : wrapperPayloadPlan host context _ _ _ _ _ with
    | none => exact (groupsFromSteps_guarded _ _ _ _ _).1
    | some groups => exact wrapperPayloadPlan_guarded hplan

theorem planShellAuthorization_sound (host : Host) (command : String)
    (context : PlanningContext) : (planShellAuthorization host command context).Sound := by
  rw [planShellAuthorization]
  split
  · trivial
  · split
    · exact planFromExplanation_sound host command _ _
    · trivial

variable {plan : ExecAuthorizationPlan}

variable {command : String}

theorem planInlineCommand_sound {inlineCommand : String} {wrapperSegment : ExecCommandSegment}
    (h : planInlineCommand host command inlineCommand wrapperSegment context = some plan) :
    plan.Sound := by
  have hshell := planShellAuthorization_sound host inlineCommand context
  rw [planInlineCommand] at h
  cases hplan : planShellAuthorization host inlineCommand context with
  | unanalyzable => simp [hplan] at h
  | ok dialect original groups operators =>
    rw [hplan] at h hshell
    dsimp only at h
    split_ifs at h
    cases h
    exact ⟨by simpa using hshell.1, hshell.2.map (fun _ => rfl) fun _ => rfl⟩

theorem planWrapperSegment_sound {segments : List ExecCommandSegment}
    (h : planWrapperSegment host command context segments = some plan) :
    segments ≠ [] ∧ plan.Sound := by
  match segments with
  | [] | _ :: _ :: _ => cases h
  | [wrapperSegment] =>
    rw [planWrapperSegment] at h
    refine ⟨List.cons_ne_nil _ _, ?_⟩
    split at h
    · split at h
      · exact planInlineCommand_sound h
      · cases h
    · cases h

theorem normalizeExecutableToken_empty (host : Host) : normalizeExecutableToken host "" = "" := by
  have hbase : basenameLower host "" = "" := by
    have hnone : normalizeOptionalString (some "") = none := by decide +kernel
    have hwin : win32Basename "" = "" := by decide +kernel
    have hposix : posixBasename "" = "" := by decide +kernel
    simp [basenameLower, hwin, hposix, Host.lower, hnone]
  rw [normalizeExecutableToken, hbase]
  decide +kernel

theorem dialectForArgv_nil (host : Host) : dialectForArgv host [] = .argv := by
  have hfirst : firstWord [] = "" := rfl
  simp [dialectForArgv, hfirst, normalizeExecutableToken_empty, powershellNames, windowsCmdNames]

def PlanSpec (analysis : ExecCommandAnalysis) : ExecAuthorizationPlan → Prop
  | .ok _ _ groups _ =>
    analysis.ok = true ∧ Guarded groups ∧ (groups = [] ↔ analysis.segments = [])
  | .unanalyzable .. => ¬ (analysis.ok = true ∧ analysis.segments = [])

variable {analysis : ExecCommandAnalysis}

theorem PlanSpec.of_sound (hok : analysis.ok = true) (hne : analysis.segments ≠ [])
    (h : plan.Sound) : PlanSpec analysis plan := by
  cases plan with
  | ok dialect command groups operators => exact ⟨hok, h.2, iff_of_false h.1 hne⟩
  | unanalyzable => exact fun hnil => hne hnil.2

theorem PlanSpec.direct (host : Host) (hok : analysis.ok = true) (command : String)
    (context : PlanningContext) : PlanSpec analysis (.ok .argv command
      (groupsFromSteps host (analysis.segments.mapIdx fun index segment =>
        stepOfSegment host context segment index) [] .direct []) []) := by
  have hgroups := groupsFromSteps_guarded host (analysis.segments.mapIdx fun index segment =>
    stepOfSegment host context segment index) [] .direct []
  refine ⟨hok, hgroups.1, ?_⟩
  constructor
  · intro hnil
    by_contra hne
    exact hgroups.2 (by simpa using hne) hnil
  · intro hnil
    rw [hnil, List.mapIdx_nil, groupsFromSteps_nil]

theorem planExecAuthorization_spec (host : Host) (analysis : ExecCommandAnalysis)
    (command : Option String) (context : PlanningContext) :
    PlanSpec analysis (planExecAuthorization host analysis command context) := by
  have hdialect : analysis.segments = [] →
      dialectForArgv host ((analysis.segments.head?.map (·.argv)).getD []) = .argv := by
    intro hnil
    rw [hnil, List.head?_nil, Option.map_none, Option.getD_none, dialectForArgv_nil]
  rw [planExecAuthorization]
  dsimp only
  generalize command.getD _ = command
  generalize dialectForArgv host _ = dialect at hdialect ⊢
  by_cases hok : analysis.ok = true
  · rw [if_neg (by simp [hok])]
    by_cases hother : dialect ≠ .argv
    · rw [if_pos hother]
      exact fun hnil => hother (hdialect hnil.2)
    · rw [if_neg hother]
      cases hplan : planWrapperSegment host command context analysis.segments with
      | none => exact PlanSpec.direct host hok command context
      | some plan =>
        have hsound := planWrapperSegment_sound hplan
        exact .of_sound hok hsound.1 hsound.2
  · rw [if_pos (by simpa using hok)]
    exact fun h => hok h.1

/-! ## Evaluating the segments of an analysis -/

section

variable (host : AllowlistHost Entry) (context : ExecAllowlistContext Entry)

theorem evaluateSegment_blocked {segment : ExecCommandSegment} (h : segment.policyBlocked = true) :
    (evaluateSegment host context segment).satisfiedBy = none := by
  rw [evaluateSegment, evaluateSegmentWith]
  simp [h]

section

variable (evaluate : ExecCommandSegment → SegmentEvaluation Entry)

theorem evaluateSegmentsWith_satisfied (segments : List ExecCommandSegment) :
    (evaluateSegmentsWith evaluate segments).satisfied = true ↔
      ∀ segment ∈ segments, (evaluate segment).satisfiedBy ≠ none := by
  induction segments with
  | nil => simp [evaluateSegmentsWith]
  | cons segment segments ih =>
    cases hreason : (evaluate segment).satisfiedBy with
    | none => simp [evaluateSegmentsWith, hreason]
    | some reason => simp [evaluateSegmentsWith, hreason, ih]

theorem evaluateSegmentsWith_lists {segments : List ExecCommandSegment}
    (h : ∀ segment ∈ segments, (evaluate segment).satisfiedBy ≠ none) :
    (evaluateSegmentsWith evaluate segments).segmentAllowlistEntries =
        segments.map (fun segment => (evaluate segment).entry) ∧
      (evaluateSegmentsWith evaluate segments).segmentSatisfiedBy =
        segments.map fun segment => (evaluate segment).satisfiedBy := by
  induction segments with
  | nil => simp [evaluateSegmentsWith]
  | cons segment segments ih =>
    rw [List.forall_mem_cons] at h
    have hrest := ih h.2
    simp [evaluateSegmentsWith, Option.isSome_iff_ne_none.mpr h.1, hrest]

end

def AllReasoned (groups : List (List ExecCommandSegment)) : Prop :=
  ∀ group ∈ groups, ∀ segment ∈ group, (evaluateSegment host context segment).satisfiedBy ≠ none

theorem evaluateGroups_satisfied (hasChains : Bool) (groups : List (List ExecCommandSegment)) :
    (evaluateGroups host context hasChains groups).allowlistSatisfied = true ↔
      AllReasoned host context groups := by
  induction groups with
  | nil => simp [evaluateGroups, AllReasoned]
  | cons group groups ih =>
    have hgroup := evaluateSegmentsWith_satisfied (evaluateSegment host context) group
    rw [AllReasoned, List.forall_mem_cons, ← hgroup, ← AllReasoned, ← ih, evaluateGroups,
      evaluateSegments]
    cases hresult : (evaluateSegmentsWith (evaluateSegment host context) group).satisfied with
    | false => cases hasChains <;> simp
    | true =>
      cases hrest : (evaluateGroups host context hasChains groups).allowlistSatisfied <;>
        simp [hrest]

theorem evaluateGroups_lists (hasChains : Bool) {groups : List (List ExecCommandSegment)}
    (h : AllReasoned host context groups) :
    (evaluateGroups host context hasChains groups).segmentAllowlistEntries =
        groups.flatten.map (fun segment => (evaluateSegment host context segment).entry) ∧
      (evaluateGroups host context hasChains groups).segmentSatisfiedBy =
        groups.flatten.map fun segment => (evaluateSegment host context segment).satisfiedBy := by
  induction groups with
  | nil => simp [evaluateGroups]
  | cons group groups ih =>
    rw [AllReasoned, List.forall_mem_cons] at h
    have hgroup := (evaluateSegmentsWith_satisfied (evaluateSegment host context) group).mpr h.1
    have hrest := (evaluateGroups_satisfied host context hasChains groups).mpr h.2
    have hlists := evaluateSegmentsWith_lists (evaluateSegment host context) h.1
    have hmore := ih h.2
    simp [evaluateGroups, evaluateSegments, hgroup, hrest, hlists, hmore]

theorem evaluateGroups_plain (hasChains : Bool) (groups : List (List ExecCommandSegment)) :
    (evaluateGroups host context hasChains groups).segments = none ∧
      (evaluateGroups host context hasChains groups).authorizationPlan = none := by
  induction groups with
  | nil => exact ⟨rfl, rfl⟩
  | cons group groups ih =>
    rw [evaluateGroups]
    dsimp only
    split_ifs
    · exact ⟨rfl, rfl⟩
    · exact ⟨rfl, rfl⟩
    · exact ih
    · exact ih

theorem evaluateExecAllowlist_plain (analysis : ExecCommandAnalysis) :
    (evaluateExecAllowlist host analysis context).segments = none ∧
      (evaluateExecAllowlist host analysis context).authorizationPlan = none := by
  rw [evaluateExecAllowlist]
  split
  · exact ⟨rfl, rfl⟩
  · exact evaluateGroups_plain host context _ _

theorem evaluateExecAllowlist_satisfied (analysis : ExecCommandAnalysis) :
    (evaluateExecAllowlist host analysis context).allowlistSatisfied = true ↔
      analysis.ok = true ∧ analysis.segments ≠ [] ∧
        AllReasoned host context (resolveAnalysisSegmentGroups analysis) := by
  have hgroups := evaluateGroups_satisfied host context analysis.chains.isSome
    (resolveAnalysisSegmentGroups analysis)
  rw [← hgroups, evaluateExecAllowlist]
  by_cases hok : analysis.ok = true
  · by_cases hnil : analysis.segments = []
    · simp [hok, hnil]
    · simp [hok, hnil]
  · simp [hok]

theorem evaluateExecAllowlist_failClosed
    (h : (evaluateExecAllowlist host analysis context).allowlistSatisfied = true)
    (hchains : (resolveAnalysisSegmentGroups analysis).flatten = analysis.segments) :
    FailClosed analysis
      (findings host analysis context
        (evaluateExecAllowlist host analysis context).authorizationPlan)
      (evaluateExecAllowlist host analysis context) := by
  have hplain := evaluateExecAllowlist_plain host context analysis
  obtain ⟨hok, hne, hall⟩ := (evaluateExecAllowlist_satisfied host context analysis).mp h
  have hlists := evaluateGroups_lists host context analysis.chains.isSome hall
  have heval : evaluateExecAllowlist host analysis context =
      evaluateGroups host context analysis.chains.isSome
        (resolveAnalysisSegmentGroups analysis) := by
    rw [evaluateExecAllowlist]
    simp [hok, hne]
  rw [hplain.2]
  have hflatten : (findings host analysis context none).flatten =
      analysis.segments.map (segmentFinding host context) := by
    rw [findings, ← List.map_flatten, hchains]
  rw [← heval, hchains] at hlists
  refine ⟨hok, ?_, ?_, ?_, ?_, ?_, ?_⟩
  · rw [hflatten]
    simpa using hne
  · intro group hgroup finding hfinding
    obtain ⟨source, hsource, rfl⟩ := List.mem_map.mp hgroup
    obtain ⟨segment, hsegment, rfl⟩ := List.mem_map.mp hfinding
    exact hall source hsource segment hsegment
  · intro group hgroup finding hfinding hblocked
    obtain ⟨source, hsource, rfl⟩ := List.mem_map.mp hgroup
    obtain ⟨segment, hsegment, rfl⟩ := List.mem_map.mp hfinding
    have hsegment : segment.policyBlocked = true := by simpa [segmentFinding] using hblocked
    exact evaluateSegment_blocked host context hsegment
  · simp [hplain.1, hflatten, segmentFinding, Function.comp_def]
  · simp [hlists.1, hflatten, segmentFinding]
  · simp [hlists.2, hflatten, segmentFinding]

end

/-! ## Evaluating a plan -/

section

variable (host : AllowlistHost Entry) (context : ExecAllowlistContext Entry)

theorem evaluateAuthorizationCandidate_promptOnly {candidate : ExecAuthorizationCandidate}
    (h : candidate.trustMode = .promptOnly) :
    (evaluateAuthorizationCandidate host context candidate).satisfiedBy = none := by
  simp [evaluateAuthorizationCandidate, h]

variable {dialect : ExecAuthorizationDialect} {command : String} {operators : List CommandOperator}

theorem evaluateAuthorizationPlan_satisfied :
    (evaluateAuthorizationPlan host (.ok dialect command groups operators)
        context).allowlistSatisfied = true ↔
      ∀ group ∈ groups, ∀ candidate ∈ group.candidates,
        (evaluateAuthorizationCandidate host context candidate).satisfiedBy ≠ none := by
  simp [evaluateAuthorizationPlan, finalizeShellAllowlistEvaluations,
    evaluateAuthorizationPlanGroup, Option.isSome_iff_ne_none]

theorem evaluateAuthorizationPlan_failClosed (hok : analysis.ok = true)
    (hguarded : Guarded groups) (hne : groups ≠ [])
    (h : (evaluateAuthorizationPlan host (.ok dialect command groups operators)
      context).allowlistSatisfied = true) : FailClosed analysis
      (findings host analysis context (some (.ok dialect command groups operators)))
      (evaluateAuthorizationPlan host (.ok dialect command groups operators) context) := by
  have hall := (evaluateAuthorizationPlan_satisfied host context).mp h
  refine ⟨hok, ?_, ?_, ?_, ?_, ?_, ?_⟩
  · obtain ⟨group, rest, rfl⟩ := List.exists_cons_of_ne_nil hne
    have hcandidates := (hguarded group List.mem_cons_self).1
    simp [findings, hcandidates]
  · intro findings hfindings finding hfinding
    obtain ⟨group, hgroup, rfl⟩ := List.mem_map.mp hfindings
    obtain ⟨candidate, hcandidate, rfl⟩ := List.mem_map.mp hfinding
    exact hall group hgroup candidate hcandidate
  · intro findings hfindings finding hfinding hblocked
    obtain ⟨group, hgroup, rfl⟩ := List.mem_map.mp hfindings
    obtain ⟨candidate, hcandidate, rfl⟩ := List.mem_map.mp hfinding
    have hprompt : candidate.trustMode = .promptOnly := by
      rcases hblocked with hprompt | hblocked
      · simpa [candidateFinding] using hprompt
      · exact (hguarded group hgroup).2 candidate hcandidate hblocked
    exact evaluateAuthorizationCandidate_promptOnly host context hprompt
  all_goals
    simp [evaluateAuthorizationPlan, finalizeShellAllowlistEvaluations,
      evaluateAuthorizationPlanGroup, findings, candidateFinding, List.flatMap_def,
      List.map_flatten, Function.comp_def]

end

/-! ## Both paths -/

theorem evaluateExecAllowlistWithAuthorization_cases (host : AllowlistHost Entry)
    (analysis : ExecCommandAnalysis) (command : Option String)
    (context : ExecAllowlistContext Entry) :
    (isWindowsPlatform host.toHost context.platform = true ∧
      evaluateExecAllowlistWithAuthorization host analysis command context =
        evaluateExecAllowlist host analysis context) ∨
    (isWindowsPlatform host.toHost context.platform = false ∧
      ((evaluateExecAllowlistWithAuthorization host analysis command context).allowlistSatisfied =
          false ∧ ¬ (analysis.ok = true ∧ analysis.segments = []) ∨
        ∃ dialect original groups operators,
          evaluateExecAllowlistWithAuthorization host analysis command context =
              evaluateAuthorizationPlan host (.ok dialect original groups operators) context ∧
            analysis.ok = true ∧ Guarded groups ∧ (groups = [] ↔ analysis.segments = []))) := by
  have hspec := planExecAuthorization_spec host.toHost analysis command context.planning
  rw [evaluateExecAllowlistWithAuthorization]
  cases hwin : isWindowsPlatform host.toHost context.platform with
  | true => exact .inl ⟨rfl, if_pos rfl⟩
  | false =>
    refine .inr ⟨rfl, ?_⟩
    cases hplan : planExecAuthorization host.toHost analysis command context.planning with
    | ok dialect original groups operators =>
      rw [hplan] at hspec
      exact .inr ⟨dialect, original, groups, operators, rfl, hspec⟩
    | unanalyzable =>
      rw [hplan] at hspec
      exact .inl ⟨rfl, hspec⟩

theorem evaluateAuthorizationPlan_nil (host : AllowlistHost Entry)
    (context : ExecAllowlistContext Entry) (dialect : ExecAuthorizationDialect)
    (command : String) (operators : List CommandOperator) :
    (evaluateAuthorizationPlan host (.ok dialect command [] operators)
      context).allowlistSatisfied = true := rfl

theorem flatten_groups_of_reasoned {host : AllowlistHost Entry}
    {context : ExecAllowlistContext Entry}
    (h : (evaluateExecAllowlist host analysis context).allowlistSatisfied = true)
    (hchains : ¬ AllowsOtherChains host analysis context) :
    (resolveAnalysisSegmentGroups analysis).flatten = analysis.segments := by
  obtain ⟨hok, hne, hall⟩ := (evaluateExecAllowlist_satisfied host context analysis).mp h
  by_contra hother
  cases hsome : analysis.chains with
  | none => exact hother (by simp [resolveAnalysisSegmentGroups, hsome])
  | some chains =>
    have hgroups : resolveAnalysisSegmentGroups analysis = chains := by
      rw [resolveAnalysisSegmentGroups, hsome, Option.getD_some]
    rw [hgroups] at hother hall
    exact hchains ⟨hok, hne, chains, hsome, hother, hall⟩

/-- **The allowlist fails closed on both paths, with the two exceptions.** -/
theorem allowlist_fails_closed_iff (host : AllowlistHost Entry) (analysis : ExecCommandAnalysis)
    (command : Option String) (context : ExecAllowlistContext Entry) :
    FailsClosed host analysis command context ↔
      ¬ PlansNothing host analysis context ∧ ¬ AllowsOtherChains host analysis context := by
  have hsat := evaluateExecAllowlist_satisfied host context analysis
  have hcases := evaluateExecAllowlistWithAuthorization_cases host analysis command context
  constructor
  · intro hclosed
    constructor
    · rintro ⟨hok, hnil, hwin⟩
      rcases hcases with ⟨hwin', -⟩ | ⟨-, ⟨-, hsome⟩ | ⟨dialect, original, groups, operators,
        heval, -, -, hgroups⟩⟩
      · rw [hwin] at hwin'
        cases hwin'
      · exact hsome ⟨hok, hnil⟩
      · have hagree := hclosed.agree hnil
        rw [heval, hgroups.mpr hnil, evaluateAuthorizationPlan_nil] at hagree
        exact (hsat.mp hagree.symm).2.1 hnil
    · rintro ⟨hok, hne, chains, hchains, hother, hall⟩
      have hgroups : resolveAnalysisSegmentGroups analysis = chains := by
        rw [resolveAnalysisSegmentGroups, hchains, Option.getD_some]
      have hsegments := (hclosed.sync (hsat.mpr ⟨hok, hne, hgroups ▸ hall⟩)).segments
      rw [(evaluateExecAllowlist_plain host context analysis).1, Option.getD_none,
        (evaluateExecAllowlist_plain host context analysis).2, findings, hgroups,
        ← List.map_flatten, List.map_map] at hsegments
      exact hother (hsegments.trans (List.map_id _)).symm
  · rintro ⟨hsome, hchains⟩
    have hsync := fun h =>
      evaluateExecAllowlist_failClosed host context h (flatten_groups_of_reasoned h hchains)
    refine ⟨hsync, ?_, ?_⟩
    · rcases hcases with ⟨-, heval⟩ | ⟨hwin, ⟨hfalse, -⟩ | ⟨dialect, original, groups, operators,
        heval, hok, hguarded, hgroups⟩⟩
      · rw [heval]
        exact hsync
      · intro h
        rw [hfalse] at h
        cases h
      · intro h
        have hne : groups ≠ [] := fun hnil => hsome ⟨hok, hgroups.mp hnil, hwin⟩
        rw [heval] at h ⊢
        exact evaluateAuthorizationPlan_failClosed host context hok hguarded hne h
    · intro hnil
      have hfalse : (evaluateExecAllowlist host analysis context).allowlistSatisfied = false :=
        Bool.eq_false_iff.mpr fun h => (hsat.mp h).2.1 hnil
      rcases hcases with ⟨-, heval⟩ | ⟨hwin, ⟨hplanned, -⟩ | ⟨dialect, original, groups, operators,
        heval, hok, -⟩⟩
      · rw [heval]
      · rw [hfalse, hplanned]
      · exact absurd ⟨hok, hnil, hwin⟩ hsome

/-- A host without files, shells or profiles. -/
def bareHost : AllowlistHost Unit where
  toLowerCase s := .ofList (s.toList.map Char.toLower)
  processPlatform := "linux"
  resolveCommandResolutionFromArgv _ _ := none
  resolveExecutableTrustPath _ := none
  resolvePath path := path
  explainShellCommand _ := .error "unable to parse command"
  analyzeWindowsShellCommand _ _ := ⟨false, none, [], none⟩
  extractBindableShellWrapperInlineCommand _ := none
  isDispatchWrapperExecutable _ := false
  resolveSegmentAllowlistMatch segment _ := ⟨segment.argv, none, none⟩
  isTrustedSafeBinPath _ _ := false
  safeBinProfiles _ := none

/-- On Linux, with nothing allowed, no command is. -/
theorem no_segments_allowed :
    ¬ FailsClosed bareHost ⟨true, none, [], none⟩ none
      ⟨[], [], none, none, none, some "linux", none, none, none, none⟩ := by
  intro hclosed
  have hplanned : (evaluateExecAllowlistWithAuthorization bareHost ⟨true, none, [], none⟩ none
      ⟨[], [], none, none, none, some "linux", none, none, none, none⟩).allowlistSatisfied =
        true := by
    decide +kernel
  rw [hclosed.agree rfl] at hplanned
  cases hplanned

end OpenClaw.Exec
