import OpenClaw.Exec.AuthorizationPlan
import OpenClaw.Lib.Runs
import Mathlib.Data.List.Permutation

/-!
# The groups of a plan cover its steps

`groupsFromSteps` folds over the steps in the order of their positions. Its groups are the maximal
runs of steps that a pipe leaves, and the operator behind a run is the one that leaves its last
step. The operators are looked up by the id of the step, and an empty id counts as none.
-/

namespace OpenClaw.Exec

open Runs

/-! ## What the groups should be -/

/-- The last operator that is listed for the id of the step. -/
def Leaves (operators : List CommandOperator) (step : CommandStep)
    (operator : CommandOperator) : Prop :=
  ∃ before after, operators = before ++ operator :: after ∧
    step.id = some operator.fromCommandId ∧
    ∀ other ∈ after, other.fromCommandId ≠ operator.fromCommandId

def IsPipe (operator : CommandOperator) : Prop :=
  operator.kind = .pipe ∨ operator.kind = .stderrPipe

/-- The groups cover the steps: each step is once among the candidates, in the order of the
positions, two neighbours are in one group exactly when a pipe leaves the first, and the operator
to the next group is the one that leaves the last step, or `;`. -/
structure CoversSteps (leaves : CommandStep → CommandOperator → Prop)
    (steps : List CommandStepWithSegment) (operators : List CommandOperator)
    (groups : List ExecAuthorizationGroup) (sorted : List CommandStepWithSegment) : Prop where
  perm : sorted.Perm steps
  ordered : sorted.Pairwise fun left right =>
    left.step.span.startIndex ≤ right.step.span.startIndex
  candidates : (groups.flatMap (·.candidates)).map (fun c => (c.sourceStep, c.sourceSegment)) =
    sorted.map fun entry => (entry.step, entry.segment)
  nonempty : ∀ group ∈ groups, group.candidates ≠ []
  together : ∀ n a b, sorted[n]? = some a → sorted[n + 1]? = some b →
    (Together (groups.map (·.candidates.length)) n ↔
      (∃ operator, leaves a.step operator ∧ IsPipe operator) ∨ operators = [])
  opToNext : ∀ before group next after, groups = before ++ group :: next :: after →
    ∃ last ∈ group.candidates.getLast?, ∃ op, group.opToNext = some op ∧
      ((∃ operator, leaves last.sourceStep operator ∧
          authorizationOperatorForTopology operator = some op) ∨
        ((∀ operator, ¬ leaves last.sourceStep operator) ∧ op = .sequence))
  lastOp : ∀ before group, groups = before ++ [group] → group.opToNext = none

/-! ## The operator behind a step -/

theorem operatorAfter_eq_some_iff (operators : List CommandOperator) (step : CommandStep)
    (operator : CommandOperator) :
    operatorAfter operators step = some operator ↔
      step.id ≠ some "" ∧ Leaves operators step operator := by
  unfold operatorAfter truthy Leaves
  cases hid : step.id with
  | none => simp
  | some id =>
    by_cases hempty : id = ""
    · rw [hempty, Option.filter_some]
      simp
    · simp only [Option.filter_some, ne_eq, hempty, not_false_eq_true, decide_true, if_true,
        Option.bind_some, List.find?_eq_some_iff_append, decide_eq_true_eq, Option.some.injEq,
        true_and, Bool.not_eq_true', decide_eq_false_iff_not]
      constructor
      · rintro ⟨hfrom, before, after, hsplit, hother⟩
        refine ⟨after.reverse, before.reverse, ?_, hfrom.symm, ?_⟩
        · rw [← List.reverse_reverse operators, hsplit]
          simp
        · intro other hmem
          rw [hfrom]
          exact hother other (List.mem_reverse.1 hmem)
      · rintro ⟨before, after, hsplit, hfrom, hother⟩
        refine ⟨hfrom.symm, after.reverse, before.reverse, ?_, ?_⟩
        · rw [hsplit]
          simp
        · intro other hmem
          rw [hfrom]
          exact hother other (List.mem_reverse.1 hmem)

theorem isPipe_iff (operator : CommandOperator) :
    IsPipe operator ↔ authorizationOperatorForTopology operator = none := by
  unfold IsPipe authorizationOperatorForTopology
  cases operator.kind <;> simp

/-- `operator === "pipe"`. -/
def pipes (operators : List CommandOperator) (entry : CommandStepWithSegment) : Bool :=
  (operatorAfter operators entry.step).map authorizationOperatorForTopology == some none

theorem pipes_iff (operators : List CommandOperator) (entry : CommandStepWithSegment) :
    pipes operators entry = true ↔
      ∃ operator, (entry.step.id ≠ some "" ∧ Leaves operators entry.step operator) ∧
        IsPipe operator := by
  simp only [pipes, beq_iff_eq, Option.map_eq_some_iff, operatorAfter_eq_some_iff, isPipe_iff]

/-- The operator to the group behind a run that ends with the step. -/
def opBehind (operators : List CommandOperator) (entry : CommandStepWithSegment) :
    ShellChainOperator :=
  (((operatorAfter operators entry.step).map authorizationOperatorForTopology).getD
    (some .sequence)).getD .sequence

/-! ## The fold -/

section Collect

variable (finalize : List CommandStepWithSegment → Option ShellChainOperator →
  ExecAuthorizationGroup) (operators : List CommandOperator)

/-- The group of a run that is not the last. -/
def closedGroup (run : List CommandStepWithSegment) : ExecAuthorizationGroup :=
  finalize run (run.getLast?.map (opBehind operators))

theorem collectGroups_run (run rest : List CommandStepWithSegment) (hne : run ≠ [])
    (hchain : run.IsChain fun a _ => pipes operators a) :
    collectGroups finalize operators run rest =
      mapLast (closedGroup finalize operators) (finalize · none)
        ((run ++ rest).splitBy fun a _ => pipes operators a) := by
  induction rest generalizing run with
  | nil =>
    rw [List.append_nil, List.splitBy_of_isChain hne hchain, mapLast_singleton, collectGroups,
      if_neg (by simpa using hne)]
  | cons entry rest ih =>
    obtain ⟨previous, hlast⟩ : ∃ previous, run.getLast? = some previous :=
      ⟨run.getLast hne, List.getLast?_eq_some_getLast hne⟩
    rw [collectGroups, hlast]
    dsimp only
    by_cases hpipe : pipes operators previous = true
    · -- the step goes into the run
      have hop := hpipe
      rw [pipes, beq_iff_eq] at hop
      rw [hop, ih (run ++ [entry]) (by simp) ?_, List.append_assoc, List.singleton_append]
      rw [List.isChain_append]
      refine ⟨hchain, List.isChain_singleton entry, ?_⟩
      intro a ha b _
      rw [hlast, Option.mem_some_iff] at ha
      rw [← ha, hpipe]
    · -- the run is closed
      rw [Bool.not_eq_true] at hpipe
      have hclosed : closedGroup finalize operators run =
          finalize run (some (opBehind operators previous)) := by
        rw [closedGroup, hlast, Option.map_some]
      have hnext := ih [entry] (by simp) (List.isChain_singleton entry)
      rw [List.singleton_append] at hnext
      rw [splitBy_append_cons hchain hlast hpipe, mapLast_cons_of_ne_nil _ _ _ (by simp), hclosed,
        opBehind, ← hnext]
      cases hop : (operatorAfter operators previous.step).map authorizationOperatorForTopology with
      | none => rfl
      | some topology =>
        cases topology with
        | none => simp [pipes, hop] at hpipe
        | some op => rfl

theorem collectGroups_eq (steps : List CommandStepWithSegment) :
    collectGroups finalize operators [] steps =
      mapLast (closedGroup finalize operators) (finalize · none)
        (steps.splitBy fun a _ => pipes operators a) := by
  cases steps with
  | nil => rfl
  | cons entry rest =>
    exact collectGroups_run finalize operators [entry] rest (by simp)
      (List.isChain_singleton entry)

end Collect

/-! ## The groups -/

def ExecAuthorizationCandidate.source (c : ExecAuthorizationCandidate) :
    CommandStep × ExecCommandSegment := (c.sourceStep, c.sourceSegment)

section Groups

variable (host : Host) (transport : ExecAuthorizationTransport) (risks : List CommandRisk)
  (relationship : ExecAuthorizationRelationship)

theorem finalizeGroup_sources (steps : List CommandStepWithSegment)
    (op : Option ShellChainOperator) :
    (finalizeGroup host transport risks steps relationship op).candidates.map
      ExecAuthorizationCandidate.source = steps.map fun entry => (entry.step, entry.segment) := by
  rw [finalizeGroup, List.map_map]
  rfl

theorem finalizeGroup_length (steps : List CommandStepWithSegment)
    (op : Option ShellChainOperator) :
    (finalizeGroup host transport risks steps relationship op).candidates.length =
      steps.length := by
  rw [finalizeGroup, List.length_map]

theorem finalizeGroup_last {steps : List CommandStepWithSegment} {entry : CommandStepWithSegment}
    (op : Option ShellChainOperator) (h : steps.getLast? = some entry) :
    ∃ last ∈ (finalizeGroup host transport risks steps relationship op).candidates.getLast?,
      last.sourceStep = entry.step := by
  refine ⟨createCandidate host entry.step entry.segment
    (if 1 < steps.length then .pipeline else relationship) transport risks, ?_, rfl⟩
  rw [finalizeGroup, List.getLast?_map, h]
  rfl

/-- The groups of these pieces of the steps. -/
def groupsOfPieces (operators : List CommandOperator)
    (pieces : List (List CommandStepWithSegment)) : List ExecAuthorizationGroup :=
  mapLast (closedGroup (fun steps => finalizeGroup host transport risks steps relationship)
    operators) (fun steps => finalizeGroup host transport risks steps relationship none) pieces

variable (operators : List CommandOperator) (pieces : List (List CommandStepWithSegment))

theorem groupsOfPieces_sources :
    ((groupsOfPieces host transport risks relationship operators pieces).flatMap
      (·.candidates)).map ExecAuthorizationCandidate.source =
      pieces.flatten.map fun entry => (entry.step, entry.segment) := by
  rw [List.flatMap_def, List.map_flatten, List.map_map, List.map_flatten, groupsOfPieces,
    map_mapLast]
  · congr 2
    funext run
    exact finalizeGroup_sources host transport risks relationship run none
  · intro run
    exact (finalizeGroup_sources host transport risks relationship run _).trans
      (finalizeGroup_sources host transport risks relationship run none).symm

theorem groupsOfPieces_sizes :
    (groupsOfPieces host transport risks relationship operators pieces).map
      (·.candidates.length) = pieces.map List.length := by
  rw [groupsOfPieces, map_mapLast]
  · congr 1
    funext run
    exact finalizeGroup_length host transport risks relationship run none
  · intro run
    exact (finalizeGroup_length host transport risks relationship run _).trans
      (finalizeGroup_length host transport risks relationship run none).symm

variable {operators pieces}

variable {group : ExecAuthorizationGroup}

theorem groupsOfPieces_nonempty (hne : [] ∉ pieces)
    (h : group ∈ groupsOfPieces host transport risks relationship operators pieces) :
    group.candidates ≠ [] := by
  have hsize := List.mem_map_of_mem (f := fun g => g.candidates.length) h
  rw [groupsOfPieces_sizes, List.mem_map] at hsize
  obtain ⟨run, hrun, hlength⟩ := hsize
  intro hnil
  rw [hnil, List.length_nil, List.length_eq_zero_iff] at hlength
  rw [hlength] at hrun
  exact hne hrun

variable {before : List ExecAuthorizationGroup}

theorem groupsOfPieces_opToNext
    (hcut : pieces.IsChain fun a _ => ∃ entry ∈ a.getLast?, pipes operators entry = false)
    {after : List ExecAuthorizationGroup} {next : ExecAuthorizationGroup}
    (h : groupsOfPieces host transport risks relationship operators pieces =
      before ++ group :: next :: after) :
    ∃ last ∈ group.candidates.getLast?, ∃ entry : CommandStepWithSegment,
      last.sourceStep = entry.step ∧ pipes operators entry = false ∧
        group.opToNext = some (opBehind operators entry) := by
  obtain ⟨pre, run, post, hpieces, hpost, hgroup⟩ := exists_of_mapLast_eq h
  cases post with
  | nil => exact absurd (hpost.1 rfl) (List.cons_ne_nil _ _)
  | cons following post =>
    rw [hpieces] at hcut
    have hrel := (List.isChain_cons_cons.1 (List.isChain_append.1 hcut).2.1).1
    obtain ⟨entry, hlast, hpipe⟩ := hrel
    rw [closedGroup, hlast, Option.map_some] at hgroup
    obtain ⟨last, hmem, hstep⟩ := finalizeGroup_last host transport risks relationship
      (some (opBehind operators entry)) hlast
    rw [hgroup]
    exact ⟨last, hmem, entry, hstep, hpipe, rfl⟩

theorem groupsOfPieces_lastOp
    (h : groupsOfPieces host transport risks relationship operators pieces = before ++ [group]) :
    group.opToNext = none := by
  obtain ⟨pre, run, post, -, -, hgroup⟩ := exists_of_mapLast_eq h
  rw [hgroup]
  rfl

end Groups

variable {operators : List CommandOperator}

theorem opBehind_spec {entry : CommandStepWithSegment} (hpipe : pipes operators entry = false) :
    (∃ operator, (entry.step.id ≠ some "" ∧ Leaves operators entry.step operator) ∧
        authorizationOperatorForTopology operator = some (opBehind operators entry)) ∨
      ((∀ operator, ¬ (entry.step.id ≠ some "" ∧ Leaves operators entry.step operator)) ∧
        opBehind operators entry = .sequence) := by
  simp only [← operatorAfter_eq_some_iff]
  unfold opBehind
  unfold pipes at hpipe
  cases hop : operatorAfter operators entry.step with
  | none =>
    right
    exact ⟨by simp, rfl⟩
  | some operator =>
    left
    refine ⟨operator, rfl, ?_⟩
    cases htopology : authorizationOperatorForTopology operator with
    | none => simp [hop, htopology] at hpipe
    | some op => simp [htopology]

theorem covers_of_pieces (host : Host) (transport : ExecAuthorizationTransport)
    (risks : List CommandRisk) (relationship : ExecAuthorizationRelationship)
    {steps sorted : List CommandStepWithSegment} {pieces : List (List CommandStepWithSegment)}
    (hperm : sorted.Perm steps) (hordered : sorted.Pairwise fun left right =>
      left.step.span.startIndex ≤ right.step.span.startIndex) (hflat : pieces.flatten = sorted)
    (hne : [] ∉ pieces)
    (hcut : pieces.IsChain fun a _ => ∃ entry ∈ a.getLast?, pipes operators entry = false)
    (htogether : ∀ n a b, sorted[n]? = some a → sorted[n + 1]? = some b →
      (Together (pieces.map List.length) n ↔ pipes operators a = true ∨ operators = [])) :
    CoversSteps (fun step operator => step.id ≠ some "" ∧ Leaves operators step operator) steps
      operators (groupsOfPieces host transport risks relationship operators pieces) sorted where
  perm := hperm
  ordered := hordered
  candidates := by
    rw [← hflat]
    exact groupsOfPieces_sources host transport risks relationship operators pieces
  nonempty := fun _ h => groupsOfPieces_nonempty host transport risks relationship hne h
  together := by
    intro n a b ha hb
    rw [groupsOfPieces_sizes, htogether n a b ha hb, pipes_iff]
  opToNext := by
    intro before group next after h
    obtain ⟨last, hmem, entry, hstep, hpipe, hop⟩ :=
      groupsOfPieces_opToNext host transport risks relationship hcut h
    refine ⟨last, hmem, _, hop, ?_⟩
    rw [hstep]
    exact opBehind_spec hpipe
  lastOp := fun _ _ h => groupsOfPieces_lastOp host transport risks relationship h

/-- `steps.toSorted`, by the position. -/
def sortedSteps (steps : List CommandStepWithSegment) : List CommandStepWithSegment :=
  steps.mergeSort fun left right =>
    decide (left.step.span.startIndex ≤ right.step.span.startIndex)

theorem sortedSteps_ordered (steps : List CommandStepWithSegment) :
    (sortedSteps steps).Pairwise fun left right =>
      left.step.span.startIndex ≤ right.step.span.startIndex := by
  have h : (sortedSteps steps).Pairwise fun left right =>
      decide (left.step.span.startIndex ≤ right.step.span.startIndex) = true := by
    apply List.pairwise_mergeSort
    · intro a b c hab hbc
      simp only [decide_eq_true_eq] at hab hbc ⊢
      omega
    · intro a b
      simp only [Bool.or_eq_true, decide_eq_true_eq]
      omega
  exact h.imp fun hle => of_decide_eq_true hle

/-- The groups cover the steps, for any steps and operators. -/
theorem groupsFromSteps_covers (host : Host) (steps : List CommandStepWithSegment)
    (operators : List CommandOperator) (transport : ExecAuthorizationTransport)
    (risks : List CommandRisk) :
    ∃ sorted,
      CoversSteps (fun step operator => step.id ≠ some "" ∧ Leaves operators step operator) steps
        operators (groupsFromSteps host steps operators transport risks) sorted := by
  refine ⟨sortedSteps steps, ?_⟩
  have hperm : (sortedSteps steps).Perm steps := List.mergeSort_perm steps _
  have hordered := sortedSteps_ordered steps
  unfold groupsFromSteps
  rw [← sortedSteps]
  by_cases hmany : 1 < (sortedSteps steps).length ∧ operators = []
  · -- a pipeline without operators
    rw [if_pos (by simpa using hmany)]
    have hflat : [sortedSteps steps].flatten = sortedSteps steps := List.append_nil _
    refine covers_of_pieces host transport risks .pipeline hperm hordered hflat ?_
      (List.isChain_singleton _) ?_
    · rw [List.mem_singleton, eq_comm, ← List.length_eq_zero_iff]
      omega
    · intro n a b _ hb
      obtain ⟨hlt, -⟩ := List.getElem?_eq_some_iff.1 hb
      rw [List.map_singleton, together_singleton]
      exact iff_of_true hlt (.inr hmany.2)
  · rw [if_neg (by simpa using hmany), collectGroups_eq]
    refine covers_of_pieces host transport risks .simple hperm hordered
      (List.flatten_splitBy _ _) (List.nil_notMem_splitBy _ _) ?_ ?_
    · apply (List.isChain_getLast_head_splitBy _ _).imp
      rintro a b ⟨ha, -, hpipe⟩
      exact ⟨a.getLast ha, List.getLast?_eq_some_getLast ha, hpipe⟩
    · intro n a b ha hb
      obtain ⟨hlt, -⟩ := List.getElem?_eq_some_iff.1 hb
      rw [together_splitBy_iff _ ha hb]
      constructor
      · exact .inl
      · rintro (h | h)
        · exact h
        · exact absurd ⟨by omega, h⟩ hmany

/-! ## A step with the empty id -/

def plainHost : Host where
  toLowerCase := id
  processPlatform := "linux"
  resolveCommandResolutionFromArgv _ _ := none
  resolveExecutableTrustPath _ := none
  resolvePath := id
  explainShellCommand _ := .error "no parser"
  analyzeWindowsShellCommand _ _ := ⟨false, none, [], none⟩
  extractBindableShellWrapperInlineCommand _ := none
  isDispatchWrapperExecutable _ := false

def plainStep (id : String) (position : Nat) : CommandStepWithSegment where
  step := {
    id := some id
    parentCommandId := none
    context := .topLevel
    executable := "ls"
    argv := ["ls"]
    text := "ls"
    span := ⟨position, position + 2⟩
    executableSpan := ⟨position, position + 2⟩ }
  segment := ⟨"ls", ["ls"], none, none⟩

/-- The pipe that leaves a step with the empty id is not found. -/
theorem pipe_of_empty_id :
    ¬ ∀ host steps operators transport risks,
      (steps.filterMap fun entry : CommandStepWithSegment => entry.step.id).Nodup →
      ∃ sorted, CoversSteps (Leaves operators) steps operators
        (groupsFromSteps host steps operators transport risks) sorted := by
  intro h
  let operators : List CommandOperator := [⟨"op", .pipe, "", "b", none⟩]
  obtain ⟨sorted, hcovers⟩ := h plainHost [plainStep "" 0, plainStep "b" 5] operators .direct []
    (by decide)
  have hsort : sortedSteps [plainStep "" 0, plainStep "b" 5] =
      [plainStep "" 0, plainStep "b" 5] := by
    apply List.mergeSort_of_pairwise
    decide
  have hgroups : (groupsFromSteps plainHost [plainStep "" 0, plainStep "b" 5] operators .direct
      []).map (·.candidates.length) = [1, 1] := by
    unfold groupsFromSteps
    rw [← sortedSteps, hsort]
    decide
  have hsorted : sorted = [plainStep "" 0, plainStep "b" 5] := by
    have hordered := hcovers.ordered
    rcases List.perm_pair.1 hcovers.perm with h | h
    · exact h
    · rw [h] at hordered
      exact absurd hordered (by decide)
  have hiff := hcovers.together 0 (plainStep "" 0) (plainStep "b" 5) (by rw [hsorted]; rfl)
    (by rw [hsorted]; rfl)
  rw [hgroups] at hiff
  have htogether : Together [1, 1] 0 :=
    hiff.2 (.inl ⟨⟨"op", .pipe, "", "b", none⟩, ⟨[], [], rfl, rfl, nofun⟩, .inl rfl⟩)
  exact absurd htogether (by decide)

end OpenClaw.Exec
