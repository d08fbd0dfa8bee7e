import OpenClaw.Exec.DispatchWrappers

/-!
# `infra/dispatch-wrapper-resolution.ts`: the trust plan

A chain of wrappers is peeled one invocation at a time. A plan that is not blocked trusts the
command at the end as it trusts the whole invocation.

**Main result (`resolveDispatchWrapperTrustPlan_sound_iff`).** A plan that is not blocked is sound
unless the invocation is empty or the chain passes through an `env` whose change of the environment
is hidden.
-/

namespace OpenClaw.Exec

structure DispatchWrapperTrustPlan where
  argv : List String
  wrappers : List String
  policyBlocked : Bool
  blockedWrapper : Option String
  deriving DecidableEq

def blockedDispatchWrapperPlan (argv wrappers : List String) (blockedWrapper : String) :
    DispatchWrapperTrustPlan := ⟨argv, wrappers, true, some blockedWrapper⟩

variable (host : Host) (platform : String)

/-- The plan after the loop: a wrapper that is left over at the depth limit blocks it. -/
def finishTrustPlan (maxDepth : Int) (current wrappers : List String) :
    DispatchWrapperTrustPlan :=
  if maxDepth ≤ wrappers.length then
    match unwrapKnownDispatchWrapperInvocation host current platform with
    | .blocked wrapper | .unwrapped wrapper _ => blockedDispatchWrapperPlan current wrappers wrapper
    | .notWrapper => ⟨current, wrappers, false, none⟩
  else ⟨current, wrappers, false, none⟩

/-- The loop, with so many rounds left. -/
def planDispatchWrappers (maxDepth : Int) : (rounds : Nat) → (current wrappers : List String) →
    DispatchWrapperTrustPlan
  | 0, current, wrappers => finishTrustPlan host platform maxDepth current wrappers
  | rounds + 1, current, wrappers =>
    match unwrapKnownDispatchWrapperInvocation host current platform with
    | .blocked wrapper => blockedDispatchWrapperPlan current wrappers wrapper
    | .notWrapper => finishTrustPlan host platform maxDepth current wrappers
    | .unwrapped wrapper argv =>
      if argv = [] then finishTrustPlan host platform maxDepth current wrappers
      else if isSemanticDispatchWrapperUsage host wrapper current platform then
        blockedDispatchWrapperPlan current (wrappers ++ [wrapper]) wrapper
      else planDispatchWrappers maxDepth rounds argv (wrappers ++ [wrapper])

def resolveDispatchWrapperTrustPlan (argv : List String) (maxDepth : Int) :
    DispatchWrapperTrustPlan :=
  planDispatchWrappers host platform maxDepth maxDepth.toNat argv []

/-! ## Chains of wrappers -/

/-- An invocation that was unwrapped, and the command it runs. -/
structure Peel where
  wrapper : String
  argv : List String
  command : List String

/-- Each invocation is the command of the one before it, the first is `argv`, the last command is
`command`. -/
inductive Peels : (argv : List String) → List Peel → (command : List String) → Prop
  | nil (argv : List String) : Peels argv [] argv
  | cons {argv rest command : List String} {wrapper : String} {peels : List Peel}
      (hunwrapped : unwrapKnownDispatchWrapperInvocation host argv platform =
        .unwrapped wrapper rest)
      (hpeels : Peels rest peels command) : Peels argv (⟨wrapper, argv, rest⟩ :: peels) command

/-- What a plan that is not blocked has to be for an invocation. -/
structure DispatchWrapperTrustPlan.Sound (plan : DispatchWrapperTrustPlan) (argv : List String)
    (maxDepth : Int) : Prop where
  nonempty : plan.argv ≠ []
  lastWords : plan.argv <:+ argv
  notWrapper : unwrapKnownDispatchWrapperInvocation host plan.argv platform = .notWrapper
  depth : plan.wrappers.length ≤ maxDepth.toNat
  replanned : resolveDispatchWrapperTrustPlan host platform plan.argv maxDepth =
    ⟨plan.argv, [], false, none⟩
  peeled : ∃ peels, Peels host platform argv peels plan.argv ∧
    plan.wrappers = peels.map (·.wrapper) ∧
    ∀ peel ∈ peels, ¬ChangesChild host peel.wrapper peel.argv peel.command

/-- The use of each wrapper of the chain is transparent, and a command that is no wrapper ends it. -/
structure TransparentChain (argv : List String) (peels : List Peel) (command : List String) :
    Prop where
  chain : Peels host platform argv peels command
  transparent : ∀ peel ∈ peels,
    isSemanticDispatchWrapperUsage host peel.wrapper peel.argv platform = false
  notWrapper : unwrapKnownDispatchWrapperInvocation host command platform = .notWrapper

/-! ## What is planned -/

section

variable {host : Host} {platform : String}

variable {maxDepth : Int}

variable {current : List String}

theorem finishTrustPlan_of_notWrapper (wrappers : List String)
    (h : unwrapKnownDispatchWrapperInvocation host current platform = .notWrapper) :
    finishTrustPlan host platform maxDepth current wrappers = ⟨current, wrappers, false, none⟩ := by
  rw [finishTrustPlan, h]
  exact ite_self _

variable {wrappers : List String}

theorem finishTrustPlan_unblocked (hdepth : maxDepth ≤ wrappers.length)
    (h : (finishTrustPlan host platform maxDepth current wrappers).policyBlocked = false) :
    unwrapKnownDispatchWrapperInvocation host current platform = .notWrapper := by
  rw [finishTrustPlan, if_pos hdepth] at h
  cases hunwrap : unwrapKnownDispatchWrapperInvocation host current platform with
  | notWrapper => rfl
  | blocked wrapper =>
    rw [hunwrap] at h
    cases h
  | unwrapped wrapper argv =>
    rw [hunwrap] at h
    cases h

variable {argv command : List String} {peels : List Peel}

variable {rounds : Nat}

theorem planDispatchWrappers_of_chain (wrappers : List String)
    (h : TransparentChain host platform argv peels command) (hrounds : peels.length ≤ rounds) :
    planDispatchWrappers host platform maxDepth rounds argv wrappers =
      ⟨command, wrappers ++ peels.map (·.wrapper), false, none⟩ := by
  obtain ⟨hpeels, htransparent, hlast⟩ := h
  induction hpeels generalizing rounds wrappers with
  | nil argv =>
    rw [List.map_nil, List.append_nil]
    cases rounds with
    | zero => exact finishTrustPlan_of_notWrapper wrappers hlast
    | succ rounds =>
      rw [planDispatchWrappers, hlast]
      exact finishTrustPlan_of_notWrapper wrappers hlast
  | @cons argv rest command wrapper peels hunwrapped hpeels ih =>
    rw [List.forall_mem_cons] at htransparent
    obtain ⟨hfirst, hothers⟩ := htransparent
    cases rounds with
    | zero => exact absurd hrounds (Nat.not_succ_le_zero _)
    | succ rounds =>
      have hne := (unwrapKnownDispatchWrapperInvocation_spec hunwrapped hfirst).1
      rw [planDispatchWrappers, hunwrapped]
      dsimp only
      rw [if_neg hne, hfirst, if_neg Bool.false_ne_true,
        ih (wrappers ++ [wrapper]) (Nat.le_of_succ_le_succ hrounds) hothers hlast,
        List.append_assoc]
      rfl

theorem chain_of_planDispatchWrappers (hdepth : wrappers.length + rounds = maxDepth.toNat)
    (h : (planDispatchWrappers host platform maxDepth rounds argv wrappers).policyBlocked = false) :
    ∃ peels command, TransparentChain host platform argv peels command ∧
      peels.length ≤ rounds := by
  induction rounds generalizing argv wrappers with
  | zero =>
    have hlast := finishTrustPlan_unblocked (by omega) h
    exact ⟨[], argv, ⟨.nil argv, by simp, hlast⟩, Nat.le_refl 0⟩
  | succ rounds ih =>
    rw [planDispatchWrappers] at h
    cases hunwrap : unwrapKnownDispatchWrapperInvocation host argv platform with
    | notWrapper => exact ⟨[], argv, ⟨.nil argv, by simp, hunwrap⟩, Nat.zero_le _⟩
    | blocked wrapper =>
      rw [hunwrap] at h
      cases h
    | unwrapped wrapper rest =>
      rw [hunwrap] at h
      dsimp only at h
      rw [if_neg (unwrapKnown_ne_nil hunwrap)] at h
      by_cases hsemantic : isSemanticDispatchWrapperUsage host wrapper argv platform = true
      · rw [if_pos hsemantic] at h
        cases h
      · rw [if_neg hsemantic] at h
        obtain ⟨peels, command, ⟨hchain, htransparent, hlast⟩, hlength⟩ := ih (by simp; omega) h
        refine ⟨⟨wrapper, argv, rest⟩ :: peels, command, ⟨.cons hunwrap hchain, ?_, hlast⟩,
          Nat.succ_le_succ hlength⟩
        exact List.forall_mem_cons.2 ⟨eq_false_of_ne_true hsemantic, htransparent⟩

theorem peels_unique {first second : List String} {others : List Peel}
    (hfirst : Peels host platform argv peels first)
    (hsecond : Peels host platform argv others second)
    (hfirstEnd : unwrapKnownDispatchWrapperInvocation host first platform = .notWrapper)
    (hsecondEnd : unwrapKnownDispatchWrapperInvocation host second platform = .notWrapper) :
    peels = others ∧ first = second := by
  induction hfirst generalizing others with
  | nil argv =>
    cases hsecond with
    | nil => exact ⟨rfl, rfl⟩
    | cons hunwrapped =>
      rw [hunwrapped] at hfirstEnd
      cases hfirstEnd
  | cons hunwrapped hpeels ih =>
    cases hsecond with
    | nil =>
      rw [hunwrapped] at hsecondEnd
      cases hsecondEnd
    | cons hunwrapped' hpeels' =>
      rw [hunwrapped] at hunwrapped'
      cases hunwrapped'
      obtain ⟨rfl, rfl⟩ := ih hpeels' hfirstEnd
      exact ⟨rfl, rfl⟩

theorem TransparentChain.lastWords (h : TransparentChain host platform argv peels command) :
    command <:+ argv := by
  obtain ⟨hpeels, htransparent, -⟩ := h
  induction hpeels with
  | nil argv => exact List.suffix_refl argv
  | cons hunwrapped hpeels ih =>
    rw [List.forall_mem_cons] at htransparent
    have hsuffix := (unwrapKnownDispatchWrapperInvocation_spec hunwrapped htransparent.1).2
    exact (ih htransparent.2).trans (hsuffix.trans (List.tail_suffix _))

theorem TransparentChain.nonempty (h : TransparentChain host platform argv peels command)
    (hargv : argv ≠ []) : command ≠ [] := by
  obtain ⟨hpeels, -, -⟩ := h
  induction hpeels with
  | nil argv => exact hargv
  | cons hunwrapped hpeels ih => exact ih (unwrapKnown_ne_nil hunwrapped)

theorem Peels.unwrapped (h : Peels host platform argv peels command) :
    ∀ peel ∈ peels, unwrapKnownDispatchWrapperInvocation host peel.argv platform =
      .unwrapped peel.wrapper peel.command := by
  induction h with
  | nil argv => simp
  | cons hunwrapped hpeels ih => exact List.forall_mem_cons.2 ⟨hunwrapped, ih⟩

theorem unwrapKnown_nil : unwrapKnownDispatchWrapperInvocation host [] platform = .notWrapper := by
  rfl

end

/-- A plan that is not blocked is sound, if and only if there is an invocation and no `env` of its
chain begins with a lone `-` or hides an assignment. -/
theorem resolveDispatchWrapperTrustPlan_sound_iff (argv : List String) (maxDepth : Int) :
    ((resolveDispatchWrapperTrustPlan host platform argv maxDepth).policyBlocked = false →
      (resolveDispatchWrapperTrustPlan host platform argv maxDepth).Sound host platform argv
        maxDepth) ↔
    argv ≠ [] ∧ ∀ peels command, TransparentChain host platform argv peels command →
      peels.length ≤ maxDepth.toNat →
        ∀ peel ∈ peels, peel.wrapper = "env" → hiddenEnvChange peel.argv.tail = false := by
  constructor
  · intro hsound
    have hplan {peels : List Peel} {command : List String}
        (hchain : TransparentChain host platform argv peels command)
        (hlength : peels.length ≤ maxDepth.toNat) :
        resolveDispatchWrapperTrustPlan host platform argv maxDepth =
          ⟨command, peels.map (·.wrapper), false, none⟩ :=
      planDispatchWrappers_of_chain [] hchain hlength
    refine ⟨?_, ?_⟩
    · intro hnil
      subst hnil
      have hempty := hplan ⟨.nil [], by simp, unwrapKnown_nil⟩ (Nat.zero_le _)
      rw [hempty] at hsound
      exact (hsound rfl).nonempty rfl
    · intro peels command hchain hlength peel hpeel henv
      rw [hplan hchain hlength] at hsound
      obtain ⟨others, hothers, -, hkeeps⟩ := (hsound rfl).peeled
      obtain ⟨rfl, -⟩ := peels_unique hchain.chain hothers hchain.notWrapper hchain.notWrapper
      have hunwrapped := hchain.chain.unwrapped peel hpeel
      have hchanges := mt (changesChild_iff hunwrapped (hchain.transparent peel hpeel)).2
        (hkeeps peel hpeel)
      rw [not_and] at hchanges
      exact eq_false_of_ne_true (hchanges henv)
  · intro hcondition hunblocked
    obtain ⟨hne, henvs⟩ := hcondition
    obtain ⟨peels, command, hchain, hlength⟩ :=
      chain_of_planDispatchWrappers (by simp) hunblocked
    have hplan : resolveDispatchWrapperTrustPlan host platform argv maxDepth =
        ⟨command, peels.map (·.wrapper), false, none⟩ :=
      planDispatchWrappers_of_chain [] hchain hlength
    rw [hplan]
    refine ⟨hchain.nonempty hne, hchain.lastWords, hchain.notWrapper, ?_, ?_, peels, hchain.chain,
      rfl, ?_⟩
    · rw [List.length_map]
      exact hlength
    · exact planDispatchWrappers_of_chain [] ⟨.nil command, by simp, hchain.notWrapper⟩
        (Nat.zero_le _)
    · intro peel hpeel hchanges
      have hunwrapped := hchain.chain.unwrapped peel hpeel
      obtain ⟨henv, hhidden⟩ :=
        (changesChild_iff hunwrapped (hchain.transparent peel hpeel)).1 hchanges
      rw [henvs peels command hchain hlength peel hpeel henv] at hhidden
      cases hhidden

def posixHost : Host where
  toLowerCase := id
  processPlatform := "linux"
  resolveCommandResolutionFromArgv _ _ := none
  resolveExecutableTrustPath _ := none
  resolvePath := id
  explainShellCommand _ := .error "no parser"
  analyzeWindowsShellCommand _ _ := ⟨false, none, [], none⟩
  extractBindableShellWrapperInlineCommand _ := none
  isDispatchWrapperExecutable _ := false

/-- `env - printenv` empties the environment, and is planned as `printenv`. -/
theorem lone_dash_trusted :
    ¬ ∀ host platform argv maxDepth,
      (resolveDispatchWrapperTrustPlan host platform argv maxDepth).policyBlocked = false →
        (resolveDispatchWrapperTrustPlan host platform argv maxDepth).Sound host platform argv
          maxDepth := by
  intro h
  have hplan : resolveDispatchWrapperTrustPlan posixHost "linux" ["env", "-", "printenv"] 4 =
      ⟨["printenv"], ["env"], false, none⟩ := by decide +kernel
  have hunwrapped : unwrapKnownDispatchWrapperInvocation posixHost ["env", "-", "printenv"]
      "linux" = .unwrapped "env" ["printenv"] := by decide +kernel
  have hlast : unwrapKnownDispatchWrapperInvocation posixHost ["printenv"] "linux" =
      .notWrapper := by decide +kernel
  have hsound := h posixHost "linux" ["env", "-", "printenv"] 4
  rw [hplan] at hsound
  obtain ⟨peels, hpeels, -, hkeeps⟩ := (hsound rfl).peeled
  obtain ⟨rfl, -⟩ := peels_unique (.cons hunwrapped (.nil ["printenv"])) hpeels hlast hlast
  exact hkeeps _ (List.mem_cons_self ..) (.inr (.inr (.inl ⟨rfl, rfl⟩)))

end OpenClaw.Exec
