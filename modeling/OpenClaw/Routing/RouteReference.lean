import OpenClaw.Routing.BindingIndex

/-!
# Routing without an index

The route of a call, from the bindings in the order of the configuration: the tiers in their order,
and in each the first binding whose constraints the call meets.

* `Serves`: a tier of `resolveAgentRoute` finds what the reference finds in it.
* `firstMatch_routeTiers`: the index hides no binding, whatever the tier.
-/

namespace OpenClaw.Routing

open EvaluatedBinding

/-! ## The reference -/

/-- The parent peer counts if it has an id. -/
def RouteScope.parent (scope : RouteScope) : Option RoutePeer :=
  scope.parentPeer.filter fun peer => peer.id ≠ ""

/-- The binding belongs to the tier, and the call meets its constraints. -/
def inTier (scope : RouteScope) (binding : EvaluatedBinding) : MatchedBy → Bool
  | .bindingPeer =>
    binding.constraint.peer.isValid && matchesBindingScope binding.constraint scope.peer scope
  | .bindingPeerParent =>
    binding.constraint.peer.isValid && matchesBindingScope binding.constraint scope.parent scope
  | .bindingPeerWildcard =>
    binding.constraint.peer.isWildcardKind &&
      matchesBindingScope binding.constraint scope.peer scope
  | .bindingGuildRoles =>
    (binding.constraint.guildId.isSome && binding.constraint.roles.isSome) &&
      matchesBindingScope binding.constraint scope.peer scope
  | .bindingGuild =>
    (binding.constraint.guildId.isSome && !binding.constraint.roles.isSome) &&
      matchesBindingScope binding.constraint scope.peer scope
  | .bindingTeam =>
    binding.constraint.teamId.isSome && matchesBindingScope binding.constraint scope.peer scope
  | .bindingAccount =>
    binding.constraint.accountPattern ≠ "*" &&
      matchesBindingScope binding.constraint scope.peer scope
  | .bindingChannel =>
    binding.constraint.accountPattern = "*" &&
      matchesBindingScope binding.constraint scope.peer scope
  | .default => false

def tierOrder : List MatchedBy :=
  [.bindingPeer, .bindingPeerParent, .bindingPeerWildcard, .bindingGuildRoles, .bindingGuild,
    .bindingTeam, .bindingAccount, .bindingChannel]

/-- The first tier with a binding, and its first binding. -/
def referenceMatch (scope : RouteScope) (bindings : List EvaluatedBinding)
    (tiers : List MatchedBy) : Option (MatchedBy × EvaluatedBinding) :=
  tiers.findSome? fun tier => (bindings.find? fun binding => inTier scope binding tier).map (tier, ·)

/-- The bindings of the channel whose account constraint the call meets. -/
def scopeBindings (lang : Lowercasing) (cfg : RouteConfig) (scope : RouteScope) :
    List EvaluatedBinding :=
  (channelBindings lang cfg scope.channel).filter (·.accountMatches lang scope.accountId)

/-- The route of a call, with nothing kept between calls. -/
def referenceRoute (lang : Lowercasing) (cfg : RouteConfig) (input : ResolveAgentRouteInput) :
    ResolvedAgentRoute :=
  let scope := routeScope lang input
  routeOf lang cfg (buildAgentLookup lang cfg) scope
    (referenceMatch scope (scopeBindings lang cfg scope) tierOrder)

/-! ## What a tier has to find -/

variable {scope : RouteScope} {bindings : List EvaluatedBinding} {tier : RouteTier}
  {tiers : List RouteTier} {names : List MatchedBy} {binding : EvaluatedBinding}

/-- No binding is in the tier. -/
def NoneIn (scope : RouteScope) (bindings : List EvaluatedBinding) (name : MatchedBy) : Prop :=
  ∀ binding ∈ bindings, inTier scope binding name = false

/-- The tier looks among some of the bindings, and those of its own are among them. -/
structure Serves (scope : RouteScope) (bindings : List EvaluatedBinding) (tier : RouteTier) :
    Prop where
  holds : ∀ binding, (tier.predicate binding &&
    matchesBindingScope binding.constraint tier.scopePeer scope) =
      inTier scope binding tier.matchedBy
  disabled : tier.enabled = false → NoneIn scope bindings tier.matchedBy
  filed : tier.enabled = true → ∃ q : EvaluatedBinding → Bool,
    tier.candidates = bindings.filter q ∧
      ∀ binding ∈ bindings, inTier scope binding tier.matchedBy = true → q binding = true

variable {name : MatchedBy}

theorem find?_eq_none_of_noneIn (h : NoneIn scope bindings name) :
    (bindings.find? fun binding => inTier scope binding name) = none :=
  List.find?_eq_none.2 fun binding hmem => Bool.eq_false_iff.1 (h binding hmem)

example (binding : EvaluatedBinding) : inTier scope binding .default = false := by rw [inTier]

theorem Serves.found (h : Serves scope bindings tier) :
    (if tier.enabled then tier.candidates.find? fun candidate => tier.predicate candidate &&
        matchesBindingScope candidate.constraint tier.scopePeer scope else none) =
      bindings.find? fun binding => inTier scope binding tier.matchedBy := by
  simp only [h.holds]
  cases henabled : tier.enabled with
  | false => exact (find?_eq_none_of_noneIn (h.disabled henabled)).symm
  | true =>
    obtain ⟨q, hcandidates, hq⟩ := h.filed henabled
    rw [if_pos rfl, hcandidates, ← List.head?_filter, ← List.head?_filter, List.filter_filter]
    refine congrArg List.head? (List.filter_congr fun binding hmem => ?_)
    cases hin : inTier scope binding tier.matchedBy with
    | false => simp
    | true => simp [hq binding hmem hin]

theorem firstMatch_cons (h : Serves scope bindings tier)
    (hrest : NoneIn scope bindings tier.matchedBy →
      firstMatch scope tiers = referenceMatch scope bindings names) :
    firstMatch scope (tier :: tiers) =
      referenceMatch scope bindings (tier.matchedBy :: names) := by
  rw [firstMatch, h.found, referenceMatch, List.findSome?_cons]
  cases hfound : bindings.find? fun binding => inTier scope binding tier.matchedBy with
  | some binding => rfl
  | none =>
    refine hrest fun binding hmem => ?_
    exact Bool.eq_false_iff.2 (List.find?_eq_none.1 hfound binding hmem)

/-! ## What a match says -/

theorem scopeIdMatches_some {id exact : String} (hid : id ≠ "")
    (h : scopeIdMatches (some id) exact = true) : id = exact := by
  simpa [scopeIdMatches, hid] using h

/-- The ids and roles of the bindings are not empty, and those of the call are trimmed. -/
structure Normalized (scope : RouteScope) (bindings : List EvaluatedBinding) : Prop where
  guildId : ∀ binding ∈ bindings, binding.constraint.guildId ≠ some ""
  teamId : ∀ binding ∈ bindings, binding.constraint.teamId ≠ some ""
  roles : ∀ binding ∈ bindings, binding.constraint.roles ≠ some []
  scopeGuildId : JsString.trim scope.guildId = scope.guildId
  scopeTeamId : JsString.trim scope.teamId = scope.teamId
  orders : (bindings.map (·.order)).Nodup

section

variable {peer : Option RoutePeer}

theorem scope_of_matches (h : matchesBindingScope binding.constraint peer scope = true) :
    routeBindingScopeMatches binding.constraint scope = true := (Bool.and_eq_true_iff.1 h).2

section

variable (hn : Normalized scope bindings)
include hn

theorem guildId_of_matches (hmem : binding ∈ bindings)
    (h : matchesBindingScope binding.constraint peer scope = true) {guildId : String}
    (hguild : binding.constraint.guildId = some guildId) :
    guildId = scope.guildId ∧ scope.guildId ≠ "" := by
  have hscope := scope_of_matches h
  simp only [routeBindingScopeMatches, Bool.and_eq_true, hguild] at hscope
  have hne : guildId ≠ "" := fun hempty => hn.guildId binding hmem (hempty ▸ hguild)
  have hexact := scopeIdMatches_some hne hscope.1.1
  have heq : guildId = scope.guildId := hexact.trans hn.scopeGuildId
  exact ⟨heq, heq ▸ hne⟩

theorem teamId_of_matches (hmem : binding ∈ bindings)
    (h : matchesBindingScope binding.constraint peer scope = true) {teamId : String}
    (hteam : binding.constraint.teamId = some teamId) :
    teamId = scope.teamId ∧ scope.teamId ≠ "" := by
  have hscope := scope_of_matches h
  simp only [routeBindingScopeMatches, Bool.and_eq_true, hteam] at hscope
  have hne : teamId ≠ "" := fun hempty => hn.teamId binding hmem (hempty ▸ hteam)
  have hexact := scopeIdMatches_some hne hscope.1.2
  have heq : teamId = scope.teamId := hexact.trans hn.scopeTeamId
  exact ⟨heq, heq ▸ hne⟩

theorem memberRoleIds_of_matches (hmem : binding ∈ bindings)
    (h : matchesBindingScope binding.constraint peer scope = true)
    (hroles : binding.constraint.roles.isSome = true) : 0 < scope.memberRoleIds.length := by
  obtain ⟨roles, hroles⟩ := Option.isSome_iff_exists.1 hroles
  have hne : roles ≠ [] := fun hempty => hn.roles binding hmem (hempty ▸ hroles)
  have hscope := scope_of_matches h
  have hkept : normalizeRouteBindingRoles (some roles) = some roles := by
    simp [normalizeRouteBindingRoles, hne]
  simp only [routeBindingScopeMatches, hroles, hkept, Bool.and_eq_true, List.any_eq_true] at hscope
  obtain ⟨-, role, -, hrole⟩ := hscope
  exact List.length_pos_of_mem (List.contains_iff_mem.1 hrole)

end

end

/-! ## The eight tiers -/

variable (hn : Normalized scope bindings)

theorem not_restricted (hpeer : NoneIn scope bindings .bindingPeer)
    (hwildcard : NoneIn scope bindings .bindingPeerWildcard) (hmem : binding ∈ bindings)
    (h : matchesBindingScope binding.constraint scope.peer scope = true) :
    binding.restricted = false := by
  have hvalid := hpeer binding hmem
  have hkind := hwildcard binding hmem
  simp only [inTier, h, Bool.and_true] at hvalid hkind
  rw [restricted, hvalid, hkind]
  rfl

theorem guildId_eq_none (hroles : NoneIn scope bindings .bindingGuildRoles)
    (hguild : NoneIn scope bindings .bindingGuild) (hmem : binding ∈ bindings)
    (h : matchesBindingScope binding.constraint scope.peer scope = true) :
    binding.constraint.guildId = none := by
  have hwith := hroles binding hmem
  have hwithout := hguild binding hmem
  simp only [inTier, h, Bool.and_true] at hwith hwithout
  cases hid : binding.constraint.guildId with
  | none => rfl
  | some id =>
    rw [hid] at hwith hwithout
    cases hrole : binding.constraint.roles.isSome <;> rw [hrole] at hwith hwithout <;>
      contradiction

theorem teamId_eq_none (hteam : NoneIn scope bindings .bindingTeam) (hmem : binding ∈ bindings)
    (h : matchesBindingScope binding.constraint scope.peer scope = true) :
    binding.constraint.teamId = none := by
  have hnone := hteam binding hmem
  simp only [inTier, h, Bool.and_true] at hnone
  simpa using hnone

variable {peer : Option RoutePeer}

theorem hasPeer_of_matches (hvalid : binding.constraint.peer.isValid = true)
    (h : matchesBindingScope binding.constraint peer scope = true) :
    ∃ found, peer = some found ∧ binding.hasPeer found = true := by
  have hmatch := (Bool.and_eq_true_iff.1 h).1
  cases hconstraint : binding.constraint.peer with
  | valid kind id =>
    rw [hconstraint] at hmatch
    cases peer with
    | none => cases hmatch
    | some found =>
      simp only [Bool.and_eq_true, beq_iff_eq] at hmatch
      refine ⟨found, rfl, ?_⟩
      simp [hasPeer, hconstraint, hmatch]
  | none | invalid | wildcardKind _ =>
    rw [hconstraint] at hvalid
    cases hvalid

theorem peer_of_matches_wildcard (hwildcard : binding.constraint.peer.isWildcardKind = true)
    (h : matchesBindingScope binding.constraint peer scope = true) : peer.isSome = true := by
  have hmatch := (Bool.and_eq_true_iff.1 h).1
  cases hconstraint : binding.constraint.peer with
  | wildcardKind kind =>
    rw [hconstraint] at hmatch
    cases peer with
    | none => cases hmatch
    | some found => rfl
  | none | invalid | valid _ _ =>
    rw [hconstraint] at hwildcard
    cases hwildcard

theorem noneIn_of_not (h : ∀ binding ∈ bindings, inTier scope binding name = true → False) :
    NoneIn scope bindings name := fun binding hmem => Bool.eq_false_iff.2 (h binding hmem)

theorem serves_of_peer (peer : Option RoutePeer) {indexed : Option RoutePeer}
    (hname : ∀ binding, (binding.constraint.peer.isValid &&
      matchesBindingScope binding.constraint peer scope) = inTier scope binding name)
    (horders : (bindings.map (·.order)).Nodup)
    (hindexed : ∀ found, peer = some found → indexed = some found) :
    Serves scope bindings ⟨name, peer.isSome, peer,
      collectPeerIndexedBindings (buildEvaluatedBindingsIndex bindings) indexed,
      fun b => b.constraint.peer.isValid⟩ where
  holds := hname
  disabled hdisabled := noneIn_of_not fun binding _ hin => by
    rw [← hname, Bool.and_eq_true] at hin
    obtain ⟨found, hfound, -⟩ := hasPeer_of_matches hin.1 hin.2
    subst hfound
    cases hdisabled
  filed henabled := by
    obtain ⟨found, hfound⟩ := Option.isSome_iff_exists.1 henabled
    refine ⟨(·.hasPeer found), ?_, fun binding _ hin => ?_⟩
    · rw [hindexed found hfound]
      exact collectPeerIndexedBindings_build horders found
    · rw [← hname, Bool.and_eq_true] at hin
      obtain ⟨other, hother, hhas⟩ := hasPeer_of_matches hin.1 hin.2
      obtain rfl : found = other := Option.some.inj (hfound.symm.trans hother)
      exact hhas

theorem serves_wildcard :
    Serves scope bindings ⟨.bindingPeerWildcard, scope.peer.isSome, scope.peer,
      (buildEvaluatedBindingsIndex bindings).byPeerWildcard,
      fun b => b.constraint.peer.isWildcardKind⟩ where
  holds _ := rfl
  disabled hdisabled := noneIn_of_not fun binding _ hin => by
    obtain ⟨hwildcard, hmatch⟩ := Bool.and_eq_true_iff.1 hin
    exact absurd (peer_of_matches_wildcard hwildcard hmatch) (Bool.eq_false_iff.1 hdisabled)
  filed _ := ⟨_, (indexOf_build bindings).byPeerWildcard, fun binding _ hin =>
    (Bool.and_eq_true_iff.1 hin).1⟩

section

variable (hpeer : NoneIn scope bindings .bindingPeer)
  (hwildcard : NoneIn scope bindings .bindingPeerWildcard)

include hn hpeer hwildcard

theorem serves_guildRoles :
    Serves scope bindings ⟨.bindingGuildRoles,
      scope.guildId ≠ "" && 0 < scope.memberRoleIds.length, scope.peer,
      byId (buildEvaluatedBindingsIndex bindings).byGuildWithRoles scope.guildId,
      fun b => b.constraint.guildId.isSome && b.constraint.roles.isSome⟩ where
  holds _ := rfl
  disabled hdisabled := noneIn_of_not fun binding hmem hin => by
    obtain ⟨hconstraint, hmatch⟩ := Bool.and_eq_true_iff.1 hin
    obtain ⟨hid, hrole⟩ := Bool.and_eq_true_iff.1 hconstraint
    obtain ⟨id, hid⟩ := Option.isSome_iff_exists.1 hid
    have hguild := (guildId_of_matches hn hmem hmatch hid).2
    have hmember := memberRoleIds_of_matches hn hmem hmatch hrole
    simp [hguild] at hdisabled
    simp [hdisabled] at hmember
  filed henabled := by
    obtain ⟨hguild, -⟩ : scope.guildId ≠ "" ∧ scope.memberRoleIds ≠ [] := by
      simpa [List.length_pos_iff] using henabled
    refine ⟨(·.inGuildWithRoles scope.guildId), ?_, fun binding hmem hin => ?_⟩
    · rw [byId, if_neg hguild]
      exact (indexOf_build bindings).byGuildWithRoles _ hguild
    · obtain ⟨hconstraint, hmatch⟩ := Bool.and_eq_true_iff.1 hin
      obtain ⟨hid, hrole⟩ := Bool.and_eq_true_iff.1 hconstraint
      obtain ⟨id, hid⟩ := Option.isSome_iff_exists.1 hid
      obtain ⟨rfl, -⟩ := guildId_of_matches hn hmem hmatch hid
      simp [inGuildWithRoles, not_restricted hpeer hwildcard hmem hmatch, hid, hrole]

theorem serves_guild :
    Serves scope bindings ⟨.bindingGuild, scope.guildId ≠ "", scope.peer,
      byId (buildEvaluatedBindingsIndex bindings).byGuild scope.guildId,
      fun b => b.constraint.guildId.isSome && !b.constraint.roles.isSome⟩ where
  holds _ := rfl
  disabled hdisabled := noneIn_of_not fun binding hmem hin => by
    obtain ⟨hconstraint, hmatch⟩ := Bool.and_eq_true_iff.1 hin
    obtain ⟨id, hid⟩ := Option.isSome_iff_exists.1 (Bool.and_eq_true_iff.1 hconstraint).1
    simp [(guildId_of_matches hn hmem hmatch hid).2] at hdisabled
  filed henabled := by
    have hguild : scope.guildId ≠ "" := by simpa using henabled
    refine ⟨(·.inGuild scope.guildId), ?_, fun binding hmem hin => ?_⟩
    · rw [byId, if_neg hguild]
      exact (indexOf_build bindings).byGuild _ hguild
    · obtain ⟨hconstraint, hmatch⟩ := Bool.and_eq_true_iff.1 hin
      obtain ⟨hid, hrole⟩ := Bool.and_eq_true_iff.1 hconstraint
      obtain ⟨id, hid⟩ := Option.isSome_iff_exists.1 hid
      obtain ⟨rfl, -⟩ := guildId_of_matches hn hmem hmatch hid
      simpa [inGuild, not_restricted hpeer hwildcard hmem hmatch, hid] using hrole

variable (hroles : NoneIn scope bindings .bindingGuildRoles)
  (hguild : NoneIn scope bindings .bindingGuild)

include hroles hguild

theorem serves_team :
    Serves scope bindings ⟨.bindingTeam, scope.teamId ≠ "", scope.peer,
      byId (buildEvaluatedBindingsIndex bindings).byTeam scope.teamId,
      fun b => b.constraint.teamId.isSome⟩ where
  holds _ := rfl
  disabled hdisabled := noneIn_of_not fun binding hmem hin => by
    obtain ⟨hid, hmatch⟩ := Bool.and_eq_true_iff.1 hin
    obtain ⟨id, hid⟩ := Option.isSome_iff_exists.1 hid
    simp [(teamId_of_matches hn hmem hmatch hid).2] at hdisabled
  filed henabled := by
    have hteam : scope.teamId ≠ "" := by simpa using henabled
    refine ⟨(·.inTeam scope.teamId), ?_, fun binding hmem hin => ?_⟩
    · rw [byId, if_neg hteam]
      exact (indexOf_build bindings).byTeam _ hteam
    · obtain ⟨hid, hmatch⟩ := Bool.and_eq_true_iff.1 hin
      obtain ⟨id, hid⟩ := Option.isSome_iff_exists.1 hid
      obtain ⟨rfl, -⟩ := teamId_of_matches hn hmem hmatch hid
      simp [inTeam, not_restricted hpeer hwildcard hmem hmatch,
        guildId_eq_none hroles hguild hmem hmatch, hid]

variable (hteam : NoneIn scope bindings .bindingTeam)

include hteam

omit hn in
theorem unplaced_of_matches (hmem : binding ∈ bindings)
    (hmatch : matchesBindingScope binding.constraint scope.peer scope = true) :
    binding.unplaced = true := by
  simp [unplaced, not_restricted hpeer hwildcard hmem hmatch,
    guildId_eq_none hroles hguild hmem hmatch, teamId_eq_none hteam hmem hmatch]

omit hn in
theorem serves_account :
    Serves scope bindings ⟨.bindingAccount, true, scope.peer,
      (buildEvaluatedBindingsIndex bindings).byAccount,
      fun b => b.constraint.accountPattern ≠ "*"⟩ where
  holds _ := rfl
  disabled := nofun
  filed _ := by
    refine ⟨_, (indexOf_build bindings).byAccount, fun binding hmem hin => ?_⟩
    obtain ⟨hpattern, hmatch⟩ := Bool.and_eq_true_iff.1 hin
    have hunplaced := unplaced_of_matches hpeer hwildcard hroles hguild hteam hmem hmatch
    simpa [inAccount, hunplaced] using hpattern

omit hn in
theorem serves_channel :
    Serves scope bindings ⟨.bindingChannel, true, scope.peer,
      (buildEvaluatedBindingsIndex bindings).byChannel,
      fun b => b.constraint.accountPattern = "*"⟩ where
  holds _ := rfl
  disabled := nofun
  filed _ := by
    refine ⟨_, (indexOf_build bindings).byChannel, fun binding hmem hin => ?_⟩
    obtain ⟨hpattern, hmatch⟩ := Bool.and_eq_true_iff.1 hin
    have hunplaced := unplaced_of_matches hpeer hwildcard hroles hguild hteam hmem hmatch
    simpa [inChannel, hunplaced] using hpattern

end

theorem firstMatch_routeTiers (hn : Normalized scope bindings) :
    firstMatch scope (routeTiers (buildEvaluatedBindingsIndex bindings) scope) =
      referenceMatch scope bindings tierOrder := by
  have hparent : ∀ found, scope.parent = some found → scope.parentPeer = some found :=
    fun found hfound => (Option.filter_eq_some_iff.1 hfound).1
  refine firstMatch_cons (serves_of_peer scope.peer (fun _ => rfl) hn.orders fun _ => id) fun hpeer => ?_
  refine firstMatch_cons (serves_of_peer scope.parent (fun _ => rfl) hn.orders hparent) fun _ => ?_
  refine firstMatch_cons serves_wildcard fun hwildcard => ?_
  refine firstMatch_cons (serves_guildRoles hn hpeer hwildcard) fun hroles => ?_
  refine firstMatch_cons (serves_guild hn hpeer hwildcard) fun hguild => ?_
  refine firstMatch_cons (serves_team hn hpeer hwildcard hroles hguild) fun hteam => ?_
  refine firstMatch_cons (serves_account hpeer hwildcard hroles hguild hteam) fun _ => ?_
  exact firstMatch_cons (serves_channel hpeer hwildcard hroles hguild hteam) fun _ => rfl

/-! ## The bindings of a call -/

variable {lang : Lowercasing} {cfg : RouteConfig} {input : ResolveAgentRouteInput}

theorem constraint_of_mem (h : binding ∈ scopeBindings lang cfg scope) :
    ∃ configured : AgentBinding,
      binding.constraint = normalizeBindingMatch lang configured.bindingMatch := by
  obtain ⟨entry, hentry, hbinding⟩ := List.mem_filterMap.1 (List.mem_of_mem_filter h)
  obtain ⟨i, hi, rfl⟩ := List.mem_mapIdx.1 hentry
  simp only [Option.ite_none_right_eq_some, Option.some.injEq] at hbinding
  exact ⟨_, (congrArg EvaluatedBinding.constraint hbinding.2).symm⟩

theorem nonEmpty_ne_some_empty (value : String) : nonEmpty value ≠ some "" := by
  by_cases h : value = ""
  · simp [nonEmpty, h]
  · simpa [nonEmpty, h] using h

theorem normalizeId_trim (value : Option String) :
    JsString.trim (normalizeId value) = normalizeId value := by
  cases value with
  | none => rfl
  | some value => exact JsString.trim_trim value

theorem normalized_scopeBindings :
    Normalized (routeScope lang input) (scopeBindings lang cfg (routeScope lang input)) where
  guildId binding hmem hid := by
    obtain ⟨configured, hconstraint⟩ := constraint_of_mem hmem
    rw [hconstraint] at hid
    exact nonEmpty_ne_some_empty _ hid
  teamId binding hmem hid := by
    obtain ⟨configured, hconstraint⟩ := constraint_of_mem hmem
    rw [hconstraint] at hid
    exact nonEmpty_ne_some_empty _ hid
  roles binding hmem hroles := by
    obtain ⟨configured, hconstraint⟩ := constraint_of_mem hmem
    rw [hconstraint] at hroles
    simpa using (Option.filter_eq_some_iff.1 hroles).2
  scopeGuildId := normalizeId_trim _
  scopeTeamId := normalizeId_trim _
  orders := by
    rw [List.Nodup, List.pairwise_map]
    exact (orders_channelBindings.filter _).imp Nat.ne_of_lt

variable (lang cfg input) in
theorem referenceRoute_eq :
    routeOf lang cfg (buildAgentLookup lang cfg) (routeScope lang input)
      (firstMatch (routeScope lang input) (routeTiers (buildEvaluatedBindingsIndex
        (bindingsOf (buildEvaluatedBindingsByChannel lang cfg) (routeScope lang input).channel
          (routeScope lang input).accountId)) (routeScope lang input))) =
      referenceRoute lang cfg input := by
  rw [bindingsOf_build]
  exact congrArg _ (firstMatch_routeTiers normalized_scopeBindings)

end OpenClaw.Routing
